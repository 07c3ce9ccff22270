import Spaceshuttle.Kernel.PortIntent
import Spaceshuttle.Lib.Cursor
import Spaceshuttle.Lib.Utf8

/-!
# Server names of TLS clients

The record in which a TLS client says hello, as clients write it, and what `extract_tls_sni` of
`crates/trust-kernel/src/portmux.rs:451-501` reads out of it. The lengths of the record and of the
handshake message are never read: where the hello ends is known only from its own fields.
-/

namespace Spaceshuttle.Kernel

open Cursor (ReadsAt)

/-! ## Safety -/

section Safety

variable {data : List UInt8}

/-- The loop over the extensions without fuel: the position comes closer to the end of the data in
every turn. -/
def sniLoop (data : List UInt8) (extensionsEnd pos : Nat) : Option (Option (List Char)) :=
  if h : pos + 4 ≤ extensionsEnd ∧ pos + 4 ≤ data.length then do
    let extType ← be16 data pos
    let extLen ← be16 data (pos + 2)
    if extType = 0 ∧ extLen > 5 ∧ pos + 4 + extLen ≤ data.length then
      let nameLen ← be16 data (pos + 4 + 3)
      if pos + 4 + 5 + nameLen ≤ data.length then
        return Text.fromUtf8 ((data.drop (pos + 4 + 5)).take nameLen)
      else sniLoop data extensionsEnd (pos + 4 + extLen)
    else sniLoop data extensionsEnd (pos + 4 + extLen)
  else some none
termination_by data.length - pos

/-- The fuel of `find_sni` does not run out. -/
theorem findSni_eq_sniLoop (extensionsEnd : Nat) {fuel pos : Nat} (hfuel : data.length ≤ pos + fuel) :
    findSni data extensionsEnd fuel pos = sniLoop data extensionsEnd pos := by
  induction fuel generalizing pos with
  | zero =>
    rw [findSni, sniLoop, dif_neg (by omega)]
  | succ fuel ih =>
    have hnext : ∀ extLen, findSni data extensionsEnd fuel (pos + 4 + extLen) =
        sniLoop data extensionsEnd (pos + 4 + extLen) := fun extLen => ih (by omega)
    rw [findSni, sniLoop]
    split
    · simp only [hnext]
    · rfl

theorem sniLoop_isSome (extensionsEnd pos : Nat) : (sniLoop data extensionsEnd pos).isSome := by
  induction hleft : data.length - pos using Nat.strong_induction_on generalizing pos with
  | _ left ih =>
    rw [sniLoop]
    split
    · next hmore =>
      obtain ⟨extType, htype⟩ := be16_isSome data pos (by omega)
      obtain ⟨extLen, hlen⟩ := be16_isSome data (pos + 2) (by omega)
      have hnext := ih (data.length - (pos + 4 + extLen)) (by omega) (pos + 4 + extLen) rfl
      simp only [htype, hlen, Option.bind_eq_bind, Option.bind_some]
      split
      · next hname =>
        obtain ⟨nameLen, hnameLen⟩ := be16_isSome data (pos + 4 + 3) (by omega)
        simp only [hnameLen, Option.bind_some]
        split
        · rfl
        · exact hnext
      · exact hnext
    · rfl

/-- `extract_tls_sni` returns on every byte sequence: no index is out of range. -/
theorem extractTlsSni_isSome (data : List UInt8) : (extractTlsSni data).isSome := by
  unfold extractTlsSni
  split
  · rfl
  · dsimp only
    split
    · rfl
    · next hshort hpos =>
      have hget : ∀ i < data.length, ∃ b, data[i]? = some b :=
        fun i hi => ⟨_, List.getElem?_eq_getElem hi⟩
      obtain ⟨sessionIdLen, hsession⟩ := hget _ (Nat.lt_of_not_le hpos)
      simp only [hsession, Option.bind_eq_bind, Option.bind_some]
      split
      · rfl
      · next hciphers =>
        obtain ⟨cipherSuitesLen, hsuites⟩ := be16_isSome data _ (Nat.le_of_not_lt hciphers)
        simp only [hsuites, Option.bind_some]
        split
        · rfl
        · next hcompression =>
          obtain ⟨compressionLen, hmethods⟩ := hget _ (Nat.lt_of_succ_le (Nat.le_of_not_lt hcompression))
          simp only [hmethods, Option.bind_some]
          split
          · rfl
          · next hextensions =>
            obtain ⟨extensionsLen, hlen⟩ := be16_isSome data _ (Nat.le_of_not_lt hextensions)
            simp only [hlen, Option.bind_some]
            rw [findSni_eq_sniLoop _ (by omega)]
            exact sniLoop_isSome _ _

end Safety

namespace Tls

/-! ## What a client writes -/

/-- Two bytes, the more significant one first. -/
def u16 (n : Nat) : List UInt8 := [UInt8.ofNat (n / 256), UInt8.ofNat n]

/-- Three bytes, the most significant one first. -/
def u24 (n : Nat) : List UInt8 := UInt8.ofNat (n / 65536) :: u16 n

/-- A vector with its length in one byte. -/
def vec8 (body : List UInt8) : List UInt8 := UInt8.ofNat body.length :: body

/-- A vector with its length in two bytes. -/
def vec16 (body : List UInt8) : List UInt8 := u16 body.length ++ body

/-- An entry of the list of server names. -/
structure ServerName where
  nameType : UInt8
  name : List UInt8
  deriving DecidableEq, Repr

/-- An entry on the wire: its type, and the name with its length. -/
def ServerName.encode (entry : ServerName) : List UInt8 := entry.nameType :: vec16 entry.name

/-- An extension: the server names, of which there is one at least, or any other extension. -/
inductive Extension where
  | serverName (first : ServerName) (others : List ServerName)
  | other (extType : UInt16) (body : List UInt8)
  deriving DecidableEq, Repr

namespace Extension

/-- The type of an extension on the wire; that of the server names is 0. -/
def extType : Extension → UInt16
  | .serverName _ _ => 0
  | .other extType _ => extType

/-- The body of an extension; that of the server names is the list of their entries. -/
def body : Extension → List UInt8
  | .serverName first others => vec16 ((first :: others).flatMap ServerName.encode)
  | .other _ body => body

/-- An extension on the wire. -/
def encode (e : Extension) : List UInt8 := u16 e.extType.toNat ++ vec16 e.body

/-- The first server name of an extension. -/
def first? : Extension → Option ServerName
  | .serverName first _ => some first
  | .other _ _ => none

/-- No other extension has the type of the server names. -/
def Proper : Extension → Prop
  | .serverName _ _ => True
  | .other extType _ => extType ≠ 0

end Extension

/-- The extensions one after the other. -/
def encodeExtensions (extensions : List Extension) : List UInt8 :=
  extensions.flatMap Extension.encode

/-- A hello. Clients that have no extensions may leave out the whole block. -/
structure ClientHello where
  recordVersion : UInt16
  clientVersion : UInt16
  random : List UInt8
  sessionId : List UInt8
  cipherSuites : List UInt16
  compressionMethods : List UInt8
  extensions : Option (List Extension)
  deriving DecidableEq, Repr

namespace ClientHello

/-- The cipher suites on the wire. -/
def suites (hello : ClientHello) : List UInt8 :=
  hello.cipherSuites.flatMap (fun suite => u16 suite.toNat)

/-- The block of extensions, if there is one. -/
def block (hello : ClientHello) : List UInt8 :=
  match hello.extensions with
  | none => []
  | some extensions => vec16 (encodeExtensions extensions)

/-- The handshake message behind its type and length. -/
def message (hello : ClientHello) : List UInt8 :=
  u16 hello.clientVersion.toNat ++ (hello.random ++ (vec8 hello.sessionId ++
    (vec16 hello.suites ++ (vec8 hello.compressionMethods ++ hello.block))))

/-- The TLS record. -/
def record (hello : ClientHello) : List UInt8 :=
  0x16 :: (u16 hello.recordVersion.toNat ++ (u16 (hello.message.length + 4) ++
    (0x01 :: (u24 hello.message.length ++ hello.message))))

/-- The first entry of the server names, if there are any. -/
def serverName? (hello : ClientHello) : Option ServerName :=
  (hello.extensions.getD []).findSome? Extension.first?

/-- Every length fits its field. -/
structure WellFormed (hello : ClientHello) : Prop where
  random : hello.random.length = 32
  sessionId : hello.sessionId.length ≤ 32
  suites : hello.suites.length < 2 ^ 16
  compressionMethods : hello.compressionMethods.length < 2 ^ 8
  extensions : ∀ extensions ∈ hello.extensions, (encodeExtensions extensions).length < 2 ^ 16 ∧
    ∀ e ∈ extensions, e.Proper
  message : hello.message.length + 4 ≤ 2 ^ 14

end ClientHello

/-! ## Reading the extensions -/

@[simp] theorem length_u16 (n : Nat) : (u16 n).length = 2 := rfl

@[simp] theorem length_vec16 (body : List UInt8) : (vec16 body).length = body.length + 2 := by
  simp [vec16, Nat.add_comm]

@[simp] theorem length_vec8 (body : List UInt8) : (vec8 body).length = body.length + 1 := rfl

section Reading

variable {data back : List UInt8} {pos n : Nat}

theorem be16_readsAt (hn : n < 2 ^ 16) (h : ReadsAt data pos (u16 n ++ back)) :
    be16 data pos = some n := by
  have hhigh : data[pos]? = some (UInt8.ofNat (n / 256)) := h.getElem? 0
  have hlow : data[pos + 1]? = some (UInt8.ofNat n) := h.getElem? 1
  rw [be16_eq hhigh hlow, UInt8.toNat_ofNat', UInt8.toNat_ofNat']
  congr 1
  omega

theorem length_encode (e : Extension) : e.encode.length = e.body.length + 4 := by
  simp only [Extension.encode, List.length_append, length_u16, length_vec16]
  omega

/-- The type and the length of an extension, and where its body stands. -/
theorem readsAt_extension {e : Extension} (h : ReadsAt data pos (e.encode ++ back))
    (hsize : e.body.length < 2 ^ 16) :
    be16 data pos = some e.extType.toNat ∧ be16 data (pos + 2) = some e.body.length ∧
      ReadsAt data (pos + 4) (e.body ++ back) := by
  rw [Extension.encode, vec16, List.append_assoc, List.append_assoc] at h
  have hlength := h.skip (length_u16 _)
  exact ⟨be16_readsAt e.extType.toNat_lt h, be16_readsAt hsize hlength, hlength.skip (length_u16 _)⟩

/-- The length of the first name of a list of server names, and where the name stands. -/
theorem readsAt_serverName {first : ServerName} {others : List ServerName}
    (h : ReadsAt data pos ((Extension.serverName first others).body ++ back))
    (hsize : first.name.length < 2 ^ 16) :
    be16 data (pos + 3) = some first.name.length ∧
      ∃ back', ReadsAt data (pos + 5) (first.name ++ back') := by
  rw [Extension.body, vec16, List.flatMap_cons, ServerName.encode, vec16, List.append_assoc,
    List.append_assoc, List.cons_append, List.append_assoc] at h
  have hentry := h.skip (length_u16 _)
  rw [List.cons_append, List.append_assoc] at hentry
  have hlength : ReadsAt data (pos + 3) _ := hentry.next
  have hname := hlength.skip (length_u16 _)
  exact ⟨be16_readsAt hsize hlength, _, hname⟩

theorem length_serverName (first : ServerName) (others : List ServerName) :
    first.name.length + 5 ≤ (Extension.serverName first others).body.length := by
  simp only [Extension.body, length_vec16, List.flatMap_cons, List.length_append, ServerName.encode,
    List.length_cons]
  omega

/-- The loop finds the first server name of the extensions that stand before the end. -/
theorem sniLoop_encodeExtensions {extensions : List Extension} {rest : List UInt8}
    (h : ReadsAt data pos (encodeExtensions extensions ++ rest))
    (hsize : (encodeExtensions extensions).length < 2 ^ 16) (hproper : ∀ e ∈ extensions, e.Proper)
    (hname : ∀ first ∈ extensions.findSome? Extension.first?, first.name ≠ []) :
    sniLoop data (pos + (encodeExtensions extensions).length) pos =
      some ((extensions.findSome? Extension.first?).bind (fun first => Text.fromUtf8 first.name)) := by
  generalize hend : pos + (encodeExtensions extensions).length = extensionsEnd
  induction extensions generalizing pos with
  | nil =>
    rw [sniLoop, dif_neg]
    · rfl
    · simp only [encodeExtensions, List.flatMap_nil, List.length_nil] at hend
      omega
  | cons e extensions ih =>
    have hlength := length_encode e
    rw [encodeExtensions, List.flatMap_cons, List.length_append] at hsize hend
    rw [encodeExtensions, List.flatMap_cons, List.append_assoc] at h
    have htotal := h.length
    rw [List.length_append, List.length_append] at htotal
    obtain ⟨htype, hlen, hbody⟩ := readsAt_extension h (by omega)
    rw [sniLoop, dif_pos (by omega)]
    simp only [htype, hlen, Option.bind_eq_bind, Option.bind_some]
    cases e with
    | other extType body =>
      have hother : extType.toNat ≠ 0 := fun hzero =>
        hproper _ List.mem_cons_self (UInt16.toNat_inj.mp hzero)
      rw [Extension.extType, if_neg (fun hserver => hother hserver.1)]
      exact ih (hbody.skip rfl) (by rw [encodeExtensions]; omega)
        (fun e he => hproper e (List.mem_cons_of_mem _ he)) hname (by rw [encodeExtensions]; omega)
    | serverName first others =>
      have hfirst := length_serverName first others
      have hne : first.name.length ≠ 0 := by simpa using hname first rfl
      obtain ⟨hnameLen, back', hread⟩ := readsAt_serverName hbody (by omega)
      have hroom := hread.length
      rw [List.length_append] at hroom
      rw [if_pos ⟨rfl, by omega, by omega⟩]
      simp only [hnameLen, Option.bind_some]
      rw [if_pos (by omega), hread.take rfl]
      rfl

/-- The session id stands behind the headers, the version and the random bytes. -/
theorem readsAt_sessionId {hello : ClientHello} (h : hello.WellFormed) (rest : List UInt8) :
    ReadsAt (hello.record ++ rest) 43 (vec8 hello.sessionId ++ (vec16 hello.suites ++
      (vec8 hello.compressionMethods ++ (hello.block ++ rest)))) := by
  refine ⟨0x16 :: (u16 hello.recordVersion.toNat ++ (u16 (hello.message.length + 4) ++
    (0x01 :: (u24 hello.message.length ++ (u16 hello.clientVersion.toNat ++ hello.random))))), ?_, ?_⟩
  · simp only [ClientHello.record, ClientHello.message, List.cons_append, List.append_assoc]
  · simp only [List.length_cons, List.length_append, length_u16, u24, h.random]

/-- `extract_tls_sni` on a record goes from field to field to the block of extensions. -/
theorem extractTlsSni_record {hello : ClientHello} (h : hello.WellFormed) (rest : List UInt8) :
    ∃ pos, ReadsAt (hello.record ++ rest) pos (hello.block ++ rest) ∧
      extractTlsSni (hello.record ++ rest) =
        if pos + 2 > (hello.record ++ rest).length then some none
        else (be16 (hello.record ++ rest) pos).bind (fun extensionsLen =>
          sniLoop (hello.record ++ rest) (pos + 2 + extensionsLen) (pos + 2)) := by
  have hsession := readsAt_sessionId h rest
  have hsuites := hsession.skip (length_vec8 _)
  have hmethods := hsuites.skip (length_vec16 _)
  have hblock := hmethods.skip (length_vec8 _)
  have hsessionLen : (hello.record ++ rest)[43]? = some (UInt8.ofNat hello.sessionId.length) :=
    hsession.getElem? 0
  have hsuitesLen := be16_readsAt h.suites (by rw [vec16, List.append_assoc] at hsuites; exact hsuites)
  have hmethodsLen : (hello.record ++ rest)[43 + (hello.sessionId.length + 1) +
      (hello.suites.length + 2)]? = some (UInt8.ofNat hello.compressionMethods.length) :=
    hmethods.getElem? 0
  have hlength := hblock.length
  have hsession8 : (UInt8.ofNat hello.sessionId.length).toNat = hello.sessionId.length :=
    UInt8.toNat_ofNat_of_lt' (Nat.lt_of_le_of_lt h.sessionId (by decide))
  have hmethods8 : (UInt8.ofNat hello.compressionMethods.length).toNat =
      hello.compressionMethods.length := UInt8.toNat_ofNat_of_lt' h.compressionMethods
  have hpos₁ : 5 + 1 + 3 + 2 + 32 + 1 + hello.sessionId.length = 43 + (hello.sessionId.length + 1) := by
    omega
  have hpos₂ : 43 + (hello.sessionId.length + 1) + 2 + hello.suites.length =
      43 + (hello.sessionId.length + 1) + (hello.suites.length + 2) := by
    omega
  have hpos₃ : 43 + (hello.sessionId.length + 1) + (hello.suites.length + 2) + 1 +
      hello.compressionMethods.length = 43 + (hello.sessionId.length + 1) +
        (hello.suites.length + 2) + (hello.compressionMethods.length + 1) := by
    omega
  refine ⟨_, hblock, ?_⟩
  generalize hello.record ++ rest = data at *
  unfold extractTlsSni
  rw [if_neg (by omega)]
  dsimp only
  rw [if_neg (by omega)]
  simp only [hsessionLen, Option.bind_eq_bind, Option.bind_some, hsession8]
  rw [hpos₁, if_neg (by omega)]
  simp only [hsuitesLen, Option.bind_some]
  rw [hpos₂, if_neg (by omega)]
  simp only [hmethodsLen, Option.bind_some, hmethods8]
  rw [hpos₃]
  congr 2
  funext extensionsLen
  exact findSni_eq_sniLoop _ (Nat.le_add_left _ _)

/-- A block of extensions, with anything behind the record. -/
theorem extractTlsSni_extensions {hello : ClientHello} (h : hello.WellFormed)
    {extensions : List Extension} (hextensions : hello.extensions = some extensions)
    (hname : ∀ first ∈ hello.serverName?, first.name ≠ []) (rest : List UInt8) :
    extractTlsSni (hello.record ++ rest) =
      some (hello.serverName?.bind (fun first => Text.fromUtf8 first.name)) := by
  obtain ⟨hsize, hproper⟩ := h.extensions extensions hextensions
  obtain ⟨pos, hread, hresult⟩ := extractTlsSni_record h rest
  have hblock : hello.block = vec16 (encodeExtensions extensions) := by
    rw [ClientHello.block, hextensions]
  rw [hblock, vec16, List.append_assoc] at hread
  have hlength := hread.length
  rw [List.length_append, length_u16] at hlength
  have hfirst := sniLoop_encodeExtensions (hread.skip (length_u16 _)) hsize hproper
  rw [ClientHello.serverName?, hextensions, Option.getD_some] at hname ⊢
  rw [hresult, if_neg (by omega), be16_readsAt hsize hread, Option.bind_some, hfirst hname]

/-- No block of extensions, and less than two bytes behind the record. -/
theorem extractTlsSni_no_extensions {hello : ClientHello} (h : hello.WellFormed)
    (hextensions : hello.extensions = none) {rest : List UInt8} (hrest : rest.length < 2) :
    extractTlsSni (hello.record ++ rest) = some none := by
  obtain ⟨pos, hread, hresult⟩ := extractTlsSni_record h rest
  rw [ClientHello.block, hextensions, List.nil_append] at hread
  have hlength := hread.length
  rw [hresult, if_pos (by omega)]

end Reading

/-- On every byte sequence `extract_tls_sni` returns, and its loop ends. On a well-formed record that
has a block of extensions, or that is followed by less than two bytes, it returns the first server
name if there is one and it is text, and nothing if there are no server names. -/
theorem extract_tls_sni_correct (data : List UInt8) (hello : ClientHello) (h : hello.WellFormed)
    (rest : List UInt8) (hblock : hello.extensions.isSome ∨ rest.length < 2) :
    (extractTlsSni data).isSome ∧
      (∀ extensionsEnd pos, findSni data extensionsEnd data.length pos =
        sniLoop data extensionsEnd pos) ∧
      (∀ first host, hello.serverName? = some first → first.name = Text.encode host → host ≠ [] →
        extractTlsSni (hello.record ++ rest) = some (some host)) ∧
      (hello.serverName? = none → extractTlsSni (hello.record ++ rest) = some none) := by
  refine ⟨extractTlsSni_isSome data, fun extensionsEnd pos =>
    findSni_eq_sniLoop extensionsEnd (Nat.le_add_left _ _), ?_, ?_⟩
  · intro first host hfirst hname hhost
    cases hextensions : hello.extensions with
    | none => simp [ClientHello.serverName?, hextensions] at hfirst
    | some extensions =>
      rw [extractTlsSni_extensions h hextensions, hfirst, Option.bind_some, hname, Text.fromUtf8_encode]
      intro first' hfirst'
      obtain rfl := Option.some.inj (hfirst.symm.trans hfirst')
      rw [hname]
      exact Text.encode_ne_nil hhost
  · intro hnone
    cases hextensions : hello.extensions with
    | none =>
      have hnone := hblock.resolve_left (by simp [hextensions])
      exact extractTlsSni_no_extensions h hextensions hnone
    | some extensions =>
      rw [extractTlsSni_extensions h hextensions (by simp [hnone]), hnone, Option.bind_none]

/-- A hello of TLS 1.2 without extensions. -/
def plainHello : ClientHello where
  recordVersion := 0x0301
  clientVersion := 0x0303
  random := List.replicate 32 7
  sessionId := []
  cipherSuites := [0x009C]
  compressionMethods := [0]
  extensions := none

/-- The same with two extensions; the name is `a.nl`. -/
def namedHello : ClientHello :=
  { plainHello with extensions := some [.other 0x000B [1, 0], .serverName ⟨0, [97, 46, 110, 108]⟩ []] }

theorem plainHello_wellFormed : plainHello.WellFormed where
  random := by decide
  sessionId := by decide
  suites := by decide
  compressionMethods := by decide
  extensions := by simp [plainHello]
  message := by decide

theorem namedHello_wellFormed : namedHello.WellFormed where
  random := by decide
  sessionId := by decide
  suites := by decide
  compressionMethods := by decide
  extensions := by
    intro extensions hextensions
    obtain rfl := Option.some.inj hextensions
    refine ⟨by decide, ?_⟩
    simp [Extension.Proper]
  message := by decide

theorem extract_tls_sni_correct_named :
    extractTlsSni (namedHello.record ++ [20, 3, 3]) = some (some ['a', '.', 'n', 'l']) :=
  (extract_tls_sni_correct [] namedHello namedHello_wellFormed [20, 3, 3] (.inl rfl)).2.2.1
    ⟨0, [97, 46, 110, 108]⟩ ['a', '.', 'n', 'l'] rfl (by decide) (by decide)

/-- The bytes behind a hello without extensions are read as its extensions. -/
theorem plainHello_named_by_rest :
    plainHello.WellFormed ∧ plainHello.serverName? = none ∧
      extractTlsSni (plainHello.record ++ [0, 10, 0, 0, 0, 6, 0, 4, 0, 0, 1, 120]) =
        some (some ['x']) := by
  refine ⟨plainHello_wellFormed, rfl, ?_⟩
  decide

end Tls

end Spaceshuttle.Kernel
