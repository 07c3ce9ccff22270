import Spaceshuttle.Kernel.ClientHello
import Spaceshuttle.Kernel.Inspection

/-!
# Slices of untrusted text

`infer_intent` decodes the first bytes of a connection and cuts the text after a number of bytes. The
bytes that are sent decide where the characters of the text end. All its other slices and indices are
in range.
-/

namespace Spaceshuttle.Kernel

/-! ## The tests -/

/-- `portmux.rs:126-130` with indices that can be out of range. -/
def tlsHelloChecked (bytes : List UInt8) : Option Bool :=
  if bytes.length ≥ 6 then do
    let b₀ ← bytes[0]?
    let b₁ ← bytes[1]?
    let b₅ ← bytes[5]?
    return b₀ == 0x16 && b₁ == 0x03 && b₅ == 0x01
  else some false

/-- `portmux.rs:143-148` with indices that can be out of range, and the slice of the message. -/
def pgStartupChecked (bytes : List UInt8) : Option Bool :=
  if bytes.length ≥ 8 then do
    let len ← be32 bytes 0
    let version ← be32 bytes 4
    if version = 196608 ∧ len > 8 ∧ len < 1024 then
      if 8 ≤ min bytes.length 256 then return true else none
    else return false
  else some false

/-- `portmux.rs:177` with an index that can be out of range. -/
def mysqlChecked (bytes : List UInt8) : Option Bool :=
  if bytes.length ≥ 5 then do
    let b₄ ← bytes[4]?
    return b₄ == 0x0A
  else some false

/-- `portmux.rs:190-192` with an index that can be out of range. -/
def dnsChecked (port : UInt16) (bytes : List UInt8) : Option Bool :=
  if port = 53 ∧ bytes.length ≥ 12 then do
    let b₂ : UInt8 ← bytes[2]?
    return ((b₂ >>> 7) &&& 1) == (0 : UInt8)
  else some false

/-- The branch that `infer_intent` takes, with indices that can be out of range. -/
def detectChecked (port : UInt16) (bytes : List UInt8) : Option Protocol := do
  if bytesStartWith bytes "SSH-" then return .ssh
  if ["GET ", "POST ", "PUT ", "DELETE ", "PATCH ", "HEAD ", "OPTIONS "].any
      (bytesStartWith bytes) then return .http
  if ← tlsHelloChecked bytes then return .tls
  if ← pgStartupChecked bytes then return .postgresql
  if ["*", "PING", "AUTH", "INFO"].any (bytesStartWith bytes) then return .redis
  if ← mysqlChecked bytes then return .mysql
  if ← dnsChecked port bytes then return .dns
  return .unknown

section Detect

variable {port : UInt16} {bytes : List UInt8}

theorem tlsHelloChecked_eq (bytes : List UInt8) : tlsHelloChecked bytes = some (isTlsHello bytes) := by
  unfold tlsHelloChecked isTlsHello
  split
  · next hlen =>
    rw [List.getElem?_eq_getElem (by omega : 0 < bytes.length),
      List.getElem?_eq_getElem (by omega : 1 < bytes.length),
      List.getElem?_eq_getElem (by omega : 5 < bytes.length)]
    simp [hlen]
  · next hlen => simp [hlen]

theorem pgStartupChecked_eq (bytes : List UInt8) :
    pgStartupChecked bytes = some (isPgStartup bytes) := by
  unfold pgStartupChecked isPgStartup
  split
  · next hlen =>
    obtain ⟨len, hlen₀⟩ := be32_isSome bytes 0 (by omega)
    obtain ⟨version, hversion⟩ := be32_isSome bytes 4 (by omega)
    simp only [hlen₀, hversion, Option.bind_eq_bind, Option.bind_some]
    rw [if_pos (by omega : 8 ≤ min bytes.length 256)]
    have htest : (version == 196608 && decide (len > 8) && decide (len < 1024)) =
        decide (version = 196608 ∧ len > 8 ∧ len < 1024) := by
      simp [Bool.and_assoc, beq_eq_decide]
    rw [htest]
    split
    · next hstartup => rw [decide_eq_true hstartup]; rfl
    · next hother => rw [decide_eq_false hother]; rfl
  · next hlen =>
    rw [be32_eq_none (by omega : bytes.length < 4 + 4)]
    cases be32 bytes 0 <;> rfl

theorem mysqlChecked_eq (bytes : List UInt8) : mysqlChecked bytes = some (bytes[4]? == some 0x0A) := by
  unfold mysqlChecked
  split
  · next hlen =>
    rw [List.getElem?_eq_getElem (by omega : 4 < bytes.length)]
    rfl
  · next hlen => rw [List.getElem?_eq_none (by omega)]; rfl

theorem shiftRight_seven_eq_zero (b : UInt8) :
    (((b >>> 7) &&& 1) == (0 : UInt8)) = decide (b < 0x80) := by
  have hb := b.toNat_lt
  rw [Bool.eq_iff_iff, beq_iff_eq, decide_eq_true_iff, ← UInt8.toNat_inj, UInt8.lt_iff_toNat_lt,
    UInt8.toNat_and, UInt8.toNat_shiftRight]
  simp only [UInt8.reduceToNat, Nat.reduceMod, Nat.shiftRight_eq_div_pow, Nat.and_one_is_mod]
  omega

theorem dnsChecked_eq (port : UInt16) (bytes : List UInt8) : dnsChecked port bytes =
    some (port == 53 && decide (bytes.length ≥ 12) && (bytes[2]?.any (fun b => decide (b < 0x80)))) := by
  unfold dnsChecked
  split
  · next h =>
    rw [List.getElem?_eq_getElem (by omega : 2 < bytes.length)]
    simp only [Option.bind_eq_bind, Option.bind_some, shiftRight_seven_eq_zero, Option.any_some]
    simp [h]
  · next h =>
    rcases not_and_or.mp h with hport | hlen
    · simp [hport]
    · simp [hlen]

/-- No index of the tests is out of range. -/
theorem detectChecked_eq (port : UInt16) (bytes : List UInt8) :
    detectChecked port bytes = some (detect port bytes) := by
  unfold detectChecked detect
  simp only [tlsHelloChecked_eq, pgStartupChecked_eq, mysqlChecked_eq, dnsChecked_eq,
    Option.bind_eq_bind, Option.bind_some]
  split_ifs <;> rfl

end Detect

/-! ## The slices -/

/-- The line that is found begins with the eleven ASCII characters of the name of the header. -/
theorem extractUserAgent_isSome (request : List Char) : (extractUserAgent request).isSome := by
  unfold extractUserAgent
  split
  · next line hfound =>
    have htest := List.find?_some hfound
    have hstart : "user-agent:".toList <+: Text.toLowercase line :=
      List.isPrefixOf_iff_prefix.mp htest
    have hplain : "user-agent:".toList.all
        (fun c => decide (c.toNat < 0x80 ∧ c ≠ 'i' ∧ c ≠ 'k')) = true := by decide
    have hslice := Text.sliceFrom_of_lowercase
      (fun c hc => of_decide_eq_true (List.all_eq_true.mp hplain c hc)) hstart
    rw [show (11 : Nat) = "user-agent:".toList.length from rfl, hslice]
    rfl
  · rfl

/-- The decoded text is cut for the preview inside one of its characters. -/
def PreviewCut (port : UInt16) (bytes : List UInt8) : Prop :=
  match detect port bytes with
  | .ssh => Text.Straddles (Text.fromUtf8Lossy (bytes.take 256)) 128
  | .http => Text.Straddles (Text.fromUtf8Lossy (bytes.take 2048)) 256
  | .redis => Text.Straddles (Text.fromUtf8Lossy (bytes.take 128)) 64
  | _ => False

theorem isSome_bind_some {α β : Type} (o : Option α) (f : α → β) :
    (o.bind (fun a => some (f a))).isSome = o.isSome := by
  cases o <;> rfl

section Infer

variable {port : UInt16} {bytes : List UInt8} {portMap : PortMap}

theorem previewText_isSome_iff : (previewText port bytes).isSome ↔ ¬ PreviewCut port bytes := by
  unfold previewText PreviewCut
  cases detect port bytes with
  | ssh | http | redis => exact Text.sliceAtMost_isSome_iff _ _
  | tls | postgresql | mysql | dns | unknown => simp

theorem getElem?_two_of_tls (h : detect port bytes = .tls) : ∃ b, bytes[2]? = some b := by
  have htls : isTlsHello bytes = true := by
    unfold detect at h
    split_ifs at h
    assumption
  simp only [isTlsHello, Bool.and_eq_true, decide_eq_true_eq] at htls
  exact ⟨_, List.getElem?_eq_getElem (by omega)⟩

theorem inferIntent_isSome_iff :
    (inferIntent port bytes portMap).isSome ↔ ¬ PreviewCut port bytes := by
  rw [← previewText_isSome_iff]
  unfold inferIntent previewText
  cases hdetect : detect port bytes with
  | ssh | redis => simp [isSome_bind_some]
  | http =>
    obtain ⟨userAgent, hagent⟩ :=
      Option.isSome_iff_exists.mp (extractUserAgent_isSome (Text.fromUtf8Lossy (bytes.take 2048)))
    simp [hagent, isSome_bind_some]
  | tls =>
    obtain ⟨sni, hsni⟩ := Option.isSome_iff_exists.mp (extractTlsSni_isSome bytes)
    obtain ⟨version, hversion⟩ := getElem?_two_of_tls hdetect
    simp [hsni, hversion]
  | postgresql | mysql | dns | unknown => simp

end Infer

/-- For every port, port map and byte sequence, the tests and the helpers stay in range, and
`infer_intent` returns if and only if it does not cut the text of the preview inside a character. -/
theorem infer_intent_returns_iff (port : UInt16) (bytes : List UInt8) (portMap : PortMap) :
    detectChecked port bytes = some (detect port bytes) ∧
      (∀ request, (extractUserAgent request).isSome) ∧ (extractTlsSni bytes).isSome ∧
      ((inferIntent port bytes portMap).isSome ↔ ¬ PreviewCut port bytes) :=
  ⟨detectChecked_eq port bytes, extractUserAgent_isSome, extractTlsSni_isSome bytes,
    inferIntent_isSome_iff⟩

/-- An SSH greeting with an accented letter in its bytes 127 and 128. -/
def accentedGreeting : List UInt8 :=
  [83, 83, 72, 45] ++ List.replicate 123 97 ++ [0xC3, 0xA9]

theorem accented_greeting_panics : inferIntent 22 accentedGreeting defaultPortMap = none := by
  have hcut : PreviewCut 22 accentedGreeting := by
    have hdetect : detect 22 accentedGreeting = .ssh := by decide
    unfold PreviewCut
    rw [hdetect]
    refine ⟨['S', 'S', 'H', '-'] ++ List.replicate 123 'a', 'é', [], ?_, ?_, ?_⟩ <;> decide +kernel
  rw [← Option.not_isSome_iff_eq_none, inferIntent_isSome_iff, not_not]
  exact hcut

end Spaceshuttle.Kernel
