import Mathlib.Algebra.Ring.Nat
import Mathlib.Data.List.Infix

/-!
# Text from bytes

Decoding of UTF-8 that is not trusted, and the operations on decoded text that work by bytes or by
Unicode whitespace. A text is the list of its characters. An operation that can fail on a byte
index which is out of range or inside a character returns an option.
-/

namespace Text

/-! ## Decoding -/

/-- A continuation byte. -/
def isContinuation (b : UInt8) : Bool := 0x80 ≤ b && b ≤ 0xBF

/-- The second byte of a three-byte character. -/
def isSecondOfThree (b₀ b₁ : UInt8) : Bool :=
  if b₀ = 0xE0 then 0xA0 ≤ b₁ && b₁ ≤ 0xBF
  else if b₀ = 0xED then 0x80 ≤ b₁ && b₁ ≤ 0x9F
  else isContinuation b₁

/-- The second byte of a four-byte character. -/
def isSecondOfFour (b₀ b₁ : UInt8) : Bool :=
  if b₀ = 0xF0 then 0x90 ≤ b₁ && b₁ ≤ 0xBF
  else if b₀ = 0xF4 then 0x80 ≤ b₁ && b₁ ≤ 0x8F
  else isContinuation b₁

/-- The last `bits` bits of a byte as a number. -/
def lowBits (bits : Nat) (b : UInt8) : Nat := b.toNat % 2 ^ bits

/-- The first character of a byte sequence and the bytes after it. No character stands for the
longest prefix that could have begun one, or for a single byte that could not. -/
def next (b₀ : UInt8) (rest : List UInt8) : Option Char × List UInt8 :=
  if b₀ < 0x80 then (some (Char.ofNat b₀.toNat), rest)
  else if 0xC2 ≤ b₀ && b₀ ≤ 0xDF then
    match rest with
    | b₁ :: rest₁ =>
        if isContinuation b₁ then
          (some (Char.ofNat (lowBits 5 b₀ * 64 + lowBits 6 b₁)), rest₁)
        else (none, rest)
    | [] => (none, [])
  else if 0xE0 ≤ b₀ && b₀ ≤ 0xEF then
    match rest with
    | b₁ :: rest₁ =>
        if isSecondOfThree b₀ b₁ then
          match rest₁ with
          | b₂ :: rest₂ =>
              if isContinuation b₂ then
                (some (Char.ofNat ((lowBits 4 b₀ * 64 + lowBits 6 b₁) * 64 + lowBits 6 b₂)), rest₂)
              else (none, rest₁)
          | [] => (none, [])
        else (none, rest)
    | [] => (none, [])
  else if 0xF0 ≤ b₀ && b₀ ≤ 0xF4 then
    match rest with
    | b₁ :: rest₁ =>
        if isSecondOfFour b₀ b₁ then
          match rest₁ with
          | b₂ :: rest₂ =>
              if isContinuation b₂ then
                match rest₂ with
                | b₃ :: rest₃ =>
                    if isContinuation b₃ then
                      (some (Char.ofNat (((lowBits 3 b₀ * 64 + lowBits 6 b₁) * 64 + lowBits 6 b₂) *
                        64 + lowBits 6 b₃)), rest₃)
                    else (none, rest₂)
                | [] => (none, [])
              else (none, rest₁)
          | [] => (none, [])
        else (none, rest)
    | [] => (none, [])
  else (none, rest)

/-- The characters of a byte sequence, with `none` for each invalid part. Every character takes at
least one byte, so the length of the sequence is fuel enough. -/
def decodeWith : Nat → List UInt8 → List (Option Char)
  | _, [] => []
  | 0, _ :: _ => []
  | fuel + 1, b :: bytes => (next b bytes).1 :: decodeWith fuel (next b bytes).2

/-- Decode, with the replacement character for each invalid part: `String::from_utf8_lossy`. -/
def fromUtf8Lossy (bytes : List UInt8) : List Char :=
  (decodeWith bytes.length bytes).map (fun c => c.getD (Char.ofNat 0xFFFD))

/-- Decode a sequence that is valid throughout: `String::from_utf8`. -/
def fromUtf8 (bytes : List UInt8) : Option (List Char) :=
  (decodeWith bytes.length bytes).mapM id

/-! ## Slices by bytes -/

/-- The length in bytes. -/
def byteLength (text : List Char) : Nat := (text.map Char.utf8Size).sum

/-- The first `n` bytes; fails if there are fewer or if they end inside a character. -/
def sliceTo : List Char → Nat → Option (List Char)
  | _, 0 => some []
  | [], _ + 1 => none
  | c :: text, n + 1 =>
      if c.utf8Size ≤ n + 1 then (sliceTo text (n + 1 - c.utf8Size)).map (c :: ·) else none

/-- At most the first `n` bytes; fails if they end inside a character. -/
def sliceAtMost (text : List Char) (n : Nat) : Option (List Char) :=
  sliceTo text (min (byteLength text) n)

/-- The text from byte `n` on; fails if there are fewer bytes or if they end inside a character. -/
def sliceFrom : List Char → Nat → Option (List Char)
  | text, 0 => some text
  | [], _ + 1 => none
  | c :: text, n + 1 =>
      if c.utf8Size ≤ n + 1 then sliceFrom text (n + 1 - c.utf8Size) else none

/-- A character of the text begins before byte `n` and ends after it. -/
def Straddles (text : List Char) (n : Nat) : Prop :=
  ∃ before c after, text = before ++ c :: after ∧ byteLength before < n ∧
    n < byteLength before + c.utf8Size

@[simp] theorem byteLength_nil : byteLength [] = 0 := rfl

@[simp] theorem byteLength_cons (c : Char) (text : List Char) :
    byteLength (c :: text) = c.utf8Size + byteLength text := rfl

theorem byteLength_append (front back : List Char) :
    byteLength (front ++ back) = byteLength front + byteLength back := by
  simp [byteLength]

theorem straddles_cons {c : Char} {text : List Char} {n : Nat} (h : c.utf8Size ≤ n) :
    Straddles (c :: text) n ↔ Straddles text (n - c.utf8Size) := by
  constructor
  · rintro ⟨before, d, after, htext, hstart, hend⟩
    cases before with
    | nil =>
      obtain ⟨rfl, -⟩ := List.cons.inj htext
      rw [byteLength_nil] at hend
      omega
    | cons b before =>
      obtain ⟨rfl, rfl⟩ := List.cons.inj htext
      rw [byteLength_cons] at hstart hend
      exact ⟨before, d, after, rfl, by omega, by omega⟩
  · rintro ⟨before, d, after, rfl, hstart, hend⟩
    refine ⟨c :: before, d, after, rfl, ?_, ?_⟩ <;> rw [byteLength_cons] <;> omega

theorem not_straddles_of_le {text : List Char} {n : Nat} (h : byteLength text ≤ n) :
    ¬ Straddles text n := by
  rintro ⟨before, c, after, rfl, -, hend⟩
  rw [byteLength_append, byteLength_cons] at h
  omega

theorem sliceTo_eq_none_iff {text : List Char} {n : Nat} (hn : n ≤ byteLength text) :
    sliceTo text n = none ↔ Straddles text n := by
  induction text generalizing n with
  | nil =>
    obtain rfl : n = 0 := Nat.le_zero.mp hn
    refine iff_of_false (by simp [sliceTo]) ?_
    rintro ⟨before, c, after, -, hstart, -⟩
    exact Nat.not_lt_zero _ hstart
  | cons c text ih =>
    cases n with
    | zero =>
      refine iff_of_false (by simp [sliceTo]) ?_
      rintro ⟨before, c, after, -, hstart, -⟩
      exact Nat.not_lt_zero _ hstart
    | succ n =>
      rw [byteLength_cons] at hn
      rw [sliceTo]
      split
      · next hle => rw [Option.map_eq_none_iff, ih (by omega), straddles_cons hle]
      · next hlt => exact iff_of_true rfl ⟨[], c, text, rfl, Nat.succ_pos n, by simpa using hlt⟩

/-- A slice of at most `n` bytes fails exactly if byte `n` is inside a character. -/
theorem sliceAtMost_isSome_iff (text : List Char) (n : Nat) :
    (sliceAtMost text n).isSome ↔ ¬ Straddles text n := by
  unfold sliceAtMost
  rw [Option.isSome_iff_ne_none, ne_eq, sliceTo_eq_none_iff (Nat.min_le_left _ _)]
  rcases Nat.le_total n (byteLength text) with hle | hle
  · rw [Nat.min_eq_right hle]
  · rw [Nat.min_eq_left hle]
    exact iff_of_true (not_straddles_of_le (Nat.le_refl _)) (not_straddles_of_le hle)

/-- What stands behind the last separator. -/
theorem append_separator_inj {c : Char} {front front' back back' : List Char}
    (h : front ++ c :: back = front' ++ c :: back') (hback : c ∉ back) (hback' : c ∉ back') :
    back = back' := by
  rcases List.append_eq_append_iff.mp h with ⟨middle, -, hrest⟩ | ⟨middle, -, hrest⟩
  · cases middle with
    | nil => exact (List.cons.inj hrest).2
    | cons d middle =>
      obtain ⟨rfl, rfl⟩ := List.cons.inj hrest
      exact absurd (by simp) hback
  · cases middle with
    | nil => exact (List.cons.inj hrest).2.symm
    | cons d middle =>
      obtain ⟨rfl, rfl⟩ := List.cons.inj hrest
      exact absurd (by simp) hback'

/-! ## Words and lines -/

/-- The Unicode property `White_Space`. -/
def isWhitespace (c : Char) : Bool :=
  (9 ≤ c.toNat && c.toNat ≤ 13) || c.toNat == 0x20 || c.toNat == 0x85 || c.toNat == 0xA0 ||
    c.toNat == 0x1680 || (0x2000 ≤ c.toNat && c.toNat ≤ 0x200A) || c.toNat == 0x2028 ||
    c.toNat == 0x2029 || c.toNat == 0x202F || c.toNat == 0x205F || c.toNat == 0x3000

/-- The words between whitespace: `str::split_whitespace`. -/
def splitWhitespace (text : List Char) : List (List Char) :=
  (text.splitOnP isWhitespace).filter (fun word => !word.isEmpty)

/-- A word at the start of a text. -/
theorem splitWhitespace_append {word rest : List Char} {c : Char} (hne : word ≠ [])
    (hword : ∀ d ∈ word, isWhitespace d = false) (hc : isWhitespace c = true) :
    splitWhitespace (word ++ c :: rest) = word :: splitWhitespace rest := by
  unfold splitWhitespace
  rw [List.splitOnP_append_cons_of_forall_mem hword c hc rest, List.filter_cons_of_pos]
  simpa using hne

/-- Without leading and trailing whitespace: `str::trim`. -/
def trim (text : List Char) : List Char :=
  ((text.dropWhile isWhitespace).reverse.dropWhile isWhitespace).reverse

/-- A line that ended in a line feed, without the carriage return before it. -/
def stripReturn (line : List Char) : List Char :=
  if line.getLast? = some '\r' then line.dropLast else line

/-- The lines of a text: `str::lines`. The last line need not end in a line feed, and is no line
if it is empty. -/
def lines (text : List Char) : List (List Char) :=
  let pieces := text.splitOn '\n'
  let last := pieces.getLastD []
  pieces.dropLast.map stripReturn ++ if last.isEmpty then [] else [last]

/-! ## Lowercase -/

/-- `char::to_lowercase` as far as ASCII goes. Outside ASCII, two characters have ASCII in their
lowercase form; the other ones are left as they are. -/
def lowercase (c : Char) : List Char :=
  if c.toNat = 0x130 then ['i', Char.ofNat 0x307]
  else if c.toNat = 0x212A then ['k']
  else [c.toLower]

/-- `str::to_lowercase`, for comparison with ASCII text. -/
def toLowercase (text : List Char) : List Char := text.flatMap lowercase

theorem toNat_lt_of_toLower {c : Char} (h : c.toLower.toNat < 0x80) : c.toNat < 0x80 := by
  unfold Char.toLower at h
  split at h
  · next hupper =>
    have hle : c.val.toNat ≤ 'Z'.val.toNat := UInt32.le_iff_toNat_le.mp hupper.2
    exact Nat.lt_of_le_of_lt hle (by decide)
  · exact h

/-- A text whose lowercase form starts with an ASCII pattern has the pattern's length in bytes where
it has it in characters. Two letters are excluded: they are the lowercase of longer characters. -/
theorem sliceFrom_of_lowercase {pattern text : List Char}
    (hpattern : ∀ c ∈ pattern, c.toNat < 0x80 ∧ c ≠ 'i' ∧ c ≠ 'k')
    (h : pattern <+: toLowercase text) :
    sliceFrom text pattern.length = some (text.drop pattern.length) := by
  induction pattern generalizing text with
  | nil => cases text <;> rfl
  | cons p pattern ih =>
    obtain ⟨hascii, hi, hk⟩ := hpattern p List.mem_cons_self
    cases text with
    | nil => simp [toLowercase] at h
    | cons c text =>
      rw [toLowercase, List.flatMap_cons, lowercase] at h
      split at h
      · exact absurd (List.cons_prefix_cons.mp h).1 hi
      · split at h
        · exact absurd (List.cons_prefix_cons.mp h).1 hk
        · obtain ⟨rfl, hrest⟩ := List.cons_prefix_cons.mp h
          have hc : c.toNat < 0x80 := toNat_lt_of_toLower hascii
          have hsize : c.utf8Size = 1 := Char.utf8Size_eq_one_iff.mpr
            (UInt32.le_iff_toNat_le.mpr (Nat.le_of_lt_succ hc))
          rw [List.length_cons, sliceFrom, hsize, if_pos (Nat.le_add_left 1 _), Nat.add_sub_cancel,
            List.drop_succ_cons]
          exact ih (fun d hd => hpattern d (List.mem_cons_of_mem _ hd)) hrest

end Text
