/-!
# UTF-8

Reading text from bytes. Strict reading refuses bytes that are not UTF-8; lenient reading puts a
replacement character in the place of every longest piece that could have begun a character.
-/

namespace PodDesk.Utf8

/-- `replacement` is the character that stands for unreadable bytes. -/
def replacement : Char := '\uFFFD'

/-- `lead? b` is what the first byte of a character says: how many bytes follow, its own bits of the
character, and the range of the byte after it. The range rules out overlong forms, surrogates and
what is beyond the last character. -/
def lead? (b : UInt8) : Option (Nat × Nat × UInt8 × UInt8) :=
  if b < 0x80 then some (0, b.toNat, 0, 0)
  else if 0xC2 ≤ b ∧ b ≤ 0xDF then some (1, b.toNat - 0xC0, 0x80, 0xBF)
  else if b = 0xE0 then some (2, 0, 0xA0, 0xBF)
  else if b = 0xED then some (2, 0xD, 0x80, 0x9F)
  else if 0xE1 ≤ b ∧ b ≤ 0xEF then some (2, b.toNat - 0xE0, 0x80, 0xBF)
  else if b = 0xF0 then some (3, 0, 0x90, 0xBF)
  else if 0xF1 ≤ b ∧ b ≤ 0xF3 then some (3, b.toNat - 0xF0, 0x80, 0xBF)
  else if b = 0xF4 then some (3, 4, 0x80, 0x8F)
  else none

/-- `tail` reads what is left of a character: the character if it is complete, and the bytes after
what was read. -/
def tail : Nat → Nat → UInt8 → UInt8 → List UInt8 → Option Char × List UInt8
  | 0, bits, _, _, bytes => (some (Char.ofNat bits), bytes)
  | _ + 1, _, _, _, [] => (none, [])
  | n + 1, bits, low, high, b :: bytes =>
    if low ≤ b ∧ b ≤ high then tail n (bits * 64 + (b.toNat - 0x80)) 0x80 0xBF bytes
    else (none, b :: bytes)

theorem length_tail_le (n bits : Nat) (low high : UInt8) (bytes : List UInt8) :
    (tail n bits low high bytes).2.length ≤ bytes.length := by
  induction n generalizing bits low high bytes with
  | zero => simp [tail]
  | succ n ih =>
    cases bytes with
    | nil => simp [tail]
    | cons b bytes =>
      simp only [tail]
      split
      · exact Nat.le_succ_of_le (ih ..)
      · simp

/-- `next b bytes` is the first character, if the bytes begin with one, and the bytes after what was
read. -/
def next (b : UInt8) (bytes : List UInt8) : Option Char × List UInt8 :=
  match lead? b with
  | some (more, bits, low, high) => tail more bits low high bytes
  | none => (none, bytes)

theorem length_next_le (b : UInt8) (bytes : List UInt8) :
    (next b bytes).2.length ≤ bytes.length := by
  unfold next
  split
  · exact length_tail_le ..
  · simp

/-- `pieces` has the characters of a text, with nothing in the place of every unreadable piece. -/
def pieces : List UInt8 → List (Option Char)
  | [] => []
  | b :: bytes => (next b bytes).1 :: pieces (next b bytes).2
termination_by bytes => bytes.length
decreasing_by
  simpa using Nat.lt_succ_of_le (length_next_le b bytes)

/-- `decode? bytes` reads bytes that must be UTF-8. -/
def decode? (bytes : List UInt8) : Option (List Char) :=
  (pieces bytes).mapM id

/-- `decodeLossy bytes` reads bytes with the `replacement` character for what is unreadable. -/
def decodeLossy (bytes : List UInt8) : List Char :=
  (pieces bytes).map (·.getD replacement)

/-- `encode cs` has the bytes of the text. -/
def encode (cs : List Char) : List UInt8 :=
  (String.ofList cs).toUTF8.toList

end PodDesk.Utf8
