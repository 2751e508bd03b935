import Mathlib.Algebra.Group.Nat.Defs
import Mathlib.Data.List.TakeWhile
import PodDesk.Number.Decimal
import PodDesk.Text.Blank

/-!
# Decimal notation

Numbers in decimal notation are read as what they stand for: a run of digits with any zeros in
front, digits with a point among them, and a minus sign before either.

## Main statements

- `Decimal.IsNumeral`, `Decimal.IsThousandths`: what digits stand for
- `Decimal.unsignedReal?_numeral`, `Decimal.unsignedReal?_point`: how they are read
- `Decimal.real?_signed`: the same with a sign
-/

namespace PodDesk.Decimal

variable {c : Char} {digits whole places text : List Char} {n a f : Nat}

/-- `IsNumeral digits n` says that the digits stand for `n`; there may be zeros in front. -/
structure IsNumeral (digits : List Char) (n : Nat) : Prop where
  nonEmpty : digits ≠ []
  allDigits : ∀ c ∈ digits, c.isDigit = true
  value : Nat.ofDigitChars 10 digits 0 = n

/-- `IsThousandths places f` says that the digits after a point, of which there are at most three,
stand for `f` thousandths. -/
structure IsThousandths (places : List Char) (f : Nat) : Prop where
  allDigits : ∀ c ∈ places, c.isDigit = true
  few : places.length ≤ 3
  value : Nat.ofDigitChars 10 (places ++ List.replicate (3 - places.length) '0') 0 = f

/-- `minus negative` is a minus sign, or nothing. -/
def minus (negative : Bool) : List Char :=
  if negative then ['-'] else []

/-- `signed negative n` is the number with its sign. -/
def signed (negative : Bool) (n : Nat) : Int :=
  if negative then -(n : Int) else n

/-! ## Digits -/

theorem isDigit_eq : isDigit = Char.isDigit := rfl

theorem isDigit_iff : c.isDigit = true ↔ 48 ≤ c.toNat ∧ c.toNat ≤ 57 := by
  simp only [Char.isDigit, Bool.and_eq_true, decide_eq_true_eq, ge_iff_le, UInt32.le_iff_toNat_le]
  exact Iff.rfl

/-- `Char.isDigit` tells a digit from a character with a code outside of the digits. -/
theorem ne_of_isDigit {letter : Char} (h : c.isDigit = true) (hletter : letter.isDigit = false) :
    c ≠ letter := by
  rintro rfl
  simp [h] at hletter

/-- `Text.isBlank` is false for a digit. -/
theorem isBlank_of_isDigit (h : c.isDigit = true) : Text.isBlank c = false := by
  obtain ⟨hlow, hhigh⟩ := isDigit_iff.1 h
  have hcode : c.val.toNat = c.toNat := rfl
  simp [Text.isBlank, UInt32.le_iff_toNat_le, ← UInt32.toNat_inj]
  omega

/-- `Char.toLower` leaves a digit, which is not the first letter of a word. -/
private theorem toLower_ne {letter : Char} (h : c.isDigit = true) (hletter : 57 < letter.toNat) :
    c.toLower ≠ letter := by
  obtain ⟨-, hhigh⟩ := isDigit_iff.1 h
  have hlower : c.toLower = c := by
    unfold Char.toLower
    split
    · rename_i hupper
      have hcode : 65 ≤ c.toNat := UInt32.le_iff_toNat_le.1 hupper.1
      omega
    · rfl
  rw [hlower]
  rintro rfl
  omega

/-- `Char.toLower` makes no word of a text that starts with a digit. -/
private theorem ofList_toLower_ne {word : String} (h : c.isDigit = true)
    (hword : ∀ letter ∈ word.toList.head?, 57 < letter.toNat) :
    String.ofList ((c :: text).map Char.toLower) ≠ word := by
  intro heq
  have hlist := congrArg String.toList heq
  rw [String.toList_ofList, List.map_cons] at hlist
  exact toLower_ne h (hword c.toLower (by rw [← hlist]; rfl)) rfl

theorem value_eq (digits : List Char) : value digits = Nat.ofDigitChars 10 digits 0 := by
  unfold value Nat.ofDigitChars
  congr 1
  funext sofar c
  rw [Nat.mul_comm]

theorem IsNumeral.not_blank (h : IsNumeral digits n) : ∀ c ∈ digits, Text.isBlank c = false :=
  fun c hc => isBlank_of_isDigit (h.allDigits c hc)

theorem isNumeral_toDigits (n : Nat) : IsNumeral (Nat.toDigits 10 n) n where
  nonEmpty := Nat.toDigits_ne_nil
  allDigits _ := Nat.isDigit_of_mem_toDigits (by decide) (by decide)
  value := Nat.ofDigitChars_ten_toDigits

/-- `IsThousandths` of the digits around a point, once zeros take the missing places. -/
theorem IsThousandths.ofDigitChars_append (h : IsThousandths places f)
    (hwhole : IsNumeral whole a) :
    Nat.ofDigitChars 10 (whole ++ places) 0 * 10 ^ (3 - places.length) = 1000 * a + f := by
  have hthousand : 10 ^ places.length * 10 ^ (3 - places.length) = 1000 := by
    rw [← Nat.pow_add, Nat.add_sub_cancel' h.few]
  rw [← h.value, Nat.ofDigitChars_append, Nat.ofDigitChars_append, hwhole.value,
    Nat.ofDigitChars_replicate_zero, Nat.ofDigitChars_eq_ofDigitChars_zero, Nat.add_mul,
    Nat.mul_right_comm, hthousand, Nat.mul_comm (Nat.ofDigitChars 10 places 0)]

/-! ## Reading -/

theorem unsignedReal?_numeral (h : IsNumeral digits n) : unsignedReal? digits = some (n, 0) := by
  have hwhole : digits.takeWhile Char.isDigit = digits := List.takeWhile_eq_self_iff.2 h.allDigits
  have hrest : digits.dropWhile Char.isDigit = [] := List.dropWhile_eq_nil_iff.2 h.allDigits
  simp [unsignedReal?, isDigit_eq, hwhole, hrest, h.nonEmpty, exponent?, value_eq, h.value]

/-- `unsignedReal?` reads the digits on both sides of a point as one number, which the second ones
divide. -/
theorem unsignedReal?_point (hwhole : IsNumeral whole a)
    (hplaces : ∀ c ∈ places, c.isDigit = true) :
    unsignedReal? (whole ++ '.' :: places) =
      some (Nat.ofDigitChars 10 (whole ++ places) 0, -(places.length : Int)) := by
  have hpoint : Char.isDigit '.' = false := by decide
  have htake : (whole ++ '.' :: places).takeWhile Char.isDigit = whole := by
    rw [List.takeWhile_append_of_pos hwhole.allDigits]
    simp [hpoint]
  have hdrop : (whole ++ '.' :: places).dropWhile Char.isDigit = '.' :: places := by
    rw [List.dropWhile_append_of_pos hwhole.allDigits]
    simp [hpoint]
  have hfraction : places.takeWhile Char.isDigit = places := List.takeWhile_eq_self_iff.2 hplaces
  have hrest : places.dropWhile Char.isDigit = [] := List.dropWhile_eq_nil_iff.2 hplaces
  simp [unsignedReal?, isDigit_eq, htake, hdrop, hfraction, hrest, hwhole.nonEmpty, exponent?,
    value_eq]

/-- `real?` reads a minus sign before a text that starts with a digit. -/
theorem real?_signed {digits : Nat} {power : Int} (negative : Bool)
    (hfirst : ∀ c ∈ text.head?, c.isDigit = true)
    (h : unsignedReal? text = some (digits, power)) :
    real? (minus negative ++ text) = some (.finite negative digits power) := by
  cases text with
  | nil => simp [unsignedReal?] at h
  | cons c text =>
    have hc : c.isDigit = true := hfirst c rfl
    have hsign : splitSign (minus negative ++ c :: text) = (negative, c :: text) := by
      cases negative with
      | true => rfl
      | false =>
        show splitSign (c :: text) = (false, c :: text)
        unfold splitSign
        split
        · rename_i heq
          exact absurd (List.cons.inj heq).1 (ne_of_isDigit hc (by decide))
        · rename_i heq
          exact absurd (List.cons.inj heq).1 (ne_of_isDigit hc (by decide))
        · rfl
    -- A text that starts with a digit is neither a word for infinity nor "nan".
    have hwords : ¬ (String.ofList ((c :: text).map Char.toLower) = "inf" ∨
        String.ofList ((c :: text).map Char.toLower) = "infinity") := by
      rintro (heq | heq)
      · exact ofList_toLower_ne hc (by simp) heq
      · exact ofList_toLower_ne hc (by simp) heq
    have hnan : String.ofList ((c :: text).map Char.toLower) ≠ "nan" :=
      ofList_toLower_ne hc (by simp)
    simp only [real?, hsign, if_neg hwords, if_neg hnan, h, Option.map_some]

end PodDesk.Decimal
