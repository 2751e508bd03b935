import Mathlib.Algebra.Order.Field.Power
import Mathlib.Algebra.Order.Floor.Semifield
import Mathlib.Data.Rat.Floor
import Mathlib.Tactic.FieldSimp
import Mathlib.Tactic.Linarith
import Mathlib.Tactic.Positivity
import Mathlib.Tactic.Ring
import PodDesk.Number.Binary64

/-!
# Rounding to binary64

A quotient is rounded to the nearest binary64 value. Three facts about it are enough for all that
is said about figures: rounding keeps the order, it leaves what has at most 53 bits as it is, and
it moves a number by no more than half of the last bit.

## Main statements

- `Magnitude.Rounds.mono`: rounding keeps the order
- `Magnitude.Rounds.exact`: a number of at most 53 bits is not changed
- `Magnitude.Rounds.near`: how far a number below a power of two is moved
- `Magnitude.rounds_ofDecimal`, `Magnitude.rounds_timesNat`, `Magnitude.rounds_overNat`: what each
  operation rounds
-/

namespace PodDesk.Magnitude

variable {num den num' den' k n : Nat} {x y : Magnitude} {r s v : ℚ}

/-! ## Values -/

/-- `dyadic mantissa exponent` is the number that a mantissa and an exponent stand for. -/
def dyadic (mantissa : Nat) (exponent : Int) : ℚ :=
  mantissa * 2 ^ exponent

/-- `Magnitude.value` is the number that a magnitude stands for; infinity is above all numbers. -/
def value : Magnitude → WithTop ℚ
  | .finite mantissa exponent => (dyadic mantissa exponent : ℚ)
  | .infinite => ⊤

theorem scaleDown_pos (exponent : Int) : 0 < scaleDown exponent :=
  Nat.pow_pos (by decide)

/-- `base ^ e` is a quotient of two powers, of which one is one. -/
private theorem zpow_eq_div (base : ℚ) (e : Int) :
    base ^ e = base ^ e.toNat / base ^ (-e).toNat := by
  rcases le_total 0 e with h | h
  · obtain ⟨n, rfl⟩ := Int.eq_ofNat_of_zero_le h
    simp
  · obtain ⟨n, rfl⟩ := Int.exists_eq_neg_ofNat h
    simp

theorem scaleUp_div_scaleDown (mantissa : Nat) (exponent : Int) :
    (scaleUp mantissa exponent / scaleDown exponent : ℚ) = dyadic mantissa exponent := by
  simp [scaleUp, scaleDown, dyadic, zpow_eq_div 2 exponent, mul_div_assoc]

theorem dyadic_nonneg (mantissa : Nat) (exponent : Int) : 0 ≤ dyadic mantissa exponent := by
  unfold dyadic
  positivity

private theorem two_zpow_pos (e : Int) : (0 : ℚ) < 2 ^ e :=
  zpow_pos two_pos e

theorem dyadic_two_pow (bits : Nat) (exponent : Int) :
    dyadic (2 ^ bits) exponent = 2 ^ (bits + exponent) := by
  rw [zpow_add₀ two_ne_zero, zpow_natCast, dyadic, Nat.cast_pow, Nat.cast_two]

/-- `dyadic` is below the power of two for which the mantissa has too few bits. -/
theorem dyadic_lt {mantissa bits : Nat} (h : mantissa < 2 ^ bits) (exponent : Int) :
    dyadic mantissa exponent < 2 ^ (bits + exponent) := by
  have h' : (mantissa : ℚ) < (2 ^ bits : Nat) := by exact_mod_cast h
  rw [← dyadic_two_pow]
  exact mul_lt_mul_of_pos_right h' (two_zpow_pos exponent)

/-! ## The nearest natural number -/

/-- `roundHalfEven` takes a half to the even neighbour. -/
theorem roundHalfEven_tie (hden : 0 < den) (h : 2 * num = (2 * k + 1) * den) :
    roundHalfEven num den = if k % 2 = 0 then k else k + 1 := by
  have hquotient : num / den = k := by
    apply Nat.div_eq_of_lt_le <;> grind
  have hrest : 2 * (num % den) = den := by
    have hsplit := Nat.div_add_mod' num den
    rw [hquotient] at hsplit
    grind
  simp [roundHalfEven, hquotient, hrest]

/-- `roundHalfEven` is at most a half away from the quotient. -/
theorem roundHalfEven_near (num : Nat) (hden : 0 < den) :
    2 * (roundHalfEven num den * den) ≤ 2 * num + den ∧
      2 * num ≤ 2 * (roundHalfEven num den * den) + den := by
  have hsplit : num / den * den + num % den = num := Nat.div_add_mod' num den
  have hrest : num % den < den := Nat.mod_lt num hden
  have hnext : (num / den + 1) * den = num / den * den + den := Nat.succ_mul _ _
  unfold roundHalfEven
  dsimp only
  split
  · omega
  · split
    · omega
    · split <;> omega

theorem abs_roundHalfEven_sub_le (num : Nat) (hden : 0 < den) :
    |(roundHalfEven num den : ℚ) - num / den| ≤ 1 / 2 := by
  have hden' : (0 : ℚ) < den := by exact_mod_cast hden
  obtain ⟨hlow, hhigh⟩ := roundHalfEven_near num hden
  have hlow' : (2 * (roundHalfEven num den * den) : ℚ) ≤ 2 * num + den := by exact_mod_cast hlow
  have hhigh' : (2 * num : ℚ) ≤ 2 * (roundHalfEven num den * den) + den := by exact_mod_cast hhigh
  rw [abs_sub_le_iff]
  constructor
  · rw [sub_le_comm, le_div_iff₀ hden']
    linarith
  · rw [sub_le_iff_le_add, div_le_iff₀ hden']
    linarith

theorem roundHalfEven_mono (hden : 0 < den) (hden' : 0 < den') (h : num * den' ≤ num' * den) :
    roundHalfEven num den ≤ roundHalfEven num' den' := by
  by_contra hlt
  obtain ⟨hlow, -⟩ := roundHalfEven_near num hden
  obtain ⟨-, hhigh⟩ := roundHalfEven_near num' hden'
  generalize hk : roundHalfEven num' den' = k at hlt hhigh
  -- Both quotients are half way between two neighbours, and these are the same.
  have hnext : (k + 1) * den ≤ roundHalfEven num den * den :=
    Nat.mul_le_mul_right den (by omega)
  have hlow' : (2 * k + 1) * den ≤ 2 * num := by grind
  have hhigh' : 2 * num' ≤ (2 * k + 1) * den' := by grind
  have hnum : 2 * num = (2 * k + 1) * den := by
    refine le_antisymm ?_ hlow'
    refine Nat.le_of_mul_le_mul_right ?_ hden'
    calc 2 * num * den' ≤ 2 * num' * den := by rw [Nat.mul_assoc, Nat.mul_assoc]; omega
      _ ≤ (2 * k + 1) * den' * den := Nat.mul_le_mul_right den hhigh'
      _ = (2 * k + 1) * den * den' := Nat.mul_right_comm _ _ _
  have hnum' : 2 * num' = (2 * k + 1) * den' := by
    refine le_antisymm hhigh' ?_
    refine Nat.le_of_mul_le_mul_right ?_ hden
    calc (2 * k + 1) * den' * den = 2 * num * den' := by rw [hnum, Nat.mul_right_comm]
      _ ≤ 2 * num' * den := by rw [Nat.mul_assoc, Nat.mul_assoc]; omega
  rw [roundHalfEven_tie hden hnum, ← roundHalfEven_tie hden' hnum', hk] at hlt
  exact hlt le_rfl

theorem roundHalfEven_mul (hden : 0 < den) : roundHalfEven (k * den) den = k := by
  simp [roundHalfEven, Nat.mul_div_cancel k hden, hden]

/-- `roundHalfEven_mono` for quotients. -/
theorem roundHalfEven_le_of_ratio (hden : 0 < den) (hden' : 0 < den')
    (h : (num / den : ℚ) ≤ num' / den') : roundHalfEven num den ≤ roundHalfEven num' den' := by
  rw [div_le_div_iff₀ (by exact_mod_cast hden) (by exact_mod_cast hden')] at h
  exact roundHalfEven_mono hden hden' (by exact_mod_cast h)

theorem le_roundHalfEven (hden : 0 < den) (h : (k : ℚ) ≤ num / den) :
    k ≤ roundHalfEven num den := by
  have hle : roundHalfEven (k * 1) 1 ≤ roundHalfEven num den :=
    roundHalfEven_le_of_ratio Nat.one_pos hden (by simpa using h)
  rwa [roundHalfEven_mul Nat.one_pos] at hle

theorem roundHalfEven_le (hden : 0 < den) (h : (num / den : ℚ) ≤ k) :
    roundHalfEven num den ≤ k := by
  have hle : roundHalfEven num den ≤ roundHalfEven (k * 1) 1 :=
    roundHalfEven_le_of_ratio hden Nat.one_pos (by simpa using h)
  rwa [roundHalfEven_mul Nat.one_pos] at hle

/-! ## The exponent of a quotient -/

private theorem guess_iff (hden : 0 < den) (e : Int) :
    den * Nat.pow 2 e.toNat ≤ num * Nat.pow 2 (-e).toNat ↔ (2 : ℚ) ^ e ≤ num / den := by
  have hden' : (0 : ℚ) < den := by exact_mod_cast hden
  rw [zpow_eq_div, div_le_div_iff₀ (by positivity) hden', mul_comm (2 ^ e.toNat : ℚ)]
  simp only [Nat.pow_eq]
  norm_cast

/-- `log2Ratio` is the exponent of the largest power of two that is not above the quotient. -/
theorem log2Ratio_spec (hnum : 0 < num) (hden : 0 < den) :
    (2 : ℚ) ^ log2Ratio num den ≤ num / den ∧ (num / den : ℚ) < 2 ^ (log2Ratio num den + 1) := by
  have hden' : (0 : ℚ) < den := by exact_mod_cast hden
  have hnumLow : (2 : ℚ) ^ (num.log2 : Int) ≤ num := by
    exact_mod_cast Nat.log2_self_le (Nat.pos_iff_ne_zero.1 hnum)
  have hnumHigh : (num : ℚ) < 2 ^ ((num.log2 : Int) + 1) := by
    exact_mod_cast Nat.lt_log2_self (n := num)
  have hdenLow : (2 : ℚ) ^ (den.log2 : Int) ≤ den := by
    exact_mod_cast Nat.log2_self_le (Nat.pos_iff_ne_zero.1 hden)
  have hdenHigh : (den : ℚ) < 2 ^ ((den.log2 : Int) + 1) := by
    exact_mod_cast Nat.lt_log2_self (n := den)
  -- The logarithms of the two numbers give the exponent, or the one above it.
  have hhigh : (num / den : ℚ) < 2 ^ ((num.log2 : Int) - den.log2 + 1) := by
    rw [div_lt_iff₀ hden']
    calc (num : ℚ) < 2 ^ ((num.log2 : Int) + 1) := hnumHigh
      _ = 2 ^ ((num.log2 : Int) - den.log2 + 1) * 2 ^ (den.log2 : Int) := by
        rw [← zpow_add₀ two_ne_zero]; congr 1; ring
      _ ≤ 2 ^ ((num.log2 : Int) - den.log2 + 1) * den := by gcongr
  have hlow : (2 : ℚ) ^ ((num.log2 : Int) - den.log2 - 1) ≤ num / den := by
    rw [le_div_iff₀ hden']
    calc (2 : ℚ) ^ ((num.log2 : Int) - den.log2 - 1) * den
        ≤ 2 ^ ((num.log2 : Int) - den.log2 - 1) * 2 ^ ((den.log2 : Int) + 1) := by gcongr
      _ = 2 ^ (num.log2 : Int) := by rw [← zpow_add₀ two_ne_zero]; congr 1; ring
      _ ≤ num := hnumLow
  unfold log2Ratio
  dsimp only
  split
  · rename_i h
    exact ⟨(guess_iff hden _).1 h, hhigh⟩
  · rename_i h
    rw [guess_iff hden, not_le] at h
    exact ⟨hlow, by rwa [sub_add_cancel]⟩

theorem log2Ratio_lt_of_lt {e : Int} (hnum : 0 < num) (hden : 0 < den)
    (h : (num / den : ℚ) < 2 ^ e) : log2Ratio num den < e :=
  (zpow_lt_zpow_iff_right₀ one_lt_two).1 ((log2Ratio_spec hnum hden).1.trans_lt h)

/-! ## The rounded quotient -/

/-- `gridExponent num den` is the exponent of the last bit that is kept of a quotient. -/
def gridExponent (num den : Nat) : Int :=
  max (log2Ratio num den - 52) (-1074)

/-- `gridMantissa num den` is the mantissa that a quotient is rounded to. -/
def gridMantissa (num den : Nat) : Nat :=
  roundHalfEven (num * scaleDown (gridExponent num den))
    (den * Nat.pow 2 (gridExponent num den).toNat)

/-- `rounded num den` is the quotient after rounding, before it is compared with the largest finite
value. -/
def rounded (num den : Nat) : ℚ :=
  dyadic (gridMantissa num den) (gridExponent num den)

private theorem gridDen_pos (hden : 0 < den) (e : Int) : 0 < den * Nat.pow 2 e.toNat :=
  Nat.mul_pos hden (Nat.pow_pos (by decide))

/-- `gridMantissa` rounds the quotient in units of the last bit. -/
private theorem gridRatio (num den : Nat) (e : Int) :
    ((num * scaleDown e : Nat) / (den * Nat.pow 2 e.toNat : Nat) : ℚ) = num / den * 2 ^ (-e) := by
  have h := scaleUp_div_scaleDown 1 (-e)
  have hdown : (scaleDown (-e) : ℚ) = 2 ^ e.toNat := by simp [scaleDown]
  have hup : (scaleUp 1 (-e) : ℚ) = scaleDown e := by simp [scaleUp, scaleDown]
  rw [hdown, hup, dyadic, Nat.cast_one, one_mul] at h
  rw [← h, Nat.cast_mul, Nat.cast_mul, Nat.pow_eq, Nat.cast_pow, Nat.cast_ofNat, div_mul_div_comm]

private theorem mul_zpow_neg (r : ℚ) (e : Int) : r * 2 ^ (-e) * 2 ^ e = r := by
  rw [mul_assoc, ← zpow_add₀ two_ne_zero, neg_add_cancel, zpow_zero, mul_one]

private theorem ratio_pos (hnum : 0 < num) (hden : 0 < den) : (0 : ℚ) < num / den :=
  div_pos (by exact_mod_cast hnum) (by exact_mod_cast hden)

/-- `rounded` is not below a number of units that the quotient is not below. -/
theorem le_rounded (hden : 0 < den) (h : dyadic k (gridExponent num den) ≤ num / den) :
    dyadic k (gridExponent num den) ≤ rounded num den := by
  have hmantissa : k ≤ gridMantissa num den := by
    refine le_roundHalfEven (gridDen_pos hden _) ?_
    rw [gridRatio]
    refine le_of_mul_le_mul_right ?_ (two_zpow_pos (gridExponent num den))
    rwa [mul_zpow_neg]
  unfold rounded dyadic
  gcongr

theorem rounded_le (hden : 0 < den) (h : num / den ≤ dyadic k (gridExponent num den)) :
    rounded num den ≤ dyadic k (gridExponent num den) := by
  have hmantissa : gridMantissa num den ≤ k := by
    refine roundHalfEven_le (gridDen_pos hden _) ?_
    rw [gridRatio]
    refine le_of_mul_le_mul_right ?_ (two_zpow_pos (gridExponent num den))
    rwa [mul_zpow_neg]
  unfold rounded dyadic
  gcongr

theorem gridExponent_mono (hnum : 0 < num) (hden : 0 < den) (hnum' : 0 < num') (hden' : 0 < den')
    (h : (num / den : ℚ) ≤ num' / den') : gridExponent num den ≤ gridExponent num' den' := by
  have hlt := log2Ratio_lt_of_lt hnum hden (h.trans_lt (log2Ratio_spec hnum' hden').2)
  unfold gridExponent
  omega

/-- `rounded` has a mantissa of at most 53 bits, or the first number with more. -/
theorem rounded_le_top (hnum : 0 < num) (hden : 0 < den) :
    rounded num den ≤ dyadic (2 ^ 53) (gridExponent num den) := by
  refine rounded_le hden ?_
  have hlt := (log2Ratio_spec hnum hden).2
  have hexp : log2Ratio num den + 1 ≤ 53 + gridExponent num den := by
    unfold gridExponent
    omega
  rw [dyadic_two_pow]
  calc (num / den : ℚ) ≤ 2 ^ (log2Ratio num den + 1) := hlt.le
    _ ≤ 2 ^ (53 + gridExponent num den) := zpow_le_zpow_right₀ one_le_two hexp

/-- `rounded` keeps the order. -/
theorem rounded_mono (hnum : 0 < num) (hden : 0 < den) (hden' : 0 < den')
    (h : (num / den : ℚ) ≤ num' / den') : rounded num den ≤ rounded num' den' := by
  have hnum' : 0 < num' := by
    rw [Nat.pos_iff_ne_zero]
    rintro rfl
    have hpos := (ratio_pos hnum hden).trans_le h
    simp at hpos
  rcases (gridExponent_mono hnum hden hnum' hden' h).eq_or_lt with heq | hlt
  · -- Both quotients are counted in the same unit.
    have hmantissa : gridMantissa num den ≤ gridMantissa num' den' := by
      refine roundHalfEven_le_of_ratio (gridDen_pos hden _) (gridDen_pos hden' _) ?_
      rw [gridRatio, gridRatio, heq]
      gcongr
    unfold rounded dyadic
    rw [heq]
    gcongr
  · -- The larger quotient has all of its bits in use, and one more bit would be a larger unit.
    have hnormal : gridExponent num' den' = log2Ratio num' den' - 52 := by
      unfold gridExponent at hlt ⊢
      omega
    have hunits : dyadic (2 ^ 52) (gridExponent num' den') ≤ num' / den' := by
      rw [dyadic_two_pow, hnormal, Nat.cast_ofNat, add_sub_cancel]
      exact (log2Ratio_spec hnum' hden').1
    calc rounded num den ≤ dyadic (2 ^ 53) (gridExponent num den) := rounded_le_top hnum hden
      _ ≤ dyadic (2 ^ 52) (gridExponent num' den') := by
        rw [dyadic_two_pow, dyadic_two_pow]
        exact zpow_le_zpow_right₀ one_le_two (by omega)
      _ ≤ rounded num' den' := le_rounded hden' hunits

/-- `rounded` moves the quotient by at most half a unit. -/
theorem abs_rounded_sub_le (hden : 0 < den) :
    |rounded num den - num / den| ≤ 2 ^ gridExponent num den / 2 := by
  have hunit := two_zpow_pos (gridExponent num den)
  have hmantissa := abs_roundHalfEven_sub_le (num * scaleDown (gridExponent num den))
    (gridDen_pos hden (gridExponent num den))
  rw [gridRatio] at hmantissa
  have hsplit : rounded num den - num / den = ((gridMantissa num den : ℚ) -
      num / den * 2 ^ (-gridExponent num den)) * 2 ^ gridExponent num den := by
    rw [sub_mul, mul_zpow_neg]
    rfl
  rw [hsplit, abs_mul, abs_of_pos hunit]
  calc _ ≤ 1 / 2 * (2 : ℚ) ^ gridExponent num den :=
        mul_le_mul_of_nonneg_right hmantissa hunit.le
    _ = 2 ^ gridExponent num den / 2 := by ring

theorem rounded_zero (hden : 0 < den) : rounded 0 den = 0 := by
  have hmantissa : gridMantissa 0 den = 0 :=
    Nat.le_zero.1 (roundHalfEven_le (gridDen_pos hden _) (by simp))
  simp [rounded, dyadic, hmantissa]

/-- `rounded` leaves a number of at most 53 bits as it is. -/
theorem rounded_eq {mantissa : Nat} {exponent : Int} (hden : 0 < den) (hbits : mantissa < 2 ^ 53)
    (hexponent : -1074 ≤ exponent) (h : (num / den : ℚ) = dyadic mantissa exponent) :
    rounded num den = dyadic mantissa exponent := by
  rcases Nat.eq_zero_or_pos num with rfl | hnum
  · rw [← h, rounded_zero hden]
    simp
  · -- The last bit that is kept is not above the last one that is in use.
    have hunit : gridExponent num den ≤ exponent := by
      have hlt : (num / den : ℚ) < 2 ^ (53 + exponent) := h ▸ dyadic_lt hbits exponent
      have hlog := log2Ratio_lt_of_lt hnum hden hlt
      unfold gridExponent
      omega
    obtain ⟨shift, hshift⟩ := Int.eq_ofNat_of_zero_le (sub_nonneg.2 hunit)
    have hsame : dyadic mantissa exponent =
        dyadic (mantissa * 2 ^ shift) (gridExponent num den) := by
      rw [dyadic, dyadic, Nat.cast_mul, Nat.cast_pow, Nat.cast_two, mul_assoc, ← zpow_natCast,
        ← zpow_add₀ two_ne_zero]
      congr 2
      exact (sub_eq_iff_eq_add.1 hshift)
    rw [hsame] at h ⊢
    exact le_antisymm (rounded_le hden h.le) (le_rounded hden h.ge)

/-- `scaleUp` alone shows whether a value is too large, as one with a denominator is small. -/
private theorem overflows_iff {mantissa bits : Nat} (exponent : Int)
    (hmantissa : mantissa ≤ 2 ^ 53) (hbits : 53 < bits) :
    Nat.pow 2 bits ≤ scaleUp mantissa exponent ↔ (2 : ℚ) ^ bits ≤ dyadic mantissa exponent := by
  rcases le_or_gt 0 exponent with h | h
  · have hwhole : dyadic mantissa exponent = scaleUp mantissa exponent := by
      have hdown : (-exponent).toNat = 0 := by omega
      rw [← scaleUp_div_scaleDown, scaleDown, hdown]
      simp
    rw [hwhole, Nat.pow_eq]
    norm_cast
  · have hup : exponent.toNat = 0 := by omega
    have hunit : (2 : ℚ) ^ exponent ≤ 1 := zpow_le_one_of_nonpos₀ one_le_two h.le
    have hmantissa' : (mantissa : ℚ) ≤ 2 ^ 53 := by exact_mod_cast hmantissa
    have hsmall : (2 : ℚ) ^ 53 < 2 ^ bits := pow_lt_pow_right₀ one_lt_two hbits
    refine iff_of_false ?_ (not_le.2 ?_)
    · rw [scaleUp, hup, Nat.pow_eq, Nat.pow_eq, pow_zero, Nat.mul_one, not_le]
      exact_mod_cast hmantissa'.trans_lt hsmall
    · calc dyadic mantissa exponent ≤ mantissa * 1 :=
            mul_le_mul_of_nonneg_left hunit (Nat.cast_nonneg _)
        _ < 2 ^ bits := by
          rw [mul_one]
          exact hmantissa'.trans_lt hsmall

/-- `ofRatio` is infinite when what the quotient is rounded to is too large. -/
theorem value_ofRatio (hden : 0 < den) :
    (ofRatio num den).value =
      if (2 : ℚ) ^ exponentBound ≤ rounded num den then ⊤
      else ((rounded num den : ℚ) : WithTop ℚ) := by
  rcases Nat.eq_zero_or_pos num with rfl | hnum
  · simp [ofRatio, value, rounded_zero hden, dyadic]
  · have hmantissa : gridMantissa num den ≤ 2 ^ 53 := by
      have htop := rounded_le_top hnum hden
      unfold rounded dyadic at htop
      exact_mod_cast le_of_mul_le_mul_right htop (two_zpow_pos _)
    have hlarge := overflows_iff (gridExponent num den) hmantissa
      (show 53 < exponentBound by decide)
    have hratio : ofRatio num den =
        if Nat.pow 2 exponentBound ≤ scaleUp (gridMantissa num den) (gridExponent num den) then
          .infinite
        else .finite (gridMantissa num den) (gridExponent num den) := by
      rw [ofRatio, if_neg (Nat.pos_iff_ne_zero.1 hnum)]
      rfl
    by_cases h : (2 : ℚ) ^ exponentBound ≤ rounded num den
    · rw [hratio, if_pos (hlarge.2 h), if_pos h]
      rfl
    · rw [hratio, if_neg (mt hlarge.1 h), if_neg h]
      rfl

/-! ## What is rounded -/

/-- `Magnitude.value` orders the magnitudes. -/
instance : Preorder Magnitude :=
  Preorder.lift value

/-- `x.Rounds r` says that `x` is what the number `r` is rounded to. -/
def Rounds (x : Magnitude) (r : ℚ) : Prop :=
  ∃ num den, 0 < den ∧ x = ofRatio num den ∧ (num / den : ℚ) = r

namespace Rounds

/-- `Rounds` keeps the order. -/
theorem mono (hx : x.Rounds r) (hy : y.Rounds s) (h : r ≤ s) : x ≤ y := by
  obtain ⟨num, den, hden, rfl, rfl⟩ := hx
  obtain ⟨num', den', hden', rfl, rfl⟩ := hy
  have hle : rounded num den ≤ rounded num' den' := by
    rcases Nat.eq_zero_or_pos num with rfl | hnum
    · rw [rounded_zero hden]
      exact dyadic_nonneg _ _
    · exact rounded_mono hnum hden hden' h
  show (ofRatio num den).value ≤ (ofRatio num' den').value
  rw [value_ofRatio hden, value_ofRatio hden']
  split_ifs with htop htop'
  · exact le_rfl
  · exact absurd (htop.trans hle) htop'
  · exact le_top
  · exact WithTop.coe_le_coe.2 hle

/-- `Rounds` leaves a number of at most 53 bits that is not too large as it is. -/
theorem exact {mantissa : Nat} {exponent : Int} (hx : x.Rounds (dyadic mantissa exponent))
    (hbits : mantissa < 2 ^ 53) (hlow : -1074 ≤ exponent) (hhigh : exponent ≤ 971) :
    x.value = (dyadic mantissa exponent : ℚ) := by
  obtain ⟨num, den, hden, rfl, heq⟩ := hx
  have hsmall : dyadic mantissa exponent < 2 ^ exponentBound := by
    calc dyadic mantissa exponent < 2 ^ (53 + exponent) := dyadic_lt hbits exponent
      _ ≤ 2 ^ (exponentBound : Int) := by
        refine zpow_le_zpow_right₀ one_le_two ?_
        unfold exponentBound
        omega
      _ = 2 ^ exponentBound := zpow_natCast _ _
  rw [value_ofRatio hden, rounded_eq hden hbits hlow heq, if_neg (not_le.2 hsmall)]

/-- `Rounds` moves a number below a power of two by no more than half of the last bit. -/
theorem near (bits : Int) (hx : x.Rounds r) (h : r < 2 ^ bits) (hlow : -1021 ≤ bits)
    (hhigh : bits < 1024) : ∃ v : ℚ, x.value = v ∧ |v - r| ≤ 2 ^ (bits - 54) := by
  obtain ⟨num, den, hden, rfl, rfl⟩ := hx
  rcases Nat.eq_zero_or_pos num with rfl | hnum
  · refine ⟨0, ?_, ?_⟩
    · rw [value_ofRatio hden, rounded_zero hden, if_neg (not_le.2 (by positivity))]
    · simpa using (two_zpow_pos _).le
  -- The unit is small enough for half of it to be within the bound.
  have hunit : gridExponent num den ≤ bits - 53 := by
    have hlog := log2Ratio_lt_of_lt hnum hden h
    unfold gridExponent
    omega
  have hsmall : rounded num den < 2 ^ exponentBound := by
    calc rounded num den ≤ dyadic (2 ^ 53) (gridExponent num den) := rounded_le_top hnum hden
      _ = 2 ^ (53 + gridExponent num den) := dyadic_two_pow 53 _
      _ ≤ 2 ^ bits := zpow_le_zpow_right₀ one_le_two (by omega)
      _ < 2 ^ (exponentBound : Int) := zpow_lt_zpow_right₀ one_lt_two hhigh
      _ = 2 ^ exponentBound := zpow_natCast _ _
  refine ⟨rounded num den, ?_, (abs_rounded_sub_le hden).trans ?_⟩
  · rw [value_ofRatio hden, if_neg (not_le.2 hsmall)]
  · calc (2 : ℚ) ^ gridExponent num den / 2 ≤ 2 ^ (bits - 53) / 2 := by
          gcongr
          exact one_le_two
      _ = 2 ^ (bits - 54) := by
        rw [div_eq_mul_inv, ← zpow_neg_one, ← zpow_add₀ two_ne_zero]
        congr 1
        ring

end Rounds

/-! ## Operations -/

theorem rounds_ofRatio (num : Nat) (hden : 0 < den) : (ofRatio num den).Rounds (num / den) :=
  ⟨num, den, hden, rfl, rfl⟩

/-- `ofDecimal` rounds what it reads: the places beyond which the answer is known without computing
are far away. -/
theorem rounds_ofDecimal (digits : Nat) {power : Int} (hlow : -400 ≤ power) (hhigh : power ≤ 400) :
    (ofDecimal digits power).Rounds (digits * 10 ^ power) := by
  rcases Nat.eq_zero_or_pos digits with rfl | hdigits
  · exact ⟨0, 1, Nat.one_pos, by simp [ofDecimal, ofRatio], by simp⟩
  · have hratio : ofDecimal digits power =
        ofRatio (digits * Nat.pow 10 power.toNat) (Nat.pow 10 (-power).toNat) := by
      have hplaces : ¬ power + (digits.log2 / 3 : Nat) < -400 := by omega
      rw [ofDecimal, if_neg (Nat.pos_iff_ne_zero.1 hdigits), if_neg (by omega), if_neg hplaces]
    rw [hratio, zpow_eq_div]
    refine ⟨_, _, Nat.pow_pos (by decide), rfl, ?_⟩
    simp [mul_div_assoc]

theorem rounds_timesNat (h : x.value = (v : ℚ)) (n : Nat) : (x.timesNat n).Rounds (v * n) := by
  cases x with
  | infinite => cases h
  | finite mantissa exponent =>
    obtain rfl := WithTop.coe_injective h
    refine ⟨_, _, scaleDown_pos exponent, rfl, ?_⟩
    rw [← scaleUp_div_scaleDown]
    push_cast
    ring

theorem rounds_overNat (h : x.value = (v : ℚ)) (hn : 0 < n) : (x.overNat n).Rounds (v / n) := by
  cases x with
  | infinite => cases h
  | finite mantissa exponent =>
    obtain rfl := WithTop.coe_injective h
    refine ⟨_, _, Nat.mul_pos (scaleDown_pos exponent) hn, rfl, ?_⟩
    rw [← scaleUp_div_scaleDown]
    push_cast
    rw [div_div]

/-- `Magnitude.value` of a magnitude below a finite one is finite. -/
private theorem exists_value_of_le (h : x ≤ y) (hy : y.value = (s : ℚ)) :
    ∃ v : ℚ, x.value = v ∧ v ≤ s := by
  have hle : x.value ≤ (s : WithTop ℚ) := le_of_le_of_eq h hy
  obtain ⟨v, hv⟩ := WithTop.ne_top_iff_exists.1 (ne_top_of_le_ne_top WithTop.coe_ne_top hle)
  exact ⟨v, hv.symm, WithTop.coe_le_coe.1 (hv ▸ hle)⟩

theorem timesNat_mono (h : x ≤ y) (n : Nat) : x.timesNat n ≤ y.timesNat n := by
  cases y with
  | infinite => exact (le_top : (x.timesNat n).value ≤ ⊤)
  | finite mantissa exponent =>
    obtain ⟨v, hv, hle⟩ := exists_value_of_le h rfl
    exact (rounds_timesNat hv n).mono (rounds_timesNat rfl n) (by gcongr)

theorem overNat_mono (h : x ≤ y) (hn : 0 < n) : x.overNat n ≤ y.overNat n := by
  cases y with
  | infinite => exact (le_top : (x.overNat n).value ≤ ⊤)
  | finite mantissa exponent =>
    obtain ⟨v, hv, hle⟩ := exists_value_of_le h rfl
    exact (rounds_overNat hv hn).mono (rounds_overNat rfl hn) (by gcongr)

/-! ## Whole numbers -/

theorem value_whole (n : Nat) : (finite n 0).value = ((n : ℚ) : WithTop ℚ) := by
  simp [value, dyadic]

theorem Rounds.whole (hx : x.Rounds n) (hn : n < 2 ^ 53) : x.value = ((n : ℚ) : WithTop ℚ) := by
  rw [← value_whole]
  exact exact (by simpa [dyadic] using hx) hn (by decide) (by decide)

/-- `Rounds` stays above a whole number of at most 53 bits. -/
theorem Rounds.whole_le (hx : x.Rounds r) (hn : n < 2 ^ 53) (h : (n : ℚ) ≤ r) :
    finite n 0 ≤ x := by
  have hwhole : (ofRatio n 1).Rounds n := by simpa using rounds_ofRatio n Nat.one_pos
  have heq : (ofRatio n 1).value = (finite n 0).value := by rw [hwhole.whole hn, value_whole]
  exact heq.ge.trans (hwhole.mono hx h)

/-! ## Whole parts -/

theorem floor?_eq (h : x.value = (v : ℚ)) : x.floor? = some ⌊v⌋₊ := by
  cases x with
  | infinite => cases h
  | finite mantissa exponent =>
    obtain rfl := WithTop.coe_injective h
    rw [← scaleUp_div_scaleDown, Nat.floor_div_eq_div]
    rfl

theorem roundHalfUp?_eq (h : x.value = (v : ℚ)) : x.roundHalfUp? = some ⌊v + 1 / 2⌋₊ := by
  cases x with
  | infinite => cases h
  | finite mantissa exponent =>
    obtain rfl := WithTop.coe_injective h
    have hdown : (scaleDown exponent : ℚ) ≠ 0 := by exact_mod_cast (scaleDown_pos exponent).ne'
    have hhalf : dyadic mantissa exponent + 1 / 2 =
        ((2 * scaleUp mantissa exponent + scaleDown exponent : Nat) : ℚ) /
          (2 * scaleDown exponent : Nat) := by
      rw [← scaleUp_div_scaleDown]
      push_cast
      field_simp
    rw [hhalf, Nat.floor_div_eq_div]
    rfl

/-- `Magnitude.floor?` of a whole number is the number. -/
theorem floor?_whole (h : x.value = ((n : ℚ) : WithTop ℚ)) : x.floor? = some n := by
  rw [floor?_eq h, Nat.floor_natCast]

theorem roundHalfUp?_whole (h : x.value = ((n : ℚ) : WithTop ℚ)) : x.roundHalfUp? = some n := by
  have hfloor : ⌊(n : ℚ) + 1 / 2⌋₊ = n := by
    rw [Nat.floor_eq_iff (by positivity)]
    constructor <;> linarith
  rw [roundHalfUp?_eq h, hfloor]

theorem floor?_mono (h : x ≤ y) : ∀ k ∈ y.floor?, ∃ j ∈ x.floor?, j ≤ k := by
  cases y with
  | infinite => simp [floor?]
  | finite mantissa exponent =>
    obtain ⟨v, hv, hle⟩ := exists_value_of_le h rfl
    intro k hk
    rw [floor?_eq rfl, Option.mem_some_iff] at hk
    exact ⟨_, floor?_eq hv, hk ▸ Nat.floor_mono hle⟩

theorem roundHalfUp?_mono (h : x ≤ y) : ∀ k ∈ y.roundHalfUp?, ∃ j ∈ x.roundHalfUp?, j ≤ k := by
  cases y with
  | infinite => simp [roundHalfUp?]
  | finite mantissa exponent =>
    obtain ⟨v, hv, hle⟩ := exists_value_of_le h rfl
    intro k hk
    rw [roundHalfUp?_eq rfl, Option.mem_some_iff] at hk
    exact ⟨_, roundHalfUp?_eq hv, hk ▸ Nat.floor_mono (by gcongr)⟩

end PodDesk.Magnitude
