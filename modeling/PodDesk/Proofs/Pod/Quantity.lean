import PodDesk.Pod.Quantity
import PodDesk.Proofs.Number.Numeral
import PodDesk.Proofs.Number.Rounding
import PodDesk.Proofs.Text.CommaList

/-!
# Reading quantities

Amounts of memory in whole numbers and amounts of processor time with up to three decimal places are
read without any loss. Below the largest figure the arithmetic is exact or so near that the whole
part does not change, and above it rounding keeps the order, so nothing falls back below.

## Main statements

- `Quantity.IsMemory`, `Quantity.IsProcessorTime`, `Quantity.Spells`: the texts in question
- `Quantity.mebibytes_of_isMemory`, `Quantity.millicores_of_isProcessorTime`: how they are read
- `Quantity.millicores_ofMillicores`, `Quantity.mebibytes_ofMebibytes`: figures are read back
-/

namespace PodDesk.Quantity

open Decimal (IsNumeral IsThousandths minus signed)

/-! ## Amounts -/

/-- `IsProcessorTime text n` says that the text is an amount of processor time of `n` thousandths of
a core: a number of these, or a number of cores with up to three places after a point. -/
inductive IsProcessorTime : List Char → Nat → Prop
  | millicores {digits n} (h : IsNumeral digits n) : IsProcessorTime (digits ++ ['m']) n
  | cores {digits a} (h : IsNumeral digits a) : IsProcessorTime digits (1000 * a)
  | fraction {whole places a f} (hwhole : IsNumeral whole a) (hplaces : IsThousandths places f) :
    IsProcessorTime (whole ++ '.' :: places) (1000 * a + f)

/-- `memorySuffixes` has the suffixes of an amount of memory, with the bytes that each stands for.
-/
def memorySuffixes : List (String × Nat) :=
  [("", 1), ("k", 1000), ("K", 1000), ("M", 1000 ^ 2), ("G", 1000 ^ 3), ("T", 1000 ^ 4),
    ("P", 1000 ^ 5), ("E", 1000 ^ 6), ("Ki", 1024), ("Mi", 1024 ^ 2), ("Gi", 1024 ^ 3),
    ("Ti", 1024 ^ 4), ("Pi", 1024 ^ 5), ("Ei", 1024 ^ 6)]

/-- `IsMemory text n` says that the text is an amount of memory of `n` bytes: a number with a
suffix. -/
inductive IsMemory : List Char → Nat → Prop
  | mk {digits n suffix size} (h : IsNumeral digits n) (hsuffix : (suffix, size) ∈ memorySuffixes) :
    IsMemory (digits ++ suffix.toList) (n * size)

/-- `Spells s negative text` says that the string `s` is the text with a minus sign or none before
it, in the middle of white space. -/
def Spells (s : String) (negative : Bool) (text : List Char) : Prop :=
  ∃ before after, (∀ c ∈ before, Text.isBlank c = true) ∧ (∀ c ∈ after, Text.isBlank c = true) ∧
    s.toList = before ++ (minus negative ++ text) ++ after

variable {s : String} {text digits : List Char} {negative : Bool} {bytes n size : Nat}

/-! ## Units -/

theorem dropUnit?_append (cs unit : List Char) : dropUnit? unit (cs ++ unit) = some cs := by
  have hsuffix : unit.isSuffixOf (cs ++ unit) = true :=
    List.isSuffixOf_iff_suffix.2 (List.suffix_append cs unit)
  simp [dropUnit?, hsuffix]

theorem dropUnit?_eq_none {cs unit : List Char} (h : ¬ unit <:+ cs) : dropUnit? unit cs = none := by
  rw [dropUnit?, if_neg (mt List.isSuffixOf_iff_suffix.1 h)]

/-- `List.IsSuffix` of a number with a suffix: a unit at its end is one at the end of the suffix. -/
private theorem suffix_of_suffix_append {number unit suffix : List Char}
    (hnumber : ∀ c ∈ number.getLast?, c.isDigit = true) (hunit : ∀ c ∈ unit, c.isDigit = false)
    (h : unit <:+ number ++ suffix) : unit <:+ suffix := by
  rcases List.suffix_or_suffix_of_suffix h (List.suffix_append number suffix) with hle | ⟨more, rfl⟩
  · exact hle
  rcases List.eq_nil_or_concat' more with rfl | ⟨front, c, rfl⟩
  · exact List.suffix_rfl
  · -- Otherwise the last digit would be part of the unit.
    obtain ⟨first, rfl⟩ := List.suffix_append_self_iff.1 h
    have hdigit := hnumber c (by simp)
    simp [hunit c (by simp)] at hdigit

/-- `memoryUnits` tries no earlier unit that is at the end of a suffix. -/
private theorem memoryUnits_first : ∀ p ∈ memorySuffixes, ∃ i < memoryUnits.length,
    memoryUnits[i]? = some (p.1.toList, p.2) ∧
      ∀ u ∈ memoryUnits.take i, ¬ u.1 <:+ p.1.toList := by decide

private theorem isDigit_memoryUnits : ∀ u ∈ memoryUnits, ∀ c ∈ u.1, c.isDigit = false := by
  simp [memoryUnits]

private theorem isBlank_memorySuffixes :
    ∀ p ∈ memorySuffixes, ∀ c ∈ p.1.toList, Text.isBlank c = false := by
  simp [memorySuffixes, Text.isBlank]

private theorem memorySuffixes_pos : ∀ p ∈ memorySuffixes, 0 < p.2 := by decide

/-! ## Texts -/

/-- `Decimal.real?` reads digits with the sign before them. -/
private theorem real?_numeral (negative : Bool) (h : IsNumeral digits n) :
    Decimal.real? (minus negative ++ digits) = some (.finite negative n 0) :=
  Decimal.real?_signed negative (fun c hc => h.allDigits c (List.mem_of_mem_head? hc))
    (Decimal.unsignedReal?_numeral h)

/-- `IsNumeral` ends with a digit, with a sign before it or not. -/
private theorem isDigit_last (negative : Bool) (h : IsNumeral digits n) :
    ∀ c ∈ (minus negative ++ digits).getLast?, c.isDigit = true := by
  intro c hc
  rw [List.getLast?_append, Option.or_of_isSome (List.getLast?_isSome.2 h.nonEmpty)] at hc
  exact h.allDigits c (List.mem_of_getLast? hc)

/-- `Text.trimChars` takes the white space away. -/
theorem Spells.trimChars (h : Spells s negative text)
    (hblank : ∀ c ∈ text, Text.isBlank c = false) :
    Text.trimChars s.toList = minus negative ++ text := by
  obtain ⟨before, after, hbefore, hafter, hs⟩ := h
  have hminus : ∀ c ∈ minus negative, Text.isBlank c = false := by
    cases negative <;> simp [minus, Text.isBlank]
  rw [hs]
  exact Text.trimChars_of_blank_ends hbefore hafter
    (Text.isTrimmed_of_forall (List.forall_mem_append.2 ⟨hminus, hblank⟩))

private theorem memoryAmount?_eq {suffix : String} (negative : Bool) (h : IsNumeral digits n)
    (hsuffix : (suffix, size) ∈ memorySuffixes) :
    memoryAmount? (minus negative ++ (digits ++ suffix.toList)) =
      some (.finite negative n 0, size) := by
  obtain ⟨i, -, hi, hfirst⟩ := memoryUnits_first _ hsuffix
  obtain ⟨hlt, hget⟩ := List.getElem?_eq_some_iff.1 hi
  refine List.findSome?_eq_some_iff.2 ⟨memoryUnits.take i, (suffix.toList, size),
    memoryUnits.drop (i + 1), ?_, ?_, ?_⟩
  · rw [← hget, List.getElem_cons_drop, List.take_append_drop]
  · simp only [← List.append_assoc, dropUnit?_append, real?_numeral negative h,
      Option.bind_eq_bind, Option.bind_some]
  -- An earlier unit would be at the end of the suffix, as the number ends with a digit.
  · intro u hu
    have hnone : dropUnit? u.1 (minus negative ++ (digits ++ suffix.toList)) = none := by
      refine dropUnit?_eq_none fun hsuf => hfirst u hu ?_
      rw [← List.append_assoc] at hsuf
      exact suffix_of_suffix_append (isDigit_last negative h)
        (isDigit_memoryUnits u (List.mem_of_mem_take hu)) hsuf
    simp only [hnone, Option.bind_eq_bind, Option.bind_none]

/-! ## Figures that are clamped -/

theorem toInt_clampInt32 (n : Int) :
    (clampInt32 n).toInt = max (-2147483648) (min n 2147483647) :=
  Int32.toInt_ofInt_of_le (by omega) (by omega)

/-- `clamp` takes infinity like any number that does not fit. -/
private theorem clamp_eq (negative : Bool) (r : Option Nat) :
    clamp negative r = clampInt32 (signed negative (r.getD word31)) := by
  cases r <;> rfl

/-- `clampInt32` takes numbers that do not fit to the same figure. -/
private theorem clampInt32_of_le {k : Nat} (hk : word31 ≤ k) (hn : word31 ≤ n) :
    clampInt32 (signed negative k) = clampInt32 (signed negative n) := by
  unfold word31 at hk hn
  unfold clampInt32
  congr 1
  cases negative <;> simp only [signed, if_true, Bool.false_eq_true, if_false] <;> omega

/-- `clamp` does not depend on what is read where the number does not fit, if what is read does not
fit either. -/
private theorem clamp_of_le {r : Option Nat} (h : ∀ k ∈ r, word31 ≤ k) (hn : word31 ≤ n) :
    clamp negative r = clampInt32 (signed negative n) := by
  rw [clamp_eq]
  refine clampInt32_of_le ?_ hn
  cases r with
  | none => exact Nat.le_refl _
  | some k => exact h k rfl

/-! ## Arithmetic -/

open Magnitude

private theorem rounds_whole (n : Nat) : (ofDecimal n 0).Rounds n := by
  simpa using rounds_ofDecimal n (show -400 ≤ (0 : Int) by decide) (by decide)

/-- `Magnitude.timesNat` of whole numbers is exact while the product has 53 bits. -/
private theorem value_timesNat (hsize : 0 < size) (hbits : n * size < 2 ^ 53) :
    ((ofDecimal n 0).timesNat size).value = ((n * size : Nat) : ℚ) := by
  have hn : n < 2 ^ 53 := (Nat.le_mul_of_pos_right n hsize).trans_lt hbits
  exact Rounds.whole (by simpa using rounds_timesNat ((rounds_whole n).whole hn) size) hbits

/-- `Magnitude.timesNat` is still large after rounding where the product has more bits. -/
private theorem le_timesNat (hsize : 0 < size) (hbits : 2 ^ 53 ≤ n * size) :
    finite (2 ^ 51) 0 ≤ (ofDecimal n 0).timesNat size := by
  -- The factor may itself be rounded, but not below `2 ^ 52`.
  have hnumber : finite (min n (2 ^ 52)) 0 ≤ ofDecimal n 0 :=
    (rounds_whole n).whole_le (by omega) (by exact_mod_cast Nat.min_le_left n (2 ^ 52))
  refine le_trans ?_ (timesNat_mono hnumber size)
  refine (rounds_timesNat (value_whole _) size).whole_le (by decide) ?_
  have hmin : 2 ^ 51 ≤ min n (2 ^ 52) * size := by
    rcases Nat.le_total n (2 ^ 52) with hle | hle
    · rw [Nat.min_eq_left hle]
      omega
    · rw [Nat.min_eq_right hle]
      omega
  exact_mod_cast hmin

/-- `clamp` of a number of MiB: whole numbers of bytes are divided without loss while they have 53
bits, and with more of them they are too many anyway. -/
private theorem clamp_mebibytes (n : Nat) (hsize : 0 < size) :
    clamp negative (((ofDecimal n 0).timesNat size).overNat mebibyte).floor? =
      clampInt32 (signed negative (n * size / mebibyte)) := by
  rcases Nat.lt_or_ge (n * size) (2 ^ 53) with hbits | hbits
  · -- A MiB is a power of two, so the quotient needs no more bits than the number of bytes.
    have hdyadic : ((n * size : Nat) / mebibyte : ℚ) = dyadic (n * size) (-20) := by
      rw [dyadic, mebibyte]
      norm_num
      ring
    have hquotient : (((ofDecimal n 0).timesNat size).overNat mebibyte).value =
        (dyadic (n * size) (-20) : ℚ) :=
      Rounds.exact (hdyadic ▸ rounds_overNat (value_timesNat hsize hbits) (by decide)) hbits
        (by decide) (by decide)
    rw [floor?_eq hquotient, ← hdyadic, Nat.floor_div_eq_div, clamp_eq]
    rfl
  · have hquotient : finite word31 0 ≤ ((ofDecimal n 0).timesNat size).overNat mebibyte := by
      refine le_trans ?_ (overNat_mono (le_timesNat hsize hbits) (by decide))
      refine (rounds_overNat (value_whole _) (by decide)).whole_le (by decide) ?_
      norm_num [word31, mebibyte]
    refine clamp_of_le (fun k hk => ?_) ?_
    · obtain ⟨j, hj, hle⟩ := floor?_mono hquotient k hk
      rw [floor?_whole (value_whole _), Option.mem_some_iff] at hj
      omega
    · unfold word31 mebibyte
      omega

private theorem clamp_millicores (n : Nat) :
    clamp negative ((ofDecimal n 0).timesNat 1).roundHalfUp? = clampInt32 (signed negative n) := by
  rcases Nat.lt_or_ge (n * 1) (2 ^ 53) with hbits | hbits
  · rw [roundHalfUp?_whole (value_timesNat Nat.one_pos hbits), Nat.mul_one, clamp_eq]
    rfl
  · refine clamp_of_le (fun k hk => ?_) ?_
    · obtain ⟨j, hj, hle⟩ := roundHalfUp?_mono (le_timesNat Nat.one_pos hbits) k hk
      rw [roundHalfUp?_whole (value_whole _), Option.mem_some_iff] at hj
      unfold word31
      omega
    · unfold word31
      omega

/-- `Magnitude.roundHalfUp?` of thousandths: they have no exact value, but up to the largest figure
what is rounded off stays below one half in a thousand of it. -/
private theorem roundHalfUp?_thousandths {x : Magnitude} (hx : x.Rounds (n / 1000))
    (hn : n ≤ word31) : (x.timesNat 1000).roundHalfUp? = some n := by
  have hn' : (n : ℚ) ≤ 2147483648 := by exact_mod_cast hn
  -- The number of cores is off by at most `2 ^ -32`, and its product by `2 ^ -22` more.
  obtain ⟨v, hv, hcores⟩ := hx.near 22 (by norm_num; linarith) (by decide) (by decide)
  rw [abs_sub_le_iff] at hcores
  norm_num at hcores
  obtain ⟨w, hw, hmillis⟩ := (rounds_timesNat hv 1000).near 32
    (by norm_num; linarith) (by decide) (by decide)
  rw [abs_sub_le_iff] at hmillis
  norm_num at hmillis
  have hzero : (0 : ℚ) ≤ n := Nat.cast_nonneg n
  rw [roundHalfUp?_eq hw, Option.some_inj, Nat.floor_eq_iff (by linarith)]
  constructor <;> linarith

/-- `clamp` of thousandths: a larger number is not read as a smaller figure than the largest one. -/
private theorem clamp_thousandths {x : Magnitude} (hx : x.Rounds (n / 1000)) :
    clamp negative (x.timesNat 1000).roundHalfUp? = clampInt32 (signed negative n) := by
  rcases Nat.le_total n word31 with hn | hn
  · rw [roundHalfUp?_thousandths hx hn, clamp_eq]
    rfl
  · have hbound : (ofRatio word31 1000).Rounds (word31 / 1000) := rounds_ofRatio word31 (by decide)
    have hle : ofRatio word31 1000 ≤ x := hbound.mono hx (by gcongr)
    refine clamp_of_le (fun k hk => ?_) hn
    obtain ⟨j, hj, hjk⟩ := roundHalfUp?_mono (timesNat_mono hle 1000) k hk
    rw [roundHalfUp?_thousandths hbound le_rfl, Option.mem_some_iff] at hj
    omega

/-- `IsThousandths` around a point, as the number that is rounded. -/
private theorem rounds_point {whole places : List Char} {a f : Nat} (hwhole : IsNumeral whole a)
    (hplaces : IsThousandths places f) :
    (ofDecimal (Nat.ofDigitChars 10 (whole ++ places) 0) (-(places.length : Int))).Rounds
      (((1000 * a + f : Nat) : ℚ) / 1000) := by
  have hfew := hplaces.few
  have hratio : (Nat.ofDigitChars 10 (whole ++ places) 0 : ℚ) * 10 ^ (-(places.length : Int)) =
      ((1000 * a + f : Nat) : ℚ) / 1000 := by
    rw [← hplaces.ofDigitChars_append hwhole, Nat.cast_mul, Nat.cast_pow, eq_div_iff (by norm_num),
      mul_assoc, zpow_neg, zpow_natCast]
    have hthousand : (1000 : ℚ) = 10 ^ places.length * 10 ^ (3 - places.length) := by
      rw [← pow_add, Nat.add_sub_cancel' hfew]
      norm_num
    rw [hthousand, inv_mul_cancel_left₀ (by positivity)]
    norm_cast
  rw [← hratio]
  exact rounds_ofDecimal _ (by omega) (by omega)

/-! ## Texts that are read -/

/-- `millicores` reads the number before an `m`, or the number of cores. -/
private theorem millicores_eq {number : List Char} {power : Int} {scale : Nat} (s : String)
    (htext : Text.trimChars s.toList = text)
    (hnumber : dropUnit? ['m'] text = some number ∧ scale = 1 ∨
      dropUnit? ['m'] text = none ∧ number = text ∧ scale = 1000)
    (hread : Decimal.real? number = some (.finite negative n power)) :
    millicores s = clamp negative ((ofDecimal n power).timesNat scale).roundHalfUp? := by
  rcases hnumber with ⟨hunit, rfl⟩ | ⟨hunit, rfl, rfl⟩ <;>
    simp only [millicores, htext, hunit, hread]

private theorem not_mem_of_isDigit {letter : Char} (hdigits : ∀ c ∈ digits, c.isDigit = true)
    (hletter : letter.isDigit = false) : letter ∉ digits := fun hmem =>
  Decimal.ne_of_isDigit (hdigits letter hmem) hletter rfl

private theorem dropUnit?_of_not_mem {cs : List Char} {letter : Char} (h : letter ∉ cs) :
    dropUnit? [letter] cs = none :=
  dropUnit?_eq_none fun hsuffix => h (hsuffix.subset List.mem_cons_self)

private theorem not_mem_minus {letter : Char} (h : letter ≠ '-') (negative : Bool) :
    letter ∉ minus negative := by
  cases negative <;> simp [minus, h]

/-- `millicores` reads an amount of processor time exactly, and clamps it. -/
theorem millicores_of_isProcessorTime (htext : IsProcessorTime text n)
    (hs : Spells s negative text) : millicores s = clampInt32 (signed negative n) := by
  cases htext with
  | @millicores digits n h =>
    rw [millicores_eq _ (hs.trimChars ?_) (.inl ⟨?_, rfl⟩) (real?_numeral negative h)]
    · exact clamp_millicores n
    · exact List.forall_mem_append.2 ⟨h.not_blank, List.forall_mem_singleton.2 (by decide)⟩
    · rw [← List.append_assoc, dropUnit?_append]
  | @cores _ a h =>
    rw [millicores_eq _ (hs.trimChars h.not_blank) (.inr ⟨?_, rfl, rfl⟩) (real?_numeral negative h)]
    · refine clamp_thousandths ?_
      simpa using rounds_whole a
    · refine dropUnit?_of_not_mem ?_
      exact List.not_mem_append (not_mem_minus (by decide) negative)
        (not_mem_of_isDigit h.allDigits (by decide))
  | @fraction whole places a f hwhole hplaces =>
    have hread : Decimal.real? (minus negative ++ (whole ++ '.' :: places)) = some (.finite negative
        (Nat.ofDigitChars 10 (whole ++ places) 0) (-(places.length : Int))) := by
      refine Decimal.real?_signed negative (fun c hc => ?_)
        (Decimal.unsignedReal?_point hwhole hplaces.allDigits)
      rw [List.head?_append, Option.or_of_isSome (List.isSome_head?.2 hwhole.nonEmpty)] at hc
      exact hwhole.allDigits c (List.mem_of_mem_head? hc)
    rw [millicores_eq _ (hs.trimChars ?_) (.inr ⟨?_, rfl, rfl⟩) hread]
    · exact clamp_thousandths (rounds_point hwhole hplaces)
    · simp only [List.forall_mem_append, List.forall_mem_cons]
      exact ⟨hwhole.not_blank, by decide, fun c hc =>
        Decimal.isBlank_of_isDigit (hplaces.allDigits c hc)⟩
    · refine dropUnit?_of_not_mem (List.not_mem_append (not_mem_minus (by decide) negative) ?_)
      refine List.not_mem_append (not_mem_of_isDigit hwhole.allDigits (by decide)) ?_
      exact List.not_mem_cons_of_ne_of_not_mem (by decide)
        (not_mem_of_isDigit hplaces.allDigits (by decide))

/-- `mebibytes` reads an amount of memory exactly, and clamps it. -/
theorem mebibytes_of_isMemory (htext : IsMemory text bytes) (hs : Spells s negative text) :
    mebibytes s = clampInt32 (signed negative (bytes / mebibyte)) := by
  obtain ⟨h, hsuffix⟩ := htext
  have htrim := hs.trimChars
    (List.forall_mem_append.2 ⟨h.not_blank, isBlank_memorySuffixes _ hsuffix⟩)
  simp only [mebibytes, htrim, memoryAmount?_eq negative h hsuffix]
  exact clamp_mebibytes _ (memorySuffixes_pos _ hsuffix)

/-! ## Figures -/

/-- `clampInt32` leaves a figure as it is, as it fits. -/
private theorem clampInt32_figure {k : Int32} (h : 0 < k) :
    clampInt32 (signed false k.toInt.toNat) = k := by
  have hpos : 0 < k.toInt := Int32.lt_iff_toInt_lt.1 h
  have hlt := k.toInt_lt
  have hsigned : signed false k.toInt.toNat = k.toInt := by
    simp only [signed, Bool.false_eq_true, if_false]
    omega
  rw [← Int32.toInt_inj, toInt_clampInt32, hsigned]
  omega

/-- `Spells` of the text of a positive number with a unit: its digits and the unit. -/
private theorem spells_toString {k : Int32} (h : 0 < k) (unit : String) :
    Spells (toString k.toInt ++ unit) false (Nat.toDigits 10 k.toInt.toNat ++ unit.toList) := by
  have hpos : 0 < k.toInt := Int32.lt_iff_toInt_lt.1 h
  obtain ⟨n, hn⟩ := Int.eq_ofNat_of_zero_le (Int.le_of_lt hpos)
  have hdigits : toString (n : Int) = String.ofList (Nat.toDigits 10 n) :=
    Nat.toString_eq_ofList_toDigits
  refine ⟨[], [], by simp, by simp, ?_⟩
  simp [minus, hn, hdigits]

/-- `millicores` reads a positive number of thousandths of a core back. -/
theorem millicores_ofMillicores {k : Int32} (h : 0 < k) : millicores (ofMillicores k) = k := by
  rw [ofMillicores, millicores_of_isProcessorTime (.millicores (Decimal.isNumeral_toDigits _))
    (spells_toString h "m"), clampInt32_figure h]

/-- `mebibytes` reads a positive number of MiB back. -/
theorem mebibytes_ofMebibytes {k : Int32} (h : 0 < k) : mebibytes (ofMebibytes k) = k := by
  have hmebi : ("Mi", mebibyte) ∈ memorySuffixes := by decide
  rw [ofMebibytes, mebibytes_of_isMemory (.mk (Decimal.isNumeral_toDigits _) hmebi)
    (spells_toString h "Mi"), Nat.mul_div_cancel _ (by decide), clampInt32_figure h]

end PodDesk.Quantity
