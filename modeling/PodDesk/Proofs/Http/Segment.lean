import PodDesk.Http.Percent
import PodDesk.Proofs.Text.Utf8
import PodDesk.Request.Validation

/-!
# Segments of a path

A segment that consists of the characters of a label stands for itself: its characters are single
bytes, none of them is a percent sign, and none of them ends the segment.

## Main statements

- `Http.percentDecode_of_plain`: without percent signs nothing is decoded
- `Http.decodeSegment?_of_label`: a label stands for itself
-/

namespace PodDesk.Http

/-- `percentDecode` keeps a byte other than a percent sign. -/
theorem percentDecode_cons {b : UInt8} (h : b ≠ 0x25) (bytes : List UInt8) :
    percentDecode (b :: bytes) = b :: percentDecode bytes := by
  -- Three bytes are looked at at once, so lists of one and two are cases of their own.
  rcases bytes with _ | ⟨high, _ | ⟨low, bytes⟩⟩
  · rfl
  · rfl
  · simp [percentDecode, h]

/-- `percentDecode` changes nothing where there are no percent signs. -/
theorem percentDecode_of_plain {bytes : List UInt8} (h : ∀ b ∈ bytes, b ≠ 0x25) :
    percentDecode bytes = bytes := by
  induction bytes with
  | nil => rfl
  | cons b bytes ih =>
    rw [percentDecode_cons (h b List.mem_cons_self),
      ih fun b' hb' => h b' (List.mem_cons_of_mem _ hb')]

/-- `isLabelChar` holds of small letters, digits and dashes. -/
theorem toNat_of_isLabelChar {c : Char} (h : isLabelChar c) :
    (97 ≤ c.toNat ∧ c.toNat ≤ 122) ∨ (48 ≤ c.toNat ∧ c.toNat ≤ 57) ∨ c.toNat = 45 := by
  simp only [isLabelChar, isLabelEdge, Bool.or_eq_true, Bool.and_eq_true, decide_eq_true_eq,
    beq_iff_eq, Char.le_def, UInt32.le_iff_toNat_le] at h
  rcases h with (⟨hlow, hhigh⟩ | ⟨hlow, hhigh⟩) | rfl
  · exact .inl ⟨hlow, hhigh⟩
  · exact .inr (.inl ⟨hlow, hhigh⟩)
  · exact .inr (.inr rfl)

/-- `decodeSegment?` keeps a segment of the characters of a label. -/
theorem decodeSegment?_of_label {cs : List Char} (h : ∀ c ∈ cs, isLabelChar c) :
    decodeSegment? cs = some (String.ofList cs) := by
  have hascii : ∀ c ∈ cs, c.toNat < 128 := by
    intro c hc
    have := toNat_of_isLabelChar (h c hc)
    omega
  have hplain : ∀ b ∈ Utf8.encode cs, b ≠ 0x25 := by
    intro b hb heq
    rw [Utf8.encode_of_ascii hascii] at hb
    obtain ⟨c, hc, rfl⟩ := List.mem_map.1 hb
    have hnumber := toNat_of_isLabelChar (h c hc)
    -- The percent sign has the number 37, below those of a label.
    have hbyte : c.toNat % 256 = 37 := congrArg UInt8.toNat heq
    omega
  rw [decodeSegment?, percentDecode_of_plain hplain, Utf8.decode?_encode]
  rfl

/-- `isLabelChar` excludes the slash. -/
theorem slash_not_mem_of_label {cs : List Char} (h : ∀ c ∈ cs, isLabelChar c) : '/' ∉ cs := by
  intro hmem
  have hnumber := toNat_of_isLabelChar (h '/' hmem)
  have hslash : '/'.toNat = 47 := rfl
  omega

end PodDesk.Http
