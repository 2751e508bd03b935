import Mathlib.Data.List.TakeWhile
import PodDesk.Http.Message
import PodDesk.Proofs.Http.Segment
import PodDesk.Proofs.Text.CommaList

/-!
# Writing paths and forms

Any text can be written as a segment of a path, and any fields as a form, so that they are read
again: what would end a segment or a field is written as a percent sign with two digits.

## Main statements

- `Http.decodeSegment?_encodeSegment`: segments are read again
- `Http.Form.decodePart_encodePart`: names and values are read again
- `Http.Form.pairs_write`: forms are read again
- `Http.Request.path_query_of_target`: the path and the query of a target
-/

namespace PodDesk.Http

/-! ## Bytes -/

/-- `IsSafe c` says that `c` stands for a byte, and ends no part of a target. -/
structure IsSafe (c : Char) : Prop where
  ascii : c.toNat < 128
  inner : c ∉ ['#', '&', '/', '=', '?']

/-- `escape b` writes the byte `b` as a percent sign with two digits. -/
def escape (b : UInt8) : List Char :=
  ['%', Form.hexDigit (b.toNat / 16), Form.hexDigit (b.toNat % 16)]

private theorem hexDigit?_hexDigit : ∀ n < 16,
    hexDigit? (Form.hexDigit n).val.toUInt8 = some (UInt8.ofNat n) := by
  decide

private theorem hexDigit_safe : ∀ n < 16, (Form.hexDigit n).toNat < 128 ∧
    Form.hexDigit n ∉ ['#', '&', '/', '=', '?', '+'] := by
  decide

/-- `escape b` has safe characters, and no plus sign among them. -/
private theorem escape_safe {b : UInt8} {c : Char} (h : c ∈ escape b) : IsSafe c ∧ c ≠ '+' := by
  have hlt := b.toNat_lt
  have hc : c.toNat < 128 ∧ c ∉ ['#', '&', '/', '=', '?', '+'] := by
    simp only [escape, List.mem_cons, List.not_mem_nil, or_false] at h
    rcases h with rfl | rfl | rfl
    · decide
    · exact hexDigit_safe _ (by omega)
    · exact hexDigit_safe _ (by omega)
  have hsign : c ∉ ['#', '&', '/', '=', '?'] ++ ['+'] := hc.2
  rw [List.mem_append, List.mem_singleton, not_or] at hsign
  exact ⟨⟨hc.1, hsign.1⟩, hsign.2⟩

/-- `percentDecode` reads a byte that `escape` wrote. -/
theorem percentDecode_escape (b : UInt8) (bytes : List UInt8) :
    percentDecode ((escape b).map (·.val.toUInt8) ++ bytes) = b :: percentDecode bytes := by
  have hlt := b.toNat_lt
  have hhigh := hexDigit?_hexDigit (b.toNat / 16) (by omega)
  have hlow := hexDigit?_hexDigit (b.toNat % 16) (by omega)
  have hbyte : UInt8.ofNat (b.toNat / 16) * 16 + UInt8.ofNat (b.toNat % 16) = b := by
    apply UInt8.toNat_inj.1
    simp
    omega
  have hpercent : '%'.val.toUInt8 = 0x25 := rfl
  simp only [escape, List.map_cons, List.map_nil, List.cons_append, List.nil_append, percentDecode,
    hpercent, if_true, hhigh, hlow, hbyte]

/-- `percentDecode` reads bytes one by one that are written one by one. -/
theorem percentDecode_flatMap {write : UInt8 → List UInt8}
    (h : ∀ b bytes, percentDecode (write b ++ bytes) = b :: percentDecode bytes)
    (bytes : List UInt8) : percentDecode (bytes.flatMap write) = bytes := by
  induction bytes with
  | nil => rfl
  | cons b bytes ih => rw [List.flatMap_cons, h, ih]

/-! ## Segments of a path -/

/-- `encodeSegment text` writes a text as a segment of a path. -/
def encodeSegment (text : String) : List Char :=
  (Utf8.encode text.toList).flatMap escape

theorem isSafe_of_mem_encodeSegment {text : String} {c : Char} (h : c ∈ encodeSegment text) :
    IsSafe c := by
  obtain ⟨b, -, hc⟩ := List.mem_flatMap.1 h
  exact (escape_safe hc).1

/-- `decodeSegment?` reads what `encodeSegment` wrote. -/
theorem decodeSegment?_encodeSegment (text : String) :
    decodeSegment? (encodeSegment text) = some text := by
  have hascii : ∀ c ∈ encodeSegment text, c.toNat < 128 := fun c hc =>
    (isSafe_of_mem_encodeSegment hc).ascii
  rw [decodeSegment?, Utf8.encode_of_ascii hascii, encodeSegment, List.map_flatMap,
    percentDecode_flatMap percentDecode_escape, Utf8.decode?_encode, Option.map_some,
    String.ofList_toList]

/-- `encodeSegment` is empty for the empty text alone. -/
theorem encodeSegment_ne_nil {text : String} (h : text ≠ "") : encodeSegment text ≠ [] := by
  intro hnil
  have hdecode := decodeSegment?_encodeSegment text
  rw [hnil, decodeSegment?_of_label (List.forall_mem_nil _)] at hdecode
  exact h (Option.some.inj hdecode).symm

namespace Form

/-! ## Parts of a form -/

/-- `spaced` reads a plus sign in a part of a form as a space. -/
private def spaced (c : Char) : Char :=
  if c = '+' then ' ' else c

/-- `isPlain` keeps the bytes of letters, numerals and four signs as they are. -/
private theorem toNat_of_isPlain {b : UInt8} (h : isPlain b = true) :
    (48 ≤ b.toNat ∧ b.toNat ≤ 57) ∨ (65 ≤ b.toNat ∧ b.toNat ≤ 90) ∨
      (97 ≤ b.toNat ∧ b.toNat ≤ 122) ∨ b.toNat = 42 ∨ b.toNat = 45 ∨ b.toNat = 46 ∨
      b.toNat = 95 := by
  simp only [isPlain, Bool.or_eq_true, Bool.and_eq_true, decide_eq_true_eq, beq_iff_eq,
    UInt8.le_iff_toNat_le, ← UInt8.toNat_inj, UInt8.reduceToNat] at h
  omega

/-- `isPlain` bytes have safe characters that are read as those bytes. -/
private theorem isPlain_spec {b : UInt8} (h : isPlain b = true) :
    IsSafe (Char.ofNat b.toNat) ∧ (spaced (Char.ofNat b.toNat)).val.toUInt8 = b ∧ b ≠ 0x25 := by
  have hrange := toNat_of_isPlain h
  have hc : (Char.ofNat b.toNat).toNat = b.toNat := by
    rw [Char.ofNat, dif_pos (.inl (by omega))]
    rfl
  generalize Char.ofNat b.toNat = c at hc
  have hsign : c ∉ ['#', '&', '/', '=', '?'] ++ ['+'] := by
    intro hmem
    simp only [List.cons_append, List.nil_append, List.mem_cons, List.not_mem_nil, or_false] at hmem
    rcases hmem with rfl | rfl | rfl | rfl | rfl | rfl <;> simp at hc <;> omega
  rw [List.mem_append, List.mem_singleton, not_or] at hsign
  -- Reading leaves the character as it is, since no plain byte is a plus sign.
  refine ⟨⟨by omega, hsign.1⟩, ?_, ?_⟩
  · rw [spaced, if_neg hsign.2, ← UInt8.toNat_inj, ← hc]
    show c.toNat % 256 = c.toNat
    omega
  · rintro rfl
    simp at hrange

/-- `encodeByte b` writes the byte as itself, as a plus sign, or with a percent sign. -/
private theorem encodeByte_spec (b : UInt8) :
    (∀ c ∈ encodeByte b, IsSafe c) ∧
      ∀ bytes, percentDecode (((encodeByte b).map fun c => (spaced c).val.toUInt8) ++ bytes) =
        b :: percentDecode bytes := by
  unfold encodeByte
  split
  · rename_i hplain
    obtain ⟨hsafe, hbyte, hpercent⟩ := isPlain_spec hplain
    refine ⟨List.forall_mem_singleton.2 hsafe, fun bytes => ?_⟩
    rw [List.map_singleton, hbyte]
    exact percentDecode_cons hpercent bytes
  · split
    · rename_i hspace
      subst hspace
      exact ⟨List.forall_mem_singleton.2 ⟨by decide, by decide⟩,
        fun bytes => percentDecode_cons (by decide) bytes⟩
    -- Any other byte is escaped, and an escape has no plus sign to be read as a space.
    · have hspaced : ((escape b).map fun c => (spaced c).val.toUInt8) =
          (escape b).map (·.val.toUInt8) := by
        apply List.map_congr_left
        intro c hc
        rw [spaced, if_neg (escape_safe hc).2]
      refine ⟨fun c hc => (escape_safe hc).1, fun bytes => ?_⟩
      rw [← percentDecode_escape b bytes, ← hspaced]
      rfl

theorem isSafe_of_mem_encodePart {text : String} {c : Char} (h : c ∈ (encodePart text).toList) :
    IsSafe c := by
  rw [encodePart, String.toList_ofList] at h
  obtain ⟨b, -, hc⟩ := List.mem_flatMap.1 h
  exact (encodeByte_spec b).1 c hc

/-- `decodePart` reads what `encodePart` wrote. -/
theorem decodePart_encodePart (text : String) : decodePart (encodePart text).toList = text := by
  have hascii : ∀ c ∈ (encodePart text).toList.map spaced, c.toNat < 128 := by
    intro c hc
    obtain ⟨d, hd, rfl⟩ := List.mem_map.1 hc
    unfold spaced
    split
    · decide
    · exact (isSafe_of_mem_encodePart hd).ascii
  have hbytes : Utf8.encode ((encodePart text).toList.map spaced) =
      (Utf8.encode text.toList).flatMap fun b =>
        (encodeByte b).map fun c => (spaced c).val.toUInt8 := by
    rw [Utf8.encode_of_ascii hascii, encodePart, String.toList_ofList, List.map_map,
      List.map_flatMap]
    rfl
  show String.ofList (Utf8.decodeLossy (percentDecode
    (Utf8.encode ((encodePart text).toList.map spaced)))) = text
  rw [hbytes, percentDecode_flatMap fun b => (encodeByte_spec b).2, Utf8.decodeLossy_encode,
    String.ofList_toList]

/-! ## Forms -/

/-- `field name value` is a field of a form. -/
def field (name value : String) : List Char :=
  (encodePart name).toList ++ '=' :: (encodePart value).toList

/-- `write fields` is the form with some fields. -/
def write (fields : List (String × String)) : List Char :=
  ['&'].intercalate (fields.map fun f => field f.1 f.2)

/-- `field` writes none of the characters that end a field or the target. -/
theorem not_mem_field (name value : String) : ∀ c ∈ ['#', '&'], c ∉ field name value := by
  intro c hc hmem
  have hpart : ∀ text, c ∉ (encodePart text).toList := by
    intro text hsafe
    have := (isSafe_of_mem_encodePart hsafe).inner
    simp_all
  rcases List.mem_append.1 hmem with hname | hvalue
  · exact hpart name hname
  · rcases List.mem_cons.1 hvalue with rfl | hvalue
    · simp at hc
    · exact hpart value hvalue

/-- `write` leaves out the character that ends the target. -/
theorem hash_not_mem_write (fields : List (String × String)) : '#' ∉ write fields := by
  intro hmem
  rcases Text.mem_intercalate hmem with hamp | ⟨part, hpart, hhash⟩
  · simp at hamp
  · obtain ⟨f, -, rfl⟩ := List.mem_map.1 hpart
    exact not_mem_field f.1 f.2 '#' (by decide) hhash

/-- `pairs` reads what `write` wrote. -/
theorem pairs_write (fields : List (String × String)) : pairs (write fields) = fields := by
  -- Every field has an equals sign, so none of them is skipped.
  have hne : ∀ part ∈ fields.map (fun f => field f.1 f.2), part ≠ [] := by
    intro part hpart
    obtain ⟨f, -, rfl⟩ := List.mem_map.1 hpart
    simp [field]
  have hparts : (Text.splitAtEach '&' (write fields)).filter (! ·.isEmpty) =
      fields.map fun f => field f.1 f.2 := by
    cases fields with
    | nil => rfl
    | cons f fields =>
      -- No field has an ampersand in it, so the form is split where its fields meet.
      rw [write, Text.splitAtEach_intercalate _ (by simp), List.filter_eq_self]
      · intro part hpart
        simpa using hne part hpart
      · intro part hpart
        obtain ⟨f, -, rfl⟩ := List.mem_map.1 hpart
        intro hamp
        exact not_mem_field f.1 f.2 '&' (by decide) hamp
  rw [pairs, hparts, List.map_map]
  refine (List.map_congr_left fun f _ => ?_).trans (List.map_id fields)
  have hname : '=' ∉ (encodePart f.1).toList := fun hc =>
    (isSafe_of_mem_encodePart hc).inner (by decide)
  simp only [Function.comp_apply, field, Text.splitAtFirst_append hname, Option.getD_some,
    decodePart_encodePart]
  rfl

end Form

/-! ## Targets -/

/-- `Request.path` and `Request.query` of a target that is put together from a path and a query. -/
theorem Request.path_query_of_target {r : Request} {path query : List Char}
    (h : r.target.toList = path ++ '?' :: query) (hpath : ∀ c ∈ path, c ∉ ['#', '?'])
    (hquery : '#' ∉ query) : r.path = path ∧ r.query = query := by
  have hplain : ∀ c ∈ path, decide (c ≠ '#') = true ∧ decide (c ≠ '?') = true := by
    intro c hc
    simpa using hpath c hc
  have hresource : r.resource = path ++ '?' :: query := by
    rw [resource, h, List.takeWhile_eq_self_iff]
    simp only [List.forall_mem_append, List.forall_mem_cons]
    refine ⟨fun c hc => (hplain c hc).1, by decide, fun c hc => decide_eq_true ?_⟩
    rintro rfl
    exact hquery hc
  constructor
  · rw [Request.path, hresource, List.takeWhile_append_of_pos fun c hc => (hplain c hc).2]
    simp
  · rw [Request.query, hresource, List.dropWhile_append_of_pos fun c hc => (hplain c hc).2]
    simp

end PodDesk.Http
