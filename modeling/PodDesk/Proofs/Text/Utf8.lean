import PodDesk.Text.Utf8

/-!
# UTF-8 of texts

What is written as UTF-8 is read again, strictly or leniently: the bytes of each character begin
with a byte that says how many follow, and the ranges that are refused are those of no character.

## Main statements

- `Utf8.encode_eq_flatMap`: a text is written character by character
- `Utf8.encode_of_ascii`: ASCII characters are single bytes
- `Utf8.next_utf8EncodeChar`: a character that was written is read
- `Utf8.decode?_encode`, `Utf8.decodeLossy_encode`: texts are read again
-/

namespace PodDesk.Utf8

variable {cs : List Char}

/-! ## The bytes of a text -/

/-- `ByteArray.toList.loop` has the bytes of an array from an index on. -/
private theorem toList_loop (bytes : ByteArray) (i : Nat) (acc : List UInt8) :
    ByteArray.toList.loop bytes i acc = acc.reverse ++ bytes.data.toList.drop i := by
  -- Induction on the number of bytes that are left to read.
  induction h : bytes.size - i generalizing i acc with
  | zero =>
    rw [ByteArray.toList.loop, if_neg (by omega), List.drop_eq_nil_of_le, List.append_nil]
    show bytes.data.toList.length ≤ i
    rw [Array.length_toList]
    have hsize : bytes.data.size = bytes.size := rfl
    omega
  | succ n ih =>
    have hlt : i < bytes.data.toList.length := by
      rw [Array.length_toList]
      have hsize : bytes.data.size = bytes.size := rfl
      omega
    have hget : bytes.get! i = bytes.data.toList[i] := by
      show bytes.data[i]! = _
      rw [Array.getElem_toList]
      exact getElem!_pos bytes.data i (by simpa using hlt)
    rw [ByteArray.toList.loop, if_pos (by omega), ih _ _ (by omega), hget,
      List.drop_eq_getElem_cons hlt]
    simp

/-- `ByteArray.toList` has the bytes of an array. -/
private theorem toList_eq_data (bytes : ByteArray) : bytes.toList = bytes.data.toList := by
  unfold ByteArray.toList
  rw [toList_loop]
  rfl

/-- `encode` writes a text character by character. -/
theorem encode_eq_flatMap (cs : List Char) : encode cs = cs.flatMap String.utf8EncodeChar := by
  unfold encode
  rw [toList_eq_data]
  show (List.utf8Encode cs).data.toList = _
  rw [List.utf8Encode, List.toList_data_toByteArray]

/-- `encode` writes ASCII characters as single bytes. -/
theorem encode_of_ascii (h : ∀ c ∈ cs, c.toNat < 128) : encode cs = cs.map (·.val.toUInt8) := by
  rw [encode_eq_flatMap]
  induction cs with
  | nil => rfl
  | cons c cs ih =>
    -- A character below 128 takes one byte, which is the character itself.
    have hc : c.utf8Size = 1 := by
      have hlt : c.val.toNat < 128 := h c List.mem_cons_self
      rw [Char.utf8Size_eq_one_iff, UInt32.le_iff_toNat_le]
      show c.val.toNat ≤ 127
      omega
    rw [List.flatMap_cons, String.utf8EncodeChar_eq_singleton hc, List.map_cons,
      ih fun c' hc' => h c' (List.mem_cons_of_mem _ hc')]
    rfl

/-! ## Reading a character -/

/-- `lead?` of the first byte of two. -/
private theorem lead?_two : ∀ k < 30,
    lead? (UInt8.ofNat (k + 2 + 192)) = some (1, k + 2, 0x80, 0xBF) := by
  decide

/-- `lead?` of the first byte of three. Without their ranges the first and the eleventh block would
have overlong forms and surrogates. -/
private theorem lead?_three : ∀ k < 16, lead? (UInt8.ofNat (k + 224)) =
    some (2, k, if k = 0 then 0xA0 else 0x80, if k = 13 then 0x9F else 0xBF) := by
  decide

/-- `lead?` of the first byte of four; the last block ends with the last character. -/
private theorem lead?_four : ∀ k < 5, lead? (UInt8.ofNat (k + 240)) =
    some (3, k, if k = 0 then 0x90 else 0x80, if k = 4 then 0x8F else 0xBF) := by
  decide

/-- `tail` adds the six bits of a byte that follows another one. -/
private theorem tail_continuation {n bits k : Nat} {low high : UInt8} {bytes : List UInt8}
    (hk : k < 64) (hlow : low.toNat ≤ k + 128) (hhigh : k + 128 ≤ high.toNat) :
    tail (n + 1) bits low high (UInt8.ofNat (k + 128) :: bytes) =
      tail n (bits * 64 + k) 0x80 0xBF bytes := by
  have hbyte : (UInt8.ofNat (k + 128)).toNat = k + 128 :=
    UInt8.toNat_ofNat_of_lt' (show k + 128 < 256 by omega)
  rw [tail, if_pos, hbyte, Nat.add_sub_cancel]
  rw [UInt8.le_iff_toNat_le, UInt8.le_iff_toNat_le, hbyte]
  exact ⟨hlow, hhigh⟩

/-- `tail` takes a byte that follows others, which is in the range of all such bytes. -/
private theorem tail_plain {n bits k : Nat} {bytes : List UInt8} (hk : k < 64) :
    tail (n + 1) bits 0x80 0xBF (UInt8.ofNat (k + 128) :: bytes) =
      tail n (bits * 64 + k) 0x80 0xBF bytes :=
  tail_continuation hk (show 128 ≤ k + 128 by omega) (show k + 128 ≤ 191 by omega)

section

variable {v : Nat} {bytes : List UInt8}

/-- `next` reads a character of one byte. -/
private theorem next_one (h : v ≤ 127) :
    next (UInt8.ofNat v) bytes = (some (Char.ofNat v), bytes) := by
  have hbyte : (UInt8.ofNat v).toNat = v := UInt8.toNat_ofNat_of_lt' (show v < 256 by omega)
  have hlead : lead? (UInt8.ofNat v) = some (0, v, 0, 0) := by
    rw [lead?, if_pos, hbyte]
    rw [UInt8.lt_iff_toNat_lt, hbyte]
    exact Nat.lt_succ_of_le h
  rw [next, hlead]
  rfl

/-- `next` reads a character of two bytes. -/
private theorem next_two (hlow : 127 < v) (hhigh : v ≤ 2047) :
    next (UInt8.ofNat (v / 64 % 32 + 192)) (UInt8.ofNat (v % 64 + 128) :: bytes) =
      (some (Char.ofNat v), bytes) := by
  rw [show v / 64 % 32 + 192 = v / 64 - 2 + 2 + 192 by omega, next, lead?_two _ (by omega)]
  dsimp only
  rw [tail_plain (by omega), tail, show (v / 64 - 2 + 2) * 64 + v % 64 = v by omega]

/-- `next` reads a character of three bytes, which is not a surrogate. -/
private theorem next_three (hlow : 2047 < v) (hhigh : v ≤ 65535)
    (hvalid : v < 0xD800 ∨ 0xDFFF < v) :
    next (UInt8.ofNat (v / 4096 % 16 + 224))
        (UInt8.ofNat (v / 64 % 64 + 128) :: UInt8.ofNat (v % 64 + 128) :: bytes) =
      (some (Char.ofNat v), bytes) := by
  rw [next, lead?_three _ (by omega)]
  dsimp only
  rw [tail_continuation (by omega), tail_plain (by omega), tail,
    show (v / 4096 % 16 * 64 + v / 64 % 64) * 64 + v % 64 = v by omega]
  -- The ranges of the first block and of the surrogates are those of no character.
  · split
    · show 160 ≤ _
      omega
    · show 128 ≤ _
      omega
  · split
    · show _ ≤ 159
      omega
    · show _ ≤ 191
      omega

/-- `next` reads a character of four bytes. -/
private theorem next_four (hlow : 65535 < v) (hhigh : v < 0x110000) :
    next (UInt8.ofNat (v / 262144 % 8 + 240))
        (UInt8.ofNat (v / 4096 % 64 + 128) :: UInt8.ofNat (v / 64 % 64 + 128) ::
          UInt8.ofNat (v % 64 + 128) :: bytes) =
      (some (Char.ofNat v), bytes) := by
  rw [next, lead?_four _ (by omega)]
  dsimp only
  rw [tail_continuation (by omega), tail_plain (by omega), tail_plain (by omega), tail,
    show ((v / 262144 % 8 * 64 + v / 4096 % 64) * 64 + v / 64 % 64) * 64 + v % 64 = v by omega]
  · split
    · show 144 ≤ _
      omega
    · show 128 ≤ _
      omega
  · split
    · show _ ≤ 143
      omega
    · show _ ≤ 191
      omega

end

/-- `next` reads a character that was written, and leaves what comes after it. -/
theorem next_utf8EncodeChar (c : Char) (bytes : List UInt8) :
    ∃ b rest, String.utf8EncodeChar c = b :: rest ∧ next b (rest ++ bytes) = (some c, bytes) := by
  have hvalid : c.val.toNat < 0xD800 ∨ (0xDFFF < c.val.toNat ∧ c.val.toNat < 0x110000) := c.valid
  have hc : some c = some (Char.ofNat c.val.toNat) := congrArg some (Char.ofNat_toNat c).symm
  rw [hc]
  unfold String.utf8EncodeChar
  dsimp only
  -- As many bytes as the number of the character needs.
  split
  · exact ⟨_, _, rfl, next_one ‹_›⟩
  · split
    · exact ⟨_, _, rfl, next_two (by omega) ‹_›⟩
    · split
      · exact ⟨_, _, rfl, next_three (by omega) ‹_› (by omega)⟩
      · exact ⟨_, _, rfl, next_four (by omega) (by omega)⟩

/-- `pieces` of what was written has no unreadable piece. -/
theorem pieces_encode (cs : List Char) : pieces (encode cs) = cs.map some := by
  rw [encode_eq_flatMap]
  induction cs with
  | nil => rw [List.flatMap_nil, pieces, List.map_nil]
  | cons c cs ih =>
    obtain ⟨b, rest, hbytes, hnext⟩ := next_utf8EncodeChar c (cs.flatMap String.utf8EncodeChar)
    rw [List.flatMap_cons, hbytes, List.cons_append, pieces, hnext, ih, List.map_cons]

/-- `decode?` reads what `encode` wrote. -/
theorem decode?_encode (cs : List Char) : decode? (encode cs) = some cs := by
  rw [decode?, pieces_encode]
  induction cs with
  | nil => rfl
  | cons c cs ih => simp [ih]

theorem decodeLossy_encode (cs : List Char) : decodeLossy (encode cs) = cs := by
  rw [decodeLossy, pieces_encode, List.map_map]
  exact List.map_id cs

end PodDesk.Utf8
