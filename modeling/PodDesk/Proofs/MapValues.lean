import PodDesk.SortedMap

/-!
# Sorted maps with other values

A function on values turns a map into another map with the same keys. It does not matter whether an
operation comes before or after: that is what lets a store of one kind of thing stand for a store
of another.

## Main statements

- `SortedMap.mapValues_insert`, `SortedMap.mapValues_erase`, `SortedMap.get?_mapValues`
- `SortedMap.insert_erase`: an insertion forgets that its key was erased before
- `SortedMap.mem_keys_iff`: the keys are those with a value
-/

namespace PodDesk.SortedMap

variable {κ α β : Type} [KeyOrder κ]

/-! ## Other values -/

/-- `m.mapValues f` is the map with `f` applied to its values. -/
def mapValues (f : α → β) (m : SortedMap κ α) : SortedMap κ β where
  entries := m.entries.map fun e => (e.1, f e.2)
  sorted := List.pairwise_map.2 m.sorted

theorem findEntry_map (f : α → β) (key : κ) (entries : List (κ × α)) :
    findEntry key (entries.map fun e => (e.1, f e.2)) = (findEntry key entries).map f := by
  induction entries with
  | nil => rfl
  | cons entry rest ih =>
    simp only [List.map_cons, findEntry, ih]
    split
    · rfl
    · split <;> rfl

theorem insertEntry_map (f : α → β) (key : κ) (value : α) (entries : List (κ × α)) :
    insertEntry key (f value) (entries.map fun e => (e.1, f e.2)) =
      (insertEntry key value entries).map fun e => (e.1, f e.2) := by
  induction entries with
  | nil => rfl
  | cons entry rest ih =>
    simp only [List.map_cons, insertEntry, ih]
    split
    · rfl
    · split <;> rfl

theorem eraseEntry_map (f : α → β) (key : κ) (entries : List (κ × α)) :
    eraseEntry key (entries.map fun e => (e.1, f e.2)) =
      (eraseEntry key entries).map fun e => (e.1, f e.2) := by
  induction entries with
  | nil => rfl
  | cons entry rest ih =>
    simp only [List.map_cons, eraseEntry, ih]
    split
    · rfl
    · split <;> rfl

/-- `SortedMap.entries` tells the map. -/
theorem ext_entries {m₁ m₂ : SortedMap κ α} (h : m₁.entries = m₂.entries) : m₁ = m₂ := by
  obtain ⟨entries₁, sorted₁⟩ := m₁
  obtain ⟨entries₂, sorted₂⟩ := m₂
  obtain rfl : entries₁ = entries₂ := h
  rfl

@[simp] theorem get?_mapValues (f : α → β) (m : SortedMap κ α) (key : κ) :
    (m.mapValues f).get? key = (m.get? key).map f :=
  findEntry_map f key m.entries

theorem mapValues_insert (f : α → β) (m : SortedMap κ α) (key : κ) (value : α) :
    (m.insert key value).mapValues f = (m.mapValues f).insert key (f value) :=
  ext_entries (insertEntry_map f key value m.entries).symm

theorem mapValues_erase (f : α → β) (m : SortedMap κ α) (key : κ) :
    (m.erase key).mapValues f = (m.mapValues f).erase key :=
  ext_entries (eraseEntry_map f key m.entries).symm

theorem keys_mapValues (f : α → β) (m : SortedMap κ α) : (m.mapValues f).keys = m.keys := by
  show (m.entries.map _).map _ = m.entries.map _
  rw [List.map_map]
  rfl

/-! ## Keys -/

theorem insertEntry_eraseEntry {key : κ} {value : α} {entries : List (κ × α)}
    (h : entries.Pairwise fun a b => a.1 < b.1) :
    insertEntry key value (eraseEntry key entries) = insertEntry key value entries := by
  induction entries with
  | nil => rfl
  | cons entry rest ih =>
    rw [List.pairwise_cons] at h
    simp only [eraseEntry]
    split
    · rfl
    · rename_i hlt
      split
      · rename_i hgt
        simp only [insertEntry, hlt, hgt, if_false, if_true, ih h.2]
      · rename_i hgt
        -- The erased entry was the one with the key, so the key comes before all that are left.
        have hkey := KeyOrder.eq_of_not_lt hlt hgt
        have hnew : insertEntry key value (entry :: rest) = (key, value) :: rest := by
          simp only [insertEntry, hlt, hgt, if_false]
        rw [hnew]
        cases rest with
        | nil => rfl
        | cons second rest =>
          have hsecond : key < second.1 := hkey ▸ h.1 second List.mem_cons_self
          simp only [insertEntry, hsecond, if_true]

/-- `SortedMap.insert` forgets that its key was erased. -/
theorem insert_erase (m : SortedMap κ α) (key : κ) (value : α) :
    (m.erase key).insert key value = m.insert key value :=
  ext_entries (insertEntry_eraseEntry m.sorted)

/-- `SortedMap.get?` finds an entry of the map under its key. -/
theorem get?_of_mem {m : SortedMap κ α} {e : κ × α} (h : e ∈ m.entries) :
    m.get? e.1 = some e.2 := by
  obtain ⟨entries, sorted⟩ := m
  show findEntry e.1 entries = some e.2
  induction entries with
  | nil => simp at h
  | cons entry rest ih =>
    rw [List.pairwise_cons] at sorted
    rcases List.mem_cons.1 h with rfl | hmem
    · simp [findEntry, KeyOrder.lt_irrefl]
    -- The first key is smaller, so the search goes on behind it.
    · have hlt := sorted.1 e hmem
      have hnot : ¬ e.1 < entry.1 := fun hgt => KeyOrder.lt_irrefl _ (KeyOrder.lt_trans hlt hgt)
      simp only [findEntry, hnot, hlt, if_false, if_true]
      exact ih sorted.2 hmem

/-- `SortedMap.get?` finds nothing but entries of the map. -/
theorem mem_of_get? {m : SortedMap κ α} {key : κ} {value : α} (h : m.get? key = some value) :
    (key, value) ∈ m.entries := by
  obtain ⟨entries, sorted⟩ := m
  have hfind : findEntry key entries = some value := h
  show (key, value) ∈ entries
  clear h sorted
  induction entries with
  | nil => simp [findEntry] at hfind
  | cons entry rest ih =>
    simp only [findEntry] at hfind
    split at hfind
    · simp at hfind
    -- The key may be behind this entry, or it is the key of this entry.
    · rename_i hlt
      split at hfind
      · exact List.mem_cons_of_mem _ (ih hfind)
      · rename_i hgt
        obtain rfl := Option.some.inj hfind
        obtain rfl := KeyOrder.eq_of_not_lt hlt hgt
        exact List.mem_cons_self

/-- `SortedMap.keys` has the keys with a value. -/
theorem mem_keys_iff {m : SortedMap κ α} {key : κ} : key ∈ m.keys ↔ (m.get? key).isSome := by
  unfold keys
  rw [List.mem_map]
  constructor
  · rintro ⟨e, he, rfl⟩
    simp [get?_of_mem he]
  · intro h
    obtain ⟨value, hvalue⟩ := Option.isSome_iff_exists.1 h
    exact ⟨_, mem_of_get? hvalue, rfl⟩

end PodDesk.SortedMap
