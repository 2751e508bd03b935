import PodDesk.Proofs.MapValues

/-!
# Maps from lists of entries

The map of a list keeps the list exactly when its keys increase; in particular the entries of a map
make the same map again.

## Main statements

- `SortedMap.ofList_entries`: the entries of a map make the map
- `SortedMap.entries_ofList_eq_self_iff`: the lists that are kept
-/

namespace PodDesk.SortedMap

variable {κ ν : Type} [KeyOrder κ]

/-- `insertEntry` puts an entry with the greatest key at the end. -/
private theorem insertEntry_of_last {key : κ} {value : ν} {entries : List (κ × ν)}
    (h : ∀ e ∈ entries, e.1 < key) : insertEntry key value entries = entries ++ [(key, value)] := by
  induction entries with
  | nil => rfl
  | cons entry rest ih =>
    have hlt := h entry List.mem_cons_self
    have hnot : ¬ key < entry.1 := fun hgt => KeyOrder.lt_irrefl _ (KeyOrder.lt_trans hlt hgt)
    simp only [insertEntry, hnot, hlt, if_false, if_true, List.cons_append,
      ih fun e he => h e (List.mem_cons_of_mem _ he)]

/-- `SortedMap.insert` appends entries by increasing keys to those of the map. -/
private theorem entries_foldl_insert {entries : List (κ × ν)} (m : SortedMap κ ν)
    (h : (m.entries ++ entries).Pairwise fun a b => a.1 < b.1) :
    (entries.foldl (fun m e => m.insert e.1 e.2) m).entries = m.entries ++ entries := by
  induction entries generalizing m with
  | nil => simp
  | cons entry rest ih =>
    have hlast : ∀ e ∈ m.entries, e.1 < entry.1 := by
      intro e he
      exact (List.pairwise_append.1 h).2.2 e he entry List.mem_cons_self
    have hinsert : (m.insert entry.1 entry.2).entries = m.entries ++ [entry] :=
      insertEntry_of_last hlast
    rw [List.foldl_cons, ih _ (by rw [hinsert]; simpa using h), hinsert]
    simp

/-- `ofList` keeps a list as the entries of its map exactly when its keys increase. -/
theorem entries_ofList_eq_self_iff {entries : List (κ × ν)} :
    (ofList entries).entries = entries ↔ entries.Pairwise fun a b => a.1 < b.1 := by
  constructor
  · intro h
    rw [← h]
    exact (ofList entries).sorted
  · intro h
    exact entries_foldl_insert empty h

/-- `ofList` makes a map again from its entries. -/
theorem ofList_entries (m : SortedMap κ ν) : ofList m.entries = m :=
  ext_entries (entries_ofList_eq_self_iff.2 m.sorted)

/-- `SortedMap.nonEmpty` keeps a map with an entry. -/
theorem nonEmpty_insert (m : SortedMap κ ν) (key : κ) (value : ν) :
    (m.insert key value).nonEmpty = some (m.insert key value) := by
  have hentries : (m.insert key value).entries ≠ [] := by
    intro hnil
    have hget := get?_insert_self m key value
    rw [get?, hnil] at hget
    cases hget
  simp only [nonEmpty, isEmpty, List.isEmpty_iff, hentries, if_false]

end PodDesk.SortedMap
