/-!
# Sorted maps

A map is the list of its entries with keys in increasing order, so two maps with the same entries
are equal. Labels, quantities and the stored Pods of a cluster are kept this way. The lemmas about
`get?` say what each operation does.
-/

namespace PodDesk

/-- A decidable strict total order on keys. -/
class KeyOrder (κ : Type) extends LT κ where
  decidableLt (a b : κ) : Decidable (a < b)
  lt_irrefl (a : κ) : ¬ a < a
  lt_trans {a b c : κ} : a < b → b < c → a < c
  eq_of_not_lt {a b : κ} : ¬ a < b → ¬ b < a → a = b

instance KeyOrder.instDecidableLt {κ : Type} [KeyOrder κ] (a b : κ) : Decidable (a < b) :=
  KeyOrder.decidableLt a b

instance : KeyOrder String where
  decidableLt a b := inferInstanceAs (Decidable (a < b))
  lt_irrefl := String.lt_irrefl
  lt_trans := String.lt_trans
  eq_of_not_lt h₁ h₂ := String.le_antisymm (String.not_lt.1 h₂) (String.not_lt.1 h₁)

/-- A map, as its entries by increasing key. -/
structure SortedMap (κ ν : Type) [KeyOrder κ] where
  entries : List (κ × ν)
  sorted : entries.Pairwise fun a b => a.1 < b.1
  deriving DecidableEq

namespace SortedMap

variable {κ ν : Type} [KeyOrder κ]

/-- `empty` is the map without entries. -/
def empty : SortedMap κ ν :=
  ⟨[], .nil⟩

instance : Inhabited (SortedMap κ ν) := ⟨empty⟩

instance [Repr κ] [Repr ν] : Repr (SortedMap κ ν) where
  reprPrec m p := reprPrec m.entries p

/-- `insertEntry key value` puts an entry in its place; it replaces the one with the same key. -/
def insertEntry (key : κ) (value : ν) : List (κ × ν) → List (κ × ν)
  | [] => [(key, value)]
  | entry :: rest =>
    if key < entry.1 then (key, value) :: entry :: rest
    else if entry.1 < key then entry :: insertEntry key value rest
    else (key, value) :: rest

/-- `findEntry key` finds the value of the key among entries. -/
def findEntry (key : κ) : List (κ × ν) → Option ν
  | [] => none
  | entry :: rest =>
    if key < entry.1 then none
    else if entry.1 < key then findEntry key rest
    else some entry.2

/-- `eraseEntry key` takes out the entry of the key. -/
def eraseEntry (key : κ) : List (κ × ν) → List (κ × ν)
  | [] => []
  | entry :: rest =>
    if key < entry.1 then entry :: rest
    else if entry.1 < key then entry :: eraseEntry key rest
    else rest

theorem mem_insertEntry {key : κ} {value : ν} {entries : List (κ × ν)} {e : κ × ν}
    (h : e ∈ insertEntry key value entries) : e = (key, value) ∨ e ∈ entries := by
  induction entries with
  | nil => simpa [insertEntry] using h
  | cons entry rest ih =>
    simp only [insertEntry] at h
    split at h
    · simpa using h
    · split at h
      · rcases List.mem_cons.1 h with h | h
        · exact .inr (h ▸ List.mem_cons_self)
        · exact (ih h).imp_right (List.mem_cons_of_mem _)
      · exact (List.mem_cons.1 h).imp_right (List.mem_cons_of_mem _)

theorem mem_of_mem_eraseEntry {key : κ} {entries : List (κ × ν)} {e : κ × ν}
    (h : e ∈ eraseEntry key entries) : e ∈ entries := by
  induction entries with
  | nil => exact h
  | cons entry rest ih =>
    simp only [eraseEntry] at h
    split at h
    · exact h
    · split at h
      · rcases List.mem_cons.1 h with h | h
        · exact h ▸ List.mem_cons_self
        · exact List.mem_cons_of_mem _ (ih h)
      · exact List.mem_cons_of_mem _ h

theorem insertEntry_sorted {key : κ} {value : ν} {entries : List (κ × ν)}
    (h : entries.Pairwise fun a b => a.1 < b.1) :
    (insertEntry key value entries).Pairwise fun a b => a.1 < b.1 := by
  induction entries with
  | nil => simp [insertEntry]
  | cons entry rest ih =>
    rw [List.pairwise_cons] at h
    simp only [insertEntry]
    split
    · next hlt =>
      refine List.pairwise_cons.2 ⟨fun e he => ?_, List.pairwise_cons.2 h⟩
      rcases List.mem_cons.1 he with rfl | he
      · exact hlt
      · exact KeyOrder.lt_trans hlt (h.1 e he)
    · next hlt =>
      split
      · next hgt =>
        refine List.pairwise_cons.2 ⟨fun e he => ?_, ih h.2⟩
        rcases mem_insertEntry he with rfl | he
        · exact hgt
        · exact h.1 e he
      · next hgt =>
        refine List.pairwise_cons.2 ⟨fun e he => ?_, h.2⟩
        simpa [KeyOrder.eq_of_not_lt hlt hgt] using h.1 e he

theorem eraseEntry_sorted {key : κ} {entries : List (κ × ν)}
    (h : entries.Pairwise fun a b => a.1 < b.1) :
    (eraseEntry key entries).Pairwise fun a b => a.1 < b.1 := by
  induction entries with
  | nil => exact h
  | cons entry rest ih =>
    have h' := List.pairwise_cons.1 h
    simp only [eraseEntry]
    split
    · exact h
    · split
      · exact List.pairwise_cons.2 ⟨fun e he => h'.1 e (mem_of_mem_eraseEntry he), ih h'.2⟩
      · exact h'.2

/-- `m.insert key value` is the map with one more entry; it replaces the one with the same key. -/
def insert (m : SortedMap κ ν) (key : κ) (value : ν) : SortedMap κ ν :=
  ⟨insertEntry key value m.entries, insertEntry_sorted m.sorted⟩

/-- `m.erase key` is the map without the entry of the key. -/
def erase (m : SortedMap κ ν) (key : κ) : SortedMap κ ν :=
  ⟨eraseEntry key m.entries, eraseEntry_sorted m.sorted⟩

/-- `m.get? key` is the value of the key. -/
def get? (m : SortedMap κ ν) (key : κ) : Option ν :=
  findEntry key m.entries

/-- `ofList entries` is the map of the entries; of those with the same key the last counts. -/
def ofList (entries : List (κ × ν)) : SortedMap κ ν :=
  entries.foldl (fun m e => m.insert e.1 e.2) empty

/-- `m.keys` has the keys in increasing order. -/
def keys (m : SortedMap κ ν) : List κ :=
  m.entries.map (·.1)

/-- `m.isEmpty` says whether the map has no entry. -/
def isEmpty (m : SortedMap κ ν) : Bool :=
  m.entries.isEmpty

/-- `m.nonEmpty` is the map, present only when it has an entry. -/
def nonEmpty (m : SortedMap κ ν) : Option (SortedMap κ ν) :=
  if m.isEmpty then none else some m

/-- Keys that are smaller than all others have no entry. -/
theorem findEntry_of_lt {key : κ} {entries : List (κ × ν)} (h : ∀ e ∈ entries, key < e.1) :
    findEntry key entries = none := by
  cases entries with
  | nil => rfl
  | cons entry rest => simp [findEntry, h entry List.mem_cons_self]

theorem findEntry_insertEntry_self (key : κ) (value : ν) (entries : List (κ × ν)) :
    findEntry key (insertEntry key value entries) = some value := by
  induction entries with
  | nil => simp [insertEntry, findEntry, KeyOrder.lt_irrefl]
  | cons entry rest ih =>
    simp only [insertEntry]
    split
    · simp [findEntry, KeyOrder.lt_irrefl]
    · split <;> simp_all [findEntry, KeyOrder.lt_irrefl]

theorem findEntry_insertEntry_of_ne {key other : κ} (hne : other ≠ key) (value : ν)
    {entries : List (κ × ν)} (h : entries.Pairwise fun a b => a.1 < b.1) :
    findEntry other (insertEntry key value entries) = findEntry other entries := by
  induction entries with
  | nil =>
    simp only [insertEntry, findEntry]
    split
    · rfl
    · next hlt =>
      split
      · rfl
      · next hgt => exact absurd (KeyOrder.eq_of_not_lt hlt hgt) hne
  | cons entry rest ih =>
    rw [List.pairwise_cons] at h
    simp only [insertEntry]
    split
    · next hlt =>
      simp only [findEntry]
      by_cases h₁ : other < key
      · simp [h₁, KeyOrder.lt_trans h₁ hlt]
      · by_cases h₂ : key < other
        · simp [h₁, h₂]
        · exact absurd (KeyOrder.eq_of_not_lt h₁ h₂) hne
    · next hlt =>
      split
      · simp [findEntry, ih h.2]
      · next hgt =>
        have heq := KeyOrder.eq_of_not_lt hlt hgt
        subst heq
        by_cases h₁ : other < entry.1
        · simp [findEntry, h₁]
        · by_cases h₂ : entry.1 < other
          · simp [findEntry, h₁, h₂]
          · exact absurd (KeyOrder.eq_of_not_lt h₁ h₂) hne

theorem findEntry_eraseEntry_self {key : κ} {entries : List (κ × ν)}
    (h : entries.Pairwise fun a b => a.1 < b.1) :
    findEntry key (eraseEntry key entries) = none := by
  induction entries with
  | nil => rfl
  | cons entry rest ih =>
    rw [List.pairwise_cons] at h
    simp only [eraseEntry]
    split
    · next hlt => simp [findEntry, hlt]
    · next hlt =>
      split
      · next hgt => simp [findEntry, hlt, hgt, ih h.2]
      · next hgt =>
        have heq := KeyOrder.eq_of_not_lt hlt hgt
        exact findEntry_of_lt fun e he => heq ▸ h.1 e he

theorem findEntry_eraseEntry_of_ne {key other : κ} (hne : other ≠ key) {entries : List (κ × ν)}
    (h : entries.Pairwise fun a b => a.1 < b.1) :
    findEntry other (eraseEntry key entries) = findEntry other entries := by
  induction entries with
  | nil => rfl
  | cons entry rest ih =>
    rw [List.pairwise_cons] at h
    simp only [eraseEntry]
    split
    · rfl
    · next hlt =>
      split
      · simp [findEntry, ih h.2]
      · next hgt =>
        have heq := KeyOrder.eq_of_not_lt hlt hgt
        subst heq
        by_cases h₁ : other < entry.1
        · simp [findEntry, h₁, findEntry_of_lt fun e he => KeyOrder.lt_trans h₁ (h.1 e he)]
        · by_cases h₂ : entry.1 < other
          · simp [findEntry, h₁, h₂]
          · exact absurd (KeyOrder.eq_of_not_lt h₁ h₂) hne

@[simp] theorem get?_empty (key : κ) : (empty : SortedMap κ ν).get? key = none := rfl

@[simp] theorem get?_insert_self (m : SortedMap κ ν) (key : κ) (value : ν) :
    (m.insert key value).get? key = some value :=
  findEntry_insertEntry_self key value m.entries

theorem get?_insert_of_ne (m : SortedMap κ ν) {key other : κ} (value : ν) (h : other ≠ key) :
    (m.insert key value).get? other = m.get? other :=
  findEntry_insertEntry_of_ne h value m.sorted

@[simp] theorem get?_erase_self (m : SortedMap κ ν) (key : κ) : (m.erase key).get? key = none :=
  findEntry_eraseEntry_self m.sorted

theorem get?_erase_of_ne (m : SortedMap κ ν) {key other : κ} (h : other ≠ key) :
    (m.erase key).get? other = m.get? other :=
  findEntry_eraseEntry_of_ne h m.sorted

end SortedMap

/-- A map from texts to texts. -/
abbrev TextMap := SortedMap String String

end PodDesk
