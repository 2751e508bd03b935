import PodDesk.Cluster.Call
import PodDesk.Proofs.MapValues
import PodDesk.Proofs.Text.CommaList

/-!
# Selectors name their labels

A watch selects Pods by their labels, and nothing in a selector is escaped. As long as no key has a
comma or an equals sign in it and no value has a comma, the selector still tells the labels: its
parts between the commas, each split at its first equals sign, are the labels by increasing keys.
An empty selector selects every Pod of a namespace, and only a Pod without labels has it.

## Main statements

- `selectedLabels_labelSelector`: the labels are read again from their selector
- `labelSelector_eq_empty_iff`: the labels whose selector selects every Pod
- `labelSelector_tells_labels`: both, and that other labels have another selector
-/

namespace PodDesk

open Text

/-- `selectedLabels selector` has the labels that a selector names: what stands before the first
equals sign of each part, and what stands after it, if there is one. -/
def selectedLabels (selector : String) : List (String × Option String) :=
  (splitAtEach ',' selector.toList).map fun part =>
    let (key, value) := splitAtFirst '=' part
    (String.ofList key, value.map String.ofList)

/-- `IsSelectable m` says that the labels can be told from their selector: no key has a separator in
it, and no value has the one between labels. -/
def IsSelectable (m : TextMap) : Prop :=
  ∀ e ∈ m.entries, ',' ∉ e.1.toList ∧ '=' ∉ e.1.toList ∧ ',' ∉ e.2.toList

variable {m m' : TextMap}

/-- `labelSelector` writes the characters of the labels with the separators between them. -/
theorem toList_labelSelector (m : TextMap) : (labelSelector (some m)).toList =
    [','].intercalate (m.entries.map fun e => e.1.toList ++ '=' :: e.2.toList) := by
  have hlabel : (String.toList ∘ fun e : String × String => e.1 ++ "=" ++ e.2) =
      fun e => e.1.toList ++ '=' :: e.2.toList := by
    funext e
    simp
  rw [labelSelector, String.toList_intercalate, List.map_map, hlabel]
  rfl

/-- `labelSelector` is empty when there are no labels, and then only. -/
theorem labelSelector_eq_empty_iff {labels : Option TextMap} :
    labelSelector labels = "" ↔ labels = none ∨ labels = some .empty := by
  constructor
  · intro h
    cases labels with
    | none => exact .inl rfl
    | some m =>
      refine .inr (congrArg some (SortedMap.ext_entries ?_))
      have hchars : (labelSelector (some m)).toList = [] := by rw [h]; rfl
      rw [toList_labelSelector] at hchars
      -- The equals sign of the first label would be in the selector.
      cases hentries : m.entries with
      | nil => rfl
      | cons e rest =>
        rw [hentries] at hchars
        cases rest with
        | nil => simp at hchars
        | cons second rest => simp [List.intercalate_cons_cons] at hchars
  · rintro (rfl | rfl) <;> rfl

/-- `selectedLabels` reads the labels again from their selector, by increasing keys. -/
theorem selectedLabels_labelSelector (hne : m ≠ .empty) (h : IsSelectable m) :
    selectedLabels (labelSelector (some m)) = m.entries.map fun e => (e.1, some e.2) := by
  have hparts : splitAtEach ',' (labelSelector (some m)).toList =
      m.entries.map fun e => e.1.toList ++ '=' :: e.2.toList := by
    rw [toList_labelSelector]
    -- No label has a comma in it, so the commas are those between labels.
    apply splitAtEach_intercalate
    · intro part hpart
      obtain ⟨e, he, rfl⟩ := List.mem_map.1 hpart
      obtain ⟨hkey, -, hvalue⟩ := h e he
      simp [hkey, hvalue]
    · intro hnil
      exact hne (SortedMap.ext_entries (List.map_eq_nil_iff.1 hnil))
  rw [selectedLabels, hparts, List.map_map]
  apply List.map_congr_left
  intro e he
  simp [splitAtFirst_append (h e he).2.1]

/-- `labelSelector` is injective on labels with `IsSelectable`. -/
theorem labelSelector_inj (h : IsSelectable m) (h' : IsSelectable m')
    (heq : labelSelector (some m) = labelSelector (some m')) : m = m' := by
  -- One map is empty exactly when the other is.
  have hempty : m = .empty ↔ m' = .empty := by
    have hiff : ∀ m : TextMap, labelSelector (some m) = "" ↔ m = .empty := by
      simp [labelSelector_eq_empty_iff]
    rw [← hiff m, heq, hiff m']
  by_cases hne : m = .empty
  · rw [hne, hempty.1 hne]
  · have hread := selectedLabels_labelSelector hne h
    rw [heq, selectedLabels_labelSelector (fun hnil => hne (hempty.2 hnil)) h'] at hread
    have hentry : ∀ a b : String × String, (a.1, some a.2) = (b.1, some b.2) → a = b := by
      simp [Prod.ext_iff]
    exact SortedMap.ext_entries ((List.map_inj_right hentry).1 hread).symm

/-- `labelSelector` tells the labels that it was made of, unless a separator is in one of them, and
it is empty only when there are none. -/
theorem labelSelector_tells_labels :
    (∀ m : TextMap, m ≠ .empty → IsSelectable m →
      selectedLabels (labelSelector (some m)) = m.entries.map fun e => (e.1, some e.2)) ∧
    (∀ m m' : TextMap, IsSelectable m → IsSelectable m' → m ≠ m' →
      labelSelector (some m) ≠ labelSelector (some m')) ∧
    ∀ labels : Option TextMap, labelSelector labels = "" ↔ labels = none ∨ labels = some .empty :=
  ⟨fun _ => selectedLabels_labelSelector,
    fun _ _ h h' hne heq => hne (labelSelector_inj h h' heq),
    fun _ => labelSelector_eq_empty_iff⟩

/-- `labelSelector_tells_labels` for values that are empty or have equals signs in them. -/
theorem labelSelector_tells_equals_signs :
    let m : TextMap := .ofList [("tier", "a=b="), ("app", "web"), ("canary", "")]
    labelSelector (some m) = "app=web,canary=,tier=a=b=" ∧
      selectedLabels (labelSelector (some m)) =
        [("app", some "web"), ("canary", some ""), ("tier", some "a=b=")] ∧
      labelSelector (some m) ≠ labelSelector (some (m.insert "canary" "=")) := by
  intro m
  have hselectable : IsSelectable m := by
    unfold IsSelectable
    decide
  have hother : IsSelectable (m.insert "canary" "=") := by
    unfold IsSelectable
    decide
  obtain ⟨hread, hdistinct, -⟩ := labelSelector_tells_labels
  refine ⟨by decide, ?_, hdistinct m _ hselectable hother (by decide)⟩
  rw [hread m (by decide) hselectable]
  decide

end PodDesk
