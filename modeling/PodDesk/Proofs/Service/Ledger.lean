import PodDesk.Proofs.MapValues
import PodDesk.Service.Session

/-!
# A plain map of requests

What the service looks like to its clients: a map from keys to the requests that describe the Pods.
Clients submit requests, look keys up, remove keys and list the names in a namespace.

## Main statements

- `Ledger.mem_names_iff`, `Ledger.names_sorted`: the list of a namespace has exactly its names, in
  increasing order
- `Ledger.get?_serve_of_ne`: a command leaves the other keys alone
-/

namespace PodDesk

/-- `PodKey` orders keys of one namespace by their names. -/
theorem PodKey.name_lt_of_lt {a b : PodKey} (hlt : a < b) (hns : a.ns = b.ns) :
    a.name < b.name := by
  rcases hlt with hlt | ⟨-, hlt⟩
  · exact absurd (hns ▸ hlt) (String.lt_irrefl _)
  · exact hlt

/-- The requests that describe the Pods, by their keys. -/
abbrev Ledger := SortedMap PodKey PodRequest

/-- What a client wants. -/
inductive Command where
  /-- To create a Pod, or to replace it. -/
  | submit (request : PodRequest)
  /-- To look a Pod up. -/
  | inspect (key : PodKey)
  /-- To delete a Pod. -/
  | remove (key : PodKey)
  /-- To list a namespace. -/
  | enumerate (ns : String)

/-- The key that a command may change. -/
def Command.target? : Command → Option PodKey
  | submit r => some ⟨r.base.ns, r.base.name⟩
  | remove key => some key
  | _ => none

/-- What a client is told. -/
inductive Answer where
  /-- There was no Pod under the key, and now there is one. -/
  | created (key : PodKey)
  /-- There was a Pod under the key, and another one took its place. -/
  | replaced (key : PodKey)
  | shown (request : PodRequest)
  | removed
  /-- There is nothing under the key. -/
  | missing (key : PodKey)
  | listed (names : List String)
  deriving DecidableEq

namespace Ledger

/-- The names in a namespace, in the order of `SortedMap.keys`. -/
def names (m : Ledger) (ns : String) : List String :=
  (m.keys.filter (·.ns = ns)).map (·.name)

/-- What a command changes, and the answer to it. A submitted Pod is shown as `PodRequest.ofPod`
describes it. -/
def serve (m : Ledger) : Command → Ledger × Answer
  | .submit r =>
    let key : PodKey := ⟨r.base.ns, r.base.name⟩
    (m.insert key (.ofPod r.toPod), if (m.get? key).isSome then .replaced key else .created key)
  | .inspect key =>
    (m, match m.get? key with
      | some r => .shown r
      | none => .missing key)
  | .remove key =>
    if (m.get? key).isSome then (m.erase key, .removed) else (m, .missing key)
  | .enumerate ns => (m, .listed (m.names ns))

/-- The ledger and the answer after each of the commands, by `serve`. -/
def serveAll : Ledger → List Command → List (Ledger × Answer)
  | _, [] => []
  | m, command :: commands => m.serve command :: serveAll (m.serve command).1 commands

variable {m : Ledger}

/-- `names` lists exactly the names under which `get?` finds something. -/
theorem mem_names_iff {ns name : String} : name ∈ m.names ns ↔ (m.get? ⟨ns, name⟩).isSome := by
  rw [← SortedMap.mem_keys_iff]
  unfold names
  simp only [List.mem_map, List.mem_filter, decide_eq_true_eq]
  constructor
  · rintro ⟨⟨ns', name'⟩, ⟨hmem, rfl⟩, rfl⟩
    exact hmem
  · intro hmem
    exact ⟨⟨ns, name⟩, ⟨hmem, rfl⟩, rfl⟩

/-- `names` is in increasing order. -/
theorem names_sorted (m : Ledger) (ns : String) : (m.names ns).Pairwise (· < ·) := by
  have hkeys : (m.keys.filter (·.ns = ns)).Pairwise (· < ·) :=
    (List.pairwise_map.2 m.sorted).filter _
  refine List.pairwise_map.2 (hkeys.imp_of_mem ?_)
  intro a b ha hb hlt
  have hns : ∀ key ∈ m.keys.filter (·.ns = ns), key.ns = ns := by
    intro key hkey
    exact of_decide_eq_true (List.mem_filter.1 hkey).2
  exact PodKey.name_lt_of_lt hlt ((hns a ha).trans (hns b hb).symm)

/-- `serve` leaves all keys alone but the `Command.target?`. -/
theorem get?_serve_of_ne {command : Command} {key : PodKey}
    (h : command.target? ≠ some key) : (m.serve command).1.get? key = m.get? key := by
  cases command with
  | submit r =>
    refine SortedMap.get?_insert_of_ne _ _ ?_
    rintro rfl
    exact h rfl
  | inspect key => rfl
  | remove other =>
    unfold serve
    dsimp only
    split
    · refine SortedMap.get?_erase_of_ne _ ?_
      rintro rfl
      exact h rfl
    · rfl
  | enumerate ns => rfl

end Ledger

end PodDesk
