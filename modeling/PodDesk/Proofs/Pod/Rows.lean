import Mathlib.Algebra.Ring.Int.Defs
import Mathlib.Data.List.Infix
import PodDesk.Pod.Listing

/-!
# What a list shows of Pods

A list is filtered after the Pods have become rows. Here the filter is a condition on the Pods
themselves: the keyword occurs somewhere in the name, and the node is the one that is asked for. The
figures of a row are those of the Pod.

## Main statements

- `PodQuery.occursIn_iff`: the search finds the runs of characters within a text
- `PodQuery.filter_rows`: the filtered rows are the rows of the Pods that meet the condition
- `PodRow.ofPod_shows`: what the row of a Pod says about it
- `PodRow.encode_eq_sent`: the JSON that a row is sent as
-/

namespace PodDesk

/-! ## Pods that a query chooses -/

namespace Pod

/-- `p.listedName` is the name that the Pod is listed by. -/
def listedName (p : Pod) : String :=
  p.metadata.name.getD ""

/-- `p.listedNode` is the node that the Pod is listed with. -/
def listedNode (p : Pod) : String :=
  (p.spec.bind (·.nodeName)).getD ""

/-- `p.listedIP` is the address that the Pod is listed with. -/
def listedIP (p : Pod) : String :=
  (p.status.bind (·.podIP)).getD ""

/-- `p.createdAt` is the time at which the Pod was created, in seconds. -/
def createdAt (p : Pod) : Int :=
  (p.metadata.created.map (·.seconds)).getD 0

/-- `p.Meets keyword nodeName` says that the name of the Pod has the keyword in it, and that the Pod
is on the node if one is asked for. -/
def Meets (keyword nodeName : String) (p : Pod) : Prop :=
  keyword.toList <:+: p.listedName.toList ∧ (nodeName ≠ "" → p.listedNode = nodeName)

instance (keyword nodeName : String) (p : Pod) : Decidable (p.Meets keyword nodeName) :=
  inferInstanceAs (Decidable (_ ∧ _))

end Pod

namespace PodQuery

/-- `occursIn` looks at every place where the text could begin. -/
theorem occursIn_iff {needle cs : List Char} : occursIn needle cs = true ↔ needle <:+: cs := by
  induction cs with
  | nil => rw [occursIn, List.isEmpty_iff, List.infix_nil]
  | cons c cs ih =>
    rw [occursIn, Bool.or_eq_true, List.isPrefixOf_iff_prefix, ih, List.infix_cons_iff]

/-- `accepts` lets a row pass exactly when its Pod meets the condition. -/
theorem accepts_ofPod_iff {keyword nodeName : String} {p : Pod} :
    accepts ⟨keyword, nodeName⟩ (.ofPod p) = true ↔ p.Meets keyword nodeName := by
  have hnode : (nodeName.isEmpty || (PodRow.ofPod p).node == nodeName) = true ↔
      (nodeName ≠ "" → p.listedNode = nodeName) := by
    rw [Bool.or_eq_true, String.isEmpty_iff, beq_iff_eq, or_iff_not_imp_left]
    rfl
  have hname : occursIn keyword.toList (PodRow.ofPod p).name.toList = true ↔
      keyword.toList <:+: p.listedName.toList := occursIn_iff
  rw [accepts, Bool.and_eq_true, hnode, hname, and_comm]
  rfl

/-- `accepts` keeps the rows of the Pods that meet the condition, in the same order. -/
theorem filter_rows (keyword nodeName : String) (pods : List Pod) :
    (pods.map PodRow.ofPod).filter (accepts ⟨keyword, nodeName⟩) =
      (pods.filter (·.Meets keyword nodeName)).map PodRow.ofPod := by
  rw [List.filter_map]
  congr 1
  apply List.filter_congr
  intro p _
  rw [Bool.eq_iff_iff, decide_eq_true_eq]
  exact accepts_ofPod_iff

end PodQuery

/-! ## Rows -/

/-- `Int32.toInt` of a sum of 32 bit numbers is the sum of the numbers, wrapped at the end. -/
theorem toInt_sum (counts : List Int32) :
    counts.sum.toInt = (counts.map Int32.toInt).sum.bmod 4294967296 := by
  induction counts with
  | nil => rfl
  | cons n counts ih =>
    rw [List.sum_cons, Int32.toInt_add, ih, List.map_cons, List.sum_cons]
    exact Int.add_bmod_bmod

/-- `Int32.toInt` of a sum is exact when it has room, whatever the sums on the way were. -/
theorem toInt_sum_of_fits {counts : List Int32} (hlow : -word31 ≤ (counts.map Int32.toInt).sum)
    (hhigh : (counts.map Int32.toInt).sum < word31) :
    counts.sum.toInt = (counts.map Int32.toInt).sum := by
  have hword : (word31 : Int) = 2147483648 := rfl
  rw [toInt_sum]
  exact Int.bmod_eq_of_le (by omega) (by omega)

namespace PodRow

/-- `restartSum p` is how often the containers of the Pod were started again, altogether. -/
def restartSum (p : Pod) : Int :=
  ((statuses p).map (·.restartCount.toInt)).sum

/-- `row.Shows p` is what a row says about a Pod: how many of its containers there are and how many
of them are ready, how often they were started again, whether the Pod is running, where it is and
since when. -/
structure Shows (row : PodRow) (p : Pod) : Prop where
  name : row.name = p.listedName
  node : row.node = p.listedNode
  ip : row.ip = p.listedIP
  ready : ∃ ready total : Nat, row.ready = toString ready ++ "/" ++ toString total ∧
    total = (statuses p).length ∧ ready = (statuses p).countP (·.ready) ∧ ready ≤ total
  /-- A row has room for sums of 32 bits. -/
  restarts : -word31 ≤ restartSum p → restartSum p < word31 → row.restarts.toInt = restartSum p
  age : -word63 ≤ p.createdAt → p.createdAt < word63 → row.age.toInt = p.createdAt
  status : row.status = "Running" ∨ row.status = "Error"
  running : row.status = "Running" ↔ p.status.bind (·.phase) = some "Running"

/-- `ofPod` makes a row of a Pod that shows it. -/
theorem ofPod_shows (p : Pod) : (ofPod p).Shows p where
  name := rfl
  node := rfl
  ip := rfl
  ready := by
    refine ⟨(statuses p).countP (·.ready), (statuses p).length, ?_, rfl, rfl, List.countP_le_length⟩
    rw [List.countP_eq_length_filter]
    rfl
  restarts := by
    have hmap : ((statuses p).map (·.restartCount)).map Int32.toInt =
        (statuses p).map (·.restartCount.toInt) := List.map_map
    intro hlow hhigh
    -- The figures on the way wrap, so the sum is compared as a whole.
    rw [restartSum, ← hmap] at hlow hhigh ⊢
    exact toInt_sum_of_fits hlow hhigh
  age := by
    intro hlow hhigh
    exact Int64.toInt_ofInt_of_le hlow hhigh
  status := by
    unfold ofPod
    dsimp only
    split
    · exact .inl rfl
    · exact .inr rfl
  running := by
    unfold ofPod
    dsimp only
    split
    · rename_i hrunning
      simp [hrunning]
    · rename_i hother
      simp [hother]

/-- `row.sent` is the JSON that a row is sent as. -/
def sent (row : PodRow) : Json :=
  .obj [("name", .str row.name), ("ready", .str row.ready), ("status", .str row.status),
    ("restarts", .num (.integer row.restarts.toInt)), ("age", .num (.integer row.age.toInt)),
    ("IP", .str row.ip), ("node", .str row.node)]

/-- `PodRow.codec` writes rows as they are sent. -/
theorem encode_eq_sent : codec.encode = sent := rfl

end PodRow

end PodDesk
