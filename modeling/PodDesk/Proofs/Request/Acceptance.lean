import PodDesk.Proofs.Request.Label
import PodDesk.Proofs.Request.Normal

/-!
# Acceptable requests

What a request must be like so that it is accepted, said without the check: as one condition on the
request, and as the list of its requirements in the order in which they count. The check accepts
exactly the acceptable requests, and of any other one it reports the first requirement that is not
met.

## Main statements

- `PodRequest.IsAcceptable`: the condition
- `PodRequest.requirements`: the requirements in order
- `reports_requirements`: the check goes through the requirements in order
- `PodRequest.violation?_eq_none_iff`: the check accepts the acceptable requests
- `PodRequest.violation_is_first_unmet`: what is accepted, and what is reported otherwise
-/

namespace PodDesk

/-- `Text.HasContent s` says that there is something but white space in `s`. -/
def Text.HasContent (s : String) : Prop :=
  ∃ c ∈ s.toList, isBlank c = false

theorem Text.isBlankText_iff {s : String} : isBlankText s = true ↔ ¬ HasContent s := by
  simp [isBlankText, HasContent]

/-! ## What is acceptable -/

namespace PodRequest

/-- The containers of `r`: init containers first. -/
def allContainers (r : PodRequest) : List Container :=
  r.initContainers ++ r.containers

/-- `r.DeclaresMounts` says that every mount is of a declared volume. -/
def DeclaresMounts (r : PodRequest) : Prop :=
  ∀ c ∈ r.allContainers, ∀ m ∈ c.mounts, m.volume ∈ r.volumeNames

/-- `r.IsAcceptable` is the condition for `r` to be accepted. The name leaves room for the suffix of
the trial. -/
structure IsAcceptable (r : PodRequest) : Prop where
  name : r.base.name.toList ∈ Label.words ∧ r.base.name.utf8ByteSize ≤ 54
  ns : r.base.ns.toList ∈ Label.words ∧ r.base.ns.utf8ByteSize ≤ 63
  containers : r.containers ≠ []
  names : ∀ c ∈ r.allContainers, Text.HasContent c.name
  distinct : (r.allContainers.map (·.name)).Nodup
  images : ∀ c ∈ r.allContainers, Text.HasContent c.image
  mounts : r.DeclaresMounts
  nodeName : r.scheduling.kind = .name → Text.HasContent r.scheduling.nodeName

end PodRequest

/-- A condition on a request, and what is reported where it is not met: the `violation`, and the
`field` and the `message` that the client gets to see of it. -/
structure Requirement where
  Holds : Prop
  violation : Violation
  /-- The field of the request that is named. -/
  field : String
  message : String

namespace Requirement

/-- What is required of the text `s` of a field that should be a label of at most `limit` bytes. -/
def ofLabel (blame : LabelViolation → Violation) (field s : String) (limit : Nat) :
    List Requirement :=
  [⟨s ≠ "", blame .empty, field, "must not be empty"⟩,
    ⟨s.utf8ByteSize ≤ limit, blame (.tooLong limit), field,
      "must be at most " ++ toString limit ++ " characters"⟩,
    ⟨s.toList ∈ Label.words, blame .badCharacters, field,
      "must consist of lowercase alphanumerics or '-', and start and end with an alphanumeric"⟩]

/-- What is required of a container `c` after others with the names `before`. A container that has a
name is called by it. -/
def ofContainer (volumes before : List String) (isInit : Bool) (c : Container) :
    List Requirement :=
  let kind := if isInit then "initContainers" else "containers"
  [⟨Text.HasContent c.name, .containerName isInit, kind ++ ".name", "container name is required"⟩,
    ⟨c.name ∉ before, .duplicateContainer isInit c.name, kind ++ ".name",
      "duplicate container name '" ++ c.name ++ "'"⟩,
    ⟨Text.HasContent c.image, .containerImage isInit c.name, kind ++ "[" ++ c.name ++ "].image",
      "container image is required"⟩] ++
  c.mounts.map fun m => ⟨m.volume ∈ volumes, .undeclaredVolume isInit c.name m.volume,
    kind ++ "[" ++ c.name ++ "].volumeMounts", "volume '" ++ m.volume ++ "' is not declared"⟩

/-- What is required of the containers `checked`, each after those before it. -/
def ofContainers (volumes : List String) (checked : List (Bool × Container)) : List Requirement :=
  checked.zipIdx.flatMap fun ((isInit, c), n) =>
    ofContainer volumes ((checked.take n).map (·.2.name)) isInit c

end Requirement

/-- What is required of a request, in the order in which it counts: the name, the namespace, that
there is a container, the containers one by one, and the pinned node. -/
def PodRequest.requirements (r : PodRequest) : List Requirement :=
  Requirement.ofLabel .podName "base.name" r.base.name 54 ++
    Requirement.ofLabel .podNamespace "base.namespace" r.base.ns 63 ++
    [⟨r.containers ≠ [], .noContainers, "containers", "at least one container is required"⟩] ++
    Requirement.ofContainers r.volumeNames r.checkedContainers ++
    [⟨r.scheduling.kind = .name → Text.HasContent r.scheduling.nodeName, .nodeName,
      "nodeScheduling.nodeName", "nodeName scheduling requires a node name"⟩]

/-! ## The first requirement that is not met -/

/-- `Reports qs v?` says that `v?` is the violation of the first requirement among `qs` that is not
met, if there is one. -/
inductive Reports : List Requirement → Option Violation → Prop where
  | nil : Reports [] none
  | met {q : Requirement} {qs : List Requirement} {v? : Option Violation} (h : q.Holds)
      (hrest : Reports qs v?) : Reports (q :: qs) v?
  | unmet {q : Requirement} {qs : List Requirement} (h : ¬ q.Holds) :
      Reports (q :: qs) (some q.violation)

namespace Reports

variable {q : Requirement} {qs qs' : List Requirement} {v? v?' : Option Violation} {v : Violation}

theorem append (h : Reports qs v?) (h' : Reports qs' v?') : Reports (qs ++ qs') (v?.or v?') := by
  induction h with
  | nil => exact h'
  | met hq _ ih => exact .met hq ih
  | unmet hq => exact .unmet hq

/-- `Reports` of a check that reports a requirement, or goes on. -/
theorem ite {p : Prop} [Decidable p] (hp : p ↔ ¬ q.Holds) (h : Reports qs v?) :
    Reports (q :: qs) (if p then some q.violation else v?) := by
  split
  · rename_i hunmet
    exact .unmet (hp.1 hunmet)
  · rename_i hmet
    exact .met (not_not.1 fun hq => hmet (hp.2 hq)) h

/-- `Reports` gives no violation exactly when all requirements are met. -/
theorem eq_none_iff (h : Reports qs v?) : v? = none ↔ ∀ q ∈ qs, q.Holds := by
  induction h with
  | nil => simp
  | met hq _ ih =>
    rw [ih, List.forall_mem_cons]
    exact ⟨fun hqs => ⟨hq, hqs⟩, And.right⟩
  | unmet hq => exact iff_of_false nofun fun hqs => hq (hqs _ List.mem_cons_self)

/-- `Reports` gives the violation of a requirement that is not met, and those before it are. -/
theorem exists_first (h : Reports qs (some v)) :
    ∃ passed failed rest, qs = passed ++ failed :: rest ∧ (∀ q ∈ passed, q.Holds) ∧
      ¬ failed.Holds ∧ v = failed.violation := by
  generalize hv : some v = v? at h
  induction h with
  | nil => simp at hv
  | @met q qs v? hq _ ih =>
    obtain ⟨passed, failed, rest, rfl, hpassed, hfailed⟩ := ih hv
    exact ⟨q :: passed, failed, rest, rfl, List.forall_mem_cons.2 ⟨hq, hpassed⟩, hfailed⟩
  | @unmet q qs hq =>
    exact ⟨[], q, qs, rfl, by simp, hq, Option.some.inj hv⟩

end Reports

/-! ## What the check reports -/

/-- `labelViolation?` reports `Requirement.ofLabel`. -/
theorem reports_label (blame : LabelViolation → Violation) (field s : String) (limit : Nat) :
    Reports (Requirement.ofLabel blame field s limit) ((labelViolation? s limit).map blame) := by
  -- The check is nested conditionals, one for each requirement in order.
  have hempty : s.toList.isEmpty = true ↔ ¬ s ≠ "" := by simp
  have hlong : limit < s.utf8ByteSize ↔ ¬ s.utf8ByteSize ≤ limit := by omega
  have hcharacters : ¬ (s.toList.all isLabelChar && s.toList.head?.any isLabelEdge &&
      s.toList.getLast?.any isLabelEdge) = true ↔ ¬ s.toList ∈ Label.words :=
    not_congr Label.check_iff
  have hcheck : (labelViolation? s limit).map blame =
      if s.toList.isEmpty then some (blame .empty)
      else if limit < s.utf8ByteSize then some (blame (.tooLong limit))
      else if ¬ (s.toList.all isLabelChar && s.toList.head?.any isLabelEdge &&
        s.toList.getLast?.any isLabelEdge) = true then some (blame .badCharacters)
      else none := by
    rw [labelViolation?, ite_not, apply_ite (Option.map blame), apply_ite (Option.map blame),
      apply_ite (Option.map blame)]
    rfl
  rw [hcheck]
  exact .ite hempty (.ite hlong (.ite hcharacters .nil))

/-- Of the mounts, the first one that is found is of a volume that is not declared. -/
theorem reports_mounts (volumes : List String) (isInit : Bool) (name : String)
    (field : String) (message : Mount → String) (mounts : List Mount) :
    Reports (mounts.map fun m =>
        ⟨m.volume ∈ volumes, .undeclaredVolume isInit name m.volume, field, message m⟩)
      ((mounts.find? fun m => ! volumes.contains m.volume).map fun m =>
        .undeclaredVolume isInit name m.volume) := by
  induction mounts with
  | nil => exact .nil
  | cons m mounts ih =>
    by_cases h : m.volume ∈ volumes
    · rw [List.find?_cons_of_neg (by simpa using h)]
      exact .met h ih
    · rw [List.find?_cons_of_pos (by simpa using h)]
      exact .unmet h

/-- `containerViolation?` reports `Requirement.ofContainer`. -/
theorem reports_container {volumes seen before : List String}
    (hseen : ∀ name, name ∈ seen ↔ name ∈ before) (isInit : Bool) (c : Container) :
    Reports (Requirement.ofContainer volumes before isInit c)
      (PodRequest.containerViolation? volumes seen isInit c) := by
  have hname : Text.isBlankText c.name = true ↔ ¬ Text.HasContent c.name := Text.isBlankText_iff
  have himage : Text.isBlankText c.image = true ↔ ¬ Text.HasContent c.image := Text.isBlankText_iff
  have hduplicate : seen.contains c.name = true ↔ ¬ c.name ∉ before := by
    rw [List.contains_iff_mem, hseen, not_not]
  exact .ite hname (.ite hduplicate (.ite himage (reports_mounts volumes isInit c.name _ _ c.mounts)))

/-- `containersViolation?` of the containers `rest` after others reports their requirements. What
was `seen` are the names of those before. -/
theorem reports_containers_after {volumes seen : List String}
    {before rest : List (Bool × Container)}
    (hseen : ∀ name, name ∈ seen ↔ name ∈ before.map (·.2.name)) :
    Reports
      ((rest.zipIdx before.length).flatMap fun ((isInit, c), n) =>
        Requirement.ofContainer volumes (((before ++ rest).take n).map (·.2.name)) isInit c)
      (PodRequest.containersViolation? volumes seen rest) := by
  induction rest generalizing before seen with
  | nil => exact .nil
  | cons entry rest ih =>
    obtain ⟨isInit, c⟩ := entry
    -- The check puts a name in front of those it has seen, and here it comes after those before it:
    -- only membership is the same.
    have hbefore : (before ++ (isInit, c) :: rest).take before.length = before :=
      List.take_left
    have hnext : ∀ name, name ∈ c.name :: seen ↔
        name ∈ (before ++ [(isInit, c)]).map (·.2.name) := by
      intro name
      rw [List.mem_cons, hseen, List.map_append, List.mem_append, or_comm]
      simp
    have hrest := ih hnext
    rw [List.append_assoc, List.singleton_append, List.length_append, List.length_singleton]
      at hrest
    rw [List.zipIdx_cons, List.flatMap_cons]
    refine .append (reports_container ?_ isInit c) hrest
    rwa [hbefore]

/-- `containersViolation?` reports `Requirement.ofContainers`. -/
theorem reports_containers (volumes : List String) (checked : List (Bool × Container)) :
    Reports (Requirement.ofContainers volumes checked)
      (PodRequest.containersViolation? volumes [] checked) := by
  have hnone : ∀ name : String, name ∈ ([] : List String) ↔
      name ∈ ([] : List (Bool × Container)).map (·.2.name) := by simp
  exact reports_containers_after hnone

/-- `violation?` reports `PodRequest.requirements`. -/
theorem reports_requirements (r : PodRequest) : Reports r.requirements r.violation? := by
  have hname := reports_label .podName "base.name" r.base.name 54
  have hns := reports_label .podNamespace "base.namespace" r.base.ns 63
  have hpresent : Reports
      [⟨r.containers ≠ [], .noContainers, "containers", "at least one container is required"⟩]
      (if r.containers.isEmpty then some .noContainers else none) :=
    .ite (by simp) .nil
  have hcontainers := reports_containers r.volumeNames r.checkedContainers
  have hnode : Reports
      [⟨r.scheduling.kind = .name → Text.HasContent r.scheduling.nodeName, .nodeName,
        "nodeScheduling.nodeName", "nodeName scheduling requires a node name"⟩]
      (if r.scheduling.kind = .name ∧ Text.isBlankText r.scheduling.nodeName then some .nodeName
        else none) :=
    .ite (by rw [Text.isBlankText_iff, Classical.not_imp]) .nil
  -- The requirements are nested to the left and the checks to the right.
  have hall := (((hname.append hns).append hpresent).append hcontainers).append hnode
  simp only [Option.or_assoc] at hall
  exact hall

/-! ## Acceptance -/

namespace PodRequest

variable {r : PodRequest}

/-- A property of every container in `checkedContainers`. -/
theorem forall_mem_checkedContainers {p : Container → Prop} :
    (∀ entry ∈ r.checkedContainers, p entry.2) ↔ ∀ c ∈ r.allContainers, p c := by
  simp only [checkedContainers, allContainers, List.forall_mem_append, List.forall_mem_map]

theorem map_name_checkedContainers :
    r.checkedContainers.map (·.2.name) = r.allContainers.map (·.name) := by
  simp [checkedContainers, allContainers, Function.comp_def]

end PodRequest

/-- `List.Nodup` by position: no item is among those before it. -/
theorem nodup_iff_forall_take {α : Type} {items : List α} :
    items.Nodup ↔ ∀ n a, items[n]? = some a → a ∉ items.take n := by
  have hmem : ∀ n a, a ∈ items.take n ↔ ∃ m < n, items[m]? = some a := by
    intro n a
    simp only [List.mem_iff_getElem?, List.getElem?_take, Option.ite_none_right_eq_some]
  simp only [hmem, List.nodup_iff_getElem?_ne_getElem?, not_exists, not_and]
  constructor
  · intro h n a hn m hlt hm
    obtain ⟨hlength, -⟩ := List.getElem?_eq_some_iff.1 hn
    exact h m n hlt hlength (hm.trans hn.symm)
  · intro h m n hlt hlength heq
    have hn : items[n]? = some items[n] := List.getElem?_eq_getElem hlength
    exact h n _ hn m hlt (heq.trans hn)

namespace Requirement

theorem forall_ofLabel {blame : LabelViolation → Violation} {field s : String} {limit : Nat} :
    (∀ q ∈ ofLabel blame field s limit, q.Holds) ↔
      s.toList ∈ Label.words ∧ s.utf8ByteSize ≤ limit := by
  simp only [ofLabel, List.forall_mem_cons, List.not_mem_nil, false_implies, implies_true,
    and_true]
  constructor
  · rintro ⟨-, hlimit, hword⟩
    exact ⟨hword, hlimit⟩
  · rintro ⟨hword, hlimit⟩
    refine ⟨?_, hlimit, hword⟩
    rintro rfl
    exact Label.ne_nil_of_mem_words hword rfl

theorem forall_ofContainer {volumes before : List String} {isInit : Bool} {c : Container} :
    (∀ q ∈ ofContainer volumes before isInit c, q.Holds) ↔
      Text.HasContent c.name ∧ c.name ∉ before ∧ Text.HasContent c.image ∧
        ∀ m ∈ c.mounts, m.volume ∈ volumes := by
  simp only [ofContainer, List.forall_mem_append, List.forall_mem_cons, List.forall_mem_map,
    List.not_mem_nil, false_implies, implies_true, and_true, and_assoc]

/-- What `Requirement.ofContainers` asks for: something of each container, and that their names are
different. -/
theorem forall_ofContainers {volumes : List String} {checked : List (Bool × Container)} :
    (∀ q ∈ ofContainers volumes checked, q.Holds) ↔
      (∀ entry ∈ checked, Text.HasContent entry.2.name ∧ Text.HasContent entry.2.image ∧
        ∀ m ∈ entry.2.mounts, m.volume ∈ volumes) ∧ (checked.map (·.2.name)).Nodup := by
  -- The containers are looked at by position, as the names before each of them count.
  have hposition : (∀ q ∈ ofContainers volumes checked, q.Holds) ↔
      ∀ n entry, checked[n]? = some entry → Text.HasContent entry.2.name ∧
        entry.2.name ∉ (checked.map (·.2.name)).take n ∧ Text.HasContent entry.2.image ∧
        ∀ m ∈ entry.2.mounts, m.volume ∈ volumes := by
    rw [ofContainers, List.forall_mem_flatMap]
    simp only [Prod.forall, List.mem_zipIdx_iff_getElem?, forall_ofContainer, List.map_take]
    exact ⟨fun h n isInit c => h isInit c n, fun h isInit c n => h n isInit c⟩
  rw [hposition, nodup_iff_forall_take]
  -- Position by position, the names before a container are those of the containers before it.
  constructor
  · intro h
    refine ⟨?_, ?_⟩
    · intro entry hentry
      obtain ⟨n, hn⟩ := List.mem_iff_getElem?.1 hentry
      obtain ⟨hname, -, himage, hmounts⟩ := h n entry hn
      exact ⟨hname, himage, hmounts⟩
    · intro n name hname
      rw [List.getElem?_map, Option.map_eq_some_iff] at hname
      obtain ⟨entry, hn, rfl⟩ := hname
      exact (h n entry hn).2.1
  · rintro ⟨hentries, hnames⟩ n entry hn
    obtain ⟨hname, himage, hmounts⟩ := hentries entry (List.mem_of_getElem? hn)
    refine ⟨hname, hnames n _ ?_, himage, hmounts⟩
    rw [List.getElem?_map, hn]
    rfl

end Requirement

/-! ## What the client gets to see -/

namespace Requirement

/-- `q.IsTold` says that the violation of `q` is shown with the texts that `q` gives. -/
def IsTold (q : Requirement) : Prop :=
  q.violation.field = q.field ∧ q.violation.message = q.message

theorem isTold_ofLabel (blame : LabelViolation → Violation) {field : String}
    (hfield : ∀ cause, (blame cause).field = field)
    (hmessage : ∀ cause, (blame cause).message = cause.message) (s : String) (limit : Nat) :
    ∀ q ∈ ofLabel blame field s limit, q.IsTold := by
  simp only [ofLabel, List.forall_mem_cons, IsTold, hfield, hmessage, true_and]
  exact ⟨rfl, rfl, rfl, fun _ hq => absurd hq List.not_mem_nil⟩

theorem isTold_ofContainer (volumes before : List String) (isInit : Bool) (c : Container) :
    ∀ q ∈ ofContainer volumes before isInit c, q.IsTold := by
  simp only [ofContainer, List.forall_mem_append, List.forall_mem_cons, List.forall_mem_map]
  exact ⟨⟨⟨rfl, rfl⟩, ⟨rfl, rfl⟩, ⟨rfl, rfl⟩, fun _ hq => absurd hq List.not_mem_nil⟩,
    fun _ _ => ⟨rfl, rfl⟩⟩

end Requirement

namespace PodRequest

variable {r : PodRequest}

/-- `Violation.field` and `Violation.message` give the texts of every requirement. -/
theorem isTold_of_mem_requirements : ∀ q ∈ r.requirements, q.IsTold := by
  simp only [requirements, List.forall_mem_append, List.forall_mem_singleton]
  refine ⟨⟨⟨⟨?_, ?_⟩, rfl, rfl⟩, ?_⟩, rfl, rfl⟩
  · exact Requirement.isTold_ofLabel .podName (fun _ => rfl) (fun _ => rfl) _ _
  · exact Requirement.isTold_ofLabel .podNamespace (fun _ => rfl) (fun _ => rfl) _ _
  · exact List.forall_mem_flatMap.2 fun _ _ => Requirement.isTold_ofContainer _ _ _ _

/-- `PodRequest.requirements` are all met exactly when the request is acceptable. -/
theorem forall_requirements_iff : (∀ q ∈ r.requirements, q.Holds) ↔ r.IsAcceptable := by
  have hcontainers := @Requirement.forall_ofContainers r.volumeNames r.checkedContainers
  rw [map_name_checkedContainers, forall_mem_checkedContainers (p := fun c =>
    Text.HasContent c.name ∧ Text.HasContent c.image ∧
      ∀ m ∈ c.mounts, m.volume ∈ r.volumeNames)] at hcontainers
  simp only [requirements, List.forall_mem_append, List.forall_mem_singleton,
    Requirement.forall_ofLabel, hcontainers]
  constructor
  · rintro ⟨⟨⟨⟨hname, hns⟩, hpresent⟩, hall, hdistinct⟩, hnode⟩
    exact ⟨hname, hns, hpresent, fun c hc => (hall c hc).1, hdistinct, fun c hc => (hall c hc).2.1,
      fun c hc => (hall c hc).2.2, hnode⟩
  · rintro ⟨hname, hns, hpresent, hnames, hdistinct, himages, hmounts, hnode⟩
    exact ⟨⟨⟨⟨hname, hns⟩, hpresent⟩, fun c hc => ⟨hnames c hc, himages c hc, hmounts c hc⟩,
      hdistinct⟩, hnode⟩

/-- `violation?` accepts exactly the acceptable requests. -/
theorem violation?_eq_none_iff : r.violation? = none ↔ r.IsAcceptable :=
  (reports_requirements r).eq_none_iff.trans forall_requirements_iff

/-- A request is accepted by `violation?` exactly when it is acceptable, and of any other one the
first requirement that is not met is reported, with the field and the message that the requirement
gives. -/
theorem violation_is_first_unmet (r : PodRequest) :
    (r.violation? = none ↔ r.IsAcceptable) ∧
      ∀ v, r.violation? = some v →
        ∃ passed failed rest, r.requirements = passed ++ failed :: rest ∧
          (∀ q ∈ passed, q.Holds) ∧ ¬ failed.Holds ∧ v = failed.violation ∧
            v.field = failed.field ∧ v.message = failed.message := by
  refine ⟨violation?_eq_none_iff, ?_⟩
  intro v hv
  obtain ⟨passed, failed, rest, hsplit, hpassed, hunmet, rfl⟩ :=
    Reports.exists_first (hv ▸ reports_requirements r)
  have hmem : failed ∈ r.requirements := by
    rw [hsplit]
    exact List.mem_append_right _ List.mem_cons_self
  exact ⟨passed, failed, rest, hsplit, hpassed, hunmet, rfl, isTold_of_mem_requirements _ hmem⟩

/-- A main container has the name of an init container and a blank image, and there is a pinned node
without a name. -/
def crowdedRequest : PodRequest where
  base := { name := "web-1", ns := "prod" }
  scheduling := { kind := .name }
  initContainers := [{ name := "main", image := "busybox" }]
  containers := [{ name := "main", image := " " }]

/-- Of the three things that are wrong with `crowdedRequest`, the name comes first, and the client
is told which one it is. -/
theorem crowdedRequest_reports_name :
    ∃ v, crowdedRequest.violation? = some v ∧ ¬ crowdedRequest.IsAcceptable ∧
      ∃ passed failed rest, crowdedRequest.requirements = passed ++ failed :: rest ∧
        (∀ q ∈ passed, q.Holds) ∧ ¬ failed.Holds ∧
        failed.violation = .duplicateContainer false "main" ∧
        v.field = "containers.name" ∧ v.message = "duplicate container name 'main'" := by
  have hviolation : crowdedRequest.violation? = some (.duplicateContainer false "main") := by decide
  obtain ⟨hiff, hfirst⟩ := violation_is_first_unmet crowdedRequest
  obtain ⟨passed, failed, rest, hsplit, hpassed, hfailed, hv, -⟩ := hfirst _ hviolation
  refine ⟨_, hviolation, ?_, passed, failed, rest, hsplit, hpassed, hfailed, hv.symm, rfl, rfl⟩
  intro hacceptable
  rw [← hiff, hviolation] at hacceptable
  simp at hacceptable

end PodRequest

end PodDesk
