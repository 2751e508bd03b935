import PodDesk.Proofs.Replacement.Callers
import PodDesk.Proofs.Request.Acceptance

/-!
# The name of the trial

Before a Pod is replaced, a Pod with a longer name is created on trial. The limit for the names of
Pods is made for that: a name is accepted exactly when the longer name is a label, too. So the
trials that replacements make are for names that the cluster can take, and never for the name of a
Pod that is being replaced.

## Main statements

- `labelViolation?_name_iff`: the check of a name asks for what the trial needs
- `PodRequest.violation?_name_iff`, `PodRequest.exists_accepted_iff`: the requests that are accepted
- `World.trial_names_are_labels`: the names of the trials of a run
-/

namespace PodDesk

/-- `IsHostLabel s` says that `s` is a label that the domain name system has room for. -/
structure IsHostLabel (s : String) : Prop where
  word : s.toList ∈ Label.words
  size : s.utf8ByteSize ≤ 63

/-! ## Names with the suffix -/

/-- `Label.words` has every label with a suffix of label characters, if the suffix ends well. -/
theorem Label.append_mem_words {cs suffix : List Char} (hword : cs ∈ words)
    (hchars : ∀ c ∈ suffix, isLabelChar c = true)
    (hlast : ∃ c ∈ suffix.getLast?, isLabelEdge c = true) : cs ++ suffix ∈ words := by
  obtain ⟨hcs, ⟨first, hfirst, hedge⟩, -⟩ := mem_words_iff.1 hword
  obtain ⟨last, hlast, hedge'⟩ := hlast
  refine mem_words_iff.2 ⟨List.forall_mem_append.2 ⟨hcs, hchars⟩, ⟨first, ?_, hedge⟩,
    ⟨last, ?_, hedge'⟩⟩
  · exact List.mem_head?_append_of_mem_head? hfirst
  · rw [List.getLast?_append, Option.mem_def.1 hlast]
    rfl

/-- `labelViolation?` accepts a name of a Pod exactly when both the name and that of its trial are
labels. -/
theorem labelViolation?_name_iff {s : String} :
    labelViolation? s maxPodNameLength = none ↔
      IsHostLabel s ∧ IsHostLabel (s ++ "-validate") := by
  have hcheck : labelViolation? s maxPodNameLength = none ↔
      s.toList ∈ Label.words ∧ s.utf8ByteSize ≤ 54 := by
    have hreports :=
      (reports_label .podName "base.name" s 54).eq_none_iff.trans Requirement.forall_ofLabel
    rwa [Option.map_eq_none_iff] at hreports
  -- The suffix takes the nine bytes that the limit for names is shorter.
  have hsize : (s ++ "-validate").utf8ByteSize = s.utf8ByteSize + 9 := by
    rw [String.utf8ByteSize_append]
    rfl
  rw [hcheck]
  constructor
  · rintro ⟨hword, hle⟩
    refine ⟨⟨hword, by omega⟩, ⟨?_, by omega⟩⟩
    rw [String.toList_append]
    exact Label.append_mem_words hword (List.all_eq_true.1 (by decide)) ⟨'e', by decide, by decide⟩
  · rintro ⟨hname, htrial⟩
    have := htrial.size
    exact ⟨hname.word, by omega⟩

theorem append_validate_ne (s : String) : s ++ "-validate" ≠ s := by
  intro heq
  have hsize := congrArg String.utf8ByteSize heq
  rw [String.utf8ByteSize_append] at hsize
  have hsuffix : "-validate".utf8ByteSize = 9 := rfl
  omega

/-! ## Names that are accepted -/

/-- `Violation.field` is the one of the name only for a violation of the name. -/
theorem Violation.field_eq_name_iff {v : Violation} :
    v.field = "base.name" ↔ ∃ cause, v = .podName cause := by
  -- The field of a container begins with the name of its list, so with another letter.
  have hlist : ∀ isInit rest, containerList isInit ++ rest ≠ "base.name" := by
    intro isInit rest heq
    have hhead := congrArg (·.toList.head?) heq
    cases isInit <;> simp [containerList] at hhead
  cases v with
  | podName cause => exact iff_of_true rfl ⟨cause, rfl⟩
  | containerName isInit => exact iff_of_false (hlist _ _) nofun
  | duplicateContainer isInit name => exact iff_of_false (hlist _ _) nofun
  | containerImage isInit name =>
    refine iff_of_false ?_ nofun
    simp only [field, String.append_assoc]
    exact hlist _ _
  | undeclaredVolume isInit name volume =>
    refine iff_of_false ?_ nofun
    simp only [field, String.append_assoc]
    exact hlist _ _
  | podNamespace cause => exact iff_of_false (show "base.namespace" ≠ _ by decide) nofun
  | _ => exact iff_of_false (by decide) nofun

namespace PodRequest

variable {r : PodRequest}

/-- Among the requirements of a request, those for which the name is blamed are the ones of
`Requirement.ofLabel` for it. -/
theorem mem_ofLabel_of_violation {q : Requirement} (hq : q ∈ r.requirements)
    {cause : LabelViolation} (h : q.violation = .podName cause) :
    q ∈ Requirement.ofLabel .podName "base.name" r.base.name 54 := by
  simp only [requirements, List.mem_append, or_assoc] at hq
  -- All requirements but those of the name blame something else.
  rcases hq with hq | hq | hq | hq | hq
  · exact hq
  · simp only [Requirement.ofLabel, List.mem_cons, List.not_mem_nil, or_false] at hq
    rcases hq with rfl | rfl | rfl <;> cases h
  · obtain rfl := List.mem_singleton.1 hq
    cases h
  · obtain ⟨⟨⟨isInit, c⟩, n⟩, -, hq⟩ := List.mem_flatMap.1 hq
    simp only [Requirement.ofContainer, List.mem_append, List.mem_cons, List.not_mem_nil, or_false,
      List.mem_map] at hq
    rcases hq with (rfl | rfl | rfl) | ⟨m, -, rfl⟩ <;> cases h
  · obtain rfl := List.mem_singleton.1 hq
    cases h

/-- `violation?` checks the name first, and reports nothing else for it. -/
theorem violation?_name_iff :
    (∃ v, r.violation? = some v ∧ v.field = "base.name") ↔
      ¬ (IsHostLabel r.base.name ∧ IsHostLabel (r.base.name ++ "-validate")) := by
  rw [← labelViolation?_name_iff]
  constructor
  · rintro ⟨v, hv, hfield⟩ hname
    obtain ⟨cause, rfl⟩ := Violation.field_eq_name_iff.1 hfield
    -- What is reported is a requirement that is not met, and it would be one of the name.
    have hreports := reports_requirements r
    rw [hv] at hreports
    obtain ⟨passed, failed, rest, hsplit, -, hunmet, hcause⟩ := hreports.exists_first
    have hmem : failed ∈ r.requirements := by simp [hsplit]
    have hlabel := (reports_label .podName "base.name" r.base.name 54).eq_none_iff.1
      (Option.map_eq_none_iff.2 hname)
    exact hunmet (hlabel failed (mem_ofLabel_of_violation hmem hcause.symm))
  · intro hname
    obtain ⟨cause, hcause⟩ := Option.ne_none_iff_exists'.1 hname
    refine ⟨.podName cause, ?_, rfl⟩
    rw [violation?, hcause]
    rfl

/-- `violation?` accepts some request of that name exactly when the name and that of its trial are
labels. -/
theorem exists_accepted_iff {s : String} :
    (∃ r : PodRequest, r.base.name = s ∧ r.violation? = none) ↔
      IsHostLabel s ∧ IsHostLabel (s ++ "-validate") := by
  rw [← labelViolation?_name_iff]
  constructor
  · rintro ⟨r, rfl, haccepted⟩
    simp only [violation?, Option.or_eq_none_iff, Option.map_eq_none_iff] at haccepted
    exact haccepted.1
  · intro hname
    refine ⟨{ base := { name := s, ns := "default" }
              containers := [{ name := "main", image := "busybox" }] }, rfl, ?_⟩
    simp only [violation?, hname]
    rfl

end PodRequest

namespace World

variable {w : World} {wanted : World → Nat → Bool} {n : Nat} {x : Issue}

/-! ## The trials of a run -/

/-- In `World.run` every call is made by a task, for the request that the task is about. -/
theorem suits_of_mem_issues (h : x ∈ issues wanted n w) :
    ∃ i p found, x.caller = .task i ∧ w.plans[i]? = some p ∧
      x.call.Suits p.request p.grace found := by
  have hmakes := makes_run wanted n w
  rcases hmakes.callers x h with ⟨-, hown⟩ | ⟨i, p, found, hcaller, hplan, hsuits⟩
  · exact absurd hown List.not_mem_nil
  · rw [hmakes.plans, List.append_nil] at hplan
    exact ⟨i, p, found, hcaller, hplan, hsuits⟩

/-- A name is accepted exactly when it and the name with the suffix are labels. So a trial in a run
is for a Pod whose name is a label, if the request is accepted that the task is about, and its name
is not that of the Pod that the task replaces: the one that it deletes, if it deletes any. -/
theorem trial_names_are_labels (w : World) (wanted : World → Nat → Bool) (n : Nat) :
    (∀ s, (∃ r : PodRequest, r.base.name = s ∧ r.violation? = none) ↔
      IsHostLabel s ∧ IsHostLabel (s ++ "-validate")) ∧
    (∀ r : PodRequest, (∃ v, r.violation? = some v ∧ v.field = "base.name") ↔
      ¬ (IsHostLabel r.base.name ∧ IsHostLabel (r.base.name ++ "-validate"))) ∧
    (run wanted n w).log = w.log ++ (issues wanted n w).map Issue.entry ∧
    ∀ x ∈ issues wanted n w, ∃ i p, x.caller = .task i ∧ w.plans[i]? = some p ∧
      (∀ key params, x.call = .delete key params →
        key = ⟨p.request.base.ns, p.request.base.name⟩) ∧
      ∀ ns trial, x.call = .dryRun ns trial → ns = p.request.base.ns ∧
        ∃ name, trial.metadata.name = some name ∧ name ≠ p.request.base.name ∧
          (p.request.violation? = none → IsHostLabel name) := by
  refine ⟨fun s => PodRequest.exists_accepted_iff, fun r => PodRequest.violation?_name_iff,
    (makes_run wanted n w).log, ?_⟩
  intro x hx
  obtain ⟨i, p, found, hcaller, hplan, hsuits⟩ := suits_of_mem_issues hx
  refine ⟨i, p, hcaller, hplan, ?_, ?_⟩
  · intro key params hcall
    rw [hcall] at hsuits
    cases hsuits
    rfl
  · intro ns trial hcall
    rw [hcall] at hsuits
    cases hsuits
    refine ⟨rfl, p.request.base.name ++ "-validate", rfl, append_validate_ne _, ?_⟩
    intro haccepted
    exact (PodRequest.exists_accepted_iff.1 ⟨p.request, rfl, haccepted⟩).2

/-- A request with a name of 54 bytes, the longest that is accepted. -/
def longNamed : PodRequest where
  base := { name := "checkout-service-of-the-shop-in-region-eu-west-1-green", ns := "prod" }
  containers := [{ name := "main", image := "nginx:1.27" }]

/-- A world where a replacement of the Pod of `longNamed` begins. -/
def longNamedWorld : World :=
  let key : PodKey := ⟨longNamed.base.ns, longNamed.base.name⟩
  let w : World := { cluster := { pods := SortedMap.empty.insert key longNamed.toPod } }
  (w.spawn ⟨longNamed, 30⟩ 5000).1

/-- The trial in `longNamedWorld` is for a label of 63 bytes. -/
theorem longNamed_trial_is_label :
    ∃ trial, ⟨.task 0, 0, .dryRun "prod" trial⟩ ∈ issues (fun _ _ => true) 4 longNamedWorld ∧
      ∃ name, trial.metadata.name = some name ∧ name.utf8ByteSize = 63 ∧ IsHostLabel name := by
  have hissues : issues (fun _ _ => true) 4 longNamedWorld =
      [⟨.task 0, 0, .get ⟨longNamed.base.ns, longNamed.base.name⟩⟩,
        ⟨.task 0, 0, .dryRun "prod" (Plan.trialPod ⟨longNamed, 30⟩)⟩] := by rfl
  have hmem : ⟨.task 0, 0, .dryRun "prod" (Plan.trialPod ⟨longNamed, 30⟩)⟩ ∈
      issues (fun _ _ => true) 4 longNamedWorld := by
    rw [hissues]
    exact List.mem_cons_of_mem _ List.mem_cons_self
  obtain ⟨-, -, -, hcalls⟩ := trial_names_are_labels longNamedWorld (fun _ _ => true) 4
  obtain ⟨i, p, hcaller, hplan, -, htrial⟩ := hcalls _ hmem
  obtain ⟨-, name, hname, -, hlabel⟩ := htrial _ _ rfl
  obtain rfl : 0 = i := Caller.task.inj hcaller
  obtain rfl : ⟨longNamed, 30⟩ = p := Option.some.inj hplan
  refine ⟨_, hmem, name, hname, ?_, hlabel (by decide)⟩
  obtain rfl : _ = name := Option.some.inj hname
  rfl

end World

end PodDesk
