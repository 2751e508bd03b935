import PodDesk.Proofs.Replacement.Interleaving

/-!
# Failures that leave no Pod

A failure is reported as leaving no Pod when a creation failed, whatever its cause. Against a
cluster that tells the truth about what it stores, that report is right unless the cause is that the
name was taken. A cluster that says so only of a name that is taken has a Pod then, one that was
deleted and is not removed yet or one that someone else created.

## Main statements

- `Stage.failed_creation`: only an answer to a creation ends in such a failure
- `Scene.act_absent`: what one action leaves behind that ends a run in such a failure
- `Scene.absent_unless_taken`: when the report is right
- `World.late_removal_reported_absent`: a replacement whose report is wrong
-/

namespace PodDesk

/-- `e.SaysTaken` says that the cluster refused a creation because the name is taken. -/
def ClusterError.SaysTaken (e : ClusterError) : Prop :=
  ∃ message, e = .alreadyExists message

/-- `i.IsTruthful c` is an incident under which cluster `c` tells the truth about what it stores,
and does in the end what it has accepted. A creation under a name that is taken fails because of
that. -/
def Incident.IsTruthful (i : Incident) (c : Cluster) : Call → Prop
  | .get _ => i.absent = false ∧ i.pod = none
  | .create ns pod => ∀ e, i.error = some e →
      (c.pods.get? ⟨ns, pod.metadata.name.getD ""⟩).isSome → e.SaysTaken
  | .delete _ _ => i.keep = false
  | _ => True

/-- `i.IsCandid c` is an incident under which cluster `c` says that a name is taken only when it is.
-/
def Incident.IsCandid (i : Incident) (c : Cluster) : Call → Prop
  | .create ns pod => ∀ e, i.error = some e → e.SaysTaken →
      (c.pods.get? ⟨ns, pod.metadata.name.getD ""⟩).isSome
  | _ => True

namespace Cluster

variable {c c' : Cluster} {i : Incident} {ns : String} {pod : Pod} {e : ClusterError}

/-- `Cluster.create` that fails stores nothing. With a truthful incident it says that the name is
taken when it is, and with a candid one only then. -/
theorem create_error (htruthful : i.IsTruthful c (.create ns pod))
    (h : c.create i ns pod = (c', .error e)) :
    c' = c ∧ ((c.pods.get? ⟨ns, pod.metadata.name.getD ""⟩).isSome → e.SaysTaken) ∧
      (i.IsCandid c (.create ns pod) → e.SaysTaken →
        (c.pods.get? ⟨ns, pod.metadata.name.getD ""⟩).isSome) := by
  unfold create at h
  -- The incident refuses the creation, or the store does.
  cases herror : i.error with
  | some e' =>
    simp only [herror, Prod.mk.injEq, Except.error.injEq] at h
    obtain ⟨rfl, rfl⟩ := h
    exact ⟨rfl, htruthful e' herror, fun hcandid => hcandid e' herror⟩
  | none =>
    simp only [herror] at h
    split at h
    · rename_i htaken
      simp only [Prod.mk.injEq, Except.error.injEq] at h
      obtain ⟨rfl, rfl⟩ := h
      exact ⟨rfl, fun _ => ⟨_, rfl⟩, fun _ _ => htaken⟩
    · simp at h

end Cluster

namespace Stage

variable {p : Plan} {s : Stage} {reply : Reply} {f : Failure}

/-- `Stage.call?` of a stage at which a Pod is created asks for the wanted one. -/
theorem call?_of_creationStep {step : FailedStep} (h : s.creationStep? = some step) :
    s.call? p = some (.create p.key.ns p.pod) := by
  cases s <;> first | rfl | simp [creationStep?] at h

/-- Only an answer to a creation ends in a failure with `podAbsent`. -/
theorem failed_creation (hopen : s.outcome? = none)
    (hfailed : s.next p reply = .finished (.error f)) (habsent : f.podAbsent = true) :
    s.creationStep? = some f.step ∧ f.key = p.key ∧ reply = .done (.error f.cause) := by
  -- The failures of the other stages are not reported that way.
  cases s with
  | finished o => simp [outcome?] at hopen
  | lookup =>
    rcases reply with (e | existing) | _ | _ | _ <;> simp [next] at hfailed
    · simp [← hfailed, Failure.podAbsent] at habsent
    · cases existing <;> simp at hfailed
  | create =>
    rcases reply with _ | (e | ⟨⟩) | _ | _ <;> simp [next] at hfailed
    subst hfailed
    exact ⟨rfl, rfl, rfl⟩
  | dryRun existing =>
    rcases reply with _ | (e | ⟨⟩) | _ | _ <;> simp [next] at hfailed
    simp [← hfailed, Failure.podAbsent] at habsent
  | watch existing =>
    rcases reply with _ | (e | ⟨⟩) | _ | _ <;> simp [next] at hfailed
  | delete watching =>
    rcases reply with _ | (e | ⟨⟩) | _ | _ <;> simp [next] at hfailed
    simp [← hfailed, Failure.podAbsent] at habsent
  -- A wait fails at nothing, whatever its watch delivers.
  | waiting watching =>
    rcases reply with _ | _ | item | _ <;> cases watching <;> simp [next] at hfailed
    unfold onItem at hfailed
    split at hfailed <;> try simp at hfailed
    split at hfailed <;> simp at hfailed
  | probing =>
    rcases reply with (e | existing) | _ | _ | _ <;> simp [next] at hfailed
    cases existing <;> simp at hfailed
  | recreate signal =>
    rcases reply with _ | (e | ⟨⟩) | _ | _ <;> simp [next] at hfailed
    subst hfailed
    exact ⟨rfl, rfl, rfl⟩

end Stage

namespace Scene

/-- `Scene.Answers P` is the rule that every call meets an incident with `P`. Deleted Pods may go at
any later time, and others may write whenever they like. -/
def Answers (P : Incident → Cluster → Call → Prop) (s : Scene) : Action → Prop
  | .run i (.answer incident _) =>
    match s.runs[i]?.bind fun r => r.stage.call? r.plan with
    | some call => P incident s.cluster call
    | none => True
  | _ => True

/-- A run that ends in a failure with `podAbsent` leaves no Pod unless it says that the name is
taken, and then a candid cluster has one. -/
theorem hear_absent {s : Scene} {i : Nat} {cue : Cue} {r : Run} {c : Cluster} {reply : Reply}
    {f : Failure} (hrule : s.Answers Incident.IsTruthful (.run i cue)) (hr : s.runs[i]? = some r)
    (hreply : s.reply? r cue = some (c, reply)) (hopen : r.stage.outcome? = none)
    (hfailed : (r.hear reply).stage = .finished (.error f)) (habsent : f.podAbsent = true) :
    f.key = r.plan.key ∧ (¬ f.cause.SaysTaken → c.pods.get? f.key = none) ∧
      (s.Answers Incident.IsCandid (.run i cue) → f.cause.SaysTaken →
        (c.pods.get? f.key).isSome) := by
  obtain ⟨hstep, hkey, rfl⟩ := Stage.failed_creation hopen hfailed habsent
  refine ⟨hkey, ?_⟩
  -- Only an answer can end in such a failure.
  cases cue with
  | news item => simp [reply?] at hreply
  | deadline => simp [reply?] at hreply
  | answer incident now =>
    have hcall := Stage.call?_of_creationStep (p := r.plan) hstep
    simp only [Answers, hr, hcall, Option.bind_some] at hrule ⊢
    simp only [reply?, hcall, Option.map_some, Cluster.reply, Option.some.injEq,
      Prod.mk.injEq, Reply.done.injEq] at hreply
    obtain ⟨rfl, hcause⟩ := hreply
    -- The failed creation left the store as it was, so its answer still tells the truth.
    obtain ⟨hcluster, htaken, hcandid⟩ := Cluster.create_error hrule (Prod.ext rfl hcause)
    simp only [hcluster, hkey]
    refine ⟨fun hother => ?_, hcandid⟩
    exact Option.not_isSome_iff_eq_none.1 (mt htaken hother)

/-- An action after which a run is over, with a failure with `podAbsent`, leaves no Pod unless the
failure says that the name is taken, and then a candid cluster has one. -/
theorem act_absent {s : Scene} {a : Action} {i : Nat} {r r' : Run} {f : Failure}
    (hrule : s.Answers Incident.IsTruthful a) (hr : s.runs[i]? = some r)
    (hopen : r.stage.outcome? = none) (hr' : (s.act a).runs[i]? = some r')
    (hfailed : r'.stage = .finished (.error f)) (habsent : f.podAbsent = true) :
    f.key = r'.plan.key ∧ (¬ f.cause.SaysTaken → (s.act a).cluster.pods.get? f.key = none) ∧
      (s.Answers Incident.IsCandid a → f.cause.SaysTaken →
        ((s.act a).cluster.pods.get? f.key).isSome) := by
  -- The run was not over before, so it is the one that the action is about.
  have hchanged : r' ≠ r := by
    rintro rfl
    rw [hfailed] at hopen
    simp [Stage.outcome?] at hopen
  have hsame : (s.act a).runs ≠ s.runs := by
    intro hruns
    rw [hruns, hr] at hr'
    exact hchanged (Option.some.inj hr').symm
  -- Neither a removal nor a write changes the runs.
  cases a with
  | removal index now => exact absurd (s.act_removal_runs index now) hsame
  | write pods => exact absurd rfl hsame
  | run j cue =>
    rcases s.act_run_cases j cue with ⟨x, c, reply, hx, hreply, hhear⟩ | hidle
    · rw [hhear] at hr' ⊢
      have hset : (s.runs.set j (x.hear reply))[i]? = some r' := hr'
      rw [List.getElem?_set] at hset
      split at hset
      · rename_i hij
        subst hij
        obtain rfl : r = x := Option.some.inj (hr.symm.trans hx)
        split at hset
        · have hheard : r.hear reply = r' := Option.some.inj hset
          rw [← hheard] at hfailed ⊢
          have hmoment := hear_absent hrule hx hreply hopen hfailed habsent
          exact hmoment
        · simp at hset
      -- Another run heard the reply, and this one stayed as it was.
      · rw [hr] at hset
        exact absurd (Option.some.inj hset).symm hchanged
    · exact absurd (congrArg Scene.runs hidle) hsame

/-- Whatever happened before: when a run ends in a failure with `podAbsent`, then at that moment no
Pod is stored unless the cause is that the name was taken. For that cause there is one, if the
cluster names it only of a name that is taken. -/
theorem absent_unless_taken (plans : List Plan) (cluster : Cluster) (before : List Action)
    (a : Action) (i : Nat) (r r' : Run) (f : Failure)
    (htruthful : (start plans cluster).Obeys (Answers Incident.IsTruthful) (before ++ [a]))
    (hr : ((start plans cluster).play before).runs[i]? = some r)
    (hopen : r.stage.outcome? = none)
    (hr' : ((start plans cluster).play (before ++ [a])).runs[i]? = some r')
    (hfailed : r'.stage = .finished (.error f)) (habsent : f.podAbsent = true) :
    f.key = r'.plan.key ∧
      (¬ f.cause.SaysTaken →
        ((start plans cluster).play (before ++ [a])).cluster.pods.get? f.key = none) ∧
      ((start plans cluster).Obeys (Answers Incident.IsCandid) (before ++ [a]) →
        f.cause.SaysTaken →
          (((start plans cluster).play (before ++ [a])).cluster.pods.get? f.key).isSome) := by
  rw [play_append] at hr' ⊢
  -- Only the last action matters, in whatever scene it happens.
  obtain ⟨-, hrule, -⟩ := obeys_append.1 htruthful
  obtain ⟨hkey, hgone, htaken⟩ := act_absent hrule hr hopen hr' hfailed habsent
  refine ⟨hkey, hgone, fun hcandid => htaken ?_⟩
  exact (obeys_append.1 hcandid).2.1

/-- A plan for one Pod, which is replaced below while someone else interferes, or refuses to create.
-/
def contestedPlan : Plan :=
  ⟨{ base := { name := "web-1", ns := "prod" },
     containers := [{ name := "main", image := "nginx:1.27" }] }, 0⟩

/-- A cluster with an old Pod under the key of `contestedPlan`. -/
def contestedCluster : Cluster where
  pods := SortedMap.empty.insert contestedPlan.key
    { metadata := { name := some "web-1", ns := some "prod", resourceVersion := some "42" } }

/-- The old Pod of `contestedPlan` goes late but in time, and then the cluster refuses the creation.
-/
def refusal : List Action :=
  [.run 0 (.answer {} 0), .run 0 (.answer {} 1), .run 0 (.answer {} 2),
    .run 0 (.answer { removeAfter := 20 } 3), .removal 0 23, .run 0 .deadline]

/-- The error with which the creation after `refusal` is refused. -/
def forbidden : ClusterError :=
  .api 403 "Forbidden" "quota exceeded"

/-- The report after `refusal` is right: nothing is stored. -/
theorem refusal_leaves_no_pod :
    ((start [contestedPlan] contestedCluster).play
      (refusal ++ [.run 0 (.answer { error := some forbidden } 30)])).cluster.pods.get?
        contestedPlan.key = none := by
  have hother : ¬ forbidden.SaysTaken := by
    rintro ⟨message, h⟩
    simp [forbidden, ClusterError.alreadyExists] at h
  -- The name is free when the creation is refused, so another cause than that it is taken is true.
  have hrefused : ∀ e, some forbidden = some e →
      (((start [contestedPlan] contestedCluster).play refusal).cluster.pods.get?
        contestedPlan.key).isSome → e.SaysTaken :=
    fun _ _ htaken => absurd htaken (by decide)
  have htruthful : (start [contestedPlan] contestedCluster).Obeys (Answers Incident.IsTruthful)
      (refusal ++ [.run 0 (.answer { error := some forbidden } 30)]) :=
    ⟨⟨rfl, rfl⟩, trivial, trivial, rfl, trivial, trivial, hrefused, trivial⟩
  have hreport := absent_unless_taken [contestedPlan] contestedCluster refusal
    (.run 0 (.answer { error := some forbidden } 30)) 0 ⟨contestedPlan, .recreate .timedOut⟩
    ⟨contestedPlan, .finished (.error ⟨contestedPlan.key, .recreate, forbidden⟩)⟩
    ⟨contestedPlan.key, .recreate, forbidden⟩ htruthful rfl rfl rfl rfl rfl
  exact hreport.2.1 hother

end Scene

namespace World

/-- A world where the Pod of `contestedPlan` goes later than the replacement waits. -/
def lateWorld : World where
  cluster := { Scene.contestedCluster with
    script := fun
      | .delete => [some { removeAfter := 6000 }]
      | _ => [] }

/-- The report can be wrong: in `lateWorld` the old Pod is still stored when the deadline comes, the
creation fails because its name is taken, and the failure is reported as leaving no Pod. -/
theorem late_removal_reported_absent :
    ∃ f, ((lateWorld.spawn Scene.contestedPlan 5000).1.runTask 0 none).tasks[0]?.bind (·.result?) =
        some (.ok (.error f)) ∧
      f.podAbsent = true ∧
      (((lateWorld.spawn Scene.contestedPlan 5000).1.runTask 0 none).cluster.pods.get? f.key).isSome :=
  ⟨⟨Scene.contestedPlan.key, .recreate, .alreadyExists "pods \"web-1\" already exists"⟩, rfl, rfl,
    by decide⟩

end World

end PodDesk
