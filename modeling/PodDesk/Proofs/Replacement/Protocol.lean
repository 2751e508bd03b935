import PodDesk.Proofs.Replacement.Effort

/-!
# The protocol of a replacement

However the cluster behaves, a replacement that is started runs to its end, its calls follow exactly
one of the five courses, and the outcome is the one of that course. The cluster is any scripted
cluster: every call may be delayed, fail or succeed, and a watch may deliver whatever it likes.

## Main statements

- `World.Underway.tick`: a tick keeps what is known about a replacement
- `World.Underway.run`: a replacement that is underway comes to its end
- `World.runTask_follows_course`: the calls and the outcome of a whole replacement
-/

namespace PodDesk

/-- A cluster `NeverCrashes` when no incident of its script takes a caller down. -/
def Cluster.NeverCrashes (c : Cluster) : Prop :=
  ∀ kind incident, some incident ∈ c.script kind → incident.crash = false

namespace Cluster

variable {c c' : Cluster} {kind : CallKind}

/-- `Cluster.incident` takes no caller down when no incident of its kind in the script does. -/
theorem crash_incident (h : ∀ incident, some incident ∈ c.script kind → incident.crash = false) :
    (c.incident kind).crash = false := by
  unfold Cluster.incident
  cases hscript : c.script kind with
  | nil => rfl
  | cons head rest =>
    cases head with
    | none => rfl
    | some incident => exact h incident (by simp [hscript])

theorem NeverCrashes.incident (h : c.NeverCrashes) (kind : CallKind) :
    (c.incident kind).crash = false :=
  crash_incident (h kind)

theorem NeverCrashes.advance (h : c.NeverCrashes) (kind : CallKind) :
    (c.advance kind).NeverCrashes := by
  intro other incident hmem
  unfold Cluster.advance at hmem
  dsimp only at hmem
  split at hmem
  · exact h other incident (List.mem_of_mem_tail hmem)
  · exact h other incident hmem

theorem NeverCrashes.congr (h : c.NeverCrashes) (hscript : c'.script = c.script) :
    c'.NeverCrashes := by
  intro kind incident hmem
  exact h kind incident (hscript ▸ hmem)

end Cluster

namespace Task

/-- The call that `t` waits for, as a list of at most one. -/
def inFlight (t : Task) : List Call :=
  match t.activity with
  | .calling _ _ => (t.stage.call? t.plan).toList
  | _ => []

theorem inFlight_of_ready {t : Task} (h : t.activity = .ready) : t.inFlight = [] := by
  simp [inFlight, h]

end Task

namespace World

/-- `w.Underway i t logged xs` is what is known about task `t` when it is the only one that goes on:
the exchanges so far are `xs`, those that its stage tells of, and their calls were logged after
`logged`. -/
structure Underway (w : World) (i : Nat) (t : Task) (logged : List Call) (xs : List Exchange) :
    Prop where
  task : w.tasks[i]? = some t
  others : w.OthersAtRest i
  calm : w.cluster.NeverCrashes
  uncrashed : ∀ cause, t.activity ≠ .crashed cause
  calls : ∀ due incident, t.activity = .calling due incident →
    (t.stage.call? t.plan).isSome ∧ incident.crash = false
  trail : t.stage.Trail t.plan xs
  log : w.log.map (·.2) = logged ++ xs.map (·.call) ++ t.inFlight

variable {w : World} {i : Nat} {t : Task} {logged : List Call} {xs : List Exchange}

theorem Underway.runs (h : w.Underway i t logged xs) (hopen : t.stage.outcome? = none) :
    t.Runs where
  unfinished := hopen
  uncrashed := h.uncrashed
  calls due incident hactivity := (h.calls due incident hactivity).1

/-- A task that is `Underway` and has a finished stage is over, with the outcome of that stage as
its result. -/
theorem Underway.result {o : Outcome} (h : w.Underway i t logged xs)
    (hstage : t.stage = .finished o) : t.activity = .ready ∧ t.result? = some (.ok o) := by
  have hready : t.activity = .ready := by
    cases hactivity : t.activity with
    | ready => rfl
    | crashed cause => exact absurd hactivity (h.uncrashed cause)
    | calling due incident =>
      have := (h.calls due incident hactivity).1
      simp [hstage, Stage.call?] at this
  exact ⟨hready, by simp [Task.result?, hready, hstage, Stage.outcome?]⟩

/-! ## A tick keeps a replacement underway -/

/-- A call that is made keeps the task `Underway`: it waits for the answer, and its call is logged.
-/
theorem Underway.enter {call : Call} (h : w.Underway i t logged xs)
    (hactivity : t.activity = .ready) (hcall : t.stage.call? t.plan = some call) (due : Nat) :
    ((w.enter call).1.putTask i { t with activity := .calling due (w.enter call).2 }).Underway i
      { t with activity := .calling due (w.enter call).2 } logged xs where
  task := by
    have hlt : i < w.tasks.length := (List.getElem?_eq_some_iff.1 h.task).1
    simp [World.enter, hlt]
  others := OthersAtRest.putTask (w := (w.enter call).1) h.others _
  calm := by
    rw [putTask_cluster]
    exact h.calm.advance call.kind
  uncrashed cause := nofun
  calls := by
    intro due' incident heq
    simp only [Activity.calling.injEq] at heq
    obtain ⟨rfl, rfl⟩ := heq
    exact ⟨by simp [hcall], h.calm.incident call.kind⟩
  trail := h.trail
  log := by
    rw [putTask_log]
    simp [World.enter, h.log, Task.inFlight, hactivity, hcall]

/-- A task of which `World.hearing?` gives something waits for the call of its stage, if the stage
has one. -/
private theorem inFlight_of_hearing {c : Cluster} {watch : Option Nat} {reply : Reply}
    (h : w.hearing? t = some (c, watch, reply)) :
    t.inFlight = (t.stage.call? t.plan).toList := by
  cases heard_of_hearing h with
  | answer hactivity => simp [Task.inFlight, hactivity]
  | late hactivity => simp [Task.inFlight, hactivity]
  | deadline hactivity hstage => simp [Task.inFlight, hactivity, hstage, Stage.call?]
  | news hactivity hstage => simp [Task.inFlight, hactivity, hstage, Stage.call?]

/-- A reply keeps the task `Underway`, with the exchange that it completes if it answers a call. -/
theorem Underway.hear {c : Cluster} {watch : Option Nat} {reply : Reply}
    (h : w.Underway i t logged xs) (hheard : w.hearing? t = some (c, watch, reply))
    (hdeadline : t.stage.exchange? t.plan reply = some (t.plan.deletion (.ok ())) →
      w.now + t.wait < endOfTime) :
    ({ w with cluster := c }.putTask i ({ t with watch }.hear w.now reply)).Underway i
      ({ t with watch }.hear w.now reply) logged
      (xs ++ (t.stage.exchange? t.plan reply).toList) := by
  -- The task is ready again: a deadline that could not be shown is excluded by `hdeadline`.
  have hready : (({ t with watch } : Task).hear w.now reply).activity = .ready := by
    apply Task.hear_activity _ w.now reply
    rintro watching (hstage : t.stage = _) rfl
    exact hdeadline (by rw [hstage]; rfl)
  constructor
  case task =>
    have hlt : i < w.tasks.length := (List.getElem?_eq_some_iff.1 h.task).1
    simp [hlt]
  case others =>
    exact OthersAtRest.putTask (w := { w with cluster := c }) h.others _
  case calm =>
    rw [putTask_cluster]
    exact h.calm.congr (hearing_script hheard)
  case uncrashed =>
    intro cause
    rw [hready]
    exact nofun
  case calls =>
    intro due incident hcalling
    rw [hready] at hcalling
    simp at hcalling
  case trail =>
    rw [Task.hear_stage, Task.hear_plan]
    exact Stage.trail_next t.plan xs t.stage reply h.trail (hears_of_hearing hheard)
  case log =>
    -- The exchange tells of the call that was waited for, so the log stays the same list.
    have hcalls : (t.stage.exchange? t.plan reply).toList.map (·.call) =
        (t.stage.call? t.plan).toList := by
      unfold Stage.exchange?
      cases t.stage.call? t.plan <;> rfl
    rw [putTask_log, Task.inFlight_of_ready hready, List.append_nil, List.map_append, hcalls]
    show w.log.map (·.2) = _
    rw [h.log, inFlight_of_hearing hheard, List.append_assoc]

/-- A removal keeps the task `Underway`. -/
theorem Underway.removal (h : w.Underway i t logged xs) (j : Nat) (r : Removal) :
    (w.stepRemoval j r).Underway i t logged xs :=
  { h with
    calm := h.calm.congr (by simp [stepRemoval])
    others := h.others }

/-- `Underway` does not depend on the clock. -/
theorem Underway.atTime (h : w.Underway i t logged xs) (time : Nat) :
    ({ w with now := time } : World).Underway i t logged xs :=
  { h with }

/-- `World.stepTask` keeps the task `Underway`, with the exchange that its turn completes. -/
theorem Underway.turn {due now : Nat} (h : w.Underway i t logged xs)
    (hopen : t.stage.outcome? = none) (hdue : t.due? w.cluster now = some due)
    (hle : due ≤ w.now)
    (hdeadline : w.turnExchange? t = some (t.plan.deletion (.ok ())) →
      w.now + t.wait < endOfTime) :
    ∃ t', (w.stepTask i t).Underway i t' logged (xs ++ (w.turnExchange? t).toList) ∧
      t'.plan = t.plan ∧ t'.wait = t.wait := by
  rcases turn_cases (h.runs hopen) hdue hle with
    ⟨call, hactivity, hcall⟩ | ⟨⟨c, watch, reply⟩, hheard⟩ |
    ⟨at', incident, hactivity, hcrash, -⟩
  -- It makes its call, and nothing is heard yet.
  · have hsilent : w.turnExchange? t = none := by
      unfold turnExchange?
      cases hs : t.stage <;> simp [hs, Stage.call?] at hcall <;> simp [hearing?, hactivity, hs]
    rw [hsilent, Option.toList_none, List.append_nil, stepTask_of_ready hactivity hcall]
    exact ⟨_, h.enter hactivity hcall _, rfl, rfl⟩
  -- It hears a reply, which completes an exchange if it answers a call.
  · have hexchange : w.turnExchange? t = t.stage.exchange? t.plan reply := by
      simp [turnExchange?, hheard]
    rw [hexchange] at hdeadline ⊢
    rw [stepTask_of_hearing hheard]
    exact ⟨_, h.hear hheard hdeadline, Task.hear_plan _ _ _, Task.hear_wait _ _ _⟩
  -- No call takes it down.
  · rw [(h.calls at' incident hactivity).2] at hcrash
    simp at hcrash

/-- `World.tick` keeps the task `Underway`, with the exchange that it completes. -/
theorem Underway.tick {time : Nat} {actor : Actor} (h : w.Underway i t logged xs)
    (hopen : t.stage.outcome? = none) (hnext : w.next? = some (time, actor))
    (hdeadline : w.exchange? time actor = some (t.plan.deletion (.ok ())) →
      time + t.wait < endOfTime) :
    ∃ t', (w.tick time actor).Underway i t' logged (xs ++ (w.exchange? time actor).toList) ∧
      t'.plan = t.plan ∧ t'.wait = t.wait := by
  have hnow := h.atTime time
  obtain ⟨j, r, rfl, -, htick⟩ | ⟨j, u, due, rfl, hu, hdue, hle, htick⟩ := tick_cases hnext
  -- A removal completes no exchange.
  · simp only [htick, exchange?, Option.toList_none, List.append_nil]
    exact ⟨t, hnow.removal j r, rfl, rfl⟩
  · -- The other tasks are at rest, so it is the turn of the replacement.
    obtain rfl : j = i := h.others.eq_of_due hu hdue
    obtain rfl : t = u := Option.some.inj (h.task.symm.trans hu)
    simp only [htick, exchange?, hu, Option.bind_some] at hdeadline ⊢
    exact hnow.turn hopen hdue hle hdeadline

/-! ## A replacement comes to its end -/

/-- A task that is `Underway` and has a finished stage is over, so no more ticks of the run are
wanted. -/
private theorem Underway.run_of_finished {o : Outcome} (h : w.Underway i t logged xs)
    (hstage : t.stage = .finished o) (wanted : World → Nat → Bool)
    (hwanted : ∀ w time, wanted w time = ! w.isOver i) (n : Nat) :
    World.run wanted n w = w ∧ exchanges wanted n w = [] := by
  have hover : w.isOver i = true := by
    simp [World.isOver, h.task, Task.isOver, (h.result hstage).2]
  have hunwanted : ∀ time, wanted w time = false := by
    intro time
    rw [hwanted, hover]
    rfl
  refine ⟨run_of_unwanted hunwanted n, ?_⟩
  cases n with
  | zero => rfl
  | succ n =>
    simp only [exchanges, hunwanted]
    cases w.next? <;> rfl

/-- `World.run` brings a task that is `Underway` to its end when it may take as many ticks as its
effort, and keeps all that is known about it. -/
theorem Underway.run (wanted : World → Nat → Bool)
    (hwanted : ∀ w time, wanted w time = ! w.isOver i) (n : Nat)
    (h : w.Underway i t logged xs) (hsound : w.IsSound) (heffort : w.effort ≤ n)
    (hdeadline : ∀ x ∈ exchanges wanted n w, x.2 = t.plan.deletion (.ok ()) →
      x.1 + t.wait < endOfTime) :
    ∃ t' o, t'.plan = t.plan ∧ t'.stage = .finished o ∧
      (World.run wanted n w).Underway i t' logged (xs ++ (exchanges wanted n w).map (·.2)) := by
  -- Induction on the ticks that are allowed, which always cover the effort that is left.
  induction n generalizing w t xs with
  | zero =>
    cases hs : t.stage.outcome? with
    | none =>
      -- As long as the replacement runs, there is effort left.
      obtain ⟨entry, hnext⟩ :=
        Option.isSome_iff_exists.1 (next?_isSome_of_runs h.task (h.runs hs))
      have hless := (hsound.tick hnext).2
      omega
    | some o =>
      have hstage : t.stage = .finished o := by
        cases ht : t.stage <;> simp [ht, Stage.outcome?] at hs
        rw [hs]
      obtain ⟨hrun, hexchanges⟩ := h.run_of_finished hstage wanted hwanted 0
      rw [hrun, hexchanges, List.map_nil, List.append_nil]
      exact ⟨t, o, rfl, hstage, h⟩
  | succ n ih =>
    cases hs : t.stage.outcome? with
    | some o =>
      have hstage : t.stage = .finished o := by
        cases ht : t.stage <;> simp [ht, Stage.outcome?] at hs
        rw [hs]
      obtain ⟨hrun, hexchanges⟩ := h.run_of_finished hstage wanted hwanted (n + 1)
      rw [hrun, hexchanges, List.map_nil, List.append_nil]
      exact ⟨t, o, rfl, hstage, h⟩
    | none =>
      -- Otherwise the next tick is taken, and it costs effort.
      have hruns := h.runs hs
      obtain ⟨⟨time, actor⟩, hnext⟩ :=
        Option.isSome_iff_exists.1 (next?_isSome_of_runs h.task hruns)
      have hopen : w.isOver i = false := by
        simp [World.isOver, h.task, Task.isOver_eq_false_of_runs hruns]
      simp only [World.run, exchanges, hnext, hwanted, hopen, Bool.not_false, if_true,
        List.map_append] at hdeadline ⊢
      obtain ⟨hsound', hless⟩ := hsound.tick hnext
      obtain ⟨t', htick, hplan, hwait⟩ := h.tick hs hnext (by
        intro hexchange
        exact hdeadline (time, t.plan.deletion (.ok ())) (by simp [hexchange]) rfl)
      obtain ⟨t'', o, hplan', hstage, hrun⟩ := ih htick hsound' (by omega) (by
        intro x hx hdeletion
        rw [hwait]
        exact hdeadline x (List.mem_append_right _ hx) (hplan ▸ hdeletion))
      refine ⟨t'', o, hplan'.trans hplan, hstage, ?_⟩
      have hexchanges : ((w.exchange? time actor).map (time, ·)).toList.map (·.2) =
          (w.exchange? time actor).toList := by
        cases w.exchange? time actor <;> rfl
      rw [hexchanges, ← List.append_assoc]
      exact hrun

/-- The exchanges of `World.runTask`: those of a task until it is over, or until a time. -/
def taskExchanges (w : World) (i : Nat) (limit : Option Nat) : List (Nat × Exchange) :=
  exchanges (fun w time => ! w.isOver i && limit.all (time < ·)) w.budget w

/-- `World.spawn` keeps a world sound. -/
theorem isSound_spawn (w : World) (p : Plan) (wait : Nat) (hsound : w.IsSound) :
    (w.spawn p wait).1.IsSound := by
  intro t ht
  simp only [spawn, List.mem_append, List.mem_singleton] at ht
  rcases ht with ht | rfl
  · exact hsound t ht
  · exact .inr ⟨⟨rfl, by simp, by simp⟩, by simp⟩

/-- The task that `World.spawn` starts is `Underway`, with no exchange so far. -/
theorem underway_spawn (w : World) (p : Plan) (wait : Nat) (hrest : ∀ t ∈ w.tasks, t.AtRest)
    (hcalm : w.cluster.NeverCrashes) :
    (w.spawn p wait).1.Underway (w.spawn p wait).2 { plan := p, wait, started := w.now }
      (w.log.map (·.2)) [] where
  task := by simp [spawn]
  others := othersAtRest_spawn hrest p wait
  calm := hcalm
  uncrashed cause := nofun
  calls due incident := nofun
  trail := rfl
  log := by simp [spawn, Task.inFlight]

/-- Whatever the cluster answers, and however long it takes, a replacement that starts runs to its
end: its calls are logged in order, with their replies they follow exactly one course, and that
course fixes the outcome. So it deletes at most once and creates at most once, and deletes only
after an accepted dry run and an attempt to watch. -/
theorem runTask_follows_course (w : World) (p : Plan) (wait : Nat)
    (hrest : ∀ t ∈ w.tasks, t.AtRest) (hcalm : w.cluster.NeverCrashes)
    (hdeadline : ∀ x ∈ (w.spawn p wait).1.taskExchanges (w.spawn p wait).2 none,
      x.2 = p.deletion (.ok ()) → x.1 + wait < endOfTime) :
    let i := (w.spawn p wait).2
    let final := (w.spawn p wait).1.runTask i none
    let xs := ((w.spawn p wait).1.taskExchanges i none).map (·.2)
    ∃ outcome, final.tasks[i]?.bind (·.result?) = some (.ok outcome) ∧
      final.log.map (·.2) = w.log.map (·.2) ++ xs.map (·.call) ∧
      (∃ course : Course, course.Fits p xs outcome ∧
        ∀ other : Course, ∀ o, other.Fits p xs o → other = course) ∧
      (xs.map (·.call.kind)).count .delete ≤ 1 ∧
      (xs.map (·.call.kind)).count .create ≤ 1 ∧
      ∀ before x after, xs = before ++ x :: after → x.call.kind = .delete →
        ⟨.dryRun p.key.ns p.trialPod, .done (.ok ())⟩ ∈ before ∧
          ∃ y ∈ before, y.call.kind = .watch := by
  intro i final xs
  obtain ⟨t, o, hplan, hstage, hfinal⟩ := (underway_spawn w p wait hrest hcalm).run
    (fun w time => ! w.isOver i && (none : Option Nat).all (time < ·))
    (fun w time => Bool.and_true _)
    (w.spawn p wait).1.budget (isSound_spawn w p wait fun t ht => .inl (hrest t ht))
    (effort_le_budget _) hdeadline
  obtain ⟨hready, hresult⟩ := hfinal.result hstage
  have htrail : t.stage.Trail t.plan xs := hfinal.trail
  -- At a finished stage the trail is a course that fits the outcome.
  rw [hstage, hplan] at htrail
  obtain ⟨course, hfits⟩ := htrail
  refine ⟨o, ?_, ?_, ⟨course, hfits, fun other o' hother => hother.unique hfits⟩,
    hfits.delete_le_one, hfits.create_le_one, fun before x after hxs hx => hfits.before_delete hxs hx⟩
  · have htask : final.tasks[i]? = some t := hfinal.task
    simp [htask, hresult]
  · have hlog := hfinal.log
    rw [Task.inFlight_of_ready hready, List.append_nil, List.nil_append] at hlog
    exact hlog

/-! ## A replacement with trouble -/

/-- A request of one Pod without containers, for the worlds below. -/
def troubledPlan : Plan :=
  ⟨{ base := { name := "web", ns := "prod" } }, 30⟩

/-- A world where `troubledPlan` meets trouble: the old Pod stays for a while after its deletion,
the lookup after the first news is slow and fails, and then the watch fails. -/
def troubledWorld : World where
  cluster := {
    pods := SortedMap.empty.insert troubledPlan.key troubledPlan.pod
    script := fun
      | .get => [none, some { delay := 400, error := some (.transport "reset") }]
      | .watch => [some { items := some [⟨100, .event (.modified troubledPlan.pod)⟩,
          ⟨50, .failed (.transport "gone")⟩] }]
      | .delete => [some { delay := 20, removeAfter := 300 }]
      | _ => [] }

/-- The trouble in `troubledWorld` changes nothing about the course: after a lookup that was of no
use, the Pod is created when the deadline comes. -/
theorem troubledWorld_follows_recreate :
    Course.recreate.Fits troubledPlan
      (((troubledWorld.spawn troubledPlan 5000).1.taskExchanges 0 none).map (·.2))
      (.ok ⟨troubledPlan.key, some .timedOut⟩) := by
  have hrest : ∀ t ∈ troubledWorld.tasks, t.AtRest := by
    intro t ht
    exact absurd ht List.not_mem_nil
  have hcalm : troubledWorld.cluster.NeverCrashes := by
    intro kind incident hmem
    cases kind <;> simp [troubledWorld] at hmem <;> simp [hmem]
  -- The times show that the deadline can be represented, and the kinds which course it is.
  have htimes : ((troubledWorld.spawn troubledPlan 5000).1.taskExchanges 0 none).map (·.1) =
      [0, 0, 0, 20, 500, 5020] := by
    decide +kernel
  have hkinds : (((troubledWorld.spawn troubledPlan 5000).1.taskExchanges 0 none).map (·.2)).map
      (·.call.kind) = Course.recreate.kinds 1 := by
    decide +kernel
  have hdone : ((troubledWorld.spawn troubledPlan 5000).1.runTask 0 none).tasks[0]?.bind
      (·.result?) = some (.ok (.ok ⟨troubledPlan.key, some .timedOut⟩)) := by
    rfl
  have hnumber : (troubledWorld.spawn troubledPlan 5000).2 = 0 := rfl
  have hdeadline : ∀ x ∈ (troubledWorld.spawn troubledPlan 5000).1.taskExchanges 0 none,
      x.1 + 5000 < endOfTime := by
    intro x hx
    have hmem := List.mem_map_of_mem (f := (·.1)) hx
    rw [htimes] at hmem
    simp only [List.mem_cons, List.not_mem_nil, or_false] at hmem
    unfold endOfTime word63
    omega
  have hcourse := runTask_follows_course troubledWorld troubledPlan 5000 hrest hcalm
    fun x hx _ => hdeadline x hx
  simp only [hnumber] at hcourse
  obtain ⟨outcome, hresult, -, ⟨course, hfits, -⟩, -⟩ := hcourse
  obtain rfl : outcome = .ok ⟨troubledPlan.key, some .timedOut⟩ := by
    have heq := hresult.symm.trans hdone
    simpa using heq
  obtain ⟨probes, hcourse⟩ := hfits.kinds_eq
  obtain rfl := Course.eq_of_kinds_eq (hkinds.symm.trans hcourse)
  exact hfits

end World

end PodDesk
