import PodDesk.Proofs.Replacement.Course
import PodDesk.Replacement.Timeline

/-!
# Turns of a task

A tick of a world is the turn of a task or the removal of a Pod. On its turn a task makes the call
of its stage, or it hears a reply: the answer to its call, what its watch delivers, or the deadline.
`World.hearing?` is the reply that a task hears, and `World.exchanges` the calls of a whole run with
the replies to them.

## Main statements

- `World.stepTask_of_ready`, `World.stepTask_of_hearing`: what a turn does to the world
- `World.heard_of_hearing`: the four ways in which a task hears a reply
- `World.turn_cases`: a task that is due makes its call, hears a reply, or is taken down
- `World.hears_of_hearing`: what a task hears belongs to its stage
- `World.next?_entry`: what happens next stands in the agenda
- `World.tick_cases`: what a tick can be
- `World.next?_isSome_of_runs`: as long as a task runs, something happens next
-/

namespace PodDesk

namespace Cluster

variable (c : Cluster) (i : Incident) (now : Nat)

/-! ## Answers of the cluster -/

@[simp] theorem reply_get (key : PodKey) :
    c.reply i now (.get key) = (c, .found (c.lookup i key), none) := rfl

@[simp] theorem reply_dryRun (ns : String) (pod : Pod) :
    c.reply i now (.dryRun ns pod) = (c, .done (checked i), none) := rfl

@[simp] theorem reply_create (ns : String) (pod : Pod) :
    c.reply i now (.create ns pod) =
      ((c.create i ns pod).1, .done (c.create i ns pod).2, none) := rfl

@[simp] theorem reply_delete (key : PodKey) (params : DeleteParams) :
    c.reply i now (.delete key params) =
      ((c.delete i now key).1, .done (c.delete i now key).2, none) := rfl

@[simp] theorem remove_script (key : PodKey) (silent : Bool) :
    (c.remove now key silent).script = c.script := by
  unfold remove
  split
  · rfl
  · dsimp only
    split <;> rfl

@[simp] theorem remove_removals (key : PodKey) (silent : Bool) :
    (c.remove now key silent).removals = c.removals := by
  unfold remove
  split
  · rfl
  · dsimp only
    split <;> rfl

/-- `Cluster.reply` leaves the script to the calls after it. -/
@[simp] theorem reply_script (call : Call) :
    (c.reply i now call).1.script = c.script := by
  -- Only a creation, a deletion and a watch can change the cluster at all.
  cases call with
  | create ns pod =>
    simp only [reply_create, create]
    split
    · rfl
    · split <;> rfl
  | delete key params =>
    simp only [reply_delete, delete]
    split
    · rfl
    · split
      · rfl
      · split
        · rfl
        · split
          · exact remove_script c now key i.silent
          · rfl
  | watch ns selector version =>
    unfold reply openWatch
    cases i.error <;> rfl
  | _ => rfl

/-- The reply to a watch says only that it was opened or refused: its items come later. -/
theorem reply_watch_done (ns selector version : String) :
    ∃ answer, (c.reply i now (.watch ns selector version)).2.1 = .done answer := by
  unfold reply openWatch
  cases i.error with
  | none => exact ⟨_, rfl⟩
  | some e => exact ⟨_, rfl⟩

end Cluster

namespace Task

/-- A task is `AtRest` when nothing more happens in it: it has crashed, or it is finished. -/
def AtRest (t : Task) : Prop :=
  (∃ cause, t.activity = .crashed cause) ∨ (t.activity = .ready ∧ t.stage.outcome?.isSome)

/-- A task `Runs` when it is not over and waits only for calls of its stage. -/
structure Runs (t : Task) : Prop where
  unfinished : t.stage.outcome? = none
  uncrashed : ∀ cause, t.activity ≠ .crashed cause
  calls : ∀ due incident, t.activity = .calling due incident → (t.stage.call? t.plan).isSome

variable {t : Task}

/-! ## Hearing a reply -/

@[simp] theorem hear_stage (t : Task) (now : Nat) (reply : Reply) :
    (t.hear now reply).stage = t.stage.next t.plan reply := by
  unfold hear
  dsimp only
  split <;> rfl

@[simp] theorem hear_plan (t : Task) (now : Nat) (reply : Reply) :
    (t.hear now reply).plan = t.plan := by
  unfold hear
  dsimp only
  split <;> rfl

@[simp] theorem hear_watch (t : Task) (now : Nat) (reply : Reply) :
    (t.hear now reply).watch = t.watch := by
  unfold hear
  dsimp only
  split <;> rfl

@[simp] theorem hear_wait (t : Task) (now : Nat) (reply : Reply) :
    (t.hear now reply).wait = t.wait := by
  unfold hear
  dsimp only
  split <;> rfl

/-- `Task.hear` leaves a task ready for its next step, unless the reply starts a wait beyond
`endOfTime`. -/
theorem hear_activity (t : Task) (now : Nat) (reply : Reply)
    (h : ∀ watching, t.stage = .delete watching → reply = .done (.ok ()) →
      now + t.wait < endOfTime) :
    (t.hear now reply).activity = .ready := by
  unfold hear
  dsimp only
  split
  -- Only an accepted deletion leads to a wait, and by assumption its deadline can be shown.
  · rename_i watching watching' hstage hnext
    have hok : reply = .done (.ok ()) := by
      rw [hstage] at hnext
      rcases reply with _ | (e | ⟨⟩) | _ | _ <;> first | rfl | simp [Stage.next] at hnext
    simp [h watching hstage hok]
  · rfl

/-- `Task.hear` never leaves a task waiting for a call: that takes a turn of its own. -/
theorem hear_not_calling (t : Task) (now : Nat) (reply : Reply) (due : Nat) (incident : Incident) :
    (t.hear now reply).activity ≠ .calling due incident := by
  unfold hear
  dsimp only
  split
  · split <;> simp
  · simp

/-! ## When a task is due -/

/-- `Task.due?` gives nothing for a task at rest. -/
theorem due?_of_atRest (h : t.AtRest) (c : Cluster) (now : Nat) : t.due? c now = none := by
  rcases h with ⟨cause, hactivity⟩ | ⟨hactivity, hstage⟩
  · simp [due?, hactivity]
  · cases hs : t.stage <;> simp [Stage.outcome?, hs] at hstage
    simp [due?, hactivity, hs]

/-- The only crash that `Task.hear` brings about is that of a deadline. -/
theorem hear_not_crashed_call (t : Task) (now : Nat) (reply : Reply) :
    (t.hear now reply).activity ≠ .crashed .call := by
  unfold hear
  dsimp only
  split
  · split <;> simp
  · simp

/-- After `Task.hear` a task runs or is at rest. -/
theorem runs_or_atRest_hear (t : Task) (now : Nat) (reply : Reply) :
    (t.hear now reply).Runs ∨ (t.hear now reply).AtRest := by
  cases hactivity : (t.hear now reply).activity with
  | crashed cause => exact .inr (.inl ⟨cause, hactivity⟩)
  | calling due incident => exact absurd hactivity (hear_not_calling t now reply due incident)
  | ready =>
    cases hs : (t.hear now reply).stage.outcome? with
    | some o => exact .inr (.inr ⟨hactivity, Option.isSome_of_eq_some hs⟩)
    | none => exact .inl ⟨hs, by simp [hactivity], by simp [hactivity]⟩

/-- `Task.due?` gives a time for every task that runs. -/
theorem due?_isSome_of_runs (h : t.Runs) (c : Cluster) (now : Nat) :
    (t.due? c now).isSome := by
  cases hactivity : t.activity with
  | crashed cause => exact absurd hactivity (h.uncrashed cause)
  | calling due incident => cases hs : t.stage <;> simp [due?, hactivity, hs]
  | ready =>
    cases hs : t.stage with
    | finished o => exact absurd h.unfinished (by simp [hs, Stage.outcome?])
    | waiting watching => cases watching <;> simp [due?, hactivity, hs]
    | _ => simp [due?, hactivity, hs]

theorem isOver_of_atRest (h : t.AtRest) : t.isOver = true := by
  unfold isOver result?
  rcases h with ⟨cause, hactivity⟩ | ⟨hactivity, hstage⟩
  · simp [hactivity]
  · simpa [hactivity] using hstage

theorem isOver_eq_false_of_runs (h : t.Runs) : t.isOver = false := by
  unfold isOver result?
  cases hactivity : t.activity with
  | crashed cause => exact absurd hactivity (h.uncrashed cause)
  | _ => simp [h.unfinished]

end Task

namespace World

variable {w : World} {t : Task} {i : Nat}

@[simp] theorem putTask_tasks (w : World) (i : Nat) (t : Task) :
    (w.putTask i t).tasks = w.tasks.set i t := by
  unfold putTask
  dsimp only
  split <;> rfl

@[simp] theorem putTask_cluster (w : World) (i : Nat) (t : Task) :
    (w.putTask i t).cluster = w.cluster := by
  unfold putTask
  dsimp only
  split <;> rfl

@[simp] theorem putTask_log (w : World) (i : Nat) (t : Task) : (w.putTask i t).log = w.log := by
  unfold putTask
  dsimp only
  split <;> rfl

@[simp] theorem putTask_now (w : World) (i : Nat) (t : Task) : (w.putTask i t).now = w.now := by
  unfold putTask
  dsimp only
  split <;> rfl

/-! ## What a task hears -/

/-- The answer of the cluster to the call of `t`, with the cluster and the watch after it. There is
none when `incident` takes the caller down. -/
def answer? (w : World) (t : Task) (incident : Incident) :
    Option (Cluster × Option Nat × Reply) :=
  if incident.crash then none
  else
    (t.stage.call? t.plan).map fun call =>
      let (cluster, reply, watch) := w.cluster.reply incident w.now call
      (cluster, watch.or t.watch, reply)

/-- What `t` hears on its turn, with the cluster and the watch after it. A task that makes its call
hears nothing yet. -/
def hearing? (w : World) (t : Task) : Option (Cluster × Option Nat × Reply) :=
  match t.activity, t.stage with
  | .crashed _, _ => none
  | .calling due incident, .probing =>
    if t.deadline ≤ due ∧ t.deadline ≤ w.now then some (w.cluster, t.watch, .deadline)
    else w.answer? t incident
  | .calling _ incident, _ => w.answer? t incident
  | .ready, .waiting watching =>
    if t.deadline ≤ w.now then some (w.cluster, t.watch, .deadline)
    else
      match t.watch, watching with
      | some watch, true =>
        (w.cluster.peek watch).map fun entry => (w.cluster.pop watch, t.watch, .item entry.2)
      | _, _ => none
  | .ready, _ => none

/-- The turn of a task that is ready: it makes the call of its stage and waits for the answer. -/
theorem stepTask_of_ready {call : Call} (hactivity : t.activity = .ready)
    (hcall : t.stage.call? t.plan = some call) :
    w.stepTask i t = (w.enter call).1.putTask i
      { t with activity :=
          .calling (w.now + (w.enter call).2.delay) (w.enter call).2 } := by
  unfold stepTask
  cases hs : t.stage <;> simp only [hs, Stage.call?, reduceCtorEq] at hcall <;>
    simp [hactivity, Stage.call?, hcall, enter]

/-- `World.deliver` with an answer is `Task.hear`, in the world with the cluster after it. -/
private theorem deliver_of_answer {incident : Incident} {c : Cluster} {watch : Option Nat}
    {reply : Reply} (h : w.answer? t incident = some (c, watch, reply)) :
    w.deliver i t incident =
      { w with cluster := c }.putTask i ({ t with watch }.hear w.now reply) := by
  unfold answer? at h
  unfold deliver
  split at h
  · simp at h
  · rename_i hcrash
    obtain ⟨call, hcall, heq⟩ := Option.map_eq_some_iff.1 h
    simp only [Prod.mk.injEq] at heq
    obtain ⟨rfl, rfl, rfl⟩ := heq
    simp [hcrash, hcall]

/-- `World.stepTask` of a task that hears something is `Task.hear`, in the world with the cluster
after it. -/
theorem stepTask_of_hearing {c : Cluster} {watch : Option Nat} {reply : Reply}
    (h : w.hearing? t = some (c, watch, reply)) :
    w.stepTask i t = { w with cluster := c }.putTask i ({ t with watch }.hear w.now reply) := by
  -- Both sides reduce by the activity and the stage of the task.
  obtain ⟨plan, wait, started, stage, activity, deadline, watch₀⟩ := t
  cases activity with
  | crashed cause => simp [hearing?] at h
  | calling due incident =>
    cases stage with
    -- The deadline may cut the lookup off; otherwise its answer is delivered like any other.
    | probing =>
      simp only [hearing?, stepTask] at h ⊢
      split at h
      · rename_i hcut
        obtain ⟨rfl, rfl, rfl⟩ : w.cluster = c ∧ watch₀ = watch ∧ Reply.deadline = reply := by
          simpa using h
        simp [hcut]
      · rename_i hcut
        rw [if_neg hcut]
        exact deliver_of_answer h
    | _ => exact deliver_of_answer h
  | ready =>
    cases stage with
    | waiting watching =>
      -- The deadline comes before the items of the watch, on both sides.
      simp only [hearing?, stepTask] at h ⊢
      split at h
      · rename_i hlate
        obtain ⟨rfl, rfl, rfl⟩ : w.cluster = c ∧ watch₀ = watch ∧ Reply.deadline = reply := by
          simpa using h
        simp [hlate]
      · rename_i hlate
        rw [if_neg hlate]
        split at h
        · obtain ⟨entry, hpeek, heq⟩ := Option.map_eq_some_iff.1 h
          simp only [Prod.mk.injEq] at heq
          obtain ⟨rfl, rfl, rfl⟩ := heq
          simp [hpeek]
        · simp at h
    | _ => simp [hearing?] at h

/-- What `Cluster.reply` answers to the call of a stage belongs to that stage. -/
private theorem hears_reply {call : Call} (incident : Incident)
    (h : t.stage.call? t.plan = some call) :
    t.stage.Hears (w.cluster.reply incident w.now call).2.1 := by
  cases hs : t.stage with
  | waiting watching => simp [hs, Stage.call?] at h
  | finished o => simp [hs, Stage.call?] at h
  -- A watch is answered in two ways, so its reply has to be looked up first.
  | watch existing =>
    simp only [hs, Stage.call?, Option.some.injEq] at h
    obtain ⟨answer, hdone⟩ := Cluster.reply_watch_done w.cluster incident w.now t.plan.key.ns
      (labelSelector existing.metadata.labels) (existing.metadata.resourceVersion.getD "0")
    rw [← h, hdone]
    trivial
  | _ =>
    simp only [hs, Stage.call?, Option.some.injEq] at h
    rw [← h]
    trivial

/-- `w.Heard t c watch reply` lists the ways in which `t` hears `reply` on its turn; `c` and `watch`
are the cluster and the watch after it. -/
inductive Heard (w : World) (t : Task) : Cluster → Option Nat → Reply → Prop where
  /-- Its call is answered. -/
  | answer {due : Nat} {incident : Incident} {call : Call}
      (hactivity : t.activity = .calling due incident) (hcrash : incident.crash = false)
      (hcall : t.stage.call? t.plan = some call) :
      Heard w t (w.cluster.reply incident w.now call).1
        ((w.cluster.reply incident w.now call).2.2.or t.watch)
        (w.cluster.reply incident w.now call).2.1
  /-- The deadline comes while it looks the Pod up. -/
  | late {due : Nat} {incident : Incident} (hactivity : t.activity = .calling due incident)
      (hstage : t.stage = .probing) : Heard w t w.cluster t.watch .deadline
  /-- The deadline comes while it waits. -/
  | deadline {watching : Bool} (hactivity : t.activity = .ready)
      (hstage : t.stage = .waiting watching) : Heard w t w.cluster t.watch .deadline
  /-- Its watch delivers an item while it waits. -/
  | news {watch : Nat} {entry : Nat × WatchItem} (hactivity : t.activity = .ready)
      (hstage : t.stage = .waiting true) (hwatch : t.watch = some watch)
      (hpeek : w.cluster.peek watch = some entry) :
      Heard w t (w.cluster.pop watch) t.watch (.item entry.2)

private theorem heard_of_answer {due : Nat} {incident : Incident} {c : Cluster}
    {watch : Option Nat} {reply : Reply} (hactivity : t.activity = .calling due incident)
    (h : w.answer? t incident = some (c, watch, reply)) : w.Heard t c watch reply := by
  unfold answer? at h
  split at h
  · simp at h
  · rename_i hcrash
    obtain ⟨call, hcall, heq⟩ := Option.map_eq_some_iff.1 h
    simp only [Prod.mk.injEq] at heq
    obtain ⟨rfl, rfl, rfl⟩ := heq
    exact .answer hactivity (by simpa using hcrash) hcall

/-- What `World.hearing?` gives is `Heard` in one of the four ways. -/
theorem heard_of_hearing {c : Cluster} {watch : Option Nat} {reply : Reply}
    (h : w.hearing? t = some (c, watch, reply)) : w.Heard t c watch reply := by
  -- The cases of `hearing?` in their order: a crash, a lookup, another call, a wait, and a call
  -- that is still to be made.
  unfold hearing? at h
  split at h
  · simp at h
  · rename_i hactivity hstage
    split at h
    · obtain ⟨rfl, rfl, rfl⟩ : w.cluster = c ∧ t.watch = watch ∧ Reply.deadline = reply := by
        simpa using h
      exact .late hactivity hstage
    · exact heard_of_answer hactivity h
  · rename_i hactivity _
    exact heard_of_answer hactivity h
  · rename_i watching hactivity hstage
    split at h
    · obtain ⟨rfl, rfl, rfl⟩ : w.cluster = c ∧ t.watch = watch ∧ Reply.deadline = reply := by
        simpa using h
      exact .deadline hactivity hstage
    · split at h
      · rename_i n hwatch
        obtain ⟨entry, hpeek, heq⟩ := Option.map_eq_some_iff.1 h
        simp only [Prod.mk.injEq] at heq
        obtain ⟨rfl, rfl, rfl⟩ := heq
        exact .news hactivity hstage hwatch hpeek
      · simp at h
  · simp at h

/-- What `World.hearing?` leaves of the cluster has the script of before. -/
theorem hearing_script {c : Cluster} {watch : Option Nat} {reply : Reply}
    (h : w.hearing? t = some (c, watch, reply)) : c.script = w.cluster.script := by
  cases heard_of_hearing h with
  | answer => exact w.cluster.reply_script _ w.now _
  | _ => rfl

/-- What `World.hearing?` gives belongs to the stage of the task. -/
theorem hears_of_hearing {c : Cluster} {watch : Option Nat} {reply : Reply}
    (h : w.hearing? t = some (c, watch, reply)) : t.stage.Hears reply := by
  cases heard_of_hearing h with
  | answer _ _ hcall => exact hears_reply _ hcall
  | late _ hstage =>
    rw [hstage]
    trivial
  | @deadline watching _ hstage =>
    rw [hstage]
    cases watching <;> trivial
  | news _ hstage _ _ =>
    rw [hstage]
    trivial

/-- On a turn in which `World.hearing?` gives nothing a task makes its call or is taken down by it,
if anything happens at all. -/
theorem quiet_cases (h : w.hearing? t = none) :
    w.stepTask i t = w ∨ w.stepTask i t = w.putTask i { t with activity := .crashed .call } ∨
      ∃ call, t.activity = .ready ∧ t.stage.call? t.plan = some call := by
  -- Only an incident that takes the task down leaves the call of its stage without an answer.
  have hdeliver : ∀ incident, w.answer? t incident = none → w.deliver i t incident = w ∨
      w.deliver i t incident = w.putTask i { t with activity := .crashed .call } := by
    intro incident hnone
    unfold answer? at hnone
    unfold deliver
    split
    · exact .inr rfl
    · rename_i hcrash
      rw [if_neg hcrash, Option.map_eq_none_iff] at hnone
      left
      rw [hnone]
  obtain ⟨plan, wait, started, stage, activity, deadline, watch⟩ := t
  cases activity with
  | crashed cause => exact .inl rfl
  | calling due incident =>
    rw [← or_assoc]
    left
    cases stage with
    | probing =>
      simp only [hearing?, stepTask] at h ⊢
      split at h
      · simp at h
      · rename_i hcut
        rw [if_neg hcut]
        exact hdeliver incident h
    | _ => exact hdeliver incident h
  | ready =>
    cases stage with
    | finished o => exact .inl rfl
    | waiting watching =>
      left
      simp only [hearing?, stepTask] at h ⊢
      split at h
      · simp at h
      · rename_i hlate
        rw [if_neg hlate]
        cases watch with
        | none => rfl
        | some watch =>
          cases watching with
          | false => rfl
          | true => simp only [Option.map_eq_none_iff.1 h]
    | _ => exact .inr (.inr ⟨_, rfl, rfl⟩)

/-- What `World.stepTask` can change: the task whose turn it is, the cluster and the log. The other
tasks and the clock stay as they are, and calls only take incidents from the script. -/
theorem stepTask_frame (w : World) (i : Nat) (t : Task) :
    w.stepTask i t = w ∨ ∃ (w' : World) (t' : Task), w'.now = w.now ∧ w'.tasks = w.tasks ∧
      (∀ kind, w'.cluster.script kind <:+ w.cluster.script kind) ∧
      w.stepTask i t = w'.putTask i t' := by
  cases hheard : w.hearing? t with
  -- A reply leaves the script as it is.
  | some heard =>
    obtain ⟨c, watch, reply⟩ := heard
    refine .inr ⟨{ w with cluster := c }, _, rfl, rfl, ?_, stepTask_of_hearing hheard⟩
    intro kind
    simp only [hearing_script hheard, List.suffix_refl]
  | none =>
    rcases quiet_cases (i := i) hheard with hsame | hcrash | ⟨call, hactivity, hcall⟩
    · exact .inl hsame
    · exact .inr ⟨w, _, rfl, rfl, fun kind => List.suffix_refl _, hcrash⟩
    -- A call takes the first incident of its kind, if there is one.
    · refine .inr ⟨(w.enter call).1, _, rfl, rfl, ?_, stepTask_of_ready hactivity hcall⟩
      intro kind
      simp only [enter, Cluster.advance]
      split
      · exact List.tail_suffix _
      · exact List.suffix_refl _

/-- A task whose `incident` takes it down crashes on its turn, unless the deadline comes first. -/
theorem stepTask_of_crash {due : Nat} {incident : Incident}
    (hactivity : t.activity = .calling due incident) (hcrash : incident.crash = true)
    (h : w.hearing? t = none) :
    w.stepTask i t = w.putTask i { t with activity := .crashed .call } := by
  have hdeliver : w.deliver i t incident = w.putTask i { t with activity := .crashed .call } := by
    simp [deliver, hcrash]
  rw [← hdeliver]
  cases hs : t.stage with
  | probing =>
    simp only [hearing?, stepTask, hactivity, hs] at h ⊢
    split at h
    · simp at h
    · rename_i hcut
      rw [if_neg hcut]
  | _ => simp only [stepTask, hactivity, hs]

/-- The turn of a task that runs and is due: it makes its call, hears a reply, or is taken down by
its call. -/
theorem turn_cases {due now : Nat} (hruns : t.Runs) (hdue : t.due? w.cluster now = some due)
    (hnow : due ≤ w.now) :
    (∃ call, t.activity = .ready ∧ t.stage.call? t.plan = some call) ∨
      (∃ heard, w.hearing? t = some heard) ∨
      (∃ at' incident, t.activity = .calling at' incident ∧ incident.crash = true ∧
        w.hearing? t = none) := by
  cases hactivity : t.activity with
  | crashed cause => exact absurd hactivity (hruns.uncrashed cause)
  | calling at' incident =>
    right
    by_cases hcrash : incident.crash = true
    · cases w.hearing? t with
      | some heard => exact .inl ⟨heard, rfl⟩
      | none => exact .inr ⟨at', incident, rfl, hcrash, rfl⟩
    · left
      obtain ⟨call, hcall⟩ := Option.isSome_iff_exists.1 (hruns.calls at' incident hactivity)
      -- A stage that waits for an answer has a call, so the cluster answers it.
      have hanswer : ∃ heard, w.answer? t incident = some heard := by
        simp [answer?, hcrash, hcall]
      cases hs : t.stage with
      | probing =>
        simp only [hearing?, hactivity, hs]
        split
        · exact ⟨_, rfl⟩
        · exact hanswer
      | _ => simpa only [hearing?, hactivity, hs] using hanswer
  | ready =>
    cases hs : t.stage with
    | finished o => exact absurd hruns.unfinished (by simp [hs, Stage.outcome?])
    | waiting watching =>
      right; left
      simp only [hearing?, hactivity, hs]
      split
      · exact ⟨_, rfl⟩
      rename_i hlate
      -- Before the deadline a waiting task is due only because its watch has something for it.
      cases watching with
      | false =>
        simp only [Task.due?, hactivity, hs, Option.some.injEq] at hdue
        omega
      | true =>
        simp only [Task.due?, hactivity, hs, Option.some.injEq] at hdue
        split at hdue
        · rename_i at' item hpeek
          obtain ⟨watch, hwatch, hpeek⟩ := Option.bind_eq_some_iff.1 hpeek
          simp [hwatch, hpeek]
        · omega
    | _ => exact .inl ⟨_, rfl, rfl⟩

/-! ## What happens next -/

theorem earliest_mem {entries : List (Nat × Actor)} {e : Nat × Actor}
    (h : earliest entries = some e) : e ∈ entries := by
  induction entries generalizing e with
  | nil => simp [earliest] at h
  -- The first entry is the earliest unless one of the rest comes strictly before it.
  | cons entry rest ih =>
    simp only [earliest] at h
    split at h
    · exact Option.some.inj h ▸ List.mem_cons_self
    · rename_i other hother
      split at h
      · exact Option.some.inj h ▸ List.mem_cons_of_mem _ (ih hother)
      · exact Option.some.inj h ▸ List.mem_cons_self

theorem earliest_isSome {entries : List (Nat × Actor)} (h : entries ≠ []) :
    (earliest entries).isSome := by
  cases entries with
  | nil => exact absurd rfl h
  | cons entry rest =>
    simp only [earliest]
    split
    · rfl
    · split <;> rfl

/-- No entry comes before the one that `earliest` picks. -/
theorem earliest_le {entries : List (Nat × Actor)} {e : Nat × Actor}
    (h : earliest entries = some e) : ∀ other ∈ entries, e.1 ≤ other.1 := by
  induction entries generalizing e with
  | nil => simp [earliest] at h
  | cons entry rest ih =>
    rw [List.forall_mem_cons]
    simp only [earliest] at h
    split at h
    -- There is no rest.
    · rename_i hnone
      obtain rfl := Option.some.inj h
      refine ⟨Nat.le_refl _, fun other hother => ?_⟩
      have := earliest_isSome (List.ne_nil_of_mem hother)
      simp [hnone] at this
    -- The earliest of the rest comes before the first entry, or does not.
    · rename_i first hfirst
      split at h
      · rename_i hlt
        obtain rfl := Option.some.inj h
        exact ⟨Nat.le_of_lt hlt, ih hfirst⟩
      · rename_i hle
        obtain rfl := Option.some.inj h
        exact ⟨Nat.le_refl _, fun other hother =>
          Nat.le_trans (Nat.le_of_not_lt hle) (ih hfirst other hother)⟩

/-- What stands for an actor in `World.agenda`: a task that is due, or a removal, with its time. -/
def Entry (w : World) (time : Nat) : Actor → Prop
  | .task j => ∃ t due, w.tasks[j]? = some t ∧ t.due? w.cluster w.now = some due ∧
      time = max w.now due
  | .removal j => ∃ r, w.cluster.removals[j]? = some r ∧ time = max w.now r.due

private theorem entry_of_taskEntry {j : Nat} {e : Nat × Actor} (h : w.taskEntry j = some e) :
    e.2 = .task j ∧ w.Entry e.1 (.task j) := by
  obtain ⟨due, hdue, rfl⟩ := Option.map_eq_some_iff.1 h
  obtain ⟨t, ht, hdue⟩ := Option.bind_eq_some_iff.1 hdue
  exact ⟨rfl, t, due, ht, hdue, rfl⟩

/-- What `World.next?` gives stands in the agenda. -/
theorem next?_entry {time : Nat} {actor : Actor} (h : w.next? = some (time, actor)) :
    w.Entry time actor := by
  have hmem := earliest_mem h
  unfold agenda at hmem
  -- The agenda lists the task that had the last turn, then the removals, then all tasks.
  rcases List.mem_append.1 hmem with hmem | hmem
  · rcases List.mem_append.1 hmem with hmem | hmem
    · obtain ⟨j, -, hentry⟩ := Option.bind_eq_some_iff.1 (Option.mem_toList.1 hmem)
      obtain ⟨rfl, hentry⟩ := entry_of_taskEntry hentry
      exact hentry
    · rw [List.mem_mapIdx] at hmem
      obtain ⟨j, hj, heq⟩ := hmem
      simp only [Prod.mk.injEq] at heq
      obtain ⟨rfl, rfl⟩ := heq
      exact ⟨_, List.getElem?_eq_getElem hj, rfl⟩
  · obtain ⟨j, -, hentry⟩ := List.mem_filterMap.1 hmem
    obtain ⟨rfl, hentry⟩ := entry_of_taskEntry hentry
    exact hentry

/-- `World.tick` on what happens next is the removal of a Pod, or the turn of a task that is due. -/
theorem tick_cases {time : Nat} {actor : Actor} (h : w.next? = some (time, actor)) :
    (∃ j r, actor = .removal j ∧ w.cluster.removals[j]? = some r ∧
      w.tick time actor = ({ w with now := time } : World).stepRemoval j r) ∨
    ∃ j t due, actor = .task j ∧ w.tasks[j]? = some t ∧ t.due? w.cluster w.now = some due ∧
      due ≤ time ∧ w.tick time actor = ({ w with now := time } : World).stepTask j t := by
  have hentry := next?_entry h
  cases actor with
  | removal j =>
    obtain ⟨r, hr, -⟩ := hentry
    exact .inl ⟨j, r, rfl, hr, by simp only [tick, hr]⟩
  | task j =>
    obtain ⟨t, due, ht, hdue, htime⟩ := hentry
    exact .inr ⟨j, t, due, rfl, ht, hdue, htime ▸ Nat.le_max_right _ _, by simp only [tick, ht]⟩

/-- A task that is due stands in `World.agenda`. -/
theorem mem_agenda_of_taskEntry {j : Nat} {e : Nat × Actor} (h : w.taskEntry j = some e) :
    e ∈ w.agenda := by
  have hlt : j < w.tasks.length := by
    obtain ⟨due, hdue, -⟩ := Option.map_eq_some_iff.1 h
    obtain ⟨t, ht, -⟩ := Option.bind_eq_some_iff.1 hdue
    exact (List.getElem?_eq_some_iff.1 ht).1
  unfold agenda
  exact List.mem_append_right _ (List.mem_filterMap.2 ⟨j, List.mem_range.2 hlt, h⟩)

/-- A removal that is on its way stands in `World.agenda`. -/
theorem mem_agenda_of_removal {j : Nat} {r : Removal} (hr : w.cluster.removals[j]? = some r) :
    (max w.now r.due, .removal j) ∈ w.agenda := by
  obtain ⟨hj, rfl⟩ := List.getElem?_eq_some_iff.1 hr
  unfold agenda
  exact List.mem_append_left _ (List.mem_append_right _ (List.mem_mapIdx.2 ⟨j, hj, rfl⟩))

/-- `World.next?` gives something as long as a task is due at some time. -/
theorem next?_isSome_of_due {due : Nat} (ht : w.tasks[i]? = some t)
    (hdue : t.due? w.cluster w.now = some due) : w.next?.isSome := by
  have hentry : w.taskEntry i = some (max w.now due, .task i) := by
    simp [taskEntry, ht, hdue]
  exact earliest_isSome (List.ne_nil_of_mem (mem_agenda_of_taskEntry hentry))

/-- `World.next?` gives something as long as a task runs. -/
theorem next?_isSome_of_runs (ht : w.tasks[i]? = some t) (hruns : t.Runs) :
    w.next?.isSome := by
  obtain ⟨due, hdue⟩ := Option.isSome_iff_exists.1 (Task.due?_isSome_of_runs hruns w.cluster w.now)
  exact next?_isSome_of_due ht hdue

/-- `w.OthersAtRest i` says that every task but number `i` is at rest. -/
def OthersAtRest (w : World) (i : Nat) : Prop :=
  ∀ j t, j ≠ i → w.tasks[j]? = some t → t.AtRest

/-- With `OthersAtRest`, a task that is due is number `i`. -/
theorem OthersAtRest.eq_of_due {j due now : Nat} {u : Task} (h : w.OthersAtRest i)
    (hu : w.tasks[j]? = some u) (hdue : u.due? w.cluster now = some due) : j = i := by
  rcases Decidable.em (j = i) with heq | hne
  · exact heq
  · rw [Task.due?_of_atRest (h j u hne hu)] at hdue
    simp at hdue

/-- A change of task `i` keeps `OthersAtRest`. -/
theorem OthersAtRest.putTask (h : w.OthersAtRest i) (t : Task) :
    (w.putTask i t).OthersAtRest i := by
  intro j u hne hu
  rw [putTask_tasks, List.getElem?_set_ne (Ne.symm hne)] at hu
  exact h j u hne hu

/-- Tasks at rest are `OthersAtRest` beside a task that `World.spawn` starts. -/
theorem othersAtRest_spawn (h : ∀ t ∈ w.tasks, t.AtRest) (p : Plan) (wait : Nat) :
    (w.spawn p wait).1.OthersAtRest (w.spawn p wait).2 := by
  intro j t hne hj
  simp only [spawn, List.getElem?_append, List.getElem?_singleton] at hne hj
  split at hj
  · exact h t (List.mem_of_getElem? hj)
  · split at hj
    · omega
    · simp at hj

/-- `World.run` leaves a world as it is when no tick of it is wanted. -/
theorem run_of_unwanted {wanted : World → Nat → Bool} (h : ∀ time, wanted w time = false)
    (n : Nat) : run wanted n w = w := by
  cases n with
  | zero => rfl
  | succ n =>
    simp only [run, h]
    cases w.next? <;> rfl

/-! ## The exchanges of a run -/

/-- The exchange that the turn of `t` completes, if it hears the reply to a call. -/
def turnExchange? (w : World) (t : Task) : Option Exchange :=
  (w.hearing? t).bind fun heard => t.stage.exchange? t.plan heard.2.2

/-- The exchange that `World.tick` completes, if any. -/
def exchange? (w : World) (time : Nat) : Actor → Option Exchange
  | .removal _ => none
  | .task i => w.tasks[i]?.bind { w with now := time }.turnExchange?

/-- The exchanges that `World.run` completes, with the times of the replies. -/
def exchanges (wanted : World → Nat → Bool) : Nat → World → List (Nat × Exchange)
  | 0, _ => []
  | n + 1, w =>
    match w.next? with
    | some (time, actor) =>
      if wanted w time then
        ((w.exchange? time actor).map (time, ·)).toList ++ exchanges wanted n (w.tick time actor)
      else []
    | none => []

end World

end PodDesk
