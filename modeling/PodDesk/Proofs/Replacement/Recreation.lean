import PodDesk.Proofs.Replacement.Clock
import PodDesk.Proofs.Replacement.Protocol

/-!
# A deleted Pod is created again

A replacement that has deleted the old Pod owes a new one. It keeps that promise by the deadline of
its wait, whatever the watch and the lookups say and whatever other replacements do, as long as the
clock can show the deadline. When it cannot, the replacement is taken down right after the deletion
and nothing is created.

## Main statements

- `Task.Kept.hear`, `Task.Kept.enter`: every turn of a replacement keeps the promise
- `World.Promises.tick`: so does everything else that happens in the world
- `World.creation_after_deletion`: what comes of an accepted deletion
- `World.deeds_sublist_log`: the calls among the deeds of a task are in the log, with their times
-/

namespace PodDesk

/-- What a task does on its turn: it makes a call, or it hears the reply to its call. -/
inductive Deed where
  | asks (call : Call)
  | hears (exchange : Exchange)

namespace Deed

/-- Whether a deed tells of a deletion that was accepted. -/
def deletes : Deed → Bool
  | hears ⟨.delete _ _, .done (.ok _)⟩ => true
  | _ => false

/-- Whether a deed asks for a creation, dry runs apart. -/
def creates : Deed → Bool
  | asks (.create _ _) => true
  | _ => false

/-- The call that a deed makes, if any. -/
def call? : Deed → Option Call
  | asks call => some call
  | hears _ => none

end Deed

/-- The times at which deletions were accepted among the deeds `ds`. -/
def deletions (ds : List (Nat × Deed)) : List Nat :=
  (ds.filter (·.2.deletes)).map (·.1)

/-- The creations that were asked for among the deeds `ds`. -/
def creations (ds : List (Nat × Deed)) : List (Nat × Deed) :=
  ds.filter (·.2.creates)

namespace Stage

/-- The stages before a deletion. -/
def Opens : Stage → Prop
  | lookup => True
  | dryRun _ => True
  | watch _ => True
  | delete _ => True
  | _ => False

/-- The stages in which a new Pod is owed. -/
def Owes : Stage → Prop
  | waiting _ => True
  | probing => True
  | recreate _ => True
  | _ => False

/-- The stages in which nothing was deleted and nothing will be. -/
def IsDirect (s : Stage) : Prop :=
  s = .create ∨ s.outcome?.isSome

variable {p : Plan} {s : Stage} {reply : Reply}

/-- `Stage.next` before the deletion leads on, or to a stage without one. -/
theorem next_of_opens (h : s.Opens) (hdelete : ∀ watching, s ≠ .delete watching)
    (hears : s.Hears reply) : (s.next p reply).Opens ∨ (s.next p reply).IsDirect := by
  cases s <;> simp only [Opens] at h <;>
    rcases reply with (_ | (_ | _)) | (_ | ⟨⟩) | _ | _ <;>
    first
    | exact hears.elim
    | exact absurd rfl (hdelete _)
    | exact .inl trivial
    | exact .inr (.inl rfl)
    | exact .inr (.inr rfl)

/-- `Stage.next` with the answer to a creation finishes a replacement. -/
theorem next_of_create (h : s.IsDirect) (hears : s.Hears reply) :
    (s.next p reply).outcome?.isSome := by
  rcases h with rfl | hfinished
  · rcases reply with _ | (_ | ⟨⟩) | _ | _ <;> first | exact hears.elim | rfl
  · cases s <;> simp only [outcome?, Option.isSome_none, Bool.false_eq_true] at hfinished
    exact hears.elim

theorem next_of_recreate {signal : Signal} (hears : (recreate signal).Hears reply) :
    ((recreate signal).next p reply).outcome?.isSome := by
  rcases reply with _ | (_ | ⟨⟩) | _ | _ <;> first | exact hears.elim | rfl

/-- `Stage.next` during the wait leads to a stage in which the new Pod is still owed. -/
theorem next_of_owes (h : s.Owes) (hrecreate : ∀ signal, s ≠ .recreate signal)
    (hears : s.Hears reply) : (s.next p reply).Owes := by
  have hitem : ∀ item, (onItem p item).Owes := by
    intro item
    unfold onItem
    repeat' split
    all_goals trivial
  cases s with
  | waiting watching =>
    cases watching <;> cases reply <;> first | exact hears.elim | exact hitem _ | trivial
  | probing => rcases reply with (_ | (_ | _)) | _ | _ | _ <;> first | exact hears.elim | trivial
  | recreate signal => exact absurd rfl (hrecreate signal)
  | _ => exact h.elim

end Stage

namespace Task

/-- A task `Owes` a Pod and has time for it when it waits, looks the old Pod up, or is about to make
the creation. -/
def Owes (t : Task) : Prop :=
  t.stage.Owes ∧ (t.activity = .ready ∨
    (t.stage = .probing ∧ ∃ due incident, t.activity = .calling due incident))

/-- `t.Kept now ds` is what the deeds `ds` of task `t` so far say about its promise to create a Pod
after a deletion. -/
inductive Kept (now : Nat) (ds : List (Nat × Deed)) (t : Task) : Prop where
  /-- Nothing was deleted or created yet. -/
  | opens (hstage : t.stage.Opens) (hdeletions : deletions ds = []) (hcreations : creations ds = [])
  /-- Nothing was deleted, and nothing will be. -/
  | direct (hstage : t.stage.IsDirect) (hdeletions : deletions ds = [])
  /-- The old Pod was deleted, and there is time to create the new one. -/
  | owes {since : Nat} (howes : t.Owes) (hdeletions : deletions ds = [since])
      (hcreations : creations ds = []) (hdeadline : t.deadline = since + t.wait)
      (hrepresentable : since + t.wait < endOfTime) (hsince : since ≤ now)
      (hnow : now ≤ since + t.wait)
  /-- The new Pod was asked for in time. -/
  | pays {since paid : Nat}
      (hstage : t.stage.outcome?.isSome ∨
        ∃ signal due incident, t.stage = .recreate signal ∧ t.activity = .calling due incident)
      (hdeletions : deletions ds = [since])
      (hcreations : creations ds = [(paid, .asks (.create t.plan.key.ns t.plan.pod))])
      (hrepresentable : since + t.wait < endOfTime) (hsince : since ≤ paid)
      (hpaid : paid ≤ since + t.wait)
  /-- The deadline could not be shown. -/
  | fails {since : Nat} (hcrashed : t.activity = .crashed .deadline)
      (hdeletions : deletions ds = [since]) (hcreations : creations ds = [])
      (hbeyond : endOfTime ≤ since + t.wait)

end Task

section Lists

variable (ds : List (Nat × Deed)) (now : Nat)

theorem deletions_append_asks (call : Call) :
    deletions (ds ++ [(now, .asks call)]) = deletions ds := by
  simp [deletions, Deed.deletes]

theorem deletions_append_hears (call : Call) (reply : Reply)
    (h : (Deed.hears ⟨call, reply⟩).deletes = false) :
    deletions (ds ++ [(now, .hears ⟨call, reply⟩)]) = deletions ds := by
  simp [deletions, h]

theorem creations_append_asks (call : Call) (h : (Deed.asks call).creates = false) :
    creations (ds ++ [(now, .asks call)]) = creations ds := by
  simp [creations, h]

theorem creations_append_hears (exchange : Exchange) :
    creations (ds ++ [(now, .hears exchange)]) = creations ds := by
  simp [creations, Deed.creates]

end Lists

namespace Task

variable {t : Task} {now : Nat} {ds : List (Nat × Deed)} {w : World}

/-! ## A turn keeps the promise -/

/-- A call that is made keeps the promise, and makes good on it when it is the creation. -/
theorem Kept.enter {call : Call} (h : t.Kept now ds) (hactivity : t.activity = .ready)
    (hcall : t.stage.call? t.plan = some call) (due : Nat) (incident : Incident) :
    Kept now (ds ++ [(now, .asks call)]) { t with activity := .calling due incident } := by
  have hdeletions := deletions_append_asks ds now call
  have hunfinished : ¬ t.stage.outcome?.isSome := by
    cases hs : t.stage <;> simp [hs, Stage.call?] at hcall <;> simp [Stage.outcome?]
  cases h with
  -- Nothing that is asked before the deletion is a creation.
  | opens hstage hnone hempty =>
    have hcreates : (Deed.asks call).creates = false := by
      cases hs : t.stage <;> simp only [hs, Stage.Opens] at hstage <;>
        simp only [hs, Stage.call?, Option.some.injEq] at hcall <;> subst hcall <;> rfl
    exact .opens hstage (hdeletions.trans hnone)
      ((creations_append_asks ds now call hcreates).trans hempty)
  | direct hstage hnone =>
    exact .direct hstage (hdeletions.trans hnone)
  | @owes since howes hsome hempty hdeadline hrepresentable hsince hnow =>
    cases hs : t.stage with
    | waiting watching => simp [hs, Stage.call?] at hcall
    | probing =>
      simp only [hs, Stage.call?, Option.some.injEq] at hcall
      subst hcall
      exact .owes ⟨trivial, .inr ⟨rfl, due, incident, rfl⟩⟩ (hdeletions.trans hsome)
        ((creations_append_asks ds now _ rfl).trans hempty) hdeadline hrepresentable hsince hnow
    | recreate signal =>
      -- This is the creation that is owed, and it is not too late.
      simp only [hs, Stage.call?, Option.some.injEq] at hcall
      subst hcall
      refine .pays (.inr ⟨signal, due, incident, rfl, rfl⟩) (hdeletions.trans hsome) ?_
        hrepresentable hsince hnow
      rw [creations, List.filter_append, ← creations, hempty]
      rfl
    | _ => exact absurd howes.1 (by simp [hs, Stage.Owes])
  -- A task that has asked for the Pod is over, or waits for the answer: it makes no call.
  | pays hstage =>
    rcases hstage with hstage | ⟨signal, due, incident, -, hcalling⟩
    · exact absurd hstage hunfinished
    · simp [hactivity] at hcalling
  | fails hcrashed => simp [hactivity] at hcrashed

/-- The answer to a deletion keeps the promise: if it was accepted, there is time to create the Pod
when the clock can show the deadline. -/
private theorem Kept.hear_delete {watch : Option Nat} {watching : Bool} {reply : Reply}
    (h : t.Kept now ds) (huncrashed : ∀ cause, t.activity ≠ .crashed cause)
    (hs : t.stage = .delete watching) (hears : t.stage.Hears reply) :
    Kept now (ds ++ ((t.stage.exchange? t.plan reply).map fun x => (now, .hears x)).toList)
      (({ t with watch } : Task).hear now reply) := by
  have hcreations := creations_append_hears ds now
    ⟨.delete t.plan.key (.background t.plan.grace), reply⟩
  simp only [hs, Stage.exchange?, Stage.call?, Option.map_some, Option.toList_some] at hears ⊢
  cases h with
  | opens hstage hnone hempty =>
    rcases reply with _ | (e | ⟨⟩) | _ | _ <;> try exact hears.elim
    -- The deletion was refused.
    · exact .direct (.inr (by simp [Task.hear, Stage.next, Stage.outcome?]))
        ((deletions_append_hears ds now _ _ rfl).trans hnone)
    -- It was accepted, and this is the moment from which the wait is counted.
    · have hsome : deletions (ds ++ [(now, .hears (t.plan.deletion (.ok ())))]) = [now] := by
        rw [deletions, List.filter_append, List.map_append, ← deletions, hnone]
        rfl
      by_cases hdeadline : now + t.wait < endOfTime
      · refine .owes ⟨?_, .inl ?_⟩ hsome (hcreations.trans hempty) ?_ ?_ (Nat.le_refl _)
          (Nat.le_add_right _ _) <;> simp [Task.hear, Stage.next, Stage.Owes, hdeadline]
      · refine .fails ?_ hsome (hcreations.trans hempty) ?_ <;>
          simp [Task.hear, Stage.next, hdeadline]
        omega
  | direct hstage => simp [hs, Stage.IsDirect, Stage.outcome?] at hstage
  | owes howes => simp [hs, Task.Owes, Stage.Owes] at howes
  | pays hstage => simp [hs, Stage.outcome?] at hstage
  | fails hcrashed => exact absurd hcrashed (huncrashed _)

/-- `Task.hear` outside of a deletion changes the stage alone. -/
theorem hear_of_ne_delete (t : Task) (h : ∀ watching, t.stage ≠ .delete watching) (now : Nat)
    (reply : Reply) :
    t.hear now reply = { t with stage := t.stage.next t.plan reply, activity := .ready } := by
  unfold hear
  dsimp only
  split
  · rename_i watching _ hstage _
    exact absurd hstage (h watching)
  · rfl

/-- Outside of a deletion the exchange of a reply tells of none. -/
private theorem deletions_append_exchange (now : Nat) (ds : List (Nat × Deed))
    (h : ∀ watching, t.stage ≠ .delete watching) (reply : Reply) :
    deletions (ds ++ ((t.stage.exchange? t.plan reply).map fun x => (now, .hears x)).toList) =
      deletions ds := by
  cases hs : t.stage <;> simp only [Stage.exchange?, Stage.call?, Option.map_some, Option.map_none,
    Option.toList_some, Option.toList_none, List.append_nil]
  case delete watching => exact absurd hs (h watching)
  all_goals exact deletions_append_hears ds now _ reply rfl

private theorem creations_append_exchange (t : Task) (now : Nat) (ds : List (Nat × Deed))
    (reply : Reply) :
    creations (ds ++ ((t.stage.exchange? t.plan reply).map fun x => (now, .hears x)).toList) =
      creations ds := by
  cases t.stage.exchange? t.plan reply with
  | none => simp
  | some x => exact creations_append_hears ds now x

/-- A reply that a task hears keeps the promise. -/
theorem Kept.hear {watch : Option Nat} {reply : Reply} (h : t.Kept now ds)
    (hready : ∀ signal, t.stage = .recreate signal → t.activity ≠ .ready)
    (huncrashed : ∀ cause, t.activity ≠ .crashed cause) (hears : t.stage.Hears reply) :
    Kept now (ds ++ ((t.stage.exchange? t.plan reply).map fun x => (now, .hears x)).toList)
      (({ t with watch } : Task).hear now reply) := by
  have hcreations := creations_append_exchange t now ds reply
  by_cases hs : ∃ watching, t.stage = .delete watching
  · obtain ⟨watching, hs⟩ := hs
    exact h.hear_delete huncrashed hs hears
  have hdelete : ∀ watching, t.stage ≠ .delete watching := fun watching h => hs ⟨watching, h⟩
  have hdeletions := deletions_append_exchange now ds hdelete reply
  rw [hear_of_ne_delete { t with watch } hdelete]
  cases h with
  | opens hstage hnone hempty =>
    rcases Stage.next_of_opens (p := t.plan) hstage hdelete hears with hnext | hnext
    · exact .opens hnext (hdeletions.trans hnone) (hcreations.trans hempty)
    · exact .direct hnext (hdeletions.trans hnone)
  | direct hstage hnone =>
    exact .direct (.inr (Stage.next_of_create hstage hears)) (hdeletions.trans hnone)
  | @owes since howes hsome hempty hdeadline hrepresentable hsince hnow =>
    -- The creation that is owed is not answered before it was asked for.
    have hrecreate : ∀ signal, t.stage ≠ .recreate signal := by
      intro signal hs
      rcases howes.2 with hactivity | ⟨hprobing, -⟩
      · exact hready signal hs hactivity
      · simp [hs] at hprobing
    exact .owes ⟨Stage.next_of_owes howes.1 hrecreate hears, .inl rfl⟩ (hdeletions.trans hsome)
      (hcreations.trans hempty) hdeadline hrepresentable hsince hnow
  | pays hstage hsome hone hrepresentable hsince hpaid =>
    refine .pays (.inl ?_) (hdeletions.trans hsome) (hcreations.trans hone) hrepresentable hsince
      hpaid
    rcases hstage with hfinished | ⟨signal, due, incident, hs, -⟩
    · exact Stage.next_of_create (.inr hfinished) hears
    · rw [hs] at hears
      simpa only [hs] using Stage.next_of_recreate (p := t.plan) hears
  | fails hcrashed => exact absurd hcrashed (huncrashed _)

/-- `Kept` goes on while time passes up to the deadline. -/
theorem Kept.later {time : Nat} (h : t.Kept now ds) (hle : now ≤ time)
    (hdeadline : t.Owes → time ≤ t.deadline) : t.Kept time ds := by
  cases h with
  | opens hstage hnone hempty => exact .opens hstage hnone hempty
  | direct hstage hnone => exact .direct hstage hnone
  | owes howes hsome hempty hdue hrepresentable hsince hnow =>
    exact .owes howes hsome hempty hdue hrepresentable (Nat.le_trans hsince hle)
      (hdue ▸ hdeadline howes)
  | pays hstage hsome hone hrepresentable hsince hpaid =>
    exact .pays hstage hsome hone hrepresentable hsince hpaid
  | fails hcrashed hsome hempty hbeyond => exact .fails hcrashed hsome hempty hbeyond

theorem Owes.unfinished (h : t.Owes) : t.stage.outcome? = none := by
  have hstage := h.1
  cases hs : t.stage <;> simp [hs, Stage.Owes] at hstage <;> rfl

/-- With `Kept`, the deadline of a task that owes a Pod is not over. -/
theorem Kept.now_le_deadline (h : t.Kept now ds) (howes : t.Owes) : now ≤ t.deadline := by
  have hunfinished := howes.unfinished
  obtain ⟨hstage, hactivity⟩ := howes
  -- In the other cases the task owes nothing.
  cases h with
  | owes _ _ _ hdeadline _ _ hnow => exact hdeadline ▸ hnow
  | opens hopens => cases hs : t.stage <;> simp [hs, Stage.Opens, Stage.Owes] at hopens hstage
  | direct hdirect =>
    rcases hdirect with hs | hfinished
    · simp [hs, Stage.Owes] at hstage
    · simp [hunfinished] at hfinished
  | pays hpays =>
    rcases hpays with hfinished | ⟨signal, _, _, hs, hcalling⟩
    · simp [hunfinished] at hfinished
    · simp [hs, hcalling] at hactivity
  | fails hcrashed => simp [hcrashed] at hactivity

/-- A task that `Owes` a Pod acts by its deadline. -/
theorem Owes.due? {c : Cluster} {due : Nat} (h : t.Owes) (hnow : now ≤ t.deadline)
    (hdue : t.due? c now = some due) : due ≤ t.deadline := by
  obtain ⟨hstage, hactivity | ⟨hs, _, _, hactivity⟩⟩ := h
  -- It waits, or is about to make a call: then it is due at once.
  · cases hs : t.stage with
    | waiting watching =>
      cases watching
      · simp only [Task.due?, hactivity, hs, Option.some.injEq] at hdue
        exact Nat.le_of_eq hdue.symm
      · simp only [Task.due?, hactivity, hs, Option.some.injEq] at hdue
        split at hdue
        · exact hdue ▸ Nat.min_le_right _ _
        · exact Nat.le_of_eq hdue.symm
    | probing =>
      simp only [Task.due?, hactivity, hs, Option.some.injEq] at hdue
      exact hdue ▸ hnow
    | recreate signal =>
      simp only [Task.due?, hactivity, hs, Option.some.injEq] at hdue
      exact hdue ▸ hnow
    | _ => simp [hs, Stage.Owes] at hstage
  -- It waits for the answer to a lookup, which the deadline cuts off.
  · simp only [Task.due?, hactivity, hs, Option.some.injEq] at hdue
    exact hdue ▸ Nat.min_le_right _ _

end Task

namespace World

variable {w : World} {i : Nat} {t : Task} {ds : List (Nat × Deed)}

/-! ## The deeds of a task in a run -/

/-- What `t` does on its turn, if it does anything that others notice. -/
def deed? (w : World) (t : Task) : Option Deed :=
  match w.hearing? t, t.activity with
  | some (_, _, reply), _ => (t.stage.exchange? t.plan reply).map .hears
  | none, .ready => (t.stage.call? t.plan).map .asks
  | none, _ => none

/-- What task `i` does when `World.tick` lets an actor act at `time`. -/
def deedIn? (w : World) (i time : Nat) : Actor → Option Deed
  | .removal _ => none
  | .task j => if j = i then w.tasks[i]?.bind { w with now := time }.deed? else none

/-- What task `i` does in `World.run`, with the times. -/
def deeds (i : Nat) (wanted : World → Nat → Bool) : Nat → World → List (Nat × Deed)
  | 0, _ => []
  | n + 1, w =>
    match w.next? with
    | some (time, actor) =>
      if wanted w time then
        ((w.deedIn? i time actor).map (time, ·)).toList ++
          deeds i wanted n (w.tick time actor)
      else []
    | none => []

/-- The cases of `World.deed?`: on its turn a task hears a reply, or it makes its call, or nobody
notices anything; then nothing happens, or its call takes it down. -/
theorem deed_cases (w : World) (i : Nat) (t : Task) :
    (∃ c watch reply, w.hearing? t = some (c, watch, reply) ∧
      w.deed? t = (t.stage.exchange? t.plan reply).map .hears) ∨
    (∃ call, t.activity = .ready ∧ t.stage.call? t.plan = some call ∧
      w.deed? t = some (.asks call)) ∨
    ((t.activity = .ready → t.stage.call? t.plan = none) ∧ w.deed? t = none ∧
      (w.stepTask i t = w ∨
        w.stepTask i t = w.putTask i { t with activity := .crashed .call })) := by
  cases hheard : w.hearing? t with
  | some heard => exact .inl ⟨_, _, _, rfl, by simp [deed?, hheard]⟩
  | none =>
    right
    by_cases hcalls : t.activity = .ready ∧ (t.stage.call? t.plan).isSome
    · obtain ⟨hactivity, hcall⟩ := hcalls
      obtain ⟨call, hcall⟩ := Option.isSome_iff_exists.1 hcall
      exact .inl ⟨call, hactivity, hcall, by simp [deed?, hheard, hactivity, hcall]⟩
    -- A task with nothing to hear and no call to make does nothing.
    · have hidle : t.activity = .ready → t.stage.call? t.plan = none := by
        simpa using hcalls
      refine .inr ⟨hidle, ?_, ?_⟩
      · cases hactivity : t.activity <;> simp [deed?, hheard, hactivity]
        exact hidle hactivity
      · rcases quiet_cases (i := i) hheard with hsame | hcrash | ⟨call, hactivity, hcall⟩
        · exact .inl hsame
        · exact .inr hcrash
        · simp [hidle hactivity] at hcall

/-- `w.Promises i t ds` is what is known about task `t` with the deeds `ds` while it keeps its
promise: no call takes it down. -/
structure Promises (w : World) (i : Nat) (t : Task) (ds : List (Nat × Deed)) : Prop where
  task : w.tasks[i]? = some t
  calm : w.cluster.NeverCrashes
  uncrashed : t.activity ≠ .crashed .call
  calls : ∀ due incident, t.activity = .calling due incident →
    (t.stage.call? t.plan).isSome ∧ incident.crash = false
  kept : t.Kept w.now ds

/-- `World.stepTask` of another task changes nothing about a task. -/
theorem getElem?_stepTask_ne {j : Nat} (u : Task) (hne : j ≠ i) :
    (w.stepTask j u).tasks[i]? = w.tasks[i]? := by
  rcases w.stepTask_frame j u with hsame | ⟨w', u', -, htasks, -, hstep⟩
  · rw [hsame]
  · rw [hstep, putTask_tasks, List.getElem?_set_ne hne, htasks]

/-- `World.stepTask` leaves a cluster that never crashes. -/
private theorem neverCrashes_stepTask (h : w.cluster.NeverCrashes) (j : Nat) (u : Task) :
    (w.stepTask j u).cluster.NeverCrashes := by
  rcases w.stepTask_frame j u with hsame | ⟨w', u', -, -, hscript, hstep⟩
  · rwa [hsame]
  · rw [hstep, putTask_cluster]
    exact fun kind incident hmem => h kind incident ((hscript kind).mem hmem)

/-- So does `World.run`. -/
theorem neverCrashes_run (h : w.cluster.NeverCrashes) (wanted : World → Nat → Bool) (n : Nat) :
    (World.run wanted n w).cluster.NeverCrashes := by
  refine run_preserves (P := fun w => w.cluster.NeverCrashes)
    (fun {w time actor} hnext _ h => ?_) n h
  obtain ⟨j, r, -, -, htick⟩ | ⟨j, t, due, -, -, -, -, htick⟩ := tick_cases hnext
  · rw [htick]
    exact h.congr (by simp [stepRemoval])
  · rw [htick]
    exact neverCrashes_stepTask (w := { w with now := time }) h j t

/-- `World.stepTask` keeps the promise of the task. -/
private theorem Promises.turn {due now : Nat} (h : w.Promises i t ds) (hruns : t.Runs)
    (hdue : t.due? w.cluster now = some due) (hle : due ≤ w.now) :
    ∃ u, (w.stepTask i t).Promises i u (ds ++ ((w.deed? t).map (w.now, ·)).toList) ∧
      u.plan = t.plan ∧ u.wait = t.wait := by
  have hlt : i < w.tasks.length := (List.getElem?_eq_some_iff.1 h.task).1
  have hcalm := neverCrashes_stepTask h.calm i t
  rcases turn_cases hruns hdue hle with
    ⟨call, hactivity, hcall⟩ | ⟨⟨c, watch, reply⟩, hheard⟩ | ⟨at', incident, hactivity, hcrash, -⟩
  -- It makes its call.
  · have hquiet : w.hearing? t = none := by
      cases hs : t.stage <;> simp [hs, Stage.call?] at hcall <;> simp [hearing?, hactivity, hs]
    have hdeed : w.deed? t = some (.asks call) := by
      simp [deed?, hquiet, hactivity, hcall]
    rw [stepTask_of_ready hactivity hcall] at hcalm ⊢
    refine ⟨{ t with activity := .calling (w.now + (w.enter call).2.delay) (w.enter call).2 },
      ⟨?_, hcalm, by simp, ?_, ?_⟩, rfl, rfl⟩
    · simp [enter, hlt]
    · intro due incident heq
      obtain ⟨rfl, rfl⟩ := Activity.calling.inj heq
      exact ⟨by simp [hcall], h.calm.incident call.kind⟩
    · rw [hdeed, putTask_now]
      exact h.kept.enter hactivity hcall _ _
  -- It hears a reply.
  · have hdeed : w.deed? t = (t.stage.exchange? t.plan reply).map .hears := by
      simp [deed?, hheard]
    -- A creation is answered only after it was asked for.
    have hready : ∀ signal, t.stage = .recreate signal → t.activity ≠ .ready := by
      intro signal hs hactivity
      simp [hearing?, hactivity, hs] at hheard
    have hnot := Task.hear_not_calling { t with watch } w.now reply
    rw [stepTask_of_hearing hheard] at hcalm ⊢
    refine ⟨({ t with watch } : Task).hear w.now reply,
      ⟨?_, hcalm, ?_, fun due incident heq => absurd heq (hnot due incident), ?_⟩,
      Task.hear_plan _ _ _, Task.hear_wait _ _ _⟩
    · simp [hlt]
    · exact Task.hear_not_crashed_call _ _ _
    · rw [hdeed, putTask_now, Option.map_map]
      exact h.kept.hear hready hruns.uncrashed (hears_of_hearing hheard)
  -- No call takes it down.
  · rw [(h.calls at' incident hactivity).2] at hcrash
    simp at hcrash

/-- A task that keeps its promise and owes a Pod runs. -/
private theorem Promises.runs_of_owes (h : w.Promises i t ds) (howes : t.Owes) : t.Runs := by
  refine ⟨howes.unfinished, fun cause hcrashed => ?_, fun due incident hc => (h.calls _ _ hc).1⟩
  have := howes.2
  simp [hcrashed] at this

/-- While the task owes a Pod, `World.next?` gives no time after its deadline. -/
private theorem Promises.le_deadline {time : Nat} {actor : Actor} (h : w.Promises i t ds)
    (hnext : w.next? = some (time, actor)) (howes : t.Owes) : time ≤ t.deadline := by
  have hruns := h.runs_of_owes howes
  have hnow := h.kept.now_le_deadline howes
  obtain ⟨due, hdue⟩ := Option.isSome_iff_exists.1 (Task.due?_isSome_of_runs hruns w.cluster w.now)
  have hentry : w.taskEntry i = some (max w.now due, .task i) := by
    simp [taskEntry, h.task, hdue]
  calc time ≤ max w.now due := earliest_le hnext _ (mem_agenda_of_taskEntry hentry)
    _ ≤ t.deadline := Nat.max_le.2 ⟨hnow, howes.due? hnow hdue⟩

/-- `World.tick` keeps the promise of the task, whoever acts. -/
theorem Promises.tick {time : Nat} {actor : Actor} (h : w.Promises i t ds)
    (hsound : w.IsSound) (hnext : w.next? = some (time, actor)) :
    ∃ u, (w.tick time actor).Promises i u
        (ds ++ ((w.deedIn? i time actor).map (time, ·)).toList) ∧
      u.plan = t.plan ∧ u.wait = t.wait := by
  have hkept : t.Kept time ds :=
    h.kept.later (now_le_of_next? hnext) (h.le_deadline hnext)
  have hnow : ({ w with now := time } : World).Promises i t ds := { h with kept := hkept }
  obtain ⟨j, r, rfl, -, htick⟩ | ⟨j, u, due, rfl, hu, hdue, hle, htick⟩ := tick_cases hnext
  -- A removal is no deed of the task.
  · simp only [htick, deedIn?, Option.map_none, Option.toList_none, List.append_nil]
    exact ⟨t, { hnow with calm := h.calm.congr (by simp [stepRemoval]) }, rfl, rfl⟩
  · simp only [htick, deedIn?]
    by_cases hj : j = i
    · subst hj
      obtain rfl : t = u := Option.some.inj (h.task.symm.trans hu)
      have hruns := (hsound t (List.mem_of_getElem? hu)).runs_of_due hdue
      rw [if_pos rfl, hu, Option.bind_some]
      exact hnow.turn hruns hdue hle
    -- Neither is the turn of another task.
    · rw [if_neg hj]
      simp only [Option.map_none, Option.toList_none, List.append_nil]
      refine ⟨t, ⟨?_, neverCrashes_stepTask hnow.calm j u, h.uncrashed, h.calls, ?_⟩, rfl, rfl⟩
      · rw [getElem?_stepTask_ne u hj]
        exact h.task
      · rw [stepTask_now]
        exact hkept

/-- What `World.tick` keeps, together with the deeds of a task, `World.run` keeps. -/
theorem deeds_preserves {P : World → List (Nat × Deed) → Prop}
    (hstep : ∀ {w ds time actor}, w.next? = some (time, actor) → P w ds →
      P (w.tick time actor) (ds ++ ((w.deedIn? i time actor).map (time, ·)).toList))
    (wanted : World → Nat → Bool) (n : Nat) (h : P w ds) :
    P (World.run wanted n w) (ds ++ deeds i wanted n w) := by
  -- The deeds of a run are those of its first tick and of the rest.
  induction n generalizing w ds with
  | zero => simpa only [World.run, deeds, List.append_nil] using h
  | succ n ih =>
    have hstop : P w (ds ++ []) := by rwa [List.append_nil]
    cases hnext : w.next? with
    | none => simpa only [World.run, deeds, hnext] using hstop
    | some entry =>
      cases hwanted : wanted w entry.1 with
      | false =>
        simpa only [World.run, deeds, hnext, hwanted, Bool.false_eq_true, if_false] using hstop
      | true =>
        have hrest := ih (hstep hnext h)
        simp only [World.run, deeds, hnext, hwanted, if_true]
        rwa [List.append_assoc] at hrest

/-- `World.run` keeps the promise of a task. -/
theorem Promises.run (h : w.Promises i t ds) (hsound : w.IsSound) (wanted : World → Nat → Bool)
    (n : Nat) :
    ∃ u, (World.run wanted n w).Promises i u (ds ++ deeds i wanted n w) ∧
      u.plan = t.plan ∧ u.wait = t.wait := by
  refine (deeds_preserves (P := fun w ds => w.IsSound ∧
    ∃ u, w.Promises i u ds ∧ u.plan = t.plan ∧ u.wait = t.wait) ?_ wanted n
    ⟨hsound, t, h, rfl, rfl⟩).2
  rintro w ds time actor hnext ⟨hsound, u, hu, hplan, hwait⟩
  obtain ⟨v, hv, hplan', hwait'⟩ := hu.tick hsound hnext
  exact ⟨(hsound.tick hnext).1, v, hv, hplan'.trans hplan, hwait'.trans hwait⟩

/-! ## What comes of a deletion -/

/-- What task `i` does until it is over. -/
def taskDeeds (w : World) (i : Nat) : List (Nat × Deed) :=
  deeds i (fun w _ => ! w.isOver i) w.budget w

theorem mem_deletions {p : Plan} {since : Nat}
    (h : (since, .hears (p.deletion (.ok ()))) ∈ ds) : since ∈ deletions ds :=
  List.mem_map.2 ⟨_, List.mem_filter.2 ⟨h, rfl⟩, rfl⟩

/-- `World.spawn` starts a task that owes nothing. -/
theorem promises_spawn (w : World) (p : Plan) (wait : Nat) (hcalm : w.cluster.NeverCrashes) :
    (w.spawn p wait).1.Promises (w.spawn p wait).2 { plan := p, wait, started := w.now } [] where
  task := by simp [spawn]
  calm := hcalm
  uncrashed := nofun
  calls due incident := nofun
  kept := .opens trivial rfl rfl

theorem runTask_eq_run (w : World) (i : Nat) :
    w.runTask i none = World.run (fun w _ => ! w.isOver i) w.budget w := by
  simp [runTask]

/-- `World.runTask` runs a replacement until it is over, whatever others do. -/
theorem isOver_runTask (hsound : w.IsSound) (i : Nat) : (w.runTask i none).isOver i = true := by
  rw [runTask_eq_run]
  cases hover : (World.run (fun w _ => ! w.isOver i) w.budget w).isOver i with
  | true => rfl
  | false =>
    obtain ⟨t, ht, hopen⟩ : ∃ t,
        (World.run (fun w _ => ! w.isOver i) w.budget w).tasks[i]? = some t ∧ t.isOver = false := by
      unfold isOver at hover
      split at hover
      · rename_i t ht
        exact ⟨t, ht, hover⟩
      · simp at hover
    -- Otherwise the task would still run, and a run ends only when that is not wanted.
    have hruns := (hsound.run _ _ t (List.mem_of_getElem? ht)).runs_of_open hopen
    have := unwanted_of_runs hsound (fun w => ! w.isOver i) (effort_le_budget w) ht hruns
    simp [hover] at this

/-- `World.runTask` goes on from each turn of its task. -/
theorem runTask_tick (hsound : w.IsSound) {i time : Nat} (hnext : w.next? = some (time, .task i)) :
    (w.tick time (.task i)).runTask i none = w.runTask i none := by
  obtain ⟨t, due, ht, hdue, -⟩ := next?_entry hnext
  have hruns := (hsound t (List.mem_of_getElem? ht)).runs_of_due hdue
  rw [runTask_eq_run, runTask_eq_run, run_budget_tick hsound hnext]
  simp [isOver, ht, Task.isOver_eq_false_of_runs hruns]

/-- Once its deletion is accepted, a replacement asks for the new Pod exactly once and by the
deadline of its wait, whatever the cluster answers and whatever others do. Only when the clock
cannot show the deadline, it is taken down and never asks for the Pod. -/
theorem creation_after_deletion (p : Plan) (wait : Nat) (hsound : w.IsSound)
    (hcalm : w.cluster.NeverCrashes) {since : Nat}
    (hdeletion : (since, .hears (p.deletion (.ok ()))) ∈
      (w.spawn p wait).1.taskDeeds (w.spawn p wait).2) :
    let i := (w.spawn p wait).2
    let asked := creations ((w.spawn p wait).1.taskDeeds i)
    (since + wait < endOfTime →
      ∃ paid, asked = [(paid, .asks (.create p.key.ns p.pod))] ∧ since ≤ paid ∧
        paid ≤ since + wait) ∧
    (endOfTime ≤ since + wait →
      asked = [] ∧ ((w.spawn p wait).1.runTask i none).tasks[i]?.bind (·.result?) =
        some (.error .deadline)) := by
  intro i asked
  have hspawned := isSound_spawn w p wait hsound
  obtain ⟨t, ht, hplan, hwait⟩ := (promises_spawn w p wait hcalm).run hspawned
    (fun w _ => ! w.isOver i) (w.spawn p wait).1.budget
  have hover := isOver_runTask hspawned i
  have hmem := mem_deletions hdeletion
  rw [runTask_eq_run] at hover ⊢
  rw [isOver, ht.task] at hover
  have hkept := ht.kept
  rw [List.nil_append] at hkept
  dsimp only at hplan hwait
  -- The promise at the end of the run: in two cases there was no deletion.
  cases hkept with
  | opens _ hnone => exact absurd hmem (by rw [taskDeeds, hnone]; exact List.not_mem_nil)
  | direct _ hnone => exact absurd hmem (by rw [taskDeeds, hnone]; exact List.not_mem_nil)
  | owes howes =>
    -- A task that owes a Pod is not over.
    have hopen := Task.isOver_eq_false_of_runs (ht.runs_of_owes howes)
    simp [hopen] at hover
  | @pays since' paid _ hsome hone hrepresentable hsince hpaid =>
    rw [taskDeeds, hsome, List.mem_singleton] at hmem
    subst hmem
    rw [hwait] at hrepresentable hpaid
    refine ⟨fun _ => ⟨paid, ?_, hsince, hpaid⟩, fun hbeyond => absurd hrepresentable (by omega)⟩
    rw [← hplan]
    exact hone
  | @fails since' hcrashed hsome hempty hbeyond =>
    rw [taskDeeds, hsome, List.mem_singleton] at hmem
    subst hmem
    rw [hwait] at hbeyond
    refine ⟨fun hrepresentable => absurd hrepresentable (by omega), fun _ => ⟨hempty, ?_⟩⟩
    rw [ht.task]
    simp [Task.result?, hcrashed]

/-! ## Deeds and the log -/

/-- The calls among the deeds `ds`, with their times. -/
def callsOf (ds : List (Nat × Deed)) : List (Nat × Call) :=
  ds.filterMap fun d => d.2.call?.map (d.1, ·)

/-- `World.stepTask` logs the call that the task makes in it, with its time. -/
theorem stepTask_log (w : World) (i : Nat) (t : Task) :
    (w.stepTask i t).log = w.log ++ callsOf ((w.deed? t).map (w.now, ·)).toList := by
  obtain ⟨c, watch, reply, hheard, hdeed⟩ | ⟨call, hactivity, hcall, hdeed⟩ | ⟨-, hdeed, hstep⟩ :=
    w.deed_cases i t
  · have hnone : callsOf ((w.deed? t).map (w.now, ·)).toList = [] := by
      rw [hdeed]
      cases t.stage.exchange? t.plan reply <;> rfl
    rw [stepTask_of_hearing hheard, putTask_log, hnone, List.append_nil]
  · rw [stepTask_of_ready hactivity hcall, putTask_log, hdeed]
    rfl
  · have hlog : (w.stepTask i t).log = w.log := by
      rcases hstep with hsame | hcrash
      · rw [hsame]
      · rw [hcrash, putTask_log]
    rw [hlog, hdeed]
    exact (List.append_nil _).symm

/-- `World.tick` leaves the other tasks at rest when they were. -/
theorem othersAtRest_tick {time : Nat} {actor : Actor} (h : w.OthersAtRest i)
    (hnext : w.next? = some (time, actor)) : (w.tick time actor).OthersAtRest i := by
  obtain ⟨j, r, -, -, htick⟩ | ⟨j, u, due, -, hu, hdue, -, htick⟩ := tick_cases hnext
  · rw [htick]
    exact h
  · obtain rfl : j = i := h.eq_of_due hu hdue
    rw [htick]
    intro k t hne ht
    rw [getElem?_stepTask_ne (w := { w with now := time }) u hne.symm] at ht
    exact h k t hne ht

/-- `World.run` does nothing but removals when every task is at rest. -/
theorem run_of_rest (hrest : ∀ t ∈ w.tasks, t.AtRest) (wanted : World → Nat → Bool) (n : Nat) :
    (World.run wanted n w).tasks = w.tasks ∧ (World.run wanted n w).log = w.log := by
  refine run_preserves (P := fun w' => w'.tasks = w.tasks ∧ w'.log = w.log)
    (fun {w' time actor} hnext _ hsame => ?_) n ⟨rfl, rfl⟩
  obtain ⟨j, r, -, -, htick⟩ | ⟨j, u, due, -, hu, hdue, -, htick⟩ := tick_cases hnext
  · rw [htick]
    exact hsame
  · rw [hsame.1] at hu
    simp [Task.due?_of_atRest (hrest u (List.mem_of_getElem? hu))] at hdue

/-- `World.tick` logs the call that task `i` makes in it, with its time, and no other call if the
other tasks are at rest. -/
private theorem tick_log {time : Nat} {actor : Actor} (hnext : w.next? = some (time, actor)) :
    ∃ logged, (w.tick time actor).log = w.log ++ logged ∧
      (callsOf ((w.deedIn? i time actor).map (time, ·)).toList).Sublist logged ∧
      (w.OthersAtRest i → logged = callsOf ((w.deedIn? i time actor).map (time, ·)).toList) := by
  obtain ⟨j, r, rfl, -, htick⟩ | ⟨j, u, due, rfl, hu, hdue, -, htick⟩ := tick_cases hnext
  · rw [htick]
    exact ⟨[], (List.append_nil _).symm, List.Sublist.refl _, fun _ => rfl⟩
  · simp only [htick, deedIn?]
    refine ⟨_, stepTask_log { w with now := time } j u, ?_⟩
    by_cases hj : j = i
    · rw [if_pos hj, ← hj, hu]
      exact ⟨List.Sublist.refl _, fun _ => rfl⟩
    · rw [if_neg hj]
      exact ⟨List.nil_sublist _, fun hrest => absurd (hrest.eq_of_due hu hdue) hj⟩

/-- `World.run` logs the calls of task `i`, with their times, and no others if the other tasks are
at rest. -/
theorem deeds_sublist_log (i : Nat) (wanted : World → Nat → Bool) (n : Nat) (w : World) :
    ∃ logged, (run wanted n w).log = w.log ++ logged ∧
      (callsOf (deeds i wanted n w)).Sublist logged ∧
      (w.OthersAtRest i → logged = callsOf (deeds i wanted n w)) := by
  have hstop : ∀ w : World, ∃ logged, w.log = w.log ++ logged ∧ (callsOf []).Sublist logged ∧
      (w.OthersAtRest i → logged = callsOf []) :=
    fun w => ⟨[], (List.append_nil _).symm, List.Sublist.refl _, fun _ => rfl⟩
  induction n generalizing w with
  | zero => exact hstop w
  | succ n ih =>
    cases hnext : w.next? with
    | none => simpa only [World.run, deeds, hnext] using hstop w
    | some entry =>
      cases hwanted : wanted w entry.1 with
      | false =>
        simpa only [World.run, deeds, hnext, hwanted, Bool.false_eq_true, if_false] using hstop w
      | true =>
        obtain ⟨first, hfirst, hcall, honly⟩ := tick_log (i := i) hnext
        obtain ⟨rest, hrest, hcalls, honly'⟩ := ih (w.tick entry.1 entry.2)
        simp only [World.run, deeds, hnext, hwanted, if_true]
        refine ⟨first ++ rest, by rw [hrest, hfirst, List.append_assoc], ?_⟩
        rw [callsOf, List.filterMap_append]
        exact ⟨hcall.append hcalls, fun hothers => by
          rw [honly hothers, honly' (othersAtRest_tick hothers hnext)]
          rfl⟩

/-- With `OthersAtRest`, all tasks are at rest once the one that runs is over. -/
theorem atRest_of_isOver (hsound : w.IsSound) (hothers : w.OthersAtRest i)
    (hover : w.isOver i = true) : ∀ t ∈ w.tasks, t.AtRest := by
  intro t ht
  obtain ⟨j, hj⟩ := List.getElem?_of_mem ht
  by_cases hne : j = i
  · refine (hsound t ht).resolve_right fun ⟨hruns, _⟩ => ?_
    simp [isOver, ← hne, hj, Task.isOver_eq_false_of_runs hruns] at hover
  · exact hothers j t hne hj

/-- `World.runTask` logs the calls of the replacement by the time it is over, with their times, and
no others if the other replacements are at rest. -/
theorem log_runTask_spawn (w : World) (p : Plan) (wait : Nat) (hsound : w.IsSound) :
    let start := (w.spawn p wait).1
    let i := (w.spawn p wait).2
    ∃ logged, (start.runTask i none).settle.log = w.log ++ logged ∧
      (callsOf (start.taskDeeds i)).Sublist logged ∧
      ((∀ t ∈ w.tasks, t.AtRest) → logged = callsOf (start.taskDeeds i)) := by
  intro start i
  have hspawned : start.IsSound := isSound_spawn w p wait hsound
  obtain ⟨logged, hlog, hcalls, honly⟩ :=
    deeds_sublist_log i (fun w _ => ! w.isOver i) start.budget start
  rw [← runTask_eq_run] at hlog
  -- Whatever else is due still happens after the replacement, and may log more.
  obtain ⟨more, hmore⟩ : ∃ more, (start.runTask i none).settle.log =
      (start.runTask i none).log ++ more :=
    (deeds_sublist_log i _ _ (start.runTask i none)).imp fun _ h => h.1
  refine ⟨logged ++ more, ?_, hcalls.trans (List.sublist_append_left _ _), fun hrest => ?_⟩
  · rw [hmore, hlog, List.append_assoc]
    rfl
  · have hothers : start.OthersAtRest i := othersAtRest_spawn hrest p wait
    have hran : (start.runTask i none).OthersAtRest i :=
      run_preserves (P := fun w => w.OthersAtRest i) (fun hnext _ h => othersAtRest_tick h hnext)
        _ hothers
    have hquiet : (start.runTask i none).settle.log = (start.runTask i none).log :=
      (run_of_rest (atRest_of_isOver (hspawned.run _ _) hran (isOver_runTask hspawned i)) _ _).2
    rw [hmore] at hquiet
    rw [List.append_right_eq_self.1 hquiet, List.append_nil]
    exact honly hothers

end World

end PodDesk
