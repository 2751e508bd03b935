import PodDesk.Proofs.Replacement.NoLoss
import PodDesk.Proofs.Replacement.Turn

/-!
# Replacements in time are replacements in some order

A world lets its replacements go on when they are due. Seen without the clock that is one of the
orders in which they can go on: a tick of the world is at most one action of the scene that it
shows, so what every play keeps is kept by every run of a world.

## Main statements

- `Scene.Shows.tick`: a tick is one action, or nothing that the scene shows
- `Scene.Shows.run`: a run is a play under the rule of the script
- `World.run_safe`: a world whose calls meet no trouble loses no Pod
-/

namespace PodDesk

namespace Cluster

/-- `c.SamePods c'` says that both clusters store the same Pods and are about to remove the same
ones. Their scripts and their watches may differ. -/
structure SamePods (c c' : Cluster) : Prop where
  pods : c.pods = c'.pods
  created : c.created = c'.created
  removals : c.removals = c'.removals

variable {c c' : Cluster}

/-! ## Calls do not depend on scripts and watches -/

theorem SamePods.remove (h : c.SamePods c') (now : Nat) (key : PodKey) (silent : Bool) :
    (c.remove now key silent).SamePods (c'.remove now key silent) := by
  unfold Cluster.remove
  rw [h.pods]
  cases c'.pods.get? key with
  | none => exact h
  | some pod => cases silent <;> exact ⟨rfl, h.created, h.removals⟩

theorem SamePods.create (h : c.SamePods c') (i : Incident) (ns : String) (pod : Pod) :
    (c.create i ns pod).1.SamePods (c'.create i ns pod).1 ∧
      (c.create i ns pod).2 = (c'.create i ns pod).2 := by
  unfold Cluster.create
  rw [h.pods, h.created]
  cases i.error with
  | some e => exact ⟨h, rfl⟩
  | none =>
    dsimp only
    split
    · exact ⟨h, rfl⟩
    · exact ⟨⟨rfl, rfl, h.removals⟩, rfl⟩

theorem SamePods.delete (h : c.SamePods c') (i : Incident) (now : Nat) (key : PodKey) :
    (c.delete i now key).1.SamePods (c'.delete i now key).1 ∧
      (c.delete i now key).2 = (c'.delete i now key).2 := by
  unfold Cluster.delete
  rw [h.pods, h.removals]
  cases i.error with
  | some e => exact ⟨h, rfl⟩
  | none =>
    dsimp only
    split
    · exact ⟨h, rfl⟩
    · split
      · exact ⟨h, rfl⟩
      · split
        · exact ⟨h.remove now key i.silent, rfl⟩
        · exact ⟨⟨rfl, h.created, rfl⟩, rfl⟩

/-- `Cluster.reply` has the same answer and does the same to the Pods in clusters with `SamePods`.
-/
theorem SamePods.reply (h : c.SamePods c') (i : Incident) (now : Nat) (call : Call) :
    (c.reply i now call).1.SamePods (c'.reply i now call).1 ∧
      (c.reply i now call).2.1 = (c'.reply i now call).2.1 := by
  cases call with
  | get key =>
    simp only [reply_get, lookup, h.pods]
    exact ⟨h, trivial⟩
  | create ns pod =>
    obtain ⟨hsame, hanswer⟩ := h.create i ns pod
    simp only [reply_create, hanswer]
    exact ⟨hsame, trivial⟩
  | delete key params =>
    obtain ⟨hsame, hanswer⟩ := h.delete i now key
    simp only [reply_delete, hanswer]
    exact ⟨hsame, trivial⟩
  | watch ns selector version =>
    unfold Cluster.reply openWatch
    cases i.error with
    | some e => exact ⟨h, rfl⟩
    | none => exact ⟨⟨h.pods, h.created, h.removals⟩, rfl⟩
  | _ => exact ⟨h, rfl⟩

end Cluster

namespace Scene

/-- `s.Shows w` says that scene `s` is world `w` seen without its clock: the stages of its
replacements, and the Pods. -/
structure Shows (s : Scene) (w : World) : Prop where
  cluster : s.cluster.SamePods w.cluster
  runs : s.runs = w.tasks.map fun t => ⟨t.plan, t.stage⟩

/-- `Scene.Scripted met` is the rule of a script. A call meets an incident that its kind may meet,
only what was deleted is removed, and nobody else writes. -/
def Scripted (met : CallKind → Incident → Prop) (s : Scene) : Action → Prop
  | .run i (.answer incident _) =>
    ∃ r call, s.runs[i]? = some r ∧ r.stage.call? r.plan = some call ∧ met call.kind incident
  | .run _ _ => True
  | .removal index _ => index < s.cluster.removals.length
  | .write _ => False

end Scene

namespace World

/-- `w.Meets met` says that the calls in `w` meet only incidents with `met`: those of the script and
those of the calls that are underway. -/
structure Meets (met : CallKind → Incident → Prop) (w : World) : Prop where
  script : ∀ kind incident, some incident ∈ w.cluster.script kind → met kind incident
  calls : ∀ t ∈ w.tasks, ∀ due incident call, t.activity = .calling due incident →
    t.stage.call? t.plan = some call → met call.kind incident

variable {met : CallKind → Incident → Prop} {w : World} {i : Nat} {t : Task}

/-! ## Incidents stay those that may be met -/

/-- With `Meets`, the incident of the next call may be met. -/
theorem Meets.incident (h : w.Meets met) (hplain : ∀ kind, met kind {}) (kind : CallKind) :
    met kind (w.cluster.incident kind) := by
  unfold Cluster.incident
  cases hscript : w.cluster.script kind with
  | nil => exact hplain kind
  | cons head rest =>
    cases head with
    | none => exact hplain kind
    | some incident => exact h.script kind incident (by simp [hscript])

/-- `World.putTask` keeps `Meets` if what the new task waits for may be met. -/
private theorem Meets.putTask (h : w.Meets met) (i : Nat) (t : Task)
    (ht : ∀ due incident call, t.activity = .calling due incident →
      t.stage.call? t.plan = some call → met call.kind incident) :
    (w.putTask i t).Meets met where
  script := by
    rw [putTask_cluster]
    exact h.script
  calls := by
    intro u hu
    rw [putTask_tasks] at hu
    rcases List.mem_or_eq_of_mem_set hu with hu | rfl
    · exact h.calls u hu
    · exact ht

/-- `World.enter` keeps `Meets`, since it only takes an incident out of the script. -/
private theorem Meets.enter (h : w.Meets met) (call : Call) : (w.enter call).1.Meets met where
  script := by
    intro kind incident hmem
    simp only [World.enter, Cluster.advance] at hmem
    split at hmem
    · exact h.script kind incident (List.mem_of_mem_tail hmem)
    · exact h.script kind incident hmem
  calls := h.calls

/-- `World.stepTask` keeps `Meets`. -/
theorem Meets.turn (h : w.Meets met) (hplain : ∀ kind, met kind {}) (i : Nat) (t : Task) :
    (w.stepTask i t).Meets met := by
  cases hheard : w.hearing? t with
  | some heard =>
    obtain ⟨c, watch, reply⟩ := heard
    rw [stepTask_of_hearing hheard]
    have hcluster : ({ w with cluster := c } : World).Meets met :=
      ⟨fun kind incident hmem => h.script kind incident (hearing_script hheard ▸ hmem), h.calls⟩
    -- A task that has just heard something waits for no call.
    apply hcluster.putTask i
    intro due incident call hcalling
    exact absurd hcalling (Task.hear_not_calling _ _ _ _ _)
  | none =>
    rcases quiet_cases hheard with hsame | hcrash | ⟨call, hactivity, hcall⟩
    · rw [hsame]
      exact h
    · rw [hcrash]
      apply h.putTask i
      intro due incident call hcalling
      simp at hcalling
    · rw [stepTask_of_ready hactivity hcall]
      -- The call that is made meets an incident of the script.
      apply (h.enter call).putTask i
      intro due incident call' hcalling hcall'
      obtain rfl : call = call' := Option.some.inj (hcall.symm.trans hcall')
      simp only [Activity.calling.injEq] at hcalling
      rw [← hcalling.2]
      exact h.incident hplain call.kind

/-- `World.tick` keeps `Meets`. -/
theorem Meets.tick (h : w.Meets met) (hplain : ∀ kind, met kind {}) (time : Nat) (actor : Actor) :
    (w.tick time actor).Meets met := by
  cases actor with
  | removal j =>
    simp only [World.tick]
    split
    · refine ⟨?_, h.calls⟩
      intro kind incident hmem
      simp only [stepRemoval, Cluster.remove_script] at hmem
      exact h.script kind incident hmem
    · exact h
  | task j =>
    simp only [World.tick]
    split
    · have hnow : ({ w with now := time } : World).Meets met := ⟨h.script, h.calls⟩
      exact hnow.turn hplain j _
    · exact h

end World

namespace Scene

variable {met : CallKind → Incident → Prop} {s : Scene} {w : World} {i : Nat} {t : Task}

/-! ## A tick is at most one action -/

/-- With `Shows`, a run of the scene stands for every task of the world. -/
theorem Shows.run? (h : s.Shows w) (ht : w.tasks[i]? = some t) :
    s.runs[i]? = some ⟨t.plan, t.stage⟩ := by
  rw [h.runs, List.getElem?_map, ht]
  rfl

/-- `World.putTask` keeps `Shows` when only what the task is doing changes: a scene does not show
that. -/
private theorem Shows.putTask_of_same {t' : Task} (h : s.Shows w) (ht : w.tasks[i]? = some t)
    (hplan : t'.plan = t.plan) (hstage : t'.stage = t.stage) : s.Shows (w.putTask i t') := by
  have hrun : (w.tasks.map fun t => (⟨t.plan, t.stage⟩ : Run))[i]? = some ⟨t'.plan, t'.stage⟩ := by
    rw [List.getElem?_map, ht, hplan, hstage]
    rfl
  obtain ⟨hlt, hget⟩ := List.getElem?_eq_some_iff.1 hrun
  refine ⟨?_, ?_⟩
  · rw [World.putTask_cluster]
    exact h.cluster
  · rw [World.putTask_tasks, List.map_set, ← hget, List.set_getElem_self]
    exact h.runs

/-- A task that hears a reply is a run that hears it on its cue. -/
private theorem Shows.putTask_hear {cue : Cue} {c c' : Cluster} {watch : Option Nat} {reply : Reply}
    (h : s.Shows w) (ht : w.tasks[i]? = some t)
    (hreply : s.reply? ⟨t.plan, t.stage⟩ cue = some (c', reply)) (hcluster : c'.SamePods c) :
    (s.act (.run i cue)).Shows
      ({ w with cluster := c }.putTask i ({ t with watch }.hear w.now reply)) := by
  have hact : s.act (.run i cue) = s.hear i ⟨t.plan, t.stage⟩ c' reply := by
    simp only [act, h.run? ht, hreply]
  rw [hact]
  refine ⟨?_, ?_⟩
  · rw [World.putTask_cluster]
    exact hcluster
  · rw [World.putTask_tasks, List.map_set, Task.hear_plan, Task.hear_stage, ← h.runs]
    rfl

/-- `World.stepTask` is what the run of the task does on some cue, or nothing that the scene shows.
-/
theorem Shows.turn (h : s.Shows w) (hmeets : w.Meets met) (ht : w.tasks[i]? = some t) :
    s.Shows (w.stepTask i t) ∨
      ∃ a, s.Scripted met a ∧ (s.act a).Shows (w.stepTask i t) := by
  cases hheard : w.hearing? t with
  | some heard =>
    obtain ⟨c, watch, reply⟩ := heard
    -- The run hears what the task hears, on the cue that says how it came.
    right
    rw [World.stepTask_of_hearing hheard]
    cases World.heard_of_hearing hheard with
    | @answer due incident call hactivity hcrash hcall =>
      obtain ⟨hcluster, hreply⟩ := h.cluster.reply incident w.now call
      refine ⟨.run i (.answer incident w.now), ?_, h.putTask_hear ht ?_ hcluster⟩
      · refine ⟨_, call, h.run? ht, hcall, ?_⟩
        exact hmeets.calls t (List.mem_of_getElem? ht) due incident call hactivity hcall
      · simp only [reply?, hcall, Option.map_some, hreply]
    | late => exact ⟨.run i .deadline, trivial, h.putTask_hear ht rfl h.cluster⟩
    | deadline => exact ⟨.run i .deadline, trivial, h.putTask_hear ht rfl h.cluster⟩
    | @news n entry =>
      have hpop : s.cluster.SamePods (w.cluster.pop n) :=
        ⟨h.cluster.pods, h.cluster.created, h.cluster.removals⟩
      exact ⟨.run i (.news entry.2), trivial, h.putTask_hear ht rfl hpop⟩
  | none =>
    -- A call that is made, or that takes its task down, leaves the stage as it is.
    left
    rcases World.quiet_cases hheard with hsame | hcrash | ⟨call, hactivity, hcall⟩
    · rw [hsame]
      exact h
    · rw [hcrash]
      exact h.putTask_of_same ht rfl rfl
    · rw [World.stepTask_of_ready hactivity hcall]
      have hentered : s.Shows (w.enter call).1 :=
        ⟨⟨h.cluster.pods, h.cluster.created, h.cluster.removals⟩, h.runs⟩
      exact hentered.putTask_of_same ht rfl rfl

/-- `World.tick` is one action of the scene that shows the world, or nothing that the scene shows.
-/
theorem Shows.tick (h : s.Shows w) (hmeets : w.Meets met) (time : Nat) (actor : World.Actor) :
    s.Shows (w.tick time actor) ∨
      ∃ a, s.Scripted met a ∧ (s.act a).Shows (w.tick time actor) := by
  cases actor with
  | removal j =>
    simp only [World.tick]
    cases hr : w.cluster.removals[j]? with
    | none => exact .inl h
    | some r =>
      right
      have hlt : j < s.cluster.removals.length := by
        rw [h.cluster.removals]
        exact (List.getElem?_eq_some_iff.1 hr).1
      refine ⟨.removal j time, hlt, ?_, ?_⟩
      -- The scene has the same removal on its list, and it does the same to the Pods.
      · let c : Cluster := { s.cluster with removals := s.cluster.removals.eraseIdx j }
        have hrest : c.SamePods { w.cluster with removals := w.cluster.removals.eraseIdx j } :=
          ⟨h.cluster.pods, h.cluster.created, congrArg (·.eraseIdx j) h.cluster.removals⟩
        simp only [act, h.cluster.removals, hr]
        rw [← h.cluster.removals]
        exact hrest.remove time r.key r.silent
      · rw [act_removal_runs]
        exact h.runs
  | task j =>
    simp only [World.tick]
    split
    · rename_i t ht
      have hnow : s.Shows { w with now := time } := ⟨h.cluster, h.runs⟩
      exact hnow.turn ⟨hmeets.script, hmeets.calls⟩ ht
    · exact .inl h

/-- `World.run` is a play of the scene that shows the world. -/
theorem Shows.run (h : s.Shows w) (hmeets : w.Meets met) (hplain : ∀ kind, met kind {})
    (wanted : World → Nat → Bool) (n : Nat) :
    ∃ actions, s.Obeys (Scripted met) actions ∧ (s.play actions).Shows (World.run wanted n w) := by
  -- Induction on the ticks; a tick that shows nothing adds no action.
  induction n generalizing s w with
  | zero => exact ⟨[], trivial, h⟩
  | succ n ih =>
    simp only [World.run]
    split
    · rename_i time actor hnext
      split
      · have hmeets' := hmeets.tick hplain time actor
        rcases h.tick hmeets time actor with hstill | ⟨a, hrule, hshows⟩
        · exact ih hstill hmeets'
        · obtain ⟨actions, hobeys, hshows'⟩ := ih hshows hmeets'
          exact ⟨a :: actions, ⟨hrule, hobeys⟩, hshows'⟩
      · exact ⟨[], trivial, h⟩
    · exact ⟨[], trivial, h⟩

/-! ## What every play keeps -/

/-- `Scene.start` shows a world before any of its replacements has heard anything. -/
theorem shows_start (hfresh : ∀ t ∈ w.tasks, t.stage = .lookup) :
    (start (w.tasks.map (·.plan)) w.cluster).Shows w := by
  refine ⟨⟨rfl, rfl, rfl⟩, ?_⟩
  show (w.tasks.map _).map _ = _
  rw [List.map_map]
  apply List.map_congr_left
  intro t ht
  simp [hfresh t ht]

end Scene

/-- `i.Spares kind` says that incident `i` keeps no call from what it is there for, but for calls
that open watches. -/
def Incident.Spares (kind : CallKind) (i : Incident) : Prop :=
  kind = .watch ∨ i.IsPlain

namespace Cluster

/-- `Cluster.reply` leaves no removal for later when its incident `Spares` the call. -/
theorem reply_removals (c : Cluster) {i : Incident} {call : Call} (now : Nat)
    (h : i.Spares call.kind) : (c.reply i now call).1.removals = c.removals := by
  cases call with
  | create ns pod =>
    simp only [reply_create, create]
    split
    · rfl
    · split <;> rfl
  | delete key params =>
    -- Only a deletion that takes its time would put its removal on the list.
    rcases h with hwatch | hplain
    · simp [Call.kind] at hwatch
    · simp only [reply_delete, delete, hplain.error, hplain.keep, hplain.removeAfter]
      split
      · rfl
      · exact c.remove_removals now key i.silent
  | watch ns selector version =>
    unfold reply openWatch
    cases i.error <;> rfl
  | _ => rfl

end Cluster

namespace Scene

variable {s : Scene} {a : Action}

/-- With no removal left for later, a `Scripted` action is `Atomic`. -/
private theorem atomic_of_scripted (h : s.Scripted Incident.Spares a)
    (hremovals : s.cluster.removals = []) : s.Atomic a := by
  cases a with
  | removal index now =>
    have hlt : index < s.cluster.removals.length := h
    simp [hremovals] at hlt
  | write pods => exact h
  | run i cue =>
    cases cue with
    | answer incident now =>
      obtain ⟨r, call, hr, hcall, hwatch | hplain⟩ := h
      -- The incident may be any if the call opens a watch, and then the stage is the one of the
      -- watch.
      · right
        refine ⟨r, ?_⟩
        cases hs : r.stage with
        | watch existing => exact ⟨existing, hr, rfl⟩
        | _ =>
          simp only [hs, Stage.call?, Option.some.injEq, reduceCtorEq] at hcall
          all_goals simp [← hcall, Call.kind] at hwatch
      · exact .inl hplain
    | news item => trivial
    | deadline => trivial

/-- With no removal left for later, a `Scripted` action leaves none. -/
private theorem act_removals (h : s.Scripted Incident.Spares a)
    (hremovals : s.cluster.removals = []) : (s.act a).cluster.removals = [] := by
  cases a with
  | removal index now =>
    have hlt : index < s.cluster.removals.length := h
    simp [hremovals] at hlt
  | write pods => exact h.elim
  | run i cue =>
    rcases s.act_run_cases i cue with ⟨r, c, reply, hr, hreply, hact⟩ | hact
    · rw [hact]
      show c.removals = []
      cases cue with
      | answer incident now =>
        obtain ⟨r', call, hr', hcall, hspares⟩ := h
        obtain rfl : r = r' := Option.some.inj (hr.symm.trans hr')
        simp only [reply?, hcall, Option.map_some, Option.some.injEq, Prod.mk.injEq] at hreply
        rw [← hreply.1, s.cluster.reply_removals now hspares, hremovals]
      | news item =>
        simp only [reply?, Option.some.injEq, Prod.mk.injEq] at hreply
        rw [← hreply.1, hremovals]
      | deadline =>
        simp only [reply?, Option.some.injEq, Prod.mk.injEq] at hreply
        rw [← hreply.1, hremovals]
    · rw [hact]
      exact hremovals

end Scene

/-- A world in which calls meet no trouble, but for those that open watches, loses no Pod: whatever
its replacements have come to, the scene that `Shows` it is safe. -/
theorem World.run_safe {w : World} (hfresh : ∀ t ∈ w.tasks, t.stage = .lookup)
    (hmeets : w.Meets Incident.Spares) (hremovals : w.cluster.removals = [])
    (wanted : World → Nat → Bool) (n : Nat) :
    ∃ s : Scene, s.Shows (World.run wanted n w) ∧ s.Safe := by
  have hplain : ∀ kind, Incident.Spares kind {} := fun kind => .inr ⟨rfl, rfl, rfl, rfl, rfl⟩
  obtain ⟨actions, hobeys, hshows⟩ :=
    (Scene.shows_start hfresh).run hmeets hplain wanted n
  refine ⟨_, hshows, ?_⟩
  -- Without removals the rule of the script is that of a store that does each call at once.
  have hkept := Scene.invariant_play (I := fun s => s.Safe ∧ s.cluster.removals = []) ?_ hobeys
    ⟨Scene.safe_start _ w.cluster, hremovals⟩
  · exact hkept.1
  · intro s a hrule ⟨hsafe, hnone⟩
    have hsafe' := hsafe.act (Scene.atomic_of_scripted hrule hnone)
    exact ⟨hsafe', Scene.act_removals hrule hnone⟩

end PodDesk
