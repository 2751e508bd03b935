import PodDesk.Replacement.Timeline

/-!
# Replacements in any order

Replacements that share a cluster and go on in any order: there is no clock, so any of them may go
on at any time, what a watch delivers and when a deadline comes is arbitrary, and others may write
to the cluster between two calls. The stages and the answers are those of `Stage.next` and
`Cluster.reply`. What a world does in time is one such order (`Scene.Shows.run`).

## Main statements

- `Scene.act_run_cases`: on its cue a run hears a reply, or nothing changes
- `Scene.play_plans`: the runs keep their plans
- `Scene.invariant_play`: what every admitted action keeps holds after every play
-/

namespace PodDesk

/-- The step at which a stage creates the wanted Pod, if it does. -/
def Stage.creationStep? : Stage → Option FailedStep
  | create => some .create
  | recreate _ => some .recreate
  | _ => none

/-- A replacement in a scene: like a `Task`, but without a clock. -/
structure Run where
  plan : Plan
  stage : Stage := .lookup

/-- The run after it heard `reply`. -/
def Run.hear (r : Run) (reply : Reply) : Run :=
  { r with stage := r.stage.next r.plan reply }

/-- The replacements that share a cluster, in the order of their plans. -/
structure Scene where
  cluster : Cluster
  runs : List Run

/-- What lets a run go on. -/
inductive Cue where
  /-- Its call meets an incident, takes effect and is answered. -/
  | answer (incident : Incident) (now : Nat)
  /-- Its watch delivers an item. -/
  | news (item : WatchItem)
  /-- Its deadline comes. -/
  | deadline

/-- What can happen in a scene. -/
inductive Action where
  /-- A run goes on. -/
  | run (index : Nat) (cue : Cue)
  /-- A Pod that was deleted is removed. -/
  | removal (index now : Nat)
  /-- Someone else stores and removes Pods. -/
  | write (pods : SortedMap PodKey Pod)

namespace Scene

/-- The scene where the replacements of `plans` begin. -/
def start (plans : List Plan) (cluster : Cluster) : Scene :=
  { cluster, runs := plans.map fun plan => { plan } }

/-- What run `r` hears on its cue, with the cluster after it. A run that makes no call gets no
answer. -/
def reply? (s : Scene) (r : Run) : Cue → Option (Cluster × Reply)
  | .answer incident now =>
    (r.stage.call? r.plan).map fun call =>
      let (cluster, reply, _) := s.cluster.reply incident now call
      (cluster, reply)
  | .news item => some (s.cluster, .item item)
  | .deadline => some (s.cluster, .deadline)

/-- Run `r`, the one with number `i`, hears `reply`, and `cluster` is the one that it came from. -/
def hear (s : Scene) (i : Nat) (r : Run) (cluster : Cluster) (reply : Reply) : Scene :=
  { cluster, runs := s.runs.set i (r.hear reply) }

/-- The scene after an action. -/
def act (s : Scene) : Action → Scene
  | .run i cue =>
    match s.runs[i]? with
    | none => s
    | some r =>
      match s.reply? r cue with
      | none => s
      | some (cluster, reply) => s.hear i r cluster reply
  | .removal index now =>
    match s.cluster.removals[index]? with
    | none => s
    | some removal =>
      let cluster := { s.cluster with removals := s.cluster.removals.eraseIdx index }
      { s with cluster := cluster.remove now removal.key removal.silent }
  | .write pods => { s with cluster := { s.cluster with pods } }

/-- The scene after the actions, one after the other. -/
def play (s : Scene) (actions : List Action) : Scene :=
  actions.foldl act s

/-- `s.Obeys rule actions` says that `rule` admits every action in the scene where it happens. -/
def Obeys (rule : Scene → Action → Prop) : Scene → List Action → Prop
  | _, [] => True
  | s, a :: actions => rule s a ∧ (s.act a).Obeys rule actions

/-- A scene `IsOver` when all its replacements are. -/
def IsOver (s : Scene) : Prop :=
  ∀ r ∈ s.runs, r.stage.outcome?.isSome

instance (s : Scene) : Decidable s.IsOver :=
  inferInstanceAs (Decidable (∀ r ∈ s.runs, _))

variable {s : Scene} {rule : Scene → Action → Prop} {actions : List Action}

/-! ## One action -/

/-- `Scene.act` on the cue of a run: it hears a reply, or nothing changes when the cue is for nobody
or for a run without a call. -/
theorem act_run_cases (s : Scene) (i : Nat) (cue : Cue) :
    (∃ r c reply, s.runs[i]? = some r ∧ s.reply? r cue = some (c, reply) ∧
      s.act (.run i cue) = s.hear i r c reply) ∨ s.act (.run i cue) = s := by
  cases hr : s.runs[i]? with
  | none => exact .inr (by simp only [act, hr])
  | some r =>
    cases hreply : s.reply? r cue with
    | none => exact .inr (by simp only [act, hr, hreply])
    | some heard =>
      obtain ⟨c, reply⟩ := heard
      exact .inl ⟨r, c, reply, rfl, hreply, by simp only [act, hr, hreply]⟩

/-- A removal changes no run. -/
theorem act_removal_runs (s : Scene) (index now : Nat) :
    (s.act (.removal index now)).runs = s.runs := by
  simp only [act]
  split <;> rfl

/-- `Scene.act` leaves the runs their plans. -/
theorem act_plans (s : Scene) (a : Action) :
    (s.act a).runs.map (·.plan) = s.runs.map (·.plan) := by
  cases a with
  | removal index now => rw [act_removal_runs]
  | write pods => rfl
  | run i cue =>
    rcases s.act_run_cases i cue with ⟨r, c, reply, hr, -, hact⟩ | hact
    · rw [hact]
      show (s.runs.set i (r.hear reply)).map (·.plan) = _
      -- The run that hears something is put back with the plan that it had.
      have hplan : (s.runs.map (·.plan))[i]? = some (r.hear reply).plan := by
        rw [List.getElem?_map, hr]
        rfl
      obtain ⟨hlt, hget⟩ := List.getElem?_eq_some_iff.1 hplan
      rw [List.map_set, ← hget, List.set_getElem_self]
    · rw [hact]

/-! ## A whole play -/

theorem play_append (s : Scene) (as bs : List Action) :
    s.play (as ++ bs) = (s.play as).play bs :=
  List.foldl_append

theorem obeys_append {as bs : List Action} :
    s.Obeys rule (as ++ bs) ↔ s.Obeys rule as ∧ (s.play as).Obeys rule bs := by
  induction as generalizing s with
  | nil => simp [Obeys, play]
  | cons a as ih =>
    simp only [List.cons_append, Obeys, ih, and_assoc]
    rfl

/-- `Scene.play` leaves the runs their plans. -/
theorem play_plans (s : Scene) (actions : List Action) :
    (s.play actions).runs.map (·.plan) = s.runs.map (·.plan) := by
  induction actions generalizing s with
  | nil => rfl
  | cons a actions ih =>
    show ((s.act a).play actions).runs.map (·.plan) = _
    rw [ih, act_plans]

/-- What `Scene.act` keeps for every action that the rule admits, `Scene.play` keeps. -/
theorem invariant_play {I : Scene → Prop} (hstep : ∀ s a, rule s a → I s → I (s.act a))
    (hobeys : s.Obeys rule actions) (h : I s) : I (s.play actions) := by
  induction actions generalizing s with
  | nil => exact h
  | cons a actions ih =>
    obtain ⟨hrule, hrest⟩ := hobeys
    exact ih hrest (hstep s a hrule h)

end Scene

end PodDesk
