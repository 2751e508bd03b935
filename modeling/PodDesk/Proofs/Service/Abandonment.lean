import PodDesk.Proofs.Replacement.Recreation
import PodDesk.Proofs.Service.Refinement

/-!
# Callers who give up

A caller who submits a Pod may give up waiting at any moment, and the service may lose its cluster
after that. The replacement that was started does not notice: the same calls are made at the same
times, and the same Pods are stored.

## Main statements

- `Session.Reached.isSound`: in every session that can come about the world is sound
- `Session.onCourse_runReplacement`: whenever the caller gives up, the world is on the course of
  the replacement
- `Session.onCourse_idle`: a step without a request keeps it there
- `Session.submission_outlives_caller`: what a submission brings about, whatever the caller does
-/

namespace PodDesk

namespace World

variable {w w₀ : World}

/-! ## Worlds on the course of another -/

/-- `w₀.OnCourse w` says that whatever happens by any later time is what happens from `w₀` on. -/
def OnCourse (w₀ w : World) : Prop :=
  ∀ time, w.now ≤ time → w.upTo time = w₀.upTo time

theorem OnCourse.run (hsound : w.IsSound) (wanted : World → Nat → Bool) (n : Nat) :
    w.OnCourse (World.run wanted n w) :=
  fun _ htime => upTo_run hsound wanted htime

theorem OnCourse.settle (h : w₀.OnCourse w) (hsound : w.IsSound) : w₀.OnCourse w.settle := by
  intro time htime
  rw [← h time (Nat.le_trans (now_le_run _ _ w) htime)]
  exact upTo_run hsound _ htime

theorem OnCourse.advanceTo (h : w₀.OnCourse w) (hsound : w.IsSound) {limit : Nat}
    (hnow : w.now ≤ limit) : w₀.OnCourse (w.advanceTo limit) := by
  intro time htime
  have hlimit : limit ≤ time := Nat.le_trans (Nat.le_max_right _ _) htime
  rw [upTo_advanceTo hsound hnow hlimit]
  exact h time (Nat.le_trans hnow hlimit)

/-- `OnCourse` is kept while nothing is due. -/
theorem OnCourse.wait (h : w₀.OnCourse w) {limit : Nat} (hquiet : w.QuietBefore limit) :
    w₀.OnCourse { w with now := max w.now limit } := by
  intro time htime
  rcases Nat.le_total limit w.now with hle | hle
  · rw [Nat.max_eq_left hle] at htime ⊢
    exact h time htime
  · rw [Nat.max_eq_right hle] at htime ⊢
    rw [upTo_wait hquiet hle htime]
    exact h time (Nat.le_trans hle htime)

/-- `World.isOver` holds of a task of which something has come. -/
theorem isOver_runTask_eq {i : Nat} (hlt : i < w.tasks.length) (limit : Option Nat) :
    (w.runTask i limit).isOver i = ((w.runTask i limit).tasks[i]?.bind (·.result?)).isSome := by
  have hrun : i < (w.runTask i limit).tasks.length := by
    rw [runTask, length_tasks_run]
    exact hlt
  simp [isOver, List.getElem?_eq_getElem hrun, Task.isOver]

theorem lt_length_spawn (w : World) (p : Plan) (wait : Nat) :
    (w.spawn p wait).2 < (w.spawn p wait).1.tasks.length := by
  simp [spawn]

/-! ## Sound worlds of a session -/

/-- `World.IsSound` is kept with another cluster that has at least the watches of this one. -/
theorem IsSound.withCluster (h : w.IsSound) {c : Cluster} {news : Nat}
    (hgoes : w.cluster.Goes c news) : ({ w with cluster := c } : World).IsSound :=
  fun t ht => (h t ht).goes hgoes

theorem IsSound.settle (h : w.IsSound) : w.settle.IsSound :=
  h.run _ _

theorem IsSound.advanceTo (h : w.IsSound) (limit : Nat) : (w.advanceTo limit).IsSound :=
  h.run _ _

/-- `World.ask` leaves the world sound. -/
theorem IsSound.ask (h : w.IsSound) {α : Type} (query : Query α) (limit : Option Nat) :
    (w.ask query limit).1.IsSound := by
  -- Of all questions, only a deletion changes the cluster.
  have hasked : ∀ {w : World}, w.IsSound → ∀ incident : Incident,
      ({ w with cluster := (query.answer w.cluster incident w.now).1 } : World).IsSound := by
    intro w h incident
    cases query with
    | delete key params =>
      obtain ⟨news, -, hgoes, -⟩ := w.cluster.goes_reply incident w.now (.delete key params)
      exact h.withCluster hgoes
    | _ => exact h
  have hentered : (w.enter query.call).1.IsSound := h
  unfold World.ask
  dsimp only
  -- The answer comes at once, or the world goes on until it comes or the caller gives up.
  split
  · split
    · split
      · exact hentered
      · exact hentered.advanceTo _
    · apply hasked
      split
      · exact hentered
      · exact hentered.advanceTo _
  · exact hentered.advanceTo _

end World

/-- Steps without a request: `connect`, `disconnect` and `advance`. -/
def Step.IsIdle : Step → Prop
  | connect => True
  | disconnect => True
  | advance _ => True
  | _ => False

namespace Session

variable {s : Session} {r : Http.Request} {request : PodRequest}

/-- The session after some steps, by `Session.step`. -/
def play (s : Session) (steps : List Step) : Session :=
  steps.foldl (fun s action => (s.step action).1) s

/-- `Reached s` says that `s` can come about, from a start by any steps. -/
inductive Reached : Session → Prop where
  | start {settings : Settings} {recording connected : Bool} {cluster : Cluster} {s : Session}
      (h : start? settings recording connected cluster = some s) : Reached s
  | step {s : Session} (h : Reached s) (action : Step) : Reached (s.step action).1

/-- The plan that `Session.runReplacement` starts with. -/
def plan (s : Session) (request : PodRequest) : Plan :=
  ⟨request, s.settings.gracePeriod⟩

/-- How long the replacement that is started waits for a removal, in milliseconds. -/
def wait (s : Session) : Nat :=
  s.settings.deletionWait * 1000

theorem spawn_plan (s : Session) (request : PodRequest) :
    s.world.spawn ⟨request, s.settings.gracePeriod⟩ (s.settings.deletionWait * 1000) =
      s.world.spawn (s.plan request) s.wait := rfl

/-- The world right after a replacement was started in the settled one, with the number of its task.
-/
def submitted (s : Session) (request : PodRequest) : World × Nat :=
  s.world.settle.spawn (s.plan request) s.wait

/-- `Session.step` with an acceptable submission is `Session.runReplacement` in the settled session.
-/
theorem step_submit (hconnected : s.connected = true)
    (hasked : (Command.submit request).AskedBy r) (patience : Option Nat) :
    (s.step (.request r patience)).1.world =
      (({ s with world := s.world.settle } : Session).runReplacement request
        (patience.map (s.world.settle.now + ·))).1 := by
  obtain ⟨hmethod, hpath, hbody, hvalid⟩ := hasked
  have hhandle : ({ s with world := s.world.settle } : Session).service.handle r =
      .replace request :=
    Service.handle_submit hconnected hmethod hpath hbody hvalid
  have hpreflight : s.policy.preflight? r = none := by
    simp [Http.OriginPolicy.preflight?, hmethod]
  simp only [step, respond, hpreflight, serve, hhandle]
  generalize ({ s with world := s.world.settle } : Session).runReplacement request _ = result
  obtain ⟨w, reaction⟩ := result
  cases reaction <;> rfl

/-- `runReplacement` leaves the world `OnCourse` of the replacement that it started, whenever the
caller gives up. -/
theorem onCourse_runReplacement (hsound : s.world.IsSound) (limit : Option Nat) :
    (s.world.spawn (s.plan request) s.wait).1.OnCourse (s.runReplacement request limit).1 := by
  have hspawned := World.isSound_spawn s.world (s.plan request) s.wait hsound
  have hlt := World.lt_length_spawn s.world (s.plan request) s.wait
  generalize hstart : s.world.spawn (s.plan request) s.wait = start at hspawned hlt
  obtain ⟨start, i⟩ := start
  have hcourse : start.OnCourse (start.runTask i limit) := .run hspawned _ _
  unfold runReplacement
  rw [spawn_plan, hstart]
  dsimp only
  -- An outcome or a crash ends the run, and whatever is due by then still happens.
  split
  · exact hcourse.settle (hspawned.run _ _)
  · exact hcourse.settle (hspawned.run _ _)
  · rename_i hopen
    -- The run has stopped because nothing is due before the caller gives up.
    refine hcourse.wait fun time actor hnext => ?_
    have hover : (start.runTask i limit).isOver i = false := by
      rw [World.isOver_runTask_eq hlt, hopen]
      rfl
    cases limit with
    | none => exact World.now_le_of_next? hnext
    | some limit => exact World.quietBefore_runTask hspawned hover time actor hnext

/-- `Session.step` without a request keeps the world `OnCourse`. -/
theorem onCourse_idle {w₀ : World} {action : Step} (hidle : action.IsIdle)
    (hsound : s.world.IsSound) (h : w₀.OnCourse s.world) :
    w₀.OnCourse (s.step action).1.world := by
  have hsettled := h.settle hsound
  cases action with
  | connect => exact hsettled
  | disconnect => exact hsettled
  | advance duration => exact hsettled.advanceTo (hsound.run _ _) (Nat.le_add_right _ _)
  | _ => exact hidle.elim

/-- `runReplacement` without a limit sees the replacement through. -/
theorem runReplacement_none (hsound : s.world.IsSound) (request : PodRequest) :
    (s.runReplacement request none).1 =
      ((s.world.spawn (s.plan request) s.wait).1.runTask
        (s.world.spawn (s.plan request) s.wait).2 none).settle := by
  have hover := World.isOver_runTask
    (World.isSound_spawn s.world (s.plan request) s.wait hsound)
    (s.world.spawn (s.plan request) s.wait).2
  rw [World.isOver_runTask_eq (World.lt_length_spawn _ _ _)] at hover
  simp only [runReplacement]
  rw [spawn_plan]
  split
  · rfl
  · rfl
  · rename_i hopen
    simp [hopen] at hover

/-! ## Sessions that can come about -/

theorem isSound_runReplacement (hsound : s.world.IsSound) (request : PodRequest)
    (limit : Option Nat) : (s.runReplacement request limit).1.IsSound := by
  have hran := (World.isSound_spawn s.world ⟨request, s.settings.gracePeriod⟩
    (s.settings.deletionWait * 1000) hsound).run
  unfold runReplacement
  dsimp only
  split
  · exact (hran _ _).settle
  · exact (hran _ _).settle
  · exact hran _ _

theorem isSound_respond (hsound : s.world.IsSound) (r : Http.Request) (limit : Option Nat) :
    (s.respond r limit).1.IsSound := by
  -- Of the three ways to serve a request only a question and a replacement change the world.
  have hserve : (s.serve r limit).1.IsSound := by
    unfold serve
    split
    · exact hsound
    · rename_i query decide _
      have hasked := hsound.ask query limit
      split <;> rename_i hask <;> rw [hask] at hasked <;> exact hasked
    · exact isSound_runReplacement hsound _ limit
  unfold respond
  split
  · exact hsound
  · split
    · rename_i heq
      rw [heq] at hserve
      exact hserve
    · exact hserve

/-- `Session.step` keeps the world sound. -/
theorem isSound_step (hsound : s.world.IsSound) (action : Step) :
    (s.step action).1.world.IsSound := by
  have hsettled := hsound.settle
  cases action with
  | connect => exact hsettled
  | disconnect => exact hsettled
  | advance duration => exact hsettled.advanceTo _
  | put key pod => exact hsettled
  | remove key => exact hsettled.withCluster (Cluster.goes_remove _ _ _ _)
  | request r patience =>
    exact isSound_respond (s := { s with world := s.world.settle }) hsettled r _

/-- `Reached` sessions have sound worlds. -/
theorem Reached.isSound (h : s.Reached) : s.world.IsSound := by
  induction h with
  | start hstart =>
    obtain ⟨policy, -, rfl⟩ := Option.map_eq_some_iff.1 hstart
    exact fun t ht => absurd ht List.not_mem_nil
  | step h action ih => exact isSound_step ih action

/-! ## Submissions -/

/-- `Session.play` without requests keeps the world `OnCourse`. -/
theorem onCourse_play {w₀ : World} {later : List Step} (hidle : ∀ action ∈ later, action.IsIdle)
    (hsound : s.world.IsSound) (h : w₀.OnCourse s.world) : w₀.OnCourse (s.play later).world := by
  induction later generalizing s with
  | nil => exact h
  | cons action later ih =>
    obtain ⟨hfirst, hrest⟩ := List.forall_mem_cons.1 hidle
    exact ih hrest (isSound_step hsound action) (onCourse_idle hfirst hsound h)

/-- `OnCourse` of the replacement that a submission starts is every later world, whenever the caller
gives up and whatever follows without a request. -/
theorem onCourse_submission (hsound : s.world.IsSound) (hconnected : s.connected = true)
    (hasked : (Command.submit request).AskedBy r) (patience : Option Nat) {later : List Step}
    (hidle : ∀ action ∈ later, action.IsIdle) :
    (s.submitted request).1.OnCourse (((s.step (.request r patience)).1.play later).world) := by
  refine onCourse_play hidle (isSound_step hsound _) ?_
  rw [step_submit hconnected hasked]
  exact onCourse_runReplacement (s := { s with world := s.world.settle }) hsound.settle _

/-- `Session.step` with a submission brings about the same for every caller: at the same time the
world is the same, however long the caller waited and however the cluster came and went since then.
When the deletion of the old Pod was accepted, the new one is asked for exactly once and by the
deadline of the wait, unless the clock cannot show the deadline: then the Pod is never asked for. -/
theorem submission_outlives_caller (hreached : s.Reached) (hconnected : s.connected = true)
    (hasked : (Command.submit request).AskedBy r) (hcalm : s.world.cluster.NeverCrashes) :
    (∀ patience₁ patience₂ later₁ later₂, (∀ action ∈ later₁, action.IsIdle) →
      (∀ action ∈ later₂, action.IsIdle) →
      let left₁ := ((s.step (.request r patience₁)).1.play later₁).world
      let left₂ := ((s.step (.request r patience₂)).1.play later₂).world
      left₁.now = left₂.now → left₁.settle = left₂.settle) ∧
    let deeds := (s.submitted request).1.taskDeeds (s.submitted request).2
    (∃ logged, (s.step (.request r none)).1.world.log = s.world.settle.log ++ logged ∧
      (World.callsOf deeds).Sublist logged ∧
      ((∀ t ∈ s.world.tasks, t.AtRest) → logged = World.callsOf deeds)) ∧
    ∀ since, (since, .hears ((s.plan request).deletion (.ok ()))) ∈ deeds →
      (since + s.wait < endOfTime →
        ∃ paid, creations deeds =
            [(paid, .asks (.create request.base.ns request.toPod))] ∧
          since ≤ paid ∧ paid ≤ since + s.wait) ∧
      (endOfTime ≤ since + s.wait → creations deeds = []) := by
  have hsound := hreached.isSound
  refine ⟨?_, ?_, ?_⟩
  · -- Both worlds are on the course of the same replacement, so they agree when their clocks do.
    intro patience₁ patience₂ later₁ later₂ hidle₁ hidle₂ left₁ left₂ hnow
    have hcourse₁ := onCourse_submission hsound hconnected hasked patience₁ hidle₁
    have hcourse₂ := onCourse_submission hsound hconnected hasked patience₂ hidle₂
    calc left₁.settle = left₁.upTo left₁.now := left₁.settle_eq_upTo
      _ = (s.submitted request).1.upTo left₁.now := hcourse₁ _ (Nat.le_refl _)
      _ = left₂.upTo left₁.now := (hcourse₂ _ (Nat.le_of_eq hnow.symm)).symm
      _ = left₂.settle := by rw [hnow, ← left₂.settle_eq_upTo]
  -- The step of a caller who waits logs what was due before and then the deeds of the run.
  · rw [step_submit hconnected hasked, Option.map_none,
      runReplacement_none (s := { s with world := s.world.settle }) hsound.settle]
    obtain ⟨logged, hlog, hcalls, honly⟩ :=
      World.log_runTask_spawn s.world.settle (s.plan request) s.wait hsound.settle
    refine ⟨logged, hlog, hcalls, fun hrest => honly ?_⟩
    rw [World.settle, World.runBefore, (World.run_of_rest hrest _ _).1]
    exact hrest
  -- The deed is one of a run that nothing takes down, so the Pod is paid for if the wait has a
  -- deadline.
  · intro since hdeletion
    have hcreation := World.creation_after_deletion (s.plan request) s.wait hsound.settle
      (World.neverCrashes_run hcalm _ _) hdeletion
    exact ⟨hcreation.1, fun hbeyond => (hcreation.2 hbeyond).1⟩

/-- A cluster with an old Pod whose deletion and removal take a while. -/
def slowCluster : Cluster where
  pods := SortedMap.empty.insert submissionKey
    { metadata := { name := some "web", ns := some "prod" } }
  script := fun
    | .delete => [some { delay := 20, removeAfter := 300 }]
    | _ => []

/-- A service that waits so many seconds for a removal, connected to that cluster. -/
def slowSession (deletionWait : Nat) : Session where
  settings := { deletionWait, allowedOrigins := "" }
  policy := ⟨[]⟩
  recording := false
  connected := true
  world := { cluster := slowCluster }

/-- `start?` gives a session for settings that allow no other origins. -/
theorem start?_without_origins (n : Nat) (recording connected : Bool) (cluster : Cluster) :
    start? { deletionWait := n, allowedOrigins := "" } recording connected cluster =
      some ⟨{ deletionWait := n, allowedOrigins := "" }, ⟨[]⟩, recording, connected,
        { cluster }⟩ := by
  have hpolicy : Http.OriginPolicy.ofList? (Text.CommaList.parse "") = some ⟨[]⟩ := by
    decide
  simp only [start?, Settings.origins, hpolicy, Option.map_some]

theorem start_slowSession (n : Nat) :
    start? { deletionWait := n, allowedOrigins := "" } false true slowCluster =
      some (slowSession n) :=
  start?_without_origins n false true slowCluster

theorem reached_slowSession (n : Nat) : (slowSession n).Reached :=
  .start (start_slowSession n)

theorem neverCrashes_slowCluster : slowCluster.NeverCrashes := by
  intro kind incident hmem
  cases kind <;> simp [slowCluster] at hmem
  simp [hmem]

/-- `submissionPost` to the slow service, whose caller gives up after 100 ms before the cluster goes
away: after a second the world is the one of a caller who waits, and the Pod was asked for in time.
-/
theorem slow_submission_outlives_caller :
    (∃ paid, creations (((slowSession 5).submitted submission).1.taskDeeds 0) =
        [(paid, .asks (.create "prod" submission.toPod))] ∧ 20 ≤ paid ∧ paid ≤ 5020) ∧
      let left := (((slowSession 5).step (.request submissionPost (some 100))).1.play
        [.disconnect, .advance 900]).world
      let waited := (((slowSession 5).step (.request submissionPost none)).1.play
        [.advance 680]).world
      left.settle = waited.settle := by
  have houtlives := submission_outlives_caller (reached_slowSession 5) rfl submission_askedBy
    neverCrashes_slowCluster
  have hdeletion : (((slowSession 5).submitted submission).1.taskDeeds 0)[7]? =
      some (20, .hears (((slowSession 5).plan submission).deletion (.ok ()))) := by rfl
  have hcreation := houtlives.2.2 20 (List.mem_of_getElem? hdeletion)
  refine ⟨hcreation.1 (by decide), ?_⟩
  apply houtlives.1
  · simp [Step.IsIdle]
  · simp [Step.IsIdle]
  · decide +kernel

/-- `slowSession` with the longest wait that can be set: the deletion is accepted, the Pod is never
asked for, and none is left. -/
theorem longest_wait_leaves_no_pod :
    let s := slowSession (word64 - 1)
    let deeds := (s.submitted submission).1.taskDeeds (s.submitted submission).2
    (Command.submit submission).AskedBy submissionPost ∧ s.world.cluster.NeverCrashes ∧
      deletions deeds = [20] ∧ creations deeds = [] ∧
      (s.play [.request submissionPost none, .advance 1000]).world.cluster.pods.get?
        submissionKey = none := by
  intro s deeds
  have hempty : (creations deeds).length = 0 := by decide +kernel
  have hgone : ((s.play [.request submissionPost none, .advance 1000]).world.cluster.pods.get?
      submissionKey).isNone := by decide +kernel
  exact ⟨submission_askedBy, neverCrashes_slowCluster, by decide +kernel,
    List.eq_nil_of_length_eq_zero hempty, Option.isNone_iff_eq_none.1 hgone⟩

end Session

end PodDesk
