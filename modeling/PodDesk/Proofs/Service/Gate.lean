import Mathlib.Data.List.Induction
import PodDesk.Proofs.Replacement.Callers
import PodDesk.Proofs.Service.Abandonment
import PodDesk.Proofs.Service.Admission

/-!
# Which requests reach the cluster

While requests arrive, callers give up and the cluster comes and goes, every call that changes the
cluster or prepares a change goes back to one request: a replacement makes it that an acceptable
submission has started, for the Pod that was submitted, or it is the deletion that a removal asks
for. What is refused is refused before any call.

## Main statements

- `Session.makes_step`: who makes which calls in a step, and what a step starts
- `Session.started_of_plan`: every replacement was started by a submission
- `Session.licensed_of_mem_issues`: every mutating call goes back to a request
- `Session.calls_are_gated`: that, and the refusals
-/

namespace PodDesk

namespace World

/-! ## Calls and what others do meanwhile -/

/-- The calls of the tasks up to a time, as `World.issues` has them. -/
def issuesBefore (w : World) (limit : Nat) : List Issue :=
  issues (fun _ time => time < limit) w.budget w

theorem makes_advanceTo (w : World) (time : Nat) :
    w.Makes (w.issuesBefore time) [] [] (w.advanceTo time) :=
  (makes_run _ _ w).congr rfl rfl

/-- The call of a question, and those of the tasks until `World.ask` has its answer or drops it. -/
def issuesOfAsk {α : Type} (w : World) (query : Query α) (limit : Option Nat) : List Issue :=
  let (entered, incident) := w.enter query.call
  let due := w.now + incident.delay
  ⟨.request, w.now, query.call⟩ ::
    if incident.delay = 0 then []
    else entered.issuesBefore (if isHeard limit due then due else limit.getD due)

/-- `World.ask` makes the call of the question, and the tasks make theirs. -/
theorem makes_ask {α : Type} (w : World) (query : Query α) (limit : Option Nat) :
    w.Makes (w.issuesOfAsk query limit) [query.call] [] (w.ask query limit).1 := by
  have hentered := w.makes_enter query.call
  have hwaited := fun time => hentered.trans ((w.enter query.call).1.makes_advanceTo time)
  have hnow : (w.enter query.call).1.now = w.now := rfl
  unfold ask issuesOfAsk
  by_cases hdelay : (w.enter query.call).2.delay = 0
  · simp only [hdelay, true_or, if_true]
    split <;> exact hentered.congr rfl rfl
  · simp only [hdelay, false_or, if_false, hnow]
    split
    · split <;> exact (hwaited _).congr rfl rfl
    · exact hwaited _

end World

namespace Session

variable {s : Session}

/-! ## Who makes which calls -/

/-- The calls of the tasks that are due before anything else happens in a `Session.step`. -/
def issuesDue (s : Session) : List Issue :=
  s.world.issuesBefore (s.world.now + 1)

/-- The calls of the tasks while `Session.runReplacement` waits for a new one. -/
def issuesOfReplacement (s : Session) (q : PodRequest) (limit : Option Nat) : List Issue :=
  let (start, i) := s.world.spawn (s.plan q) s.wait
  let ran := start.runTask i limit
  World.issues (fun w time => ! w.isOver i && limit.all (time < ·)) start.budget start ++
    if (ran.tasks[i]?.bind (·.result?)).isSome then ran.issuesBefore (ran.now + 1) else []

/-- The calls while `Session.serve` serves a request. -/
def issuesOfRequest (s : Session) (r : Http.Request) (limit : Option Nat) : List Issue :=
  match s.policy.preflight? r, s.service.handle r with
  | none, .ask query _ => s.world.issuesOfAsk query limit
  | none, .replace q => s.issuesOfReplacement q limit
  | _, _ => []

/-- The session when whatever was due has happened. -/
def settled (s : Session) : Session :=
  { s with world := s.world.settle }

/-- The calls in a `Session.step`, with their callers. -/
def issues (s : Session) (action : Step) : List Issue :=
  s.issuesDue ++
    match action with
    | .advance duration => s.settled.world.issuesBefore (s.settled.world.now + duration)
    | .request r patience =>
      s.settled.issuesOfRequest r (patience.map (s.settled.world.now + ·))
    | _ => []

/-- `runReplacement` adds one task, and only tasks make calls while it is waited for. -/
theorem makes_runReplacement (s : Session) (q : PodRequest) (limit : Option Nat) :
    s.world.Makes (s.issuesOfReplacement q limit) [] [s.plan q]
      (s.runReplacement q limit).1 := by
  have hspawned := s.world.makes_spawn (s.plan q) s.wait
  generalize hstart : s.world.spawn (s.plan q) s.wait = start at hspawned
  obtain ⟨start, i⟩ := start
  -- Whether or not the caller waits to the end, only tasks are run.
  have hran : s.world.Makes _ [] [s.plan q] (start.runTask i limit) :=
    hspawned.trans (World.makes_run _ _ start)
  have hsettled : s.world.Makes _ [] [s.plan q] (start.runTask i limit).settle :=
    hran.trans (World.makes_run _ _ _)
  unfold runReplacement issuesOfReplacement
  rw [spawn_plan, hstart]
  dsimp only
  cases (start.runTask i limit).tasks[i]?.bind (·.result?) with
  | none =>
    dsimp only [Option.isSome_none]
    rw [if_neg Bool.false_ne_true, List.append_nil]
    exact hran.congr rfl rfl
  | some result => cases result <;> exact hsettled

/-- `s.Submits action q` says that the step is an acceptable submission of `q`, and that there is a
connection. -/
def Submits (s : Session) (action : Step) (q : PodRequest) : Prop :=
  ∃ r patience, action = .request r patience ∧ s.connected = true ∧ (Command.submit q).AskedBy r

/-- `s.Removes action key` says that the step asks for the removal of a Pod, and that there is a
connection. -/
def Removes (s : Session) (action : Step) (key : PodKey) : Prop :=
  ∃ r patience ns name, action = .request r patience ∧ s.connected = true ∧
    r.method = "DELETE" ∧ r.path = Endpoint.podPathOf ns name ∧ Service.key? ns name = some key

/-- `Session.respond` sends what `Session.serve` gives, and that changes nothing else. -/
theorem fst_respond {r : Http.Request} (hpreflight : s.policy.preflight? r = none)
    (limit : Option Nat) : (s.respond r limit).1 = (s.serve r limit).1 := by
  simp only [respond, hpreflight]
  split
  · rename_i heq
    rw [heq]
  · rfl

/-- `Session.respond` makes no call of its own and starts no task but those that `Service.handle`
lets through. -/
private theorem makes_respond (s : Session) (r : Http.Request) (limit : Option Nat) :
    ∃ own started, s.world.Makes (s.issuesOfRequest r limit) own started (s.respond r limit).1 ∧
      (∀ call ∈ own, (s.service.handle r).call? = some call) ∧
      (started = [] ∨ ∃ q, s.service.handle r = .replace q ∧ started = [s.plan q]) := by
  cases hpreflight : s.policy.preflight? r with
  | some response =>
    refine ⟨[], [], ?_, List.forall_mem_nil _, .inl rfl⟩
    simp only [respond, issuesOfRequest, hpreflight]
    exact .refl _
  -- A preflight is answered at once; anything else goes by the handling.
  | none =>
    rw [fst_respond hpreflight]
    cases hhandle : s.service.handle r with
    | respond response =>
      refine ⟨[], [], ?_, List.forall_mem_nil _, .inl rfl⟩
      simp only [serve, issuesOfRequest, hpreflight, hhandle]
      exact .refl _
    | ask query decide =>
      refine ⟨[query.call], [], ?_, List.forall_mem_singleton.2 rfl, .inl rfl⟩
      have hasked := s.world.makes_ask query limit
      simp only [serve, issuesOfRequest, hpreflight, hhandle]
      split <;> rename_i heq <;> rw [heq] at hasked <;> exact hasked
    | replace q =>
      refine ⟨[], [s.plan q], ?_, List.forall_mem_nil _, .inr ⟨q, rfl, rfl⟩⟩
      simp only [serve, issuesOfRequest, hpreflight, hhandle]
      exact s.makes_runReplacement q limit

/-- `Session.step` makes a mutating call of its own only for a removal, and starts a task only for a
submission. -/
theorem makes_step (s : Session) (action : Step) :
    ∃ own started, s.world.Makes (s.issues action) own started (s.step action).1.world ∧
      (∀ call ∈ own, call.kind.Mutates →
        ∃ key, s.Removes action key ∧ call = .delete key (.background s.settings.gracePeriod)) ∧
      (started = [] ∨ ∃ q, s.Submits action q ∧ started = [s.plan q]) := by
  have hsettled : s.world.Makes s.issuesDue [] [] s.settled.world := World.makes_run _ _ _
  have hquiet : s.world.Makes (s.issuesDue ++ []) [] [] s.settled.world := by
    rwa [List.append_nil]
  -- Only a request has calls of its own or starts a task.
  cases action with
  | connect => exact ⟨[], [], hquiet, List.forall_mem_nil _, .inl rfl⟩
  | disconnect => exact ⟨[], [], hquiet, List.forall_mem_nil _, .inl rfl⟩
  | put key pod => exact ⟨[], [], hquiet.congr rfl rfl, List.forall_mem_nil _, .inl rfl⟩
  | remove key => exact ⟨[], [], hquiet.congr rfl rfl, List.forall_mem_nil _, .inl rfl⟩
  | advance duration =>
    exact ⟨[], [], hsettled.trans (World.makes_advanceTo _ _), List.forall_mem_nil _, .inl rfl⟩
  | request r patience =>
    obtain ⟨own, started, hmakes, hown, hstarted⟩ :=
      s.settled.makes_respond r (patience.map (s.settled.world.now + ·))
    refine ⟨own, started, ?_, fun call hcall hmutates => ?_, ?_⟩
    · exact hsettled.trans hmakes
    · obtain ⟨hconnected, hmethod, ns, name, key, hpath, hkey, hdelete⟩ :=
        Service.removal_of_call (hown call hcall) hmutates
      exact ⟨key, ⟨r, patience, ns, name, rfl, hconnected, hmethod, hpath, hkey⟩, hdelete⟩
    · refine hstarted.imp id ?_
      rintro ⟨q, hhandle, hplan⟩
      obtain ⟨hconnected, hasked⟩ := Service.submission_of_replace hhandle
      exact ⟨q, ⟨r, patience, rfl, hconnected, hasked⟩, hplan⟩

/-! ## Sequences of steps -/

/-- `start.Started steps i q` says that a submission of `q` among the steps has started the task
`i`. -/
def Started (start : Session) (steps : List Step) (i : Nat) (q : PodRequest) : Prop :=
  ∃ before action after, steps = before ++ action :: after ∧
    (start.play before).Submits action q ∧ (start.play before).world.tasks.length = i

theorem play_append (s : Session) (before after : List Step) :
    s.play (before ++ after) = (s.play before).play after :=
  List.foldl_append

/-- What `Session.step` does not change stays as it is under `Session.play`. -/
private theorem play_eq {α : Type} {f : Session → α}
    (hstep : ∀ (s : Session) (action : Step), f (s.step action).1 = f s) (s : Session)
    (steps : List Step) : f (s.play steps) = f s := by
  induction steps generalizing s with
  | nil => rfl
  | cons action steps ih => exact (ih _).trans (hstep s action)

theorem settings_play (s : Session) (steps : List Step) : (s.play steps).settings = s.settings :=
  play_eq (fun _ action => by cases action <;> rfl) s steps

theorem recording_play (s : Session) (steps : List Step) :
    (s.play steps).recording = s.recording :=
  play_eq (fun _ action => by cases action <;> rfl) s steps

/-- `Started` is kept by further steps. -/
theorem Started.append {start : Session} {steps : List Step} {i : Nat} {q : PodRequest}
    (h : start.Started steps i q) (more : List Step) : start.Started (steps ++ more) i q := by
  obtain ⟨before, action, after, rfl, hsubmits, hnumber⟩ := h
  exact ⟨before, action, after ++ more, by simp, hsubmits, hnumber⟩

/-- `World.plans` holds only what was submitted: every task was started by a submission, and is
about its request. -/
theorem started_of_plan {start : Session} (hempty : start.world.tasks = []) {steps : List Step}
    {i : Nat} {p : Plan} (h : (start.play steps).world.plans[i]? = some p) :
    ∃ q, start.Started steps i q ∧ p = start.plan q := by
  -- The induction is on the steps from the last one back: a task was there before the last step, or
  -- that step has started it.
  induction steps using List.reverseRec with
  | nil => simp [play, World.plans, hempty] at h
  | append_singleton steps action ih =>
    obtain ⟨own, started, hmakes, -, hstarted⟩ := (start.play steps).makes_step action
    rw [play_append, show ((start.play steps).play [action]).world =
      ((start.play steps).step action).1.world from rfl, hmakes.plans] at h
    by_cases hlt : i < (start.play steps).world.plans.length
    · rw [List.getElem?_append_left hlt] at h
      obtain ⟨q, hq, hplan⟩ := ih h
      exact ⟨q, hq.append [action], hplan⟩
    · -- It is the task that the last step has started.
      rw [List.getElem?_append_right (by omega)] at h
      rcases hstarted with rfl | ⟨q, hsubmits, rfl⟩
      · simp at h
      · rw [List.getElem?_singleton] at h
        split at h
        · rename_i hlast
          have hnumber : (start.play steps).world.tasks.length = i := by
            rw [World.plans, List.length_map] at hlt hlast
            omega
          refine ⟨q, ⟨steps, action, [], rfl, hsubmits, hnumber⟩, ?_⟩
          rw [← Option.some.inj h, plan, settings_play, plan]
        · simp at h

/-- `start.Licensed before action x` says that a mutating call is made for what the steps so far
have asked for: by a replacement that a submission has started, as its request has it, or for a
removal that arrives in the last step. -/
inductive Licensed (start : Session) (before : List Step) (action : Step) (x : Issue) : Prop where
  | submission {i : Nat} {q : PodRequest} {found : Option Pod} (hcaller : x.caller = .task i)
      (hstarted : start.Started (before ++ [action]) i q)
      (hcall : x.call.Suits q start.settings.gracePeriod found)
  | removal {key : PodKey} (hcaller : x.caller = .request)
      (hremoves : (start.play before).Removes action key)
      (hcall : x.call = .delete key (.background start.settings.gracePeriod))

/-- `Session.issues` has no mutating calls but those that are `Licensed` by the steps so far. -/
theorem licensed_of_mem_issues {start : Session} (hempty : start.world.tasks = [])
    {before : List Step} {action : Step} {x : Issue}
    (hx : x ∈ (start.play before).issues action) (hmutates : x.call.kind.Mutates) :
    start.Licensed before action x := by
  obtain ⟨own, started, hmakes, hown, -⟩ := (start.play before).makes_step action
  rcases hmakes.callers x hx with ⟨hcaller, hmem⟩ | ⟨i, p, found, hcaller, hplan, hsuits⟩
  · obtain ⟨key, hremoves, hdelete⟩ := hown x.call hmem hmutates
    rw [settings_play] at hdelete
    exact .removal hcaller hremoves hdelete
  · -- The task may have been started in this very step.
    have hplay : (start.play (before ++ [action])).world.plans[i]? = some p := by
      rw [play_append]
      exact hplan
    obtain ⟨q, hq, rfl⟩ := started_of_plan hempty hplay
    exact .submission hcaller hq hsuits

/-! ## Refusals -/

/-- `s.Refuses action status error` says that a request is refused with a status and an error, and
that nothing is done for it: all calls in the step are made by replacements that were there before,
and the session is the one in which they have made them. -/
def Refuses (s : Session) (action : Step) (status : Nat) (error : List (String × Json)) : Prop :=
  (∀ x ∈ s.issues action, ∃ i, x.caller = .task i ∧ i < s.world.tasks.length) ∧
    ∃ response, s.step action = (s.settled, .response response) ∧ response.status = status ∧
      response.body = .json (.obj [("success", .bool false), ("error", .obj error)])

/-- `Handling.respond` with the report of a problem refuses the request and leaves the cluster
alone. -/
private theorem refuses_of_handle {r : Http.Request} {p : Problem} (hoptions : r.method ≠ "OPTIONS")
    (h : s.settled.service.handle r = .respond (Service.report p)) (patience : Option Nat)
    {error : List (String × Json)}
    (herror : (Envelope.ofProblem p).toJson =
      .obj [("success", .bool false), ("error", .obj error)]) :
    s.Refuses (.request r patience) (Envelope.ofProblem p).status error := by
  have hpreflight : s.settled.policy.preflight? r = none := if_neg hoptions
  refine ⟨fun x hx => ?_, Service.send s.policy r (Service.report p), ?_, rfl, ?_⟩
  -- All that happens in the step was due before the request came.
  · have hdue : s.issues (.request r patience) = s.issuesDue := by
      simp only [issues, issuesOfRequest, hpreflight, h, List.append_nil]
    have hmakes : s.world.Makes s.issuesDue [] [] s.settled.world := World.makes_run _ _ _
    rcases hmakes.callers x (hdue ▸ hx) with ⟨-, hown⟩ | ⟨i, p, found, hcaller, hplan, -⟩
    · exact absurd hown List.not_mem_nil
    · refine ⟨i, hcaller, ?_⟩
      have hlt := (List.getElem?_eq_some_iff.1 hplan).1
      rw [hmakes.plans, List.append_nil, World.plans, List.length_map] at hlt
      exact hlt
  · have hrespond : s.settled.respond r (patience.map (s.settled.world.now + ·)) =
        (s.settled.world, .response (Service.send s.policy r (Service.report p))) := by
      simp only [respond, hpreflight, serve, h]
      rfl
    have hstep : s.step (.request r patience) =
        let result := s.settled.respond r (patience.map (s.settled.world.now + ·))
        ({ s.settled with world := result.1 }, result.2) := rfl
    rw [hstep, hrespond]
  · rw [← herror]
    rfl

/-- `Session.step` in every session that can come about has the calls of the step in its log, and
each that changes the cluster or prepares a change is licensed by the requests so far. A submission
that is not acceptable is refused with the field that is wrong, with or without a connection.
Without one, every request that needs the cluster is refused. -/
theorem calls_are_gated {settings : Settings} {recording connected : Bool} {cluster : Cluster}
    {start : Session} (hstart : start? settings recording connected cluster = some start)
    (before : List Step) :
    let s := start.play before
    (∀ action, (s.step action).1.world.log = s.world.log ++ (s.issues action).map Issue.entry ∧
      ∀ x ∈ s.issues action, x.call.kind.Mutates → start.Licensed before action x) ∧
    (∀ r patience q v, r.method = "POST" → r.path = Endpoint.podsPath →
      Service.readBody r = .ok q → q.violation? = some v →
      s.Refuses (.request r patience) 400
        [("code", .str "VALIDATION_ERROR"), ("message", .str (v.field ++ ": " ++ v.message)),
          ("details", .obj [("field", .str v.field)])]) ∧
    (s.connected = false → ∀ r patience, Service.NeedsCluster r →
      s.Refuses (.request r patience) 503
        [("code", .str "UNAVAILABLE"), ("message", .str "Kubernetes cluster not available")]) := by
  intro s
  have hempty : start.world.tasks = [] := by
    obtain ⟨policy, -, rfl⟩ := Option.map_eq_some_iff.1 hstart
    rfl
  refine ⟨fun action => ⟨?_, fun x => licensed_of_mem_issues hempty⟩, ?_, ?_⟩
  · obtain ⟨own, started, hmakes, -⟩ := s.makes_step action
    exact hmakes.log
  · intro r patience q v hmethod hpath hbody hviolation
    exact refuses_of_handle (by simp [hmethod])
      (Service.handle_unacceptable hmethod hpath hbody hviolation) patience rfl
  · intro hdisconnected r patience hneeds
    exact refuses_of_handle hneeds.method_ne
      (Service.handle_disconnected hdisconnected hneeds) patience rfl

/-- A submission without a name. -/
def namelessPost : Http.Request :=
  { submissionPost with body := "\x7b\x7d" }

/-- The caller gives up while the deletion is underway, and the cluster goes away. The replacement
that was started still creates its Pod; a submission without a name and a removal are refused. -/
theorem slow_session_is_gated :
    let before := [.request submissionPost (some 10), .disconnect]
    let s := (slowSession 5).play before
    let creation : Issue := ⟨.task 0, 320, .create "prod" submission.toPod⟩
    (creation ∈ s.issues (.advance 1000) ∧
      (slowSession 5).Licensed before (.advance 1000) creation) ∧
    s.Refuses (.request namelessPost none) 400
      [("code", .str "VALIDATION_ERROR"), ("message", .str "base.name: must not be empty"),
        ("details", .obj [("field", .str "base.name")])] ∧
    s.Refuses (.request { method := "DELETE", target := "/api/v1/k8s/pod/prod/web" } none) 503
      [("code", .str "UNAVAILABLE"), ("message", .str "Kubernetes cluster not available")] := by
  intro before s creation
  obtain ⟨hcalls, hunacceptable, hdisconnected⟩ := calls_are_gated (start_slowSession 5) before
  have hmade : creation ∈ s.issues (.advance 1000) := by decide +kernel
  have hread : (Service.readBody namelessPost).toOption = some {} := by decide +kernel
  have hbody : Service.readBody namelessPost = .ok {} := by
    cases hresult : Service.readBody namelessPost with
    | error rejection => simp [hresult, Except.toOption] at hread
    | ok request => simpa [hresult, Except.toOption] using hread
  -- The creation is due while time passes, and nobody is needed to ask for it.
  refine ⟨⟨hmade, (hcalls _).2 creation hmade (by decide)⟩, ?_, ?_⟩
  · exact hunacceptable namelessPost none {} (.podName .empty) rfl (by decide +kernel) hbody
      (by decide +kernel)
  · refine hdisconnected rfl _ none
      (@Service.NeedsCluster.remove _ "prod".toList "web".toList rfl ?_ ?_ ?_ ?_ ?_)
    all_goals decide +kernel

end Session

end PodDesk
