import PodDesk.Proofs.Service.Moments

/-!
# Figures about replacements

A monitor reads how many replacements came out in which way, and how many there were in all. Here
the figures are tied to the replacements themselves: at every moment they count those that have an
outcome, whether or not anyone waited for it, and none that has crashed or still goes on.

## Main statements

- `SortedMap.sumOver_insert`: what an insertion does to a sum of counts
- `World.IsTallied.turn`: a task that gets its outcome is counted in the same turn
- `World.IsTallied.becomes`: whatever happens, the figures are those of the outcomes
- `Session.figures_count_outcomes`: what the figures show at every moment of a session
-/

namespace PodDesk

/-! ## Maps of counts -/

namespace SortedMap

variable {κ : Type} [KeyOrder κ]

/-- The sum of the counts in `m` under the keys that are `wanted`. -/
def sumOver (wanted : κ → Bool) (m : SortedMap κ Nat) : Nat :=
  World.total (fun e => if wanted e.1 then e.2 else 0) m.entries

private theorem total_insertEntry (wanted : κ → Bool) (key : κ) (n : Nat)
    (entries : List (κ × Nat)) :
    World.total (fun e => if wanted e.1 then e.2 else 0) (insertEntry key n entries) +
        (if wanted key then (findEntry key entries).getD 0 else 0) =
      World.total (fun e => if wanted e.1 then e.2 else 0) entries +
        if wanted key then n else 0 := by
  -- `insertEntry` and `findEntry` recurse over the entries alike: while the key is further on, both
  -- sides keep the first entry.
  induction entries with
  | nil => simp [insertEntry, findEntry, World.total]
  | cons entry rest ih =>
    simp only [insertEntry, findEntry]
    -- The key stands before the first entry, after it, or in it.
    split
    · simp only [World.total, Option.getD_none, ite_self]
      omega
    · rename_i hlt
      split
      · simp only [World.total]
        omega
      · rename_i hgt
        obtain rfl := KeyOrder.eq_of_not_lt hlt hgt
        simp only [World.total, Option.getD_some]
        omega

/-- `insert` adds a count to the sum and takes out the one that it replaces. -/
theorem sumOver_insert (wanted : κ → Bool) (m : SortedMap κ Nat) (key : κ) (n : Nat) :
    (m.insert key n).sumOver wanted + (if wanted key then (m.get? key).getD 0 else 0) =
      m.sumOver wanted + if wanted key then n else 0 :=
  total_insertEntry wanted key n m.entries

/-- What `Metrics.record` does to `counts`: one more under a key adds one to each sum in which the
key is wanted. -/
theorem sumOver_count (wanted : κ → Bool) (m : SortedMap κ Nat) (key : κ) :
    (m.insert key ((m.get? key).getD 0 + 1)).sumOver wanted =
      m.sumOver wanted + if wanted key then 1 else 0 := by
  have hinsert := m.sumOver_insert wanted key ((m.get? key).getD 0 + 1)
  cases hwanted : wanted key with
  | false => simpa [hwanted] using hinsert
  | true =>
    simp only [hwanted, if_true] at hinsert ⊢
    omega

end SortedMap

/-! ## Outcomes -/

/-- What `Outcome.label` tells of an outcome: what was done, or which step failed. -/
inductive Verdict where
  | created
  | replaced
  | failed (step : FailedStep)
  deriving DecidableEq, Repr

def Verdict.word : Verdict → String
  | created => "created"
  | replaced => "replaced"
  | failed step => step.word

def Outcome.verdict : Outcome → Verdict
  | .ok done => if done.replaced.isSome then .replaced else .created
  | .error failure => .failed failure.step

/-- `Outcome.label` is the word for what is told of the outcome. -/
theorem Outcome.label_eq (o : Outcome) : o.label = o.verdict.word := by
  cases o with
  | ok done =>
    simp only [label, Done.action, verdict]
    split <;> rfl
  | error failure => rfl

theorem Verdict.word_inj {v v' : Verdict} : v.word = v'.word ↔ v = v' := by
  refine ⟨fun h => ?_, congrArg word⟩
  -- Two of the seven words are equal only when they are the same.
  rcases v with _ | _ | ⟨_ | _⟩ <;> rcases v' with _ | _ | ⟨_ | _⟩
  all_goals first | rfl | exact absurd h (by decide)

namespace Task

variable {t : Task}

/-- The outcome of a task whose `result?` is one, not a crash. -/
def outcome? (t : Task) : Option Outcome :=
  t.result?.bind (·.toOption)

def isCrashed (t : Task) : Bool :=
  match t.activity with
  | .crashed _ => true
  | _ => false

theorem outcome?_of_runs (h : t.Runs) : t.outcome? = none := by
  have hopen := isOver_eq_false_of_runs h
  rw [isOver, Option.isSome_eq_false_iff, Option.isNone_iff_eq_none] at hopen
  rw [outcome?, hopen]
  rfl

/-- `Task.outcome?` of a task that heard a reply is the outcome of its stage: the deadline that
takes a task down comes with a wait. -/
theorem outcome?_hear (t : Task) (now : Nat) (reply : Reply) :
    (t.hear now reply).outcome? = (t.hear now reply).stage.outcome? := by
  unfold hear
  dsimp only
  split
  -- The stage was done when the reply came, so nothing is heard of it.
  · rename_i hstage
    unfold outcome? result?
    dsimp only
    split
    · rw [hstage]
      rfl
    · simp [hstage, Stage.outcome?]
  -- The reply leads to the next stage, and only a wait may crash after it.
  · unfold outcome? result?
    dsimp only
    cases (t.stage.next t.plan reply).outcome? <;> rfl

end Task

/-- `m.Counts outcomes` says that `m` holds the figures of `outcomes`: how many there are, and how
many under any set of labels. -/
structure Metrics.Counts (m : Metrics) (outcomes : List Outcome) : Prop where
  count : m.count = outcomes.length
  labels : ∀ wanted : String → Bool,
    m.counts.sumOver wanted = outcomes.countP (wanted ·.label)

namespace Metrics.Counts

variable {m : Metrics} {outcomes outcomes' : List Outcome}

theorem record (h : m.Counts outcomes) (o : Outcome) (duration : Nat) :
    (m.record o duration).Counts (o :: outcomes) where
  count := congrArg (· + 1) h.count
  labels wanted := by
    rw [List.countP_cons, ← h.labels wanted]
    exact SortedMap.sumOver_count wanted m.counts o.label

theorem perm (h : m.Counts outcomes) (hperm : outcomes'.Perm outcomes) : m.Counts outcomes' where
  count := h.count.trans hperm.length_eq.symm
  labels wanted := (h.labels wanted).trans (hperm.countP_eq _).symm

end Metrics.Counts

/-- `List.set` exchanges an element of which `f` gives nothing: what it gives of the new one comes
to the rest. -/
private theorem perm_filterMap_set {α β : Type} {f : α → Option β} {xs : List α} {i : Nat}
    {x : α} (hx : xs[i]? = some x) (hnone : f x = none) (y : α) :
    ((xs.set i y).filterMap f).Perm ((f y).toList ++ xs.filterMap f) := by
  -- The element that is exchanged is the first one, or stands among the others; there the
  -- permutation moves what `f` gives of the first one past the new result.
  induction xs generalizing i with
  | nil => simp at hx
  | cons z xs ih =>
    cases i with
    | zero =>
      obtain rfl : z = x := by simpa using hx
      rw [List.set_cons_zero, List.filterMap_cons_none hnone]
      cases hy : f y with
      | none => simp [hy]
      | some b => simp [hy]
    | succ i =>
      have hrest := ih (i := i) (by simpa using hx)
      rw [List.set_cons_succ]
      cases hz : f z with
      | none => simpa [hz] using hrest
      | some b =>
        rw [List.filterMap_cons_some hz, List.filterMap_cons_some hz]
        exact (hrest.cons b).trans List.perm_middle.symm

namespace World

variable {w w' : World} {i : Nat} {t u : Task} {started : List Plan}

/-- The outcomes of the tasks that have one, in the order of the tasks. -/
def outcomes (w : World) : List Outcome :=
  w.tasks.filterMap Task.outcome?

/-- A world `IsTallied` when its `metrics` are those of its `outcomes`. Every task goes on or is at
rest, so none can get a second outcome. -/
structure IsTallied (w : World) : Prop where
  tasks : ∀ t ∈ w.tasks, t.Runs ∨ t.AtRest
  metrics : w.metrics.Counts w.outcomes

/-! ## One event -/

theorem putTask_metrics (w : World) (i : Nat) (u : Task) :
    (w.putTask i u).metrics = match u.stage.outcome? with
      | some o => w.metrics.record o (w.now - u.started)
      | none => w.metrics := by
  unfold putTask
  cases u.stage.outcome? <;> rfl

/-- `World.putTask` keeps `IsTallied` when the task `t` in its place still `Runs`: the new task `u`
is the only one that may bring an outcome. -/
private theorem IsTallied.putTask (h : w.IsTallied) (ht : w.tasks[i]? = some t) (hruns : t.Runs)
    (hu : u.Runs ∨ u.AtRest) (hstage : u.outcome? = u.stage.outcome?)
    (htasks : w'.tasks = w.tasks) (hmetrics : w'.metrics = w.metrics) :
    (w'.putTask i u).IsTallied where
  tasks v hv := by
    rw [putTask_tasks, htasks] at hv
    rcases List.mem_or_eq_of_mem_set hv with hmem | rfl
    · exact h.tasks v hmem
    · exact hu
  metrics := by
    -- The old task has no outcome, so the new one brings all that there is to count.
    have hperm : (w'.putTask i u).outcomes.Perm (u.outcome?.toList ++ w.outcomes) := by
      rw [outcomes, putTask_tasks, htasks]
      exact perm_filterMap_set ht (Task.outcome?_of_runs hruns) u
    refine Metrics.Counts.perm ?_ hperm
    rw [putTask_metrics, hmetrics, ← hstage]
    cases u.outcome? with
    | none => exact h.metrics
    | some o => exact h.metrics.record o _

/-- `World.stepTask` keeps `IsTallied`: the task makes its call, hears a reply or is taken down. -/
theorem IsTallied.turn (h : w.IsTallied) (ht : w.tasks[i]? = some t) (hruns : t.Runs) :
    (w.stepTask i t).IsTallied := by
  obtain ⟨c, watch, reply, hheard, -⟩ | ⟨call, hactivity, hcall, -⟩ | ⟨-, -, hsame | hcrash⟩ :=
    w.deed_cases i t
  -- It hears a reply, and what `Task.hear` leaves runs on or rests with its outcome.
  · rw [stepTask_of_hearing hheard]
    exact h.putTask ht hruns (Task.runs_or_atRest_hear _ _ _) (Task.outcome?_hear _ _ _) rfl rfl
  -- It makes its call and waits for the reply.
  · rw [stepTask_of_ready hactivity hcall]
    refine h.putTask ht hruns (.inl ⟨hruns.unfinished, nofun, fun _ _ _ => ?_⟩) ?_ rfl rfl
    · exact Option.isSome_of_eq_some hcall
    · simp [Task.outcome?, Task.result?, hruns.unfinished]
  -- It stays as it is, or something takes it down without an outcome.
  · rwa [hsame]
  · rw [hcrash]
    exact h.putTask ht hruns (.inr (.inl ⟨_, rfl⟩)) hruns.unfinished.symm rfl rfl

private theorem IsTallied.tick {time : Nat} {actor : Actor} (h : w.IsTallied)
    (hnext : w.next? = some (time, actor)) : (w.tick time actor).IsTallied := by
  obtain ⟨j, r, -, -, htick⟩ | ⟨j, u, due, -, hu, hdue, -, htick⟩ := tick_cases hnext
  · rw [htick]
    exact ⟨h.tasks, h.metrics⟩
  · -- A task at rest is not due.
    have hruns : u.Runs := by
      refine (h.tasks u (List.mem_of_getElem? hu)).resolve_right fun hrest => ?_
      simp [Task.due?_of_atRest hrest] at hdue
    have hnow : ({ w with now := time } : World).IsTallied := ⟨h.tasks, h.metrics⟩
    rw [htick]
    exact hnow.turn hu hruns

/-- `World.spawn` keeps `IsTallied`, since the new task has no outcome yet. -/
private theorem IsTallied.spawn (h : w.IsTallied) (p : Plan) (wait : Nat) :
    (w.spawn p wait).1.IsTallied where
  tasks t ht := by
    simp only [World.spawn, List.mem_append, List.mem_singleton] at ht
    rcases ht with hmem | rfl
    · exact h.tasks t hmem
    · exact .inl ⟨rfl, by simp, by simp⟩
  metrics := by
    have houtcomes : (w.spawn p wait).1.outcomes = w.outcomes := by
      simp [outcomes, World.spawn, Task.outcome?, Task.result?, Stage.outcome?]
    rw [houtcomes]
    exact h.metrics

/-- Every event of `World.Moves` keeps `IsTallied`. -/
private theorem IsTallied.moves (h : w.IsTallied) (hmove : w.Moves started w') :
    w'.IsTallied := by
  cases hmove with
  | tick hnext => exact h.tick hnext
  | start p wait => exact h.spawn p wait
  | _ => exact ⟨h.tasks, h.metrics⟩

/-! ## Any number of events -/

/-- Any number of events keep `IsTallied`. -/
theorem IsTallied.becomes (h : w.IsTallied) (hbecomes : w.Becomes started w') :
    w'.IsTallied := by
  induction hbecomes with
  | refl => exact h
  | move _ hmove ih => exact ih.moves hmove

end World

/-! ## What is shown -/

/-- What a line of the figures adds to `Sample.sumOver`: its number, if it stands under `name` and a
label that is `wanted`. -/
def Sample.share (name : String) (wanted : Option (String × String) → Bool) : Sample → Nat
  | .count name' label n => if name' = name ∧ wanted label then n else 0
  | _ => 0

/-- The sum of the numbers under `name`, over the labels that are `wanted`. -/
def Sample.sumOver (name : String) (wanted : Option (String × String) → Bool)
    (lines : List Sample) : Nat :=
  World.total (share name wanted) lines

private theorem total_map_append {α β : Type} (f : β → Nat) (g : α → β) (xs : List α)
    (ys : List β) :
    World.total f (xs.map g ++ ys) = World.total (fun x => f (g x)) xs + World.total f ys := by
  induction xs with
  | nil => simp [World.total]
  | cons x xs ih => simp [World.total, ih, Nat.add_assoc]

namespace Service

variable (m : Metrics) (wanted : Option (String × String) → Bool)

/-- The lines under `k8sadmin_pod_reconcile_total` show the counts of `m`, each under its label. -/
private theorem sumOver_total (hcount : m.count ≠ 0) :
    Sample.sumOver "k8sadmin_pod_reconcile_total" wanted (samples m) =
      m.counts.sumOver fun outcome => wanted (some ("outcome", outcome)) := by
  unfold samples Sample.sumOver SortedMap.sumOver
  simp [hcount, World.total, total_map_append, Sample.share]

/-- One line under `k8sadmin_pod_reconcile_duration_seconds_count` shows `m.count`. -/
private theorem sumOver_durations (hcount : m.count ≠ 0) :
    Sample.sumOver "k8sadmin_pod_reconcile_duration_seconds_count" (fun _ => true) (samples m) =
      m.count := by
  have hnone : ∀ entries : List (String × Nat), World.total (fun _ => 0) entries = 0 := by
    intro entries
    induction entries with
    | nil => rfl
    | cons entry rest ih => exact (Nat.zero_add _).trans ih
  unfold samples Sample.sumOver
  simp [hcount, World.total, total_map_append, Sample.share, hnone]

end Service

namespace World

variable {w : World}

/-- `w.ShowsOutcomes` says that what a monitor reads counts the replacements that have an outcome,
in all and by what is told of it. Of the others some have crashed and the rest goes on. -/
structure ShowsOutcomes (w : World) : Prop where
  total : Sample.sumOver "k8sadmin_pod_reconcile_total" (fun _ => true)
    (Service.samples w.metrics) = w.outcomes.length
  durations : Sample.sumOver "k8sadmin_pod_reconcile_duration_seconds_count" (fun _ => true)
    (Service.samples w.metrics) = w.outcomes.length
  verdicts : ∀ v : Verdict, Sample.sumOver "k8sadmin_pod_reconcile_total"
    (· = some ("outcome", v.word)) (Service.samples w.metrics) = w.outcomes.countP (·.verdict = v)
  others : w.outcomes.length + w.tasks.countP (·.isCrashed) + w.tasks.countP (! ·.isOver) =
    w.tasks.length

/-- `Task.outcome?`, `Task.isCrashed` and `Task.isOver` tell three kinds of tasks apart, and there
are no others. -/
private theorem length_tasks_eq (tasks : List Task) :
    (tasks.filterMap Task.outcome?).length + tasks.countP (·.isCrashed) +
      tasks.countP (! ·.isOver) = tasks.length := by
  induction tasks with
  | nil => rfl
  | cons t rest ih =>
    -- A task is of one of the three kinds.
    have hone : t.outcome?.toList.length + (if t.isCrashed then 1 else 0) +
        (if ! t.isOver then 1 else 0) = 1 := by
      unfold Task.isOver Task.outcome? Task.result? Task.isCrashed
      cases t.activity <;> cases t.stage.outcome? <;> rfl
    have hcons : ((t :: rest).filterMap Task.outcome?).length =
        t.outcome?.toList.length + (rest.filterMap Task.outcome?).length := by
      cases ht : t.outcome? with
      | none => rw [List.filterMap_cons_none ht]; simp
      | some o => rw [List.filterMap_cons_some ht]; simp [Nat.add_comm]
    rw [hcons, List.countP_cons, List.countP_cons, List.length_cons]
    omega

/-- In a world that `IsTallied` the samples show the outcomes. -/
theorem IsTallied.showsOutcomes (h : w.IsTallied) : w.ShowsOutcomes := by
  have hothers := length_tasks_eq w.tasks
  by_cases hcount : w.metrics.count = 0
  · -- Nothing is shown, and there is nothing to show.
    have hempty : w.outcomes = [] := List.eq_nil_of_length_eq_zero (h.metrics.count ▸ hcount)
    have hlines : Service.samples w.metrics = [] := by simp [Service.samples, hcount]
    refine ⟨?_, ?_, ?_, hothers⟩ <;> simp [hlines, hempty, Sample.sumOver, World.total]
  · refine ⟨?_, ?_, ?_, hothers⟩
    -- In all, each outcome stands under some label.
    · rw [Service.sumOver_total _ _ hcount, h.metrics.labels, List.countP_true]
    · rw [Service.sumOver_durations _ hcount, h.metrics.count]
    · intro v
      rw [Service.sumOver_total _ _ hcount, h.metrics.labels]
      -- Outcomes share a label only when the same is told of them.
      refine List.countP_congr fun o _ => ?_
      simp [Outcome.label_eq, Verdict.word_inj]

end World

namespace Session

variable {s : Session}

/-- `GET /metrics` is answered with the samples of `Session.settled`, the session in which whatever
was due has happened. -/
theorem step_metrics (hrecording : s.recording = true) {r : Http.Request}
    (hmethod : r.method = "GET") (hpath : r.path = "/metrics".toList) (patience : Option Nat) :
    ∃ response, (s.step (.request r patience)).2 = .response response ∧
      response.body = .samples (Service.samples s.settled.world.metrics) := by
  -- The request is routed to the figures, past the answer for other origins, and its body is left
  -- as it is when it is sent.
  have hendpoint : Endpoint.ofPath? r.path = some .metrics := by
    rw [hpath]
    decide
  have hhandle : s.settled.service.handle r = .respond
      ⟨200, .samples (Service.samples s.settled.world.metrics), none, [], false⟩ := by
    have hmetrics : s.settled.service.metrics = some s.settled.world.metrics := if_pos hrecording
    simp [Service.handle, hendpoint, hmethod, Endpoint.methods, Service.serve,
      Service.showMetrics, hmetrics]
  have hpreflight : s.settled.policy.preflight? r = none := by
    simp [Http.OriginPolicy.preflight?, hmethod]
  have hrespond : (s.settled.respond r (patience.map (s.settled.world.now + ·))).2 =
      .response (Service.send s.policy r
        ⟨200, .samples (Service.samples s.settled.world.metrics), none, [], false⟩) := by
    simp only [respond, hpreflight, serve, hhandle]
    rfl
  exact ⟨_, hrespond, rfl⟩

/-- With figures recorded from the start, what a monitor reads counts the outcomes at every moment:
whatever happens in whatever order, and so in every world on the path of a step. A step starts a
replacement exactly when it submits an acceptable request to a service with a connection, so what is
refused is never counted. -/
theorem figures_count_outcomes {settings : Settings} {connected : Bool} {cluster : Cluster}
    {start : Session} (hstart : start? settings true connected cluster = some start) :
    (∀ started w, start.world.Becomes started w → w.plans = started ∧ w.ShowsOutcomes) ∧
    ∀ before action,
      let s := start.play before
      s.world.Path (s.moments action) (s.step action).1.world ∧
      (∀ w ∈ s.moments action, w.ShowsOutcomes ∧
        (w.plans = s.world.plans ∨
          ∃ q, s.Submits action q ∧ w.plans = s.world.plans ++ [s.plan q])) ∧
      (∀ q, s.Submits action q →
        (s.step action).1.world.plans = s.world.plans ++ [s.plan q]) ∧
      ∀ r patience, action = .request r patience → r.method = "GET" →
        r.path = "/metrics".toList → ∃ response, (s.step action).2 = .response response ∧
          ∃ w ∈ s.moments action, response.body = .samples (Service.samples w.metrics) := by
  -- A session starts with no task and with empty figures, so the two agree.
  obtain ⟨hempty, hmetrics, hrecording⟩ : start.world.tasks = [] ∧ start.world.metrics = {} ∧
      start.recording = true := by
    obtain ⟨policy, -, rfl⟩ := Option.map_eq_some_iff.1 hstart
    exact ⟨rfl, rfl, rfl⟩
  have htallied : start.world.IsTallied := by
    refine ⟨by simp [hempty], ?_, ?_⟩
    · rw [hmetrics, World.outcomes, hempty]
      rfl
    · intro wanted
      rw [hmetrics, World.outcomes, hempty]
      rfl
  refine ⟨fun started w hbecomes => ⟨?_, (htallied.becomes hbecomes).showsOutcomes⟩, ?_⟩
  · rw [hbecomes.plans, World.plans, hempty]
    rfl
  intro before action s
  have hpath := s.path_moments action
  refine ⟨hpath, fun w hmoment => ?_, fun q hsubmits => plans_submit hsubmits, ?_⟩
  · -- The worlds of the steps before and those of this one come about one after the other.
    obtain ⟨earlier, hbefore⟩ := start.becomes_play before
    obtain ⟨⟨started, hbecomes⟩, -⟩ := hpath.becomes_of_mem hmoment
    exact ⟨(htallied.becomes (hbefore.trans hbecomes)).showsOutcomes, plans_of_mem_moments hmoment⟩
  · rintro r patience rfl hmethod hpath
    obtain ⟨response, hreaction, hbody⟩ :=
      step_metrics ((start.recording_play before).trans hrecording) hmethod hpath patience
    exact ⟨response, hreaction, s.settled.world, s.settled_mem_moments _, hbody⟩

/-- A cluster that takes down whoever creates a Pod first, with the Pods and the delays of
`slowCluster`. -/
def crashingCluster : Cluster where
  pods := slowCluster.pods
  script := fun
    | .create => [some { crash := true }]
    | kind => slowCluster.script kind

/-- A service that records figures, connected to `crashingCluster`. -/
def crashingSession : Session where
  settings := { deletionWait := 5, allowedOrigins := "" }
  policy := ⟨[]⟩
  recording := true
  connected := true
  world := { cluster := crashingCluster }

/-- Two callers submit the same Pod. The first gives up before anything has come of it, and the
replacement goes on and crashes when the other one has removed the old Pod. Only the other one is
counted. -/
theorem crashing_session_counts_one :
    let s := crashingSession.play [.request submissionPost (some 100)]
    let w := (s.step (.request submissionPost none)).1.world
    (s.world.outcomes.length = 0 ∧ s.world.plans.length = 1) ∧
      w.plans.length = 2 ∧ w.tasks.countP (·.isCrashed) = 1 ∧
      Sample.sumOver "k8sadmin_pod_reconcile_total" (fun _ => true)
        (Service.samples w.metrics) = 1 ∧
      Sample.sumOver "k8sadmin_pod_reconcile_duration_seconds_count" (fun _ => true)
        (Service.samples w.metrics) = 1 ∧
      Sample.sumOver "k8sadmin_pod_reconcile_total" (· = some ("outcome", "replaced"))
        (Service.samples w.metrics) = 1 := by
  intro s w
  have hstart := start?_without_origins 5 true true crashingCluster
  obtain ⟨hpath, hmoments, -⟩ := (figures_count_outcomes hstart).2
    [.request submissionPost (some 100)] (.request submissionPost none)
  have hshows : w.ShowsOutcomes := (hmoments w hpath.last_mem).1
  obtain ⟨hbefore, hafter, houtcomes, hreplaced⟩ :
      (s.world.outcomes.length = 0 ∧ s.world.plans.length = 1) ∧
        (w.plans.length = 2 ∧ w.tasks.countP (·.isCrashed) = 1) ∧ w.outcomes.length = 1 ∧
          w.outcomes.countP (·.verdict = .replaced) = 1 := by
    decide +kernel
  exact ⟨hbefore, hafter.1, hafter.2, hshows.total.trans houtcomes,
    hshows.durations.trans houtcomes, (hshows.verdicts .replaced).trans hreplaced⟩

end Session

end PodDesk
