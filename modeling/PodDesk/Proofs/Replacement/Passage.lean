import PodDesk.Proofs.Replacement.Recreation

/-!
# The passage of a replacement that is on its own

While the other tasks are at rest, what happens next is the turn of the one that is not, or a
removal that comes before it. Here are the ticks that lead a replacement from one stage to the next,
with what it does in them and the time that they take.

## Main statements

- `World.Solo.next?`: it is the turn of the task, unless a removal comes first
- `World.Solo.passes_call`, `World.Solo.passes_answer`: the tick of a call and the tick of its answer
- `World.Solo.passes_news`, `World.Solo.passes_deadline`, `World.Solo.passes_removal`: the ticks in
  which the task reads an item, the deadline comes, or a Pod is removed
- `World.passes_opening`: the calls before a deletion
- `World.runTask_of_reaches`, `World.taskDeeds_of_passes`: what comes of a whole replacement
-/

namespace PodDesk

/-! ## Answers without trouble -/

namespace Cluster

theorem lookup_plain (c : Cluster) (key : PodKey) : c.lookup {} key = .ok (c.pods.get? key) := by
  simp [lookup]

/-- `Cluster.create` without an incident stores the Pod under a free name. -/
theorem create_plain (c : Cluster) (key : PodKey) (pod : Pod)
    (hname : pod.metadata.name = some key.name) (hfree : c.pods.get? key = none) :
    c.create {} key.ns pod =
      ({ c with
          pods := c.pods.insert key (stored key.ns (c.created + 1) pod)
          created := c.created + 1 }, .ok ()) := by
  simp [create, hname, hfree]

/-- `Cluster.advance` for a call of another kind takes no incident of this kind. -/
theorem incident_advance_of_ne {c : Cluster} {kind kind' : CallKind} (h : kind ≠ kind') :
    (c.advance kind').incident kind = c.incident kind := by
  simp [incident, advance, h]

end Cluster

/-! ## Calls and the last one -/

theorem Stage.outcome?_of_call? {p : Plan} {stage : Stage} {call : Call}
    (hcall : stage.call? p = some call) : stage.outcome? = none := by
  cases stage <;> simp [call?] at hcall <;> rfl

/-- The stage of the last call: the creation, after `signal` when an old Pod had to go. -/
def Stage.last : Option Signal → Stage
  | none => .create
  | some signal => .recreate signal

/-- What comes of the answer to the last call. -/
def Plan.outcome (p : Plan) (signal : Option Signal) : Except ClusterError Unit → Outcome
  | .ok () => .ok ⟨p.key, signal⟩
  | .error e => .error ⟨p.key, if signal.isSome then .recreate else .create, e⟩

theorem Stage.call?_last (p : Plan) (signal : Option Signal) :
    (last signal).call? p = some (.create p.key.ns p.pod) := by
  cases signal <;> rfl

theorem Stage.next_last (p : Plan) (signal : Option Signal) (answer : Except ClusterError Unit) :
    (last signal).next p (.done answer) = .finished (p.outcome signal answer) := by
  rcases answer with e | ⟨⟩ <;> cases signal <;> rfl

namespace World

variable {w w' w'' : World} {i : Nat} {t : Task}

/-- `w.Solo i t` says that task `t` goes on among tasks at rest. -/
structure Solo (w : World) (i : Nat) (t : Task) : Prop where
  task : w.tasks[i]? = some t
  others : w.OthersAtRest i

/-- The condition of a run that goes on until task `i` is over. -/
def untilOver (i : Nat) (w : World) (_time : Nat) : Bool :=
  ! w.isOver i

/-- `Reaches i w ticks w'` says that a run until task `i` is over comes from `w` to `w'` in so many
ticks. -/
def Reaches (i : Nat) (w : World) (ticks : Nat) (w' : World) : Prop :=
  ∀ n, run (untilOver i) (n + ticks) w = run (untilOver i) n w'

theorem Reaches.trans {k l : Nat} (h : Reaches i w k w') (h' : Reaches i w' l w'') :
    Reaches i w (k + l) w'' := by
  intro n
  rw [Nat.add_comm k l, ← Nat.add_assoc, h, h']

/-- `Passes i w ticks ds w'` says that `w'` is reached from `w` in so many ticks, and that the task
does the deeds `ds` on the way. -/
structure Passes (i : Nat) (w : World) (ticks : Nat) (ds : List (Nat × Deed)) (w' : World) :
    Prop where
  reaches : Reaches i w ticks w'
  deeds : ∀ n, World.deeds i (untilOver i) (n + ticks) w =
    ds ++ World.deeds i (untilOver i) n w'

theorem Passes.trans {k l : Nat} {ds ds' : List (Nat × Deed)} (h : Passes i w k ds w')
    (h' : Passes i w' l ds' w'') : Passes i w (k + l) (ds ++ ds') w'' where
  reaches := h.reaches.trans h'.reaches
  deeds n := by rw [Nat.add_comm k l, ← Nat.add_assoc, h.deeds, h'.deeds, List.append_assoc]

/-! ## Single ticks -/

theorem Solo.isOver (h : w.Solo i t) : w.isOver i = t.isOver := by
  simp only [World.isOver, h.task]

/-- The tick of `World.next?` passes while the task is not over. -/
theorem Solo.passes_tick {time : Nat} {actor : Actor} (h : w.Solo i t) (hopen : t.isOver = false)
    (hnext : w.next? = some (time, actor)) :
    Passes i w 1 ((w.deedIn? i time actor).map (time, ·)).toList (w.tick time actor) := by
  have hwanted : untilOver i w time = true := by simp [untilOver, h.isOver, hopen]
  constructor <;> intro n <;> simp only [World.run, World.deeds, hnext, hwanted, if_true]

/-- `World.next?` is the turn of the task when it is due before any removal. -/
theorem Solo.next? {due : Nat} (h : w.Solo i t) (hdue : t.due? w.cluster w.now = some due)
    (hfirst : ∀ r ∈ w.cluster.removals, max w.now due < r.due) :
    w.next? = some (max w.now due, .task i) := by
  obtain ⟨⟨time, actor⟩, hnext⟩ := Option.isSome_iff_exists.1 (next?_isSome_of_due h.task hdue)
  have hentry := next?_entry hnext
  cases actor with
  | removal j =>
    -- A removal is later than the task, so it is not what happens next.
    obtain ⟨r, hr, rfl⟩ := hentry
    have hturn : w.taskEntry i = some (max w.now due, .task i) := by
      simp [taskEntry, h.task, hdue]
    have hle := earliest_le hnext _ (mem_agenda_of_taskEntry hturn)
    have hlt := hfirst r (List.mem_of_getElem? hr)
    dsimp only at hle
    omega
  | task j =>
    obtain ⟨u, due', hu, hdue', rfl⟩ := hentry
    obtain rfl := h.others.eq_of_due hu hdue'
    obtain rfl : t = u := Option.some.inj (h.task.symm.trans hu)
    obtain rfl : due = due' := Option.some.inj (hdue.symm.trans hdue')
    exact hnext

/-- The turn of a task that is `Solo`, at the time at which it is due. -/
theorem Solo.passes_turn {due : Nat} (h : w.Solo i t) (hopen : t.isOver = false)
    (hdue : t.due? w.cluster w.now = some due) (hnow : w.now ≤ due)
    (hfirst : ∀ r ∈ w.cluster.removals, due < r.due) :
    Passes i w 1 ((({ w with now := due } : World).deed? t).map (due, ·)).toList
      (({ w with now := due } : World).stepTask i t) := by
  have hmax : max w.now due = due := Nat.max_eq_right hnow
  have hnext := h.next? hdue (hmax.symm ▸ hfirst)
  rw [hmax] at hnext
  have hpasses := h.passes_tick hopen hnext
  simpa only [deedIn?, tick, h.task, if_true, Option.bind_some] using hpasses

/-- The removal that is on its way, when it comes before a task that is `Solo` is due. -/
theorem Solo.passes_removal {r : Removal} (h : w.Solo i t) (hopen : t.isOver = false)
    (hremovals : w.cluster.removals = [r]) (hnow : w.now ≤ r.due)
    (hfirst : ∀ due, t.due? w.cluster w.now = some due → r.due < due) :
    ∃ w' : World, Passes i w 1 [] w' ∧ w'.Solo i t ∧
      w'.cluster = { w.cluster with removals := [] }.remove r.due r.key r.silent ∧
      w'.now = r.due := by
  have hzero : w.cluster.removals[0]? = some r := by simp [hremovals]
  have hmem := mem_agenda_of_removal hzero
  rw [Nat.max_eq_right hnow] at hmem
  obtain ⟨⟨time, actor⟩, hnext⟩ :=
    Option.isSome_iff_exists.1 (earliest_isSome (List.ne_nil_of_mem hmem))
  have hle : time ≤ r.due := earliest_le hnext _ hmem
  have hentry := next?_entry hnext
  cases actor with
  | task j =>
    -- The task is due later, so it is not its turn.
    obtain ⟨u, due, hu, hdue, rfl⟩ := hentry
    obtain rfl := h.others.eq_of_due hu hdue
    obtain rfl : t = u := Option.some.inj (h.task.symm.trans hu)
    have hlt := hfirst due hdue
    omega
  | removal j =>
    obtain ⟨r', hr', rfl⟩ := hentry
    obtain rfl : j = 0 := by
      have hlt := (List.getElem?_eq_some_iff.1 hr').1
      rw [hremovals, List.length_singleton] at hlt
      omega
    obtain rfl : r = r' := Option.some.inj (hzero.symm.trans hr')
    rw [Nat.max_eq_right hnow] at hnext
    have hpasses := h.passes_tick hopen hnext
    simp only [deedIn?, tick, hzero, Option.map_none, Option.toList_none] at hpasses
    refine ⟨_, hpasses, ⟨h.task, h.others⟩, ?_, rfl⟩
    simp only [stepRemoval, hremovals, List.eraseIdx_cons_zero]

/-- A task that is `Solo` stays so when it changes. -/
theorem Solo.putTask (h : w.Solo i t) (w' : World) (htasks : w'.tasks = w.tasks) (u : Task) :
    (w'.putTask i u).Solo i u where
  task := by
    have hlt : i < w'.tasks.length := htasks ▸ (List.getElem?_eq_some_iff.1 h.task).1
    simp [hlt]
  others := by
    have hothers : w'.OthersAtRest i := by
      intro j v hne hv
      exact h.others j v hne (htasks ▸ hv)
    exact hothers.putTask u

/-! ## Calls, items and the deadline -/

/-- `Task.hear` does not depend on what the task was doing. -/
private theorem hear_calling (t : Task) (activity : Activity) (now : Nat) (reply : Reply) :
    ({ t with activity } : Task).hear now reply = t.hear now reply := by
  unfold Task.hear
  dsimp only

/-- The call of a task that is `Solo` takes one tick and no time. -/
theorem Solo.passes_call {call : Call} {incident : Incident} (h : w.Solo i t)
    (hready : t.activity = .ready) (hcall : t.stage.call? t.plan = some call)
    (hfirst : ∀ r ∈ w.cluster.removals, w.now < r.due)
    (hincident : w.cluster.incident call.kind = incident) (hdelay : incident.delay = 0) :
    ∃ w' : World, Passes i w 1 [(w.now, .asks call)] w' ∧
      w'.Solo i { t with activity := .calling w.now incident } ∧
      w'.cluster = w.cluster.advance call.kind ∧ w'.now = w.now := by
  have hentered : (w.enter call).2 = incident := hincident
  have hopen : t.isOver = false := by
    simp [Task.isOver, Task.result?, hready, Stage.outcome?_of_call? hcall]
  -- The task hears nothing on this turn: it only makes its call.
  have hquiet : w.hearing? t = none := by
    cases hs : t.stage <;> simp [hs, Stage.call?] at hcall <;> simp [hearing?, hready, hs]
  have hdue : t.due? w.cluster w.now = some w.now := by
    cases hs : t.stage <;> simp [hs, Stage.call?] at hcall <;> simp [Task.due?, hready, hs]
  have hdeed : w.deed? t = some (.asks call) := by
    simp [deed?, hquiet, hready, hcall]
  have hpasses := h.passes_turn hopen hdue (Nat.le_refl _) hfirst
  rw [show ({ w with now := w.now } : World) = w from rfl, hdeed,
    stepTask_of_ready hready hcall, hentered, hdelay] at hpasses
  refine ⟨_, hpasses, h.putTask (w.enter call).1 rfl _, ?_, ?_⟩
  · simp [enter]
  · simp [enter]

/-- An answer that is due to a task that is `Solo` takes one tick and no time. -/
theorem Solo.passes_answer {call : Call} {incident : Incident} {c : Cluster} {reply : Reply}
    {watch : Option Nat} (h : w.Solo i t) (hcalling : t.activity = .calling w.now incident)
    (hcall : t.stage.call? t.plan = some call) (hprobing : t.stage ≠ .probing)
    (hfirst : ∀ r ∈ w.cluster.removals, w.now < r.due) (hcrash : incident.crash = false)
    (hreply : w.cluster.reply incident w.now call = (c, reply, watch)) :
    ∃ w' : World, Passes i w 1 [(w.now, .hears ⟨call, reply⟩)] w' ∧
      w'.Solo i ({ t with watch := watch.or t.watch }.hear w.now reply) ∧
      w'.cluster = c ∧ w'.now = w.now := by
  have hopen : t.isOver = false := by
    simp [Task.isOver, Task.result?, hcalling, Stage.outcome?_of_call? hcall]
  -- What it hears is the answer, since no deadline can come before it outside a probe.
  have hheard : w.hearing? t = some (c, watch.or t.watch, reply) := by
    have hanswer : w.answer? t incident = some (c, watch.or t.watch, reply) := by
      simp [answer?, hcall, hreply, hcrash]
    cases hs : t.stage <;> simp [hearing?, hcalling, hs] <;>
      first | exact hanswer | exact absurd hs hprobing
  have hdue : t.due? w.cluster w.now = some w.now := by
    cases hs : t.stage <;> simp [Task.due?, hcalling, hs]
    exact absurd hs hprobing
  have hdeed : w.deed? t = some (.hears ⟨call, reply⟩) := by
    simp [deed?, hheard, Stage.exchange?, hcall]
  have hpasses := h.passes_turn hopen hdue (Nat.le_refl _) hfirst
  rw [show ({ w with now := w.now } : World) = w from rfl, hdeed, stepTask_of_hearing hheard]
    at hpasses
  refine ⟨_, hpasses, h.putTask { w with cluster := c } rfl _, ?_, ?_⟩
  · simp
  · simp

/-- A call that is not delayed and its answer take two ticks and no time. -/
theorem Solo.passes_exchange {call : Call} {incident : Incident} {c : Cluster} {reply : Reply}
    {watch : Option Nat} (h : w.Solo i t) (hready : t.activity = .ready)
    (hcall : t.stage.call? t.plan = some call) (hprobing : t.stage ≠ .probing)
    (hfirst : ∀ r ∈ w.cluster.removals, w.now < r.due)
    (hincident : w.cluster.incident call.kind = incident) (hdelay : incident.delay = 0)
    (hcrash : incident.crash = false)
    (hreply : (w.cluster.advance call.kind).reply incident w.now call = (c, reply, watch)) :
    ∃ w' : World, Passes i w 2 [(w.now, .asks call), (w.now, .hears ⟨call, reply⟩)] w' ∧
      w'.Solo i ({ t with watch := watch.or t.watch }.hear w.now reply) ∧
      w'.cluster = c ∧ w'.now = w.now := by
  obtain ⟨w₁, hasked, hsolo₁, hcluster₁, hnow₁⟩ :=
    h.passes_call hready hcall hfirst hincident hdelay
  rw [← hcluster₁, ← hnow₁] at hreply
  -- The answer comes without delay, so it is due as soon as the call is made.
  obtain ⟨w₂, hheard, hsolo₂, hcluster₂, hnow₂⟩ :=
    hsolo₁.passes_answer (by rw [hnow₁]) hcall hprobing (by rw [hcluster₁, hnow₁]; exact hfirst)
      hcrash hreply
  rw [hnow₁] at hheard hsolo₂ hnow₂
  have hhear : ({ t with activity := .calling w.now incident, watch := watch.or t.watch } :
      Task).hear w.now reply = ({ t with watch := watch.or t.watch } : Task).hear w.now reply :=
    hear_calling { t with watch := watch.or t.watch } _ w.now reply
  exact ⟨w₂, hasked.trans hheard, hhear ▸ hsolo₂, hcluster₂, hnow₂⟩

/-- A task that is `Solo` reads what can be read from its watch in one tick and no time. -/
theorem Solo.passes_news {item : WatchItem} {watch : Nat} (h : w.Solo i t)
    (hready : t.activity = .ready) (hstage : t.stage = .waiting true)
    (hwatch : t.watch = some watch) (hpeek : w.cluster.peek watch = some (w.now, item))
    (hdeadline : w.now < t.deadline) (hfirst : ∀ r ∈ w.cluster.removals, w.now < r.due) :
    ∃ w' : World, Passes i w 1 [] w' ∧ w'.Solo i (t.hear w.now (.item item)) ∧
      w'.cluster = w.cluster.pop watch ∧ w'.now = w.now := by
  have hheard : w.hearing? t = some (w.cluster.pop watch, t.watch, .item item) := by
    have hlate : ¬ t.deadline ≤ w.now := by omega
    simp [hearing?, hready, hstage, hlate, hwatch, hpeek]
  have hdue : t.due? w.cluster w.now = some w.now := by
    simp only [Task.due?, hready, hstage, hwatch, Option.bind_some, hpeek, Option.some.injEq]
    omega
  -- An item answers no call, so the turn is no deed.
  have hdeed : w.deed? t = none := by
    simp [deed?, hheard, Stage.exchange?, hstage, Stage.call?]
  have hpasses := h.passes_turn
    (by simp [Task.isOver, Task.result?, hready, hstage, Stage.outcome?]) hdue (Nat.le_refl _)
    hfirst
  rw [show ({ w with now := w.now } : World) = w from rfl, hdeed, stepTask_of_hearing hheard]
    at hpasses
  refine ⟨_, hpasses, h.putTask { w with cluster := w.cluster.pop watch } rfl _, ?_, ?_⟩
  · simp
  · simp

/-- The deadline of a task that is `Solo` comes when nothing can be read from its watch. -/
theorem Solo.passes_deadline (h : w.Solo i t) (hready : t.activity = .ready)
    (hstage : t.stage = .waiting true) (hpeek : t.watch.bind w.cluster.peek = none)
    (hnow : w.now ≤ t.deadline) (hfirst : ∀ r ∈ w.cluster.removals, t.deadline < r.due) :
    ∃ w' : World, Passes i w 1 [] w' ∧ w'.Solo i (t.hear t.deadline .deadline) ∧
      w'.cluster = w.cluster ∧ w'.now = t.deadline := by
  let w₁ : World := { w with now := t.deadline }
  have hheard : w₁.hearing? t = some (w.cluster, t.watch, .deadline) := by
    simp [hearing?, hready, hstage, w₁]
  have hdue : t.due? w.cluster w.now = some t.deadline := by
    simp only [Task.due?, hready, hstage, hpeek]
  have hdeed : w₁.deed? t = none := by
    simp [deed?, hheard, Stage.exchange?, hstage, Stage.call?]
  have hpasses := h.passes_turn
    (by simp [Task.isOver, Task.result?, hready, hstage, Stage.outcome?]) hdue hnow hfirst
  rw [show ({ w with now := t.deadline } : World) = w₁ from rfl, hdeed, stepTask_of_hearing hheard]
    at hpasses
  refine ⟨_, hpasses, h.putTask w₁ rfl _, ?_, ?_⟩
  · simp [w₁]
  · simp [w₁]

/-- The last call of a task that is `Solo`: whatever the cluster answers, the task is over. -/
theorem Solo.passes_creation {signal : Option Signal} {c : Cluster}
    {answer : Except ClusterError Unit} (h : w.Solo i t) (hready : t.activity = .ready)
    (hstage : t.stage = .last signal) (hfirst : ∀ r ∈ w.cluster.removals, w.now < r.due)
    (hincident : w.cluster.incident .create = {})
    (hanswer : (w.cluster.advance .create).create {} t.plan.key.ns t.plan.pod = (c, answer)) :
    ∃ w' : World, Passes i w 2
        [(w.now, .asks (.create t.plan.key.ns t.plan.pod)),
          (w.now, .hears ⟨.create t.plan.key.ns t.plan.pod, .done answer⟩)] w' ∧
      w'.Solo i { t with stage := .finished (t.plan.outcome signal answer) } ∧
      w'.cluster = c ∧ w'.now = w.now := by
  have hcall : t.stage.call? t.plan = some (.create t.plan.key.ns t.plan.pod) := by
    rw [hstage, Stage.call?_last]
  -- The deletion is another stage, so no deadline starts with the answer.
  have hdelete : ∀ watching, t.stage ≠ .delete watching := by
    intro watching
    rw [hstage]
    cases signal <;> nofun
  have hprobing : t.stage ≠ .probing := by
    rw [hstage]
    cases signal <;> nofun
  have hreply : (w.cluster.advance .create).reply {} w.now (.create t.plan.key.ns t.plan.pod) =
      (c, .done answer, none) := by
    rw [Cluster.reply_create, hanswer]
  obtain ⟨w', hpasses, hsolo, hcluster, hnow⟩ :=
    h.passes_exchange hready hcall hprobing hfirst hincident rfl rfl hreply
  have hheard : ({ t with watch := (none : Option Nat).or t.watch } : Task).hear w.now
      (.done answer) = { t with stage := .finished (t.plan.outcome signal answer) } := by
    rw [Option.none_or, Task.hear_of_ne_delete t hdelete, hstage, Stage.next_last, ← hready]
  exact ⟨w', hpasses, hheard ▸ hsolo, hcluster, hnow⟩

/-! ## Beginning and end -/

/-- Nothing more is done in a run of which no tick is wanted. -/
theorem deeds_of_unwanted {wanted : World → Nat → Bool} (h : ∀ time, wanted w time = false)
    (n : Nat) : deeds i wanted n w = [] := by
  cases n with
  | zero => rfl
  | succ n =>
    simp only [deeds, h]
    cases w.next? <;> rfl

/-- The task that `World.spawn` starts among tasks at rest is `Solo`. -/
theorem solo_spawn (p : Plan) (wait : Nat) (hrest : ∀ t ∈ w.tasks, t.AtRest) :
    (w.spawn p wait).1.Solo w.tasks.length { plan := p, wait, started := w.now } where
  task := by simp [spawn]
  others := othersAtRest_spawn hrest p wait

/-- The cluster after the calls before a deletion: a watch was opened in the namespace. -/
def opened (c : Cluster) (ns : String) : Cluster :=
  { ((c.advance .get).advance .dryRun).advance .watch with
      watches := c.watches ++ [⟨some ns, []⟩] }

/-- The calls before a deletion pass in six ticks: the Pod is found, the dry run is accepted, and a
watch is open. -/
theorem passes_opening (p : Plan) (wait : Nat) {existing : Pod}
    (hrest : ∀ t ∈ w.tasks, t.AtRest) (hfirst : ∀ r ∈ w.cluster.removals, w.now < r.due)
    (hget : w.cluster.incident .get = {}) (hdryRun : w.cluster.incident .dryRun = {})
    (hwatch : w.cluster.incident .watch = {})
    (hstored : w.cluster.pods.get? p.key = some existing) :
    ∃ ds w', Passes w.tasks.length (w.spawn p wait).1 6 ds w' ∧
      deletions ds = [] ∧ creations ds = [] ∧
      w'.Solo w.tasks.length
        { plan := p, wait, started := w.now, stage := .delete true,
          watch := some w.cluster.watches.length } ∧
      w'.cluster = opened w.cluster p.key.ns ∧ w'.now = w.now := by
  -- The lookup finds the Pod.
  have hlookup : ((w.spawn p wait).1.cluster.advance .get).reply {} w.now (.get p.key) =
      (w.cluster.advance .get, .found (.ok (some existing)), none) := by
    simp [spawn, Cluster.lookup, Cluster.advance, hstored]
  obtain ⟨w₁, hpasses₁, hsolo₁, hcluster₁, hnow₁⟩ :=
    (solo_spawn p wait hrest).passes_exchange rfl rfl (by simp) hfirst hget rfl rfl hlookup
  -- The dry run, in a world that differs in what the script has left.
  have hnow₁ : w₁.now = w.now := hnow₁
  have hsolo₁ : w₁.Solo w.tasks.length
      { plan := p, wait, started := w.now, stage := .dryRun existing } := hsolo₁
  have hdryRun₁ : w₁.cluster.incident .dryRun = {} := by
    rw [hcluster₁, Cluster.incident_advance_of_ne (by decide), hdryRun]
  have hwatch₁ : w₁.cluster.incident .watch = {} := by
    rw [hcluster₁, Cluster.incident_advance_of_ne (by decide), hwatch]
  obtain ⟨w₂, hpasses₂, hsolo₂, hcluster₂, hnow₂⟩ :=
    hsolo₁.passes_exchange rfl rfl (by simp) (by rw [hcluster₁, hnow₁]; exact hfirst) hdryRun₁
      rfl rfl (Cluster.reply_dryRun _ _ _ _ _)
  have hcluster₂ : w₂.cluster = w₁.cluster.advance .dryRun := hcluster₂
  have hsolo₂ : w₂.Solo w.tasks.length
      { plan := p, wait, started := w.now, stage := .watch existing } := hsolo₂
  -- The watch is opened, in a world where only the script has changed.
  have hwatch₂ : w₂.cluster.incident .watch = {} := by
    rw [hcluster₂, Cluster.incident_advance_of_ne (by decide), hwatch₁]
  obtain ⟨w₃, hpasses₃, hsolo₃, hcluster₃, hnow₃⟩ :=
    hsolo₂.passes_exchange rfl rfl (by simp)
      (by rw [hcluster₂, hcluster₁, hnow₂, hnow₁]; exact hfirst) hwatch₂ rfl rfl rfl
  refine ⟨_, w₃, (hpasses₁.trans hpasses₂).trans hpasses₃, rfl, rfl, ?_, ?_, ?_⟩
  · rw [hcluster₂, hcluster₁] at hsolo₃
    exact hsolo₃
  · rw [hcluster₃, hcluster₂, hcluster₁]
    rfl
  · rw [hnow₃, hnow₂, hnow₁]

/-- `World.budget` of a world with a task allows for the ticks of a replacement. -/
theorem budget_spawn (w : World) (p : Plan) (wait : Nat) : 24 ≤ (w.spawn p wait).1.budget := by
  have htasks : (w.spawn p wait).1.tasks.length = w.tasks.length + 1 := by
    simp [spawn]
  unfold budget
  dsimp only
  rw [htasks]
  have : 24 ≤ (w.tasks.length + 1) * (24 + 3 * (w.tasks.length + 1)) := by
    calc 24 ≤ 1 * (24 + 3 * (w.tasks.length + 1)) := by omega
      _ ≤ _ := Nat.mul_le_mul_right _ (by omega)
  omega

theorem untilOver_of_isOver (h : w.isOver i = true) (time : Nat) : untilOver i w time = false := by
  simp [untilOver, h]

/-- `World.runTask` ends where the task is over, if the budget allows for the ticks up to there: the
ticks that are left do nothing. -/
theorem runTask_of_reaches {k : Nat} (h : Reaches i w k w') (hbudget : k ≤ w.budget)
    (hover : w'.isOver i = true) : w.runTask i none = w' := by
  have hrun := h (w.budget - k)
  rw [Nat.sub_add_cancel hbudget, run_of_unwanted (untilOver_of_isOver hover)] at hrun
  exact (runTask_eq_run w i).trans hrun

theorem taskDeeds_of_passes {k : Nat} {ds : List (Nat × Deed)} (h : Passes i w k ds w')
    (hbudget : k ≤ w.budget) (hover : w'.isOver i = true) : w.taskDeeds i = ds := by
  have hdeeds := h.deeds (w.budget - k)
  rw [Nat.sub_add_cancel hbudget, deeds_of_unwanted (untilOver_of_isOver hover),
    List.append_nil] at hdeeds
  exact hdeeds

/-- The result of a task that is `Solo` and finished. -/
theorem Solo.result (h : w.Solo i t) (hready : t.activity = .ready) {o : Outcome}
    (hstage : t.stage = .finished o) : w.tasks[i]?.bind (·.result?) = some (.ok o) := by
  rw [h.task, Option.bind_some]
  simp [Task.result?, hready, hstage, Stage.outcome?]

end World

end PodDesk
