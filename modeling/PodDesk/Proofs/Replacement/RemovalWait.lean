import PodDesk.Proofs.Replacement.Ending
import PodDesk.Proofs.Replacement.Recreation
import PodDesk.Proofs.Replacement.Unattended

/-!
# The wait for a removal

A replacement whose deletion was accepted waits for the removal of the old Pod. What its watch will
deliver and what its lookups will find is known from the cluster as it goes on by itself, and
`awaitRemoval` says from that how the wait ends, when, and which lookups are made on the way. The
wait in a world does just that. The proof follows the forecast through a run: whatever happens next,
what was done so far and what is forecast from then on stay together the same.

## Main statements

- `World.waitEnding`: the forecast for a wait that starts now
- `World.Foresees.tick`: a tick carries out a part of the forecast and leaves the rest
- `World.Foresees.await`: a wait ends as it was forecast
- `World.removal_wait_as_forecast`: the same for the wait after a deletion
-/

namespace PodDesk

/-! ## The forecast -/

/-- Whether the answer to a lookup says that there is no Pod. -/
def saysAbsent : Except ClusterError (Option Pod) → Bool
  | .ok none => true
  | _ => false

namespace World

variable {w w' : World} {i : Nat} {t : Task}

/-- How lookup number `k` of a Pod will go that is made from now on, if nothing else is done. -/
def lookupAhead (w : World) (key : PodKey) (k : Nat) : Lookup :=
  let incident := ((w.cluster.script .get)[k]?).join.getD {}
  { latency := incident.delay
    absent := fun time => saysAbsent ((w.clusterAt time).lookup incident key) }

/-- What `watch` delivers until a time, if nothing else is done. Without a watch that is nothing. -/
def itemsAhead (w : World) (watch : Option Nat) (time : Nat) : List (Nat × WatchItem) :=
  (watch.map (w.clusterAt time).queue).getD []

/-- How a wait for the removal of a Pod will end that starts now, if nothing else is done:
`awaitRemoval` with what is known from the cluster as it goes on by itself. -/
def waitEnding (w : World) (key : PodKey) (deadline : Nat) (watch : Option Nat) : Ending :=
  awaitRemoval key.name deadline (w.lookupAhead key) w.now (w.itemsAhead watch deadline)

/-- How the wait of `t` will end that goes on at `now`: it waits for an item, it is about to make a
lookup, or it waits for an answer. -/
def endingAt (w : World) (now : Nat) (t : Task) : Ending :=
  let goOn (lookups : Nat → Lookup) (now : Nat) (watch : Option Nat) :=
    awaitRemoval t.plan.key.name t.deadline lookups now (w.itemsAhead watch t.deadline)
  let lookups := w.lookupAhead t.plan.key
  match t.activity, t.stage with
  | .ready, .waiting watching => goOn lookups now (if watching then t.watch else none)
  | .ready, .probing =>
    .ofLookup t.deadline now (lookups 0) fun back => goOn (fun k => lookups (k + 1)) back t.watch
  | .calling due incident, .probing =>
    .ofAnswer t.deadline due (saysAbsent ((w.clusterAt due).lookup incident t.plan.key))
      (goOn lookups due t.watch)
  | _, .recreate signal => { signal, time := now }
  | _, _ => .timeout t.deadline

end World

/-- `t.InWait now` lists the phases of a wait: a task waits for an item, makes a lookup, waits for
its answer, or is about to create the new Pod. -/
inductive Task.InWait (now : Nat) (t : Task) : Prop where
  | waits (watching : Bool) (hactivity : t.activity = .ready) (hstage : t.stage = .waiting watching)
  | looks (hactivity : t.activity = .ready) (hstage : t.stage = .probing)
  | asked (due : Nat) (incident : Incident) (hactivity : t.activity = .calling due incident)
      (hstage : t.stage = .probing) (hcrash : incident.crash = false) (hnow : now ≤ due)
  | ends (signal : Signal) (hactivity : t.activity = .ready) (hstage : t.stage = .recreate signal)

namespace World

variable {w w' : World} {i : Nat} {t : Task}

/-- Whether task `i` goes on to wait. -/
def awaits (i : Nat) (w : World) : Bool :=
  match w.tasks[i]? with
  | some t =>
    ! t.isOver &&
      match t.stage with
      | .waiting _ => true
      | .probing => true
      | _ => false
  | none => false

/-- Lets things happen until the wait of task `i` is over. -/
def await (w : World) (i : Nat) : World :=
  run (fun w _ => w.awaits i) w.budget w

/-- `w.Foresees i start items log e t read made` is what was foreseen about a wait that began with
task `start` and is to end with `e`: so many items were read and these lookups made since then, and
what is forecast now for task `t` completes that to `e`. The answers of the lookups come when
nothing is removed. -/
structure Foresees (w : World) (i : Nat) (start : Task) (items : List (Nat × WatchItem))
    (log : List (Nat × Call)) (e : Ending) (t : Task) (read : Nat) (made : List (Nat × Nat)) :
    Prop where
  task : w.tasks[i]? = some t
  same : t = { start with stage := t.stage, activity := t.activity }
  phase : t.InWait w.now
  now_le : w.now ≤ t.deadline
  calm : ∀ incident, some incident ∈ w.cluster.script .get → incident.crash = false
  punctual : w.IsPunctual
  untied : ∀ r ∈ w.cluster.removals, ∀ l ∈ e.lookups, r.due ≠ l.2
  ending : (w.endingAt w.now t).after read made = e
  left : w.itemsAhead t.watch t.deadline = items.drop read
  logged : w.log = log ++ made.map fun l => (l.1, .get t.plan.key)
  inFlight : ∀ due incident, t.activity = .calling due incident → ∃ l ∈ made, l.2 = due

section

variable {now : Nat}

theorem endingAt_waits {watching : Bool} (hactivity : t.activity = .ready)
    (hstage : t.stage = .waiting watching) :
    w.endingAt now t = awaitRemoval t.plan.key.name t.deadline (w.lookupAhead t.plan.key) now
      (w.itemsAhead (if watching then t.watch else none) t.deadline) := by
  simp only [endingAt, hactivity, hstage]

theorem endingAt_looks (hactivity : t.activity = .ready) (hstage : t.stage = .probing) :
    w.endingAt now t = .ofLookup t.deadline now (w.lookupAhead t.plan.key 0) fun back =>
      awaitRemoval t.plan.key.name t.deadline (fun k => w.lookupAhead t.plan.key (k + 1)) back
        (w.itemsAhead t.watch t.deadline) := by
  simp only [endingAt, hactivity, hstage]

theorem endingAt_asked {due : Nat} {incident : Incident}
    (hactivity : t.activity = .calling due incident) (hstage : t.stage = .probing) :
    w.endingAt now t = .ofAnswer t.deadline due
      (saysAbsent ((w.clusterAt due).lookup incident t.plan.key))
      (awaitRemoval t.plan.key.name t.deadline (w.lookupAhead t.plan.key) due
        (w.itemsAhead t.watch t.deadline)) := by
  simp only [endingAt, hactivity, hstage]

theorem endingAt_ends {signal : Signal} (hactivity : t.activity = .ready)
    (hstage : t.stage = .recreate signal) :
    w.endingAt now t = { signal, time := now } := by
  simp only [endingAt, hactivity, hstage]

end

/-! ## Time goes by -/

/-- `endingAt` depends on the script of the lookups and on what becomes of the cluster. -/
theorem endingAt_congr {now : Nat} (hscript : w'.cluster.script .get = w.cluster.script .get)
    (hfuture : ∀ s, now ≤ s → w'.clusterAt s = w.clusterAt s) (hphase : t.InWait now)
    (hle : now ≤ t.deadline) : w'.endingAt now t = w.endingAt now t := by
  have hitems : ∀ watch, w'.itemsAhead watch t.deadline = w.itemsAhead watch t.deadline := by
    intro watch
    rw [itemsAhead, itemsAhead, hfuture _ hle]
  have hlookups : ∀ k s, now ≤ s →
      (w'.lookupAhead t.plan.key k).latency = (w.lookupAhead t.plan.key k).latency ∧
        (w'.lookupAhead t.plan.key k).absent s = (w.lookupAhead t.plan.key k).absent s := by
    intro k s hs
    simp only [lookupAhead, hscript, hfuture s hs, and_self]
  -- In each phase the items and the lookups from now on are all that the forecast goes by.
  cases hphase with
  | waits watching hactivity hstage =>
    rw [endingAt_waits hactivity hstage, endingAt_waits hactivity hstage, hitems]
    exact awaitRemoval_congr hlookups
  | looks hactivity hstage =>
    have hlatency := (hlookups 0 now (Nat.le_refl _)).1
    rw [endingAt_looks hactivity hstage, endingAt_looks hactivity hstage, hitems]
    simp only [Ending.ofLookup, hlatency]
    rw [(hlookups 0 _ (Nat.le_add_right _ _)).2,
      awaitRemoval_congr fun k s hs => hlookups (k + 1) s (by omega)]
  | asked due incident hactivity hstage hcrash hnow =>
    rw [endingAt_asked hactivity hstage, endingAt_asked hactivity hstage, hitems, hfuture due hnow,
      awaitRemoval_congr fun k s hs => hlookups k s (by omega)]
  | ends signal hactivity hstage =>
    rw [endingAt_ends hactivity hstage, endingAt_ends hactivity hstage]

/-- The first item of `itemsAhead` comes when something happens, or later. -/
private theorem time_le_of_itemsAhead {n time deadline : Nat} {actor : Actor}
    {entry : Nat × WatchItem} (hnext : w.next? = some (time, actor)) (hle : time ≤ deadline)
    (hpending : ∀ e, w.cluster.peek n = some e → time ≤ max w.now e.1)
    (hhead : (w.itemsAhead (some n) deadline).head? = some entry) :
    time ≤ max w.now entry.1 := by
  obtain ⟨-, news, hqueue, -, hnews⟩ :=
    clusterAt_alike (w := { w with now := time }) (.refl n _) rfl deadline
  rw [clusterAt_wait hnext hle] at hqueue
  simp only [itemsAhead, Option.map_some, Option.getD_some, hqueue] at hhead
  cases hpeek : w.cluster.queue n with
  | nil =>
    -- It is announced by a removal that is still to come.
    rw [hpeek, List.nil_append] at hhead
    have := hnews entry (List.mem_of_mem_head? hhead)
    exact Nat.le_trans this (Nat.le_max_right _ _)
  -- It is there already, and then the task is due no later than its time.
  | cons first rest =>
    rw [hpeek, List.cons_append, List.head?_cons, Option.some.injEq] at hhead
    subst hhead
    exact hpending first (by rw [Cluster.peek_eq_head?, hpeek]; rfl)

/-- What `World.next?` gives comes in the time of a task that waits, and does not change its
`endingAt` by coming. -/
private theorem endingAt_wait {time : Nat} {actor : Actor} (hphase : t.InWait w.now)
    (hopen : ∀ signal, t.stage ≠ .recreate signal) (ht : w.tasks[i]? = some t)
    (hle : w.now ≤ t.deadline) (hnext : w.next? = some (time, actor)) :
    time ≤ t.deadline ∧ t.InWait time ∧ w.endingAt time t = w.endingAt w.now t := by
  have hnow := now_le_of_next? hnext
  have hentry : ∀ due, t.due? w.cluster w.now = some due → time ≤ max w.now due := by
    intro due hdue
    have hmem : w.taskEntry i = some (max w.now due, .task i) := by
      simp [taskEntry, ht, hdue]
    exact earliest_le hnext _ (mem_agenda_of_taskEntry hmem)
  cases hphase with
  | waits watching hactivity hstage =>
    -- The task is due at its deadline at the latest, so whatever is next comes no later.
    have hdeadline : time ≤ t.deadline := by
      obtain ⟨due, hdue, hmin⟩ : ∃ due, t.due? w.cluster w.now = some due ∧ due ≤ t.deadline := by
        cases watching with
        | false => exact ⟨t.deadline, by simp [Task.due?, hactivity, hstage], Nat.le_refl _⟩
        | true =>
          simp only [Task.due?, hactivity, hstage, Option.some.injEq, exists_eq_left']
          split
          · exact Nat.min_le_right _ _
          · exact Nat.le_refl _
      have := hentry due hdue
      omega
    refine ⟨hdeadline, .waits watching hactivity hstage, ?_⟩
    rw [endingAt_waits hactivity hstage, endingAt_waits hactivity hstage]
    -- Until then there is nothing to read, so the clock can go on.
    refine awaitRemoval_wait hnow fun entry hhead => ?_
    cases watching with
    | false => simp [itemsAhead] at hhead
    | true =>
      cases hwatch : t.watch with
      | none => simp [itemsAhead, hwatch] at hhead
      | some n =>
        rw [if_pos rfl, hwatch] at hhead
        refine time_le_of_itemsAhead hnext hdeadline (fun e hpeek => ?_) hhead
        have := hentry (min e.1 t.deadline) (by simp [Task.due?, hactivity, hstage, hwatch, hpeek])
        omega
  -- A task that is about to look is due now, and the clock does not move.
  | looks hactivity hstage =>
    have := hentry w.now (by simp [Task.due?, hactivity, hstage])
    obtain rfl : time = w.now := by omega
    exact ⟨hle, .looks hactivity hstage, rfl⟩
  -- The answer is due then or later, and the forecast goes by the time at which it is due.
  | asked due incident hactivity hstage hcrash hdue =>
    have := hentry (min due t.deadline) (by simp [Task.due?, hactivity, hstage])
    refine ⟨by omega, .asked due incident hactivity hstage hcrash (by omega), ?_⟩
    rw [endingAt_asked hactivity hstage, endingAt_asked hactivity hstage]
  | ends signal hactivity hstage => exact absurd hstage (hopen signal)

variable {start : Task} {items : List (Nat × WatchItem)} {log : List (Nat × Call)} {e : Ending}
  {read : Nat} {made : List (Nat × Nat)}

/-- `Foresees` goes on while the clock moves to what happens next, and while the cluster goes on by
itself. -/
private theorem Foresees.pass {time : Nat} {actor : Actor}
    (h : w.Foresees i start items log e t read made) (hopen : ∀ signal, t.stage ≠ .recreate signal)
    (hnext : w.next? = some (time, actor)) (hnow : w'.now = time) (htasks : w'.tasks = w.tasks)
    (hlog : w'.log = w.log) (hscript : w'.cluster.script = w.cluster.script)
    (hremovals : w'.cluster.removals ⊆ w.cluster.removals)
    (hfuture : ∀ s, time ≤ s → w'.clusterAt s = w.clusterAt s) :
    w'.Foresees i start items log e t read made := by
  obtain ⟨hdeadline, hphase, hending⟩ := endingAt_wait h.phase hopen h.task h.now_le hnext
  subst hnow
  -- Only the clock and the cluster have changed.
  exact {
    h with
    task := htasks ▸ h.task
    phase := hphase
    now_le := hdeadline
    calm := hscript ▸ h.calm
    punctual := fun r hr => h.punctual.le_due hnext r (hremovals hr)
    untied := fun r hr => h.untied r (hremovals hr)
    ending := by
      rw [endingAt_congr (congrFun hscript _) hfuture hphase hdeadline, hending]
      exact h.ending
    left := by
      rw [itemsAhead, hfuture _ hdeadline]
      exact h.left
    logged := hlog ▸ h.logged }

/-- A removal keeps `Foresees`. -/
private theorem Foresees.removal {time j : Nat} (h : w.Foresees i start items log e t read made)
    (hopen : ∀ signal, t.stage ≠ .recreate signal) (hnext : w.next? = some (time, .removal j)) :
    (w.tick time (.removal j)).Foresees i start items log e t read made := by
  obtain ⟨r, hr, -⟩ := next?_entry hnext
  have htick : w.tick time (.removal j) = ({ w with now := time } : World).stepRemoval j r := by
    simp only [tick, hr]
  refine h.pass hopen hnext (tick_now hnext) ?_ ?_ ?_ ?_ fun s hs => clusterAt_removal hnext hs
  · rw [htick]
    rfl
  · rw [htick]
    rfl
  · rw [htick]
    exact Cluster.remove_script _ _ _ _
  · rw [htick]
    intro r' hr'
    rw [stepRemoval, Cluster.remove_removals] at hr'
    exact List.mem_of_mem_eraseIdx hr'

/-! ## The turns of a wait -/

/-- `World.putTask` keeps `Foresees` when the step of the task is in line with the forecast. -/
private theorem Foresees.put {u : Task} {stage : Stage} {activity : Activity} {read' : Nat}
    {made' : List (Nat × Nat)} (h : w.Foresees i start items log e t read made)
    (hu : u = { t with stage, activity }) (hnow : w'.now = w.now) (htasks : w'.tasks = w.tasks)
    (hremovals : w'.cluster.removals = w.cluster.removals)
    (hscript : w'.cluster.script .get <:+ w.cluster.script .get)
    (hlog : w'.log = log ++ made'.map fun l => (l.1, .get t.plan.key)) (hphase : u.InWait w.now)
    (hending : (w'.endingAt w.now u).after read' made' = e)
    (hleft : w'.itemsAhead t.watch t.deadline = items.drop read')
    (hinFlight : ∀ due incident, activity = .calling due incident → ∃ l ∈ made', l.2 = due) :
    (w'.putTask i u).Foresees i start items log e u read' made' := by
  have hlt : i < w.tasks.length := (List.getElem?_eq_some_iff.1 h.task).1
  subst hu
  -- What becomes of the cluster does not depend on the tasks.
  have hsame : ∀ s, (w'.putTask i { t with stage, activity }).clusterAt s = w'.clusterAt s := by
    intro s
    simp only [clusterAt, unattended, putTask_now, putTask_cluster]
  have hclock : (w'.putTask i { t with stage, activity }).now = w.now := by
    rw [putTask_now, hnow]
  exact {
    task := by simp [htasks, hlt]
    same := by
      dsimp only
      rw [h.same]
    phase := by
      rw [hclock]
      exact hphase
    now_le := by
      rw [hclock]
      exact h.now_le
    calm := by
      rw [putTask_cluster]
      exact fun incident hmem => h.calm incident (hscript.mem hmem)
    punctual := by
      intro r hr
      rw [putTask_cluster, hremovals] at hr
      rw [hclock]
      exact h.punctual r hr
    untied := by
      rw [putTask_cluster, hremovals]
      exact h.untied
    ending := by
      rw [hclock, endingAt_congr (by rw [putTask_cluster]) (fun s _ => hsame s) hphase h.now_le]
      exact hending
    left := by
      rw [itemsAhead, hsame]
      exact hleft
    logged := by
      rw [putTask_log]
      exact hlog
    inFlight := hinFlight }

/-- A reply other than an item keeps `Foresees` when the forecast stays the same. -/
private theorem Foresees.hear (h : w.Foresees i start items log e t read made) (reply : Reply)
    (hdelete : ∀ watching, t.stage ≠ .delete watching)
    (hheard : w.hearing? t = some (w.cluster, t.watch, reply))
    (hphase :
      ({ t with stage := t.stage.next t.plan reply, activity := .ready } : Task).InWait w.now)
    (hending : w.endingAt w.now { t with stage := t.stage.next t.plan reply, activity := .ready } =
      w.endingAt w.now t) :
    ∃ u, (w.stepTask i t).Foresees i start items log e u read made := by
  have hstep : w.stepTask i t =
      w.putTask i { t with stage := t.stage.next t.plan reply, activity := .ready } := by
    rw [stepTask_of_hearing hheard, Task.hear_of_ne_delete _ hdelete]
  rw [hstep]
  refine ⟨_, h.put rfl rfl rfl rfl (List.suffix_refl _) h.logged hphase ?_ h.left ?_⟩
  · rw [hending]
    exact h.ending
  · intro due incident hcalling
    exact absurd hcalling (by simp)

/-- `Cluster.lookup` finds the same later in clusters that are `Alike`. -/
private theorem lookup_clusterAt {n : Nat} (h : Cluster.Alike n w.cluster w'.cluster)
    (hnow : w'.now = w.now) (s : Nat) (incident : Incident) (key : PodKey) :
    (w'.clusterAt s).lookup incident key = (w.clusterAt s).lookup incident key :=
  Cluster.lookup_congr (clusterAt_alike h hnow s).1 incident key

/-- The deadline keeps `Foresees`: it ends the wait for an item. -/
private theorem Foresees.deadline {watching : Bool} (h : w.Foresees i start items log e t read made)
    (hactivity : t.activity = .ready) (hstage : t.stage = .waiting watching)
    (hlate : t.deadline ≤ w.now) :
    ∃ u, (w.stepTask i t).Foresees i start items log e u read made := by
  have hnow : w.now = t.deadline := Nat.le_antisymm h.now_le hlate
  have hnext : t.stage.next t.plan .deadline = .recreate .timedOut := by
    rw [hstage]
    cases watching <;> rfl
  refine h.hear .deadline (by simp [hstage]) (by simp [hearing?, hactivity, hstage, hlate])
    ?_ ?_
  · exact .ends .timedOut rfl hnext
  -- There is nothing to be read before a deadline that has come.
  · rw [endingAt_ends rfl hnext, endingAt_waits hactivity hstage, awaitRemoval_of_le hlate, hnow]
    rfl

/-- An item that is read in time keeps `Foresees`. -/
private theorem Foresees.news {n : Nat} {entry : Nat × WatchItem}
    (h : w.Foresees i start items log e t read made) (hactivity : t.activity = .ready)
    (hstage : t.stage = .waiting true) (hwatch : t.watch = some n)
    (hpeek : w.cluster.peek n = some entry) (hdue : entry.1 ≤ w.now) (htime : w.now < t.deadline) :
    ∃ u, (w.stepTask i t).Foresees i start items log e u (read + 1) made := by
  let w' : World := { w with cluster := w.cluster.pop n }
  have halike : Cluster.Alike n w.cluster w'.cluster := Cluster.alike_pop n w.cluster
  have hstep : w.stepTask i t =
      w'.putTask i { t with stage := Stage.onItem t.plan entry.2, activity := .ready } := by
    have hheard : w.hearing? t = some (w.cluster.pop n, t.watch, .item entry.2) := by
      simp [hearing?, hactivity, hstage, hwatch, hpeek, Nat.not_le.2 htime]
    rw [stepTask_of_hearing hheard, Task.hear_of_ne_delete _ (by simp [hstage])]
    simp [hstage, Stage.next, w']
  -- The item is the first one that the forecast is about.
  have hitems : w.itemsAhead t.watch t.deadline = entry :: w'.itemsAhead t.watch t.deadline := by
    obtain ⟨-, news, hqueue, hqueue', -⟩ := clusterAt_alike halike rfl t.deadline
    obtain ⟨rest, hrest⟩ := List.head?_eq_some_iff.1 (Cluster.peek_eq_head? w.cluster n ▸ hpeek)
    simp only [itemsAhead, hwatch, Option.map_some, Option.getD_some, hqueue, hqueue', hrest, w',
      Cluster.queue_pop, List.tail_cons, List.cons_append]
  -- Reading changes nothing about the lookups.
  have hlookups : w'.lookupAhead t.plan.key = w.lookupAhead t.plan.key := by
    funext k
    simp only [lookupAhead, lookup_clusterAt halike (show w'.now = w.now from rfl)]
    rfl
  have hleft : w'.itemsAhead t.watch t.deadline = items.drop (read + 1) := by
    have := h.left
    rw [hitems] at this
    rw [← List.tail_drop, ← this, List.tail_cons]
  -- The forecast takes the same case of the item as the stage does.
  have hending := h.ending
  rw [endingAt_waits hactivity hstage, if_pos rfl, hitems] at hending
  simp only [awaitRemoval, Nat.max_eq_left hdue, Nat.not_le.2 htime, if_false] at hending
  rw [hstep, Stage.onItem_eq]
  cases hnews : entry.2.news t.plan.key.name with
  | gone =>
    simp only [hnews] at hending ⊢
    refine ⟨_, h.put rfl rfl rfl rfl (List.suffix_refl _) h.logged (.ends _ rfl rfl) ?_ hleft
      (by simp)⟩
    rw [endingAt_ends rfl rfl, ← hending]
    rfl
  | silence =>
    simp only [hnews] at hending ⊢
    refine ⟨_, h.put rfl rfl rfl rfl (List.suffix_refl _) h.logged (.waits _ rfl rfl) ?_ hleft
      (by simp)⟩
    rw [endingAt_waits rfl rfl, ← hending, Ending.after_after, List.append_nil]
    rfl
  | hint =>
    simp only [hnews] at hending ⊢
    refine ⟨_, h.put rfl rfl rfl rfl (List.suffix_refl _) h.logged (.looks rfl rfl) ?_ hleft
      (by simp)⟩
    rw [endingAt_looks rfl rfl, ← hending, Ending.after_after, List.append_nil, hlookups]

/-- A lookup that is made keeps `Foresees`. -/
private theorem Foresees.enter (h : w.Foresees i start items log e t read made)
    (hactivity : t.activity = .ready) (hstage : t.stage = .probing) :
    ∃ u made', (w.stepTask i t).Foresees i start items log e u read made' := by
  have hcall : t.stage.call? t.plan = some (.get t.plan.key) := by
    rw [hstage]
    rfl
  let incident := w.cluster.incident .get
  let due := w.now + incident.delay
  let w' : World := (w.enter (.get t.plan.key)).1
  have hstep : w.stepTask i t = w'.putTask i { t with activity := .calling due incident } :=
    stepTask_of_ready hactivity hcall
  have hcrash : incident.crash = false := Cluster.crash_incident h.calm
  -- The call takes its incident and changes nothing else about the cluster.
  have halike : ∀ n, Cluster.Alike n w.cluster w'.cluster := fun n => ⟨rfl, rfl, rfl⟩
  have hlookups : w'.lookupAhead t.plan.key = fun k => w.lookupAhead t.plan.key (k + 1) := by
    have htail : w'.cluster.script .get = (w.cluster.script .get).tail := rfl
    funext k
    simp only [lookupAhead, lookup_clusterAt (halike 0) (show w'.now = w.now from rfl), htail,
      List.getElem?_tail]
  have hitems : w'.itemsAhead t.watch t.deadline = w.itemsAhead t.watch t.deadline := by
    cases hwatch : t.watch with
    | none => rfl
    | some n =>
      obtain ⟨-, news, hqueue, hqueue', -⟩ :=
        clusterAt_alike (halike n) (show w'.now = w.now from rfl) t.deadline
      simp only [itemsAhead, Option.map_some, Option.getD_some, hqueue, hqueue']
      rfl
  -- The incident that the call meets is the first one that the forecast goes by.
  have hfirst : w.lookupAhead t.plan.key 0 =
      ⟨incident.delay, fun s => saysAbsent ((w.clusterAt s).lookup incident t.plan.key)⟩ := by
    simp only [lookupAhead, incident, Cluster.incident, List.head?_eq_getElem?]
  have hlog : w'.log = log ++ (made ++ [(w.now, due)]).map fun l => (l.1, .get t.plan.key) := by
    rw [List.map_append, ← List.append_assoc, ← h.logged]
    rfl
  let u : Task := { t with activity := .calling due incident }
  -- So the ending of a wait for this answer is the one of a wait that is about to look.
  have hending : (w'.endingAt w.now u).after read (made ++ [(w.now, due)]) = e := by
    have hending := h.ending
    rw [endingAt_looks hactivity hstage, hfirst] at hending
    simp only [Ending.ofLookup, Ending.after_after, Nat.add_zero] at hending
    have hasked : w'.endingAt w.now u = _ := endingAt_asked rfl hstage
    rw [lookup_clusterAt (halike 0) rfl] at hasked
    rw [hasked, ← hending]
    show Ending.after _ _ (Ending.ofAnswer t.deadline due _
      (awaitRemoval _ _ (w'.lookupAhead t.plan.key) _ (w'.itemsAhead t.watch t.deadline))) = _
    rw [hlookups, hitems]
  rw [hstep]
  refine ⟨u, made ++ [(w.now, due)], h.put rfl rfl rfl rfl (List.tail_suffix _) hlog
    (.asked due incident rfl hstage hcrash (Nat.le_add_right _ _)) hending (hitems.trans h.left) ?_⟩
  · intro due' incident' hcalling
    obtain ⟨rfl, -⟩ := Activity.calling.inj hcalling
    exact ⟨_, List.mem_append_right _ List.mem_cons_self, rfl⟩

/-- With `Foresees`, no removal is due at the time at which the answer to a lookup is. -/
private theorem Foresees.clusterAt_due {incident : Incident}
    (h : w.Foresees i start items log e t read made)
    (hactivity : t.activity = .calling w.now incident) : w.clusterAt w.now = w.cluster := by
  apply clusterAt_of_lt
  intro r hr
  obtain ⟨l, hl, hdue⟩ := h.inFlight _ _ hactivity
  -- The lookup is one of those that the forecast lists, and none of them is tied with a removal.
  have hmem : l ∈ e.lookups := by
    rw [← h.ending]
    exact List.mem_append_left _ hl
  have hne := h.untied r hr l hmem
  have hle := h.punctual r hr
  omega

/-- The answer to a lookup, or the deadline before it, keeps `Foresees`. -/
private theorem Foresees.answer {due : Nat} {incident : Incident}
    (h : w.Foresees i start items log e t read made)
    (hactivity : t.activity = .calling due incident) (hstage : t.stage = .probing)
    (hcrash : incident.crash = false) (hnow : w.now ≤ due) (hdue : min due t.deadline ≤ w.now) :
    ∃ u, (w.stepTask i t).Foresees i start items log e u read made := by
  have hdelete : ∀ watching, t.stage ≠ .delete watching := by simp [hstage]
  by_cases hlate : t.deadline ≤ due
  · -- The deadline cuts the lookup off.
    have hdeadline : w.now = t.deadline := by
      have := h.now_le
      omega
    have hnext : t.stage.next t.plan .deadline = .recreate .timedOut := by
      rw [hstage]
      rfl
    refine h.hear .deadline hdelete
      (by simp [hearing?, hactivity, hstage, hlate, hdeadline]) (.ends .timedOut rfl hnext) ?_
    rw [endingAt_ends rfl hnext, endingAt_asked hactivity hstage, Ending.ofAnswer, if_pos hlate,
      hdeadline]
    rfl
  · -- The answer comes, and nothing was removed at its time.
    obtain rfl : due = w.now := by omega
    have hheard : w.hearing? t =
        some (w.cluster, t.watch, .found (w.cluster.lookup incident t.plan.key)) := by
      simp [hearing?, hactivity, hstage, hlate, answer?, hcrash, Stage.call?]
    -- The forecast for the answer is decided by the same lookup.
    have hending : w.endingAt w.now t = _ := endingAt_asked hactivity hstage
    rw [h.clusterAt_due hactivity, Ending.ofAnswer, if_neg hlate] at hending
    -- Unless the lookup says that there is no Pod, the wait goes on from here.
    have hgoOn : ∀ answer, w.cluster.lookup incident t.plan.key = answer →
        saysAbsent answer = false → t.stage.next t.plan (.found answer) = .waiting true →
        ∃ u, (w.stepTask i t).Foresees i start items log e u read made := by
      intro answer hanswer hfound hnext
      rw [hanswer] at hheard hending
      refine h.hear _ hdelete hheard (.waits true rfl hnext) ?_
      rw [hending, endingAt_waits rfl hnext, hfound]
      rfl
    cases hanswer : w.cluster.lookup incident t.plan.key with
    | error error => exact hgoOn _ hanswer rfl (by rw [hstage]; rfl)
    | ok found =>
      cases found with
      | some pod => exact hgoOn _ hanswer rfl (by rw [hstage]; rfl)
      -- There is no Pod, and the wait ends with that.
      | none =>
        have hnext : t.stage.next t.plan (.found (.ok none)) = .recreate .probedAbsent := by
          rw [hstage]
          rfl
        rw [hanswer] at hheard hending
        refine h.hear _ hdelete hheard (.ends .probedAbsent rfl hnext) ?_
        rw [hending, endingAt_ends rfl hnext]
        rfl

/-- `World.stepTask` keeps `Foresees`: each turn of the wait carries out a part of the forecast. -/
private theorem Foresees.turn {due now : Nat} (h : w.Foresees i start items log e t read made)
    (hopen : ∀ signal, t.stage ≠ .recreate signal) (hdue : t.due? w.cluster now = some due)
    (hle : due ≤ w.now) :
    ∃ u read' made', (w.stepTask i t).Foresees i start items log e u read' made' := by
  cases h.phase with
  | waits watching hactivity hstage =>
    by_cases hlate : t.deadline ≤ w.now
    · obtain ⟨u, hu⟩ := h.deadline hactivity hstage hlate
      exact ⟨u, read, made, hu⟩
    · -- Before the deadline the task is due because of an item.
      obtain ⟨rfl, n, entry, hwatch, hpeek, hentry⟩ : watching = true ∧ ∃ n entry,
          t.watch = some n ∧ w.cluster.peek n = some entry ∧ entry.1 ≤ w.now := by
        cases watching with
        | false =>
          simp only [Task.due?, hactivity, hstage, Option.some.injEq] at hdue
          omega
        | true =>
          simp only [Task.due?, hactivity, hstage, Option.some.injEq] at hdue
          split at hdue
          · rename_i at' item hpeek
            obtain ⟨n, hwatch, hpeek⟩ := Option.bind_eq_some_iff.1 hpeek
            exact ⟨rfl, n, (at', item), hwatch, hpeek, by dsimp only; omega⟩
          · omega
      obtain ⟨u, hu⟩ := h.news hactivity hstage hwatch hpeek hentry (Nat.lt_of_not_le hlate)
      exact ⟨u, _, made, hu⟩
  | looks hactivity hstage =>
    obtain ⟨u, made', hu⟩ := h.enter hactivity hstage
    exact ⟨u, read, made', hu⟩
  | asked at' incident hactivity hstage hcrash hnow =>
    simp only [Task.due?, hactivity, hstage, Option.some.injEq] at hdue
    obtain ⟨u, hu⟩ := h.answer hactivity hstage hcrash hnow (by omega)
    exact ⟨u, read, made, hu⟩
  | ends signal hactivity hstage => exact absurd hstage (hopen signal)

/-- `World.tick` keeps `Foresees`: it carries out a part of the forecast and leaves the rest. -/
theorem Foresees.tick {time : Nat} {actor : Actor} (h : w.Foresees i start items log e t read made)
    (hothers : w.OthersAtRest i) (hopen : ∀ signal, t.stage ≠ .recreate signal)
    (hnext : w.next? = some (time, actor)) :
    ∃ u read' made', (w.tick time actor).Foresees i start items log e u read' made' := by
  obtain ⟨j, r, rfl, -, -⟩ | ⟨j, u, due, rfl, hu, hdue, hle, htick⟩ := tick_cases hnext
  · exact ⟨t, read, made, h.removal hopen hnext⟩
  · obtain rfl : j = i := hothers.eq_of_due hu hdue
    obtain rfl : t = u := Option.some.inj (h.task.symm.trans hu)
    -- The clock moves to the time of the turn first, and then the task has it.
    have hwaited : ({ w with now := time } : World).Foresees j start items log e t read made :=
      h.pass hopen hnext rfl rfl rfl rfl (List.Subset.refl _) fun s hs => clusterAt_wait hnext hs
    rw [htick]
    exact hwaited.turn hopen hdue hle

/-! ## A whole wait -/

theorem runs_of_inWait {now : Nat} (h : t.InWait now) : t.Runs := by
  cases h with
  | asked due incident hactivity hstage =>
    exact ⟨by simp [hstage, Stage.outcome?], by simp [hactivity], by simp [hstage, Stage.call?]⟩
  | _ => exact ⟨by simp_all [Stage.outcome?], by simp_all, by simp_all⟩

/-- A task that waits is not over. -/
theorem isOver_of_awaits (h : w.awaits i = true) : w.isOver i = false := by
  unfold awaits at h
  split at h
  · rename_i t ht
    simp only [Bool.and_eq_true, Bool.not_eq_true'] at h
    simp only [isOver, ht, h.1]
  · simp at h

/-- `World.runTask` goes on from the end of the wait. -/
theorem runTask_await (hsound : w.IsSound) (i : Nat) :
    (w.await i).runTask i none = w.runTask i none := by
  rw [runTask_eq_run, runTask_eq_run]
  refine run_run hsound (fun w _ hawaits => ?_) _
  simp [isOver_of_awaits hawaits]

/-- With `Foresees`, a wait goes on until the new Pod is about to be created. -/
private theorem Foresees.awaits_iff (h : w.Foresees i start items log e t read made) :
    w.awaits i = true ↔ ∀ signal, t.stage ≠ .recreate signal := by
  have hopen := Task.isOver_eq_false_of_runs (runs_of_inWait h.phase)
  unfold awaits
  cases h.phase <;> simp_all [h.task]

/-- With `Foresees`, a wait ends as it was foreseen. -/
theorem Foresees.await (h : w.Foresees i start items log e t read made) (hsound : w.IsSound)
    (hothers : w.OthersAtRest i) :
    (w.await i).tasks[i]? =
        some { start with stage := .recreate e.signal, activity := .ready } ∧
      (w.await i).now = e.time ∧
      (w.await i).log = log ++ e.lookups.map (fun l => (l.1, .get start.plan.key)) ∧
      (w.await i).itemsAhead start.watch start.deadline = items.drop e.read := by
  -- Every tick keeps the forecast, so it still holds when the wait is over.
  obtain ⟨⟨u, read', made', hu⟩, -⟩ : (∃ u read' made',
      (w.await i).Foresees i start items log e u read' made') ∧ (w.await i).OthersAtRest i := by
    refine run_preserves
      (P := fun w => (∃ t read made, w.Foresees i start items log e t read made) ∧ w.OthersAtRest i)
      (fun hnext hwanted hw => ?_) w.budget ⟨⟨t, read, made, h⟩, hothers⟩
    obtain ⟨⟨t, read, made, h⟩, hothers⟩ := hw
    exact ⟨h.tick hothers (h.awaits_iff.1 hwanted) hnext, othersAtRest_tick hothers hnext⟩
  have hstopped : (w.await i).awaits i = false :=
    unwanted_of_runs hsound (World.awaits i) (effort_le_budget w) hu.task (runs_of_inWait hu.phase)
  have hphase := hu.phase
  have hending := hu.ending
  cases hphase with
  -- The wait is over in the phase in which nothing is forecast any more.
  | ends signal hactivity hstage =>
    rw [endingAt_ends hactivity hstage] at hending
    obtain ⟨rfl⟩ := hending
    have hsame := hu.same
    have htask := hu.task
    have hleft := hu.left
    have hlogged := hu.logged
    rw [hactivity, hstage] at hsame
    rw [hsame] at htask hleft hlogged
    exact ⟨htask, rfl, by simpa [Ending.after] using hlogged, hleft⟩
  | _ => simp [hu.awaits_iff.2 (by simp_all)] at hstopped

/-- A wait that starts now `Foresees` its `waitEnding`, if nothing is removed at the very time of
the answer to a lookup. -/
theorem foresees_of_waiting {watching : Bool} (ht : w.tasks[i]? = some t)
    (hactivity : t.activity = .ready) (hstage : t.stage = .waiting watching)
    (hnow : w.now ≤ t.deadline) (hpunctual : w.IsPunctual)
    (hcalm : ∀ incident, some incident ∈ w.cluster.script .get → incident.crash = false)
    (huntied : ∀ r ∈ w.cluster.removals,
      ∀ l ∈ (w.waitEnding t.plan.key t.deadline (if watching then t.watch else none)).lookups,
        r.due ≠ l.2) :
    w.Foresees i t (w.itemsAhead t.watch t.deadline) w.log
      (w.waitEnding t.plan.key t.deadline (if watching then t.watch else none)) t 0 [] where
  task := ht
  same := rfl
  phase := .waits watching hactivity hstage
  now_le := hnow
  calm := hcalm
  punctual := hpunctual
  untied := huntied
  ending := by
    rw [endingAt_waits hactivity hstage, Ending.after_zero]
    rfl
  left := rfl
  logged := (List.append_nil _).symm
  inFlight due incident hcalling := by simp [hactivity] at hcalling

/-- The wait after an accepted deletion ends as it is forecast from what the watch will deliver and
how the lookups will go, in the same way and at the same time, with the same lookups. -/
theorem removal_wait_as_forecast {watching : Bool} {since : Nat} {c : Cluster} {watch : Option Nat}
    (hsound : w.IsSound) (hothers : w.OthersAtRest i) (hpunctual : w.IsPunctual)
    (hcalm : ∀ incident, some incident ∈ w.cluster.script .get → incident.crash = false)
    (ht : w.tasks[i]? = some t) (hstage : t.stage = .delete watching)
    (hnext : w.next? = some (since, .task i))
    (hdeleted : ({ w with now := since } : World).hearing? t = some (c, watch, .done (.ok ())))
    (hdeadline : since + t.wait < endOfTime) :
    let start := w.tick since (.task i)
    let deadline := since + t.wait
    let ending := start.waitEnding t.plan.key deadline (if watching then t.watch else none)
    (∀ r ∈ start.cluster.removals, ∀ l ∈ ending.lookups, r.due ≠ l.2) →
      (start.await i).tasks[i]?.map (·.stage) = some (.recreate ending.signal) ∧
      (start.await i).now = ending.time ∧
      (start.await i).log = start.log ++ ending.lookups.map (fun l => (l.1, .get t.plan.key)) ∧
      (start.await i).itemsAhead t.watch deadline =
        (start.itemsAhead t.watch deadline).drop ending.read ∧
      (start.await i).runTask i none = w.runTask i none := by
  intro start deadline ending huntied
  -- The deletion was answered just now, and the wait starts with its deadline.
  let u : Task := { t with stage := .waiting watching, activity := .ready, deadline }
  have hstart : start = ({ w with now := since, cluster := c } : World).putTask i u := by
    have hwatch : watch = t.watch := by
      have hheard := heard_of_hearing hdeleted
      generalize Reply.done (.ok ()) = reply at hheard
      cases hheard with
      | answer _ _ hcall =>
        rw [hstage, Stage.call?, Option.some.injEq] at hcall
        subst hcall
        rfl
      | _ => rfl
    have hhear : ({ t with watch } : Task).hear since (.done (.ok ())) = u := by
      simp [Task.hear, hstage, Stage.next, hdeadline, hwatch, u, deadline]
    have htick : start = ({ w with now := since } : World).stepTask i t := by
      simp only [start, World.tick, ht]
    rw [htick, stepTask_of_hearing hdeleted, hhear]
  have hlt : i < w.tasks.length := (List.getElem?_eq_some_iff.1 ht).1
  have hnow : start.now = since := tick_now hnext
  have hcalm' : ∀ incident, some incident ∈ start.cluster.script .get → incident.crash = false := by
    rw [hstart, putTask_cluster]
    dsimp only
    rw [hearing_script hdeleted]
    exact hcalm
  have hsound' : start.IsSound := (hsound.tick hnext).1
  have hu : start.tasks[i]? = some u := by
    simp [hstart, hlt]
  have hle : start.now ≤ u.deadline := by
    rw [hnow]
    exact Nat.le_add_right _ _
  have hforeseen :=
    foresees_of_waiting hu rfl rfl hle (hpunctual.tick hnext) hcalm' huntied
  obtain ⟨htask, htime, hlog, hitems⟩ :=
    hforeseen.await hsound' (othersAtRest_tick hothers hnext)
  refine ⟨by rw [htask]; rfl, htime, hlog, hitems, ?_⟩
  rw [runTask_await hsound', runTask_tick hsound hnext]

/-! ## A wait with news of another Pod -/

/-- A replacement whose deletion is about to be accepted; the old Pod will stay for a while. -/
def neighbour : Task where
  plan := ⟨{ base := { name := "web", ns := "prod" } }, 30⟩
  wait := 5000
  started := 0
  stage := .delete true
  activity := .calling 20 { removeAfter := 3000 }
  watch := some 0

/-- A world with the task `neighbour`, where another Pod of the namespace is being removed and
lookups take a while. -/
def neighbourWorld : World where
  cluster := {
    pods := (SortedMap.empty.insert ⟨"prod", "web"⟩ neighbour.plan.pod).insert ⟨"prod", "db"⟩
      { metadata := { name := some "db", ns := some "prod" } }
    script := fun
      | .get => [some { delay := 250 }]
      | _ => []
    removals := [⟨400, ⟨"prod", "db"⟩, false⟩]
    watches := [⟨some "prod", []⟩] }
  tasks := [neighbour]

/-- In `neighbourWorld` the removal of the other Pod is a reason to look, and that of the right one
ends the wait. -/
theorem neighbour_removal_is_a_hint :
    let start := neighbourWorld.tick 20 (.task 0)
    (start.await 0).tasks[0]?.map (·.stage) = some (.recreate .deletedEvent) ∧
      (start.await 0).now = 3020 ∧
      (start.await 0).log = start.log ++ [(400, .get ⟨"prod", "web"⟩)] := by
  intro start
  have hsound : neighbourWorld.IsSound := by
    intro t ht
    obtain rfl := List.mem_singleton.1 ht
    exact .inr ⟨⟨rfl, nofun, fun _ _ _ => rfl⟩, by simp [neighbour, neighbourWorld]⟩
  have hothers : neighbourWorld.OthersAtRest 0 := by
    intro j t hne ht
    obtain ⟨hj, -⟩ := List.getElem?_eq_some_iff.1 ht
    exact absurd (Nat.lt_one_iff.1 hj) hne
  have hnext : neighbourWorld.next? = some (20, .task 0) := by
    decide +kernel
  have hending : start.waitEnding neighbour.plan.key (20 + neighbour.wait)
      (if true then neighbour.watch else none) =
        { signal := .deletedEvent, time := 3020, read := 2, lookups := [(400, 650)] } := by
    decide +kernel
  have hwait := removal_wait_as_forecast (t := neighbour) hsound hothers
    (by simp [IsPunctual, neighbourWorld]) (by simp [neighbourWorld]) rfl rfl hnext rfl (by decide)
  dsimp only at hwait
  rw [hending] at hwait
  obtain ⟨hstage, hnow, hlog, -⟩ := hwait (by decide +kernel)
  exact ⟨hstage, hnow, hlog⟩

end World

end PodDesk
