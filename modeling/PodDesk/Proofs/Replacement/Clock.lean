import PodDesk.Proofs.Replacement.Effort

/-!
# Letting time pass

What happens in a world does not depend on who watches it: a run that is stopped and taken up again,
at whatever times, comes to the same world as one that goes through. `World.upTo` is the world after
all that is due by a time, and every way to get to that time leads there.

## Main statements

- `World.tick_now`: a tick moves the clock to its time, and never back
- `World.IsPunctual.tick`: no removal is missed
- `World.upTo_run`: what a run has done is part of what happens by a later time
- `World.upTo_wait`: so is a while in which nothing is due
- `World.upTo_advanceTo`, `World.settle_eq_upTo`: the steps of a session lead to such worlds
-/

namespace PodDesk

/-- `Task.due?` depends on the clock only for a task that goes on at once. -/
theorem Task.due?_congr (t : Task) (c : Cluster) {now : Nat} (h : t.due? c now ≠ some now)
    (later : Nat) : t.due? c later = t.due? c now := by
  cases hactivity : t.activity with
  | ready =>
    cases hs : t.stage with
    | finished o => simp [due?, hactivity, hs]
    | waiting watching => cases watching <;> simp [due?, hactivity, hs]
    | _ => simp [due?, hactivity, hs] at h
  | calling due incident => cases hs : t.stage <;> simp [due?, hactivity, hs]
  | crashed cause => simp [due?, hactivity]

namespace World

variable {w : World} {time : Nat} {actor : Actor}

/-- The world after everything that is due by `time`. -/
def upTo (w : World) (time : Nat) : World :=
  { w.runBefore (time + 1) with now := max w.now time }

/-! ## The clock -/

@[simp] theorem stepTask_now (w : World) (i : Nat) (t : Task) : (w.stepTask i t).now = w.now := by
  rcases w.stepTask_frame i t with hsame | ⟨w', t', hnow, -, -, hstep⟩
  · rw [hsame]
  · rw [hstep, putTask_now, hnow]

/-- `World.next?` never gives a time in the past. -/
theorem now_le_of_next? (h : w.next? = some (time, actor)) : w.now ≤ time := by
  have hentry := next?_entry h
  cases actor with
  | task j =>
    obtain ⟨t, due, -, -, rfl⟩ := hentry
    exact Nat.le_max_left _ _
  | removal j =>
    obtain ⟨r, -, rfl⟩ := hentry
    exact Nat.le_max_left _ _

/-- `World.tick` moves the clock to its time. -/
theorem tick_now (h : w.next? = some (time, actor)) : (w.tick time actor).now = time := by
  obtain ⟨j, r, -, -, htick⟩ | ⟨j, t, due, -, -, -, -, htick⟩ := tick_cases h
  · rw [htick]
    rfl
  · rw [htick, stepTask_now]

/-- `World.run` never moves the clock back. -/
theorem now_le_run (wanted : World → Nat → Bool) (n : Nat) (w : World) :
    w.now ≤ (run wanted n w).now := by
  refine run_preserves (P := fun w' => w.now ≤ w'.now) (fun hnext _ hle => ?_) n (Nat.le_refl _)
  rw [tick_now hnext]
  exact Nat.le_trans hle (now_le_of_next? hnext)

/-- If `World.run` moved the clock at all, it shows a time that was wanted. -/
theorem run_now_lt (limit : Nat) (wanted : World → Nat → Bool)
    (hwanted : ∀ w time, wanted w time = true → time < limit) (n : Nat) (w : World) :
    (run wanted n w).now = w.now ∨ (run wanted n w).now < limit := by
  refine run_preserves (P := fun w' => w'.now = w.now ∨ w'.now < limit)
    (fun hnext hyes _ => .inr ?_) n (.inl rfl)
  rw [tick_now hnext]
  exact hwanted _ _ hyes

/-- In `World.run` no task comes or goes. -/
theorem length_tasks_run (wanted : World → Nat → Bool) (n : Nat) (w : World) :
    (run wanted n w).tasks.length = w.tasks.length := by
  refine run_preserves (P := fun w' => w'.tasks.length = w.tasks.length)
    (fun {w' time actor} hnext _ hlength => ?_) n rfl
  rw [← hlength]
  obtain ⟨j, r, -, -, htick⟩ | ⟨j, t, due, -, -, -, -, htick⟩ := tick_cases hnext
  · rw [htick]
    rfl
  · rcases World.stepTask_frame { w' with now := time } j t with
      hsame | ⟨w'', t'', -, htasks, -, hstep⟩
    · rw [htick, hsame]
    · rw [htick, hstep, putTask_tasks, List.length_set, htasks]

/-! ## Removals -/

/-- A world `IsPunctual` when no removal should have happened already. -/
def IsPunctual (w : World) : Prop :=
  ∀ r ∈ w.cluster.removals, w.now ≤ r.due

/-- In a world that `IsPunctual`, what happens next comes before the removals that are on their way.
-/
theorem IsPunctual.le_due (h : w.IsPunctual) (hnext : w.next? = some (time, actor)) :
    ∀ r ∈ w.cluster.removals, time ≤ r.due := by
  intro r hr
  obtain ⟨j, hj⟩ := List.getElem?_of_mem hr
  have hle := earliest_le hnext _ (mem_agenda_of_removal hj)
  rwa [Nat.max_eq_right (h r hr)] at hle

/-- `Cluster.reply` removes a Pod now or later, never in the past. -/
private theorem le_due_reply {c : Cluster} {now : Nat} (h : ∀ r ∈ c.removals, now ≤ r.due)
    (incident : Incident) (call : Call) :
    ∀ r ∈ (c.reply incident now call).1.removals, now ≤ r.due := by
  cases call with
  -- A creation and a watch bring no removal.
  | create ns pod =>
    rw [Cluster.reply_create]
    unfold Cluster.create
    dsimp only
    split
    · exact h
    · split <;> exact h
  | delete key params =>
    rw [Cluster.reply_delete]
    unfold Cluster.delete
    split
    · exact h
    · split
      · exact h
      · split
        · exact h
        · split
          · rw [Cluster.remove_removals]
            exact h
          -- Those before, and the new one at the end of its delay.
          · intro r hr
            rcases List.mem_append.1 hr with hr | hr
            · exact h r hr
            · rw [List.mem_singleton.1 hr]
              exact Nat.le_add_right _ _
  | watch ns selector version =>
    rw [Cluster.reply_watch_fst]
    unfold Cluster.openWatch
    cases incident.error <;> exact h
  | _ => exact h

/-- `World.tick` keeps a world punctual: no removal is missed. -/
theorem IsPunctual.tick (h : w.IsPunctual) (hnext : w.next? = some (time, actor)) :
    (w.tick time actor).IsPunctual := by
  have hle : ({ w with now := time } : World).IsPunctual := h.le_due hnext
  obtain ⟨j, r, -, -, htick⟩ | ⟨j, t, due, -, -, -, -, htick⟩ := tick_cases hnext
  -- One removal is taken off the list.
  · rw [htick]
    intro r' hr'
    rw [stepRemoval, Cluster.remove_removals] at hr'
    exact hle r' (List.mem_of_mem_eraseIdx hr')
  -- Only the answer to a call can bring another one.
  · rw [htick]
    generalize ({ w with now := time } : World) = v at hle
    intro r hr
    rw [stepTask_now]
    cases hheard : v.hearing? t with
    | some heard =>
      obtain ⟨c, watch, reply⟩ := heard
      rw [stepTask_of_hearing hheard, putTask_cluster] at hr
      cases heard_of_hearing hheard with
      | answer => exact le_due_reply hle _ _ r hr
      | _ => exact hle r hr
    | none =>
      rcases quiet_cases (i := j) hheard with hsame | hcrash | ⟨call, hactivity, hcall⟩
      · exact hle r (hsame ▸ hr)
      · rw [hcrash, putTask_cluster] at hr
        exact hle r hr
      · rw [stepTask_of_ready hactivity hcall, putTask_cluster] at hr
        exact hle r hr

/-! ## A while in which nothing is due -/

/-- `w.QuietBefore limit` says that nothing is due in `w` before `limit`. -/
def QuietBefore (w : World) (limit : Nat) : Prop :=
  ∀ time actor, w.next? = some (time, actor) → limit ≤ time

/-- With `QuietBefore`, nothing in the agenda comes before the limit. -/
private theorem QuietBefore.le_of_mem {limit : Nat} (h : w.QuietBefore limit) {e : Nat × Actor}
    (he : e ∈ w.agenda) : limit ≤ e.1 := by
  obtain ⟨first, hfirst⟩ := Option.isSome_iff_exists.1 (earliest_isSome (List.ne_nil_of_mem he))
  exact Nat.le_trans (h first.1 first.2 hfirst) (earliest_le hfirst e he)

/-- With `QuietBefore`, it does not matter for a task what the clock shows up to the limit. -/
private theorem QuietBefore.taskEntry {limit : Nat} (h : w.QuietBefore limit)
    (hlt : w.now < limit) (j : Nat) :
    ({ w with now := limit } : World).taskEntry j = w.taskEntry j := by
  -- A task that would go on at once would be due now, which is before the limit.
  have hquiet : ∀ t due, w.tasks[j]? = some t → t.due? w.cluster w.now = some due →
      limit ≤ max w.now due := by
    intro t due ht hdue
    have hentry : w.taskEntry j = some (max w.now due, .task j) := by
      simp [World.taskEntry, ht, hdue]
    exact h.le_of_mem (mem_agenda_of_taskEntry hentry)
  cases ht : w.tasks[j]? with
  | none => simp [World.taskEntry, ht]
  | some t =>
    have hsame : t.due? w.cluster limit = t.due? w.cluster w.now := by
      refine t.due?_congr w.cluster (fun hdue => ?_) limit
      have := hquiet t w.now ht hdue
      omega
    simp only [World.taskEntry, ht, Option.bind_some, hsame]
    cases hdue : t.due? w.cluster w.now with
    | none => rfl
    | some due =>
      have := hquiet t due ht hdue
      simp only [Option.map_some, Option.some.injEq, Prod.mk.injEq, and_true]
      omega

/-- With `QuietBefore`, the clock does not matter for `World.next?` either. -/
private theorem QuietBefore.next? {limit : Nat} (h : w.QuietBefore limit) (hlt : w.now < limit) :
    ({ w with now := limit } : World).next? = w.next? := by
  -- The removals stand in the agenda with the same times.
  have hremovals : (w.cluster.removals.mapIdx fun i r => (max limit r.due, Actor.removal i)) =
      w.cluster.removals.mapIdx fun i r => (max w.now r.due, Actor.removal i) := by
    apply List.ext_getElem?
    intro j
    simp only [List.getElem?_mapIdx]
    cases hr : w.cluster.removals[j]? with
    | none => rfl
    | some r =>
      have : limit ≤ max w.now r.due := h.le_of_mem (mem_agenda_of_removal hr)
      simp only [Option.map_some, Option.some.injEq, Prod.mk.injEq, and_true]
      omega
  unfold World.next? agenda
  rw [show ({ w with now := limit } : World).taskEntry = w.taskEntry from
    funext fun j => h.taskEntry hlt j]
  dsimp only
  rw [hremovals]

/-- `World.tick` on what happens next does not depend on what the clock showed before. -/
theorem tick_congr (h : w.next? = some (time, actor)) (now : Nat) :
    ({ w with now := now } : World).tick time actor = w.tick time actor := by
  have hentry := next?_entry h
  cases actor with
  | task j =>
    obtain ⟨t, due, ht, -⟩ := hentry
    simp only [tick, ht]
  | removal j =>
    obtain ⟨r, hr, -⟩ := hentry
    simp only [tick, hr]

/-- With `QuietBefore`, the clock can be moved without changing what happens later, as long as it is
not the clock that decides what is wanted. The runs are the same from their first tick on; without
one, each stays where it was. -/
theorem QuietBefore.run {limit : Nat} (h : w.QuietBefore limit) (hlt : w.now < limit)
    (wanted : World → Nat → Bool)
    (hwanted : ∀ time, wanted { w with now := limit } time = wanted w time) (n : Nat) :
    World.run wanted n { w with now := limit } = World.run wanted n w ∨
      (World.run wanted n { w with now := limit } = { w with now := limit } ∧
        World.run wanted n w = w) := by
  cases n with
  | zero => exact .inr ⟨rfl, rfl⟩
  | succ n =>
    unfold World.run
    rw [h.next? hlt]
    cases hnext : w.next? with
    | none => exact .inr ⟨rfl, rfl⟩
    | some e =>
      dsimp only
      rw [tick_congr hnext, hwanted]
      split
      · exact .inl rfl
      · exact .inr ⟨rfl, rfl⟩

/-! ## Every way to a time leads to the same world -/

variable {n : Nat} {t : Nat}

/-- What `World.run` has done is part of what happens by a later time. -/
theorem upTo_run (hsound : w.IsSound) (wanted : World → Nat → Bool)
    (ht : (run wanted n w).now ≤ t) : (run wanted n w).upTo t = w.upTo t := by
  -- Induction on the ticks of the run: each is the first one of those up to the time.
  have hbefore : (run wanted n w).runBefore (t + 1) = w.runBefore (t + 1) := by
    induction n generalizing w with
    | zero => rfl
    | succ n ih =>
      unfold run at ht ⊢
      split at ht
      · rename_i time actor hnext
        split at ht
        · rename_i hwanted
          have hsound' := (hsound.tick hnext).1
          simp only [hwanted, if_true]
          -- The tick is the first thing that happens.
          have htime : time < t + 1 := by
            have := now_le_run wanted n (w.tick time actor)
            rw [tick_now hnext] at this
            omega
          rw [ih hsound' ht, runBefore, runBefore]
          exact (run_budget_tick hsound hnext (by simpa using htime)).symm
        · rename_i hwanted
          simp only [hwanted]
          rfl
      · rfl
  have hnow := now_le_run wanted n w
  unfold upTo
  rw [hbefore, Nat.max_eq_right ht, Nat.max_eq_right (Nat.le_trans hnow ht)]

/-- With `QuietBefore`, a while in which nothing happens is part of what happens by a later time. -/
theorem upTo_wait {limit : Nat} (hquiet : w.QuietBefore limit) (hnow : w.now ≤ limit)
    (ht : limit ≤ t) : ({ w with now := limit } : World).upTo t = w.upTo t := by
  rcases Nat.eq_or_lt_of_le hnow with rfl | hlt
  · rfl
  · have hrun := hquiet.run hlt (fun _ time => time < t + 1) (fun _ => rfl) w.budget
    unfold upTo runBefore
    rw [show ({ w with now := limit } : World).budget = w.budget from rfl,
      Nat.max_eq_right (show limit ≤ t from ht), Nat.max_eq_right (Nat.le_trans hnow ht)]
    rcases hrun with hrun | ⟨hmoved, hsame⟩
    · rw [hrun]
    · rw [hmoved, hsame]

/-- After `World.runBefore` nothing is due before its limit. -/
theorem quietBefore_runBefore (hsound : w.IsSound) (limit : Nat) :
    (w.runBefore limit).QuietBefore limit := by
  intro time actor hnext
  have hunwanted := next?_run hsound _ (effort_le_budget w) hnext
  simpa using hunwanted

theorem runBefore_now_le {limit : Nat} (h : w.now ≤ limit) : (w.runBefore limit).now ≤ limit := by
  have := run_now_lt limit (fun _ time => time < limit) (by simp) w.budget w
  unfold runBefore
  omega

/-- `World.runTask` that leaves its task open at a limit leaves nothing due before that limit. -/
theorem quietBefore_runTask (hsound : w.IsSound) {i limit : Nat}
    (hopen : (w.runTask i (some limit)).isOver i = false) :
    (w.runTask i (some limit)).QuietBefore limit := by
  intro time actor hnext
  have hunwanted : (! (w.runTask i (some limit)).isOver i && decide (time < limit)) = false :=
    next?_run hsound _ (effort_le_budget w) hnext
  simpa [hopen] using hunwanted

/-- What `World.advanceTo` does is part of what happens by a later time. -/
theorem upTo_advanceTo {limit : Nat} (hsound : w.IsSound) (hnow : w.now ≤ limit)
    (ht : limit ≤ t) : (w.advanceTo limit).upTo t = w.upTo t := by
  have hle := runBefore_now_le hnow
  unfold advanceTo
  dsimp only
  rw [Nat.max_eq_right hle, upTo_wait (quietBefore_runBefore hsound limit) hle ht]
  exact upTo_run hsound _ (Nat.le_trans hle ht)

/-- `World.settle` leads as far as the clock shows. -/
theorem settle_eq_upTo (w : World) : w.settle = w.upTo w.now := by
  have hnow : (w.runBefore (w.now + 1)).now = w.now := by
    -- The clock is not moved back, and not beyond what is due now.
    have hlt := run_now_lt (w.now + 1) (fun _ time => time < w.now + 1) (by simp) w.budget w
    have hle := now_le_run (fun _ time => time < w.now + 1) w.budget w
    unfold runBefore
    omega
  unfold settle upTo
  rw [Nat.max_self]
  calc w.runBefore (w.now + 1)
      = { w.runBefore (w.now + 1) with now := (w.runBefore (w.now + 1)).now } := rfl
    _ = _ := by rw [hnow]

end World

end PodDesk
