import PodDesk.Proofs.Replacement.Arguments

/-!
# Who makes the calls of a run

The log keeps the calls of a run with their times, but not who made them. Here every call of a run
comes with its caller: the same calls as in the log, each made by a task of the world for the
request that the task is about.

## Main statements

- `Stage.call?_suits`: the call of a stage is made for the request of the replacement
- `World.makes_run`: who makes the calls of a run, and for which requests
- `World.Makes.trans`: runs one after the other
-/

namespace PodDesk

/-- Who makes a call: the request that is being served, or a replacement. -/
inductive Caller where
  | request
  | task (index : Nat)
  deriving DecidableEq, Repr

/-- A call with its caller and its time. -/
structure Issue where
  caller : Caller
  time : Nat
  call : Call
  deriving DecidableEq, Repr

/-- What `World.log` keeps of a call. -/
def Issue.entry (x : Issue) : Nat × Call :=
  (x.time, x.call)

/-- `Stage.call?` suits the request, with the Pod that the stage is about. -/
theorem Stage.call?_suits {p : Plan} {s : Stage} {call : Call} (h : s.call? p = some call) :
    ∃ found, call.Suits p.request p.grace found := by
  cases s with
  | watch existing =>
    obtain rfl := Option.some.inj h
    exact ⟨some existing, .watch rfl⟩
  | waiting watching => simp [call?] at h
  | finished o => simp [call?] at h
  | _ =>
    obtain rfl := Option.some.inj h
    exact ⟨none, by constructor⟩

namespace World

variable {w : World} {i : Nat} {t : Task}

/-- The call that `World.tick` makes, if any. -/
def issueIn? (w : World) (time : Nat) : Actor → Option Issue
  | .removal _ => none
  | .task i => (w.deedIn? i time (.task i)).bind fun d => d.call?.map (⟨.task i, time, ·⟩)

/-- The calls that `World.run` makes. -/
def issues (wanted : World → Nat → Bool) : Nat → World → List Issue
  | 0, _ => []
  | n + 1, w =>
    match w.next? with
    | some (time, actor) =>
      if wanted w time then (w.issueIn? time actor).toList ++ issues wanted n (w.tick time actor)
      else []
    | none => []

/-- What the tasks of `w` are about, in their order. -/
def plans (w : World) : List Plan :=
  w.tasks.map (·.plan)

/-! ## Ticks -/

/-- `World.tick` logs the call that is made in it. -/
private theorem log_tick {time : Nat} {actor : Actor} (hnext : w.next? = some (time, actor)) :
    (w.tick time actor).log = w.log ++ (w.issueIn? time actor).toList.map Issue.entry := by
  obtain ⟨j, r, rfl, -, htick⟩ | ⟨j, u, due, rfl, hu, -, -, htick⟩ := tick_cases hnext
  · rw [htick]
    exact (List.append_nil _).symm
  · rw [htick, stepTask_log, issueIn?, deedIn?, if_pos rfl, hu, Option.bind_some]
    cases ({ w with now := time } : World).deed? u with
    | none => rfl
    | some d => cases d <;> rfl

/-- `World.stepTask` changes nothing about what the tasks are about. -/
private theorem plans_stepTask (h : w.tasks[i]? = some t) : (w.stepTask i t).plans = w.plans := by
  have hput : ∀ (w' : World) (u : Task), w'.tasks = w.tasks → u.plan = t.plan →
      (w'.putTask i u).plans = w.plans := by
    intro w' u htasks hplan
    obtain ⟨hlt, rfl⟩ := List.getElem?_eq_some_iff.1 h
    have hplans : i < w.plans.length := by simpa [plans] using hlt
    have hself : w.plans.set i w.plans[i] = w.plans := List.set_getElem_self hplans
    simpa [plans, htasks, List.map_set, hplan] using hself
  -- A reply, a call and a crash all put the task back with the plan that it had.
  obtain ⟨c, watch, reply, hheard, -⟩ | ⟨call, hactivity, hcall, -⟩ | ⟨-, -, hsame | hcrash⟩ :=
    w.deed_cases i t
  · rw [stepTask_of_hearing hheard]
    exact hput _ _ rfl (Task.hear_plan _ _ _)
  · rw [stepTask_of_ready hactivity hcall]
    exact hput _ _ rfl rfl
  · rw [hsame]
  · rw [hcrash]
    exact hput _ _ rfl rfl

/-- `World.tick` changes nothing about what the tasks are about. -/
theorem plans_tick {time : Nat} {actor : Actor} (hnext : w.next? = some (time, actor)) :
    (w.tick time actor).plans = w.plans := by
  obtain ⟨j, r, -, -, htick⟩ | ⟨j, u, due, -, hu, -, -, htick⟩ := tick_cases hnext
  · rw [htick]
    rfl
  · rw [htick]
    exact plans_stepTask (w := { w with now := time }) hu

/-- A call that `World.tick` makes is made by a task, for the request that the task is about. -/
private theorem suits_of_issueIn {time : Nat} {actor : Actor} {x : Issue}
    (h : w.issueIn? time actor = some x) :
    ∃ i p found, x.caller = .task i ∧ w.plans[i]? = some p ∧
      x.call.Suits p.request p.grace found := by
  cases actor with
  | removal j => simp [issueIn?] at h
  | task i =>
    obtain ⟨d, hd, hx⟩ := Option.bind_eq_some_iff.1 h
    obtain ⟨call, hcall, rfl⟩ := Option.map_eq_some_iff.1 hx
    rw [deedIn?, if_pos rfl] at hd
    obtain ⟨t, ht, hdeed⟩ := Option.bind_eq_some_iff.1 hd
    have hplan : w.plans[i]? = some t.plan := by rw [plans, List.getElem?_map, ht]; rfl
    obtain ⟨c, watch, reply, -, hdeeds⟩ | ⟨call', -, hstage, hdeeds⟩ | ⟨-, hdeeds, -⟩ :=
      ({ w with now := time } : World).deed_cases i t
    · -- A task that hears a reply makes no call.
      rw [hdeeds] at hdeed
      obtain ⟨exchange, -, rfl⟩ := Option.map_eq_some_iff.1 hdeed
      simp [Deed.call?] at hcall
    · obtain rfl : Deed.asks call' = d := Option.some.inj (hdeeds.symm.trans hdeed)
      obtain rfl : call' = call := Option.some.inj hcall
      obtain ⟨found, hsuits⟩ := Stage.call?_suits hstage
      exact ⟨i, t.plan, found, rfl, hplan, hsuits⟩
    · simp [hdeeds] at hdeed

/-! ## Runs -/

/-- `w.Makes xs own started w'` is what is said about the calls `xs` on the way from `w` to `w'`:
the log has them, those that are nobody's task are among `own`, and every task makes its calls for
the request that it is about. The tasks that are new have the plans `started`. -/
structure Makes (w : World) (xs : List Issue) (own : List Call) (started : List Plan)
    (w' : World) : Prop where
  log : w'.log = w.log ++ xs.map Issue.entry
  plans : w'.plans = w.plans ++ started
  callers : ∀ x ∈ xs, (x.caller = .request ∧ x.call ∈ own) ∨
    ∃ i p found, x.caller = .task i ∧ w'.plans[i]? = some p ∧ x.call.Suits p.request p.grace found

variable {w' w'' : World} {xs ys : List Issue} {own own' : List Call} {started started' : List Plan}

theorem Makes.refl (w : World) : w.Makes [] [] [] w :=
  ⟨(List.append_nil _).symm, (List.append_nil _).symm, List.forall_mem_nil _⟩

/-- `Makes` depends only on the log and the tasks of the last world. -/
theorem Makes.congr (h : w.Makes xs own started w') (hlog : w''.log = w'.log)
    (htasks : w''.tasks = w'.tasks) : w.Makes xs own started w'' := by
  have hplans : w''.plans = w'.plans := by rw [World.plans, htasks, World.plans]
  exact ⟨hlog.trans h.log, hplans.trans h.plans, by rw [hplans]; exact h.callers⟩

theorem Makes.trans (h : w.Makes xs own started w') (h' : w'.Makes ys own' started' w'') :
    w.Makes (xs ++ ys) (own ++ own') (started ++ started') w'' where
  log := by rw [h'.log, h.log, List.map_append, List.append_assoc]
  plans := by rw [h'.plans, h.plans, List.append_assoc]
  callers := by
    intro x hx
    rcases List.mem_append.1 hx with hx | hx
    · rcases h.callers x hx with ⟨hcaller, hown⟩ | ⟨i, p, found, hcaller, hplan, hsuits⟩
      · exact .inl ⟨hcaller, List.mem_append_left _ hown⟩
      · -- A task keeps its number when others start.
        have hlt : i < w'.plans.length := (List.getElem?_eq_some_iff.1 hplan).1
        refine .inr ⟨i, p, found, hcaller, ?_, hsuits⟩
        rw [h'.plans, List.getElem?_append_left hlt]
        exact hplan
    · rcases h'.callers x hx with ⟨hcaller, hown⟩ | htask
      · exact .inl ⟨hcaller, List.mem_append_right _ hown⟩
      · exact .inr htask

/-- `World.tick` makes the call of the task whose turn it is. -/
private theorem makes_tick {time : Nat} {actor : Actor} (hnext : w.next? = some (time, actor)) :
    w.Makes (w.issueIn? time actor).toList [] [] (w.tick time actor) where
  log := log_tick hnext
  plans := (plans_tick hnext).trans (List.append_nil _).symm
  callers := by
    intro x hx
    rw [plans_tick hnext]
    exact .inr (suits_of_issueIn (Option.mem_toList.1 hx))

/-- `World.run` makes the calls of its tasks. -/
theorem makes_run (wanted : World → Nat → Bool) (n : Nat) (w : World) :
    w.Makes (issues wanted n w) [] [] (run wanted n w) := by
  induction n generalizing w with
  | zero => exact .refl w
  | succ n ih =>
    cases hnext : w.next? with
    | none => simpa only [run, issues, hnext] using Makes.refl w
    | some entry =>
      cases hwanted : wanted w entry.1 with
      | false =>
        simpa only [run, issues, hnext, hwanted, Bool.false_eq_true, if_false] using Makes.refl w
      | true =>
        simp only [run, issues, hnext, hwanted, if_true]
        exact (makes_tick hnext).trans (ih _)

/-- `World.spawn` makes no call yet. -/
theorem makes_spawn (w : World) (p : Plan) (wait : Nat) :
    w.Makes [] [] [p] (w.spawn p wait).1 :=
  ⟨(List.append_nil _).symm, List.map_append, List.forall_mem_nil _⟩

/-- `World.enter` makes a call that is not made by a task. -/
theorem makes_enter (w : World) (call : Call) :
    w.Makes [⟨.request, w.now, call⟩] [call] [] (w.enter call).1 :=
  ⟨rfl, (List.append_nil _).symm,
    List.forall_mem_singleton.2 (.inl ⟨rfl, List.mem_singleton_self _⟩)⟩

end World

end PodDesk
