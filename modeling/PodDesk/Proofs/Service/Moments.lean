import PodDesk.Proofs.Service.Gate

/-!
# What a session goes through

A step of a session is long: whatever is due happens, a request arrives, and others go on until it
is answered. Here every step comes with the worlds that it goes through. They form a path: each
becomes the next one by an event of `World.Moves`. `World.Becomes` is any sequence of such events.
Replacements may start anywhere in it, so it also tells what can happen while several callers wait.

## Main statements

- `World.Becomes.plans`: the tasks are those that were there and those that have started
- `World.path_run`, `World.path_ask`: the paths of runs and of questions
- `Session.path_moments`: a step goes from world to world by one event at a time
- `Session.plans_of_mem_moments`, `Session.plans_submit`: a step starts a replacement exactly when
  it submits one
-/

namespace PodDesk

namespace World

variable {w w' w'' : World} {ws ws' : List World} {started more : List Plan}

/-! ## Events -/

/-- `w.Moves started w'` says that one event makes `w'` of `w`; `started` holds the replacement that
starts with it, if one does. -/
inductive Moves (w : World) : List Plan → World → Prop where
  /-- What `World.next?` names happens. -/
  | tick {time : Nat} {actor : Actor} (hnext : w.next? = some (time, actor)) :
      Moves w [] (w.tick time actor)
  /-- Time passes up to `time`, or not at all. -/
  | clock (time : Nat) : Moves w [] { w with now := max w.now time }
  /-- The cluster changes, because of others or of a question. -/
  | change (c : Cluster) : Moves w [] { w with cluster := c }
  | call (call : Call) : Moves w [] (w.enter call).1
  /-- `World.spawn` starts a replacement. -/
  | start (p : Plan) (wait : Nat) : Moves w [p] (w.spawn p wait).1

theorem Moves.rfl : w.Moves [] w :=
  .change w.cluster

private theorem Moves.plans (h : w.Moves more w') : w'.plans = w.plans ++ more := by
  cases h with
  | tick hnext => exact (plans_tick hnext).trans (List.append_nil _).symm
  | start p wait => exact List.map_append
  | _ => exact (List.append_nil _).symm

/-- `w.Becomes started w'` says that `w'` comes about from `w` by any number of `Moves`, in which
the replacements `started` start. -/
inductive Becomes (w : World) : List Plan → World → Prop where
  | refl : Becomes w [] w
  | move {started more : List Plan} {w' w'' : World} (h : Becomes w started w')
      (hmove : Moves w' more w'') : Becomes w (started ++ more) w''

theorem Becomes.trans (h : w.Becomes started w') (h' : w'.Becomes more w'') :
    w.Becomes (started ++ more) w'' := by
  induction h' with
  | refl => rwa [List.append_nil]
  | move _ hmove ih =>
    rw [← List.append_assoc]
    exact .move ih hmove

/-- After `Becomes` the `plans` of a world are the earlier ones followed by those that have started.
-/
theorem Becomes.plans (h : w.Becomes started w') : w'.plans = w.plans ++ started := by
  induction h with
  | refl => exact (List.append_nil _).symm
  | move _ hmove ih => rw [hmove.plans, ih, List.append_assoc]

/-! ## Paths -/

/-- `Path w ws w'` says that `ws` begins with `w`, ends with `w'` and that `Moves` takes each of its
worlds to the next one. -/
inductive Path : World → List World → World → Prop where
  | single (w : World) : Path w [w] w
  | cons {w w' w'' : World} {ws : List World} {started : List Plan} (hmove : Moves w started w')
      (h : Path w' ws w'') : Path w (w :: ws) w''

theorem Path.append {v v' : World} (h : Path w ws w') (hmove : w'.Moves started v)
    (h' : Path v ws' v') : Path w (ws ++ ws') v' := by
  induction h with
  | single => exact .cons hmove h'
  | cons hfirst _ ih => exact .cons hfirst (ih hmove)

/-- `Path.append` for a single world. -/
theorem Path.snoc (h : Path w ws w') (hmove : w'.Moves started w'') :
    Path w (ws ++ [w'']) w'' :=
  h.append hmove (.single w'')

theorem Path.last_mem (h : Path w ws w') : w' ∈ ws := by
  induction h with
  | single => exact List.mem_cons_self
  | cons _ _ ih => exact List.mem_cons_of_mem _ ih

/-- `Path.becomes` forgets the worlds on the way. -/
theorem Path.becomes (h : Path w ws w') : ∃ started, w.Becomes started w' := by
  induction h with
  | single => exact ⟨[], .refl⟩
  | cons hmove _ ih =>
    obtain ⟨more, hlater⟩ := ih
    exact ⟨_, (Becomes.refl.move hmove).trans hlater⟩

/-- A world `v` on a `Path` stands between its ends: `v` comes about from the first world, and the
last one from `v`. -/
theorem Path.becomes_of_mem {v : World} (h : Path w ws w') (hv : v ∈ ws) :
    (∃ started, w.Becomes started v) ∧ ∃ more, v.Becomes more w' := by
  induction h with
  | single =>
    -- The path has a single world, so `v` is both of its ends.
    obtain rfl := List.mem_singleton.1 hv
    exact ⟨⟨[], .refl⟩, [], .refl⟩
  | cons hmove hrest ih =>
    rcases List.mem_cons.1 hv with rfl | hmem
    · exact ⟨⟨[], .refl⟩, (Path.cons hmove hrest).becomes⟩
    -- `v` stands further on: the event at hand comes before those that lead to `v`.
    · obtain ⟨⟨more, hlater⟩, hlast⟩ := ih hmem
      exact ⟨⟨_, (Becomes.refl.move hmove).trans hlater⟩, hlast⟩

/-! ## Runs and questions -/

/-- The worlds that `World.run` goes through, with the same condition `wanted` and the same bound.
-/
def passed (wanted : World → Nat → Bool) : Nat → World → List World
  | 0, w => [w]
  | n + 1, w =>
    w :: match w.next? with
      | some (time, actor) => if wanted w time then passed wanted n (w.tick time actor) else []
      | none => []

theorem path_run (wanted : World → Nat → Bool) (n : Nat) (w : World) :
    Path w (passed wanted n w) (run wanted n w) := by
  -- `passed` and `run` stop under the same conditions, so the path grows by one tick with each step
  -- of the run.
  induction n generalizing w with
  | zero => exact .single w
  | succ n ih =>
    unfold passed run
    cases hnext : w.next? with
    | none => exact .single w
    | some entry =>
      dsimp only
      split
      · exact .cons (.tick hnext) (ih _)
      · exact .single w

/-- The worlds that `World.runBefore` goes through. -/
def passedBefore (w : World) (limit : Nat) : List World :=
  passed (fun _ time => time < limit) w.budget w

/-- The worlds that `World.advanceTo` goes through. -/
def passedUntil (w : World) (time : Nat) : List World :=
  w.passedBefore time ++ [w.advanceTo time]

theorem path_advanceTo (w : World) (time : Nat) :
    Path w (w.passedUntil time) (w.advanceTo time) :=
  (path_run _ _ w).snoc (.clock time)

/-- The worlds that `World.ask` goes through once its call is made: those until the answer is due or
the caller gives up, and the one that the answer leaves. -/
def momentsOfAsk {α : Type} (w : World) (query : Query α) (limit : Option Nat) : List World :=
  let (entered, incident) := w.enter query.call
  let due := w.now + incident.delay
  (if incident.delay = 0 then [entered]
    else entered.passedUntil (if isHeard limit due then due else limit.getD due)) ++
    [(w.ask query limit).1]

/-- `momentsOfAsk` is the path of `World.ask`: others go on until the answer is due, and then the
answer may change the cluster. -/
theorem path_ask {α : Type} (w : World) (query : Query α) (limit : Option Nat) :
    Path (w.enter query.call).1 (w.momentsOfAsk query limit) (w.ask query limit).1 := by
  have hwaited := (w.enter query.call).1.path_advanceTo
  have hnow : (w.enter query.call).1.now = w.now := rfl
  unfold momentsOfAsk ask
  by_cases hdelay : (w.enter query.call).2.delay = 0
  -- The answer comes at once, so nothing happens before it.
  · simp only [hdelay, true_or, if_true]
    split
    · exact (Path.single _).snoc .rfl
    · exact (Path.single _).snoc (.change _)
  · simp only [hdelay, false_or, if_false, hnow]
    split
    -- The answer is heard, with or without a change of the cluster.
    · split
      · exact (hwaited _).snoc .rfl
      · exact (hwaited _).snoc (.change _)
    -- The caller gives up before, and the world is the one of that moment.
    · exact (hwaited _).snoc .rfl

end World

namespace Session

variable {s : Session} {w : World} {action : Step}

/-! ## Steps -/

/-- The worlds that `Session.runReplacement` goes through from the start of its task on, as long as
the step lasts. -/
def momentsOfReplacement (s : Session) (q : PodRequest) (limit : Option Nat) : List World :=
  let (start, i) := s.world.spawn (s.plan q) s.wait
  let ran := start.runTask i limit
  World.passed (fun w time => ! w.isOver i && limit.all (time < ·)) start.budget start ++
    (if (ran.tasks[i]?.bind (·.result?)).isSome then ran.passedBefore (ran.now + 1) else []) ++
    [(s.runReplacement q limit).1]

/-- The worlds that `Session.respond` goes through. Only a question and a replacement pass more than
one. -/
def momentsOfRequest (s : Session) (r : Http.Request) (limit : Option Nat) : List World :=
  match s.policy.preflight? r, s.service.handle r with
  | none, .ask query _ => s.world.momentsOfAsk query limit
  | none, .replace q => s.momentsOfReplacement q limit
  | _, _ => [s.world]

/-- The worlds that `Session.step` goes through, from the one in which the step begins to the one in
which it ends. It always settles first what is due. -/
def moments (s : Session) (action : Step) : List World :=
  s.world.passedBefore (s.world.now + 1) ++
    match action with
    | .advance duration => s.settled.world.passedUntil (s.settled.world.now + duration)
    | .request r patience =>
      s.settled.momentsOfRequest r (patience.map (s.settled.world.now + ·))
    | _ => [(s.step action).1.world]

/-- `momentsOfReplacement` is the path of `runReplacement`: others go on until the task is over or
its caller gives up. -/
theorem path_runReplacement (s : Session) (q : PodRequest) (limit : Option Nat) :
    World.Path (s.world.spawn (s.plan q) s.wait).1 (s.momentsOfReplacement q limit)
      (s.runReplacement q limit).1 := by
  unfold momentsOfReplacement runReplacement
  rw [spawn_plan]
  generalize s.world.spawn (s.plan q) s.wait = spawned
  -- What holds of the task that starts plays no part from here on.
  obtain ⟨start, i⟩ := spawned
  have hran : start.Path _ (start.runTask i limit) := World.path_run _ _ start
  have hsettled : start.Path _ (start.runTask i limit).settle :=
    hran.append .rfl (World.path_run _ _ _)
  dsimp only
  cases (start.runTask i limit).tasks[i]?.bind (·.result?) with
  -- The caller gives up, so the clock moves to that moment and nothing settles.
  | none =>
    dsimp only [Option.isSome_none]
    rw [if_neg Bool.false_ne_true, List.append_nil]
    exact hran.snoc (.clock _)
  -- The task is over, and what is due at its end settles before the answer.
  | some result => cases result <;> exact hsettled.snoc .rfl

/-- `respond` makes a call, starts a replacement or answers at once: the first event leaves a world
`w`, and `momentsOfRequest` is the path from there on. -/
private theorem path_respond (s : Session) (r : Http.Request) (limit : Option Nat) :
    ∃ w started, s.world.Moves started w ∧
      w.Path (s.momentsOfRequest r limit) (s.respond r limit).1 := by
  cases hpreflight : s.policy.preflight? r with
  | some response =>
    refine ⟨s.world, [], .rfl, ?_⟩
    simp only [momentsOfRequest, respond, hpreflight]
    exact .single _
  | none =>
    rw [fst_respond hpreflight]
    cases hhandle : s.service.handle r with
    | respond response =>
      refine ⟨s.world, [], .rfl, ?_⟩
      simp only [momentsOfRequest, serve, hpreflight, hhandle]
      exact .single _
    | ask query decide =>
      refine ⟨_, [], .call query.call, ?_⟩
      have hasked := s.world.path_ask query limit
      simp only [momentsOfRequest, serve, hpreflight, hhandle]
      split <;> rename_i heq <;> rw [heq] at hasked <;> exact hasked
    | replace q =>
      refine ⟨_, [s.plan q], .start _ s.wait, ?_⟩
      simp only [momentsOfRequest, serve, hpreflight, hhandle]
      exact s.path_runReplacement q limit

/-- `Session.moments` is a `World.Path`: a step goes from world to world, by one event at a time. -/
theorem path_moments (s : Session) (action : Step) :
    s.world.Path (s.moments action) (s.step action).1.world := by
  have hsettled : s.world.Path (s.world.passedBefore (s.world.now + 1)) s.settled.world :=
    World.path_run _ _ _
  cases action with
  | connect => exact hsettled.snoc .rfl
  | disconnect => exact hsettled.snoc .rfl
  | advance duration => exact hsettled.append .rfl (World.path_advanceTo _ _)
  | put key pod => exact hsettled.snoc (.change _)
  | remove key => exact hsettled.snoc (.change _)
  | request r patience =>
    obtain ⟨w, started, hmove, hpath⟩ :=
      s.settled.path_respond r (patience.map (s.settled.world.now + ·))
    exact hsettled.append hmove hpath

/-- Every step goes through `Session.settled`, the session in which whatever was due has happened.
-/
theorem settled_mem_moments (s : Session) (action : Step) :
    s.settled.world ∈ s.moments action :=
  List.mem_append_left _ (World.path_run _ _ _).last_mem

/-- By no moment of a step has more than one replacement started, and by none has one started that
the step does not submit. -/
theorem plans_of_mem_moments (h : w ∈ s.moments action) :
    w.plans = s.world.plans ∨
      ∃ q, s.Submits action q ∧ w.plans = s.world.plans ++ [s.plan q] := by
  obtain ⟨⟨earlier, hearlier⟩, later, hlater⟩ := (s.path_moments action).becomes_of_mem h
  obtain ⟨own, started, hmakes, -, hstarted⟩ := s.makes_step action
  -- What has started by now and what starts later is what the whole step starts.
  have hsplit : earlier ++ later = started := by
    have hplans := hlater.plans
    rw [hmakes.plans, hearlier.plans, List.append_assoc] at hplans
    exact (List.append_cancel_left hplans).symm
  rw [hearlier.plans]
  rcases hstarted with rfl | ⟨q, hsubmits, rfl⟩
  · obtain ⟨rfl, -⟩ := List.append_eq_nil_iff.1 hsplit
    exact .inl (List.append_nil _)
  · rcases List.append_eq_singleton_iff.1 hsplit with ⟨rfl, -⟩ | ⟨rfl, -⟩
    · exact .inl (List.append_nil _)
    · exact .inr ⟨q, hsubmits, rfl⟩

/-- A step that `Submits` a request starts the replacement of its plan and no other one. -/
theorem plans_submit {q : PodRequest} (h : s.Submits action q) :
    (s.step action).1.world.plans = s.world.plans ++ [s.plan q] := by
  obtain ⟨r, patience, rfl, hconnected, hasked⟩ := h
  rw [step_submit hconnected hasked]
  have hsettled : s.settled.world.plans = s.world.plans ++ [] := (World.makes_run _ _ _).plans
  have hreplaced := (s.settled.makes_runReplacement q
    (patience.map (s.world.settle.now + ·))).plans
  rw [hsettled, List.append_nil] at hreplaced
  exact hreplaced

/-- The world at the end of `Session.play` comes about from the one at its start by `World.Becomes`.
-/
theorem becomes_play (s : Session) (steps : List Step) :
    ∃ started, s.world.Becomes started (s.play steps).world := by
  induction steps generalizing s with
  | nil => exact ⟨[], .refl⟩
  | cons action steps ih =>
    obtain ⟨first, hfirst⟩ := (s.path_moments action).becomes
    obtain ⟨rest, hrest⟩ := ih (s.step action).1
    exact ⟨first ++ rest, hfirst.trans hrest⟩

end Session

end PodDesk
