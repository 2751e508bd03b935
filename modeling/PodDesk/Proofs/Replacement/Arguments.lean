import PodDesk.Proofs.Replacement.Recreation

/-!
# What the calls of a replacement say

While a replacement runs, the request, the Pod that its first lookup found and the Pod for the dry
run are at hand, and later lookups find more Pods. Every call takes its arguments from the right one
of these, whatever the cluster answers, whatever others do, and also when the run is cut short.

## Main statements

- `Stage.Trail.suits`: the calls that a stage has behind it, and its own, have the right arguments
- `World.Carries.tick`: what a task did is the trail of its stage, and the call that it waits for
- `World.calls_suit_request`: all calls of a replacement have the right arguments
-/

namespace PodDesk

/-- `call.Suits r grace found` is what a call for request `r` says. The request and the grace period
fix everything, except that the watch goes by the Pod that was `found`. -/
inductive Call.Suits (r : PodRequest) (grace : Nat) (found : Option Pod) : Call → Prop where
  | get : Suits r grace found (.get ⟨r.base.ns, r.base.name⟩)
  /-- The clone differs from the wanted Pod in its name alone. -/
  | dryRun : Suits r grace found (.dryRun r.base.ns
      { r.toPod with
        metadata := { r.toPod.metadata with name := some (r.base.name ++ "-validate") } })
  | watch {existing : Pod} (hfound : found = some existing) :
      Suits r grace found (.watch r.base.ns (labelSelector existing.metadata.labels)
        (existing.metadata.resourceVersion.getD "0"))
  | delete : Suits r grace found
      (.delete ⟨r.base.ns, r.base.name⟩ ⟨some grace, some .background⟩)
  | create : Suits r grace found (.create r.base.ns r.toPod)

/-- The exchanges among the deeds `ds`. -/
def heard (ds : List (Nat × Deed)) : List Exchange :=
  ds.filterMap fun d =>
    match d.2 with
    | .hears exchange => some exchange
    | .asks _ => none

/-- The Pod that the first exchange found, if that is a lookup. -/
def firstFound? : List Exchange → Option Pod
  | ⟨.get _, .found (.ok found)⟩ :: _ => found
  | _ => none

namespace Stage

variable {p : Plan} {s : Stage} {xs : List Exchange}

/-! ## The calls up to a stage -/

/-- The calls of `Plan.opening` have the right arguments, whatever comes after it. -/
private theorem suits_opening (existing : Pod) (opened : Except ClusterError Unit)
    (rest : List Exchange) :
    ∀ x ∈ p.opening existing opened ++ rest, x ∈ rest ∨
      x.call.Suits p.request p.grace (firstFound? (p.opening existing opened ++ rest)) := by
  intro x hx
  rcases List.mem_append.1 hx with hx | hx
  · simp only [Plan.opening, List.mem_cons, List.not_mem_nil, or_false] at hx
    rcases hx with rfl | rfl | rfl
    · exact .inr .get
    · exact .inr .dryRun
    · exact .inr (.watch rfl)
  · exact .inl hx

private theorem suits_deleted (h : Trail.Deleted p xs) :
    ∀ x ∈ xs, x.call.Suits p.request p.grace (firstFound? xs) := by
  obtain ⟨existing, opened, probes, hprobes, rfl⟩ := h
  intro x hx
  rcases suits_opening existing opened _ x hx with hx | hsuits
  · rcases List.mem_cons.1 hx with rfl | hx
    · exact .delete
    · rw [hprobes x hx]
      exact .get
  · exact hsuits

-- Every course is an opening or a part of one, and what its name tells comes last.
private theorem suits_fits {course : Course} {o : Outcome} (h : course.Fits p xs o) :
    ∀ x ∈ xs, x.call.Suits p.request p.grace (firstFound? xs) := by
  cases course with
  | lookup =>
    obtain ⟨e, rfl, rfl⟩ := h
    exact List.forall_mem_singleton.2 .get
  | create =>
    obtain ⟨answer, rfl, rfl⟩ := h
    exact List.forall_mem_cons.2 ⟨.get, List.forall_mem_singleton.2 .create⟩
  | dryRun =>
    obtain ⟨existing, e, rfl, rfl⟩ := h
    exact List.forall_mem_cons.2 ⟨.get, List.forall_mem_singleton.2 .dryRun⟩
  | delete =>
    obtain ⟨existing, opened, e, rfl, rfl⟩ := h
    intro x hx
    rcases suits_opening existing opened _ x hx with hx | hsuits
    · rw [List.mem_singleton.1 hx]
      exact .delete
    · exact hsuits
  | recreate =>
    obtain ⟨existing, opened, probes, signal, answer, hprobes, rfl, rfl⟩ := h
    intro x hx
    rcases suits_opening existing opened _ x hx with hx | hsuits
    · rcases List.mem_cons.1 hx with rfl | hx
      · exact .delete
      rcases List.mem_append.1 hx with hx | hx
      · rw [hprobes x hx]
        exact .get
      · rw [List.mem_singleton.1 hx]
        exact .create
    · exact hsuits

/-- With `Trail`, the exchanges before a stage are about calls with the right arguments. -/
private theorem Trail.exchange_suits (h : s.Trail p xs) :
    ∀ x ∈ xs, x.call.Suits p.request p.grace (firstFound? xs) := by
  cases s with
  | lookup =>
    obtain rfl : xs = [] := h
    exact List.forall_mem_nil _
  | create =>
    obtain rfl : xs = [_] := h
    exact List.forall_mem_singleton.2 .get
  | dryRun existing =>
    obtain rfl : xs = [_] := h
    exact List.forall_mem_singleton.2 .get
  | watch existing =>
    obtain rfl : xs = [_, _] := h
    exact List.forall_mem_cons.2 ⟨.get, List.forall_mem_singleton.2 .dryRun⟩
  | delete watching =>
    obtain ⟨existing, opened, rfl⟩ : ∃ existing opened, xs = p.opening existing opened := h
    intro x hx
    have := suits_opening existing opened [] x (by simpa using hx)
    simpa using this
  | waiting watching => exact suits_deleted h
  | probing => exact suits_deleted h
  | recreate signal => exact suits_deleted h
  | finished o =>
    obtain ⟨course, hfits⟩ := h
    exact suits_fits hfits

/-- With `Trail`, so is the call of the stage. -/
private theorem Trail.call?_suits (h : s.Trail p xs) {call : Call} (hcall : s.call? p = some call) :
    call.Suits p.request p.grace (firstFound? xs) := by
  cases s with
  -- The Pod that the watch goes by is the one that the first lookup found.
  | watch existing =>
    obtain rfl : xs = [_, _] := h
    obtain rfl := Option.some.inj hcall
    exact .watch rfl
  | waiting watching => simp [call?] at hcall
  | finished o => simp [call?] at hcall
  | _ =>
    obtain rfl := Option.some.inj hcall
    constructor

/-- The calls up to a stage with the exchanges `xs` before it, its own included. -/
def callsUpTo (p : Plan) (xs : List Exchange) (s : Stage) : List Call :=
  xs.map (·.call) ++ (s.call? p).toList

/-- With `Trail`, all calls up to a stage have the right arguments. -/
theorem Trail.suits (h : s.Trail p xs) :
    ∀ call ∈ s.callsUpTo p xs, call.Suits p.request p.grace (firstFound? xs) := by
  intro call hcall
  rcases List.mem_append.1 hcall with hcall | hcall
  · obtain ⟨x, hx, rfl⟩ := List.mem_map.1 hcall
    exact h.exchange_suits x hx
  · exact h.call?_suits (Option.mem_toList.1 hcall)

/-- The kinds of the calls in `Trail.Deleted`. -/
private theorem kinds_deleted (h : Trail.Deleted p xs) :
    ∃ probes, xs.map (·.call.kind) =
      [.get, .dryRun, .watch, .delete] ++ List.replicate probes .get := by
  obtain ⟨existing, opened, probes, hprobes, rfl⟩ := h
  refine ⟨probes.length, ?_⟩
  rw [List.map_append, List.map_cons, Course.kinds_probes hprobes]
  rfl

/-- With `Trail`, the calls up to a stage are the beginning of a course. -/
theorem Trail.kinds_prefix (h : s.Trail p xs) :
    ∃ (course : Course) (probes : Nat),
      (s.callsUpTo p xs).map (·.kind) <+: course.kinds probes := by
  have hkinds_eq : (s.callsUpTo p xs).map (·.kind) =
      xs.map (·.call.kind) ++ ((s.call? p).map (·.kind)).toList := by
    rw [callsUpTo, List.map_append, List.map_map]
    cases s.call? p <;> rfl
  rw [hkinds_eq]
  -- Each stage before the deletion belongs to the course that ends there, and each after it to the
  -- whole replacement.
  cases s with
  | lookup =>
    obtain rfl : xs = [] := h
    exact ⟨.lookup, 0, List.prefix_rfl⟩
  | create =>
    obtain rfl : xs = [_] := h
    exact ⟨.create, 0, List.prefix_rfl⟩
  | dryRun existing =>
    obtain rfl : xs = [_] := h
    exact ⟨.dryRun, 0, List.prefix_rfl⟩
  | watch existing =>
    obtain rfl : xs = [_, _] := h
    exact ⟨.delete, 0, ⟨[.delete], rfl⟩⟩
  | delete watching =>
    obtain ⟨existing, opened, rfl⟩ : ∃ existing opened, xs = p.opening existing opened := h
    exact ⟨.delete, 0, List.prefix_rfl⟩
  | waiting watching =>
    obtain ⟨probes, hkinds⟩ := kinds_deleted h
    refine ⟨.recreate, probes, [.create], ?_⟩
    rw [hkinds]
    simp [call?, Course.kinds]
  | probing =>
    obtain ⟨probes, hkinds⟩ := kinds_deleted h
    refine ⟨.recreate, probes + 1, [.create], ?_⟩
    rw [hkinds]
    simp [call?, Course.kinds, Call.kind, List.replicate_succ']
  | recreate signal =>
    obtain ⟨probes, hkinds⟩ := kinds_deleted h
    refine ⟨.recreate, probes, [], ?_⟩
    rw [hkinds]
    simp [call?, Course.kinds, Call.kind]
  | finished o =>
    obtain ⟨course, hfits⟩ := h
    obtain ⟨probes, hkinds⟩ := hfits.kinds_eq
    refine ⟨course, probes, [], ?_⟩
    rw [hkinds]
    simp [call?]

end Stage

namespace Task

/-- The call that `t` waits for, or that took it down, as a list of at most one. -/
def pending (t : Task) : List Call :=
  match t.activity with
  | .ready => []
  | _ => (t.stage.call? t.plan).toList

/-- `Task.hear` leaves a task that waits for no call. -/
theorem pending_hear (t : Task) (now : Nat) (reply : Reply) : (t.hear now reply).pending = [] := by
  unfold hear
  dsimp only
  split
  · rename_i hnext
    unfold pending
    split
    · rfl
    · simp [hnext, Stage.call?]
  · rfl

end Task

namespace World

variable {w : World} {i : Nat} {p : Plan} {t : Task} {ds : List (Nat × Deed)}

/-! ## The deeds of a task -/

/-- `w.Carries i t ds` says that task `t` has done `ds`: what it heard is the trail of its stage,
and its calls are those that it heard about and the one that it waits for. -/
structure Carries (w : World) (i : Nat) (t : Task) (ds : List (Nat × Deed)) : Prop where
  task : w.tasks[i]? = some t
  trail : t.stage.Trail t.plan (heard ds)
  calls : (callsOf ds).map (·.2) = (heard ds).map (·.call) ++ t.pending

theorem heard_append (ds es : List (Nat × Deed)) : heard (ds ++ es) = heard ds ++ heard es :=
  List.filterMap_append

theorem callsOf_append (ds es : List (Nat × Deed)) :
    callsOf (ds ++ es) = callsOf ds ++ callsOf es :=
  List.filterMap_append

/-- `World.putTask` keeps `Carries` when the deeds `es` of the task and its new stage go together.
-/
private theorem Carries.put {w' : World} {u : Task} {es : List (Nat × Deed)} (h : w.Carries i t ds)
    (htasks : w'.tasks = w.tasks) (htrail : u.stage.Trail u.plan (heard (ds ++ es)))
    (hcalls : t.pending ++ (callsOf es).map (·.2) = (heard es).map (·.call) ++ u.pending) :
    (w'.putTask i u).Carries i u (ds ++ es) where
  task := by
    have hlt : i < w.tasks.length := (List.getElem?_eq_some_iff.1 h.task).1
    simp [htasks, hlt]
  trail := htrail
  calls := by
    calc (callsOf (ds ++ es)).map (·.2)
        = (heard ds).map (·.call) ++ (t.pending ++ (callsOf es).map (·.2)) := by
          rw [callsOf_append, List.map_append, h.calls, List.append_assoc]
      _ = (heard (ds ++ es)).map (·.call) ++ u.pending := by
          rw [hcalls, heard_append, List.map_append, List.append_assoc]

/-- A task of which `World.hearing?` gives something waits for the call that the reply answers, or
for none. -/
theorem pending_of_hearing {c : Cluster} {watch : Option Nat} {reply : Reply}
    (h : w.hearing? t = some (c, watch, reply)) :
    t.pending = (t.stage.call? t.plan).toList := by
  cases heard_of_hearing h with
  | answer hactivity => simp [Task.pending, hactivity]
  | late hactivity => simp [Task.pending, hactivity]
  | deadline hactivity hstage => simp [Task.pending, hactivity, hstage, Stage.call?]
  | news hactivity hstage => simp [Task.pending, hactivity, hstage, Stage.call?]

/-- `World.stepTask` keeps `Carries`, with the deed of the task. -/
private theorem Carries.turn (h : w.Carries i t ds) :
    ∃ u, (w.stepTask i t).Carries i u (ds ++ ((w.deed? t).map (w.now, ·)).toList) ∧
      u.plan = t.plan := by
  obtain ⟨c, watch, reply, hheard, hdeed⟩ | ⟨call, hactivity, hcall, hdeed⟩ |
    ⟨hidle, hdeed, hstep⟩ := w.deed_cases i t
  -- The reply goes with the call that the task waited for.
  · have hnext := Stage.trail_next t.plan _ t.stage reply h.trail (hears_of_hearing hheard)
    have hexchanges : heard ((w.deed? t).map (w.now, ·)).toList =
        (t.stage.exchange? t.plan reply).toList := by
      rw [hdeed]
      cases t.stage.exchange? t.plan reply <;> rfl
    have hcalls : (t.stage.exchange? t.plan reply).toList.map (·.call) = t.pending := by
      rw [pending_of_hearing hheard, Stage.exchange?]
      cases t.stage.call? t.plan <;> rfl
    have hnone : callsOf ((w.deed? t).map (w.now, ·)).toList = [] := by
      rw [hdeed]
      cases t.stage.exchange? t.plan reply <;> rfl
    refine ⟨({ t with watch } : Task).hear w.now reply, ?_, Task.hear_plan _ _ _⟩
    rw [stepTask_of_hearing hheard]
    refine h.put rfl ?_ ?_
    · rw [Task.hear_stage, Task.hear_plan, heard_append, hexchanges]
      exact hnext
    · rw [hnone, hexchanges, hcalls, Task.pending_hear, List.map_nil]
  -- The call that it makes is the one that it waits for from now on.
  · rw [stepTask_of_ready hactivity hcall, hdeed]
    refine ⟨_, h.put rfl ?_ ?_, rfl⟩
    · rw [heard_append]
      simpa [heard] using h.trail
    · simp [Task.pending, hactivity, hcall, callsOf, heard, Deed.call?]
  -- Nothing happens, or the call that it waits for takes it down.
  · rw [hdeed]
    simp only [Option.map_none, Option.toList_none]
    rcases hstep with hsame | hcrash
    · rw [hsame, List.append_nil]
      exact ⟨t, h, rfl⟩
    · rw [hcrash]
      refine ⟨_, h.put rfl (by simpa using h.trail) ?_, rfl⟩
      cases hactivity : t.activity with
      | ready => simp [Task.pending, hactivity, hidle hactivity, callsOf, heard]
      | _ => simp [Task.pending, hactivity, callsOf, heard]

/-- `World.tick` keeps `Carries`, whoever acts. -/
theorem Carries.tick {time : Nat} {actor : Actor} (h : w.Carries i t ds)
    (hnext : w.next? = some (time, actor)) :
    ∃ u, (w.tick time actor).Carries i u
        (ds ++ ((w.deedIn? i time actor).map (time, ·)).toList) ∧ u.plan = t.plan := by
  have hnow : ({ w with now := time } : World).Carries i t ds := ⟨h.task, h.trail, h.calls⟩
  obtain ⟨j, r, rfl, -, htick⟩ | ⟨j, u, due, rfl, hu, -, -, htick⟩ := tick_cases hnext
  · -- A removal is none of the task's deeds.
    simp only [htick, deedIn?, Option.map_none, Option.toList_none, List.append_nil]
    exact ⟨t, ⟨h.task, h.trail, h.calls⟩, rfl⟩
  · simp only [htick, deedIn?]
    by_cases hj : j = i
    · subst hj
      obtain rfl : t = u := Option.some.inj (h.task.symm.trans hu)
      rw [if_pos rfl, hu, Option.bind_some]
      exact hnow.turn
    -- Another task had its turn.
    · rw [if_neg hj, Option.map_none, Option.toList_none, List.append_nil]
      refine ⟨t, ⟨?_, h.trail, h.calls⟩, rfl⟩
      rw [getElem?_stepTask_ne u hj]
      exact h.task

/-- With `Carries`, the calls of a task are those up to its stage, perhaps without the last one. -/
theorem Carries.calls_sublist (h : w.Carries i t ds) :
    ((callsOf ds).map (·.2)).Sublist (t.stage.callsUpTo t.plan (heard ds)) := by
  rw [h.calls, Stage.callsUpTo]
  refine List.Sublist.append_left ?_ _
  unfold Task.pending
  split
  · exact List.nil_sublist _
  · exact List.Sublist.refl _

/-- `World.spawn` starts a task that carries no deeds. -/
theorem carries_spawn (w : World) (p : Plan) (wait : Nat) :
    (w.spawn p wait).1.Carries (w.spawn p wait).2 { plan := p, wait, started := w.now } [] where
  task := by simp [spawn]
  trail := rfl
  calls := rfl

/-- Every call that a replacement makes takes its arguments from the right place, whatever the
cluster answers, whatever other replacements do, and however far the run goes: it names the Pod of
the request, it sends the Pod that the request describes or the clone of it, and the watch goes by
the Pod that the first lookup found. Only lookups are repeated. The log has these calls with their
times, and no others if nobody else is underway. -/
theorem calls_suit_request (w : World) (r : PodRequest) (grace wait : Nat)
    (wanted : World → Nat → Bool) (n : Nat) :
    let start := (w.spawn ⟨r, grace⟩ wait).1
    let ds := deeds (w.spawn ⟨r, grace⟩ wait).2 wanted n start
    (∀ c ∈ callsOf ds, c.2.Suits r grace (firstFound? (heard ds))) ∧
    (∀ kind, kind ≠ .get → ((callsOf ds).map (·.2.kind)).count kind ≤ 1) ∧
    ∃ logged, (World.run wanted n start).log = w.log ++ logged ∧ (callsOf ds).Sublist logged ∧
      ((∀ t ∈ w.tasks, t.AtRest) → logged = callsOf ds) := by
  intro start ds
  obtain ⟨t, hcarries, hplan⟩ : ∃ t, (World.run wanted n start).Carries
      (w.spawn ⟨r, grace⟩ wait).2 t ([] ++ ds) ∧ t.plan = ⟨r, grace⟩ := by
    refine deeds_preserves (P := fun w' ds' => ∃ t,
      w'.Carries (w.spawn ⟨r, grace⟩ wait).2 t ds' ∧ t.plan = ⟨r, grace⟩) ?_ wanted n
      ⟨_, carries_spawn w ⟨r, grace⟩ wait, rfl⟩
    rintro w' ds' time actor hnext ⟨t, ht, hplan⟩
    obtain ⟨u, hu, hsame⟩ := ht.tick hnext
    exact ⟨u, hu, hsame.trans hplan⟩
  rw [List.nil_append] at hcarries
  -- The calls that were made are among those up to the stage, and those begin a course.
  have htrail := hcarries.trail
  have hmade := hcarries.calls_sublist
  rw [hplan] at htrail hmade
  refine ⟨fun c hc => htrail.suits c.2 (hmade.subset (List.mem_map_of_mem hc)),
    fun kind hkind => ?_, ?_⟩
  · obtain ⟨course, probes, hprefix⟩ := htrail.kinds_prefix
    have hkinds : ((callsOf ds).map (·.2.kind)).Sublist (course.kinds probes) := by
      have := (hmade.map Call.kind).trans hprefix.sublist
      rwa [List.map_map] at this
    exact Nat.le_trans (hkinds.count_le kind) (Course.count_kinds_le_one hkind probes course)
  · obtain ⟨logged, hlog, hcalls, honly⟩ :=
      deeds_sublist_log (w.spawn ⟨r, grace⟩ wait).2 wanted n start
    exact ⟨logged, hlog, hcalls, fun hrest => honly (othersAtRest_spawn hrest _ _)⟩

/-- A request that changes the labels of the Pod in `labeledWorld`. -/
def relabeling : PodRequest :=
  { base := { name := "web", ns := "prod", labels := [⟨"app", "new"⟩] } }

/-- A world where the Pod of `relabeling` is stored with its old labels. -/
def labeledWorld : World where
  cluster := {
    pods := SortedMap.empty.insert ⟨"prod", "web"⟩
      { metadata := { name := some "web", ns := some "prod", resourceVersion := some "42"
                      labels := some (SortedMap.empty.insert "app" "old") } } }

/-- In `labeledWorld` the watch goes by the old labels, and the new ones are sent. -/
theorem relabeling_calls_suit :
    let ds := (labeledWorld.spawn ⟨relabeling, 30⟩ 5000).1.taskDeeds 0
    (callsOf ds).map (·.2) = [.get ⟨"prod", "web"⟩,
      .dryRun "prod" { relabeling.toPod with
        metadata := { relabeling.toPod.metadata with name := some "web-validate" } },
      .watch "prod" "app=old" "42", .delete ⟨"prod", "web"⟩ (.background 30),
      .create "prod" relabeling.toPod] ∧
    ∀ c ∈ callsOf ds, c.2.Suits relabeling 30 (firstFound? (heard ds)) :=
  ⟨by rfl, (calls_suit_request labeledWorld relabeling 30 5000 _ _).1⟩

end World

end PodDesk
