import PodDesk.Replacement.Stage

/-!
# The courses that a replacement can take

A replacement hears replies, and every reply that answers a call makes an exchange with it. Whatever
the replies are, the exchanges of a replacement that is finished follow exactly one of five courses,
and the course with the answer to its last call fixes the outcome.

## Main statements

- `Stage.trail_next`: a reply that belongs to a stage keeps the trail of the replacement, which is
  what its stage says about the exchanges so far
- `Course.Fits.unique`: the exchanges of a replacement fit at most one course
- `Course.Fits.delete_le_one`, `Course.Fits.create_le_one`: nothing is deleted or created twice
- `Course.Fits.before_delete`: a deletion follows an accepted dry run and an attempt to watch
-/

namespace PodDesk

/-- A call of a replacement with the reply that the replacement heard. A lookup that takes too long
is answered by the deadline. -/
structure Exchange where
  call : Call
  reply : Reply

/-- The five courses of a replacement, by the last call that it makes. -/
inductive Course where
  /-- The lookup fails. -/
  | lookup
  /-- There is no Pod, and one is created. -/
  | create
  /-- The dry run is rejected. -/
  | dryRun
  /-- The old Pod cannot be deleted. -/
  | delete
  /-- The old Pod is deleted, and one is created after the wait. -/
  | recreate
  deriving DecidableEq

namespace Plan

/-- The outcome of a replacement that ends with a creation, by the `answer` to it. -/
def settle (p : Plan) (step : FailedStep) (replaced : Option Signal) :
    Except ClusterError Unit → Outcome
  | .ok () => .ok ⟨p.key, replaced⟩
  | .error e => .error ⟨p.key, step, e⟩

/-- The call that opens the watch, for the Pod `existing` that the lookup found. -/
def watchCall (p : Plan) (existing : Pod) : Call :=
  .watch p.key.ns (labelSelector existing.metadata.labels)
    (existing.metadata.resourceVersion.getD "0")

/-- The exchanges before a deletion: the lookup finds `existing`, the dry run is accepted and a
watch is asked for. -/
def opening (p : Plan) (existing : Pod) (opened : Except ClusterError Unit) : List Exchange :=
  [⟨.get p.key, .found (.ok (some existing))⟩, ⟨.dryRun p.key.ns p.trialPod, .done (.ok ())⟩,
    ⟨p.watchCall existing, .done opened⟩]

/-- The deletion of the old Pod, with its answer. -/
def deletion (p : Plan) (answer : Except ClusterError Unit) : Exchange :=
  ⟨.delete p.key (.background p.grace), .done answer⟩

/-- The creation of the wanted Pod, with its answer. -/
def creation (p : Plan) (answer : Except ClusterError Unit) : Exchange :=
  ⟨.create p.key.ns p.pod, .done answer⟩

end Plan

/-- `course.Fits p xs o` is what a course says about the exchanges `xs` of a replacement and about
its outcome `o`. -/
def Course.Fits (p : Plan) (xs : List Exchange) (o : Outcome) : Course → Prop
  | lookup => ∃ e, xs = [⟨.get p.key, .found (.error e)⟩] ∧ o = .error ⟨p.key, .lookup, e⟩
  | create => ∃ answer, xs = [⟨.get p.key, .found (.ok none)⟩, p.creation answer] ∧
      o = p.settle .create none answer
  | dryRun => ∃ existing e, xs = [⟨.get p.key, .found (.ok (some existing))⟩,
      ⟨.dryRun p.key.ns p.trialPod, .done (.error e)⟩] ∧ o = .error ⟨p.key, .dryRun, e⟩
  | delete => ∃ existing opened e, xs = p.opening existing opened ++ [p.deletion (.error e)] ∧
      o = .error ⟨p.key, .delete, e⟩
  | recreate => ∃ existing opened probes signal answer, (∀ x ∈ probes, x.call = .get p.key) ∧
      xs = p.opening existing opened ++ p.deletion (.ok ()) :: (probes ++ [p.creation answer]) ∧
      o = p.settle .recreate (some signal) answer

namespace Stage

/-- `s.Hears reply` says that `reply` is one that stage `s` waits for. -/
def Hears : Stage → Reply → Prop
  | lookup, .found _ => True
  | probing, .found _ => True
  | probing, .deadline => True
  | waiting true, .item _ => True
  | waiting _, .deadline => True
  | create, .done _ => True
  | dryRun _, .done _ => True
  | watch _, .done _ => True
  | delete _, .done _ => True
  | recreate _, .done _ => True
  | _, _ => False

/-- The exchange that `reply` makes with the call of stage `s`, if it has one. -/
def exchange? (p : Plan) (s : Stage) (reply : Reply) : Option Exchange :=
  (s.call? p).map fun call => ⟨call, reply⟩

/-- `s.Trail p xs` is what stage `s` says about the exchanges `xs` before it. -/
def Trail (p : Plan) (xs : List Exchange) : Stage → Prop
  | lookup => xs = []
  | create => xs = [⟨.get p.key, .found (.ok none)⟩]
  | dryRun existing => xs = [⟨.get p.key, .found (.ok (some existing))⟩]
  | watch existing => xs = [⟨.get p.key, .found (.ok (some existing))⟩,
      ⟨.dryRun p.key.ns p.trialPod, .done (.ok ())⟩]
  | delete _ => ∃ existing opened, xs = p.opening existing opened
  | waiting _ => Deleted p xs
  | probing => Deleted p xs
  | recreate _ => Deleted p xs
  | finished o => ∃ course : Course, course.Fits p xs o
where
  /-- The old Pod was deleted, and only lookups came after that. -/
  Deleted (p : Plan) (xs : List Exchange) : Prop :=
    ∃ existing opened probes, (∀ x ∈ probes, x.call = .get p.key) ∧
      xs = p.opening existing opened ++ p.deletion (.ok ()) :: probes

end Stage

namespace Stage

/-! ## A reply keeps the trail -/

/-- `Stage.onItem` keeps the trail: whatever a watch delivers, the old Pod stays deleted. -/
private theorem trail_onItem (p : Plan) (xs : List Exchange) (item : WatchItem)
    (h : Trail.Deleted p xs) : (onItem p item).Trail p xs := by
  unfold onItem
  split
  · split <;> exact h
  all_goals exact h

/-- A lookup after the deletion belongs to the probes of `Trail.Deleted`. -/
private theorem deleted_probe (p : Plan) (xs : List Exchange) (reply : Reply)
    (h : Trail.Deleted p xs) : Trail.Deleted p (xs ++ [⟨.get p.key, reply⟩]) := by
  obtain ⟨existing, opened, probes, hprobes, rfl⟩ := h
  refine ⟨existing, opened, probes ++ [⟨.get p.key, reply⟩], ?_, by simp⟩
  intro x hx
  rcases List.mem_append.1 hx with hx | hx
  · exact hprobes x hx
  · rw [List.mem_singleton.1 hx]

/-- `Stage.next` with the answer to such a lookup keeps the trail: what was found does not matter.
-/
private theorem trail_found (p : Plan) (xs : List Exchange)
    (answer : Except ClusterError (Option Pod)) (h : Trail.Deleted p xs) :
    (probing.next p (.found answer)).Trail p (xs ++ [⟨.get p.key, .found answer⟩]) := by
  have hprobe := deleted_probe p xs (.found answer) h
  rcases answer with e | existing
  · exact hprobe
  · cases existing <;> exact hprobe

/-- `Stage.next` with the answer to the creation after the deletion finishes the replacement. -/
private theorem trail_recreated (p : Plan) (xs : List Exchange) (signal : Signal)
    (answer : Except ClusterError Unit) (h : Trail.Deleted p xs) :
    ((recreate signal).next p (.done answer)).Trail p (xs ++ [p.creation answer]) := by
  obtain ⟨existing, opened, probes, hprobes, rfl⟩ := h
  have hfits : Course.recreate.Fits p
      (p.opening existing opened ++ p.deletion (.ok ()) :: probes ++ [p.creation answer])
      (p.settle .recreate (some signal) answer) :=
    ⟨existing, opened, probes, signal, answer, hprobes, by simp, rfl⟩
  rcases answer with e | ⟨⟩ <;> exact ⟨.recreate, hfits⟩

/-- `Stage.next` with a reply that belongs to the stage keeps the `Trail`: the stage after it says
what happened up to and including the exchange that the reply completes. -/
theorem trail_next (p : Plan) (xs : List Exchange) (s : Stage) (reply : Reply)
    (h : s.Trail p xs) (hears : s.Hears reply) :
    (s.next p reply).Trail p (xs ++ (s.exchange? p reply).toList) := by
  -- The stages as they follow each other; a stage that does not wait for the reply is no case.
  cases s with
  | lookup =>
    obtain rfl : xs = [] := h
    rcases reply with answer | _ | _ | _ <;> try exact hears.elim
    rcases answer with e | existing
    · exact ⟨.lookup, e, rfl, rfl⟩
    · cases existing <;> rfl
  | create =>
    obtain rfl : xs = [⟨.get p.key, .found (.ok none)⟩] := h
    rcases reply with _ | answer | _ | _ <;> try exact hears.elim
    rcases answer with e | ⟨⟩ <;> exact ⟨.create, _, rfl, rfl⟩
  | dryRun existing =>
    obtain rfl : xs = [⟨.get p.key, .found (.ok (some existing))⟩] := h
    rcases reply with _ | answer | _ | _ <;> try exact hears.elim
    rcases answer with e | ⟨⟩
    · exact ⟨.dryRun, existing, e, rfl, rfl⟩
    · rfl
  | watch existing =>
    obtain rfl : xs = [⟨.get p.key, .found (.ok (some existing))⟩,
      ⟨.dryRun p.key.ns p.trialPod, .done (.ok ())⟩] := h
    rcases reply with _ | answer | _ | _ <;> try exact hears.elim
    rcases answer with e | ⟨⟩ <;> exact ⟨existing, _, rfl⟩
  | delete watching =>
    obtain ⟨existing, opened, rfl⟩ : ∃ existing opened, xs = p.opening existing opened := h
    rcases reply with _ | answer | _ | _ <;> try exact hears.elim
    rcases answer with e | ⟨⟩
    · exact ⟨.delete, existing, opened, e, rfl, rfl⟩
    · exact ⟨existing, opened, [], by simp, rfl⟩
  -- A wait makes no call, so nothing is added to the exchanges.
  | waiting watching =>
    simp only [exchange?, call?, Option.map_none, Option.toList_none, List.append_nil]
    rcases reply with _ | _ | item | _
    · cases watching <;> exact hears.elim
    · cases watching <;> exact hears.elim
    · cases watching
      · exact hears.elim
      · exact trail_onItem p xs item h
    · cases watching <;> exact h
  | probing =>
    rcases reply with answer | _ | _ | _ <;> try exact hears.elim
    · exact trail_found p xs answer h
    · exact deleted_probe p xs .deadline h
  | recreate signal =>
    rcases reply with _ | answer | _ | _ <;> try exact hears.elim
    exact trail_recreated p xs signal answer h
  | finished o => exact hears.elim

end Stage

namespace Course

variable {p : Plan} {xs : List Exchange} {o : Outcome}

/-! ## What the courses have in common -/

/-- The kinds of the calls on a course, with `probes` lookups after a deletion. -/
def kinds (probes : Nat) : Course → List CallKind
  | lookup => [.get]
  | create => [.get, .create]
  | dryRun => [.get, .dryRun]
  | delete => [.get, .dryRun, .watch, .delete]
  | recreate => [.get, .dryRun, .watch, .delete] ++ (List.replicate probes .get ++ [.create])

/-- Calls of probes are all of one kind, so `Course.kinds` needs only their number. -/
theorem kinds_probes {probes : List Exchange} (h : ∀ x ∈ probes, x.call = .get p.key) :
    probes.map (·.call.kind) = List.replicate probes.length .get := by
  rw [List.eq_replicate_iff]
  refine ⟨List.length_map _, ?_⟩
  intro kind hkind
  obtain ⟨x, hx, rfl⟩ := List.mem_map.1 hkind
  rw [h x hx]
  rfl

/-- Exchanges that `Fits` a course have its kinds of calls, in its order. -/
theorem Fits.kinds_eq {course : Course} (h : course.Fits p xs o) :
    ∃ probes, xs.map (·.call.kind) = course.kinds probes := by
  cases course with
  | lookup =>
    obtain ⟨e, rfl, rfl⟩ := h
    exact ⟨0, rfl⟩
  | create =>
    obtain ⟨answer, rfl, rfl⟩ := h
    exact ⟨0, rfl⟩
  | dryRun =>
    obtain ⟨existing, e, rfl, rfl⟩ := h
    exact ⟨0, rfl⟩
  | delete =>
    obtain ⟨existing, opened, e, rfl, rfl⟩ := h
    exact ⟨0, rfl⟩
  | recreate =>
    obtain ⟨existing, opened, probes, signal, answer, hprobes, rfl, rfl⟩ := h
    refine ⟨probes.length, ?_⟩
    rw [List.map_append, List.map_cons, List.map_append, kinds_probes hprobes]
    rfl

/-- `Course.kinds` tells a course from the others. -/
theorem eq_of_kinds_eq {c₁ c₂ : Course} {m n : Nat} (h : c₁.kinds m = c₂.kinds n) : c₁ = c₂ := by
  cases c₁ <;> cases c₂ <;> simp [kinds] at h ⊢

/-- Exchanges have at most one course that `Fits` them. -/
theorem Fits.unique {c₁ c₂ : Course} {o' : Outcome} (h₁ : c₁.Fits p xs o) (h₂ : c₂.Fits p xs o') :
    c₁ = c₂ := by
  obtain ⟨m, hm⟩ := h₁.kinds_eq
  obtain ⟨n, hn⟩ := h₂.kinds_eq
  exact eq_of_kinds_eq (hm.symm.trans hn)

/-- In `Course.kinds` only lookups are repeated. -/
theorem count_kinds_le_one {kind : CallKind} (hkind : kind ≠ .get) (probes : Nat)
    (course : Course) : (course.kinds probes).count kind ≤ 1 := by
  cases course <;> cases kind <;> simp [kinds, List.count_replicate] at hkind ⊢

/-- Exchanges that `Fits` a course have at most one deletion. -/
theorem Fits.delete_le_one {course : Course} (h : course.Fits p xs o) :
    (xs.map (·.call.kind)).count .delete ≤ 1 := by
  obtain ⟨probes, hkinds⟩ := h.kinds_eq
  rw [hkinds]
  exact count_kinds_le_one (by decide) probes course

/-- Exchanges that `Fits` a course have at most one creation, dry runs apart. -/
theorem Fits.create_le_one {course : Course} (h : course.Fits p xs o) :
    (xs.map (·.call.kind)).count .create ≤ 1 := by
  obtain ⟨probes, hkinds⟩ := h.kinds_eq
  rw [hkinds]
  exact count_kinds_le_one (by decide) probes course

/-- After `Plan.opening`, and before a rest without deletions, the deletion comes right after the
opening. -/
private theorem eq_opening {existing : Pod} {opened answer : Except ClusterError Unit}
    {before after rest : List Exchange} {x : Exchange}
    (hrest : ∀ y ∈ rest, y.call.kind ≠ .delete) (hx : x.call.kind = .delete)
    (h : p.opening existing opened ++ p.deletion answer :: rest = before ++ x :: after) :
    before = p.opening existing opened := by
  -- The deletion is none of the three exchanges of the opening, and none of the rest.
  rcases before with _ | ⟨a, _ | ⟨b, _ | ⟨c, _ | ⟨d, before⟩⟩⟩⟩
  · simp only [Plan.opening, List.cons_append, List.nil_append, List.cons.injEq] at h
    simp [← h.1, Call.kind] at hx
  · simp only [Plan.opening, List.cons_append, List.nil_append, List.cons.injEq] at h
    simp [← h.2.1, Call.kind] at hx
  · simp only [Plan.opening, List.cons_append, List.nil_append, List.cons.injEq] at h
    simp [← h.2.2.1, Call.kind, Plan.watchCall] at hx
  · simp only [Plan.opening, List.cons_append, List.nil_append, List.cons.injEq] at h
    simp [Plan.opening, h.1, h.2.1, h.2.2.1]
  · simp only [Plan.opening, List.cons_append, List.nil_append, List.cons.injEq] at h
    exact absurd hx (hrest x (by simp [h.2.2.2.2]))

/-- In exchanges that `Fits` a course, a deletion comes after a dry run that was accepted and after
an attempt to watch. -/
theorem Fits.before_delete {course : Course} (h : course.Fits p xs o)
    {before after : List Exchange} {x : Exchange} (hxs : xs = before ++ x :: after)
    (hx : x.call.kind = .delete) :
    ⟨.dryRun p.key.ns p.trialPod, .done (.ok ())⟩ ∈ before ∧
      ∃ y ∈ before, y.call.kind = .watch := by
  have hmem : x ∈ xs := by simp [hxs]
  -- The opening has both, so it is enough that the deletion comes right after it.
  suffices ∃ existing opened, before = p.opening existing opened by
    obtain ⟨existing, opened, rfl⟩ := this
    exact ⟨by simp [Plan.opening], ⟨p.watchCall existing, .done opened⟩, by simp [Plan.opening], rfl⟩
  cases course with
  -- Three courses have no deletion at all.
  | lookup =>
    obtain ⟨e, rfl, rfl⟩ := h
    simp only [List.mem_singleton] at hmem
    simp [hmem, Call.kind] at hx
  | create =>
    obtain ⟨answer, rfl, rfl⟩ := h
    simp only [List.mem_cons, List.not_mem_nil, or_false] at hmem
    rcases hmem with rfl | rfl <;> simp [Plan.creation, Call.kind] at hx
  | dryRun =>
    obtain ⟨existing, e, rfl, rfl⟩ := h
    simp only [List.mem_cons, List.not_mem_nil, or_false] at hmem
    rcases hmem with rfl | rfl <;> simp [Call.kind] at hx
  | delete =>
    obtain ⟨existing, opened, e, rfl, rfl⟩ := h
    exact ⟨existing, opened, eq_opening (by simp) hx hxs⟩
  | recreate =>
    obtain ⟨existing, opened, probes, signal, answer, hprobes, rfl, rfl⟩ := h
    refine ⟨existing, opened, eq_opening ?_ hx hxs⟩
    intro y hy
    rcases List.mem_append.1 hy with hy | hy
    · simp [hprobes y hy, Call.kind]
    · simp [List.mem_singleton.1 hy, Plan.creation, Call.kind]

end Course

end PodDesk
