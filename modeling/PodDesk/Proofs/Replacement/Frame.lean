import PodDesk.Proofs.Replacement.Recreation
import PodDesk.Proofs.Replacement.Untimed

/-!
# What a replacement leaves alone

A replacement is about one key. Whatever the cluster answers, and even when its answers contradict
what it stores, no Pod under another key changes. Until the old Pod is deleted or the new one is
created nothing changes at all, and a replacement that fails before that leaves the store as it was.

## Main statements

- `Stage.samePods_reply`: an answer that leaves the Pods untouched, by the stage it leads to
- `Cluster.Spares.reply`: no call of a replacement reaches a Pod under another key
- `World.Leaves.tick`: a tick keeps what the replacement has left alone
- `World.failed_run_keeps_store`: what a whole replacement leaves alone
-/

namespace PodDesk

namespace Stage

/-- The stages in which nothing has been deleted or created: those before that, and a failure at one
of their calls. -/
def Untouched : Stage → Prop
  | lookup | create | dryRun _ | watch _ | delete _ => True
  | finished (.error f) => f.step ≠ .recreate
  | _ => False

variable {p : Plan} {s : Stage} {reply : Reply}

/-- A stage before an `Untouched` one is `Untouched`: what was deleted or created stays so. -/
theorem untouched_of_next (hears : s.Hears reply) (h : (s.next p reply).Untouched) :
    s.Untouched := by
  have hitem : ∀ item, ¬ (onItem p item).Untouched := by
    intro item
    unfold onItem
    repeat' split
    all_goals exact id
  -- Once something was deleted, no call can fail any more but the last creation.
  cases s with
  | waiting watching =>
    cases watching <;> cases reply <;> first | exact hears.elim | exact absurd h (hitem _) | exact h
  | probing => rcases reply with (_ | (_ | _)) | _ | _ | _ <;> first | exact hears.elim | exact h
  | recreate signal =>
    rcases reply with _ | (e | ⟨⟩) | _ | _
    all_goals first | exact hears.elim | exact h | exact absurd rfl h
  | finished o => exact hears.elim
  | _ => trivial

end Stage

namespace Cluster

/-- `Spares key c c'` says that `c'` stores the same Pods as `c` under every key but `key`, and is
about to remove a Pod under no other. -/
structure Spares (key : PodKey) (c c' : Cluster) : Prop where
  pods : ∀ other, other ≠ key → c'.pods.get? other = c.pods.get? other
  removals : ∀ r ∈ c'.removals, r.key = key

variable {c c' c'' : Cluster} {key : PodKey} {i : Incident} {now : Nat}

theorem SamePods.refl (c : Cluster) : c.SamePods c :=
  ⟨rfl, rfl, rfl⟩

theorem SamePods.trans (h : c.SamePods c') (h' : c'.SamePods c'') : c.SamePods c'' :=
  ⟨h.pods.trans h'.pods, h.created.trans h'.created, h.removals.trans h'.removals⟩

/-! ## Calls that fail change nothing -/

theorem create_fst_of_error {ns : String} {pod : Pod} {e : ClusterError}
    (h : (c.create i ns pod).2 = .error e) : (c.create i ns pod).1 = c := by
  unfold create at h ⊢
  cases herror : i.error with
  | some _ => rfl
  -- A creation without an error of the script fails only when the name is taken.
  | none =>
    simp only [herror] at h ⊢
    split
    · rfl
    · rename_i hfree
      simp [hfree] at h

theorem delete_fst_of_error {e : ClusterError} (h : (c.delete i now key).2 = .error e) :
    (c.delete i now key).1 = c := by
  unfold delete at h ⊢
  cases herror : i.error with
  | some _ => rfl
  | none =>
    simp only [herror] at h ⊢
    split
    · rfl
    · rename_i hstored
      rw [if_neg hstored] at h
      -- Every branch but the first two accepts the deletion.
      split at h
      · simp at h
      · split at h <;> simp at h

/-! ## Calls are about one key -/

theorem Spares.congr (h : c.Spares key c') (hsame : c'.SamePods c'') : c.Spares key c'' :=
  ⟨hsame.pods ▸ h.pods, hsame.removals ▸ h.removals⟩

theorem Spares.remove (h : c.Spares key c') (now : Nat) (silent : Bool) :
    c.Spares key (c'.remove now key silent) := by
  refine ⟨fun other hne => ?_, by rw [remove_removals]; exact h.removals⟩
  rw [← h.pods other hne]
  unfold Cluster.remove
  split
  · rfl
  · cases silent <;> exact SortedMap.get?_erase_of_ne _ hne

theorem Spares.create (h : c.Spares key c') (i : Incident) {pod : Pod}
    (hname : pod.metadata.name = some key.name) : c.Spares key (c'.create i key.ns pod).1 := by
  have hkey : (⟨key.ns, pod.metadata.name.getD ""⟩ : PodKey) = key := by rw [hname]; rfl
  unfold Cluster.create
  rw [hkey]
  -- The creation fails, finds the name taken, or stores the Pod under `key`.
  cases i.error with
  | some _ => exact h
  | none =>
    dsimp only
    split
    · exact h
    · refine ⟨fun other hne => ?_, h.removals⟩
      rw [← h.pods other hne]
      exact SortedMap.get?_insert_of_ne _ _ hne

theorem Spares.delete (h : c.Spares key c') (i : Incident) (now : Nat) :
    c.Spares key (c'.delete i now key).1 := by
  unfold Cluster.delete
  -- The deletion fails, finds nothing, changes nothing more, or removes the Pod at once or later.
  cases i.error with
  | some _ => exact h
  | none =>
    dsimp only
    split
    · exact h
    · split
      · exact h
      · split
        · exact h.remove now i.silent
        · refine ⟨h.pods, fun r hr => ?_⟩
          rcases List.mem_append.1 hr with hr | hr
          · exact h.removals r hr
          · rw [List.mem_singleton.1 hr]

/-- The answer to a watch leaves the Pods as they are. -/
theorem samePods_reply_watch (c : Cluster) (i : Incident) (now : Nat)
    (ns selector version : String) :
    c.SamePods (c.reply i now (.watch ns selector version)).1 := by
  rw [reply_watch_fst]
  unfold openWatch
  cases i.error <;> exact ⟨rfl, rfl, rfl⟩

/-- `Cluster.reply` to a call of a replacement spares all Pods under other keys. -/
theorem Spares.reply {p : Plan} {s : Stage} {call : Call} (h : c.Spares p.key c')
    (hcall : s.call? p = some call) (i : Incident) (now : Nat) :
    c.Spares p.key (c'.reply i now call).1 := by
  cases s <;> simp only [Stage.call?, Option.some.injEq, reduceCtorEq] at hcall <;> subst hcall
  case create => exact h.create i rfl
  case recreate signal => exact h.create i rfl
  case delete watching => exact h.delete i now
  case watch existing => exact h.congr (samePods_reply_watch c' i now _ _ _)
  all_goals exact h

end Cluster

/-- An answer that leads to an `Untouched` stage leaves the Pods as they are. -/
theorem Stage.samePods_reply {p : Plan} {s : Stage} {call : Call} {c : Cluster} {i : Incident}
    {now : Nat} (hcall : s.call? p = some call)
    (h : (s.next p (c.reply i now call).2.1).Untouched) : c.SamePods (c.reply i now call).1 := by
  -- Only a creation or a deletion could change them, and each is `Untouched` only when it fails.
  cases s <;> simp only [Stage.call?, Option.some.injEq, reduceCtorEq] at hcall <;> subst hcall
  case create =>
    cases hanswer : (c.create i p.key.ns p.pod).2 with
    | ok => simp [hanswer, Stage.next, Untouched] at h
    | error e =>
      rw [Cluster.reply_create, Cluster.create_fst_of_error hanswer]
      exact .refl c
  case recreate signal =>
    cases hanswer : (c.create i p.key.ns p.pod).2 <;> simp [hanswer, Stage.next, Untouched] at h
  case delete watching =>
    cases hanswer : (c.delete i now p.key).2 with
    | ok => simp [hanswer, Stage.next, Untouched] at h
    | error e =>
      rw [Cluster.reply_delete, Cluster.delete_fst_of_error hanswer]
      exact .refl c
  case watch existing => exact c.samePods_reply_watch i now _ _ _
  all_goals exact .refl c

namespace World

/-- `Leaves c p i w` is what task `i` has left alone since the cluster was `c`: all Pods under other
keys, and all Pods as long as its stage is `Untouched`. -/
structure Leaves (c : Cluster) (p : Plan) (i : Nat) (w : World) : Prop where
  others : w.OthersAtRest i
  spares : c.Spares p.key w.cluster
  task : ∃ t, w.tasks[i]? = some t ∧ t.plan = p ∧ (t.stage.Untouched → c.SamePods w.cluster)

variable {c : Cluster} {p : Plan} {i : Nat} {w : World}

/-- A task that is changed, and a cluster after it, keep `Leaves`. -/
theorem Leaves.putTask {c' : Cluster} {t u : Task} (h : w.Leaves c p i)
    (ht : w.tasks[i]? = some t) (hspares : c.Spares p.key c') (hplan : u.plan = p)
    (hsame : u.stage.Untouched → c.SamePods c') :
    ({ w with cluster := c' }.putTask i u).Leaves c p i where
  others := OthersAtRest.putTask (w := { w with cluster := c' }) h.others u
  spares := by rwa [putTask_cluster]
  task := by
    have hlt : i < w.tasks.length := (List.getElem?_eq_some_iff.1 ht).1
    exact ⟨u, by simp [hlt], hplan, by rwa [putTask_cluster]⟩

/-- `World.stepTask` keeps `Leaves`. -/
theorem Leaves.turn (h : w.Leaves c p i) {t : Task} (ht : w.tasks[i]? = some t) :
    (w.stepTask i t).Leaves c p i := by
  obtain ⟨u, hu, hplan, huntouched⟩ := h.task
  obtain rfl : t = u := Option.some.inj (ht.symm.trans hu)
  cases hheard : w.hearing? t with
  | some heard =>
    obtain ⟨c', watch, reply⟩ := heard
    have hears := hears_of_hearing hheard
    -- It is enough that the Pods are the same when the new stage says so.
    suffices hcluster : c.Spares p.key c' ∧
        ((t.stage.next t.plan reply).Untouched → w.cluster.SamePods c') by
      rw [stepTask_of_hearing hheard]
      refine h.putTask ht hcluster.1 (by rw [Task.hear_plan]; exact hplan) ?_
      rw [Task.hear_stage]
      intro hnext
      exact (huntouched (Stage.untouched_of_next hears hnext)).trans (hcluster.2 hnext)
    cases heard_of_hearing hheard with
    | answer _ _ hcall =>
      exact ⟨h.spares.reply (hplan ▸ hcall) _ _, Stage.samePods_reply hcall⟩
    | late => exact ⟨h.spares, fun _ => .refl _⟩
    | deadline => exact ⟨h.spares, fun _ => .refl _⟩
    | news => exact ⟨h.spares.congr ⟨rfl, rfl, rfl⟩, fun _ => ⟨rfl, rfl, rfl⟩⟩
  | none =>
    rcases quiet_cases (i := i) hheard with hsame | hcrash | ⟨call, hactivity, hcall⟩
    · rwa [hsame]
    -- A crash changes neither the stage nor the cluster.
    · rw [hcrash]
      exact h.putTask ht h.spares hplan huntouched
    · rw [stepTask_of_ready hactivity hcall]
      -- A call that is made takes an incident out of the script, and nothing else.
      have hadvance : w.cluster.SamePods (w.cluster.advance call.kind) := ⟨rfl, rfl, rfl⟩
      have hentered : (w.enter call).1.Leaves c p i :=
        ⟨h.others, h.spares.congr hadvance, t, ht, hplan, fun hs => (huntouched hs).trans hadvance⟩
      exact hentered.putTask ht hentered.spares hplan fun hs => (huntouched hs).trans hadvance

/-- `World.tick` keeps `Leaves`. -/
theorem Leaves.tick {time : Nat} {actor : Actor} (hsettled : c.removals = [])
    (h : w.Leaves c p i) (hnext : w.next? = some (time, actor)) :
    (w.tick time actor).Leaves c p i := by
  have hnow : ({ w with now := time } : World).Leaves c p i := ⟨h.others, h.spares, h.task⟩
  obtain ⟨j, r, rfl, hr, htick⟩ | ⟨j, u, due, rfl, hu, hdue, -, htick⟩ := tick_cases hnext
  -- A removal is one of the key of the plan, by `Spares`.
  · have hmem : r ∈ w.cluster.removals := List.mem_of_getElem? hr
    obtain ⟨t, ht, hplan, huntouched⟩ := h.task
    have hrest : c.Spares p.key
        { w.cluster with removals := w.cluster.removals.eraseIdx j } :=
      ⟨h.spares.pods, fun r' hr' => h.spares.removals r' (List.mem_of_mem_eraseIdx hr')⟩
    rw [htick]
    refine ⟨h.others, ?_, t, ht, hplan, fun hstage => ?_⟩
    · simp only [stepRemoval, h.spares.removals r hmem]
      exact hrest.remove _ _
    · -- Nothing was deleted, so there is nothing to be removed.
      rw [← (huntouched hstage).removals, hsettled] at hmem
      exact absurd hmem List.not_mem_nil
  · obtain rfl : j = i := h.others.eq_of_due hu hdue
    rw [htick]
    exact hnow.turn hu

/-- `World.spawn` starts with `Leaves`: nothing has been touched yet. -/
theorem leaves_spawn (w : World) (p : Plan) (wait : Nat) (hrest : ∀ t ∈ w.tasks, t.AtRest)
    (hsettled : w.cluster.removals = []) :
    (w.spawn p wait).1.Leaves w.cluster p (w.spawn p wait).2 where
  others := othersAtRest_spawn hrest p wait
  spares := ⟨fun _ _ => rfl, fun r hr => absurd hr (by simp [spawn, hsettled])⟩
  task := ⟨{ plan := p, wait, started := w.now }, by simp [spawn], rfl, fun _ => .refl _⟩

/-- A replacement comes to its end, and at every moment up to then and later the Pods under other
keys are as they were. If it fails at another call than the creation after its deletion, nothing has
changed: the same Pods are stored with the same versions, and none is about to be removed. -/
theorem failed_run_keeps_store (w : World) (p : Plan) (wait : Nat)
    (hrest : ∀ t ∈ w.tasks, t.AtRest) (hsettled : w.cluster.removals = []) :
    let i := (w.spawn p wait).2
    let start := (w.spawn p wait).1
    ((start.runTask i none).tasks[i]?.bind (·.result?)).isSome ∧
    ∀ wanted n, let later := World.run wanted n start
      (∀ key, key ≠ p.key → later.cluster.pods.get? key = w.cluster.pods.get? key) ∧
      ∀ f, later.tasks[i]?.bind (·.result?) = some (.ok (.error f)) → f.step ≠ .recreate →
        later.cluster.pods = w.cluster.pods ∧ later.cluster.created = w.cluster.created ∧
          later.cluster.removals = [] := by
  intro i start
  -- What was left alone at the start is left alone at every moment.
  have hkept : ∀ wanted n, (World.run wanted n start).Leaves w.cluster p i := fun wanted n =>
    run_preserves (P := fun w' => w'.Leaves w.cluster p i)
      (fun hnext _ h => Leaves.tick hsettled h hnext) n (leaves_spawn w p wait hrest hsettled)
  refine ⟨?_, fun wanted n => ⟨(hkept wanted n).spares.pods, ?_⟩⟩
  -- The run is over: the task has a result.
  · have hover := isOver_runTask (isSound_spawn w p wait fun t ht => .inl (hrest t ht)) i
    obtain ⟨t, ht, -⟩ := (hkept _ start.budget).task
    rw [runTask, isOver, ht] at hover
    rw [runTask, ht]
    exact hover
  -- A failure at another step is `Untouched`.
  · intro f hfailed hstep
    obtain ⟨t, ht, -, huntouched⟩ := (hkept wanted n).task
    have hstage : t.stage = .finished (.error f) := by
      rw [ht, Option.bind_some] at hfailed
      unfold Task.result? at hfailed
      cases hs : t.stage <;> cases hactivity : t.activity <;>
        simp_all [Stage.outcome?]
    have hsame := huntouched (by rw [hstage]; exact hstep)
    exact ⟨hsame.pods.symm, hsame.created.symm, hsame.removals.symm.trans hsettled⟩

/-- A world where a lookup finds a Pod that is not stored, and the watch cannot be opened. The only
Pod that is stored is another one. -/
def deceivedWorld : World where
  cluster := {
    pods := SortedMap.empty.insert ⟨"prod", "db"⟩
      { metadata := { name := some "db", ns := some "prod", resourceVersion := some "7" } }
    script := fun
      | .get => [some { delay := 30, pod := some troubledPlan.pod }]
      | .watch => [some { error := some (.transport "reset") }]
      | _ => [] }

/-- In `deceivedWorld` the deletion finds nothing, and the other Pod is stored as before. -/
theorem deceived_run_keeps_store :
    ((deceivedWorld.spawn troubledPlan 5000).1.runTask 0 none).tasks[0]?.bind (·.result?) =
        some (.ok (.error ⟨troubledPlan.key, .delete, .notFound "pods \"web\" not found"⟩)) ∧
      ((deceivedWorld.spawn troubledPlan 5000).1.runTask 0 none).cluster.pods =
        deceivedWorld.cluster.pods := by
  have hfailed : ((deceivedWorld.spawn troubledPlan 5000).1.runTask 0 none).tasks[0]?.bind
      (·.result?) =
        some (.ok (.error ⟨troubledPlan.key, .delete, .notFound "pods \"web\" not found"⟩)) := by
    rfl
  have hrest : ∀ t ∈ deceivedWorld.tasks, t.AtRest := fun t ht => absurd ht List.not_mem_nil
  have hkept := (failed_run_keeps_store deceivedWorld troubledPlan 5000 hrest rfl).2
    (fun w time => ! w.isOver 0 && (none : Option Nat).all (time < ·))
    (deceivedWorld.spawn troubledPlan 5000).1.budget
  exact ⟨hfailed, (hkept.2 _ hfailed (by decide)).1⟩

end World

end PodDesk
