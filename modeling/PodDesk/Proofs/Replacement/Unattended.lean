import PodDesk.Proofs.Replacement.Clock

/-!
# A cluster that is left to itself

While no task acts, only the removals that are on their way happen, and watches announce them. So
what becomes of a cluster until a time can be told in advance: `World.clusterAt`. It does not change
while that future comes true, and neither a lookup nor the reading of an item makes a difference to
it, apart from the item that was read.

## Main statements

- `World.next?_unattended`, `World.unattended_quiet`: removals come in the same order without tasks
- `World.clusterAt_wait`, `World.clusterAt_removal`: the future stays the same while it comes
- `World.clusterAt_of_lt`: without a removal by a time the cluster is at that time as it is now
- `World.clusterAt_alike`: what a watch will have to read is what it has and what removals add to it
-/

namespace PodDesk

namespace Cluster

variable {c c' : Cluster} {n : Nat}

/-! ## What waits in a watch -/

/-- What waits to be read from watch `n`. -/
def queue (c : Cluster) (n : Nat) : List (Nat × WatchItem) :=
  (c.watches[n]?.map (·.pending)).getD []

theorem peek_eq_head? (c : Cluster) (n : Nat) : c.peek n = (c.queue n).head? := by
  unfold peek queue
  cases c.watches[n]? <;> rfl

@[simp] theorem queue_pop (c : Cluster) (n : Nat) : (c.pop n).queue n = (c.queue n).tail := by
  unfold queue pop
  cases h : c.watches[n]? <;> simp [h]

/-- The namespace whose removals watch `n` announces. -/
def announced? (c : Cluster) (n : Nat) : Option String :=
  c.watches[n]?.bind (·.announces)

/-- What the removal of a Pod adds to watch `n`. -/
def removalNews (c : Cluster) (n now : Nat) (key : PodKey) (silent : Bool) :
    List (Nat × WatchItem) :=
  match c.pods.get? key with
  | none => []
  | some pod =>
    if silent then []
    else if c.announced? n = some key.ns then [(now, .event (.deleted pod))]
    else []

theorem announced?_announce (c : Cluster) (now : Nat) (ns : String) (item : WatchItem) (n : Nat) :
    (c.announce now ns item).announced? n = c.announced? n := by
  unfold announced? announce
  cases h : c.watches[n]? with
  | none => simp [h]
  | some w =>
    simp only [List.getElem?_map, h, Option.map_some, Option.bind_some]
    split <;> rfl

theorem queue_announce (c : Cluster) (now : Nat) (ns : String) (item : WatchItem) (n : Nat) :
    (c.announce now ns item).queue n =
      c.queue n ++ if c.announced? n = some ns then [(now, item)] else [] := by
  unfold queue announced? announce
  cases h : c.watches[n]? with
  | none => simp [h]
  | some w =>
    simp only [List.getElem?_map, h, Option.map_some, Option.bind_some, Option.getD_some]
    split <;> simp

theorem announced?_remove (c : Cluster) (now : Nat) (key : PodKey) (silent : Bool) (n : Nat) :
    (c.remove now key silent).announced? n = c.announced? n := by
  unfold remove
  split
  · rfl
  · dsimp only
    split
    · rfl
    · rw [announced?_announce]
      rfl

/-- `Cluster.remove` adds its `removalNews` to a watch. -/
theorem queue_remove (c : Cluster) (now : Nat) (key : PodKey) (silent : Bool) (n : Nat) :
    (c.remove now key silent).queue n = c.queue n ++ c.removalNews n now key silent := by
  unfold remove removalNews
  cases c.pods.get? key with
  | none => exact (List.append_nil _).symm
  | some pod =>
    dsimp only
    split
    · exact (List.append_nil _).symm
    · exact queue_announce _ _ _ _ _

theorem removalNews_time {now : Nat} {key : PodKey} {silent : Bool} {e : Nat × WatchItem}
    (h : e ∈ c.removalNews n now key silent) : e.1 = now := by
  unfold removalNews at h
  split at h
  · exact absurd h List.not_mem_nil
  · split at h
    · exact absurd h List.not_mem_nil
    · split at h
      · rw [List.mem_singleton] at h
        rw [h]
      · exact absurd h List.not_mem_nil

/-! ## Clusters with the same future -/

/-- `Alike n c c'` says that the same Pods will be removed in both clusters, and the same removals
announced in watch `n`. -/
structure Alike (n : Nat) (c c' : Cluster) : Prop where
  pods : c'.pods = c.pods
  removals : c'.removals = c.removals
  announced : c'.announced? n = c.announced? n

theorem Alike.refl (n : Nat) (c : Cluster) : Alike n c c := ⟨rfl, rfl, rfl⟩

/-- `Cluster.pop` makes no difference to what happens later. -/
theorem alike_pop (n : Nat) (c : Cluster) : Alike n c (c.pop n) where
  pods := rfl
  removals := rfl
  announced := by
    unfold announced? pop
    cases h : c.watches[n]? <;> simp [h]

theorem Alike.removalNews (h : Alike n c c') (now : Nat) (key : PodKey) (silent : Bool) :
    c'.removalNews n now key silent = c.removalNews n now key silent := by
  unfold Cluster.removalNews
  rw [h.pods, h.announced]

/-- Clusters stay `Alike` when the same Pod is removed from them. -/
theorem Alike.remove (h : Alike n c c') (now : Nat) (key : PodKey) (silent : Bool) :
    Alike n (c.remove now key silent) (c'.remove now key silent) where
  pods := by
    have hpods : ∀ d : Cluster, (d.remove now key silent).pods =
        if (d.pods.get? key).isSome then d.pods.erase key else d.pods := by
      intro d
      unfold Cluster.remove
      cases d.pods.get? key with
      | none => rfl
      | some pod => cases silent <;> rfl
    rw [hpods, hpods, h.pods]
  removals := by rw [remove_removals, remove_removals, h.removals]
  announced := by rw [announced?_remove, announced?_remove, h.announced]

/-- `Cluster.lookup` depends on the Pods alone. -/
theorem lookup_congr (h : c'.pods = c.pods) (incident : Incident) (key : PodKey) :
    c'.lookup incident key = c.lookup incident key := by
  unfold lookup
  rw [h]

end Cluster

namespace World

variable {w w' : World} {time t : Nat}

/-! ## A world without tasks -/

/-- The cluster and the clock of `w`, without its tasks. -/
def unattended (w : World) : World :=
  { now := w.now, cluster := w.cluster }

/-- The cluster at a time if no task acts until then. -/
def clusterAt (w : World) (time : Nat) : Cluster :=
  (w.unattended.upTo time).cluster

theorem isSound_unattended (w : World) : w.unattended.IsSound :=
  fun _ ht => absurd ht List.not_mem_nil

/-- `World.agenda` without tasks has only removals. -/
theorem agenda_unattended (w : World) : w.unattended.agenda =
    w.cluster.removals.mapIdx fun i r => (max w.now r.due, .removal i) := by
  simp [agenda, unattended]

theorem mem_agenda_of_mem_unattended {e : Nat × Actor} (h : e ∈ w.unattended.agenda) :
    e ∈ w.agenda := by
  rw [agenda_unattended] at h
  unfold agenda
  exact List.mem_append_left _ (List.mem_append_right _ h)

/-- `World.earliest` of two lists is the one of the first or the one of the second. -/
theorem earliest_append {xs ys : List (Nat × Actor)} {e : Nat × Actor}
    (h : earliest (xs ++ ys) = some e) : earliest xs = some e ∨ earliest ys = some e := by
  induction xs generalizing e with
  | nil => exact .inr h
  | cons x xs ih =>
    simp only [List.cons_append, earliest] at h ⊢
    -- Whether the first entry is the earliest depends on the rest of both lists, and so of either.
    cases hrest : earliest (xs ++ ys) with
    | none =>
      rw [hrest] at h
      cases hxs : earliest xs with
      | none => exact .inl h
      | some other =>
        have := earliest_isSome (List.ne_nil_of_mem (List.mem_append_left ys (earliest_mem hxs)))
        simp [hrest] at this
    | some first =>
      simp only [hrest] at h
      split at h
      · rename_i hlt
        obtain rfl := Option.some.inj h
        exact (ih hrest).imp_left fun hxs => by simp [hxs, hlt]
      · rename_i hle
        left
        cases hxs : earliest xs with
        | none => exact h
        | some other =>
          have := earliest_le hrest other (List.mem_append_left ys (earliest_mem hxs))
          simpa [show ¬ other.1 < x.1 by omega] using h

/-- The removal that `World.next?` gives comes first without tasks, too. -/
theorem next?_unattended {j : Nat} (h : w.next? = some (time, .removal j)) :
    w.unattended.next? = some (time, .removal j) := by
  -- The entries of tasks are about tasks.
  have htasks : ∀ {e : Nat × Actor} {k : Nat}, w.taskEntry k = some e → e ≠ (time, .removal j) := by
    rintro e k hentry rfl
    obtain ⟨due, -, heq⟩ := Option.map_eq_some_iff.1 hentry
    simp at heq
  unfold next? agenda at h
  -- The entry is not among those of the tasks before the removals, nor among those after them.
  rcases earliest_append h with h | h
  · rcases earliest_append h with h | h
    · obtain ⟨k, -, hentry⟩ := Option.bind_eq_some_iff.1 (Option.mem_toList.1 (earliest_mem h))
      exact absurd rfl (htasks hentry)
    · rw [next?, agenda_unattended]
      exact h
  · obtain ⟨k, -, hentry⟩ := List.mem_filterMap.1 (earliest_mem h)
    exact absurd rfl (htasks hentry)

/-- Without tasks nothing happens before the time of `World.next?`. -/
theorem unattended_quiet {actor : Actor} (h : w.next? = some (time, actor)) :
    w.unattended.QuietBefore time := by
  intro time' actor' hnext
  exact earliest_le h _ (mem_agenda_of_mem_unattended (earliest_mem hnext))

/-- `World.tick` removes a Pod without tasks as with them. -/
theorem unattended_tick (w : World) (time j : Nat) :
    w.unattended.tick time (.removal j) = (w.tick time (.removal j)).unattended := by
  simp only [tick, unattended]
  split <;> rfl

/-! ## The future stays the same while it comes -/

/-- `clusterAt` stays the same when the clock moves to what happens next. -/
theorem clusterAt_wait {actor : Actor} (h : w.next? = some (time, actor)) (ht : time ≤ t) :
    ({ w with now := time } : World).clusterAt t = w.clusterAt t := by
  have hnow : w.unattended.now ≤ time := now_le_of_next? (w := w) h
  have hwait := upTo_wait (unattended_quiet h) hnow ht
  unfold clusterAt
  rw [← hwait]
  rfl

/-- `clusterAt` stays the same when the next removal happens. -/
theorem clusterAt_removal {j : Nat} (h : w.next? = some (time, .removal j)) (ht : time ≤ t) :
    (w.tick time (.removal j)).clusterAt t = w.clusterAt t := by
  have hnext := next?_unattended h
  -- The removal is a run of one tick.
  have hrun : run (fun _ _ => true) 1 w.unattended = w.unattended.tick time (.removal j) := by
    simp [run, hnext]
  unfold clusterAt
  rw [← unattended_tick, ← hrun]
  refine congrArg World.cluster (upTo_run (isSound_unattended w) _ ?_)
  rw [hrun, tick_now hnext]
  exact ht

/-- `clusterAt` is the cluster as it is when no removal is due by then. -/
theorem clusterAt_of_lt (h : ∀ r ∈ w.cluster.removals, t < r.due) : w.clusterAt t = w.cluster := by
  -- The first thing that happens is a removal, and it comes too late.
  have hstop : ∀ n, run (fun _ time => time < t + 1) n w.unattended = w.unattended := by
    intro n
    cases n with
    | zero => rfl
    | succ n =>
      cases hnext : w.unattended.next? with
      | none => simp [run, hnext]
      | some e =>
        obtain ⟨time, actor⟩ := e
        have hmem := earliest_mem hnext
        rw [agenda_unattended, List.mem_mapIdx] at hmem
        obtain ⟨j, hj, heq⟩ := hmem
        have hlt := h _ (List.getElem_mem hj)
        simp only [Prod.mk.injEq] at heq
        have hlate : ¬ time < t + 1 := by omega
        simp [run, hnext, hlate]
  unfold clusterAt upTo runBefore
  rw [hstop]
  rfl

/-! ## What a watch will have to read -/

/-- A removal keeps clusters `Alike`, and adds the same to their watches. -/
private theorem alike_tick {n j : Nat} (h : Cluster.Alike n w.cluster w'.cluster)
    (hj : j < w.cluster.removals.length) (time : Nat) :
    ∃ news,
      Cluster.Alike n (w.tick time (.removal j)).cluster (w'.tick time (.removal j)).cluster ∧
      (w.tick time (.removal j)).cluster.queue n = w.cluster.queue n ++ news ∧
      (w'.tick time (.removal j)).cluster.queue n = w'.cluster.queue n ++ news ∧
      ∀ e ∈ news, e.1 = time := by
  have hr : w.cluster.removals[j]? = some w.cluster.removals[j] := List.getElem?_eq_getElem hj
  generalize w.cluster.removals[j] = r at hr
  have hr' : w'.cluster.removals[j]? = some r := h.removals ▸ hr
  let c : Cluster := { w.cluster with removals := w.cluster.removals.eraseIdx j }
  let c' : Cluster := { w'.cluster with removals := w'.cluster.removals.eraseIdx j }
  -- The list of removals is the same in both, so the removal is too.
  have hbefore : Cluster.Alike n c c' := ⟨h.pods, by simp [c, c', h.removals], h.announced⟩
  simp only [tick, hr, hr']
  refine ⟨c.removalNews n time r.key r.silent, hbefore.remove time r.key r.silent,
    c.queue_remove time r.key r.silent n, ?_, fun e => Cluster.removalNews_time⟩
  rw [← hbefore.removalNews]
  exact c'.queue_remove time r.key r.silent n

/-- Worlds without tasks, and with the same clock, whose clusters are `Alike` get the same news. -/
private theorem run_unattended_alike {n : Nat} (h : Cluster.Alike n w.cluster w'.cluster)
    (hnow : w'.now = w.now) (wanted : Nat → Bool) (m : Nat) :
    ∃ news,
      Cluster.Alike n (run (fun _ => wanted) m w.unattended).cluster
        (run (fun _ => wanted) m w'.unattended).cluster ∧
      (run (fun _ => wanted) m w.unattended).cluster.queue n = w.cluster.queue n ++ news ∧
      (run (fun _ => wanted) m w'.unattended).cluster.queue n = w'.cluster.queue n ++ news ∧
      ∀ e ∈ news, w.now ≤ e.1 := by
  have hnothing : ∀ {v v' : World}, Cluster.Alike n v.cluster v'.cluster →
      ∃ news, Cluster.Alike n v.cluster v'.cluster ∧
        v.cluster.queue n = v.cluster.queue n ++ news ∧
        v'.cluster.queue n = v'.cluster.queue n ++ news ∧ ∀ e ∈ news, v.now ≤ e.1 :=
    fun h => ⟨[], h, (List.append_nil _).symm, (List.append_nil _).symm,
      fun _ he => absurd he List.not_mem_nil⟩
  induction m generalizing w w' with
  | zero => exact hnothing h
  | succ m ih =>
    -- What happens next depends on the removals and the clock alone.
    have hnext' : w'.unattended.next? = w.unattended.next? := by
      rw [next?, next?, agenda_unattended, agenda_unattended, h.removals, hnow]
    simp only [run, hnext']
    cases hnext : w.unattended.next? with
    | none => exact hnothing h
    | some e =>
      obtain ⟨time, actor⟩ := e
      dsimp only
      split
      · have hmem := earliest_mem hnext
        rw [agenda_unattended, List.mem_mapIdx] at hmem
        obtain ⟨j, hj, heq⟩ := hmem
        simp only [Prod.mk.injEq] at heq
        obtain ⟨htime, rfl⟩ := heq
        rw [unattended_tick, unattended_tick]
        -- The same removal happens in both, and then the rest of the run.
        obtain ⟨first, halike, hfirst, hfirst', htime'⟩ := alike_tick h hj time
        have htick : ∀ v : World, j < v.cluster.removals.length →
            (v.tick time (.removal j)).now = time := by
          intro v hv
          simp only [tick, List.getElem?_eq_getElem hv]
          rfl
        have hnow₁ := htick w hj
        have hnow₂ := htick w' (h.removals ▸ hj)
        obtain ⟨rest, halike', hrest, hrest', hlater⟩ := ih halike (hnow₂.trans hnow₁.symm)
        refine ⟨first ++ rest, halike', ?_, ?_, ?_⟩
        · rw [hrest, hfirst, List.append_assoc]
        · rw [hrest', hfirst', List.append_assoc]
        · intro e he
          rcases List.mem_append.1 he with he | he
          · have := htime' e he
            omega
          · have := hlater e he
            omega
      · exact hnothing h

/-- Clusters that are `Alike` will be, and what their watches have to read later is what they have
and what removals add to it. -/
theorem clusterAt_alike {n : Nat} (h : Cluster.Alike n w.cluster w'.cluster)
    (hnow : w'.now = w.now) (t : Nat) :
    (w'.clusterAt t).pods = (w.clusterAt t).pods ∧
    ∃ news, (w.clusterAt t).queue n = w.cluster.queue n ++ news ∧
      (w'.clusterAt t).queue n = w'.cluster.queue n ++ news ∧ ∀ e ∈ news, w.now ≤ e.1 := by
  -- The budgets may differ, but a common number of ticks is enough for both.
  have hticks : ∀ v : World, v.unattended.budget ≤ w.unattended.budget + w'.unattended.budget →
      v.clusterAt t = (run (fun _ time => time < t + 1)
        (w.unattended.budget + w'.unattended.budget) v.unattended).cluster := by
    intro v hle
    have hbudget := v.unattended.effort_le_budget
    unfold clusterAt upTo runBefore
    rw [run_of_effort_le (isSound_unattended v) _ hbudget (Nat.le_trans hbudget hle)]
  rw [hticks w (Nat.le_add_right _ _), hticks w' (Nat.le_add_left _ _)]
  obtain ⟨news, halike, hnews⟩ := run_unattended_alike h hnow (fun time => time < t + 1)
    (w.unattended.budget + w'.unattended.budget)
  exact ⟨halike.pods, news, hnews⟩

end World

end PodDesk
