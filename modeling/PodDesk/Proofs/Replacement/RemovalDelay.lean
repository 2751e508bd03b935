import PodDesk.Proofs.MapValues
import PodDesk.Proofs.Replacement.Passage

/-!
# A removal that takes its time

The cluster accepts a deletion at once, and the old Pod is gone some time later. A replacement that
is on its own creates the new Pod as soon as its watch announces the removal. When nothing is
announced it does so at its deadline, and when the removal comes after the deadline the creation is
refused and the old Pod is still there.

## Main statements

- `World.Delays.removed`, `World.Awaits.noticed`, `World.Awaits.late`: the events of the wait
- `World.Awaits.ends`: what comes of the creation after them
- `World.recreation_after_delay`: the whole replacement, for every delay
-/

namespace PodDesk

namespace Cluster

variable {c : Cluster} {now delay : Nat} {key : PodKey} {ns : String} {pod : Pod} {silent : Bool}

/-! ## Removals -/

/-- `Cluster.delete` removes the Pod at once when there is no delay. -/
theorem delete_at_once (hstored : c.pods.get? key = some pod) :
    c.delete { removeAfter := 0, silent } now key = (c.remove now key silent, .ok ()) := by
  simp [delete, hstored]

/-- `Cluster.delete` leaves the Pod stored when there is a delay, and puts its removal on the list.
-/
theorem delete_later (hstored : c.pods.get? key = some pod) (hdelay : 0 < delay) :
    c.delete { removeAfter := delay, silent } now key =
      ({ c with removals := c.removals ++ [⟨now + delay, key, silent⟩] }, .ok ()) := by
  have hne : delay ≠ 0 := by omega
  simp [delete, hstored, hne]

theorem delete_accepted (hstored : c.pods.get? key = some pod) :
    (c.delete { removeAfter := delay, silent } now key).2 = .ok () := by
  rcases Nat.eq_zero_or_pos delay with rfl | hdelay
  · rw [delete_at_once hstored]
  · rw [delete_later hstored hdelay]

/-- `Cluster.create` under a name that is taken is refused, and nothing changes. -/
theorem create_taken {wanted : Pod} (hname : wanted.metadata.name = some key.name)
    (hstored : c.pods.get? key = some pod) :
    ∃ cause : ClusterError, cause.isConflict = true ∧
      c.create {} key.ns wanted = (c, .error cause) := by
  refine ⟨.alreadyExists ("pods \"" ++ key.name ++ "\" already exists"), rfl, ?_⟩
  simp [create, hname, hstored]

theorem remove_pods (hstored : c.pods.get? key = some pod) :
    (c.remove now key silent).pods = c.pods.erase key := by
  simp only [remove, hstored]
  split <;> rfl

theorem remove_created : (c.remove now key silent).created = c.created := by
  unfold remove
  split
  · rfl
  · dsimp only
    split <;> rfl

theorem remove_incident {kind : CallKind} :
    (c.remove now key silent).incident kind = c.incident kind := by
  simp only [incident, remove_script]

/-- `Cluster.peek` after an announcement in the namespace of an empty watch. -/
theorem peek_announce {watch : Nat} {item : WatchItem}
    (hwatch : c.watches[watch]? = some ⟨some ns, []⟩) :
    (c.announce now ns item).peek watch = some (now, item) := by
  simp [announce, peek, hwatch]

/-- `Cluster.peek` is not changed by a silent removal. -/
theorem peek_remove_silent (watch : Nat) :
    (c.remove now key true).peek watch = c.peek watch := by
  unfold remove
  split <;> rfl

/-- `Cluster.peek` finds a removal that is announced in an open watch. -/
theorem peek_remove {watch : Nat} (hstored : c.pods.get? key = some pod)
    (hwatch : c.watches[watch]? = some ⟨some key.ns, []⟩) :
    (c.remove now key false).peek watch = some (now, .event (.deleted pod)) := by
  have hremove : c.remove now key false =
      { c with pods := c.pods.erase key }.announce now key.ns (.event (.deleted pod)) := by
    simp [remove, hstored]
  rw [hremove]
  exact peek_announce hwatch

end Cluster

namespace World

variable {w w' w'' : World} {p : Plan} {wait delay ticks : Nat} {stage stage' : Stage}
  {silent : Bool} {old : Pod}

/-! ## The wait -/

/-- `w.Awaits p wait ticks stage w'` says that a replacement that started in `w` has come to `stage`
of its wait in `w'`, in so many ticks. Its deletion was accepted when it started. -/
structure Awaits (w : World) (p : Plan) (wait ticks : Nat) (stage : Stage) (w' : World) : Prop where
  passes : ∃ ds, Passes w.tasks.length (w.spawn p wait).1 ticks ds w' ∧
    deletions ds = [w.now] ∧ creations ds = []
  solo : w'.Solo w.tasks.length
    { plan := p, wait, started := w.now, stage, deadline := w.now + wait,
      watch := some w.cluster.watches.length }

/-- One more tick keeps `Awaits` when nothing is asked for in it, and leads to the stage of the task
after it. -/
theorem Awaits.tick (h : w.Awaits p wait ticks stage w')
    (hpasses : Passes w.tasks.length w' 1 [] w'')
    (hsolo : w''.Solo w.tasks.length
      { plan := p, wait, started := w.now, stage := stage', deadline := w.now + wait,
        watch := some w.cluster.watches.length }) :
    w.Awaits p wait (ticks + 1) stage' w'' where
  passes := by
    obtain ⟨ds, hds, hdeletions, hcreations⟩ := h.passes
    refine ⟨ds, ?_, hdeletions, hcreations⟩
    have hall := hds.trans hpasses
    rwa [List.append_nil] at hall
  solo := hsolo

/-- `w.Delays delay silent` is how the cluster and the script stand when a replacement starts: no
removal is on its way, and no call meets trouble except that the removal takes its time. -/
structure Delays (w : World) (delay : Nat) (silent : Bool) : Prop where
  rest : ∀ t ∈ w.tasks, t.AtRest
  removals : w.cluster.removals = []
  calls : ∀ kind, kind ≠ .delete → w.cluster.incident kind = {}
  delete : w.cluster.incident .delete = { removeAfter := delay, silent }

/-- The cluster when the deletion of the replacement of `p` is answered. -/
def asked (w : World) (p : Plan) : Cluster :=
  (opened w.cluster p.key.ns).advance .delete

theorem asked_pods (w : World) (p : Plan) : (w.asked p).pods = w.cluster.pods := by
  simp only [asked, opened, Cluster.advance]

theorem asked_created (w : World) (p : Plan) : (w.asked p).created = w.cluster.created := by
  simp only [asked, opened, Cluster.advance]

theorem Delays.asked_removals (h : w.Delays delay silent) (p : Plan) :
    (w.asked p).removals = [] := by
  simp only [asked, opened, Cluster.advance, h.removals]

theorem Delays.asked_create (h : w.Delays delay silent) (p : Plan) :
    (w.asked p).incident .create = {} := by
  rw [← h.calls .create nofun]
  simp [asked, opened, Cluster.incident, Cluster.advance]

theorem asked_watch (w : World) (p : Plan) :
    (w.asked p).watches[w.cluster.watches.length]? = some ⟨some p.key.ns, []⟩ := by
  simp [asked, opened, Cluster.advance]

/-- With `Delays`, the wait begins at the time of the start: the deletion is accepted. -/
theorem Delays.awaits (h : w.Delays delay silent) (hstored : w.cluster.pods.get? p.key = some old)
    (hdeadline : w.now + wait < endOfTime) :
    ∃ w', w.Awaits p wait 8 (.waiting true) w' ∧
      w'.cluster = ((w.asked p).delete { removeAfter := delay, silent } w.now p.key).1 ∧
      w'.now = w.now := by
  -- The calls before the deletion take no time.
  obtain ⟨ds, w₁, hpasses₁, hdeletions, hcreations, hsolo₁, hcluster₁, hnow₁⟩ :=
    passes_opening p wait h.rest (by simp [h.removals]) (h.calls .get nofun)
      (h.calls .dryRun nofun) (h.calls .watch nofun) hstored
  have hincident : w₁.cluster.incident .delete = { removeAfter := delay, silent } := by
    rw [hcluster₁]
    exact h.delete
  have hreply : (w₁.cluster.advance .delete).reply { removeAfter := delay, silent } w₁.now
      (.delete p.key (.background p.grace)) =
        (((w.asked p).delete { removeAfter := delay, silent } w.now p.key).1, .done (.ok ()),
          none) := by
    rw [Cluster.reply_delete, hcluster₁, hnow₁]
    exact congrArg (fun answer => (_, Reply.done answer, none))
      (Cluster.delete_accepted (c := w.asked p) hstored)
  have hfirst : ∀ r ∈ w₁.cluster.removals, w₁.now < r.due := by
    rw [hcluster₁]
    show ∀ r ∈ w.cluster.removals, _
    simp [h.removals]
  -- Then the deletion is asked for and answered.
  obtain ⟨w₂, hpasses₂, hsolo₂, hcluster₂, hnow₂⟩ :=
    hsolo₁.passes_exchange rfl rfl nofun hfirst hincident rfl rfl hreply
  refine ⟨w₂, ⟨⟨_, hpasses₁.trans hpasses₂, ?_, ?_⟩, ?_⟩, hcluster₂, hnow₂.trans hnow₁⟩
  · rw [deletions, List.filter_append, List.map_append, ← deletions, hdeletions, hnow₁]
    rfl
  · rw [creations, List.filter_append, ← creations, hcreations]
    rfl
  -- The reply starts the wait, with its deadline.
  · have hheard :
        ({ plan := p, wait, started := w.now, stage := .delete true,
           watch := some w.cluster.watches.length } : Task).hear w₁.now (.done (.ok ())) =
          { plan := p, wait, started := w.now, stage := .waiting true, deadline := w.now + wait,
            watch := some w.cluster.watches.length } := by
      unfold Task.hear
      simp [Stage.next, hnow₁, hdeadline]
    rw [← hheard]
    exact hsolo₂

/-- With `Delays`, the watch has nothing to read while the removal is on its way. -/
theorem Delays.awaits_removal (h : w.Delays delay silent)
    (hstored : w.cluster.pods.get? p.key = some old) (hdeadline : w.now + wait < endOfTime)
    (hdelay : 0 < delay) :
    ∃ w', w.Awaits p wait 8 (.waiting true) w' ∧
      w'.cluster = { w.asked p with removals := [⟨w.now + delay, p.key, silent⟩] } ∧
      w'.cluster.peek w.cluster.watches.length = none ∧ w'.now = w.now := by
  obtain ⟨w', hawaits, hcluster, hnow⟩ := h.awaits hstored hdeadline
  rw [← asked_pods w p] at hstored
  rw [Cluster.delete_later hstored hdelay, h.asked_removals p, List.nil_append] at hcluster
  refine ⟨w', hawaits, hcluster, ?_, hnow⟩
  rw [hcluster]
  simp [Cluster.peek, asked_watch w p]

/-- With `Delays`, the removal takes effect before the deadline if its delay is shorter than the
wait. -/
theorem Delays.removed (h : w.Delays delay silent) (hstored : w.cluster.pods.get? p.key = some old)
    (hdeadline : w.now + wait < endOfTime) (hdelay : delay < wait) :
    ∃ k w', k ≤ 9 ∧ w.Awaits p wait k (.waiting true) w' ∧
      w'.cluster = (w.asked p).remove (w.now + delay) p.key silent ∧ w'.now = w.now + delay := by
  rcases Nat.eq_zero_or_pos delay with rfl | hpos
  -- The deletion removed the Pod at once.
  · obtain ⟨w₁, hawaits, hcluster, hnow⟩ := h.awaits hstored hdeadline
    rw [← asked_pods w p] at hstored
    rw [Cluster.delete_at_once hstored] at hcluster
    exact ⟨8, w₁, by omega, hawaits, hcluster, hnow⟩
  -- The task is due at its deadline, so the removal comes first.
  · obtain ⟨w₁, hawaits, hcluster, hpeek, hnow⟩ := h.awaits_removal hstored hdeadline hpos
    have hremovals : w₁.cluster.removals = [⟨w.now + delay, p.key, silent⟩] := by
      rw [hcluster]
    obtain ⟨w₂, hpasses, hsolo, hcluster₂, hnow₂⟩ :=
      hawaits.solo.passes_removal rfl hremovals (by rw [hnow]; exact Nat.le_add_right _ _) (by
        intro due hdue
        simp only [Task.due?, Option.bind_some, hpeek, Option.some.injEq] at hdue
        dsimp only
        omega)
    have hnone : ({ w.asked p with removals := [] } : Cluster) = w.asked p := by
      rw [← h.asked_removals p]
    rw [hcluster] at hcluster₂
    dsimp only at hcluster₂
    rw [hnone] at hcluster₂
    exact ⟨9, w₂, by omega, hawaits.tick hpasses hsolo, hcluster₂, hnow₂⟩

/-- `w.Gone p c` says that the old Pod is gone in cluster `c`: nothing keeps the new one from being
stored. -/
structure Gone (w : World) (p : Plan) (c : Cluster) : Prop where
  removals : c.removals = []
  create : c.incident .create = {}
  pods : c.pods = w.cluster.pods.erase p.key
  created : c.created = w.cluster.created

theorem Delays.gone (h : w.Delays delay silent) (hstored : w.cluster.pods.get? p.key = some old)
    (now : Nat) (silent' : Bool) : w.Gone p ((w.asked p).remove now p.key silent') where
  removals := (Cluster.remove_removals _ _ _ _).trans (h.asked_removals p)
  create := Cluster.remove_incident.trans (h.asked_create p)
  pods := by
    rw [← asked_pods w p] at hstored ⊢
    exact Cluster.remove_pods hstored
  created := Cluster.remove_created.trans (asked_created w p)

/-- `Cluster.pop` keeps `Gone`. -/
theorem Gone.pop {c : Cluster} (h : w.Gone p c) (watch : Nat) : w.Gone p (c.pop watch) :=
  ⟨h.removals, h.create, h.pods, h.created⟩

/-- A replacement that `Awaits` the removal goes on to create when its watch announces it before the
deadline. -/
theorem Awaits.noticed (h : w.Awaits p wait ticks (.waiting true) w')
    (hname : old.metadata.name = some p.key.name)
    (hpeek : w'.cluster.peek w.cluster.watches.length = some (w'.now, .event (.deleted old)))
    (hnow : w'.now < w.now + wait) (hremovals : w'.cluster.removals = []) :
    ∃ w'', w.Awaits p wait (ticks + 1) (.recreate .deletedEvent) w'' ∧
      w''.cluster = w'.cluster.pop w.cluster.watches.length ∧ w''.now = w'.now := by
  obtain ⟨w'', hpasses, hsolo, hcluster, hnow'⟩ :=
    h.solo.passes_news rfl rfl rfl hpeek hnow (by simp [hremovals])
  have hnext : Stage.onItem p (.event (.deleted old)) = .recreate .deletedEvent := by
    simp [Stage.onItem, hname]
  refine ⟨w'', h.tick hpasses ?_, hcluster, hnow'⟩
  rw [← hnext]
  exact hsolo

/-- With `Delays`, a removal before the deadline that is announced is noticed at once: the watch was
open before the deletion. -/
theorem Delays.noticed (h : w.Delays delay false)
    (hstored : w.cluster.pods.get? p.key = some old) (hname : old.metadata.name = some p.key.name)
    (hdeadline : w.now + wait < endOfTime) (hdelay : delay < wait) :
    ∃ k w', k ≤ 10 ∧ w.Awaits p wait k (.recreate .deletedEvent) w' ∧
      w'.cluster = ((w.asked p).remove (w.now + delay) p.key false).pop w.cluster.watches.length ∧
      w'.now = w.now + delay := by
  obtain ⟨k, w₁, hk, hawaits₁, hcluster₁, hnow₁⟩ := h.removed hstored hdeadline hdelay
  have hgone : w.Gone p w₁.cluster := hcluster₁ ▸ h.gone hstored _ _
  have hpeek : w₁.cluster.peek w.cluster.watches.length =
      some (w₁.now, .event (.deleted old)) := by
    rw [← asked_pods w p] at hstored
    rw [hcluster₁, hnow₁]
    exact Cluster.peek_remove hstored (asked_watch w p)
  obtain ⟨w₂, hawaits₂, hcluster₂, hnow₂⟩ :=
    hawaits₁.noticed hname hpeek (by omega) hgone.removals
  exact ⟨k + 1, w₂, by omega, hawaits₂, hcluster₁ ▸ hcluster₂, hnow₂.trans hnow₁⟩

/-- A replacement that `Awaits` the removal goes on to create at the deadline when nothing is
announced. -/
theorem Awaits.late (h : w.Awaits p wait ticks (.waiting true) w')
    (hpeek : w'.cluster.peek w.cluster.watches.length = none) (hnow : w'.now ≤ w.now + wait)
    (hfirst : ∀ r ∈ w'.cluster.removals, w.now + wait < r.due) :
    ∃ w'', w.Awaits p wait (ticks + 1) (.recreate .timedOut) w'' ∧
      w''.cluster = w'.cluster ∧ w''.now = w.now + wait := by
  obtain ⟨w'', hpasses, hsolo, hcluster, hnow'⟩ :=
    h.solo.passes_deadline rfl rfl hpeek hnow hfirst
  exact ⟨w'', h.tick hpasses hsolo, hcluster, hnow'⟩

/-! ## The whole replacement -/

/-- The Pods of `w` with the wanted one, which the cluster gave a version. -/
def replacedPods (w : World) (p : Plan) : SortedMap PodKey Pod :=
  w.cluster.pods.insert p.key
    { p.pod with
        metadata := { p.pod.metadata with
          resourceVersion := some (toString (w.cluster.created + 1)) } }

/-- `Ends start i p outcome deleted recreated pods` is how a replacement ends: what comes of it,
when its deletion was accepted, when it asked for the new Pod, and the Pods that are stored then. -/
structure Ends (start : World) (i : Nat) (p : Plan) (outcome : Outcome) (deleted recreated : Nat)
    (pods : SortedMap PodKey Pod) : Prop where
  result : (start.runTask i none).tasks[i]?.bind (·.result?) = some (.ok outcome)
  deletion : deletions (start.taskDeeds i) = [deleted]
  creation : creations (start.taskDeeds i) = [(recreated, .asks (.create p.key.ns p.pod))]
  pods : (start.runTask i none).cluster.pods = pods

/-- A replacement that has waited `Ends` with the answer to its creation. -/
theorem Awaits.ends {signal : Signal} {c : Cluster} {answer : Except ClusterError Unit}
    (h : w.Awaits p wait ticks (.recreate signal) w') (hticks : ticks + 2 ≤ 24)
    (hfirst : ∀ r ∈ w'.cluster.removals, w'.now < r.due)
    (hincident : w'.cluster.incident .create = {})
    (hanswer : (w'.cluster.advance .create).create {} p.key.ns p.pod = (c, answer)) :
    Ends (w.spawn p wait).1 w.tasks.length p (p.outcome (some signal) answer) w.now w'.now
      c.pods := by
  obtain ⟨ds, hpasses, hdeletions, hcreations⟩ := h.passes
  have hlast : Stage.recreate signal = .last (some signal) := rfl
  obtain ⟨w'', hpasses', hsolo, hcluster, -⟩ :=
    h.solo.passes_creation rfl hlast hfirst hincident hanswer
  have hall := hpasses.trans hpasses'
  -- The replacement is over within its budget, so these ticks are all of its run.
  have hbudget := Nat.le_trans hticks (budget_spawn w p wait)
  have hover : w''.isOver w.tasks.length = true := by
    rw [hsolo.isOver]
    rfl
  have hrun := runTask_of_reaches hall.reaches hbudget hover
  have hdeeds := taskDeeds_of_passes hall hbudget hover
  refine ⟨?_, ?_, ?_, ?_⟩
  · rw [hrun]
    exact hsolo.result rfl rfl
  · rw [hdeeds, deletions, List.filter_append, List.map_append, ← deletions, hdeletions]
    rfl
  · rw [hdeeds, creations, List.filter_append, ← creations, hcreations]
    rfl
  · rw [hrun, hcluster]

/-- A replacement that has waited `Ends` with the new Pod stored when the old one is `Gone`. -/
theorem Awaits.ends_replaced {signal : Signal} (h : w.Awaits p wait ticks (.recreate signal) w')
    (hticks : ticks + 2 ≤ 24) (hgone : w.Gone p w'.cluster) :
    Ends (w.spawn p wait).1 w.tasks.length p (.ok ⟨p.key, some signal⟩) w.now w'.now
      (w.replacedPods p) := by
  have hfree : w'.cluster.pods.get? p.key = none := by
    rw [hgone.pods]
    exact SortedMap.get?_erase_self _ _
  have hends := h.ends hticks (by simp [hgone.removals]) hgone.create
    (Cluster.create_plain (w'.cluster.advance .create) p.key p.pod rfl hfree)
  have hstored : w'.cluster.pods.insert p.key
      (Cluster.stored p.key.ns (w'.cluster.created + 1) p.pod) = w.replacedPods p := by
    rw [hgone.pods, hgone.created, SortedMap.insert_erase]
    rfl
  rw [← hstored]
  exact hends

/-- With `Delays`, a replacement whose removal is announced before the deadline `Ends` at that time.
-/
theorem Delays.ends_announced (h : w.Delays delay false)
    (hstored : w.cluster.pods.get? p.key = some old) (hname : old.metadata.name = some p.key.name)
    (hdeadline : w.now + wait < endOfTime) (hdelay : delay < wait) :
    Ends (w.spawn p wait).1 w.tasks.length p (.ok ⟨p.key, some .deletedEvent⟩) w.now
      (w.now + delay) (w.replacedPods p) := by
  obtain ⟨k, w', hk, hawaits, hcluster, hnow⟩ := h.noticed hstored hname hdeadline hdelay
  have hgone : w.Gone p w'.cluster := hcluster ▸ (h.gone hstored _ _).pop _
  have hends := hawaits.ends_replaced (by omega) hgone
  rwa [hnow] at hends

/-- With `Delays`, a replacement whose removal comes before the deadline without notice `Ends` at
the deadline. -/
theorem Delays.ends_silent (h : w.Delays delay true)
    (hstored : w.cluster.pods.get? p.key = some old) (hdeadline : w.now + wait < endOfTime)
    (hdelay : delay < wait) :
    Ends (w.spawn p wait).1 w.tasks.length p (.ok ⟨p.key, some .timedOut⟩) w.now (w.now + wait)
      (w.replacedPods p) := by
  obtain ⟨k, w₁, hk, hawaits₁, hcluster₁, hnow₁⟩ := h.removed hstored hdeadline hdelay
  have hgone : w.Gone p w₁.cluster := hcluster₁ ▸ h.gone hstored _ _
  -- The watch was opened before the deletion and is still empty.
  have hpeek : w₁.cluster.peek w.cluster.watches.length = none := by
    rw [hcluster₁, Cluster.peek_remove_silent, Cluster.peek, asked_watch]
    rfl
  obtain ⟨w₂, hawaits₂, hcluster₂, hnow₂⟩ :=
    hawaits₁.late hpeek (by omega) (by simp [hgone.removals])
  have hends := hawaits₂.ends_replaced (by omega) (hcluster₂ ▸ hgone)
  rwa [hnow₂] at hends

/-- With `Delays`, a replacement whose removal comes after the deadline `Ends` with a refusal. -/
theorem Delays.ends_refused (h : w.Delays delay silent)
    (hstored : w.cluster.pods.get? p.key = some old) (hdeadline : w.now + wait < endOfTime)
    (hdelay : wait < delay) :
    ∃ cause : ClusterError, cause.isConflict = true ∧
      Ends (w.spawn p wait).1 w.tasks.length p (.error ⟨p.key, .recreate, cause⟩) w.now
        (w.now + wait) w.cluster.pods := by
  obtain ⟨w₁, hawaits₁, hcluster₁, hpeek, hnow₁⟩ :=
    h.awaits_removal hstored hdeadline (by omega)
  have hfirst : ∀ r ∈ w₁.cluster.removals, w.now + wait < r.due := by
    simp only [hcluster₁, List.forall_mem_singleton]
    omega
  obtain ⟨w₂, hawaits₂, hcluster₂, hnow₂⟩ := hawaits₁.late hpeek (by omega) hfirst
  -- The old Pod is still there, so its name is taken.
  have hname : p.pod.metadata.name = some p.key.name := rfl
  have hpods : w₂.cluster.pods = w.cluster.pods := by
    rw [hcluster₂, hcluster₁]
    exact asked_pods w p
  have htaken : (w₂.cluster.advance .create).pods.get? p.key = some old := by
    rw [← hpods] at hstored
    exact hstored
  obtain ⟨cause, hconflict, hrefused⟩ := Cluster.create_taken hname htaken
  have hends := hawaits₂.ends (by omega) (by rwa [hnow₂, hcluster₂]) (by
    rw [hcluster₂, hcluster₁]
    exact h.asked_create p) hrefused
  refine ⟨cause, hconflict, ?_⟩
  rw [hnow₂] at hends
  rw [← hpods]
  exact hends

/-- A replacement whose old Pod is gone some time after the deletion. Before the deadline, the new
Pod is asked for as soon as the removal is announced, or at the deadline when it is not; it is then
stored. After the deadline, the creation is refused and the old Pod stays as it is. -/
theorem recreation_after_delay (w : World) (p : Plan) (wait delay : Nat) (silent : Bool)
    (old : Pod) (h : w.Delays delay silent) (hstored : w.cluster.pods.get? p.key = some old)
    (hname : old.metadata.name = some p.key.name) (hdeadline : w.now + wait < endOfTime) :
    let start := (w.spawn p wait).1
    let i := (w.spawn p wait).2
    (delay < wait → silent = false →
      Ends start i p (.ok ⟨p.key, some .deletedEvent⟩) w.now (w.now + delay)
        (w.replacedPods p)) ∧
    (delay < wait → silent = true →
      Ends start i p (.ok ⟨p.key, some .timedOut⟩) w.now (w.now + wait)
        (w.replacedPods p)) ∧
    (wait < delay →
      ∃ cause : ClusterError, cause.isConflict = true ∧
        Ends start i p (.error ⟨p.key, .recreate, cause⟩) w.now (w.now + wait)
          w.cluster.pods) := by
  refine ⟨?_, ?_, ?_⟩
  · rintro hdelay rfl
    exact h.ends_announced hstored hname hdeadline hdelay
  · rintro hdelay rfl
    exact h.ends_silent hstored hdeadline hdelay
  · exact h.ends_refused hstored hdeadline

/-- A cluster with a Pod that goes `delay` milliseconds after its deletion. -/
def slowWorld (delay : Nat) (silent : Bool) : World where
  now := 1000
  cluster := {
    pods := SortedMap.empty.insert ⟨"prod", "web-1"⟩
      { metadata := { name := some "web-1", ns := some "prod", resourceVersion := some "7" } }
    script := fun kind =>
      if kind = .delete then [some { removeAfter := delay, silent }] else [] }

/-- A new image for the Pod in `slowWorld`. -/
def webPlan : Plan where
  request := {
    base := { name := "web-1", ns := "prod" }
    containers := [{ name := "main", image := "nginx:2" }] }
  grace := 30

theorem slowWorld_delays (delay : Nat) (silent : Bool) :
    (slowWorld delay silent).Delays delay silent where
  rest := by simp [slowWorld]
  removals := rfl
  calls kind hkind := by simp [Cluster.incident, slowWorld, hkind]
  delete := rfl

/-- `slowWorld` with five seconds to wait: an announced removal after one and a half, a silent one
after three, and one after six. -/
theorem slowWorld_ends :
    Ends ((slowWorld 1500 false).spawn webPlan 5000).1 0 webPlan
        (.ok ⟨webPlan.key, some .deletedEvent⟩) 1000 2500
        ((slowWorld 1500 false).replacedPods webPlan) ∧
      Ends ((slowWorld 3000 true).spawn webPlan 5000).1 0 webPlan
        (.ok ⟨webPlan.key, some .timedOut⟩) 1000 6000
        ((slowWorld 3000 true).replacedPods webPlan) ∧
      ∃ cause : ClusterError, cause.isConflict = true ∧
        Ends ((slowWorld 6000 false).spawn webPlan 5000).1 0 webPlan
          (.error ⟨webPlan.key, .recreate, cause⟩) 1000 6000
          (slowWorld 6000 false).cluster.pods := by
  have hdeadline : 1000 + 5000 < endOfTime := by decide
  have hannounced := recreation_after_delay (slowWorld 1500 false) webPlan 5000 1500 false _
    (slowWorld_delays _ _) rfl rfl hdeadline
  have hsilent := recreation_after_delay (slowWorld 3000 true) webPlan 5000 3000 true _
    (slowWorld_delays _ _) rfl rfl hdeadline
  have hrefused := recreation_after_delay (slowWorld 6000 false) webPlan 5000 6000 false _
    (slowWorld_delays _ _) rfl rfl hdeadline
  exact ⟨hannounced.1 (by decide) rfl, hsilent.2.1 (by decide) rfl, hrefused.2.2 (by decide)⟩

end World

end PodDesk
