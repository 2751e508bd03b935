import PodDesk.Proofs.Replacement.Turn

/-!
# The effort that is left in a world

A run of a world makes as many ticks as its budget allows, so it does what is asked of it only if
the budget suffices. The effort of a world bounds the ticks that are left: what the stages of its
tasks still need, three ticks for every item that a task may read, and for every removal one tick
and an item for every task. Every tick lowers it, and the budget covers it. So a run ends because
nothing more is wanted of it, and never for want of ticks.

## Main statements

- `World.IsSound.tick`: a tick keeps a world sound and lowers its effort
- `World.effort_le_budget`: the budget covers the effort
- `World.IsSound.run`: a run keeps a world sound
- `World.next?_run`: what is left after a run is not wanted
- `World.run_of_effort_le`: more ticks than the effort change nothing about a run
- `World.run_run`: a run can be stopped early and taken up again
-/

namespace PodDesk

/-- `s.effort removal` bounds the ticks that stage `s` needs, up to the end, when no watch delivers
anything. A deletion counts `removal` ticks for the removal that it may bring about. -/
def Stage.effort (removal : Nat) : Stage → Nat
  | lookup => 11 + removal
  | dryRun _ => 9 + removal
  | watch _ => 7 + removal
  | delete _ => 5 + removal
  | probing => 5
  | waiting _ => 3
  | create => 2
  | recreate _ => 2
  | finished _ => 0

/-- The removals that `Cluster.reply` may bring about for a call. -/
def Call.removalCount : Call → Nat
  | .delete _ _ => 1
  | _ => 0

/-- The ticks that `t` needs for its stages. A call that was made counts one less. -/
def Task.stageEffort (removal : Nat) (t : Task) : Nat :=
  match t.activity with
  | .ready => t.stage.effort removal
  | .calling _ _ => t.stage.effort removal - 1
  | .crashed _ => 0

/-- The ticks that `t` needs for its stages and for the items that it may read. -/
def Task.effort (c : Cluster) (removal : Nat) (t : Task) : Nat :=
  t.stageEffort removal + 3 * t.itemCount c

/-- What `c` may still cause: removals, and items for watches that are not open yet. -/
def Cluster.effort (removal : Nat) (c : Cluster) : Nat :=
  c.removals.length * removal + 3 * World.scriptedItems c

/-- `t.IsSound c` says that `t` is at rest, or that it runs and the watch that it reads is open in
`c`. -/
def Task.IsSound (c : Cluster) (t : Task) : Prop :=
  t.AtRest ∨ (t.Runs ∧ ∀ n, t.watch = some n → n < c.watches.length)

namespace World

/-- The ticks for a removal: its own, and three for every task that may read about it. -/
def removalEffort (w : World) : Nat :=
  1 + 3 * w.tasks.length

/-- `w.effort` bounds the ticks that are left in `w`. -/
def effort (w : World) : Nat :=
  total (Task.effort w.cluster w.removalEffort) w.tasks + w.cluster.effort w.removalEffort

/-- A world `IsSound` when all its tasks are. -/
def IsSound (w : World) : Prop :=
  ∀ t ∈ w.tasks, t.IsSound w.cluster

end World

namespace Stage

variable (removal : Nat) (p : Plan) (s : Stage)

/-- `Stage.effort` of a stage that makes a call is at least two: one tick for the call, one for its
answer. -/
theorem two_le_effort (h : (s.call? p).isSome) : 2 ≤ s.effort removal := by
  cases s <;> simp [call?] at h <;> simp only [effort] <;> omega

/-- `Stage.next` with the answer to a call leads to a stage that needs two ticks less, and less by
the removal that the call may bring about. -/
theorem effort_next_le (reply : Reply) {call : Call} (hcall : s.call? p = some call)
    (hears : s.Hears reply) :
    (s.next p reply).effort removal + call.removalCount * removal + 2 ≤ s.effort removal := by
  cases s <;> simp only [call?, Option.some.injEq, reduceCtorEq] at hcall <;> subst hcall <;>
    rcases reply with (_ | (_ | _)) | (_ | ⟨⟩) | _ | _ <;>
    first
    | exact hears.elim
    | (simp only [next, effort, Call.removalCount]; omega)

/-- `Stage.onItem` leads at most to a lookup. -/
theorem effort_onItem_le (item : WatchItem) : (onItem p item).effort removal ≤ 5 := by
  unfold onItem
  repeat' split
  all_goals simp [effort]

end Stage

namespace Task

variable {t : Task} {c : Cluster} (removal : Nat)

/-- `Task.hear` leaves a task that needs at most what its new stage needs. -/
theorem stageEffort_hear_le (t : Task) (now : Nat) (reply : Reply) :
    (t.hear now reply).stageEffort removal ≤ (t.stage.next t.plan reply).effort removal := by
  unfold hear
  dsimp only
  -- Only a wait that starts is special: beyond the end of time it crashes and needs nothing more.
  split
  · rename_i hnext
    split
    · exact Nat.le_refl _
    · exact Nat.zero_le _
  · exact Nat.le_refl _

/-- `Task.itemCount` of a task that waits for no call is at most what waits in its watch. -/
theorem itemCount_le_unread (h : ∀ due incident, t.activity ≠ .calling due incident) :
    t.itemCount c ≤ c.unread t.watch := by
  unfold itemCount
  split
  · exact Nat.zero_le _
  · split
    · rename_i hactivity _
      exact absurd hactivity (h _ _)
    · exact Nat.le_refl _

/-- `Task.itemCount` of a task that runs is at least what waits in its watch. -/
theorem unread_le_itemCount (hruns : t.Runs) : c.unread t.watch ≤ t.itemCount c := by
  rw [itemCount, isOver_eq_false_of_runs hruns]
  exact Nat.le_add_right _ _

theorem itemCount_of_atRest (h : t.AtRest) : t.itemCount c = 0 := by
  rw [itemCount, isOver_of_atRest h, if_pos rfl]

theorem effort_of_ready (hruns : t.Runs) (h : t.activity = .ready) :
    t.effort c removal = t.stage.effort removal + 3 * c.unread t.watch := by
  simp [effort, stageEffort, itemCount, isOver_eq_false_of_runs hruns, h]

theorem effort_of_calling {due : Nat} {incident : Incident}
    (h : t.activity = .calling due incident) :
    t.effort c removal = t.stage.effort removal - 1 + 3 * t.itemCount c := by
  simp [effort, stageEffort, h]

/-- `Task.hear` leaves a task that needs at most what its new stage needs, and three ticks for every
item that waits in its watch. -/
theorem effort_hear_le (t : Task) (watch : Option Nat) (now : Nat) (reply : Reply) (c : Cluster) :
    (({ t with watch } : Task).hear now reply).effort c removal ≤
      (t.stage.next t.plan reply).effort removal + 3 * c.unread watch := by
  have hstage := stageEffort_hear_le removal { t with watch } now reply
  have hitems := itemCount_le_unread (c := c) (hear_not_calling { t with watch } now reply)
  rw [hear_watch] at hitems
  exact Nat.add_le_add hstage (Nat.mul_le_mul_left 3 hitems)

/-- `Task.stageEffort` is greatest for a lookup that is still to be made. -/
theorem stageEffort_le (t : Task) : t.stageEffort removal ≤ 11 + removal := by
  have hstage : t.stage.effort removal ≤ 11 + removal := by
    cases t.stage <;> simp only [Stage.effort] <;> omega
  unfold stageEffort
  split <;> omega

end Task

namespace Cluster

variable {c c' : Cluster} {watch : Option Nat}

/-! ## What the operations of the cluster cost -/

/-- `c.Goes c' news` says that the cluster went on from `c` to `c'`: in open watches there are at
most `news` more items, and nothing else of the script than before. -/
structure Goes (c c' : Cluster) (news : Nat) : Prop where
  watches : c.watches.length ≤ c'.watches.length
  unread : ∀ n < c.watches.length, c'.unread (some n) ≤ c.unread (some n) + news
  script : c'.script .watch = c.script .watch

theorem Goes.refl (c : Cluster) : c.Goes c 0 where
  watches := Nat.le_refl _
  unread _ _ := Nat.le_refl _
  script := rfl

theorem Goes.scriptedItems {news : Nat} (h : c.Goes c' news) :
    World.scriptedItems c' = World.scriptedItems c := by
  unfold World.scriptedItems
  rw [h.script]

/-- With `Goes`, a watch that is open, or none, gets so many `news` at most. -/
theorem Goes.unread_le {news : Nat} (h : c.Goes c' news)
    (hopen : ∀ n, watch = some n → n < c.watches.length) :
    c'.unread watch ≤ c.unread watch + news := by
  cases watch with
  | none => exact Nat.zero_le _
  | some n => exact h.unread n (hopen n rfl)

/-- A cluster with the same watches and the same script `Goes` without news. -/
theorem goes_of_watches (hwatches : c'.watches = c.watches)
    (hscript : c'.script .watch = c.script .watch) : c.Goes c' 0 where
  watches := Nat.le_of_eq (by rw [hwatches])
  unread n _ := by simp [unread, hwatches]
  script := hscript

/-- `Cluster.announce` adds at most one item to a watch. -/
theorem goes_announce (c : Cluster) (now : Nat) (ns : String) (item : WatchItem) :
    c.Goes (c.announce now ns item) 1 where
  watches := by simp [announce]
  unread n hn := by
    unfold unread announce
    simp only [Option.bind_some, List.getElem?_map, List.getElem?_eq_getElem hn, Option.map_some,
      Option.getD_some]
    split <;> simp
  script := rfl

/-- `Cluster.remove` adds at most one item to a watch. -/
theorem goes_remove (c : Cluster) (now : Nat) (key : PodKey) (silent : Bool) :
    c.Goes (c.remove now key silent) 1 := by
  have hnothing : ∀ {c' : Cluster}, c.Goes c' 0 → c.Goes c' 1 := fun h =>
    { h with unread := fun n hn => Nat.le_succ_of_le (h.unread n hn) }
  unfold remove
  split
  · exact hnothing (.refl c)
  · dsimp only
    split
    · exact hnothing (goes_of_watches rfl rfl)
    · have h := goes_announce { c with pods := c.pods.erase key } now
      exact ⟨(h _ _).watches, (h _ _).unread, (h _ _).script⟩

/-- `Cluster.pop` leaves one item less in the watch that is read. -/
theorem unread_pop {n : Nat} {entry : Nat × WatchItem} (h : c.peek n = some entry) :
    (c.pop n).unread (some n) + 1 = c.unread (some n) := by
  obtain ⟨w, hw, hhead⟩ := Option.bind_eq_some_iff.1 h
  obtain ⟨rest, hpending⟩ := List.head?_eq_some_iff.1 hhead
  unfold unread pop
  simp [List.getElem?_modify, hw, hpending]

theorem goes_pop (c : Cluster) (n : Nat) : c.Goes (c.pop n) 0 where
  watches := by simp [pop]
  unread m hm := by
    unfold unread pop
    simp only [Option.bind_some, List.getElem?_modify, List.getElem?_eq_getElem hm,
      Option.map_some, Option.getD_some]
    split <;> simp
  script := rfl

private theorem length_schedule (start : Nat) (items : List ScriptedItem) :
    (schedule start items).length = items.length := by
  induction items generalizing start with
  | nil => rfl
  | cons s items ih => simp [schedule, ih]

/-- `Cluster.openWatch` leaves the other watches alone. -/
private theorem goes_openWatch (c : Cluster) (i : Incident) (now : Nat) (ns : String) :
    c.Goes (c.openWatch i now ns).1 0 := by
  unfold openWatch
  cases i.error with
  | some e => exact .refl c
  | none =>
    refine ⟨by simp, ?_, rfl⟩
    intro n hn
    simp [unread, List.getElem?_append_left hn]

/-- A watch that `Cluster.reply` opens has the items that the incident brings. -/
theorem unread_reply_watch_le (c : Cluster) (i : Incident) (now : Nat) (watch : Option Nat)
    (ns selector version : String) :
    (c.reply i now (.watch ns selector version)).1.unread
        ((c.reply i now (.watch ns selector version)).2.2.or watch) ≤
      c.unread watch + i.itemCount := by
  unfold reply openWatch Incident.itemCount
  cases i.error with
  | some e => exact Nat.le_add_right _ _
  | none =>
    cases i.items with
    | none => simp [unread]
    | some items => simp [unread, length_schedule]

theorem reply_watch_fst (c : Cluster) (i : Incident) (now : Nat) (ns selector version : String) :
    (c.reply i now (.watch ns selector version)).1 = (c.openWatch i now ns).1 := by
  simp only [reply]
  split <;> rename_i h <;> rw [h]

/-- The watch that `Cluster.reply` opens is open. -/
theorem reply_opens (c : Cluster) (i : Incident) (now : Nat) (call : Call) (n : Nat)
    (h : (c.reply i now call).2.2 = some n) : n < (c.reply i now call).1.watches.length := by
  cases call with
  | watch ns selector version =>
    unfold reply openWatch at h ⊢
    cases herror : i.error with
    | some e => simp [herror] at h
    | none =>
      simp only [herror, Option.some.injEq] at h ⊢
      simp [← h]
  | _ => simp [reply] at h

/-- What `Cluster.reply` costs: news in the open watches, or a removal for later. -/
theorem goes_reply (c : Cluster) (i : Incident) (now : Nat) (call : Call) :
    ∃ news ≤ 1, c.Goes (c.reply i now call).1 news ∧
      (c.reply i now call).1.removals.length + news ≤ c.removals.length + call.removalCount := by
  cases call with
  -- A creation changes the Pods at most.
  | create ns pod =>
    refine ⟨0, Nat.zero_le _, ?_, ?_⟩ <;> rw [reply_create] <;> unfold create <;> dsimp only <;>
      split <;> try split
    all_goals first | exact .refl c | exact goes_of_watches rfl rfl | exact Nat.le_refl _
  | delete key params =>
    have hnothing : ∃ news ≤ 1, c.Goes c news ∧
        c.removals.length + news ≤ c.removals.length + 1 :=
      ⟨0, Nat.zero_le _, .refl c, Nat.le_succ _⟩
    rw [reply_delete]
    unfold delete
    split
    · exact hnothing
    · split
      · exact hnothing
      · split
        · exact hnothing
        · split
          -- A removal that happens at once is announced, and one for later is put on the list;
          -- neither does both.
          · refine ⟨1, Nat.le_refl _, goes_remove c now key i.silent, ?_⟩
            simp [Call.removalCount]
          · refine ⟨0, Nat.zero_le _, goes_of_watches rfl rfl, ?_⟩
            simp [Call.removalCount]
  | watch ns selector version =>
    rw [reply_watch_fst]
    refine ⟨0, Nat.zero_le _, goes_openWatch c i now ns, ?_⟩
    unfold openWatch
    cases i.error <;> exact Nat.le_refl _
  | _ => exact ⟨0, Nat.zero_le _, .refl c, Nat.le_refl _⟩

/-- `Cluster.advance` takes an incident out of the script, and its items go to the call that meets
it. -/
theorem scriptedItems_advance (c : Cluster) (kind : CallKind) :
    World.scriptedItems (c.advance kind) +
        (if kind = .watch then (c.incident kind).itemCount else 0) =
      World.scriptedItems c := by
  unfold World.scriptedItems advance incident
  -- Only the incidents of watches are counted.
  split
  · rename_i hkind
    subst hkind
    cases hscript : c.script .watch with
    | nil => simp [hscript, Incident.itemCount]
    | cons head rest =>
      simp only [hscript, if_pos, List.tail_cons, World.total, List.head?_cons,
        Option.join_some]
      cases head <;> simp [Incident.itemCount, Nat.add_comm]
  · rename_i hkind
    simp [Ne.symm hkind]

end Cluster

/-- A sound task for which `Task.due?` gives a time runs. -/
theorem Task.IsSound.runs_of_due {c c' : Cluster} {t : Task} {due now : Nat} (h : t.IsSound c)
    (hdue : t.due? c' now = some due) : t.Runs := by
  refine (h.resolve_left fun hrest => ?_).1
  simp [due?_of_atRest hrest] at hdue

/-- A sound task that is not over runs. -/
theorem Task.IsSound.runs_of_open {c : Cluster} {t : Task} (h : t.IsSound c)
    (hopen : t.isOver = false) : t.Runs := by
  refine (h.resolve_left fun hrest => ?_).1
  simp [isOver_of_atRest hrest] at hopen

/-- A task stays sound while the cluster `Goes` on. -/
theorem Task.IsSound.goes {c c' : Cluster} {news : Nat} {t : Task} (h : t.IsSound c)
    (hgoes : c.Goes c' news) : t.IsSound c' :=
  h.imp_right fun ⟨hruns, hopen⟩ =>
    ⟨hruns, fun n hn => Nat.lt_of_lt_of_le (hopen n hn) hgoes.watches⟩

namespace World

variable {w : World} {i : Nat} {t u : Task} {d : Cluster}

/-! ## Sums over the tasks -/

variable {before after : Task → Nat} {more : Nat} {tasks : List Task}

/-- When every task needs at most `more` than before, the sum grows by no more than that for each.
-/
private theorem total_le (hmore : ∀ v ∈ tasks, after v ≤ before v + more) :
    total after tasks ≤ total before tasks + more * tasks.length := by
  induction tasks with
  | nil => simp [total]
  | cons v rest ih =>
    obtain ⟨hu, hrest⟩ := List.forall_mem_cons.1 hmore
    have := ih hrest
    simp only [total, List.length_cons, Nat.mul_succ]
    omega

/-- When task `t` is exchanged for `u` and the others need at most `more` than before, the sum
changes by the difference of the one and by what the others need more. -/
private theorem total_set_le (hi : tasks[i]? = some t)
    (hmore : ∀ v ∈ tasks, after v ≤ before v + more) :
    total after (tasks.set i u) + before t + more ≤
      total before tasks + after u + more * tasks.length := by
  induction tasks generalizing i with
  | nil => simp at hi
  | cons v rest ih =>
    obtain ⟨hu, hrest⟩ := List.forall_mem_cons.1 hmore
    cases i with
    -- The task that changes is the first one, or stands further on.
    | zero =>
      obtain rfl : v = t := by simpa using hi
      have := total_le hrest
      simp only [List.set_cons_zero, total, List.length_cons, Nat.mul_succ]
      omega
    | succ i =>
      have := ih (by simpa using hi) hrest
      simp only [List.set_cons_succ, total, List.length_cons, Nat.mul_succ]
      omega

/-- While the cluster `Goes` on, every other task needs three ticks more for each of the news, and
no more. -/
private theorem effort_le_of_goes {news : Nat} (removal : Nat) (hsound : w.IsSound)
    (hgoes : w.cluster.Goes d news) :
    ∀ v ∈ w.tasks, v.effort d removal ≤ v.effort w.cluster removal + 3 * news := by
  intro v hu
  unfold Task.effort
  rcases hsound v hu with hrest | ⟨hruns, hopen⟩
  · rw [Task.itemCount_of_atRest hrest]
    omega
  · have hunread := hgoes.unread_le hopen
    simp only [Task.itemCount, Task.isOver_eq_false_of_runs hruns, Bool.false_eq_true, if_false]
    omega

/-- `World.putTask` lowers the effort when the cluster and the task need less after it, counting
what the other tasks may read because of it. -/
private theorem effort_putTask_lt {news : Nat} (hsound : w.IsSound) (ht : w.tasks[i]? = some t)
    (hgoes : w.cluster.Goes d news)
    (hless : u.effort d w.removalEffort + d.effort w.removalEffort +
        3 * news * w.tasks.length <
      t.effort w.cluster w.removalEffort + w.cluster.effort w.removalEffort + 3 * news) :
    ({ w with cluster := d }.putTask i u).effort < w.effort := by
  have hsum := total_set_le (u := u) ht (effort_le_of_goes w.removalEffort hsound hgoes)
  have hremoval : ({ w with cluster := d }.putTask i u).removalEffort = w.removalEffort := by
    simp [removalEffort]
  unfold effort
  rw [hremoval, putTask_tasks, putTask_cluster]
  dsimp only
  omega

/-! ## Every tick lowers the effort -/

/-- What a task may read after `Cluster.reply` to its call: the items that the call brought, and the
news. -/
private theorem unread_reply_le {incident : Incident} {due news : Nat} {call : Call}
    (hruns : t.Runs) (hopen : ∀ n, t.watch = some n → n < w.cluster.watches.length)
    (hactivity : t.activity = .calling due incident) (hcall : t.stage.call? t.plan = some call)
    (hgoes : w.cluster.Goes (w.cluster.reply incident w.now call).1 news) :
    (w.cluster.reply incident w.now call).1.unread
        ((w.cluster.reply incident w.now call).2.2.or t.watch) ≤ t.itemCount w.cluster + news := by
  have hold := hgoes.unread_le hopen
  have hread := Task.unread_le_itemCount (c := w.cluster) hruns
  cases call with
  | watch ns selector version =>
    -- The items of the call counted for the task already, and are in its watch now.
    have hitems : t.itemCount w.cluster = w.cluster.unread t.watch + incident.itemCount := by
      cases hs : t.stage <;> simp [hs, Stage.call?] at hcall
      simp [Task.itemCount, Task.isOver_eq_false_of_runs hruns, hactivity, hs]
    have hopened := w.cluster.unread_reply_watch_le incident w.now t.watch ns selector version
    omega
  | create ns pod => exact Nat.le_trans hold (Nat.add_le_add_right hread _)
  | delete key params => exact Nat.le_trans hold (Nat.add_le_add_right hread _)
  | _ => exact Nat.le_add_right_of_le hread

/-- `World.effort` falls with the answer to a call. -/
private theorem effort_answer_lt {incident : Incident} {due : Nat} {call : Call}
    (hsound : w.IsSound) (ht : w.tasks[i]? = some t) (hruns : t.Runs)
    (hopen : ∀ n, t.watch = some n → n < w.cluster.watches.length)
    (hactivity : t.activity = .calling due incident) (hcall : t.stage.call? t.plan = some call)
    (hears : t.stage.Hears (w.cluster.reply incident w.now call).2.1) :
    ({ w with cluster := (w.cluster.reply incident w.now call).1 }.putTask i
      (({ t with watch := (w.cluster.reply incident w.now call).2.2.or t.watch } : Task).hear w.now
        (w.cluster.reply incident w.now call).2.1)).effort < w.effort := by
  obtain ⟨news, hnews, hgoes, hremovals⟩ := w.cluster.goes_reply incident w.now call
  apply effort_putTask_lt hsound ht hgoes
  have hhear := Task.effort_hear_le w.removalEffort t
    ((w.cluster.reply incident w.now call).2.2.or t.watch) w.now
    (w.cluster.reply incident w.now call).2.1 (w.cluster.reply incident w.now call).1
  have hstage := Stage.effort_next_le w.removalEffort t.plan t.stage _ hcall hears
  have hread := unread_reply_le hruns hopen hactivity hcall hgoes
  have hbefore := Task.effort_of_calling (c := w.cluster) w.removalEffort hactivity
  -- A removal that happened at once was announced to every task, and counts for that.
  have hcluster : (w.cluster.reply incident w.now call).1.effort w.removalEffort +
      news * w.removalEffort ≤
        w.cluster.effort w.removalEffort + call.removalCount * w.removalEffort := by
    have hmul := Nat.mul_le_mul_right w.removalEffort hremovals
    rw [Nat.add_mul, Nat.add_mul] at hmul
    unfold Cluster.effort
    rw [hgoes.scriptedItems]
    omega
  have hothers : 3 * news * w.tasks.length ≤ news * w.removalEffort := by
    rw [Nat.mul_comm 3 news, Nat.mul_assoc]
    exact Nat.mul_le_mul_left news (Nat.le_add_left _ _)
  omega

/-- `World.effort` falls when a task hears a reply. -/
theorem effort_hearing_lt {c : Cluster} {watch : Option Nat} {reply : Reply} (hsound : w.IsSound)
    (ht : w.tasks[i]? = some t) (hruns : t.Runs)
    (hopen : ∀ n, t.watch = some n → n < w.cluster.watches.length)
    (h : w.hearing? t = some (c, watch, reply)) :
    ({ w with cluster := c }.putTask i ({ t with watch }.hear w.now reply)).effort < w.effort := by
  have hears := hears_of_hearing h
  have hhear := Task.effort_hear_le w.removalEffort t watch w.now reply c
  cases heard_of_hearing h with
  | answer hactivity _ hcall => exact effort_answer_lt hsound ht hruns hopen hactivity hcall hears
  | late hactivity hstage =>
    -- A lookup that the deadline cuts off leaves the last creation, which needs less.
    apply effort_putTask_lt hsound ht (.refl _)
    have hread := Task.unread_le_itemCount (c := w.cluster) hruns
    rw [Task.effort_of_calling w.removalEffort hactivity]
    simp only [hstage, Stage.next, Stage.effort] at hhear ⊢
    omega
  | @deadline watching hactivity hstage =>
    -- So does a wait.
    apply effort_putTask_lt hsound ht (.refl _)
    rw [Task.effort_of_ready w.removalEffort hruns hactivity]
    simp only [hstage] at hhear ⊢
    cases watching <;> simp only [Stage.next, Stage.effort] at hhear ⊢ <;> omega
  | @news n entry hactivity hstage hwatch hpeek =>
    -- Looking because of an event takes two ticks, and the event was worth three.
    apply effort_putTask_lt hsound ht (w.cluster.goes_pop n)
    have hpop := w.cluster.unread_pop hpeek
    have hitem := Stage.effort_onItem_le w.removalEffort t.plan entry.2
    have hcluster : (w.cluster.pop n).effort w.removalEffort =
        w.cluster.effort w.removalEffort := rfl
    have hwaiting : (Stage.waiting true).effort w.removalEffort = 3 := rfl
    rw [Task.effort_of_ready w.removalEffort hruns hactivity]
    simp only [hstage, Stage.next, hwatch, hcluster, hwaiting] at hhear ⊢
    omega

/-- `World.effort` falls when a task makes its call. -/
theorem effort_enter_lt {call : Call} (hsound : w.IsSound) (ht : w.tasks[i]? = some t)
    (hruns : t.Runs) (hactivity : t.activity = .ready) (hcall : t.stage.call? t.plan = some call)
    (due : Nat) :
    ((w.enter call).1.putTask i { t with activity := .calling due (w.enter call).2 }).effort <
      w.effort := by
  have hscript := w.cluster.scriptedItems_advance call.kind
  have htwo := Stage.two_le_effort w.removalEffort t.plan t.stage (by simp [hcall])
  let u : Task := { t with activity := .calling due (w.enter call).2 }
  -- The items leave the script and count for the call from now on.
  have hitems : u.itemCount w.cluster = w.cluster.unread t.watch +
      if call.kind = .watch then (w.cluster.incident call.kind).itemCount else 0 := by
    have hopen : u.isOver = false := by
      simp [u, Task.isOver, Task.result?, hruns.unfinished]
    rw [Task.itemCount, hopen]
    cases hs : t.stage <;> simp only [hs, Stage.call?, Option.some.injEq, reduceCtorEq] at hcall <;>
      subst hcall <;> simp [u, Call.kind, enter]
  have hsum := total_set_le (u := u) ht
    (effort_le_of_goes w.removalEffort hsound (Cluster.Goes.refl _))
  have hbefore := Task.effort_of_ready (c := w.cluster) w.removalEffort hruns hactivity
  have hafter := Task.effort_of_calling (t := u) (c := w.cluster) w.removalEffort rfl
  have hremoval : ((w.enter call).1.putTask i u).removalEffort = w.removalEffort := by
    simp [removalEffort, enter]
  have hsame : ((w.enter call).1.putTask i u).effort =
      total (Task.effort w.cluster w.removalEffort) (w.tasks.set i u) +
        (w.cluster.removals.length * w.removalEffort +
          3 * scriptedItems (w.cluster.advance call.kind)) := by
    unfold effort
    rw [hremoval, putTask_tasks, putTask_cluster]
    rfl
  rw [hsame]
  unfold effort Cluster.effort
  have hstage : u.stage = t.stage := rfl
  rw [hstage] at hafter
  omega

/-- `World.effort` falls when a call takes its task down. -/
private theorem effort_crash_lt {due : Nat} {incident : Incident} (hsound : w.IsSound)
    (ht : w.tasks[i]? = some t) (hactivity : t.activity = .calling due incident)
    (hcall : (t.stage.call? t.plan).isSome) :
    (w.putTask i { t with activity := .crashed .call }).effort < w.effort := by
  apply effort_putTask_lt (d := w.cluster) hsound ht (.refl _)
  have htwo := Stage.two_le_effort w.removalEffort t.plan t.stage hcall
  rw [Task.effort_of_calling w.removalEffort hactivity]
  rw [Task.effort, Task.itemCount_of_atRest (.inl ⟨.call, rfl⟩)]
  simp only [Task.stageEffort]
  omega

/-- `World.stepRemoval` announces the removal at most once in every watch. -/
theorem goes_stepRemoval (w : World) (j : Nat) (r : Removal) :
    w.cluster.Goes (w.stepRemoval j r).cluster 1 :=
  let h := Cluster.goes_remove { w.cluster with removals := w.cluster.removals.eraseIdx j }
    w.now r.key r.silent
  ⟨h.watches, h.unread, h.script⟩

/-- `World.effort` falls with a removal, although the watches may announce it. -/
theorem effort_removal_lt {j : Nat} {r : Removal} (hsound : w.IsSound)
    (h : w.cluster.removals[j]? = some r) : (w.stepRemoval j r).effort < w.effort := by
  have hlt : j < w.cluster.removals.length := (List.getElem?_eq_some_iff.1 h).1
  have hgoes := w.goes_stepRemoval j r
  have hsum := total_le (effort_le_of_goes w.removalEffort hsound hgoes)
  -- The removal is off the list, and that makes up for its announcement to every task.
  have hremovals : (w.stepRemoval j r).cluster.removals.length + 1 =
      w.cluster.removals.length := by
    simp only [stepRemoval, Cluster.remove_removals, List.length_eraseIdx_of_lt hlt]
    omega
  have hcluster : (w.stepRemoval j r).cluster.effort w.removalEffort + w.removalEffort =
      w.cluster.effort w.removalEffort := by
    unfold Cluster.effort
    rw [hgoes.scriptedItems, ← hremovals, Nat.add_mul _ 1 w.removalEffort]
    omega
  have hremoval : w.removalEffort = 1 + 3 * w.tasks.length := rfl
  show total (Task.effort (w.stepRemoval j r).cluster w.removalEffort) w.tasks +
    (w.stepRemoval j r).cluster.effort w.removalEffort < w.effort
  unfold effort
  omega

/-! ## Sound worlds -/

/-- `World.putTask` with a sound task keeps a world sound. -/
private theorem IsSound.putTask {news : Nat} (hsound : w.IsSound)
    (hgoes : w.cluster.Goes d news) (htask : u.IsSound d) :
    ({ w with cluster := d }.putTask i u).IsSound := by
  intro v hu
  rw [putTask_tasks] at hu
  rw [putTask_cluster]
  rcases List.mem_or_eq_of_mem_set hu with hu | rfl
  · exact (hsound v hu).goes hgoes
  · exact htask

/-- A reply that a task hears keeps a world sound. -/
private theorem IsSound.hear {c : Cluster} {watch : Option Nat} {reply : Reply}
    (hsound : w.IsSound) (hopen : ∀ n, t.watch = some n → n < w.cluster.watches.length)
    (h : w.hearing? t = some (c, watch, reply)) :
    ({ w with cluster := c }.putTask i ({ t with watch }.hear w.now reply)).IsSound := by
  -- The only watch that a reply can bring is one that was opened with it.
  have hgoes : ∃ news, w.cluster.Goes c news ∧ ∀ n, watch = some n → n < c.watches.length := by
    cases heard_of_hearing h with
    | @answer due incident call hactivity _ hcall =>
      obtain ⟨news, -, hgoes, -⟩ := w.cluster.goes_reply incident w.now call
      refine ⟨news, hgoes, ?_⟩
      intro n hn
      rcases Option.or_eq_some_iff.1 hn with hn | ⟨-, hn⟩
      · exact w.cluster.reply_opens incident w.now call n hn
      · exact Nat.lt_of_lt_of_le (hopen n hn) hgoes.watches
    | late => exact ⟨0, .refl _, hopen⟩
    | deadline => exact ⟨0, .refl _, hopen⟩
    | @news n =>
      have hgoes := w.cluster.goes_pop n
      exact ⟨0, hgoes, fun m hm => Nat.lt_of_lt_of_le (hopen m hm) hgoes.watches⟩
  obtain ⟨news, hgoes, hwatch⟩ := hgoes
  refine hsound.putTask hgoes ?_
  rcases Task.runs_or_atRest_hear { t with watch } w.now reply with hruns | hrest
  · exact .inr ⟨hruns, by rw [Task.hear_watch]; exact hwatch⟩
  · exact .inl hrest

/-- `World.stepTask` of a task that is due keeps a world sound and lowers its effort. -/
private theorem IsSound.turn {due now : Nat} (hsound : w.IsSound) (ht : w.tasks[i]? = some t)
    (hdue : t.due? w.cluster now = some due) (hle : due ≤ w.now) :
    (w.stepTask i t).IsSound ∧ (w.stepTask i t).effort < w.effort := by
  rcases hsound t (List.mem_of_getElem? ht) with hrest | ⟨hruns, hopen⟩
  · rw [Task.due?_of_atRest hrest] at hdue
    simp at hdue
  rcases turn_cases hruns hdue hle with
    ⟨call, hactivity, hcall⟩ | ⟨⟨c, watch, reply⟩, hheard⟩ |
    ⟨at', incident, hactivity, hcrash, hsilent⟩
  · rw [stepTask_of_ready hactivity hcall]
    refine ⟨?_, effort_enter_lt hsound ht hruns hactivity hcall _⟩
    refine IsSound.putTask (w := (w.enter call).1) (d := w.cluster.advance call.kind) hsound
      (.refl _) (.inr ⟨⟨hruns.unfinished, by simp, ?_⟩, hopen⟩)
    intro due incident _
    simp [hcall]
  · rw [stepTask_of_hearing hheard]
    exact ⟨hsound.hear hopen hheard, effort_hearing_lt hsound ht hruns hopen hheard⟩
  · rw [stepTask_of_crash hactivity hcrash hsilent]
    refine ⟨?_, effort_crash_lt hsound ht hactivity (hruns.calls at' incident hactivity)⟩
    exact IsSound.putTask (d := w.cluster) hsound (.refl _) (.inl (.inl ⟨.call, rfl⟩))

/-- `World.tick` keeps a world sound and lowers its effort. -/
theorem IsSound.tick {time : Nat} {actor : Actor} (hsound : w.IsSound)
    (hnext : w.next? = some (time, actor)) :
    (w.tick time actor).IsSound ∧ (w.tick time actor).effort < w.effort := by
  have hnow : ({ w with now := time } : World).IsSound := hsound
  obtain ⟨j, r, -, hr, htick⟩ | ⟨j, v, due, -, hu, hdue, hle, htick⟩ := tick_cases hnext
  · rw [htick]
    exact ⟨fun v hu => (hsound v hu).goes (goes_stepRemoval { w with now := time } j r),
      effort_removal_lt hnow hr⟩
  · rw [htick]
    exact hnow.turn hu hdue hle

/-! ## Runs end because nothing more is wanted -/

/-- `World.budget` covers `World.effort`. -/
theorem effort_le_budget (w : World) : w.effort ≤ w.budget := by
  have htasks : ∀ tasks : List Task,
      total (Task.effort w.cluster w.removalEffort) tasks ≤
        tasks.length * (24 + 3 * w.tasks.length) +
          3 * total (·.itemCount w.cluster) tasks := by
    -- For each task the budget has the most that its stages can need, and the same for its items.
    intro tasks
    induction tasks with
    | nil => simp [total]
    | cons t rest ih =>
      have hstage := t.stageEffort_le w.removalEffort
      have hremoval : w.removalEffort = 1 + 3 * w.tasks.length := rfl
      simp only [total, List.length_cons, Task.effort]
      rw [Nat.add_mul _ 1 (24 + 3 * w.tasks.length)]
      omega
  have := htasks w.tasks
  unfold effort Cluster.effort budget
  dsimp only
  rw [show w.removalEffort = 1 + 3 * w.tasks.length from rfl] at this ⊢
  omega

/-- What every wanted tick preserves is preserved by `World.run`. -/
theorem run_preserves {P : World → Prop} {wanted : World → Nat → Bool}
    (hstep : ∀ {w : World} {time : Nat} {actor : Actor}, w.next? = some (time, actor) →
      wanted w time = true → P w → P (w.tick time actor)) (n : Nat) (h : P w) :
    P (World.run wanted n w) := by
  induction n generalizing w with
  | zero => exact h
  | succ n ih =>
    unfold World.run
    split
    · rename_i time actor hnext
      split
      · rename_i hwanted
        exact ih (hstep hnext hwanted h)
      · exact h
    · exact h

/-- `World.run` keeps a world sound. -/
theorem IsSound.run (hsound : w.IsSound) (wanted : World → Nat → Bool) (n : Nat) :
    (World.run wanted n w).IsSound :=
  run_preserves (fun hnext _ h => (IsSound.tick h hnext).1) n hsound

/-- With as many ticks as the effort, what is left after `World.run` is not wanted. -/
theorem next?_run (hsound : w.IsSound) (wanted : World → Nat → Bool) {n : Nat}
    (hn : w.effort ≤ n) {time : Nat} {actor : Actor}
    (hnext : (World.run wanted n w).next? = some (time, actor)) :
    wanted (World.run wanted n w) time = false := by
  induction n generalizing w with
  | zero =>
    -- Without effort nothing is left.
    have : (w.tick time actor).effort < w.effort := (hsound.tick hnext).2
    omega
  | succ n ih =>
    unfold World.run at hnext ⊢
    split at hnext
    · rename_i time' actor' hnext'
      split at hnext
      -- The tick is taken, and less effort is left for the rest of the run.
      · rename_i hwanted
        obtain ⟨hsound', hless⟩ := hsound.tick hnext'
        simp only [hwanted, if_true]
        exact ih hsound' (by omega) hnext
      -- The run stops here, so it is this tick that was not wanted.
      · rename_i hwanted
        obtain ⟨rfl, rfl⟩ : time' = time ∧ actor' = actor := by simpa [hnext'] using hnext
        simp [hwanted]
    · rename_i hnone
      simp [hnone] at hnext

/-- As long as a task runs, `World.run` ends only because it is not wanted to go on. -/
theorem unwanted_of_runs (hsound : w.IsSound) (wanted : World → Bool) {n : Nat}
    (hn : w.effort ≤ n) (ht : (World.run (fun w _ => wanted w) n w).tasks[i]? = some t)
    (hruns : t.Runs) : wanted (World.run (fun w _ => wanted w) n w) = false := by
  obtain ⟨⟨time, actor⟩, hnext⟩ := Option.isSome_iff_exists.1 (next?_isSome_of_runs ht hruns)
  exact next?_run hsound _ hn hnext

/-- More ticks than `World.effort` change nothing about a run. -/
theorem run_of_effort_le (hsound : w.IsSound) (wanted : World → Nat → Bool) {m n : Nat}
    (hm : w.effort ≤ m) (hn : w.effort ≤ n) : World.run wanted m w = World.run wanted n w := by
  -- Induction on the first number of ticks. Whatever happens next lowers the effort, so neither
  -- number can be used up before the run ends.
  induction m generalizing w n with
  | zero =>
    cases n with
    | zero => rfl
    | succ n =>
      cases hnext : w.next? with
      | none => simp [World.run, hnext]
      | some entry =>
        have := (hsound.tick hnext).2
        omega
  | succ m ih =>
    cases hnext : w.next? with
    | none => cases n <;> simp [World.run, hnext]
    | some entry =>
      obtain ⟨hsound', hless⟩ := hsound.tick hnext
      cases n with
      | zero => omega
      | succ n =>
        simp only [World.run, hnext]
        split
        · exact ih hsound' (by omega) (by omega)
        · rfl

/-- `World.run` goes on from its first tick, with the budget that there is then. -/
theorem run_budget_tick (hsound : w.IsSound) {wanted : World → Nat → Bool} {time : Nat}
    {actor : Actor} (hnext : w.next? = some (time, actor)) (hwanted : wanted w time = true) :
    World.run wanted w.budget w =
      World.run wanted (w.tick time actor).budget (w.tick time actor) := by
  obtain ⟨hsound', hless⟩ := hsound.tick hnext
  have hbudget := w.effort_le_budget
  obtain ⟨m, hm⟩ : ∃ m, w.budget = m + 1 := ⟨w.budget - 1, by omega⟩
  rw [hm, World.run]
  simp only [hnext, hwanted, if_true]
  exact run_of_effort_le hsound' _ (by omega) (effort_le_budget _)

/-- `World.run` can be stopped early and taken up again. -/
theorem run_run (hsound : w.IsSound) {wanted wanted' : World → Nat → Bool}
    (hmore : ∀ w time, wanted w time = true → wanted' w time = true) (n : Nat) :
    World.run wanted' (World.run wanted n w).budget (World.run wanted n w) =
      World.run wanted' w.budget w := by
  induction n generalizing w with
  | zero => rfl
  | succ n ih =>
    cases hnext : w.next? with
    | none => simp only [World.run, hnext]
    | some entry =>
      simp only [World.run, hnext]
      split
      · rename_i hwanted
        rw [ih (hsound.tick hnext).1, run_budget_tick hsound hnext (hmore _ _ hwanted)]
      · rfl

end World

end PodDesk
