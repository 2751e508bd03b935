import PodDesk.Proofs.Replacement.RemovalDelay

/-!
# A replacement without trouble

A replacement that is on its own, against a cluster without faults: it creates a Pod where there is
none, and otherwise its watch sees the removal at once. Either way no time passes.

## Main statements

- `World.Alone.run_exchange`: a call leaves a replacement alone with a cluster without faults
- `World.runTask_absent`, `World.runTask_present`: a whole replacement
-/

namespace PodDesk

/-- A cluster `IsFaultless` when no call meets an incident and no removal is on its way. -/
structure Cluster.IsFaultless (c : Cluster) : Prop where
  script : ∀ kind, ∀ incident ∈ c.script kind, incident = none
  removals : c.removals = []

namespace Cluster

variable {c c' : Cluster} {now : Nat} {key : PodKey} {ns : String} {pod : Pod}

/-! ## A cluster without faults -/

theorem IsFaultless.incident (h : c.IsFaultless) (kind : CallKind) : c.incident kind = {} := by
  unfold Cluster.incident
  cases hscript : c.script kind with
  | nil => rfl
  | cons head rest =>
    have hhead : head = none := h.script kind head (by simp [hscript])
    simp [hhead]

theorem IsFaultless.advance (h : c.IsFaultless) (kind : CallKind) :
    (c.advance kind).IsFaultless where
  script := by
    intro other incident hmem
    unfold Cluster.advance at hmem
    dsimp only at hmem
    split at hmem
    · exact h.script other incident (List.mem_of_mem_tail hmem)
    · exact h.script other incident hmem
  removals := h.removals

theorem IsFaultless.congr (h : c.IsFaultless) (hscript : c'.script = c.script)
    (hremovals : c'.removals = c.removals) : c'.IsFaultless where
  script kind incident hmem := h.script kind incident (hscript ▸ hmem)
  removals := hremovals.trans h.removals

/-- `Cluster.delete` without an incident announces the removal of what is stored. -/
theorem delete_plain (hstored : c.pods.get? key = some pod) :
    c.delete {} now key =
      ({ c with pods := c.pods.erase key }.announce now key.ns (.event (.deleted pod)),
        .ok ()) := by
  simp [delete, remove, hstored]

/-- `Cluster.delete` fails where nothing is stored. -/
theorem delete_missing (hmissing : c.pods.get? key = none) :
    c.delete {} now key =
      (c, .error (.notFound ("pods \"" ++ key.name ++ "\" not found"))) := by
  simp [delete, hmissing]

end Cluster

namespace World

variable {w : World} {i : Nat} {t : Task}

/-- `w.Alone i t` says that task `t` goes on among tasks at rest, with a cluster without faults. -/
structure Alone (w : World) (i : Nat) (t : Task) : Prop where
  task : w.tasks[i]? = some t
  others : w.OthersAtRest i
  faultless : w.cluster.IsFaultless

/-! ## The ticks of a replacement -/

theorem Alone.solo (h : w.Alone i t) : w.Solo i t :=
  ⟨h.task, h.others⟩

theorem Alone.of_solo (h : w.Solo i t) (hfaultless : w.cluster.IsFaultless) : w.Alone i t :=
  ⟨h.task, h.others, hfaultless⟩

/-- In a world where a task is `Alone` no removal is on its way that could come first. -/
private theorem Alone.forall_removals (h : w.Alone i t) (time : Nat) :
    ∀ r ∈ w.cluster.removals, time < r.due := by
  simp [h.faultless.removals]

/-- A task that is `Alone` makes a call and hears the answer in two ticks and no time. -/
theorem Alone.run_exchange {call : Call} {c : Cluster} {reply : Reply} {watch : Option Nat}
    (h : w.Alone i t) (hready : t.activity = .ready) (hcall : t.stage.call? t.plan = some call)
    (hprobing : t.stage ≠ .probing)
    (hreply : (w.cluster.advance call.kind).reply {} w.now call = (c, reply, watch))
    (hfaultless : c.IsFaultless) :
    ∃ w' : World, Reaches i w 2 w' ∧
      w'.Alone i ({ t with watch := watch.or t.watch }.hear w.now reply) ∧
      w'.cluster = c ∧ w'.now = w.now := by
  obtain ⟨w', hpasses, hsolo, hcluster, hnow⟩ :=
    h.solo.passes_exchange hready hcall hprobing (h.forall_removals _)
      (h.faultless.incident call.kind) rfl rfl hreply
  exact ⟨w', hpasses.reaches, .of_solo hsolo (hcluster ▸ hfaultless), hcluster, hnow⟩

/-! ## Whole replacements -/

/-- `Settles pods now p signal i final` says that a replacement has come out well: its Pod is
stored, the other Pods are as they were, everything is quiet again and no time has passed. -/
structure Settles (pods : SortedMap PodKey Pod) (now : Nat) (p : Plan) (signal : Option Signal)
    (i : Nat) (final : World) : Prop where
  result : final.tasks[i]?.bind (·.result?) = some (.ok (.ok ⟨p.key, signal⟩))
  pods : ∃ version, final.cluster.pods =
    pods.insert p.key (Cluster.stored p.key.ns version p.pod)
  faultless : final.cluster.IsFaultless
  rest : ∀ t ∈ final.tasks, t.AtRest
  now : final.now = now

/-- A task that is `Alone` and over leaves all tasks at rest. -/
private theorem Alone.rest {o : Outcome} (h : w.Alone i t) (hready : t.activity = .ready)
    (hstage : t.stage = .finished o) : ∀ u ∈ w.tasks, u.AtRest := by
  intro u hu
  obtain ⟨j, hj⟩ := List.getElem?_of_mem hu
  -- The task itself is finished, and the others were at rest all the time.
  by_cases hij : j = i
  · subst hij
    obtain rfl := Option.some.inj (h.task.symm.trans hj)
    exact .inr ⟨hready, by simp [hstage, Stage.outcome?]⟩
  · exact h.others j u hij hj

/-- The last call of a replacement that is `Alone`: the wanted Pod is created under a free name, and
the replacement is over. -/
private theorem Alone.reach_created (signal : Option Signal) (h : w.Alone i t)
    (hready : t.activity = .ready) (hstage : t.stage = .last signal)
    (hfree : w.cluster.pods.get? t.plan.key = none) :
    ∃ w', Reaches i w 2 w' ∧ Settles w.cluster.pods w.now t.plan signal i w' := by
  obtain ⟨w', hpasses, hsolo, hcluster, hnow⟩ :=
    h.solo.passes_creation hready hstage (h.forall_removals _) (h.faultless.incident .create)
      (Cluster.create_plain (w.cluster.advance .create) t.plan.key t.plan.pod rfl hfree)
  have halone : w'.Alone i { t with stage := .finished (.ok ⟨t.plan.key, signal⟩) } :=
    .of_solo hsolo (hcluster ▸ (h.faultless.advance .create).congr rfl rfl)
  exact ⟨w', hpasses.reaches, hsolo.result hready rfl, ⟨_, by rw [hcluster]; rfl⟩,
    halone.faultless, halone.rest hready rfl, hnow⟩

/-- If a world with `Settles` is reached within the budget, then `World.runTask` ends there. -/
private theorem settles_runTask {p : Plan} {wait k : Nat} {pods : SortedMap PodKey Pod}
    {signal : Option Signal} {w' : World} (hreach : Reaches w.tasks.length (w.spawn p wait).1 k w')
    (hk : k ≤ 24) (h : Settles pods w.now p signal w.tasks.length w') :
    Settles pods w.now p signal w.tasks.length
      ((w.spawn p wait).1.runTask (w.spawn p wait).2 none) := by
  -- The run goes no further, since the task has a result there.
  have hover : w'.isOver w.tasks.length = true := by
    have hresult := h.result
    unfold isOver
    cases htask : w'.tasks[w.tasks.length]? with
    | none => rfl
    | some t =>
      rw [htask, Option.bind_some] at hresult
      simp [Task.isOver, hresult]
  have hrun := runTask_of_reaches hreach (Nat.le_trans hk (budget_spawn w p wait)) hover
  show Settles _ _ _ _ _ ((w.spawn p wait).1.runTask w.tasks.length none)
  rw [hrun]
  exact h

/-- `World.runTask` creates a Pod where there is none. -/
theorem runTask_absent (w : World) (p : Plan) (wait : Nat) (hrest : ∀ t ∈ w.tasks, t.AtRest)
    (hfaultless : w.cluster.IsFaultless) (habsent : w.cluster.pods.get? p.key = none) :
    Settles w.cluster.pods w.now p none w.tasks.length
      ((w.spawn p wait).1.runTask (w.spawn p wait).2 none) := by
  have halone : (w.spawn p wait).1.Alone w.tasks.length { plan := p, wait, started := w.now } :=
    .of_solo (solo_spawn p wait hrest) hfaultless
  have hlookup : ((w.spawn p wait).1.cluster.advance .get).reply {} w.now (.get p.key) =
      (w.cluster.advance .get, .found (.ok none), none) := by
    rw [Cluster.reply_get, Cluster.lookup_plain]
    exact congrArg (fun found => (w.cluster.advance .get, Reply.found (.ok found), none)) habsent
  -- Two exchanges: the lookup finds nothing, and the creation finds a free name.
  obtain ⟨w₁, hreach₁, halone₁, hcluster₁, hnow₁⟩ :=
    halone.run_exchange rfl rfl nofun hlookup (hfaultless.advance .get)
  obtain ⟨w₂, hreach₂, hsettles⟩ := halone₁.reach_created none rfl rfl (by
    rw [hcluster₁]
    exact habsent)
  rw [hcluster₁, hnow₁] at hsettles
  exact settles_runTask (hreach₁.trans hreach₂) (by omega) hsettles

/-- `Settles` forgets what was erased under the key before. -/
private theorem Settles.of_erase {pods : SortedMap PodKey Pod} {now : Nat} {p : Plan}
    {signal : Option Signal} {final : World} (h : Settles (pods.erase p.key) now p signal i final) :
    Settles pods now p signal i final :=
  { h with
    pods := by
      obtain ⟨version, hpods⟩ := h.pods
      exact ⟨version, by rw [hpods, SortedMap.insert_erase]⟩ }

/-- `World.runTask` replaces the Pod that is stored as soon as its removal is announced: the watch
was open before. -/
theorem runTask_present (w : World) (p : Plan) (wait : Nat) {existing : Pod}
    (hrest : ∀ t ∈ w.tasks, t.AtRest) (hfaultless : w.cluster.IsFaultless)
    (hstored : w.cluster.pods.get? p.key = some existing)
    (hname : existing.metadata.name = some p.key.name) (hwait : 0 < wait)
    (hdeadline : w.now + wait < endOfTime) :
    Settles w.cluster.pods w.now p (some .deletedEvent) w.tasks.length
      ((w.spawn p wait).1.runTask (w.spawn p wait).2 none) := by
  -- Without incidents the removal takes no time and is announced.
  have hdelays : w.Delays 0 false :=
    ⟨hrest, hfaultless.removals, fun kind _ => hfaultless.incident kind,
      hfaultless.incident .delete⟩
  obtain ⟨k, w₁, hk, hawaits, hcluster, hnow⟩ := hdelays.noticed hstored hname hdeadline hwait
  have hgone : w.Gone p w₁.cluster := hcluster ▸ (hdelays.gone hstored _ _).pop _
  have hfaultless₁ : w₁.cluster.IsFaultless := by
    rw [hcluster]
    exact ((((hfaultless.advance .get).advance .dryRun).advance .watch).advance .delete).congr
      (Cluster.remove_script _ _ _ _) (Cluster.remove_removals _ _ _ _)
  -- The name is free now, and what is stored there was erased before.
  obtain ⟨w₂, hreach, hsettles⟩ :=
    (Alone.of_solo hawaits.solo hfaultless₁).reach_created (some .deletedEvent) rfl rfl (by
      rw [hgone.pods]
      exact SortedMap.get?_erase_self _ _)
  rw [hgone.pods, hnow] at hsettles
  obtain ⟨_, hpasses, -⟩ := hawaits.passes
  exact settles_runTask (hpasses.reaches.trans hreach) (by omega) hsettles.of_erase

end World

end PodDesk
