import PodDesk.Proofs.Replacement.Interleaving

/-!
# Replacements side by side lose no Pod

Any number of replacements run in any order against a store that does each call at once: a creation
fails when its name is taken, and a deletion when nothing is stored. The watches may do what they
like, and every wait may end at any time. The invariant is about one key: while nothing is stored
under it, some run is between its deletion and its creation, or no run about it has found anything.

## Main statements

- `Scene.move_of_reply`: what a run can do to the store and to its stage
- `Scene.Keeps.hear`, `Scene.Safe.act`: the invariant is kept
- `Scene.play_loses_no_pod`: once all runs are over, every key holds a Pod of a run that came out
  well, and the other runs failed for a reason that they owe to each other
-/

namespace PodDesk

/-- An incident `IsPlain` when it does not keep a call from what it is there for. -/
structure Incident.IsPlain (i : Incident) : Prop where
  error : i.error = none
  absent : i.absent = false
  pod : i.pod = none
  keep : i.keep = false
  removeAfter : i.removeAfter = 0

namespace Stage

/-- A stage that has not looked yet, or has found a Pod and is on the way to delete it. -/
def MayDelete : Stage → Prop
  | lookup | dryRun _ | watch _ | delete _ => True
  | _ => False

/-- A stage that has deleted the old Pod and is on the way to create the new one. -/
def OwesPod : Stage → Prop
  | waiting _ | probing | recreate _ => True
  | _ => False

/-- A stage that has not looked yet, or has found nothing and is about to create. -/
def MayCreate : Stage → Prop
  | lookup | create => True
  | _ => False

/-- `s.Stays s' stored` says that a replacement that goes from `s` to `s'` stays in the phase that
counts for its key, given what is stored there. -/
structure Stays (s s' : Stage) (stored : Option Pod) : Prop where
  finished : ∀ o, s = .finished o → s' = .finished o
  mayDelete : s.MayDelete → stored.isSome → s'.MayDelete
  owesPod : s.OwesPod → stored = none → s'.OwesPod
  mayCreate : s.MayCreate → stored = none → s'.MayCreate

end Stage

/-- `f.IsLostRace` says that `f` is a failure that runs about one key owe to each other: another run
deleted or created first. -/
def Failure.IsLostRace (f : Failure) : Prop :=
  f.step = .delete ∧ f.cause.code? = some 404 ∨
    (f.step = .create ∨ f.step = .recreate) ∧ f.cause.code? = some 409

/-- `Move p pods s s' pods'` lists what a run with plan `p` does when it goes on from stage `s` to
`s'`: it makes `pods'` of the stored Pods. -/
inductive Move (p : Plan) (pods : SortedMap PodKey Pod) :
    Stage → Stage → SortedMap PodKey Pod → Prop where
  | stay (s : Stage) : Move p pods s s pods
  | find (existing : Pod) (h : pods.get? p.key = some existing) :
      Move p pods .lookup (.dryRun existing) pods
  | miss (h : pods.get? p.key = none) : Move p pods .lookup .create pods
  | tried (existing : Pod) : Move p pods (.dryRun existing) (.watch existing) pods
  | watched (existing : Pod) (watching : Bool) :
      Move p pods (.watch existing) (.delete watching) pods
  | delete (watching : Bool) (h : (pods.get? p.key).isSome) :
      Move p pods (.delete watching) (.waiting watching) (pods.erase p.key)
  | late (watching : Bool) (message : String) (h : pods.get? p.key = none) :
      Move p pods (.delete watching) (.finished (.error ⟨p.key, .delete, .notFound message⟩)) pods
  | wait (s s' : Stage) (h : s.OwesPod) (h' : s'.OwesPod) : Move p pods s s' pods
  | create (s : Stage) (done : Done) (version : Nat) (step : FailedStep)
      (hs : s.creationStep? = some step) (h : pods.get? p.key = none) :
      Move p pods s (.finished (.ok done))
        (pods.insert p.key (Cluster.stored p.key.ns version p.pod))
  | taken (s : Stage) (step : FailedStep) (message : String) (hs : s.creationStep? = some step)
      (h : (pods.get? p.key).isSome) :
      Move p pods s (.finished (.error ⟨p.key, step, .alreadyExists message⟩)) pods

/-- A `Move` deletes the Pod, or creates the new one, or leaves the stored Pods as they are. In the
last case the run `Stays` in its phase. -/
theorem Move.deletes_or_creates_or_stays {p : Plan} {pods pods' : SortedMap PodKey Pod}
    {s s' : Stage} (h : Move p pods s s' pods') :
    (s'.OwesPod ∧ pods' = pods.erase p.key) ∨
      (∃ done version, s' = .finished (.ok done) ∧
        pods' = pods.insert p.key (Cluster.stored p.key.ns version p.pod)) ∨
      (pods' = pods ∧ s.Stays s' (pods.get? p.key)) := by
  cases h with
  | delete watching _ => exact .inl ⟨trivial, rfl⟩
  | create _ done version _ _ _ => exact .inr (.inl ⟨done, version, rfl, rfl⟩)
  | stay =>
    exact .inr (.inr ⟨rfl, fun _ => id, fun h _ => h, fun h _ => h, fun h _ => h⟩)
  | find existing hfound =>
    exact .inr (.inr ⟨rfl, nofun, fun _ _ => trivial, fun h => h.elim, by simp [hfound]⟩)
  | miss hmissing =>
    exact .inr (.inr ⟨rfl, nofun, by simp [hmissing], fun h => h.elim, fun _ _ => trivial⟩)
  | tried existing =>
    exact .inr (.inr ⟨rfl, nofun, fun _ _ => trivial, fun h => h.elim, fun h => h.elim⟩)
  | watched existing watching =>
    exact .inr (.inr ⟨rfl, nofun, fun _ _ => trivial, fun h => h.elim, fun h => h.elim⟩)
  | late watching message hmissing =>
    exact .inr (.inr ⟨rfl, nofun, by simp [hmissing], fun h => h.elim, fun h => h.elim⟩)
  | wait s s' howed howes =>
    -- Who owes a Pod is in no other phase.
    cases s <;> first
      | exact howed.elim
      | exact .inr (.inr ⟨rfl, nofun, fun h => h.elim, fun _ _ => howes, fun h => h.elim⟩)
  | taken s step message hstep htaken =>
    -- A Pod is stored, and a run that creates is not on the way to delete it.
    obtain ⟨existing, hstored⟩ := Option.isSome_iff_exists.1 htaken
    refine .inr (.inr ⟨rfl, ?_, ?_, by simp [hstored], by simp [hstored]⟩)
    · cases s <;> simp [Stage.creationStep?] at hstep ⊢
    · cases s <;> simp [Stage.creationStep?, Stage.MayDelete] at hstep ⊢

namespace Scene

/-- `Scene.Atomic` is the rule of a store that does each call at once. Only the runs write to it,
and only the call that opens a watch may meet trouble. -/
def Atomic (s : Scene) : Action → Prop
  | .run i (.answer incident _) =>
    incident.IsPlain ∨ ∃ r existing, s.runs[i]? = some r ∧ r.stage = .watch existing
  | .run _ _ => True
  | .removal _ _ => False
  | .write _ => False

/-! ## What a run can do -/

/-- `Stage.onItem` leaves a run on the way to create, whatever its watch delivers. -/
private theorem owesPod_onItem (p : Plan) (item : WatchItem) : (Stage.onItem p item).OwesPod := by
  unfold Stage.onItem
  split
  · split <;> trivial
  all_goals trivial

/-- An item of a watch makes a `Move`: it is for a run that waits with a watch, and the others stay
where they are. -/
private theorem move_of_news (p : Plan) (pods : SortedMap PodKey Pod) (s : Stage)
    (item : WatchItem) : Move p pods s (s.next p (.item item)) pods := by
  cases s with
  | waiting watching =>
    cases watching with
    | false => exact .stay _
    | true => exact .wait _ _ trivial (owesPod_onItem p item)
  | _ => exact .stay _

/-- The deadline makes a `Move`: it is for a run that waits, and the others stay where they are. -/
private theorem move_of_deadline (p : Plan) (pods : SortedMap PodKey Pod) (s : Stage) :
    Move p pods s (s.next p .deadline) pods := by
  cases s with
  | waiting watching => cases watching <;> exact .wait _ _ trivial trivial
  | probing => exact .wait _ _ trivial trivial
  | _ => exact .stay _

/-- `Cluster.create` makes a `Move`: it meets a free name and stores the Pod, or meets a taken one
and fails. -/
private theorem move_of_create (p : Plan) (c : Cluster) {s : Stage} {incident : Incident}
    {step : FailedStep} (hplain : incident.IsPlain) (hs : s.creationStep? = some step) :
    Move p c.pods s (s.next p (.done (c.create incident p.key.ns p.pod).2))
      (c.create incident p.key.ns p.pod).1.pods := by
  have hname : p.pod.metadata.name.getD "" = p.key.name := rfl
  -- The store refuses a taken name, and the stage decides only how the failure is called.
  by_cases htaken : (c.pods.get? p.key).isSome
  · have hcreate : c.create incident p.key.ns p.pod =
        (c, .error (.alreadyExists ("pods \"" ++ p.key.name ++ "\" already exists"))) := by
      simp only [Cluster.create, hplain.error, hname, htaken, if_true]
    rw [hcreate]
    cases s <;> simp only [Stage.creationStep?, reduceCtorEq, Option.some.injEq] at hs <;>
      subst hs <;> exact .taken _ _ _ rfl htaken
  · have hfree : c.pods.get? p.key = none := by
      simpa using htaken
    have hcreate : c.create incident p.key.ns p.pod =
        ({ c with
            pods := c.pods.insert p.key (Cluster.stored p.key.ns (c.created + 1) p.pod)
            created := c.created + 1 }, .ok ()) := by
      simp only [Cluster.create, hplain.error, hname, htaken, Bool.false_eq_true, if_false]
    rw [hcreate]
    cases s <;> simp only [Stage.creationStep?, reduceCtorEq, Option.some.injEq] at hs <;>
      exact .create _ _ _ _ rfl hfree

/-- `Cluster.delete` makes a `Move`: it removes the Pod at once, or finds nothing to delete. -/
private theorem move_of_delete (p : Plan) (c : Cluster) {incident : Incident} (now : Nat)
    (watching : Bool) (hplain : incident.IsPlain) :
    Move p c.pods (.delete watching)
      ((Stage.delete watching).next p (.done (c.delete incident now p.key).2))
      (c.delete incident now p.key).1.pods := by
  cases hstored : c.pods.get? p.key with
  | none =>
    have hdelete : c.delete incident now p.key =
        (c, .error (.notFound ("pods \"" ++ p.key.name ++ "\" not found"))) := by
      simp [Cluster.delete, hplain.error, hstored]
    rw [hdelete]
    exact .late watching _ hstored
  | some pod =>
    have hdelete : c.delete incident now p.key = (c.remove now p.key incident.silent, .ok ()) := by
      simp [Cluster.delete, hplain.error, hplain.keep, hplain.removeAfter, hstored]
    have hpods : (c.remove now p.key incident.silent).pods = c.pods.erase p.key := by
      unfold Cluster.remove
      simp only [hstored]
      split <;> rfl
    rw [hdelete, hpods]
    exact .delete watching (by simp [hstored])

/-- `Cluster.reply` makes a `Move`, with one case for every stage that calls. -/
private theorem move_of_answer (p : Plan) (c : Cluster) {s : Stage} {call : Call}
    {incident : Incident} (now : Nat) (hcall : s.call? p = some call)
    (hplain : (∀ existing, s ≠ .watch existing) → incident.IsPlain) :
    Move p c.pods s (s.next p (c.reply incident now call).2.1) (c.reply incident now call).1.pods := by
  cases s with
  | watch existing =>
    obtain rfl : _ = call := Option.some.inj hcall
    -- The one call that may meet trouble: with or without a watch the run goes on to delete.
    unfold Cluster.reply Cluster.openWatch
    cases incident.error <;> exact .watched existing _
  | lookup =>
    obtain rfl : _ = call := Option.some.inj hcall
    have hplain : incident.IsPlain := hplain (by simp)
    have hlookup : c.lookup incident p.key = .ok (c.pods.get? p.key) := by
      simp [Cluster.lookup, hplain.error, hplain.absent, hplain.pod]
    simp only [Cluster.reply, hlookup]
    cases hstored : c.pods.get? p.key with
    | none => exact .miss hstored
    | some existing => exact .find existing hstored
  | probing =>
    obtain rfl : _ = call := Option.some.inj hcall
    have hplain : incident.IsPlain := hplain (by simp)
    have hlookup : c.lookup incident p.key = .ok (c.pods.get? p.key) := by
      simp [Cluster.lookup, hplain.error, hplain.absent, hplain.pod]
    simp only [Cluster.reply, hlookup]
    cases c.pods.get? p.key <;> exact .wait _ _ trivial trivial
  | dryRun existing =>
    obtain rfl : _ = call := Option.some.inj hcall
    have hplain : incident.IsPlain := hplain (by simp)
    have hchecked : Cluster.checked incident = .ok () := by
      simp [Cluster.checked, hplain.error]
    simp only [Cluster.reply, hchecked]
    exact .tried existing
  | delete watching =>
    obtain rfl : _ = call := Option.some.inj hcall
    exact move_of_delete p c now watching (hplain (by simp))
  | create =>
    obtain rfl : _ = call := Option.some.inj hcall
    exact move_of_create p c (hplain (by simp)) rfl
  | recreate signal =>
    obtain rfl : _ = call := Option.some.inj hcall
    exact move_of_create p c (hplain (by simp)) rfl
  | waiting watching => simp [Stage.call?] at hcall
  | finished o => simp [Stage.call?] at hcall

/-- A run that goes on under the rule `Atomic` makes a `Move`. -/
theorem move_of_reply {s : Scene} {i : Nat} {r : Run} {cue : Cue} {c : Cluster} {reply : Reply}
    (hrule : s.Atomic (.run i cue)) (hr : s.runs[i]? = some r)
    (hreply : s.reply? r cue = some (c, reply)) :
    Move r.plan s.cluster.pods r.stage (r.hear reply).stage c.pods := by
  cases cue with
  | answer incident now =>
    obtain ⟨call, hcall, heq⟩ := Option.map_eq_some_iff.1 hreply
    simp only [Prod.mk.injEq] at heq
    obtain ⟨rfl, rfl⟩ := heq
    apply move_of_answer r.plan s.cluster now hcall
    intro hstage
    rcases hrule with hplain | ⟨r', existing, hr', hwatch⟩
    · exact hplain
    · obtain rfl := Option.some.inj (hr.symm.trans hr')
      exact absurd hwatch (hstage existing)
  | news item =>
    simp only [reply?, Option.some.injEq, Prod.mk.injEq] at hreply
    obtain ⟨rfl, rfl⟩ := hreply
    exact move_of_news r.plan _ r.stage item
  | deadline =>
    simp only [reply?, Option.some.injEq, Prod.mk.injEq] at hreply
    obtain ⟨rfl, rfl⟩ := hreply
    exact move_of_deadline r.plan _ r.stage

end Scene

namespace Run

/-- `r.Made key pod` says that `pod` is the one that run `r` wanted under `key`, as it was stored,
and that the run came out well. -/
def Made (r : Run) (key : PodKey) (pod : Pod) : Prop :=
  r.plan.key = key ∧ ∃ done version, r.stage = .finished (.ok done) ∧
    pod = Cluster.stored key.ns version r.plan.pod

/-- `r.FailsLawfully` says that if run `r` failed, it lost a race. -/
def FailsLawfully (r : Run) : Prop :=
  ∀ f, r.stage = .finished (.error f) → f.key = r.plan.key ∧ f.IsLostRace

end Run

namespace Scene

/-- `s.Keeps key` is what the runs owe to a key. A stored Pod was made by a run that came out well,
or nobody has deleted the Pod that was there. Where nothing is stored some run is on its way to
create the Pod that it wants, or nobody has found anything. -/
def Keeps (s : Scene) (key : PodKey) : Prop :=
  match s.cluster.pods.get? key with
  | some pod => (∃ r ∈ s.runs, r.Made key pod) ∨ ∀ r ∈ s.runs, r.plan.key = key → r.stage.MayDelete
  | none => (∃ r ∈ s.runs, r.plan.key = key ∧ r.stage.OwesPod) ∨
      ∀ r ∈ s.runs, r.plan.key = key → r.stage.MayCreate

/-- `s.Safe` says that no Pod is lost so far, and that no run has failed without a reason. -/
structure Safe (s : Scene) : Prop where
  keeps : ∀ key, s.Keeps key
  lawful : ∀ r ∈ s.runs, r.FailsLawfully

variable {s : Scene} {i : Nat} {r : Run} {c : Cluster} {reply : Reply} {key : PodKey}

/-! ## The invariant is kept -/

/-- The runs after `Scene.hear` are the run that heard the reply and some of those before. -/
private theorem mem_hear {x : Run} (hx : x ∈ (s.hear i r c reply).runs) :
    x = r.hear reply ∨ x ∈ s.runs :=
  (List.mem_or_eq_of_mem_set hx).symm

/-- The run that heard the reply is among those after `Scene.hear`. -/
private theorem hear_mem (hr : s.runs[i]? = some r) :
    r.hear reply ∈ (s.hear i r c reply).runs := by
  obtain ⟨hlt, -⟩ := List.getElem?_eq_some_iff.1 hr
  exact List.mem_set hlt _

/-- The other runs are among those after `Scene.hear` too. -/
private theorem mem_hear_of_mem {x : Run} (c : Cluster) (reply : Reply) (hr : s.runs[i]? = some r)
    (hx : x ∈ s.runs) : x = r ∨ x ∈ (s.hear i r c reply).runs := by
  obtain ⟨j, hj, rfl⟩ := List.mem_iff_getElem.1 hx
  by_cases hij : i = j
  · subst hij
    rw [List.getElem?_eq_getElem hj] at hr
    exact .inl (Option.some.inj hr)
  · right
    have hset : (s.runs.set i (r.hear reply))[j]? = some s.runs[j] := by
      rw [List.getElem?_set_ne hij, List.getElem?_eq_getElem hj]
    exact List.mem_of_getElem? hset

/-- `Scene.hear` keeps the invariant of a key when it leaves what is stored there as it is. A run
about that key has to stay in its phase. -/
private theorem Keeps.hear_of_same (hr : s.runs[i]? = some r) (h : s.Keeps key)
    (hsame : c.pods.get? key = s.cluster.pods.get? key)
    (hown : r.plan.key = key → r.stage.Stays (r.hear reply).stage (s.cluster.pods.get? key)) :
    (s.hear i r c reply).Keeps key := by
  have hmem : r ∈ s.runs := List.mem_of_getElem? hr
  unfold Keeps at h ⊢
  show match c.pods.get? key with | some _ => _ | none => _
  rw [hsame]
  -- What is stored under the key is the same, so the same half of the invariant is to be shown.
  cases hstored : s.cluster.pods.get? key with
  | some pod =>
    simp only [hstored] at h hown ⊢
    -- Some run made the Pod that is stored, or nobody has deleted the one that was there.
    rcases h with ⟨x, hx, hxmade⟩ | hall
    · left
      rcases mem_hear_of_mem c reply hr hx with rfl | hx
      · obtain ⟨hkey, done, version, hfinished, hpod⟩ := hxmade
        exact ⟨_, hear_mem hr, hkey, done, version, (hown hkey).finished _ hfinished, hpod⟩
      · exact ⟨x, hx, hxmade⟩
    · right
      intro x hx hkey
      rcases mem_hear hx with rfl | hx
      · exact (hown hkey).mayDelete (hall r hmem hkey) rfl
      · exact hall x hx hkey
  | none =>
    simp only [hstored] at h hown ⊢
    -- Some run owes a Pod, or nobody has found anything.
    rcases h with ⟨x, hx, hkey, hxowes⟩ | hall
    · left
      rcases mem_hear_of_mem c reply hr hx with rfl | hx
      · exact ⟨_, hear_mem hr, hkey, (hown hkey).owesPod hxowes rfl⟩
      · exact ⟨x, hx, hkey, hxowes⟩
    · right
      intro x hx hkey
      rcases mem_hear hx with rfl | hx
      · exact (hown hkey).mayCreate (hall r hmem hkey) rfl
      · exact hall x hx hkey

/-- `Scene.hear` keeps the invariant of every key when the run makes a `Move`. -/
theorem Keeps.hear (hr : s.runs[i]? = some r) (h : s.Keeps key)
    (hmove : Move r.plan s.cluster.pods r.stage (r.hear reply).stage c.pods) :
    (s.hear i r c reply).Keeps key := by
  have hmoves := hmove.deletes_or_creates_or_stays
  by_cases hkey : r.plan.key = key
  case neg =>
    -- A run about another key does not touch this one.
    refine h.hear_of_same hr ?_ fun heq => absurd heq hkey
    rcases hmoves with ⟨-, hpods⟩ | ⟨_, _, -, hpods⟩ | ⟨hpods, -⟩
    · rw [hpods, SortedMap.get?_erase_of_ne _ (Ne.symm hkey)]
    · rw [hpods, SortedMap.get?_insert_of_ne _ _ (Ne.symm hkey)]
    · rw [hpods]
  subst hkey
  rcases hmoves with ⟨howes, hpods⟩ | ⟨done, version, hdone, hpods⟩ | ⟨hpods, hstays⟩
  · -- Now nothing is stored, and this run is the one that owes a Pod.
    have herased : (s.hear i r c reply).cluster.pods.get? r.plan.key = none := by
      show c.pods.get? r.plan.key = none
      rw [hpods]
      exact SortedMap.get?_erase_self _ _
    unfold Keeps
    rw [herased]
    exact .inl ⟨_, hear_mem hr, rfl, howes⟩
  · -- Now the Pod of this run is stored, and the run came out well.
    have hinserted : (s.hear i r c reply).cluster.pods.get? r.plan.key =
        some (Cluster.stored r.plan.key.ns version r.plan.pod) := by
      show c.pods.get? r.plan.key = _
      rw [hpods]
      exact SortedMap.get?_insert_self _ _ _
    unfold Keeps
    rw [hinserted]
    exact .inl ⟨_, hear_mem hr, rfl, done, version, hdone, rfl⟩
  · exact h.hear_of_same hr (by rw [hpods]) fun _ => hstays

/-- A run that makes a `Move` fails only because it lost a race. -/
theorem failsLawfully_hear {pods pods' : SortedMap PodKey Pod} (h : r.FailsLawfully)
    (hmove : Move r.plan pods r.stage (r.hear reply).stage pods') :
    (r.hear reply).FailsLawfully := by
  intro f hfailed
  rw [hfailed] at hmove
  generalize hstage : r.stage = stage at hmove
  -- Two moves end in a failure: the deletion finds nothing, or the creation a taken name.
  cases hmove with
  | stay => exact h f hstage
  | late watching message _ => exact ⟨rfl, .inl ⟨rfl, rfl⟩⟩
  | wait _ _ _ howes => exact howes.elim
  | taken _ step message hstep _ =>
    refine ⟨rfl, .inr ⟨?_, rfl⟩⟩
    cases stage <;> simp [Stage.creationStep?] at hstep <;> simp [← hstep]

/-- `Scene.act` keeps `Safe` as long as the store is `Atomic`. -/
theorem Safe.act {a : Action} (hrule : s.Atomic a) (h : s.Safe) : (s.act a).Safe := by
  cases a with
  | removal index now => exact hrule.elim
  | write pods => exact hrule.elim
  | run i cue =>
    rcases s.act_run_cases i cue with ⟨r, c, reply, hr, hreply, hact⟩ | hact
    · have hmove := move_of_reply hrule hr hreply
      rw [hact]
      refine ⟨fun key => (h.keeps key).hear hr hmove, ?_⟩
      intro x hx
      rcases mem_hear hx with rfl | hx
      · exact failsLawfully_hear (h.lawful r (List.mem_of_getElem? hr)) hmove
      · exact h.lawful x hx
    · rw [hact]
      exact h

/-- The scene where all replacements begin is `Safe`. -/
theorem safe_start (plans : List Plan) (cluster : Cluster) : (start plans cluster).Safe := by
  have hlookup : ∀ r ∈ (start plans cluster).runs, r.stage = .lookup := by
    intro r hr
    obtain ⟨plan, -, rfl⟩ := List.mem_map.1 hr
    rfl
  constructor
  case keeps =>
    -- Nobody has looked yet, which is one side of either half of the invariant.
    intro key
    unfold Keeps
    split
    · right
      intro r hr _
      rw [hlookup r hr]
      trivial
    · right
      intro r hr _
      rw [hlookup r hr]
      trivial
  case lawful =>
    intro r hr f hfailed
    rw [hlookup r hr] at hfailed
    simp at hfailed

/-- Once all runs are over, `Keeps` says that every key that a run is about holds a Pod that a run
made. -/
private theorem Keeps.of_isOver (h : s.Keeps key) (hover : s.IsOver) {r : Run} (hr : r ∈ s.runs)
    (hkey : r.plan.key = key) :
    ∃ x ∈ s.runs, ∃ pod, s.cluster.pods.get? key = some pod ∧ x.Made key pod := by
  -- A run that is over is in none of the phases before.
  have hphase : ∀ x ∈ s.runs, ¬ x.stage.MayDelete ∧ ¬ x.stage.OwesPod ∧ ¬ x.stage.MayCreate := by
    intro x hx
    have hfinished := hover x hx
    cases hs : x.stage <;> simp [hs, Stage.outcome?] at hfinished
    exact ⟨id, id, id⟩
  unfold Keeps at h
  cases hstored : s.cluster.pods.get? key with
  | some pod =>
    rw [hstored] at h
    rcases h with ⟨x, hx, hmade⟩ | hall
    · exact ⟨x, hx, pod, rfl, hmade⟩
    · exact absurd (hall r hr hkey) (hphase r hr).1
  | none =>
    rw [hstored] at h
    rcases h with ⟨x, hx, -, howes⟩ | hall
    · exact absurd howes (hphase x hx).2.1
    · exact absurd (hall r hr hkey) (hphase r hr).2.2

/-- However the calls of any number of replacements follow each other, and whatever their watches
and deadlines do: once all of them are over, every key that one of them was about holds the Pod of
one that came out well, and those that failed found nothing to delete or a name that was taken. -/
theorem play_loses_no_pod (plans : List Plan) (cluster : Cluster) (actions : List Action)
    (hatomic : (start plans cluster).Obeys Atomic actions)
    (hover : ((start plans cluster).play actions).IsOver) :
    let final := (start plans cluster).play actions
    final.runs.map (·.plan) = plans ∧
      (∀ plan ∈ plans, ∃ r ∈ final.runs, r.plan.key = plan.key ∧
        ∃ done version, r.stage = .finished (.ok done) ∧
          final.cluster.pods.get? plan.key =
            some (Cluster.stored plan.key.ns version r.plan.request.toPod)) ∧
      ∀ r ∈ final.runs, ∀ f, r.stage = .finished (.error f) →
        f.step = .delete ∧ f.cause.code? = some 404 ∨
          (f.step = .create ∨ f.step = .recreate) ∧ f.cause.code? = some 409 := by
  intro final
  have hplans : final.runs.map (·.plan) = plans := by
    rw [play_plans]
    show (plans.map _).map _ = plans
    rw [List.map_map]
    exact List.map_id plans
  have hsafe : final.Safe :=
    invariant_play (fun _ _ hrule h => h.act hrule) hatomic (safe_start plans cluster)
  refine ⟨hplans, ?_, ?_⟩
  · intro plan hplan
    rw [← hplans] at hplan
    obtain ⟨r, hr, rfl⟩ := List.mem_map.1 hplan
    obtain ⟨x, hx, pod, hstored, hkey, done, version, hdone, rfl⟩ :=
      (hsafe.keeps r.plan.key).of_isOver hover hr rfl
    exact ⟨x, hx, hkey, done, version, hdone, hstored⟩
  · intro r hr f hfailed
    exact (hsafe.lawful r hr f hfailed).2

/-- Two plans for one key. -/
def rivalPlans : List Plan :=
  [⟨{ base := { name := "web", ns := "prod" } }, 0⟩,
    ⟨{ base := { name := "web", ns := "prod", restartPolicy := "Always" } }, 30⟩]

/-- A cluster with an old Pod under the key of `rivalPlans`. -/
def rivalCluster : Cluster where
  pods := SortedMap.empty.insert ⟨"prod", "web"⟩ {}

/-- The second of the `rivalPlans` comes while the first one, whose watch could not be opened, waits
for the deadline. -/
def race : List Action :=
  [.run 0 (.answer {} 0), .run 0 (.answer {} 1),
    .run 0 (.answer { error := some (.transport "reset") } 2), .run 0 (.answer {} 3),
    .run 1 (.answer {} 4), .run 1 (.answer {} 5), .run 0 .deadline, .run 0 (.answer {} 9)]

/-- After `race` the Pod of the second run is stored. -/
theorem race_loses_no_pod :
    (start rivalPlans rivalCluster).Obeys Atomic race ∧
      ((start rivalPlans rivalCluster).play race).IsOver ∧
      ∀ plan ∈ rivalPlans, ∃ r ∈ ((start rivalPlans rivalCluster).play race).runs,
        r.plan.key = plan.key ∧ ∃ done version, r.stage = .finished (.ok done) ∧
          ((start rivalPlans rivalCluster).play race).cluster.pods.get? plan.key =
            some (Cluster.stored plan.key.ns version r.plan.request.toPod) := by
  have hplain : ({} : Incident).IsPlain := ⟨rfl, rfl, rfl, rfl, rfl⟩
  have hatomic : (start rivalPlans rivalCluster).Obeys Atomic race :=
    ⟨.inl hplain, .inl hplain, .inr ⟨_, _, rfl, rfl⟩, .inl hplain, .inl hplain, .inl hplain, trivial,
      .inl hplain, trivial⟩
  have hover : ((start rivalPlans rivalCluster).play race).IsOver := by decide
  exact ⟨hatomic, hover, (play_loses_no_pod rivalPlans rivalCluster race hatomic hover).2.1⟩

end Scene

end PodDesk
