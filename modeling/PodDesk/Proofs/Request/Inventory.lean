import PodDesk.Proofs.Request.Acceptance
import PodDesk.Request.OfPod

/-!
# What is listed of a Pod

Volumes that a request cannot express are left out when a Pod is shown, and with them the mounts of
these volumes. The two filters agree for every Pod, also where volumes share a name or have several
sources, so what is shown mounts nothing that it does not declare. All other lists keep their length
and their order.

## Main statements

- `Volume.ofPod?_eq_none_iff`: the volumes that are left out
- `Pod.ListedAs`: what the lists of a request have to do with those of a Pod
- `PodRequest.ofPod_lists_pod`: the request that shows a Pod lists it, and declares its mounts
-/

namespace PodDesk

/-! ## What is listed -/

namespace Pod

/-- The containers of `p`: init containers first. A Pod without a spec has none. -/
def allContainers (p : Pod) : List Container :=
  itemsOf (p.spec.getD {}).initContainers ++ (p.spec.getD {}).containers

/-- `v.HasSource` says that `v` has a source that a request can express. -/
def Volume.HasSource (v : Volume) : Prop :=
  v.emptyDir = true ∨ v.configMap.isSome ∨ v.secret.isSome ∨ v.hostPath.isSome ∨ v.claim.isSome ∨
    v.downward.isSome

instance (v : Volume) : Decidable v.HasSource :=
  inferInstanceAs (Decidable (_ ∨ _))

/-- `v.ShownAs shown` says that volume `v` is shown under its name, with a source that it has. -/
structure Volume.ShownAs (v : Volume) (shown : PodDesk.Volume) : Prop where
  name : shown.name = v.name
  source :
    match shown.kind with
    | .emptyDir => v.emptyDir = true
    | .configMap => ∃ source ∈ v.configMap, shown.configMap = .ofPod source
    | .secret => ∃ source ∈ v.secret, shown.secret = .ofPod source
    | .hostPath => ∃ source ∈ v.hostPath, shown.hostPath = ⟨textOr source.kind, source.path⟩
    | .claim => ∃ source ∈ v.claim, shown.claim = source.claimName
    | .downward =>
      ∃ source ∈ v.downward, shown.downward = (itemsOf source.items).filterMap FieldFile.ofPod?

/-- `c.ListedAs volumes shown` says that container `c` is shown with its lists; of the mounts there
are those of the given volumes. -/
structure Container.ListedAs (volumes : List String) (c : Container) (shown : PodDesk.Container) :
    Prop where
  name : shown.name = c.name
  mounts : shown.mounts.map (fun m => (m.volume, m.path, m.readOnly)) =
    ((itemsOf c.mounts).filter (·.name ∈ volumes)).map fun m =>
      (m.name, m.path, m.readOnly.getD false)
  ports : shown.ports.map (fun p => (p.name, p.containerPort, p.hostPort)) =
    (itemsOf c.ports).map fun p => (textOr p.name, p.containerPort, p.hostPort.getD 0)
  envs : shown.envs.map (·.name) = (itemsOf c.env).map (·.name)
  envSources : shown.envSources.map (·.namePrefix) =
    (itemsOf c.envFrom).map fun e => textOr e.namePrefix

/-- `p.ListedAs r` says that Pod `p` is shown as `r` with its lists; of the volumes there are those
with a source, and of the mounts those of the volumes that are there. -/
structure ListedAs (p : Pod) (r : PodRequest) : Prop where
  volumes : List.Forall₂ Volume.ShownAs
    ((itemsOf (p.spec.getD {}).volumes).filter (·.HasSource)) r.volumes
  initContainers : List.Forall₂ (Container.ListedAs r.volumeNames)
    (itemsOf (p.spec.getD {}).initContainers) r.initContainers
  containers : List.Forall₂ (Container.ListedAs r.volumeNames)
    (p.spec.getD {}).containers r.containers
  tolerations : r.tolerations.map (fun t => (t.key, t.operator, t.value, t.effect, t.seconds)) =
    (itemsOf (p.spec.getD {}).tolerations).map fun t =>
      (textOr t.key, textOr t.operator, textOr t.value, textOr t.effect, t.seconds)

end Pod

/-! ## Lists in step -/

section ListsInStep

variable {α β : Type} {R : α → β → Prop}

theorem forall₂_map_right {f : α → β} (h : ∀ a, R a (f a)) (as : List α) :
    List.Forall₂ R as (as.map f) := by
  rw [List.forall₂_map_right_iff, List.forall₂_same]
  exact fun a _ => h a

/-- What follows from `List.Forall₂` holds of all items on the right. -/
theorem forall_mem_of_forall₂ {P : β → Prop} {as : List α} {bs : List β}
    (h : List.Forall₂ R as bs) (hP : ∀ a b, R a b → P b) : ∀ b ∈ bs, P b := by
  induction h with
  | nil => simp
  | cons hab _ ih => exact List.forall_mem_cons.2 ⟨hP _ _ hab, ih⟩

end ListsInStep

/-! ## Volumes -/

namespace Volume

variable {v : Pod.Volume} {shown : Volume}

/-- `Volume.ofPod?` leaves a volume out when it has none of the sources. -/
theorem ofPod?_eq_none_iff : ofPod? v = none ↔ ¬ v.HasSource := by
  obtain ⟨name, emptyDir, configMap, secret, hostPath, claim, downward⟩ := v
  cases emptyDir <;> cases configMap <;> cases secret <;> cases hostPath <;> cases claim <;>
    cases downward <;> simp [ofPod?, Pod.Volume.HasSource]

theorem shownAs_of_ofPod? (h : ofPod? v = some shown) : v.ShownAs shown := by
  -- One case for each source, in the order in which they are looked for.
  unfold ofPod? at h
  split at h
  · rename_i hsource
    cases h
    exact ⟨rfl, hsource⟩
  repeat'
    split at h
    · rename_i source hsource
      cases h
      exact ⟨rfl, source, hsource, rfl⟩
  cases h

/-- `Volume.ofPod?` shows the volumes with a source in order. -/
theorem forall₂_shownAs (vs : List Pod.Volume) :
    List.Forall₂ Pod.Volume.ShownAs (vs.filter (·.HasSource)) (vs.filterMap ofPod?) := by
  induction vs with
  | nil => exact .nil
  | cons v vs ih =>
    -- A volume passes both filters or neither.
    cases h : ofPod? v with
    | none =>
      have hsource := ofPod?_eq_none_iff.1 h
      rw [List.filterMap_cons_none h, List.filter_cons_of_neg (by simpa using hsource)]
      exact ih
    | some shown =>
      have hsource : v.HasSource := by
        by_contra hnone
        simp [ofPod?_eq_none_iff.2 hnone] at h
      rw [List.filterMap_cons_some h, List.filter_cons_of_pos (by simpa using hsource)]
      exact .cons (shownAs_of_ofPod? h) ih

end Volume

/-! ## Containers -/

theorem Container.listedAs_ofPod (volumes : List String) (c : Pod.Container) :
    c.ListedAs volumes (Container.ofPod volumes c) where
  name := rfl
  mounts := by
    simp only [ofPod, Mount.ofPod, List.map_map, Function.comp_def, List.contains_eq_mem]
  ports := by
    rw [ofPod, List.map_map]
    rfl
  envs := by
    have hname (e : Pod.EnvVar) : (EnvVar.ofPod e).name = e.name := by
      unfold EnvVar.ofPod
      split <;> rfl
    rw [ofPod, List.map_map]
    exact List.map_congr_left fun e _ => hname e
  envSources := by
    have hprefix (e : Pod.EnvSource) : (EnvSource.ofPod e).namePrefix = textOr e.namePrefix := by
      unfold EnvSource.ofPod
      split <;> rfl
    rw [ofPod, List.map_map]
    exact List.map_congr_left fun e _ => hprefix e

/-- A container that is `ListedAs` another mounts only the given volumes. -/
theorem Container.mounts_of_listedAs {volumes : List String} {c : Pod.Container}
    {shown : Container} (h : c.ListedAs volumes shown) :
    ∀ m ∈ shown.mounts, m.volume ∈ volumes := by
  intro m hm
  have hmem := List.mem_map_of_mem (f := fun m => (m.volume, m.path, m.readOnly)) hm
  rw [h.mounts] at hmem
  obtain ⟨mount, hmount, heq⟩ := List.mem_map.1 hmem
  have hname : mount.name = m.volume := congrArg Prod.fst heq
  simpa [hname] using (List.mem_filter.1 hmount).2

namespace PodRequest

/-- `PodRequest.ofPod` shows the containers of the Pod in order. -/
theorem forall₂_allContainers_ofPod {R : Pod.Container → Container → Prop} (p : Pod)
    (h : ∀ volumes c, R c (Container.ofPod volumes c)) :
    List.Forall₂ R p.allContainers (ofPod p).allContainers :=
  List.rel_append (forall₂_map_right (h _) _) (forall₂_map_right (h _) _)

/-- A request as which a Pod is `ListedAs` declares its mounts. -/
theorem declaresMounts_of_listedAs {p : Pod} {r : PodRequest} (h : p.ListedAs r) :
    r.DeclaresMounts :=
  forall_mem_of_forall₂ (List.rel_append h.initContainers h.containers) fun _ _ hc =>
    Container.mounts_of_listedAs hc

theorem listedAs_ofPod (p : Pod) : p.ListedAs (ofPod p) where
  volumes := Volume.forall₂_shownAs _
  initContainers := forall₂_map_right (Container.listedAs_ofPod _) _
  containers := forall₂_map_right (Container.listedAs_ofPod _) _
  tolerations := by
    rw [ofPod, List.map_map]
    rfl

/-- The request that `ofPod` shows for a Pod has exactly the volumes that it can express and exactly
the mounts of these, in order, and all of the other lists; so it mounts nothing that it does not
declare. -/
theorem ofPod_lists_pod (p : Pod) : p.ListedAs (ofPod p) ∧ (ofPod p).DeclaresMounts :=
  ⟨listedAs_ofPod p, declaresMounts_of_listedAs (listedAs_ofPod p)⟩

end PodRequest

end PodDesk
