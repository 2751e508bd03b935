import PodDesk.Proofs.Request.Acceptance

/-!
# What an accepted request keeps

A client that is shown the Pod of an accepted request may submit what it sees: it is accepted again,
and asks for the same volumes and the same containers. The check decides by what is kept and by the
pinned node alone.

## Main statements

- `PodRequest.IsAcceptable.of_keeps`: what keeps an acceptable request is acceptable
- `PodRequest.keeps_normal`: a normal form keeps a request that declares its mounts
- `PodRequest.accepted_shown_again`: what is shown of an accepted request
-/

namespace PodDesk

/-! ## What is kept -/

/-- `c.Keeps shown` says that what is shown of container `c` keeps its image, what it runs and what
it mounts; of a variable it keeps the name. -/
structure Container.Keeps (c shown : Container) : Prop where
  name : shown.name = c.name
  image : shown.image = c.image
  command : shown.command = c.command
  args : shown.args = c.args
  envs : shown.envs.map (·.name) = c.envs.map (·.name)
  mounts : shown.mounts = c.mounts

/-- `r.Keeps shown` says that what is shown of request `r` keeps its identity, its volumes and its
containers, in order. -/
structure PodRequest.Keeps (r shown : PodRequest) : Prop where
  name : shown.base.name = r.base.name
  ns : shown.base.ns = r.base.ns
  volumes : shown.volumes.map (fun v => (v.name, v.kind)) = r.volumes.map fun v => (v.name, v.kind)
  initContainers : List.Forall₂ Container.Keeps r.initContainers shown.initContainers
  containers : List.Forall₂ Container.Keeps r.containers shown.containers

namespace PodRequest

variable {r shown : PodRequest}

namespace Keeps

theorem volumeNames (h : r.Keeps shown) : shown.volumeNames = r.volumeNames := by
  have hnames := congrArg (List.map Prod.fst) h.volumes
  rw [List.map_map, List.map_map] at hnames
  exact hnames

theorem allContainers (h : r.Keeps shown) :
    List.Forall₂ Container.Keeps r.allContainers shown.allContainers :=
  List.rel_append h.initContainers h.containers

theorem names (h : r.Keeps shown) :
    shown.allContainers.map (·.name) = r.allContainers.map (·.name) := by
  have hall := h.allContainers
  generalize r.allContainers = cs, shown.allContainers = cs' at hall ⊢
  induction hall with
  | nil => rfl
  | cons hc _ ih => rw [List.map_cons, List.map_cons, hc.name, ih]

/-- With `Keeps`, what is kept with every container holds of all that are shown. -/
theorem forall_mem (h : r.Keeps shown) {p : Container → Prop}
    (hp : ∀ c c', c.Keeps c' → p c → p c') (hr : ∀ c ∈ r.allContainers, p c) :
    ∀ c ∈ shown.allContainers, p c := by
  have hall := h.allContainers
  generalize r.allContainers = cs, shown.allContainers = cs' at hall hr ⊢
  induction hall with
  | nil => simp
  | @cons c c' _ _ hc _ ih =>
    rw [List.forall_mem_cons] at hr ⊢
    exact ⟨hp c c' hc hr.1, ih hr.2⟩

end Keeps

/-- A request that `Keeps` an acceptable one, with its node, is acceptable: the check decides by
nothing else. -/
theorem IsAcceptable.of_keeps (h : r.IsAcceptable) (hkeeps : r.Keeps shown)
    (hnode : shown.scheduling.kind = .name → Text.HasContent shown.scheduling.nodeName) :
    shown.IsAcceptable where
  name := hkeeps.name ▸ h.name
  ns := hkeeps.ns ▸ h.ns
  containers := by
    -- As many are shown as there were.
    have hlength := hkeeps.containers.length_eq
    have hpresent := h.containers
    rw [← List.length_pos_iff] at hpresent ⊢
    omega
  names := hkeeps.forall_mem (fun _ _ hc hname => hc.name ▸ hname) h.names
  distinct := hkeeps.names ▸ h.distinct
  images := hkeeps.forall_mem (fun _ _ hc himage => hc.image ▸ himage) h.images
  mounts := by
    rw [DeclaresMounts, hkeeps.volumeNames]
    exact hkeeps.forall_mem (fun _ _ hc hmounts => hc.mounts ▸ hmounts) h.mounts
  nodeName := hnode

end PodRequest

/-! ## What a normal form keeps -/

/-- `Container.normal` loses no mount when all of them are of known volumes. -/
theorem Container.keeps_normal {volumes : List String} {c : Container}
    (h : ∀ m ∈ c.mounts, m.volume ∈ volumes) : c.Keeps (c.normal volumes) where
  name := rfl
  image := rfl
  command := rfl
  args := rfl
  envs := by
    rw [normal, List.map_map]
    rfl
  mounts := by
    rw [normal, List.filter_eq_self]
    simpa only [List.contains_iff_mem] using h

/-- `Scheduling.normal` pins no other node than the one that was pinned. -/
theorem Scheduling.nodeName_normal {s : Scheduling} (h : s.normal.kind = .name) :
    s.kind = .name ∧ s.normal.nodeName = s.nodeName := by
  unfold normal at h ⊢
  -- A kind that chooses nothing becomes another one, but no kind becomes a pinned node.
  cases hkind : s.kind with
  | name => by_cases hname : s.nodeName = "" <;> simp_all
  | any => simp [hkind] at h
  | selector => by_cases hselector : KeyValue.sorted s.selector = [] <;> simp_all
  | affinity => simp [hkind] at h

namespace PodRequest

variable {r : PodRequest}

/-- `PodRequest.normal` keeps a request that declares its mounts. -/
theorem keeps_normal (h : r.DeclaresMounts) : r.Keeps r.normal where
  name := rfl
  ns := rfl
  volumes := by
    rw [normal, List.map_map]
    rfl
  initContainers := by
    rw [normal, List.forall₂_map_right_iff, List.forall₂_same]
    exact fun c hc => Container.keeps_normal (h c (List.mem_append_left _ hc))
  containers := by
    rw [normal, List.forall₂_map_right_iff, List.forall₂_same]
    exact fun c hc => Container.keeps_normal (h c (List.mem_append_right _ hc))

theorem IsAcceptable.normal (h : r.IsAcceptable) : r.normal.IsAcceptable := by
  refine h.of_keeps (keeps_normal h.mounts) fun hkind => ?_
  obtain ⟨hname, hnode⟩ := Scheduling.nodeName_normal hkind
  exact hnode ▸ h.nodeName hname

/-- What `ofPod` shows for the Pod of an accepted request is accepted again, and no volume,
container or mount is lost in it. -/
theorem accepted_shown_again (h : r.violation? = none) :
    (ofPod r.toPod).violation? = none ∧ r.Keeps (ofPod r.toPod) := by
  rw [violation?_eq_none_iff] at h ⊢
  rw [ofPod_toPod]
  exact ⟨h.normal, keeps_normal h.mounts⟩

/-- A cache on one node. The request also says things that its kinds do not choose. -/
def pinnedRequest : PodRequest where
  base := { name := "cache-1", ns := "prod" }
  scheduling := { kind := .name, nodeName := "node-7", selector := [⟨"disk", "ssd"⟩] }
  volumes := [
    { name := "data", kind := .hostPath, hostPath := { path := "/srv" }, claim := "unused" },
    { name := "conf", kind := .configMap, configMap := { name := "redis" } }]
  initContainers := [{
    name := "prepare"
    image := "busybox"
    command := ["mkdir", "-p", "/data/dump"]
    mounts := [{ volume := "data", path := "/data" }] }]
  containers := [{
    name := "main"
    image := "redis:7"
    envs := [{ name := "MODE", value := "cache", refName := "unused" }]
    mounts := [{ volume := "conf", path := "/etc", readOnly := true },
      { volume := "data", path := "/data" }] }]

/-- Without what the kinds do not choose, `pinnedRequest` is accepted again, with all of its mounts.
-/
theorem pinnedRequest_accepted_again :
    pinnedRequest.violation? = none ∧ pinnedRequest.normal ≠ pinnedRequest ∧
      (ofPod pinnedRequest.toPod).violation? = none ∧
      pinnedRequest.Keeps (ofPod pinnedRequest.toPod) := by
  have hvalid : pinnedRequest.violation? = none := by decide
  have hchanged : pinnedRequest.normal ≠ pinnedRequest := by
    intro h
    have hselector := congrArg (·.scheduling.selector) h
    simp [normal, Scheduling.normal, pinnedRequest] at hselector
  exact ⟨hvalid, hchanged, accepted_shown_again hvalid⟩

end PodRequest

end PodDesk
