import PodDesk.Pod.OfRequest
import PodDesk.Proofs.Pod.Quantity
import PodDesk.Proofs.SortedEntries
import PodDesk.Request.OfPod

/-!
# Normal forms of requests

A request is described anew by the Pod that is made for it. What the Pod cannot tell is lost on the
way: the alternatives that a kind does not choose, sections that are switched off, numbers that are
not positive, and the ways to write a list. What is left is the normal form of the request, here
part by part.

## Main statements

- `Resources.ofPod_toPod?`, `Probe.ofPod_toPod?`, `Volume.ofPod?_toPod`, `Container.ofPod_toPod`:
  the parts of a request that is described by its Pod
- `PodRequest.ofPod_toPod`: a request that is described by its Pod is in normal form
-/

namespace PodDesk

/-- The number `n`, or zero when it is negative. -/
def nonNegative (n : Int32) : Int32 :=
  if 0 < n then n else 0

/-- The entries of `items` with the last value of every key, by increasing key. -/
def KeyValue.sorted (items : List KeyValue) : List KeyValue :=
  ofMap (toMap items)

/-- The text that names the same entries as `s`, written without blanks. -/
def Text.CommaList.normal (s : String) : String :=
  join (parse s)

def NodeExpression.normal (e : NodeExpression) : NodeExpression :=
  { e with value := Text.CommaList.normal e.value }

/-- The scheduling with the alternative of its kind. A name or a selector that is missing chooses
nothing. -/
def Scheduling.normal (s : Scheduling) : Scheduling :=
  match s.kind with
  | .any => {}
  | .name => if s.nodeName = "" then {} else { kind := .name, nodeName := s.nodeName }
  | .selector =>
    if KeyValue.sorted s.selector = [] then {}
    else { kind := .selector, selector := KeyValue.sorted s.selector }
  | .affinity => { kind := .affinity, affinity := s.affinity.map NodeExpression.normal }

def Networking.normalAlias (kv : KeyValue) : KeyValue :=
  { kv with value := Text.CommaList.normal kv.value }

def Networking.normal (n : Networking) : Networking :=
  { n with hostAliases := n.hostAliases.map normalAlias }

/-- The volume with the source of its kind. -/
def Volume.normal (v : Volume) : Volume where
  name := v.name
  kind := v.kind
  configMap := if v.kind = .configMap then v.configMap else {}
  secret := if v.kind = .secret then v.secret else {}
  hostPath := if v.kind = .hostPath then v.hostPath else {}
  downward := if v.kind = .downward then v.downward else []
  claim := if v.kind = .claim then v.claim else ""

def Port.normal (p : Port) : Port :=
  { p with hostPort := nonNegative p.hostPort }

/-- The variable; a literal value refers to nothing. -/
def EnvVar.normal (e : EnvVar) : EnvVar :=
  { e with refName := if e.kind = .literal then "" else e.refName }

/-- `r.HasFigure` says that a quota of some resource is set. -/
def Resources.HasFigure (r : Resources) : Prop :=
  0 < r.cpuRequest ∨ 0 < r.memRequest ∨ 0 < r.cpuLimit ∨ 0 < r.memLimit

instance (r : Resources) : Decidable r.HasFigure :=
  inferInstanceAs (Decidable (_ ∨ _))

/-- The quotas, which are switched off when none is set. -/
def Resources.normal (r : Resources) : Resources :=
  if r.enabled = true ∧ r.HasFigure then
    { enabled := true
      memRequest := nonNegative r.memRequest
      memLimit := nonNegative r.memLimit
      cpuRequest := nonNegative r.cpuRequest
      cpuLimit := nonNegative r.cpuLimit }
  else {}

/-- The probe with the check of its kind; one that is switched off has no settings. -/
def Probe.normal (p : Probe) : Probe :=
  if p.enabled then
    { enabled := true
      kind := p.kind
      http := if p.kind = .http then p.http else {}
      command := if p.kind = .exec then p.command else []
      tcp := if p.kind = .tcp then p.tcp else {}
      initialDelay := nonNegative p.initialDelay
      period := nonNegative p.period
      timeout := nonNegative p.timeout
      successThreshold := nonNegative p.successThreshold
      failureThreshold := nonNegative p.failureThreshold }
  else {}

/-- The container, with the mounts of the volumes called `volumes`. -/
def Container.normal (volumes : List String) (c : Container) : Container :=
  { c with
    ports := c.ports.map Port.normal
    envs := c.envs.map EnvVar.normal
    resources := c.resources.normal
    mounts := c.mounts.filter fun m => volumes.contains m.volume
    startupProbe := c.startupProbe.normal
    livenessProbe := c.livenessProbe.normal
    readinessProbe := c.readinessProbe.normal }

namespace PodRequest

/-- The names of the declared volumes. -/
def volumeNames (r : PodRequest) : List String :=
  r.volumes.map (·.name)

/-- The request that `ofPod` describes by the Pod of `r`. -/
def normal (r : PodRequest) : PodRequest where
  base := { r.base with labels := KeyValue.sorted r.base.labels }
  tolerations := r.tolerations
  scheduling := r.scheduling.normal
  volumes := r.volumes.map Volume.normal
  networking := r.networking.normal
  initContainers := r.initContainers.map (Container.normal r.volumeNames)
  containers := r.containers.map (Container.normal r.volumeNames)

end PodRequest

/-! ## Absent and empty -/

@[simp] theorem textOr_nonEmpty (s : String) : textOr (Text.nonEmpty s) = s := by
  unfold Text.nonEmpty
  split
  · rename_i h
    exact (String.isEmpty_iff.1 h).symm
  · rfl

@[simp] theorem textOr_some (s : String) : textOr (some s) = s := rfl

@[simp] theorem itemsOf_some {α : Type} (items : List α) : itemsOf (some items) = items := rfl

@[simp] theorem itemsOf_nonEmptyList {α : Type} (items : List α) :
    itemsOf (nonEmptyList items) = items := by
  cases items <;> rfl

@[simp] theorem positive?_getD (n : Int32) : (positive? n).getD 0 = nonNegative n := by
  unfold positive? nonNegative
  split <;> rfl

theorem nonEmpty_eq_none_iff {s : String} : Text.nonEmpty s = none ↔ s = "" := by
  simp [Text.nonEmpty]

/-- `List.map` of writing and reading is a normal form of each item. -/
private theorem map_toPod_ofPod {α β : Type} {toPod : α → β} {ofPod : β → α} {normal : α → α}
    (h : ∀ a, ofPod (toPod a) = normal a) (items : List α) :
    (items.map toPod).map ofPod = items.map normal := by
  rw [List.map_map]
  exact List.map_congr_left fun a _ => h a

/-! ## The parts of a request -/

theorem KeyValue.ofMap_nonEmpty (m : TextMap) : (m.nonEmpty.map ofMap).getD [] = ofMap m := by
  unfold SortedMap.nonEmpty
  split
  · rename_i h
    have hentries : m.entries = [] := List.isEmpty_iff.1 h
    simp [ofMap, hentries]
  · rfl

theorem Toleration.ofPod_toPod (t : Toleration) : Toleration.ofPod t.toPod = t := by
  simp [Toleration.ofPod, Toleration.toPod]

theorem NodeExpression.ofPod_toPod (e : NodeExpression) :
    NodeExpression.ofPod e.toPod = e.normal := by
  simp [NodeExpression.ofPod, NodeExpression.toPod, NodeExpression.normal, Text.CommaList.normal]

theorem Networking.ofPod_toSpec (r : PodRequest) :
    Networking.ofPod r.toSpec = r.networking.normal := by
  have hnameservers : itemsOf (r.networking.dnsConfig?.bind (·.nameservers)) =
      r.networking.nameservers := by
    unfold Networking.dnsConfig?
    cases r.networking.nameservers <;> rfl
  have haliases : (r.networking.hostAliases.map Networking.aliasOf).map Networking.describeAlias =
      r.networking.hostAliases.map Networking.normalAlias :=
    map_toPod_ofPod (fun _ => rfl) _
  simp only [Networking.ofPod, PodRequest.toSpec, hnameservers, itemsOf_nonEmptyList, haliases,
    textOr_nonEmpty, Option.getD_some, Networking.normal]

/-- `KeyValue.toMap` of a list is present when there is an entry. -/
theorem KeyValue.nonEmpty_toMap (items : List KeyValue) :
    (toMap items).nonEmpty = if sorted items = [] then none else some (toMap items) := by
  unfold SortedMap.nonEmpty SortedMap.isEmpty sorted ofMap
  simp only [List.map_eq_nil_iff, List.isEmpty_iff]

theorem Scheduling.ofPod_toSpec (r : PodRequest) :
    Scheduling.ofPod r.toSpec = r.scheduling.normal := by
  simp only [Scheduling.ofPod, PodRequest.toSpec, Pod.Spec.firstNodeTerm?, nodeName?,
    nodeSelector?, affinity?, Scheduling.normal]
  cases r.scheduling.kind with
  | any => rfl
  | name =>
    by_cases hname : r.scheduling.nodeName = ""
    · simp [Text.nonEmpty, hname]
    · simp [Text.nonEmpty, hname]
  | selector =>
    by_cases hselector : KeyValue.sorted r.scheduling.selector = []
    · simp [KeyValue.nonEmpty_toMap, hselector]
    · simp only [KeyValue.nonEmpty_toMap, hselector, if_true, if_false]
      rfl
  | affinity =>
    have hexpressions := map_toPod_ofPod NodeExpression.ofPod_toPod r.scheduling.affinity
    rw [List.map_map] at hexpressions
    simp [hexpressions]

theorem FieldFile.ofPod?_toPod (f : FieldFile) : FieldFile.ofPod? f.toPod = some f := rfl

/-- `Volume.ofPod?` shows every volume of the Pod of a request. -/
theorem Volume.ofPod?_toPod (v : Volume) : Volume.ofPod? v.toPod = some v.normal := by
  have hfiles : (v.downward.map FieldFile.toPod).filterMap FieldFile.ofPod? = v.downward := by
    rw [List.filterMap_map]
    exact List.filterMap_some
  obtain ⟨name, kind, configMap, secret, hostPath, downward, claim⟩ := v
  cases kind <;> simp_all [Volume.toPod, Volume.ofPod?, Volume.normal, ObjectRef.ofPod]

theorem Port.ofPod_toPod (p : Port) : Port.ofPod p.toPod = p.normal := by
  simp [Port.ofPod, Port.toPod, Port.normal]

theorem EnvVar.ofPod_toPod (e : EnvVar) : EnvVar.ofPod e.toPod = e.normal := by
  obtain ⟨name, refName, value, kind⟩ := e
  cases kind <;> rfl

theorem EnvSource.ofPod_toPod (e : EnvSource) : EnvSource.ofPod e.toPod = e := by
  obtain ⟨name, kind, namePrefix⟩ := e
  cases kind <;> simp [EnvSource.ofPod, EnvSource.toPod]

/-! ## Quotas -/

/-- The figures that are read from `Resources.quantities` of two figures. -/
private theorem figures_quantities (cpu mem : Int32) :
    Resources.cpu (Resources.quantities cpu mem) = nonNegative cpu ∧
      Resources.memory (Resources.quantities cpu mem) = nonNegative mem ∧
      ((Resources.quantities cpu mem).isSome = true ↔ 0 < cpu ∨ 0 < mem) := by
  -- The keys differ, so neither quantity hides the other.
  have hmemory (m : TextMap) (value : String) :
      (m.insert "memory" value).get? "cpu" = m.get? "cpu" :=
    SortedMap.get?_insert_of_ne m value (by decide)
  have hcpuOnly (value : String) :
      ((SortedMap.empty : TextMap).insert "cpu" value).get? "memory" = none :=
    SortedMap.get?_insert_of_ne _ value (by decide)
  have hempty : (SortedMap.empty : TextMap).nonEmpty = none := rfl
  by_cases hcpu : 0 < cpu <;> by_cases hmem : 0 < mem <;>
    simp [Resources.quantities, Resources.cpu, Resources.memory, nonNegative, hcpu, hmem,
      hmemory, hcpuOnly, hempty, SortedMap.nonEmpty_insert, Quantity.millicores_ofMillicores,
      Quantity.mebibytes_ofMebibytes]

theorem Resources.ofPod_toPod? (r : Resources) : Resources.ofPod r.toPod? = r.normal := by
  -- Requests and limits are written and read alike.
  obtain ⟨hcpuRequest, hmemRequest, hrequests⟩ := figures_quantities r.cpuRequest r.memRequest
  obtain ⟨hcpuLimit, hmemLimit, hlimits⟩ := figures_quantities r.cpuLimit r.memLimit
  unfold Resources.normal Resources.toPod?
  cases henabled : r.enabled with
  | false => rfl
  | true =>
    have hfigure : ((quantities r.cpuRequest r.memRequest).isSome ||
        (quantities r.cpuLimit r.memLimit).isSome) = true ↔ r.HasFigure := by
      rw [Bool.or_eq_true, hrequests, hlimits, HasFigure, or_assoc]
    by_cases h : r.HasFigure
    · simp [Resources.ofPod, hcpuRequest, hmemRequest, hcpuLimit, hmemLimit, h, hfigure.2 h]
    · -- The section is there, but it has no quantity and reads as switched off.
      have hnone := h
      simp only [HasFigure, not_or] at hnone
      obtain ⟨hcpuRequest', hmemRequest', hcpuLimit', hmemLimit'⟩ := hnone
      simp only [Resources.ofPod, if_true, Option.bind_some, hcpuRequest, hmemRequest, hcpuLimit,
        hmemLimit, h, and_false, if_false, nonNegative, hcpuRequest', hmemRequest', hcpuLimit',
        hmemLimit', Bool.eq_false_iff.2 fun heq => h (hfigure.1 heq)]

/-! ## Probes -/

theorem HttpCheck.ofPod_toPod (h : HttpCheck) : HttpCheck.ofPod h.toPod = h := by
  have hheaders : (h.headers.map fun kv => (⟨kv.key, kv.value⟩ : Pod.Header)).map
      (fun header => (⟨header.name, header.value⟩ : KeyValue)) = h.headers := by
    rw [List.map_map]
    exact List.map_id'' (fun _ => rfl) _
  simp only [HttpCheck.ofPod, HttpCheck.toPod, itemsOf_nonEmptyList, hheaders, textOr_nonEmpty,
    Pod.PortRef.toNumber]

theorem TcpCheck.ofPod_toPod (t : TcpCheck) : TcpCheck.ofPod t.toPod = t := by
  simp [TcpCheck.ofPod, TcpCheck.toPod, Pod.PortRef.toNumber]

theorem Probe.ofPod_toPod? (p : Probe) : Probe.ofPod p.toPod? = p.normal := by
  unfold Probe.toPod? Probe.normal
  split
  · cases hkind : p.kind <;>
      simp [Probe.ofPod, Probe.timing, HttpCheck.ofPod_toPod, TcpCheck.ofPod_toPod]
  · rfl

/-! ## Containers and requests -/

theorem Mount.ofPod_toPod (m : Mount) : Mount.ofPod m.toPod = m := rfl

theorem Container.ofPod_toPod (volumes : List String) (c : Container) :
    Container.ofPod volumes c.toPod = c.normal volumes := by
  have hports := map_toPod_ofPod Port.ofPod_toPod c.ports
  have henvs := map_toPod_ofPod EnvVar.ofPod_toPod c.envs
  have hsources := map_toPod_ofPod EnvSource.ofPod_toPod c.envSources
  have hmounts : ((c.mounts.map Mount.toPod).filter fun m => volumes.contains m.name).map
      Mount.ofPod = c.mounts.filter fun m => volumes.contains m.volume := by
    rw [List.filter_map, List.map_map]
    exact List.map_id'' Mount.ofPod_toPod _
  have hprivileged : ((if c.privileged then some ({ privileged := some true } :
      Pod.SecurityContext) else none).bind (·.privileged)).getD false = c.privileged := by
    cases c.privileged <;> rfl
  simp only [Container.ofPod, Container.toPod, Container.normal, hports, henvs, hsources, hmounts,
    hprivileged, textOr_nonEmpty, textOr_some, itemsOf_nonEmptyList, Option.getD_some,
    Resources.ofPod_toPod?, Probe.ofPod_toPod?, List.map_id']

namespace PodRequest

/-- `volumesOf` the Pod of a request are those of the request. -/
theorem volumesOf_toSpec (r : PodRequest) : volumesOf r.toSpec = r.volumes.map Volume.normal := by
  have hvolume : Volume.ofPod? ∘ Volume.toPod = some ∘ Volume.normal :=
    funext Volume.ofPod?_toPod
  rw [volumesOf, toSpec, itemsOf_nonEmptyList, List.filterMap_map, hvolume, List.filterMap_eq_map]

/-- `ofPod` of the Pod of a request is its normal form. -/
theorem ofPod_toPod (r : PodRequest) : ofPod r.toPod = r.normal := by
  have hvolumes := volumesOf_toSpec r
  have hnames : (r.volumes.map Volume.normal).map (·.name) = r.volumeNames := by
    rw [List.map_map]
    rfl
  have htolerations := map_toPod_ofPod Toleration.ofPod_toPod r.tolerations
  have hinit := map_toPod_ofPod (Container.ofPod_toPod r.volumeNames) r.initContainers
  have hcontainers := map_toPod_ofPod (Container.ofPod_toPod r.volumeNames) r.containers
  simp only [ofPod, toPod, Option.getD_some, hvolumes, hnames, KeyValue.ofMap_nonEmpty,
    Scheduling.ofPod_toSpec, Networking.ofPod_toSpec, textOr_some]
  simp only [toSpec, itemsOf_nonEmptyList, htolerations, hinit, hcontainers, textOr_nonEmpty,
    List.map_id', normal, KeyValue.sorted]

end PodRequest

end PodDesk
