import PodDesk.Proofs.Request.Normal

/-!
# Canonical requests

The requests that are their own normal form are those that say everything in one way: what a kind
does not choose is left at its default, lists of keys are sorted, texts that name several entries
are written without blanks, and no number is negative. Bringing a request into normal form twice is
the same as doing it once.

## Main statements

- `PodRequest.normal_eq_self_iff`: a request is its own normal form exactly when it is canonical
- `PodRequest.normal_normal`: a normal form is its own normal form
- `PodRequest.describe_fixed_iff_canonical`: both, for a request that is described by its Pod
-/

namespace PodDesk

/-! ## What is canonical -/

/-- `KeyValue.Increasing items` says that the keys increase, so none occurs twice. -/
def KeyValue.Increasing (items : List KeyValue) : Prop :=
  items.Pairwise fun a b => a.key < b.key

/-- `Text.CommaList.IsCanonical s` says that `s` names its entries without blanks: it is the join of
its trimmed parts, without the empty ones. -/
def Text.CommaList.IsCanonical (s : String) : Prop :=
  join (parse s) = s

/-- A scheduling `IsCanonical` when only the alternative of its kind is set, and chooses something.
-/
def Scheduling.IsCanonical (s : Scheduling) : Prop :=
  match s.kind with
  | .any => s.nodeName = "" ∧ s.selector = [] ∧ s.affinity = []
  | .name => s.nodeName ≠ "" ∧ s.selector = [] ∧ s.affinity = []
  | .selector =>
    s.nodeName = "" ∧ (s.selector ≠ [] ∧ KeyValue.Increasing s.selector) ∧ s.affinity = []
  | .affinity =>
    s.nodeName = "" ∧ s.selector = [] ∧
      ∀ e ∈ s.affinity, Text.CommaList.IsCanonical e.value

/-- A volume `IsCanonical` when only the source of its kind is set. -/
structure Volume.IsCanonical (v : Volume) : Prop where
  configMap : v.kind ≠ .configMap → v.configMap = {}
  secret : v.kind ≠ .secret → v.secret = {}
  hostPath : v.kind ≠ .hostPath → v.hostPath = {}
  downward : v.kind ≠ .downward → v.downward = []
  claim : v.kind ≠ .claim → v.claim = ""

/-- A variable `IsCanonical` unless it is a literal value that refers to something. -/
def EnvVar.IsCanonical (e : EnvVar) : Prop :=
  e.kind = .literal → e.refName = ""

/-- Quotas are canonical when they are off and zero, or on with one that is set and none that is
negative. -/
def Resources.IsCanonical (r : Resources) : Prop :=
  (r.enabled = false ∧ r.cpuRequest = 0 ∧ r.memRequest = 0 ∧ r.cpuLimit = 0 ∧ r.memLimit = 0) ∨
    (r.enabled = true ∧
      (0 ≤ r.cpuRequest ∧ 0 ≤ r.memRequest ∧ 0 ≤ r.cpuLimit ∧ 0 ≤ r.memLimit) ∧
      (0 < r.cpuRequest ∨ 0 < r.memRequest ∨ 0 < r.cpuLimit ∨ 0 < r.memLimit))

/-- `p.TimesNonNegative` says that no setting of how often the probe `p` looks is negative. -/
structure Probe.TimesNonNegative (p : Probe) : Prop where
  initialDelay : 0 ≤ p.initialDelay
  period : 0 ≤ p.period
  timeout : 0 ≤ p.timeout
  successThreshold : 0 ≤ p.successThreshold
  failureThreshold : 0 ≤ p.failureThreshold

/-- `p.ChecksOnlyKind` says that only the check of the kind is set. -/
structure Probe.ChecksOnlyKind (p : Probe) : Prop where
  http : p.kind ≠ .http → p.http = {}
  tcp : p.kind ≠ .tcp → p.tcp = {}
  exec : p.kind ≠ .exec → p.command = []

/-- A probe `IsCanonical` when it is off and without settings, or on with the check of its kind. -/
def Probe.IsCanonical (p : Probe) : Prop :=
  p = {} ∨ (p.enabled = true ∧ p.TimesNonNegative ∧ p.ChecksOnlyKind)

/-- A container `IsCanonical` among the volumes called `volumes` when its parts are and it mounts no
other. -/
structure Container.IsCanonical (volumes : List String) (c : Container) : Prop where
  ports : ∀ p ∈ c.ports, 0 ≤ p.hostPort
  envs : ∀ e ∈ c.envs, e.IsCanonical
  resources : c.resources.IsCanonical
  mounts : ∀ m ∈ c.mounts, m.volume ∈ volumes
  startupProbe : c.startupProbe.IsCanonical
  livenessProbe : c.livenessProbe.IsCanonical
  readinessProbe : c.readinessProbe.IsCanonical

/-- A request `IsCanonical` when it says everything in one way. -/
structure PodRequest.IsCanonical (r : PodRequest) : Prop where
  labels : KeyValue.Increasing r.base.labels
  scheduling : r.scheduling.IsCanonical
  hostAliases : ∀ kv ∈ r.networking.hostAliases, Text.CommaList.IsCanonical kv.value
  volumes : ∀ v ∈ r.volumes, v.IsCanonical
  initContainers : ∀ c ∈ r.initContainers, c.IsCanonical r.volumeNames
  containers : ∀ c ∈ r.containers, c.IsCanonical r.volumeNames

/-! ## Numbers, keys and texts -/

theorem nonNegative_eq_self_iff {n : Int32} : nonNegative n = n ↔ 0 ≤ n := by
  unfold nonNegative
  split
  · rename_i h
    exact iff_of_true rfl (Int32.le_of_lt h)
  · rename_i h
    have hle : n ≤ 0 := Int32.not_lt.1 h
    exact ⟨fun heq => heq ▸ Int32.le_refl _, fun hge => Int32.le_antisymm hge hle⟩

theorem nonNegative_nonNegative (n : Int32) : nonNegative (nonNegative n) = nonNegative n := by
  unfold nonNegative
  split <;> simp_all

theorem nonNegative_pos_iff {n : Int32} : 0 < nonNegative n ↔ 0 < n := by
  unfold nonNegative
  split <;> simp_all

/-- `List.map` changes nothing exactly when it changes no item. -/
private theorem map_eq_self_iff {α : Type} {f : α → α} {items : List α} :
    items.map f = items ↔ ∀ a ∈ items, f a = a := by
  induction items with
  | nil => simp
  | cons a items ih => simp [ih]

namespace KeyValue

theorem toMap_ofMap (m : TextMap) : toMap (ofMap m) = m := by
  have hentries : (ofMap m).map (fun kv => (kv.key, kv.value)) = m.entries := by
    rw [ofMap, List.map_map]
    exact List.map_id'' (fun _ => rfl) _
  rw [toMap, hentries, SortedMap.ofList_entries]

theorem toMap_sorted (items : List KeyValue) : toMap (sorted items) = toMap items :=
  toMap_ofMap _

theorem sorted_sorted (items : List KeyValue) : sorted (sorted items) = sorted items := by
  rw [sorted, toMap_sorted]
  rfl

theorem sorted_eq_self_iff {items : List KeyValue} : sorted items = items ↔ Increasing items := by
  have hentries : sorted items = items ↔
      (toMap items).entries = items.map fun kv => (kv.key, kv.value) := by
    unfold sorted ofMap
    constructor
    · intro h
      have hpairs := congrArg (List.map fun kv => (kv.key, kv.value)) h
      simpa [List.map_map, Function.comp_def] using hpairs
    · intro h
      rw [h, List.map_map]
      exact List.map_id'' (fun _ => rfl) _
  rw [hentries, toMap, SortedMap.entries_ofList_eq_self_iff, List.pairwise_map]
  rfl

end KeyValue

theorem Text.CommaList.normal_normal (s : String) : normal (normal s) = normal s := by
  rw [normal, normal, parse_join_parse]

/-! ## The parts of a request -/

theorem NodeExpression.normal_eq_self_iff {e : NodeExpression} :
    e.normal = e ↔ Text.CommaList.IsCanonical e.value := by
  obtain ⟨key, operator, value⟩ := e
  simp [normal, Text.CommaList.IsCanonical, Text.CommaList.normal]

theorem NodeExpression.normal_normal (e : NodeExpression) : e.normal.normal = e.normal := by
  simp [normal, Text.CommaList.normal_normal]

namespace Scheduling

theorem normal_eq_self_iff {s : Scheduling} : s.normal = s ↔ s.IsCanonical := by
  obtain ⟨kind, nodeName, selector, affinity⟩ := s
  unfold normal IsCanonical
  -- In each kind, the alternatives that are not chosen are cleared.
  cases kind with
  | any => simp [eq_comm]
  | name =>
    by_cases h : nodeName = "" <;> simp [h, eq_comm]
  | selector =>
    have hsorted := @KeyValue.sorted_eq_self_iff selector
    by_cases h : KeyValue.sorted selector = []
    · -- Only the empty list has no entry.
      have hnot : ¬ (selector ≠ [] ∧ KeyValue.Increasing selector) := by
        rintro ⟨hne, hincreasing⟩
        exact hne ((hsorted.2 hincreasing).symm.trans h)
      simp [h, hnot]
    · have hiff : KeyValue.sorted selector = selector ↔
          selector ≠ [] ∧ KeyValue.Increasing selector := by
        rw [← hsorted]
        exact ⟨fun heq => ⟨heq ▸ h, heq⟩, And.right⟩
      simp [h, ← hiff, eq_comm]
  | affinity =>
    have haffinity : affinity.map NodeExpression.normal = affinity ↔
        ∀ e ∈ affinity, Text.CommaList.IsCanonical e.value := by
      simp only [map_eq_self_iff, NodeExpression.normal_eq_self_iff]
    simp only [mk.injEq, true_and, haffinity, @eq_comm _ "" nodeName, @eq_comm _ [] selector]

theorem normal_normal (s : Scheduling) : s.normal.normal = s.normal := by
  unfold normal
  cases hkind : s.kind with
  | any => rfl
  | name =>
    by_cases h : s.nodeName = "" <;> simp [h]
  | selector =>
    by_cases h : KeyValue.sorted s.selector = [] <;> simp [h, KeyValue.sorted_sorted]
  | affinity =>
    simp [NodeExpression.normal_normal]

end Scheduling

theorem Volume.normal_eq_self_iff {v : Volume} : v.normal = v ↔ v.IsCanonical := by
  obtain ⟨name, kind, configMap, secret, hostPath, downward, claim⟩ := v
  constructor
  · intro h
    simp only [normal, mk.injEq, true_and, ite_eq_left_iff] at h
    obtain ⟨hconfigMap, hsecret, hhostPath, hdownward, hclaim⟩ := h
    exact ⟨fun hk => (hconfigMap hk).symm, fun hk => (hsecret hk).symm,
      fun hk => (hhostPath hk).symm, fun hk => (hdownward hk).symm, fun hk => (hclaim hk).symm⟩
  · rintro ⟨hconfigMap, hsecret, hhostPath, hdownward, hclaim⟩
    simp only [normal, mk.injEq, true_and, ite_eq_left_iff]
    exact ⟨fun hk => (hconfigMap hk).symm, fun hk => (hsecret hk).symm,
      fun hk => (hhostPath hk).symm, fun hk => (hdownward hk).symm, fun hk => (hclaim hk).symm⟩

theorem Volume.normal_normal (v : Volume) : v.normal.normal = v.normal := by
  obtain ⟨name, kind, configMap, secret, hostPath, downward, claim⟩ := v
  cases kind <;> rfl

theorem Port.normal_eq_self_iff {p : Port} : p.normal = p ↔ 0 ≤ p.hostPort := by
  obtain ⟨name, containerPort, hostPort⟩ := p
  simp [normal, nonNegative_eq_self_iff]

theorem Port.normal_normal (p : Port) : p.normal.normal = p.normal := by
  simp [normal, nonNegative_nonNegative]

theorem EnvVar.normal_eq_self_iff {e : EnvVar} : e.normal = e ↔ e.IsCanonical := by
  obtain ⟨name, refName, value, kind⟩ := e
  cases kind <;> simp [normal, IsCanonical, eq_comm]

theorem EnvVar.normal_normal (e : EnvVar) : e.normal.normal = e.normal := by
  obtain ⟨name, refName, value, kind⟩ := e
  cases kind <;> rfl

namespace Resources

variable {r : Resources}

theorem normal_of_hasFigure (henabled : r.enabled = true) (h : r.HasFigure) :
    r.normal =
      { enabled := true
        memRequest := nonNegative r.memRequest
        memLimit := nonNegative r.memLimit
        cpuRequest := nonNegative r.cpuRequest
        cpuLimit := nonNegative r.cpuLimit } :=
  if_pos ⟨henabled, h⟩

theorem normal_of_not (h : ¬ (r.enabled = true ∧ r.HasFigure)) : r.normal = {} :=
  if_neg h

theorem normal_eq_self_iff : r.normal = r ↔ r.IsCanonical := by
  by_cases h : r.enabled = true ∧ r.HasFigure
  · -- The quotas are on, and their figures must not change.
    obtain ⟨henabled, hfigure⟩ := h
    rw [normal_of_hasFigure henabled hfigure]
    obtain ⟨enabled, memRequest, memLimit, cpuRequest, cpuLimit⟩ := r
    obtain rfl : enabled = true := henabled
    simp only [mk.injEq, true_and, nonNegative_eq_self_iff, IsCanonical, Bool.true_eq_false,
      false_and, false_or]
    constructor
    · rintro ⟨hmemRequest, hmemLimit, hcpuRequest, hcpuLimit⟩
      exact ⟨⟨hcpuRequest, hmemRequest, hcpuLimit, hmemLimit⟩, hfigure⟩
    · rintro ⟨⟨hcpuRequest, hmemRequest, hcpuLimit, hmemLimit⟩, -⟩
      exact ⟨hmemRequest, hmemLimit, hcpuRequest, hcpuLimit⟩
  · rw [normal_of_not h]
    constructor
    · intro heq
      exact heq ▸ .inl ⟨rfl, rfl, rfl, rfl, rfl⟩
    · rintro (⟨henabled, hcpuRequest, hmemRequest, hcpuLimit, hmemLimit⟩ | ⟨henabled, -, hfigure⟩)
      · obtain ⟨enabled, memRequest, memLimit, cpuRequest, cpuLimit⟩ := r
        simp_all
      · exact absurd ⟨henabled, hfigure⟩ h

theorem normal_normal (r : Resources) : r.normal.normal = r.normal := by
  by_cases h : r.enabled = true ∧ r.HasFigure
  · have hnormal := normal_of_hasFigure h.1 h.2
    -- Figures that are set stay set.
    have hfigure : r.normal.HasFigure := by
      rw [hnormal]
      simpa only [HasFigure, nonNegative_pos_iff] using h.2
    rw [normal_of_hasFigure (r := r.normal) (by rw [hnormal]) hfigure]
    simp only [hnormal, nonNegative_nonNegative]
  · rw [normal_of_not h]
    rfl

end Resources

namespace Probe

variable {p : Probe}

theorem normal_of_enabled (h : p.enabled = true) :
    p.normal =
      { enabled := true
        kind := p.kind
        http := if p.kind = .http then p.http else {}
        command := if p.kind = .exec then p.command else []
        tcp := if p.kind = .tcp then p.tcp else {}
        initialDelay := nonNegative p.initialDelay
        period := nonNegative p.period
        timeout := nonNegative p.timeout
        successThreshold := nonNegative p.successThreshold
        failureThreshold := nonNegative p.failureThreshold } :=
  if_pos h

theorem normal_eq_self_iff : p.normal = p ↔ p.IsCanonical := by
  by_cases h : p.enabled = true
  · -- A probe that is switched on is not the default one.
    have hne : p ≠ {} := by
      rintro rfl
      simp at h
    rw [normal_of_enabled h, IsCanonical, or_iff_right hne]
    obtain ⟨enabled, kind, http, command, tcp, initialDelay, period, timeout, successThreshold,
      failureThreshold⟩ := p
    obtain rfl : enabled = true := h
    simp only [mk.injEq, true_and, nonNegative_eq_self_iff, ite_eq_left_iff]
    constructor
    · rintro ⟨hhttp, hexec, htcp, hdelay, hperiod, htimeout, hsuccess, hfailure⟩
      exact ⟨⟨hdelay, hperiod, htimeout, hsuccess, hfailure⟩, fun hk => (hhttp hk).symm,
        fun hk => (htcp hk).symm, fun hk => (hexec hk).symm⟩
    · rintro ⟨⟨hdelay, hperiod, htimeout, hsuccess, hfailure⟩, ⟨hhttp, htcp, hexec⟩⟩
      exact ⟨fun hk => (hhttp hk).symm, fun hk => (hexec hk).symm, fun hk => (htcp hk).symm,
        hdelay, hperiod, htimeout, hsuccess, hfailure⟩
  · have hdefault : p.normal = {} := if_neg h
    rw [hdefault, IsCanonical, or_iff_left fun henabled => h henabled.1, eq_comm]

theorem normal_normal (p : Probe) : p.normal.normal = p.normal := by
  unfold normal
  cases p.enabled with
  | false => rfl
  | true => cases p.kind <;> simp [nonNegative_nonNegative]

end Probe

namespace Container

variable {volumes : List String}

theorem normal_eq_self_iff {c : Container} : c.normal volumes = c ↔ c.IsCanonical volumes := by
  have hports : c.ports.map Port.normal = c.ports ↔ ∀ p ∈ c.ports, 0 ≤ p.hostPort := by
    simp only [map_eq_self_iff, Port.normal_eq_self_iff]
  have henvs : c.envs.map EnvVar.normal = c.envs ↔ ∀ e ∈ c.envs, e.IsCanonical := by
    simp only [map_eq_self_iff, EnvVar.normal_eq_self_iff]
  have hmounts : (c.mounts.filter fun m => volumes.contains m.volume) = c.mounts ↔
      ∀ m ∈ c.mounts, m.volume ∈ volumes := by
    simp only [List.filter_eq_self, List.contains_iff_mem]
  have hparts : c.normal volumes = c ↔ c.ports.map Port.normal = c.ports ∧
      c.envs.map EnvVar.normal = c.envs ∧ c.resources.normal = c.resources ∧
      (c.mounts.filter fun m => volumes.contains m.volume) = c.mounts ∧
      c.startupProbe.normal = c.startupProbe ∧ c.livenessProbe.normal = c.livenessProbe ∧
      c.readinessProbe.normal = c.readinessProbe := by
    obtain ⟨name, image, imagePullPolicy, tty, ports, workingDir, command, args, envs, envSources,
      privileged, resources, mounts, startupProbe, livenessProbe, readinessProbe⟩ := c
    simp only [normal, mk.injEq, true_and]
  rw [hparts, hports, henvs, hmounts, Resources.normal_eq_self_iff]
  simp only [Probe.normal_eq_self_iff]
  constructor
  · rintro ⟨hp, he, hr, hm, hs, hl, hd⟩
    exact ⟨hp, he, hr, hm, hs, hl, hd⟩
  · rintro ⟨hp, he, hr, hm, hs, hl, hd⟩
    exact ⟨hp, he, hr, hm, hs, hl, hd⟩

theorem normal_normal (c : Container) :
    (c.normal volumes).normal volumes = c.normal volumes := by
  simp [normal, Port.normal_normal, EnvVar.normal_normal, Resources.normal_normal,
    Probe.normal_normal]

end Container

namespace PodRequest

theorem volumeNames_normal (r : PodRequest) : r.normal.volumeNames = r.volumeNames := by
  simp [volumeNames, normal, Volume.normal]

/-- `PodRequest.normal` leaves a request as it is exactly when the request is canonical. -/
theorem normal_eq_self_iff {r : PodRequest} : r.normal = r ↔ r.IsCanonical := by
  -- Part by part, in the order of the record.
  have haliases : r.networking.hostAliases.map Networking.normalAlias = r.networking.hostAliases ↔
      ∀ kv ∈ r.networking.hostAliases, Text.CommaList.IsCanonical kv.value := by
    rw [map_eq_self_iff]
    exact forall₂_congr fun kv _ => by
      obtain ⟨key, value⟩ := kv
      simp [Networking.normalAlias, Text.CommaList.normal, Text.CommaList.IsCanonical]
  have hvolumes : r.volumes.map Volume.normal = r.volumes ↔ ∀ v ∈ r.volumes, v.IsCanonical := by
    simp only [map_eq_self_iff, Volume.normal_eq_self_iff]
  have hcontainers : ∀ cs : List Container, cs.map (Container.normal r.volumeNames) = cs ↔
      ∀ c ∈ cs, c.IsCanonical r.volumeNames := by
    intro cs
    simp only [map_eq_self_iff, Container.normal_eq_self_iff]
  have hparts : r.normal = r ↔ KeyValue.sorted r.base.labels = r.base.labels ∧
      r.scheduling.normal = r.scheduling ∧
      r.networking.hostAliases.map Networking.normalAlias = r.networking.hostAliases ∧
      r.volumes.map Volume.normal = r.volumes ∧
      r.initContainers.map (Container.normal r.volumeNames) = r.initContainers ∧
      r.containers.map (Container.normal r.volumeNames) = r.containers := by
    obtain ⟨⟨name, ns, labels, restartPolicy⟩, tolerations, scheduling, volumes,
      ⟨hostNetwork, hostName, dnsPolicy, nameservers, hostAliases⟩, initContainers, containers⟩ := r
    simp only [normal, Networking.normal, mk.injEq, Base.mk.injEq, Networking.mk.injEq, true_and,
      and_true, and_left_comm]
  rw [hparts, KeyValue.sorted_eq_self_iff, Scheduling.normal_eq_self_iff, haliases, hvolumes,
    hcontainers, hcontainers]
  constructor
  · rintro ⟨hl, hs, ha, hv, hi, hc⟩
    exact ⟨hl, hs, ha, hv, hi, hc⟩
  · rintro ⟨hl, hs, ha, hv, hi, hc⟩
    exact ⟨hl, hs, ha, hv, hi, hc⟩

/-- `PodRequest.normal` leaves a normal form as it is. -/
theorem normal_normal (r : PodRequest) : r.normal.normal = r.normal := by
  -- The volumes keep their names, so the second time keeps every mount that the first time kept.
  rw [normal, volumeNames_normal]
  simp [normal, KeyValue.sorted_sorted, Scheduling.normal_normal, Volume.normal_normal,
    Networking.normal, Networking.normalAlias, Text.CommaList.normal_normal,
    Container.normal_normal]

/-- `ofPod` of the Pod of a request brings it into normal form: a second time changes nothing, and
the first time changes nothing exactly when the request is canonical. -/
theorem describe_fixed_iff_canonical (r : PodRequest) :
    ofPod (ofPod r.toPod).toPod = ofPod r.toPod ∧ (ofPod r.toPod = r ↔ r.IsCanonical) := by
  rw [ofPod_toPod, ofPod_toPod, normal_normal]
  exact ⟨rfl, normal_eq_self_iff⟩

end PodRequest

end PodDesk
