import PodDesk.Proofs.Request.Canonical

/-!
# Pods whose description is stable

Any Pod of the cluster can be shown as a request, also one that another program made, and the
request that is shown can be submitted. When the Pod that comes of it is shown, it is the same
request exactly when the first Pod read cleanly: what of it is shown has one way to be said in a
request. What a request cannot express does not matter here, as it is not shown the first time.

## Main statements

- `Pod.ReadsCleanly`: the Pods in question
- `Resources.ofPod_isCanonical_iff`, `Probe.ofPod_isCanonical_iff`,
  `Scheduling.ofPod_isCanonical_iff`, `Container.ofPod_isCanonical_iff`: when the description of a
  part is canonical
- `PodRequest.ofPod_stable_iff`: the description is stable exactly for these Pods
-/

namespace PodDesk

/-! ## Clean reading -/

namespace Pod

/-- `ListReadsCleanly entries` says that the text in which the entries are shown, with commas
between them, is written the same when it is read again. -/
def ListReadsCleanly (entries : Option (List String)) : Prop :=
  Text.CommaList.IsCanonical (Text.CommaList.join (itemsOf entries))

/-- Quotas read cleanly when they are absent, or have a figure and none that is negative. -/
def Resources.ReadsCleanly (r : Resources) : Prop :=
  (r.requests ≠ none ∨ r.limits ≠ none) →
    let cpuRequest := PodDesk.Resources.cpu r.requests
    let memRequest := PodDesk.Resources.memory r.requests
    let cpuLimit := PodDesk.Resources.cpu r.limits
    let memLimit := PodDesk.Resources.memory r.limits
    (0 ≤ cpuRequest ∧ 0 ≤ memRequest ∧ 0 ≤ cpuLimit ∧ 0 ≤ memLimit) ∧
      (0 < cpuRequest ∨ 0 < memRequest ∨ 0 < cpuLimit ∨ 0 < memLimit)

/-- A probe reads cleanly when no setting of how often it looks is negative. -/
structure Probe.ReadsCleanly (p : Probe) : Prop where
  initialDelay : ∀ n ∈ p.initialDelay, 0 ≤ n
  period : ∀ n ∈ p.period, 0 ≤ n
  timeout : ∀ n ∈ p.timeout, 0 ≤ n
  successThreshold : ∀ n ∈ p.successThreshold, 0 ≤ n
  failureThreshold : ∀ n ∈ p.failureThreshold, 0 ≤ n

structure Container.ReadsCleanly (c : Container) : Prop where
  ports : ∀ p ∈ itemsOf c.ports, ∀ n ∈ p.hostPort, 0 ≤ n
  resources : ∀ r ∈ c.resources, r.ReadsCleanly
  startupProbe : ∀ p ∈ c.startupProbe, p.ReadsCleanly
  livenessProbe : ∀ p ∈ c.livenessProbe, p.ReadsCleanly
  readinessProbe : ∀ p ∈ c.readinessProbe, p.ReadsCleanly

/-- A specification reads cleanly when its parts do. The affinity is read where there is no
selector. -/
structure Spec.ReadsCleanly (s : Spec) : Prop where
  selector : ∀ m ∈ s.nodeSelector, m.entries ≠ []
  affinity : s.nodeSelector = none →
    ∀ term ∈ s.firstNodeTerm?, ∀ e ∈ itemsOf term.expressions, ListReadsCleanly e.values
  hostAliases : ∀ h ∈ itemsOf s.hostAliases, ListReadsCleanly h.hostnames
  initContainers : ∀ c ∈ itemsOf s.initContainers, c.ReadsCleanly
  containers : ∀ c ∈ s.containers, c.ReadsCleanly

end Pod

/-- `p.ReadsCleanly` says that what is shown of the Pod has one way to be said in a request. -/
def Pod.ReadsCleanly (p : Pod) : Prop :=
  ∀ s ∈ p.spec, s.ReadsCleanly

/-! ## Parts that are always canonical -/

/-- `KeyValue.ofMap` lists a map by increasing key. -/
theorem KeyValue.increasing_ofMap (m : TextMap) : Increasing (ofMap m) := by
  rw [Increasing, ofMap, List.pairwise_map]
  exact m.sorted

/-- `Volume.ofPod?` shows a volume with one source. -/
theorem Volume.isCanonical_of_ofPod? {v : Pod.Volume} {shown : Volume}
    (h : Volume.ofPod? v = some shown) : shown.IsCanonical := by
  obtain ⟨name, emptyDir, configMap, secret, hostPath, claim, downward⟩ := v
  unfold Volume.ofPod? at h
  -- One case for each source, and one without any.
  repeat' split at h
  all_goals cases h
  all_goals constructor <;> simp

/-- `EnvVar.ofPod` shows a literal value without a reference. -/
theorem EnvVar.ofPod_isCanonical (e : Pod.EnvVar) : (EnvVar.ofPod e).IsCanonical := by
  unfold EnvVar.ofPod
  split <;> simp [IsCanonical]

/-! ## Parts that are canonical when they read cleanly -/

theorem Text.ne_empty_of_nonEmpty {s t : String} (h : nonEmpty s = some t) : t ≠ "" := by
  unfold nonEmpty at h
  split at h
  · cases h
  · rename_i hne
    obtain rfl := Option.some.inj h
    simpa using hne

theorem Scheduling.ofPod_isCanonical_iff {s : Pod.Spec} :
    (Scheduling.ofPod s).IsCanonical ↔
      (∀ m ∈ s.nodeSelector, m.entries ≠ []) ∧
        (s.nodeSelector = none → ∀ term ∈ s.firstNodeTerm?, ∀ e ∈ itemsOf term.expressions,
          Pod.ListReadsCleanly e.values) := by
  unfold Scheduling.ofPod
  cases s.nodeSelector with
  | some m =>
    have hempty : KeyValue.ofMap m = [] ↔ m.entries = [] := List.map_eq_nil_iff
    simp [IsCanonical, KeyValue.increasing_ofMap, hempty]
  | none =>
    cases s.firstNodeTerm? with
    | some term => simp [IsCanonical, NodeExpression.ofPod, Pod.ListReadsCleanly]
    | none =>
      cases hnode : s.nodeName.bind Text.nonEmpty with
      | none => simp [IsCanonical]
      | some node =>
        -- A node without a name is not read as pinned.
        obtain ⟨name, -, hname⟩ := Option.bind_eq_some_iff.1 hnode
        simp [IsCanonical, Text.ne_empty_of_nonEmpty hname]

/-- `Option.getD` of zero is negative only for a negative number. -/
theorem nonneg_getD_iff {n : Option Int32} : 0 ≤ n.getD 0 ↔ ∀ i ∈ n, 0 ≤ i := by
  cases n <;> simp

theorem Resources.ofPod_isCanonical_iff {r : Option Pod.Resources} :
    (Resources.ofPod r).IsCanonical ↔ ∀ q ∈ r, q.ReadsCleanly := by
  cases r with
  | none => exact iff_of_true (.inl ⟨rfl, rfl, rfl, rfl, rfl⟩) (by simp)
  | some q =>
    obtain ⟨requests, limits⟩ := q
    cases requests <;> cases limits <;>
      simp [Resources.ofPod, IsCanonical, Pod.Resources.ReadsCleanly, cpu, memory]

/-- `Probe.ofPod` shows a probe with one check. -/
theorem Probe.ofPod_cases (p : Pod.Probe) :
    (∃ command, Probe.ofPod (some p) = { timing p with kind := .exec, command }) ∨
      (∃ http, Probe.ofPod (some p) = { timing p with kind := .http, http }) ∨
      ∃ tcp, Probe.ofPod (some p) = { timing p with kind := .tcp, tcp } := by
  obtain ⟨exec, http, tcp, -⟩ := p
  cases exec with
  | some exec => exact .inl ⟨_, rfl⟩
  | none =>
    cases http with
    | some http => exact .inr (.inl ⟨_, rfl⟩)
    | none =>
      cases tcp with
      | some tcp => exact .inr (.inr ⟨_, rfl⟩)
      | none => exact .inr (.inl ⟨_, rfl⟩)

/-- `Probe.TimesNonNegative` does not depend on the check of the probe. -/
theorem Probe.timesNonNegative_iff_of_timing {p : Pod.Probe} {shown : Probe}
    (h : ∃ kind http command tcp, shown = { timing p with kind, http, command, tcp }) :
    shown.TimesNonNegative ↔ p.ReadsCleanly := by
  obtain ⟨kind, http, command, tcp, rfl⟩ := h
  constructor
  · rintro ⟨hdelay, hperiod, htimeout, hsuccess, hfailure⟩
    exact ⟨nonneg_getD_iff.1 hdelay, nonneg_getD_iff.1 hperiod, nonneg_getD_iff.1 htimeout,
      nonneg_getD_iff.1 hsuccess, nonneg_getD_iff.1 hfailure⟩
  · rintro ⟨hdelay, hperiod, htimeout, hsuccess, hfailure⟩
    exact ⟨nonneg_getD_iff.2 hdelay, nonneg_getD_iff.2 hperiod, nonneg_getD_iff.2 htimeout,
      nonneg_getD_iff.2 hsuccess, nonneg_getD_iff.2 hfailure⟩

theorem Probe.ofPod_isCanonical_iff {p : Option Pod.Probe} :
    (Probe.ofPod p).IsCanonical ↔ ∀ q ∈ p, q.ReadsCleanly := by
  cases p with
  | none => exact iff_of_true (.inl rfl) (by simp)
  | some q =>
    have hon : (Probe.ofPod (some q)).enabled = true := by
      obtain ⟨_, h⟩ | ⟨_, h⟩ | ⟨_, h⟩ := ofPod_cases q <;> rw [h] <;> rfl
    have hne : Probe.ofPod (some q) ≠ {} := by
      intro h
      simp [h] at hon
    -- Only the check of the kind that is shown is set.
    have hchecks : (Probe.ofPod (some q)).ChecksOnlyKind := by
      obtain ⟨_, h⟩ | ⟨_, h⟩ | ⟨_, h⟩ := ofPod_cases q <;> rw [h] <;> constructor <;> simp [timing]
    have htimes : (Probe.ofPod (some q)).TimesNonNegative ↔ q.ReadsCleanly := by
      refine timesNonNegative_iff_of_timing ?_
      obtain ⟨_, h⟩ | ⟨_, h⟩ | ⟨_, h⟩ := ofPod_cases q <;> exact ⟨_, _, _, _, h⟩
    simp only [IsCanonical, or_iff_right hne, hon, htimes, hchecks, true_and, and_true,
      Option.mem_some_iff, forall_eq']

/-- `Container.ofPod` shows mounts of volumes that are shown, so they do not count. -/
theorem Container.ofPod_isCanonical_iff {volumes : List String} {c : Pod.Container} :
    (Container.ofPod volumes c).IsCanonical volumes ↔ c.ReadsCleanly := by
  have hports : (∀ p ∈ (Container.ofPod volumes c).ports, 0 ≤ p.hostPort) ↔
      ∀ p ∈ itemsOf c.ports, ∀ n ∈ p.hostPort, 0 ≤ n := by
    simp only [ofPod, List.forall_mem_map, Port.ofPod, nonneg_getD_iff]
  have henvs : ∀ e ∈ (Container.ofPod volumes c).envs, e.IsCanonical := by
    simp only [ofPod, List.forall_mem_map, EnvVar.ofPod_isCanonical, implies_true]
  have hmounts : ∀ m ∈ (Container.ofPod volumes c).mounts, m.volume ∈ volumes := by
    -- The description leaves out a mount whose volume is not shown.
    simp only [ofPod, List.forall_mem_map, List.mem_filter, List.contains_iff_mem, Mount.ofPod]
    exact fun m hm => hm.2
  constructor
  · rintro ⟨hp, -, hr, -, hs, hl, hd⟩
    exact ⟨hports.1 hp, Resources.ofPod_isCanonical_iff.1 hr, Probe.ofPod_isCanonical_iff.1 hs,
      Probe.ofPod_isCanonical_iff.1 hl, Probe.ofPod_isCanonical_iff.1 hd⟩
  · rintro ⟨hp, hr, hs, hl, hd⟩
    exact ⟨hports.2 hp, henvs, Resources.ofPod_isCanonical_iff.2 hr, hmounts,
      Probe.ofPod_isCanonical_iff.2 hs, Probe.ofPod_isCanonical_iff.2 hl,
      Probe.ofPod_isCanonical_iff.2 hd⟩

namespace PodRequest

theorem ofPod_isCanonical_iff_spec {p : Pod} :
    (ofPod p).IsCanonical ↔ (p.spec.getD {}).ReadsCleanly := by
  -- Labels and volumes are shown in the one way, whatever the Pod.
  have hlabels : KeyValue.Increasing (ofPod p).base.labels := by
    simp only [ofPod]
    cases p.metadata.labels with
    | none => exact .nil
    | some labels => exact KeyValue.increasing_ofMap labels
  have hvolumes : ∀ v ∈ (ofPod p).volumes, v.IsCanonical := by
    intro v hv
    obtain ⟨source, -, hsource⟩ := List.mem_filterMap.1 hv
    exact Volume.isCanonical_of_ofPod? hsource
  have haliases : (∀ kv ∈ (ofPod p).networking.hostAliases,
      Text.CommaList.IsCanonical kv.value) ↔
      ∀ h ∈ itemsOf (p.spec.getD {}).hostAliases, Pod.ListReadsCleanly h.hostnames := by
    simp only [ofPod, Networking.ofPod, List.forall_mem_map]
    rfl
  have hcontainers : ∀ cs : List Pod.Container,
      (∀ c ∈ cs.map (Container.ofPod (ofPod p).volumeNames), c.IsCanonical (ofPod p).volumeNames) ↔
        ∀ c ∈ cs, c.ReadsCleanly := by
    intro cs
    simp only [List.forall_mem_map, Container.ofPod_isCanonical_iff]
  constructor
  · rintro ⟨-, hscheduling, ha, -, hinit, hmain⟩
    obtain ⟨hselector, haffinity⟩ := Scheduling.ofPod_isCanonical_iff.1 hscheduling
    exact ⟨hselector, haffinity, haliases.1 ha, (hcontainers _).1 hinit, (hcontainers _).1 hmain⟩
  · rintro ⟨hselector, haffinity, ha, hinit, hmain⟩
    exact ⟨hlabels, Scheduling.ofPod_isCanonical_iff.2 ⟨hselector, haffinity⟩, haliases.2 ha,
      hvolumes, (hcontainers _).2 hinit, (hcontainers _).2 hmain⟩

/-- `ofPod` shows a canonical request exactly for a Pod that reads cleanly. A Pod without a
specification reads cleanly. -/
theorem ofPod_isCanonical_iff {p : Pod} : (ofPod p).IsCanonical ↔ p.ReadsCleanly := by
  rw [ofPod_isCanonical_iff_spec, Pod.ReadsCleanly]
  cases p.spec with
  | none =>
    refine iff_of_true ?_ (by simp)
    constructor <;> simp [itemsOf, Pod.Spec.firstNodeTerm?]
  | some s => simp

/-- `ofPod` of the Pod that comes of what is shown gives the same request exactly when the Pod reads
cleanly. -/
theorem ofPod_stable_iff (p : Pod) : ofPod (ofPod p).toPod = ofPod p ↔ p.ReadsCleanly := by
  rw [ofPod_toPod, normal_eq_self_iff, ofPod_isCanonical_iff]

/-- A container with a quota of a kind that is not shown. -/
def graphicsPod : Pod where
  spec := some {
    containers := [{
      name := "train"
      resources := some { limits := some (SortedMap.empty.insert "nvidia.com/gpu" "1") } }] }

-- The quotas are shown as switched on, and they are off after the Pod was submitted.
example : (ofPod graphicsPod).containers.map (·.resources.enabled) = [true] ∧
    (ofPod (ofPod graphicsPod).toPod).containers.map (·.resources.enabled) = [false] := by decide

end PodRequest

end PodDesk
