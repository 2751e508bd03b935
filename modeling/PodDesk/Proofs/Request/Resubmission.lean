import PodDesk.Proofs.Request.Acceptance
import PodDesk.Proofs.Request.Canonical

/-!
# Submitting what was shown

A client may submit the request that it is shown for a Pod. For a Pod that was made for a request,
that makes the same Pod again, with two exceptions: a mount of a volume that is not declared is not
shown, and quotas that are switched on without a figure are shown as switched off.

## Main statements

- `Container.toPod_normal_eq_iff`: which containers stay the same
- `PodRequest.toPod_normal_eq_iff`: which Pods stay the same
- `PodRequest.declares_mounts_of_valid`: an acceptable request declares the volumes that it mounts
- `PodRequest.resubmission_same_iff`: when a Pod that is shown and submitted again is the same
-/

namespace PodDesk

/-! ## Absent and empty -/

theorem nonEmptyList_inj {α : Type} {as bs : List α} :
    nonEmptyList as = nonEmptyList bs ↔ as = bs := by
  constructor
  · intro h
    rw [← itemsOf_nonEmptyList as, h, itemsOf_nonEmptyList]
  · rintro rfl
    rfl

theorem positive?_nonNegative (n : Int32) : positive? (nonNegative n) = positive? n := by
  unfold positive? nonNegative
  split <;> simp_all

/-! ## What stays the same -/

theorem NodeExpression.toPod_normal (e : NodeExpression) : e.normal.toPod = e.toPod := by
  simp [toPod, normal, Text.CommaList.normal, Text.CommaList.parse_join_parse]

theorem Networking.aliasOf_normal (kv : KeyValue) : aliasOf (normalAlias kv) = aliasOf kv := by
  simp [aliasOf, normalAlias, Text.CommaList.normal, Text.CommaList.parse_join_parse]

theorem Volume.toPod_normal (v : Volume) : v.normal.toPod = v.toPod := by
  obtain ⟨name, kind, configMap, secret, hostPath, downward, claim⟩ := v
  cases kind <;> rfl

theorem Port.toPod_normal (p : Port) : p.normal.toPod = p.toPod := by
  simp [toPod, normal, positive?_nonNegative]

theorem EnvVar.toPod_normal (e : EnvVar) : e.normal.toPod = e.toPod := by
  obtain ⟨name, refName, value, kind⟩ := e
  cases kind <;> rfl

theorem Probe.toPod?_normal (p : Probe) : p.normal.toPod? = p.toPod? := by
  by_cases h : p.enabled = true
  · rw [Probe.normal_of_enabled h]
    simp only [toPod?, h, if_true, positive?_nonNegative]
    cases p.kind <;> rfl
  · have hdefault : p.normal = {} := if_neg h
    rw [hdefault, toPod?, toPod?, if_neg h]
    rfl

namespace Scheduling

theorem nodeName?_normal (s : Scheduling) : s.normal.nodeName? = s.nodeName? := by
  unfold normal nodeName?
  cases hkind : s.kind with
  | any => rfl
  | name => by_cases h : s.nodeName = "" <;> simp [h, nonEmpty_eq_none_iff.2]
  | selector => by_cases h : KeyValue.sorted s.selector = [] <;> simp [h]
  | affinity => rfl

theorem nodeSelector?_normal (s : Scheduling) : s.normal.nodeSelector? = s.nodeSelector? := by
  unfold normal nodeSelector?
  cases hkind : s.kind with
  | any => rfl
  | name => by_cases h : s.nodeName = "" <;> simp [h]
  | selector =>
    by_cases h : KeyValue.sorted s.selector = []
    · simp [KeyValue.nonEmpty_toMap, h]
    · simp [h, KeyValue.toMap_sorted]
  | affinity => rfl

theorem affinity?_normal (s : Scheduling) : s.normal.affinity? = s.affinity? := by
  unfold normal affinity?
  cases hkind : s.kind with
  | any => rfl
  | name => by_cases h : s.nodeName = "" <;> simp [h]
  | selector => by_cases h : KeyValue.sorted s.selector = [] <;> simp [h]
  | affinity =>
    have hexpressions : (s.affinity.map NodeExpression.normal).map NodeExpression.toPod =
        s.affinity.map NodeExpression.toPod := by
      rw [List.map_map]
      exact List.map_congr_left fun e _ => e.toPod_normal
    simp only [hexpressions]

end Scheduling

/-! ## Quotas without a figure -/

/-- `r.IsVoid` says that the quotas are switched on, and that no figure is positive. -/
def Resources.IsVoid (r : Resources) : Prop :=
  r.enabled = true ∧ r.cpuRequest ≤ 0 ∧ r.cpuLimit ≤ 0 ∧ r.memRequest ≤ 0 ∧ r.memLimit ≤ 0

theorem Resources.quantities_nonNegative (cpu mem : Int32) :
    quantities (nonNegative cpu) (nonNegative mem) = quantities cpu mem := by
  unfold nonNegative
  by_cases hcpu : 0 < cpu <;> by_cases hmem : 0 < mem <;> simp [quantities, hcpu, hmem]

/-- `Resources.normal` keeps what quotas ask for unless they are switched on without a figure. -/
theorem Resources.toPod?_normal_eq_iff {r : Resources} :
    r.normal.toPod? = r.toPod? ↔ ¬ r.IsVoid := by
  by_cases henabled : r.enabled = true
  · by_cases hfigure : r.HasFigure
    · have hsame : r.normal.toPod? = r.toPod? := by
        rw [normal_of_hasFigure henabled hfigure]
        simp only [toPod?, henabled, if_true, quantities_nonNegative]
      refine iff_of_true hsame ?_
      rintro ⟨-, hcpuRequest, hcpuLimit, hmemRequest, hmemLimit⟩
      simp only [← Int32.not_lt] at hcpuRequest hcpuLimit hmemRequest hmemLimit
      rcases hfigure with h | h | h | h <;> contradiction
    · -- The quotas are present in the Pod, but what is shown has none.
      have hchanged : r.normal.toPod? ≠ r.toPod? := by
        rw [normal_of_not fun h => hfigure h.2, toPod?, toPod?, if_pos henabled]
        simp
      refine iff_of_false hchanged (not_not_intro ?_)
      simp only [HasFigure, not_or, Int32.not_lt] at hfigure
      obtain ⟨hcpuRequest, hmemRequest, hcpuLimit, hmemLimit⟩ := hfigure
      exact ⟨henabled, hcpuRequest, hcpuLimit, hmemRequest, hmemLimit⟩
  · have hsame : r.normal.toPod? = r.toPod? := by
      rw [normal_of_not fun h => henabled h.1, toPod?, toPod?, if_neg henabled]
      rfl
    exact iff_of_true hsame fun h => henabled h.1

/-! ## Containers -/

namespace Container

variable {volumes : List String} {c : Container}

/-- The mounts of `Container.normal` are the same when all of their volumes are known. -/
private theorem mounts_toPod_iff :
    (c.mounts.filter fun m => volumes.contains m.volume).map Mount.toPod =
      c.mounts.map Mount.toPod ↔ ∀ m ∈ c.mounts, m.volume ∈ volumes := by
  -- A mount can be read back, so mounts that are written alike are alike.
  have hinjective : ∀ ms : List Mount, (ms.map Mount.toPod).map Mount.ofPod = ms := by
    intro ms
    rw [List.map_map]
    exact List.map_id'' Mount.ofPod_toPod ms
  constructor
  · intro h
    have hfilter := congrArg (List.map Mount.ofPod) h
    rw [hinjective, hinjective, List.filter_eq_self] at hfilter
    simpa only [List.contains_iff_mem] using hfilter
  · intro h
    rw [List.filter_eq_self.2]
    simpa only [List.contains_iff_mem] using h

/-- `Container.normal` makes the same container of a Pod exactly when its mounts are of known
volumes and its quotas are not void. -/
theorem toPod_normal_eq_iff :
    (c.normal volumes).toPod = c.toPod ↔
      (∀ m ∈ c.mounts, m.volume ∈ volumes) ∧ ¬ c.resources.IsVoid := by
  -- What a probe, a port or a variable loses was not in the Pod.
  have hports : (c.ports.map Port.normal).map Port.toPod = c.ports.map Port.toPod := by
    rw [List.map_map]
    exact List.map_congr_left fun p _ => p.toPod_normal
  have henvs : (c.envs.map EnvVar.normal).map EnvVar.toPod = c.envs.map EnvVar.toPod := by
    rw [List.map_map]
    exact List.map_congr_left fun e _ => e.toPod_normal
  rw [← mounts_toPod_iff, ← Resources.toPod?_normal_eq_iff]
  simp only [toPod, normal, hports, henvs, Probe.toPod?_normal, Pod.Container.mk.injEq,
    nonEmptyList_inj, true_and, and_true, and_comm]
  exact ⟨fun h => h.2, fun h => ⟨rfl, h⟩⟩

end Container

namespace PodRequest

variable {r : PodRequest}

/-! ## Requests -/

/-- `r.HasNoVoidQuotas` says that no container has quotas that are switched on without a figure. -/
def HasNoVoidQuotas (r : PodRequest) : Prop :=
  ∀ c ∈ r.allContainers, ¬ c.resources.IsVoid

/-- `Container.normal` over a list makes the same containers exactly when it does for each of them.
-/
private theorem containers_toPod_iff {volumes : List String} {cs : List Container} :
    (cs.map (Container.normal volumes)).map Container.toPod = cs.map Container.toPod ↔
      ∀ c ∈ cs, (∀ m ∈ c.mounts, m.volume ∈ volumes) ∧ ¬ c.resources.IsVoid := by
  rw [List.map_map, List.map_inj_left]
  exact forall₂_congr fun c _ => Container.toPod_normal_eq_iff

/-- `PodRequest.normal` makes the same Pod, unless a mount is not shown or quotas are shown as
switched off. -/
theorem toPod_normal_eq_iff : r.normal.toPod = r.toPod ↔ r.DeclaresMounts ∧ r.HasNoVoidQuotas := by
  have hvolumes : (r.volumes.map Volume.normal).map Volume.toPod = r.volumes.map Volume.toPod := by
    rw [List.map_map]
    exact List.map_congr_left fun v _ => v.toPod_normal
  have haliases : (r.networking.hostAliases.map Networking.normalAlias).map Networking.aliasOf =
      r.networking.hostAliases.map Networking.aliasOf := by
    rw [List.map_map]
    exact List.map_congr_left fun kv _ => Networking.aliasOf_normal kv
  -- Volumes, aliases and scheduling are never lost on the way, so the containers decide.
  have hdns : r.networking.normal.dnsConfig? = r.networking.dnsConfig? := rfl
  have hcontainers : r.normal.toPod = r.toPod ↔
      (r.initContainers.map (Container.normal r.volumeNames)).map Container.toPod =
        r.initContainers.map Container.toPod ∧
      (r.containers.map (Container.normal r.volumeNames)).map Container.toPod =
        r.containers.map Container.toPod := by
    simp only [toPod, toSpec, normal, KeyValue.toMap_sorted, Scheduling.nodeName?_normal,
      Scheduling.nodeSelector?_normal, Scheduling.affinity?_normal, hvolumes, hdns,
      Pod.mk.injEq, Option.some.injEq, Pod.Spec.mk.injEq, nonEmptyList_inj, true_and, and_true]
    simp only [Networking.normal, haliases, and_true]
  rw [hcontainers, containers_toPod_iff, containers_toPod_iff, ← List.forall_mem_append]
  exact ⟨fun h => ⟨fun c hc => (h c hc).1, fun c hc => (h c hc).2⟩,
    fun h c hc => ⟨h.1 c hc, h.2 c hc⟩⟩

/-- A request that `violation?` accepts declares the volumes that it mounts. -/
theorem declares_mounts_of_valid (h : r.violation? = none) : r.DeclaresMounts :=
  (violation?_eq_none_iff.1 h).mounts

/-- Submitting what is shown for the Pod of a request makes the same Pod exactly when every mount is
of a declared volume and no quotas are switched on without a figure; for an acceptable request the
quotas alone decide. -/
theorem resubmission_same_iff (r : PodRequest) :
    ((ofPod r.toPod).toPod = r.toPod ↔ r.DeclaresMounts ∧ r.HasNoVoidQuotas) ∧
      (r.violation? = none → r.HasNoVoidQuotas → (ofPod r.toPod).toPod = r.toPod) := by
  rw [ofPod_toPod]
  refine ⟨toPod_normal_eq_iff, ?_⟩
  intro hvalid hquotas
  exact toPod_normal_eq_iff.2 ⟨declares_mounts_of_valid hvalid, hquotas⟩

/-- A Pod that keeps a cache on the node, with a quota on its memory. -/
def cacheRequest : PodRequest where
  base := { name := "cache-1", ns := "prod" }
  volumes := [{ name := "data", kind := .hostPath, hostPath := { path := "/srv" } }]
  containers := [{
    name := "main"
    image := "redis:7"
    resources := { enabled := true, memLimit := 512 }
    mounts := [{ volume := "data", path := "/data" }] }]

/-- The Pod that comes of submitting what is shown for `cacheRequest` is the same one. -/
theorem resubmission_of_cacheRequest :
    cacheRequest.violation? = none ∧ cacheRequest.HasNoVoidQuotas ∧
      (ofPod cacheRequest.toPod).toPod = cacheRequest.toPod := by
  have hvalid : cacheRequest.violation? = none := by decide
  have hquotas : cacheRequest.HasNoVoidQuotas := by
    simp [HasNoVoidQuotas, allContainers, cacheRequest, Resources.IsVoid]
  exact ⟨hvalid, hquotas, (resubmission_same_iff cacheRequest).2 hvalid hquotas⟩

end PodRequest

end PodDesk
