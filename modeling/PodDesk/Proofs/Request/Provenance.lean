import PodDesk.Pod.OfRequest
import PodDesk.Proofs.Request.Inventory

/-!
# Where the shown parts come from

A probe, an environment variable or a source of variables that is shown for a Pod says what it does.
That comes from the Pod where a request can say it. Where it cannot, the part is shown all the same,
as an HTTP check of nothing, a literal value or a config map without a name, and a client that
submits what it is shown asks for that instead.

## Main statements

- `Probe.ComesFrom`, `EnvVar.ComesFrom`, `EnvSource.ComesFrom`: what is shown is there
- `Probe.ofPod_comesFrom_iff`, `EnvVar.ofPod_comesFrom_iff`, `EnvSource.ofPod_comesFrom_iff`: which
  parts show what is there
- `Probe.asksInstead_ofPod`, `EnvVar.asksInstead_ofPod`, `EnvSource.asksInstead_ofPod`: what becomes
  of the other parts when they are submitted
- `PodRequest.shown_comesFrom_iff`: the same for all containers of a Pod
-/

namespace PodDesk

/-! ## Parts that a request can express -/

namespace Pod

/-- `p.IsExpressible` says that the probe has a check of one of the three kinds. -/
def Probe.IsExpressible (p : Probe) : Prop :=
  p.exec.isSome ∨ p.http.isSome ∨ p.tcp.isSome

/-- `e.IsExpressible` says that the variable has a value of its own, or one that is a key of a
config map or a secret. -/
def EnvVar.IsExpressible (e : EnvVar) : Prop :=
  ∀ source ∈ e.source, source.configMap.isSome ∨ source.secret.isSome

/-- `e.IsExpressible` says that the variables come from a config map or a secret. -/
def EnvSource.IsExpressible (e : EnvSource) : Prop :=
  e.configMap.isSome ∨ e.secret.isSome

end Pod

/-! ## Parts that come from the Pod -/

/-- `shown.ComesFrom source` says that a probe that is enabled has the check that it shows. -/
def Probe.ComesFrom (shown : Probe) (source : Option Pod.Probe) : Prop :=
  shown.enabled = true → ∃ p ∈ source,
    match shown.kind with
    | .http => ∃ check ∈ p.http, shown.http = .ofPod check
    | .tcp => ∃ check ∈ p.tcp, shown.tcp = .ofPod check
    | .exec => ∃ check ∈ p.exec, shown.command = itemsOf check.command

/-- `shown.ComesFrom e` says that the variable has the value that it shows, and no other source for
it. -/
def EnvVar.ComesFrom (shown : EnvVar) (e : Pod.EnvVar) : Prop :=
  match shown.kind with
  | .literal => e.source = none ∧ shown.value = textOr e.value
  | .configMap => ∃ ref ∈ e.source.bind (·.configMap),
      shown.refName = textOr ref.name ∧ shown.value = ref.key
  | .secret => ∃ ref ∈ e.source.bind (·.secret),
      shown.refName = textOr ref.name ∧ shown.value = ref.key

/-- `shown.ComesFrom e` says that the variables come from the object that is shown. -/
def EnvSource.ComesFrom (shown : EnvSource) (e : Pod.EnvSource) : Prop :=
  match shown.kind with
  | .configMap => ∃ ref ∈ e.configMap, shown.name = textOr ref.name
  | .secret => ∃ ref ∈ e.secret, shown.name = textOr ref.name

/-- `shown.ComesFrom c` says that all probes, variables and sources of variables are there in
container `c`. -/
structure Container.ComesFrom (shown : Container) (c : Pod.Container) : Prop where
  startupProbe : shown.startupProbe.ComesFrom c.startupProbe
  livenessProbe : shown.livenessProbe.ComesFrom c.livenessProbe
  readinessProbe : shown.readinessProbe.ComesFrom c.readinessProbe
  envs : List.Forall₂ EnvVar.ComesFrom shown.envs (itemsOf c.env)
  envSources : List.Forall₂ EnvSource.ComesFrom shown.envSources (itemsOf c.envFrom)

/-! ## Which parts do -/

/-- `Probe.ofPod` shows a check that is there exactly when a request can express one. -/
theorem Probe.ofPod_comesFrom_iff (source : Option Pod.Probe) :
    (Probe.ofPod source).ComesFrom source ↔ ∀ p ∈ source, p.IsExpressible := by
  cases source with
  | none => simp [ofPod, ComesFrom]
  | some p =>
    -- The first check that is there is shown; with none of them the probe is shown all the same.
    cases hexec : p.exec with
    | some exec => simp [ofPod, ComesFrom, Pod.Probe.IsExpressible, timing, hexec]
    | none =>
      cases hhttp : p.http with
      | some http => simp [ofPod, ComesFrom, Pod.Probe.IsExpressible, timing, hexec, hhttp]
      | none =>
        cases htcp : p.tcp with
        | some tcp => simp [ofPod, ComesFrom, Pod.Probe.IsExpressible, timing, hexec, hhttp, htcp]
        | none => simp [ofPod, ComesFrom, Pod.Probe.IsExpressible, timing, hexec, hhttp, htcp]

theorem EnvVar.ofPod_comesFrom_iff (e : Pod.EnvVar) :
    (EnvVar.ofPod e).ComesFrom e ↔ e.IsExpressible := by
  obtain ⟨name, value, source⟩ := e
  cases source with
  | none => simp [ofPod, ComesFrom, Pod.EnvVar.IsExpressible]
  | some source =>
    obtain ⟨configMap, secret⟩ := source
    cases configMap <;> cases secret <;> simp [ofPod, ComesFrom, Pod.EnvVar.IsExpressible]

theorem EnvSource.ofPod_comesFrom_iff (e : Pod.EnvSource) :
    (EnvSource.ofPod e).ComesFrom e ↔ e.IsExpressible := by
  obtain ⟨namePrefix, configMap, secret⟩ := e
  cases configMap <;> cases secret <;> simp [ofPod, ComesFrom, Pod.EnvSource.IsExpressible]

/-! ## What a client asks for that submits the other parts -/

/-- `shown.AsksInstead source` says that submitting a probe with no known check asks for an HTTP
request to port 0. -/
def Probe.AsksInstead (shown : Probe) (source : Option Pod.Probe) : Prop :=
  ∀ p ∈ source, ¬ p.IsExpressible → shown.toPod?.bind (·.http) = some { port := .number 0 }

/-- `shown.AsksInstead e` says that submitting a variable with another source asks for a literal
value. -/
def EnvVar.AsksInstead (shown : EnvVar) (e : Pod.EnvVar) : Prop :=
  ¬ e.IsExpressible → shown.toPod = { name := e.name, value := some (textOr e.value) }

/-- `shown.AsksInstead e` says that submitting a source of variables that names nothing asks for a
config map without a name. -/
def EnvSource.AsksInstead (shown : EnvSource) (e : Pod.EnvSource) : Prop :=
  ¬ e.IsExpressible → shown.toPod.configMap = some { name := some "" }

/-- `shown.AsksInstead c` is what submitting a container asks for where it cannot say what is there.
-/
structure Container.AsksInstead (shown : Container) (c : Pod.Container) : Prop where
  startupProbe : shown.startupProbe.AsksInstead c.startupProbe
  livenessProbe : shown.livenessProbe.AsksInstead c.livenessProbe
  readinessProbe : shown.readinessProbe.AsksInstead c.readinessProbe
  envs : List.Forall₂ (fun e shown => shown.AsksInstead e) (itemsOf c.env) shown.envs
  envSources : List.Forall₂ (fun e shown => shown.AsksInstead e) (itemsOf c.envFrom)
    shown.envSources

theorem Probe.asksInstead_ofPod (source : Option Pod.Probe) :
    (Probe.ofPod source).AsksInstead source := by
  rintro p hp h
  obtain rfl : source = some p := hp
  simp only [Pod.Probe.IsExpressible, not_or, Option.not_isSome_iff_eq_none] at h
  obtain ⟨hexec, hhttp, htcp⟩ := h
  simp only [ofPod, hexec, hhttp, htcp]
  rfl

theorem EnvVar.asksInstead_ofPod (e : Pod.EnvVar) : (EnvVar.ofPod e).AsksInstead e := by
  intro h
  obtain ⟨name, value, source⟩ := e
  simp only [Pod.EnvVar.IsExpressible, not_forall, not_or,
    Option.not_isSome_iff_eq_none] at h
  obtain ⟨source, rfl, hconfigMap, hsecret⟩ := h
  simp only [ofPod, Option.bind_some, hconfigMap, hsecret]
  rfl

theorem EnvSource.asksInstead_ofPod (e : Pod.EnvSource) : (EnvSource.ofPod e).AsksInstead e := by
  intro h
  simp only [Pod.EnvSource.IsExpressible, not_or,
    Option.not_isSome_iff_eq_none] at h
  simp only [ofPod, h.1, h.2]
  rfl

/-! ## All parts of a Pod -/

namespace PodRequest

/-- A probe, a variable or a source of variables that `ofPod` shows for a Pod comes from it exactly
when a request can express it. Whoever submits another one asks for something else instead. -/
theorem shown_comesFrom_iff (p : Pod) :
    List.Forall₂ (fun c shown =>
      (shown.startupProbe.ComesFrom c.startupProbe ↔ ∀ q ∈ c.startupProbe, q.IsExpressible) ∧
      (shown.livenessProbe.ComesFrom c.livenessProbe ↔ ∀ q ∈ c.livenessProbe, q.IsExpressible) ∧
      (shown.readinessProbe.ComesFrom c.readinessProbe ↔
        ∀ q ∈ c.readinessProbe, q.IsExpressible) ∧
      List.Forall₂ (fun e shown => shown.ComesFrom e ↔ e.IsExpressible) (itemsOf c.env)
        shown.envs ∧
      List.Forall₂ (fun e shown => shown.ComesFrom e ↔ e.IsExpressible) (itemsOf c.envFrom)
        shown.envSources)
      p.allContainers (ofPod p).allContainers ∧
    List.Forall₂ (fun c shown => shown.AsksInstead c) p.allContainers
      (ofPod p).allContainers := by
  constructor
  · refine forall₂_allContainers_ofPod p fun volumes c => ⟨Probe.ofPod_comesFrom_iff _,
      Probe.ofPod_comesFrom_iff _, Probe.ofPod_comesFrom_iff _, ?_, ?_⟩
    · exact forall₂_map_right (f := EnvVar.ofPod) EnvVar.ofPod_comesFrom_iff _
    · exact forall₂_map_right (f := EnvSource.ofPod) EnvSource.ofPod_comesFrom_iff _
  · refine forall₂_allContainers_ofPod p fun volumes c => ⟨Probe.asksInstead_ofPod _,
      Probe.asksInstead_ofPod _, Probe.asksInstead_ofPod _, ?_, ?_⟩
    · exact forall₂_map_right (f := EnvVar.ofPod) EnvVar.asksInstead_ofPod _
    · exact forall₂_map_right (f := EnvSource.ofPod) EnvSource.asksInstead_ofPod _

/-- A Pod with a probe of another kind, such as gRPC. -/
def grpcPod : Pod where
  spec := some {
    containers := [{
      name := "main", image := some "nginx:1.27", livenessProbe := some { period := some 10 } }] }

/-- The probe that is shown for `grpcPod` does not come from the Pod, and submitting it asks for an
HTTP request to port 0. -/
theorem grpcPod_shown_otherwise :
    ¬ List.Forall₂ Container.ComesFrom (ofPod grpcPod).allContainers grpcPod.allContainers ∧
      ∃ c ∈ (ofPod grpcPod).toPod.allContainers,
        c.livenessProbe = some { http := some { port := .number 0 }, period := some 10 } := by
  constructor
  · intro h
    cases h with
    | cons hc _ =>
      -- The probe is shown as enabled, but the Pod has no check for it.
      obtain ⟨p, hp, check, hcheck, -⟩ := hc.livenessProbe rfl
      cases hp
      cases hcheck
  · exact ⟨_, List.mem_cons_self, rfl⟩

end PodRequest

end PodDesk
