import PodDesk.Pod.Basic
import PodDesk.Pod.Quantity
import PodDesk.Request.Basic
import PodDesk.Text.CommaList

/-!
# The Pod of a request

`PodRequest.toPod` is the Pod that the cluster is asked to create for a request. Blank texts, empty
lists and numbers that are not positive become absent fields, and of a volume, a probe and the
scheduling only the chosen kind counts.
-/

namespace PodDesk

/-- `nonEmptyList items` is the list, present only when it has an item. -/
def nonEmptyList {α : Type} (items : List α) : Option (List α) :=
  if items.isEmpty then none else some items

/-- `positive? n` is the number, present only when it is positive. -/
def positive? (n : Int32) : Option Int32 :=
  if 0 < n then some n else none

/-- `KeyValue.toMap items` is the map of the keys with their values. -/
def KeyValue.toMap (items : List KeyValue) : TextMap :=
  .ofList (items.map fun kv => (kv.key, kv.value))

def Toleration.toPod (t : Toleration) : Pod.Toleration where
  key := Text.nonEmpty t.key
  operator := Text.nonEmpty t.operator
  value := Text.nonEmpty t.value
  effect := Text.nonEmpty t.effect
  seconds := t.seconds

def NodeExpression.toPod (e : NodeExpression) : Pod.NodeRequirement where
  key := e.key
  operator := e.operator
  values := nonEmptyList (Text.CommaList.parse e.value)

namespace Scheduling

/-- `s.nodeName?` is the pinned node. -/
def nodeName? (s : Scheduling) : Option String :=
  if s.kind = .name then Text.nonEmpty s.nodeName else none

/-- `s.nodeSelector?` is the node selector. -/
def nodeSelector? (s : Scheduling) : Option TextMap :=
  if s.kind = .selector then (KeyValue.toMap s.selector).nonEmpty else none

/-- `s.affinity?` is the node affinity: one term with all conditions, even when there is none. -/
def affinity? (s : Scheduling) : Option Pod.Affinity :=
  if s.kind = .affinity then
    let term : Pod.NodeTerm := { expressions := some (s.affinity.map NodeExpression.toPod) }
    some { node := some { required := some [term] } }
  else none

end Scheduling

def FieldFile.toPod (f : FieldFile) : Pod.DownwardFile where
  path := f.path
  fieldPath := some f.fieldPath

/-- `v.toPod` is the volume of the Pod, with the source of its kind. -/
def Volume.toPod (v : Volume) : Pod.Volume :=
  match v.kind with
  | .emptyDir => { name := v.name, emptyDir := true }
  | .configMap =>
    { name := v.name
      configMap := some {
        name := some v.configMap.name
        isOptional := some v.configMap.isOptional } }
  | .secret =>
    { name := v.name
      secret := some { name := some v.secret.name, isOptional := some v.secret.isOptional } }
  | .hostPath =>
    { name := v.name
      hostPath := some { path := v.hostPath.path, kind := Text.nonEmpty v.hostPath.kind } }
  | .downward =>
    { name := v.name, downward := some { items := some (v.downward.map FieldFile.toPod) } }
  | .claim => { name := v.name, claim := some { claimName := v.claim } }

def Port.toPod (p : Port) : Pod.Port where
  name := Text.nonEmpty p.name
  containerPort := p.containerPort
  hostPort := positive? p.hostPort

/-- `e.toPod` is the environment variable: a literal value, or a key of an object. -/
def EnvVar.toPod (e : EnvVar) : Pod.EnvVar :=
  match e.kind with
  | .literal => { name := e.name, value := some e.value }
  | .configMap =>
    { name := e.name
      source := some { configMap := some { key := e.value, name := some e.refName } } }
  | .secret =>
    { name := e.name, source := some { secret := some { key := e.value, name := some e.refName } } }

def EnvSource.toPod (e : EnvSource) : Pod.EnvSource :=
  match e.kind with
  | .configMap =>
    { namePrefix := Text.nonEmpty e.namePrefix, configMap := some { name := some e.name } }
  | .secret => { namePrefix := Text.nonEmpty e.namePrefix, secret := some { name := some e.name } }

/-- `Resources.quantities cpu mem` has the quantities of the positive figures. -/
def Resources.quantities (cpu mem : Int32) : Option TextMap :=
  let withCpu : TextMap :=
    if 0 < cpu then SortedMap.empty.insert "cpu" (Quantity.ofMillicores cpu) else .empty
  (if 0 < mem then withCpu.insert "memory" (Quantity.ofMebibytes mem) else withCpu).nonEmpty

/-- `r.toPod?` has the quotas, if they are enabled. -/
def Resources.toPod? (r : Resources) : Option Pod.Resources :=
  if r.enabled then
    some {
      requests := quantities r.cpuRequest r.memRequest
      limits := quantities r.cpuLimit r.memLimit }
  else none

def Mount.toPod (m : Mount) : Pod.Mount where
  name := m.volume
  path := m.path
  readOnly := some m.readOnly

def HttpCheck.toPod (h : HttpCheck) : Pod.HttpCheck where
  scheme := Text.nonEmpty h.scheme
  host := Text.nonEmpty h.host
  path := Text.nonEmpty h.path
  port := .number h.port
  headers := nonEmptyList (h.headers.map fun kv => ⟨kv.key, kv.value⟩)

def TcpCheck.toPod (t : TcpCheck) : Pod.TcpCheck where
  host := Text.nonEmpty t.host
  port := .number t.port

/-- `p.toPod?` is the probe with the check of its kind, if it is enabled. -/
def Probe.toPod? (p : Probe) : Option Pod.Probe :=
  if p.enabled then
    some {
      exec := if p.kind = .exec then some { command := some p.command } else none
      http := if p.kind = .http then some p.http.toPod else none
      tcp := if p.kind = .tcp then some p.tcp.toPod else none
      initialDelay := positive? p.initialDelay
      period := positive? p.period
      timeout := positive? p.timeout
      successThreshold := positive? p.successThreshold
      failureThreshold := positive? p.failureThreshold }
  else none

def Container.toPod (c : Container) : Pod.Container where
  name := c.name
  image := some c.image
  imagePullPolicy := Text.nonEmpty c.imagePullPolicy
  tty := some c.tty
  ports := nonEmptyList (c.ports.map Port.toPod)
  workingDir := Text.nonEmpty c.workingDir
  command := nonEmptyList c.command
  args := nonEmptyList c.args
  env := nonEmptyList (c.envs.map EnvVar.toPod)
  envFrom := nonEmptyList (c.envSources.map EnvSource.toPod)
  securityContext := if c.privileged then some { privileged := some true } else none
  resources := c.resources.toPod?
  mounts := nonEmptyList (c.mounts.map Mount.toPod)
  startupProbe := c.startupProbe.toPod?
  livenessProbe := c.livenessProbe.toPod?
  readinessProbe := c.readinessProbe.toPod?

namespace Networking

/-- `n.dnsConfig?` is the name resolution settings, if any server is named. -/
def dnsConfig? (n : Networking) : Option Pod.DnsConfig :=
  (nonEmptyList n.nameservers).map fun servers => { nameservers := some servers }

/-- `aliasOf kv` is a host alias of the Pod. -/
def aliasOf (kv : KeyValue) : Pod.HostAlias where
  ip := some kv.key
  hostnames := some (Text.CommaList.parse kv.value)

end Networking

namespace PodRequest

/-- `r.toSpec` is what the Pod of the request should be. -/
def toSpec (r : PodRequest) : Pod.Spec where
  initContainers := nonEmptyList (r.initContainers.map Container.toPod)
  containers := r.containers.map Container.toPod
  restartPolicy := Text.nonEmpty r.base.restartPolicy
  tolerations := nonEmptyList (r.tolerations.map Toleration.toPod)
  volumes := nonEmptyList (r.volumes.map Volume.toPod)
  nodeName := r.scheduling.nodeName?
  nodeSelector := r.scheduling.nodeSelector?
  affinity := r.scheduling.affinity?
  hostNetwork := some r.networking.hostNetwork
  hostname := Text.nonEmpty r.networking.hostName
  dnsPolicy := Text.nonEmpty r.networking.dnsPolicy
  dnsConfig := r.networking.dnsConfig?
  hostAliases := nonEmptyList (r.networking.hostAliases.map Networking.aliasOf)

/-- `r.toPod` is the Pod that the request `r` asks for. -/
def toPod (r : PodRequest) : Pod where
  metadata :=
    { name := some r.base.name
      ns := some r.base.ns
      labels := (KeyValue.toMap r.base.labels).nonEmpty }
  spec := some r.toSpec

end PodRequest

end PodDesk
