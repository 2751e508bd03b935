import PodDesk.Json.Record
import PodDesk.Pod.Basic
import PodDesk.Pod.Shape

/-!
# Pods as JSON

The JSON of the cluster's API. Objects stand for records and null for an absent field, a required
field that is missing is empty, and unknown fields are ignored. Fields of the API that this program
has no use for must still be of their type; they are described in `PodDesk.Pod.Shape`.
-/

namespace PodDesk

/-- `c.shaped shape` reads only documents of the shape. -/
def Codec.shaped {α : Type} (c : Codec α) (shape : Shape) : Codec α where
  encode := c.encode
  decode d := if shape.fits d then c.decode d else .error .mismatch

namespace Fields

/-- `opt` adds a field that may be absent. -/
def opt {α τ : Type} (name : String) (codec : Codec α) (rest : Fields τ) : Fields (Option α × τ) :=
  .cons (.optional name codec) rest

/-- `req` adds a required field, empty when it is missing. -/
def req {α τ : Type} [Inhabited α] (name : String) (codec : Codec α) (rest : Fields τ) :
    Fields (α × τ) :=
  .cons (.lenient name codec default) rest

/-- `fixed` adds a field that must have a certain text when it is there, and that is always written.
-/
def fixed {τ : Type} (name wanted : String) (rest : Fields τ) : Fields (Unit × τ) :=
  .cons (.defaulted name (.constant wanted) ()) rest

/-- `present name rest` adds an object that is there or not. -/
def present {τ : Type} (name : String) (rest : Fields τ) : Fields (Bool × τ) :=
  .cons ⟨name, .presence, some false, id⟩ rest

end Fields

namespace Pod

def Metadata.codec : Codec Metadata :=
  .object (.opt "name" .text <| .opt "namespace" .text <| .opt "labels" .textMap <|
      .opt "resourceVersion" .text <| .opt "creationTimestamp" .timestamp .nil)
    (fun (name, ns, labels, resourceVersion, created, ()) =>
      { name, ns, labels, resourceVersion, created })
    (fun m => (m.name, m.ns, m.labels, m.resourceVersion, m.created, ()))

def Toleration.codec : Codec Toleration :=
  .object (.opt "key" .text <| .opt "operator" .text <| .opt "value" .text <|
      .opt "effect" .text <| .opt "tolerationSeconds" .int64 .nil)
    (fun (key, operator, value, effect, seconds, ()) => { key, operator, value, effect, seconds })
    (fun t => (t.key, t.operator, t.value, t.effect, t.seconds, ()))

def NodeRequirement.codec : Codec NodeRequirement :=
  .object (.req "key" .text <| .req "operator" .text <| .opt "values" (.list .text) .nil)
    (fun (key, operator, values, ()) => { key, operator, values })
    (fun r => (r.key, r.operator, r.values, ()))

/-- `NodeTerm.codec` has the conditions that a node meets together. -/
def NodeTerm.codec : Codec NodeTerm :=
  .object (.opt "matchExpressions" (.list NodeRequirement.codec) .nil)
    (fun (expressions, ()) => { expressions })
    (fun t => (t.expressions, ()))

/-- `nodeTermsCodec` has the terms of a node selector. -/
def nodeTermsCodec : Codec (List NodeTerm) :=
  .object (.req "nodeSelectorTerms" (.list NodeTerm.codec) .nil)
    (fun (terms, ()) => terms)
    (fun terms => (terms, ()))

def NodeAffinity.codec : Codec NodeAffinity :=
  .object (.opt "requiredDuringSchedulingIgnoredDuringExecution" nodeTermsCodec .nil)
    (fun (required, ()) => { required })
    (fun a => (a.required, ()))

def Affinity.codec : Codec Affinity :=
  .object (.opt "nodeAffinity" NodeAffinity.codec .nil)
    (fun (node, ()) => { node })
    (fun a => (a.node, ()))

def DnsConfig.codec : Codec DnsConfig :=
  .object (.opt "nameservers" (.list .text) .nil)
    (fun (nameservers, ()) => { nameservers })
    (fun c => (c.nameservers, ()))

def HostAlias.codec : Codec HostAlias :=
  .object (.opt "ip" .text <| .opt "hostnames" (.list .text) .nil)
    (fun (ip, hostnames, ()) => { ip, hostnames })
    (fun h => (h.ip, h.hostnames, ()))

/-- `ObjectSource.codec nameMember` has a volume from a config map or a secret, under the member
that holds the name. -/
def ObjectSource.codec (nameMember : String) : Codec ObjectSource :=
  .object (.opt nameMember .text <| .opt "optional" .bool .nil)
    (fun (name, isOptional, ()) => { name, isOptional })
    (fun s => (s.name, s.isOptional, ()))

def HostPathSource.codec : Codec HostPathSource :=
  .object (.req "path" .text <| .opt "type" .text .nil)
    (fun (path, kind, ()) => { path, kind })
    (fun s => (s.path, s.kind, ()))

/-- `fieldPathCodec` has a reference to a field of the Pod. -/
def fieldPathCodec : Codec String :=
  .object (.req "fieldPath" .text .nil) (fun (path, ()) => path) (fun path => (path, ()))

def DownwardFile.codec : Codec DownwardFile :=
  .object (.req "path" .text <| .opt "fieldRef" fieldPathCodec .nil)
    (fun (path, fieldPath, ()) => { path, fieldPath })
    (fun f => (f.path, f.fieldPath, ()))

def DownwardSource.codec : Codec DownwardSource :=
  .object (.opt "items" (.list DownwardFile.codec) .nil)
    (fun (items, ()) => { items })
    (fun s => (s.items, ()))

def ClaimSource.codec : Codec ClaimSource :=
  .object (.req "claimName" .text .nil)
    (fun (claimName, ()) => { claimName })
    (fun s => (s.claimName, ()))

def Volume.codec : Codec Volume :=
  .object (.req "name" .text <| .present "emptyDir" <|
      .opt "configMap" (ObjectSource.codec "name") <|
      .opt "secret" (ObjectSource.codec "secretName") <|
      .opt "hostPath" HostPathSource.codec <|
      .opt "persistentVolumeClaim" ClaimSource.codec <|
      .opt "downwardAPI" DownwardSource.codec .nil)
    (fun (name, emptyDir, configMap, secret, hostPath, claim, downward, ()) =>
      { name, emptyDir, configMap, secret, hostPath, claim, downward })
    (fun v => (v.name, v.emptyDir, v.configMap, v.secret, v.hostPath, v.claim, v.downward, ()))

def Port.codec : Codec Port :=
  .object (.opt "name" .text <| .req "containerPort" .int32 <| .opt "hostPort" .int32 .nil)
    (fun (name, containerPort, hostPort, ()) => { name, containerPort, hostPort })
    (fun p => (p.name, p.containerPort, p.hostPort, ()))

/-- `KeyRef.codec` has a key of a config map or a secret. -/
def KeyRef.codec : Codec KeyRef :=
  .object (.req "key" .text <| .opt "name" .text .nil)
    (fun (key, name, ()) => { key, name })
    (fun r => (r.key, r.name, ()))

/-- `EnvValueSource.codec` has where the value of an environment variable comes from. -/
def EnvValueSource.codec : Codec EnvValueSource :=
  .object (.opt "configMapKeyRef" KeyRef.codec <| .opt "secretKeyRef" KeyRef.codec .nil)
    (fun (configMap, secret, ()) => { configMap, secret })
    (fun s => (s.configMap, s.secret, ()))

def EnvVar.codec : Codec EnvVar :=
  .object (.req "name" .text <| .opt "value" .text <|
      .opt "valueFrom" EnvValueSource.codec .nil)
    (fun (name, value, source, ()) => { name, value, source })
    (fun e => (e.name, e.value, e.source, ()))

/-- `NameRef.codec` has a config map or a secret by its name. -/
def NameRef.codec : Codec NameRef :=
  .object (.opt "name" .text .nil) (fun (name, ()) => { name }) (fun r => (r.name, ()))

/-- `EnvSource.codec` has a source of several environment variables. -/
def EnvSource.codec : Codec EnvSource :=
  .object (.opt "prefix" .text <| .opt "configMapRef" NameRef.codec <|
      .opt "secretRef" NameRef.codec .nil)
    (fun (namePrefix, configMap, secret, ()) => { namePrefix, configMap, secret })
    (fun e => (e.namePrefix, e.configMap, e.secret, ()))

def Resources.codec : Codec Resources :=
  .object (.opt "requests" .textMap <| .opt "limits" .textMap .nil)
    (fun (requests, limits, ()) => { requests, limits })
    (fun r => (r.requests, r.limits, ()))

def SecurityContext.codec : Codec SecurityContext :=
  .object (.opt "privileged" .bool .nil)
    (fun (privileged, ()) => { privileged })
    (fun s => (s.privileged, ()))

def Mount.codec : Codec Mount :=
  .object (.req "name" .text <| .req "mountPath" .text <| .opt "readOnly" .bool .nil)
    (fun (name, path, readOnly, ()) => { name, path, readOnly })
    (fun m => (m.name, m.path, m.readOnly, ()))

def Header.codec : Codec Header :=
  .object (.req "name" .text <| .req "value" .text .nil)
    (fun (name, value, ()) => { name, value })
    (fun h => (h.name, h.value, ()))

def HttpCheck.codec : Codec HttpCheck :=
  .object (.opt "scheme" .text <| .opt "host" .text <| .opt "path" .text <|
      .req "port" PortRef.codec <| .opt "httpHeaders" (.list Header.codec) .nil)
    (fun (scheme, host, path, port, headers, ()) => { scheme, host, path, port, headers })
    (fun h => (h.scheme, h.host, h.path, h.port, h.headers, ()))

def TcpCheck.codec : Codec TcpCheck :=
  .object (.opt "host" .text <| .req "port" PortRef.codec .nil)
    (fun (host, port, ()) => { host, port })
    (fun t => (t.host, t.port, ()))

def ExecCheck.codec : Codec ExecCheck :=
  .object (.opt "command" (.list .text) .nil)
    (fun (command, ()) => { command })
    (fun e => (e.command, ()))

def Probe.codec : Codec Probe :=
  .object (.opt "exec" ExecCheck.codec <| .opt "httpGet" HttpCheck.codec <|
      .opt "tcpSocket" TcpCheck.codec <| .opt "initialDelaySeconds" .int32 <|
      .opt "periodSeconds" .int32 <| .opt "timeoutSeconds" .int32 <|
      .opt "successThreshold" .int32 <| .opt "failureThreshold" .int32 .nil)
    (fun (exec, http, tcp, initialDelay, period, timeout, successThreshold, failureThreshold, ()) =>
      { exec, http, tcp, initialDelay, period, timeout, successThreshold, failureThreshold })
    (fun p => (p.exec, p.http, p.tcp, p.initialDelay, p.period, p.timeout, p.successThreshold,
      p.failureThreshold, ()))

def Container.codec : Codec Container :=
  .object (.req "name" .text <| .opt "image" .text <| .opt "imagePullPolicy" .text <|
      .opt "tty" .bool <| .opt "ports" (.list Port.codec) <| .opt "workingDir" .text <|
      .opt "command" (.list .text) <| .opt "args" (.list .text) <|
      .opt "env" (.list EnvVar.codec) <| .opt "envFrom" (.list EnvSource.codec) <|
      .opt "securityContext" SecurityContext.codec <| .opt "resources" Resources.codec <|
      .opt "volumeMounts" (.list Mount.codec) <| .opt "startupProbe" Probe.codec <|
      .opt "livenessProbe" Probe.codec <| .opt "readinessProbe" Probe.codec .nil)
    (fun (name, image, imagePullPolicy, tty, ports, workingDir, command, args, env, envFrom,
        securityContext, resources, mounts, startupProbe, livenessProbe, readinessProbe, ()) =>
      { name, image, imagePullPolicy, tty, ports, workingDir, command, args, env, envFrom,
        securityContext, resources, mounts, startupProbe, livenessProbe, readinessProbe })
    (fun c => (c.name, c.image, c.imagePullPolicy, c.tty, c.ports, c.workingDir, c.command, c.args,
      c.env, c.envFrom, c.securityContext, c.resources, c.mounts, c.startupProbe, c.livenessProbe,
      c.readinessProbe, ()))

def Spec.codec : Codec Spec :=
  .object (.opt "initContainers" (.list Container.codec) <|
      .req "containers" (.list Container.codec) <| .opt "restartPolicy" .text <|
      .opt "tolerations" (.list Toleration.codec) <| .opt "volumes" (.list Volume.codec) <|
      .opt "nodeName" .text <| .opt "nodeSelector" .textMap <| .opt "affinity" Affinity.codec <|
      .opt "hostNetwork" .bool <| .opt "hostname" .text <| .opt "dnsPolicy" .text <|
      .opt "dnsConfig" DnsConfig.codec <| .opt "hostAliases" (.list HostAlias.codec) .nil)
    (fun (initContainers, containers, restartPolicy, tolerations, volumes, nodeName, nodeSelector,
        affinity, hostNetwork, hostname, dnsPolicy, dnsConfig, hostAliases, ()) =>
      { initContainers, containers, restartPolicy, tolerations, volumes, nodeName, nodeSelector,
        affinity, hostNetwork, hostname, dnsPolicy, dnsConfig, hostAliases })
    (fun s => (s.initContainers, s.containers, s.restartPolicy, s.tolerations, s.volumes,
      s.nodeName, s.nodeSelector, s.affinity, s.hostNetwork, s.hostname, s.dnsPolicy, s.dnsConfig,
      s.hostAliases, ()))

def ContainerStatus.codec : Codec ContainerStatus :=
  .object (.req "ready" .bool <| .req "restartCount" .int32 .nil)
    (fun (ready, restartCount, ()) => { ready, restartCount })
    (fun s => (s.ready, s.restartCount, ()))

def Status.codec : Codec Status :=
  .object (.opt "phase" .text <| .opt "podIP" .text <|
      .opt "containerStatuses" (.list ContainerStatus.codec) .nil)
    (fun (phase, podIP, containers, ()) => { phase, podIP, containers })
    (fun s => (s.phase, s.podIP, s.containers, ()))

def codec : Codec Pod :=
  (Codec.object (.fixed "apiVersion" "v1" <| .fixed "kind" "Pod" <|
      .req "metadata" Metadata.codec <| .opt "spec" Spec.codec <|
      .opt "status" Status.codec .nil)
    (fun ((), (), metadata, spec, status, ()) => { metadata, spec, status })
    (fun p => ((), (), p.metadata, p.spec, p.status, ()))).shaped Shape.ofPod

end Pod

namespace Namespace

/-- `statusCodec` has how a namespace is doing. -/
def statusCodec : Codec (Option String) :=
  .object (.opt "phase" .text .nil) (fun (phase, ()) => phase) (fun phase => (phase, ()))

def codec : Codec Namespace :=
  (Codec.object (.fixed "apiVersion" "v1" <| .fixed "kind" "Namespace" <|
      .req "metadata" Pod.Metadata.codec <| .opt "status" statusCodec .nil)
    (fun ((), (), metadata, status, ()) => { metadata, status })
    (fun n => ((), (), n.metadata, n.status, ()))).shaped Shape.ofNamespace

end Namespace

end PodDesk
