import PodDesk.Json.Record
import PodDesk.Text.CommaList

/-!
# Settings

What an operator can choose about the service.
-/

namespace PodDesk

/-- The settings of the service. -/
structure Settings where
  /-- The port that the service listens on. -/
  port : Nat := 8080
  /-- The file with the address of the cluster, if it is not in the usual place. -/
  kubeconfig : Option String := none
  /-- How many seconds a replacement waits for the removal of the old Pod. -/
  deletionWait : Nat := 5
  /-- How many seconds a deleted Pod has to stop. -/
  gracePeriod : Nat := 0
  /-- How many seconds pass between two looks at the cluster. -/
  pollInterval : Nat := 10
  /-- The origins whose scripts may use the service, separated by commas. -/
  allowedOrigins : String := "http://localhost:3000,http://127.0.0.1:3000"
  /-- Whether log lines are JSON. -/
  logJson : Bool := false
  deriving DecidableEq, Repr, Inhabited

namespace Settings

/-- `s.effectivePollInterval` is how many seconds pass between two looks at the cluster, at least
one. -/
def effectivePollInterval (s : Settings) : Nat :=
  max s.pollInterval 1

/-- `s.origins` has the origins whose scripts may use the service. -/
def origins (s : Settings) : List String :=
  Text.CommaList.parse s.allowedOrigins

/-- `fields` has the fields of the settings, in order. -/
def fields :
    Fields (Nat × Option String × Nat × Nat × Nat × String × Bool × Unit) :=
  let d : Settings := {}
  .cons (.defaulted "port" (.natural word16) d.port) <|
  .cons (.defaulted "kubeconfig" Codec.text.option d.kubeconfig) <|
  .cons (.defaulted "pod_deletion_wait_secs" (.natural word64) d.deletionWait) <|
  .cons (.defaulted "pod_delete_grace_period_secs" (.natural word32) d.gracePeriod) <|
  .cons (.defaulted "cluster_poll_interval_secs" (.natural word64) d.pollInterval) <|
  .cons (.defaulted "cors_allowed_origins" .text d.allowedOrigins) <|
  .cons (.defaulted "log_json" .bool d.logJson) .nil

/-- `codec` has the settings as JSON; what is missing has its default. -/
def codec : Codec Settings :=
  .record fields
    (fun (port, kubeconfig, deletionWait, gracePeriod, pollInterval, allowedOrigins, logJson, ()) =>
      { port, kubeconfig, deletionWait, gracePeriod, pollInterval, allowedOrigins, logJson })
    (fun s => (s.port, s.kubeconfig, s.deletionWait, s.gracePeriod, s.pollInterval,
      s.allowedOrigins, s.logJson, ()))

end Settings

end PodDesk
