import PodDesk.Number.Decimal
import PodDesk.Settings.Basic

/-!
# Settings from the environment

Every setting can be given by a variable with the name of its field; names are compared without
regard to case. Numbers are written in decimal digits, and the usual words for "on" and "off" stand
for one and zero.
-/

namespace PodDesk

/-- The variables of an environment, with their values. -/
abbrev Environment := List (String × String)

namespace Environment

/-- `e.get? name` is the value of a variable. -/
def get? (e : Environment) (name : String) : Option String :=
  e.lookup name

/-- `e.getAnyCase? name` is the value of a variable whose name may be written in any case. Of
several such variables the last one counts. -/
def getAnyCase? (e : Environment) (name : String) : Option String :=
  (e.reverse.find? fun v => v.1.map Char.toLower = name).map (·.2)

/-- `switch? value` reads a word for "on" or "off". -/
def switch? (value : String) : Option Bool :=
  let word := value.map Char.toLower
  if word ∈ ["true", "on", "yes"] then some true
  else if word ∈ ["false", "off", "no"] then some false
  else none

/-- `natural? bound value` reads a number below the bound. -/
def natural? (bound : Nat) (value : String) : Option Nat :=
  match switch? value with
  | some b => some b.toNat
  | none => (Decimal.unsigned? value.toList).filter (· < bound)

/-- `bool? value` reads a truth value; one and zero are allowed too. -/
def bool? (value : String) : Option Bool :=
  if value = "1" then some true
  else if value = "0" then some false
  else switch? value

/-- `e.setting?` is the value of a setting: its default when the variable is missing, and nothing
when its value cannot be read. -/
def setting? {α : Type} (e : Environment) (name : String) (default : α)
    (read : String → Option α) : Option α :=
  match e.getAnyCase? name with
  | none => some default
  | some value => read value

end Environment

/-- `Settings.ofEnvironment? e` has the settings that the environment describes; there are none when
a value cannot be read. -/
def Settings.ofEnvironment? (e : Environment) : Option Settings := do
  let d : Settings := {}
  let natural (name : String) (default bound : Nat) : Option Nat :=
    e.setting? name default (Environment.natural? bound)
  let port ← natural "port" d.port word16
  let kubeconfig ← e.setting? "kubeconfig" d.kubeconfig (some ∘ some)
  let deletionWait ← natural "pod_deletion_wait_secs" d.deletionWait word64
  let gracePeriod ← natural "pod_delete_grace_period_secs" d.gracePeriod word32
  let pollInterval ← natural "cluster_poll_interval_secs" d.pollInterval word64
  let allowedOrigins ← e.setting? "cors_allowed_origins" d.allowedOrigins some
  let logJson ← e.setting? "log_json" d.logJson Environment.bool?
  some { port, kubeconfig, deletionWait, gracePeriod, pollInterval, allowedOrigins, logJson }

end PodDesk
