import PodDesk.Cluster.Call

/-!
# A scripted cluster

A cluster that keeps its Pods in memory and follows a script: for every kind of call the script has
a list of incidents, and each call takes the next one. An incident delays a call, lets it fail, or
changes what it does. Times are in milliseconds.
-/

namespace PodDesk

/-- What a scripted watch delivers, and how long after the item before it. -/
structure ScriptedItem where
  after : Nat
  item : WatchItem
  deriving DecidableEq, Repr

/-- What happens to a call. -/
structure Incident where
  delay : Nat := 0
  /-- The call never answers and takes its caller down. -/
  crash : Bool := false
  error : Option ClusterError := none
  /-- A lookup finds nothing. -/
  absent : Bool := false
  /-- A lookup finds this Pod. -/
  pod : Option Pod := none
  /-- A deletion is accepted and nothing happens. -/
  keep : Bool := false
  /-- How long a deleted Pod stays. -/
  removeAfter : Nat := 0
  /-- No watch announces the removal. -/
  silent : Bool := false
  /-- What the watch delivers, instead of the removals of Pods. -/
  items : Option (List ScriptedItem) := none
  deriving Repr, Inhabited

/-- `i.itemCount` is how many scripted items the incident brings to a watch. -/
def Incident.itemCount (i : Incident) : Nat :=
  (i.items.map (·.length)).getD 0

/-- The removal of a Pod that is due at a time. -/
structure Removal where
  due : Nat
  key : PodKey
  silent : Bool
  deriving DecidableEq, Repr

/-- An open watch: the namespace whose removals it announces, if it does, and what waits to be read,
each from a time on. -/
structure Watch where
  announces : Option String
  pending : List (Nat × WatchItem)
  deriving Repr

/-- The cluster. -/
structure Cluster where
  pods : SortedMap PodKey Pod := .empty
  namespaces : List Namespace := []
  version : String := ""
  script : CallKind → List (Option Incident) := fun _ => []
  /-- How many Pods were stored by creating them. -/
  created : Nat := 0
  removals : List Removal := []
  watches : List Watch := []

namespace Cluster

/-- `c.incident kind` is the next incident of a call of that kind. -/
def incident (c : Cluster) (kind : CallKind) : Incident :=
  (c.script kind).head?.join.getD {}

/-- `c.advance kind` is the cluster after a call of that kind took its incident. -/
def advance (c : Cluster) (kind : CallKind) : Cluster :=
  { c with script := fun k => if k = kind then (c.script k).tail else c.script k }

/-- `checked i` is the error of an incident. -/
def checked (i : Incident) : Except ClusterError Unit :=
  match i.error with
  | some e => .error e
  | none => .ok ()

/-- `c.lookup i key` is the Pod under the key, unless the incident says otherwise. -/
def lookup (c : Cluster) (i : Incident) (key : PodKey) : Except ClusterError (Option Pod) :=
  match i.error with
  | some e => .error e
  | none => .ok (if i.absent then none else i.pod.or (c.pods.get? key))

/-- `stored ns version pod` is the Pod as it is stored: under its namespace, with a version of its
own. -/
def stored (ns : String) (version : Nat) (pod : Pod) : Pod :=
  { pod with
    metadata := { pod.metadata with ns := some ns, resourceVersion := some (toString version) } }

/-- `c.create` creates a Pod; its name must be free. -/
def create (c : Cluster) (i : Incident) (ns : String) (pod : Pod) :
    Cluster × Except ClusterError Unit :=
  let key : PodKey := ⟨ns, pod.metadata.name.getD ""⟩
  match i.error with
  | some e => (c, .error e)
  | none =>
    if (c.pods.get? key).isSome then
      (c, .error (.alreadyExists ("pods \"" ++ key.name ++ "\" already exists")))
    else
      ({ c with
          pods := c.pods.insert key (stored ns (c.created + 1) pod)
          created := c.created + 1 }, .ok ())

/-- `c.announce now ns item` lets the watches of the namespace deliver the item from a time on. -/
def announce (c : Cluster) (now : Nat) (ns : String) (item : WatchItem) : Cluster :=
  { c with watches := c.watches.map fun w =>
      if w.announces = some ns then { w with pending := w.pending ++ [(now, item)] } else w }

/-- `c.remove now key silent` removes the Pod if it is still stored, and announces it. -/
def remove (c : Cluster) (now : Nat) (key : PodKey) (silent : Bool) : Cluster :=
  match c.pods.get? key with
  | none => c
  | some pod =>
    let c := { c with pods := c.pods.erase key }
    if silent then c else c.announce now key.ns (.event (.deleted pod))

/-- `c.delete` deletes a Pod, at once or later. -/
def delete (c : Cluster) (i : Incident) (now : Nat) (key : PodKey) :
    Cluster × Except ClusterError Unit :=
  match i.error with
  | some e => (c, .error e)
  | none =>
    if (c.pods.get? key).isNone then
      (c, .error (.notFound ("pods \"" ++ key.name ++ "\" not found")))
    else if i.keep then (c, .ok ())
    else if i.removeAfter = 0 then (c.remove now key i.silent, .ok ())
    else ({ c with removals := c.removals ++ [⟨now + i.removeAfter, key, i.silent⟩] }, .ok ())

/-- `schedule start` has the times from which scripted items can be read when the watch opens at
`start`. -/
def schedule (start : Nat) : List ScriptedItem → List (Nat × WatchItem)
  | [] => []
  | s :: items => (start + s.after, s.item) :: schedule (start + s.after) items

/-- `c.openWatch` opens a watch on a namespace; the answer is its number. -/
def openWatch (c : Cluster) (i : Incident) (now : Nat) (ns : String) :
    Cluster × Except ClusterError Nat :=
  match i.error with
  | some e => (c, .error e)
  | none =>
    let watch : Watch := match i.items with
      | some items => ⟨none, schedule now items⟩
      | none => ⟨some ns, []⟩
    ({ c with watches := c.watches ++ [watch] }, .ok c.watches.length)

/-- `c.peek watch` is what can be read next from the watch, and from when on. -/
def peek (c : Cluster) (watch : Nat) : Option (Nat × WatchItem) :=
  c.watches[watch]?.bind (·.pending.head?)

/-- `c.unread watch` is how many items wait to be read from the watch. -/
def unread (c : Cluster) (watch : Option Nat) : Nat :=
  ((watch.bind (c.watches[·]?)).map (·.pending.length)).getD 0

/-- `c.pop watch` is the cluster after an item was read from the watch. -/
def pop (c : Cluster) (watch : Nat) : Cluster :=
  { c with watches := c.watches.modify watch fun w => { w with pending := w.pending.tail } }

/-- `c.listPods i ns` has the Pods of the namespace by their names. -/
def listPods (c : Cluster) (i : Incident) (ns : String) : Except ClusterError (List Pod) :=
  match i.error with
  | some e => .error e
  | none => .ok ((c.pods.entries.filter fun e => e.1.ns = ns).map (·.2))

/-- `c.listNamespaces i` has the namespaces, unless the incident says otherwise. -/
def listNamespaces (c : Cluster) (i : Incident) : Except ClusterError (List Namespace) :=
  match i.error with
  | some e => .error e
  | none => .ok c.namespaces

/-- `c.health i` is the version of the API server, unless the incident says otherwise. -/
def health (c : Cluster) (i : Incident) : Except ClusterError String :=
  match i.error with
  | some e => .error e
  | none => .ok c.version

end Cluster

end PodDesk
