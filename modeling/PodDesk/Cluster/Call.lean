import PodDesk.Cluster.Error
import PodDesk.Pod.Basic

/-!
# Calls to the cluster

The calls that this program makes, the keys by which they name Pods, and what a watch delivers.
-/

namespace PodDesk

/-- Where a Pod is stored. -/
structure PodKey where
  ns : String
  name : String
  deriving DecidableEq, Repr, Inhabited

namespace PodKey

/-- `a.Precedes b` orders keys by the namespace and then by the name. -/
def Precedes (a b : PodKey) : Prop :=
  a.ns < b.ns ∨ (a.ns = b.ns ∧ a.name < b.name)

instance : LT PodKey := ⟨Precedes⟩

instance (a b : PodKey) : Decidable (Precedes a b) :=
  inferInstanceAs (Decidable (_ ∨ _))

theorem Precedes.trans {a b c : PodKey} (h₁ : Precedes a b) (h₂ : Precedes b c) : Precedes a c := by
  rcases h₁ with h₁ | ⟨e₁, h₁⟩ <;> rcases h₂ with h₂ | ⟨e₂, h₂⟩
  · exact .inl (String.lt_trans h₁ h₂)
  · exact .inl (e₂ ▸ h₁)
  · exact .inl (e₁ ▸ h₂)
  · exact .inr ⟨e₁.trans e₂, String.lt_trans h₁ h₂⟩

theorem eq_of_not_precedes {a b : PodKey} (h₁ : ¬ Precedes a b) (h₂ : ¬ Precedes b a) : a = b := by
  have hns : a.ns = b.ns :=
    KeyOrder.eq_of_not_lt (fun h => h₁ (.inl h)) (fun h => h₂ (.inl h))
  have hname : a.name = b.name :=
    KeyOrder.eq_of_not_lt (fun h => h₁ (.inr ⟨hns, h⟩)) (fun h => h₂ (.inr ⟨hns.symm, h⟩))
  cases a
  cases b
  simp_all

instance : KeyOrder PodKey where
  decidableLt a b := inferInstanceAs (Decidable (Precedes a b))
  lt_irrefl a h := by
    rcases h with h | ⟨_, h⟩ <;> exact String.lt_irrefl _ h
  lt_trans := Precedes.trans
  eq_of_not_lt := eq_of_not_precedes

/-- `k.display` is the key on one line. -/
def display (k : PodKey) : String :=
  "Pod[namespace=" ++ k.ns ++ ",name=" ++ k.name ++ "]"

end PodKey

/-- How the dependents of a deleted object go. -/
inductive Propagation where
  | background
  | foreground
  | orphan
  deriving DecidableEq, Repr

namespace Propagation

def word : Propagation → String
  | background => "Background"
  | foreground => "Foreground"
  | orphan => "Orphan"

end Propagation

/-- How an object is deleted. -/
structure DeleteParams where
  gracePeriodSeconds : Option Nat := none
  propagation : Option Propagation := none
  deriving DecidableEq, Repr

/-- `DeleteParams.background grace` lets the dependents go in the background. -/
def DeleteParams.background (grace : Nat) : DeleteParams :=
  ⟨some grace, some .background⟩

/-- A call to the cluster. -/
inductive Call where
  | get (key : PodKey)
  /-- A creation that is checked and not stored. -/
  | dryRun (ns : String) (pod : Pod)
  | create (ns : String) (pod : Pod)
  | delete (key : PodKey) (params : DeleteParams)
  | watch (ns selector resourceVersion : String)
  | list (ns : String)
  | listNamespaces
  | health
  deriving DecidableEq, Repr

/-- The kinds of calls. -/
inductive CallKind where
  | get
  | dryRun
  | create
  | delete
  | watch
  | list
  | listNamespaces
  | health
  deriving DecidableEq, Repr

namespace CallKind

def all : List CallKind :=
  [.get, .dryRun, .create, .delete, .watch, .list, .listNamespaces, .health]

def word : CallKind → String
  | get => "get"
  | dryRun => "dry_run"
  | create => "create"
  | delete => "delete"
  | watch => "watch"
  | list => "list"
  | listNamespaces => "list_namespaces"
  | health => "health"

end CallKind

/-- `Call.kind` is the kind of a call. -/
def Call.kind : Call → CallKind
  | get _ => .get
  | dryRun _ _ => .dryRun
  | create _ _ => .create
  | delete _ _ => .delete
  | watch _ _ _ => .watch
  | list _ => .list
  | listNamespaces => .listNamespaces
  | health => .health

/-- What a watch tells about a Pod, or about itself. -/
inductive WatchEvent where
  | added (pod : Pod)
  | modified (pod : Pod)
  | deleted (pod : Pod)
  | error (message : String)
  deriving DecidableEq, Repr

namespace WatchEvent

/-- `WatchEvent.pod?` is the Pod that an event is about. -/
def pod? : WatchEvent → Option Pod
  | added pod => some pod
  | modified pod => some pod
  | deleted pod => some pod
  | error _ => none

/-- `e.podName?` is the name of the Pod that an event is about. -/
def podName? (e : WatchEvent) : Option String :=
  e.pod?.bind (·.metadata.name)

end WatchEvent

/-- What a watch delivers: an event, a failure, or its end. -/
inductive WatchItem where
  | event (e : WatchEvent)
  | failed (e : ClusterError)
  | ended
  deriving DecidableEq, Repr

/-- `labelSelector labels` is what a watch selects Pods by: every label with its value, separated by
commas. Without labels it is empty and selects every Pod. -/
def labelSelector (labels : Option TextMap) : String :=
  match labels with
  | none => ""
  | some m => String.intercalate "," (m.entries.map fun e => e.1 ++ "=" ++ e.2)

end PodDesk
