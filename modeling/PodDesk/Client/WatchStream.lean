import PodDesk.Client.Exchange
import PodDesk.Cluster.Scripted
import PodDesk.Pod.Codec

/-!
# What the API server tells a watch

The server writes one event a line. Besides news about Pods it sends bookmarks, which only say how
far the watch has come; they are kept from whoever reads the watch.
-/

namespace PodDesk.Client

/-- An event as the server sends it, or the failure to read one. -/
inductive ServerEvent where
  | added (pod : Pod)
  | modified (pod : Pod)
  | deleted (pod : Pod)
  | bookmark
  /-- The server ends the watch with a failure status. -/
  | error (code : UInt16) (reason message : String)
  | failed (cause : ClusterError)
  deriving DecidableEq, Repr

namespace ServerEvent

/-- `ServerEvent.visible?` is what the reader of a watch gets to see of an event; of a failure
status, only its message. -/
def visible? : ServerEvent → Option WatchItem
  | added pod => some (.event (.added pod))
  | modified pod => some (.event (.modified pod))
  | deleted pod => some (.event (.deleted pod))
  | bookmark => none
  | error _ _ message => some (.event (.error message))
  | failed cause => some (.failed cause)

/-- `bookmarkCodec` reads a bookmark, which says how far the watch has come. -/
def bookmarkCodec : Codec Unit :=
  let version : Codec Unit :=
    .object (.cons (.required "resourceVersion" .text) .nil) (fun _ => ()) (fun _ => ("", ()))
  .object (.cons (.required "apiVersion" .text) <| .cons (.required "kind" .text) <|
      .cons (.required "metadata" version) .nil)
    (fun _ => ()) (fun _ => ("v1", "Pod", (), ()))

/-- `ofStatus?` is the event of a failure status. -/
def ofStatus? : ClusterError → Option ServerEvent
  | .api code reason message => some (error code reason message)
  | .transport _ => none

/-- `ofObject? type object` is the event of a type with an object. -/
def ofObject? (type : String) (object : Json) : Option ServerEvent :=
  match type with
  | "ADDED" => (Pod.codec.ofJson object).toOption.map added
  | "MODIFIED" => (Pod.codec.ofJson object).toOption.map modified
  | "DELETED" => (Pod.codec.ofJson object).toOption.map deleted
  | "BOOKMARK" => (bookmarkCodec.ofJson object).toOption.map fun _ => bookmark
  | "ERROR" => (statusError.ofJson object).toOption.bind ofStatus?
  | _ => none

/-- `ofJson? j` is the event that the value `j` describes. -/
def ofJson? (j : Json) : Option ServerEvent :=
  match j.get? "type", j.get? "object" with
  | some (.str type), some object => ofObject? type object
  | _, _ => none

/-- `ofLine? line` is the event on a line. A line that ends too early is no event; one that holds a
failure status or nothing readable is a failure. -/
def ofLine? (line : String) : Option ServerEvent :=
  match Json.parse line with
  | .error .truncated => none
  | .error _ => some (failed (.transport "bad event"))
  | .ok j =>
    (ofJson? j).or <| match statusError.ofJson j with
      | .ok e => some (failed e)
      | .error _ => some (failed (.transport "bad event"))

end ServerEvent

/-- `visibleItems events` is what a reader gets to see of the events, in their order. -/
def visibleItems (events : List ServerEvent) : List WatchItem :=
  events.filterMap ServerEvent.visible?

/-- `visibleScript` is what a reader gets to see of events that arrive after pauses. The pause
before a bookmark is part of the next one. -/
def visibleScript (waited : Nat) : List (Nat × ServerEvent) → List ScriptedItem
  | [] => []
  | (pause, e) :: events =>
    match e.visible? with
    | some item => ⟨waited + pause, item⟩ :: visibleScript 0 events
    | none => visibleScript (waited + pause) events

/-- `eventsOfBody body` has the events in the body of a reply. -/
def eventsOfBody (body : String) : List ServerEvent :=
  ((Text.splitAtEach '\n' body.toList).map String.ofList).filterMap ServerEvent.ofLine?

end PodDesk.Client
