import PodDesk.Client.WatchStream

/-!
# The calls as exchanges

Every call that the service makes has an exchange with the API server: where it is sent, what is
sent with it, and what a reply means.
-/

namespace PodDesk.Client

/-- `podsPath ns` is the path of the Pods of a namespace. -/
def podsPath (ns : String) : String :=
  "/api/v1/namespaces/" ++ ns ++ "/pods"

/-- `podPath key` is the path of a Pod. -/
def podPath (key : PodKey) : String :=
  podsPath key.ns ++ "/" ++ key.name

/-- `paramsJson p` writes the parameters of a deletion. -/
def paramsJson (p : DeleteParams) : Json :=
  .ofMembers? [("gracePeriodSeconds", p.gracePeriodSeconds.map Json.ofNat),
    ("propagationPolicy", p.propagation.map fun policy => .str policy.word)]

/-- `itemsCodec c` reads a list of objects, each with the codec `c`. -/
def itemsCodec {α : Type} (c : Codec α) : Codec (List α) :=
  .object (.cons (.required "items" c.list) .nil) (fun (items, ()) => items)
    (fun items => (items, ()))

/-- `versionCodec` reads the version of an API server. -/
def versionCodec : Codec String :=
  let others := ["major", "minor", "gitCommit", "gitTreeState", "buildDate", "goVersion",
    "compiler", "platform"]
  { encode := fun v => .obj (("gitVersion", .str v) :: others.map (·, .str ""))
    decode := fun d => do
      let j ← d.toJson
      match j.get? "gitVersion", others.all fun name => (j.get? name).any (· matches .str _) with
      | some (.str v), true => .ok v
      | _, _ => .error .mismatch }

/-- `anything` reads any value; it is used where a reply only has to be readable. -/
def anything : Codec Json where
  encode := id
  decode d := d.toJson

/-- `lookup key` asks for a Pod. That there is none is no error. -/
def lookup (key : PodKey) : Exchange (Option Pod) where
  request := { method := "GET", target := podPath key }
  read reply :=
    match readReply Pod.codec reply with
    | .ok pod => .ok (some pod)
    | .error e => if e.isNotFound then .ok none else .error e

/-- `create` creates a Pod, or tries to. -/
def create (ns : String) (pod : Pod) (dryRun : Bool) : Exchange Pod where
  request :=
    { method := "POST", target := podsPath ns ++ if dryRun then "?dryRun=All" else "?"
      body := some (Pod.codec.encode pod) }
  read := readReply Pod.codec

/-- `delete key params` deletes a Pod. The reply is about the Pod, or a status. -/
def delete (key : PodKey) (params : DeleteParams) : Exchange Unit where
  request := { method := "DELETE", target := podPath key ++ "?", body := some (paramsJson params) }
  read reply := do
    let j ← readReply anything reply
    if j.get? "kind" == some (.str "Status") then .ok ()
    else
      match Pod.codec.ofJson j with
      | .ok _ => .ok ()
      | .error _ => .error (.transport "bad answer")

/-- `watch` opens a watch. A failure status comes as the only event. -/
def watch (ns selector resourceVersion : String) : Exchange (List ServerEvent) where
  request :=
    { method := "GET"
      target := podsPath ns ++ "?watch=true&timeoutSeconds=290&allowWatchBookmarks=true" ++
        (if selector.isEmpty then "" else "&labelSelector=" ++ Http.Form.encodePart selector) ++
        "&resourceVersion=" ++ Http.Form.encodePart resourceVersion }
  read reply := .ok (eventsOfBody reply.body)

/-- `list ns` lists the Pods of a namespace. -/
def list (ns : String) : Exchange (List Pod) where
  request := { method := "GET", target := podsPath ns ++ "?" }
  read := readReply (itemsCodec Pod.codec)

/-- `namespaces` lists the namespaces. -/
def namespaces : Exchange (List Namespace) where
  request := { method := "GET", target := "/api/v1/namespaces?" }
  read := readReply (itemsCodec Namespace.codec)

/-- `version` asks for the version of the API server. -/
def version : Exchange String where
  request := { method := "GET", target := "/version" }
  read := readReply versionCodec

end PodDesk.Client
