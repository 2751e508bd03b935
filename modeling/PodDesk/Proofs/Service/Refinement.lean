import Mathlib.Data.List.Forall2
import PodDesk.Proofs.Pod.Rows
import PodDesk.Proofs.Replacement.Calm
import PodDesk.Proofs.Request.Wire
import PodDesk.Proofs.Service.Ledger
import PodDesk.Proofs.Service.Report
import PodDesk.Proofs.Service.Routes

/-!
# The service keeps a plain map

As long as the cluster makes no trouble, clients cannot tell the service from a map of requests:
every command is answered as the map answers it, the store holds what the map holds, and no time
passes.

## Main statements

- `Session.Calm.step`: one request changes and answers what its command does to the map
- `Session.serveAll_refines_ledger`: so do all requests of a session
-/

namespace PodDesk

/-- `command.AskedBy r` says that the HTTP request `r` asks for the command. -/
def Command.AskedBy (r : Http.Request) : Command → Prop
  | submit request => r.method = "POST" ∧ r.path = Endpoint.podsPath ∧
      Service.readBody r = .ok request ∧ request.violation? = none
  | inspect key => r.method = "GET" ∧ r.path = Endpoint.podPath key ∧
      IsLabel key.ns ∧ IsLabel key.name
  | remove key => r.method = "DELETE" ∧ r.path = Endpoint.podPath key ∧
      IsLabel key.ns ∧ IsLabel key.name
  | enumerate ns => r.method = "GET" ∧ r.path = Endpoint.listPath ns ∧ IsLabel ns ∧
      Http.Form.single? (Http.Form.pairs r.query) "keyword" = some "" ∧
      Http.Form.single? (Http.Form.pairs r.query) "nodeName" = some ""

/-- `a.SaidBy response` says that the response gives the answer `a`, with its status and with its
whole body as JSON. A request that is `shown` is the one that `PodRequest.codec` reads from the
body, and the rows of a list are in the order of the names. -/
def Answer.SaidBy (response : Http.Response) : Answer → Prop
  | created key => response.IsSuccess (.obj [("namespace", .str key.ns), ("name", .str key.name),
      ("action", .str "created"),
      ("message", .str ("Pod[namespace=" ++ key.ns ++ ",name=" ++ key.name ++ "] created"))])
  | replaced key => response.IsSuccess (.obj [("namespace", .str key.ns), ("name", .str key.name),
      ("action", .str "replaced"),
      ("message", .str ("Pod[namespace=" ++ key.ns ++ ",name=" ++ key.name ++
        "] updated (old pod removal: deleted_event)"))])
  | shown request => ∃ pod, response.IsSuccess (.obj [("pod", pod)]) ∧
      PodRequest.codec.ofJson pod = .ok request
  | removed => response.IsSuccess (.obj [("deleted", .bool true)])
  | missing key => response.status = 404 ∧
      response.IsFailure "NOT_FOUND" ("Pod " ++ key.ns ++ "/" ++ key.name ++ " not found") none
  | listed names => ∃ rows : List PodRow,
      response.IsSuccess (.obj [("podList", .arr (rows.map PodRow.sent))]) ∧
        rows.map (·.name) = names

/-- `Service.send` adds headers to a response, and holds back the body only if the head alone was
asked for. It does not change an answer. -/
theorem Answer.SaidBy.send {a : Answer} {response : Http.Response} (h : a.SaidBy response)
    (policy : Http.OriginPolicy) {r : Http.Request} (hmethod : r.method ≠ "HEAD") :
    (Service.send policy r response).headOnly = false ∧
      a.SaidBy (Service.send policy r response) := by
  refine ⟨decide_eq_false hmethod, ?_⟩
  cases a with
  | created key => exact ⟨h.status, h.body⟩
  | replaced key => exact ⟨h.status, h.body⟩
  | shown request =>
    obtain ⟨pod, hsuccess, hread⟩ := h
    exact ⟨pod, ⟨hsuccess.status, hsuccess.body⟩, hread⟩
  | removed => exact ⟨h.status, h.body⟩
  | missing key => exact ⟨h.1, h.2.status, h.2.body⟩
  | listed names =>
    obtain ⟨rows, hsuccess, hnames⟩ := h
    exact ⟨rows, ⟨hsuccess.status, hsuccess.body⟩, hnames⟩

/-- `Service.noPod` is reported as the answer `missing`. -/
theorem Answer.saidBy_noPod (key : PodKey) :
    (missing key).SaidBy (Service.report (Service.noPod key)) :=
  ⟨rfl, Problem.isFailure_report _⟩

/-- `Service.afterReplacement` says what `Done` says: the key, the action and the message. -/
theorem isSuccess_afterReplacement (done : Done) :
    (Service.afterReplacement (.ok done)).IsSuccess (.obj [("namespace", .str done.key.ns),
      ("name", .str done.key.name), ("action", .str done.action),
      ("message", .str done.message)]) :=
  ⟨rfl, rfl⟩

/-- `Service.afterReplacement` answers `created` when no Pod was replaced, and `replaced` when one
was, whose removal was announced. -/
theorem Answer.saidBy_afterReplacement (key : PodKey) :
    (created key).SaidBy (Service.afterReplacement (.ok ⟨key, none⟩)) ∧
      (replaced key).SaidBy (Service.afterReplacement (.ok ⟨key, some .deletedEvent⟩)) := by
  have hcreated : (⟨key, none⟩ : Done).message =
      "Pod[namespace=" ++ key.ns ++ ",name=" ++ key.name ++ "] created" := by
    show _ ++ "]" ++ " created" = _
    rw [String.append_assoc]
    rfl
  have hreplaced : (⟨key, some .deletedEvent⟩ : Done).message =
      "Pod[namespace=" ++ key.ns ++ ",name=" ++ key.name ++
        "] updated (old pod removal: deleted_event)" := by
    show _ ++ "]" ++ " updated (old pod removal: " ++ "deleted_event" ++ ")" = _
    simp only [String.append_assoc]
    rfl
  have hnew := isSuccess_afterReplacement ⟨key, none⟩
  have hold := isSuccess_afterReplacement ⟨key, some .deletedEvent⟩
  rw [hcreated] at hnew
  rw [hreplaced] at hold
  exact ⟨hnew, hold⟩

/-- `c.IsKeyed` says that every Pod carries the namespace and the name that it is stored under. -/
def Cluster.IsKeyed (c : Cluster) : Prop :=
  ∀ key pod, c.pods.get? key = some pod →
    pod.metadata.ns = some key.ns ∧ pod.metadata.name = some key.name

namespace World

variable {w : World}

/-! ## A quiet world -/

/-- `World.next?` finds nothing to do when all tasks are at rest and no removal is on its way. -/
theorem next?_eq_none (hrest : ∀ t ∈ w.tasks, t.AtRest) (hremovals : w.cluster.removals = []) :
    w.next? = none := by
  cases hnext : w.next? with
  | none => rfl
  | some entry =>
    obtain ⟨time, actor⟩ := entry
    have hentry := next?_entry hnext
    -- What stands in the agenda is a removal, or a task that is not at rest.
    cases actor with
    | removal j =>
      obtain ⟨r, hr, -⟩ := hentry
      rw [hremovals] at hr
      simp at hr
    | task j =>
      obtain ⟨t, due, ht, hdue, -⟩ := hentry
      rw [Task.due?_of_atRest (hrest t (List.mem_of_getElem? ht))] at hdue
      simp at hdue

theorem settle_of_rest (hrest : ∀ t ∈ w.tasks, t.AtRest) (hremovals : w.cluster.removals = []) :
    w.settle = w := by
  unfold settle runBefore
  cases w.budget with
  | zero => rfl
  | succ n => simp only [run, next?_eq_none hrest hremovals]

/-- `World.ask` is answered at once when the cluster is faultless. -/
theorem ask_plain {α : Type} (hfaultless : w.cluster.IsFaultless) (query : Query α)
    (limit : Option Nat) :
    w.ask query limit =
      ({ (w.enter query.call).1 with
          cluster := (query.answer (w.cluster.advance query.call.kind) {} w.now).1 },
        .answered (query.answer (w.cluster.advance query.call.kind) {} w.now).2) := by
  have hincident : w.enter query.call = ((w.enter query.call).1, {}) :=
    Prod.ext rfl (hfaultless.incident query.call.kind)
  unfold ask
  rw [hincident]
  rfl

end World

namespace Session

variable {s : Session}

/-- The requests that describe the stored Pods, by `PodRequest.ofPod`. -/
def ledger (s : Session) : Ledger :=
  s.world.cluster.pods.mapValues .ofPod

/-- `Session.ledger` keeps under a key what describes the Pod that is stored under it. -/
@[simp] theorem get?_ledger (s : Session) (key : PodKey) :
    s.ledger.get? key = (s.world.cluster.pods.get? key).map .ofPod :=
  SortedMap.get?_mapValues _ _ _

/-- The session after each of the requests, with what is seen of it. No caller gives up. -/
def serveAll : Session → List Http.Request → List (Session × Reaction)
  | _, [] => []
  | s, r :: requests =>
    s.step (.request r none) :: serveAll (s.step (.request r none)).1 requests

/-- A connected session without trouble: the cluster has no faults, a wait would end before the end
of time, nobody is at work, and the Pods are stored under their own names. -/
structure Calm (s : Session) : Prop where
  connected : s.connected = true
  wait : 0 < s.settings.deletionWait
  deadline : s.world.now + s.settings.deletionWait * 1000 < endOfTime
  faultless : s.world.cluster.IsFaultless
  rest : ∀ t ∈ s.world.tasks, t.AtRest
  keyed : s.world.cluster.IsKeyed

/-- `s.Follows kept seen` says that one request did to `s` what its command does to the ledger, and
that no time passed. -/
structure Follows (s : Session) (kept : Ledger × Answer) (seen : Session × Reaction) : Prop where
  ledger : seen.1.ledger = kept.1
  now : seen.1.world.now = s.world.now
  answer : ∃ response, seen.2 = .response response ∧ response.headOnly = false ∧
    kept.2.SaidBy response

/-- A session stays `Calm` in another world that is calm at the same time. -/
theorem Calm.of_world (h : s.Calm) (w : World) (hnow : w.now = s.world.now)
    (hfaultless : w.cluster.IsFaultless) (hrest : ∀ t ∈ w.tasks, t.AtRest)
    (hkeyed : w.cluster.IsKeyed) : ({ s with world := w } : Session).Calm where
  connected := h.connected
  wait := h.wait
  deadline := by
    show w.now + _ < _
    rw [hnow]
    exact h.deadline
  faultless := hfaultless
  rest := hrest
  keyed := hkeyed

/-- A step with a request that is no preflight is `Session.serve`, and `Service.send` sends the
response. -/
theorem Calm.step_of_serve {r : Http.Request} {w : World} {response : Http.Response} (h : s.Calm)
    (hmethod : r.method ≠ "OPTIONS") (hserve : s.serve r none = (w, .response response)) :
    s.step (.request r none) =
      ({ s with world := w }, .response (Service.send s.policy r response)) := by
  have hsettle : s.world.settle = s.world :=
    World.settle_of_rest h.rest h.faultless.removals
  have hrespond : s.respond r none = (w, .response (Service.send s.policy r response)) := by
    simp [Session.respond, Http.OriginPolicy.preflight?, hmethod, hserve]
  simp only [Session.step, hsettle, Option.map_none]
  rw [hrespond]

/-- A session in whose world one more call has been counted stays `Calm` and keeps its `ledger`. -/
theorem Calm.of_advance (h : s.Calm) {w : World} (kind : CallKind) (hnow : w.now = s.world.now)
    (htasks : w.tasks = s.world.tasks) (hcluster : w.cluster = s.world.cluster.advance kind) :
    ({ s with world := w } : Session).Calm ∧
      ({ s with world := w } : Session).ledger = s.ledger := by
  have hpods : w.cluster.pods = s.world.cluster.pods := by
    rw [hcluster]
    rfl
  refine ⟨h.of_world w hnow (hcluster ▸ h.faultless.advance kind) (htasks ▸ h.rest) ?_, ?_⟩
  · intro key pod hget
    exact h.keyed key pod (hpods ▸ hget)
  · show w.cluster.pods.mapValues _ = _
    rw [hpods]
    rfl

/-- A step that ends in the world `w` with a response follows a command, if that world holds what
the command leaves and the response gives its answer. -/
private theorem follows_of_step {r : Http.Request} {command : Command} {w : World}
    {response : Http.Response}
    (hstep : s.step (.request r none) =
      ({ s with world := w }, .response (Service.send s.policy r response)))
    (hmethod : r.method ≠ "HEAD") (hnow : w.now = s.world.now)
    (hcalm : ({ s with world := w } : Session).Calm)
    (hledger : ({ s with world := w } : Session).ledger = (s.ledger.serve command).1)
    (hsaid : (s.ledger.serve command).2.SaidBy response) :
    (s.step (.request r none)).1.Calm ∧
      s.Follows (s.ledger.serve command) (s.step (.request r none)) := by
  rw [hstep]
  exact ⟨hcalm, hledger, hnow, _, rfl, hsaid.send s.policy hmethod⟩

/-! ## A submitted Pod -/

/-- The version that `Cluster.stored` writes into a Pod does not show in `PodRequest.ofPod`. -/
theorem ofPod_stored (p : Plan) (version : Nat) :
    PodRequest.ofPod (Cluster.stored p.key.ns version p.pod) = .ofPod p.request.toPod := rfl

/-- A Pod that `Cluster.stored` makes for a plan carries the key of the plan, so `Cluster.IsKeyed`
is kept. -/
theorem isKeyed_insert {c c' : Cluster} {p : Plan} {version : Nat} (h : c.IsKeyed)
    (hpods : c'.pods = c.pods.insert p.key (Cluster.stored p.key.ns version p.pod)) :
    c'.IsKeyed := by
  intro key pod hget
  rw [hpods] at hget
  -- The new Pod carries its own key, and the others are as they were.
  by_cases hkey : key = p.key
  · subst hkey
    rw [SortedMap.get?_insert_self] at hget
    obtain rfl := Option.some.inj hget
    exact ⟨rfl, rfl⟩
  · rw [SortedMap.get?_insert_of_ne _ _ hkey] at hget
    exact h key pod hget

/-- The run of a replacement in a calm session `Settles`: it creates the Pod, or replaces the one
that is there after the watch has announced its removal. -/
private theorem Calm.settles (h : s.Calm) (p : Plan) :
    World.Settles s.world.cluster.pods s.world.now p
      ((s.world.cluster.pods.get? p.key).map fun _ => .deletedEvent) s.world.tasks.length
      ((s.world.spawn p (s.settings.deletionWait * 1000)).1.runTask
        (s.world.spawn p (s.settings.deletionWait * 1000)).2 none) := by
  cases hstored : s.world.cluster.pods.get? p.key with
  | none => exact World.runTask_absent _ _ _ h.rest h.faultless hstored
  | some existing =>
    have hwait : 0 < s.settings.deletionWait * 1000 := Nat.mul_pos h.wait (by omega)
    exact World.runTask_present _ _ _ h.rest h.faultless hstored (h.keyed p.key existing hstored).2
      hwait h.deadline

/-- `Session.runReplacement` in a calm session: the run settles, and nothing else is due when it is
over. -/
private theorem Calm.runReplacement (h : s.Calm) (request : PodRequest) :
    let p : Plan := ⟨request, s.settings.gracePeriod⟩
    let signal := (s.world.cluster.pods.get? p.key).map fun _ => Signal.deletedEvent
    ∃ final : World,
      World.Settles s.world.cluster.pods s.world.now p signal s.world.tasks.length final ∧
      s.runReplacement request none =
        (final, .response (Service.afterReplacement (.ok ⟨p.key, signal⟩))) := by
  intro p signal
  have hsettles := h.settles p
  generalize hfinal : (s.world.spawn p (s.settings.deletionWait * 1000)).1.runTask
    (s.world.spawn p (s.settings.deletionWait * 1000)).2 none = final at hsettles
  refine ⟨final, hsettles, ?_⟩
  have hresult : final.tasks[(s.world.spawn p (s.settings.deletionWait * 1000)).2]?.bind
      (·.result?) = some (.ok (.ok ⟨p.key, signal⟩)) := hsettles.result
  -- After the replacement whatever is due would still happen, but nothing is.
  have hsettle : final.settle = final :=
    World.settle_of_rest hsettles.rest hsettles.faultless.removals
  unfold Session.runReplacement
  dsimp only
  rw [show (⟨request, s.settings.gracePeriod⟩ : Plan) = p from rfl, hfinal, hresult]
  dsimp only
  rw [hsettle]

/-- `Command.submit`: the Pod is kept, and the answer tells whether it took the place of another. -/
theorem Calm.submit {r : Http.Request} {request : PodRequest} (h : s.Calm)
    (hasked : (Command.submit request).AskedBy r) :
    (s.step (.request r none)).1.Calm ∧
      s.Follows (s.ledger.serve (.submit request)) (s.step (.request r none)) := by
  obtain ⟨hmethod, hpath, hbody, hvalid⟩ := hasked
  obtain ⟨final, hsettles, hrun⟩ := h.runReplacement request
  -- The request is accepted, so that the run decides about the response.
  have hserve : s.serve r none = s.runReplacement request none := by
    unfold serve
    rw [Service.handle_submit h.connected hmethod hpath hbody hvalid]
  have hstep := h.step_of_serve (by simp [hmethod]) (hserve.trans hrun)
  obtain ⟨version, hpods⟩ := hsettles.pods
  have hcalm := h.of_world final hsettles.now hsettles.faultless hsettles.rest
    (isKeyed_insert h.keyed hpods)
  refine follows_of_step hstep (by simp [hmethod]) hsettles.now hcalm ?_ ?_
  -- The stored Pod has a version of its own, which no description shows.
  · show final.cluster.pods.mapValues _ = _
    rw [hpods, SortedMap.mapValues_insert, ofPod_stored]
    rfl
  -- The ledger and the run both ask whether the key is taken.
  · let key : PodKey := ⟨request.base.ns, request.base.name⟩
    obtain ⟨hcreated, hreplaced⟩ := Answer.saidBy_afterReplacement key
    show Answer.SaidBy _ (if (s.ledger.get? key).isSome then .replaced key else .created key)
    rw [get?_ledger, Option.isSome_map]
    show Answer.SaidBy (Service.afterReplacement (.ok ⟨key,
      (s.world.cluster.pods.get? key).map fun _ => .deletedEvent⟩)) _
    cases s.world.cluster.pods.get? key with
    | none => exact hcreated
    | some existing => exact hreplaced

/-! ## A question -/

/-- `Handling.ask` in a calm session is answered from the store, and the answer decides. -/
theorem Calm.ask {r : Http.Request} {α : Type} {query : Query α}
    {decide : Except ClusterError α → Http.Response} (h : s.Calm) (hmethod : r.method ≠ "OPTIONS")
    (hhandle : s.service.handle r = .ask query decide) :
    ∃ w : World, w.now = s.world.now ∧ w.tasks = s.world.tasks ∧
      w.cluster = (query.answer (s.world.cluster.advance query.call.kind) {} s.world.now).1 ∧
      s.step (.request r none) = ({ s with world := w }, .response (Service.send s.policy r (decide
        (query.answer (s.world.cluster.advance query.call.kind) {} s.world.now).2))) := by
  let answer := query.answer (s.world.cluster.advance query.call.kind) {} s.world.now
  let w : World := { (s.world.enter query.call).1 with cluster := answer.1 }
  have hserve : s.serve r none = (w, .response (decide answer.2)) := by
    unfold serve
    rw [hhandle]
    dsimp only
    rw [World.ask_plain h.faultless query none]
  exact ⟨w, rfl, rfl, rfl, h.step_of_serve hmethod hserve⟩

/-- `Command.inspect`: the request that describes the Pod is shown. -/
theorem Calm.inspect {r : Http.Request} {key : PodKey} (h : s.Calm)
    (hasked : (Command.inspect key).AskedBy r) :
    (s.step (.request r none)).1.Calm ∧
      s.Follows (s.ledger.serve (.inspect key)) (s.step (.request r none)) := by
  obtain ⟨hmethod, hpath, hns, hname⟩ := hasked
  obtain ⟨decide, hhandle, hfound, hmissing⟩ :=
    Service.handle_inspect (s := s.service) h.connected hmethod hpath hns hname
  obtain ⟨w, hnow, htasks, hcluster, hstep⟩ := h.ask (by simp [hmethod]) hhandle
  have hanswer : ((Query.lookup key).answer (s.world.cluster.advance (Query.lookup key).call.kind)
      {} s.world.now).2 = .ok (s.world.cluster.pods.get? key) :=
    Cluster.lookup_plain _ key
  rw [hanswer] at hstep
  -- Looking changes nothing.
  obtain ⟨hcalm, hledger⟩ := h.of_advance .get hnow htasks hcluster
  refine follows_of_step hstep (by simp [hmethod]) hnow hcalm hledger ?_
  cases hstored : s.world.cluster.pods.get? key with
  | none =>
    have hanswered : (s.ledger.serve (.inspect key)).2 = .missing key := by
      simp [Ledger.serve, hstored]
    rw [hanswered, hmissing]
    exact Answer.saidBy_noPod key
  | some pod =>
    have hanswered : (s.ledger.serve (.inspect key)).2 = .shown (.ofPod pod) := by
      simp [Ledger.serve, hstored]
    rw [hanswered, hfound]
    exact ⟨_, ⟨rfl, rfl⟩, PodRequest.ofJson_encode _⟩

/-- `Cluster.IsKeyed` is kept when a Pod is erased. -/
theorem isKeyed_erase {c c' : Cluster} {key : PodKey} (h : c.IsKeyed)
    (hpods : c'.pods = c.pods.erase key) : c'.IsKeyed := by
  intro other pod hget
  rw [hpods] at hget
  by_cases hother : other = key
  · rw [hother, SortedMap.get?_erase_self] at hget
    simp at hget
  · rw [SortedMap.get?_erase_of_ne _ hother] at hget
    exact h other pod hget

/-- `Command.remove`: the Pod goes, or there is none. -/
theorem Calm.remove {r : Http.Request} {key : PodKey} (h : s.Calm)
    (hasked : (Command.remove key).AskedBy r) :
    (s.step (.request r none)).1.Calm ∧
      s.Follows (s.ledger.serve (.remove key)) (s.step (.request r none)) := by
  obtain ⟨hmethod, hpath, hns, hname⟩ := hasked
  obtain ⟨decide, hhandle, hremoved, hmissing⟩ :=
    Service.handle_remove (s := s.service) h.connected hmethod hpath hns hname
  obtain ⟨w, hnow, htasks, hcluster, hstep⟩ := h.ask (by simp [hmethod]) hhandle
  -- The call has been counted when the cluster answers it.
  let c := s.world.cluster.advance .delete
  have hfaultless : c.IsFaultless := h.faultless.advance .delete
  -- The map and the cluster both ask whether the key is taken.
  cases hstored : s.world.cluster.pods.get? key with
  | none =>
    have hdelete : c.delete {} s.world.now key =
      (c, .error (.notFound ("pods \"" ++ key.name ++ "\" not found"))) :=
      Cluster.delete_missing hstored
    obtain ⟨hcalm, hledger⟩ := h.of_advance .delete hnow htasks
      (hcluster.trans (congrArg Prod.fst hdelete))
    -- Nothing is kept under the key, so the ledger stays as it is.
    have hnone : s.ledger.serve (.remove key) = (s.ledger, .missing key) := by
      simp [Ledger.serve, hstored]
    refine follows_of_step hstep (by simp [hmethod]) hnow hcalm (by rw [hnone]; exact hledger) ?_
    rw [hnone]
    show Answer.SaidBy (decide (c.delete {} s.world.now key).2) (.missing key)
    rw [hdelete, hmissing]
    exact Answer.saidBy_noPod key
  | some pod =>
    have hdelete : c.delete {} s.world.now key = _ := Cluster.delete_plain hstored
    -- The Pod goes at once, and a ledger without the key describes what is left.
    have hafter := hcluster.trans (congrArg Prod.fst hdelete)
    have hpods : w.cluster.pods = s.world.cluster.pods.erase key := by
      rw [hafter]
      rfl
    have hcalm := h.of_world w hnow (hafter ▸ hfaultless.congr rfl rfl) (htasks ▸ h.rest)
      (isKeyed_erase h.keyed hpods)
    have hsome : s.ledger.serve (.remove key) = (s.ledger.erase key, .removed) := by
      simp [Ledger.serve, hstored]
    refine follows_of_step hstep (by simp [hmethod]) hnow hcalm ?_ ?_
    · rw [hsome]
      show w.cluster.pods.mapValues _ = _
      rw [hpods, SortedMap.mapValues_erase]
      rfl
    · rw [hsome]
      show Answer.SaidBy (decide (c.delete {} s.world.now key).2) .removed
      rw [hdelete, hremoved]
      exact ⟨rfl, rfl⟩

/-- `PodRow.ofPod` shows every Pod of a namespace with the name of its key, so the rows have the
names that `Ledger.names` lists. -/
private theorem names_listed {c : Cluster} (h : c.IsKeyed) (ns : String) :
    (((c.pods.entries.filter fun e => e.1.ns = ns).map (·.2)).map PodRow.ofPod).map (·.name) =
      Ledger.names (c.pods.mapValues .ofPod) ns := by
  unfold Ledger.names
  rw [SortedMap.keys_mapValues]
  show _ = ((c.pods.entries.map (·.1)).filter _).map _
  rw [List.filter_map, List.map_map, List.map_map, List.map_map]
  apply List.map_congr_left
  -- A stored Pod carries the name of its key, so row and key agree one by one.
  intro e he
  have hmem : e ∈ c.pods.entries := (List.mem_filter.1 he).1
  have hname := (h e.1 e.2 (SortedMap.get?_of_mem hmem)).2
  show e.2.metadata.name.getD "" = e.1.name
  rw [hname]
  rfl

/-- `Command.enumerate`: the names of the namespace are listed. -/
theorem Calm.enumerate {r : Http.Request} {ns : String} (h : s.Calm)
    (hasked : (Command.enumerate ns).AskedBy r) :
    (s.step (.request r none)).1.Calm ∧
      s.Follows (s.ledger.serve (.enumerate ns)) (s.step (.request r none)) := by
  obtain ⟨hmethod, hpath, hns, hkeyword, hnode⟩ := hasked
  obtain ⟨decide, hhandle, hlisted⟩ :=
    Service.handle_enumerate (s := s.service) h.connected hmethod hpath hns hkeyword hnode
  obtain ⟨w, hnow, htasks, hcluster, hstep⟩ := h.ask (by simp [hmethod]) hhandle
  have hanswer : ((Query.list ns).answer (s.world.cluster.advance (Query.list ns).call.kind) {}
      s.world.now).2 =
      .ok ((s.world.cluster.pods.entries.filter fun e => e.1.ns = ns).map (·.2)) := rfl
  -- Without a keyword and a node every Pod of the namespace has its row.
  rw [hanswer, hlisted, PodRow.encode_eq_sent] at hstep
  -- Listing changes nothing.
  obtain ⟨hcalm, hledger⟩ := h.of_advance .list hnow htasks hcluster
  refine follows_of_step hstep (by simp [hmethod]) hnow hcalm hledger ?_
  exact ⟨_, ⟨rfl, rfl⟩, names_listed h.keyed ns⟩

/-! ## Whole sessions -/

/-- `Session.step` changes and answers what `Ledger.serve` does. -/
theorem Calm.step {r : Http.Request} {command : Command} (h : s.Calm)
    (hasked : command.AskedBy r) :
    (s.step (.request r none)).1.Calm ∧
      s.Follows (s.ledger.serve command) (s.step (.request r none)) := by
  cases command with
  | submit request => exact h.submit hasked
  | inspect key => exact h.inspect hasked
  | remove key => exact h.remove hasked
  | enumerate ns => exact h.enumerate hasked

/-- `Session.serveAll` changes and answers what `Ledger.serveAll` does, and no time passes in any of
its steps. -/
theorem serveAll_refines_ledger (s : Session) (h : s.Calm) (asked : List (Http.Request × Command))
    (hasked : ∀ x ∈ asked, x.2.AskedBy x.1) :
    List.Forall₂ s.Follows (s.ledger.serveAll (asked.map (·.2)))
      (s.serveAll (asked.map (·.1))) := by
  induction asked generalizing s with
  | nil => exact .nil
  | cons x asked ih =>
    obtain ⟨hcalm, hfollows⟩ := h.step (hasked x List.mem_cons_self)
    have hrest := ih _ hcalm fun y hy => hasked y (List.mem_cons_of_mem _ hy)
    -- The rest starts from the ledger and the clock that the first request left.
    refine .cons hfollows ?_
    rw [← hfollows.ledger]
    apply hrest.imp
    intro kept seen hseen
    exact { hseen with now := hseen.now.trans hfollows.now }

/-- A Pod that a client submits. -/
def submission : PodRequest :=
  { base := { name := "web", ns := "prod" }, containers := [{ name := "main", image := "nginx" }] }

/-- The key of that Pod. -/
def submissionKey : PodKey :=
  ⟨"prod", "web"⟩

/-- The HTTP request that submits it. -/
def submissionPost : Http.Request where
  method := "POST"
  target := "/api/v1/k8s/pod"
  headers := [("Content-Type", "application/json")]
  body := "\x7b\"base\": \x7b\"name\": \"web\", \"namespace\": \"prod\"\x7d, " ++
    "\"containers\": [\x7b\"name\": \"main\", \"image\": \"nginx\"\x7d]\x7d"

theorem submission_askedBy : (Command.submit submission).AskedBy submissionPost := by
  have hbody : Service.readBody submissionPost = .ok submission := by
    -- Requests can be compared, results of reading cannot.
    have hread : (Service.readBody submissionPost).toOption = some submission := by
      decide +kernel
    cases hresult : Service.readBody submissionPost with
    | error rejection => simp [hresult, Except.toOption] at hread
    | ok request => simpa [hresult, Except.toOption] using hread
  exact ⟨rfl, by decide +kernel, hbody, by decide +kernel⟩

/-- A client that submits the Pod twice, looks at it, lists its namespace, deletes it and looks
again. -/
def visit : List (Http.Request × Command) :=
  [(submissionPost, .submit submission), (submissionPost, .submit submission),
    ({ target := "/api/v1/k8s/pod/prod/web" }, .inspect submissionKey),
    ({ target := "/api/v1/k8s/pod/prod" }, .enumerate "prod"),
    ({ method := "DELETE", target := "/api/v1/k8s/pod/prod/web" }, .remove submissionKey),
    ({ target := "/api/v1/k8s/pod/prod/web" }, .inspect submissionKey)]

/-- A service that has just been connected to an empty cluster. -/
def freshSession : Session where
  settings := {}
  policy := ⟨[]⟩
  recording := false
  connected := true
  world := {}

/-- During `visit` the fresh service follows the empty map: the Pod is created, replaced, shown,
listed and removed, and then it is missing. -/
theorem visit_refines_ledger :
    (freshSession.ledger.serveAll (visit.map (·.2))).map (·.2) = [.created submissionKey,
      .replaced submissionKey, .shown (.ofPod submission.toPod), .listed ["web"], .removed,
      .missing submissionKey] ∧
    List.Forall₂ freshSession.Follows (freshSession.ledger.serveAll (visit.map (·.2)))
      (freshSession.serveAll (visit.map (·.1))) := by
  refine ⟨by decide +kernel, ?_⟩
  -- Nothing is stored and nobody is at work, so that the session is calm for want of trouble.
  have hcalm : freshSession.Calm := by
    refine ⟨rfl, by decide, by decide, ⟨?_, rfl⟩, ?_, ?_⟩
    · intro kind incident hmem
      exact absurd hmem List.not_mem_nil
    · intro t ht
      exact absurd ht List.not_mem_nil
    · intro key pod hget
      have hempty : freshSession.world.cluster.pods.get? key = none := SortedMap.get?_empty key
      simp [hempty] at hget
  have hsubmit := submission_askedBy
  have hns : IsLabel submissionKey.ns := by decide +kernel
  have hname : IsLabel submissionKey.name := by decide +kernel
  apply serveAll_refines_ledger freshSession hcalm visit
  -- The six requests ask for their commands, each by its method and its path.
  intro x hx
  simp only [visit, List.mem_cons, List.not_mem_nil, or_false] at hx
  rcases hx with rfl | rfl | rfl | rfl | rfl | rfl
  · exact hsubmit
  · exact hsubmit
  · exact ⟨rfl, by decide +kernel, hns, hname⟩
  · exact ⟨rfl, by decide +kernel, hns, by decide +kernel, by decide +kernel⟩
  · exact ⟨rfl, by decide +kernel, hns, hname⟩
  · exact ⟨rfl, by decide +kernel, hns, hname⟩

end Session

end PodDesk
