import PodDesk.Proofs.Service.Gate
import PodDesk.Proofs.Service.Report

/-!
# Which answers come in the envelope

Whatever the cluster does, an endpoint below `/api/v1/k8s` answers in the envelope once it has read
what it needs from a request. A request that cannot be read is rejected before that, with a notice
in the place of the envelope, and no body is sent at all when only the head is asked for.

## Main statements

- `Session.reaction_cases`: what is seen of a request is a response that its handling leads to,
  unless the caller gives up or the call crashes
- `Service.isEnvelope_of_reads`, `Service.serve_of_not_reads`: what the endpoints make of a request
- `Session.answered_in_envelope_iff`: the answers that come in the envelope
- `Session.numberedPost_not_in_envelope`: an answer that does not
-/

namespace PodDesk

/-! ## Responses that clients get -/

namespace Http.Response

/-- `response.IsEnvelope` says that the response is an envelope of either kind. -/
def IsEnvelope (response : Response) : Prop :=
  (∃ data, response.IsSuccess data) ∨
    ∃ code message details?, response.IsFailure code message details?

/-- `response.InEnvelope` says that the client gets an envelope, and not only the head of it. -/
structure InEnvelope (response : Response) : Prop where
  sent : response.headOnly = false
  envelope : response.IsEnvelope

/-- `response.IsRejection` says that the request was not understood. -/
structure IsRejection (response : Response) : Prop where
  status : response.status ∈ [400, 413, 415, 422]
  body : response.body = .notice

variable {response : Response}

/-- `Body.notice` is no envelope. -/
theorem IsRejection.not_isEnvelope (h : response.IsRejection) : ¬ response.IsEnvelope := by
  rintro (⟨data, hsuccess⟩ | ⟨code, message, details?, hfailure⟩)
  · exact nomatch h.body.symm.trans hsuccess.body
  · exact nomatch h.body.symm.trans hfailure.body

theorem isEnvelope_succeed (data : Json) : (Service.succeed data).IsEnvelope :=
  .inl ⟨data, rfl, rfl⟩

theorem isEnvelope_report (p : Problem) : (Service.report p).IsEnvelope :=
  .inr ⟨_, _, _, p.isFailure_report⟩

/-- `Service.send` does not change an envelope. -/
theorem isEnvelope_send_iff {policy : Http.OriginPolicy} {r : Http.Request} :
    (Service.send policy r response).IsEnvelope ↔ response.IsEnvelope :=
  ⟨fun h => h.imp (fun ⟨data, h⟩ => ⟨data, h.status, h.body⟩)
      fun ⟨code, message, details?, h⟩ => ⟨code, message, details?, h.status, h.body⟩,
    fun h => h.imp (fun ⟨data, h⟩ => ⟨data, h.status, h.body⟩)
      fun ⟨code, message, details?, h⟩ => ⟨code, message, details?, h.status, h.body⟩⟩

end Http.Response

/-- `h.Leads response` says that the handling `h` can lead to the response. -/
inductive Handling.Leads : Handling → Http.Response → Prop where
  | respond (response : Http.Response) : Leads (.respond response) response
  | ask {α : Type} (query : Query α) (decide : Except ClusterError α → Http.Response)
      (answer : Except ClusterError α) : Leads (.ask query decide) (decide answer)
  | replaced (request : PodRequest) (outcome : Outcome) :
      Leads (.replace request) (Service.afterReplacement outcome)
  | crashed (request : PodRequest) : Leads (.replace request) Service.afterCrash

/-! ## Requests that can be read -/

namespace Endpoint

/-- `endpoint.Reads r` says that the endpoint can read what it needs from the request `r`: the Pod
in the body, the names in the path, and the filters in the query. -/
def Reads (r : Http.Request) : Endpoint → Prop
  | pods =>
    (∃ header media, r.header? "content-type" = some header ∧
      Http.MediaType.parse? header = some media ∧ media.isJson = true) ∧
    r.body.utf8ByteSize ≤ 2097152 ∧
    ∃ request, PodRequest.codec.decode (Doc.read r.body).doc = .ok request
  | podList ns =>
    (∃ text, Http.decodeSegment? ns = some text) ∧
    ∀ name ∈ ["keyword", "nodeName"], (Http.Form.pairs r.query).countP (·.1 = name) ≤ 1
  | pod ns name =>
    (∃ text, Http.decodeSegment? ns = some text) ∧ ∃ text, Http.decodeSegment? name = some text
  | _ => True

/-- The path that the paths of the envelope begin with. -/
def apiPath : List Char :=
  "/api/v1/k8s/".toList

/-- The endpoints below `apiPath`. -/
def IsApi : Endpoint → Prop
  | pods => True
  | podList _ => True
  | pod _ _ => True
  | namespaces => True
  | _ => False

/-- `ofPath?` knows no other endpoints below `apiPath`. -/
theorem isApi_of_ofPath? {path : List Char} {endpoint : Endpoint} (hapi : apiPath <+: path)
    (h : ofPath? path = some endpoint) : endpoint.IsApi := by
  obtain ⟨rest, rfl⟩ := hapi
  have hpath : apiPath ++ rest = '/' :: ("api".toList ++ '/' :: ("v1".toList ++
      '/' :: ("k8s".toList ++ '/' :: rest))) := rfl
  rw [hpath] at h
  simp only [ofPath?] at h
  rw [Text.splitAtEach_append (by decide), Text.splitAtEach_append (by decide),
    Text.splitAtEach_append (by decide)] at h
  generalize Text.splitAtEach '/' rest = segments at h
  -- Three segments of the path are known, and the cases of `ofSegments?` decide about the rest.
  unfold ofSegments? at h
  repeat' split at h
  all_goals cases h
  all_goals first
    | exact trivial
    | simp_all

end Endpoint

namespace Service

variable {s : Service} {r : Http.Request}

/-- `Http.Form.single?` gives a value exactly when the field occurs at most once. -/
theorem single?_isSome_iff {pairs : List (String × String)} {name : String} :
    (∃ value, Http.Form.single? pairs name = some value) ↔ pairs.countP (·.1 = name) ≤ 1 := by
  rw [List.countP_eq_length_filter, Http.Form.single?]
  generalize pairs.filter (·.1 = name) = found
  rcases found with _ | ⟨⟨_, value⟩, _ | ⟨_, _⟩⟩ <;> simp

/-- `readBody` reads the request exactly when `Endpoint.Reads` says that it can be read, and rejects
the body otherwise. -/
theorem readBody_cases (r : Http.Request) :
    (Endpoint.pods.Reads r ∧ ∃ request, readBody r = .ok request) ∨
      (¬ Endpoint.pods.Reads r ∧ ∃ status ∈ [400, 413, 415, 422],
        readBody r = .error (.rejection status)) := by
  have hjson : ((r.header? "content-type").bind Http.MediaType.parse?).any (·.isJson) = true ↔
      ∃ header media, r.header? "content-type" = some header ∧
        Http.MediaType.parse? header = some media ∧ media.isJson = true := by
    simp only [Option.any_eq_true, Option.bind_eq_some_iff]
    exact ⟨fun ⟨media, ⟨header, hheader, hmedia⟩, h⟩ => ⟨header, media, hheader, hmedia, h⟩,
      fun ⟨header, media, hheader, hmedia, h⟩ => ⟨media, ⟨header, hheader, hmedia⟩, h⟩⟩
  unfold readBody
  -- The media type is looked at first, then the size.
  split
  · rename_i hmedia
    refine .inr ⟨fun h => ?_, 415, by decide, rfl⟩
    simp [hjson.2 h.1] at hmedia
  · rename_i hmedia
    rw [Bool.not_eq_true, Bool.not_eq_false'] at hmedia
    split
    · rename_i hsize
      exact .inr ⟨fun h => Nat.not_lt.2 h.2.1 hsize, 413, by decide, rfl⟩
    · rename_i hsize
      -- What is left is whether the text is that of a request.
      split
      · rename_i request hdecode
        exact .inl ⟨⟨hjson.1 hmedia, Nat.not_lt.1 hsize, request, hdecode⟩, request, rfl⟩
      · rename_i hdecode
        refine .inr ⟨fun h => ?_, 422, by decide, rfl⟩
        obtain ⟨request, hrequest⟩ := h.2.2
        simp [hdecode] at hrequest
      · rename_i fault _ hdecode
        refine .inr ⟨fun h => ?_, 400, by decide, rfl⟩
        obtain ⟨request, hrequest⟩ := h.2.2
        simp [hdecode] at hrequest

/-! ## What the endpoints make of a request -/

/-- `Service.asking` tells whatever the cluster answers in an envelope. -/
theorem leads_asking {α : Type} {query : Query α} {problem : ClusterError → Problem}
    {decide : α → Http.Response} (hdecide : ∀ a, (decide a).IsEnvelope) {response : Http.Response}
    (h : (s.asking query problem decide).Leads response) : response.IsEnvelope := by
  unfold asking at h
  split at h
  · cases h with
    | ask _ _ answer =>
      cases answer with
      | ok a => exact hdecide a
      | error e => exact Http.Response.isEnvelope_report _
  · cases h
    exact Http.Response.isEnvelope_report _

/-- `key?` knows a key when both of its names can be read. -/
theorem key?_cases (ns name : List Char) :
    ((∃ key, key? ns name = some key) ∧ (Endpoint.pod ns name).Reads r) ∨
      (key? ns name = none ∧ ¬ (Endpoint.pod ns name).Reads r) := by
  unfold key? Endpoint.Reads
  cases hns : Http.decodeSegment? ns <;> cases hname : Http.decodeSegment? name <;>
    simp [hns, hname]

/-- `Service.serve` answers in the envelope once a request is read. -/
theorem isEnvelope_of_reads {endpoint : Endpoint} (hapi : endpoint.IsApi)
    (hreads : endpoint.Reads r) {response : Http.Response}
    (h : (s.serve r endpoint).Leads response) : response.IsEnvelope := by
  cases endpoint with
  | pods =>
    obtain ⟨-, request, hbody⟩ | ⟨hunread, -⟩ := readBody_cases r
    · simp only [serve, putPod, hbody] at h
      split at h
      · cases h
        exact Http.Response.isEnvelope_report _
      -- The Pod is acceptable, so the outcome of its replacement is told, or that the replacement
      -- crashed.
      · split at h
        · cases h with
          | replaced _ outcome =>
            cases outcome with
            | ok done => exact Http.Response.isEnvelope_succeed _
            | error failure => exact Http.Response.isEnvelope_report _
          | crashed => exact Http.Response.isEnvelope_report _
        · cases h
          exact Http.Response.isEnvelope_report _
    · exact absurd hreads hunread
  | podList ns =>
    obtain ⟨⟨text, htext⟩, hfields⟩ := hreads
    obtain ⟨keyword, hkeyword⟩ := single?_isSome_iff.2 (hfields "keyword" (by simp))
    obtain ⟨nodeName, hnode⟩ := single?_isSome_iff.2 (hfields "nodeName" (by simp))
    simp only [serve, listPods, htext, hkeyword, hnode] at h
    exact leads_asking (fun _ => Http.Response.isEnvelope_succeed _) h
  | pod ns name =>
    obtain ⟨⟨key, hkey⟩, -⟩ | ⟨-, hunread⟩ := key?_cases (r := r) ns name
    · simp only [serve] at h
      split at h
      · simp only [deletePod, hkey] at h
        exact leads_asking (fun _ => Http.Response.isEnvelope_succeed _) h
      · simp only [showPod, hkey] at h
        refine leads_asking (fun found => ?_) h
        cases found with
        | none => exact Http.Response.isEnvelope_report _
        | some pod => exact Http.Response.isEnvelope_succeed _
    · exact absurd hreads hunread
  | namespaces => exact leads_asking (fun _ => Http.Response.isEnvelope_succeed _) h
  | _ => exact hapi.elim

/-- `Service.serve` rejects a request that cannot be read, and asks nobody. -/
theorem serve_of_not_reads {endpoint : Endpoint} (hunread : ¬ endpoint.Reads r) :
    ∃ response, s.serve r endpoint = .respond response ∧ response.IsRejection := by
  cases endpoint with
  | pods =>
    obtain ⟨hreads, -⟩ | ⟨-, status, hstatus, hbody⟩ := readBody_cases r
    · exact absurd hreads hunread
    · exact ⟨.rejection status, by simp only [serve, putPod, hbody], hstatus, rfl⟩
  | podList ns =>
    refine ⟨.rejection 400, ?_, by decide, rfl⟩
    simp only [serve, listPods]
    -- The list is asked for only if the namespace and both filters can be read.
    split
    · rename_i text keyword nodeName htext hkeyword hnode
      refine absurd ⟨⟨text, htext⟩, ?_⟩ hunread
      simp only [List.forall_mem_cons, List.not_mem_nil, false_implies, implies_true, and_true]
      exact ⟨single?_isSome_iff.1 ⟨keyword, hkeyword⟩, single?_isSome_iff.1 ⟨nodeName, hnode⟩⟩
    · rfl
  | pod ns name =>
    obtain ⟨-, hreads⟩ | ⟨hkey, -⟩ := key?_cases (r := r) ns name
    · exact absurd hreads hunread
    · refine ⟨.rejection 400, ?_, by decide, rfl⟩
      simp only [serve, deletePod, showPod, hkey, ite_self]
  | _ => exact absurd trivial hunread

end Service

/-- `World.ask` is answered unless its call crashes or the caller gives up. -/
theorem World.ask_cases {α : Type} (w : World) (query : Query α) (limit : Option Nat) :
    (∃ answer, (w.ask query limit).2 = .answered answer) ∨
      ((w.ask query limit).2 = .crashed ∧ (w.cluster.incident query.call.kind).crash = true) ∨
      ((w.ask query limit).2 = .dropped ∧ limit ≠ none) := by
  unfold ask
  dsimp only
  split
  · split
    · rename_i hcrash
      exact .inr (.inl ⟨rfl, hcrash⟩)
    · exact .inl ⟨_, rfl⟩
  · rename_i hdropped
    refine .inr (.inr ⟨rfl, ?_⟩)
    rintro rfl
    exact hdropped (.inr rfl)

namespace Session

variable {s : Session} {r : Http.Request}

/-! ## What is seen of a request -/

/-- `runReplacement` lets the caller hear of the outcome or of the crash, unless the caller gives
up. -/
theorem runReplacement_cases (hsound : s.world.IsSound) (request : PodRequest)
    (limit : Option Nat) :
    (∃ response, (s.runReplacement request limit).2 = .response response ∧
      (Handling.replace request).Leads response) ∨
    ((s.runReplacement request limit).2 = .abandoned ∧ limit ≠ none) := by
  have hspawned := World.isSound_spawn s.world (s.plan request) s.wait hsound
  have hlt := World.lt_length_spawn s.world (s.plan request) s.wait
  unfold runReplacement
  rw [spawn_plan]
  dsimp only
  split
  · exact .inl ⟨_, rfl, .replaced request _⟩
  · exact .inl ⟨_, rfl, .crashed request⟩
  · rename_i hopen
    refine .inr ⟨rfl, ?_⟩
    rintro rfl
    -- Without a limit the replacement is over.
    have hover := World.isOver_runTask hspawned (s.world.spawn (s.plan request) s.wait).2
    rw [World.isOver_runTask_eq hlt, hopen] at hover
    simp at hover

/-- `Session.serve` gives a response that the handling leads to, unless the caller gives up or the
call to the cluster crashes. -/
theorem serve_cases (hsound : s.world.IsSound) (r : Http.Request) (limit : Option Nat) :
    (∃ response, (s.serve r limit).2 = .response response ∧
      (s.service.handle r).Leads response) ∨
    ((s.serve r limit).2 = .abandoned ∧ limit ≠ none) ∨
    ((s.serve r limit).2 = .crashed ∧ ∃ call, (s.service.handle r).call? = some call ∧
      (s.world.cluster.incident call.kind).crash = true) := by
  unfold serve
  cases s.service.handle r with
  | respond response => exact .inl ⟨response, rfl, .respond response⟩
  | ask query decide =>
    dsimp only
    obtain ⟨answer, hasked⟩ | ⟨hasked, hcrash⟩ | ⟨hasked, hlimit⟩ := s.world.ask_cases query limit
    all_goals
      generalize s.world.ask query limit = asked at hasked ⊢
      obtain ⟨w, result⟩ := asked
      subst hasked
    · exact .inl ⟨_, rfl, .ask query decide answer⟩
    · exact .inr (.inr ⟨rfl, query.call, rfl, hcrash⟩)
    · exact .inr (.inl ⟨rfl, hlimit⟩)
  | replace request =>
    exact (runReplacement_cases hsound request limit).imp_right .inl

/-- `Session.step` shows what `Session.serve` gives in the settled session. -/
theorem reaction_cases (hsound : s.world.IsSound) (hmethod : r.method ≠ "OPTIONS")
    (patience : Option Nat) :
    (∃ response, (s.step (.request r patience)).2 =
        .response (Service.send s.policy r response) ∧
      (s.settled.service.handle r).Leads response) ∨
    ((s.step (.request r patience)).2 = .abandoned ∧ patience ≠ none) ∨
    ((s.step (.request r patience)).2 = .crashed ∧
      ∃ call, (s.settled.service.handle r).call? = some call ∧
        (s.settled.world.cluster.incident call.kind).crash = true) := by
  -- No method but OPTIONS is a preflight, so the request is served.
  have hpreflight : s.settled.policy.preflight? r = none := if_neg hmethod
  have hsettled : s.settled.world.IsSound := hsound.settle
  have hstep : (s.step (.request r patience)).2 =
      (s.settled.respond r (patience.map (s.settled.world.now + ·))).2 := rfl
  rw [hstep]
  unfold respond
  rw [hpreflight]
  dsimp only
  obtain ⟨response, hserve, hleads⟩ | ⟨hserve, hlimit⟩ | ⟨hserve, hcrash⟩ :=
    serve_cases hsettled r (patience.map (s.settled.world.now + ·))
  all_goals
    generalize s.settled.serve r (patience.map (s.settled.world.now + ·)) = served at hserve ⊢
    obtain ⟨w, reaction⟩ := served
    subst hserve
  · exact .inl ⟨response, rfl, hleads⟩
  · refine .inr (.inl ⟨rfl, ?_⟩)
    rintro rfl
    exact hlimit rfl
  · exact .inr (.inr ⟨rfl, hcrash⟩)

/-- `Session.step` answers a request with a method that its endpoint below `/api/v1/k8s` allows,
unless the caller gives up or the call that is made for it crashes. The answer comes in the envelope
exactly when the endpoint can read the request and the client wants more than the head; a request
that cannot be read is rejected with a notice. -/
theorem answered_in_envelope_iff (hreached : s.Reached) {endpoint : Endpoint}
    (hapi : Endpoint.apiPath <+: r.path) (hpath : Endpoint.ofPath? r.path = some endpoint)
    (hmethod : r.method ∈ endpoint.methods) (patience : Option Nat) :
    let reaction := (s.step (.request r patience)).2
    (∃ response, reaction = .response response ∧
      (response.InEnvelope ↔ endpoint.Reads r ∧ r.method ≠ "HEAD") ∧
      (endpoint.Reads r → response.IsEnvelope) ∧ (¬ endpoint.Reads r → response.IsRejection)) ∨
    (reaction = .abandoned ∧ patience ≠ none) ∨
    (reaction = .crashed ∧ ∃ call, (s.settled.service.handle r).call? = some call ∧
      (s.settled.world.cluster.incident call.kind).crash = true) := by
  intro reaction
  have hhandle : s.settled.service.handle r = s.settled.service.serve r endpoint := by
    simp only [Service.handle, hpath, if_pos hmethod]
  -- No endpoint allows OPTIONS.
  have hoptions : r.method ≠ "OPTIONS" := by
    intro heq
    rw [heq] at hmethod
    cases endpoint <;> simp [Endpoint.methods] at hmethod
  refine (reaction_cases hreached.isSound hoptions patience).imp_left ?_
  rintro ⟨response, hreaction, hleads⟩
  rw [hhandle] at hleads
  have hread : endpoint.Reads r → (Service.send s.policy r response).IsEnvelope := fun hreads =>
    Http.Response.isEnvelope_send_iff.2
      (Service.isEnvelope_of_reads (Endpoint.isApi_of_ofPath? hapi hpath) hreads hleads)
  have hunread : ¬ endpoint.Reads r → (Service.send s.policy r response).IsRejection := by
    intro hunread
    obtain ⟨rejection, hserve, hrejection⟩ :=
      Service.serve_of_not_reads (s := s.settled.service) hunread
    rw [hserve] at hleads
    cases hleads
    exact ⟨hrejection.status, hrejection.body⟩
  have hsent : (Service.send s.policy r response).headOnly = false ↔ r.method ≠ "HEAD" :=
    decide_eq_false_iff_not
  -- A rejection is no envelope, so the two cases exclude each other.
  refine ⟨_, hreaction, ⟨fun henvelope => ⟨?_, hsent.1 henvelope.sent⟩, ?_⟩, hread, hunread⟩
  · by_contra hnot
    exact (hunread hnot).not_isEnvelope henvelope.envelope
  · rintro ⟨hreads, hbody⟩
    exact ⟨hsent.2 hbody, hread hreads⟩

/-- A submission of a good Pod to a slow cluster is answered in the envelope. -/
theorem slow_submission_in_envelope :
    ∃ response, ((slowSession 5).step (.request submissionPost none)).2 = .response response ∧
      response.InEnvelope := by
  obtain ⟨hpost, hpath, hbody, hvalid⟩ := submission_askedBy
  have hendpoint : Endpoint.ofPath? submissionPost.path = some .pods := by
    rw [hpath]
    exact Endpoint.ofPath?_pods
  have hreads : Endpoint.pods.Reads submissionPost := by
    obtain ⟨hreads, -⟩ | ⟨-, status, -, hrejected⟩ := Service.readBody_cases submissionPost
    · exact hreads
    · simp [hbody] at hrejected
  rcases answered_in_envelope_iff (reached_slowSession 5) (r := submissionPost)
    (by decide +kernel) hendpoint (by decide) none with
    ⟨response, hreaction, henvelope, -⟩ | ⟨-, hpatience⟩ | ⟨-, call, hcall, -⟩
  · exact ⟨response, hreaction, henvelope.2 ⟨hreads, by decide⟩⟩
  · exact absurd rfl hpatience
  -- A submission makes no call of its own.
  · have hhandle : (slowSession 5).settled.service.handle submissionPost = .replace submission :=
      Service.handle_submit rfl hpost hpath hbody hvalid
    simp [hhandle, Handling.call?] at hcall

/-- A submission that names the Pod by a number. -/
def numberedPost : Http.Request :=
  { submissionPost with body := "\x7b\"base\": \x7b\"name\": 5\x7d\x7d" }

/-- A service with default settings and an empty cluster offers that request, and its answer does
not come in the envelope. -/
theorem numberedPost_not_in_envelope :
    ∃ start, start? {} false true {} = some start ∧ start.connected = true ∧
      Endpoint.apiPath <+: numberedPost.path ∧
      Endpoint.ofPath? numberedPost.path = some .pods ∧
      numberedPost.method ∈ Endpoint.pods.methods ∧
      ∃ response, (start.step (.request numberedPost none)).2 = .response response ∧
        response.status = 422 ∧ response.body = .notice ∧ ¬ response.InEnvelope := by
  let policy : Http.OriginPolicy := ⟨["http://localhost:3000", "http://127.0.0.1:3000"]⟩
  have hpolicy : Http.OriginPolicy.ofList? ({} : Settings).origins = some policy := by
    decide +kernel
  have hendpoint : Endpoint.ofPath? numberedPost.path = some .pods := by decide +kernel
  have hmedia : ((numberedPost.header? "content-type").bind Http.MediaType.parse?).any (·.isJson) =
      true := by decide +kernel
  have hsize : ¬ Service.maxBodySize < numberedPost.body.utf8ByteSize := by decide +kernel
  have hdecode : PodRequest.codec.decode (Doc.read numberedPost.body).doc = .error .mismatch := by
    decide +kernel
  have hbody : Service.readBody numberedPost = .error (.rejection 422) := by
    simp only [Service.readBody, hmedia, hsize, hdecode, Bool.not_true, Bool.false_eq_true,
      if_false]
  have hhandle : ∀ s : Service, s.handle numberedPost = .respond (.rejection 422) := by
    intro s
    simp only [Service.handle, hendpoint, Service.serve, Service.putPod, hbody]
    rfl
  refine ⟨⟨{}, policy, false, true, {}⟩, ?_, rfl, by decide +kernel, hendpoint, by decide,
    Service.send policy numberedPost (.rejection 422), ?_, rfl, rfl, ?_⟩
  · rw [start?, hpolicy]
    rfl
  · simp only [step, respond, serve, hhandle]
    rfl
  · intro henvelope
    exact (⟨by decide, rfl⟩ : Http.Response.IsRejection _).not_isEnvelope henvelope.envelope

end Session

end PodDesk
