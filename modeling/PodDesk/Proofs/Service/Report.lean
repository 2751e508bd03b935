import PodDesk.Service.Api

/-!
# What is told about a problem

A problem is reported in the envelope of a failure, and the status of the report is found in two
steps: the problem has a code, and the word for the code has a status. Taken together they are one
table of problems. An error of the cluster counts there by its code when it stands alone; inside a
failed replacement it does not count, whatever it says.

## Main statements

- `ProblemCode.statusOf_word`: the status of the word for a code
- `Problem.code_eq_validation_iff`, `Problem.code_eq_notFound_iff`, `Problem.code_eq_conflict_iff`,
  `Problem.code_eq_unavailable_iff`: the problems that have a code
- `Problem.reported_as_failure`: the report of every problem
-/

namespace PodDesk

/-! ## Envelopes -/

namespace Http.Response

/-- `response.IsSuccess data` says that the response is the envelope of a success: it has data, and
no error. -/
structure IsSuccess (response : Response) (data : Json) : Prop where
  status : response.status = 200
  body : response.body = .json (.obj [("success", .bool true), ("data", data)])

/-- `response.IsFailure` says that the response is the envelope of a failure: it has an error, and
no data. -/
structure IsFailure (response : Response) (code message : String) (details? : Option Json) :
    Prop where
  status : response.status ≠ 200
  body : response.body = .json (.obj [("success", .bool false),
    ("error", .obj ([("code", .str code), ("message", .str message)] ++
      details?.toList.map ("details", ·)))])

end Http.Response

/-! ## Codes and their words -/

namespace ProblemCode

/-- The status of a report with a code, as `Envelope.statusOf` finds it through the word. -/
def status : ProblemCode → Nat
  | notFound => 404
  | validation => 400
  | conflict => 409
  | unavailable => 503
  | _ => 500

/-- `Envelope.statusOf` of the word for a code is the status of the code. -/
theorem statusOf_word (c : ProblemCode) : Envelope.statusOf c.word = c.status := by
  cases c <;> rfl

variable {c : ProblemCode}

theorem status_eq_validation_iff : c.status = 400 ↔ c = .validation := by
  cases c <;> decide

theorem status_eq_notFound_iff : c.status = 404 ↔ c = .notFound := by
  cases c <;> decide

theorem status_eq_conflict_iff : c.status = 409 ↔ c = .conflict := by
  cases c <;> decide

theorem status_eq_unavailable_iff : c.status = 503 ↔ c = .unavailable := by
  cases c <;> decide

/-- `ProblemCode.status` takes five values, and that of a success is not among them. -/
theorem status_mem (c : ProblemCode) : c.status ∈ [400, 404, 409, 500, 503] := by
  cases c <;> decide

end ProblemCode

namespace ClusterError

variable {e : ClusterError}

theorem isNotFound_iff : e.isNotFound = true ↔ ∃ reason message, e = .api 404 reason message := by
  cases e with
  | api code reason message => simp [isNotFound, code?]
  | transport cause => simp [isNotFound, code?]

theorem isConflict_iff : e.isConflict = true ↔ ∃ reason message, e = .api 409 reason message := by
  cases e with
  | api code reason message => simp [isConflict, code?]
  | transport cause => simp [isConflict, code?]

/-- An error for which `isConflict` holds is not one for which `isNotFound` does. -/
theorem isNotFound_eq_false (h : e.isConflict = true) : e.isNotFound = false := by
  obtain ⟨reason, message, rfl⟩ := isConflict_iff.1 h
  rfl

end ClusterError

/-! ## Problems and their codes -/

namespace Problem

variable {p : Problem}

/-- `Problem.code` is `validation` when a check or the dry run finds a field of the request at
fault. -/
theorem code_eq_validation_iff : p.code = .validation ↔
    (∃ field message, p = .validation field message) ∨
      ∃ key cause, p = .replacement ⟨key, .dryRun, cause⟩ := by
  cases p with
  | cluster cause =>
    simp only [code, reduceCtorEq, exists_const, or_self, iff_false]
    split
    · simp
    · split <;> simp
  | replacement failure =>
    obtain ⟨key, step, cause⟩ := failure
    cases step <;> simp [code]
  | _ => simp [code]

/-- `Problem.code` is `notFound` when the service finds nothing, or when the cluster does in a call
of its own. -/
theorem code_eq_notFound_iff : p.code = .notFound ↔
    (∃ message, p = .notFound message) ∨
      ∃ reason message, p = .cluster (.api 404 reason message) := by
  cases p with
  | cluster cause =>
    simp only [code, reduceCtorEq, exists_const, false_or, Problem.cluster.injEq]
    rw [← ClusterError.isNotFound_iff]
    split
    · simp_all
    · split <;> simp_all
  | replacement failure =>
    simp only [code]
    split <;> simp
  | _ => simp [code]

/-- `Problem.code` is `conflict` only when the cluster says so in a call of its own. -/
theorem code_eq_conflict_iff : p.code = .conflict ↔
    ∃ reason message, p = .cluster (.api 409 reason message) := by
  cases p with
  | cluster cause =>
    simp only [code, Problem.cluster.injEq]
    rw [← ClusterError.isConflict_iff]
    cases hconflict : cause.isConflict with
    | true => simp [ClusterError.isNotFound_eq_false hconflict]
    | false => split <;> simp
  | replacement failure =>
    simp only [code]
    split <;> simp
  | _ => simp [code]

theorem code_eq_unavailable_iff : p.code = .unavailable ↔ ∃ message, p = .unavailable message := by
  cases p with
  | cluster cause =>
    simp only [code]
    split
    · simp
    · split <;> simp
  | replacement failure =>
    simp only [code]
    split <;> simp
  | _ => simp [code]

/-! ## Reports -/

theorem status_report (p : Problem) : (Service.report p).status = p.code.status :=
  ProblemCode.statusOf_word p.code

/-- `Service.report` gives every problem as a failure with its own code, text and details. -/
theorem isFailure_report (p : Problem) :
    (Service.report p).IsFailure p.code.word p.display p.details? where
  status := by
    rw [status_report]
    intro hstatus
    have hmem := p.code.status_mem
    rw [hstatus] at hmem
    exact absurd hmem (by decide)
  body := by
    cases hdetails : p.details? <;>
      simp [Service.report, Envelope.ofProblem, Envelope.response, Envelope.toJson,
        Http.Response.json, Json.ofMembers?, hdetails]

/-- `FailedStep.dryRun` alone makes a failed replacement a problem of the request. -/
theorem code_replacement (failure : Failure) : (replacement failure).code.word =
    if failure.step = .dryRun then "VALIDATION_ERROR" else "RECONCILE_ERROR" := by
  simp only [code]
  split <;> rfl

/-- `Service.report` gives every problem as a failure, with its own code and message and with one of
five statuses: 400 for what is wrong with a request, 404 and 409 for what the service does not find
and for what the cluster says about a call that stands alone, 503 without a cluster, and 500
otherwise. What the cluster says about a failed replacement does not show in the status. The report
of such a failure tells the Pod and the step, and that of a request that is not acceptable tells the
field. -/
theorem reported_as_failure :
    (∀ p : Problem, (Service.report p).IsFailure p.code.word p.display p.details? ∧
      ((Service.report p).status = 400 ↔ (∃ field message, p = .validation field message) ∨
        ∃ key cause, p = .replacement ⟨key, .dryRun, cause⟩) ∧
      ((Service.report p).status = 404 ↔ (∃ message, p = .notFound message) ∨
        ∃ reason message, p = .cluster (.api 404 reason message)) ∧
      ((Service.report p).status = 409 ↔
        ∃ reason message, p = .cluster (.api 409 reason message)) ∧
      ((Service.report p).status = 503 ↔ ∃ message, p = .unavailable message) ∧
      (Service.report p).status ∈ [400, 404, 409, 500, 503]) ∧
    (∀ failure : Failure, (Service.report (.replacement failure)).IsFailure
        (if failure.step = .dryRun then "VALIDATION_ERROR" else "RECONCILE_ERROR") failure.display
        (some (.obj [("namespace", .str failure.key.ns), ("name", .str failure.key.name),
          ("operation", .str failure.step.word), ("podAbsent", .bool failure.podAbsent)])) ∧
      (Service.report (.replacement failure)).status =
        if failure.step = .dryRun then 400 else 500) ∧
    ∀ field message, (Service.report (.validation field message)).IsFailure "VALIDATION_ERROR"
      (field ++ ": " ++ message) (some (.obj [("field", .str field)])) := by
  refine ⟨fun p => ⟨isFailure_report p, ?_, ?_, ?_, ?_, ?_⟩, fun failure => ⟨?_, ?_⟩, ?_⟩
  · rw [status_report, ProblemCode.status_eq_validation_iff, code_eq_validation_iff]
  · rw [status_report, ProblemCode.status_eq_notFound_iff, code_eq_notFound_iff]
  · rw [status_report, ProblemCode.status_eq_conflict_iff, code_eq_conflict_iff]
  · rw [status_report, ProblemCode.status_eq_unavailable_iff, code_eq_unavailable_iff]
  · rw [status_report]
    exact p.code.status_mem
  · rw [← code_replacement]
    exact isFailure_report (.replacement failure)
  · rw [status_report]
    simp only [code]
    split <;> rfl
  · exact fun field message => isFailure_report (.validation field message)

/-- `ClusterError.notFound` in answer to a deletion is a problem of its own kind by itself, and one
like any other in a replacement. -/
example (key : PodKey) (message : String) :
    (Service.report (.cluster (.notFound message))).status = 404 ∧
      (Service.report (.replacement ⟨key, .delete, .notFound message⟩)).status = 500 :=
  ⟨rfl, rfl⟩

end Problem

end PodDesk
