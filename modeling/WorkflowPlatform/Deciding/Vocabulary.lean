import WorkflowPlatform.Deciding.Target
import WorkflowPlatform.Routing.Verdict

/-! # The words of a decision

One endpoint takes an outcome, the other an action that it turns into upper case.
The actions of the client, approve and reject, become APPROVE and REJECT, which
are no outcomes: such a decision is always refused.
-/

namespace WorkflowPlatform

open Python WorkflowEngine

/-! ## States up to identifiers and timestamps -/

/-- The state with the rows' own identifiers and all timestamps wiped out. -/
def Database.wiped (db : Database) : Database :=
  let stamp : DateTime := ⟨0, Nat.zero_le _⟩
  { workflows := db.workflows.map fun row => { row with id := 0 }
    workflowSteps := db.workflowSteps.map fun row => { row with id := 0 }
    stepTransitions := db.stepTransitions.map fun row => { row with id := 0 }
    workflowRequests := db.workflowRequests.map fun row => { row with
      id := 0, createdAt := stamp, completedAt := row.completedAt.map fun _ => stamp }
    requestSteps := db.requestSteps.map fun row => { row with
      id := 0
      startedAt := row.startedAt.map fun _ => stamp
      completedAt := row.completedAt.map fun _ => stamp
      deadline := row.deadline.map fun _ => stamp }
    requestStateHistory := db.requestStateHistory.map fun row => { row with
      id := 0, changedAt := stamp }
    auditLogs := db.auditLogs.map fun row => { row with id := 0, timestamp := stamp }
    slaEscalations := db.slaEscalations.map fun row => { row with id := 0, escalatedAt := stamp }
    nextId := 0 }

theorem wiped_auditLogs_length (db : Database) :
    db.wiped.auditLogs.length = db.auditLogs.length := List.length_map _

variable {env : Env} {db db' : Database} {request : WorkflowRequest} {user : User}
  {outcome : String} {context : Option Dict}

/-! ## Refused and accepted decisions -/

/-- What can still stop a decision of an admitted user: the context cannot be stored, the
database does not answer a round trip, or the deadline of the next step lies beyond the last
day. -/
def Blocked (env : Env) (db : Database) (request : WorkflowRequest) (outcome : String)
    (context : Option Dict) : Prop :=
  env.stores context = false ∨ env.dbFails 1 = true ∨ env.dbFails 2 = true ∨
    match nextStepOf env db request outcome context with
    | none => env.dbFails 0 = true
    | some nextStep => (env.utcnow 1).addHours nextStep.slaHours = none

/-- An outcome that names no status is refused. -/
theorem decided_eq_none_of_unknown {requestId : Uuid}
    (houtcome : StepStatus.ofValue? outcome = none) :
    decided env db requestId user outcome context = none := by
  cases hdecided : decided env db requestId user outcome context with
  | none => rfl
  | some db' =>
      obtain ⟨request, exec, status, haccepted, -⟩ := decided_iff.mp hdecided
      have hnamed := haccepted.stored.1
      rw [houtcome] at hnamed
      cases hnamed

/-- An outcome that names a status is accepted from an admitted user unless the
decision is blocked. -/
theorem decided_eq_none_iff (context : Option Dict) (hdb : WellFormed db)
    (hrequest : request ∈ db.workflowRequests) (hadmits : Admits env db request user)
    (houtcome : (StepStatus.ofValue? outcome).isSome) :
    decided env db request.id user outcome context = none ↔
      Blocked env db request outcome context := by
  have hread : db.request? request.id = some request :=
    hdb.request?_eq_some_iff.mpr ⟨hrequest, rfl⟩
  constructor
  · intro hnone
    obtain ⟨exec, hexec, hpermitted⟩ := hadmits
    obtain ⟨-, -, decided, hactive⟩ := hdb.active_of_openExecution hread hexec
    by_contra hfree
    simp only [Blocked, not_or, Bool.not_eq_true, Bool.not_eq_false] at hfree
    obtain ⟨hstores, haudited, hcommitted, hfree⟩ := hfree
    obtain ⟨status, hstatus⟩ := exists_storedStatus exec user houtcome hstores
    have haccepted : Accepted env db request.id user outcome context request exec status :=
      ⟨hread, hexec, hpermitted, hstatus, haudited, hcommitted⟩
    have hrouted : ∃ db', Routed env db user outcome context request exec status db' := by
      cases hnext : nextStepOf env db request outcome context with
      | none =>
          rw [hnext] at hfree
          have hvalid : isValidTransition request.status (verdictOf outcome) = true := by
            rw [hactive.status_eq]
            exact verdictOf_follows outcome
          exact ⟨_, .finished hnext (Bool.not_eq_true _ ▸ hfree) hvalid⟩
      | some nextStep =>
          rw [hnext] at hfree
          obtain ⟨deadline, hdeadline⟩ := Option.ne_none_iff_exists'.mp hfree
          exact ⟨_, .moved nextStep deadline hnext hdeadline⟩
    obtain ⟨db', hrouted⟩ := hrouted
    rw [decided_iff.mpr ⟨request, exec, status, haccepted, hrouted⟩] at hnone
    cases hnone
  · intro hblocked
    cases hdecided : decided env db request.id user outcome context with
    | none => rfl
    | some db' =>
        obtain ⟨exec, status, haccepted, hrouted⟩ := accepted_of_decided hdb hrequest hdecided
        simp only [Blocked, haccepted.stored.2, haccepted.audited, haccepted.committed,
          Bool.true_eq_false, Bool.false_eq_true, false_or] at hblocked
        cases hrouted with
        | moved nextStep deadline hnext hdeadline => simp [hnext, hdeadline] at hblocked
        | finished hnext haudited hvalid => simp [hnext, haudited] at hblocked

/-- A committed decision leaves more audit entries behind. -/
theorem auditLogs_length_routed {exec : RequestStep} {status : Option StepStatus}
    (hrouted : Routed env db user outcome context request exec status db') :
    db.auditLogs.length < db'.auditLogs.length := by
  cases hrouted with
  | moved nextStep deadline hnext hdeadline => simp [movedOn]
  | finished hnext haudited hvalid => simp [completed]

/-! ## The two endpoints -/

/-- A decision by action and the decision by outcome with the same context lead to
the same state. -/
def EndpointsAgree (env : Env) (db : Database) (request : WorkflowRequest) (user : User)
    (payload : Dict) (outcome : String) : Prop :=
  ((Call.makeDecision env request.id user payload).perform db).wiped =
    ((Call.processStep env request.id user outcome
      (some (Endpoint.decisionContext payload))).perform db).wiped

/-- The actions of the client in upper case, and the outcomes they stand for. -/
def verbs : List (String × String) := [("APPROVE", "APPROVED"), ("REJECT", "REJECTED")]

theorem verb_unknown {verb outcome : String} (hverb : (verb, outcome) ∈ verbs) :
    StepStatus.ofValue? verb = none ∧ (StepStatus.ofValue? outcome).isSome := by
  simp only [verbs, List.mem_cons, Prod.mk.injEq, List.not_mem_nil, or_false] at hverb
  rcases hverb with ⟨rfl, rfl⟩ | ⟨rfl, rfl⟩ <;> decide

/-- A decision by one of the client's actions changes nothing. -/
theorem perform_verb {requestId : Uuid} {payload : Dict} {action verb outcome : String}
    (hverb : (verb, outcome) ∈ verbs)
    (haction : Endpoint.payloadGet payload "action" = .str action) (hupper : upper action = verb) :
    (Call.makeDecision env requestId user payload).perform db = db := by
  rcases makeDecision_cases requestId payload with ⟨text, htext, heq⟩ | ⟨-, heq⟩
  · have hoption : text = verb := by
      rw [haction, Endpoint.outcomeOf] at htext
      split at htext
      · cases htext
      · cases htext
        exact hupper
    rw [(heq env db user).1, perform_processStep, hoption,
      decided_eq_none_of_unknown (verb_unknown hverb).1, Option.getD_none]
  · exact (heq env db user).1

theorem endpointsAgree_iff_of_wellFormed (hdb : WellFormed db)
    (hrequest : request ∈ db.workflowRequests) (hadmits : Admits env db request user)
    {payload : Dict} {action verb : String} (hverb : (verb, outcome) ∈ verbs)
    (haction : Endpoint.payloadGet payload "action" = .str action) (hupper : upper action = verb) :
    EndpointsAgree env db request user payload outcome ↔
      Blocked env db request outcome (some (Endpoint.decisionContext payload)) := by
  have hiff := decided_eq_none_iff (some (Endpoint.decisionContext payload)) hdb hrequest
    hadmits (verb_unknown hverb).2
  rw [EndpointsAgree, perform_verb hverb haction hupper, perform_processStep, ← hiff]
  cases hdecided : decided env db request.id user outcome
      (some (Endpoint.decisionContext payload)) with
  | none => simp
  | some db' =>
      obtain ⟨_, exec, status, -, hrouted⟩ := decided_iff.mp hdecided
      have hlonger := auditLogs_length_routed hrouted
      simp only [Option.getD_some, reduceCtorEq, iff_false]
      intro hsame
      rw [← wiped_auditLogs_length db, ← wiped_auditLogs_length db', hsame] at hlonger
      exact lt_irrefl _ hlonger

/-- The endpoints agree on the actions approve and reject exactly where the decision by
outcome is blocked too. -/
theorem decision_endpoints_agree_iff (env : Env) {db : Database} (hreachable : Reachable db)
    {request : WorkflowRequest} (hrequest : request ∈ db.workflowRequests) {user : User}
    (hadmits : Admits env db request user) {payload : Dict} {action verb outcome : String}
    (hverb : (verb, outcome) ∈ verbs)
    (haction : Endpoint.payloadGet payload "action" = .str action) (hupper : upper action = verb) :
    EndpointsAgree env db request user payload outcome ↔
      Blocked env db request outcome (some (Endpoint.decisionContext payload)) :=
  endpointsAgree_iff_of_wellFormed hreachable.wellFormed hrequest hadmits hverb haction hupper

/-! ### An approval from the task list -/

/-- The request under review. -/
def reviewedRequest : WorkflowRequest :=
  startedRequest (.calm Sample.noon) 0 0 []
    (WorkflowService.stepRow 0 Sample.firstReview 1) 5

/-- What the client posts. -/
def approvePayload : Dict := [("action", .str "approve"), ("comment", .str "fine")]

theorem decision_endpoints_agree_iff_approve :
    EndpointsAgree (.calm Sample.noon) underReview reviewedRequest Sample.admin approvePayload
        "APPROVED" ↔
      Blocked (.calm Sample.noon) underReview reviewedRequest "APPROVED"
        (some (Endpoint.decisionContext approvePayload)) :=
  decision_endpoints_agree_iff (.calm Sample.noon) ⟨Sample.opening Sample.approvals [], rfl⟩
    (List.mem_singleton_self reviewedRequest) (by decide +kernel)
    (show ("APPROVE", "APPROVED") ∈ verbs by decide)
    (show Endpoint.payloadGet approvePayload "action" = .str "approve" from rfl) (by decide)

/-- An approval by action is refused where the one by outcome moves the request on. -/
theorem decision_endpoints_disagree :
    ¬∀ env db, Reachable db → ∀ request ∈ db.workflowRequests, ∀ user,
      Admits env db request user → ∀ payload verb outcome action, (verb, outcome) ∈ verbs →
        Endpoint.payloadGet payload "action" = .str action → upper action = verb →
          EndpointsAgree env db request user payload outcome := by
  intro hagree
  have hsame := hagree (.calm Sample.noon) underReview ⟨Sample.opening Sample.approvals [], rfl⟩
    reviewedRequest (List.mem_singleton_self _) Sample.admin (by decide +kernel) approvePayload
    "APPROVE" "APPROVED" "approve" (by decide) rfl (by decide)
  have hlength := congrArg (fun db : Database => db.auditLogs.length) hsame
  revert hlength
  decide +kernel

end WorkflowPlatform
