import WorkflowPlatform.Lifecycle.Reachable

/-! # When a request is approved

A decision that finds no next step gives the request its verdict. It does so at
the end of a path, but as well when a step has transitions for the outcome and
none of their guards holds.
-/

namespace WorkflowPlatform

open Python WorkflowEngine

/-! ## Verdicts -/

/-- What a call adds to the history of requests. -/
def addedHistory (db db' : Database) : List RequestStateHistory :=
  db'.requestStateHistory.drop db.requestStateHistory.length

/-- A call gives a request a verdict. -/
def GetsVerdict (db db' : Database) (request : WorkflowRequest) (verdict : RequestStatus) : Prop :=
  ∃ row ∈ addedHistory db db', row.requestId = request.id ∧ row.toStatus = verdict

/-- The engine lets the user decide: there is an open execution, and the access
check raises nothing. -/
def Admits (env : Env) (db : Database) (request : WorkflowRequest) (user : User) : Prop :=
  ∃ exec, openExecution env.executionOrder db request.id request.currentStepId = some exec ∧
    rbacError db user exec = none

instance (env : Env) (db : Database) (request : WorkflowRequest) (user : User) :
    Decidable (Admits env db request user) :=
  decidable_of_iff ((openExecution env.executionOrder db request.id request.currentStepId).any
      (fun exec => rbacError db user exec = none) = true) (by simp [Admits, Option.any_eq_true])

/-- The database answers every round trip of a decision, and its columns take the context. -/
def Unobstructed (env : Env) (context : Option Dict) : Prop :=
  env.dbFails 0 = false ∧ env.dbFails 1 = false ∧ env.dbFails 2 = false ∧
    env.stores context = true

instance (db db' : Database) (request : WorkflowRequest) (verdict : RequestStatus) :
    Decidable (GetsVerdict db db' request verdict) :=
  inferInstanceAs (Decidable (∃ row ∈ addedHistory db db',
    row.requestId = request.id ∧ row.toStatus = verdict))

variable {env : Env} {db db' : Database} {request : WorkflowRequest} {user : User}
  {outcome : String} {context : Option Dict}

/-- A routed decision completes the request exactly when it finds no next step. -/
theorem getsVerdict_routed {exec : RequestStep} {status : Option StepStatus}
    {verdict : RequestStatus}
    (hrouted : Routed env db user outcome context request exec status db')
    (hverdict : verdict ≠ .completed) :
    GetsVerdict db db' request verdict ↔
      nextStepOf env db request outcome context = none ∧ verdict = verdictOf outcome := by
  cases hrouted with
  | moved nextStep deadline hnext hdeadline =>
      simp [GetsVerdict, addedHistory, movedOn, hnext]
  | finished hnext haudited hvalid =>
      simp only [GetsVerdict, addedHistory, completed, List.drop_left, List.mem_cons,
        List.not_mem_nil, or_false, exists_eq_or_imp, exists_eq_left, historyRow, hnext, true_and]
      exact ⟨fun hrow => hrow.elim Eq.symm fun hlast => absurd hlast.symm hverdict,
        fun heq => .inl heq.symm⟩

theorem getsVerdict_self {verdict : RequestStatus} : ¬GetsVerdict db db request verdict := by
  simp [GetsVerdict, addedHistory]

/-- A decision with a status text the column takes gives a verdict exactly when it is
admitted, the database answers, and no next step is found. -/
theorem getsVerdict_iff (env : Env) (user : User) (outcome : String) (context : Option Dict)
    (hdb : WellFormed db) (hrequest : request ∈ db.workflowRequests)
    (houtcome : (StepStatus.ofValue? outcome).isSome) :
    GetsVerdict db ((Call.processStep env request.id user outcome context).perform db) request
        (verdictOf outcome) ↔
      Admits env db request user ∧ Unobstructed env context ∧
        nextStepOf env db request outcome context = none := by
  have hverdict : verdictOf outcome ≠ .completed := by
    rcases verdictOf_cases outcome with hverdict | hverdict <;> simp [hverdict]
  have hread : db.request? request.id = some request :=
    hdb.request?_eq_some_iff.mpr ⟨hrequest, rfl⟩
  rw [perform_processStep]
  constructor
  · cases hdecided : decided env db request.id user outcome context with
    | none =>
        intro hgets
        exact absurd hgets getsVerdict_self
    | some db' =>
        intro hgets
        obtain ⟨exec, status, haccepted, hrouted⟩ := accepted_of_decided hdb hrequest hdecided
        obtain ⟨hnext, -⟩ := (getsVerdict_routed hrouted hverdict).mp hgets
        refine ⟨⟨exec, haccepted.execution_open, haccepted.permitted⟩,
          ⟨?_, haccepted.audited, haccepted.committed, haccepted.stored.2⟩, hnext⟩
        cases hrouted with
        | moved nextStep deadline hmoved hdeadline =>
            rw [hnext] at hmoved
            cases hmoved
        | finished hnext haudited hvalid => exact haudited
  · rintro ⟨⟨exec, hexec, hpermitted⟩, ⟨hfirst, haudited, hcommitted, hstores⟩, hnext⟩
    obtain ⟨status, hstatus⟩ := exists_storedStatus exec user houtcome hstores
    obtain ⟨-, -, decided, hactive⟩ := hdb.active_of_openExecution hread hexec
    have hvalid : isValidTransition request.status (verdictOf outcome) = true := by
      rw [hactive.status_eq]
      exact verdictOf_follows outcome
    have hrouted : Routed env db user outcome context request exec status _ :=
      .finished hnext hfirst hvalid
    rw [decided_iff.mpr ⟨request, exec, status,
      ⟨hread, hexec, hpermitted, hstatus, haudited, hcommitted⟩, hrouted⟩, Option.getD_some]
    exact (getsVerdict_routed hrouted hverdict).mpr ⟨hnext, rfl⟩

/-! ## Where no next step is found -/

/-- No next step: no transition is enabled, or the one taken has no target. -/
theorem nextStepOf_eq_none_iff (hdb : WellFormed db) (hrequest : request ∈ db.workflowRequests) :
    nextStepOf env db request outcome context = none ↔
      (∀ trans ∈ matchingTransitions db request.currentStepId outcome,
        enabled (evalContext request.requestData context) trans = false) ∨
      ∃ trans, env.transitionOrder.pick (enabled (evalContext request.requestData context))
        (matchingTransitions db request.currentStepId outcome) = some trans ∧
          trans.toStepId = none := by
  rw [nextStepOf, resolveNext, ← @RowOrder.pick_eq_none_iff _ env.transitionOrder]
  cases hpick : env.transitionOrder.pick (enabled (evalContext request.requestData context))
      (matchingTransitions db request.currentStepId outcome) with
  | none => simp
  | some trans =>
      cases htarget : trans.toStepId with
      | none => simp [htarget]
      | some target =>
          have htrans := (RowOrder.pick_some hpick).1
          rcases hdb.conducted request hrequest with ⟨decided, current, hactive⟩ | hfinished
          · simp only [hactive.currentStepId_eq, matchingTransitions, Database.transitionsFrom,
              List.mem_filter, decide_eq_true_eq] at htrans
            have hsource := hdb.hasStep_of_active hactive
            rw [← htrans.2.1] at hsource
            obtain ⟨next, hnext, -⟩ := hdb.toWellDefined.step?_of_hasStep
              (hdb.toWellDefined.hasStep_of_transition htrans.1 hsource htarget)
            simp [htarget, hnext]
          · simp [hfinished.currentStepId_eq, matchingTransitions] at htrans

/-! ## Approval -/

/-- A decision APPROVED approves a request only at an enabled transition without a
target, or where the step has no transition for it; never because the guards fail. -/
def FailClosed (env : Env) (db : Database) (request : WorkflowRequest) (user : User)
    (context : Option Dict) : Prop :=
  let db' := (Call.processStep env request.id user "APPROVED" context).perform db
  let approvals := matchingTransitions db request.currentStepId "APPROVED"
  let data := evalContext request.requestData context
  (approvals ≠ [] → (∀ trans ∈ approvals, enabled data trans = false) →
      ¬GetsVerdict db db' request .approved) ∧
    (GetsVerdict db db' request .approved → approvals = [] ∨
      ∃ trans, env.transitionOrder.pick (enabled data) approvals = some trans ∧
        trans.toStepId = none)

theorem failClosed_iff_of_wellFormed (hdb : WellFormed db)
    (hrequest : request ∈ db.workflowRequests) :
    FailClosed env db request user context ↔
      matchingTransitions db request.currentStepId "APPROVED" = [] ∨
      (∃ trans ∈ matchingTransitions db request.currentStepId "APPROVED",
        enabled (evalContext request.requestData context) trans = true) ∨
      ¬Admits env db request user ∨ ¬Unobstructed env context := by
  have hverdict := getsVerdict_iff env user "APPROVED" context hdb hrequest rfl
  rw [nextStepOf_eq_none_iff hdb hrequest] at hverdict
  simp only [FailClosed]
  generalize matchingTransitions db request.currentStepId "APPROVED" = approvals at *
  change (_ → _ → ¬GetsVerdict _ _ _ (verdictOf "APPROVED")) ∧
    (GetsVerdict _ _ _ (verdictOf "APPROVED") → _) ↔ _
  rw [hverdict]
  by_cases hnone : ∀ trans ∈ approvals,
      enabled (evalContext request.requestData context) trans = false
  · have hdisabled : ¬∃ trans ∈ approvals,
        enabled (evalContext request.requestData context) trans = true := by
      rintro ⟨trans, htrans, henabled⟩
      rw [hnone trans htrans] at henabled
      cases henabled
    have hpick : ¬∃ trans, env.transitionOrder.pick
        (enabled (evalContext request.requestData context)) approvals = some trans ∧
          trans.toStepId = none := by
      rintro ⟨trans, hpick, -⟩
      exact hdisabled ⟨trans, RowOrder.pick_some hpick⟩
    simp only [eq_true hnone, eq_false hdisabled, eq_false hpick]
    grind
  · have henabled : ∃ trans ∈ approvals,
        enabled (evalContext request.requestData context) trans = true := by
      simpa using hnone
    simp only [eq_false hnone, eq_true henabled]
    grind

/-- Approval is fail-closed exactly where the step has no transition for APPROVED, where
one is enabled, or where the call is refused whatever the guards say. -/
theorem approval_fail_closed_iff (env : Env) {db : Database} (hreachable : Reachable db)
    {request : WorkflowRequest} (hrequest : request ∈ db.workflowRequests) (user : User)
    (context : Option Dict) :
    FailClosed env db request user context ↔
      matchingTransitions db request.currentStepId "APPROVED" = [] ∨
      (∃ trans ∈ matchingTransitions db request.currentStepId "APPROVED",
        enabled (evalContext request.requestData context) trans = true) ∨
      ¬Admits env db request user ∨ ¬Unobstructed env context :=
  failClosed_iff_of_wellFormed hreachable.wellFormed hrequest

/-! ### A purchase without an amount -/

/-- The guards of the two ways out of the first review look exhaustive. -/
def amountGuard (operator : String) : Dict :=
  [("field", .str "request_data.amount"), ("operator", .str operator), ("value", .int 1000)]

def purchase : WorkflowCreate :=
  Sample.twoReviews [⟨1, some 2, "APPROVED", some (amountGuard ">")⟩,
    ⟨1, none, "APPROVED", some (amountGuard "<=")⟩, ⟨2, none, "APPROVED", none⟩]

/-- A purchase of the given data at its first review. -/
def purchaseOf (data : Dict) : Database := runCalls Database.empty (Sample.opening purchase data)

def purchaseRequest (data : Dict) : WorkflowRequest :=
  startedRequest (.calm Sample.noon) 0 0 data
    (WorkflowService.stepRow 0 Sample.firstReview 1) 6

theorem approval_fail_closed_iff_purchase :
    FailClosed (.calm Sample.noon) (purchaseOf []) (purchaseRequest []) Sample.admin none ↔
      matchingTransitions (purchaseOf []) (some 1) "APPROVED" = [] ∨
      (∃ trans ∈ matchingTransitions (purchaseOf []) (some 1) "APPROVED",
        enabled (evalContext (some []) none) trans = true) ∨
      ¬Admits (.calm Sample.noon) (purchaseOf []) (purchaseRequest []) Sample.admin ∨
      ¬Unobstructed (.calm Sample.noon) none :=
  approval_fail_closed_iff (.calm Sample.noon) ⟨_, rfl⟩ (List.mem_singleton_self _) Sample.admin
    none

/-- Without an amount neither guard holds, and an approval of the first review
approves the purchase. -/
theorem approval_not_fail_closed :
    ¬∀ env db, Reachable db → ∀ request ∈ db.workflowRequests, ∀ user context,
      FailClosed env db request user context := by
  intro hclosed
  have hpurchase := hclosed (.calm Sample.noon) (purchaseOf []) ⟨_, rfl⟩ (purchaseRequest [])
    (List.mem_singleton_self _) Sample.admin none
  refine hpurchase.1 (List.ne_nil_of_length_pos (by decide)) (by decide) (by decide)

end WorkflowPlatform
