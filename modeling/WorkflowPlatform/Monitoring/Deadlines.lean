import WorkflowPlatform.Lifecycle.Reachable

/-! # Deadlines that can be reckoned

A deadline is a clock reading plus the hours of a step. The schema of a step bounds its
hours from below only, and the column takes some that lead beyond the last year a
`datetime` has. A start or a decision that comes to such a step raises.
-/

namespace WorkflowPlatform

open Python Tx WorkflowEngine

/-! ## The hours there are -/

namespace DateTime

/-- The whole hours from a moment to the last one. -/
def hoursLeft (now : DateTime) : ℕ := (maxMicros - now.micros) / 3600000000

/-- So many hours can be added. The bound on a `timedelta` is never the first to be met. -/
theorem addHours_isSome_iff (now : DateTime) (hours : ℕ) :
    (now.addHours hours).isSome ↔ hours ≤ now.hoursLeft := by
  have hmax := now.le_max
  rw [addHours, timedelta, hoursLeft, Nat.le_div_iff_mul_le (by decide)]
  by_cases hfits : now.micros + hours * 3600000000 ≤ maxMicros
  · -- hours that stay within the calendar are within the bound on a `timedelta`
    have hdays : hours / 24 ≤ 999999999 := by
      simp only [maxMicros] at hfits
      omega
    rw [if_pos hdays, Option.bind_some, dif_pos hfits, Option.isSome_some]
    simp only [true_iff]
    omega
  · have hnone : ((if hours / 24 ≤ 999999999 then some (hours * 3600000000) else none).bind
        fun delta => if hmax : now.micros + delta ≤ maxMicros then
          some (⟨now.micros + delta, hmax⟩ : DateTime) else none) = none := by
      split
      · rw [Option.bind_some, dif_neg hfits]
      · rfl
    rw [hnone, Option.isSome_none]
    simp only [Bool.false_eq_true, false_iff]
    omega

theorem addHours_eq_none_iff (now : DateTime) (hours : ℕ) :
    now.addHours hours = none ↔ now.hoursLeft < hours := by
  rw [← Option.not_isSome_iff_eq_none, addHours_isSome_iff, Nat.not_le]

end DateTime

variable {env : Env} {db : Database} {requestId : Uuid} {user : User} {outcome : String}
  {context : Option Dict}

/-! ## Which calls raise an overflow -/

theorem startable_eq_overflow_iff {workflowId : Uuid} {data : Dict} :
    startable env db workflowId data = .error .overflowError ↔
      (activeWorkflow db workflowId).isSome ∧
        (env.dbFails 0 = false ∧ Json.encodesFields data = true) ∧
        ∃ first, firstStep env.stepOrder db workflowId = some first ∧
          (env.utcnow 0).hoursLeft < first.slaHours := by
  simp only [← DateTime.addHours_eq_none_iff]
  constructor
  · intro hstartable
    unfold startable at hstartable
    repeat' split at hstartable
    all_goals cases hstartable
    next _ _ hworkflow hinserted _ first hfirst _ hlate =>
      simp only [Bool.not_eq_true, Bool.or_eq_false_iff, Bool.not_eq_false'] at hinserted
      exact ⟨Option.isSome_of_eq_some hworkflow, hinserted, first, hfirst, hlate⟩
  · rintro ⟨hactive, ⟨hinserted, hencodes⟩, first, hfirst, hlate⟩
    obtain ⟨workflow, hworkflow⟩ := Option.isSome_iff_exists.mp hactive
    simp [startable, hworkflow, hinserted, hencodes, hfirst, hlate]

/-- A start raises an overflow exactly if it comes to a first step with too many hours. -/
theorem start_overflows_iff (hdb : WellFormed db) (env : Env) (workflowId requesterId : Uuid)
    (data : Dict) :
    (Tx.perform (Endpoint.startWorkflow env workflowId requesterId data) db).result =
        .error .overflowError ↔
      (activeWorkflow db workflowId).isSome ∧
        (env.dbFails 0 = false ∧ Json.encodesFields data = true) ∧
        ∃ first, firstStep env.stepOrder db workflowId = some first ∧
          (env.utcnow 0).hoursLeft < first.slaHours := by
  have hfinished := finished_startWorkflow env workflowId requesterId data
    fun request hrequest => (hdb.request_fresh request hrequest).ne
  rw [← startable_eq_overflow_iff, hfinished]
  cases startable env db workflowId data with
  | error error => simp
  | ok found => cases env.dbFails 2 <;> simp

/-- A permitted decision that leads to a step with too many hours. -/
def LeadsTooFar (env : Env) (db : Database) (requestId : Uuid) (user : User) (outcome : String)
    (context : Option Dict) : Prop :=
  ∃ request exec nextStep, db.request? requestId = some request ∧
    openExecution env.executionOrder db requestId request.currentStepId = some exec ∧
    rbacError db user exec = none ∧ nextStepOf env db request outcome context = some nextStep ∧
    (env.utcnow 1).hoursLeft < nextStep.slaHours

theorem rbacError_ne_overflow (db : Database) (user : User) (exec : RequestStep) :
    rbacError db user exec ≠ some .overflowError := by
  unfold rbacError missing
  repeat' split
  all_goals simp

theorem decisionError_eq_overflow_iff :
    decisionError env db requestId user outcome context = .overflowError ↔
      LeadsTooFar env db requestId user outcome context := by
  constructor
  · intro herror
    rw [decisionError] at herror
    split at herror
    · cases herror
    next request hrequest =>
    split at herror
    · cases herror
    next exec hexec =>
    rw [refusalOf] at herror
    split at herror
    · next error hrbac =>
      rw [herror] at hrbac
      exact absurd hrbac (rbacError_ne_overflow db user exec)
    next hrbac =>
    cases hnext : nextStepOf env db request outcome context with
    | none =>
        rw [hnext, routeError] at herror
        split at herror <;> cases herror
    | some nextStep =>
        rw [hnext, routeError] at herror
        split at herror
        · cases herror
        · next hlate =>
          exact ⟨request, exec, nextStep, hrequest, hexec, hrbac, hnext,
            (DateTime.addHours_eq_none_iff _ _).mp hlate⟩
  · rintro ⟨request, exec, nextStep, hrequest, hexec, hrbac, hnext, hlate⟩
    have hnone := (DateTime.addHours_eq_none_iff _ _).mpr hlate
    simp [decisionError, hrequest, hexec, refusalOf, hrbac, hnext, routeError, hnone]

theorem decided_of_leadsTooFar (hfar : LeadsTooFar env db requestId user outcome context) :
    decided env db requestId user outcome context = none := by
  obtain ⟨request, exec, nextStep, hrequest, hexec, -, hnext, hlate⟩ := hfar
  have hnone := (DateTime.addHours_eq_none_iff _ _).mpr hlate
  by_contra hdecided
  obtain ⟨db', hdecided⟩ := Option.ne_none_iff_exists'.mp hdecided
  obtain ⟨other, exec', status, haccepted, hrouted⟩ := decided_iff.mp hdecided
  obtain rfl := Option.some.inj (hrequest.symm.trans haccepted.request_read)
  cases hrouted with
  | moved other deadline hother hdeadline =>
      obtain rfl := Option.some.inj (hnext.symm.trans hother)
      rw [hnone] at hdeadline
      cases hdeadline
  | finished hother =>
      rw [hnext] at hother
      cases hother

/-- A decision raises an overflow exactly if it leads to a step with too many hours. -/
theorem decision_overflows_iff (env : Env) (db : Database) (requestId : Uuid) (user : User)
    (outcome : String) (context : Option Dict) :
    (Tx.perform (Endpoint.processRequestStep env requestId user outcome context) db).result =
        .error .overflowError ↔ LeadsTooFar env db requestId user outcome context := by
  have hperform := perform_processRequestStep env db requestId user outcome context
  cases hdecided : decided env db requestId user outcome context with
  | none =>
      rw [hdecided] at hperform
      rw [hperform, ← decisionError_eq_overflow_iff, Except.error.injEq]
  | some db' =>
      rw [hdecided] at hperform
      obtain ⟨value, hperform⟩ := hperform
      rw [hperform]
      refine iff_of_false (fun herror => ?_) fun hfar => ?_
      · cases herror
      · rw [decided_of_leadsTooFar hfar] at hdecided
        cases hdecided

/-! ## Workflows without overflows -/

section Workflow

variable {workflowId : Uuid} {now : DateTime}

/-- Every step of the workflow has a deadline from now on. -/
def DeadlinesFit (db : Database) (workflowId : Uuid) (now : DateTime) : Prop :=
  ∀ step ∈ db.stepsOf workflowId, (now.addHours step.slaHours).isSome

/-- No start on the workflow and no decision on its requests raises an overflow while the
deadline is reckoned from now. -/
structure NeverOverflows (db : Database) (workflowId : Uuid) (now : DateTime) : Prop where
  start : ∀ env requesterId data, env.utcnow 0 = now →
    (Tx.perform (Endpoint.startWorkflow env workflowId requesterId data) db).result ≠
      .error .overflowError
  decision : ∀ request ∈ db.workflowRequests, request.workflowId = workflowId →
    ∀ env user outcome context, env.utcnow 1 = now →
      (Tx.perform (Endpoint.processRequestStep env request.id user outcome context) db).result ≠
        .error .overflowError

/-- A step that a start on the workflow, or a decision on a request of it where that is now,
can come to. -/
inductive ComesTo (db : Database) (workflowId : Uuid) (step : WorkflowStep) : Prop
  | started (hactive : (activeWorkflow db workflowId).isSome)
      (hstep : step ∈ db.stepsOf workflowId) (hfirst : step.stepOrder = 1)
  | decided (request : WorkflowRequest) (hrequest : request ∈ db.workflowRequests)
      (hworkflow : request.workflowId = workflowId) (outcome : String) (context : Option Dict)
      (trans : StepTransition)
      (htrans : trans ∈ matchingTransitions db request.currentStepId outcome)
      (henabled : enabled (evalContext request.requestData context) trans = true)
      (htarget : trans.toStepId.bind db.step? = some step)

theorem not_neverOverflows_of_start (hdb : WellFormed db) {step : WorkflowStep}
    (hactive : (activeWorkflow db workflowId).isSome) (hstep : step ∈ db.stepsOf workflowId)
    (hfirst : step.stepOrder = 1) (hlate : now.hoursLeft < step.slaHours) :
    ¬NeverOverflows db workflowId now := by
  intro hnever
  obtain ⟨hmem, hworkflow⟩ := List.mem_filter.mp hstep
  obtain ⟨order, hpick⟩ : ∃ order, firstStep order db workflowId = some step :=
    RowOrder.exists_pick hmem (decide_eq_true ⟨of_decide_eq_true hworkflow, hfirst⟩)
  apply hnever.start { Env.calm now with stepOrder := order } 0 [] rfl
  exact (start_overflows_iff hdb _ _ _ _).mpr ⟨hactive, ⟨rfl, rfl⟩, step, hpick, hlate⟩

theorem not_neverOverflows_of_decision (hdb : WellFormed db) {request : WorkflowRequest}
    (hrequest : request ∈ db.workflowRequests) (hworkflow : request.workflowId = workflowId)
    {trans : StepTransition} (htrans : trans ∈ matchingTransitions db request.currentStepId outcome)
    (henabled : enabled (evalContext request.requestData context) trans = true)
    {step : WorkflowStep} (htarget : trans.toStepId.bind db.step? = some step)
    (hlate : now.hoursLeft < step.slaHours) : ¬NeverOverflows db workflowId now := by
  intro hnever
  obtain ⟨order, hpick⟩ := RowOrder.exists_pick htrans henabled
  have hread : db.request? request.id = some request :=
    hdb.request?_eq_some_iff.mpr ⟨hrequest, rfl⟩
  rcases hdb.conducted request hrequest with ⟨before, exec, hactive⟩ | hfinished
  · apply hnever.decision request hrequest hworkflow { Env.calm now with transitionOrder := order }
      Sample.admin outcome context rfl
    refine (decision_overflows_iff _ _ _ _ _ _).mpr ⟨request, exec, step, hread,
      WellFormed.openExecution_of_active hactive _, ?_, ?_, hlate⟩
    · rw [rbacError, if_pos (show isAdmin Sample.admin = true by decide)]
    · rw [nextStepOf, resolveNext, hpick, Option.bind_some, htarget]
  · -- a completed request is nowhere, where no transition leads away
    rw [hfinished.currentStepId_eq] at htrans
    cases htrans

/-- No call on a workflow raises an overflow exactly while there are as many hours left as
each step asks for that a call can come to now. -/
theorem neverOverflows_iff (hdb : WellFormed db) (workflowId : Uuid) (now : DateTime) :
    NeverOverflows db workflowId now ↔
      ∀ step, ComesTo db workflowId step → step.slaHours ≤ now.hoursLeft := by
  constructor
  · intro hnever step hcomes
    by_contra hlate
    rw [Nat.not_le] at hlate
    cases hcomes with
    | started hactive hstep hfirst =>
        exact not_neverOverflows_of_start hdb hactive hstep hfirst hlate hnever
    | decided request hrequest hworkflow outcome context trans htrans henabled htarget =>
        exact not_neverOverflows_of_decision hdb hrequest hworkflow htrans henabled htarget hlate
          hnever
  · intro hfit
    constructor
    · rintro env requesterId data rfl herror
      obtain ⟨hactive, -, first, hfirst, hlate⟩ := (start_overflows_iff hdb env _ _ _).mp herror
      obtain ⟨hmem, hworkflow, horder⟩ := firstStep_spec hfirst
      have hstep : first ∈ db.stepsOf workflowId :=
        List.mem_filter.mpr ⟨hmem, decide_eq_true hworkflow⟩
      exact absurd (hfit first (.started hactive hstep horder)) (Nat.not_le.mpr hlate)
    · rintro request hrequest rfl env user outcome context rfl herror
      obtain ⟨other, exec, nextStep, hread, -, -, hnext, hlate⟩ :=
        (decision_overflows_iff env db _ _ _ _).mp herror
      obtain rfl : request = other := by
        have hown : db.request? request.id = some request :=
          hdb.request?_eq_some_iff.mpr ⟨hrequest, rfl⟩
        exact Option.some.inj (hown.symm.trans hread)
      obtain ⟨trans, hpick, htarget⟩ := Option.bind_eq_some_iff.mp hnext
      obtain ⟨htrans, henabled⟩ := RowOrder.pick_some hpick
      exact absurd (hfit nextStep (.decided request hrequest rfl outcome context trans htrans
        henabled htarget)) (Nat.not_le.mpr hlate)

/-- What a call comes to is a step of the workflow. -/
theorem ComesTo.mem_stepsOf (hdb : WellFormed db) {step : WorkflowStep}
    (hcomes : ComesTo db workflowId step) : step ∈ db.stepsOf workflowId := by
  cases hcomes with
  | started _ hstep => exact hstep
  | decided request hrequest hworkflow outcome context trans htrans henabled htarget =>
      rcases hdb.conducted request hrequest with ⟨before, exec, hactive⟩ | hfinished
      · obtain ⟨order, hpick⟩ := RowOrder.exists_pick htrans henabled
        have hnext : nextStepOf { Env.calm Sample.noon with transitionOrder := order } db
            request outcome context = some step := by
          rw [nextStepOf, resolveNext, hpick, Option.bind_some, htarget]
        exact hworkflow ▸ nextStepOf_mem_stepsOf hdb hactive hnext
      · rw [hfinished.currentStepId_eq] at htrans
        cases htrans

/-- Where all steps have a deadline, no call raises an overflow. -/
theorem neverOverflows_of_fit (hdb : WellFormed db) (hfit : DeadlinesFit db workflowId now) :
    NeverOverflows db workflowId now := by
  apply (neverOverflows_iff hdb workflowId now).mpr
  intro step hcomes
  exact (now.addHours_isSome_iff _).mp (hfit step (hcomes.mem_stepsOf hdb))

/-- The deadlines of a workflow can be reckoned, and its calls raise no overflow, exactly while
there are as many hours left as each of its steps asks for. -/
theorem deadlines_reckoned_iff (hreachable : Reachable db) (workflowId : Uuid) (now : DateTime) :
    DeadlinesFit db workflowId now ∧ NeverOverflows db workflowId now ↔
      ∀ step ∈ db.stepsOf workflowId, step.slaHours ≤ now.hoursLeft := by
  have hfit : DeadlinesFit db workflowId now ↔
      ∀ step ∈ db.stepsOf workflowId, step.slaHours ≤ now.hoursLeft :=
    forall₂_congr fun step _ => now.addHours_isSome_iff step.slaHours
  rw [← hfit]
  exact and_iff_left_of_imp (neverOverflows_of_fit hreachable.wellFormed)

end Workflow

/-! ### A step of the longest time there is -/

namespace Sample

/-- The first moment of the year 2026. -/
def newYear : DateTime := ⟨63902822400000000, by decide⟩

theorem one_le_second : (1 : ℤ) ≤ 2 := Int.le_add_one (Int.le_refl 1)

/-- A second review for which the column's largest number of hours is allowed. -/
def longReview : WorkflowStepCreate :=
  { review 2 one_le_second with slaHours := maxInteger, one_le_slaHours := by decide }

/-- A request that waits for its first review. -/
def beforeLongReview : List Call :=
  [.createWorkflow (.calm newYear) { approvals with steps := [firstReview, longReview] } 0,
    .startWorkflow (.calm newYear) 0 0 []]

end Sample

theorem deadlines_reckoned_iff_approvals :
    let db := runCalls Database.empty (Sample.opening Sample.approvals [])
    DeadlinesFit db 0 Sample.newYear ∧ NeverOverflows db 0 Sample.newYear ↔
      ∀ step ∈ db.stepsOf 0, step.slaHours ≤ Sample.newYear.hoursLeft :=
  deadlines_reckoned_iff ⟨_, rfl⟩ 0 Sample.newYear

/-- Between the years 2020 and 2100 the approval of the first review raises an overflow. -/
theorem approval_overflows :
    ¬∀ db, Reachable db → ∀ (workflowId : Uuid) (now : DateTime),
      63713433600000000 ≤ now.micros → now.micros < 66269577600000000 →
        DeadlinesFit db workflowId now ∧ NeverOverflows db workflowId now := by
  intro hreckoned
  obtain ⟨request, hrequest, hid, hworkflow⟩ :
      ∃ request ∈ (runCalls Database.empty Sample.beforeLongReview).workflowRequests,
        request.id = 5 ∧ request.workflowId = 0 := by
    decide +kernel
  have hnever := (hreckoned _ ⟨Sample.beforeLongReview, rfl⟩ 0 Sample.newYear (by decide)
    (by decide)).2.decision request hrequest hworkflow (.calm Sample.newYear) Sample.admin
    "APPROVED" none rfl
  rw [hid] at hnever
  obtain ⟨error, herror, hoverflow⟩ : ∃ error, (Tx.perform (Endpoint.processRequestStep
      (.calm Sample.newYear) 5 Sample.admin "APPROVED" none)
      (runCalls Database.empty Sample.beforeLongReview)).result = .error error ∧
        error = .overflowError := ⟨_, rfl, by decide +kernel⟩
  exact hnever (herror.trans (congrArg _ hoverflow))

end WorkflowPlatform
