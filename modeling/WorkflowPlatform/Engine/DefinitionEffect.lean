import WorkflowPlatform.Api.Endpoints

/-! # The state after a definition is stored or deleted

A stored definition is a workflow, its steps numbered in the order they were
submitted, and the transitions whose source was found. Deleting takes away just
what creating added.
-/

namespace WorkflowPlatform

open Python Tx

namespace WorkflowService

/-! ## The rows of a definition -/

/-- The rows of the steps, numbered from `id` on. -/
def storedSteps (workflowId : Uuid) : Uuid → List WorkflowStepCreate → List WorkflowStep
  | _, [] => []
  | id, stepData :: rest => stepRow workflowId stepData id :: storedSteps workflowId (id + 1) rest

/-- The map of orders the rows give. -/
def stepsMapOf : Uuid → StepsMap → List WorkflowStepCreate → StepsMap
  | _, stepsMap, [] => stepsMap
  | id, stepsMap, stepData :: rest =>
      stepsMapOf (id + 1) ((stepData.stepOrder, id) :: stepsMap) rest

/-- Rows that wait for their identifiers, numbered from `id` on. -/
def numbered {Row : Type} : Uuid → List (Uuid → Row) → List Row
  | _, [] => []
  | id, row :: rest => row id :: numbered (id + 1) rest

/-- The state with a definition added. -/
def withDefinition (db : Database) (payload : WorkflowCreate) (creatorId : Uuid) : Database :=
  let steps := storedSteps db.nextId (db.nextId + 1) payload.steps
  let stepsMap := stepsMapOf (db.nextId + 1) [] payload.steps
  let rows := payload.transitions.filterMap (transitionRow? stepsMap)
  { db with
    workflows := db.workflows ++ [workflowRow payload creatorId db.nextId]
    workflowSteps := db.workflowSteps ++ steps
    stepTransitions := db.stepTransitions ++ numbered (db.nextId + 1 + payload.steps.length) rows
    nextId := db.nextId + 1 + payload.steps.length + rows.length }

/-! ## Storing the steps -/

theorem uncommitted_createSteps (env : Env) (workflowId : Uuid) (steps : List WorkflowStepCreate) :
    ∀ trip stepsMap, Uncommitted (createSteps env workflowId trip stepsMap steps) := by
  induction steps with
  | nil => exact fun _ _ => Uncommitted.pure _
  | cons stepData rest ih =>
      exact fun trip stepsMap => (Uncommitted.query _).bind fun _ =>
        (Uncommitted.add _).bind fun _ => (Uncommitted.flush _ _).bind fun _ => ih _ _

/-- The state with steps added. -/
def withSteps (db : Database) (workflowId : Uuid) (steps : List WorkflowStepCreate) : Database :=
  { db with
    workflowSteps := db.workflowSteps ++ storedSteps workflowId db.nextId steps
    nextId := db.nextId + steps.length }

/-- The loop over the steps either raises or has flushed every one of them. -/
theorem run_createSteps (env : Env) (workflowId : Uuid) (steps : List WorkflowStepCreate)
    (trip : ℕ) (stepsMap : StepsMap) (db flushed : Database) (written : List Write)
    (tasks : List Task) :
    (∃ error session, (createSteps env workflowId trip stepsMap steps).run
        ⟨db, flushed, written, [], tasks⟩ = (.error error, session)) ∨
      ∃ written', (createSteps env workflowId trip stepsMap steps).run
          ⟨db, flushed, written, [], tasks⟩ =
        (.ok (stepsMapOf flushed.nextId stepsMap steps),
          ⟨db, withSteps flushed workflowId steps, written', [], tasks⟩) := by
  induction steps generalizing trip stepsMap flushed written with
  | nil => exact .inr ⟨written, by simp [createSteps, stepsMapOf, withSteps, storedSteps]⟩
  | cons stepData rest ih =>
      simp only [createSteps, run_query_bind, run_add_bind, List.nil_append]
      cases happly : (if env.dbFails trip then none else
          Store.applyAll [Write.insertWorkflowStep (stepRow workflowId stepData)] flushed) with
      | none => exact .inl ⟨.databaseError, _, run_flush_bind_of_none _ _ happly⟩
      | some next =>
          have hnext : next = withSteps flushed workflowId [stepData] := by
            obtain ⟨-, happly⟩ := Option.ite_none_left_eq_some.mp happly
            simp only [Store.applyAll_cons, store_apply, Write.apply, Option.bind_eq_some_iff,
              Option.ite_none_left_eq_some, Store.applyAll_nil, Option.some.injEq] at happly
            obtain ⟨_, ⟨-, rfl⟩, rfl⟩ := happly
            rfl
          subst hnext
          rw [run_flush_bind_of_some _ _ happly]
          have hrest := ih (trip + 1) ((stepData.stepOrder, flushed.nextId) :: stepsMap)
            (withSteps flushed workflowId [stepData])
            (written ++ [.insertWorkflowStep (stepRow workflowId stepData)])
          simpa [withSteps, storedSteps, stepsMapOf, Nat.add_assoc, Nat.add_comm 1] using hrest

/-! ## Storing the transitions -/

theorem run_createTransitions (stepsMap : StepsMap) (transitions : List StepTransitionCreate)
    (session : Session Database Write Task) :
    (createTransitions stepsMap transitions).run session =
      (.ok (), { session with pending := session.pending ++
        (transitions.filterMap (transitionRow? stepsMap)).map .insertStepTransition }) := by
  induction transitions generalizing session with
  | nil => simp [createTransitions]
  | cons transData rest ih =>
      cases hrow : transitionRow? stepsMap transData <;>
        simp [createTransitions, hrow, ih]

theorem applyAll_insertStepTransitions {rows : List (Uuid → StepTransition)} {db db' : Database}
    (happly : Store.applyAll (rows.map Write.insertStepTransition) db = some db') :
    db' = { db with
      stepTransitions := db.stepTransitions ++ numbered db.nextId rows
      nextId := db.nextId + rows.length } := by
  induction rows generalizing db with
  | nil =>
      cases happly
      simp [numbered]
  | cons row rest ih =>
      simp only [List.map_cons, Store.applyAll_cons, store_apply, Write.apply,
        Option.bind_eq_some_iff, Option.ite_none_left_eq_some, Option.some.injEq] at happly
      obtain ⟨_, ⟨-, rfl⟩, happly⟩ := happly
      rw [ih happly]
      simp [numbered, Nat.add_assoc, Nat.add_comm 1]

/-! ## Creating -/

/-- `create_workflow` up to its commit. -/
def prepareWorkflow (env : Env) (payload : WorkflowCreate) (creatorId : Uuid) : EngineTx Uuid := do
  let workflowId ← query (·.nextId)
  add (.insertWorkflow (workflowRow payload creatorId))
  flush (env.dbFails 0) .databaseError
  let stepsMap ← createSteps env workflowId 1 [] payload.steps
  createTransitions stepsMap payload.transitions
  return workflowId

theorem createWorkflow_eq (env : Env) (payload : WorkflowCreate) (creatorId : Uuid) :
    createWorkflow env payload creatorId =
      transaction (env.dbFails (payload.steps.length + 1)) .databaseError
        (prepareWorkflow env payload creatorId) := by
  simp only [createWorkflow, transaction, prepareWorkflow, Tx.bind_assoc, Tx.pure_bind]

theorem uncommitted_prepareWorkflow (env : Env) (payload : WorkflowCreate) (creatorId : Uuid) :
    Uncommitted (prepareWorkflow env payload creatorId) := by
  refine (Uncommitted.query _).bind fun _ => (Uncommitted.add _).bind fun _ =>
    (Uncommitted.flush _ _).bind fun _ => (uncommitted_createSteps _ _ _ _ _).bind fun stepsMap =>
    Uncommitted.bind ?_ fun _ => Uncommitted.pure _
  intro session
  rw [run_createTransitions]

/-- A creation either commits the definition, or raises and leaves the state alone. -/
theorem perform_createWorkflow (env : Env) (payload : WorkflowCreate) (creatorId : Uuid)
    (db : Database) :
    let finished := Tx.perform (createWorkflow env payload creatorId) db
    (∃ error, finished.result = .error error ∧ finished.state = db) ∨
      (finished.result = .ok db.nextId ∧ finished.state = withDefinition db payload creatorId) := by
  intro finished
  have hfailed : ∀ {error session}, (prepareWorkflow env payload creatorId).run
      (Session.begin db) = (.error error, session) →
      ∃ error, finished.result = .error error ∧ finished.state = db := by
    intro error session hrun
    have huncommitted := uncommitted_prepareWorkflow env payload creatorId
    refine ⟨error, ?_⟩
    simp only [finished, createWorkflow_eq, perform_transaction_of_raised huncommitted hrun,
      and_self]
  cases hinsert : (if env.dbFails 0 then none else
      Store.applyAll [Write.insertWorkflow (workflowRow payload creatorId)] db) with
  | none =>
      have hrun : (prepareWorkflow env payload creatorId).run (Session.begin db) =
          (.error .databaseError,
            ⟨db, db, [], [.insertWorkflow (workflowRow payload creatorId)], []⟩) := by
        simp only [prepareWorkflow, run_query_bind, run_add_bind, Session.begin, List.nil_append]
        exact run_flush_bind_of_none _ _ hinsert
      exact .inl (hfailed hrun)
  | some inserted =>
      have hinserted : inserted = { db with
          workflows := db.workflows ++ [workflowRow payload creatorId db.nextId]
          nextId := db.nextId + 1 } := by
        obtain ⟨-, hinsert⟩ := Option.ite_none_left_eq_some.mp hinsert
        simp only [Store.applyAll_cons, store_apply, Write.apply, Option.bind_eq_some_iff,
          Option.ite_none_left_eq_some, Store.applyAll_nil, Option.some.injEq] at hinsert
        obtain ⟨_, ⟨-, rfl⟩, rfl⟩ := hinsert
        rfl
      have hprepared : (prepareWorkflow env payload creatorId).run (Session.begin db) =
          (do
            let stepsMap ← createSteps env db.nextId 1 [] payload.steps
            createTransitions stepsMap payload.transitions
            return db.nextId : EngineTx Uuid).run
          ⟨db, inserted, [.insertWorkflow (workflowRow payload creatorId)], [], []⟩ := by
        simp only [prepareWorkflow, run_query_bind, run_add_bind, Session.begin, List.nil_append]
        exact run_flush_bind_of_some _ _ hinsert
      rcases run_createSteps env db.nextId payload.steps 1 [] db inserted
          [.insertWorkflow (workflowRow payload creatorId)] [] with
        ⟨error, session, hsteps⟩ | ⟨written, hsteps⟩
      · exact .inl (hfailed (hprepared.trans (run_bind_error _ hsteps)))
      · rw [run_bind_ok _ hsteps, run_bind, run_createTransitions] at hprepared
        simp only [List.nil_append, run_pure] at hprepared
        simp only [finished, createWorkflow_eq, perform_transaction_of_run hprepared]
        split
        · next flushed hflushed =>
          refine .inr ⟨rfl, ?_⟩
          obtain ⟨-, hflushed⟩ := Option.ite_none_left_eq_some.mp hflushed
          have heq := applyAll_insertStepTransitions hflushed
          rw [hinserted] at heq
          exact heq
        · exact .inl ⟨_, rfl, rfl⟩

/-! ## Deleting -/

/-- A deletion of a stored workflow commits, or the database refuses it. -/
theorem perform_deleteWorkflow_of_found (env : Env) {db : Database} {workflowId : Uuid}
    {workflow : Workflow} (hworkflow : db.workflow? workflowId = some workflow) :
    Tx.perform (deleteWorkflow env workflowId) db =
      match if env.dbFails 0 then none else db.deleteWorkflow? workflowId with
      | some db' => ⟨.ok (), db', []⟩
      | none => ⟨.error .databaseError, db, []⟩ := by
  have hid : workflow.id = workflowId := by simpa using List.find?_some hworkflow
  simp only [deleteWorkflow, getWorkflow, Tx.perform, run_bind_assoc, run_query_bind,
    Session.begin, hworkflow, run_orRaise_some_bind, run_add_bind, List.nil_append, hid, commit,
    Store.applyAll_cons, store_apply, Write.apply]
  cases env.dbFails 0 <;> cases db.deleteWorkflow? workflowId <;> rfl

/-- A deletion either takes the definition away, or raises and leaves the state alone. -/
theorem perform_deleteWorkflow (env : Env) (db : Database) (workflowId : Uuid) :
    (Call.deleteWorkflow env workflowId).perform db =
      (if env.dbFails 0 ∨ db.workflow? workflowId = none then none
        else db.deleteWorkflow? workflowId).getD db := by
  cases hworkflow : db.workflow? workflowId with
  | none => simp [Call.perform, deleteWorkflow, getWorkflow, Tx.perform, Session.begin, hworkflow]
  | some workflow =>
      rw [Call.perform, perform_deleteWorkflow_of_found env hworkflow]
      cases env.dbFails 0 <;> cases db.deleteWorkflow? workflowId <;> rfl

end WorkflowService

end WorkflowPlatform
