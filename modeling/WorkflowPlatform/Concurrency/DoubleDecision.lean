import WorkflowPlatform.Concurrency.Transactions

/-! # Double decisions

Concurrent decisions of a request decide an execution twice exactly when one of
them commits after another has committed since it read the open execution. Without
such a commit the schedule leaves the state that the committed decisions leave when
they run one after the other.
-/

namespace WorkflowPlatform

open Python WorkflowEngine

/-! ## The current execution of a request -/

/-- A request with its open execution. -/
def currentItem (db : Database) (requestId : Uuid) : Option (WorkflowRequest × RequestStep) :=
  (db.request? requestId).bind fun request =>
    (db.openExecutions requestId).head?.map fun exec => (request, exec)

def executionId (item : WorkflowRequest × RequestStep) : Uuid := item.2.id

variable {db db' : Database} {request : WorkflowRequest} {exec : RequestStep} {requestId : Uuid}

theorem currentItem_eq_some_iff (hdb : WellFormed db) :
    currentItem db requestId = some (request, exec) ↔
      request ∈ db.workflowRequests ∧ request.id = requestId ∧
        ∃ decided, Active db request decided exec := by
  simp only [currentItem, Option.bind_eq_some_iff, Option.map_eq_some_iff, Prod.mk.injEq]
  constructor
  · rintro ⟨_, hrequest, _, hexec, rfl, rfl⟩
    obtain ⟨hmem, rfl⟩ := hdb.request?_eq_some_iff.mp hrequest
    exact ⟨hmem, rfl, active_of_open hdb hmem (List.mem_of_head? hexec)⟩
  · rintro ⟨hmem, rfl, decided, hactive⟩
    exact ⟨request, hdb.request?_eq_some_iff.mpr ⟨hmem, rfl⟩, exec,
      by rw [openExecutions_of_active hactive, List.head?_cons], rfl, rfl⟩

theorem open_of_currentItem (hdb : WellFormed db)
    (hcurrent : currentItem db requestId = some (request, exec)) :
    exec ∈ db.requestSteps ∧ exec.completedAt = none := by
  obtain ⟨-, -, decided, hactive⟩ := (currentItem_eq_some_iff hdb).mp hcurrent
  have hopen : exec ∈ db.openExecutions request.id := by
    rw [openExecutions_of_active hactive]
    exact List.mem_singleton_self _
  obtain ⟨hmem, -, hnone⟩ := mem_openExecutions.mp hopen
  exact ⟨hmem, hnone⟩

section Decided

variable {env : Env} {user : User} {outcome : String} {context : Option Dict}
  {status : Option StepStatus}

/-- A plan on the current execution is the decision that runs now. -/
theorem decided_of_currentItem (hdb : WellFormed db)
    (hcurrent : currentItem db requestId = some (request, exec)) {writes : List Write}
    (hplan : plan env db request exec user outcome context = some writes)
    (hup : env.dbFails 2 = false) (happly : Store.applyAll writes db = some db') :
    decided env db requestId user outcome context = some db' := by
  obtain ⟨hmem, rfl, decided, hactive⟩ := (currentItem_eq_some_iff hdb).mp hcurrent
  simp [WorkflowEngine.decided, hdb.request?_eq_some_iff.mpr ⟨hmem, rfl⟩,
    WellFormed.openExecution_of_active hactive, hplan, hup, happly]

/-- The other requests keep their current executions. -/
theorem currentItem_routed_of_ne (hdb : WellFormed db) (hexec : exec ∈ db.requestSteps)
    (howner : exec.requestId = request.id) {other : Uuid} (hne : other ≠ request.id)
    (hrouted : Routed env db user outcome context request exec status db') :
    currentItem db' other = currentItem db other := by
  rw [currentItem, currentItem, request?_routed_of_ne hne hrouted, Database.openExecutions,
    Database.openExecutions, executions_routed_of_ne hdb hexec howner hne.symm hrouted]

/-- A plan depends on nothing but the definitions. -/
theorem plan_of_sameDefinitions (hsame : SameDefinitions db db') :
    plan env db' request exec user outcome context =
      plan env db request exec user outcome context := by
  have hstep : db'.step? = db.step? := by
    funext id
    rw [Database.step?, Database.step?, hsame.workflowSteps]
  have hmatching : matchingTransitions db' request.currentStepId outcome =
      matchingTransitions db request.currentStepId outcome := by
    unfold matchingTransitions Database.transitionsFrom
    rw [hsame.stepTransitions]
  have hrbac : rbacError db' user exec = rbacError db user exec := by
    rw [rbacError, rbacError, hstep]
  have hnext : nextStepOf env db' request outcome context =
      nextStepOf env db request outcome context := by
    rw [nextStepOf, nextStepOf, resolveNext, resolveNext, hmatching, hstep]
  rw [plan, plan, hrbac, hnext]

end Decided

/-! ## The invariant -/

variable {submissions : ℕ → Submission} {initial : Database} {world world' : World}

/-- The committed decisions as calls, in the order of their commits. -/
def serialOrder (submissions : ℕ → Submission) :
    List (Event ℕ Uuid (WorkflowRequest × RequestStep)) → List Call
  | [] => []
  | .read _ _ _ :: log => serialOrder submissions log
  | .decided tx _ _ :: log => serialOrder submissions log ++ [(submissions tx).call]

/-- What a transaction has read and flushed, as far as it still matters. -/
def PhaseHolds (submission : Submission) (db : Database)
    (held : Option (Uuid × (WorkflowRequest × RequestStep))) : Phase → Prop
  | .requestRead request => request.id = submission.requestId ∧
      (∃ row ∈ db.workflowRequests, Carries request row) ∧
      ∀ stepId ∈ request.currentStepId, request.status = .inProgress ∧ request.completedAt = none
  | .executionRead request exec => held = some (submission.requestId, request, exec)
  | .flushed request exec writes => held = some (submission.requestId, request, exec) ∧
      plan submission.env db request exec submission.user submission.outcome submission.context =
        some writes
  | .begun | .committed | .aborted => True

/-- The state is one the committed decisions lead to one after the other, and the log
says which executions are current. -/
structure Serialized (submissions : ℕ → Submission) (initial : Database) (world : World) :
    Prop where
  serial : world.db = runCalls initial (serialOrder submissions world.log)
  wellFormed : WellFormed world.db
  consistent : Event.Consistent executionId (currentItem world.db) world.log
  closed : ∀ id ∈ Event.decisions executionId world.log,
    ∃ exec ∈ world.db.requestSteps, exec.id = id ∧ exec.completedAt.isSome = true
  phases : ∀ tx, PhaseHolds (submissions tx) world.db (Event.held tx world.log) (world.phases tx)

theorem PhaseHolds.later {submission : Submission}
    {held : Option (Uuid × (WorkflowRequest × RequestStep))} {phase : Phase}
    (hphase : PhaseHolds submission db held phase) (hsame : SameDefinitions db db')
    (hcontinues : Continues db db') : PhaseHolds submission db' held phase := by
  cases phase with
  | requestRead request =>
      obtain ⟨hid, ⟨row, hrow, hcarries⟩, hcurrent⟩ := hphase
      obtain ⟨row', hrow', hcarries'⟩ := hcontinues.requests row hrow
      exact ⟨hid, ⟨row', hrow', hcarries.trans hcarries'⟩, hcurrent⟩
  | executionRead request exec => exact hphase
  | flushed request exec writes =>
      exact ⟨hphase.1, (plan_of_sameDefinitions hsame).trans hphase.2⟩
  | begun | committed | aborted => trivial

/-- One transaction changes its phase, and the others keep what they hold. -/
theorem phases_update {log log' : List (Event ℕ Uuid (WorkflowRequest × RequestStep))}
    {phases : ℕ → Phase} {tx : ℕ} {phase : Phase}
    (hphases : ∀ tx, PhaseHolds (submissions tx) db (Event.held tx log) (phases tx))
    (hsame : SameDefinitions db db') (hcontinues : Continues db db')
    (hlog : ∀ other, other ≠ tx → Event.held other log' = Event.held other log)
    (hphase : PhaseHolds (submissions tx) db' (Event.held tx log') phase) :
    ∀ other, PhaseHolds (submissions other) db' (Event.held other log')
      (Function.update phases tx phase other) := by
  intro other
  by_cases hother : other = tx
  · subst hother
    rwa [Function.update_self]
  · rw [Function.update_of_ne hother, hlog other hother]
    exact (hphases other).later hsame hcontinues

theorem sameDefinitions_refl (db : Database) : SameDefinitions db db := ⟨rfl, rfl, rfl, le_rfl⟩

theorem serialized_start (hdb : WellFormed initial) :
    Serialized submissions initial (World.start initial) where
  serial := rfl
  wellFormed := hdb
  consistent := Event.consistent_nil
  closed := fun _ hid => (nomatch hid)
  phases := fun _ => trivial

/-! ## Steps -/

theorem Serialized.abort (hworld : Serialized submissions initial world) (tx : ℕ) :
    Serialized submissions initial (world.abort tx) where
  serial := hworld.serial
  wellFormed := hworld.wellFormed
  consistent := hworld.consistent
  closed := hworld.closed
  phases := phases_update hworld.phases (sameDefinitions_refl _) (.refl _) (fun _ _ => rfl) trivial

theorem Serialized.readRequest (hworld : Serialized submissions initial world) {tx : ℕ}
    (hread : world.db.request? (submissions tx).requestId = some request) :
    Serialized submissions initial (world.readRequest tx request) where
  serial := hworld.serial
  wellFormed := hworld.wellFormed
  consistent := hworld.consistent
  closed := hworld.closed
  phases := by
    refine phases_update hworld.phases (sameDefinitions_refl _) (.refl _) (fun _ _ => rfl) ?_
    obtain ⟨hmem, hid⟩ := hworld.wellFormed.request?_eq_some_iff.mp hread
    refine ⟨hid, ⟨request, hmem, .refl request⟩, fun stepId hstep => ?_⟩
    rcases hworld.wellFormed.conducted request hmem with ⟨decided, current, hactive⟩ | hfinished
    · exact ⟨hactive.status_eq, hactive.completedAt_eq⟩
    · rw [hfinished.currentStepId_eq] at hstep
      cases hstep

/-- A request read earlier with the step of an execution that is open now is still the
same: nothing but decisions changes it. -/
theorem currentItem_of_read (hdb : WellFormed db) {submission : Submission}
    {held : Option (Uuid × (WorkflowRequest × RequestStep))} {order : RowOrder RequestStep}
    (hphase : PhaseHolds submission db held (.requestRead request))
    (hread : openExecution order db submission.requestId request.currentStepId = some exec) :
    currentItem db submission.requestId = some (request, exec) := by
  obtain ⟨hid, ⟨row, hrow, hcarries⟩, hcurrent⟩ := hphase
  obtain ⟨hmem, haccepted⟩ := RowOrder.pick_some hread
  simp only [decide_eq_true_eq, Option.isNone_iff_eq_none] at haccepted
  obtain ⟨howner, hstep, hnone⟩ := haccepted
  have hrowId : row.id = submission.requestId := hcarries.id.trans hid
  obtain ⟨decided, hactive⟩ := active_of_open hdb hrow
    (mem_openExecutions.mpr ⟨hmem, howner.trans hrowId.symm, hnone⟩)
  obtain ⟨hstatus, hcompleted⟩ := hcurrent exec.stepId hstep.symm
  have hsame : row = request := by
    have hstatus' := hactive.status_eq.trans hstatus.symm
    have hstep' := hactive.currentStepId_eq.trans hstep
    have hcompleted' := hactive.completedAt_eq.trans hcompleted.symm
    obtain ⟨hrowId, hworkflow, hrequester, hcreated, hdata, -⟩ := hcarries
    cases row
    cases request
    simp_all only
  exact (currentItem_eq_some_iff hdb).mpr ⟨hsame ▸ hrow, hid, decided, hsame ▸ hactive⟩

theorem Serialized.readExecution (hworld : Serialized submissions initial world) {tx : ℕ}
    (hphase : world.phases tx = .requestRead request)
    (hread : openExecution (submissions tx).env.executionOrder world.db
      (submissions tx).requestId request.currentStepId = some exec) :
    Serialized submissions initial
      (world.readExecution tx (submissions tx).requestId request exec) where
  serial := hworld.serial
  wellFormed := hworld.wellFormed
  consistent := hworld.consistent.read
    (currentItem_of_read hworld.wellFormed (hphase ▸ hworld.phases tx) hread)
  closed := hworld.closed
  phases := by
    refine phases_update hworld.phases (sameDefinitions_refl _) (.refl _) (fun other hne => ?_) ?_
    · exact if_neg hne.symm
    · exact if_pos rfl

theorem Serialized.flush (hworld : Serialized submissions initial world) {tx : ℕ}
    {writes : List Write} (hphase : world.phases tx = .executionRead request exec)
    (hplan : plan (submissions tx).env world.db request exec (submissions tx).user
      (submissions tx).outcome (submissions tx).context = some writes) :
    Serialized submissions initial (world.flush tx request exec writes) where
  serial := hworld.serial
  wellFormed := hworld.wellFormed
  consistent := hworld.consistent
  closed := hworld.closed
  phases := by
    refine phases_update hworld.phases (sameDefinitions_refl _) (.refl _)
      (fun _ _ => rfl) ⟨?_, hplan⟩
    have hheld := hworld.phases tx
    rwa [hphase] at hheld

/-- A commit that was not overtaken is the decision as a call of its own. -/
theorem Serialized.commit (hworld : Serialized submissions initial world) {tx : ℕ}
    {writes : List Write} (hphase : world.phases tx = .flushed request exec writes)
    (hup : (submissions tx).env.dbFails 2 = false)
    (happly : Store.applyAll writes world.db = some db)
    (hfirst : Event.overtaken tx (submissions tx).requestId world.log = false) :
    Serialized submissions initial
      (world.commit tx (submissions tx).requestId request exec db) := by
  have hdb := hworld.wellFormed
  obtain ⟨hheld, hplan⟩ : PhaseHolds (submissions tx) world.db (Event.held tx world.log)
    (.flushed request exec writes) := hphase ▸ hworld.phases tx
  have hcurrent := hworld.consistent.pending _ _ _ hheld hfirst
  have hdecided := decided_of_currentItem hdb hcurrent hplan hup happly
  have hperform : (submissions tx).call.perform world.db = db := by
    rw [Submission.call, perform_processStep, hdecided, Option.getD_some]
  have hcontinues : Continues world.db db := hperform ▸ continues_perform hdb _
  have hafter : WellFormed db := wellFormed_decided hdb hdecided
  obtain ⟨hmem, hid, decided, hactive⟩ := (currentItem_eq_some_iff hdb).mp hcurrent
  obtain ⟨status, haccepted, hrouted⟩ :=
    accepted_of_active hdb hmem hactive (hid.symm ▸ hdecided)
  obtain ⟨hexec, howner, -⟩ :=
    hdb.active_of_openExecution haccepted.request_read haccepted.execution_open
  obtain ⟨⟨before, hbefore, hbeforeId, hopen⟩, hclosed, hothers⟩ :=
    closesOnly_routed hdb haccepted hrouted
  have hkept : ∀ id ∈ Event.decisions executionId world.log,
      ∃ exec ∈ db.requestSteps, exec.id = id ∧ exec.completedAt.isSome = true := by
    intro id hdecision
    obtain ⟨row, hrow, rfl, hsome⟩ := hworld.closed id hdecision
    refine ⟨row, hothers row hrow fun heq => ?_, rfl, hsome⟩
    rw [Keyed.ext hdb.execution_keys hrow hbefore (heq.trans hbeforeId.symm), hopen] at hsome
    cases hsome
  -- what is current after the commit is open, so its identity is none that is closed
  have hnotClosed : ∀ other next, currentItem db other = some next → ∀ row ∈ db.requestSteps,
      row.completedAt.isSome = true → executionId next ≠ row.id := by
    rintro other ⟨nextRequest, next⟩ hnext row hrow hsome heq
    obtain ⟨hnextMem, hnone⟩ := open_of_currentItem hafter hnext
    rw [← Keyed.ext hafter.execution_keys hnextMem hrow heq, hnone] at hsome
    cases hsome
  exact {
    serial := by
      rw [World.commit, serialOrder, runCalls, SerialRun.after_concat, ← runCalls, ← hworld.serial,
        hperform]
    wellFormed := hafter
    consistent := by
      refine hworld.consistent.decided hheld hfirst (fun other hne => ?_)
        (fun next hnext hdecision => ?_) fun other next hnext => ?_
      · exact currentItem_routed_of_ne hdb hexec howner (hid ▸ hne) hrouted
      · obtain ⟨row, hrow, hrowId, hsome⟩ := hkept _ hdecision
        exact hnotClosed _ next hnext row hrow hsome hrowId.symm
      · obtain ⟨row, hrow, hrowId, hsome⟩ := hclosed
        exact fun heq => hnotClosed other next hnext row hrow hsome (heq.trans hrowId.symm)
    closed := by
      intro id hdecision
      rcases List.mem_cons.mp hdecision with rfl | hold
      · exact hclosed
      · exact hkept id hold
    phases := phases_update hworld.phases (sameDefinitions_routed hrouted) hcontinues
      (fun other hne => if_neg hne.symm) trivial }

/-! ## Schedules -/

/-- Every execution is decided at most once, and every request is at its one open
execution or completed. -/
def DecidedOnce (world : World) : Prop :=
  (Event.decisions executionId world.log).Nodup ∧
    ∀ request ∈ world.db.workflowRequests,
      InProgressShape world.db request ∨ CompletedShape world.db request

/-- Undisturbed schedules keep the invariant; the others have decided an execution twice. -/
def Settles (submissions : ℕ → Submission) (initial : Database) (world : World) : Prop :=
  (Event.Undisturbed world.log ∧ Serialized submissions initial world) ∨
    (¬Event.Undisturbed world.log ∧ ¬(Event.decisions executionId world.log).Nodup)

theorem settles_act (hworld : Settles submissions initial world) (action : Action) :
    Settles submissions initial (act submissions world action) := by
  have hacts := acts_act submissions world action
  generalize act submissions world action = after at hacts ⊢
  rcases hworld with ⟨hundisturbed, hserialized⟩ | ⟨hdisturbed, htwice⟩
  · cases hacts with
    | stays => exact .inl ⟨hundisturbed, hserialized⟩
    | aborts tx => exact .inl ⟨hundisturbed, hserialized.abort tx⟩
    | readsRequest tx request hread => exact .inl ⟨hundisturbed, hserialized.readRequest hread⟩
    | readsExecution tx request exec hphase hread =>
        exact .inl ⟨hundisturbed, hserialized.readExecution hphase hread⟩
    | flushes tx request exec writes hphase hplan =>
        exact .inl ⟨hundisturbed, hserialized.flush hphase hplan⟩
    | commits tx request exec writes db hphase hup happly =>
        cases hfirst : Event.overtaken tx (submissions tx).requestId world.log with
        | false =>
            exact .inl ⟨⟨hfirst, hundisturbed⟩, hserialized.commit hphase hup happly hfirst⟩
        | true =>
            obtain ⟨hheld, -⟩ : PhaseHolds (submissions tx) world.db (Event.held tx world.log)
              (.flushed request exec writes) := hphase ▸ hserialized.phases tx
            refine .inr ⟨fun hlog => ?_, hserialized.consistent.decided_twice hheld hfirst⟩
            rw [hlog.1] at hfirst
            cases hfirst
  · refine .inr ?_
    cases hacts with
    | stays | aborts _ | readsRequest _ _ _ | readsExecution _ _ _ _ _ | flushes _ _ _ _ _ _ =>
        exact ⟨hdisturbed, htwice⟩
    | commits tx request exec writes db hphase hup happly =>
        exact ⟨fun hlog => hdisturbed hlog.2, fun honce => htwice (List.nodup_cons.mp honce).2⟩

theorem settles_interleave (submissions : ℕ → Submission) (hdb : WellFormed initial)
    (schedule : List Action) :
    Settles submissions initial (interleave submissions initial schedule) :=
  SerialRun.invariant (Settles submissions initial)
    (fun _ action hworld => settles_act hworld action) schedule
    (.inl ⟨trivial, serialized_start hdb⟩)

/-- Concurrent decisions decide no execution twice, and leave every request at its one
open execution or completed, in exactly those schedules in which no transaction
commits that another one on its request overtook. -/
theorem no_double_decision_iff (calls : List Call) (submissions : ℕ → Submission)
    (schedule : List Action) :
    DecidedOnce (interleave submissions (runCalls Database.empty calls) schedule) ↔
      Event.Undisturbed (interleave submissions (runCalls Database.empty calls) schedule).log := by
  rcases settles_interleave submissions (wellFormed_runCalls wellFormed_empty calls)
    schedule with ⟨hundisturbed, hserialized⟩ | ⟨hdisturbed, htwice⟩
  · refine ⟨fun _ => hundisturbed, fun _ =>
      ⟨hserialized.consistent.once, fun request hrequest => ?_⟩⟩
    exact shape_of_conducted hserialized.wellFormed
      (hserialized.wellFormed.conducted request hrequest)
  · exact ⟨fun honce => absurd honce.1 htwice, fun hundisturbed => absurd hundisturbed hdisturbed⟩

/-- An undisturbed schedule leaves the state the committed decisions leave one after the
other, in the order of their commits. -/
theorem interleave_serial (hdb : WellFormed initial) {schedule : List Action}
    (hundisturbed : Event.Undisturbed (interleave submissions initial schedule).log) :
    (interleave submissions initial schedule).db =
      runCalls initial (serialOrder submissions (interleave submissions initial schedule).log) := by
  rcases settles_interleave submissions hdb schedule with ⟨-, hserialized⟩ | ⟨hdisturbed, -⟩
  · exact hserialized.serial
  · exact absurd hundisturbed hdisturbed

/-! ### Two approvals -/

/-- Whoever asks approves the first review. -/
def approveFirst (_ : ℕ) : Submission := ⟨.calm Sample.noon, 5, Sample.admin, "APPROVED", none⟩

/-- Two transactions read the open execution before either of them commits. -/
def bothRead : List Action :=
  [.advance 0, .advance 0, .advance 1, .advance 1, .advance 0, .advance 0, .advance 1, .advance 1]

/-- Both of them decide the first review. -/
theorem double_decision :
    ¬∀ calls submissions requestId, (∀ tx, (submissions tx).requestId = requestId) →
      ∀ schedule,
        DecidedOnce (interleave submissions (runCalls Database.empty calls) schedule) := by
  intro honce
  have hnodup := (honce (Sample.opening Sample.approvals []) approveFirst 5 (fun _ => rfl)
    bothRead).1
  exact absurd hnodup (by decide +kernel)

end WorkflowPlatform
