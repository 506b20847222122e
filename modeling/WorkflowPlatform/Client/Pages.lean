import WorkflowPlatform.Client.Timeline
import WorkflowPlatform.Deciding.Vocabulary
import WorkflowPlatform.Service.Accountability

/-! # Work from the pages

Users who have nothing but the pages define workflows, start requests and see their tasks.
They never decide one: the task page posts actions that are no outcomes, and the request
page has no step to offer a decision on. However many pages are open, and however old what
they show is, every request stays at its first step.
-/

namespace WorkflowPlatform

open Python Endpoint RequestExecutionPage

/-! ## The pages -/

/-- The buttons of a task. -/
inductive TaskButton
  | approve
  | reject
  deriving DecidableEq

def TaskButton.action : TaskButton → String
  | approve => "approve"
  | reject => "reject"

/-- What `handleDecision` of the task page posts. -/
def TaskButton.payload (button : TaskButton) (comment : String) : Dict :=
  [("action", .str button.action), ("comment", .str comment)]

/-- What is chosen on the request page. -/
inductive ConsoleButton
  | approved
  | rejected
  deriving DecidableEq

def ConsoleButton.outcome : ConsoleButton → String
  | approved => "APPROVED"
  | rejected => "REJECTED"

/-- A task page of a user, with what it loaded. -/
structure TaskPage where
  user : User
  tasks : List TaskView

/-- A page of a request, with what it loaded. -/
structure RequestPage where
  user : User
  requestId : Uuid
  response : WorkflowRequestSchema

/-- The database, and the pages that are open. -/
structure Clients where
  db : Database
  taskPages : List TaskPage
  requestPages : List RequestPage

/-- A use of a page, on whatever it loaded at some time, or a scan. -/
inductive PageEvent
  | createWorkflow (env : Env) (payload : WorkflowCreate) (creatorId : Uuid)
  | deleteWorkflow (env : Env) (workflowId : Uuid)
  | startWorkflow (env : Env) (workflowId requesterId : Uuid) (data : Dict)
  | openTasks (order : RowOrder RequestStep) (user : User)
  | handleDecision (env : Env) (page position : ℕ) (button : TaskButton) (comment : String)
  | openRequest (updatedAt : Uuid → DateTime) (user : User) (requestId : Uuid)
  | handleProcess (env : Env) (updatedAt : Uuid → DateTime) (page : ℕ) (choice : ConsoleButton)
      (note : String)
  | scanForBreaches (env : Env)

namespace Clients

/-- The clients after a call that no page keeps the answer of. -/
def call (clients : Clients) (call : Call) : Clients :=
  { clients with db := call.perform clients.db }

/-- `handleDecision`: a task whose decision is accepted is dropped from its page. -/
def handleDecision (clients : Clients) (env : Env) (page position : ℕ) (button : TaskButton)
    (comment : String) : Clients :=
  match clients.taskPages[page]? with
  | none => clients
  | some opened =>
      match opened.tasks[position]? with
      | none => clients
      | some task =>
          let post := Call.makeDecision env task.requestId opened.user (button.payload comment)
          let tasks := opened.tasks.filter (·.requestStepId ≠ task.requestStepId)
          { db := post.perform clients.db
            taskPages := if post.accepted clients.db then
                clients.taskPages.set page ⟨opened.user, tasks⟩
              else clients.taskPages
            requestPages := clients.requestPages }

/-- `handleProcess`, where the form is shown; the page is loaded again after an accepted
decision. -/
def handleProcess (clients : Clients) (env : Env) (updatedAt : Uuid → DateTime) (page : ℕ)
    (choice : ConsoleButton) (note : String) : Clients :=
  match clients.requestPages[page]? with
  | none => clients
  | some opened =>
      match currentStep opened.response with
      | none => clients
      | some _ =>
          let post := Call.processStep env opened.requestId opened.user choice.outcome
            (some [("note", .str note)])
          let db := post.perform clients.db
          let response := RequestView.readRequest updatedAt db opened.requestId
          { db := db
            taskPages := clients.taskPages
            requestPages := match post.accepted clients.db, response with
              | true, .ok response =>
                  clients.requestPages.set page ⟨opened.user, opened.requestId, response⟩
              | _, _ => clients.requestPages }

def use (clients : Clients) : PageEvent → Clients
  | .createWorkflow env payload creatorId => clients.call (.createWorkflow env payload creatorId)
  | .deleteWorkflow env workflowId => clients.call (.deleteWorkflow env workflowId)
  | .startWorkflow env workflowId requesterId data =>
      clients.call (.startWorkflow env workflowId requesterId data)
  | .scanForBreaches env => clients.call (.scanForBreaches env)
  | .openTasks order user =>
      { clients with
        taskPages := clients.taskPages ++ [⟨user, getMyTasks order clients.db user⟩] }
  | .openRequest updatedAt user requestId =>
      match RequestView.readRequest updatedAt clients.db requestId with
      | .error _ => clients
      | .ok response =>
          { clients with
            requestPages := clients.requestPages ++ [⟨user, requestId, response⟩] }
  | .handleDecision env page position button comment =>
      clients.handleDecision env page position button comment
  | .handleProcess env updatedAt page choice note =>
      clients.handleProcess env updatedAt page choice note

end Clients

/-- No data, and no page open. -/
def Clients.none : Clients := ⟨Database.empty, [], []⟩

/-- The clients after pages are used one after the other. -/
abbrev usePages (clients : Clients) (events : List PageEvent) : Clients :=
  SerialRun.after Clients.use clients events

/-! ## What a use of a page can do -/

variable {clients : Clients} {db : Database}

/-- Nothing is decided, and no page shows a step. -/
structure Idle (clients : Clients) : Prop where
  reachable : Reachable clients.db
  undecided : ∀ exec ∈ clients.db.requestSteps, exec.completedAt = Option.none
  blank : ∀ page ∈ clients.requestPages, page.response.steps = []

theorem idle_none : Idle .none where
  reachable := ⟨[], rfl⟩
  undecided _ hexec := absurd hexec List.not_mem_nil
  blank _ hpage := absurd hpage List.not_mem_nil

/-- A call that submits no decision decides nothing. -/
theorem undecided_perform (hdb : WellFormed db)
    (hundecided : ∀ exec ∈ db.requestSteps, exec.completedAt = none) {call : Call}
    (hsubmits : ∀ requestId user, ¬Submits requestId user call) :
    ∀ exec ∈ (call.perform db).requestSteps, exec.completedAt = none := by
  intro exec hexec
  by_contra hdecided
  cases decides_perform hdb call exec hexec (Option.isSome_iff_ne_none.mpr hdecided) with
  | before earlier hearlier hcompleted =>
      rw [hundecided earlier hearlier] at hcompleted
      cases hcompleted
  | now user requestId hnow => exact hsubmits requestId user hnow

theorem idle_call (hidle : Idle clients) {call : Call}
    (hsubmits : ∀ requestId user, ¬Submits requestId user call) : Idle (clients.call call) where
  reachable := hidle.reachable.runCalls [call]
  undecided := undecided_perform hidle.reachable.wellFormed hidle.undecided hsubmits
  blank := hidle.blank

/-- The buttons of the task page change no data. -/
theorem perform_button (env : Env) (requestId : Uuid) (user : User) (button : TaskButton)
    (comment : String) :
    (Call.makeDecision env requestId user (button.payload comment)).perform db = db := by
  cases button with
  | approve =>
      exact perform_verb (show ("APPROVE", "APPROVED") ∈ verbs by decide) rfl
        (show upper "approve" = "APPROVE" by decide)
  | reject =>
      exact perform_verb (show ("REJECT", "REJECTED") ∈ verbs by decide) rfl
        (show upper "reject" = "REJECT" by decide)

/-- A page that shows no step submits nothing. -/
theorem handleProcess_of_blank (hidle : Idle clients) (env : Env) (updatedAt : Uuid → DateTime)
    (page : ℕ) (choice : ConsoleButton) (note : String) :
    clients.handleProcess env updatedAt page choice note = clients := by
  unfold Clients.handleProcess
  cases hopened : clients.requestPages[page]? with
  | none => rfl
  | some opened =>
      have hblank := hidle.blank opened (List.mem_of_getElem? hopened)
      simp only [currentStep, hblank, List.find?_nil]

theorem steps_of_readRequest (hreachable : Reachable db) {updatedAt : Uuid → DateTime}
    {requestId : Uuid} {response : WorkflowRequestSchema}
    (hread : RequestView.readRequest updatedAt db requestId = .ok response) :
    response.steps = [] := by
  unfold RequestView.readRequest at hread
  cases hrequest : db.request? requestId with
  | none =>
      rw [hrequest] at hread
      cases hread
  | some request =>
      obtain ⟨hmem, rfl⟩ := hreachable.wellFormed.request?_eq_some_iff.mp hrequest
      obtain ⟨other, hother, hsteps⟩ := readRequest_eq_ok hreachable hmem updatedAt
      rw [RequestView.readRequest, hrequest] at hother
      rw [hrequest] at hread
      obtain rfl := Except.ok.inj (hread.symm.trans hother)
      exact hsteps

theorem idle_use (hidle : Idle clients) (event : PageEvent) : Idle (clients.use event) := by
  cases event with
  | createWorkflow env payload creatorId =>
      apply idle_call hidle
      intro requestId user hsubmits
      cases hsubmits
  | deleteWorkflow env workflowId =>
      apply idle_call hidle
      intro requestId user hsubmits
      cases hsubmits
  | startWorkflow env workflowId requesterId data =>
      apply idle_call hidle
      intro requestId user hsubmits
      cases hsubmits
  | scanForBreaches env =>
      apply idle_call hidle
      intro requestId user hsubmits
      cases hsubmits
  | openTasks order user => exact ⟨hidle.reachable, hidle.undecided, hidle.blank⟩
  | openRequest updatedAt user requestId =>
      simp only [Clients.use]
      split
      · exact hidle
      · next response hread =>
        refine ⟨hidle.reachable, hidle.undecided, ?_⟩
        intro page hpage
        rcases List.mem_append.mp hpage with hold | hnew
        · exact hidle.blank page hold
        · rw [List.mem_singleton.mp hnew]
          exact steps_of_readRequest hidle.reachable hread
  | handleDecision env page position button comment =>
      simp only [Clients.use, Clients.handleDecision]
      split
      · exact hidle
      · split
        · exact hidle
        · simp only [perform_button]
          exact ⟨hidle.reachable, hidle.undecided, hidle.blank⟩
  | handleProcess env updatedAt page choice note =>
      simp only [Clients.use, handleProcess_of_blank hidle]
      exact hidle

/-! ## Runs -/

/-- Over any use of the pages, by anyone and however stale what they show is: the engine is
in a reachable state, nothing is ever decided, and every request is in progress at its
first step, with this one execution. -/
theorem pages_decide_nothing (events : List PageEvent) :
    let db := (usePages .none events).db
    Reachable db ∧ (∀ exec ∈ db.requestSteps, exec.completedAt = none) ∧
      ∀ request ∈ db.workflowRequests, request.status = .inProgress ∧
        ∃ exec, db.executions request.id = [exec] ∧ request.currentStepId = some exec.stepId := by
  intro db
  have hidle : Idle (usePages .none events) :=
    SerialRun.invariant Idle (fun _ event hidle => idle_use hidle event) events idle_none
  refine ⟨hidle.reachable, hidle.undecided, ?_⟩
  intro request hrequest
  rcases hidle.reachable.wellFormed.conducted request hrequest with
    ⟨decided, current, hactive⟩ | hfinished
  · refine ⟨hactive.status_eq, current, ?_, hactive.currentStepId_eq⟩
    have hnone : decided = [] := by
      apply List.eq_nil_iff_forall_not_mem.mpr
      intro exec hexec
      have hmem : exec ∈ db.executions request.id := by
        rw [hactive.executions_eq]
        exact List.mem_append_left _ hexec
      have hclosed := hactive.decided_closed exec hexec
      rw [hidle.undecided exec (WellFormed.mem_executions.mp hmem).1] at hclosed
      cases hclosed
    rw [hactive.executions_eq, hnone, List.nil_append]
  · obtain ⟨exec, hexec⟩ := List.exists_mem_of_ne_nil _
      (hidle.reachable.wellFormed.executions_ne_nil hrequest)
    have hclosed := hfinished.executions_closed exec hexec
    rw [hidle.undecided exec (WellFormed.mem_executions.mp hexec).1] at hclosed
    cases hclosed

end WorkflowPlatform
