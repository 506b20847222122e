import WorkflowPlatform.Foundation.Interleaving
import WorkflowPlatform.Deciding.Target

/-! # Concurrent decisions

Several decisions run at once, each in a transaction of its own under READ
COMMITTED. A read sees what is committed when it is made. The updates of a flush
lock their rows, so a second flush on one of them waits for the end of the first
transaction; it then updates the row by its primary key, whatever has become of it.
So what a transaction writes takes effect at its commit, on the state it finds there.
-/

namespace WorkflowPlatform

open Python Tx WorkflowEngine

/-- A decision a client posts. -/
structure Submission where
  env : Env
  requestId : Uuid
  user : User
  outcome : String
  context : Option Dict

/-- The decision as a call of its own. -/
def Submission.call (submission : Submission) : Call :=
  .processStep submission.env submission.requestId submission.user submission.outcome
    submission.context

/-! ## Row locks -/

inductive LockedRow
  | workflowRequest (id : Uuid)
  | requestStep (id : Uuid)
  deriving DecidableEq

/-- The row that a write of a decision locks. An update without a changed column is
not sent. -/
def Write.lockedRow? : Write → Option LockedRow
  | .updateWorkflowRequest _ ⟨none, none, none⟩ => none
  | .updateWorkflowRequest id _ => some (.workflowRequest id)
  | .closeRequestStep id _ => some (.requestStep id)
  | _ => none

/-! ## Transactions -/

/-- How far a transaction has come, and what it has read and flushed. -/
inductive Phase
  | begun
  | requestRead (request : WorkflowRequest)
  | executionRead (request : WorkflowRequest) (currentExec : RequestStep)
  | flushed (request : WorkflowRequest) (currentExec : RequestStep) (writes : List Write)
  | committed
  | aborted

/-- The committed state, the transactions by number, the locks they hold, and who
has read or decided which execution, newest first. -/
structure World where
  db : Database
  phases : ℕ → Phase
  locks : List (ℕ × LockedRow)
  log : List (Event ℕ Uuid (WorkflowRequest × RequestStep))

namespace World

def start (db : Database) : World := ⟨db, fun _ => .begun, [], []⟩

variable (world : World) (tx : ℕ)

def readRequest (request : WorkflowRequest) : World :=
  { world with phases := Function.update world.phases tx (.requestRead request) }

def readExecution (requestId : Uuid) (request : WorkflowRequest) (currentExec : RequestStep) :
    World :=
  { world with
    phases := Function.update world.phases tx (.executionRead request currentExec)
    log := .read tx requestId (request, currentExec) :: world.log }

/-- Another transaction holds a lock on a row to be updated. -/
def waits (writes : List Write) : Bool :=
  world.locks.any fun lock => lock.1 ≠ tx ∧ lock.2 ∈ writes.filterMap (·.lockedRow?)

def flush (request : WorkflowRequest) (currentExec : RequestStep) (writes : List Write) : World :=
  { world with
    phases := Function.update world.phases tx (.flushed request currentExec writes)
    locks := world.locks ++ (writes.filterMap (·.lockedRow?)).map (tx, ·) }

def commit (requestId : Uuid) (request : WorkflowRequest) (currentExec : RequestStep)
    (db : Database) : World where
  db := db
  phases := Function.update world.phases tx .committed
  locks := world.locks.filter (·.1 ≠ tx)
  log := .decided tx requestId (request, currentExec) :: world.log

def abort : World :=
  { world with
    phases := Function.update world.phases tx .aborted
    locks := world.locks.filter (·.1 ≠ tx) }

end World

/-! ## Schedules -/

/-- A transaction goes on, or the database gives it up, as it may at any time. -/
inductive Action
  | advance (tx : ℕ)
  | abort (tx : ℕ)

/-- The next part of `process_step`, or of the commit that follows it, in one
transaction. -/
def advance (submissions : ℕ → Submission) (world : World) (tx : ℕ) : World :=
  let ⟨env, requestId, user, outcome, context⟩ := submissions tx
  match world.phases tx with
  | .begun =>
      match (readRequest requestId).run (Session.begin world.db) with
      | (.ok request, _) => world.readRequest tx request
      | (.error _, _) => world.abort tx
  | .requestRead request =>
      match (readOpenExecution env requestId request).run (Session.begin world.db) with
      | (.ok currentExec, _) => world.readExecution tx requestId request currentExec
      | (.error _, _) => world.abort tx
  | .executionRead request currentExec =>
      match (closeAndRoute env request currentExec user outcome context).run
          (Session.begin world.db) with
      | (.ok _, session) =>
          let writes := session.written ++ session.pending
          if world.waits tx writes then world else world.flush tx request currentExec writes
      | (.error _, _) => world.abort tx
  | .flushed request currentExec writes =>
      match if env.dbFails 2 then none else Store.applyAll writes world.db with
      | some db => world.commit tx requestId request currentExec db
      | none => world.abort tx
  | .committed | .aborted => world

def act (submissions : ℕ → Submission) (world : World) : Action → World
  | .advance tx => advance submissions world tx
  | .abort tx =>
      match world.phases tx with
      | .committed => world
      | _ => world.abort tx

/-- The world after a schedule. -/
abbrev interleave (submissions : ℕ → Submission) (db : Database) (schedule : List Action) : World :=
  SerialRun.after (act submissions) (World.start db) schedule

/-! ## What an action does -/

/-- The possible effects of an action. -/
inductive Acts (submissions : ℕ → Submission) (world : World) : World → Prop
  | stays : Acts submissions world world
  | aborts (tx : ℕ) : Acts submissions world (world.abort tx)
  | readsRequest (tx : ℕ) (request : WorkflowRequest)
      (hread : world.db.request? (submissions tx).requestId = some request) :
      Acts submissions world (world.readRequest tx request)
  | readsExecution (tx : ℕ) (request : WorkflowRequest) (exec : RequestStep)
      (hphase : world.phases tx = .requestRead request)
      (hread : openExecution (submissions tx).env.executionOrder world.db
        (submissions tx).requestId request.currentStepId = some exec) :
      Acts submissions world (world.readExecution tx (submissions tx).requestId request exec)
  | flushes (tx : ℕ) (request : WorkflowRequest) (exec : RequestStep) (writes : List Write)
      (hphase : world.phases tx = .executionRead request exec)
      (hplan : plan (submissions tx).env world.db request exec (submissions tx).user
        (submissions tx).outcome (submissions tx).context = some writes) :
      Acts submissions world (world.flush tx request exec writes)
  | commits (tx : ℕ) (request : WorkflowRequest) (exec : RequestStep) (writes : List Write)
      (db : Database) (hphase : world.phases tx = .flushed request exec writes)
      (hup : (submissions tx).env.dbFails 2 = false)
      (happly : Store.applyAll writes world.db = some db) :
      Acts submissions world (world.commit tx (submissions tx).requestId request exec db)

theorem acts_advance (submissions : ℕ → Submission) (world : World) (tx : ℕ) :
    Acts submissions world (advance submissions world tx) := by
  unfold advance
  cases hphase : world.phases tx with
  | begun =>
      cases hrequest : world.db.request? (submissions tx).requestId with
      | none =>
          simp only [readRequest, Session.begin, run_query_bind, hrequest]
          exact .aborts tx
      | some request =>
          simp only [readRequest, Session.begin, run_query_bind, hrequest]
          exact .readsRequest tx request hrequest
  | requestRead request =>
      cases hexec : openExecution (submissions tx).env.executionOrder world.db
          (submissions tx).requestId request.currentStepId with
      | none =>
          simp only [readOpenExecution, Session.begin, run_query_bind, hexec]
          exact .aborts tx
      | some exec =>
          simp only [readOpenExecution, Session.begin, run_query_bind, hexec]
          exact .readsExecution tx request exec hphase hexec
  | executionRead request exec =>
      cases hwritten : (plan (submissions tx).env world.db request exec (submissions tx).user
          (submissions tx).outcome (submissions tx).context).bind (Store.applyAll · world.db) with
      | none =>
          obtain ⟨error, session, hrun⟩ := run_closeAndRoute_of_none hwritten
          simp only [hrun]
          exact .aborts tx
      | some db =>
          obtain ⟨writes, hplan, happly⟩ := Option.bind_eq_some_iff.mp hwritten
          obtain ⟨value, tasks, hrun⟩ := run_closeAndRoute_of_some hplan happly
          simp only [hrun, List.append_nil]
          split
          · exact .stays
          · exact .flushes tx request exec writes hphase hplan
  | flushed request exec writes =>
      cases hup : (submissions tx).env.dbFails 2 with
      | true =>
          simp only [hup, if_true]
          exact .aborts tx
      | false =>
          cases happly : Store.applyAll writes world.db with
          | none =>
              simp only [hup, Bool.false_eq_true, if_false, happly]
              exact .aborts tx
          | some db =>
              simp only [hup, Bool.false_eq_true, if_false, happly]
              exact .commits tx request exec writes db hphase hup happly
  | committed | aborted => exact .stays

/-- No action does anything else. -/
theorem acts_act (submissions : ℕ → Submission) (world : World) (action : Action) :
    Acts submissions world (act submissions world action) := by
  cases action with
  | advance tx => exact acts_advance submissions world tx
  | abort tx =>
      simp only [act]
      split
      · exact .stays
      · exact .aborts tx

end WorkflowPlatform
