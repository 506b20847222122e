import WorkflowPlatform.Concurrency.Transactions

/-! # Overlapping scans

The scheduler starts a scan every five minutes, whether or not the last one is done.
A scan reads the overdue executions once, then escalates them one by one: it flushes
the writes of each, which lock the execution, and hands its alert to the broker. Its
marks are seen by others only after its commit. Scans and decisions run interleaved,
each in a transaction of its own under READ COMMITTED.
-/

namespace WorkflowPlatform

open Python Tx SLAMonitor

/-- What a transaction is for. -/
inductive Job
  | decide (submission : Submission)
  | scan (env : Env)

/-- How far a scan has come. At work it knows how many executions it found, the
position of the next one, how many it has escalated, the writes it has flushed since
its last rollback, and the executions still to do. -/
inductive ScanPhase
  | begun
  | working (found position breachCount : ℕ) (written : List Write) (rest : List RequestStep)
  | ended

/-- The committed state with the decisions and all locks, the scans by number, and the
alerts handed to the broker with the executions they are about. -/
structure Workers where
  world : World
  scans : ℕ → ScanPhase
  alerts : List (Uuid × Task)

namespace Workers

def start (db : Database) : Workers := ⟨World.start db, fun _ => .begun, []⟩

variable (workers : Workers) (tx : ℕ)

def readOverdue (overdue : List RequestStep) : Workers :=
  { workers with
    scans := Function.update workers.scans tx (.working overdue.length 0 0 [] overdue) }

/-- Another transaction holds the lock on an execution. -/
def waits (exec : RequestStep) : Bool :=
  workers.world.locks.any fun lock => lock.1 ≠ tx ∧ lock.2 = .requestStep exec.id

def unlocked : World :=
  { workers.world with locks := workers.world.locks.filter (·.1 ≠ tx) }

/-- One escalation is through. A rollback has taken the flushed writes with it, and
the locks; the alerts that were sent stay sent. -/
def escalate (phase : ScanPhase) (exec : RequestStep)
    (session : Session Database Write Task) : Workers where
  world :=
    if session.written = [] then workers.unlocked tx
    else { workers.world with locks := workers.world.locks ++ [(tx, .requestStep exec.id)] }
  scans := Function.update workers.scans tx phase
  alerts := workers.alerts ++ session.enqueued.map fun task => (exec.id, task)

def commit (db : Database) : Workers :=
  { workers with
    world := { workers.unlocked tx with db := db }
    scans := Function.update workers.scans tx .ended }

/-- The scan ends without a commit. -/
def close : Workers :=
  { workers with
    world := workers.unlocked tx
    scans := Function.update workers.scans tx .ended }

end Workers

/-! ## Schedules -/

/-- The next pass of the loop, over the state as it is committed now with the scan's
own writes on top. -/
def escalateNext (env : Env) (workers : Workers) (tx found position breachCount : ℕ)
    (written : List Write) (exec : RequestStep) (rest : List RequestStep) : Workers :=
  match Store.applyAll written workers.world.db with
  | none => workers.close tx
  | some flushed =>
      match (attempt (escalateStep env position exec)).run
          ⟨workers.world.db, flushed, written, [], []⟩ with
      | (.ok (some ()), session) =>
          workers.escalate tx (.working found (position + 1) (breachCount + 1) session.written rest)
            exec session
      | (_, session) =>
          workers.escalate tx (.working found (position + 1) breachCount session.written rest)
            exec session

/-- The next part of `scan_for_breaches` in one transaction. -/
def advanceScan (env : Env) (workers : Workers) (tx : ℕ) : Workers :=
  match workers.scans tx with
  | .begun => workers.readOverdue tx (overdueSteps env workers.world.db)
  | .working found position breachCount written (exec :: rest) =>
      if workers.waits tx exec then workers
      else escalateNext env workers tx found position breachCount written exec rest
  | .working found _ breachCount written [] =>
      if 0 < breachCount then
        match if env.dbFails found then none else Store.applyAll written workers.world.db with
        | some db => workers.commit tx db
        | none => workers.close tx
      else workers.close tx
  | .ended => workers

/-- Surroundings in which the database refuses whatever is sent to it. -/
def Env.refusing (env : Env) : Env := { env with dbFails := fun _ => true }

/-- The database refuses the flush a scan is at or waits with, as it does to resolve a
deadlock. -/
def refuseScan (env : Env) (workers : Workers) (tx : ℕ) : Workers :=
  match workers.scans tx with
  | .working found position breachCount written (exec :: rest) =>
      escalateNext env.refusing workers tx found position breachCount written exec rest
  | _ => workers

/-- A transaction goes on, has its flush refused, or is given up. -/
inductive Move
  | advance (tx : ℕ)
  | refuse (tx : ℕ)
  | abort (tx : ℕ)

/-- A decision given up is rolled back, and so is a scan whose worker dies. -/
def move (jobs : ℕ → Job) (workers : Workers) : Move → Workers
  | .advance tx =>
      match jobs tx with
      | .decide submission =>
          { workers with world := advance (fun _ => submission) workers.world tx }
      | .scan env => advanceScan env workers tx
  | .refuse tx =>
      match jobs tx with
      | .decide _ => workers
      | .scan env => refuseScan env workers tx
  | .abort tx =>
      match jobs tx with
      | .decide submission =>
          { workers with world := act (fun _ => submission) workers.world (.abort tx) }
      | .scan _ => workers.close tx

/-- The workers after a schedule. -/
abbrev runWorkers (jobs : ℕ → Job) (db : Database) (schedule : List Move) : Workers :=
  SerialRun.after (move jobs) (Workers.start db) schedule

end WorkflowPlatform
