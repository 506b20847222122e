import Mathlib.Data.Option.Basic
import Mathlib.Tactic.Common

/-! # Units of work

A session over a database collects writes and hands them to the database on a
flush. Queries see the flushed writes, not the pending ones. A rollback forgets
everything since the last commit; a raised exception does not undo anything by
itself, and messages already sent to a broker stay sent.

The database is given by the effect of one write on its state, `none` when it
refuses the write.
-/

universe uState uWrite uTask uError uValue

/-- The effect of one write on the state of a database; `none` when it is refused. -/
class Store (State : Type uState) (Write : Type uWrite) where
  apply : Write → State → Option State

namespace Store

variable {State : Type uState} {Write : Type uWrite} [Store State Write]

/-- Apply writes in order; the batch is refused when one of them is. -/
def applyAll : List Write → State → Option State
  | [], state => some state
  | write :: rest, state => (apply write state).bind (applyAll rest)

@[simp] theorem applyAll_nil (state : State) : applyAll ([] : List Write) state = some state := rfl

theorem applyAll_cons (write : Write) (rest : List Write) (state : State) :
    applyAll (write :: rest) state = (apply write state).bind (applyAll rest) := rfl

theorem applyAll_append (first second : List Write) (state : State) :
    applyAll (first ++ second) state = (applyAll first state).bind (applyAll second) := by
  induction first generalizing state with
  | nil => rfl
  | cons write rest ih =>
      simp only [List.cons_append, applyAll_cons, Option.bind_assoc, ih]

end Store

/-- A session: the committed state, the state its queries see, the writes
flushed since the last commit, the writes not flushed yet, and the messages sent. -/
structure Session (State : Type uState) (Write : Type uWrite) (Task : Type uTask) where
  committed : State
  flushed : State
  written : List Write
  pending : List Write
  enqueued : List Task

namespace Session

variable {State : Type uState} {Write : Type uWrite} {Task : Type uTask}

/-- A new session on a committed state. -/
def begin (state : State) : Session State Write Task := ⟨state, state, [], [], []⟩

def rolledBack (session : Session State Write Task) : Session State Write Task :=
  { session with flushed := session.committed, written := [], pending := [] }

end Session

/-- A program over a session that returns a value or raises. -/
structure Tx (State : Type uState) (Write : Type uWrite) (Task : Type uTask) (Error : Type uError)
    (Value : Type uValue) where
  run : Session State Write Task → Except Error Value × Session State Write Task

namespace Tx

variable {State Write Task Error Value Other : Type}

protected def pure (value : Value) : Tx State Write Task Error Value :=
  ⟨fun session => (.ok value, session)⟩

protected def bind (first : Tx State Write Task Error Value)
    (next : Value → Tx State Write Task Error Other) : Tx State Write Task Error Other :=
  ⟨fun session =>
    match first.run session with
    | (.ok value, session) => (next value).run session
    | (.error error, session) => (.error error, session)⟩

instance : Monad (Tx State Write Task Error) where
  pure := Tx.pure
  bind := Tx.bind

/-! ## The session's operations -/

def raise (error : Error) : Tx State Write Task Error Value :=
  ⟨fun session => (.error error, session)⟩

/-- Return a value or raise in its absence. -/
def orRaise (value : Option Value) (error : Error) : Tx State Write Task Error Value :=
  ⟨fun session =>
    match value with
    | some value => (.ok value, session)
    | none => (.error error, session)⟩

/-- Read the flushed state. -/
def query (read : State → Value) : Tx State Write Task Error Value :=
  ⟨fun session => (.ok (read session.flushed), session)⟩

def add (write : Write) : Tx State Write Task Error Unit :=
  ⟨fun session => (.ok (), { session with pending := session.pending ++ [write] })⟩

/-- Send a message; the broker may be out of reach. -/
def enqueue (fails : Bool) (unreachable : Error) (task : Task) : Tx State Write Task Error Unit :=
  ⟨fun session =>
    if fails then (.error unreachable, session)
    else (.ok (), { session with enqueued := session.enqueued ++ [task] })⟩

def rollback : Tx State Write Task Error Unit := ⟨fun session => (.ok (), session.rolledBack)⟩

/-- `try: program; except: swallow`. The value is `none` when the program raised. -/
def attempt (program : Tx State Write Task Error Value) :
    Tx State Write Task Error (Option Value) :=
  ⟨fun session =>
    match program.run session with
    | (.ok value, session) => (.ok (some value), session)
    | (.error _, session) => (.ok none, session)⟩

/-- `try: program; except: handler; raise`. -/
def onError (program : Tx State Write Task Error Value) (handler : Tx State Write Task Error Unit) :
    Tx State Write Task Error Value :=
  ⟨fun session =>
    match program.run session with
    | (.ok value, session) => (.ok value, session)
    | (.error error, session) => (.error error, (handler.run session).2)⟩

section Writing

variable [Store State Write]

/-- Hand the pending writes to the database, which may refuse them. -/
def flush (fails : Bool) (refused : Error) : Tx State Write Task Error Unit :=
  ⟨fun session =>
    match if fails then none else Store.applyAll session.pending session.flushed with
    | some flushed =>
        (.ok (), { session with
          flushed := flushed
          written := session.written ++ session.pending
          pending := [] })
    | none => (.error refused, session)⟩

def commit (fails : Bool) (refused : Error) : Tx State Write Task Error Unit :=
  ⟨fun session =>
    match if fails then none else Store.applyAll session.pending session.flushed with
    | some flushed =>
        (.ok (), { session with
          committed := flushed, flushed := flushed, written := [], pending := [] })
    | none => (.error refused, session)⟩

end Writing

/-! ## How the operations run -/

section Run

variable (session : Session State Write Task)

@[simp] theorem run_pure (value : Value) :
    (pure value : Tx State Write Task Error Value).run session = (.ok value, session) := rfl

theorem run_bind (first : Tx State Write Task Error Value)
    (next : Value → Tx State Write Task Error Other) :
    (first >>= next).run session =
      match first.run session with
      | (.ok value, session) => (next value).run session
      | (.error error, session) => (.error error, session) := rfl

theorem run_bind_ok {first : Tx State Write Task Error Value}
    {next : Value → Tx State Write Task Error Other} {value : Value}
    {middle : Session State Write Task} (hfirst : first.run session = (.ok value, middle)) :
    (first >>= next).run session = (next value).run middle := by
  rw [run_bind, hfirst]

theorem run_bind_error {first : Tx State Write Task Error Value}
    {next : Value → Tx State Write Task Error Other} {error : Error}
    {middle : Session State Write Task} (hfirst : first.run session = (.error error, middle)) :
    (first >>= next).run session = (.error error, middle) := by
  rw [run_bind, hfirst]

@[simp] theorem run_raise (error : Error) :
    (raise error : Tx State Write Task Error Value).run session = (.error error, session) := rfl

@[simp] theorem run_raise_bind (error : Error) (next : Value → Tx State Write Task Error Other) :
    ((raise error : Tx State Write Task Error Value) >>= next).run session =
      (.error error, session) := rfl

@[simp] theorem run_pure_bind (value : Value) (next : Value → Tx State Write Task Error Other) :
    ((pure value : Tx State Write Task Error Value) >>= next).run session =
      (next value).run session := rfl

@[simp] theorem run_orRaise_some_bind (value : Value) (error : Error)
    (next : Value → Tx State Write Task Error Other) :
    (orRaise (some value) error >>= next).run session = (next value).run session := rfl

@[simp] theorem run_orRaise_none_bind (error : Error)
    (next : Value → Tx State Write Task Error Other) :
    ((orRaise none error : Tx State Write Task Error Value) >>= next).run session =
      (.error error, session) := rfl

@[simp] theorem run_query (read : State → Value) :
    (query read : Tx State Write Task Error Value).run session =
      (.ok (read session.flushed), session) := rfl

@[simp] theorem run_query_bind (read : State → Value)
    (next : Value → Tx State Write Task Error Other) :
    (query read >>= next).run session = (next (read session.flushed)).run session := rfl

@[simp] theorem run_add_bind (write : Write) (next : Unit → Tx State Write Task Error Other) :
    (add write >>= next).run session =
      (next ()).run { session with pending := session.pending ++ [write] } := rfl

@[simp] theorem run_bind_assoc {Third : Type} (first : Tx State Write Task Error Value)
    (next : Value → Tx State Write Task Error Other)
    (last : Other → Tx State Write Task Error Third) :
    ((first >>= next) >>= last).run session = (first >>= fun value => next value >>= last).run
      session := by
  simp only [run_bind]
  rcases first.run session with ⟨result, middle⟩
  cases result <;> rfl

theorem run_flush_bind_of_some [Store State Write] {fails : Bool} {refused : Error}
    {flushed : State} (next : Unit → Tx State Write Task Error Other)
    (happly : (if fails then none else Store.applyAll session.pending session.flushed) =
      some flushed) :
    (flush fails refused >>= next).run session = (next ()).run { session with
      flushed := flushed, written := session.written ++ session.pending, pending := [] } := by
  simp only [run_bind, flush, happly]

theorem run_flush_bind_of_none [Store State Write] {fails : Bool} {refused : Error}
    (next : Unit → Tx State Write Task Error Other)
    (happly : (if fails then none else Store.applyAll session.pending session.flushed) = none) :
    (flush fails refused >>= next).run session = (.error refused, session) := by
  simp only [run_bind, flush, happly]

end Run

/-- Programs are equal when they run alike. -/
theorem ext {first second : Tx State Write Task Error Value}
    (hrun : ∀ session, first.run session = second.run session) : first = second :=
  congrArg Tx.mk (funext hrun)

theorem bind_assoc {Third : Type} (first : Tx State Write Task Error Value)
    (next : Value → Tx State Write Task Error Other)
    (last : Other → Tx State Write Task Error Third) :
    (first >>= next) >>= last = first >>= fun value => next value >>= last :=
  ext fun session => run_bind_assoc session first next last

theorem pure_bind (value : Value) (next : Value → Tx State Write Task Error Other) :
    ((pure value : Tx State Write Task Error Value) >>= next) = next value := rfl

/-! ## What a call leaves behind -/

/-- A finished call: its result, the committed state and the messages sent. What
the session had not committed is gone. -/
structure Finished (State Task Error Value : Type) where
  result : Except Error Value
  state : State
  enqueued : List Task

/-- Run a program in a session of its own. -/
def perform (program : Tx State Write Task Error Value) (state : State) :
    Finished State Task Error Value :=
  let (result, session) := program.run (Session.begin state)
  ⟨result, session.committed, session.enqueued⟩

/-- A program that never commits. -/
def Uncommitted (program : Tx State Write Task Error Value) : Prop :=
  ∀ session, (program.run session).2.committed = session.committed

namespace Uncommitted

theorem pure (value : Value) :
    Uncommitted (Pure.pure value : Tx State Write Task Error Value) := fun _ => rfl

theorem bind {first : Tx State Write Task Error Value}
    {next : Value → Tx State Write Task Error Other} (hfirst : Uncommitted first)
    (hnext : ∀ value, Uncommitted (next value)) : Uncommitted (first >>= next) := by
  intro session
  rw [run_bind]
  have hkept := hfirst session
  rcases hrun : first.run session with ⟨result, middle⟩
  rw [hrun] at hkept
  cases result with
  | ok value => exact (hnext value middle).trans hkept
  | error error => exact hkept

theorem raise (error : Error) : Uncommitted (raise error : Tx State Write Task Error Value) :=
  fun _ => rfl

theorem orRaise (value : Option Value) (error : Error) :
    Uncommitted (orRaise value error : Tx State Write Task Error Value) := by
  intro session
  cases value <;> rfl

theorem query (read : State → Value) :
    Uncommitted (query read : Tx State Write Task Error Value) := fun _ => rfl

theorem add (write : Write) : Uncommitted (add write : Tx State Write Task Error Unit) :=
  fun _ => rfl

theorem enqueue (fails : Bool) (unreachable : Error) (task : Task) :
    Uncommitted (enqueue fails unreachable task : Tx State Write Task Error Unit) := by
  intro session
  cases fails <;> rfl

theorem rollback : Uncommitted (rollback : Tx State Write Task Error Unit) := fun _ => rfl

theorem attempt {program : Tx State Write Task Error Value} (hprogram : Uncommitted program) :
    Uncommitted program.attempt := by
  intro session
  have hkept := hprogram session
  rcases hrun : program.run session with ⟨result, middle⟩
  rw [hrun] at hkept
  cases result <;> simpa only [Tx.attempt, hrun] using hkept

theorem onError {program : Tx State Write Task Error Value}
    {handler : Tx State Write Task Error Unit} (hprogram : Uncommitted program)
    (hhandler : Uncommitted handler) : Uncommitted (program.onError handler) := by
  intro session
  have hkept := hprogram session
  rcases hrun : program.run session with ⟨result, middle⟩
  rw [hrun] at hkept
  cases result with
  | ok value => simpa only [Tx.onError, hrun] using hkept
  | error error => simpa only [Tx.onError, hrun] using (hhandler middle).trans hkept

theorem flush [Store State Write] (fails : Bool) (refused : Error) :
    Uncommitted (flush fails refused : Tx State Write Task Error Unit) := by
  intro session
  simp only [Tx.flush]
  split <;> rfl

end Uncommitted

/-- A program that sends no message. -/
def Silent (program : Tx State Write Task Error Value) : Prop :=
  ∀ session, (program.run session).2.enqueued = session.enqueued

namespace Silent

theorem pure (value : Value) : Silent (Pure.pure value : Tx State Write Task Error Value) :=
  fun _ => rfl

theorem bind {first : Tx State Write Task Error Value}
    {next : Value → Tx State Write Task Error Other} (hfirst : Silent first)
    (hnext : ∀ value, Silent (next value)) : Silent (first >>= next) := by
  intro session
  rw [run_bind]
  have hkept := hfirst session
  rcases hrun : first.run session with ⟨result, middle⟩
  rw [hrun] at hkept
  cases result with
  | ok value => exact (hnext value middle).trans hkept
  | error error => exact hkept

theorem orRaise (value : Option Value) (error : Error) :
    Silent (orRaise value error : Tx State Write Task Error Value) := by
  intro session
  cases value <;> rfl

theorem query (read : State → Value) : Silent (query read : Tx State Write Task Error Value) :=
  fun _ => rfl

theorem add (write : Write) : Silent (add write : Tx State Write Task Error Unit) := fun _ => rfl

theorem flush [Store State Write] (fails : Bool) (refused : Error) :
    Silent (flush fails refused : Tx State Write Task Error Unit) := by
  intro session
  simp only [Tx.flush]
  split <;> rfl

theorem commit [Store State Write] (fails : Bool) (refused : Error) :
    Silent (commit fails refused : Tx State Write Task Error Unit) := by
  intro session
  simp only [Tx.commit]
  split <;> rfl

theorem enqueued_perform {program : Tx State Write Task Error Value} (hprogram : Silent program)
    (state : State) : (perform program state).enqueued = [] :=
  hprogram (Session.begin state)

end Silent

section Transaction

variable [Store State Write]

/-- Run a program and commit what it wrote. -/
def transaction (fails : Bool) (refused : Error) (program : Tx State Write Task Error Value) :
    Tx State Write Task Error Value := do
  let value ← program
  commit fails refused
  pure value

/-- A program that returns has what is still pending flushed and all of it committed. -/
theorem perform_transaction_of_run {program : Tx State Write Task Error Value} {fails : Bool}
    {refused : Error} {state : State} {value : Value} {session : Session State Write Task}
    (hrun : program.run (Session.begin state) = (.ok value, session)) :
    perform (transaction fails refused program) state =
      match if fails then none else Store.applyAll session.pending session.flushed with
      | some flushed => ⟨.ok value, flushed, session.enqueued⟩
      | none => ⟨.error refused, session.committed, session.enqueued⟩ := by
  simp only [perform, transaction, run_bind, hrun, commit]
  generalize (if fails = true then none
    else Store.applyAll session.pending session.flushed) = applied
  cases applied <;> rfl

/-- A program that flushed all it wrote has its flushed state committed. -/
theorem perform_transaction_of_ok {program : Tx State Write Task Error Value} {fails : Bool}
    {refused : Error} {state : State} {value : Value} {session : Session State Write Task}
    (hrun : program.run (Session.begin state) = (.ok value, session))
    (hpending : session.pending = []) :
    perform (transaction fails refused program) state =
      if fails then ⟨.error refused, session.committed, session.enqueued⟩
      else ⟨.ok value, session.flushed, session.enqueued⟩ := by
  rw [perform_transaction_of_run hrun, hpending]
  cases fails <;> rfl

theorem perform_transaction_of_error {program : Tx State Write Task Error Value} {fails : Bool}
    {refused error : Error} {state : State} {session : Session State Write Task}
    (hrun : program.run (Session.begin state) = (.error error, session)) :
    perform (transaction fails refused program) state =
      ⟨.error error, session.committed, session.enqueued⟩ := by
  simp [perform, transaction, run_bind, hrun]

/-- A program that raises before anything was committed leaves the state as it was. -/
theorem perform_transaction_of_raised {program : Tx State Write Task Error Value}
    (hprogram : Uncommitted program) {fails : Bool} {refused error : Error} {state : State}
    {session : Session State Write Task}
    (hrun : program.run (Session.begin state) = (.error error, session)) :
    perform (transaction fails refused program) state =
      ⟨.error error, state, session.enqueued⟩ := by
  have hkept : session.committed = state := by
    have hcommitted := hprogram (Session.begin state)
    rwa [hrun] at hcommitted
  rw [perform_transaction_of_error hrun, hkept]

end Transaction

end Tx
