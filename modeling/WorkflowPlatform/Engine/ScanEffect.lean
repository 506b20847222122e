import WorkflowPlatform.Foundation.Batch
import WorkflowPlatform.Api.Endpoints

/-! # The state after a scan

A scan is a batch: what becomes of each overdue execution depends on its round
trip and on its alert, and the scan commits the escalations the batch commits.
-/

namespace WorkflowPlatform

open Python Tx Batch

namespace SLAMonitor

/-! ## Escalations -/

/-- An execution at its position in the scan. -/
abbrev Positioned := ℕ × RequestStep

/-- The state with one execution escalated. -/
def escalateOne (env : Env) (db : Database) (item : Positioned) : Database :=
  { db with
    requestSteps := (db.markBreached item.2.id).requestSteps
    slaEscalations := db.slaEscalations ++
      [escalationRow (env.utcnow (item.1 + 1)) item.2.id db.nextId]
    auditLogs := db.auditLogs ++
      (item.2.deadline.map fun deadline => breachAudit env item.2 deadline (db.nextId + 1)).toList
    nextId := db.nextId + 2 }

/-- The state with several executions escalated, one after the other. -/
def escalated (env : Env) (db : Database) (items : List Positioned) : Database :=
  items.foldl (escalateOne env) db

theorem escalated_nil (env : Env) (db : Database) : escalated env db [] = db := rfl

theorem escalated_concat (env : Env) (db : Database) (items : List Positioned) (item : Positioned) :
    escalated env db (items ++ [item]) = escalateOne env (escalated env db items) item := by
  simp [escalated, List.foldl_append]

/-- An invariant of escalating one execution is one of escalating several. -/
theorem escalated_induction {env : Env} (property : Database → Prop) {items : List Positioned}
    (hstep : ∀ db, ∀ item ∈ items, property db → property (escalateOne env db item))
    {db : Database} (hdb : property db) : property (escalated env db items) := by
  induction items generalizing db with
  | nil => exact hdb
  | cons item rest ih =>
      exact ih (fun db other hother => hstep db other (List.mem_cons_of_mem _ hother))
        (hstep db item List.mem_cons_self hdb)

/-! ## Fates -/

/-- What becomes of the execution at a position. -/
def fateAt (env : Env) (db : Database) (position : ℕ) (exec : RequestStep) : Fate :=
  if env.dbFails position then .undone
  else if env.brokerFails position || (exec.deadline.bind (breachAlert db exec)).isNone then .leaked
  else .kept

/-- The executions of a scan with their positions and fates. -/
def batchOf (env : Env) (db : Database) : ℕ → List RequestStep → List (Positioned × Fate)
  | _, [] => []
  | position, exec :: rest =>
      ((position, exec), fateAt env db position exec) :: batchOf env db (position + 1) rest

/-- The batch a scan works off. -/
def scanBatch (env : Env) (db : Database) : List (Positioned × Fate) :=
  batchOf env db 0 (overdueSteps env db)

/-- The alerts sent for the executions that were escalated without an error. -/
def alertsFor (db : Database) (items : List Positioned) : List Task :=
  items.filterMap fun item => item.2.deadline.bind (breachAlert db item.2)

/-- The state after a scan. -/
def scanned (env : Env) (db : Database) : Database :=
  if env.dbFails (overdueSteps env db).length then db
  else escalated env db (committed (scanBatch env db))

theorem batchOf_map_exec (env : Env) (db : Database) (position : ℕ) (rows : List RequestStep) :
    (batchOf env db position rows).map (fun item => item.1.2) = rows := by
  induction rows generalizing position with
  | nil => rfl
  | cons exec rest ih => simp [batchOf, ih]

theorem le_of_mem_batchOf {env : Env} {db : Database} {position : ℕ} {rows : List RequestStep}
    {item : Positioned × Fate} (hitem : item ∈ batchOf env db position rows) :
    position ≤ item.1.1 := by
  induction rows generalizing position with
  | nil => simp [batchOf] at hitem
  | cons exec rest ih =>
      rcases List.mem_cons.mp hitem with rfl | hrest
      · exact le_rfl
      · exact (Nat.le_succ _).trans (ih hrest)

theorem batchOf_nodup (env : Env) (db : Database) (position : ℕ) (rows : List RequestStep) :
    ((batchOf env db position rows).map Prod.fst).Nodup := by
  induction rows generalizing position with
  | nil => exact List.nodup_nil
  | cons exec rest ih =>
      rw [batchOf, List.map_cons, List.nodup_cons]
      refine ⟨fun hmem => ?_, ih _⟩
      obtain ⟨item, hitem, heq⟩ := List.mem_map.mp hmem
      have hle := le_of_mem_batchOf hitem
      rw [heq] at hle
      exact Nat.not_succ_le_self position hle

/-- The executions a scan commits come from the overdue ones, each at most once. -/
theorem committed_execs_sublist (env : Env) (db : Database) :
    ((committed (scanBatch env db)).map Prod.snd).Sublist (overdueSteps env db) := by
  have hsublist := (committed_sublist (scanBatch env db)).map Prod.snd
  rwa [List.map_map, show Prod.snd ∘ Prod.fst = fun item : Positioned × Fate => item.1.2 from rfl,
    scanBatch, batchOf_map_exec] at hsublist

/-! ## One escalation in the session -/

/-- Escalating changes nothing an alert names. -/
theorem breachAlert_escalated (env : Env) (db : Database) (items : List Positioned)
    (exec : RequestStep) (deadline : DateTime) :
    breachAlert (escalated env db items) exec deadline = breachAlert db exec deadline :=
  escalated_induction (fun db' => breachAlert db' exec deadline = breachAlert db exec deadline)
    (fun _ _ _ hsame => hsame) rfl

/-- The writes that escalate one execution. -/
def itemWrites (env : Env) (item : Positioned) : List Write :=
  [.markSlaBreached item.2.id,
    .insertSLAEscalation (escalationRow (env.utcnow (item.1 + 1)) item.2.id)] ++
    (item.2.deadline.map fun deadline =>
      Write.insertAuditLog (breachAudit env item.2 deadline)).toList

theorem applyAll_itemWrites (env : Env) {item : Positioned} (hdeadline : item.2.deadline.isSome)
    (db : Database) : Store.applyAll (itemWrites env item) db = some (escalateOne env db item) := by
  obtain ⟨deadline, hdeadline⟩ := Option.isSome_iff_exists.mp hdeadline
  simp [itemWrites, Store.applyAll_cons, Write.apply, escalateOne, hdeadline, Database.markBreached]

/-- The database accepts the writes of escalations, whatever its state. -/
theorem applyAll_escalated (env : Env) {items : List Positioned}
    (hdeadlines : ∀ item ∈ items, item.2.deadline.isSome) (db : Database) :
    Store.applyAll (items.flatMap (itemWrites env)) db = some (escalated env db items) := by
  induction items generalizing db with
  | nil => rfl
  | cons item rest ih =>
      rw [List.flatMap_cons, Store.applyAll_append,
        applyAll_itemWrites env (hdeadlines item List.mem_cons_self), Option.bind_some,
        ih fun other hother => hdeadlines other (List.mem_cons_of_mem _ hother)]
      rfl

/-- The session after the items in `items` were written. -/
def sessionWith (env : Env) (db : Database) (items : List Positioned) (written : List Write)
    (tasks : List Task) : Session Database Write Task :=
  ⟨db, escalated env db items, written, [], tasks⟩

/-- One escalation succeeds, fails with its writes flushed, or fails and rolls back,
as its fate says. -/
theorem run_escalateStep (env : Env) (db : Database) (items : List Positioned)
    (tasks : List Task) (position : ℕ) {exec : RequestStep} (hdeadline : exec.deadline.isSome) :
    (attempt (escalateStep env position exec)).run
        (sessionWith env db items (items.flatMap (itemWrites env)) tasks) =
      match fateAt env db position exec with
      | .kept => (.ok (some ()), sessionWith env db (items ++ [(position, exec)])
          ((items ++ [(position, exec)]).flatMap (itemWrites env))
          (tasks ++ alertsFor db [(position, exec)]))
      | .leaked => (.ok none, sessionWith env db (items ++ [(position, exec)])
          ((items ++ [(position, exec)]).flatMap (itemWrites env)) tasks)
      | .undone => (.ok none, sessionWith env db [] [] tasks) := by
  obtain ⟨deadline, hdeadline⟩ := Option.isSome_iff_exists.mp hdeadline
  simp only [attempt, escalateStep, sessionWith, run_add_bind, hdeadline, run_orRaise_some_bind,
    List.nil_append, List.cons_append]
  rw [run_bind, run_logAction]
  cases haudit : env.dbFails position with
  | true => simp [fateAt, haudit, Session.rolledBack, escalated_nil]
  | false =>
      have hwrites : itemWrites env (position, exec) = [Write.markSlaBreached exec.id,
          .insertSLAEscalation (escalationRow (env.utcnow (position + 1)) exec.id),
          .insertAuditLog (breachAudit env exec deadline)] := by
        simp [itemWrites, hdeadline]
      have happly : Store.applyAll (itemWrites env (position, exec)) (escalated env db items) =
          some (escalated env db (items ++ [(position, exec)])) := by
        rw [escalated_concat]
        exact applyAll_itemWrites env (by simp [hdeadline]) _
      rw [hwrites] at happly
      simp only [Bool.false_eq_true, if_false, List.cons_append, List.nil_append, happly,
        run_query_bind, breachAlert_escalated]
      cases halert : breachAlert db exec deadline with
      | none => simp [fateAt, haudit, hdeadline, halert, hwrites]
      | some alert =>
          cases hbroker : env.brokerFails position with
          | true => simp [fateAt, haudit, hdeadline, halert, hbroker, enqueue, hwrites]
          | false => simp [fateAt, haudit, hdeadline, halert, hbroker, enqueue, alertsFor, hwrites]

/-! ## The loop -/

/-- The loop leaves in the session what survives, counts what succeeded and has
sent an alert for each of those. -/
theorem run_escalateEach (env : Env) (db : Database) {rows : List RequestStep}
    (hrows : ∀ exec ∈ rows, exec.deadline.isSome) (position breachCount : ℕ)
    (items : List Positioned) (tasks : List Task) :
    (escalateEach env position breachCount rows).run
        (sessionWith env db items (items.flatMap (itemWrites env)) tasks) =
      (.ok (breachCount + (succeeded (batchOf env db position rows)).length),
        sessionWith env db (surviving items (batchOf env db position rows))
          ((surviving items (batchOf env db position rows)).flatMap (itemWrites env))
          (tasks ++ alertsFor db (succeeded (batchOf env db position rows)))) := by
  induction rows generalizing position breachCount items tasks with
  | nil => simp [escalateEach, batchOf, succeeded, surviving, alertsFor]
  | cons exec rest ih =>
      have hrest := fun other hother => hrows other (List.mem_cons_of_mem _ hother)
      have hstep := run_escalateStep env db items tasks position (hrows exec List.mem_cons_self)
      rw [escalateEach, run_bind, hstep]
      cases hfate : fateAt env db position exec with
      | kept =>
          have hloop := ih hrest (position + 1) (breachCount + 1)
            (items ++ [(position, exec)]) (tasks ++ alertsFor db [(position, exec)])
          simp only [hloop, batchOf, hfate, surviving, succeeded, List.filter_cons, decide_true,
            if_true, List.map_cons, List.length_cons]
          rw [Nat.add_assoc, Nat.add_comm 1, List.append_assoc]
          simp only [alertsFor, ← List.filterMap_append, List.singleton_append]
      | leaked =>
          have hloop := ih hrest (position + 1) breachCount (items ++ [(position, exec)]) tasks
          simp only [hloop, batchOf, hfate, surviving, succeeded]
          simp
      | undone =>
          have hloop := ih hrest (position + 1) breachCount [] tasks
          rw [List.flatMap_nil] at hloop
          simp [hloop, batchOf, hfate, surviving, succeeded]

/-! ## The scan -/

theorem mem_overdueSteps {env : Env} {db : Database} {exec : RequestStep} :
    exec ∈ overdueSteps env db ↔ exec ∈ db.requestSteps ∧ overdue (env.utcnow 0) exec = true := by
  simp [overdueSteps]

theorem deadline_of_overdue {now : DateTime} {exec : RequestStep}
    (hoverdue : overdue now exec = true) :
    ∃ deadline, exec.deadline = some deadline ∧ deadline < now := by
  simp only [overdue, Bool.and_eq_true, Option.any_eq_true, decide_eq_true_eq] at hoverdue
  obtain ⟨⟨-, deadline, hdeadline, hlt⟩, -⟩ := hoverdue
  exact ⟨deadline, hdeadline, hlt⟩

/-- A scan raises only when its commit does; it sends an alert for every
execution that failed nowhere. -/
theorem perform_scan (env : Env) (db : Database) :
    let count := (succeeded (scanBatch env db)).length
    Tx.perform (scanForBreaches env) db =
      if 0 < count ∧ env.dbFails (overdueSteps env db).length then
        ⟨.error .databaseError, db, alertsFor db (succeeded (scanBatch env db))⟩
      else ⟨.ok count, scanned env db, alertsFor db (succeeded (scanBatch env db))⟩ := by
  intro count
  have hrows : ∀ exec ∈ overdueSteps env db, exec.deadline.isSome := by
    intro exec hexec
    obtain ⟨deadline, hdeadline, -⟩ := deadline_of_overdue (mem_overdueSteps.mp hexec).2
    rw [hdeadline, Option.isSome_some]
  have hloop := run_escalateEach env db hrows 0 0 [] []
  rw [Nat.zero_add, List.nil_append] at hloop
  have hrun : (scanForBreaches env).run (Session.begin db) =
      (if 0 < count then (do
          commit (env.dbFails (overdueSteps env db).length) .databaseError
          return count) else return count : EngineTx ℕ).run
        (sessionWith env db (surviving [] (scanBatch env db))
          ((surviving [] (scanBatch env db)).flatMap (itemWrites env))
          (alertsFor db (succeeded (scanBatch env db)))) := by
    rw [scanForBreaches, run_query_bind]
    exact run_bind_ok _ hloop
  rw [Tx.perform, hrun, scanned, committed]
  by_cases hcount : 0 < count
  · have hsome : succeeded (scanBatch env db) ≠ [] := List.length_pos_iff.mp hcount
    rw [if_pos hcount, run_bind, commit, if_neg hsome]
    cases env.dbFails (overdueSteps env db).length <;> simp [sessionWith, hcount]
  · have hnone : succeeded (scanBatch env db) = [] :=
      List.eq_nil_of_length_eq_zero (Nat.eq_zero_of_not_pos hcount)
    simp [hcount, hnone, sessionWith, escalated_nil]

end SLAMonitor

end WorkflowPlatform
