import WorkflowPlatform.Concurrency.Scans
import WorkflowPlatform.Foundation.FlagGuard
import WorkflowPlatform.Monitoring.Scan

/-! # Double escalations

The one guard against escalating an execution twice is the mark on it, read at the
start of a scan and committed at its end. Whatever the scans and decisions interleave
like, the marks and the stored escalations go together. That an execution has at most
one escalation and one alert takes more: a scan has to leave alone what another scan
is at, and what a scan has alerted about whose mark was lost.
-/

namespace WorkflowPlatform

open Python Tx WorkflowEngine SLAMonitor

/-! ## Marks and escalations -/

/-- The escalated executions. -/
def Database.escalatedIds (db : Database) : List Uuid := db.slaEscalations.map (·.requestStepId)

/-- Exactly the escalated executions are marked. -/
structure FlagsMatch (db : Database) : Prop where
  execution_keys : (db.requestSteps.map (·.id)).Nodup
  execution_fresh : ∀ exec ∈ db.requestSteps, exec.id < db.nextId
  marked_iff : ∀ exec ∈ db.requestSteps, exec.isSlaBreached = true ↔ exec.id ∈ db.escalatedIds
  escalated_known : ∀ id ∈ db.escalatedIds, ∃ exec ∈ db.requestSteps, exec.id = id

/-- No execution is lost. -/
def KeepsExecutions (db db' : Database) : Prop :=
  ∀ exec ∈ db.requestSteps, ∃ row ∈ db'.requestSteps, row.id = exec.id

variable {db db' : Database}

theorem KeepsExecutions.refl (db : Database) : KeepsExecutions db db :=
  fun exec hexec => ⟨exec, hexec, rfl⟩

theorem KeepsExecutions.trans {db'' : Database} (hfirst : KeepsExecutions db db')
    (hsecond : KeepsExecutions db' db'') : KeepsExecutions db db'' := by
  intro exec hexec
  obtain ⟨row, hrow, hid⟩ := hfirst exec hexec
  obtain ⟨row', hrow', hid'⟩ := hsecond row hrow
  exact ⟨row', hrow', hid'.trans hid⟩

theorem WellFormed.flagsMatch (hdb : WellFormed db) : FlagsMatch db where
  execution_keys := hdb.execution_keys
  execution_fresh := hdb.execution_fresh
  marked_iff exec hexec := by
    constructor
    · intro hmarked
      obtain ⟨escalation, hescalation, hid⟩ := hdb.breach_escalated exec hexec hmarked
      exact List.mem_map.mpr ⟨escalation, hescalation, hid⟩
    · intro hid
      obtain ⟨escalation, hescalation, hid⟩ := List.mem_map.mp hid
      obtain ⟨row, hrow, hrowId, hmarked⟩ := hdb.escalation_execution escalation hescalation
      exact Keyed.ext hdb.execution_keys hrow hexec (hrowId.trans hid) ▸ hmarked
  escalated_known id hid := by
    obtain ⟨escalation, hescalation, rfl⟩ := List.mem_map.mp hid
    obtain ⟨row, hrow, hrowId, -⟩ := hdb.escalation_execution escalation hescalation
    exact ⟨row, hrow, hrowId⟩

/-! ### Decisions -/

/-- The writes a decision sends. The execution it opens is not marked. -/
def Write.Decides : Write → Prop
  | .closeRequestStep _ _ | .updateWorkflowRequest _ _ | .insertRequestStateHistory _
  | .insertAuditLog _ => True
  | .insertRequestStep row => ∀ id, (row id).id = id ∧ (row id).isSlaBreached = false
  | _ => False

theorem decides_of_plan {env : Env} {request : WorkflowRequest} {exec : RequestStep} {user : User}
    {outcome : String} {context : Option Dict} {writes : List Write}
    (hplan : plan env db request exec user outcome context = some writes) :
    ∀ write ∈ writes, write.Decides := by
  obtain ⟨-, hroute⟩ := Option.ite_none_left_eq_some.mp hplan
  cases hnext : nextStepOf env db request outcome context with
  | some nextStep =>
      rw [hnext, routeWrites, Option.ite_none_left_eq_some, Option.map_eq_some_iff] at hroute
      obtain ⟨-, deadline, -, rfl⟩ := hroute
      simp [moveWrites, closeWrite, Write.Decides, executionRow]
  | none =>
      rw [hnext, routeWrites, Option.ite_none_left_eq_some] at hroute
      obtain ⟨-, hroute⟩ := hroute
      cases hroute
      simp [finishWrites, closeWrite, Write.Decides]

/-- What is true of all rows but for columns a decision sets. -/
theorem flagsMatch_of_update (hflags : FlagsMatch db) (id : Uuid)
    (change : RequestStep → RequestStep) (hid : ∀ row, (change row).id = row.id)
    (hflag : ∀ row, (change row).isSlaBreached = row.isSlaBreached) :
    FlagsMatch { db with requestSteps := Keyed.update (·.id) id change db.requestSteps } ∧
      KeepsExecutions db
        { db with requestSteps := Keyed.update (·.id) id change db.requestSteps } := by
  have hrows : ∀ row ∈ Keyed.update (·.id) id change db.requestSteps, ∃ before ∈ db.requestSteps,
      row.id = before.id ∧ row.isSlaBreached = before.isSlaBreached := by
    intro row hrow
    rcases Keyed.mem_update.mp hrow with ⟨before, hbefore, -, rfl⟩ | ⟨hold, -⟩
    · exact ⟨before, hbefore, hid before, hflag before⟩
    · exact ⟨row, hold, rfl, rfl⟩
  have hkept : KeepsExecutions db
      { db with requestSteps := Keyed.update (·.id) id change db.requestSteps } := by
    intro exec hexec
    by_cases heq : exec.id = id
    · exact ⟨change exec, Keyed.mem_update.mpr (.inl ⟨exec, hexec, heq, rfl⟩), hid exec⟩
    · exact ⟨exec, Keyed.mem_update.mpr (.inr ⟨hexec, heq⟩), rfl⟩
  refine ⟨?_, hkept⟩
  exact {
    execution_keys := by
      have hkeys : (Keyed.update (·.id) id change db.requestSteps).map (·.id) =
          db.requestSteps.map (·.id) := Keyed.map_key_update hid db.requestSteps
      exact hkeys.symm ▸ hflags.execution_keys
    execution_fresh := by
      intro row hrow
      obtain ⟨before, hbefore, hrowId, -⟩ := hrows row hrow
      exact hrowId ▸ hflags.execution_fresh before hbefore
    marked_iff := by
      intro row hrow
      obtain ⟨before, hbefore, hrowId, hrowFlag⟩ := hrows row hrow
      rw [hrowId, hrowFlag]
      exact hflags.marked_iff before hbefore
    escalated_known := by
      intro other hother
      obtain ⟨exec, hexec, rfl⟩ := hflags.escalated_known other hother
      exact hkept exec hexec }

/-- What one write of a decision changes about executions. -/
theorem flagsMatch_apply (hflags : FlagsMatch db) {write : Write} (hdecides : write.Decides)
    (happly : write.apply db = some db') :
    FlagsMatch db' ∧ db'.slaEscalations = db.slaEscalations ∧ KeepsExecutions db db' := by
  cases write with
  | closeRequestStep id decision =>
      obtain ⟨status, -, rfl⟩ := Option.map_eq_some_iff.mp happly
      obtain ⟨hafter, hkept⟩ := flagsMatch_of_update hflags id (decision.on status)
        (fun _ => rfl) fun _ => rfl
      exact ⟨hafter, rfl, hkept⟩
  | updateWorkflowRequest id update =>
      cases happly
      exact ⟨⟨hflags.execution_keys, hflags.execution_fresh, hflags.marked_iff,
        hflags.escalated_known⟩, rfl, .refl db⟩
  | insertRequestStateHistory row | insertAuditLog row =>
      cases happly
      exact ⟨⟨hflags.execution_keys, fun exec hexec =>
        Nat.lt_succ_of_lt (hflags.execution_fresh exec hexec),
        hflags.marked_iff, hflags.escalated_known⟩, rfl, .refl db⟩
  | insertRequestStep row =>
      cases happly
      obtain ⟨hid, hunmarked⟩ := hdecides db.nextId
      have hnew : ∀ exec ∈ db.requestSteps, exec.id ≠ (row db.nextId).id := by
        intro exec hexec
        rw [hid]
        exact (hflags.execution_fresh exec hexec).ne
      have hkept : KeepsExecutions db
          { db with requestSteps := db.requestSteps ++ [row db.nextId], nextId := db.nextId + 1 } :=
        fun exec hexec => ⟨exec, List.mem_append_left _ hexec, rfl⟩
      refine ⟨?_, rfl, hkept⟩
      exact {
        execution_keys := Keyed.nodup_concat hflags.execution_keys hnew
        execution_fresh := by
          intro exec hexec
          rcases List.mem_append.mp hexec with hold | hlast
          · exact Nat.lt_succ_of_lt (hflags.execution_fresh exec hold)
          · rw [List.mem_singleton.mp hlast, hid]
            exact Nat.lt_succ_self _
        marked_iff := by
          intro exec hexec
          rcases List.mem_append.mp hexec with hold | hlast
          · exact hflags.marked_iff exec hold
          · rw [List.mem_singleton.mp hlast, hunmarked]
            apply iff_of_false (by simp)
            intro hescalated
            -- an escalation of the new execution would be one of an old one
            obtain ⟨old, hold, heq⟩ := hflags.escalated_known _ hescalated
            exact hnew old hold heq
        escalated_known := by
          intro id hescalated
          obtain ⟨exec, hexec, heq⟩ := hflags.escalated_known id hescalated
          exact ⟨exec, List.mem_append_left _ hexec, heq⟩ }
  | _ => exact hdecides.elim

theorem flagsMatch_applyAll (hflags : FlagsMatch db) {writes : List Write}
    (hdecides : ∀ write ∈ writes, write.Decides) (happly : Store.applyAll writes db = some db') :
    FlagsMatch db' ∧ db'.slaEscalations = db.slaEscalations ∧ KeepsExecutions db db' := by
  induction writes generalizing db with
  | nil =>
      cases happly
      exact ⟨hflags, rfl, .refl _⟩
  | cons write rest ih =>
      obtain ⟨middle, hwrite, hrest⟩ := Option.bind_eq_some_iff.mp happly
      obtain ⟨hmiddle, hsame, hkept⟩ := flagsMatch_apply hflags
        (hdecides write List.mem_cons_self) hwrite
      obtain ⟨hafter, hsame', hkept'⟩ := ih hmiddle
        (fun other hother => hdecides other (List.mem_cons_of_mem _ hother)) hrest
      exact ⟨hafter, hsame'.trans hsame, hkept.trans hkept'⟩

/-! ### Escalations -/

theorem escalatedIds_escalated (env : Env) (items : List Positioned) (db : Database) :
    (escalated env db items).escalatedIds = db.escalatedIds ++ items.map (·.2.id) := by
  obtain ⟨added, hadded, hids⟩ := slaEscalations_escalated env items db
  rw [Database.escalatedIds, hadded, List.map_append, hids, Database.escalatedIds]

theorem keepsExecutions_escalated (env : Env) (items : List Positioned) (db : Database) :
    KeepsExecutions db (escalated env db items) := by
  intro exec hexec
  rw [requestSteps_escalated]
  refine ⟨_, List.mem_map_of_mem hexec, ?_⟩
  split <;> rfl

/-- Escalating sets the marks it stores escalations for, whether or not they were set. -/
theorem flagsMatch_escalated (hflags : FlagsMatch db) (env : Env) {items : List Positioned}
    (hknown : ∀ item ∈ items, ∃ exec ∈ db.requestSteps, exec.id = item.2.id) :
    FlagsMatch (escalated env db items) where
  execution_keys := by
    have hkeys : (escalated env db items).requestSteps.map (·.id) = db.requestSteps.map (·.id) := by
      rw [requestSteps_escalated, List.map_map]
      apply List.map_congr_left
      intro row _
      rw [Function.comp_apply]
      split <;> rfl
    exact hkeys ▸ hflags.execution_keys
  execution_fresh := by
    have hle : db.nextId ≤ (escalated env db items).nextId :=
      escalated_induction (fun db' => db.nextId ≤ db'.nextId)
        (fun _ _ _ hle => hle.trans (Nat.le_add_right _ 2)) le_rfl
    intro row hrow
    rw [requestSteps_escalated] at hrow
    obtain ⟨exec, hexec, rfl⟩ := List.mem_map.mp hrow
    have hid := (hflags.execution_fresh exec hexec).trans_le hle
    split <;> exact hid
  marked_iff := by
    intro row hrow
    rw [requestSteps_escalated] at hrow
    obtain ⟨exec, hexec, rfl⟩ := List.mem_map.mp hrow
    rw [escalatedIds_escalated, List.mem_append]
    by_cases hitem : exec.id ∈ items.map (·.2.id)
    · rw [if_pos hitem]
      exact iff_of_true rfl (.inr hitem)
    · rw [if_neg hitem, hflags.marked_iff exec hexec]
      exact ⟨.inl, fun hor => hor.resolve_right hitem⟩
  escalated_known := by
    intro id hid
    rw [escalatedIds_escalated] at hid
    obtain ⟨exec, hexec, rfl⟩ : ∃ exec ∈ db.requestSteps, exec.id = id := by
      rcases List.mem_append.mp hid with hold | hnew
      · exact hflags.escalated_known id hold
      · obtain ⟨item, hitem, rfl⟩ := List.mem_map.mp hnew
        exact hknown item hitem
    exact keepsExecutions_escalated env items db exec hexec

/-! ## What scans do -/

/-- The execution that a write marks. -/
def Write.markedStep? : Write → Option Uuid
  | .markSlaBreached id => some id
  | _ => none

/-- The executions a scan at work has still to escalate, and those it has marked without
having committed the marks. -/
def ScanPhase.holding : ScanPhase → Holding Uuid
  | .working _ _ _ written rest => ⟨rest.map (·.id), written.filterMap (·.markedStep?)⟩
  | .begun | .ended => .nothing

/-- The scans as parties guarded by the mark. -/
def Workers.board (workers : Workers) : Board ℕ Uuid where
  holds tx := (workers.scans tx).holding
  told := workers.alerts.map Prod.fst
  flagged := workers.world.db.escalatedIds

/-- What a scan may work on is stored and has a deadline. -/
structure Due (db : Database) (exec : RequestStep) : Prop where
  deadline : exec.deadline.isSome
  stored : ∃ row ∈ db.requestSteps, row.id = exec.id

/-- What a scan has flushed are the writes of executions it has done. -/
def ScanHolds (env : Env) (db : Database) : ScanPhase → Prop
  | .working _ _ _ written rest =>
      (∀ exec ∈ rest, Due db exec) ∧ ∃ items : List Positioned,
        written = items.flatMap (itemWrites env) ∧ ∀ item ∈ items, Due db item.2
  | .begun | .ended => True

/-- What a scan does in one go. -/
inductive ScanActs (env : Env) (workers : Workers) (tx : ℕ) : Workers → Prop
  | stays : ScanActs env workers tx workers
  | reads (hphase : workers.scans tx = .begun) :
      ScanActs env workers tx (workers.readOverdue tx (overdueSteps env workers.world.db))
  | escalates (found position breachCount breachCount' : ℕ) (items items' : List Positioned)
      (exec : RequestStep) (rest : List RequestStep) (session : Session Database Write Task)
      (hphase : workers.scans tx =
        .working found position breachCount (items.flatMap (itemWrites env)) (exec :: rest))
      (hdone : ∀ item ∈ items, Due workers.world.db item.2)
      (hwritten : session.written = items'.flatMap (itemWrites env))
      (hitems : items'.Sublist (items ++ [(position, exec)]))
      (hsent : session.enqueued.length ≤ 1) :
      ScanActs env workers tx (workers.escalate tx
        (.working found (position + 1) breachCount' session.written rest) exec session)
  | commits (found position breachCount : ℕ) (items : List Positioned)
      (hphase : workers.scans tx =
        .working found position breachCount (items.flatMap (itemWrites env)) [])
      (hdone : ∀ item ∈ items, Due workers.world.db item.2) :
      ScanActs env workers tx (workers.commit tx (escalated env workers.world.db items))
  | closes : ScanActs env workers tx (workers.close tx)

variable {jobs : ℕ → Job} {workers : Workers} {tx : ℕ} {env : Env}

/-- The next pass of the loop, whatever the database does with its flush. -/
theorem scanActs_escalateNext (env' : Env) (hwrites : itemWrites env' = itemWrites env)
    {found position breachCount : ℕ} {written : List Write} {exec : RequestStep}
    {rest : List RequestStep}
    (hphase : workers.scans tx = .working found position breachCount written (exec :: rest))
    (hholds : ScanHolds env workers.world.db
      (.working found position breachCount written (exec :: rest))) :
    ScanActs env workers tx
      (escalateNext env' workers tx found position breachCount written exec rest) := by
  obtain ⟨hdue, items, rfl, hdone⟩ := hholds
  have hrun := run_escalateStep env' workers.world.db items [] position
    (hdue exec List.mem_cons_self).deadline
  rw [sessionWith, hwrites] at hrun
  have happly := applyAll_escalated env' (fun item hitem => (hdone item hitem).deadline)
    workers.world.db
  rw [hwrites] at happly
  rw [escalateNext, happly]
  simp only [hrun]
  cases fateAt env' workers.world.db position exec with
  | kept =>
      have hsent : (alertsFor workers.world.db [(position, exec)]).length ≤ 1 :=
        List.length_filterMap_le _ _
      exact .escalates found position breachCount _ items (items ++ [(position, exec)]) exec rest _
        hphase hdone rfl (List.Sublist.refl _) hsent
  | leaked =>
      -- no alert is sent, and the writes stay flushed
      exact .escalates found position breachCount _ items (items ++ [(position, exec)]) exec rest _
        hphase hdone rfl (List.Sublist.refl _) (Nat.zero_le 1)
  | undone =>
      -- the rollback takes what was flushed for the executions before, too
      exact .escalates found position breachCount _ items [] exec rest _ hphase hdone rfl
        (List.nil_sublist _) (Nat.zero_le 1)

theorem scanActs_advance (hholds : ScanHolds env workers.world.db (workers.scans tx)) :
    ScanActs env workers tx (advanceScan env workers tx) := by
  unfold advanceScan
  split
  · next hphase => exact .reads hphase
  · next found position breachCount written exec rest hphase =>
    split
    · exact .stays
    · exact scanActs_escalateNext env rfl hphase (hphase ▸ hholds)
  · next found position breachCount written hphase =>
    -- the loop is over, and there is a commit if something was counted
    rw [hphase] at hholds
    obtain ⟨-, items, rfl, hdone⟩ := hholds
    rw [applyAll_escalated env fun item hitem => (hdone item hitem).deadline]
    split
    · split
      · next db hdb =>
        obtain ⟨-, hdb⟩ := Option.ite_none_left_eq_some.mp hdb
        cases hdb
        exact .commits found position breachCount items hphase hdone
      · exact .closes
    · exact .closes
  · exact .stays

theorem scanActs_refuse (hholds : ScanHolds env workers.world.db (workers.scans tx)) :
    ScanActs env workers tx (refuseScan env workers tx) := by
  unfold refuseScan
  split
  · next found position breachCount written exec rest hphase =>
    have hwrites : itemWrites env.refusing = itemWrites env := rfl
    exact scanActs_escalateNext env.refusing hwrites hphase (hphase ▸ hholds)
  · exact .stays

/-! ## The invariant -/

/-- A decision has flushed nothing but what decisions write. -/
def DecisionHolds : Phase → Prop
  | .flushed _ _ writes => ∀ write ∈ writes, write.Decides
  | _ => True

/-- The marks are those of the stored escalations, and nobody has flushed anything but
what scans and decisions write. -/
structure Watched (jobs : ℕ → Job) (workers : Workers) : Prop where
  flags : FlagsMatch workers.world.db
  scans : ∀ tx env, jobs tx = .scan env → ScanHolds env workers.world.db (workers.scans tx)
  decisions : ∀ tx, DecisionHolds (workers.world.phases tx)

theorem Due.later {exec : RequestStep} (hdue : Due db exec) (hkept : KeepsExecutions db db') :
    Due db' exec := by
  obtain ⟨row, hrow, hid⟩ := hdue.stored
  obtain ⟨row', hrow', hid'⟩ := hkept row hrow
  exact ⟨hdue.deadline, row', hrow', hid'.trans hid⟩

theorem ScanHolds.later {phase : ScanPhase} (hphase : ScanHolds env db phase)
    (hkept : KeepsExecutions db db') : ScanHolds env db' phase := by
  cases phase with
  | working found position breachCount written rest =>
      obtain ⟨hrest, items, hwritten, hitems⟩ := hphase
      exact ⟨fun exec hexec => (hrest exec hexec).later hkept, items, hwritten,
        fun item hitem => (hitems item hitem).later hkept⟩
  | begun | ended => trivial

/-- One scan changes its phase, and no execution is lost. -/
theorem scans_update {scans : ℕ → ScanPhase} {phase : ScanPhase}
    (hscans : ∀ tx env, jobs tx = .scan env → ScanHolds env db (scans tx))
    (hkept : KeepsExecutions db db') (hjob : jobs tx = .scan env)
    (hphase : ScanHolds env db' phase) :
    ∀ other env, jobs other = .scan env →
      ScanHolds env db' (Function.update scans tx phase other) := by
  intro other env' hother
  by_cases heq : other = tx
  · subst heq
    rw [hjob] at hother
    cases hother
    rwa [Function.update_self]
  · rw [Function.update_of_ne heq]
    exact (hscans other env' hother).later hkept

theorem watched_start (hdb : WellFormed db) : Watched jobs (Workers.start db) where
  flags := hdb.flagsMatch
  scans := fun _ _ _ => trivial
  decisions := fun _ => trivial

/-! ### Scans -/

theorem escalate_world (workers : Workers) (tx : ℕ) (phase : ScanPhase) (exec : RequestStep)
    (session : Session Database Write Task) :
    (workers.escalate tx phase exec session).world.db = workers.world.db ∧
      (workers.escalate tx phase exec session).world.phases = workers.world.phases := by
  rw [Workers.escalate]
  split <;> exact ⟨rfl, rfl⟩

theorem Watched.scan (hworkers : Watched jobs workers) (hjob : jobs tx = .scan env)
    {workers' : Workers} (hacts : ScanActs env workers tx workers') : Watched jobs workers' := by
  have hscan := hworkers.scans tx env hjob
  cases hacts with
  | stays => exact hworkers
  | closes =>
      exact {
        flags := hworkers.flags
        scans := scans_update hworkers.scans (.refl _) hjob trivial
        decisions := hworkers.decisions }
  | reads hphase =>
      have hdue : ∀ exec ∈ overdueSteps env workers.world.db, Due workers.world.db exec := by
        intro exec hexec
        obtain ⟨hmem, hoverdue⟩ := mem_overdueSteps.mp hexec
        obtain ⟨deadline, hdeadline, -⟩ := deadline_of_overdue hoverdue
        exact ⟨hdeadline ▸ rfl, exec, hmem, rfl⟩
      exact {
        flags := hworkers.flags
        scans := scans_update hworkers.scans (.refl _) hjob ⟨hdue, [], rfl, by simp⟩
        decisions := hworkers.decisions }
  | escalates found position breachCount breachCount' items items' exec rest session hphase hdone
      hwritten hitems hsent =>
      rw [hphase] at hscan
      obtain ⟨hdb, hphases⟩ := escalate_world workers tx
        (.working found (position + 1) breachCount' session.written rest) exec session
      have hdue : ∀ item ∈ items', Due workers.world.db item.2 := by
        intro item hitem
        rcases List.mem_append.mp (hitems.subset hitem) with hold | hnew
        · exact hdone item hold
        · rw [List.mem_singleton.mp hnew]
          exact hscan.1 exec List.mem_cons_self
      exact {
        flags := hdb ▸ hworkers.flags
        scans := by
          rw [hdb]
          exact scans_update hworkers.scans (.refl _) hjob
            ⟨fun other hother => hscan.1 other (List.mem_cons_of_mem _ hother), items', hwritten,
              hdue⟩
        decisions := hphases ▸ hworkers.decisions }
  | commits found position breachCount items hphase hdone =>
      exact {
        flags := flagsMatch_escalated hworkers.flags env fun item hitem => (hdone item hitem).stored
        scans := scans_update hworkers.scans (keepsExecutions_escalated env items _) hjob trivial
        decisions := hworkers.decisions }

/-! ### Decisions -/

theorem decisionHolds_update {phases : ℕ → Phase} (hphases : ∀ tx, DecisionHolds (phases tx))
    (phase : Phase) (hphase : DecisionHolds phase) (tx : ℕ) :
    ∀ other, DecisionHolds (Function.update phases tx phase other) := by
  intro other
  by_cases heq : other = tx
  · subst heq
    rwa [Function.update_self]
  · rw [Function.update_of_ne heq]
    exact hphases other

/-- Decisions neither mark executions nor escalate them. -/
theorem Watched.decision (hworkers : Watched jobs workers) {submissions : ℕ → Submission}
    {world : World} (hacts : Acts submissions workers.world world) :
    Watched jobs { workers with world := world } ∧
      world.db.escalatedIds = workers.world.db.escalatedIds := by
  -- what leaves the tables alone
  have hsame : ∀ {world : World}, world.db = workers.world.db →
      (∀ tx, DecisionHolds (world.phases tx)) →
      Watched jobs { workers with world := world } ∧
        world.db.escalatedIds = workers.world.db.escalatedIds := by
    intro world hdb hphases
    refine ⟨?_, congrArg Database.escalatedIds hdb⟩
    exact {
      flags := hdb ▸ hworkers.flags
      scans := hdb ▸ hworkers.scans
      decisions := hphases }
  cases hacts with
  | stays => exact ⟨hworkers, rfl⟩
  | aborts tx => exact hsame rfl (decisionHolds_update hworkers.decisions .aborted trivial tx)
  | readsRequest tx request hread =>
      exact hsame rfl (decisionHolds_update hworkers.decisions (.requestRead request) trivial tx)
  | readsExecution tx request exec hphase hread =>
      exact hsame rfl
        (decisionHolds_update hworkers.decisions (.executionRead request exec) trivial tx)
  | flushes tx request exec writes hphase hplan =>
      exact hsame rfl (decisionHolds_update hworkers.decisions (.flushed request exec writes)
        (decides_of_plan hplan) tx)
  | commits tx request exec writes db hphase hup happly =>
      have hdecides := hworkers.decisions tx
      rw [hphase] at hdecides
      obtain ⟨hflags, hescalations, hkept⟩ := flagsMatch_applyAll hworkers.flags hdecides happly
      refine ⟨?_, ?_⟩
      · exact {
          flags := hflags
          scans := fun tx env hjob => (hworkers.scans tx env hjob).later hkept
          decisions := decisionHolds_update hworkers.decisions .committed trivial tx }
      · exact congrArg (List.map (·.requestStepId)) hescalations

/-! ### Schedules -/

theorem watched_move (hworkers : Watched jobs workers) (step : Move) :
    Watched jobs (move jobs workers step) := by
  cases step with
  | advance tx =>
      cases hjob : jobs tx with
      | decide submission =>
          simp only [move, hjob]
          exact (hworkers.decision (acts_advance (fun _ => submission) _ tx)).1
      | scan env =>
          simp only [move, hjob]
          exact hworkers.scan hjob (scanActs_advance (hworkers.scans tx env hjob))
  | refuse tx =>
      cases hjob : jobs tx with
      | decide submission =>
          simp only [move, hjob]
          exact hworkers
      | scan env =>
          simp only [move, hjob]
          exact hworkers.scan hjob (scanActs_refuse (hworkers.scans tx env hjob))
  | abort tx =>
      cases hjob : jobs tx with
      | decide submission =>
          simp only [move, hjob]
          exact (hworkers.decision (acts_act (fun _ => submission) _ (.abort tx))).1
      | scan env =>
          simp only [move, hjob]
          exact hworkers.scan hjob .closes

/-! ## Scans apart -/

/-- Among the overdue executions is none that a scan is at, and none about which an
alert was sent, as a scan leaves behind that has lost its mark. -/
def FindsFree (env : Env) (workers : Workers) : Prop :=
  ∀ exec ∈ overdueSteps env workers.world.db,
    (∀ tx, exec.id ∉ (workers.scans tx).holding.items) ∧ exec.id ∉ workers.alerts.map Prod.fst

/-- A scan that reads the overdue executions finds them free. -/
def ReadsApart (jobs : ℕ → Job) (workers : Workers) : Move → Prop
  | .advance tx =>
      ∀ env, jobs tx = .scan env → workers.scans tx = .begun → FindsFree env workers
  | .refuse _ | .abort _ => True

theorem markedSteps_itemWrites (env : Env) (items : List Positioned) :
    (items.flatMap (itemWrites env)).filterMap (·.markedStep?) = items.map (·.2.id) := by
  induction items with
  | nil => rfl
  | cons item rest ih =>
      rw [List.flatMap_cons, List.filterMap_append, ih, List.map_cons]
      cases hdeadline : item.2.deadline <;> simp [itemWrites, Write.markedStep?, hdeadline]

theorem holding_working (found position breachCount : ℕ) (items : List Positioned)
    (rest : List RequestStep) :
    (ScanPhase.working found position breachCount (items.flatMap (itemWrites env)) rest).holding =
      ⟨rest.map (·.id), items.map (·.2.id)⟩ := by
  rw [ScanPhase.holding, markedSteps_itemWrites]

theorem board_holds (workers : Workers) (tx : ℕ) :
    workers.board.holds tx = (workers.scans tx).holding := rfl

/-- What the board shows when one scan changes its phase. -/
theorem board_eq {workers' : Workers} {phase : ScanPhase} {holding : Holding Uuid}
    {told flagged : List Uuid}
    (hscans : workers'.scans = Function.update workers.scans tx phase)
    (hholding : phase.holding = holding) (htold : workers'.alerts.map Prod.fst = told)
    (hflagged : workers'.world.db.escalatedIds = flagged) :
    workers'.board = ⟨Function.update workers.board.holds tx holding, told, flagged⟩ := by
  have hholds : workers'.board.holds = Function.update workers.board.holds tx holding := by
    funext other
    rw [board_holds, hscans, ← hholding]
    exact Function.apply_update (fun _ => ScanPhase.holding) workers.scans tx phase other
  rw [← hholds, ← htold, ← hflagged]
  rfl

/-- An overdue execution is not marked, so it has no escalation yet. -/
theorem FlagsMatch.not_escalated (hflags : FlagsMatch db) {exec : RequestStep}
    (hexec : exec ∈ overdueSteps env db) : exec.id ∉ db.escalatedIds := by
  obtain ⟨hmem, hoverdue⟩ := mem_overdueSteps.mp hexec
  rw [← hflags.marked_iff exec hmem, unmarked_of_overdue hoverdue]
  simp

theorem board_close (workers : Workers) (tx : ℕ) :
    (workers.close tx).board = workers.board.give tx .nothing :=
  board_eq rfl rfl rfl rfl

/-- What scans do is what parties guarded by a flag do, as long as they find the
executions free. -/
theorem board_scan (hworkers : Watched jobs workers)
    (hfree : workers.scans tx = .begun → FindsFree env workers) {workers' : Workers}
    (hacts : ScanActs env workers tx workers') :
    Relation.ReflGen Board.Step workers.board workers'.board := by
  cases hacts with
  | stays => exact .refl
  | closes =>
      rw [board_close]
      exact .single (.drops tx)
  | reads hphase =>
      have hboard : (workers.readOverdue tx (overdueSteps env workers.world.db)).board =
          workers.board.give tx ⟨(overdueSteps env workers.world.db).map (·.id), []⟩ :=
        board_eq rfl rfl rfl rfl
      have hids : ∀ id ∈ (overdueSteps env workers.world.db).map (·.id), workers.board.Free id := by
        intro id hid
        obtain ⟨exec, hexec, rfl⟩ := List.mem_map.mp hid
        obtain ⟨hunheld, hunsent⟩ := hfree hphase exec hexec
        exact ⟨hunheld, hunsent, hworkers.flags.not_escalated hexec⟩
      rw [hboard]
      exact .single (.takesUp tx _ (overdueSteps_keys hworkers.flags.execution_keys env) hids)
  | escalates found position breachCount breachCount' items items' exec rest session hphase hdone
      hwritten hitems hsent =>
      have hholds : workers.board.holds tx =
          ⟨exec.id :: rest.map (·.id), items.map (·.2.id)⟩ := by
        rw [board_holds, hphase, holding_working, List.map_cons]
      have hboard : (workers.escalate tx
          (.working found (position + 1) breachCount' session.written rest) exec session).board =
          { workers.board.give tx ⟨rest.map (·.id), items'.map (·.2.id)⟩ with
            told := workers.board.told ++ session.enqueued.map fun _ => exec.id } := by
        apply board_eq rfl
        · rw [hwritten, holding_working]
        · rw [Workers.escalate, List.map_append, List.map_map]
          rfl
        · exact congrArg Database.escalatedIds (escalate_world workers tx _ exec session).1
      have hdone' : (items'.map (·.2.id)).Sublist (items.map (·.2.id) ++ [exec.id]) := by
        simpa using hitems.map (·.2.id)
      have hnews : (session.enqueued.map fun _ => exec.id).Sublist [exec.id] := by
        rw [List.map_const']
        exact List.replicate_sublist_replicate exec.id |>.mpr hsent
      rw [hboard]
      exact .single (.finishes tx exec.id _ _ _ _ hholds hdone' hnews)
  | commits found position breachCount items hphase hdone =>
      have hholds : workers.board.holds tx = ⟨[], items.map (·.2.id)⟩ := by
        rw [board_holds, hphase, holding_working, List.map_nil]
      have hboard : (workers.commit tx (escalated env workers.world.db items)).board =
          { workers.board.give tx .nothing with
            flagged := workers.board.flagged ++ items.map (·.2.id) } :=
        board_eq rfl rfl rfl (escalatedIds_escalated env items workers.world.db)
      rw [hboard]
      exact .single (.publishes tx [] _ hholds)

/-- Scans that read apart stay safe, whatever the decisions do in between. -/
theorem safe_move (hworkers : Watched jobs workers) (hsafe : workers.board.Safe) {step : Move}
    (hapart : ReadsApart jobs workers step) : (move jobs workers step).board.Safe := by
  have hscan : ∀ {board'}, Relation.ReflGen Board.Step workers.board board' → board'.Safe := by
    intro board' hsteps
    cases hsteps with
    | refl => exact hsafe
    | single hstep => exact hsafe.step hstep
  have hdecision : ∀ {world : World}, world.db.escalatedIds = workers.world.db.escalatedIds →
      (Workers.board { workers with world := world }).Safe := by
    intro world hsame
    rw [Workers.board, hsame]
    exact hsafe
  cases step with
  | advance tx =>
      cases hjob : jobs tx with
      | decide submission =>
          simp only [move, hjob]
          exact hdecision (hworkers.decision (acts_advance (fun _ => submission) _ tx)).2
      | scan env =>
          simp only [move, hjob]
          exact hscan (board_scan hworkers (hapart env hjob)
            (scanActs_advance (hworkers.scans tx env hjob)))
  | refuse tx =>
      cases hjob : jobs tx with
      | decide submission =>
          simp only [move, hjob]
          exact hsafe
      | scan env =>
          simp only [move, hjob]
          -- a scan that has not begun has no flush to refuse
          by_cases hbegun : workers.scans tx = .begun
          · rw [refuseScan, hbegun]
            exact hsafe
          · exact hscan (board_scan hworkers (fun hphase => absurd hphase hbegun)
              (scanActs_refuse (hworkers.scans tx env hjob)))
  | abort tx =>
      cases hjob : jobs tx with
      | decide submission =>
          simp only [move, hjob]
          exact hdecision (hworkers.decision (acts_act (fun _ => submission) _ (.abort tx))).2
      | scan env =>
          simp only [move, hjob, board_close]
          exact hsafe.step (.drops tx)

theorem safe_start (hdb : WellFormed db) : (Workers.start db).board.Safe where
  flagged_once := hdb.escalation_keys
  told_once := List.nodup_nil
  held_once _ := List.nodup_nil
  held_alone _ _ _ := List.disjoint_nil_left _
  held_unflagged _ := List.disjoint_nil_left _
  todo_untold _ := List.disjoint_nil_left _

/-! ## One escalation a breach -/

/-- Every execution has at most one escalation, exactly one when it is marked, and at
most one alert. -/
def EscalatedOnce (workers : Workers) : Prop :=
  ∀ exec ∈ workers.world.db.requestSteps,
    (workers.world.db.slaEscalations.filter (·.requestStepId = exec.id)).length ≤ 1 ∧
      (workers.alerts.filter (·.1 = exec.id)).length ≤ 1 ∧
      (exec.isSlaBreached = true →
        (workers.world.db.slaEscalations.filter (·.requestStepId = exec.id)).length = 1)

theorem escalatedOnce_of_safe (hworkers : Watched jobs workers) (hsafe : workers.board.Safe) :
    EscalatedOnce workers := by
  intro exec hexec
  simp only [length_filter_eq_count]
  refine ⟨List.nodup_iff_count_le_one.mp hsafe.flagged_once _,
    List.nodup_iff_count_le_one.mp hsafe.told_once _, fun hmarked => ?_⟩
  exact List.count_eq_one_of_mem hsafe.flagged_once
    ((hworkers.flags.marked_iff exec hexec).mp hmarked)

/-- However scans and decisions interleave, in every state reached each execution is
escalated once and alerted about once, as long as every scan leaves alone the
executions that another scan is at, and those whose mark was lost after the alert. -/
theorem escalated_once (calls : List Call) (jobs : ℕ → Job) (schedule : List Move)
    (hapart : SerialRun.EachStep (move jobs) (ReadsApart jobs)
      (Workers.start (runCalls Database.empty calls)) schedule) :
    ∀ earlier later, schedule = earlier ++ later →
      EscalatedOnce (runWorkers jobs (runCalls Database.empty calls) earlier) := by
  rintro earlier later rfl
  have hdb := wellFormed_runCalls wellFormed_empty calls
  have hstep : ∀ workers step, Watched jobs workers ∧ workers.board.Safe →
      ReadsApart jobs workers step →
        Watched jobs (move jobs workers step) ∧ (move jobs workers step).board.Safe := by
    intro workers step hworkers hstep
    exact ⟨watched_move hworkers.1 step, safe_move hworkers.1 hworkers.2 hstep⟩
  obtain ⟨hworkers, hsafe⟩ := SerialRun.invariant_of_eachStep
    (fun workers => Watched jobs workers ∧ workers.board.Safe) hstep earlier
    ⟨watched_start hdb, safe_start hdb⟩ (SerialRun.eachStep_append.mp hapart).1
  exact escalatedOnce_of_safe hworkers hsafe

/-! ### Two scans of one breach -/

/-- Both transactions are scans, three days after the start. -/
def twoScans (_ : ℕ) : Job := .scan (.calm Sample.later)

/-- The second scan reads the overdue execution before the first commits its mark. -/
def overlapping : List Move :=
  [.advance 0, .advance 1, .advance 0, .advance 0, .advance 1, .advance 1]

theorem double_escalation :
    ¬∀ calls jobs schedule,
      EscalatedOnce (runWorkers jobs (runCalls Database.empty calls) schedule) := by
  intro honce
  obtain ⟨exec, hexec, htwice⟩ : ∃ exec ∈ (runWorkers twoScans underReview
      overlapping).world.db.requestSteps, ((runWorkers twoScans underReview
        overlapping).world.db.slaEscalations.filter (·.requestStepId = exec.id)).length = 2 := by
    decide +kernel
  have hsingle := (honce (Sample.opening Sample.approvals []) twoScans overlapping exec hexec).1
  have hcount : (2 : ℕ) ≤ 1 := htwice ▸ hsingle
  omega

/-- The second scan begins when the first is over. -/
def oneByOne : List Move :=
  [.advance 0, .advance 0, .advance 0, .advance 1, .advance 1]

def ScanPhase.isBegun : ScanPhase → Bool
  | .begun => true
  | _ => false

theorem readsApart_oneByOne :
    SerialRun.EachStep (move twoScans) (ReadsApart twoScans) (Workers.start underReview)
      oneByOne := by
  have hlater : ∀ {workers : Workers} {tx : ℕ}, (workers.scans tx).isBegun = false →
      ReadsApart twoScans workers (.advance tx) := by
    intro workers tx hbegun env hjob hphase
    rw [hphase] at hbegun
    cases hbegun
  refine ⟨?_, hlater ?_, hlater ?_, ?_, hlater ?_, trivial⟩
  · intro env hjob hphase exec hexec
    exact ⟨fun tx => List.not_mem_nil, List.not_mem_nil⟩
  · decide +kernel
  · decide +kernel
  · -- the execution is marked, so the second scan finds nothing
    intro env hjob hphase exec hexec
    cases hjob
    have hnone : (overdueSteps (.calm Sample.later) (runWorkers twoScans underReview
        [.advance 0, .advance 0, .advance 0]).world.db).isEmpty = true := by
      decide +kernel
    have hfound : exec ∈ overdueSteps (.calm Sample.later) (runWorkers twoScans underReview
        [.advance 0, .advance 0, .advance 0]).world.db := hexec
    rw [List.isEmpty_iff.mp hnone] at hfound
    cases hfound
  · decide +kernel

/-- Two scans one after the other. -/
theorem escalated_once_oneByOne :
    SerialRun.EachStep (move twoScans) (ReadsApart twoScans) (Workers.start underReview)
        oneByOne ∧
      ∀ earlier later, oneByOne = earlier ++ later →
        EscalatedOnce (runWorkers twoScans underReview earlier) :=
  ⟨readsApart_oneByOne,
    escalated_once (Sample.opening Sample.approvals []) twoScans oneByOne readsApart_oneByOne⟩

end WorkflowPlatform
