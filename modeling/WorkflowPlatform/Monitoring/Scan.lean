import WorkflowPlatform.Lifecycle.Reachable

/-! # A scan as a whole

All escalations of a scan share one session. A scan treats each overdue execution
on its own exactly when every failure comes before every success and the last
failure rolls back.
-/

namespace WorkflowPlatform

open Python WorkflowEngine SLAMonitor Batch

/-! ## What a scan leaves for an execution -/

/-- The execution is marked. -/
def Marked (db : Database) (exec : RequestStep) : Prop :=
  ∃ row ∈ db.requestSteps, row.id = exec.id ∧ row.isSlaBreached = true

instance (db : Database) (exec : RequestStep) : Decidable (Marked db exec) :=
  inferInstanceAs (Decidable (∃ row ∈ db.requestSteps, row.id = exec.id ∧ row.isSlaBreached = true))

/-- The escalations of an execution that a call adds. -/
def addedEscalations (db db' : Database) (exec : RequestStep) : List SLAEscalation :=
  (db'.slaEscalations.drop db.slaEscalations.length).filter (·.requestStepId = exec.id)

/-- The breach entries about an execution that a call adds. -/
def addedBreachAudits (db db' : Database) (exec : RequestStep) : List AuditLog :=
  (db'.auditLogs.drop db.auditLogs.length).filter fun entry =>
    entry.action = .slaBreachDetected ∧ entry.resourceId = exec.id

/-- The executions a call marks. -/
def newlyMarked (db db' : Database) : List RequestStep :=
  db.requestSteps.filter fun exec => !exec.isSlaBreached && decide (Marked db' exec)

/-- What a scan meets at a position: nothing, an audit entry that cannot be flushed,
or an alert that cannot be sent. -/
def faultAt (env : Env) (position : ℕ) : Fate :=
  if env.dbFails position then .undone
  else if env.brokerFails position then .leaked
  else .kept

/-- A scan is atomic and isolated for each overdue execution: one that did not fail
is escalated with all that belongs to it, one that failed is left alone, and the
count is right. -/
structure AtomicScan (env : Env) (db : Database)
    (finished : Tx.Finished Database Task EngineError ℕ) : Prop where
  escalated : ∀ position exec, (overdueSteps env db)[position]? = some exec →
    faultAt env position = .kept → Marked finished.state exec ∧
      (addedEscalations db finished.state exec).length = 1 ∧
      (addedBreachAudits db finished.state exec).length = 1
  untouched : ∀ position exec, (overdueSteps env db)[position]? = some exec →
    faultAt env position ≠ .kept → ¬Marked finished.state exec ∧
      addedEscalations db finished.state exec = [] ∧
      addedBreachAudits db finished.state exec = []
  alerted : finished.enqueued.map some =
    ((overdueSteps env db).zipIdx.filter fun row => faultAt env row.2 = .kept).map fun row =>
      row.1.deadline.bind (breachAlert db row.1)
  counted : finished.result = .ok (newlyMarked db finished.state).length

variable {env : Env} {db : Database}

/-! ## The fates of a scan are its faults -/

/-- An alert can always be written: its request, workflow and step are there. -/
theorem breachAlert_isSome (hdb : WellFormed db) {exec : RequestStep}
    (hexec : exec ∈ db.requestSteps)
    (deadline : DateTime) : (breachAlert db exec deadline).isSome := by
  obtain ⟨request, hrequest, hid⟩ := hdb.execution_request exec hexec
  obtain ⟨workflow, hworkflow⟩ := hdb.workflow?_of_request hrequest
  obtain ⟨step, hstep, hid', -⟩ := hdb.scheduled exec hexec
  simp [breachAlert, hdb.request?_eq_some_iff.mpr ⟨hrequest, hid⟩, hworkflow,
    hdb.toWellDefined.step?_eq_some_iff.mpr ⟨hstep, hid'⟩]

theorem fateAt_eq_faultAt (hdb : WellFormed db) {exec : RequestStep}
    (hexec : exec ∈ overdueSteps env db) (position : ℕ) :
    fateAt env db position exec = faultAt env position := by
  obtain ⟨hmem, hoverdue⟩ := mem_overdueSteps.mp hexec
  obtain ⟨deadline, hdeadline, -⟩ := deadline_of_overdue hoverdue
  have halert : (breachAlert db exec deadline).isNone = false := by
    simpa using breachAlert_isSome hdb hmem deadline
  simp [fateAt, faultAt, hdeadline, halert]

theorem batchOf_eq (hdb : WellFormed db) (position : ℕ) {rows : List RequestStep}
    (hrows : ∀ exec ∈ rows, exec ∈ overdueSteps env db) :
    batchOf env db position rows =
      (rows.zipIdx position).map fun row => ((row.2, row.1), faultAt env row.2) := by
  induction rows generalizing position with
  | nil => rfl
  | cons exec rest ih =>
      rw [batchOf, List.zipIdx_cons, List.map_cons,
        fateAt_eq_faultAt hdb (hrows exec List.mem_cons_self),
        ih _ fun other hother => hrows other (List.mem_cons_of_mem _ hother)]

theorem scanBatch_eq (hdb : WellFormed db) :
    scanBatch env db = (overdueSteps env db).zipIdx.map fun row =>
      ((row.2, row.1), faultAt env row.2) :=
  batchOf_eq hdb 0 fun _ hexec => hexec

theorem mem_scanBatch (hdb : WellFormed db) {position : ℕ} {exec : RequestStep} {fate : Fate} :
    ((position, exec), fate) ∈ scanBatch env db ↔
      (overdueSteps env db)[position]? = some exec ∧ fate = faultAt env position := by
  simp only [scanBatch_eq hdb, List.mem_map, Prod.exists, List.mem_zipIdx_iff_getElem?,
    Prod.mk.injEq]
  constructor
  · rintro ⟨row, index, hrow, ⟨rfl, rfl⟩, rfl⟩
    exact ⟨hrow, rfl⟩
  · rintro ⟨hrow, rfl⟩
    exact ⟨exec, position, hrow, ⟨rfl, rfl⟩, rfl⟩

theorem scanBatch_fates (hdb : WellFormed db) :
    (scanBatch env db).map Prod.snd =
      (List.range (overdueSteps env db).length).map (faultAt env) := by
  rw [scanBatch_eq hdb, List.map_map]
  change (overdueSteps env db).zipIdx.map (faultAt env ∘ Prod.snd) = _
  rw [← List.map_map, List.zipIdx_map_snd, List.range_eq_range']

/-! ## The state a scan commits -/

theorem requestSteps_escalated (env : Env) (items : List Positioned) (db : Database) :
    (escalated env db items).requestSteps = db.requestSteps.map fun row =>
      if row.id ∈ items.map (·.2.id) then { row with isSlaBreached := true } else row := by
  induction items generalizing db with
  | nil => simp [escalated]
  | cons item rest ih =>
      apply (ih (escalateOne env db item)).trans
      simp only [escalateOne, Database.markBreached, Keyed.update, List.map_map]
      apply List.map_congr_left
      intro row _
      rw [Function.comp_apply]
      by_cases hhead : row.id = item.2.id
      · have hlisted : row.id ∈ item.2.id :: rest.map (·.2.id) := hhead ▸ List.mem_cons_self
        rw [if_pos hhead, List.map_cons, if_pos hlisted]
        split <;> rfl
      · rw [if_neg hhead]
        simp only [List.map_cons, List.mem_cons, hhead, false_or]

/-- The escalations a scan adds are those of its items. -/
theorem slaEscalations_escalated (env : Env) (items : List Positioned) (db : Database) :
    ∃ added, (escalated env db items).slaEscalations = db.slaEscalations ++ added ∧
      added.map (·.requestStepId) = items.map (·.2.id) := by
  induction items generalizing db with
  | nil => exact ⟨[], (List.append_nil _).symm, rfl⟩
  | cons item rest ih =>
      obtain ⟨added, hadded, hids⟩ := ih (escalateOne env db item)
      refine ⟨escalationRow (env.utcnow (item.1 + 1)) item.2.id db.nextId :: added,
        hadded.trans (by simp [escalateOne]), ?_⟩
      rw [List.map_cons, List.map_cons, hids]
      rfl

/-- The audit entries a scan adds are those of its items. -/
theorem auditLogs_escalated (env : Env) {items : List Positioned}
    (hdeadlines : ∀ item ∈ items, item.2.deadline.isSome) (db : Database) :
    ∃ added, (escalated env db items).auditLogs = db.auditLogs ++ added ∧
      (∀ entry ∈ added, entry.action = .slaBreachDetected) ∧
      added.map (·.resourceId) = items.map (·.2.id) := by
  induction items generalizing db with
  | nil => exact ⟨[], (List.append_nil _).symm, by simp, rfl⟩
  | cons item rest ih =>
      obtain ⟨added, hadded, hactions, hids⟩ :=
        ih (fun other hother => hdeadlines other (List.mem_cons_of_mem _ hother))
          (escalateOne env db item)
      obtain ⟨deadline, hdeadline⟩ :=
        Option.isSome_iff_exists.mp (hdeadlines item List.mem_cons_self)
      refine ⟨breachAudit env item.2 deadline (db.nextId + 1) :: added,
        hadded.trans (by simp [escalateOne, hdeadline]), ?_, ?_⟩
      · intro entry hentry
        rcases List.mem_cons.mp hentry with rfl | hentry
        · rfl
        · exact hactions entry hentry
      · rw [List.map_cons, List.map_cons, hids]
        rfl

theorem length_filter_eq_count {Row : Type} (key : Row → Uuid) (rows : List Row) (id : Uuid) :
    (rows.filter fun row => key row = id).length = (rows.map key).count id := by
  rw [List.count, List.countP_map, List.countP_eq_length_filter]
  congr 1

section Committed

variable {items : List Positioned}

theorem length_addedEscalations (exec : RequestStep) :
    (addedEscalations db (escalated env db items) exec).length =
      (items.map (·.2.id)).count exec.id := by
  obtain ⟨added, hadded, hids⟩ := slaEscalations_escalated env items db
  rw [addedEscalations, hadded, List.drop_left, length_filter_eq_count, hids]

theorem length_addedBreachAudits (hdeadlines : ∀ item ∈ items, item.2.deadline.isSome)
    (exec : RequestStep) :
    (addedBreachAudits db (escalated env db items) exec).length =
      (items.map (·.2.id)).count exec.id := by
  obtain ⟨added, hadded, hactions, hids⟩ := auditLogs_escalated env hdeadlines db
  rw [addedBreachAudits, hadded, List.drop_left, ← hids, ← length_filter_eq_count]
  refine congrArg _ (List.filter_congr fun entry hentry => ?_)
  simp [hactions entry hentry]

/-- What a scan marks: what was marked before, and its items. -/
theorem marked_escalated {exec : RequestStep} (hdb : WellFormed db)
    (hexec : exec ∈ db.requestSteps) :
    Marked (escalated env db items) exec ↔
      exec.isSlaBreached = true ∨ exec.id ∈ items.map (·.2.id) := by
  rw [Marked, requestSteps_escalated]
  constructor
  · rintro ⟨row, hrow, hid, hmarked⟩
    obtain ⟨before, hbefore, rfl⟩ := List.mem_map.mp hrow
    have hid' : before.id = exec.id := by
      rw [← hid]
      split <;> rfl
    obtain rfl := Keyed.ext hdb.execution_keys hbefore hexec hid'
    split at hmarked
    · next hlisted => exact .inr hlisted
    · exact .inl hmarked
  · intro hmarked
    refine ⟨_, List.mem_map_of_mem hexec, ?_, ?_⟩
    · split <;> rfl
    · split
      · rfl
      · next hunlisted => exact hmarked.resolve_right hunlisted

/-- A scan marks as many executions as it commits. -/
theorem length_newlyMarked (hdb : WellFormed db) (hkeys : (items.map (·.2.id)).Nodup)
    (hitems : ∀ item ∈ items, item.2 ∈ db.requestSteps ∧ item.2.isSlaBreached = false) :
    (newlyMarked db (escalated env db items)).length = items.length := by
  have hids : ((newlyMarked db (escalated env db items)).map (·.id)).Perm
      (items.map (·.2.id)) := by
    refine (List.perm_ext_iff_of_nodup
      (hdb.execution_keys.sublist (List.filter_sublist.map _)) hkeys).mpr fun id => ?_
    constructor
    · intro hid
      obtain ⟨exec, hexec, rfl⟩ := List.mem_map.mp hid
      simp only [List.mem_filter, Bool.and_eq_true, Bool.not_eq_eq_eq_not,
        Bool.not_true, decide_eq_true_eq] at hexec
      obtain ⟨hexec, hunmarked, hmarked⟩ := hexec
      rw [marked_escalated hdb hexec, hunmarked] at hmarked
      exact hmarked.resolve_left (by simp)
    · intro hid
      obtain ⟨item, hitem, rfl⟩ := List.mem_map.mp hid
      obtain ⟨hexec, hunmarked⟩ := hitems item hitem
      refine List.mem_map_of_mem (List.mem_filter.mpr ⟨hexec, ?_⟩)
      rw [hunmarked, Bool.not_false, Bool.true_and, decide_eq_true_eq, marked_escalated hdb hexec]
      exact .inr hid
  simpa using hids.length_eq

end Committed

/-! ## The scans that are atomic -/

/-- The scan commits an execution when it is one of the items it commits. -/
theorem mem_committed_ids (hdb : WellFormed db) {position : ℕ} {exec : RequestStep}
    (hexec : (overdueSteps env db)[position]? = some exec) :
    exec.id ∈ (committed (scanBatch env db)).map (·.2.id) ↔
      (position, exec) ∈ committed (scanBatch env db) := by
  constructor
  · intro hid
    obtain ⟨⟨other, exec'⟩, hitem, hid⟩ := List.mem_map.mp hid
    obtain ⟨⟨_, fate⟩, hbatch, rfl⟩ :=
      List.mem_map.mp ((committed_sublist (scanBatch env db)).mem hitem)
    have hother := ((mem_scanBatch hdb).mp hbatch).1
    have hkeys := overdueSteps_keys hdb.execution_keys env
    have hsame : exec' = exec := Keyed.ext hkeys (List.mem_of_getElem? hother)
      (List.mem_of_getElem? hexec) hid
    subst hsame
    have hposition := (List.getElem?_inj (List.getElem?_eq_some_iff.mp hother).1
      (List.Nodup.of_map _ hkeys)).mp (hother.trans hexec.symm)
    exact hposition ▸ hitem
  · intro hitem
    exact List.mem_map_of_mem (f := fun item : Positioned => item.2.id) hitem

theorem perform_scan_of_commit (env : Env) (db : Database)
    (hcommit : env.dbFails (overdueSteps env db).length = false) :
    Tx.perform (scanForBreaches env) db =
      ⟨.ok (succeeded (scanBatch env db)).length, escalated env db (committed (scanBatch env db)),
        alertsFor db (succeeded (scanBatch env db))⟩ := by
  rw [perform_scan, scanned]
  simp [hcommit]

/-- What a scan leaves for an execution depends on whether it is committed. -/
theorem effects_of_scan (hdb : WellFormed db) {position : ℕ} {exec : RequestStep}
    (hexec : (overdueSteps env db)[position]? = some exec) :
    let db' := escalated env db (committed (scanBatch env db))
    let ids := (committed (scanBatch env db)).map (·.2.id)
    (Marked db' exec ↔ exec.id ∈ ids) ∧
      (addedEscalations db db' exec).length = ids.count exec.id ∧
      (addedBreachAudits db db' exec).length = ids.count exec.id := by
  obtain ⟨hmem, hoverdue⟩ := mem_overdueSteps.mp (List.mem_of_getElem? hexec)
  have hdeadlines : ∀ item ∈ committed (scanBatch env db), item.2.deadline.isSome := by
    intro item hitem
    obtain ⟨deadline, hdeadline, -⟩ := deadline_of_overdue (mem_committed_scan hitem).2
    rw [hdeadline, Option.isSome_some]
  refine ⟨?_, length_addedEscalations exec, length_addedBreachAudits hdeadlines exec⟩
  rw [marked_escalated hdb hmem, unmarked_of_overdue hoverdue]
  simp

/-- Alerts are sent for the executions without a fault, and for no others. -/
theorem alerts_of_scan (hdb : WellFormed db) :
    (alertsFor db (succeeded (scanBatch env db))).map some =
      ((overdueSteps env db).zipIdx.filter fun row => faultAt env row.2 = .kept).map fun row =>
        row.1.deadline.bind (breachAlert db row.1) := by
  have hsucceeded : succeeded (scanBatch env db) =
      ((overdueSteps env db).zipIdx.filter fun row => faultAt env row.2 = .kept).map fun row =>
        (row.2, row.1) := by
    rw [succeeded, scanBatch_eq hdb, List.filter_map, List.map_map]
    rfl
  rw [hsucceeded, alertsFor, List.filterMap_map]
  have hrows : ∀ row ∈ (overdueSteps env db).zipIdx.filter fun row => faultAt env row.2 = .kept,
      (row.1.deadline.bind (breachAlert db row.1)).isSome := by
    intro row hrow
    obtain ⟨hmem, hoverdue⟩ := mem_overdueSteps.mp
      (List.fst_mem_of_mem_zipIdx (List.mem_of_mem_filter hrow))
    obtain ⟨deadline, hdeadline, -⟩ := deadline_of_overdue hoverdue
    rw [hdeadline, Option.bind_some]
    exact breachAlert_isSome hdb hmem deadline
  rw [List.map_filterMap_some_eq_filter_map_isSome]
  apply List.filter_eq_self.mpr
  intro alert halert
  obtain ⟨row, hrow, rfl⟩ := List.mem_map.mp halert
  exact hrows row hrow

theorem atomicScan_iff_of_wellFormed (hdb : WellFormed db)
    (hcommit : env.dbFails (overdueSteps env db).length = false) :
    AtomicScan env db (Tx.perform (scanForBreaches env) db) ↔
      Clean ((List.range (overdueSteps env db).length).map (faultAt env)) := by
  rw [← scanBatch_fates hdb, perform_scan_of_commit env db hcommit]
  have hnodup : ((scanBatch env db).map Prod.fst).Nodup := batchOf_nodup env db 0 _
  have hkeys : ((committed (scanBatch env db)).map (·.2.id)).Nodup := committed_keys hdb
  constructor
  · intro hatomic
    apply clean_of_committed_iff_kept hnodup
    intro item fate hitem
    obtain ⟨position, exec⟩ := item
    obtain ⟨hexec, rfl⟩ := (mem_scanBatch hdb).mp hitem
    rw [← mem_committed_ids hdb hexec, ← (effects_of_scan hdb hexec).1]
    constructor
    · intro hmarked
      by_contra hfailed
      exact (hatomic.untouched position exec hexec hfailed).1 hmarked
    · intro hkept
      exact (hatomic.escalated position exec hexec hkept).1
  · intro hclean
    have hids : ∀ position exec, (overdueSteps env db)[position]? = some exec →
        (exec.id ∈ (committed (scanBatch env db)).map (·.2.id) ↔ faultAt env position = .kept) :=
      fun position exec hexec => (mem_committed_ids hdb hexec).trans
        (committed_iff_kept_of_clean hnodup hclean ((mem_scanBatch hdb).mpr ⟨hexec, rfl⟩))
    exact {
      escalated := by
        intro position exec hexec hkept
        obtain ⟨hmarked, hescalations, haudits⟩ := effects_of_scan hdb hexec
        have hmem := (hids position exec hexec).mpr hkept
        rw [List.count_eq_one_of_mem hkeys hmem] at hescalations haudits
        exact ⟨hmarked.mpr hmem, hescalations, haudits⟩
      untouched := by
        intro position exec hexec hfailed
        obtain ⟨hmarked, hescalations, haudits⟩ := effects_of_scan hdb hexec
        have hmem := mt (hids position exec hexec).mp hfailed
        rw [List.count_eq_zero_of_not_mem hmem] at hescalations haudits
        exact ⟨mt hmarked.mp hmem, List.eq_nil_of_length_eq_zero hescalations,
          List.eq_nil_of_length_eq_zero haudits⟩
      alerted := alerts_of_scan hdb
      counted := by
        rw [length_newlyMarked hdb hkeys fun item hitem => ⟨(mem_committed_scan hitem).1,
          unmarked_of_overdue (mem_committed_scan hitem).2⟩]
        have hperm : (succeeded (scanBatch env db)).Perm (committed (scanBatch env db)) := by
          refine (List.perm_ext_iff_of_nodup (hnodup.sublist (List.filter_sublist.map _))
            (hnodup.sublist (committed_sublist _))).mpr fun item => ?_
          apply mem_succeeded.trans
          constructor
          · intro hkept
            exact (committed_iff_kept_of_clean hnodup hclean hkept).mpr rfl
          · intro hitem
            obtain ⟨⟨_, fate⟩, hbatch, rfl⟩ :=
              List.mem_map.mp ((committed_sublist (scanBatch env db)).mem hitem)
            exact (committed_iff_kept_of_clean hnodup hclean hbatch).mp hitem ▸ hbatch
        exact congrArg Except.ok hperm.length_eq }

/-- A scan whose commit the database accepts is atomic exactly when no execution
succeeds, or every failure comes before every success and the last failure is an
audit entry that could not be flushed. -/
theorem scan_atomic_iff (env : Env) {db : Database} (hreachable : Reachable db)
    (hcommit : env.dbFails (overdueSteps env db).length = false) :
    AtomicScan env db (Tx.perform (scanForBreaches env) db) ↔
      Clean ((List.range (overdueSteps env db).length).map (faultAt env)) :=
  atomicScan_iff_of_wellFormed hreachable.wellFormed hcommit

/-! ### Two overdue executions -/

def overdueReviews : Database :=
  runCalls Database.empty
    (Sample.opening Sample.approvals [] ++ [.startWorkflow (.calm Sample.noon) 0 0 []])

/-- A scan whose second audit entry cannot be flushed. -/
def failingSecond : Env := { Env.calm Sample.later with dbFails := fun trip => trip = 1 }

theorem scan_atomic_iff_failingSecond :
    AtomicScan failingSecond overdueReviews
        (Tx.perform (scanForBreaches failingSecond) overdueReviews) ↔
      Clean ((List.range (overdueSteps failingSecond overdueReviews).length).map
        (faultAt failingSecond)) :=
  scan_atomic_iff failingSecond ⟨_, rfl⟩ (by decide +kernel)

/-- The rollback of the second execution takes the first with it, which is counted
all the same. -/
theorem scan_not_atomic :
    ¬∀ env db, Reachable db → env.dbFails (overdueSteps env db).length = false →
      AtomicScan env db (Tx.perform (scanForBreaches env) db) := by
  intro hatomic
  have hcounted := (hatomic failingSecond overdueReviews ⟨_, rfl⟩ (by decide +kernel)).counted
  revert hcounted
  decide +kernel

end WorkflowPlatform
