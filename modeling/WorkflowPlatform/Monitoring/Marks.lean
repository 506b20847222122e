import WorkflowPlatform.Foundation.Projection
import WorkflowPlatform.Monitoring.Decided

/-! # What the marks tell

Nothing but a scan marks an execution, and no mark is taken back. As long as no scan
meets a failure, the marks are a record of the scans: an execution is marked when one
of them found it undecided past its deadline.
-/

namespace WorkflowPlatform

open Python WorkflowEngine SLAMonitor Batch

variable {db : Database} {exec : RequestStep} {call : Call}

/-- Undecided past its deadline. -/
def Late (now : DateTime) (exec : RequestStep) : Prop :=
  Undecided exec.status ∧ ∃ deadline, exec.deadline = some deadline ∧ deadline < now

/-- The call is a scan that finds the execution late. -/
def FindsLate (exec : RequestStep) (db : Database) (call : Call) : Prop :=
  ∃ env, call = .scanForBreaches env ∧
    ∃ row ∈ db.requestSteps, row.id = exec.id ∧ Late (env.utcnow 0) row

/-- If the call is a scan, neither the database nor the broker fails it. -/
def Call.ScansFreely (call : Call) : Prop :=
  ∀ env, call = .scanForBreaches env → ∀ position,
    env.dbFails position = false ∧ env.brokerFails position = false

theorem overdue_iff {now : DateTime} :
    overdue now exec = true ↔ Late now exec ∧ exec.isSlaBreached = false := by
  simp [overdue, Late, Undecided, Option.any_eq_true]

/-! ## One call -/

/-- The marked executions are the ones with an escalation. -/
theorem marked_iff_escalated (hdb : WellFormed db) :
    Marked db exec ↔ ∃ escalation ∈ db.slaEscalations, escalation.requestStepId = exec.id := by
  constructor
  · intro hmarked
    obtain ⟨row, hrow, hid, hbreached⟩ := hmarked
    rw [← hid]
    exact hdb.breach_escalated row hrow hbreached
  · intro hescalated
    obtain ⟨escalation, hescalation, hid⟩ := hescalated
    rw [Marked, ← hid]
    exact hdb.escalation_execution escalation hescalation

/-- Only a scan escalates. -/
theorem slaEscalations_perform (hdb : WellFormed db) (hscan : ∀ env, call ≠ .scanForBreaches env) :
    (call.perform db).slaEscalations = db.slaEscalations := by
  have heffect := hdb.effect_perform call
  generalize call.perform db = db' at heffect ⊢
  cases heffect with
  | refused | defined | started => rfl
  | deleted env workflowId db' hdeleted =>
      obtain ⟨-, -, rfl⟩ := Database.deleteWorkflow?_eq_some hdeleted
      rfl
  | decided _ _ _ _ _ _ _ _ _ _ _ _ _ hrouted => cases hrouted <;> rfl
  | scanned env => exact absurd rfl (hscan env)

/-- Nothing but a scan sets a mark. -/
theorem marked_of_perform (hdb : WellFormed db) (hscan : ∀ env, call ≠ .scanForBreaches env)
    (hmarked : Marked (call.perform db) exec) : Marked db exec := by
  rw [marked_iff_escalated (wellFormed_perform hdb call), slaEscalations_perform hdb hscan,
    ← marked_iff_escalated hdb] at hmarked
  exact hmarked

/-- What a call marks was marked before, or the call is a scan that finds it late. -/
theorem marked_or_findsLate (hdb : WellFormed db) (hmarked : Marked (call.perform db) exec) :
    Marked db exec ∨ FindsLate exec db call := by
  by_cases hscan : ∃ env, call = .scanForBreaches env
  · obtain ⟨env, rfl⟩ := hscan
    obtain ⟨row, hrow, hid, hbreached⟩ := hmarked
    have horigin := origin_perform hdb (.scanForBreaches env) row hrow
    cases horigin with
    | kept hold => exact .inl ⟨row, hold, hid, hbreached⟩
    | opened _ hunmarked =>
        rw [hunmarked] at hbreached
        cases hbreached
    | decided before hbefore _ hsame =>
        exact .inl ⟨before, hbefore, hsame.id.symm.trans hid, hsame.isSlaBreached ▸ hbreached⟩
    | marked before hbefore heq hoverdue =>
        refine .inr ⟨env, rfl, before, hbefore, ?_, (overdue_iff.mp hoverdue).1⟩
        rw [← hid, heq]
  · exact .inl (marked_of_perform hdb (not_exists.mp hscan) hmarked)

/-- A mark stays. -/
theorem Marked.perform (hdb : WellFormed db) (hmarked : Marked db exec) (call : Call) :
    Marked (call.perform db) exec := by
  obtain ⟨row, hrow, hid, hbreached⟩ := hmarked
  obtain ⟨row', hrow', hfollows⟩ := (continues_perform hdb call).executions row hrow
  exact ⟨row', hrow', hfollows.id.trans hid, hfollows.marked hbreached⟩

/-- A scan that nothing fails marks what it finds late. -/
theorem marked_of_findsLate (hdb : WellFormed db) (hscan : call.ScansFreely)
    (hfinds : FindsLate exec db call) : Marked (call.perform db) exec := by
  obtain ⟨env, rfl, row, hrow, hid, hlate⟩ := hfinds
  by_cases hbreached : row.isSlaBreached = true
  · exact Marked.perform hdb ⟨row, hrow, hid, hbreached⟩ _
  · have hfree := hscan env rfl
    have hoverdue : overdue (env.utcnow 0) row = true :=
      overdue_iff.mpr ⟨hlate, by simpa using hbreached⟩
    obtain ⟨position, hposition⟩ :=
      List.mem_iff_getElem?.mp (mem_overdueSteps.mpr ⟨hrow, hoverdue⟩)
    have hkept : ∀ other, faultAt env other = .kept := by
      intro other
      rw [faultAt, (hfree other).1, (hfree other).2]
      rfl
    have hatomic := (atomicScan_iff_of_wellFormed hdb (hfree _).1).mpr
      (.inr ⟨[], _, rfl, List.not_mem_nil, by simp [hkept], .inl rfl⟩)
    obtain ⟨row', hrow', hid', hbreached'⟩ :=
      (hatomic.escalated position row hposition (hkept position)).1
    exact ⟨row', hrow', hid'.trans hid, hbreached'⟩

/-! ## Runs -/

/-- Some scan of the run finds the execution late. -/
def FoundLate (calls : List Call) (exec : RequestStep) : Prop :=
  ∃ before call rest, calls = before ++ call :: rest ∧
    FindsLate exec (runCalls Database.empty before) call

/-- Whatever a run does, and whatever fails in it, an execution is marked only if a scan
of the run found it undecided past its deadline. If nothing fails the scans, all that
they found so are marked, decided since or not. No call takes a mark back, and none but
a scan sets one. -/
theorem marks_record_scans (calls : List Call) (exec : RequestStep) :
    (Marked (runCalls Database.empty calls) exec → FoundLate calls exec) ∧
      ((∀ call ∈ calls, call.ScansFreely) → FoundLate calls exec →
        Marked (runCalls Database.empty calls) exec) ∧
      (∀ call : Call, Marked (runCalls Database.empty calls) exec →
        Marked (call.perform (runCalls Database.empty calls)) exec) ∧
      ∀ call : Call, (∀ env, call ≠ .scanForBreaches env) →
        Marked (call.perform (runCalls Database.empty calls)) exec →
          Marked (runCalls Database.empty calls) exec := by
  have hkeeps : ∀ db (call : Call), WellFormed db → WellFormed (call.perform db) :=
    fun _ call hdb => wellFormed_perform hdb call
  have hdb := wellFormed_runCalls wellFormed_empty calls
  refine ⟨?_, ?_, fun call hmarked => hmarked.perform hdb call, ?_⟩
  · intro hmarked
    rcases SerialRun.exists_raises (Marked · exec) (FindsLate exec) hkeeps
      (fun _ _ hdb => marked_or_findsLate hdb) wellFormed_empty hmarked with ⟨row, hrow, -⟩ | hfound
    · cases hrow
    · exact hfound
  · intro hscans hfound
    obtain ⟨before, call, rest, rfl, hfinds⟩ := hfound
    apply SerialRun.flag_of_raises (Marked · exec) hkeeps
      (fun _ call hdb hmarked => Marked.perform hdb hmarked call) wellFormed_empty
    apply marked_of_findsLate (wellFormed_runCalls wellFormed_empty before)
    · exact hscans call (List.mem_append_right _ List.mem_cons_self)
    · exact hfinds
  · intro call hscan hmarked
    exact marked_of_perform hdb hscan hmarked

namespace Sample

/-- A review that nobody decides for three days. -/
def unattended : List Call := opening approvals [] ++ [.scanForBreaches (.calm later)]

theorem unattended_scansFreely : ∀ call ∈ unattended, call.ScansFreely := by
  intro call hcall env hscan position
  simp only [unattended, opening, List.cons_append, List.nil_append, List.mem_cons,
    List.not_mem_nil, or_false] at hcall
  rcases hcall with rfl | rfl | rfl
  · cases hscan
  · cases hscan
  · cases hscan
    exact ⟨rfl, rfl⟩

end Sample

theorem marks_record_scans_unattended :
    ∃ exec ∈ (runCalls Database.empty Sample.unattended).requestSteps,
      Marked (runCalls Database.empty Sample.unattended) exec ∧
        FoundLate Sample.unattended exec := by
  obtain ⟨exec, hexec, hmarked⟩ :
      ∃ exec ∈ (runCalls Database.empty Sample.unattended).requestSteps,
        Marked (runCalls Database.empty Sample.unattended) exec := by
    decide +kernel
  have hfound := (marks_record_scans Sample.unattended exec).1 hmarked
  exact ⟨exec, hexec,
    (marks_record_scans Sample.unattended exec).2.1 Sample.unattended_scansFreely hfound, hfound⟩

end WorkflowPlatform
