import WorkflowPlatform.Foundation.Paging
import WorkflowPlatform.Ledger.Requests

/-! # The ledger page by page

`read_audit_logs` sorts the entries by their times, and the time of an entry is the start
of the transaction that wrote it. The entries of one transaction are therefore tied: a
decision that completes a request writes two of them.
-/

namespace WorkflowPlatform

open Python WorkflowEngine SLAMonitor

/-- The entries a reader asks for: those about one request, or all. -/
def Database.logsFor (db : Database) : Option Uuid → List AuditLog
  | some requestId => db.entries requestId
  | none => db.auditLogs

/-- `GET /audit/`. The newest entries come first; `skip` and `limit` are 0 and 100 by
default. -/
def Endpoint.readAuditLogs (order : RowOrder AuditLog) (db : Database) (skip limit : ℕ)
    (requestId : Option Uuid) : List AuditLog :=
  Paging.window skip limit (Paging.descending (·.timestamp.micros) order (db.logsFor requestId))

/-- Reading page after page gives every entry exactly once, in whatever order each query
returns entries of one time. -/
def PagesLossless (db : Database) (requestId : Option Uuid) (size : ℕ) : Prop :=
  ∀ (orders : ℕ → RowOrder AuditLog) (count : ℕ), (db.logsFor requestId).length ≤ count * size →
    ∀ entry ∈ db.logsFor requestId,
      ((List.range count).flatMap fun page =>
        Endpoint.readAuditLogs (orders page) db (page * size) size requestId).count entry = 1

/-- The entries of one time all fall on one page. -/
def TimesShareAPage (db : Database) (requestId : Option Uuid) (size : ℕ) : Prop :=
  Paging.KeepsTies (fun entry : AuditLog => entry.timestamp.micros) size (db.logsFor requestId)

variable {db db' : Database} {request : WorkflowRequest}

/-! ## Entries have identifiers of their own -/

/-- Audit entries are numbered. -/
structure LedgerNumbered (db : Database) : Prop where
  keys : (db.auditLogs.map (·.id)).Nodup
  fresh : ∀ entry ∈ db.auditLogs, entry.id < db.nextId

theorem ledgerNumbered_empty : LedgerNumbered Database.empty := by
  constructor <;> simp [Database.empty]

namespace LedgerNumbered

theorem nodup (hledger : LedgerNumbered db) (requestId : Option Uuid) :
    (db.logsFor requestId).Nodup := by
  have hall : db.auditLogs.Nodup := hledger.keys.of_map
  cases requestId with
  | none => exact hall
  | some requestId => exact hall.filter _

/-- Nothing is written, or the identifiers are drawn after the ones in use. -/
theorem append (hledger : LedgerNumbered db) {added : List AuditLog}
    (haudit : db'.auditLogs = db.auditLogs ++ added) (hle : db.nextId ≤ db'.nextId)
    (hkeys : (added.map (·.id)).Nodup)
    (hadded : ∀ entry ∈ added, db.nextId ≤ entry.id ∧ entry.id < db'.nextId) :
    LedgerNumbered db' where
  keys := by
    rw [haudit, List.map_append]
    apply hledger.keys.append hkeys
    intro id hold hnew
    obtain ⟨entry, hentry, rfl⟩ := List.mem_map.mp hold
    obtain ⟨other, hother, heq⟩ := List.mem_map.mp hnew
    have hbefore := hledger.fresh entry hentry
    have hafter := (hadded other hother).1
    lia
  fresh entry hentry := by
    rw [haudit] at hentry
    rcases List.mem_append.mp hentry with hold | hnew
    · exact (hledger.fresh entry hold).trans_le hle
    · exact (hadded entry hnew).2

end LedgerNumbered

theorem ledgerNumbered_escalateOne (hledger : LedgerNumbered db) (env : Env) (item : Positioned) :
    LedgerNumbered (escalateOne env db item) := by
  refine hledger.append rfl (Nat.le_add_right _ _) ?_ ?_
  · cases item.2.deadline <;> simp
  · cases item.2.deadline <;> simp [breachAudit, escalateOne]

theorem ledgerNumbered_routed (hledger : LedgerNumbered db) {env : Env} {user : User}
    {outcome : String} {context : Option Dict} {exec : RequestStep} {status : Option StepStatus}
    (hrouted : Routed env db user outcome context request exec status db') :
    LedgerNumbered db' := by
  cases hrouted with
  | moved nextStep deadline hnext hdeadline =>
      refine hledger.append rfl (Nat.le_add_right _ _) (List.nodup_singleton _) ?_
      simp [stepAudit, movedOn]
  | finished hnext haudited hvalid =>
      refine hledger.append rfl (Nat.le_add_right _ _) ?_ ?_
      · simp [requestAudit, stepAudit]
      · simp [requestAudit, stepAudit, completed]

theorem ledgerNumbered_perform (hdb : WellFormed db) (hledger : LedgerNumbered db) (call : Call) :
    LedgerNumbered (call.perform db) := by
  have heffect := hdb.effect_perform call
  generalize call.perform db = db' at heffect ⊢
  cases heffect with
  | refused => exact hledger
  | defined env payload creatorId =>
      refine hledger.append (List.append_nil _).symm ?_ List.nodup_nil (by simp)
      simp only [WorkflowService.withDefinition]
      lia
  | deleted env workflowId db' hdeleted =>
      obtain ⟨-, -, rfl⟩ := Database.deleteWorkflow?_eq_some hdeleted
      exact ⟨hledger.keys, hledger.fresh⟩
  | started env workflowId requesterId data workflow first deadline =>
      refine hledger.append rfl (Nat.le_add_right _ _) (List.nodup_singleton _) ?_
      simp [requestAudit, startedAt]
  | decided _ requestId user outcome context request exec status db' _ _ _ _ hrouted =>
      exact ledgerNumbered_routed hledger hrouted
  | scanned env =>
      obtain ⟨items, hscanned, -⟩ := scanned_eq_escalated hdb env
      rw [hscanned]
      apply escalated_induction LedgerNumbered _ hledger
      intro middle item _ hmiddle
      exact ledgerNumbered_escalateOne hmiddle env item

/-- No two audit entries have one identifier. -/
theorem Reachable.ledgerNumbered (hreachable : Reachable db) : LedgerNumbered db := by
  apply hreachable.induction LedgerNumbered ledgerNumbered_empty
  intro db call hdb hledger
  exact ledgerNumbered_perform hdb hledger call

/-! ## A completion writes two entries of one time -/

/-- A completion and the decision it follows from are entered at one time. -/
def CompletedAtOnce (db : Database) (request : WorkflowRequest) : Prop :=
  ∃ first ∈ db.entries request.id, ∃ second ∈ db.entries request.id,
    first.action = .workflowCompleted ∧ second.action = .stepCompleted ∧
      second.timestamp = first.timestamp

theorem CompletedAtOnce.of_leftAlone {call : Call} (halone : LeftAlone call db db' request)
    (hcompleted : CompletedAtOnce db request) : CompletedAtOnce db' request := by
  obtain ⟨first, hfirst, second, hsecond, hsame⟩ := hcompleted
  obtain ⟨added, hentries, -⟩ := halone.entries_added
  rw [CompletedAtOnce, hentries]
  exact ⟨first, List.mem_append_left _ hfirst, second, List.mem_append_left _ hsecond, hsame⟩

theorem completedAtOnce_completed {env : Env} {exec : RequestStep} {user : User} {outcome : String}
    {context : Option Dict} {status : Option StepStatus} :
    CompletedAtOnce (completed env db request exec user outcome context status)
      (completedRequest env request) := by
  change ∃ first ∈ Database.entries _ request.id, ∃ second ∈ Database.entries _ request.id, _
  rw [entries_completed]
  refine ⟨_, List.mem_append_right _ List.mem_cons_self, _,
    List.mem_append_right _ (List.mem_cons_of_mem _ List.mem_cons_self), ?_⟩
  exact ⟨rfl, rfl, rfl⟩

theorem Reachable.completedAtOnce (hreachable : Reachable db) :
    ∀ request ∈ db.workflowRequests, request.status = .completed → CompletedAtOnce db request := by
  obtain ⟨calls, rfl⟩ := hreachable
  apply completed_runCalls CompletedAtOnce
  · intro db db' call request halone hcompleted
    exact hcompleted.of_leftAlone halone
  · intro env db request exec user outcome context status
    exact completedAtOnce_completed

/-! ## Pages -/

/-- Once a request is completed, its ledger is not read safely entry by entry. -/
theorem not_timesShareAPage_of_completed (hreachable : Reachable db)
    (hrequest : request ∈ db.workflowRequests) (hcompleted : request.status = .completed) :
    ¬ TimesShareAPage db (some request.id) 1 := by
  obtain ⟨first, hfirst, second, hsecond, haction, haction', htime⟩ :=
    hreachable.completedAtOnce request hrequest hcompleted
  refine Paging.not_keepsTies_one hfirst hsecond ?_ (congrArg DateTime.micros htime)
  rintro rfl
  rw [haction] at haction'
  cases haction'

/-- The pages of the ledger give every entry exactly once if and only if all entries of
one time fall on one page. -/
theorem ledger_pages_lossless_iff (hreachable : Reachable db) (requestId : Option Uuid)
    {size : ℕ} (hsize : 0 < size) :
    PagesLossless db requestId size ↔ TimesShareAPage db requestId size :=
  Paging.lossless_iff (hreachable.ledgerNumbered.nodup requestId) hsize

/-- The whole ledger of an approved request on one page. -/
theorem ledger_pages_lossless_iff_approved :
    PagesLossless (runCalls Database.empty Sample.approvedTwice) none 100 ↔
      TimesShareAPage (runCalls Database.empty Sample.approvedTwice) none 100 :=
  ledger_pages_lossless_iff ⟨_, rfl⟩ none (by decide)

/-- The ledger of an approved request, entry by entry. -/
theorem not_pagesLossless_approved :
    ¬ PagesLossless (runCalls Database.empty Sample.approvedTwice) none 1 := by
  intro hlossless
  have hkeeps : TimesShareAPage (runCalls Database.empty Sample.approvedTwice) none 1 :=
    Paging.keepsTies_of_lossless hlossless Nat.one_pos
  revert hkeeps
  unfold TimesShareAPage
  decide +kernel

end WorkflowPlatform
