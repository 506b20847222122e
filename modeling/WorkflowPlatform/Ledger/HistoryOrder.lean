import WorkflowPlatform.Ledger.StateTrail

/-! # The state history in the order it is read

The rows of a request are read sorted by `changed_at`, and that is the start of the
transaction that wrote them. The two rows of a completion are written by one transaction,
so a reader may meet them the wrong way round.
-/

namespace WorkflowPlatform

open Python WorkflowEngine

/-- Each row leads on from the one before, and the last one to a status. -/
def IsChainTo (status : RequestStatus) (rows : List RequestStateHistory) : Prop :=
  rows.IsChain (fun row next => next.fromStatus = some row.toStatus) ∧
    ∃ last, rows.getLast? = some last ∧ last.toStatus = status

/-- The rows of a request are a chain to its status in every order sorted by `changed_at`. -/
def ReadsAsChain (db : Database) (request : WorkflowRequest) : Prop :=
  ∀ rows, rows.Perm (db.history request.id) →
    rows.Pairwise (fun row next => row.changedAt ≤ next.changedAt) →
    IsChainTo request.status rows

variable {db db' : Database} {request : WorkflowRequest}

/-! ## The rows of a completion -/

/-- The last two rows of a completed request were written at one time. -/
def FinishedAtOnce (db : Database) (request : WorkflowRequest) : Prop :=
  ∃ before verdict last, db.history request.id = before ++ [verdict, last] ∧
    verdict.changedAt = last.changedAt

theorem finishedAtOnce_completed {env : Env} {exec : RequestStep} {user : User} {outcome : String}
    {context : Option Dict} {status : Option StepStatus} :
    FinishedAtOnce (completed env db request exec user outcome context status)
      (completedRequest env request) := by
  have hhistory : Database.history (completed env db request exec user outcome context status)
      (completedRequest env request).id = _ := history_completed
  exact ⟨_, _, _, hhistory, rfl⟩

theorem Reachable.finishedAtOnce (hreachable : Reachable db) :
    ∀ request ∈ db.workflowRequests, request.status = .completed → FinishedAtOnce db request := by
  obtain ⟨calls, rfl⟩ := hreachable
  apply completed_runCalls FinishedAtOnce
  · intro db db' call request halone hfinished
    rw [FinishedAtOnce, halone.history_kept]
    exact hfinished
  · intro env db request exec user outcome context status
    exact finishedAtOnce_completed

/-- The three rows of a completed request. -/
structure CompletedRows (start verdict last : RequestStateHistory) : Prop where
  start_from : start.fromStatus = some .created
  start_to : start.toStatus = .inProgress
  last_from : last.fromStatus ≠ some .inProgress
  last_to : last.toStatus = .completed
  at_once : verdict.changedAt = last.changedAt

theorem Reachable.completedRows (hreachable : Reachable db)
    (hrequest : request ∈ db.workflowRequests) (hcompleted : request.status = .completed) :
    ∃ start verdict last, db.history request.id = [start, verdict, last] ∧
      CompletedRows start verdict last := by
  obtain ⟨exec, status, -, hhops, happroved, hrejected⟩ :=
    (hreachable.recorded request hrequest).verdict hcompleted
  obtain ⟨before, verdict, last, hhistory, htime⟩ :=
    hreachable.finishedAtOnce request hrequest hcompleted
  have hstatus : status ≠ .inProgress := by
    by_cases hlast : exec.status = .approved
    · rw [happroved.mpr hlast]
      simp
    · rw [hrejected hlast]
      simp
  rw [hhistory, List.map_append] at hhops
  obtain ⟨start, rfl⟩ : ∃ start, before = [start] := by
    apply List.length_eq_one_iff.mp
    simpa using congrArg List.length hhops
  simp only [List.map_cons, List.map_nil, List.cons_append, List.nil_append, List.cons.injEq,
    RequestStateHistory.hop, Prod.mk.injEq, and_true] at hhops
  obtain ⟨hstart, -, hlast⟩ := hhops
  refine ⟨start, verdict, last, hhistory, hstart.1, hstart.2, ?_, hlast.2, htime⟩
  rw [hlast.1]
  simpa using hstatus

/-! ## Reading -/

/-- Some sorted order of the rows of a completed request is no chain. -/
theorem CompletedRows.exists_broken {start verdict last : RequestStateHistory}
    (hrows : CompletedRows start verdict last) :
    ∃ rows : List RequestStateHistory, rows.Perm [start, verdict, last] ∧
      rows.Pairwise (fun row next => row.changedAt ≤ next.changedAt) ∧
      ¬ rows.IsChain fun row next => next.fromStatus = some row.toStatus := by
  have hsame : last.changedAt ≤ last.changedAt := Nat.le_refl _
  by_cases hfirst : start.changedAt ≤ last.changedAt
  · -- the completion comes before the verdict
    refine ⟨[start, last, verdict], .cons _ (.swap _ _ _), ?_, ?_⟩
    · simp [hrows.at_once, hfirst, hsame]
    · intro hchain
      have hnext := (List.isChain_cons_cons.mp hchain).1
      rw [hrows.start_to] at hnext
      exact hrows.last_from hnext
  · -- the clock was set back: the start comes last
    have hstart : last.changedAt ≤ start.changedAt := Nat.le_of_not_le hfirst
    refine ⟨[verdict, last] ++ [start], List.perm_append_comm, ?_, ?_⟩
    · simp [hrows.at_once, hstart, hsame]
    · intro hchain
      have hnext := (List.isChain_cons_cons.mp (List.isChain_cons_cons.mp hchain).2).1
      rw [hrows.start_from, hrows.last_to] at hnext
      cases hnext

theorem not_readsAsChain_of_completed (hreachable : Reachable db)
    (hrequest : request ∈ db.workflowRequests) (hcompleted : request.status = .completed) :
    ¬ ReadsAsChain db request := by
  intro hreads
  obtain ⟨start, verdict, last, hhistory, hrows⟩ := hreachable.completedRows hrequest hcompleted
  obtain ⟨rows, hperm, hsorted, hbroken⟩ := hrows.exists_broken
  rw [← hhistory] at hperm
  exact hbroken (hreads rows hperm hsorted).1

/-- The one row of a request in progress reads back as a chain. -/
theorem readsAsChain_of_inProgress (hrecords : db.Records request.id [(.created, .inProgress)])
    (hstatus : request.status = .inProgress) : ReadsAsChain db request := by
  intro rows hperm _
  obtain ⟨row, hhistory, hhop⟩ := List.map_eq_singleton_iff.mp hrecords
  rw [hhistory, List.perm_singleton] at hperm
  subst hperm
  refine ⟨List.isChain_singleton _, row, rfl, ?_⟩
  rw [hstatus]
  exact congrArg Prod.snd hhop

/-- The state history reads back as a chain if and only if the request is in progress. -/
theorem history_readsAsChain_iff (hreachable : Reachable db)
    (hrequest : request ∈ db.workflowRequests) :
    ReadsAsChain db request ↔ request.status = .inProgress := by
  cases hreachable.recorded request hrequest with
  | inProgress hstatus hrecords =>
      exact iff_of_true (readsAsChain_of_inProgress hrecords hstatus) hstatus
  | completed last hstatus hlast hrecords =>
      apply iff_of_false (not_readsAsChain_of_completed hreachable hrequest hstatus)
      rw [hstatus]
      simp

/-- A request after the first of two approvals. -/
theorem history_readsAsChain_iff_started :
    ∃ request ∈ (runCalls Database.empty
        (Sample.opening Sample.approvals [] ++ [Sample.approval])).workflowRequests,
      ReadsAsChain (runCalls Database.empty
        (Sample.opening Sample.approvals [] ++ [Sample.approval])) request := by
  obtain ⟨request, hrequest, hstatus⟩ :
      ∃ request ∈ (runCalls Database.empty
          (Sample.opening Sample.approvals [] ++ [Sample.approval])).workflowRequests,
        request.status = .inProgress := by
    decide +kernel
  exact ⟨request, hrequest, (history_readsAsChain_iff ⟨_, rfl⟩ hrequest).mpr hstatus⟩

/-- A request approved twice. -/
theorem not_readsAsChain_approved :
    ∃ request ∈ (runCalls Database.empty Sample.approvedTwice).workflowRequests,
      ¬ ReadsAsChain (runCalls Database.empty Sample.approvedTwice) request := by
  obtain ⟨request, hrequest, hcompleted⟩ :
      ∃ request ∈ (runCalls Database.empty Sample.approvedTwice).workflowRequests,
        request.status = .completed := by
    decide +kernel
  exact ⟨request, hrequest, not_readsAsChain_of_completed ⟨_, rfl⟩ hrequest hcompleted⟩

end WorkflowPlatform
