import WorkflowPlatform.Cases.Refinement
import WorkflowPlatform.Concurrency.DoubleDecision

/-! # Concurrent decisions of different requests

Decisions that run at once disturb each other only on one request. When they are
about pairwise different requests, every request ends with the case to which its own
decision leads, if that commits, and keeps its case otherwise, however the
transactions are interleaved.
-/

namespace WorkflowPlatform

open Python WorkflowEngine

/-- The decision as a ruling. -/
def Submission.ruling (submission : Submission) : Ruling :=
  ⟨submission.env, submission.user, submission.outcome, submission.context⟩

/-- The transactions that have committed, in the order of their commits. -/
def commitOrder : List (Event ℕ Uuid (WorkflowRequest × RequestStep)) → List ℕ
  | [] => []
  | .read _ _ _ :: log => commitOrder log
  | .decided tx _ _ :: log => commitOrder log ++ [tx]

/-- A transaction commits once, on the request it names. -/
structure CommitsOnce (submissions : ℕ → Submission) (world : World) : Prop where
  own : ∀ tx key item, Event.decided tx key item ∈ world.log → key = (submissions tx).requestId
  once : (commitOrder world.log).Nodup
  committed : ∀ tx, tx ∈ commitOrder world.log ↔ world.phases tx = .committed

variable {submissions : ℕ → Submission} {world : World} {initial : Database}

/-! ## One action -/

theorem commitsOnce_start (submissions : ℕ → Submission) (db : Database) :
    CommitsOnce submissions (World.start db) where
  own _ _ _ hmem := nomatch hmem
  once := List.nodup_nil
  committed tx := by
    constructor
    · intro hmem
      cases hmem
    · intro hphase
      cases hphase

/-- A transaction that is under way goes on to another phase without a commit. -/
theorem CommitsOnce.goOn (hworld : CommitsOnce submissions world) {tx : ℕ}
    (hunder : world.phases tx ≠ .committed) {after : World} (phase : Phase)
    (hphase : phase ≠ .committed) (hphases : after.phases = Function.update world.phases tx phase)
    (hlog : after.log = world.log ∨ ∃ key item, after.log = .read tx key item :: world.log) :
    CommitsOnce submissions after := by
  have horder : commitOrder after.log = commitOrder world.log := by
    rcases hlog with hlog | ⟨key, item, hlog⟩ <;> rw [hlog]
    rfl
  constructor
  · intro other key item hmem
    apply hworld.own other key item
    rcases hlog with hlog | ⟨key', item', hlog⟩
    · exact hlog ▸ hmem
    · rw [hlog] at hmem
      rcases List.mem_cons.mp hmem with heq | hold
      · cases heq
      · exact hold
  · exact horder ▸ hworld.once
  · intro other
    rw [horder, hworld.committed, hphases]
    by_cases hother : other = tx
    · subst hother
      rw [Function.update_self]
      exact iff_of_false hunder hphase
    · rw [Function.update_of_ne hother]

theorem CommitsOnce.commit (hworld : CommitsOnce submissions world) {tx : ℕ}
    (hunder : world.phases tx ≠ .committed) (request : WorkflowRequest) (exec : RequestStep)
    (db : Database) :
    CommitsOnce submissions (world.commit tx (submissions tx).requestId request exec db) where
  own other key item hmem := by
    rcases List.mem_cons.mp hmem with heq | hold
    · cases heq
      rfl
    · exact hworld.own other key item hold
  once := by
    apply List.nodup_append.mpr
    refine ⟨hworld.once, List.nodup_singleton tx, ?_⟩
    intro other hother last hlast
    rw [List.mem_singleton.mp hlast]
    intro heq
    exact hunder ((hworld.committed tx).mp (heq ▸ hother))
  committed other := by
    simp only [World.commit, commitOrder, List.mem_append, List.mem_singleton, hworld.committed]
    by_cases hother : other = tx
    · subst hother
      simp
    · rw [Function.update_of_ne hother]
      simp [hother]

theorem CommitsOnce.advance (hworld : CommitsOnce submissions world) (tx : ℕ) :
    CommitsOnce submissions (advance submissions world tx) := by
  have habort : world.phases tx ≠ .committed → CommitsOnce submissions (world.abort tx) :=
    fun hunder => hworld.goOn hunder .aborted (by simp) rfl (.inl rfl)
  unfold WorkflowPlatform.advance
  cases hphase : world.phases tx with
  | begun =>
      have hunder : world.phases tx ≠ .committed := by simp [hphase]
      simp only
      split
      · exact hworld.goOn hunder (.requestRead _) (by simp) rfl (.inl rfl)
      · exact habort hunder
  | requestRead request =>
      have hunder : world.phases tx ≠ .committed := by simp [hphase]
      simp only
      split
      · exact hworld.goOn hunder (.executionRead _ _) (by simp) rfl (.inr ⟨_, _, rfl⟩)
      · exact habort hunder
  | executionRead request exec =>
      have hunder : world.phases tx ≠ .committed := by simp [hphase]
      simp only
      split
      · split
        · exact hworld
        · exact hworld.goOn hunder (.flushed _ _ _) (by simp) rfl (.inl rfl)
      · exact habort hunder
  | flushed request exec writes =>
      have hunder : world.phases tx ≠ .committed := by simp [hphase]
      simp only
      split
      · exact hworld.commit hunder request exec _
      · exact habort hunder
  | committed | aborted => exact hworld

theorem CommitsOnce.act (hworld : CommitsOnce submissions world) (action : Action) :
    CommitsOnce submissions (act submissions world action) := by
  cases action with
  | advance tx => exact hworld.advance tx
  | abort tx =>
      simp only [WorkflowPlatform.act]
      split
      · exact hworld
      · next hunder => exact hworld.goOn hunder .aborted (by simp) rfl (.inl rfl)

theorem commitsOnce_interleave (submissions : ℕ → Submission) (initial : Database)
    (schedule : List Action) :
    CommitsOnce submissions (interleave submissions initial schedule) :=
  SerialRun.invariant (CommitsOnce submissions) (fun _ action hworld => hworld.act action) schedule
    (commitsOnce_start submissions initial)

/-! ## Different requests -/

/-- No decision of another transaction is about the request. -/
theorem overtaken_eq_false (hdistinct : Function.Injective fun tx => (submissions tx).requestId)
    {log : List (Event ℕ Uuid (WorkflowRequest × RequestStep))}
    (hown : ∀ tx key item, Event.decided tx key item ∈ log → key = (submissions tx).requestId)
    (tx : ℕ) : Event.overtaken tx (submissions tx).requestId log = false := by
  induction log with
  | nil => rfl
  | cons event log ih =>
      have hrest := ih fun other key item hmem => hown other key item (List.mem_cons_of_mem _ hmem)
      cases event with
      | read reader key item => simp [Event.overtaken, hrest]
      | decided decider key item =>
          have hkey := hown decider key item List.mem_cons_self
          simp only [Event.overtaken, hrest, Bool.false_eq_true, or_false, decide_eq_false_iff_not,
            not_and, hkey]
          intro hne heq
          exact hne (hdistinct heq)

theorem undisturbed_of_distinct
    (hdistinct : Function.Injective fun tx => (submissions tx).requestId)
    {log : List (Event ℕ Uuid (WorkflowRequest × RequestStep))}
    (hown : ∀ tx key item, Event.decided tx key item ∈ log → key = (submissions tx).requestId) :
    Event.Undisturbed log := by
  induction log with
  | nil => trivial
  | cons event log ih =>
      have hrest := fun other key item hmem => hown other key item (List.mem_cons_of_mem _ hmem)
      cases event with
      | read => exact ih hrest
      | decided tx key item =>
          refine ⟨?_, ih hrest⟩
          rw [hown tx key item List.mem_cons_self]
          exact overtaken_eq_false hdistinct hrest tx

/-- The rulings on a request, in the order in which the transactions commit. -/
theorem inputs_serialOrder (submissions : ℕ → Submission) (requestId : Uuid)
    (log : List (Event ℕ Uuid (WorkflowRequest × RequestStep))) :
    SerialRun.inputs (Call.rulingOn requestId) (serialOrder submissions log) =
      ((commitOrder log).filter fun tx => (submissions tx).requestId = requestId).map
        fun tx => (submissions tx).ruling := by
  induction log with
  | nil => rfl
  | cons event log ih =>
      cases event with
      | read => exact ih
      | decided tx key item =>
          rw [SerialRun.inputs] at ih
          rw [SerialRun.inputs, serialOrder, commitOrder, List.filterMap_append, ih,
            List.filter_append, List.map_append]
          by_cases hkey : (submissions tx).requestId = requestId
          · simp [Submission.call, Call.rulingOn, hkey, Submission.ruling]
          · simp [Submission.call, Call.rulingOn, hkey]

/-- At most one transaction is about a request. -/
theorem filter_commitOrder (hdistinct : Function.Injective fun tx => (submissions tx).requestId)
    (hworld : CommitsOnce submissions world) (tx : ℕ) :
    ((commitOrder world.log).filter fun other =>
      (submissions other).requestId = (submissions tx).requestId) =
      if tx ∈ commitOrder world.log then [tx] else [] := by
  have hsame : ∀ other ∈ commitOrder world.log,
      decide ((submissions other).requestId = (submissions tx).requestId) = (other == tx) := by
    intro other _
    rw [Bool.eq_iff_iff, decide_eq_true_eq, beq_iff_eq]
    exact ⟨fun heq => hdistinct heq, fun heq => heq ▸ rfl⟩
  rw [List.filter_congr hsame, List.filter_beq, hworld.once.count]
  split <;> rfl

/-- When pairwise different requests are decided at once, every interleaving leaves each of
them with the case its own ruling leads to, if that transaction commits, and with the
case it had otherwise; a request that none decides keeps its case. -/
theorem different_requests_apart (hreachable : Reachable initial)
    (hdistinct : Function.Injective fun tx => (submissions tx).requestId)
    {request : WorkflowRequest} (hrequest : request ∈ initial.workflowRequests)
    (schedule : List Action) :
    let world := interleave submissions initial schedule
    (∀ tx, (submissions tx).requestId = request.id → world.phases tx = .committed →
        world.db.case? request.id = some ((caseOf initial request).rule
          (initial.definition request.workflowId) (submissions tx).ruling)) ∧
      ((∀ tx, (submissions tx).requestId = request.id → world.phases tx ≠ .committed) →
        world.db.case? request.id = some (caseOf initial request)) := by
  intro world
  have hworld : CommitsOnce submissions world :=
    commitsOnce_interleave submissions initial schedule
  have hserial := interleave_serial hreachable.wellFormed
    (undisturbed_of_distinct hdistinct hworld.own)
  have hcase := case?_runCalls hreachable.wellFormed hrequest (serialOrder submissions world.log)
  rw [inputs_serialOrder] at hcase
  change world.db = _ at hserial
  rw [hserial, hcase]
  constructor
  · intro tx hid hphase
    rw [← hid, filter_commitOrder hdistinct hworld, if_pos ((hworld.committed tx).mpr hphase)]
    rfl
  · intro hnone
    have hempty : ((commitOrder world.log).filter fun tx =>
        (submissions tx).requestId = request.id) = [] := by
      apply List.filter_eq_nil_iff.mpr
      intro tx htx
      rw [decide_eq_true_eq]
      intro hid
      exact hnone tx hid ((hworld.committed tx).mp htx)
    rw [hempty]
    rfl

namespace Sample

/-- Every transaction approves a request of its own. -/
def approveOwn (tx : ℕ) : Submission := ⟨.calm noon, 5 + tx, admin, "APPROVED", none⟩

theorem approveOwn_injective : Function.Injective fun tx => (approveOwn tx).requestId := by
  intro tx other heq
  exact Nat.add_left_cancel heq

end Sample

theorem different_requests_apart_approved :
    ∃ request ∈ Sample.opened.workflowRequests,
      (interleave Sample.approveOwn Sample.opened bothRead).db.case? request.id =
        some ((caseOf Sample.opened request).rule
          (Sample.opened.definition request.workflowId) (Sample.approveOwn 0).ruling) := by
  obtain ⟨request, hrequest, hid⟩ :
      ∃ request ∈ Sample.opened.workflowRequests, request.id = 5 := by
    decide +kernel
  have hcommitted : (interleave Sample.approveOwn Sample.opened bothRead).phases 0 =
      .committed := by
    rfl
  exact ⟨request, hrequest, (different_requests_apart Sample.opened_reachable
    Sample.approveOwn_injective hrequest bothRead).1 0 hid.symm hcommitted⟩

end WorkflowPlatform
