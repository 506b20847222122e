import WorkflowPlatform.Routing.Orders

/-! # What guards can see

A guard reads the data under the first segment of its field and nothing else. Where no
guard reads what the assignee sends, the assignee cannot steer the request, and where
all guards read it, the data of the request cannot.
-/

namespace WorkflowPlatform

open Python WorkflowEngine

namespace ConditionEvaluator

/-- The first dotted segment of the field that a configuration reads, if it reads one. -/
def segment? (config : Dict) : Option String :=
  match config.lookup "field" with
  | some (.str field) => (splitDots field).head?
  | _ => none

/-- A path is followed from the entry of its first segment. -/
theorem walk_congr {context context' : Dict} {segment : String} (rest : List String)
    (hsame : context.lookup segment = context'.lookup segment) :
    walk (.obj context) (segment :: rest) = walk (.obj context') (segment :: rest) := by
  rw [walk, walk, hsame]

/-- Contexts that agree on the segment a configuration reads evaluate it alike. -/
theorem evaluate_congr {config context context' : Dict}
    (hsame : ∀ segment ∈ segment? config, context.lookup segment = context'.lookup segment) :
    evaluate (some config) context = evaluate (some config) context' := by
  have hwalk : ∀ field, config.lookup "field" = some (.str field) →
      walk (.obj context) (splitDots field) = walk (.obj context') (splitDots field) := by
    intro field hfield
    cases hsegments : splitDots field with
    | nil =>
        -- even the empty text has a segment
        have hnonempty := List.splitOn_ne_nil '.' field.toList
        exact absurd (List.map_eq_nil_iff.mp hsegments) hnonempty
    | cons segment rest =>
        refine walk_congr rest (hsame segment ?_)
        rw [segment?, hfield]
        simp [hsegments]
  have hbody : evaluateBody config context = evaluateBody config context' := by
    unfold evaluateBody
    cases hfield : config.lookup "field" with
    | none => rfl
    | some field =>
        cases field with
        | str field => simp only [Option.getD_some, hwalk field hfield]
        -- a field that is no text raises before the context is read
        | null | bool | int | float | arr | obj => rfl
  cases config with
  | nil => rfl
  | cons entry rest => simp only [evaluate, hbody]

end ConditionEvaluator

open ConditionEvaluator

/-! ## Guards of transitions -/

theorem lookup_evalContext (requestData context : Option Dict) (segment : String) :
    (evalContext requestData context).lookup segment =
      if segment = "request_data" then some (.obj (requestData.getD []))
      else if segment = "decision_data" then some (.obj (context.getD []))
      else none := by
  rw [evalContext, List.lookup_cons, List.lookup_cons, List.lookup_nil]
  by_cases hrequest : segment = "request_data"
  · rw [beq_iff_eq.mpr hrequest, if_pos hrequest]
  · rw [beq_eq_false_iff_ne.mpr hrequest, if_neg hrequest]
    by_cases hdecision : segment = "decision_data"
    · rw [beq_iff_eq.mpr hdecision, if_pos hdecision]
    · rw [beq_eq_false_iff_ne.mpr hdecision, if_neg hdecision]

/-- A guard does not read the data under a segment. -/
def StepTransition.Ignores (segment : String) (trans : StepTransition) : Prop :=
  ∀ config ∈ trans.conditionConfig, segment? config ≠ some segment

/-- A guard reads nothing but the data under a segment. -/
def StepTransition.ReadsOnly (segment : String) (trans : StepTransition) : Prop :=
  ∀ config ∈ trans.conditionConfig, config ≠ [] → segment? config = some segment

instance (segment : String) (trans : StepTransition) : Decidable (trans.Ignores segment) :=
  inferInstanceAs (Decidable (∀ config ∈ trans.conditionConfig, segment? config ≠ some segment))

instance (segment : String) (trans : StepTransition) : Decidable (trans.ReadsOnly segment) :=
  inferInstanceAs (Decidable (∀ config ∈ trans.conditionConfig, config ≠ [] →
    segment? config = some segment))

theorem enabled_congr {trans : StepTransition} {context context' : Dict}
    (hsame : ∀ config ∈ trans.conditionConfig, config ≠ [] → ∀ segment ∈ segment? config,
      context.lookup segment = context'.lookup segment) :
    enabled context trans = enabled context' trans := by
  unfold enabled
  cases hconfig : trans.conditionConfig with
  | none => rfl
  | some config =>
      cases config with
      | nil => rfl
      | cons entry rest =>
          exact evaluate_congr (hsame _ hconfig (List.cons_ne_nil entry rest))

/-- The guards see the decision only where they read it. -/
theorem enabled_of_ignores {trans : StepTransition} (hignores : trans.Ignores "decision_data")
    (requestData context context' : Option Dict) :
    enabled (evalContext requestData context) trans =
      enabled (evalContext requestData context') trans := by
  apply enabled_congr
  intro config hconfig _ segment hsegment
  have hne : segment ≠ "decision_data" := by
    rintro rfl
    exact hignores config hconfig hsegment
  rw [lookup_evalContext, lookup_evalContext, if_neg hne, if_neg hne]

/-- The guards see the request only where they read more than the decision. -/
theorem enabled_of_readsOnly {trans : StepTransition} (hreads : trans.ReadsOnly "decision_data")
    (requestData requestData' context : Option Dict) :
    enabled (evalContext requestData context) trans =
      enabled (evalContext requestData' context) trans := by
  apply enabled_congr
  intro config hconfig hnonempty segment hsegment
  obtain rfl : segment = "decision_data" :=
    Option.some.inj (hsegment.symm.trans (hreads config hconfig hnonempty))
  rfl

/-! ## Selections -/

def WorkflowRequest.withData (request : WorkflowRequest) (data : Option Dict) :
    WorkflowRequest :=
  { request with requestData := data }

/-- The state with other data in a request. -/
def Database.withRequestData (db : Database) (requestId : Uuid) (data : Option Dict) : Database :=
  { db with
    workflowRequests := Keyed.update (·.id) requestId (·.withData data) db.workflowRequests }

variable {db : Database} {request : WorkflowRequest} {env : Env} {user : User} {outcome : String}
  {context : Option Dict}

theorem request?_withRequestData (hdb : WellFormed db) (hrequest : request ∈ db.workflowRequests)
    (data : Option Dict) :
    (db.withRequestData request.id data).request? request.id =
      some (request.withData data) := by
  have hids : (db.withRequestData request.id data).workflowRequests.map (·.id) =
      db.workflowRequests.map (·.id) := by
    refine Keyed.map_key_update ?_ _
    intro row
    rfl
  refine (Keyed.find?_eq_some_iff (hids ▸ hdb.request_keys)).mpr ⟨?_, rfl⟩
  exact Keyed.mem_update.mpr (.inl ⟨request, hrequest, rfl, rfl⟩)

/-- An accepted decision leads its request to what the guards select. -/
theorem course_accepted {requestId : Uuid} (hread : db.request? requestId = some request)
    (haccepted : (Call.processStep env requestId user outcome context).accepted db = true) :
    course ((Call.processStep env requestId user outcome context).perform db) requestId =
      ledOn outcome (course db requestId) (nextStepOf env db request outcome context) := by
  rw [accepted_processStep, Option.isSome_iff_exists] at haccepted
  obtain ⟨db', hdecided⟩ := haccepted
  obtain ⟨other, exec, status, haccepted, hrouted⟩ := decided_iff.mp hdecided
  obtain rfl : request = other := Option.some.inj (hread.symm.trans haccepted.request_read)
  obtain rfl : request.id = requestId := by simpa using List.find?_some hread
  rw [perform_processStep, hdecided, Option.getD_some]
  exact course_routed hrouted

/-- Transitions with the same enabled ones, in one order, select the same step. -/
theorem resolveNext_congr {order : RowOrder StepTransition} {db : Database}
    {fromStepId : Option Uuid} {outcome : String} {context context' : Dict}
    (hsame : ∀ trans ∈ matchingTransitions db fromStepId outcome,
      enabled context trans = enabled context' trans) :
    resolveNext order db fromStepId outcome context =
      resolveNext order db fromStepId outcome context' := by
  have hpick : order.pick (enabled context) (matchingTransitions db fromStepId outcome) =
      order.pick (enabled context') (matchingTransitions db fromStepId outcome) := by
    refine List.find?_congr fun trans htrans => ?_
    exact hsame trans (order.mem_rows.mp htrans)
  rw [resolveNext, resolveNext, hpick]

/-- Where no guard for an outcome reads the decision, what the assignee sends does not
select the next step or the verdict; where all guards read the decision only, the data
of the request does not. -/
theorem assignees_cannot_steer (hreachable : Reachable db)
    (hrequest : request ∈ db.workflowRequests) {env env' : Env}
    (horder : env.transitionOrder = env'.transitionOrder) (user : User) (outcome : String) :
    let transitions := matchingTransitions db request.currentStepId outcome
    ((∀ trans ∈ transitions, trans.Ignores "decision_data") → ∀ context context',
        let call := Call.processStep env request.id user outcome context
        let call' := Call.processStep env' request.id user outcome context'
        call.accepted db = true → call'.accepted db = true →
          course (call.perform db) request.id = course (call'.perform db) request.id) ∧
      ((∀ trans ∈ transitions, trans.ReadsOnly "decision_data") → ∀ data data' context,
        let db₁ := db.withRequestData request.id data
        let db₂ := db.withRequestData request.id data'
        let call := Call.processStep env request.id user outcome context
        let call' := Call.processStep env' request.id user outcome context
        call.accepted db₁ = true → call'.accepted db₂ = true →
          course (call.perform db₁) request.id = course (call'.perform db₂) request.id) := by
  have hdb := hreachable.wellFormed
  refine ⟨fun hignores context context' => ?_, fun hreads data data' context => ?_⟩
  · intro call call' haccepted haccepted'
    have hread : db.request? request.id = some request :=
      hdb.request?_eq_some_iff.mpr ⟨hrequest, rfl⟩
    rw [course_accepted hread haccepted, course_accepted hread haccepted', nextStepOf, nextStepOf,
      ← horder, resolveNext_congr fun trans htrans =>
        enabled_of_ignores (hignores trans htrans) request.requestData context context']
  · intro db₁ db₂ call call' haccepted haccepted'
    have hread₁ := request?_withRequestData hdb hrequest data
    have hread₂ := request?_withRequestData hdb hrequest data'
    have hnext : nextStepOf env db₁ (request.withData data) outcome context =
        nextStepOf env' db₂ (request.withData data') outcome context := by
      rw [nextStepOf, nextStepOf, ← horder]
      exact resolveNext_congr fun trans htrans =>
        enabled_of_readsOnly (hreads trans htrans) data data' context
    rw [course_accepted hread₁ haccepted, course_accepted hread₂ haccepted', hnext]
    rfl

/-! ### Guards of both kinds -/

namespace Sample

/-- Large amounts are approved on to the second review, and appeals are heard there. -/
def appeals : WorkflowCreate := twoReviews
  [⟨1, some 2, "APPROVED", some [("field", .str "request_data.amount"), ("operator", .str ">"),
      ("value", .int 100)]⟩,
    ⟨1, some 2, "REJECTED", some [("field", .str "decision_data.appeal"),
      ("value", .bool true)]⟩]

/-- The state in which a large amount waits for its first review. -/
def largeAmount : Database :=
  runCalls Database.empty (opening appeals [("amount", .int 500)])

/-- A decision context that pretends to be the data of a request. -/
def forged : Dict := [("request_data", .obj [("amount", .int 0)]), ("amount", .int 0)]

end Sample

/-- A forged amount is of no use to the approver, nor is it to one who rejects. -/
theorem assignees_cannot_steer_forged :
    let approve := fun context =>
      Call.processStep (.calm Sample.noon) 5 Sample.admin "APPROVED" context
    let reject := Call.processStep (.calm Sample.noon) 5 Sample.admin "REJECTED"
      (some [("appeal", .bool true)])
    course ((approve none).perform Sample.largeAmount) 5 =
        course ((approve (some Sample.forged)).perform Sample.largeAmount) 5 ∧
      course (reject.perform (Sample.largeAmount.withRequestData 5 none)) 5 =
        course (reject.perform (Sample.largeAmount.withRequestData 5 (some Sample.forged))) 5 := by
  obtain ⟨request, hrequest, hid, hstep⟩ : ∃ request ∈ Sample.largeAmount.workflowRequests,
      request.id = 5 ∧ request.currentStepId = some 1 := by
    decide +kernel
  have horder : (Env.calm Sample.noon).transitionOrder = (Env.calm Sample.noon).transitionOrder :=
    rfl
  have happrove := (assignees_cannot_steer ⟨_, rfl⟩ hrequest horder Sample.admin "APPROVED").1
  have hreject := (assignees_cannot_steer ⟨_, rfl⟩ hrequest horder Sample.admin "REJECTED").2
  rw [hid, hstep] at happrove hreject
  constructor
  · refine happrove ?_ none (some Sample.forged) ?_ ?_
    · decide +kernel
    · decide +kernel
    · decide +kernel
  · refine hreject ?_ none (some Sample.forged) (some [("appeal", .bool true)]) ?_ ?_
    · decide +kernel
    · decide +kernel
    · decide +kernel

end WorkflowPlatform
