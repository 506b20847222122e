import WorkflowPlatform.Engine.ProcessLaws

/-! # Cases

What the engine is for, said of one request alone. A case is at a step of its
definition or closed. A ruling of someone who may give it ends the visit of the step
and takes the case along the first enabled transition of its outcome; where there is
none, or it has no target, the case is closed. Nothing else changes a case.
-/

namespace WorkflowPlatform

open Python WorkflowEngine

/-- The steps of a workflow and the transitions that leave them. -/
structure Definition where
  steps : List WorkflowStep
  transitions : List StepTransition

namespace Definition

def step? (definition : Definition) (stepId : Uuid) : Option WorkflowStep :=
  definition.steps.find? (·.id = stepId)

def transitionsFrom (definition : Definition) (stepId : Uuid) (outcome : String) :
    List StepTransition :=
  definition.transitions.filter fun trans => trans.fromStepId = stepId ∧ trans.outcome = outcome

end Definition

/-- A decided visit of a step. -/
structure Visit where
  stepId : Uuid
  startedAt : Option DateTime
  deadline : Option DateTime
  decidedBy : Option Uuid
  outcome : StepStatus
  data : Option Dict
  decidedAt : Option DateTime

/-- Where a case is. -/
inductive Stage
  | waiting (stepId : Uuid) (startedAt deadline : Option DateTime)
  | closed (completedAt : Option DateTime)

/-- A request with what became of it. -/
structure Case where
  data : Option Dict
  visits : List Visit
  stage : Stage

/-- Who decides, how, on what grounds, and what the decision meets. -/
structure Ruling where
  env : Env
  user : User
  outcome : String
  context : Option Dict

namespace Ruling

/-- Whether the user may decide a step. -/
def permitted (ruling : Ruling) (definition : Definition) (stepId : Uuid) : Bool :=
  isAdmin ruling.user ||
    (definition.step? stepId).any fun step => (missing ruling.user step).isNone

/-- The step the ruling leads to. -/
def next (ruling : Ruling) (definition : Definition) (data : Option Dict) (stepId : Uuid) :
    Option WorkflowStep :=
  (ruling.env.transitionOrder.pick (enabled (evalContext data ruling.context))
    (definition.transitionsFrom stepId ruling.outcome)).bind
      fun trans => trans.toStepId.bind definition.step?

/-- The visit as the ruling ends it. -/
def visit (ruling : Ruling) (stepId : Uuid) (startedAt deadline : Option DateTime)
    (outcome : StepStatus) : Visit where
  stepId := stepId
  startedAt := startedAt
  deadline := deadline
  decidedBy := some ruling.user.id
  outcome := outcome
  data := ruling.context
  decidedAt := some (ruling.env.utcnow 0)

end Ruling

namespace Case

/-- The case after a ruling that is given effect; `none` when it is refused. -/
def rule? (definition : Definition) (case : Case) (ruling : Ruling) : Option Case :=
  match case.stage with
  | .closed _ => none
  | .waiting stepId startedAt deadline =>
      if !ruling.permitted definition stepId || !ruling.env.stores ruling.context ||
          ruling.env.dbFails 1 || ruling.env.dbFails 2 then none
      else (StepStatus.ofValue? ruling.outcome).bind fun outcome =>
        let visits := case.visits ++ [ruling.visit stepId startedAt deadline outcome]
        match ruling.next definition case.data stepId with
        | some step =>
            ((ruling.env.utcnow 1).addHours step.slaHours).map fun deadline =>
              ⟨case.data, visits, .waiting step.id (some (ruling.env.utcnow 1)) (some deadline)⟩
        | none =>
            if ruling.env.dbFails 0 then none
            else some ⟨case.data, visits, .closed (some (ruling.env.utcnow 1))⟩

/-- A refused ruling changes nothing. -/
def rule (definition : Definition) (case : Case) (ruling : Ruling) : Case :=
  (case.rule? definition ruling).getD case

end Case

end WorkflowPlatform
