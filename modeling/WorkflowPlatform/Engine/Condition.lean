import WorkflowPlatform.Python.Json

/-! # The condition evaluator

Guards of transitions are JSON configurations evaluated against the data of a
request and of a decision. Whatever goes wrong on the way makes a guard false.
-/

namespace WorkflowPlatform

open Python

namespace ConditionEvaluator

/-- Follow a dotted path through nested dictionaries. A missing key and a step
into anything but a dictionary both end in `None`. -/
def walk : Json → List String → Json
  | value, [] => value
  | .obj fields, part :: rest => walk ((fields.lookup part).getD .null) rest
  | _, _ :: _ => .null

/-- The numeric comparison an operator names. -/
def comparison? : String → Option (PyFloat → PyFloat → Bool)
  | ">" => some fun actual target => target.lt actual
  | "<" => some fun actual target => actual.lt target
  | ">=" => some fun actual target => target.le actual
  | "<=" => some fun actual target => actual.le target
  | _ => none

/-- The body of `_apply_operator`, before its exception handler. -/
def applyOperatorBody (actual : Json) (operator : String) (target : Json) : Except PyExc Bool :=
  if operator = "==" then .ok (actual.eq target)
  else if operator = "!=" then .ok (!actual.eq target)
  else match comparison? operator with
    | some compare => do
        let left ← actual.toFloat
        let right ← target.toFloat
        return compare left right
    | none =>
        if operator = "in" then actual.isIn target
        else if operator = "contains" then target.isIn actual
        else .ok false

/-- `_apply_operator`: value and type errors make the comparison false, an
overflow escapes to the caller. -/
def applyOperator (actual : Json) (operator : String) (target : Json) : Except PyExc Bool :=
  match applyOperatorBody actual operator target with
  | .error .valueError | .error .typeError => .ok false
  | result => result

/-- The body of `evaluate` on a configuration that is not empty. -/
def evaluateBody (config context : Dict) : Except PyExc Bool :=
  let field := (config.lookup "field").getD .null
  let operator := (config.lookup "operator").getD (.str "==")
  let target := (config.lookup "value").getD .null
  if !field.truthy then .ok true
  else match field with
    | .str path =>
        let actual := walk (.obj context) (splitDots path)
        if actual.isNull && !target.isNull then .ok false
        else match operator with
          | .str name => applyOperator actual name target
          | _ => .ok false
    | _ => .error .attributeError

/-- `evaluate`: no configuration is true, an exception is false. -/
def evaluate (config : Option Dict) (context : Dict) : Bool :=
  match config with
  | none | some [] => true
  | some config =>
      match evaluateBody config context with
      | .ok holds => holds
      | .error _ => false

end ConditionEvaluator

/-- The context a transition is evaluated in: what the request carries and what
the decision carries, an absent dictionary counting as an empty one. -/
def evalContext (requestData context : Option Dict) : Dict :=
  [("request_data", .obj (requestData.getD [])), ("decision_data", .obj (context.getD []))]

end WorkflowPlatform
