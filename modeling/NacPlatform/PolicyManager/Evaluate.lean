import NacPlatform.PolicyManager.Conditions
import NacPlatform.PolicyManager.Consumer

namespace NacPlatform.Evaluate

structure EvaluateResult where
  evaluated : Nat
  changed : Nat
  skipped : Nat
  deriving DecidableEq, Repr

/-- The first rule in order of priority that matches the stored row. -/
def automaticMatch (rt : Runtime) (rules : List (Uuid × PolicyRule)) (ep : EndpointRow) :
    Option PolicyRule :=
  (rules.map (·.2)).find? fun rule => conditionMatches rt ep rule.condition

/-- An assigned policy counts also when it is disabled; one that is gone counts as no policy. -/
def policyStatus (rt : Runtime) (rules : List (Uuid × PolicyRule)) (ep : EndpointRow) :
    Handler (Option Status) := do
  match ep.assignedPolicyId with
  | some pid =>
    match rules.find? (·.1==pid) with
    | some (_,rule) => return some (decisionToStatus rule.decision)
    | none =>
      let found ← (findRuleById pid).attempt
      return found.toOption.join.map fun rule => decisionToStatus rule.decision
  | none => return (automaticMatch rt rules ep).map fun rule => decisionToStatus rule.decision

def applyStatus (ep : EndpointRow) (status : String) : Handler Unit := do
  query (.setStatus ep.id status)
  let _ ← probe (.publishCommand
    (enforcementCommand ep.macAddress.text (ep.ipAddress.getD "") status none))

def evaluateEach (rt : Runtime) (rules : List (Uuid × PolicyRule)) (defaultAction : Option String) :
    List EndpointRow → EvaluateResult → Handler EvaluateResult
  | [],acc => return acc
  | ep::eps,acc => do
    if ep.policyExempt then
      evaluateEach rt rules defaultAction eps { acc with skipped := acc.skipped+1 }
    else
      let newStatus ← policyStatus rt rules ep
      match (newStatus.map Status.text).or defaultAction with
      | none => evaluateEach rt rules defaultAction eps acc
      | some status =>
        if ep.status.text != status then
          applyStatus ep status
          evaluateEach rt rules defaultAction eps { acc with changed := acc.changed+1 }
        else evaluateEach rt rules defaultAction eps acc

def evaluatePolicies (rt : Runtime) (defaultAction : Option String) : Handler EvaluateResult := do
  let rules ← loadRulesWithId
  let endpoints ← query (.listEndpoints 10000 0)
  evaluateEach rt rules defaultAction endpoints ⟨endpoints.length,0,0⟩

end NacPlatform.Evaluate
