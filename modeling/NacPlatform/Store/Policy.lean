import NacPlatform.Store.Endpoint
import NacPlatform.PolicyEngine.Rule

namespace NacPlatform

/-- `CHECK (action IN ('allow','quarantine','deny'))`. -/
inductive PolicyAction where
  | allow
  | quarantine
  | deny
  deriving DecidableEq, Repr

/-- A row of `policies`, with the columns the rules are made of. -/
structure PolicyRow where
  id : Uuid
  name : String
  priority : Int32
  conditions : Json
  action : PolicyAction
  vlanId : Option Int16
  enabled : Bool

/-- No list, or an empty one, stands for the condition that always matches. -/
def storedConditions : Json → Except DbError (List Condition)
  | .null => .ok []
  | .array elems => (elems.mapM Condition.fromValue).elim (.error .conversion) .ok
  | _ => .error .conversion

def combine : List Condition → Condition
  | [c] => c
  | cs => .and cs

def PolicyRow.decision (row : PolicyRow) : PolicyDecision :=
  match row.action with
  | .allow => .allow
  | .quarantine => .quarantine (row.vlanId.getD 99).toUInt16 ("policy: "++row.name)
  | .deny => .deny ("policy: "++row.name)

def toPolicyRule (row : PolicyRow) : Except DbError PolicyRule := do
  let conditions ← storedConditions row.conditions
  return ⟨row.name,row.priority.toInt,combine conditions,row.decision⟩

def decisionToStatus : PolicyDecision → Status
  | .allow => .allowed
  | .allowVlan _ => .allowed
  | .quarantine .. => .quarantined
  | .deny _ => .denied

/-- `WHERE enabled = true ORDER BY priority ASC`. -/
def enabledPolicies (pg : Postgres) (rows : List PolicyRow) : List PolicyRow :=
  ((pg.scan rows).filter (·.enabled)).insertionSort fun a b => a.priority ≤ b.priority

/-- A policy without conditions: it matches every device. -/
def catchAll (action : PolicyAction) : PolicyRow :=
  ⟨1,"catch-all",100,.array [],action,none,true⟩

end NacPlatform
