import NacPlatform.PolicyEngine.Rule
import NacPlatform.Framework.Rows
import NacPlatform.Platform.Runtime
import Mathlib.Data.List.Sort

namespace NacPlatform

section Evaluator

variable (rt : Runtime)

mutual

/-- The leaves that need posture data are left to the batch evaluator: the context has none. -/
def matchesCondition (ctx : PolicyContext) : Condition → Bool
  | .osFamily value => ctx.osFamily==some value
  | .userGroup groups => groups.any fun g => ctx.groups.contains g
  | .compliant required => ctx.isCompliant==some required
  | .deviceType value => ctx.deviceType==some value
  | .and conditions => allMatch ctx conditions
  | .or conditions => anyMatch ctx conditions
  | .not condition => !matchesCondition ctx condition
  | .macList macs => macs.any fun m => rt.toUppercase m==rt.toUppercase ctx.macAddress
  | .macBlacklist macs => macs.any fun m => rt.toUppercase m==rt.toUppercase ctx.macAddress
  | .osVersionBelow _ | .osVersionAtLeast _ | .softwareInstalled _ | .softwareNotInstalled _
  | .hasMissingPatches | .usbEnabled | .bluetoothEnabled | .folderSharingEnabled => false

def allMatch (ctx : PolicyContext) : List Condition → Bool
  | [] => true
  | c::cs => matchesCondition ctx c && allMatch ctx cs

def anyMatch (ctx : PolicyContext) : List Condition → Bool
  | [] => false
  | c::cs => matchesCondition ctx c || anyMatch ctx cs

end

/-- `sort_by_key(|r| r.priority)`, which is stable. -/
def sortRules (rules : List PolicyRule) : List PolicyRule :=
  rules.insertionSort fun a b => a.priority ≤ b.priority

/-- The rule the loop of `evaluate` stops at. -/
def firstMatch (rules : List PolicyRule) (ctx : PolicyContext) : Option PolicyRule :=
  (sortRules rules).find? fun r => matchesCondition rt ctx r.condition

def noMatchDecision : PolicyDecision := .deny "no matching policy rule"

def evaluate (rules : List PolicyRule) (ctx : PolicyContext) : PolicyDecision :=
  ((firstMatch rt rules ctx).map (·.decision)).getD noMatchDecision

variable {rt}

theorem allMatch_eq (ctx : PolicyContext) (cs : List Condition) :
    allMatch rt ctx cs=cs.all (matchesCondition rt ctx) := by
  induction cs with
  | nil => rfl
  | cons c cs ih => simp only [allMatch,List.all_cons,ih]

theorem anyMatch_eq (ctx : PolicyContext) (cs : List Condition) :
    anyMatch rt ctx cs=cs.any (matchesCondition rt ctx) := by
  induction cs with
  | nil => rfl
  | cons c cs ih => simp only [anyMatch,List.any_cons,ih]

theorem sortRules_perm (rules : List PolicyRule) : (sortRules rules).Perm rules :=
  List.perm_insertionSort _ _

/-- Rules that come in order of priority are taken in the order they come. -/
theorem sortRules_of_sorted {rules : List PolicyRule}
    (h : rules.Pairwise fun a b => a.priority ≤ b.priority) : sortRules rules=rules :=
  h.insertionSort_eq

end Evaluator

end NacPlatform
