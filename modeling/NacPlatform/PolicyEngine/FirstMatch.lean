import NacPlatform.PolicyEngine.Evaluator
import NacPlatform.Framework.StableSort

namespace NacPlatform

section FirstMatch

variable (rt : Runtime)

/-- `evaluate` with what it leaves of the caller's slice. -/
def evaluateSlice (rules : List PolicyRule) (ctx : PolicyContext) :
    PolicyDecision × List PolicyRule :=
  let rules := sortRules rules
  (((rules.find? fun r => matchesCondition rt ctx r.condition).map (·.decision)).getD
    noMatchDecision,rules)

/-- The rule at position `i` matches, and is the first to do so in order of priority and, among
rules of one priority, of position. -/
def FirstToMatch (rules : List PolicyRule) (ctx : PolicyContext) (i : Nat) (r : PolicyRule) : Prop :=
  LeastMatch (·.priority) (fun r => matchesCondition rt ctx r.condition) rules i r

variable {rt}

theorem evaluateSlice_answer (rules : List PolicyRule) (ctx : PolicyContext) :
    (evaluateSlice rt rules ctx).1=evaluate rt rules ctx := rfl

theorem sortRules_eq (rules : List PolicyRule) :
    sortRules rules=sortByKey (·.priority) rules := rfl

theorem sortRules_stable (rules : List PolicyRule) (priority : Int) :
    (sortRules rules).filter (fun r => r.priority==priority)=
      rules.filter fun r => r.priority==priority := by
  rw [sortRules_eq]
  apply filter_sortByKey
  intro a b ha hb
  rw [beq_iff_eq] at ha hb
  rw [ha,hb]

/-- A slice that was evaluated before is evaluated as the list it came from. -/
theorem evaluateSlice_again (rules : List PolicyRule) (ctx ctx' : PolicyContext) :
    evaluateSlice rt (evaluateSlice rt rules ctx).2 ctx'=evaluateSlice rt rules ctx' := by
  have hsort : sortRules (sortRules rules)=sortRules rules := sortByKey_twice rules
  rw [evaluateSlice,evaluateSlice,hsort]
  rfl

theorem evaluate_decides (rules : List PolicyRule) (ctx : PolicyContext) :
    (∃ i r, FirstToMatch rt rules ctx i r ∧ evaluate rt rules ctx=r.decision) ∨
      (∀ r ∈ rules, matchesCondition rt ctx r.condition=false) ∧
        evaluate rt rules ctx=.deny "no matching policy rule" := by
  cases h : firstMatch rt rules ctx with
  | none =>
    have hno : ∀ r ∈ rules, matchesCondition rt ctx r.condition=false := by
      intro r hr
      have hr' := (sortRules_perm rules).mem_iff.mpr hr
      simpa using List.find?_eq_none.mp h r hr'
    right
    exact ⟨hno,by rw [evaluate,h]; rfl⟩
  | some r =>
    obtain ⟨i,hi⟩ := LeastMatch.of_find? h
    left
    exact ⟨i,r,hi,by rw [evaluate,h]; rfl⟩

/-- `evaluate` answers with the decision of the first rule to match, else with the default; it
leaves a stable sort of the slice, on which every further evaluation is the one on the input. -/
theorem evaluate_first_match (rt : Runtime) (rules : List PolicyRule) (ctx : PolicyContext) :
    ((∃ i r, FirstToMatch rt rules ctx i r ∧ (evaluateSlice rt rules ctx).1=r.decision) ∨
      (∀ r ∈ rules, matchesCondition rt ctx r.condition=false) ∧
        (evaluateSlice rt rules ctx).1=.deny "no matching policy rule") ∧
    (evaluateSlice rt rules ctx).2.Perm rules ∧
    (evaluateSlice rt rules ctx).2.Pairwise (fun a b => a.priority ≤ b.priority) ∧
    (∀ priority, (evaluateSlice rt rules ctx).2.filter (fun r => r.priority==priority)=
      rules.filter fun r => r.priority==priority) ∧
    ∀ ctx', evaluateSlice rt (evaluateSlice rt rules ctx).2 ctx'=evaluateSlice rt rules ctx' := by
  have hanswer := @evaluate_decides rt rules ctx
  rw [← evaluateSlice_answer] at hanswer
  have hsorted : (sortRules rules).Pairwise fun a b => a.priority ≤ b.priority :=
    sortByKey_sorted rules
  exact ⟨hanswer,sortRules_perm rules,hsorted,sortRules_stable rules,
    evaluateSlice_again rules ctx⟩

end FirstMatch

end NacPlatform
