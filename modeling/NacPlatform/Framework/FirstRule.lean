import Mathlib.Data.List.Basic

namespace NacPlatform

/-! Lists of rules of which the first to match decides. -/

section FirstRule

variable {R A : Type} (action : R → A) (applies : R → Prop) [DecidablePred applies]

def firstRule (rules : List R) : Option A := (rules.find? fun r => applies r).map action

variable {action applies}

/-- Without a rule that matches there is no decision. -/
theorem firstRule_eq_none {rules : List R} :
    firstRule action applies rules=none ↔ ∀ r ∈ rules, ¬applies r := by
  simp [firstRule,List.find?_eq_none]

/-- Where all rules that match decide alike, their order does not count. -/
theorem firstRule_eq_some {rules : List R} {a : A} (hr : ∃ r ∈ rules, applies r)
    (halike : ∀ r ∈ rules, applies r → action r=a) : firstRule action applies rules=some a := by
  cases hfirst : rules.find? fun r => applies r with
  | none =>
    obtain ⟨r,hr,happlies⟩ := hr
    exact absurd (decide_eq_true happlies) (List.find?_eq_none.mp hfirst r hr)
  | some r =>
    have happlies : applies r := by simpa using List.find?_some hfirst
    rw [firstRule,hfirst,Option.map_some,halike r (List.mem_of_find?_eq_some hfirst) happlies]

section Table

variable {Source Service : Type} (source : R → Source) (service : R → Service)
  (act : Service → Option A) (sent : Source → Prop) (asked : Service → Prop)

/-- A table of rules: one for every source and every service that has an action. For a packet to one
service it decides as the service does, if one of the sources is the packet's. -/
theorem firstRule_table {rules : List R}
    (happlies : ∀ r, applies r ↔ sent (source r) ∧ asked (service r))
    (hsound : ∀ r ∈ rules, act (service r)=some (action r))
    (hcomplete : ∀ s a x, act x=some a → ∃ r ∈ rules, source r=s ∧ service r=x ∧ action r=a)
    {x : Service} (hx : ∀ y, asked y ↔ y=x) (hsent : ∃ s, sent s) :
    firstRule action applies rules=act x := by
  have only (r : R) (hr : r ∈ rules) (h : applies r) : act x=some (action r) := by
    have hy := (hx _).mp ((happlies r).mp h).2
    rw [← hy]
    exact hsound r hr
  cases hact : act x with
  | none =>
    rw [firstRule_eq_none]
    intro r hr h
    have hsome := only r hr h
    rw [hact] at hsome
    cases hsome
  | some a =>
    apply firstRule_eq_some
    · obtain ⟨s,hs⟩ := hsent
      obtain ⟨r,hr,rfl,hservice,-⟩ := hcomplete s a x hact
      exact ⟨r,hr,(happlies r).mpr ⟨hs,(hx _).mpr hservice⟩⟩
    · intro r hr h
      have hsome := only r hr h
      rw [hact] at hsome
      exact (Option.some.inj hsome).symm

end Table

end FirstRule

end NacPlatform
