import Mathlib.Data.List.Basic

namespace NacPlatform

/-! Loops that repeat a step until it fails. -/

variable {S : Type} {f : S → Option S}

/-- `Loop f s t`: from `s` the loop ends, and it ends in `t`. -/
inductive Loop (f : S → Option S) : S → S → Prop
  | done {s : S} (h : f s=none) : Loop f s s
  | again {s s' t : S} (h : f s=some s') (rest : Loop f s' t) : Loop f s t

/-- A loop whose every step decreases a measure ends. -/
theorem Loop.ends (measure : S → Nat) (h : ∀ s s', f s=some s' → measure s' < measure s)
    (s : S) : ∃ t, Loop f s t := by
  induction hn : measure s using Nat.strongRecOn generalizing s with
  | ind n ih =>
    cases hb : f s with
    | none => exact ⟨s,.done hb⟩
    | some s' =>
      obtain ⟨t,ht⟩ := ih (measure s') (hn ▸ h s s' hb) s' rfl
      exact ⟨t,.again hb ht⟩

/-- What every step preserves holds at the end, where the step fails. -/
theorem Loop.invariant {s t : S} (I : S → Prop) (keep : ∀ s s', f s=some s' → I s → I s')
    (h : Loop f s t) (hs : I s) : I t ∧ f t=none := by
  induction h with
  | done hb => exact ⟨hs,hb⟩
  | again hb _ ih => exact ih (keep _ _ hb hs)

end NacPlatform
