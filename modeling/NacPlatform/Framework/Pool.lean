import NacPlatform.Framework.Proc

namespace NacPlatform

universe u

/-- Tasks that share a state: each runs a handler of its own, and what happens next is one
operation of one of them. -/
structure Pool (I : Type) (W : Type) (Op : Type u) (Reply : Op → Type) (E : Type) where
  shared : W
  tasks : I → Proc Op Reply E Unit

namespace Proc

variable {Op : Type u} {Reply : Op → Type} {E α : Type}

/-- The handler has ended, with or without an error. -/
def idle : Proc Op Reply E α → Bool
  | .call .. => false
  | _ => true

@[simp] theorem idle_call (op : Op) (k : Reply op → Proc Op Reply E α) :
    (Proc.call op k).idle=false := rfl

theorem Until.not_idle {before goal : Op → Prop} {p : Proc Op Reply E α}
    (h : Until before goal p) : p.idle=false := by
  cases p with
  | ret a => exact absurd h id
  | fail e => exact absurd h id
  | call op k => rfl

theorem only_of_idle {allowed : (op : Op) → Reply op → Prop} {s : Op → Prop}
    {p : Proc Op Reply E α} (h : p.idle=true) : Only allowed s p := by
  cases p with
  | ret a => trivial
  | fail e => trivial
  | call op k => cases h

theorem eq_call_of_not_idle {p : Proc Op Reply E α} (h : p.idle=false) :
    ∃ op k, p=.call op k := by
  cases p with
  | ret a => cases h
  | fail e => cases h
  | call op k => exact ⟨op,k,rfl⟩

end Proc

namespace Pool

variable {I W E : Type} {Op : Type u} {Reply : Op → Type} [DecidableEq I]

/-- A task that has ended takes up another handler; one that has not goes on with its own. -/
def start (s : Pool I W Op Reply E) (i : I) (p : Proc Op Reply E Unit) : Pool I W Op Reply E :=
  if (s.tasks i).idle then { s with tasks := Function.update s.tasks i p } else s

/-- One task performs its next operation, if it has one. -/
def advance (exec : (op : Op) → W → Reply op × W) (s : Pool I W Op Reply E) (i : I) :
    Pool I W Op Reply E :=
  match s.tasks i with
  | .call op k =>
    ⟨(exec op s.shared).2,Function.update s.tasks i (k (exec op s.shared).1)⟩
  | _ => s

theorem advance_of_call {exec : (op : Op) → W → Reply op × W} {s : Pool I W Op Reply E} {i : I}
    {op : Op} {k : Reply op → Proc Op Reply E Unit} (h : s.tasks i=.call op k) :
    s.advance exec i=
      ⟨(exec op s.shared).2,Function.update s.tasks i (k (exec op s.shared).1)⟩ := by
  simp only [advance,h]

theorem advance_of_idle {exec : (op : Op) → W → Reply op × W} {s : Pool I W Op Reply E} {i : I}
    (h : (s.tasks i).idle=true) : s.advance exec i=s := by
  unfold advance
  split
  · rename_i heq
    simp [heq] at h
  · rfl

/-- What the operations of its tasks keep, a pool keeps, while they answer as the tasks expect. -/
theorem advance_answered {allowed : (op : Op) → Reply op → Prop} (exec : (op : Op) → W → Reply op × W)
    {may : Op → Prop} {J : W → Prop} (hexec : ∀ op w, may op → J w → J (exec op w).2)
    {s : Pool I W Op Reply E} (hs : J s.shared) (ht : ∀ i, Proc.Only allowed may (s.tasks i))
    (hanswer : ∀ op, allowed op (exec op s.shared).1) (i : I) :
    J (s.advance exec i).shared ∧ ∀ j, Proc.Only allowed may ((s.advance exec i).tasks j) := by
  unfold advance
  split
  · next op k heq =>
    have hop := ht i
    rw [heq] at hop
    refine ⟨hexec op s.shared hop.1 hs,?_⟩
    intro j
    dsimp only
    by_cases hj : j=i
    · subst hj
      rw [Function.update_self]
      exact hop.2 _ (hanswer op)
    · rw [Function.update_of_ne hj]
      exact ht j
  · exact ⟨hs,ht⟩

theorem advance_keeps (exec : (op : Op) → W → Reply op × W) (may : Op → Prop) (J : W → Prop)
    (hexec : ∀ op w, may op → J w → J (exec op w).2) {s : Pool I W Op Reply E} (hs : J s.shared)
    (ht : ∀ i, Proc.Only (fun _ _ => True) may (s.tasks i)) (i : I) :
    J (s.advance exec i).shared ∧
      ∀ j, Proc.Only (fun _ _ => True) may ((s.advance exec i).tasks j) :=
  advance_answered exec hexec hs ht (fun _ => trivial) i

theorem start_of_idle {s : Pool I W Op Reply E} {i : I} {p : Proc Op Reply E Unit}
    (h : (s.tasks i).idle=true) : s.start i p={ s with tasks := Function.update s.tasks i p } :=
  if_pos h

theorem start_of_busy {s : Pool I W Op Reply E} {i : I} {p : Proc Op Reply E Unit}
    (h : (s.tasks i).idle=false) : s.start i p=s := by
  simp [start,h]

@[simp] theorem start_shared (s : Pool I W Op Reply E) (i : I) (p : Proc Op Reply E Unit) :
    (s.start i p).shared=s.shared := by
  unfold start
  split <;> rfl

/-- What every task may perform is not more when one takes up a handler that may perform that. -/
theorem start_only {allowed : (op : Op) → Reply op → Prop} {may : Op → Prop}
    {s : Pool I W Op Reply E} (h : ∀ i, Proc.Only allowed may (s.tasks i)) (i : I)
    {p : Proc Op Reply E Unit} (hp : Proc.Only allowed may p) (j : I) :
    Proc.Only allowed may ((s.start i p).tasks j) := by
  unfold start
  split
  · dsimp only
    by_cases hj : j=i
    · rw [hj,Function.update_self]
      exact hp
    · rw [Function.update_of_ne hj]
      exact h j
  · exact h j

end Pool

end NacPlatform
