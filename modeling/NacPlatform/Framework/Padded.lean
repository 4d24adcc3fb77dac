import Mathlib.Data.List.Basic
import Mathlib.Order.Basic

namespace NacPlatform.Padded

/-! Lists compared position by position, a list that has ended counting as `z` from there on. -/

variable {α : Type} (z : α)

theorem getD_zero (as : List α) : as.getD 0 z=as.headD z := by cases as <;> rfl

theorem getD_succ (as : List α) (i : Nat) : as.getD (i+1) z=as.tail.getD i z := by
  cases as <;> rfl

variable [Ord α]

def cmp : List α → List α → Ordering
  | [],bs => bs.foldr (fun b o => (compare z b).then o) .eq
  | a::as,bs => (compare a (bs.headD z)).then (cmp as bs.tail)

section Laws

variable [Std.TransOrd α]

/-- Heads first, then tails, whichever of the two have ended. -/
theorem cmp_eq (as bs : List α) :
    cmp z as bs=(compare (as.headD z) (bs.headD z)).then (cmp z as.tail bs.tail) := by
  cases as with
  | nil =>
    cases bs with
    | nil => simp [cmp]
    | cons b bs => rfl
  | cons a as => rfl

theorem cmp_swap (as bs : List α) : cmp z bs as=(cmp z as bs).swap := by
  induction hn : max as.length bs.length generalizing as bs with
  | zero =>
    have ha : as=[] := List.eq_nil_of_length_eq_zero (by omega)
    have hb : bs=[] := List.eq_nil_of_length_eq_zero (by omega)
    rw [ha,hb]
    rfl
  | succ n ih =>
    have htail := ih as.tail bs.tail (by simp only [List.length_tail]; omega)
    rw [cmp_eq,cmp_eq z as,Ordering.swap_then,htail,← Std.OrientedOrd.eq_swap]

/-- Transitivity, whatever the three lengths are: by induction on the longest. -/
theorem cmp_isLE_trans {as bs cs : List α} (hab : (cmp z as bs).isLE) (hbc : (cmp z bs cs).isLE) :
    (cmp z as cs).isLE := by
  induction hn : max as.length (max bs.length cs.length) generalizing as bs cs with
  | zero =>
    have ha : as=[] := List.eq_nil_of_length_eq_zero (by omega)
    have hc : cs=[] := List.eq_nil_of_length_eq_zero (by omega)
    rw [ha,hc]
    rfl
  | succ n ih =>
    rw [cmp_eq,Ordering.isLE_then_iff_or] at hab hbc ⊢
    have htail (hab' : (cmp z as.tail bs.tail).isLE) (hbc' : (cmp z bs.tail cs.tail).isLE) :
        (cmp z as.tail cs.tail).isLE :=
      ih hab' hbc' (by simp only [List.length_tail]; omega)
    rcases hab with hab | ⟨hab,hab'⟩
    · refine .inl ?_
      rcases hbc with hbc | ⟨hbc,_⟩
      · exact Std.TransCmp.lt_trans hab hbc
      · exact Std.TransCmp.lt_of_lt_of_eq hab hbc
    · rcases hbc with hbc | ⟨hbc,hbc'⟩
      · exact .inl (Std.TransCmp.lt_of_eq_of_lt hab hbc)
      · exact .inr ⟨Std.TransCmp.eq_trans hab hbc,htail hab' hbc'⟩

instance : Std.TransCmp (cmp z) where
  eq_swap {as bs} := cmp_swap z bs as
  isLE_trans := cmp_isLE_trans z

end Laws

section Positions

variable [Std.LawfulEqOrd α]

theorem cmp_eq_eq_iff [Std.TransOrd α] (as bs : List α) :
    cmp z as bs=.eq ↔ ∀ i, as.getD i z=bs.getD i z := by
  induction hn : max as.length bs.length generalizing as bs with
  | zero =>
    have ha : as=[] := List.eq_nil_of_length_eq_zero (by omega)
    have hb : bs=[] := List.eq_nil_of_length_eq_zero (by omega)
    simp [ha,hb,cmp]
  | succ n ih =>
    have htail := ih as.tail bs.tail (by simp only [List.length_tail]; omega)
    rw [cmp_eq,Ordering.then_eq_eq,Std.LawfulEqOrd.compare_eq_iff_eq,htail]
    constructor
    · intro given i
      obtain ⟨hhead,hrest⟩ := given
      cases i with
      | zero => rw [getD_zero,getD_zero,hhead]
      | succ i => rw [getD_succ,getD_succ,hrest i]
    · intro h
      refine ⟨?_,fun i => ?_⟩
      · rw [← getD_zero,← getD_zero,h 0]
      · rw [← getD_succ,← getD_succ,h (i+1)]

/-- A common front does not count. -/
theorem cmp_append_left (p as bs : List α) : cmp z (p++as) (p++bs)=cmp z as bs := by
  induction p with
  | nil => rfl
  | cons a p ih =>
    have hself : compare a a=.eq := Std.ReflCmp.compare_self
    rw [List.cons_append,List.cons_append,cmp,List.headD_cons,hself,Ordering.eq_then,
      List.tail_cons,ih]

/-- Lists that agree on their first positions compare as what is behind them. -/
theorem cmp_append_of_agree {p ts : List α} (h : ∀ i<p.length, ts.getD i z=p.getD i z)
    (as : List α) : cmp z (p++as) ts=cmp z as (ts.drop p.length) := by
  induction p generalizing ts with
  | nil => rfl
  | cons a p ih =>
    have hhead : ts.headD z=a := by
      rw [← getD_zero]
      exact h 0 (by simp)
    have hrest : ∀ i<p.length, ts.tail.getD i z=p.getD i z := by
      intro i hi
      rw [← getD_succ]
      exact h (i+1) (by simpa using hi)
    have hself : compare a a=.eq := Std.ReflCmp.compare_self
    rw [List.cons_append,cmp,hhead,hself,Ordering.eq_then,ih hrest,List.drop_tail,
      List.length_cons]

/-- Where a front position differs, what is behind the front does not count. -/
theorem cmp_append_of_differ {p ts : List α} {i : Nat} (hi : i<p.length)
    (h : ts.getD i z≠p.getD i z) (as bs : List α) : cmp z (p++as) ts=cmp z (p++bs) ts := by
  induction p generalizing ts i with
  | nil => cases hi
  | cons a p ih =>
    rw [List.cons_append,List.cons_append,cmp,cmp]
    by_cases hhead : ts.headD z=a
    · cases i with
      | zero =>
        rw [getD_zero] at h
        exact absurd hhead h
      | succ i =>
        rw [getD_succ] at h
        rw [ih (by simpa using hi) h]
    · have hne : compare a (ts.headD z)≠.eq := by
        rw [Ne,Std.LawfulEqOrd.compare_eq_iff_eq]
        exact fun e => hhead e.symm
      cases hc : compare a (ts.headD z) with
      | eq => exact absurd hc hne
      | lt => rfl
      | gt => rfl

end Positions

end NacPlatform.Padded
