import Mathlib.Data.List.Basic
import Mathlib.Algebra.BigOperators.Group.List.Basic

namespace NacPlatform

/-! Lists that are written with how often each entry stands in them. -/

section

variable {α : Type}

/-- Every entry as often as its number says. -/
def expand (l : List (α × Nat)) : List α := l.flatMap fun e => List.replicate e.2 e.1

/-- One entry is missing at the end, and one more of the same stands before. -/
def Shifted (l : List (α × Nat)) : Prop :=
  ∃ pre a n, l=pre++(a,2)::(List.replicate n (a,1)++[(a,0)]) ∧ ∀ e ∈ pre, e.2=1

@[simp] theorem expand_cons (e : α × Nat) (l : List (α × Nat)) :
    expand (e::l)=List.replicate e.2 e.1++expand l := rfl

theorem expand_append (l l' : List (α × Nat)) : expand (l++l')=expand l++expand l' :=
  List.flatMap_append

theorem expand_ones {l : List (α × Nat)} (h : ∀ e ∈ l, e.2=1) : expand l=l.map Prod.fst := by
  induction l with
  | nil => rfl
  | cons e l ih =>
    obtain ⟨he,hl⟩ := List.forall_mem_cons.mp h
    rw [expand_cons,he,ih hl]
    rfl

theorem expand_of_shifted {l : List (α × Nat)} (h : Shifted l) : expand l=l.map Prod.fst := by
  obtain ⟨pre,a,n,rfl,hpre⟩ := h
  have hones : ∀ e ∈ List.replicate n (a,1), e.2=1 := by
    intro e he
    rw [List.eq_of_mem_replicate he]
  rw [expand_append,expand_ones hpre,expand_cons,expand_append,expand_ones hones]
  simp [expand,List.replicate_succ,← List.replicate_succ']

/-- A list that is the same one place further on has one value only. -/
theorem eq_replicate_of_cons_eq_concat {a b : α} {l : List α} (h : a::l=l++[b]) :
    b=a ∧ l=List.replicate l.length a := by
  induction l with
  | nil =>
    obtain ⟨rfl,-⟩ := List.cons.inj h
    exact ⟨rfl,rfl⟩
  | cons c l ih =>
    obtain ⟨rfl,htail⟩ := List.cons.inj h
    obtain ⟨hb,hl⟩ := ih htail
    exact ⟨hb,congrArg (a::·) hl⟩

/-- Where only the last entry may be missing, the list has at least its length but one. -/
theorem length_expand_ge {l : List (α × Nat)} (h : ∀ e ∈ l.dropLast, 1 ≤ e.2) :
    l.length ≤ (expand l).length+1 := by
  induction l with
  | nil => exact Nat.zero_le _
  | cons e l ih =>
    cases l with
    | nil => simp
    | cons e' l =>
      rw [List.dropLast_cons_cons] at h
      obtain ⟨he,hl⟩ := List.forall_mem_cons.mp h
      have hlen := ih hl
      rw [expand_cons,List.length_append,List.length_replicate,List.length_cons]
      omega

/-- Where one is missing, it is the last, and the others stand once. -/
theorem expand_eq_dropLast {l : List (α × Nat)} (h : ∀ e ∈ l.dropLast, 1 ≤ e.2)
    (hlen : (expand l).length+1=l.length) :
    ∃ init a, l=init++[(a,0)] ∧ ∀ e ∈ init, e.2=1 := by
  induction l with
  | nil => cases hlen
  | cons e l ih =>
    rw [expand_cons,List.length_append,List.length_replicate,List.length_cons] at hlen
    cases l with
    | nil =>
      obtain ⟨a,n⟩ := e
      have hn : n=0 := by
        simp only [List.length_nil] at hlen
        omega
      exact ⟨[],a,by rw [hn]; rfl,by simp⟩
    | cons e' l =>
      rw [List.dropLast_cons_cons] at h
      obtain ⟨he,hl⟩ := List.forall_mem_cons.mp h
      have hge := length_expand_ge hl
      obtain ⟨init,a,heq,hinit⟩ := ih hl (by omega)
      refine ⟨e::init,a,by rw [heq]; rfl,List.forall_mem_cons.mpr ⟨by omega,hinit⟩⟩

/-- A double at the beginning and nothing at the end: all that is between is the same. -/
theorem shifted_of_double {a b : α} {init : List (α × Nat)} (h : ∀ e ∈ init, e.2=1)
    (heq : List.replicate 2 a++expand (init++[(b,0)])=a::(init++[(b,0)]).map Prod.fst) :
    Shifted ((a,2)::(init++[(b,0)])) := by
  rw [expand_append,expand_ones h,List.map_append] at heq
  have hrest : a::init.map Prod.fst=init.map Prod.fst++[b] := by
    simpa [List.replicate_succ,expand] using heq
  obtain ⟨rfl,hsame⟩ := eq_replicate_of_cons_eq_concat hrest
  have hpairs : init=List.replicate init.length (b,1) := by
    refine List.eq_replicate_iff.mpr ⟨rfl,?_⟩
    intro e he
    have hfst := List.mem_map_of_mem (f := Prod.fst) he
    rw [hsame] at hfst
    exact Prod.ext (List.eq_of_mem_replicate hfst) (h e he)
  rw [hpairs]
  exact ⟨[],b,init.length,rfl,by simp⟩

/-- Where only the last entry may be missing, every entry stands once exactly if its number is
one, up to entries that cannot be told apart. -/
theorem expand_eq_iff {l : List (α × Nat)} (h : ∀ e ∈ l.dropLast, 1 ≤ e.2) :
    expand l=l.map Prod.fst ↔ (∀ e ∈ l, e.2=1) ∨ Shifted l := by
  induction l with
  | nil => simp [expand]
  | cons e l ih =>
    obtain ⟨a,k⟩ := e
    have hl : ∀ e ∈ l.dropLast, 1 ≤ e.2 := by
      intro e he
      cases l with
      | nil => cases he
      | cons e' l =>
        rw [List.dropLast_cons_cons] at h
        exact h e (List.mem_cons_of_mem _ he)
    constructor
    · intro heq
      have hlen := congrArg List.length heq
      have hge := length_expand_ge hl
      simp only [expand_cons,List.length_append,List.length_replicate,List.length_map,
        List.length_cons] at hlen
      rw [expand_cons,List.map_cons] at heq
      rcases Nat.lt_trichotomy k 1 with hk|hk|hk
      · obtain rfl : k=0 := by omega
        cases l with
        | nil => cases heq
        | cons e' l => exact absurd (h (a,0) (by simp)) (Nat.not_succ_le_zero 0)
      · subst hk
        rcases (ih hl).mp (List.cons.inj heq).2 with hones|hshift
        · exact .inl (List.forall_mem_cons.mpr ⟨rfl,hones⟩)
        · obtain ⟨pre,b,n,rfl,hpre⟩ := hshift
          exact .inr ⟨(a,1)::pre,b,n,rfl,List.forall_mem_cons.mpr ⟨rfl,hpre⟩⟩
      · have hk2 : k=2 := by omega
        subst hk2
        obtain ⟨init,b,rfl,hinit⟩ := expand_eq_dropLast hl (by omega)
        exact .inr (shifted_of_double hinit heq)
    · intro hcases
      rcases hcases with hones|hshift
      · exact expand_ones hones
      · exact expand_of_shifted hshift

end

end NacPlatform
