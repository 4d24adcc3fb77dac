import NacPlatform.Framework.Run
import Mathlib.Logic.Function.Basic

namespace NacPlatform

/-! Many keys behind one slot: whoever takes the slot evicts the key that had it before. -/

/-- The key that has the slot, and what each key holds. -/
structure Slot (K V : Type) where
  owner : Option K
  held : K → Option V

section Slots

variable {A K V : Type} [DecidableEq K]

namespace Slot

def empty : Slot K V := ⟨none,fun _ => none⟩

/-- What the keys hold once the owner has lost the slot. -/
def evicted (s : Slot K V) : K → Option V :=
  match s.owner with
  | some k => Function.update s.held k none
  | none => s.held

/-- An operation sets or, without a value, clears its key. Keys that are not usable cannot be
set. -/
def step (key : A → K) (val : A → Option V) (usable : K → Bool) (s : Slot K V) (a : A) :
    Slot K V :=
  match val a with
  | none => ⟨none,Function.update s.held (key a) none⟩
  | some v =>
    if usable (key a) then ⟨some (key a),Function.update s.evicted (key a) (some v)⟩ else s

theorem evicted_of_ne {s : Slot K V} {k : K} (h : s.owner≠some k) : s.evicted k=s.held k := by
  unfold evicted
  cases ho : s.owner with
  | none => rfl
  | some y =>
    have hy : k≠y := fun e => h (by rw [ho,e])
    simp only [Function.update_of_ne hy]

theorem evicted_owner {s : Slot K V} {k : K} (h : s.owner=some k) : s.evicted k=none := by
  simp only [evicted,h,Function.update_self]

theorem evicted_eq_some {s : Slot K V} {k : K} {v : V} :
    s.evicted k=some v ↔ s.owner≠some k ∧ s.held k=some v := by
  by_cases h : s.owner=some k
  · simp [evicted_owner h,h]
  · simp [evicted_of_ne h,h]

section Runs

variable (key : A → K) (val : A → Option V) (usable : K → Bool)

/-- The operation is a clear or sets a usable key. -/
def effective (a : A) : Bool := (val a).isNone || usable (key a)

/-- After these operations the slot has not been taken over: the first effective one, if any, is
a clear. -/
def stands (as : List A) : Bool :=
  (as.find? (effective key val usable)).all fun a => (val a).isNone

/-- The last operation on a key. -/
def last (k : K) (as : List A) : Option A :=
  lastWrite (fun a k => if key a=k then some a else none) k as

variable {key val usable}

/-- A key that is neither named nor in the slot keeps what it holds. -/
theorem runs_unnamed {s : Slot K V} {k : K} {as : List A} (hn : ∀ a ∈ as, key a≠k)
    (ho : s.owner≠some k) : (runs (step key val usable) s as).held k=s.held k := by
  induction as generalizing s with
  | nil => rfl
  | cons a as ih =>
    obtain ⟨ha,hn⟩ := List.forall_mem_cons.mp hn
    rw [runs_cons]
    cases hv : val a with
    | none =>
      rw [ih hn (by simp [step,hv])]
      simp [step,hv,Function.update_of_ne ha.symm]
    | some v =>
      by_cases hu : usable (key a)=true
      · rw [ih hn (by simp [step,hv,hu,ha])]
        simp [step,hv,hu,Function.update_of_ne ha.symm,evicted_of_ne ho]
      · rw [ih hn (by simp [step,hv,hu,ho])]
        simp [step,hv,hu]

/-- The owner keeps its value until another key takes the slot. -/
theorem runs_owner {s : Slot K V} {k : K} {v : V} {as : List A} (hn : ∀ a ∈ as, key a≠k)
    (ho : s.owner=some k) (hs : s.held k=some v) :
    (runs (step key val usable) s as).held k=
      if stands key val usable as then some v else none := by
  induction as generalizing s with
  | nil => simp [hs,stands]
  | cons a as ih =>
    obtain ⟨ha,hn⟩ := List.forall_mem_cons.mp hn
    rw [runs_cons]
    cases hv : val a with
    | none =>
      rw [runs_unnamed hn (by simp [step,hv])]
      simp [step,hv,Function.update_of_ne ha.symm,hs,stands,effective]
    | some w =>
      by_cases hu : usable (key a)=true
      · rw [runs_unnamed hn (by simp [step,hv,hu,ha])]
        simp [step,hv,hu,Function.update_of_ne ha.symm,evicted_owner ho,stands,effective]
      · have hstep : step key val usable s a=s := by simp [step,hv,hu]
        have hstands : stands key val usable (a::as)=stands key val usable as := by
          simp [stands,effective,hv,hu]
        rw [hstep,ih hn ho hs,hstands]

/-- A key that is not usable never holds anything. -/
theorem runs_unusable {k : K} (hk : usable k=false) (as : List A) :
    (runs (step key val usable) empty as).held k=none := by
  refine runs_invariant (fun s : Slot K V => s.held k=none) (fun s a hs => ?_) as rfl
  have hev : s.evicted k=none := by
    by_cases ho : s.owner=some k
    · exact evicted_owner ho
    · rw [evicted_of_ne ho,hs]
  unfold step
  split
  · by_cases h : k=key a <;> simp [h,Function.update_of_ne,hs]
  · split
    · rename_i hu
      have h : k≠key a := fun e => by simp [← e,hk] at hu
      simpa only [Function.update_of_ne h] using hev
    · exact hs

/-- What a key holds after an operation on it that nothing follows on the same key. -/
theorem runs_last {pre post : List A} {a : A} (hn : ∀ b ∈ post, key b≠key a) :
    (runs (step key val usable) empty (pre++a::post)).held (key a)=
      if usable (key a) && stands key val usable post then val a else none := by
  by_cases hu : usable (key a)=true
  · rw [runs_append,runs_cons,hu,Bool.true_and]
    generalize runs (step key val usable) empty pre=s
    cases hv : val a with
    | none =>
      rw [runs_unnamed hn (by simp [step,hv])]
      simp [step,hv]
    | some v =>
      exact runs_owner hn (by simp [step,hv,hu]) (by simp [step,hv,hu])
  · rw [runs_unusable (by simpa using hu)]
    simp [hu]

/-- Every key holds what the last operation on it gave exactly when each value that is not
overwritten was set on a usable key and nothing took the slot from it. -/
theorem runs_held_iff (as : List A) :
    (∀ k, (runs (step key val usable) empty as).held k=(last key k as).bind val) ↔
      ∀ pre a post, as=pre++a::post → (val a).isSome=true → (∀ b ∈ post, key b≠key a) →
        usable (key a)=true ∧ stands key val usable post=true := by
  have final {pre post : List A} {a : A} (hn : ∀ b ∈ post, key b≠key a) :
      last key (key a) (pre++a::post)=some a :=
    lastWrite_eq_some.mpr ⟨pre,a,post,rfl,by simp,fun b hb => by simp [hn b hb]⟩
  constructor
  · intro h pre a post same hv hn
    subst same
    obtain ⟨v,hv⟩ := Option.isSome_iff_exists.mp hv
    have hk := h (key a)
    rw [final hn,runs_last hn,Option.bind_some,hv] at hk
    simpa using hk
  · intro h k
    cases hl : last key k as with
    | none =>
      have hn := lastWrite_eq_none.mp hl
      rw [runs_unnamed (fun a ha e => by simpa [e] using hn a ha) (by simp [empty])]
      rfl
    | some a =>
      obtain ⟨pre,b,post,rfl,hb,hpost⟩ := lastWrite_eq_some.mp hl
      obtain ⟨rfl,rfl⟩ : key b=k ∧ b=a := by simpa using hb
      have hn : ∀ c ∈ post, key c≠key b := fun c hc e => by simpa [e] using hpost c hc
      rw [runs_last hn,Option.bind_some]
      cases hv : val b with
      | none => simp
      | some v =>
        obtain ⟨hu,hst⟩ := h pre b post rfl (by simp [hv]) hn
        simp [hu,hst]

end Runs

end Slot

end Slots

end NacPlatform
