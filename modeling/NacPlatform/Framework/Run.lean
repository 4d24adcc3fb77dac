import Mathlib.Data.List.Basic

namespace NacPlatform

variable {S A K V : Type}

/-- The state a machine reaches by taking the steps of a list one after another. -/
def runs (step : S → A → S) (s : S) (as : List A) : S := as.foldl step s

@[simp] theorem runs_nil (step : S → A → S) (s : S) : runs step s []=s := rfl

@[simp] theorem runs_cons (step : S → A → S) (s : S) (a : A) (as : List A) :
    runs step s (a::as)=runs step (step s a) as := rfl

theorem runs_append (step : S → A → S) (s : S) (as bs : List A) :
    runs step s (as++bs)=runs step (runs step s as) bs := List.foldl_append ..

/-- Every step of the run is taken in a state in which `ok` allows it. -/
def Guarded (step : S → A → S) (ok : S → A → Prop) : S → List A → Prop
  | _, [] => True
  | s, a::as => ok s a ∧ Guarded step ok (step s a) as

instance Guarded.decidable (step : S → A → S) (ok : S → A → Prop) [∀ s a, Decidable (ok s a)] :
    (s : S) → (as : List A) → Decidable (Guarded step ok s as)
  | _, [] => .isTrue trivial
  | s, a::as =>
    letI := decidable step ok (step s a) as
    inferInstanceAs (Decidable (ok s a ∧ Guarded step ok (step s a) as))

theorem guarded_append (step : S → A → S) (ok : S → A → Prop) (s : S) (as bs : List A) :
    Guarded step ok s (as++bs) ↔
      Guarded step ok s as ∧ Guarded step ok (runs step s as) bs := by
  induction as generalizing s with
  | nil => simp [Guarded]
  | cons a as ih => simp [Guarded,ih,and_assoc]

/-- Each step of the run, with the steps before it, is one that `ok` allows. -/
theorem guarded_iff {step : S → A → S} {ok : S → A → Prop} {s : S} {as : List A} :
    Guarded step ok s as ↔ ∀ pre a post, as=pre++a::post → ok (runs step s pre) a := by
  constructor
  · intro h pre a post same
    subst same
    exact ((guarded_append ..).mp h).2.1
  · intro h
    induction as generalizing s with
    | nil => trivial
    | cons a as ih =>
      exact ⟨h [] a as rfl,ih fun pre b post e => h (a::pre) b post (e ▸ rfl)⟩

theorem Guarded.and {step : S → A → S} {ok ok' : S → A → Prop} {s : S} {as : List A}
    (h : Guarded step ok s as) (h' : Guarded step ok' s as) :
    Guarded step (fun s a => ok s a ∧ ok' s a) s as := by
  induction as generalizing s with
  | nil => trivial
  | cons a as ih => exact ⟨⟨h.1,h'.1⟩,ih h.2 h'.2⟩

theorem guarded_of_forall {step : S → A → S} {p : A → Prop} {s : S} {as : List A}
    (h : ∀ a ∈ as, p a) : Guarded step (fun _ => p) s as := by
  induction as generalizing s with
  | nil => trivial
  | cons a as ih => exact ⟨h a List.mem_cons_self,ih fun b hb => h b (List.mem_cons_of_mem a hb)⟩

/-- What one allowed step preserves, every guarded run preserves. -/
theorem Guarded.invariant {step : S → A → S} {ok : S → A → Prop} (I : S → Prop)
    (keep : ∀ s a, I s → ok s a → I (step s a)) {s : S} {as : List A}
    (hg : Guarded step ok s as) (hs : I s) : I (runs step s as) := by
  induction as generalizing s with
  | nil => exact hs
  | cons a as ih => exact ih hg.2 (keep s a hs hg.1)

/-- Where the steps that `ok` allows are those that preserve `I`, a run is guarded exactly when `I`
holds in every state that it reaches. The steps are of a kind that keeps the states to `J`. -/
theorem guarded_iff_within {step : S → A → S} {ok : S → A → Prop} {I J : S → Prop} {kind : A → Prop}
    (keep : ∀ s a, J s → kind a → J (step s a))
    (h : ∀ s a, J s → kind a → I s → (I (step s a) ↔ ok s a)) {s : S} {as : List A}
    (hkind : ∀ a ∈ as, kind a) (hJ : J s) (hs : I s) :
    Guarded step ok s as ↔ ∀ pre post, as=pre++post → I (runs step s pre) := by
  induction as generalizing s with
  | nil =>
    refine ⟨?_,fun _ => trivial⟩
    intro _ pre post e
    rw [(List.append_eq_nil_iff.mp e.symm).1]
    exact hs
  | cons a as ih =>
    obtain ⟨ha,has⟩ := List.forall_mem_cons.mp hkind
    have hstep := h s a hJ ha hs
    constructor
    · intro given pre post e
      obtain ⟨hok,hrest⟩ := given
      cases pre with
      | nil => exact hs
      | cons b pre =>
        obtain ⟨rfl,rfl⟩ := List.cons.inj e
        exact (ih has (keep s a hJ ha) (hstep.mpr hok)).mp hrest pre post rfl
    · intro hI
      have hnext : I (step s a) := hI [a] as rfl
      refine ⟨hstep.mp hnext,(ih has (keep s a hJ ha) hnext).mpr ?_⟩
      intro pre post same
      subst same
      exact hI (a::pre) post rfl

theorem guarded_iff_throughout {step : S → A → S} {ok : S → A → Prop} {I : S → Prop}
    (h : ∀ s a, I s → (I (step s a) ↔ ok s a)) {s : S} {as : List A} (hs : I s) :
    Guarded step ok s as ↔ ∀ pre post, as=pre++post → I (runs step s pre) :=
  guarded_iff_within (J := fun _ => True) (fun _ _ _ _ => trivial)
    (fun s a _ (_ : True) => h s a) (fun _ _ => trivial) trivial hs

/-- What every step preserves, every run preserves. -/
theorem runs_invariant {step : S → A → S} (I : S → Prop) (keep : ∀ s a, I s → I (step s a))
    {s : S} (as : List A) (hs : I s) : I (runs step s as) := by
  induction as generalizing s with
  | nil => exact hs
  | cons a as ih => exact ih (keep s a hs)

def lastWrite (write : A → K → Option V) (k : K) : List A → Option V
  | [] => none
  | a::as => (lastWrite write k as).or (write a k)

@[simp] theorem lastWrite_nil (write : A → K → Option V) (k : K) :
    lastWrite write k []=none := rfl

theorem lastWrite_append (write : A → K → Option V) (k : K) (as bs : List A) :
    lastWrite write k (as++bs)=(lastWrite write k bs).or (lastWrite write k as) := by
  induction as with
  | nil => simp
  | cons a as ih => simp [lastWrite,ih,Option.or_assoc]

@[simp] theorem lastWrite_concat (write : A → K → Option V) (k : K) (as : List A) (a : A) :
    lastWrite write k (as++[a])=(write a k).or (lastWrite write k as) := by
  rw [lastWrite_append]
  simp [lastWrite]

theorem lastWrite_eq_none {write : A → K → Option V} {k : K} {as : List A} :
    lastWrite write k as=none ↔ ∀ a ∈ as, write a k=none := by
  induction as with
  | nil => simp
  | cons a as ih => simp [lastWrite,ih,and_comm]

/-- The last write is the one after which nothing writes to the key. -/
theorem lastWrite_eq_some {write : A → K → Option V} {k : K} {as : List A} {v : V} :
    lastWrite write k as=some v ↔
      ∃ pre a post, as=pre++a::post ∧ write a k=some v ∧ ∀ b ∈ post, write b k=none := by
  constructor
  · intro h
    induction as with
    | nil => simp at h
    | cons a as ih =>
      rw [lastWrite,Option.or_eq_some_iff] at h
      rcases h with h | ⟨hnone,ha⟩
      · obtain ⟨pre,b,post,rfl,hb,hpost⟩ := ih h
        exact ⟨a::pre,b,post,rfl,hb,hpost⟩
      · exact ⟨[],a,as,rfl,ha,lastWrite_eq_none.mp hnone⟩
  · intro given
    obtain ⟨pre,a,post,rfl,ha,hpost⟩ := given
    rw [lastWrite_append,lastWrite,lastWrite_eq_none.mpr hpost,ha]
    rfl

/-- What is derived from each write is derived from the last one. -/
theorem lastWrite_map {U : Type} (f : V → U) (write : A → K → Option V) (k : K) (as : List A) :
    lastWrite (fun a k => (write a k).map f) k as=(lastWrite write k as).map f := by
  induction as with
  | nil => rfl
  | cons a as ih =>
    rw [lastWrite,lastWrite,ih]
    cases lastWrite write k as <;> simp

/-- Last writer wins: where each step sets a key to what it writes and leaves the other keys,
a run leaves every key at the last value written to it. -/
theorem view_runs {step : S → A → S} {write : A → K → Option V} (view : S → K → V)
    (s : S) (as : List A)
    (hstep : ∀ s, ∀ a ∈ as, ∀ k, view (step s a) k=(write a k).getD (view s k)) (k : K) :
    view (runs step s as) k=(lastWrite write k as).getD (view s k) := by
  induction as generalizing s with
  | nil => rfl
  | cons a as ih =>
    rw [runs_cons,ih _ fun s b hb => hstep s b (List.mem_cons_of_mem a hb),
      hstep s a List.mem_cons_self]
    cases h : lastWrite write k as <;> simp [lastWrite,h]

/-- A simulation of each step is a simulation of the run. -/
theorem runs_simulates {T : Type} {step : S → A → S} {step' : T → A → T} (R : S → T → Prop)
    {s : S} {t : T} (as : List A)
    (hstep : ∀ s t, ∀ a ∈ as, R s t → R (step s a) (step' t a)) (h : R s t) :
    R (runs step s as) (runs step' t as) := by
  induction as generalizing s t with
  | nil => exact h
  | cons a as ih =>
    exact ih (fun s t b hb => hstep s t b (List.mem_cons_of_mem a hb))
      (hstep s t a List.mem_cons_self h)

end NacPlatform
