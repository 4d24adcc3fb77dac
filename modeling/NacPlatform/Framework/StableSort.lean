import Mathlib.Data.List.Sort

namespace NacPlatform

/-! A list sorted by a key, ties left in order, and the first match of the sorted list. -/

section StableSort

variable {α κ : Type} [LinearOrder κ]

def sortByKey (key : α → κ) (l : List α) : List α :=
  l.insertionSort fun a b => key a ≤ key b

/-- Position `i` holds `a`, a match, and every other match has a greater key or the same key and a
later position. -/
def LeastMatch (key : α → κ) (p : α → Bool) (l : List α) (i : Nat) (a : α) : Prop :=
  l[i]?=some a ∧ p a=true ∧
    ∀ j b, l[j]?=some b → p b=true → key a<key b ∨ key a=key b ∧ i ≤ j

variable {key : α → κ} {p : α → Bool} {l : List α} {a b : α}

theorem sortByKey_perm (l : List α) : (sortByKey key l).Perm l :=
  List.perm_insertionSort _ _

theorem sortByKey_sorted (l : List α) :
    (sortByKey key l).Pairwise fun a b => key a ≤ key b := by
  have : Std.Total fun a b : α => key a ≤ key b := ⟨fun a b => le_total (key a) (key b)⟩
  have : IsTrans α fun a b => key a ≤ key b := ⟨fun _ _ _ => le_trans⟩
  exact List.pairwise_insertionSort _ _

theorem sortByKey_of_sorted (h : l.Pairwise fun a b => key a ≤ key b) : sortByKey key l=l :=
  h.insertionSort_eq

theorem sortByKey_twice (l : List α) : sortByKey key (sortByKey key l)=sortByKey key l :=
  sortByKey_of_sorted (sortByKey_sorted l)

/-- Elements of one key keep their order through an insertion in front of them. -/
theorem filter_orderedInsert (hp : ∀ a b, p a=true → p b=true → key a=key b) (a : α)
    (l : List α) :
    (l.orderedInsert (fun a b => key a ≤ key b) a).filter p=(a::l).filter p := by
  induction l with
  | nil => rfl
  | cons c l ih =>
    by_cases hle : key a ≤ key c
    · rw [List.orderedInsert_cons,if_pos hle]
    · rw [List.orderedInsert_cons,if_neg hle,List.filter_cons,ih]
      -- the two cannot both be kept: their keys differ
      cases ha : p a with
      | false => simp [List.filter_cons,ha]
      | true =>
        cases hc : p c with
        | false => simp [ha,hc]
        | true =>
          have heq := hp a c ha hc
          exact absurd heq.le hle

/-- The sort is stable. -/
theorem filter_sortByKey (hp : ∀ a b, p a=true → p b=true → key a=key b) (l : List α) :
    (sortByKey key l).filter p=l.filter p := by
  induction l with
  | nil => rfl
  | cons a l ih =>
    have hcons : sortByKey key (a::l)=
        (sortByKey key l).orderedInsert (fun a b => key a ≤ key b) a := rfl
    rw [hcons,filter_orderedInsert hp,List.filter_cons,List.filter_cons,ih]

theorem find?_orderedInsert_of_not (ha : p a=false) :
    (l.orderedInsert (fun a b => key a ≤ key b) a).find? p=l.find? p := by
  induction l with
  | nil => simp [ha]
  | cons c l ih =>
    by_cases hle : key a ≤ key c
    · rw [List.orderedInsert_cons,if_pos hle,List.find?_cons,ha]
    · rw [List.orderedInsert_cons,if_neg hle,List.find?_cons,List.find?_cons,ih]

theorem find?_orderedInsert_of_le (ha : p a=true)
    (h : ∀ b, l.find? p=some b → key a ≤ key b) :
    (l.orderedInsert (fun a b => key a ≤ key b) a).find? p=some a := by
  induction l with
  | nil => simp [ha]
  | cons c l ih =>
    by_cases hle : key a ≤ key c
    · rw [List.orderedInsert_cons,if_pos hle,List.find?_cons,ha]
    · have hc : p c=false := by
        by_contra hc
        rw [Bool.not_eq_false] at hc
        apply hle
        apply h
        rw [List.find?_cons,hc]
      have hl : ∀ b, l.find? p=some b → key a ≤ key b := by
        intro b hb
        apply h
        rw [List.find?_cons,hc,hb]
      rw [List.orderedInsert_cons,if_neg hle,List.find?_cons,hc]
      exact ih hl

theorem find?_orderedInsert_of_lt (hl : l.Pairwise fun a b => key a ≤ key b)
    (hb : l.find? p=some b) (hlt : key b<key a) :
    (l.orderedInsert (fun a b => key a ≤ key b) a).find? p=some b := by
  induction l with
  | nil => cases hb
  | cons c l ih =>
    obtain ⟨hfirst,hrest⟩ := List.pairwise_cons.mp hl
    have hcb : key c ≤ key b := by
      have hmem := List.mem_of_find?_eq_some hb
      cases hmem with
      | head => exact le_refl _
      | tail _ hmem => exact hfirst b hmem
    have hle : ¬ key a ≤ key c := fun h => absurd (h.trans hcb) (not_le.mpr hlt)
    rw [List.find?_cons] at hb
    rw [List.orderedInsert_cons,if_neg hle,List.find?_cons]
    cases hc : p c with
    | true =>
      rw [hc] at hb
      exact hb
    | false =>
      rw [hc] at hb
      exact ih hrest hb

/-- The least match of a list without its head is the least match, unless the head matches and has
a key no greater. -/
theorem LeastMatch.cons {i : Nat} (h : LeastMatch key p l i b)
    (hc : p a=true → key b<key a) : LeastMatch key p (a::l) (i+1) b := by
  obtain ⟨hib,hpb,hmin⟩ := h
  have hib' : (a::l)[i+1]?=some b := by simpa using hib
  refine ⟨hib',hpb,?_⟩
  intro j c hjc hpc
  cases j with
  | zero =>
    have hac : a=c := by simpa using hjc
    subst hac
    exact .inl (hc hpc)
  | succ j =>
    have hjc' : l[j]?=some c := by simpa using hjc
    cases hmin j c hjc' hpc with
    | inl hlt => exact .inl hlt
    | inr hle =>
      obtain ⟨he,hij⟩ := hle
      exact .inr ⟨he,by omega⟩

theorem LeastMatch.head (ha : p a=true) (h : ∀ c ∈ l, p c=true → key a ≤ key c) :
    LeastMatch key p (a::l) 0 a := by
  refine ⟨rfl,ha,?_⟩
  intro j c hjc hpc
  have hle : key a ≤ key c := by
    have hmem := List.mem_of_getElem? hjc
    cases hmem with
    | head => exact le_refl _
    | tail _ hmem => exact h c hmem hpc
  cases hle.lt_or_eq with
  | inl hlt => exact .inl hlt
  | inr he => exact .inr ⟨he,Nat.zero_le j⟩

/-- What a search of the sorted list finds is the least match of the list. -/
theorem LeastMatch.of_find? (h : (sortByKey key l).find? p=some b) :
    ∃ i, LeastMatch key p l i b := by
  induction l generalizing b with
  | nil => cases h
  | cons a l ih =>
    have hcons : sortByKey key (a::l)=
        (sortByKey key l).orderedInsert (fun a b => key a ≤ key b) a := rfl
    rw [hcons] at h
    cases ha : p a with
    | false =>
      rw [find?_orderedInsert_of_not ha] at h
      obtain ⟨i,hi⟩ := ih h
      exact ⟨i+1,hi.cons fun hpa => by rw [ha] at hpa; cases hpa⟩
    | true =>
      cases hl : (sortByKey key l).find? p with
      | none =>
        have hno : ∀ c ∈ l, p c=true → key a ≤ key c := by
          intro c hc hpc
          have hc' : c ∈ sortByKey key l := (sortByKey_perm l).mem_iff.mpr hc
          exact absurd hpc (List.find?_eq_none.mp hl c hc')
        have hnone : ∀ b, (sortByKey key l).find? p=some b → key a ≤ key b := by
          intro b hb
          rw [hl] at hb
          cases hb
        rw [find?_orderedInsert_of_le ha hnone] at h
        cases h
        exact ⟨0,LeastMatch.head ha hno⟩
      | some c =>
        obtain ⟨i,hi⟩ := ih hl
        by_cases hle : key a ≤ key c
        · have hmin : ∀ d ∈ l, p d=true → key a ≤ key d := by
            intro d hd hpd
            obtain ⟨j,hj⟩ := List.mem_iff_getElem?.mp hd
            cases hi.2.2 j d hj hpd with
            | inl hlt => exact hle.trans hlt.le
            | inr he => exact hle.trans he.1.le
          have hsome : ∀ b, (sortByKey key l).find? p=some b → key a ≤ key b := by
            intro b hb
            rw [hl] at hb
            cases hb
            exact hle
          rw [find?_orderedInsert_of_le ha hsome] at h
          cases h
          exact ⟨0,LeastMatch.head ha hmin⟩
        · have hlt : key c<key a := not_le.mp hle
          rw [find?_orderedInsert_of_lt (sortByKey_sorted l) hl hlt] at h
          cases h
          exact ⟨i+1,hi.cons fun _ => hlt⟩

end StableSort

end NacPlatform
