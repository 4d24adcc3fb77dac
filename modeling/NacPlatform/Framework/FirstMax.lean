import Mathlib.Data.List.MinMax

namespace NacPlatform

/-! The first of the entries with the greatest value, by where it stands in the list. -/

section

variable {α β γ : Type} [LinearOrder γ] {f : β → γ}

theorem argmax_eq_some_iff {l : List β} {m : β} : l.argmax f=some m ↔
    ∃ pre post, l=pre++m::post ∧ (∀ a ∈ pre, f a<f m) ∧ ∀ a ∈ post, f a ≤ f m := by
  induction l generalizing m with
  | nil => simp
  | cons a l ih =>
    rw [List.argmax_cons]
    constructor
    · intro h
      cases hmax : l.argmax f with
      | none =>
        rw [hmax] at h
        obtain rfl := Option.some.inj h
        exact ⟨[],l,rfl,by simp,by simp [List.argmax_eq_none.mp hmax]⟩
      | some c =>
        simp only [hmax] at h
        split at h
        · next hlt =>
          obtain rfl := Option.some.inj h
          obtain ⟨pre,post,rfl,hpre,hpost⟩ := ih.mp hmax
          exact ⟨a::pre,post,rfl,List.forall_mem_cons.mpr ⟨hlt,hpre⟩,hpost⟩
        · next hle =>
          obtain rfl := Option.some.inj h
          refine ⟨[],l,rfl,by simp,?_⟩
          intro b hb
          exact (List.le_of_mem_argmax hb hmax).trans (not_lt.mp hle)
    · intro given
      obtain ⟨pre,post,heq,hpre,hpost⟩ := given
      cases pre with
      | nil =>
        obtain ⟨rfl,rfl⟩ := List.cons.inj heq
        cases hmax : l.argmax f with
        | none => rfl
        | some c => exact if_neg (not_lt.mpr (hpost c (List.argmax_mem hmax)))
      | cons b pre =>
        obtain ⟨rfl,rfl⟩ := List.cons.inj heq
        obtain ⟨hb,hpre⟩ := List.forall_mem_cons.mp hpre
        rw [ih.mpr ⟨pre,post,rfl,hpre,hpost⟩]
        exact if_pos hb

/-- The same where some of the entries do not count. -/
theorem argmax_filterMap_iff {g : α → Option β} {l : List α} {m : β} :
    (l.filterMap g).argmax f=some m ↔ ∃ pre x post, l=pre++x::post ∧ g x=some m ∧
      (∀ y ∈ pre, ∀ a, g y=some a → f a<f m) ∧ ∀ y ∈ post, ∀ a, g y=some a → f a ≤ f m := by
  rw [argmax_eq_some_iff]
  constructor
  · intro given
    obtain ⟨pre,post,heq,hpre,hpost⟩ := given
    obtain ⟨first,rest,rfl,rfl,hrest⟩ := List.filterMap_eq_append_iff.mp heq
    obtain ⟨skipped,x,last,rfl,hskipped,hx,rfl⟩ := List.filterMap_eq_cons_iff.mp hrest
    refine ⟨first++skipped,x,last,by simp,hx,?_,?_⟩
    · intro y hy a ha
      rcases List.mem_append.mp hy with hy|hy
      · exact hpre a (List.mem_filterMap.mpr ⟨y,hy,ha⟩)
      · rw [hskipped y hy] at ha
        cases ha
    · intro y hy a ha
      exact hpost a (List.mem_filterMap.mpr ⟨y,hy,ha⟩)
  · intro given
    obtain ⟨pre,x,post,rfl,hx,hpre,hpost⟩ := given
    refine ⟨pre.filterMap g,post.filterMap g,?_,?_,?_⟩
    · rw [List.filterMap_append,List.filterMap_cons_some hx]
    · intro a ha
      obtain ⟨y,hy,hya⟩ := List.mem_filterMap.mp ha
      exact hpre y hy a hya
    · intro a ha
      obtain ⟨y,hy,hya⟩ := List.mem_filterMap.mp ha
      exact hpost y hy a hya

end

end NacPlatform
