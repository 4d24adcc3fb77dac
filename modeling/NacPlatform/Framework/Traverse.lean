import Mathlib.Data.List.Forall2

namespace NacPlatform

/-! Lists read item by item by something that can fail. -/

variable {α β ε : Type}

theorem mapM_cons_ok {f : α → Except ε β} {a : α} {b : β} (h : f a=.ok b) (as : List α) :
    (a::as).mapM f=(as.mapM f).map (b::·) := by
  rw [List.mapM_cons,h]
  cases hs : as.mapM f with
  | error e => simp [bind,Except.bind,Except.map]
  | ok bs => simp [bind,Except.bind,Except.map,pure,Except.pure]

theorem mapM_cons_error {f : α → Except ε β} {a : α} {e : ε} (h : f a=.error e) (as : List α) :
    (a::as).mapM f=.error e := by
  rw [List.mapM_cons,h]
  rfl

/-- What is read stands in the order of what it was read from. -/
theorem mapM_eq_ok_iff {f : α → Except ε β} {as : List α} {bs : List β} :
    as.mapM f=.ok bs ↔ List.Forall₂ (fun a b => f a=.ok b) as bs := by
  induction as generalizing bs with
  | nil =>
    rw [List.mapM_nil,List.forall₂_nil_left_iff]
    exact ⟨fun h => (Except.ok.inj h).symm,fun h => h ▸ rfl⟩
  | cons a as ih =>
    rw [List.forall₂_cons_left_iff]
    cases ha : f a with
    | error e =>
      rw [mapM_cons_error ha]
      refine ⟨nofun,?_⟩
      intro given
      obtain ⟨_,_,h,_⟩ := given
      cases h
    | ok b =>
      rw [mapM_cons_ok ha]
      constructor
      · intro h
        cases hs : as.mapM f with
        | error e =>
          rw [hs] at h
          cases h
        | ok bs' =>
          rw [hs] at h
          cases h
          exact ⟨b,bs',rfl,ih.mp hs,rfl⟩
      · intro given
        obtain ⟨_,bs',h,hbs,rfl⟩ := given
        cases h
        rw [ih.mpr hbs]
        rfl

/-- The whole list is read when each item is. -/
theorem mapM_ok_of_forall {f : α → Except ε β} {as : List α} (h : ∀ a ∈ as, ∃ b, f a=.ok b) :
    ∃ bs, as.mapM f=.ok bs := by
  induction as with
  | nil => exact ⟨[],rfl⟩
  | cons a as ih =>
    obtain ⟨b,hb⟩ := h a List.mem_cons_self
    obtain ⟨bs,hbs⟩ := ih fun a' ha' => h a' (List.mem_cons_of_mem a ha')
    exact ⟨b::bs,mapM_eq_ok_iff.mpr (.cons hb (mapM_eq_ok_iff.mp hbs))⟩

theorem mapM_isSome_iff {f : α → Option β} {as : List α} :
    (as.mapM f).isSome=true ↔ ∀ a ∈ as, (f a).isSome=true := by
  induction as with
  | nil => simp
  | cons a as ih =>
    rw [List.mapM_cons,List.forall_mem_cons,← ih]
    cases f a with
    | none => simp
    | some b =>
      cases as.mapM f with
      | none => simp
      | some bs => simp

theorem mapM_eq_some_iff {f : α → Option β} {as : List α} {bs : List β} :
    as.mapM f=some bs ↔ List.Forall₂ (fun a b => f a=some b) as bs := by
  induction as generalizing bs with
  | nil =>
    rw [List.mapM_nil,List.forall₂_nil_left_iff]
    exact ⟨fun h => (Option.some.inj h).symm,fun h => h ▸ rfl⟩
  | cons a as ih =>
    rw [List.forall₂_cons_left_iff,List.mapM_cons]
    constructor
    · intro h
      obtain ⟨b,hb,h⟩ := Option.bind_eq_some_iff.mp h
      obtain ⟨bs',hbs,h⟩ := Option.bind_eq_some_iff.mp h
      exact ⟨b,bs',hb,ih.mp hbs,(Option.some.inj h).symm⟩
    · intro given
      obtain ⟨b,bs',hb,hbs,rfl⟩ := given
      rw [hb,ih.mpr hbs]
      rfl

end NacPlatform
