import Mathlib.Logic.Function.Basic
import NacPlatform.Framework.Rows

namespace NacPlatform

/-! A table with a unique column as the map from the values of that column to the rows. -/

section Keyed

variable {α κ : Type} [DecidableEq κ] {key : α → κ}

/-- The first row with a key. -/
def rowAt (key : α → κ) (rows : List α) (k : κ) : Option α := rows.find? fun r => key r==k

@[simp] theorem rowAt_nil (k : κ) : rowAt key [] k=none := rfl

theorem rowAt_cons (r : α) (rows : List α) (k : κ) :
    rowAt key (r::rows) k=if key r=k then some r else rowAt key rows k := by
  unfold rowAt
  by_cases h : key r=k
  · simp [h]
  · rw [List.find?_cons_of_neg (by simpa using h),if_neg h]

theorem rowAt_key {rows : List α} {k : κ} {r : α} (h : rowAt key rows k=some r) : key r=k := by
  simpa using List.find?_some h

theorem rowAt_mem {rows : List α} {k : κ} {r : α} (h : rowAt key rows k=some r) : r ∈ rows :=
  List.mem_of_find?_eq_some h

theorem rowAt_eq_none {rows : List α} {k : κ} : rowAt key rows k=none ↔ k ∉ rows.map key := by
  simp [rowAt,List.find?_eq_none]

theorem rowAt_eq_some {rows : List α} (hn : (rows.map key).Nodup) {k : κ} {r : α} :
    rowAt key rows k=some r ↔ r ∈ rows ∧ key r=k := by
  constructor
  · intro h
    exact ⟨rowAt_mem h,rowAt_key h⟩
  · intro given
    obtain ⟨hr,rfl⟩ := given
    apply find?_unique hn hr
    · exact beq_self_eq_true (key r)
    · intro r' _ h
      simpa using h

/-- A row with a new key at the end. -/
theorem rowAt_concat {rows : List α} {r : α} (h : key r ∉ rows.map key) :
    rowAt key (rows++[r])=Function.update (rowAt key rows) (key r) (some r) := by
  funext k
  induction rows with
  | nil =>
    rw [List.nil_append,rowAt_cons,rowAt_nil]
    by_cases hk : key r=k
    · rw [if_pos hk,← hk,Function.update_self]
    · rw [if_neg hk,Function.update_of_ne (Ne.symm hk),rowAt_nil]
  | cons a rows ih =>
    rw [List.map_cons,List.mem_cons,not_or] at h
    obtain ⟨hne,hrest⟩ := h
    rw [List.cons_append,rowAt_cons,ih hrest]
    by_cases hk : key r=k
    · rw [← hk,Function.update_self,Function.update_self,if_neg (Ne.symm hne)]
    · rw [Function.update_of_ne (Ne.symm hk),Function.update_of_ne (Ne.symm hk),rowAt_cons]

/-- The rows with a key deleted. -/
theorem rowAt_filter (rows : List α) (k₀ : κ) :
    rowAt key (rows.filter fun r => !(key r==k₀))=Function.update (rowAt key rows) k₀ none := by
  funext k
  induction rows with
  | nil =>
    rw [List.filter_nil,rowAt_nil]
    by_cases hk : k=k₀
    · rw [hk,Function.update_self]
    · rw [Function.update_of_ne hk,rowAt_nil]
  | cons a rows ih =>
    by_cases ha : key a=k₀
    · rw [List.filter_cons_of_neg (by simp [ha]),ih]
      by_cases hk : k=k₀
      · rw [hk,Function.update_self,Function.update_self]
      · rw [Function.update_of_ne hk,Function.update_of_ne hk,rowAt_cons,
          if_neg fun e => hk (e.symm.trans ha)]
    · rw [List.filter_cons_of_pos (by simp [ha]),rowAt_cons,ih]
      by_cases hk : k=k₀
      · rw [hk,Function.update_self,Function.update_self,if_neg ha]
      · rw [Function.update_of_ne hk,Function.update_of_ne hk,rowAt_cons]

/-- The rows with a key rewritten in other columns. -/
theorem rowAt_updateRows {f : α → α} (hf : ∀ r, key (f r)=key r) (rows : List α) (k₀ : κ) :
    rowAt key (updateRows (fun r => key r==k₀) f rows)=
      Function.update (rowAt key rows) k₀ ((rowAt key rows k₀).map f) := by
  funext k
  induction rows with
  | nil =>
    by_cases hk : k=k₀
    · rw [hk,Function.update_self]
      rfl
    · rw [Function.update_of_ne hk]
      rfl
  | cons a rows ih =>
    have hcons : updateRows (fun r => key r==k₀) f (a::rows)=
        (if key a==k₀ then f a else a)::updateRows (fun r => key r==k₀) f rows := rfl
    have hkey : key (if key a==k₀ then f a else a)=key a := by
      split
      · exact hf a
      · rfl
    rw [hcons,rowAt_cons,hkey,ih]
    by_cases ha : key a=k
    · rw [if_pos ha]
      by_cases hk : k=k₀
      · rw [hk,Function.update_self,rowAt_cons,if_pos (ha.trans hk),if_pos (by simp [ha,hk])]
        rfl
      · rw [Function.update_of_ne hk,rowAt_cons,if_pos ha,if_neg (by simp [ha,hk])]
    · rw [if_neg ha]
      by_cases hk : k=k₀
      · rw [hk,Function.update_self,Function.update_self,rowAt_cons,
          if_neg fun e => ha (e.trans hk.symm)]
      · rw [Function.update_of_ne hk,Function.update_of_ne hk,rowAt_cons,if_neg ha]

end Keyed

end NacPlatform
