import Mathlib.Data.List.Dedup
import Mathlib.Data.List.Perm.Subperm

namespace NacPlatform

variable {K : Type}

/-- Keys in the order of their first appearance. A key's number is its place in that order. -/
structure Roster (K : Type) where
  keys : List K
  nodup : keys.Nodup

namespace Roster

def empty : Roster K := ⟨[],List.nodup_nil⟩

@[simp] theorem empty_keys : (empty : Roster K).keys=[] := rfl

variable [DecidableEq K]

/-- A key that is already there keeps its place. -/
def enroll (r : Roster K) (k : K) : Roster K :=
  if h : k ∈ r.keys then r
  else ⟨r.keys++[k],by
    rw [List.nodup_append]
    exact ⟨r.nodup,List.nodup_singleton k,fun a ha b hb e =>
      h (List.mem_singleton.mp hb ▸ e ▸ ha)⟩⟩

def number (r : Roster K) (k : K) : Nat := r.keys.idxOf k

theorem enroll_of_mem {r : Roster K} {k : K} (h : k ∈ r.keys) : r.enroll k=r := dif_pos h

theorem enroll_keys {r : Roster K} {k : K} (h : k ∉ r.keys) :
    (r.enroll k).keys=r.keys++[k] := by
  rw [enroll,dif_neg h]

@[simp] theorem mem_enroll {r : Roster K} {k x : K} :
    x ∈ (r.enroll k).keys ↔ x ∈ r.keys ∨ x=k := by
  by_cases h : k ∈ r.keys
  · rw [enroll_of_mem h]
    constructor
    · exact Or.inl
    · intro hx
      cases hx with
      | inl hx => exact hx
      | inr e => exact e ▸ h
  · rw [enroll_keys h]
    simp

theorem number_lt {r : Roster K} {k : K} (h : k ∈ r.keys) : r.number k<r.keys.length :=
  List.idxOf_lt_length_of_mem h

/-- Different keys have different numbers. -/
theorem number_inj {r : Roster K} {k x : K} (h : k ∈ r.keys) (e : r.number k=r.number x) :
    k=x := (List.idxOf_inj h).mp e

/-- Nobody's number changes when another key is enrolled. -/
theorem number_enroll {r : Roster K} {x : K} (k : K) (h : x ∈ r.keys) :
    (r.enroll k).number x=r.number x := by
  by_cases hk : k ∈ r.keys
  · rw [enroll_of_mem hk]
  · rw [number,enroll_keys hk,List.idxOf_append_of_mem h]
    rfl

theorem number_enroll_self {r : Roster K} {k : K} (h : k ∉ r.keys) :
    (r.enroll k).number k=r.keys.length := by
  rw [number,enroll_keys h,List.idxOf_append_of_notMem h]
  simp

/-- There are no more numbers than different keys. -/
theorem length_le {r : Roster K} {ks : List K} (h : ∀ k ∈ r.keys, k ∈ ks) :
    r.keys.length ≤ ks.dedup.length := by
  have hsub : r.keys ⊆ ks.dedup := by
    intro k hk
    exact List.mem_dedup.mpr (h k hk)
  exact (List.subperm_of_subset r.nodup hsub).length_le

def enrollAll (r : Roster K) (ks : List K) : Roster K := ks.foldl enroll r

@[simp] theorem enrollAll_nil (r : Roster K) : r.enrollAll []=r := rfl

@[simp] theorem enrollAll_cons (r : Roster K) (k : K) (ks : List K) :
    r.enrollAll (k::ks)=(r.enroll k).enrollAll ks := rfl

@[simp] theorem mem_enrollAll {r : Roster K} {ks : List K} {x : K} :
    x ∈ (r.enrollAll ks).keys ↔ x ∈ r.keys ∨ x ∈ ks := by
  induction ks generalizing r with
  | nil => simp
  | cons k ks ih => rw [enrollAll_cons,ih,mem_enroll,List.mem_cons,or_assoc]

theorem number_enrollAll {r : Roster K} {x : K} (ks : List K) (h : x ∈ r.keys) :
    (r.enrollAll ks).number x=r.number x := by
  induction ks generalizing r with
  | nil => rfl
  | cons k ks ih => rw [enrollAll_cons,ih (mem_enroll.mpr (.inl h)),number_enroll k h]

/-- The place of a key is its number. -/
theorem number_of_getElem? {r : Roster K} {k : K} {i : Nat} (h : r.keys[i]?=some k) :
    r.number k=i := by
  obtain ⟨hi,rfl⟩ := List.getElem?_eq_some_iff.mp h
  exact r.nodup.idxOf_getElem i hi

/-- A table that gives the key with number `n` the value `f n` and knows no other key. -/
def Tabulates {V : Type} [BEq K] [LawfulBEq K] (r : Roster K) (f : Nat → V)
    (table : List (K × V)) : Prop :=
  ∀ k, table.lookup k=if k ∈ r.keys then some (f (r.number k)) else none

section

variable {V : Type} [BEq K] [LawfulBEq K] {r : Roster K} {f : Nat → V} {table : List (K × V)}
  {k : K}

theorem Tabulates.lookup (h : r.Tabulates f table) (hk : k ∈ r.keys) :
    table.lookup k=some (f (r.number k)) := by
  rw [h,if_pos hk]

theorem Tabulates.lookup_eq_none (h : r.Tabulates f table) (hk : k ∉ r.keys) :
    table.lookup k=none := by
  rw [h,if_neg hk]

/-- A new key takes the next number. -/
theorem Tabulates.cons (h : r.Tabulates f table) (hk : k ∉ r.keys) :
    (r.enroll k).Tabulates f ((k,f r.keys.length)::table) := by
  intro x
  rw [List.lookup_cons]
  by_cases hx : x=k
  · subst hx
    have hin : x ∈ (r.enroll x).keys := mem_enroll.mpr (.inr rfl)
    rw [if_pos hin,number_enroll_self hk,beq_self_eq_true]
  · have hne : (x==k)=false := beq_false_of_ne hx
    rw [hne,h]
    by_cases hin : x ∈ r.keys
    · rw [if_pos hin,if_pos (mem_enroll.mpr (.inl hin)),number_enroll k hin]
    · rw [if_neg hin,if_neg fun h => (mem_enroll.mp h).elim hin hx]

end

end Roster

end NacPlatform
