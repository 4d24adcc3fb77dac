import Mathlib.Data.List.Forall2

namespace NacPlatform.Router

/-! Routes with parameters, where a fixed part goes before a parameter. -/

/-- What stands in a route between two slashes. -/
inductive Part where
  | text (s : String)
  | param (name : String)
  deriving DecidableEq, Repr

abbrev Pattern := List Part

def afterText {ρ : Type _} (seg : String) : Pattern × ρ → Option (Pattern × ρ)
  | (.text s::parts,r) => if s=seg then some (parts,r) else none
  | _ => none

def afterParam {ρ : Type _} : Pattern × ρ → Option (Pattern × ρ)
  | (.param _::parts,r) => some (parts,r)
  | _ => none

/-- The routes still open, each with the parts that are left of it. A parameter is tried where no
fixed part leads to a route; it is never empty. -/
def find {ρ : Type _} : List (Pattern × ρ) → List String → Option (ρ × List String)
  | rows, [] => (rows.find? (·.1.isEmpty)).map fun row => (row.2,[])
  | rows, seg::segs =>
    match find (rows.filterMap (afterText seg)) segs with
    | some found => some found
    | none =>
      if seg="" then none
      else (find (rows.filterMap afterParam) segs).map fun found => (found.1,seg::found.2)

/-- Segments that a route is open to, with those its parameters take. -/
inductive Fits : Pattern → List String → List String → Prop where
  | nil : Fits [] [] []
  | text (s : String) {parts : Pattern} {segs taken : List String} (rest : Fits parts segs taken) :
    Fits (.text s::parts) (s::segs) taken
  | param (name : String) {seg : String} (h : seg≠"") {parts : Pattern} {segs taken : List String}
    (rest : Fits parts segs taken) : Fits (.param name::parts) (seg::segs) (seg::taken)

/-- A route with texts in the place of its parameters. -/
def fill {α : Type _} (f : String → α) : Pattern → List α → List α
  | [], _ => []
  | .text s::parts, xs => f s::fill f parts xs
  | .param _::parts, x::xs => x::fill f parts xs
  | .param _::_, [] => []

theorem find_nil {ρ : Type _} (segs : List String) : find ([] : List (Pattern × ρ)) segs=none := by
  induction segs with
  | nil => rfl
  | cons seg segs ih =>
    simp only [find,List.filterMap_nil,ih,Option.map_none,ite_self]

/-- Where no route goes on with a parameter, the fixed part decides. -/
theorem find_text {ρ : Type _} {rows : List (Pattern × ρ)} (h : rows.filterMap afterParam=[])
    (seg : String) (segs : List String) :
    find rows (seg::segs)=find (rows.filterMap (afterText seg)) segs := by
  simp only [find,h,find_nil,Option.map_none,ite_self]
  cases find (rows.filterMap (afterText seg)) segs <;> rfl

/-- Only a route that the segments fit is found. -/
theorem find_fits {ρ : Type _} {segs : List String} :
    ∀ {rows : List (Pattern × ρ)} {r : ρ} {taken : List String},
      find rows segs=some (r,taken) → ∃ parts, (parts,r) ∈ rows ∧ Fits parts segs taken := by
  induction segs with
  | nil =>
    intro rows r taken h
    rw [find,Option.map_eq_some_iff] at h
    obtain ⟨⟨parts,r'⟩,hrow,he⟩ := h
    obtain ⟨rfl,rfl⟩ := Prod.mk.inj he
    have hempty := List.find?_some hrow
    obtain rfl : parts=[] := List.isEmpty_iff.mp hempty
    exact ⟨[],List.mem_of_find?_eq_some hrow,.nil⟩
  | cons seg segs ih =>
    intro rows r taken h
    rw [find] at h
    split at h
    · next found hf =>
      obtain rfl := Option.some.inj h
      obtain ⟨parts,hm,hfit⟩ := ih hf
      rw [List.mem_filterMap] at hm
      obtain ⟨⟨row,r'⟩,hrow,ha⟩ := hm
      rw [afterText.eq_def] at ha
      split at ha
      · next s parts' r'' he =>
        obtain ⟨rfl,rfl⟩ := Prod.mk.inj he
        split at ha
        · next hs =>
          obtain ⟨rfl,rfl⟩ := Prod.mk.inj (Option.some.inj ha)
          exact ⟨_,hrow,hs ▸ .text s hfit⟩
        · cases ha
      · cases ha
    · split at h
      · cases h
      · next hne =>
        rw [Option.map_eq_some_iff] at h
        obtain ⟨⟨r'',taken'⟩,hf,he⟩ := h
        obtain ⟨rfl,rfl⟩ := Prod.mk.inj he
        obtain ⟨parts,hm,hfit⟩ := ih hf
        rw [List.mem_filterMap] at hm
        obtain ⟨⟨row,r'⟩,hrow,ha⟩ := hm
        rw [afterParam.eq_def] at ha
        split at ha
        · next name parts' r'' he =>
          obtain ⟨rfl,rfl⟩ := Prod.mk.inj he
          obtain ⟨rfl,rfl⟩ := Prod.mk.inj (Option.some.inj ha)
          exact ⟨_,hrow,.param name hne hfit⟩
        · cases ha

/-- The segments of a route are its fixed parts and what the parameters took. -/
theorem Fits.eq_fill {parts : Pattern} {segs taken : List String} (h : Fits parts segs taken) :
    segs=fill id parts taken := by
  induction h with
  | nil => rfl
  | text s _ ih => rw [fill,← ih]; rfl
  | param name _ _ ih => rw [fill,← ih]

/-- How many parameters a route has. -/
def slots : Pattern → Nat
  | [] => 0
  | .text _::parts => slots parts
  | .param _::parts => slots parts+1

theorem Fits.length_taken {parts : Pattern} {segs taken : List String}
    (h : Fits parts segs taken) : taken.length=slots parts := by
  induction h with
  | nil => rfl
  | text s _ ih => exact ih
  | param name _ _ ih => rw [List.length_cons,ih,slots]

theorem fill_inj {α : Type _} {f : String → α} {parts : Pattern} {xs ys : List α}
    (hx : xs.length=slots parts) (hy : ys.length=slots parts)
    (h : fill f parts xs=fill f parts ys) : xs=ys := by
  induction parts generalizing xs ys with
  | nil => rw [List.length_eq_zero_iff.mp hx,List.length_eq_zero_iff.mp hy]
  | cons part parts ih =>
    cases part with
    | text s => exact ih hx hy (List.cons.inj h).2
    | param name =>
      obtain ⟨x,xs',rfl⟩ := List.exists_cons_of_length_eq_add_one hx
      obtain ⟨y,ys',rfl⟩ := List.exists_cons_of_length_eq_add_one hy
      obtain ⟨rfl,hrest⟩ := List.cons.inj h
      rw [ih (Nat.succ.inj hx) (Nat.succ.inj hy) hrest]

theorem map_fill {α β : Type _} (f : String → α) (g : α → β) (parts : Pattern) (xs : List α) :
    (fill f parts xs).map g=fill (g ∘ f) parts (xs.map g) := by
  induction parts generalizing xs with
  | nil => rfl
  | cons part parts ih =>
    cases part with
    | text s => rw [fill,List.map_cons,ih,fill]; rfl
    | param name =>
      cases xs with
      | nil => rfl
      | cons x xs => rw [fill,List.map_cons,ih,List.map_cons,fill]

theorem fill_congr {α : Type _} {f g : String → α} {parts : Pattern}
    (h : ∀ s, .text s ∈ parts → f s=g s) (xs : List α) : fill f parts xs=fill g parts xs := by
  induction parts generalizing xs with
  | nil => rfl
  | cons part parts ih =>
    have hi := fun ys => ih (fun s hs => h s (List.mem_cons_of_mem part hs)) ys
    cases part with
    | text s => rw [fill,fill,hi,h s List.mem_cons_self]
    | param name =>
      cases xs with
      | nil => rfl
      | cons x xs => rw [fill,fill,hi]

theorem forall₂_fill {α β : Type _} {R : α → β → Prop} {f : String → α} {g : String → β}
    {parts : Pattern} (h : ∀ s, .text s ∈ parts → R (f s) (g s)) {xs : List α} {ys : List β}
    (hxs : List.Forall₂ R xs ys) : List.Forall₂ R (fill f parts xs) (fill g parts ys) := by
  induction parts generalizing xs ys with
  | nil => exact .nil
  | cons part parts ih =>
    have hi {xs : List α} {ys : List β} (hxs : List.Forall₂ R xs ys) :=
      ih (fun s hs => h s (List.mem_cons_of_mem part hs)) hxs
    cases part with
    | text s => exact .cons (h s List.mem_cons_self) (hi hxs)
    | param name =>
      cases hxs with
      | nil => exact .nil
      | cons hx hxs => exact .cons hx (hi hxs)

theorem mem_fill {α : Type _} {f : String → α} {parts : Pattern} {xs : List α} {x : α}
    (h : x ∈ fill f parts xs) : (∃ s, .text s ∈ parts ∧ x=f s) ∨ x ∈ xs := by
  induction parts generalizing xs with
  | nil => cases h
  | cons part parts ih =>
    cases part with
    | text s =>
      rcases List.mem_cons.mp h with rfl|h
      · exact .inl ⟨s,List.mem_cons_self,rfl⟩
      · exact (ih h).imp_left fun ⟨t,ht,he⟩ => ⟨t,List.mem_cons_of_mem _ ht,he⟩
    | param name =>
      cases xs with
      | nil => cases h
      | cons y xs =>
        rcases List.mem_cons.mp h with rfl|h
        · exact .inr List.mem_cons_self
        · exact (ih h).imp (fun ⟨t,ht,he⟩ => ⟨t,List.mem_cons_of_mem _ ht,he⟩)
            (List.mem_cons_of_mem y)

end NacPlatform.Router
