import NacPlatform.Framework.Padded
import NacPlatform.PolicyManager.Conditions

namespace NacPlatform

/-! How versions are ordered, and what a build suffix does to the order. -/

section Order

theorem foldr_range_compare (va vb : List Nat) (n : Nat) (hn : max va.length vb.length=n) :
    ((List.range n).map fun i => compare (va.getD i 0) (vb.getD i 0)).foldr Ordering.then .eq=
      Padded.cmp 0 va vb := by
  induction n generalizing va vb with
  | zero =>
    have ha : va=[] := List.eq_nil_of_length_eq_zero (by omega)
    have hb : vb=[] := List.eq_nil_of_length_eq_zero (by omega)
    rw [ha,hb]
    rfl
  | succ n ih =>
    have htail := ih va.tail vb.tail (by simp only [List.length_tail]; omega)
    rw [List.range_succ_eq_map,List.map_cons,List.map_map,List.foldr_cons,Padded.cmp_eq,
      Padded.getD_zero,Padded.getD_zero,← htail]
    congr 3
    funext i
    simp only [Function.comp,Nat.succ_eq_add_one,Padded.getD_succ]

/-- The loop is the comparison of the parts, padded with zeros. -/
theorem compareOsVersion_eq (a b : String) :
    compareOsVersion a b=Padded.cmp 0 (versionParts a) (versionParts b) :=
  foldr_range_compare _ _ _ rfl

theorem versionParts_append_zero (a : String) :
    versionParts (a++".0")=versionParts a++[0] := by
  have hzero : parseU64 ['0']=some 0 := by decide
  have hlist : (a++".0").toList=a.toList ++ '.'::['0'] := by simp
  rw [versionParts,hlist,List.splitOnP_append_cons _ _ (by decide),List.filterMap_append,
    versionParts]
  congr 1

theorem getD_append_zero (va : List Nat) (i : Nat) : (va++[0]).getD i 0=va.getD i 0 := by
  rw [List.getD_eq_getElem?_getD,List.getD_eq_getElem?_getD]
  by_cases h : i<va.length
  · rw [List.getElem?_append_left h]
  · rw [List.getElem?_append_right (by omega),List.getElem?_eq_none (by omega : va.length ≤ i)]
    cases i-va.length <;> rfl

/-- Behind the last part there are zeros anyway. -/
theorem cmp_append_zero (va : List Nat) : Padded.cmp 0 (va++[0]) va=.eq :=
  (Padded.cmp_eq_eq_iff 0 _ _).mpr (getD_append_zero va)

/-- Versions are in a total preorder that trailing zeros do not count in, and the two leaves that
look at one cut it in two. -/
theorem compareOsVersion_total_preorder (rt : Runtime) :
    (∀ a : String, compareOsVersion a a=.eq) ∧
    (∀ a b : String, compareOsVersion b a=(compareOsVersion a b).swap) ∧
    (∀ a b c : String, compareOsVersion a b≠.gt → compareOsVersion b c≠.gt →
      compareOsVersion a c≠.gt) ∧
    (∀ a b : String, compareOsVersion (a++".0") b=compareOsVersion a b ∧
      compareOsVersion a (b++".0")=compareOsVersion a b) ∧
    (∀ (ep : EndpointRow) (v : String),
      conditionMatches rt ep (.osVersionAtLeast v)=!conditionMatches rt ep (.osVersionBelow v)) ∧
    ∀ v w : String, compareOsVersion v w≠.gt → ∀ ep : EndpointRow,
      (conditionMatches rt ep (.osVersionAtLeast w)=true →
        conditionMatches rt ep (.osVersionAtLeast v)=true) ∧
      (conditionMatches rt ep (.osVersionBelow v)=true →
        conditionMatches rt ep (.osVersionBelow w)=true) := by
  have below (ep : EndpointRow) (v : String) : conditionMatches rt ep (.osVersionBelow v)=true ↔
      Padded.cmp 0 (versionParts (reportedOsVersion ep)) (versionParts v)=.lt := by
    rw [conditionMatches,compareOsVersion_eq,beq_iff_eq]
  have atLeast (ep : EndpointRow) (v : String) :
      conditionMatches rt ep (.osVersionAtLeast v)=!conditionMatches rt ep (.osVersionBelow v) := by
    rw [conditionMatches,conditionMatches]
    rfl
  simp only [compareOsVersion_eq,versionParts_append_zero,← Ordering.isLE_iff_ne_gt]
  refine ⟨fun a => Std.ReflCmp.compare_self,fun a b => Std.OrientedCmp.eq_swap,
    fun a b c => Std.TransCmp.isLE_trans,fun a b => ⟨?_,?_⟩,atLeast,?_⟩
  · exact Std.TransCmp.congr_left (cmp_append_zero _)
  · exact Std.TransCmp.congr_right (cmp_append_zero _)
  · intro v w hle ep
    have hbelow : conditionMatches rt ep (.osVersionBelow v)=true →
        conditionMatches rt ep (.osVersionBelow w)=true := by
      rw [below,below]
      exact fun h => Std.TransCmp.lt_of_lt_of_isLE h hle
    refine ⟨?_,hbelow⟩
    rw [atLeast,atLeast]
    intro h
    by_contra hv
    have hv' : conditionMatches rt ep (.osVersionBelow v)=true := by simpa using hv
    rw [hbelow hv'] at h
    cases h

end Order

/-- Only digits and dots, each part a number of 64 bits. -/
def NumericVersion (v : String) : Prop :=
  ∀ p ∈ v.toList.splitOnP (· == '.'), p.all Char.isDigit=true ∧ (parseU64 p).isSome=true

instance (v : String) : Decidable (NumericVersion v) :=
  inferInstanceAs (Decidable (∀ p ∈ v.toList.splitOnP (· == '.'), _))

/-- What a release name has behind its version. -/
def BuildSuffix (s : String) : Prop := s.toList.head?=some '-'

instance (s : String) : Decidable (BuildSuffix s) := inferInstanceAs (Decidable (_=_))

/-- The last part of a version, and those before it. -/
def lastPart (v : String) : Nat := (versionParts v).getLastD 0

def frontParts (v : String) : List Nat := (versionParts v).dropLast

/-- The numbers behind the first dot of a suffix. -/
def buildParts (s : String) : List Nat :=
  ((s.toList.splitOnP (· == '.')).drop 1).filterMap parseU64

/-- Every part that is compared stands at its own position. -/
def InPlace (x : String) : Prop :=
  ∀ i n : Nat, (versionParts x)[i]?=some n →
    ((x.toList.splitOnP (· == '.'))[i]?).bind parseU64=some n

section Suffix

theorem splitOnP_append {α : Type} (p : α → Bool) (xs ys : List α) :
    ∃ init last head tail, xs.splitOnP p=init++[last] ∧ ys.splitOnP p=head::tail ∧
      (xs++ys).splitOnP p=init++(last++head)::tail := by
  obtain ⟨head,tail,hys⟩ := List.exists_cons_of_ne_nil (List.splitOnP_ne_nil p ys)
  suffices h : ∃ init last, xs.splitOnP p=init++[last] ∧
      (xs++ys).splitOnP p=init++(last++head)::tail by
    obtain ⟨init,last,hxs,hboth⟩ := h
    exact ⟨init,last,head,tail,hxs,hys,hboth⟩
  induction xs with
  | nil => exact ⟨[],[],by rw [List.splitOnP_nil]; rfl,by simpa using hys⟩
  | cons x xs ih =>
    obtain ⟨init,last,hxs,hboth⟩ := ih
    rw [List.cons_append,List.splitOnP_cons_eq_if_modifyHead,hxs,
      List.splitOnP_cons_eq_if_modifyHead,hboth]
    by_cases hp : p x=true
    · rw [if_pos hp,if_pos hp]
      exact ⟨[]::init,last,rfl,rfl⟩
    · rw [if_neg hp,if_neg hp]
      cases init with
      | nil => exact ⟨[],x::last,rfl,rfl⟩
      | cons part init => exact ⟨(x::part)::init,last,rfl,rfl⟩

theorem getElem?_filterMap_of_isSome {α β : Type} {f : α → Option β} {l : List α}
    (h : ∀ a ∈ l, (f a).isSome=true) (i : Nat) : (l.filterMap f)[i]?=l[i]?.bind f := by
  induction l generalizing i with
  | nil => rfl
  | cons a l ih =>
    obtain ⟨ha,hl⟩ := List.forall_mem_cons.mp h
    obtain ⟨b,hb⟩ := Option.isSome_iff_exists.mp ha
    rw [List.filterMap_cons_some hb]
    cases i with
    | zero => simp [hb]
    | succ i => simpa using ih hl i

/-- A number with a suffix glued to it is no number. -/
theorem parseU64_suffixed {last : List Char} (hdigits : last.all Char.isDigit=true)
    (hnum : (parseU64 last).isSome=true) (head : List Char) :
    parseU64 (last ++ '-'::head)=none := by
  match last,hdigits,hnum with
  | d::ds,hdigits,_ =>
    have hd : d.isDigit=true := by
      rw [List.all_cons,Bool.and_eq_true] at hdigits
      exact hdigits.1
    have hplus : d ≠ '+' := by
      intro same
      subst same
      exact absurd hd (by decide)
    have hno : ((d::ds) ++ '-'::head).all Char.isDigit=false := by
      have hdash : Char.isDigit '-'=false := by decide
      simp [hdash]
    rw [List.cons_append] at hno ⊢
    unfold parseU64
    split
    · rename_i heq
      exact absurd (List.cons.inj heq).1 hplus
    · simp [hno]

/-- The parts of a suffixed version: those before the last one, and what numbers the suffix has. -/
theorem suffixed_parts {v s : String} (hv : NumericVersion v) (hs : BuildSuffix s) :
    versionParts v=frontParts v++[lastPart v] ∧ versionParts (v++s)=frontParts v++buildParts s ∧
      ((v++s).toList.splitOnP (· == '.'))[(frontParts v).length]?.bind parseU64=none ∧
      ∀ i<(frontParts v).length, ((v++s).toList.splitOnP (· == '.'))[i]?.bind parseU64=
        (frontParts v)[i]? := by
  obtain ⟨init,last,head,tail,hv',hs',hboth⟩ :=
    splitOnP_append (· == '.') v.toList s.toList
  rw [NumericVersion,hv'] at hv
  obtain ⟨hdigits,hnum⟩ := hv last (by simp)
  have hinit : ∀ p ∈ init, (parseU64 p).isSome=true := fun p hp => (hv p (by simp [hp])).2
  obtain ⟨n,hn⟩ := Option.isSome_iff_exists.mp hnum
  have hparts : versionParts v=init.filterMap parseU64++[n] := by
    rw [versionParts,hv',List.filterMap_append,List.filterMap_cons_some hn,List.filterMap_nil]
  have hfront : frontParts v=init.filterMap parseU64 := by
    rw [frontParts,hparts,List.dropLast_concat]
  have hlast : lastPart v=n := by
    rw [lastPart,hparts]
    simp
  have hlen : (init.filterMap parseU64).length=init.length :=
    List.filterMap_length_eq_length.mpr hinit
  have hglued : parseU64 (last++head)=none := by
    rw [BuildSuffix] at hs
    obtain ⟨cs,hcs⟩ : ∃ cs, s.toList = '-'::cs := by
      cases hl : s.toList with
      | nil => simp [hl] at hs
      | cons c cs => exact ⟨cs,by simpa [hl] using hs⟩
    rw [hcs,List.splitOnP_cons_eq_if_modifyHead,if_neg (by decide)] at hs'
    obtain ⟨h,t,ht⟩ := List.exists_cons_of_ne_nil (List.splitOnP_ne_nil (· == '.') cs)
    rw [ht,List.modifyHead_cons] at hs'
    obtain ⟨rfl,_⟩ := List.cons.inj hs'
    exact parseU64_suffixed hdigits hnum h
  rw [String.toList_append,hboth,hfront,hlast,hlen]
  refine ⟨hparts,?_,?_,?_⟩
  · rw [versionParts,String.toList_append,hboth,List.filterMap_append,
      List.filterMap_cons_none hglued,buildParts,hs',List.drop_one,List.tail_cons]
  · rw [List.getElem?_append_right (Nat.le_refl _),Nat.sub_self]
    exact hglued
  · intro i hi
    rw [List.getElem?_append_left hi,getElem?_filterMap_of_isSome hinit]

theorem inPlace_suffixed_iff {v s : String} (hv : NumericVersion v) (hs : BuildSuffix s) :
    InPlace (v++s) ↔ buildParts s=[] := by
  obtain ⟨_,hparts,hglued,hfront⟩ := suffixed_parts hv hs
  rw [InPlace,hparts]
  constructor
  · intro h
    cases hb : buildParts s with
    | nil => rfl
    | cons n ns =>
      have hat := h (frontParts v).length n (by
        rw [List.getElem?_append_right (Nat.le_refl _),Nat.sub_self,hb]
        rfl)
      rw [hglued] at hat
      cases hat
  · intro hb i n hi
    rw [hb,List.append_nil] at hi
    have hlt : i<(frontParts v).length := by
      by_contra hge
      rw [List.getElem?_eq_none (by omega)] at hi
      cases hi
    rw [hfront i hlt,hi]

/-- Two versions differ in a part before the last one of the first. -/
def DifferBefore (v t : String) : Prop :=
  ∃ i<(frontParts v).length, (versionParts t).getD i 0≠(frontParts v).getD i 0

/-- A suffix leaves the comparison with a version alone exactly when that is settled before the
last part, or the numbers of the suffix stand to what the version has from there as the last part
does; it does so for every version exactly when its numbers are the last part and zeros. And parts
are compared in their places exactly when the suffix has no number at all. -/
theorem buildSuffix_ignored_iff {v s : String} (hv : NumericVersion v) (hs : BuildSuffix s) :
    (∀ t, NumericVersion t → (compareOsVersion (v++s) t=compareOsVersion v t ↔
      DifferBefore v t ∨
        Padded.cmp 0 (buildParts s) ((versionParts t).drop (frontParts v).length)=
          Padded.cmp 0 [lastPart v] ((versionParts t).drop (frontParts v).length))) ∧
    ((∀ t, NumericVersion t → compareOsVersion (v++s) t=compareOsVersion v t) ↔
      ∀ i, (buildParts s).getD i 0=[lastPart v].getD i 0) ∧
    (InPlace (v++s) ↔ buildParts s=[]) := by
  obtain ⟨hparts,hsuffixed,_,_⟩ := suffixed_parts hv hs
  simp only [compareOsVersion_eq]
  rw [hsuffixed,hparts]
  refine ⟨fun t _ => ?_,⟨fun h => ?_,fun h t _ => ?_⟩,inPlace_suffixed_iff hv hs⟩
  · by_cases hd : DifferBefore v t
    · obtain ⟨i,hi,hne⟩ := hd
      exact iff_of_true (Padded.cmp_append_of_differ 0 hi hne _ _) (.inl ⟨i,hi,hne⟩)
    · have hagree : ∀ i<(frontParts v).length,
          (versionParts t).getD i 0=(frontParts v).getD i 0 := by
        intro i hi
        by_contra hne
        exact hd ⟨i,hi,hne⟩
      rw [Padded.cmp_append_of_agree 0 hagree,Padded.cmp_append_of_agree 0 hagree,
        or_iff_right hd]
  · have hself : Padded.cmp 0 (frontParts v++[lastPart v]) (frontParts v++[lastPart v])=.eq :=
      Std.ReflCmp.compare_self
    have hsame := h v hv
    rw [hparts,hself,Padded.cmp_append_left,Padded.cmp_eq_eq_iff] at hsame
    exact hsame
  · rw [← Padded.cmp_eq_eq_iff 0,← Padded.cmp_append_left 0 (frontParts v)] at h
    exact Std.TransCmp.congr_left h

/-- The kernel of a release name: no number stands behind its first dot, and its last part is 0. -/
theorem buildSuffix_ignored_generic :
    (∀ t, NumericVersion t → (compareOsVersion ("5.15.0"++"-76-generic") t=
        compareOsVersion "5.15.0" t ↔ DifferBefore "5.15.0" t ∨
        Padded.cmp 0 (buildParts "-76-generic")
            ((versionParts t).drop (frontParts "5.15.0").length)=
          Padded.cmp 0 [lastPart "5.15.0"] ((versionParts t).drop (frontParts "5.15.0").length))) ∧
    ((∀ t, NumericVersion t →
        compareOsVersion ("5.15.0"++"-76-generic") t=compareOsVersion "5.15.0" t) ↔
      ∀ i, (buildParts "-76-generic").getD i 0=[lastPart "5.15.0"].getD i 0) ∧
    (InPlace ("5.15.0"++"-76-generic") ↔ buildParts "-76-generic"=[]) :=
  buildSuffix_ignored_iff (by decide +kernel) (by decide +kernel)

/-- A kernel that is new enough is taken for an old one. -/
theorem buildSuffix_drops_part :
    NumericVersion "5.4.17" ∧ NumericVersion "5.4.10" ∧ BuildSuffix "-2136.el7" ∧
      compareOsVersion ("5.4.17"++"-2136.el7") "5.4.10"=.lt ∧
      compareOsVersion "5.4.17" "5.4.10"=.gt := by
  decide +kernel

end Suffix

end NacPlatform
