import NacPlatform.Framework.Run
import Mathlib.Data.List.Sort
import Mathlib.Data.List.Nodup
import Mathlib.Data.List.Perm.Subperm

namespace NacPlatform

section Pages

variable {α κ : Type} [LinearOrder κ] (key : α → κ)

/-- Rows by their keys, the greatest first; rows of one key stand as they were met. -/
def newestFirst (met : List α) : List α := met.insertionSort fun a b => key b ≤ key a

/-- `ORDER BY key DESC LIMIT limit OFFSET offset`. -/
def page (limit offset : Nat) (met : List α) : List α :=
  ((newestFirst key met).drop offset).take limit

/-- How many rows have a greater key. -/
def above (rows : List α) (c : κ) : Nat := rows.countP fun r => c<key r

/-- How many rows have this key or a greater one. -/
def upTo (rows : List α) (c : κ) : Nat := rows.countP fun r => c ≤ key r

/-- Rows of one key stand on both sides of a place. -/
def Straddled (rows : List α) (n : Nat) : Prop :=
  ∃ r ∈ rows, above key rows (key r)<n ∧ n<upTo key rows (key r)

theorem newestFirst_perm (met : List α) : (newestFirst key met).Perm met :=
  List.perm_insertionSort _ _

theorem newestFirst_sorted (met : List α) :
    (newestFirst key met).Pairwise fun a b => key b ≤ key a := by
  have : Std.Total fun a b => key b ≤ key a := ⟨fun a b => le_total (key b) (key a)⟩
  have : IsTrans α fun a b => key b ≤ key a := ⟨fun _ _ _ h h' => h'.trans h⟩
  exact List.pairwise_insertionSort _ met

variable {key}

theorem newestFirst_of_sorted {l : List α} (h : l.Pairwise fun a b => key b ≤ key a) :
    newestFirst key l=l := h.insertionSort_eq

theorem above_perm {rows met : List α} (h : met.Perm rows) (c : κ) :
    above key met c=above key rows c := h.countP_eq _

theorem upTo_perm {rows met : List α} (h : met.Perm rows) (c : κ) :
    upTo key met c=upTo key rows c := h.countP_eq _

/-- Where the rows that have a property stand first, they are those at the first places. -/
theorem lt_countP_iff {p : α → Bool} {l : List α}
    (h : l.Pairwise fun a b => p b=true → p a=true) {i : Nat} :
    i<l.countP p ↔ ∃ a, l[i]?=some a ∧ p a=true := by
  induction l generalizing i with
  | nil => simp
  | cons a l ih =>
    obtain ⟨hfirst,hrest⟩ := List.pairwise_cons.mp h
    cases hp : p a with
    | true =>
      rw [List.countP_cons_of_pos hp]
      cases i with
      | zero => simp [hp]
      | succ i => simp [ih hrest]
    | false =>
      have hnone : ∀ b ∈ l, ¬p b=true := by
        intro b hb hpb
        rw [hfirst b hb hpb] at hp
        cases hp
      rw [List.countP_cons_of_neg (by simp [hp]),List.countP_eq_zero.mpr hnone]
      refine ⟨fun hi => absurd hi (Nat.not_lt_zero i),?_⟩
      rintro ⟨b,hb,hpb⟩
      rcases List.mem_cons.mp (List.mem_of_getElem? hb) with rfl|hmem
      · rw [hp] at hpb
        cases hpb
      · exact absurd hpb (hnone b hmem)

theorem lt_above_iff {l : List α} (h : l.Pairwise fun a b => key b ≤ key a) {c : κ} {i : Nat} :
    i<above key l c ↔ ∃ a, l[i]?=some a ∧ c<key a := by
  rw [above,lt_countP_iff]
  · simp
  · refine h.imp ?_
    intro a b hab hb
    simp only [decide_eq_true_eq] at hb ⊢
    exact hb.trans_le hab

theorem lt_upTo_iff {l : List α} (h : l.Pairwise fun a b => key b ≤ key a) {c : κ} {i : Nat} :
    i<upTo key l c ↔ ∃ a, l[i]?=some a ∧ c ≤ key a := by
  rw [upTo,lt_countP_iff]
  · simp
  · refine h.imp ?_
    intro a b hab hb
    simp only [decide_eq_true_eq] at hb ⊢
    exact hb.trans hab

/-- The rows of one key fill the places between those of the greater keys and those of the lesser
ones. -/
theorem key_eq_iff {l : List α} (h : l.Pairwise fun a b => key b ≤ key a) {a : α} {i : Nat}
    (ha : l[i]?=some a) (c : κ) : key a=c ↔ above key l c ≤ i ∧ i<upTo key l c := by
  have habove : i<above key l c ↔ c<key a := by simp [lt_above_iff h,ha]
  have hupTo : i<upTo key l c ↔ c ≤ key a := by simp [lt_upTo_iff h,ha]
  rw [← Nat.not_lt,habove,hupTo,not_lt]
  exact le_antisymm_iff

theorem mem_page {limit offset : Nat} {met : List α} {a : α} :
    a ∈ page key limit offset met ↔
      ∃ i, (newestFirst key met)[i]?=some a ∧ offset ≤ i ∧ i<offset+limit := by
  rw [page,List.mem_iff_getElem?]
  constructor
  · rintro ⟨i,hi⟩
    rw [List.getElem?_take] at hi
    split_ifs at hi with hlt
    rw [List.getElem?_drop] at hi
    exact ⟨offset+i,hi,by omega,by omega⟩
  · rintro ⟨i,hi,hle,hlt⟩
    refine ⟨i-offset,?_⟩
    rw [List.getElem?_take,if_pos (by omega),List.getElem?_drop,Nat.add_sub_cancel' hle]
    exact hi

theorem page_subset {limit offset : Nat} {met : List α} : page key limit offset met ⊆ met := by
  intro a ha
  obtain ⟨i,hi,-⟩ := mem_page.mp ha
  exact (newestFirst_perm key met).mem_iff.mp (List.mem_of_getElem? hi)

theorem page_length (limit offset : Nat) (met : List α) :
    (page key limit offset met).length=min limit (met.length-offset) := by
  rw [page,List.length_take,List.length_drop,(newestFirst_perm key met).length_eq]

theorem page_nodup {limit offset : Nat} {met : List α} (h : met.Nodup) :
    (page key limit offset met).Nodup :=
  (((newestFirst_perm key met).nodup_iff.mpr h).sublist (List.drop_sublist ..)).sublist
    (List.take_sublist ..)

/-- Wherever a row stands among those of its key, it is between the others. -/
theorem bounds_of_mem_page {limit offset : Nat} {met rows : List α} (hmet : met.Perm rows) {a : α}
    (h : a ∈ page key limit offset met) :
    offset<upTo key rows (key a) ∧ above key rows (key a)<offset+limit := by
  obtain ⟨i,hi,hle,hlt⟩ := mem_page.mp h
  have hsame := (newestFirst_perm key met).trans hmet
  obtain ⟨hfirst,hlast⟩ := (key_eq_iff (newestFirst_sorted key met) hi (key a)).mp rfl
  rw [above_perm hsame] at hfirst
  rw [upTo_perm hsame] at hlast
  omega

/-- A page has every row whose key has all its places on the page. -/
theorem mem_page_of_bounds {limit offset : Nat} {met rows : List α} (hmet : met.Perm rows) {a : α}
    (ha : a ∈ rows) (hfirst : offset ≤ above key rows (key a))
    (hlast : upTo key rows (key a) ≤ offset+limit) : a ∈ page key limit offset met := by
  have hsame := (newestFirst_perm key met).trans hmet
  obtain ⟨i,hi⟩ := List.mem_iff_getElem?.mp (hsame.mem_iff.mpr ha)
  obtain ⟨hge,hlt⟩ := (key_eq_iff (newestFirst_sorted key met) hi (key a)).mp rfl
  rw [above_perm hsame] at hge
  rw [upTo_perm hsame] at hlt
  exact mem_page.mpr ⟨i,hi,by omega,by omega⟩

variable (key) in
theorem above_lt_upTo {rows : List α} {a : α} (ha : a ∈ rows) :
    above key rows (key a)<upTo key rows (key a) := by
  obtain ⟨i,hi⟩ := List.mem_iff_getElem?.mp ((newestFirst_perm key rows).mem_iff.mpr ha)
  obtain ⟨hge,hlt⟩ := (key_eq_iff (newestFirst_sorted key rows) hi (key a)).mp rfl
  rw [above_perm (newestFirst_perm key rows)] at hge
  rw [upTo_perm (newestFirst_perm key rows)] at hlt
  omega

/-- Where no key is on both sides of a boundary, a row is on one page only. -/
theorem page_unique {rows : List α} {limit : Nat}
    (hno : ∀ k, ¬Straddled key rows (k*limit)) {met : Nat → List α}
    (hmet : ∀ k, (met k).Perm rows) {a : α} {j k : Nat}
    (hj : a ∈ page key limit (j*limit) (met j)) (hk : a ∈ page key limit (k*limit) (met k)) :
    j=k := by
  have later {j k : Nat} (hj : a ∈ page key limit (j*limit) (met j))
      (hk : a ∈ page key limit (k*limit) (met k)) : ¬j<k := by
    intro hlt
    have hrow : a ∈ rows := (hmet j).mem_iff.mp (page_subset hj)
    obtain ⟨-,hfirst⟩ := bounds_of_mem_page (hmet j) hj
    obtain ⟨hlast,-⟩ := bounds_of_mem_page (hmet k) hk
    have hnext : j*limit+limit ≤ k*limit := by
      rw [← Nat.succ_mul]
      exact Nat.mul_le_mul_right limit hlt
    exact hno k ⟨a,hrow,by omega,hlast⟩
  have h := later hj hk
  have h' := later hk hj
  omega

theorem exists_page {rows : List α} {limit n : Nat} (hlimit : 0<limit)
    (hrows : rows.length ≤ n*limit) (hno : ∀ k, ¬Straddled key rows (k*limit))
    {met : Nat → List α} (hmet : ∀ k, (met k).Perm rows) {a : α} (ha : a ∈ rows) :
    ∃ k, k<n ∧ a ∈ page key limit (k*limit) (met k) := by
  have habove := above_lt_upTo key ha
  have hlength : upTo key rows (key a) ≤ rows.length := List.countP_le_length
  have hfirst := Nat.div_mul_le_self (above key rows (key a)) limit
  have hlast := Nat.lt_div_mul_add hlimit (a := above key rows (key a))
  refine ⟨above key rows (key a)/limit,?_,mem_page_of_bounds (hmet _) ha hfirst ?_⟩
  · rw [Nat.div_lt_iff_lt_mul hlimit]
    omega
  · by_contra hbeyond
    refine hno (above key rows (key a)/limit+1) ⟨a,ha,?_,?_⟩ <;> rw [Nat.succ_mul] <;> omega

/-- Two rows of one key that stand next to each other may as well be met the other way round. -/
theorem exists_swapped {rows : List α} {i : Nat} (h : Straddled key rows (i+1)) :
    ∃ s s' a, s.Perm rows ∧ s'.Perm rows ∧ (newestFirst key s)[i]?=some a ∧
      (newestFirst key s')[i+1]?=some a := by
  obtain ⟨r,-,hfirst,hlast⟩ := h
  have hsorted := newestFirst_sorted key rows
  have hperm := newestFirst_perm key rows
  rw [← above_perm hperm] at hfirst
  rw [← upTo_perm hperm] at hlast
  obtain ⟨b,hb,-⟩ := (lt_upTo_iff hsorted).mp hlast
  obtain ⟨hi,hbi⟩ := List.getElem?_eq_some_iff.mp hb
  have hb' : key b=key r := (key_eq_iff hsorted hb _).mpr ⟨by omega,hlast⟩
  have ha : (newestFirst key rows)[i]?=some (newestFirst key rows)[i] :=
    List.getElem?_eq_getElem (by omega)
  have ha' : key (newestFirst key rows)[i]=key r :=
    (key_eq_iff hsorted ha _).mpr ⟨by omega,by omega⟩
  generalize (newestFirst key rows)[i]=a at ha ha'
  have hsplit : newestFirst key rows=(newestFirst key rows).take i++a::b::
      (newestFirst key rows).drop (i+2) := by
    rw [← List.getElem?_eq_some_iff.mp ha |>.2,← hbi,← List.drop_eq_getElem_cons,
      ← List.drop_eq_getElem_cons,List.take_append_drop]
  generalize hp : (newestFirst key rows).take i=p at hsplit
  generalize (newestFirst key rows).drop (i+2)=q at hsplit
  have hlength : p.length=i := by
    rw [← hp,List.length_take]
    omega
  have hswap : (p++b::a::q).Perm (newestFirst key rows) := by
    rw [hsplit]
    exact .append_left p (.swap a b q)
  have hkeys : (p++b::a::q).map key=(newestFirst key rows).map key := by
    rw [hsplit]
    simp [ha',hb']
  have hsorted' : (p++b::a::q).Pairwise fun a b => key b ≤ key a := by
    rw [← List.pairwise_map (f := key) (R := fun x y => y ≤ x)] at hsorted ⊢
    rw [hkeys]
    exact hsorted
  refine ⟨newestFirst key rows,p++b::a::q,a,hperm,hswap.trans hperm,?_,?_⟩
  · rw [newestFirst_of_sorted hsorted]
    exact ha
  · rw [newestFirst_of_sorted hsorted',List.getElem?_append_right (by omega),hlength,
      Nat.add_sub_cancel_left]
    rfl

/-- Pages that are read one after another, each of them with the rows met in an order of its own,
show every row once exactly when no boundary lies within the rows of one key. -/
theorem pages_perm_iff {rows : List α} (hn : rows.Nodup) {limit n : Nat} (hlimit : 0<limit)
    (hrows : rows.length ≤ n*limit) :
    (∀ met : Nat → List α, (∀ k, (met k).Perm rows) →
      ((List.range n).flatMap fun k => page key limit (k*limit) (met k)).Perm rows) ↔
      ∀ k, ¬Straddled key rows (k*limit) := by
  constructor
  · intro hall k hstraddled
    have hk : 0<k*limit := by
      obtain ⟨r,-,hfirst,-⟩ := hstraddled
      omega
    have hlt : k*limit<rows.length := by
      obtain ⟨r,-,-,hlast⟩ := hstraddled
      exact hlast.trans_le List.countP_le_length
    obtain ⟨i,hi⟩ : ∃ i, k*limit=i+1 := ⟨k*limit-1,by omega⟩
    rw [hi] at hstraddled
    obtain ⟨s,s',a,hs,hs',ha,ha'⟩ := exists_swapped hstraddled
    obtain ⟨j,rfl⟩ : ∃ j, k=j+1 := ⟨k-1,by have := Nat.pos_of_mul_pos_right hk; omega⟩
    have hpages := hall (fun m => if m=j+1 then s' else s) (by
      intro m
      by_cases hm : m=j+1
      · rw [if_pos hm]
        exact hs'
      · rw [if_neg hm]
        exact hs)
    have hnodup := (List.nodup_flatMap.mp (hpages.nodup_iff.mpr hn)).2
    have hn' : j+1<n := Nat.lt_of_mul_lt_mul_right (hlt.trans_le hrows)
    have hdisjoint := List.pairwise_iff_getElem.mp hnodup j (j+1)
      (by rw [List.length_range]; omega) (by rw [List.length_range]; omega) (Nat.lt_succ_self j)
    simp only [List.getElem_range,Function.onFun,if_neg (Nat.ne_of_lt (Nat.lt_succ_self j)),
      if_pos] at hdisjoint
    rw [Nat.succ_mul] at hi
    exact hdisjoint (mem_page.mpr ⟨i,ha,by omega,by omega⟩)
      (mem_page.mpr ⟨i+1,ha',by rw [Nat.succ_mul]; omega,by rw [Nat.succ_mul]; omega⟩)
  · intro hno met hmet
    rw [List.perm_ext_iff_of_nodup ?_ hn]
    · intro a
      rw [List.mem_flatMap]
      constructor
      · rintro ⟨k,-,ha⟩
        exact (hmet k).mem_iff.mp (page_subset ha)
      · intro ha
        obtain ⟨k,hk,hpage⟩ := exists_page hlimit hrows hno hmet ha
        exact ⟨k,List.mem_range.mpr hk,hpage⟩
    · refine List.nodup_flatMap.mpr ⟨fun k _ => page_nodup ((hmet k).nodup_iff.mpr hn),?_⟩
      refine List.nodup_range.imp ?_
      intro j k hjk a hj hk
      exact hjk (page_unique hno hmet hj hk)

end Pages

/-! Pages that are read while the rows change. -/

section Reading

variable {α κ ι S B : Type} [LinearOrder κ] (ident : α → ι) (key : α → κ)

/-- A table whose rows differ in who they are and in their keys. -/
structure Dated (rows : List α) : Prop where
  idents : (rows.map ident).Nodup
  keys : (rows.map key).Nodup

/-- Every row is still there, and no key has become less. -/
def Advances (rows rows' : List α) : Prop :=
  ∀ r ∈ rows, ∃ r' ∈ rows', ident r'=ident r ∧ key r ≤ key r'

variable {ident key}

theorem Advances.above_le {rows rows' : List α} (h : Advances ident key rows rows')
    (hids : (rows.map ident).Nodup) (c : κ) : above key rows c ≤ above key rows' c := by
  have hsubset : (rows.filter fun r => c<key r).map ident ⊆
      (rows'.filter fun r => c<key r).map ident := by
    intro i hi
    obtain ⟨r,hr,rfl⟩ := List.mem_map.mp hi
    rw [List.mem_filter,decide_eq_true_eq] at hr
    obtain ⟨r',hr',hsame,hle⟩ := h r hr.1
    rw [← hsame]
    exact List.mem_map_of_mem (List.mem_filter.mpr ⟨hr',by simpa using hr.2.trans_le hle⟩)
  have hnodup : ((rows.filter fun r => c<key r).map ident).Nodup :=
    hids.sublist (List.filter_sublist.map ident)
  have hlength := (List.subperm_of_subset hnodup hsubset).length_le
  rw [List.length_map,List.length_map] at hlength
  rw [above,above,List.countP_eq_length_filter,List.countP_eq_length_filter]
  exact hlength

theorem upTo_of_keys {rows : List α} (h : (rows.map key).Nodup) {r : α} (hr : r ∈ rows) :
    upTo key rows (key r)=above key rows (key r)+1 := by
  have hone : (rows.map key).count (key r)=1 :=
    List.count_eq_one_of_mem h (List.mem_map_of_mem hr)
  have hsplit : ∀ l : List α, upTo key l (key r)=above key l (key r)+(l.map key).count (key r) := by
    intro l
    induction l with
    | nil => rfl
    | cons a l ih =>
      rw [upTo,above] at *
      rw [List.countP_cons,List.countP_cons,List.map_cons,List.count_cons,ih]
      rcases lt_trichotomy (key r) (key a) with hlt|heq|hgt
      · simp [hlt,hlt.le,hlt.ne']
        omega
      · simp [heq]
        omega
      · simp [hgt.not_ge,hgt.not_gt,hgt.ne]
  rw [hsplit,hone]

/-- The state that the rows are part of, and the pages that have been read. -/
structure Reading (S α : Type) where
  state : S
  pages : List (List α)

/-- A change of the state, or the next page is read. -/
inductive ReadingStep (B : Type) where
  | change (b : B)
  | next

variable (key) in
/-- A page starts where the one before it has ended. -/
def Reading.step (move : S → B → S) (met : S → List α) (limit : Nat) (r : Reading S α) :
    ReadingStep B → Reading S α
  | .change b => {r with state := move r.state b}
  | .next =>
    {r with pages := r.pages++[page key limit (r.pages.length*limit) (met r.state)]}

variable (ident) in
def Reading.Shows (r : Reading S α) (i : ι) : Prop := ∃ p ∈ r.pages, ∃ row ∈ p, ident row=i

variable (ident key) in
/-- Of a row: it is there, with its key or a greater one; and as long as it has its key, it is on
one of the pages, or all of them are full and stand before it. -/
structure Reading.Ahead (met : S → List α) (limit : Nat) (i : ι) (c : κ) (r : Reading S α) :
    Prop where
  there : ∃ row ∈ met r.state, ident row=i ∧ c ≤ key row
  ahead : (∃ row ∈ met r.state, ident row=i ∧ key row=c) → r.Shows ident i ∨
    ((∀ p ∈ r.pages, p.length=limit) ∧ r.pages.length*limit ≤ above key (met r.state) c)

section

variable {move : S → B → S} {met : S → List α} {limit : Nat} {i : ι} {c : κ} {r : Reading S α}

theorem Reading.Ahead.change (h : r.Ahead ident key met limit i c) (b : B)
    (hids : (Dated ident key (met r.state))) (hids' : Dated ident key (met (move r.state b)))
    (hadvance : Advances ident key (met r.state) (met (move r.state b))) :
    (r.step key move met limit (.change b)).Ahead ident key met limit i c where
  there := by
    obtain ⟨row,hrow,hident,hkey⟩ := h.there
    obtain ⟨row',hrow',hident',hkey'⟩ := hadvance row hrow
    exact ⟨row',hrow',hident'.trans hident,hkey.trans hkey'⟩
  ahead := by
    rintro ⟨row',hrow',hident',hkey'⟩
    obtain ⟨row,hrow,hident,hkey⟩ := h.there
    -- the key has not become greater, so it was the same before
    have hsame : key row=c := by
      obtain ⟨row'',hrow'',hident'',hle⟩ := hadvance row hrow
      have heq : row''=row' :=
        List.inj_on_of_nodup_map hids'.idents hrow'' hrow' (by rw [hident'',hident,hident'])
      rw [heq,hkey'] at hle
      exact le_antisymm hle hkey
    rcases h.ahead ⟨row,hrow,hident,hsame⟩ with hshown|⟨hfull,hbefore⟩
    · exact .inl hshown
    · exact .inr ⟨hfull,hbefore.trans (hadvance.above_le hids.idents c)⟩

theorem Reading.Ahead.next (h : r.Ahead ident key met limit i c)
    (hids : Dated ident key (met r.state)) :
    (r.step key move met limit .next).Ahead ident key met limit i c where
  there := h.there
  ahead := by
    rintro ⟨row,hrow,hident,hkey⟩
    rcases h.ahead ⟨row,hrow,hident,hkey⟩ with ⟨p,hp,hshown⟩|⟨hfull,hbefore⟩
    · exact .inl ⟨p,List.mem_append_left _ hp,hshown⟩
    · by_cases hon : above key (met r.state) c<r.pages.length*limit+limit
      · left
        refine ⟨_,List.mem_append_right _ List.mem_cons_self,row,?_,hident⟩
        refine mem_page_of_bounds (.refl _) hrow (by rw [hkey]; exact hbefore) ?_
        rw [upTo_of_keys hids.keys hrow,hkey]
        exact hon
      · right
        have hlength : above key (met r.state) c ≤ (met r.state).length := List.countP_le_length
        refine ⟨?_,?_⟩
        · intro p hp
          rcases List.mem_append.mp hp with hp|hp
          · exact hfull p hp
          · rw [List.mem_singleton.mp hp,page_length]
            omega
        · change (r.pages++[_]).length*limit ≤ above key (met r.state) c
          rw [List.length_append,List.length_singleton,Nat.succ_mul]
          omega

end

end Reading

end NacPlatform
