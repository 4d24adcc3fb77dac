import Mathlib.Data.List.Nodup

namespace NacPlatform

/-! A table as the list of its rows: lookups and updates by a condition on the row. -/

variable {α κ : Type}

/-- The rows that satisfy `p` rewritten by `f`. -/
def updateRows (p : α → Bool) (f : α → α) (rows : List α) : List α :=
  rows.map fun r => if p r then f r else r

theorem mem_updateRows {p : α → Bool} {f : α → α} {rows : List α} {r : α} :
    r ∈ updateRows p f rows ↔
      (∃ r' ∈ rows, p r'=true ∧ r=f r') ∨ (r ∈ rows ∧ p r=false) := by
  simp only [updateRows,List.mem_map]
  constructor
  · intro given
    obtain ⟨r',hr',rfl⟩ := given
    cases hp : p r' with
    | true => exact .inl ⟨r',hr',hp,by simp⟩
    | false => exact .inr ⟨by simpa using hr',by simpa using hp⟩
  · intro given
    rcases given with ⟨r',hr',hp,rfl⟩|⟨hr,hp⟩
    · exact ⟨r',hr',by simp [hp]⟩
    · exact ⟨r,hr,by simp [hp]⟩

/-- An update of other columns keeps the column `key`. -/
theorem map_updateRows {p : α → Bool} {f : α → α} {key : α → κ} (hf : ∀ r, key (f r)=key r)
    (rows : List α) : (updateRows p f rows).map key=rows.map key := by
  rw [updateRows,List.map_map]
  apply List.map_congr_left
  intro r _
  by_cases hp : p r=true <;> simp [hp,hf]

theorem filterMap_updateRows {p : α → Bool} {f : α → α} {key : α → Option κ}
    (hf : ∀ r, key (f r)=key r) (rows : List α) :
    (updateRows p f rows).filterMap key=rows.filterMap key := by
  rw [updateRows,List.filterMap_map]
  apply List.filterMap_congr
  intro r _
  by_cases hp : p r=true <;> simp [hp,hf]

theorem find?_congr {p q : α → Bool} {rows : List α} (h : ∀ r ∈ rows, p r=q r) :
    rows.find? p=rows.find? q := by
  induction rows with
  | nil => rfl
  | cons r rows ih =>
    obtain ⟨hr,hrows⟩ := List.forall_mem_cons.mp h
    simp only [List.find?_cons,hr,ih hrows]

/-- Where a key is unique, a lookup finds the row that has it. -/
theorem find?_unique {key : α → κ} {rows : List α} (hn : (rows.map key).Nodup) {p : α → Bool}
    {r : α} (hr : r ∈ rows) (hp : p r=true) (hkey : ∀ r' ∈ rows, p r'=true → key r'=key r) :
    rows.find? p=some r := by
  cases h : rows.find? p with
  | none => exact absurd hp (by simpa using List.find?_eq_none.mp h r hr)
  | some r' =>
    have hr' := List.mem_of_find?_eq_some h
    have hk := hkey r' hr' (List.find?_some h)
    rw [List.inj_on_of_nodup_map hn hr' hr hk]

theorem filterMap_unique {key : α → Option κ} {rows : List α} (hn : (rows.filterMap key).Nodup)
    {r r' : α} (hr : r ∈ rows) (hr' : r' ∈ rows) {k : κ} (h : key r=some k)
    (h' : key r'=some k) : r=r' := by
  induction rows with
  | nil => cases hr
  | cons a rows ih =>
    have hmem {x : α} (hx : x ∈ rows) (hk : key x=some k) : k ∈ rows.filterMap key :=
      List.mem_filterMap.mpr ⟨x,hx,hk⟩
    rcases List.mem_cons.mp hr with rfl | hm
    · rcases List.mem_cons.mp hr' with rfl | hm'
      · rfl
      · rw [List.filterMap_cons_some h,List.nodup_cons] at hn
        exact absurd (hmem hm' h') hn.1
    · rcases List.mem_cons.mp hr' with rfl | hm'
      · rw [List.filterMap_cons_some h',List.nodup_cons] at hn
        exact absurd (hmem hm h) hn.1
      · cases ha : key a with
        | none => exact ih (by rwa [List.filterMap_cons_none ha] at hn) hm hm'
        | some k' =>
          rw [List.filterMap_cons_some ha,List.nodup_cons] at hn
          exact ih hn.2 hm hm'

/-- One row rewritten to a key that no other row has. -/
theorem nodup_updateRows {p : α → Bool} {key : α → κ} {rows : List α} {r row : α}
    (hn : (rows.map key).Nodup) (honly : ∀ r' ∈ rows, p r'=true → r'=r)
    (hnew : ∀ r' ∈ rows, p r'=false → key r'≠key row) :
    ((updateRows p (fun _ => row) rows).map key).Nodup := by
  rw [updateRows,List.map_map]
  refine List.Nodup.map_on ?_ hn.of_map
  intro x hx y hy he
  cases hpx : p x with
  | true =>
    cases hpy : p y with
    | true => rw [honly x hx hpx,honly y hy hpy]
    | false =>
      simp only [Function.comp,hpx,hpy,if_true,Bool.false_eq_true,if_false] at he
      exact absurd he.symm (hnew y hy hpy)
  | false =>
    cases hpy : p y with
    | true =>
      simp only [Function.comp,hpx,hpy,if_true,Bool.false_eq_true,if_false] at he
      exact absurd he (hnew x hx hpx)
    | false =>
      simp only [Function.comp,hpx,hpy,Bool.false_eq_true,if_false] at he
      exact List.inj_on_of_nodup_map hn hx hy he

/-- The same for a key that not every row has. -/
theorem nodup_filterMap_updateRows {p : α → Bool} {key : α → Option κ} {rows : List α} {r row : α}
    (hrows : rows.Nodup) (hn : (rows.filterMap key).Nodup)
    (honly : ∀ r' ∈ rows, p r'=true → r'=r)
    (hnew : ∀ r' ∈ rows, p r'=false → ∀ k, key row=some k → key r'≠some k) :
    ((updateRows p (fun _ => row) rows).filterMap key).Nodup := by
  induction rows with
  | nil => exact List.nodup_nil
  | cons a rows ih =>
    obtain ⟨hout,hrows⟩ := List.nodup_cons.mp hrows
    have htail : (rows.filterMap key).Nodup :=
      hn.sublist ((List.sublist_cons_self a rows).filterMap key)
    have honly' : ∀ r' ∈ rows, p r'=true → r'=r := fun r' h => honly r' (List.mem_cons_of_mem a h)
    have hnew' : ∀ r' ∈ rows, p r'=false → ∀ k, key row=some k → key r'≠some k :=
      fun r' h => hnew r' (List.mem_cons_of_mem a h)
    cases hp : p a with
    | true =>
      have ha := honly a List.mem_cons_self hp
      have hoff : ∀ r' ∈ rows, p r'=false := by
        intro r' hr'
        by_contra hp'
        have he := honly' r' hr' (by simpa using hp')
        exact hout (ha ▸ he ▸ hr')
      have hsame : updateRows p (fun _ => row) rows=rows := by
        unfold updateRows
        conv_rhs => rw [← List.map_id rows]
        apply List.map_congr_left
        intro r' hr'
        simp [hoff r' hr']
      have hcons : updateRows p (fun _ => row) (a::rows)=row::rows := by
        rw [updateRows,List.map_cons,hp,if_pos rfl]
        exact congrArg (row::·) hsame
      rw [hcons]
      cases hk : key row with
      | none => rwa [List.filterMap_cons_none hk]
      | some k =>
        rw [List.filterMap_cons_some hk,List.nodup_cons]
        refine ⟨?_,htail⟩
        intro hmem
        obtain ⟨r',hr',hk'⟩ := List.mem_filterMap.mp hmem
        exact hnew' r' hr' (hoff r' hr') k hk hk'
    | false =>
      have hcons : updateRows p (fun _ => row) (a::rows)=a::updateRows p (fun _ => row) rows := by
        rw [updateRows,List.map_cons,hp,if_neg (by simp)]
        rfl
      rw [hcons]
      cases hk : key a with
      | none =>
        rw [List.filterMap_cons_none hk]
        exact ih hrows htail honly' hnew'
      | some k =>
        rw [List.filterMap_cons_some hk,List.nodup_cons]
        refine ⟨?_,ih hrows htail honly' hnew'⟩
        intro hmem
        obtain ⟨r',hr',hk'⟩ := List.mem_filterMap.mp hmem
        rcases mem_updateRows.mp hr' with ⟨_,_,_,rfl⟩ | ⟨hr',_⟩
        · exact hnew a List.mem_cons_self hp k hk' hk
        · rw [List.filterMap_cons_some hk,List.nodup_cons] at hn
          exact hn.1 (List.mem_filterMap.mpr ⟨r',hr',hk'⟩)

/-- A number that is not among the given ones, as a generated key is. -/
def freshKey (keys : List Nat) : Nat := keys.foldr max 0+1

theorem freshKey_notMem (keys : List Nat) : freshKey keys ∉ keys := by
  have bound : ∀ k ∈ keys, k<freshKey keys := by
    induction keys with
    | nil => simp
    | cons a keys ih =>
      intro k hk
      rw [freshKey,List.foldr_cons]
      rcases List.mem_cons.mp hk with rfl | hk
      · omega
      · have := ih k hk
        rw [freshKey] at this
        omega
  intro h
  exact absurd (bound _ h) (Nat.lt_irrefl _)

end NacPlatform
