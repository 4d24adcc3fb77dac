import NacPlatform.Store.Call

namespace NacPlatform

namespace SessionTable

variable {pg : Postgres} {t t' : SessionTable} {e : Uuid} {s : SessionRow}

/-- No two sessions started at once, so that the latest open one of a device is one row. -/
def Distinct (t : SessionTable) : Prop := (t.rows.map (·.startedAt)).Nodup

/-- The open session of a device that started last. -/
def Latest (t : SessionTable) (e : Uuid) (s : SessionRow) : Prop :=
  (s ∈ t.rows ∧ isOpen e s=true) ∧
    ∀ s' ∈ t.rows, isOpen e s'=true → s'.startedAt ≤ s.startedAt

theorem mem_sorted (pg : Postgres) (t : SessionTable) (e : Uuid) (s : SessionRow) :
    s ∈ ((pg.scan t.rows).filter (isOpen e)).insertionSort (fun a b => b.startedAt ≤ a.startedAt) ↔
      s ∈ t.rows ∧ isOpen e s=true := by
  rw [List.mem_insertionSort,List.mem_filter,(pg.scan_perm t.rows).mem_iff]

theorem sorted_pairwise (rows : List SessionRow) :
    (rows.insertionSort fun a b => b.startedAt ≤ a.startedAt).Pairwise
      fun a b => b.startedAt ≤ a.startedAt := by
  let r : SessionRow → SessionRow → Prop := fun a b => b.startedAt ≤ a.startedAt
  have htotal : Std.Total r := ⟨fun a b => Nat.le_total b.startedAt a.startedAt⟩
  have htrans : IsTrans SessionRow r := ⟨fun a b c hab hbc => Nat.le_trans hbc hab⟩
  exact List.pairwise_insertionSort r rows

theorem findActiveByEndpoint_latest (h : t.findActiveByEndpoint pg e=some s) :
    t.Latest e s := by
  unfold findActiveByEndpoint at h
  obtain ⟨rest,hrest⟩ := List.head?_eq_some_iff.mp h
  have hmem := mem_sorted pg t e s
  have hsorted := sorted_pairwise ((pg.scan t.rows).filter (isOpen e))
  rw [hrest] at hmem hsorted
  refine ⟨hmem.mp List.mem_cons_self,?_⟩
  intro s' hs' hopen
  have hmem' : s' ∈ s::rest := hrest ▸ (mem_sorted pg t e s').mpr ⟨hs',hopen⟩
  rcases List.mem_cons.mp hmem' with rfl | hin
  · exact Nat.le_refl _
  · exact (List.pairwise_cons.mp hsorted).1 s' hin

theorem findActiveByEndpoint_eq_none :
    t.findActiveByEndpoint pg e=none ↔ ∀ s ∈ t.rows, isOpen e s=false := by
  unfold findActiveByEndpoint
  rw [List.head?_eq_none_iff,List.eq_nil_iff_forall_not_mem]
  constructor
  · intro h s hs
    by_contra hopen
    exact h s ((mem_sorted pg t e s).mpr ⟨hs,by simpa using hopen⟩)
  · intro h s hs
    obtain ⟨hs,hopen⟩ := (mem_sorted pg t e s).mp hs
    rw [h s hs] at hopen
    cases hopen

theorem Latest.unique {s' : SessionRow} (hn : t.Distinct) (h : t.Latest e s)
    (h' : t.Latest e s') : s=s' := by
  have hle := h.2 s' h'.1.1 h'.1.2
  have hge := h'.2 s h.1.1 h.1.2
  exact List.inj_on_of_nodup_map hn h.1.1 h'.1.1 (Nat.le_antisymm hge hle)

/-- The order of a scan does not matter. -/
theorem findActiveByEndpoint_eq_some (hn : t.Distinct) :
    t.findActiveByEndpoint pg e=some s ↔ t.Latest e s := by
  refine ⟨findActiveByEndpoint_latest,fun h => ?_⟩
  cases hfind : t.findActiveByEndpoint pg e with
  | none =>
    have hclosed := findActiveByEndpoint_eq_none.mp hfind s h.1.1
    rw [h.1.2] at hclosed
    cases hclosed
  | some s' => rw [h.unique hn (findActiveByEndpoint_latest hfind)]

/-- Tables with the same sessions of a device have the same latest one. -/
theorem findActiveByEndpoint_congr (hn : t.Distinct) (hn' : t'.Distinct)
    (h : ∀ s, isOpen e s=true → (s ∈ t'.rows ↔ s ∈ t.rows)) :
    t'.findActiveByEndpoint pg e=t.findActiveByEndpoint pg e := by
  apply Option.ext
  intro s
  rw [findActiveByEndpoint_eq_some hn,findActiveByEndpoint_eq_some hn']
  constructor
  · intro given
    obtain ⟨⟨hs,hopen⟩,hmax⟩ := given
    exact ⟨⟨(h s hopen).mp hs,hopen⟩,fun s' hs' ho => hmax s' ((h s' ho).mpr hs') ho⟩
  · intro given
    obtain ⟨⟨hs,hopen⟩,hmax⟩ := given
    exact ⟨⟨(h s hopen).mpr hs,hopen⟩,fun s' hs' ho => hmax s' ((h s' ho).mp hs') ho⟩

/-- A change that leaves open what is open leaves the latest where it is. -/
theorem findActiveByEndpoint_modify {id : Uuid} {f : SessionRow → SessionRow}
    (key : ∀ s, (f s).id=s.id) (hn : t.Distinct)
    (hstart : ∀ s, (f s).startedAt=s.startedAt) (hopen : ∀ s, isOpen e (f s)=isOpen e s) :
    (t.modify id f key).findActiveByEndpoint pg e=
      (t.findActiveByEndpoint pg e).map fun s => if s.id==id then f s else s := by
  have hn' : (t.modify id f key).Distinct := by
    unfold Distinct modify
    rw [map_updateRows hstart]
    exact hn
  have hrows : (t.modify id f key).rows=t.rows.map fun s => if s.id==id then f s else s := rfl
  have hsame (s : SessionRow) : isOpen e (if s.id==id then f s else s)=isOpen e s ∧
      (if s.id==id then f s else s).startedAt=s.startedAt := by
    split
    · exact ⟨hopen s,hstart s⟩
    · exact ⟨rfl,rfl⟩
  cases hfind : t.findActiveByEndpoint pg e with
  | none =>
    rw [Option.map_none,findActiveByEndpoint_eq_none,hrows]
    intro s hs
    obtain ⟨s₀,hs₀,rfl⟩ := List.mem_map.mp hs
    rw [(hsame s₀).1]
    exact findActiveByEndpoint_eq_none.mp hfind s₀ hs₀
  | some s =>
    obtain ⟨⟨hs,ho⟩,hmax⟩ := findActiveByEndpoint_latest hfind
    rw [Option.map_some,findActiveByEndpoint_eq_some hn']
    refine ⟨⟨List.mem_map_of_mem hs,(hsame s).1.trans ho⟩,?_⟩
    intro s' hs' ho'
    obtain ⟨s₀,hs₀,rfl⟩ := List.mem_map.mp hs'
    rw [(hsame s₀).2,(hsame s).2]
    exact hmax s₀ hs₀ ((hsame s₀).1 ▸ ho')

theorem findActiveByEndpoint_transition (hn : t.Distinct) (id : Uuid) (state : SessionState)
    (username : Option String) (now : Timestamp) :
    (t.transition id state username now).findActiveByEndpoint pg e=
      (t.findActiveByEndpoint pg e).map fun s => if s.id==id then
        { s with state := state, username := username.or s.username, updatedAt := now } else s :=
  findActiveByEndpoint_modify _ hn (fun _ => rfl) fun _ => rfl

theorem starts_modify {id : Uuid} {f : SessionRow → SessionRow} (key : ∀ s, (f s).id=s.id)
    (hstart : ∀ s, (f s).startedAt=s.startedAt) :
    (t.modify id f key).rows.map (·.startedAt)=t.rows.map (·.startedAt) :=
  map_updateRows hstart _

theorem starts_transition {id : Uuid} {state : SessionState} {username : Option String}
    {now : Timestamp} :
    (t.transition id state username now).rows.map (·.startedAt)=t.rows.map (·.startedAt) :=
  starts_modify _ fun _ => rfl

theorem starts_terminate {id : Uuid} {now : Timestamp} :
    (t.terminate id now).rows.map (·.startedAt)=t.rows.map (·.startedAt) :=
  starts_modify _ fun _ => rfl

end SessionTable

/-- Every session started at a time of its own in the past. -/
structure World.Timed (w : World) : Prop where
  distinct : w.sessions.Distinct
  past : ∀ s ∈ w.sessions.rows, s.startedAt<w.clock

namespace World.Timed

variable {pg : Postgres} {w : World}

theorem later {t : SessionTable} {w' : World} (h : w.Timed) (hs : w'.sessions=t)
    (ht : t.rows.map (·.startedAt)=w.sessions.rows.map (·.startedAt)) (hc : w.clock ≤ w'.clock) :
    w'.Timed := by
  subst hs
  refine ⟨by rw [SessionTable.Distinct,ht]; exact h.distinct,?_⟩
  intro s hs
  have hmem : s.startedAt ∈ w.sessions.rows.map (·.startedAt) := ht ▸ List.mem_map_of_mem hs
  obtain ⟨s₀,hs₀,he⟩ := List.mem_map.mp hmem
  exact he ▸ Nat.lt_of_lt_of_le (h.past s₀ hs₀) hc

theorem exec (h : w.Timed) (c : Call) : (c.exec pg w).2.Timed := by
  cases c with
  | createSession s =>
    refine ⟨?_,?_⟩
    · change ((w.sessions.rows++[SessionTable.created w.sessions.freshId s w.clock]).map
        (·.startedAt)).Nodup
      rw [List.map_append]
      refine List.nodup_append.mpr ⟨h.distinct,List.nodup_singleton _,?_⟩
      intro a ha b hb
      obtain ⟨s₀,hs₀,rfl⟩ := List.mem_map.mp ha
      have hnow : b=w.clock := by simpa [SessionTable.created] using hb
      exact hnow ▸ Nat.ne_of_lt (h.past s₀ hs₀)
    · intro s₀ hs₀
      change s₀ ∈ w.sessions.rows++[_] at hs₀
      change s₀.startedAt<w.clock+1
      rcases List.mem_append.mp hs₀ with hs₀ | hs₀
      · exact Nat.lt_succ_of_lt (h.past s₀ hs₀)
      · obtain rfl := List.mem_singleton.mp hs₀
        exact Nat.lt_succ_self _
  | transition id state username =>
    simp only [Call.exec]
    split
    · exact h.later rfl SessionTable.starts_transition (Nat.le_succ _)
    · split <;> exact h
  | terminate id => exact h.later rfl SessionTable.starts_terminate (Nat.le_succ _)
  | upsert ep =>
    simp only [Call.exec]
    split
    · exact h.later rfl rfl (Nat.le_succ _)
    · exact h
  | upsertByAgentId ep =>
    simp only [Call.exec]
    split
    · exact h.later rfl rfl (Nat.le_succ _)
    · exact h
  | findByMac mac =>
    simp only [Call.exec]
    split <;> exact h
  | setStatus id status =>
    simp only [Call.exec]
    split
    · exact h.later rfl rfl (Nat.le_refl _)
    · split <;> exact h
  | updateIp mac ip =>
    simp only [Call.exec]
    split
    · exact h.later rfl rfl (Nat.le_succ _)
    · exact h
  | setCompliance id isCompliant => exact h.later rfl rfl (Nat.le_succ _)
  | _ => exact h.later rfl rfl (Nat.le_refl _)

/-- Every handler goes forward in time. -/
theorem run {α : Type} (h : w.Timed) (p : Handler α) : (p.run (Call.exec pg) w).2.Timed :=
  Proc.run_invariant World.Timed (fun c _ h => h.exec c) p h

theorem initial (policies : List PolicyRow) : (World.initial policies).Timed :=
  ⟨List.nodup_nil,by simp [World.initial,SessionTable.empty]⟩

end World.Timed

end NacPlatform
