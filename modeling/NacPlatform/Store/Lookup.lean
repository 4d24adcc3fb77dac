import NacPlatform.Store.Endpoint
import Mathlib.Logic.Function.Basic

namespace NacPlatform.EndpointTable

/-! The table of endpoints as a partial map from ids to rows: what each statement does to it. -/

variable {t t' : EndpointTable} {pg : Postgres}

theorem findById_eq_some {id : Uuid} {r : EndpointRow} :
    t.findById id=some r ↔ r ∈ t.rows ∧ r.id=id := by
  constructor
  · intro h
    exact ⟨List.mem_of_find?_eq_some h,by simpa using List.find?_some h⟩
  · intro given
    obtain ⟨hr,rfl⟩ := given
    exact find?_unique t.ids hr (by simp) fun r' _ h => by simpa using h

theorem findById_eq_none {id : Uuid} : t.findById id=none ↔ ∀ r ∈ t.rows, r.id≠id := by
  simp [findById]

theorem findByMac_eq_some {mac : MacAddr} {r : EndpointRow} :
    t.findByMac mac=some r ↔ t.findById r.id=some r ∧ r.macAddress=mac := by
  rw [findById_eq_some]
  constructor
  · intro h
    exact ⟨⟨List.mem_of_find?_eq_some h,rfl⟩,by simpa using List.find?_some h⟩
  · intro given
    obtain ⟨⟨hr,_⟩,rfl⟩ := given
    exact find?_unique t.macs hr (by simp) fun r' _ h => by simpa using h

theorem findById_id {id : Uuid} {r : EndpointRow} (h : t.findById id=some r) : r.id=id :=
  (findById_eq_some.mp h).2

/-- A change of the row with one id leaves the others. -/
theorem map_findById_other {id i : Uuid} (h : i≠id) (f : EndpointRow → EndpointRow) :
    ((t.findById i).map fun r => if r.id==id then f r else r)=t.findById i := by
  cases hf : t.findById i with
  | none => rfl
  | some r =>
    have hr : r.id≠id := fun e => h ((findById_id hf).symm.trans e)
    simp [hr]

/-- No two rows have the same hardware address. -/
theorem mac_unique {id id' : Uuid} {r r' : EndpointRow} (h : t.findById id=some r)
    (h' : t.findById id'=some r') (hm : r.macAddress=r'.macAddress) : id=id' := by
  obtain ⟨hr,rfl⟩ := findById_eq_some.mp h
  obtain ⟨hr',rfl⟩ := findById_eq_some.mp h'
  rw [List.inj_on_of_nodup_map t.macs hr hr' hm]

theorem agent_unique {r r' : EndpointRow} (hr : r ∈ t.rows) (hr' : r' ∈ t.rows) {a : String}
    (h : r.agentId=some a) (h' : r'.agentId=some a) : r=r' :=
  filterMap_unique t.agents hr hr' h h'

theorem findByAgentId_eq_some {a : String} {r : EndpointRow} :
    t.findByAgentId a=some r ↔ r ∈ t.rows ∧ r.agentId=some a := by
  constructor
  · intro h
    exact ⟨List.mem_of_find?_eq_some h,by simpa using List.find?_some h⟩
  · intro h
    obtain ⟨hr,ha⟩ := h
    cases hf : t.findByAgentId a with
    | none =>
      have hno := List.find?_eq_none.mp hf r hr
      simp [ha] at hno
    | some r' =>
      have hr' := List.mem_of_find?_eq_some hf
      have ha' : r'.agentId=some a := by simpa using List.find?_some hf
      rw [agent_unique hr' hr ha' ha]

theorem commit_eq_ok {rows : List EndpointRow} (h : commit rows=.ok t) : t.rows=rows := by
  unfold commit at h
  split at h
  · cases h
    rfl
  · cases h

/-- One row written under its id: the others are what they were. -/
def Put (t t' : EndpointTable) (row : EndpointRow) : Prop :=
  ∀ id, t'.findById id=if id=row.id then some row else t.findById id

theorem Put.self {row : EndpointRow} (h : Put t t' row) : t'.findById row.id=some row := by
  rw [h row.id,if_pos rfl]

theorem Put.other {row : EndpointRow} (h : Put t t' row) {id : Uuid} (hid : id≠row.id) :
    t'.findById id=t.findById id := by
  rw [h id,if_neg hid]

theorem findById_modify {p : EndpointRow → Bool} {f : EndpointRow → EndpointRow}
    (keys : KeepsKeys f) (id : Uuid) : (t.modify p f keys).findById id=
      (t.findById id).map fun r => if p r then f r else r := by
  have h : ((fun r : EndpointRow => r.id==id) ∘ fun r => if p r then f r else r)=
      fun r => r.id==id := by
    funext r
    by_cases hp : p r=true <;> simp [hp,(keys r).1]
  change List.find? _ (t.rows.map _)=_
  rw [List.find?_map,h]
  rfl

/-- A row rewritten in place. -/
theorem put_update {p : EndpointRow → Bool} {r row : EndpointRow}
    (hr : t.findById r.id=some r) (hp : p r=true) (honly : ∀ r' ∈ t.rows, p r'=true → r'=r)
    (hid : row.id=r.id) (ht : t'.rows=updateRows p (fun _ => row) t.rows) : Put t t' row := by
  intro id
  have hmem := (findById_eq_some.mp hr).1
  by_cases h : id=row.id
  · rw [if_pos h,findById_eq_some,ht,mem_updateRows]
    exact ⟨.inl ⟨r,hmem,hp,rfl⟩,h.symm⟩
  · rw [if_neg h]
    cases hf : t.findById id with
    | none =>
      rw [findById_eq_none] at hf ⊢
      intro r' hr'
      rw [ht,mem_updateRows] at hr'
      rcases hr' with ⟨_,_,_,rfl⟩ | ⟨hr',_⟩
      · exact fun e => h e.symm
      · exact hf r' hr'
    | some r' =>
      obtain ⟨hr',rfl⟩ := findById_eq_some.mp hf
      rw [findById_eq_some,ht,mem_updateRows]
      refine ⟨.inr ⟨hr',?_⟩,rfl⟩
      by_contra hp'
      have he := honly r' hr' (by simpa using hp')
      exact h (by rw [he,hid])

/-- A new row at the end. -/
theorem put_insert {row : EndpointRow} (ht : t'.rows=t.rows++[row]) : Put t t' row := by
  intro id
  by_cases h : id=row.id
  · rw [if_pos h,findById_eq_some,ht]
    exact ⟨by simp,h.symm⟩
  · rw [if_neg h,findById,ht,List.find?_append]
    have hn : (row.id==id)=false := by simpa using fun e => h e.symm
    rw [List.find?_cons_of_neg (by simp [hn]),List.find?_nil,Option.or_none]
    rfl

theorem findById_freshId (t : EndpointTable) : t.findById t.freshId=none := by
  rw [findById_eq_none]
  intro r hr h
  exact freshKey_notMem (t.rows.map (·.id)) (by
    rw [freshId] at h
    exact h ▸ List.mem_map_of_mem hr)

/-- The texts that the casts take are those of addresses. -/
theorem cast_ok {ep : UpsertEndpoint} {mac : MacAddr} {ip : Option String}
    (h : cast pg ep=.ok (mac,ip)) :
    pg.macaddr ep.macAddress=some mac ∧
      ((ep.ipAddress=none ∧ ip=none) ∨
        ∃ s shown, ep.ipAddress=some s ∧ pg.inet s=some shown ∧ ip=some shown) := by
  unfold cast at h
  cases hm : pg.macaddr ep.macAddress with
  | none => simp [hm,bind,Except.bind] at h
  | some m =>
    cases hs : ep.ipAddress with
    | none =>
      simp only [hm,hs,Option.elim_some,bind,Except.bind,pure,Except.pure,Except.ok.injEq,
        Prod.mk.injEq] at h
      exact ⟨by rw [h.1],.inl ⟨rfl,h.2.symm⟩⟩
    | some s =>
      cases hi : pg.inet s with
      | none => simp [hm,hs,hi,bind,Except.bind] at h
      | some shown =>
        simp only [hm,hs,hi,Option.elim_some,bind,Except.bind,pure,Except.pure,Except.ok.injEq,
          Prod.mk.injEq] at h
        exact ⟨by rw [h.1],.inr ⟨s,shown,rfl,hi,h.2.symm⟩⟩

theorem cast_none {ep : UpsertEndpoint} {mac : MacAddr}
    (hmac : pg.macaddr ep.macAddress=some mac) (hip : ep.ipAddress=none) :
    cast pg ep=.ok (mac,none) := by
  unfold cast
  simp only [hmac,hip,Option.elim_some,bind,Except.bind]
  rfl

theorem cast_some {ep : UpsertEndpoint} {mac : MacAddr} {s shown : String}
    (hmac : pg.macaddr ep.macAddress=some mac) (hip : ep.ipAddress=some s)
    (hs : pg.inet s=some shown) : cast pg ep=.ok (mac,some shown) := by
  unfold cast
  simp only [hmac,hip,hs,Option.elim_some,bind,Except.bind]
  rfl

/-- What an upsert by MAC writes: the merge with the row of that MAC, or a new row. -/
theorem upsert_ok {ep : UpsertEndpoint} {now : Timestamp} {row : EndpointRow}
    (h : t.upsert pg ep now=.ok (row,t')) :
    ∃ mac ip, cast pg ep=.ok (mac,ip) ∧ Put t t' row ∧
      ((∃ r, t.findByMac mac=some r ∧ row=mergedRow ip ep now r) ∨
        (t.findByMac mac=none ∧ row=insertedRow t.freshId mac ip ep now)) := by
  unfold upsert at h
  cases hc : cast pg ep with
  | error e => simp [hc,bind,Except.bind] at h
  | ok mi =>
    obtain ⟨mac,ip⟩ := mi
    refine ⟨mac,ip,rfl,?_⟩
    simp only [hc,bind,Except.bind] at h
    cases hf : t.findByMac mac with
    | some r =>
      simp only [hf] at h
      split at h
      · cases h
      · rename_i t₁ hcommit
        cases h
        have ⟨hid,hmac⟩ := findByMac_eq_some.mp hf
        refine ⟨put_update (p := (·.macAddress==mac)) hid (by simpa using hmac) ?_ rfl
          (commit_eq_ok hcommit),.inl ⟨r,rfl,rfl⟩⟩
        intro r' hr' hp
        have hr'' := findById_eq_some.mpr ⟨hr',rfl⟩
        have he := mac_unique hr'' hid (by rw [hmac]; simpa using hp)
        rw [he,hid] at hr''
        exact (Option.some.inj hr'').symm
    | none =>
      simp only [hf] at h
      split at h
      · cases h
      · rename_i t₁ hcommit
        cases h
        exact ⟨put_insert (commit_eq_ok hcommit),.inr ⟨rfl,rfl⟩⟩

theorem upsert_put {ep : UpsertEndpoint} {now : Timestamp} {row : EndpointRow}
    (h : t.upsert pg ep now=.ok (row,t')) : Put t t' row := by
  obtain ⟨mac,ip,_,hput,_⟩ := upsert_ok h
  exact hput

theorem upsert_mac {ep : UpsertEndpoint} {now : Timestamp} {row : EndpointRow}
    (h : t.upsert pg ep now=.ok (row,t')) : pg.macaddr ep.macAddress=some row.macAddress := by
  obtain ⟨mac,ip,hcast,_,hrow⟩ := upsert_ok h
  rw [(cast_ok hcast).1]
  rcases hrow with ⟨r,hr,rfl⟩ | ⟨_,rfl⟩
  · rw [← (findByMac_eq_some.mp hr).2]
    rfl
  · rfl

/-- An upsert that writes a stored row merges into it. -/
theorem upsert_stored {ep : UpsertEndpoint} {now : Timestamp} {row r : EndpointRow}
    (h : t.upsert pg ep now=.ok (row,t')) (hr : t.findById row.id=some r) :
    ∃ ip, cast pg ep=.ok (r.macAddress,ip) ∧ row=mergedRow ip ep now r := by
  obtain ⟨mac,ip,hcast,_,hrow⟩ := upsert_ok h
  rcases hrow with ⟨r₀,hr₀,rfl⟩ | ⟨_,rfl⟩
  · obtain ⟨hfind,hmac⟩ := findByMac_eq_some.mp hr₀
    obtain rfl : r=r₀ := Option.some.inj (hr.symm.trans hfind)
    exact ⟨ip,hmac ▸ hcast,rfl⟩
  · change t.findById t.freshId=some r at hr
    rw [findById_freshId] at hr
    cases hr

theorem commit_ok {rows : List EndpointRow} (ids : (rows.map (·.id)).Nodup)
    (macs : (rows.map (·.macAddress)).Nodup) (agents : (rows.filterMap (·.agentId)).Nodup) :
    commit rows=.ok ⟨rows,ids,macs,agents⟩ := by
  rw [commit,dif_pos ⟨ids,macs,agents⟩]

/-- The row `r` rewritten to keys that no other row has. -/
theorem commit_update {p : EndpointRow → Bool} {r : EndpointRow} (row : EndpointRow)
    (hr : t.findById r.id=some r) (hp : p r=true) (honly : ∀ r' ∈ t.rows, p r'=true → r'=r)
    (hid : row.id=r.id)
    (hmac : ∀ r' ∈ t.rows, p r'=false → r'.macAddress≠row.macAddress)
    (hagent : ∀ r' ∈ t.rows, p r'=false → ∀ a, row.agentId=some a → r'.agentId≠some a) :
    ∃ t', commit (updateRows p (fun _ => row) t.rows)=.ok t' ∧ Put t t' row := by
  have hrow := (findById_eq_some.mp hr).1
  have hids : ∀ r' ∈ t.rows, p r'=false → r'.id≠row.id := by
    intro r' hr' hp' he
    have hsame := List.inj_on_of_nodup_map t.ids hr' hrow (he.trans hid)
    rw [hsame,hp] at hp'
    cases hp'
  have hcommit := commit_ok (nodup_updateRows t.ids honly hids)
    (nodup_updateRows t.macs honly hmac)
    (nodup_filterMap_updateRows t.ids.of_map t.agents honly hagent)
  exact ⟨_,hcommit,put_update hr hp honly hid (commit_eq_ok hcommit)⟩

theorem commit_error {rows : List EndpointRow} (h : ∀ t' : EndpointTable, t'.rows≠rows) :
    commit rows=.error .uniqueViolation := by
  unfold commit
  split
  · rename_i hkeys
    exact absurd rfl (h ⟨rows,hkeys.1,hkeys.2.1,hkeys.2.2⟩)
  · rfl

/-- The row `r` rewritten to a key that another row has. -/
theorem commit_update_refused {p : EndpointRow → Bool} {r r' : EndpointRow} (row : EndpointRow)
    (hr : r ∈ t.rows) (hp : p r=true) (hr' : r' ∈ t.rows) (hp' : p r'=false) (hid : row.id=r.id)
    (htaken : r'.macAddress=row.macAddress ∨ ∃ a, r'.agentId=some a ∧ row.agentId=some a) :
    commit (updateRows p (fun _ => row) t.rows)=.error .uniqueViolation := by
  apply commit_error
  intro t' ht'
  have hrow : row ∈ t'.rows := by
    rw [ht',mem_updateRows]
    exact .inl ⟨r,hr,hp,rfl⟩
  have hold : r' ∈ t'.rows := by
    rw [ht',mem_updateRows]
    exact .inr ⟨hr',hp'⟩
  have hsame : r'=row := by
    cases htaken with
    | inl hmac => exact List.inj_on_of_nodup_map t'.macs hold hrow hmac
    | inr hagent =>
      obtain ⟨a,ha',ha⟩ := hagent
      exact agent_unique hold hrow ha' ha
  have heq : r'=r := List.inj_on_of_nodup_map t.ids hr' hr (by rw [hsame,hid])
  rw [heq,hp] at hp'
  cases hp'

/-- A row with keys that no other row has, added at the end. -/
theorem commit_insert (row : EndpointRow) (hid : ∀ r ∈ t.rows, r.id≠row.id)
    (hmac : ∀ r ∈ t.rows, r.macAddress≠row.macAddress)
    (hagent : ∀ r ∈ t.rows, ∀ a, row.agentId=some a → r.agentId≠some a) :
    ∃ t', commit (t.rows++[row])=.ok t' ∧ t'.rows=t.rows++[row] := by
  have hids : ((t.rows++[row]).map (·.id)).Nodup := by
    rw [List.map_append]
    apply t.ids.append (List.nodup_singleton _)
    simpa [List.disjoint_singleton] using hid
  have hmacs : ((t.rows++[row]).map (·.macAddress)).Nodup := by
    rw [List.map_append]
    apply t.macs.append (List.nodup_singleton _)
    simpa [List.disjoint_singleton] using hmac
  have hagents : ((t.rows++[row]).filterMap (·.agentId)).Nodup := by
    rw [List.filterMap_append]
    cases ha : row.agentId with
    | none => simpa [ha] using t.agents
    | some a =>
      rw [List.filterMap_cons_some ha,List.filterMap_nil]
      apply t.agents.append (List.nodup_singleton _)
      rw [List.disjoint_singleton]
      intro hmem
      obtain ⟨r,hr,hra⟩ := List.mem_filterMap.mp hmem
      exact hagent r hr a ha hra
  exact ⟨_,commit_ok hids hmacs hagents,rfl⟩

/-- An upsert for the MAC of a row, with an agent id that no other row has. -/
theorem upsert_merges {ep : UpsertEndpoint} {r : EndpointRow} {ip : Option String}
    (now : Timestamp) (hr : r ∈ t.rows) (hcast : cast pg ep=.ok (r.macAddress,ip))
    (hagent : ∀ r' ∈ t.rows, r'≠r → ∀ a, ep.agentId.or r.agentId=some a → r'.agentId≠some a) :
    ∃ t', t.upsert pg ep now=.ok (mergedRow ip ep now r,t') ∧ mergedRow ip ep now r ∈ t'.rows := by
  have hself : t.findById r.id=some r := findById_eq_some.mpr ⟨hr,rfl⟩
  have hfind : t.findByMac r.macAddress=some r := findByMac_eq_some.mpr ⟨hself,rfl⟩
  have hrows : ∀ r' ∈ t.rows, (r'.macAddress==r.macAddress)=true → r'=r := by
    intro r' hr' hmac
    exact List.inj_on_of_nodup_map t.macs hr' hr (by simpa using hmac)
  have hmacs : ∀ r' ∈ t.rows, (r'.macAddress==r.macAddress)=false →
      r'.macAddress≠(mergedRow ip ep now r).macAddress := by
    intro r' _ hp
    simpa [mergedRow] using hp
  have hagents : ∀ r' ∈ t.rows, (r'.macAddress==r.macAddress)=false →
      ∀ a, (mergedRow ip ep now r).agentId=some a → r'.agentId≠some a := by
    intro r' hr' hp a ha
    apply hagent r' hr' _ a ha
    intro heq
    simp [heq] at hp
  obtain ⟨t',hcommit,hput⟩ := commit_update (mergedRow ip ep now r) hself (by simp) hrows rfl
    hmacs hagents
  refine ⟨t',?_,(findById_eq_some.mp hput.self).1⟩
  unfold upsert
  simp only [hcast,bind,Except.bind,hfind,hcommit]
  rfl

/-- An upsert without an agent id for a known MAC is not refused. -/
theorem upsert_known {ep : UpsertEndpoint} {r : EndpointRow} {ip : Option String}
    (now : Timestamp) (hr : t.findById r.id=some r) (hcast : cast pg ep=.ok (r.macAddress,ip))
    (hagent : ep.agentId=none) : ∃ t', t.upsert pg ep now=.ok (mergedRow ip ep now r,t') := by
  have hrow := (findById_eq_some.mp hr).1
  have hagents : ∀ r' ∈ t.rows, r'≠r → ∀ a, ep.agentId.or r.agentId=some a →
      r'.agentId≠some a := by
    intro r' hr' hne a ha ha'
    rw [hagent,Option.none_or] at ha
    exact hne (agent_unique hr' hrow ha' ha)
  obtain ⟨t',hupsert,_⟩ := upsert_merges now hrow hcast hagents
  exact ⟨t',hupsert⟩

/-- An upsert for a MAC that no row has, with an agent id that no row has. -/
theorem upsert_inserts {ep : UpsertEndpoint} {mac : MacAddr} {ip : Option String}
    (now : Timestamp) (hcast : cast pg ep=.ok (mac,ip)) (hmac : t.findByMac mac=none)
    (hagent : ∀ r ∈ t.rows, ∀ a, ep.agentId=some a → r.agentId≠some a) :
    ∃ t', t.upsert pg ep now=.ok (insertedRow t.freshId mac ip ep now,t') ∧
      insertedRow t.freshId mac ip ep now ∈ t'.rows := by
  have hids : ∀ r ∈ t.rows, r.id≠(insertedRow t.freshId mac ip ep now).id :=
    findById_eq_none.mp (findById_freshId t)
  have hmacs : ∀ r ∈ t.rows, r.macAddress≠(insertedRow t.freshId mac ip ep now).macAddress := by
    intro r hr h
    have hown : r.macAddress=mac := h
    exact List.find?_eq_none.mp hmac r hr (by simpa using hown)
  obtain ⟨t',hcommit,hrows⟩ := commit_insert _ hids hmacs hagent
  refine ⟨t',?_,by rw [hrows]; simp⟩
  unfold upsert
  simp only [hcast,bind,Except.bind,hmac,hcommit]
  rfl

/-- An upsert without an agent id is refused only for its texts. -/
theorem upsert_accepts {ep : UpsertEndpoint} {mac : MacAddr} {ip : Option String}
    (now : Timestamp) (hcast : cast pg ep=.ok (mac,ip)) (hagent : ep.agentId=none) :
    ∃ row t', t.upsert pg ep now=.ok (row,t') := by
  cases hfind : t.findByMac mac with
  | some r =>
    obtain ⟨hself,hmac⟩ := findByMac_eq_some.mp hfind
    obtain ⟨t',hupsert⟩ := upsert_known now hself (by rw [hmac]; exact hcast) hagent
    exact ⟨_,t',hupsert⟩
  | none =>
    have hagents : ∀ r ∈ t.rows, ∀ a, ep.agentId=some a → r.agentId≠some a := by
      intro r _ a ha
      rw [hagent] at ha
      cases ha
    obtain ⟨t',hupsert,_⟩ := upsert_inserts now hcast hfind hagents
    exact ⟨_,t',hupsert⟩

/-- What an upsert by agent id writes, if a row has the agent id. -/
theorem upsertByAgentId_ok {ep : UpsertEndpoint} {now : Timestamp} {row : Option EndpointRow}
    (h : t.upsertByAgentId pg ep now=.ok (row,t')) :
    (row=none ∧ t'=t) ∨
      ∃ agent mac ip r, ep.agentId=some agent ∧ cast pg ep=.ok (mac,ip) ∧ r ∈ t.rows ∧
        r.agentId=some agent ∧ row=some (movedRow mac ip ep now r) ∧
        Put t t' (movedRow mac ip ep now r) := by
  unfold upsertByAgentId at h
  cases ha : ep.agentId with
  | none =>
    simp only [ha] at h
    cases h
    exact .inl ⟨rfl,rfl⟩
  | some agent =>
    simp only [ha] at h
    split at h
    · cases h
      exact .inl ⟨rfl,rfl⟩
    · cases hc : cast pg ep with
      | error e => simp [hc,bind,Except.bind] at h
      | ok mi =>
        obtain ⟨mac,ip⟩ := mi
        simp only [hc,bind,Except.bind] at h
        cases hf : t.rows.find? (·.agentId==some agent) with
        | none =>
          simp only [hf] at h
          cases h
          exact .inl ⟨rfl,rfl⟩
        | some r =>
          simp only [hf] at h
          split at h
          · cases h
          · rename_i t₁ hcommit
            cases h
            have hr := List.mem_of_find?_eq_some hf
            have hagent : r.agentId=some agent := by simpa using List.find?_some hf
            refine .inr ⟨agent,mac,ip,r,rfl,rfl,hr,hagent,rfl,
              put_update (p := (·.agentId==some agent)) (findById_eq_some.mpr ⟨hr,rfl⟩)
                (by simpa using hagent) ?_ rfl (commit_eq_ok hcommit)⟩
            intro r' hr' hp
            exact agent_unique hr' hr (by simpa using hp) hagent

theorem findById_setStatus (id : Uuid) (status : Status) (i : Uuid) :
    (t.setStatus id status).findById i=
      (t.findById i).map fun r => if r.id==id then { r with status := status } else r :=
  findById_modify _ i

/-- A page of the table is part of its rows, in another order. -/
theorem list_subperm (pg : Postgres) (limit offset : Nat) (t : EndpointTable) :
    (t.list pg limit offset).Subperm t.rows :=
  ((List.take_sublist limit _).trans (List.drop_sublist offset _)).subperm.trans
    ((List.perm_insertionSort _ _).trans (pg.scan_perm t.rows)).subperm

theorem mem_of_list {limit offset : Nat} {r : EndpointRow} (h : r ∈ t.list pg limit offset) :
    r ∈ t.rows := (list_subperm pg limit offset t).subset h

theorem findById_of_list {limit offset : Nat} {r : EndpointRow} (h : r ∈ t.list pg limit offset) :
    t.findById r.id=some r := findById_eq_some.mpr ⟨mem_of_list h,rfl⟩

theorem list_ids (limit offset : Nat) : ((t.list pg limit offset).map (·.id)).Nodup := by
  obtain ⟨l,hperm,hsub⟩ := list_subperm pg limit offset t
  exact (hperm.map _).nodup_iff.mp ((hsub.map _).nodup t.ids)

theorem ext_rows (h : t.rows=t'.rows) : t=t' := by
  cases t
  cases t'
  cases h
  rfl

/-- Writing the status a device has already changes nothing. -/
theorem setStatus_self {id : Uuid} {r : EndpointRow} (h : t.findById id=some r) :
    t.setStatus id r.status=t := by
  obtain ⟨hr,rfl⟩ := findById_eq_some.mp h
  apply ext_rows
  change t.rows.map _=t.rows
  conv_rhs => rw [← List.map_id t.rows]
  apply List.map_congr_left
  intro r' hr'
  by_cases hid : r'.id=r.id
  · have he := List.inj_on_of_nodup_map t.ids hr' hr hid
    simp [he]
  · simp [hid]

theorem findById_setUsername (id : Uuid) (username : String) (i : Uuid) :
    (t.setUsername id username).findById i=
      (t.findById i).map fun r => if r.id==id then { r with username := some username } else r :=
  findById_modify _ i

theorem findById_setCompliance (id : Uuid) (isCompliant : Bool) (now : Timestamp) (i : Uuid) :
    (t.setCompliance id isCompliant now).findById i=
      (t.findById i).map fun r => if r.id==id then
        { r with isCompliant := some isCompliant, lastPostureCheck := some now } else r :=
  findById_modify _ i

theorem findById_updatePostureFields (id : Uuid) (f : PostureFields) (i : Uuid) :
    (t.updatePostureFields id f).findById i=
      (t.findById i).map fun r => if r.id==id then withPosture f r else r :=
  findById_modify _ i

theorem findById_updateIp (mac : MacAddr) (ip : String) (now : Timestamp) (i : Uuid) :
    (t.updateIp mac ip now).findById i=
      (t.findById i).map fun r => if r.macAddress==mac then
        { r with ipAddress := some ip, lastSeen := now } else r :=
  findById_modify _ i

section Column

variable {κ : Type} {cols : EndpointRow → κ}

/-- Some columns of a device. -/
def column (cols : EndpointRow → κ) (t : EndpointTable) (id : Uuid) : Option κ :=
  (t.findById id).map cols

theorem column_eq_some {id : Uuid} {c : κ} :
    t.column cols id=some c ↔ ∃ r, t.findById id=some r ∧ cols r=c := Option.map_eq_some_iff

/-- A write to other columns. -/
theorem column_modify {p : EndpointRow → Bool} {f : EndpointRow → EndpointRow}
    (keys : KeepsKeys f) (hcols : ∀ r, cols (f r)=cols r) :
    (t.modify p f keys).column cols=t.column cols := by
  funext id
  rw [column,findById_modify,Option.map_map,column]
  congr 1
  funext r
  by_cases hp : p r=true <;> simp [hp,hcols]

theorem column_setPolicy {id : Uuid} {policyId : Option Uuid}
    (h : ∀ r, cols { r with assignedPolicyId := policyId }=cols r) :
    (t.setPolicy id policyId).column cols=t.column cols := column_modify _ h

theorem column_setExempt {id : Uuid} {exempt : Bool}
    (h : ∀ r, cols { r with policyExempt := exempt }=cols r) :
    (t.setExempt id exempt).column cols=t.column cols := column_modify _ h

theorem column_setUsername {id : Uuid} {username : String}
    (h : ∀ r, cols { r with username := some username }=cols r) :
    (t.setUsername id username).column cols=t.column cols := column_modify _ h

theorem column_setCompliance {id : Uuid} {isCompliant : Bool} {now : Timestamp}
    (h : ∀ r, cols { r with isCompliant := some isCompliant, lastPostureCheck := some now }=cols r) :
    (t.setCompliance id isCompliant now).column cols=t.column cols := column_modify _ h

theorem column_updatePostureFields {id : Uuid} {f : PostureFields}
    (h : ∀ r, cols (withPosture f r)=cols r) :
    (t.updatePostureFields id f).column cols=t.column cols := column_modify _ h

theorem column_updateIp {mac : MacAddr} {ip : String} {now : Timestamp}
    (h : ∀ r, cols { r with ipAddress := some ip, lastSeen := now }=cols r) :
    (t.updateIp mac ip now).column cols=t.column cols := column_modify _ h

/-- A new status for another device. -/
theorem column_setStatus {id i : Uuid} (h : i≠id) (status : Status) :
    (t.setStatus id status).column cols i=t.column cols i := by
  rw [column,findById_setStatus,map_findById_other h,column]

/-- An upsert of what is stored keeps the columns that the merge keeps. -/
theorem column_upsert {ep : UpsertEndpoint} {now : Timestamp} {row : EndpointRow} {id : Uuid}
    {c : κ} (h : t.upsert pg ep now=.ok (row,t'))
    (hcols : ∀ ip ep now r, cols (mergedRow ip ep now r)=cols r)
    (hid : t.column cols id=some c) : t'.column cols id=some c := by
  obtain ⟨mac,ip,_,hput,hrow⟩ := upsert_ok h
  by_cases he : id=row.id
  · subst he
    rcases hrow with ⟨r,hr,rfl⟩ | ⟨_,rfl⟩
    · obtain ⟨r',hr',hc⟩ := column_eq_some.mp hid
      have hfind := (findByMac_eq_some.mp hr).1
      obtain rfl : r=r' := Option.some.inj (hfind.symm.trans hr')
      rw [column,hput.self,← hc]
      exact congrArg some (hcols _ _ _ _)
    · change t.column cols t.freshId=some c at hid
      rw [column,findById_freshId] at hid
      cases hid
  · rw [column,hput.other he]
    exact hid

end Column

/-- The stored status; a device without a row is pending. -/
def statusOf (t : EndpointTable) (id : Uuid) : Status :=
  ((t.findById id).map (·.status)).getD .pending

theorem statusOf_congr (h : t'.column (·.status)=t.column (·.status)) :
    t'.statusOf=t.statusOf := by
  funext id
  exact congrArg (fun o : Option Status => o.getD .pending) (congrFun h id)

theorem statusOf_put {row : EndpointRow} (h : Put t t' row)
    (hs : row.status=t.statusOf row.id) : t'.statusOf=t.statusOf := by
  funext id
  by_cases hid : id=row.id
  · rw [hid,← hs,statusOf,h.self]
    rfl
  · rw [statusOf,h.other hid,statusOf]

theorem statusOf_of_find {id : Uuid} {r : EndpointRow} (h : t.findById id=some r) :
    t.statusOf id=r.status := by
  rw [statusOf,h]
  rfl

theorem statusOf_setStatus {id : Uuid} {r : EndpointRow} (h : t.findById id=some r)
    (status : Status) (i : Uuid) :
    (t.setStatus id status).statusOf i=if i=id then status else t.statusOf i := by
  by_cases hi : i=id
  · subst hi
    rw [if_pos rfl,statusOf,findById_setStatus,h]
    simp [findById_id h]
  · have hcol : (t.setStatus id status).column (·.status) i=t.column (·.status) i :=
      column_setStatus hi status
    rw [if_neg hi]
    exact congrArg (fun o : Option Status => o.getD .pending) hcol

/-- An upsert takes the status over; a new row is pending. -/
theorem upsert_status {pg : Postgres} {ep : UpsertEndpoint} {now : Timestamp} {row : EndpointRow}
    (h : t.upsert pg ep now=.ok (row,t')) : row.status=t.statusOf row.id := by
  obtain ⟨mac,ip,_,_,hrow⟩ := upsert_ok h
  rcases hrow with ⟨r,hr,rfl⟩ | ⟨_,rfl⟩
  · exact (statusOf_of_find (findByMac_eq_some.mp hr).1).symm
  · change Status.pending=t.statusOf t.freshId
    rw [statusOf,findById_freshId]
    rfl

end NacPlatform.EndpointTable
