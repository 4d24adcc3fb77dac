import NacPlatform.PolicyManager.Outcomes

namespace NacPlatform

namespace EndpointTable

variable {t : EndpointTable} {pg : Postgres} {ep : UpsertEndpoint} {agent : String}
  {mac : MacAddr} {ip : Option String}

theorem upsertByAgentId_unknown (now : Timestamp) (hep : ep.agentId=some agent) (hne : agent≠"")
    (hcast : cast pg ep=.ok (mac,ip)) (hno : t.findByAgentId agent=none) :
    t.upsertByAgentId pg ep now=.ok (none,t) := by
  have hemp : agent.isEmpty=false := by simpa using hne
  unfold findByAgentId at hno
  unfold upsertByAgentId
  simp only [hep,hemp,hcast,hno,bind,Except.bind,Bool.false_eq_true,if_false]
  rfl

theorem upsertByAgentId_known (now : Timestamp) {r : EndpointRow} (hep : ep.agentId=some agent)
    (hne : agent≠"") (hcast : cast pg ep=.ok (mac,ip)) (hr : t.findByAgentId agent=some r) :
    t.upsertByAgentId pg ep now=
      (commit (updateRows (·.agentId==some agent) (fun _ => movedRow mac ip ep now r) t.rows)).map
        fun t' => (some (movedRow mac ip ep now r),t') := by
  have hemp : agent.isEmpty=false := by simpa using hne
  unfold findByAgentId at hr
  unfold upsertByAgentId
  simp only [hep,hemp,hcast,hr,bind,Except.bind,Bool.false_eq_true,if_false]
  cases commit (updateRows (·.agentId==some agent) (fun _ => movedRow mac ip ep now r) t.rows) <;>
    rfl

/-- The device of an agent takes a MAC that no other row has. -/
theorem upsertByAgentId_moves (now : Timestamp) {r : EndpointRow} (hep : ep.agentId=some agent)
    (hne : agent≠"") (hcast : cast pg ep=.ok (mac,ip)) (hr : t.findByAgentId agent=some r)
    (hfree : ∀ r' ∈ t.rows, r'≠r → r'.macAddress≠mac) :
    ∃ t', t.upsertByAgentId pg ep now=.ok (some (movedRow mac ip ep now r),t') ∧
      movedRow mac ip ep now r ∈ t'.rows := by
  obtain ⟨hmem,hagent⟩ := findByAgentId_eq_some.mp hr
  have honly : ∀ r' ∈ t.rows, (r'.agentId==some agent)=true → r'=r := by
    intro r' hr' h
    exact agent_unique hr' hmem (by simpa using h) hagent
  have hmacs : ∀ r' ∈ t.rows, (r'.agentId==some agent)=false →
      r'.macAddress≠(movedRow mac ip ep now r).macAddress := by
    intro r' hr' h
    apply hfree r' hr'
    intro heq
    simp [heq,hagent] at h
  have hagents : ∀ r' ∈ t.rows, (r'.agentId==some agent)=false →
      ∀ a, (movedRow mac ip ep now r).agentId=some a → r'.agentId≠some a := by
    intro r' _ h a ha ha'
    have hsame : agent=a := Option.some.inj (hagent.symm.trans ha)
    simp [ha',hsame] at h
  obtain ⟨t',hcommit,hput⟩ := commit_update (movedRow mac ip ep now r)
    (findById_eq_some.mpr ⟨hmem,rfl⟩) (by simp [hagent]) honly rfl hmacs hagents
  refine ⟨t',?_,(findById_eq_some.mp hput.self).1⟩
  rw [upsertByAgentId_known now hep hne hcast hr,hcommit]
  rfl

/-- Neither statement gets past the constraints when the agent has a row and the MAC another. -/
theorem upsertByAgentId_refused (now : Timestamp) {r r' : EndpointRow}
    (hep : ep.agentId=some agent) (hne : agent≠"") (hcast : cast pg ep=.ok (mac,ip))
    (hr : t.findByAgentId agent=some r) (hr' : r' ∈ t.rows) (hmac : r'.macAddress=mac)
    (hother : r'≠r) : t.upsertByAgentId pg ep now=.error .uniqueViolation := by
  obtain ⟨hmem,hagent⟩ := findByAgentId_eq_some.mp hr
  have hoff : (r'.agentId==some agent)=false := by
    by_contra h
    exact hother (agent_unique hr' hmem (by simpa using h) hagent)
  rw [upsertByAgentId_known now hep hne hcast hr,
    commit_update_refused (movedRow mac ip ep now r) hmem (by simp [hagent]) hr' hoff rfl
      (.inl hmac)]
  rfl

theorem upsert_refused (now : Timestamp) {r r' : EndpointRow} (hep : ep.agentId=some agent)
    (hcast : cast pg ep=.ok (mac,ip)) (hr : t.findByAgentId agent=some r) (hr' : r' ∈ t.rows)
    (hmac : r'.macAddress=mac) (hother : r'≠r) :
    t.upsert pg ep now=.error .uniqueViolation := by
  obtain ⟨hmem,hagent⟩ := findByAgentId_eq_some.mp hr
  have hfind : t.findByMac mac=some r' :=
    findByMac_eq_some.mpr ⟨findById_eq_some.mpr ⟨hr',rfl⟩,hmac⟩
  have hoff : (r.macAddress==mac)=false := by
    by_contra h
    have hsame : r.macAddress=r'.macAddress := by rw [hmac]; simpa using h
    exact hother (List.inj_on_of_nodup_map t.macs hr' hmem hsame.symm)
  have hcommit := commit_update_refused (mergedRow ip ep now r') hr' (p := (·.macAddress==mac))
    (by simpa using hmac) hmem hoff rfl (.inr ⟨agent,hagent,by simp [mergedRow,hep]⟩)
  unfold upsert
  simp only [hcast,bind,Except.bind,hfind,hcommit]

/-- The one row with the agent id has the MAC. -/
def Registered (t : EndpointTable) (agent : String) (mac : MacAddr) : Prop :=
  ∃ r ∈ t.rows, r.macAddress=mac ∧ ∀ r' ∈ t.rows, r'.agentId=some agent ↔ r'=r

theorem registered_of_mem {r : EndpointRow} (hr : r ∈ t.rows) (hmac : r.macAddress=mac)
    (hagent : r.agentId=some agent) : Registered t agent mac := by
  refine ⟨r,hr,hmac,?_⟩
  intro r' hr'
  constructor
  · intro h
    exact agent_unique hr' hr h hagent
  · intro h
    rw [h,hagent]

end EndpointTable

namespace AgentService

open EndpointTable

variable {pg : Postgres} {w : World} {remoteIp : Option String} {req : RegisterRequest}
  {mac : MacAddr}

/-- `register` answers with a row, and the agent is registered under the MAC. -/
def Registers (pg : Postgres) (remoteIp : Option String) (req : RegisterRequest) (mac : MacAddr)
    (w : World) : Prop :=
  ∃ row w', (register remoteIp req).run (Call.exec pg) w=(.ok row,w') ∧
    Registered w'.endpoints req.deviceId mac

theorem cast_upsertOf (hmac : normalizeMac req.primaryMac=some mac.text)
    (hip : ∀ s, remoteIp=some s → (pg.inet s).isSome=true) :
    ∃ ip, EndpointTable.cast pg (upsertOf remoteIp req)=.ok (mac,ip) := by
  have htext : pg.macaddr (upsertOf remoteIp req).macAddress=some mac := by
    rw [upsertOf,hmac,Option.getD_some,pg.macaddr_text]
  cases hr : remoteIp with
  | none => exact ⟨none,cast_none (by rw [← hr]; exact htext) rfl⟩
  | some s =>
    obtain ⟨shown,hshown⟩ := Option.isSome_iff_exists.mp (hip s hr)
    exact ⟨some shown,cast_some (by rw [← hr]; exact htext) rfl hshown⟩

theorem run_register (pg : Postgres) (remoteIp : Option String) (req : RegisterRequest) (w : World) :
    (register remoteIp req).run (Call.exec pg) w=
      match w.endpoints.upsertByAgentId pg (upsertOf remoteIp req) w.clock with
      | .ok (some row,t) => (.ok row,{ w with endpoints := t, clock := w.clock+1 })
      | .ok (none,t) =>
        Call.exec pg (.upsert (upsertOf remoteIp req)) { w with endpoints := t, clock := w.clock+1 }
      | .error _ => Call.exec pg (.upsert (upsertOf remoteIp req)) w := by
  unfold register
  rw [World.run_probe_bind]
  cases h : w.endpoints.upsertByAgentId pg (upsertOf remoteIp req) w.clock with
  | error e =>
    simp only [Call.exec,h]
    exact run_query _ _
  | ok r =>
    obtain ⟨row,t⟩ := r
    cases row with
    | none =>
      simp only [Call.exec,h]
      exact run_query _ _
    | some row =>
      simp only [Call.exec,h]
      rfl

/-- The first statement moves the row of the agent, or the second writes the row of the MAC. -/
theorem registers_of_free (hid : req.deviceId≠"")
    (hmac : normalizeMac req.primaryMac=some mac.text)
    (hip : ∀ s, remoteIp=some s → (pg.inet s).isSome=true)
    (hfree : ∀ r ∈ w.endpoints.rows, r.agentId=some req.deviceId →
      r.macAddress=mac ∨ ∀ r' ∈ w.endpoints.rows, r'.macAddress≠mac) :
    Registers pg remoteIp req mac w := by
  obtain ⟨ip,hcast⟩ := cast_upsertOf hmac hip
  have hep : (upsertOf remoteIp req).agentId=some req.deviceId := rfl
  unfold Registers
  rw [run_register]
  cases hr : w.endpoints.findByAgentId req.deviceId with
  | some r =>
    obtain ⟨hmem,hagent⟩ := findByAgentId_eq_some.mp hr
    have hothers : ∀ r' ∈ w.endpoints.rows, r'≠r → r'.macAddress≠mac := by
      intro r' hr' hne
      cases hfree r hmem hagent with
      | inl hown =>
        intro heq
        exact hne (List.inj_on_of_nodup_map w.endpoints.macs hr' hmem (heq.trans hown.symm))
      | inr hall => exact hall r' hr'
    obtain ⟨t',hmoves,hin⟩ := upsertByAgentId_moves w.clock hep hid hcast hr hothers
    rw [hmoves]
    exact ⟨_,_,rfl,registered_of_mem hin rfl hagent⟩
  | none =>
    rw [upsertByAgentId_unknown w.clock hep hid hcast hr]
    have hno : ∀ r ∈ w.endpoints.rows, r.agentId≠some req.deviceId := by
      intro r hmem
      simpa using List.find?_eq_none.mp hr r hmem
    cases hfind : w.endpoints.findByMac mac with
    | some r =>
      obtain ⟨hself,hown⟩ := findByMac_eq_some.mp hfind
      subst hown
      have hothers : ∀ r' ∈ w.endpoints.rows, r'≠r →
          ∀ a, (upsertOf remoteIp req).agentId.or r.agentId=some a → r'.agentId≠some a := by
        intro r' hr' _ a ha
        rw [hep,Option.some_or] at ha
        cases ha
        exact hno r' hr'
      obtain ⟨t',hupsert,hin⟩ :=
        upsert_merges (w.clock+1) (findById_eq_some.mp hself).1 hcast hothers
      simp only [Call.exec,hupsert]
      exact ⟨_,_,rfl,registered_of_mem hin rfl rfl⟩
    | none =>
      have hagents : ∀ r ∈ w.endpoints.rows, ∀ a, (upsertOf remoteIp req).agentId=some a →
          r.agentId≠some a := by
        intro r' hr' a ha
        rw [hep] at ha
        cases ha
        exact hno r' hr'
      obtain ⟨t',hupsert,hin⟩ := upsert_inserts (w.clock+1) hcast hfind hagents
      simp only [Call.exec,hupsert]
      exact ⟨_,_,rfl,registered_of_mem hin rfl rfl⟩

theorem register_refused (hid : req.deviceId≠"")
    (hmac : normalizeMac req.primaryMac=some mac.text)
    (hip : ∀ s, remoteIp=some s → (pg.inet s).isSome=true) {r r' : EndpointRow}
    (hr : r ∈ w.endpoints.rows) (hagent : r.agentId=some req.deviceId) (hr' : r' ∈ w.endpoints.rows)
    (hmac' : r'.macAddress=mac) (hne : r.macAddress≠mac) :
    (register remoteIp req).run (Call.exec pg) w=(.error .uniqueViolation,w) := by
  obtain ⟨ip,hcast⟩ := cast_upsertOf hmac hip
  have hep : (upsertOf remoteIp req).agentId=some req.deviceId := rfl
  have hfind := findByAgentId_eq_some.mpr ⟨hr,hagent⟩
  have hother : r'≠r := by
    intro heq
    rw [heq] at hmac'
    exact hne hmac'
  rw [run_register,upsertByAgentId_refused w.clock hep hid hcast hfind hr' hmac' hother]
  simp only [Call.exec,upsert_refused w.clock hep hcast hfind hr' hmac' hother]

/-- A registration goes through unless the agent has a row with another MAC and the MAC is that of
a second row: then both statements break a unique constraint. -/
theorem register_succeeds_iff {pg : Postgres} {w : World} {remoteIp : Option String}
    {req : RegisterRequest} {mac : MacAddr} (hid : req.deviceId≠"")
    (hmac : normalizeMac req.primaryMac=some mac.text)
    (hip : ∀ s, remoteIp=some s → (pg.inet s).isSome=true) :
    Registers pg remoteIp req mac w ↔
      ∀ r ∈ w.endpoints.rows, r.agentId=some req.deviceId →
        r.macAddress=mac ∨ ∀ r' ∈ w.endpoints.rows, r'.macAddress≠mac := by
  constructor
  · intro h r hr hagent
    by_contra hcon
    push Not at hcon
    obtain ⟨hne,r',hr',hmac'⟩ := hcon
    obtain ⟨row,w',hrun,_⟩ := h
    rw [register_refused hid hmac hip hr hagent hr' hmac' hne] at hrun
    cases hrun
  · exact registers_of_free hid hmac hip

/-- The agent of a device with a replaced network card, which the sensor has seen. -/
def replacedCard : RegisterRequest := ⟨"0f8c7b1e","pc-7","Linux","1.0","AA-BB-CC-DD-EE-01"⟩

/-- The tables after the sensor has seen the card, and perhaps the agent was there before. -/
def seenCard (before : List Step) : World :=
  (runs (Platform.step Postgres.plain Runtime.ascii) (Platform.initial [])
    (before++[.detected firstSighting])).world

theorem register_seen_card :
    Registers Postgres.plain (some "10.0.0.7") replacedCard ⟨0xaa,0xbb,0xcc,0xdd,0xee,0x01⟩
      (seenCard []) := by
  have hnone : (seenCard []).endpoints.rows.map (·.agentId)=[none] := by decide +kernel
  refine (register_succeeds_iff (by decide) (by decide +kernel) ?_).mpr ?_
  · intro s hs
    cases hs
    decide +kernel
  · intro r hr hagent
    have hmem : some replacedCard.deviceId ∈ (seenCard []).endpoints.rows.map (·.agentId) :=
      List.mem_map.mpr ⟨r,hr,hagent⟩
    rw [hnone] at hmem
    simp at hmem

/-- The agent had registered with the old card: its new registration is an error. -/
theorem register_replaced_card :
    replacedCard.deviceId≠"" ∧
      normalizeMac replacedCard.primaryMac=some (MacAddr.mk 0xaa 0xbb 0xcc 0xdd 0xee 0x01).text ∧
      ((Postgres.plain.inet "10.0.0.7").isSome=true) ∧
      ¬ Registers Postgres.plain (some "10.0.0.7") replacedCard ⟨0xaa,0xbb,0xcc,0xdd,0xee,0x01⟩
        (seenCard [.register (some "10.0.0.7")
          { replacedCard with primaryMac := "AA-BB-CC-DD-EE-02" }]) := by
  refine ⟨by decide,by decide +kernel,by decide +kernel,?_⟩
  intro h
  obtain ⟨row,w',hrun,_⟩ := h
  have herr : ((register (some "10.0.0.7") replacedCard).run (Call.exec Postgres.plain)
      (seenCard [.register (some "10.0.0.7")
        { replacedCard with primaryMac := "AA-BB-CC-DD-EE-02" }])).1.isOk=false := by
    decide +kernel
  rw [hrun] at herr
  cases herr

end AgentService

end NacPlatform
