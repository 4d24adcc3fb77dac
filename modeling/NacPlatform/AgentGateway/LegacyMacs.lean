import NacPlatform.AgentGateway.Registration

namespace NacPlatform

namespace EndpointTable

variable {t t' : EndpointTable} {pg : Postgres} {ep : UpsertEndpoint} {row : EndpointRow}

/-- Every device that has an agent keeps it, and its MAC. -/
def AgentsKept (t t' : EndpointTable) : Prop :=
  ∀ id r, t.findById id=some r → r.agentId≠none →
    ∃ r', t'.findById id=some r' ∧ r'.agentId=r.agentId ∧ r'.macAddress=r.macAddress

theorem AgentsKept.refl (t : EndpointTable) : AgentsKept t t :=
  fun _ r h _ => ⟨r,h,rfl,rfl⟩

theorem AgentsKept.trans {t'' : EndpointTable} (h : AgentsKept t t') (h' : AgentsKept t' t'') :
    AgentsKept t t'' := by
  intro id r hr hagent
  obtain ⟨r',hr',hsame,hmac⟩ := h id r hr hagent
  obtain ⟨r'',hr'',hsame',hmac'⟩ := h' id r' hr' (hsame ▸ hagent)
  exact ⟨r'',hr'',hsame'.trans hsame,hmac'.trans hmac⟩

/-- A row in the place of `r` keeps what `r` has of an agent. -/
theorem Put.agentsKept_iff {r : EndpointRow} (h : Put t t' row) (hr : t.findById row.id=some r) :
    AgentsKept t t' ↔
      (r.agentId≠none → row.agentId=r.agentId ∧ row.macAddress=r.macAddress) := by
  constructor
  · intro hkept hagent
    obtain ⟨r',hr',hsame⟩ := hkept row.id r hr hagent
    rw [h.self] at hr'
    rwa [Option.some.inj hr']
  · intro hown id r' hr' hagent
    by_cases hid : id=row.id
    · subst hid
      obtain rfl := Option.some.inj (hr.symm.trans hr')
      exact ⟨row,h.self,hown hagent⟩
    · exact ⟨r',by rw [h.other hid,hr'],rfl,rfl⟩

theorem Put.agentsKept_of_new (h : Put t t' row) (hnew : t.findById row.id=none) :
    AgentsKept t t' := by
  intro id r hr hagent
  have hid : id≠row.id := by
    intro same
    rw [same,hnew] at hr
    cases hr
  exact ⟨r,by rw [h.other hid,hr],rfl,rfl⟩

/-- An upsert with the agent id of a row writes that row, or is refused. -/
theorem upsert_agentsKept {agent : String} {r : EndpointRow} {now : Timestamp}
    (hep : ep.agentId=some agent) (hr : t.findByAgentId agent=some r)
    (h : t.upsert pg ep now=.ok (row,t')) : AgentsKept t t' := by
  obtain ⟨hmem,hagent⟩ := findByAgentId_eq_some.mp hr
  have hself : t.findById r.id=some r := findById_eq_some.mpr ⟨hmem,rfl⟩
  have hput := upsert_put h
  have hrow : row.agentId=some agent := by
    obtain ⟨mac,ip,_,_,hrow⟩ := upsert_ok h
    rcases hrow with ⟨r',_,rfl⟩|⟨_,rfl⟩
    · simp [mergedRow,hep]
    · exact hep
  have hid : r.id=row.id := by
    by_contra hne
    have hother : t'.findById r.id=some r := by rw [hput.other hne,hself]
    have hboth := agent_unique (findById_eq_some.mp hother).1 (findById_eq_some.mp hput.self).1
      hagent hrow
    exact hne (congrArg EndpointRow.id hboth)
  rw [hid] at hself
  obtain ⟨ip,_,hmerged⟩ := upsert_stored h hself
  refine (hput.agentsKept_iff hself).mpr fun _ => ⟨hrow.trans hagent.symm,?_⟩
  rw [hmerged]
  rfl

/-- An upsert with an agent id that no row has takes the row of the MAC from the agent that has it,
if one does. -/
theorem upsert_agentsKept_iff {agent : String} {mac : MacAddr} {ip : Option String}
    (now : Timestamp) (hep : ep.agentId=some agent) (hcast : cast pg ep=.ok (mac,ip))
    (hno : t.findByAgentId agent=none) :
    ∃ row t', t.upsert pg ep now=.ok (row,t') ∧
      (AgentsKept t t' ↔ ∀ r, t.findByMac mac=some r → r.agentId=none) := by
  have hfree : ∀ r ∈ t.rows, r.agentId≠some agent := by
    intro r hmem
    simpa using List.find?_eq_none.mp hno r hmem
  cases hfind : t.findByMac mac with
  | some r =>
    obtain ⟨hself,hown⟩ := findByMac_eq_some.mp hfind
    subst hown
    have hothers : ∀ r' ∈ t.rows, r'≠r → ∀ a, ep.agentId.or r.agentId=some a →
        r'.agentId≠some a := by
      intro r' hr' _ a ha
      rw [hep,Option.some_or] at ha
      obtain rfl := Option.some.inj ha
      exact hfree r' hr'
    obtain ⟨t',hupsert,_⟩ := upsert_merges now (findById_eq_some.mp hself).1 hcast hothers
    refine ⟨_,t',hupsert,?_⟩
    have hrow : (mergedRow ip ep now r).agentId=some agent := by simp [mergedRow,hep]
    rw [(upsert_put hupsert).agentsKept_iff hself,hrow]
    constructor
    · intro hkept r' hr'
      obtain rfl := Option.some.inj hr'
      by_contra hagent
      exact hfree r (findById_eq_some.mp hself).1 (hkept hagent).1.symm
    · intro hnone hagent
      exact absurd (hnone r rfl) hagent
  | none =>
    have hagents : ∀ r ∈ t.rows, ∀ a, ep.agentId=some a → r.agentId≠some a := by
      intro r hr a ha
      rw [hep] at ha
      obtain rfl := Option.some.inj ha
      exact hfree r hr
    obtain ⟨t',hupsert,_⟩ := upsert_inserts now hcast hfind hagents
    refine ⟨_,t',hupsert,iff_of_true ?_ ?_⟩
    · exact (upsert_put hupsert).agentsKept_of_new (findById_freshId t)
    · intro r hr
      cases hr

end EndpointTable

namespace AgentService

open EndpointTable

variable {pg : Postgres} {w : World} {remoteIp : Option String} {req : RegisterRequest}

/-- The address that stands for the primary MAC of an agent that has none. -/
def legacyMac (deviceId : String) : MacAddr :=
  (MacAddr.ofHexDigits ((hexDigits deviceId).take 12)).getD ⟨0,0,0,0,0,0⟩

theorem legacyDeviceIdToMac_eq (deviceId : String) :
    legacyDeviceIdToMac deviceId=(legacyMac deviceId).text := by
  have hzero : (MacAddr.mk 0 0 0 0 0 0).text="00:00:00:00:00:00" := by decide
  unfold legacyDeviceIdToMac legacyMac
  cases MacAddr.ofHexDigits ((hexDigits deviceId).take 12) with
  | some mac => rfl
  | none => exact hzero.symm

/-- A registration that neither moves a device nor takes it from another agent: the remote address
is none; or the agent's device and the one with the legacy MAC are both known, or neither is, or
only the second is and has no agent. The move of a device needs an id. -/
def LegacySafe (pg : Postgres) (w : World) (a : Option String × RegisterRequest) : Prop :=
  (∃ s, a.1=some s ∧ pg.inet s=none) ∨
    (∀ r, w.endpoints.findByAgentId a.2.deviceId=some r → a.2.deviceId≠"" →
      ∃ r', w.endpoints.findByMac (legacyMac a.2.deviceId)=some r') ∧
    (w.endpoints.findByAgentId a.2.deviceId=none →
      ∀ r', w.endpoints.findByMac (legacyMac a.2.deviceId)=some r' → r'.agentId=none)

def registerStep (pg : Postgres) (w : World) (a : Option String × RegisterRequest) : World :=
  ((register a.1 a.2).run (Call.exec pg) w).2

theorem cast_legacy (pg : Postgres) (remoteIp : Option String)
    (hnone : normalizeMac req.primaryMac=none) :
    (∃ s, remoteIp=some s ∧ pg.inet s=none) ∧
        (∃ e, EndpointTable.cast pg (upsertOf remoteIp req)=.error e) ∨
      ∃ ip, EndpointTable.cast pg (upsertOf remoteIp req)=.ok (legacyMac req.deviceId,ip) := by
  have htext : pg.macaddr (upsertOf remoteIp req).macAddress=some (legacyMac req.deviceId) := by
    rw [upsertOf,hnone,Option.getD_none,legacyDeviceIdToMac_eq,pg.macaddr_text]
  cases hr : remoteIp with
  | none => exact .inr ⟨none,cast_none (by rw [← hr]; exact htext) rfl⟩
  | some s =>
    cases hs : pg.inet s with
    | none =>
      refine .inl ⟨⟨s,rfl,hs⟩,.invalidText,?_⟩
      rw [hr] at htext
      unfold EndpointTable.cast
      simp only [htext,Option.elim_some,bind,Except.bind]
      simp [upsertOf,hs]
    | some shown => exact .inr ⟨some shown,cast_some (by rw [← hr]; exact htext) rfl hs⟩

theorem step_cast_error {e : DbError}
    (hcast : EndpointTable.cast pg (upsertOf remoteIp req)=.error e) :
    (registerStep pg w (remoteIp,req)).endpoints=w.endpoints := by
  have hupsert (now : Timestamp) :
      w.endpoints.upsert pg (upsertOf remoteIp req) now=.error e := by
    simp only [EndpointTable.upsert,hcast,bind,Except.bind]
  rw [registerStep,run_register]
  cases h : w.endpoints.upsertByAgentId pg (upsertOf remoteIp req) w.clock with
  | error _ => simp only [Call.exec,hupsert]
  | ok r =>
    obtain ⟨row,t⟩ := r
    rcases upsertByAgentId_ok h with ⟨rfl,rfl⟩|⟨_,mac,ip,_,_,hok,_⟩
    · simp only [Call.exec,hupsert]
    · rw [hcast] at hok
      cases hok

/-- What the second statement does after a first one that wrote nothing. -/
theorem step_upsert {row : EndpointRow} {t : EndpointTable} {now : Timestamp}
    (hfirst : w.endpoints.upsertByAgentId pg (upsertOf remoteIp req) w.clock=.ok (none,w.endpoints))
    (hnow : now=w.clock+1)
    (hupsert : w.endpoints.upsert pg (upsertOf remoteIp req) now=.ok (row,t)) :
    (registerStep pg w (remoteIp,req)).endpoints=t := by
  rw [registerStep,run_register,hfirst]
  subst hnow
  simp only [Call.exec,hupsert]

/-- Where the agent has a row and the first statement writes none, nothing of an agent is lost. -/
theorem step_known {r : EndpointRow} (hr : w.endpoints.findByAgentId req.deviceId=some r)
    (hfirst : ∀ row t, w.endpoints.upsertByAgentId pg (upsertOf remoteIp req) w.clock=.ok (row,t) →
      row=none) :
    AgentsKept w.endpoints (registerStep pg w (remoteIp,req)).endpoints := by
  have hsecond (now : Timestamp) (t : EndpointTable) (ht : t=w.endpoints) (w' : World)
      (hw' : w'.endpoints=t) (hclock : w'.clock=now) :
      AgentsKept w.endpoints (Call.exec pg (.upsert (upsertOf remoteIp req)) w').2.endpoints := by
    subst ht
    simp only [Call.exec,hw',hclock]
    cases hupsert : w.endpoints.upsert pg (upsertOf remoteIp req) now with
    | error e =>
      simp only [hw']
      exact .refl _
    | ok result =>
      obtain ⟨row,t⟩ := result
      exact upsert_agentsKept rfl hr hupsert
  rw [registerStep,run_register]
  cases h : w.endpoints.upsertByAgentId pg (upsertOf remoteIp req) w.clock with
  | error _ => exact hsecond w.clock w.endpoints rfl w rfl rfl
  | ok result =>
    obtain ⟨row,t⟩ := result
    obtain rfl := hfirst row t h
    rcases upsertByAgentId_ok h with ⟨_,rfl⟩|⟨_,_,_,_,_,_,_,_,hrow,_⟩
    · exact hsecond (w.clock+1) w.endpoints rfl _ rfl rfl
    · cases hrow

/-- The agent's row takes a MAC that no other row has. -/
theorem step_moves {r : EndpointRow} {mac : MacAddr} {ip : Option String} (hid : req.deviceId≠"")
    (hcast : EndpointTable.cast pg (upsertOf remoteIp req)=.ok (mac,ip))
    (hr : w.endpoints.findByAgentId req.deviceId=some r)
    (hfree : ∀ r' ∈ w.endpoints.rows, r'≠r → r'.macAddress≠mac) :
    AgentsKept w.endpoints (registerStep pg w (remoteIp,req)).endpoints ↔ r.macAddress=mac := by
  have hep : (upsertOf remoteIp req).agentId=some req.deviceId := rfl
  obtain ⟨hmem,hagent⟩ := findByAgentId_eq_some.mp hr
  have hself : w.endpoints.findById r.id=some r := findById_eq_some.mpr ⟨hmem,rfl⟩
  obtain ⟨t,hmoves,hin⟩ := upsertByAgentId_moves w.clock hep hid hcast hr hfree
  have hput : Put w.endpoints t (movedRow mac ip (upsertOf remoteIp req) w.clock r) := by
    rcases upsertByAgentId_ok hmoves with ⟨hrow,_⟩|⟨_,_,_,_,_,_,_,_,hrow,hput⟩
    · cases hrow
    · rw [Option.some.inj hrow]
      exact hput
  have hstep : (registerStep pg w (remoteIp,req)).endpoints=t := by
    rw [registerStep,run_register,hmoves]
  rw [hstep,hput.agentsKept_iff hself]
  constructor
  · intro hkept
    exact (hkept (by simp [hagent])).2.symm
  · intro hmac _
    exact ⟨rfl,hmac.symm⟩

/-- An agent without a row takes the row with its legacy MAC. -/
theorem step_unknown_iff {ip : Option String}
    (hcast : EndpointTable.cast pg (upsertOf remoteIp req)=.ok (legacyMac req.deviceId,ip))
    (hagent : w.endpoints.findByAgentId req.deviceId=none) :
    AgentsKept w.endpoints (registerStep pg w (remoteIp,req)).endpoints ↔
      ∀ r', w.endpoints.findByMac (legacyMac req.deviceId)=some r' → r'.agentId=none := by
  have hep : (upsertOf remoteIp req).agentId=some req.deviceId := rfl
  have hfirst : w.endpoints.upsertByAgentId pg (upsertOf remoteIp req) w.clock=
      .ok (none,w.endpoints) := by
    by_cases hid : req.deviceId=""
    · simp only [upsertByAgentId,hep,hid]
      rfl
    · exact upsertByAgentId_unknown w.clock hep hid hcast hagent
  obtain ⟨row,t,hupsert,hiff⟩ := upsert_agentsKept_iff (w.clock+1) hep hcast hagent
  rw [step_upsert hfirst rfl hupsert,hiff]

/-- An agent with a row keeps its MAC where a row has the legacy MAC: its own, or another that
refuses the move. -/
theorem step_known_iff {r : EndpointRow} {ip : Option String}
    (hcast : EndpointTable.cast pg (upsertOf remoteIp req)=.ok (legacyMac req.deviceId,ip))
    (hagent : w.endpoints.findByAgentId req.deviceId=some r) :
    AgentsKept w.endpoints (registerStep pg w (remoteIp,req)).endpoints ↔
      (req.deviceId≠"" → ∃ r', w.endpoints.findByMac (legacyMac req.deviceId)=some r') := by
  have hep : (upsertOf remoteIp req).agentId=some req.deviceId := rfl
  obtain ⟨hmem,hown⟩ := findByAgentId_eq_some.mp hagent
  by_cases hid : req.deviceId=""
  · refine iff_of_true (step_known hagent ?_) fun hne => absurd hid hne
    intro row t h
    simp only [upsertByAgentId,hep,hid] at h
    cases h
    rfl
  · simp only [ne_eq,hid,not_false_eq_true,true_implies]
    cases hfind : w.endpoints.findByMac (legacyMac req.deviceId) with
    | some r' =>
      refine iff_of_true ?_ ⟨r',rfl⟩
      obtain ⟨hfound,hmac⟩ := findByMac_eq_some.mp hfind
      by_cases hsame : r'=r
      · subst hsame
        refine (step_moves hid hcast hagent ?_).mpr hmac
        intro r'' hr'' hne heq
        exact hne (List.inj_on_of_nodup_map w.endpoints.macs hr'' hmem (heq.trans hmac.symm))
      · apply step_known hagent
        intro row t h
        rw [upsertByAgentId_refused w.clock hep hid hcast hagent
          (findById_eq_some.mp hfound).1 hmac hsame] at h
        cases h
    | none =>
      have hfree : ∀ r' ∈ w.endpoints.rows, r'.macAddress≠legacyMac req.deviceId := by
        intro r' hr'
        simpa using List.find?_eq_none.mp hfind r' hr'
      rw [step_moves hid hcast hagent fun r' hr' _ => hfree r' hr']
      simpa using hfree r hmem

/-- One registration without a usable MAC: exactly the safe ones keep the agents. -/
theorem step_agentsKept_iff (hnone : normalizeMac req.primaryMac=none) :
    AgentsKept w.endpoints (registerStep pg w (remoteIp,req)).endpoints ↔
      LegacySafe pg w (remoteIp,req) := by
  rcases cast_legacy pg remoteIp hnone with ⟨hbad,e,hcast⟩|⟨ip,hcast⟩
  · rw [step_cast_error hcast]
    exact iff_of_true (.refl _) (.inl hbad)
  · have hgood : ¬∃ s, remoteIp=some s ∧ pg.inet s=none := by
      intro given
      obtain ⟨s,hs,hinet⟩ := given
      rcases (cast_ok hcast).2 with ⟨hno,_⟩|⟨s',shown,hs',hshown,_⟩
      · cases hs.symm.trans hno
      · obtain rfl := Option.some.inj (hs.symm.trans hs')
        rw [hinet] at hshown
        cases hshown
    simp only [LegacySafe,or_iff_right hgood]
    cases hagent : w.endpoints.findByAgentId req.deviceId with
    | none =>
      rw [step_unknown_iff hcast hagent]
      simp
    | some r =>
      rw [step_known_iff hcast hagent]
      simp

/-- In a run of registrations without a usable MAC no device loses its agent or its MAC, from one
state to a later one, exactly when every registration is safe in the state that it meets. -/
theorem agents_kept_iff (pg : Postgres) (w : World) (regs : List (Option String × RegisterRequest))
    (hnone : ∀ a ∈ regs, normalizeMac a.2.primaryMac=none) :
    (∀ pre mid post, regs=pre++mid++post → AgentsKept (runs (registerStep pg) w pre).endpoints
      (runs (registerStep pg) w (pre++mid)).endpoints) ↔
        Guarded (registerStep pg) (LegacySafe pg) w regs := by
  rw [guarded_iff]
  constructor
  · intro hkept pre a post hregs
    obtain ⟨remoteIp,req⟩ := a
    have hunusable : normalizeMac req.primaryMac=none := hnone (remoteIp,req) (by simp [hregs])
    have hone := hkept pre [(remoteIp,req)] post (by simp [hregs])
    rw [runs_append] at hone
    exact (step_agentsKept_iff hunusable).mp hone
  · intro hsafe pre mid post hregs
    induction mid using List.reverseRecOn generalizing post with
    | nil =>
      rw [List.append_nil]
      exact .refl _
    | append_singleton mid a ih =>
      obtain ⟨remoteIp,req⟩ := a
      have hunusable : normalizeMac req.primaryMac=none := hnone (remoteIp,req) (by simp [hregs])
      have hbefore := ih ((remoteIp,req)::post) (by simp [hregs])
      have hlast := hsafe (pre++mid) (remoteIp,req) post (by simp [hregs])
      rw [← List.append_assoc,runs_append _ _ (pre++mid)]
      exact hbefore.trans ((step_agentsKept_iff hunusable).mpr hlast)

/-- An agent that reports no MAC. -/
def withoutMac (deviceId : String) : Option String × RegisterRequest :=
  (some "10.0.0.7",⟨deviceId,"pc-7","Linux","1.0",""⟩)

/-- An agent whose id has twelve digits registers twice. -/
theorem agents_kept_uuid :
    let regs := [withoutMac "0f8c7b1e-42aa-4d70",withoutMac "0f8c7b1e-42aa-4d70"]
    let w := runs (registerStep Postgres.plain) (.initial [])
    ∀ pre mid post, regs=pre++mid++post →
      AgentsKept (w pre).endpoints (w (pre++mid)).endpoints := by
  intro regs w
  refine (agents_kept_iff Postgres.plain (.initial []) regs (by decide +kernel)).mpr ⟨?_,?_,trivial⟩
  · right
    constructor
    · intro r hr
      cases hr
    · intro _ r hr
      cases hr
  · right
    have hagent : ((w [withoutMac "0f8c7b1e-42aa-4d70"]).endpoints.findByAgentId
        "0f8c7b1e-42aa-4d70").isSome=true := by decide +kernel
    have hmac : ((w [withoutMac "0f8c7b1e-42aa-4d70"]).endpoints.findByMac
        (legacyMac "0f8c7b1e-42aa-4d70")).isSome=true := by decide +kernel
    constructor
    · intro r _ _
      exact Option.isSome_iff_exists.mp hmac
    · intro hno
      rw [show (w [withoutMac "0f8c7b1e-42aa-4d70"]).endpoints.findByAgentId
        "0f8c7b1e-42aa-4d70"=none from hno] at hagent
      cases hagent

/-- Two ids without twelve digits stand for one address: the second agent takes the device of the
first. -/
theorem short_ids_merge :
    let regs := [withoutMac "agent-7",withoutMac "agent-8"]
    let w := runs (registerStep Postgres.plain) (.initial [])
    (∀ a ∈ regs, normalizeMac a.2.primaryMac=none) ∧
      ((w [withoutMac "agent-7"]).endpoints.findById 1).map (·.agentId)=some (some "agent-7") ∧
      ((w regs).endpoints.findById 1).map (·.agentId)=some (some "agent-8") ∧
      ¬∀ pre mid post, regs=pre++mid++post →
        AgentsKept (w pre).endpoints (w (pre++mid)).endpoints := by
  intro regs w
  have hfirst : ((w [withoutMac "agent-7"]).endpoints.findById 1).map (·.agentId)=
      some (some "agent-7") := by decide +kernel
  have hboth : ((w regs).endpoints.findById 1).map (·.agentId)=some (some "agent-8") := by
    decide +kernel
  refine ⟨by decide +kernel,hfirst,hboth,?_⟩
  intro hkept
  obtain ⟨r,hr,hagent⟩ := Option.map_eq_some_iff.mp hfirst
  obtain ⟨r',hr',hsame,_⟩ := hkept [withoutMac "agent-7"] [withoutMac "agent-8"] [] rfl 1 r hr
    (by simp [hagent])
  have hlast : (w regs).endpoints.findById 1=some r' := hr'
  rw [hlast,Option.map_some,hsame,hagent] at hboth
  exact absurd hboth (by decide)

end AgentService

end NacPlatform
