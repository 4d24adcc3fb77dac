import NacPlatform.PolicyManager.Outcomes
import NacPlatform.Sensor.Arp

namespace NacPlatform

/-- An event of the sensor, with the time that its task has put on it. -/
structure Observation where
  event : Sensor.ArpEvent
  timestamp : Int
  deriving DecidableEq, Repr

/-- The consumer takes up an observation. -/
def observe (pg : Postgres) (rt : Runtime) (w : World) (o : Observation) : World :=
  w.handle pg (Consumer.processEvent rt (Sensor.endpointDetected o.event o.timestamp))

/-- No observation is later. -/
def Newest (observations : List Observation) (o : Observation) : Prop :=
  o ∈ observations ∧ ∀ o' ∈ observations, o'.timestamp ≤ o.timestamp

/-- The device is stored, with the address. -/
def StoredAt (w : World) (mac : MacAddr) (ip : Ipv4Addr) : Prop :=
  ∃ r, w.endpoints.findByMac mac=some r ∧ r.ipAddress.map stripCidr=some ip.text

section LastObserved

variable {pg : Postgres} {rt : Runtime} {w w' : World} {mac : MacAddr} {ip : Ipv4Addr}

theorem StoredAt.unique {ip' : Ipv4Addr} (h : StoredAt w mac ip) (h' : StoredAt w mac ip') :
    ip=ip' := by
  obtain ⟨r,hr,hip⟩ := h
  obtain ⟨r',hr',hip'⟩ := h'
  rw [hr] at hr'
  cases hr'
  exact Ipv4Addr.text_injective (Option.some.inj (hip.symm.trans hip'))

theorem StoredAt.of_put {t : EndpointTable} {row : EndpointRow}
    (hput : EndpointTable.Put w.endpoints t row) (hmac : row.macAddress=mac)
    (hip : row.ipAddress.map stripCidr=some ip.text) (status : Status)
    (h : w'.endpoints=t ∨ w'.endpoints=t.setStatus row.id status) : StoredAt w' mac ip := by
  cases h with
  | inl hsame =>
    refine ⟨row,?_,hip⟩
    rw [hsame,EndpointTable.findByMac_eq_some]
    exact ⟨hput.self,hmac⟩
  | inr hset =>
    refine ⟨{ row with status := status },?_,hip⟩
    rw [hset,EndpointTable.findByMac_eq_some]
    refine ⟨?_,hmac⟩
    rw [EndpointTable.findById_setStatus,hput.self]
    simp

/-- An observation is always stored, whatever the policies and whatever its time. -/
theorem observe_stored (hmac : pg.macaddr (Sensor.formatMac mac)=some mac) (w : World)
    {o : Observation} (hone : o.event.macAddress=Sensor.formatMac mac) :
    StoredAt (observe pg rt w o) mac o.event.ipAddress := by
  have hcast : EndpointTable.cast pg (Consumer.upsertOf (Sensor.endpointDetected o.event o.timestamp))=
      .ok (mac,some (o.event.ipAddress.text++"/32")) := by
    apply EndpointTable.cast_some
    · change pg.macaddr o.event.macAddress=some mac
      rw [hone,hmac]
    · exact Consumer.upsertOf_address rfl
    · exact pg.inet_text _
  cases Consumer.processEvent_outcome pg rt (Sensor.endpointDetected o.event o.timestamp) w with
  | inl hrefused =>
    obtain ⟨⟨e,he⟩,_⟩ := hrefused
    obtain ⟨row,t,hok⟩ := @EndpointTable.upsert_accepts w.endpoints pg _ mac _ w.clock hcast rfl
    rw [hok] at he
    cases he
  | inr hstored =>
    obtain ⟨row,t,w₁,hput,hout,heffect⟩ := hstored
    obtain ⟨mac',given,hcast',hput',hrow⟩ := EndpointTable.upsert_ok hput
    rw [hcast] at hcast'
    cases hcast'
    have hshown : (some (o.event.ipAddress.text++"/32")).map stripCidr=
        some o.event.ipAddress.text := by
      rw [Option.map_some,stripCidr_shown]
    have hrow' : row.macAddress=mac ∧ row.ipAddress.map stripCidr=some o.event.ipAddress.text := by
      cases hrow with
      | inl hmerged =>
        obtain ⟨r,hr,rfl⟩ := hmerged
        exact ⟨(EndpointTable.findByMac_eq_some.mp hr).2,hshown⟩
      | inr hnew =>
        obtain ⟨_,rfl⟩ := hnew
        exact ⟨rfl,hshown⟩
    have hend : ∃ status, (observe pg rt w o).endpoints=t ∨
        (observe pg rt w o).endpoints=t.setStatus row.id status := by
      unfold observe
      cases hout with
      | unevaluated _ heff => exact ⟨.pending,.inl (heff.endpoints.trans heffect.endpoints)⟩
      | kept _ _ _ heff => exact ⟨.pending,.inl (heff.endpoints.trans heffect.endpoints)⟩
      | changed _ _ _ _ heff =>
        rw [heffect.endpoints] at heff
        exact ⟨_,.inr heff.endpoints⟩
    obtain ⟨status,hend⟩ := hend
    exact StoredAt.of_put hput' hrow'.1 hrow'.2 status hend

/-- In whatever order the observations of a device are consumed, it ends with the address of the
one consumed last; so it ends with a newest address exactly if that one carries it. -/
theorem last_consumed_wins {pg : Postgres} {rt : Runtime} {mac : MacAddr}
    (hmac : pg.macaddr (Sensor.formatMac mac)=some mac) {observations : List Observation}
    (hone : ∀ o ∈ observations, o.event.macAddress=Sensor.formatMac mac)
    (earlier : List Observation) (last : Observation)
    (horder : (earlier++[last]).Perm observations) (w : World) :
    StoredAt (runs (observe pg rt) w (earlier++[last])) mac last.event.ipAddress ∧
      ((∃ o, Newest observations o ∧
          StoredAt (runs (observe pg rt) w (earlier++[last])) mac o.event.ipAddress) ↔
        ∃ o, Newest observations o ∧ o.event.ipAddress=last.event.ipAddress) := by
  have hlast : last ∈ observations := horder.mem_iff.mp (by simp)
  have hstored : StoredAt (runs (observe pg rt) w (earlier++[last])) mac last.event.ipAddress := by
    rw [runs_append,runs_cons,runs_nil]
    exact observe_stored hmac _ (hone last hlast)
  refine ⟨hstored,?_⟩
  constructor
  · intro h
    obtain ⟨o,hnewest,ho⟩ := h
    exact ⟨o,hnewest,ho.unique hstored⟩
  · intro h
    obtain ⟨o,hnewest,ho⟩ := h
    exact ⟨o,hnewest,by rw [ho]; exact hstored⟩

end LastObserved

def movedDevice : MacAddr := ⟨0xaa,0xbb,0xcc,0xdd,0xee,0x01⟩

/-- The device seen at an address. -/
def seenAt (ip : Ipv4Addr) (timestamp : Int) : Observation :=
  ⟨⟨Sensor.formatMac movedDevice,ip,"eth0",false⟩,timestamp⟩

theorem last_consumed_wins_run :
    ∃ o, Newest [seenAt ⟨10,0,0,9⟩ 2,seenAt ⟨10,0,0,7⟩ 1] o ∧
      StoredAt (runs (observe Postgres.plain Runtime.ascii) (World.initial [])
        ([seenAt ⟨10,0,0,7⟩ 1]++[seenAt ⟨10,0,0,9⟩ 2])) movedDevice o.event.ipAddress := by
  have hmac : Postgres.plain.macaddr (Sensor.formatMac movedDevice)=some movedDevice := by
    decide +kernel
  have hnewest : Newest [seenAt ⟨10,0,0,9⟩ 2,seenAt ⟨10,0,0,7⟩ 1] (seenAt ⟨10,0,0,9⟩ 2) := by
    simp [Newest,seenAt]
  have hone : ∀ o ∈ [seenAt ⟨10,0,0,9⟩ 2,seenAt ⟨10,0,0,7⟩ 1],
      o.event.macAddress=Sensor.formatMac movedDevice := by
    simp [seenAt]
  have hwins := @last_consumed_wins Postgres.plain Runtime.ascii movedDevice hmac _ hone
    [seenAt ⟨10,0,0,7⟩ 1] (seenAt ⟨10,0,0,9⟩ 2) (List.Perm.swap _ _ _) (World.initial [])
  exact hwins.2.mpr ⟨seenAt ⟨10,0,0,9⟩ 2,hnewest,rfl⟩

/-- The older observation is delivered late, and its address stays. -/
theorem older_observation_wins :
    ¬ ∃ o, Newest [seenAt ⟨10,0,0,7⟩ 1,seenAt ⟨10,0,0,9⟩ 2] o ∧
      StoredAt (runs (observe Postgres.plain Runtime.ascii) (World.initial [])
        [seenAt ⟨10,0,0,9⟩ 2,seenAt ⟨10,0,0,7⟩ 1]) movedDevice o.event.ipAddress := by
  intro h
  obtain ⟨o,⟨hmem,hmax⟩,r,hr,hip⟩ := h
  have hnew : o.event.ipAddress=⟨10,0,0,9⟩ := by
    cases hmem with
    | head =>
      have hle : (2 : Int) ≤ 1 := hmax (seenAt ⟨10,0,0,9⟩ 2) (by simp)
      omega
    | tail _ hmem =>
      obtain rfl := List.mem_singleton.mp hmem
      rfl
  have hend : ((runs (observe Postgres.plain Runtime.ascii) (World.initial [])
      [seenAt ⟨10,0,0,9⟩ 2,seenAt ⟨10,0,0,7⟩ 1]).endpoints.findByMac movedDevice).map
        (fun r => r.ipAddress.map stripCidr)=some (some "10.0.0.7") := by
    decide +kernel
  rw [hr,Option.map_some,hip,hnew] at hend
  revert hend
  decide +kernel

end NacPlatform
