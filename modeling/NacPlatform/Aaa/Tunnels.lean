import NacPlatform.Aaa.RadiusServer

namespace NacPlatform.Radius

/-- What a switch takes from an answer: the values of the three kinds of tunnel attributes. -/
structure Tunnels where
  types : List Nat
  mediums : List Nat
  groups : List (List UInt8)
  deriving DecidableEq, Repr

/-- RFC 2868: a tag, and a number of three bytes. A value of another size is ignored. -/
def taggedNumber : List UInt8 → Option Nat
  | [_,a,b,c] => some (65536*a.toNat+256*b.toNat+c.toNat)
  | _ => none

/-- RFC 2868: a first byte of at most 31 is a tag, a larger one belongs to the text. -/
def taggedText : List UInt8 → List UInt8
  | [] => []
  | tag::text => if tag ≤ 0x1F then text else tag::text

def valuesOf (attrType : UInt8) (attributes : List RadiusAttribute) : List (List UInt8) :=
  (attributes.filter fun a => a.attrType==attrType).map RadiusAttribute.value

def tunnelsOf (attributes : List RadiusAttribute) : Tunnels where
  types := (valuesOf 64 attributes).filterMap taggedNumber
  mediums := (valuesOf 65 attributes).filterMap taggedNumber
  groups := (valuesOf 81 attributes).map taggedText

def decodeTunnels (bytes : List UInt8) : Option Tunnels :=
  match parse bytes with
  | .ok p => some (tunnelsOf p.attributes)
  | .error _ => none

/-- What a switch has to find of a VLAN: type 13, medium 6 and the number in decimal. -/
def Tunnels.ofVlan : Option UInt16 → Tunnels
  | some v => ⟨[13],[6],[asBytes (toString v.toNat)]⟩
  | none => ⟨[],[],[]⟩

def Outcome.assigned (o : Outcome) : Option UInt16 := if o.accept then o.vlan else none

/-- The switch finds in the answer what the handler assigned. -/
def VlanRecovered (md5 : List UInt8 → Vector UInt8 16) (outcome : RadiusPacket → Outcome)
    (secret buf : List UInt8) (pkt : RadiusPacket) : Prop :=
  ∃ bytes, handleAuthPacket md5 outcome secret buf=some bytes ∧
    decodeTunnels bytes=some (.ofVlan (outcome pkt).assigned)

/-- The status of the device that a request is for, where the request names one that is known. -/
def AuthContext.statusOf (ctx : AuthContext) (pkt : RadiusPacket) : Option Status :=
  (normalizeMac (((getText pkt 31).or (getText pkt 1)).getD "")).bind fun mac =>
    match ctx.findByMac mac with
    | .ok status => status
    | .error _ => none

/-- The device is quarantined, or it is allowed and the environment has a VLAN for such devices. -/
def AssignsVlan (ctx : AuthContext) (pkt : RadiusPacket) : Prop :=
  ctx.statusOf pkt=some .quarantined ∨
    (ctx.statusOf pkt=some .allowed ∧ ∃ v, ctx.vlan "RADIUS_ALLOW_VLAN"=some v)

theorem assigned_accessOutcome (md5 : List UInt8 → Vector UInt8 16) (ctx : AuthContext)
    (secret : List UInt8) (pkt : RadiusPacket) :
    (accessOutcome md5 ctx secret pkt).assigned=match ctx.statusOf pkt with
      | some .quarantined => some ((ctx.vlan "RADIUS_QUARANTINE_VLAN").getD 99)
      | some .allowed => ctx.vlan "RADIUS_ALLOW_VLAN"
      | _ => none := by
  unfold accessOutcome AuthContext.statusOf
  cases normalizeMac (((getText pkt 31).or (getText pkt 1)).getD "") with
  | none => simp [Outcome.assigned]
  | some mac =>
    simp only [Option.bind_some]
    cases ctx.findByMac mac with
    | error e => simp [Outcome.assigned]
    | ok found =>
      cases found with
      | none => simp [Outcome.assigned]
      | some status => cases status <;> simp [Outcome.assigned]

theorem assigned_eq_none_iff (md5 : List UInt8 → Vector UInt8 16) (ctx : AuthContext)
    (secret : List UInt8) (pkt : RadiusPacket) :
    (accessOutcome md5 ctx secret pkt).assigned=none ↔ ¬ AssignsVlan ctx pkt := by
  rw [assigned_accessOutcome,AssignsVlan]
  cases ctx.statusOf pkt with
  | none => simp
  | some status =>
    cases status <;> simp [Option.eq_none_iff_forall_ne_some]

/-- The attributes that are written for a VLAN hold numbers of four bytes behind the tag: a switch
ignores them and keeps the group. -/
theorem tunnelsOf_response (o : Outcome) (req : RadiusPacket) :
    tunnelsOf (o.response req).attributes=
      ⟨[],[],o.assigned.toList.map fun v => asBytes (toString v.toNat)⟩ := by
  cases haccept : o.accept with
  | false =>
    simp [Outcome.response,buildResponse,Outcome.assigned,tunnelsOf,valuesOf,haccept]
  | true =>
    cases hv : o.vlan with
    | none => simp [Outcome.response,buildResponse,Outcome.assigned,tunnelsOf,valuesOf,haccept,hv]
    | some v =>
      simp [Outcome.response,buildResponse,Outcome.assigned,tunnelsOf,valuesOf,vlanAttributes,
        taggedNumber,taggedText,haccept,hv]

theorem decodeTunnels_reply (md5 : List UInt8 → Vector UInt8 16)
    (outcome : RadiusPacket → Outcome) (secret : List UInt8) {buf : List UInt8}
    {pkt : RadiusPacket} (h : parse buf=.ok pkt) (hcode : pkt.code=1) :
    ∃ bytes, handleAuthPacket md5 outcome secret buf=some bytes ∧ decodeTunnels bytes=
      some ⟨[],[],(outcome pkt).assigned.toList.map fun v => asBytes (toString v.toNat)⟩ := by
  obtain ⟨auth,_,hsent,hback⟩ := handleAuthPacket_reply md5 outcome secret h hcode
  refine ⟨_,hsent,?_⟩
  simp only [decodeTunnels,hback]
  rw [tunnelsOf_response]

/-- A switch finds the VLAN of no device: the answer says what was decided exactly when no VLAN was
assigned. -/
theorem vlan_recovered_iff (md5 : List UInt8 → Vector UInt8 16) (ctx : AuthContext)
    (secret buf : List UInt8) (pkt : RadiusPacket) (h : parse buf=.ok pkt) (hcode : pkt.code=1) :
    VlanRecovered md5 (accessOutcome md5 ctx secret) secret buf pkt ↔ ¬ AssignsVlan ctx pkt := by
  obtain ⟨bytes,hsent,hread⟩ :=
    decodeTunnels_reply md5 (accessOutcome md5 ctx secret) secret h hcode
  rw [← assigned_eq_none_iff md5 ctx secret pkt,VlanRecovered]
  simp only [hsent,Option.some.injEq,exists_eq_left',hread]
  cases (accessOutcome md5 ctx secret pkt).assigned with
  | none => simp [Tunnels.ofVlan]
  | some v => simp [Tunnels.ofVlan]

/-- A quarantined device, with the MD5 of what is answered to it. -/
theorem vlan_recovered_iff_quarantined :
    let md5 (_ : List UInt8) : Vector UInt8 16 := #v[205,14,9,56,106,204,201,59,
      62,197,164,149,245,94,224,212]
    let request : RadiusPacket := ⟨1,7,.replicate 16 0,[⟨31,asBytes "aa-bb-cc-dd-ee-ff"⟩]⟩
    let ctx : AuthContext := ⟨fun _ => none,fun _ => .ok (some .quarantined)⟩
    VlanRecovered md5 (accessOutcome md5 ctx [115]) [115] (encode request) request ↔
      ¬ AssignsVlan ctx request := by
  intro md5 request ctx
  have sized : Sized request := by decide
  have hparse := parse_encode sized []
  rw [List.append_nil] at hparse
  exact vlan_recovered_iff md5 ctx [115] (encode request) request hparse rfl

/-- The quarantined device is accepted with VLAN 99, and the switch finds a group id without a
tunnel type or a medium. -/
theorem vlan_not_recovered :
    let md5 (_ : List UInt8) : Vector UInt8 16 := #v[205,14,9,56,106,204,201,59,
      62,197,164,149,245,94,224,212]
    let request : RadiusPacket := ⟨1,7,.replicate 16 0,[⟨31,asBytes "aa-bb-cc-dd-ee-ff"⟩]⟩
    let ctx : AuthContext := ⟨fun _ => none,fun _ => .ok (some .quarantined)⟩
    parse (encode request)=.ok request ∧
      (accessOutcome md5 ctx [115] request).assigned=some 99 ∧
      ¬ VlanRecovered md5 (accessOutcome md5 ctx [115]) [115] (encode request) request := by
  intro md5 request ctx
  have sized : Sized request := by decide
  have hparse := parse_encode sized []
  rw [List.append_nil] at hparse
  have hassigned : (accessOutcome md5 ctx [115] request).assigned=some 99 := by decide
  refine ⟨hparse,hassigned,?_⟩
  intro given
  obtain ⟨bytes,hbytes,hread⟩ := given
  obtain ⟨sent,hsent,hfound⟩ :=
    decodeTunnels_reply md5 (accessOutcome md5 ctx [115]) [115] hparse rfl
  rw [hsent] at hbytes
  cases hbytes
  rw [hfound,hassigned] at hread
  simp [Tunnels.ofVlan] at hread

end NacPlatform.Radius
