import NacPlatform.Framework.Address
import NacPlatform.Framework.Options
import NacPlatform.Framework.Scanning
import NacPlatform.Framework.Utf8

namespace NacPlatform.NetProto

inductive NetProtoError where
  | parse (message : String)
  deriving DecidableEq, Repr

structure DhcpBinding where
  clientMac : MacAddr
  offeredIp : Ipv4Addr
  leaseSecs : UInt32
  deriving DecidableEq, Repr

structure DhcpClientPacket where
  clientMac : MacAddr
  msgType : UInt8
  hostname : Option String
  parameterRequestList : Option (List UInt8)
  vendorClass : Option String
  deriving DecidableEq, Repr

/-- `[u8; 6]::copy_from_slice`. -/
def toMac : List UInt8 → Except Fault MacAddr
  | [a,b,c,d,e,f] => .ok ⟨a,b,c,d,e,f⟩
  | _ => .error .outOfBounds

/-- `u32::from_be_bytes`. -/
def fromBeBytes (a b c d : UInt8) : UInt32 :=
  .ofNat (a.toNat*2^24+b.toNat*2^16+c.toNat*2^8+d.toNat)

/-- `String::from_utf8(bytes).ok()`. -/
def fromUtf8 (bytes : List UInt8) : Option String := (Utf8.decode bytes).map String.ofList

/-- Where a loop over the options stands. -/
structure Scan (α : Type) where
  i : Nat
  found : α

section

variable (payload : List UInt8)

/-- A turn of the loop of `parse_dhcp_binding`; what it looks for is the lease time. -/
def bindingTurn (s : Scan UInt32) : Except Fault (Scan UInt32 × Bool) := do
  if !(s.i+1<payload.length) then return (s,false)
  let code ← byteAt payload s.i
  if code==255 then return (s,false)
  if code==0 then return ({ s with i := s.i+1 },true)
  let len := (← byteAt payload (s.i+1)).toNat
  if code==51 && len==4 && s.i+2+len ≤ payload.length then
    let leaseSecs := fromBeBytes (← byteAt payload (s.i+2)) (← byteAt payload (s.i+3))
      (← byteAt payload (s.i+4)) (← byteAt payload (s.i+5))
    return (⟨s.i+2+len,leaseSecs⟩,true)
  return ({ s with i := s.i+2+len },true)

def parseDhcpBinding (fuel : Nat) : Except Fault (Except NetProtoError DhcpBinding) := do
  if payload.length<236 then return .error (.parse "DHCPv4 payload too short")
  let op ← byteAt payload 0
  if op != 2 then return .error (.parse "not a DHCP reply (op != 2)")
  let mac ← toMac (← slice payload 28 34)
  let yiaddr : Ipv4Addr := ⟨← byteAt payload 16,← byteAt payload 17,← byteAt payload 18,
    ← byteAt payload 19⟩
  let s ← whileLoop (bindingTurn payload) fuel ⟨236+4,86400⟩
  return .ok ⟨mac,yiaddr,s.found⟩

/-- The `match` on the code of an option. -/
def noteOption (pkt : DhcpClientPacket) (code : UInt8) (data : List UInt8) :
    Except Fault DhcpClientPacket := do
  if code==12 then return { pkt with hostname := fromUtf8 data }
  if code==53 && data.length==1 then return { pkt with msgType := ← byteAt data 0 }
  if code==55 then return { pkt with parameterRequestList := some data }
  if code==60 then return { pkt with vendorClass := fromUtf8 data }
  return pkt

/-- A turn of the loop of `parse_dhcp_client`. -/
def clientTurn (s : Scan DhcpClientPacket) : Except Fault (Scan DhcpClientPacket × Bool) := do
  if !(s.i<payload.length) then return (s,false)
  let code ← byteAt payload s.i
  if code==255 then return (s,false)
  if code==0 then return ({ s with i := s.i+1 },true)
  if s.i+1 ≥ payload.length then return (s,false)
  let len := (← byteAt payload (s.i+1)).toNat
  let dataStart := s.i+2
  if dataStart+len>payload.length then return (s,false)
  let data ← slice payload dataStart (dataStart+len)
  return (⟨dataStart+len,← noteOption s.found code data⟩,true)

def parseDhcpClient (fuel : Nat) : Except Fault (Except NetProtoError DhcpClientPacket) := do
  if payload.length<240 then return .error (.parse "DHCP client payload too short")
  if (← byteAt payload 0) != 1 then return .error (.parse "not a DHCP request (op != 1)")
  let mac ← toMac (← slice payload 28 34)
  let s ← whileLoop (clientTurn payload) fuel ⟨240,⟨mac,0,none,none,none⟩⟩
  return .ok s.found

end

/-! Both loops read the options of one area. -/

/-- What an option adds to a client's packet. -/
def DhcpClientPacket.note (pkt : DhcpClientPacket) (o : TlvItem) : DhcpClientPacket :=
  if o.tag==12 then { pkt with hostname := fromUtf8 o.value }
  else if o.tag==53 && o.value.length==1 then { pkt with msgType := o.value.headD 0 }
  else if o.tag==55 then { pkt with parameterRequestList := some o.value }
  else if o.tag==60 then { pkt with vendorClass := fromUtf8 o.value }
  else pkt

theorem noteOption_eq (pkt : DhcpClientPacket) (code : UInt8) (data : List UInt8) :
    noteOption pkt code data=.ok (pkt.note ⟨code,data⟩) := by
  unfold noteOption DhcpClientPacket.note
  by_cases h12 : (code==12)=true
  · simp only [h12,if_true]
    rfl
  by_cases h53 : (code==53 && data.length==1)=true
  · simp only [h12,h53,Bool.false_eq_true,if_false,if_true]
    match data,h53 with
    | [b],_ => rfl
    | [],h53 => simp at h53
    | _::_::_,h53 => simp at h53
  simp only [h12,h53,Bool.false_eq_true,if_false]
  by_cases h55 : (code==55)=true
  · simp only [h55,if_true]
    rfl
  by_cases h60 : (code==60)=true
  · simp only [h55,h60,Bool.false_eq_true,if_false,if_true]
    rfl
  · simp only [h55,h60,Bool.false_eq_true,if_false]
    rfl

/-- What is to come out of a loop at a position: what has been found, and the options from there. -/
def Scan.result {α : Type} (payload : List UInt8) (note : α → TlvItem → α) (s : Scan α) : α :=
  (Options.decode (payload.drop s.i)).foldl note s.found

theorem clientTurn_turns (payload : List UInt8) (s : Scan DhcpClientPacket) :
    Turns (fun _ => True) (fun s => payload.length-s.i)
      (Scan.result payload DhcpClientPacket.note) Scan.found s (clientTurn payload s) := by
  have stops {tail : List UInt8} (hd : payload.drop s.i=tail) (hstop : Options.Stop tail) :
      s.found=s.result payload DhcpClientPacket.note := by
    rw [Scan.result,hd,Options.decode_stop hstop]
    rfl
  unfold clientTurn
  cases hd : payload.drop s.i with
  | nil =>
    have hin : ¬ s.i<payload.length := no_room_of_drop hd (by decide : 0<1)
    simp only [hin,decide_false,Bool.not_false,if_true]
    exact .stop (stops hd .ended)
  | cons code rest =>
    obtain ⟨hnext,hlen⟩ := drop_next hd
    have hin : s.i<payload.length := by omega
    simp only [hin,decide_true,Bool.not_true,Bool.false_eq_true,if_false,byteAt_of_drop hd,
      ok_bind,beq_iff_eq]
    by_cases hend : code=255
    · rw [if_pos hend]
      exact .stop (stops hd (hend ▸ .marked rest))
    rw [if_neg hend]
    by_cases hpad : code=0
    · rw [if_pos hpad]
      refine .again trivial (by dsimp only; omega) ?_
      rw [Scan.result,Scan.result,hd,hpad,Options.decode_pad,hnext]
    rw [if_neg hpad]
    cases rest with
    | nil =>
      rw [if_pos (by rw [hlen]; simp)]
      exact .stop (stops hd (.lone hpad))
    | cons len rest =>
      obtain ⟨hdata,hlen'⟩ := drop_next hnext
      rw [if_neg (by omega),byteAt_of_drop hnext,ok_bind]
      by_cases hbeyond : rest.length<len.toNat
      · rw [if_pos (by omega)]
        exact .stop (stops hd (.beyond hpad hbeyond))
      rw [if_neg (by omega),slice_ok (by omega) (by omega),ok_bind,noteOption_eq,ok_bind]
      refine .again trivial (by dsimp only; omega) ?_
      have hvalue : (payload.drop (s.i+2)).take (s.i+2+len.toNat-(s.i+2))=rest.take len.toNat := by
        rw [hdata]
        congr 1
        omega
      have hrest : payload.drop (s.i+2+len.toNat)=rest.drop len.toNat := by
        rw [← List.drop_drop,hdata]
      rw [Scan.result,Scan.result,hd,Options.decode_item hend hpad (by omega),List.foldl_cons,
        hvalue,hrest]

/-- The lease time of an option of its kind and length. -/
def noteLease (lease : UInt32) (o : TlvItem) : UInt32 :=
  if o.tag==51 && o.value.length==4 then
    fromBeBytes (o.value.getD 0 0) (o.value.getD 1 0) (o.value.getD 2 0) (o.value.getD 3 0)
  else lease

theorem noteLease_other {lease : UInt32} {code : UInt8} {data : List UInt8}
    (h : ¬ (code=51 ∧ data.length=4)) : noteLease lease ⟨code,data⟩=lease := by
  rw [noteLease,if_neg (by simpa using h)]

theorem bindingTurn_turns (payload : List UInt8) (s : Scan UInt32) :
    Turns (fun _ => True) (fun s => payload.length-s.i)
      (Scan.result payload noteLease) Scan.found s (bindingTurn payload s) := by
  have stops {tail : List UInt8} (hd : payload.drop s.i=tail) (hstop : Options.decode tail=[]) :
      s.found=s.result payload noteLease := by
    rw [Scan.result,hd,hstop]
    rfl
  unfold bindingTurn
  match hd : payload.drop s.i with
  | [] =>
    have hin : ¬ s.i+1<payload.length := no_room_of_drop hd (by decide : 0<2)
    simp only [hin,decide_false,Bool.not_false,if_true]
    exact .stop (stops hd Options.decode_nil)
  | [code] =>
    have hin : ¬ s.i+1<payload.length := no_room_of_drop hd (by simp : [code].length<2)
    simp only [hin,decide_false,Bool.not_false,if_true]
    exact .stop (stops hd (Options.decode_lone code))
  | code::len::rest =>
    obtain ⟨hnext,_⟩ := drop_next hd
    obtain ⟨hdata,hlen⟩ := drop_next hnext
    have hin : s.i+1<payload.length := by omega
    simp only [hin,decide_true,Bool.not_true,Bool.false_eq_true,if_false,byteAt_of_drop hd,
      ok_bind,beq_iff_eq]
    by_cases hend : code=255
    · rw [if_pos hend]
      exact .stop (stops hd (hend ▸ Options.decode_end _))
    rw [if_neg hend]
    by_cases hpad : code=0
    · rw [if_pos hpad]
      refine .again trivial (by dsimp only; omega) ?_
      rw [Scan.result,Scan.result,hd,hpad,Options.decode_pad,hnext]
    rw [if_neg hpad,byteAt_of_drop hnext,ok_bind]
    have hrest : payload.drop (s.i+2+len.toNat)=rest.drop len.toNat := by
      rw [← List.drop_drop,hdata]
    by_cases hbeyond : rest.length<len.toNat
    · -- the option runs past the end, and so does the next position
      have hno : ¬ (code==51 && len.toNat==4 &&
          decide (s.i+2+len.toNat ≤ payload.length))=true := by
        simp only [Bool.and_eq_true,decide_eq_true_eq]
        omega
      rw [if_neg hno]
      refine .again trivial (by dsimp only; omega) ?_
      rw [Scan.result,Scan.result,hd,Options.decode_beyond hend hpad hbeyond,hrest,
        List.drop_of_length_le (by omega),Options.decode_nil]
    have hvalue : (rest.take len.toNat).length=len.toNat := by
      rw [List.length_take]
      omega
    have hread (lease : UInt32)
        (hnote : noteLease s.found ⟨code,rest.take len.toNat⟩=lease) :
        (⟨s.i+2+len.toNat,lease⟩ : Scan UInt32).result payload noteLease=
          s.result payload noteLease := by
      rw [Scan.result,Scan.result,hd,Options.decode_item hend hpad (by omega),List.foldl_cons,
        hrest,hnote]
    by_cases hlease : code=51 ∧ len.toNat=4
    · obtain ⟨rfl,hfour⟩ := hlease
      have hyes : ((51 : UInt8)==51 && len.toNat==4 &&
          decide (s.i+2+len.toNat ≤ payload.length))=true := by
        simp only [Bool.and_eq_true,decide_eq_true_eq,beq_iff_eq]
        exact ⟨⟨trivial,hfour⟩,by omega⟩
      rw [if_pos hyes]
      obtain ⟨a,b,c,d,more,hmore,ha,hb,hc,hdd⟩ :=
        byteAt_four (by omega : s.i+2+4 ≤ payload.length)
      obtain rfl := hdata.symm.trans hmore
      rw [ha,hb,hc,hdd]
      simp only [ok_bind]
      refine .again trivial (by dsimp only; omega) (hread _ ?_)
      rw [hfour]
      rfl
    · have hno : ¬ (code==51 && len.toNat==4 &&
          decide (s.i+2+len.toNat ≤ payload.length))=true := by
        simp only [Bool.and_eq_true,beq_iff_eq,decide_eq_true_eq]
        exact fun h => hlease h.1
      rw [if_neg hno]
      refine .again trivial (by dsimp only; omega) (hread _ (noteLease_other ?_))
      rwa [hvalue]

/-- The value of the last option that counts. -/
def lastValue (counts : TlvItem → Bool) (opts : List TlvItem) : Option (List UInt8) :=
  ((opts.filter counts).getLast?).map TlvItem.value

/-- What a client says of itself with its options. -/
def packetOf (mac : MacAddr) (opts : List TlvItem) : DhcpClientPacket where
  clientMac := mac
  msgType := ((lastValue (fun o => o.tag==53 && o.value.length==1) opts).map (·.headD 0)).getD 0
  hostname := (lastValue (·.tag==12) opts).bind fromUtf8
  parameterRequestList := lastValue (·.tag==55) opts
  vendorClass := (lastValue (·.tag==60) opts).bind fromUtf8

/-- How long a server lends an address: a day when it does not say. -/
def leaseOf (opts : List TlvItem) : UInt32 :=
  ((lastValue (fun o => o.tag==51 && o.value.length==4) opts).map fun v =>
    fromBeBytes (v.getD 0 0) (v.getD 1 0) (v.getD 2 0) (v.getD 3 0)).getD 86400

theorem getD_map_bind {α β : Type} (o : Option α) (f : α → Option β) :
    (o.map f).getD none=o.bind f := by
  cases o <;> rfl

theorem getD_map_some {α β : Type} (o : Option α) (f : α → β) :
    (o.map fun a => some (f a)).getD none=o.map f := by
  cases o <;> rfl

theorem foldl_note_mac (opts : List TlvItem) (pkt : DhcpClientPacket) :
    (opts.foldl DhcpClientPacket.note pkt).clientMac=pkt.clientMac := by
  induction opts generalizing pkt with
  | nil => rfl
  | cons o opts ih =>
    rw [List.foldl_cons,ih,DhcpClientPacket.note]
    split_ifs <;> rfl

theorem foldl_note (mac : MacAddr) (opts : List TlvItem) :
    opts.foldl DhcpClientPacket.note ⟨mac,0,none,none,none⟩=packetOf mac opts := by
  have hmsg (pkt : DhcpClientPacket) (o : TlvItem) : (pkt.note o).msgType=
      if (o.tag==53 && o.value.length==1)=true then o.value.headD 0 else pkt.msgType := by
    unfold DhcpClientPacket.note
    split_ifs <;> simp_all
  have hhost (pkt : DhcpClientPacket) (o : TlvItem) : (pkt.note o).hostname=
      if (o.tag==12)=true then fromUtf8 o.value else pkt.hostname := by
    unfold DhcpClientPacket.note
    split_ifs <;> rfl
  have hprl (pkt : DhcpClientPacket) (o : TlvItem) : (pkt.note o).parameterRequestList=
      if (o.tag==55)=true then some o.value else pkt.parameterRequestList := by
    unfold DhcpClientPacket.note
    split_ifs <;> simp_all
  have hvendor (pkt : DhcpClientPacket) (o : TlvItem) : (pkt.note o).vendorClass=
      if (o.tag==60)=true then fromUtf8 o.value else pkt.vendorClass := by
    unfold DhcpClientPacket.note
    split_ifs <;> simp_all
  have hfields (p : DhcpClientPacket) : p=⟨p.clientMac,p.msgType,p.hostname,
      p.parameterRequestList,p.vendorClass⟩ := rfl
  rw [hfields (opts.foldl _ _),foldl_note_mac,Options.foldl_last hmsg,Options.foldl_last hhost,
    Options.foldl_last hprl,Options.foldl_last hvendor]
  simp only [packetOf,lastValue,Option.map_map,← getD_map_bind,getD_map_some]
  rfl

theorem foldl_noteLease (opts : List TlvItem) :
    opts.foldl noteLease 86400=leaseOf opts := by
  have hstep (lease : UInt32) (o : TlvItem) : id (noteLease lease o)=
      if (o.tag==51 && o.value.length==4)=true then
        fromBeBytes (o.value.getD 0 0) (o.value.getD 1 0) (o.value.getD 2 0) (o.value.getD 3 0)
      else id lease := rfl
  have hlast := Options.foldl_last hstep 86400 opts
  rw [leaseOf,lastValue,Option.map_map]
  exact hlast

/-- The six bytes of the field for the client's address. -/
def macOf (payload : List UInt8) : MacAddr :=
  match payload.drop 28 with
  | a::b::c::d::e::f::_ => ⟨a,b,c,d,e,f⟩
  | _ => .zero

/-- The four bytes of the field for the offered address. -/
def yiaddrOf (payload : List UInt8) : Ipv4Addr :=
  match payload.drop 16 with
  | a::b::c::d::_ => ⟨a,b,c,d⟩
  | _ => .unspecified

def clientReading (payload : List UInt8) : Except NetProtoError DhcpClientPacket :=
  if payload.length<240 then .error (.parse "DHCP client payload too short")
  else if payload.head?≠some 1 then .error (.parse "not a DHCP request (op != 1)")
  else .ok (packetOf (macOf payload) (Options.decode (payload.drop 240)))

def bindingReading (payload : List UInt8) : Except NetProtoError DhcpBinding :=
  if payload.length<236 then .error (.parse "DHCPv4 payload too short")
  else if payload.head?≠some 2 then .error (.parse "not a DHCP reply (op != 2)")
  else .ok ⟨macOf payload,yiaddrOf payload,leaseOf (Options.decode (payload.drop 240))⟩

theorem toMac_slice_of_drop {payload rest : List UInt8} {i : Nat} {a b c d e f : UInt8}
    (h : payload.drop (i+2)=a::b::c::d::e::f::rest) :
    ∃ bytes, slice payload (i+2) (i+8)=.ok bytes ∧ toMac bytes=.ok ⟨a,b,c,d,e,f⟩ := by
  have hlen := congrArg List.length h
  simp only [List.length_drop,List.length_cons] at hlen
  refine ⟨_,slice_ok (by omega) (by omega),?_⟩
  have hsix : i+8-(i+2)=6 := by omega
  rw [h,hsix]
  rfl

theorem toMac_slice {payload : List UInt8} (h : 34 ≤ payload.length) :
    ∃ bytes, slice payload 28 34=.ok bytes ∧ toMac bytes=.ok (macOf payload) := by
  have hlen : (payload.drop 28).length=payload.length-28 := List.length_drop
  unfold macOf
  match hd : payload.drop 28,hlen with
  | a::b::c::d::e::f::_,_ => exact toMac_slice_of_drop (i := 26) hd
  | [],hlen | [_],hlen | [_,_],hlen | [_,_,_],hlen | [_,_,_,_],hlen | [_,_,_,_,_],hlen =>
    simp only [List.length_cons,List.length_nil] at hlen
    omega

/-- The first byte of a payload that has one. -/
theorem byteAt_head {payload : List UInt8} (h : 0<payload.length) :
    ∃ b, byteAt payload 0=.ok b ∧ payload.head?=some b := by
  match payload,h with
  | b::_,_ => exact ⟨b,rfl,rfl⟩

theorem parseDhcpClient_eq {payload : List UInt8} {fuel : Nat} (hfuel : payload.length<fuel) :
    parseDhcpClient payload fuel=.ok (clientReading payload) := by
  unfold parseDhcpClient clientReading
  by_cases hshort : payload.length<240
  · rw [if_pos hshort,if_pos hshort]
    rfl
  rw [if_neg hshort,if_neg hshort]
  obtain ⟨op,hbyte,hhead⟩ := byteAt_head (by omega : 0<payload.length)
  rw [hbyte,hhead,ok_bind]
  by_cases hop : op=1
  · obtain ⟨bytes,hslice,hmac⟩ := toMac_slice (by omega : 34 ≤ payload.length)
    obtain ⟨t,hloop,hfound⟩ := whileLoop_ends (fun s _ => clientTurn_turns payload s)
      (s := ⟨240,⟨macOf payload,0,none,none,none⟩⟩) trivial
      (by omega : payload.length-240<fuel)
    rw [if_neg (by simp [hop]),if_neg (by simp [hop]),hslice,ok_bind,hmac,ok_bind,hloop,ok_bind,
      hfound,Scan.result,foldl_note]
    rfl
  · rw [if_pos (by simpa using hop),if_pos (by simpa using hop)]
    rfl

theorem byteAt_yiaddr {payload : List UInt8} (h : 20 ≤ payload.length) :
    ∃ a b c d, byteAt payload 16=.ok a ∧ byteAt payload 17=.ok b ∧ byteAt payload 18=.ok c ∧
      byteAt payload 19=.ok d ∧ yiaddrOf payload=⟨a,b,c,d⟩ := by
  obtain ⟨a,b,c,d,rest,hd,ha,hb,hc,hdd⟩ := byteAt_four (i := 16) h
  refine ⟨a,b,c,d,ha,hb,hc,hdd,?_⟩
  rw [yiaddrOf,hd]

theorem parseDhcpBinding_eq {payload : List UInt8} {fuel : Nat} (hfuel : payload.length<fuel) :
    parseDhcpBinding payload fuel=.ok (bindingReading payload) := by
  unfold parseDhcpBinding bindingReading
  by_cases hshort : payload.length<236
  · rw [if_pos hshort,if_pos hshort]
    rfl
  rw [if_neg hshort,if_neg hshort]
  obtain ⟨op,hbyte,hhead⟩ := byteAt_head (by omega : 0<payload.length)
  rw [hbyte,hhead,ok_bind]
  by_cases hop : op=2
  · obtain ⟨bytes,hslice,hmac⟩ := toMac_slice (by omega : 34 ≤ payload.length)
    obtain ⟨a,b,c,d,ha,hb,hc,hd,hip⟩ := byteAt_yiaddr (by omega : 20 ≤ payload.length)
    obtain ⟨t,hloop,hfound⟩ := whileLoop_ends (fun s _ => bindingTurn_turns payload s)
      (s := ⟨236+4,86400⟩) trivial (by omega : payload.length-(236+4)<fuel)
    rw [if_neg (by simp [hop]),if_neg (by simp [hop]),hslice,ok_bind,hmac,ok_bind,ha,ok_bind,hb,
      ok_bind,hc,ok_bind,hd,ok_bind,hloop,ok_bind,hfound,Scan.result,foldl_noteLease,hip]
    rfl
  · rw [if_pos (by simpa using hop),if_pos (by simpa using hop)]
    rfl

/-- What is written behind a header of 240 bytes is read with it. -/
theorem read_written {header tail : List UInt8} {pieces : List Options.Piece}
    (hheader : header.length=240) (hvalid : ∀ p ∈ pieces, p.Valid) (hstop : Options.Stop tail) :
    let payload := header++(Options.write pieces++tail)
    240 ≤ payload.length ∧ payload.head?=header.head? ∧ macOf payload=macOf header ∧
      yiaddrOf payload=yiaddrOf header ∧
      Options.decode (payload.drop 240)=Options.itemsOf pieces := by
  have hlen (n : Nat) : (header.drop n).length=240-n := by rw [List.length_drop,hheader]
  refine ⟨by rw [List.length_append]; omega,?_,?_,?_,?_⟩
  · exact List.head?_append_of_ne_nil _ fun h => by simp [h] at hheader
  · unfold macOf
    rw [List.drop_append_of_le_length (by omega)]
    match header.drop 28,hlen 28 with
    | a::b::c::d::e::f::_,_ => rfl
    | [],h | [_],h | [_,_],h | [_,_,_],h | [_,_,_,_],h | [_,_,_,_,_],h => simp at h
  · unfold yiaddrOf
    rw [List.drop_append_of_le_length (by omega)]
    match header.drop 16,hlen 16 with
    | a::b::c::d::_,_ => rfl
    | [],h | [_],h | [_,_],h | [_,_,_],h => simp at h
  · rw [List.drop_left' hheader,Options.decode_write hvalid hstop]

/-- Neither scanner faults or runs on for ever on any payload, and both read the one list of
options of its area, whatever is behind the place where the list stops: each field is that of the
last option of its kind. So options that are written are what is read. -/
theorem dhcp_options_read :
    (∀ (payload : List UInt8) (fuel : Nat), payload.length<fuel →
      parseDhcpClient payload fuel=.ok (clientReading payload) ∧
      parseDhcpBinding payload fuel=.ok (bindingReading payload)) ∧
    (∀ area : List UInt8, ∃ pieces tail, (∀ p ∈ pieces, Options.Piece.Valid p) ∧
      Options.Stop tail ∧ area=Options.write pieces++tail) ∧
    ∀ (header tail : List UInt8) (pieces : List Options.Piece) (fuel : Nat),
      header.length=240 → (∀ p ∈ pieces, p.Valid) → Options.Stop tail →
      (header++(Options.write pieces++tail)).length<fuel →
      (header.head?=some 1 → parseDhcpClient (header++(Options.write pieces++tail)) fuel=
        .ok (.ok (packetOf (macOf header) (Options.itemsOf pieces)))) ∧
      (header.head?=some 2 → parseDhcpBinding (header++(Options.write pieces++tail)) fuel=
        .ok (.ok ⟨macOf header,yiaddrOf header,leaseOf (Options.itemsOf pieces)⟩)) := by
  refine ⟨fun payload fuel h => ⟨parseDhcpClient_eq h,parseDhcpBinding_eq h⟩,
    Options.exists_write,?_⟩
  intro header tail pieces fuel hheader hvalid hstop hfuel
  obtain ⟨hlong,hhead,hmac,hip,hopts⟩ := read_written hheader hvalid hstop
  constructor
  · intro hop
    rw [parseDhcpClient_eq hfuel,clientReading,if_neg (by omega),if_neg (by rw [hhead,hop]; simp),
      hmac,hopts]
  · intro hop
    rw [parseDhcpBinding_eq hfuel,bindingReading,if_neg (by omega),
      if_neg (by rw [hhead,hop]; simp),hmac,hip,hopts]

end NacPlatform.NetProto
