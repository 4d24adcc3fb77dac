import NacPlatform.NetProto.Dhcp

namespace NacPlatform.NetProto

/-- `Icmpv6Type::from(u8)`. -/
inductive Icmpv6Type where
  | routerSolicitation
  | routerAdvertisement
  | neighborSolicitation
  | neighborAdvertisement
  | other (n : UInt8)
  deriving DecidableEq, Repr

def Icmpv6Type.ofByte (v : UInt8) : Icmpv6Type :=
  if v=133 then .routerSolicitation
  else if v=134 then .routerAdvertisement
  else if v=135 then .neighborSolicitation
  else if v=136 then .neighborAdvertisement
  else .other v

/-- `std::net::Ipv6Addr`. -/
structure Ipv6Addr where
  octets : Vector UInt8 16
  deriving DecidableEq

structure NdpEntry where
  icmpv6Type : Icmpv6Type
  targetAddr : Ipv6Addr
  linkLayerAddr : Option MacAddr
  deriving DecidableEq

structure NeighborAdvertisement where
  targetAddr : Ipv6Addr
  linkLayerAddr : Option MacAddr
  deriving DecidableEq

section

variable (payload : List UInt8)

/-- A turn of the loop of `parse_ndp`. -/
def ndpTurn (s : Scan (Option MacAddr)) : Except Fault (Scan (Option MacAddr) × Bool) := do
  if !(s.i+2 ≤ payload.length) then return (s,false)
  let optType ← byteAt payload s.i
  let optLen := (← byteAt payload (s.i+1)).toNat*8
  if optLen==0 then return (s,false)
  if s.i+optLen>payload.length then return (s,false)
  if (optType==1 || optType==2) && optLen ≥ 8 then
    let mac ← toMac (← slice payload (s.i+2) (s.i+8))
    return (⟨s.i+optLen,some mac⟩,true)
  return ({ s with i := s.i+optLen },true)

def parseNdp (fuel : Nat) : Except Fault (Except NetProtoError NdpEntry) := do
  if payload.length<24 then return .error (.parse "ICMPv6 payload too short")
  let msgType := Icmpv6Type.ofByte (← byteAt payload 0)
  let target ← toArray 16 (← slice payload 8 24)
  let s ← whileLoop (ndpTurn payload) fuel ⟨24,none⟩
  return .ok ⟨msgType,⟨target⟩,s.found⟩

/-- A turn of the loop of `parse_neighbor_advertisement`. -/
def advertisementTurn (s : Scan (Option MacAddr)) :
    Except Fault (Scan (Option MacAddr) × Bool) := do
  if !(s.i+2 ≤ payload.length) then return (s,false)
  let optType ← byteAt payload s.i
  let optLen := (← byteAt payload (s.i+1)).toNat*8
  if optLen==0 then return (s,false)
  if optType==2 && optLen ≥ 8 && s.i+8 ≤ payload.length then
    let mac ← toMac (← slice payload (s.i+2) (s.i+8))
    return (⟨s.i+optLen,some mac⟩,true)
  return ({ s with i := s.i+optLen },true)

def parseNeighborAdvertisement (fuel : Nat) :
    Except Fault (Except NetProtoError NeighborAdvertisement) := do
  if payload.length<24 then return .error (.parse "ICMPv6 NA payload too short")
  if (← byteAt payload 0) != 136 then
    return .error (.parse "not an ICMPv6 Neighbor Advertisement")
  let target ← toArray 16 (← slice payload 8 24)
  let s ← whileLoop (advertisementTurn payload) fuel ⟨24,none⟩
  return .ok ⟨⟨target⟩,s.found⟩

end

/-! Both loops go through the options of one area; they differ in the types they look at and in
what they make of an option that is cut off. -/

/-- An option of a neighbor message, with the address its first bytes show. -/
structure NdpOption where
  optType : UInt8
  address : MacAddr
  deriving DecidableEq, Repr

/-- The whole options of an area, and an option that is cut off behind the place of an address. An
option of length 0 ends the reading. -/
def ndpOptions : List UInt8 → List NdpOption × Option NdpOption
  | t::l::a::b::c::d::e::f::rest =>
    if l=0 then ([],none)
    else if rest.length+8<l.toNat*8 then ([],some ⟨t,⟨a,b,c,d,e,f⟩⟩)
    else
      let tail := ndpOptions (rest.drop (l.toNat*8-8))
      (⟨t,⟨a,b,c,d,e,f⟩⟩::tail.1,tail.2)
  | _ => ([],none)
termination_by area => area.length
decreasing_by
  simp only [List.length_drop,List.length_cons]
  omega

theorem ndpOptions_short {area : List UInt8} (h : area.length<8) : ndpOptions area=([],none) := by
  rw [ndpOptions.eq_def]
  split
  · simp only [List.length_cons] at h
    omega
  · rfl

theorem ndpOptions_zero (t : UInt8) (rest : List UInt8) : ndpOptions (t::0::rest)=([],none) := by
  rw [ndpOptions.eq_def]
  split
  · rename_i heq
    obtain ⟨_,rfl,_⟩ := List.cons_eq_cons.mp heq |>.imp_right List.cons_eq_cons.mp
    rfl
  · rfl

section

variable {t l a b c d e f : UInt8} {rest : List UInt8} (hl : l≠0)

include hl

theorem ndpOptions_cut (h : rest.length+8<l.toNat*8) :
    ndpOptions (t::l::a::b::c::d::e::f::rest)=([],some ⟨t,⟨a,b,c,d,e,f⟩⟩) := by
  rw [ndpOptions,if_neg hl,if_pos h]

theorem ndpOptions_whole (h : l.toNat*8 ≤ rest.length+8) :
    ndpOptions (t::l::a::b::c::d::e::f::rest)=
      (⟨t,⟨a,b,c,d,e,f⟩⟩::(ndpOptions (rest.drop (l.toNat*8-8))).1,
        (ndpOptions (rest.drop (l.toNat*8-8))).2) := by
  rw [ndpOptions,if_neg hl,if_neg (by omega)]

end

def NdpOption.isLink (o : NdpOption) : Bool := o.optType==1 || o.optType==2

def NdpOption.isTarget (o : NdpOption) : Bool := o.optType==2

/-- An option that counts gives its address, any other leaves what was found. -/
def noteAddress (counts : NdpOption → Bool) (found : Option MacAddr) (o : NdpOption) :
    Option MacAddr :=
  if counts o then some o.address else found

/-- What is to come out of `parse_ndp`'s loop. -/
def ndpResult (payload : List UInt8) (s : Scan (Option MacAddr)) : Option MacAddr :=
  (ndpOptions (payload.drop s.i)).1.foldl (noteAddress NdpOption.isLink) s.found

/-- What is to come out of the other loop, which takes a cut-off option as well. -/
def advertisementResult (payload : List UInt8) (s : Scan (Option MacAddr)) : Option MacAddr :=
  let options := ndpOptions (payload.drop s.i)
  (options.1++options.2.toList).foldl (noteAddress NdpOption.isTarget) s.found

theorem toNat_pos {l : UInt8} (h : l≠0) : 0<l.toNat :=
  Nat.pos_of_ne_zero fun h0 => h (UInt8.toNat_inj.mp h0)

/-- No whole option is read from bytes that are fewer than the first one says. -/
theorem ndpOptions_beyond {t l : UInt8} {rest : List UInt8} (hl : l≠0)
    (h : rest.length+2<l.toNat*8) : (ndpOptions (t::l::rest)).1=[] := by
  match rest with
  | a::b::c::d::e::f::rest =>
    simp only [List.length_cons] at h
    rw [ndpOptions_cut hl (by omega)]
  | [] | [_] | [_,_] | [_,_,_] | [_,_,_,_] | [_,_,_,_,_] => rw [ndpOptions_short (by simp)]

/-- Behind an option stands what its length leaves of the bytes behind its address. -/
theorem drop_option {payload rest : List UInt8} {i : Nat} {t l a b c d e f : UInt8}
    (h : payload.drop i=t::l::a::b::c::d::e::f::rest) (hpos : 0<l.toNat) :
    payload.drop (i+l.toNat*8)=rest.drop (l.toNat*8-8) := by
  have hsplit : i+l.toNat*8=i+8+(l.toNat*8-8) := by omega
  have height : payload.drop (i+8)=rest := by
    rw [← List.drop_drop,h]
    rfl
  rw [hsplit,← List.drop_drop,height]

theorem ndpTurn_turns (payload : List UInt8) (s : Scan (Option MacAddr)) :
    Turns (fun _ => True) (fun s => payload.length-s.i) (ndpResult payload) Scan.found s
      (ndpTurn payload s) := by
  have stops {area : List UInt8} (hd : payload.drop s.i=area) (hnone : (ndpOptions area).1=[]) :
      s.found=ndpResult payload s := by
    rw [ndpResult,hd,hnone]
    rfl
  unfold ndpTurn
  match hd : payload.drop s.i with
  | [] | [_] =>
    have hin : ¬ s.i+2 ≤ payload.length := no_room_of_drop hd (by simp)
    simp only [hin,decide_false,Bool.not_false,if_true]
    exact .stop (stops hd (by rw [ndpOptions_short (by simp)]))
  | t::l::rest =>
    obtain ⟨hnext,_⟩ := drop_next hd
    obtain ⟨hdata,hlen⟩ := drop_next hnext
    have hin : s.i+2 ≤ payload.length := by omega
    simp only [hin,decide_true,Bool.not_true,Bool.false_eq_true,if_false,byteAt_of_drop hd,
      byteAt_of_drop hnext,ok_bind,beq_iff_eq]
    by_cases hl : l=0
    · rw [if_pos (by rw [hl]; rfl)]
      exact .stop (stops hd (by rw [hl,ndpOptions_zero]))
    have hpos : 0<l.toNat := toNat_pos hl
    rw [if_neg (by omega)]
    by_cases hbeyond : rest.length+2<l.toNat*8
    · rw [if_pos (by omega)]
      exact .stop (stops hd (ndpOptions_beyond hl hbeyond))
    rw [if_neg (by omega)]
    match rest,hdata with
    | [],_ | [_],_ | [_,_],_ | [_,_,_],_ | [_,_,_,_],_ | [_,_,_,_,_],_ => simp at hbeyond; omega
    | a::b::c::d::e::f::rest,hdata =>
      simp only [List.length_cons] at hbeyond hlen
      have hdrop : payload.drop (s.i+l.toNat*8)=rest.drop (l.toNat*8-8) := drop_option hd hpos
      have hread : ndpResult payload s=(ndpOptions (payload.drop (s.i+l.toNat*8))).1.foldl
          (noteAddress NdpOption.isLink)
          (noteAddress NdpOption.isLink s.found ⟨t,⟨a,b,c,d,e,f⟩⟩) := by
        rw [ndpResult,hd,ndpOptions_whole hl (by omega),List.foldl_cons,hdrop]
      by_cases hlink : (t==1 || t==2)=true
      · rw [if_pos (by simp only [hlink,Bool.true_and,decide_eq_true_eq]; omega)]
        obtain ⟨bytes,hslice,hmac⟩ := toMac_slice_of_drop hdata
        rw [hslice,ok_bind,hmac,ok_bind]
        refine .again trivial (by dsimp only; omega) ?_
        rw [hread,noteAddress,NdpOption.isLink,if_pos hlink,ndpResult]
      · rw [if_neg (by simp [hlink])]
        refine .again trivial (by dsimp only; omega) ?_
        rw [hread,noteAddress,NdpOption.isLink,if_neg hlink,ndpResult]

theorem advertisementTurn_turns (payload : List UInt8) (s : Scan (Option MacAddr)) :
    Turns (fun _ => True) (fun s => payload.length-s.i) (advertisementResult payload) Scan.found s
      (advertisementTurn payload s) := by
  have stops {area : List UInt8} (hd : payload.drop s.i=area)
      (hnone : ndpOptions area=([],none)) : s.found=advertisementResult payload s := by
    rw [advertisementResult,hd,hnone]
    rfl
  unfold advertisementTurn
  match hd : payload.drop s.i with
  | [] | [_] =>
    have hin : ¬ s.i+2 ≤ payload.length := no_room_of_drop hd (by simp)
    simp only [hin,decide_false,Bool.not_false,if_true]
    exact .stop (stops hd (ndpOptions_short (by simp)))
  | t::l::rest =>
    obtain ⟨hnext,_⟩ := drop_next hd
    obtain ⟨hdata,hlen⟩ := drop_next hnext
    have hin : s.i+2 ≤ payload.length := by omega
    simp only [hin,decide_true,Bool.not_true,Bool.false_eq_true,if_false,byteAt_of_drop hd,
      byteAt_of_drop hnext,ok_bind,beq_iff_eq]
    by_cases hl : l=0
    · rw [if_pos (by rw [hl]; rfl)]
      exact .stop (stops hd (by rw [hl,ndpOptions_zero]))
    have hpos : 0<l.toNat := toNat_pos hl
    rw [if_neg (by omega)]
    have hend (hbeyond : rest.length+2<l.toNat*8) (found : Option MacAddr) :
        advertisementResult payload ⟨s.i+l.toNat*8,found⟩=found := by
      rw [advertisementResult,List.drop_of_length_le (by dsimp only; omega),
        ndpOptions_short (by decide)]
      rfl
    match rest,hdata with
    | [],_ | [_],_ | [_,_],_ | [_,_,_],_ | [_,_,_,_],_ | [_,_,_,_,_],_ =>
      simp only [List.length_cons,List.length_nil] at hlen hend
      have hno : ¬ s.i+8 ≤ payload.length := by omega
      rw [if_neg (by simp [hno])]
      refine .again trivial (by dsimp only; omega) ((hend (by omega) _).trans ?_)
      exact stops hd (ndpOptions_short (by simp))
    | a::b::c::d::e::f::rest,hdata =>
      simp only [List.length_cons] at hlen hend
      have hread : advertisementResult payload ⟨s.i+l.toNat*8,
          noteAddress NdpOption.isTarget s.found ⟨t,⟨a,b,c,d,e,f⟩⟩⟩=
            advertisementResult payload s := by
        by_cases hbeyond : rest.length+8<l.toNat*8
        · rw [hend (by omega),advertisementResult,hd,ndpOptions_cut hl hbeyond]
          rfl
        · rw [advertisementResult,advertisementResult,hd,ndpOptions_whole hl (by omega),
            drop_option hd hpos]
          rfl
      by_cases ht : t=2
      · have hyes : (t==2 && decide (l.toNat*8 ≥ 8) && decide (s.i+8 ≤ payload.length))=true := by
          simp only [ht,beq_self_eq_true,Bool.true_and,Bool.and_eq_true,decide_eq_true_eq]
          omega
        obtain ⟨bytes,hslice,hmac⟩ := toMac_slice_of_drop hdata
        rw [if_pos hyes,hslice,ok_bind,hmac,ok_bind]
        rw [noteAddress,NdpOption.isTarget,if_pos (by simpa using ht)] at hread
        exact .again trivial (by dsimp only; omega) hread
      · rw [if_neg (by simp [ht])]
        rw [noteAddress,NdpOption.isTarget,if_neg (by simpa using ht)] at hread
        exact .again trivial (by dsimp only; omega) hread

/-- The last option that counts. -/
def lastOf (counts : NdpOption → Bool) (opts : List NdpOption) : Option NdpOption :=
  (opts.filter counts).getLast?

theorem foldl_noteAddress (counts : NdpOption → Bool) (opts : List NdpOption) :
    opts.foldl (noteAddress counts) none=(lastOf counts opts).map NdpOption.address := by
  have hstep (found : Option MacAddr) (o : NdpOption) : id (noteAddress counts found o)=
      if counts o=true then some o.address else id found := rfl
  exact (Options.foldl_last hstep none opts).trans (getD_map_some _ _)

theorem lastOf_append (counts : NdpOption → Bool) (opts : List NdpOption)
    (cut : Option NdpOption) :
    lastOf counts (opts++cut.toList)=(cut.filter counts).or (lastOf counts opts) := by
  unfold lastOf
  cases cut with
  | none => simp
  | some o =>
    rw [List.filter_append,Option.toList_some]
    by_cases h : counts o=true
    · simp [h,Option.filter]
    · simp [h,Option.filter]

/-- An area whose last link-layer option is a target option has this one as its last target. -/
theorem lastOf_target {opts : List NdpOption} {o : NdpOption}
    (h : lastOf NdpOption.isLink opts=some o) (ht : o.isTarget=true) :
    lastOf NdpOption.isTarget opts=some o := by
  unfold lastOf at h ⊢
  have hsub : opts.filter NdpOption.isTarget=
      (opts.filter NdpOption.isLink).filter NdpOption.isTarget := by
    rw [List.filter_filter]
    congr 1
    funext p
    by_cases hp : p.optType=2 <;> simp [NdpOption.isTarget,NdpOption.isLink,hp]
  obtain ⟨init,hinit⟩ := List.getLast?_eq_some_iff.mp h
  rw [hsub,hinit,List.filter_append]
  simp [ht]

theorem lastOf_link_none {opts : List NdpOption} (h : lastOf NdpOption.isLink opts=none) :
    lastOf NdpOption.isTarget opts=none := by
  unfold lastOf at h ⊢
  rw [List.getLast?_eq_none_iff,List.filter_eq_nil_iff] at h ⊢
  intro o ho ht
  exact h o ho (by rw [NdpOption.isLink]; rw [NdpOption.isTarget] at ht; rw [ht,Bool.or_true])

theorem lastOf_link_type {opts : List NdpOption} {o : NdpOption}
    (h : lastOf NdpOption.isLink opts=some o) : o.optType=1 ∨ o.isTarget=true := by
  have hmem := List.mem_filter.mp (List.mem_of_getLast? h)
  simpa [NdpOption.isLink,NdpOption.isTarget] using hmem.2

/-- What makes both loops find one address. An option that is cut off shows a target address only
to the second; a source address counts only for the first. -/
def OneAddress (options : List NdpOption × Option NdpOption) : Prop :=
  match options.2.filter NdpOption.isTarget with
  | some cut => ∃ o, lastOf NdpOption.isLink options.1=some o ∧ o.address=cut.address
  | none => ∀ o, lastOf NdpOption.isLink options.1=some o → o.optType=1 →
      ∃ t, lastOf NdpOption.isTarget options.1=some t ∧ t.address=o.address

theorem oneAddress_iff (options : List NdpOption × Option NdpOption) :
    (options.1++options.2.toList).foldl (noteAddress NdpOption.isTarget) none=
        options.1.foldl (noteAddress NdpOption.isLink) none ↔ OneAddress options := by
  rw [foldl_noteAddress,foldl_noteAddress,lastOf_append,OneAddress]
  cases options.2.filter NdpOption.isTarget with
  | some cut =>
    rw [Option.some_or,Option.map_some]
    exact eq_comm.trans Option.map_eq_some_iff
  | none =>
    rw [Option.none_or]
    cases hlast : lastOf NdpOption.isLink options.1 with
    | none => simp [lastOf_link_none hlast]
    | some o =>
      rw [Option.map_some,Option.map_eq_some_iff]
      constructor
      · intro h _ given _
        obtain ⟨rfl⟩ := given
        exact h
      · intro h
        obtain hsource|htarget := lastOf_link_type hlast
        · exact h o rfl hsource
        · exact ⟨o,lastOf_target hlast htarget,rfl⟩

theorem toArray_slice {payload : List UInt8} (h : 24 ≤ payload.length) :
    ∃ bytes target, slice payload 8 24=.ok bytes ∧ toArray 16 bytes=.ok target := by
  have hlen : ((payload.drop 8).take (24-8)).length=16 := by
    rw [List.length_take,List.length_drop]
    omega
  exact ⟨_,_,slice_ok (by decide) h,dif_pos hlen⟩

/-- Both parsers read a neighbor advertisement, with one target. -/
theorem parse_neighbor {payload : List UInt8} {fuel : Nat} (hlen : 24 ≤ payload.length)
    (htype : payload.head?=some 136) (hfuel : payload.length<fuel) :
    ∃ target, parseNeighborAdvertisement payload fuel=
        .ok (.ok ⟨⟨target⟩,advertisementResult payload ⟨24,none⟩⟩) ∧
      parseNdp payload fuel=
        .ok (.ok ⟨.neighborAdvertisement,⟨target⟩,ndpResult payload ⟨24,none⟩⟩) := by
  obtain ⟨bytes,target,hslice,harray⟩ := toArray_slice hlen
  obtain ⟨b,hbyte,hhead⟩ := byteAt_head (by omega : 0<payload.length)
  have hb : b=136 := Option.some.inj (hhead.symm.trans htype)
  obtain ⟨s,hloop,hfound⟩ := whileLoop_ends (fun s _ => advertisementTurn_turns payload s)
    (s := ⟨24,none⟩) trivial (by omega : payload.length-24<fuel)
  obtain ⟨s',hloop',hfound'⟩ := whileLoop_ends (fun s _ => ndpTurn_turns payload s)
    (s := ⟨24,none⟩) trivial (by omega : payload.length-24<fuel)
  refine ⟨target,?_,?_⟩
  · unfold parseNeighborAdvertisement
    rw [if_neg (by omega),hbyte,ok_bind,hb,if_neg (by decide),hslice,ok_bind,harray,ok_bind,hloop,
      ok_bind,hfound]
    rfl
  · unfold parseNdp
    rw [if_neg (by omega),hbyte,ok_bind,hb,hslice,ok_bind,harray,ok_bind,hloop',ok_bind,hfound']
    rfl

/-- The legacy alias reads the target that `parseNdp` reads, and the same link-layer address just
for the options that show both of them one address. -/
theorem neighbor_alias_iff {payload : List UInt8} {fuel : Nat} (hlen : 24 ≤ payload.length)
    (htype : payload.head?=some 136) (hfuel : payload.length<fuel) :
    ∃ na entry, parseNeighborAdvertisement payload fuel=.ok (.ok na) ∧
      parseNdp payload fuel=.ok (.ok entry) ∧
      (na.targetAddr=entry.targetAddr ∧ na.linkLayerAddr=entry.linkLayerAddr ↔
        OneAddress (ndpOptions (payload.drop 24))) := by
  obtain ⟨target,hna,hndp⟩ := parse_neighbor hlen htype hfuel
  refine ⟨_,_,hna,hndp,?_⟩
  rw [← oneAddress_iff]
  exact and_iff_right rfl

def advertisementHeader : List UInt8 := 136::List.replicate 23 0

theorem neighbor_alias_bare :
    24 ≤ advertisementHeader.length ∧ advertisementHeader.head?=some 136 ∧
    ∃ na entry, parseNeighborAdvertisement advertisementHeader 25=.ok (.ok na) ∧
      parseNdp advertisementHeader 25=.ok (.ok entry) ∧
      (na.targetAddr=entry.targetAddr ∧ na.linkLayerAddr=entry.linkLayerAddr ↔
        OneAddress (ndpOptions (advertisementHeader.drop 24))) :=
  ⟨by decide,by decide,neighbor_alias_iff (by decide) (by decide) (by decide)⟩

/-- An address in a source option is seen by `parseNdp` alone; one in an option that is cut off is
seen by the alias alone. -/
theorem neighbor_alias_differs :
    (∃ target, parseNdp (advertisementHeader++[1,1,2,0,0,0,0,5]) 40=
        .ok (.ok ⟨.neighborAdvertisement,target,some ⟨2,0,0,0,0,5⟩⟩) ∧
      parseNeighborAdvertisement (advertisementHeader++[1,1,2,0,0,0,0,5]) 40=
        .ok (.ok ⟨target,none⟩)) ∧
    ∃ target, parseNdp (advertisementHeader++[2,2,2,0,0,0,0,5]) 40=
        .ok (.ok ⟨.neighborAdvertisement,target,none⟩) ∧
      parseNeighborAdvertisement (advertisementHeader++[2,2,2,0,0,0,0,5]) 40=
        .ok (.ok ⟨target,some ⟨2,0,0,0,0,5⟩⟩) :=
  ⟨⟨_,rfl,rfl⟩,_,rfl,rfl⟩

end NacPlatform.NetProto
