import NacPlatform.PolicyManager.IpRuleApi

namespace NacPlatform

/-! The hosts of a subnet, as `GET /network/hosts` walks them. -/

/-- An operation on machine integers whose result they cannot hold. -/
inductive Overflow where
  | subtract
  | shiftLeft
  deriving DecidableEq, Repr

/-- Subtraction of unsigned numbers. -/
def subUnsigned (a b : Nat) : Except Overflow Nat := if b ≤ a then .ok (a-b) else .error .subtract

/-- `1u32 << bits`. -/
def shlU32 (bits : Nat) : Except Overflow Nat := if bits<32 then .ok (2^bits) else .error .shiftLeft

/-- `u8::from_str`. -/
def parseU8 (cs : List Char) : Option UInt8 :=
  (parseU64 cs).bind fun n => if n<256 then some (.ofNat n) else none

structure SubnetRange where
  base : String
  first : UInt8
  last : UInt8
  deriving DecidableEq, Repr

/-- The last host number: the network and its broadcast address do not count. -/
def lastHost (prefixLen : UInt8) : Except Overflow UInt8 := do
  let hostBits ← subUnsigned 32 prefixLen.toNat
  let hosts ← shlU32 hostBits
  let hostCount ← subUnsigned hosts 2
  let last ← subUnsigned (1+hostCount) 1
  return .ofNat (min last 254)

def subnetRange (cidr : String) : Except Overflow (Option SubnetRange) :=
  match splitOnce '/' cidr.toList with
  | none => .ok none
  | some (net,prefixStr) =>
    match parseU8 prefixStr with
    | none => .ok none
    | some prefixLen =>
      match net.splitOnP (· == '.') with
      | [a,b,c,_] => (lastHost prefixLen).map fun last =>
          some ⟨String.ofList (a++ '.'::(b++ '.'::(c++['.']))),1,last⟩
      | _ => .ok none

/-- The addresses that are listed. -/
def SubnetRange.hosts (r : SubnetRange) : List String :=
  (List.range' r.first.toNat (r.last.toNat+1-r.first.toNat)).map fun octet =>
    r.base++toString octet

namespace Cidr

/-- `10.0.0.0/24`: an address and, after a slash, a number up to 32. -/
def ofNotation (s : String) : Option Cidr := if '/' ∈ s.toList then parse s else none

/-- Neither the network's own address nor its broadcast address. -/
structure Usable (c : Cidr) (x : Ipv4Addr) : Prop where
  contains : c.Contains x
  not_network : x.toU32.toNat%2^(32-c.prefixLen)≠0
  not_broadcast : x.toU32.toNat%2^(32-c.prefixLen)≠2^(32-c.prefixLen)-1

/-- The lists of the addresses in a network of at most 256. -/
structure Enumerates (c : Cidr) (r : SubnetRange) : Prop where
  hosts : ∀ ip, ip ∈ r.hosts ↔ ∃ x, c.Usable x ∧ x.text=ip

end Cidr

/-- What is asked of the range of a text: no overflow, none unless the text is a CIDR, and of a
small network exactly the hosts. -/
def RangeCorrect (s : String) : Prop :=
  ∃ r, subnetRange s=.ok r ∧ (Cidr.ofNotation s=none → r=none) ∧
    ∀ c, Cidr.ofNotation s=some c → 24 ≤ c.prefixLen → c.prefixLen ≤ 30 →
      ∃ range, r=some range ∧ c.Enumerates range

/-- A slash is missing, or an eight-bit number behind it, or three dots before it. -/
def Malformed (s : String) : Prop :=
  ∀ net prefixStr, splitOnce '/' s.toList=some (net,prefixStr) →
    parseU8 prefixStr=none ∨ (net.splitOnP (· == '.')).length≠4

/-- A CIDR with 1 to 31 network bits, and with none of them set in the last octet where there are 24
to 30. -/
def Supported (s : String) : Prop :=
  ∃ c, Cidr.ofNotation s=some c ∧ 1 ≤ c.prefixLen ∧ c.prefixLen ≤ 31 ∧
    (24 ≤ c.prefixLen → c.prefixLen ≤ 30 → c.base.d.toNat<2^(32-c.prefixLen))

section Shape

variable {s : String}

theorem subnetRange_of_malformed (h : Malformed s) : subnetRange s=.ok none := by
  unfold subnetRange
  cases hs : splitOnce '/' s.toList with
  | none => rfl
  | some parts =>
    obtain ⟨net,prefixStr⟩ := parts
    simp only []
    rcases h net prefixStr hs with hnumber|hparts
    · rw [hnumber]
    · cases parseU8 prefixStr with
      | none => rfl
      | some prefixLen =>
        simp only []
        split
        · next hfour =>
          rw [hfour] at hparts
          exact absurd rfl hparts
        · rfl

/-- The parts of a text that has them. -/
theorem parts_of_not_malformed (h : ¬Malformed s) :
    ∃ net prefixStr prefixLen a b c d, splitOnce '/' s.toList=some (net,prefixStr) ∧
      parseU8 prefixStr=some prefixLen ∧ net.splitOnP (· == '.')=[a,b,c,d] := by
  simp only [Malformed,not_forall,not_or,not_not] at h
  obtain ⟨net,prefixStr,hs,hnumber,hparts⟩ := h
  obtain ⟨prefixLen,hnumber⟩ := Option.ne_none_iff_exists'.mp hnumber
  obtain ⟨a,b,c,d,hfour⟩ := List.length_eq_four.mp hparts
  exact ⟨net,prefixStr,prefixLen,a,b,c,d,hs,hnumber,hfour⟩

/-- An octet as it is written is a number of eight bits. -/
theorem parseU8_of_parseOctet {cs : List Char} {n : UInt8} (h : Ipv4Addr.parseOctet cs=some n) :
    parseU8 cs=some n := by
  have every : ∀ k : Fin 256, parseU8 (Ipv4Addr.octetText (.ofNat k))=some (.ofNat k) := by
    decide +kernel
  rw [Ipv4Addr.eq_octetText_of_parseOctet h]
  simpa using every ⟨n.toNat,n.toNat_lt⟩

theorem splitOnP_of_parse {t : String} {x : Ipv4Addr} (h : Ipv4Addr.parse t=some x) :
    t.toList.splitOnP (· == '.')=[Ipv4Addr.octetText x.a,Ipv4Addr.octetText x.b,
      Ipv4Addr.octetText x.c,Ipv4Addr.octetText x.d] := by
  unfold Ipv4Addr.parse at h
  split at h
  · next a b c d hsplit =>
    simp only [Option.pure_def,Option.bind_eq_bind,Option.bind_eq_some_iff] at h
    obtain ⟨ra,ha,rb,hb,rc,hc,rd,hd,hx⟩ := h
    obtain rfl := Option.some.inj hx
    rw [hsplit,Ipv4Addr.eq_octetText_of_parseOctet ha,Ipv4Addr.eq_octetText_of_parseOctet hb,
      Ipv4Addr.eq_octetText_of_parseOctet hc,Ipv4Addr.eq_octetText_of_parseOctet hd]
  · cases h

/-- The text of a CIDR has its parts where the range looks for them. -/
theorem parts_of_ofNotation {c : Cidr} (h : Cidr.ofNotation s=some c) :
    ∃ net prefixStr prefixLen, splitOnce '/' s.toList=some (net,prefixStr) ∧
      parseU8 prefixStr=some prefixLen ∧ prefixLen.toNat=c.prefixLen ∧
      net.splitOnP (· == '.')=[Ipv4Addr.octetText c.base.a,Ipv4Addr.octetText c.base.b,
        Ipv4Addr.octetText c.base.c,Ipv4Addr.octetText c.base.d] := by
  unfold Cidr.ofNotation at h
  split at h
  · next hslash =>
    have hbase := splitOnP_of_parse (Cidr.base_of_parse h)
    rw [stripCidr,toList_takeUntil] at hbase
    rw [Cidr.parse,Option.bind_eq_some_iff] at h
    obtain ⟨base,_,h⟩ := h
    split at h
    · next hnone =>
      rw [List.dropWhile_eq_nil_iff] at hnone
      exact absurd (hnone '/' hslash) (by simp)
    · next slash digits hrest =>
      obtain ⟨n,hn,h⟩ := Option.bind_eq_some_iff.mp h
      split at h
      · obtain rfl := Option.some.inj h
        refine ⟨_,digits,n,?_,parseU8_of_parseOctet hn,rfl,hbase⟩
        rw [splitOnce,hrest]
      · cases h
  · cases h

/-- There is no overflow exactly between one host bit and 31. -/
theorem lastHost_eq (prefixLen : UInt8) : lastHost prefixLen=
    if prefixLen.toNat=0 then .error .shiftLeft
    else if 32 ≤ prefixLen.toNat then .error .subtract
    else .ok (.ofNat (min (2^(32-prefixLen.toNat)-2) 254)) := by
  have every : ∀ k : Fin 256, lastHost (.ofNat k)=
      if k.val=0 then .error .shiftLeft else if 32 ≤ k.val then .error .subtract
      else .ok (.ofNat (min (2^(32-k.val)-2) 254)) := by
    decide +kernel
  simpa using every ⟨prefixLen.toNat,prefixLen.toNat_lt⟩

end Shape

section Hosts

variable {c : Cidr}

/-- The range of a CIDR starts at the first host of the network with a last octet of zero. -/
def Cidr.range (c : Cidr) : SubnetRange :=
  ⟨String.ofList (Ipv4Addr.octetText c.base.a++ '.'::(Ipv4Addr.octetText c.base.b++
    '.'::(Ipv4Addr.octetText c.base.c++['.']))),1,.ofNat (min (2^(32-c.prefixLen)-2) 254)⟩

theorem text_range (c : Cidr) (d : UInt8) :
    c.range.base++toString d.toNat=Ipv4Addr.text ⟨c.base.a,c.base.b,c.base.c,d⟩ := by
  apply String.toList_inj.mp
  simp [Cidr.range,Ipv4Addr.text,Ipv4Addr.octetText]

theorem blockSize (hlow : 24 ≤ c.prefixLen) (hhigh : c.prefixLen ≤ 30) :
    4 ≤ 2^(32-c.prefixLen) ∧ 2^(32-c.prefixLen) ≤ 256 := by
  have hmin : 2 ≤ 32-c.prefixLen := by omega
  have hmax : 32-c.prefixLen ≤ 8 := by omega
  exact ⟨Nat.pow_le_pow_right (n := 2) (by decide) hmin,
    Nat.pow_le_pow_right (n := 2) (by decide) hmax⟩

theorem mem_hosts_range (hlow : 24 ≤ c.prefixLen) (hhigh : c.prefixLen ≤ 30) (ip : String) :
    ip ∈ c.range.hosts ↔ ∃ d : UInt8, 1 ≤ d.toNat ∧ d.toNat+2 ≤ 2^(32-c.prefixLen) ∧
      Ipv4Addr.text ⟨c.base.a,c.base.b,c.base.c,d⟩=ip := by
  obtain ⟨hmin,hmax⟩ := blockSize hlow hhigh
  have hfirst : c.range.first.toNat=1 := rfl
  have hlast : c.range.last.toNat=2^(32-c.prefixLen)-2 := by
    simp only [Cidr.range,UInt8.toNat_ofNat']
    omega
  rw [SubnetRange.hosts,hfirst,hlast]
  simp only [List.mem_map,List.mem_range'_1]
  constructor
  · intro given
    obtain ⟨octet,⟨hpos,hlt⟩,hip⟩ := given
    have hnat : (UInt8.ofNat octet).toNat=octet := by
      rw [UInt8.toNat_ofNat']
      omega
    refine ⟨.ofNat octet,by omega,by omega,?_⟩
    rw [← text_range,hnat,hip]
  · intro given
    obtain ⟨d,hpos,hle,hip⟩ := given
    refine ⟨d.toNat,⟨hpos,by omega⟩,?_⟩
    rw [text_range,hip]

/-- A host of a network of at most 256 addresses has the first three octets of the base, and a last
octet in the same block that is neither end of it. -/
theorem usable_iff (hlow : 24 ≤ c.prefixLen) (x : Ipv4Addr) :
    c.Usable x ↔ x.a=c.base.a ∧ x.b=c.base.b ∧ x.c=c.base.c ∧
      x.d.toNat/2^(32-c.prefixLen)=c.base.d.toNat/2^(32-c.prefixLen) ∧
      x.d.toNat%2^(32-c.prefixLen)≠0 ∧
      x.d.toNat%2^(32-c.prefixLen)≠2^(32-c.prefixLen)-1 := by
  have hle := c.le
  have hbounds (y : Ipv4Addr) :
      y.a.toNat<256 ∧ y.b.toNat<256 ∧ y.c.toNat<256 ∧ y.d.toNat<256 :=
    ⟨y.a.toNat_lt,y.b.toNat_lt,y.c.toNat_lt,y.d.toNat_lt⟩
  obtain ⟨xa,xb,xc,xd⟩ := hbounds x
  obtain ⟨ba,bb,bc,bd⟩ := hbounds c.base
  have hfields : c.Usable x ↔ c.Contains x ∧ x.toU32.toNat%2^(32-c.prefixLen)≠0 ∧
      x.toU32.toNat%2^(32-c.prefixLen)≠2^(32-c.prefixLen)-1 :=
    ⟨fun h => ⟨h.1,h.2,h.3⟩,fun h => ⟨h.1,h.2.1,h.2.2⟩⟩
  rw [hfields,Cidr.Contains]
  simp only [Nat.shiftRight_eq_div_pow,Ipv4Addr.toNat_toU32,← UInt8.toNat_inj]
  generalize c.prefixLen=n at hlow hle ⊢
  interval_cases n <;> simp only [Nat.reduceSub,Nat.reducePow] <;> omega

/-- The range lists the hosts exactly when the network's own last octet is zero. -/
theorem enumerates_range_iff (hlow : 24 ≤ c.prefixLen) (hhigh : c.prefixLen ≤ 30) :
    c.Enumerates c.range ↔ c.base.d.toNat<2^(32-c.prefixLen) := by
  obtain ⟨hmin,hmax⟩ := blockSize hlow hhigh
  have hoctet := c.base.d.toNat_lt
  constructor
  · intro henum
    have host : ∃ y : UInt8, y.toNat/2^(32-c.prefixLen)=c.base.d.toNat/2^(32-c.prefixLen) ∧
        y.toNat%2^(32-c.prefixLen)=1 := by
      refine ⟨.ofNat (c.base.d.toNat-c.base.d.toNat%2^(32-c.prefixLen)+1),?_⟩
      rw [UInt8.toNat_ofNat']
      generalize c.prefixLen=n at hlow hhigh
      interval_cases n <;> simp only [Nat.reduceSub,Nat.reducePow] <;> omega
    obtain ⟨y,hsame,hone⟩ := host
    have husable : c.Usable ⟨c.base.a,c.base.b,c.base.c,y⟩ :=
      (usable_iff hlow _).mpr ⟨rfl,rfl,rfl,hsame,by simp [hone],by simp only [hone]; omega⟩
    obtain ⟨d,_,hle,htext⟩ :=
      (mem_hosts_range hlow hhigh _).mp ((henum.hosts _).mpr ⟨_,husable,rfl⟩)
    have hd : d=y := (Ipv4Addr.mk.inj (Ipv4Addr.text_injective htext)).2.2.2
    rw [hd] at hle
    rw [Nat.div_eq_of_lt (by omega)] at hsame
    exact (Nat.div_eq_zero_iff_lt (by omega)).mp hsame.symm
  · intro hblock
    constructor
    intro ip
    rw [mem_hosts_range hlow hhigh]
    constructor
    · intro given
      obtain ⟨d,hpos,hle,hip⟩ := given
      have hlt : d.toNat<2^(32-c.prefixLen) := by omega
      have hmod := Nat.mod_eq_of_lt hlt
      refine ⟨⟨c.base.a,c.base.b,c.base.c,d⟩,
        (usable_iff hlow _).mpr ⟨rfl,rfl,rfl,?_,?_,?_⟩,hip⟩
      · rw [Nat.div_eq_of_lt hblock]
        exact Nat.div_eq_of_lt hlt
      · rw [hmod]
        omega
      · rw [hmod]
        omega
    · intro given
      obtain ⟨x,hx,hip⟩ := given
      obtain ⟨ha,hb,hc,hsame,hfirst,hlast⟩ := (usable_iff hlow x).mp hx
      rw [Nat.div_eq_of_lt hblock] at hsame
      have hlt : x.d.toNat<2^(32-c.prefixLen) :=
        (Nat.div_eq_zero_iff_lt (by omega)).mp hsame
      rw [Nat.mod_eq_of_lt hlt] at hfirst hlast
      refine ⟨x.d,by omega,by omega,?_⟩
      rw [← ha,← hb,← hc,hip]

end Hosts

section Range

variable {s : String}

/-- A text that is not rejected: what comes of it depends on the number behind its slash. -/
theorem subnetRange_of_not_malformed (h : ¬Malformed s) :
    ∃ base prefixLen, (∀ c, Cidr.ofNotation s=some c →
        base=c.range.base ∧ prefixLen.toNat=c.prefixLen) ∧
      subnetRange s=(lastHost prefixLen).map fun last => some ⟨base,1,last⟩ := by
  obtain ⟨net,prefixStr,prefixLen,a,b,c,d,hs,hnumber,hparts⟩ := parts_of_not_malformed h
  refine ⟨String.ofList (a++ '.'::(b++ '.'::(c++['.']))),prefixLen,?_,?_⟩
  · intro cidr hcidr
    obtain ⟨net',prefixStr',prefixLen',hs',hnumber',hlen,hparts'⟩ := parts_of_ofNotation hcidr
    obtain ⟨rfl,rfl⟩ := Prod.mk.inj (Option.some.inj (hs.symm.trans hs'))
    obtain rfl := Option.some.inj (hnumber.symm.trans hnumber')
    have hsame := hparts.symm.trans hparts'
    simp only [List.cons.injEq] at hsame
    obtain ⟨rfl,rfl,rfl,_⟩ := hsame
    exact ⟨rfl,hlen⟩
  · simp only [subnetRange,hs,hnumber,hparts]

theorem not_malformed_of_ofNotation {c : Cidr} (h : Cidr.ofNotation s=some c) : ¬Malformed s := by
  intro hbad
  obtain ⟨net,prefixStr,prefixLen,hs,hnumber,_,hparts⟩ := parts_of_ofNotation h
  rcases hbad net prefixStr hs with hnone|hlength
  · rw [hnumber] at hnone
    cases hnone
  · rw [hparts] at hlength
    exact hlength rfl

end Range

/-- The range of a text is right exactly when the text lacks a part that is looked for, or is a CIDR
with 1 to 31 network bits whose last octet, from 24 to 30 of them, has host bits only. -/
theorem rangeCorrect_iff (s : String) : RangeCorrect s ↔ Malformed s ∨ Supported s := by
  by_cases hbad : Malformed s
  · refine iff_of_true ⟨none,subnetRange_of_malformed hbad,fun _ => rfl,?_⟩ (.inl hbad)
    intro c hc
    exact absurd hbad (not_malformed_of_ofNotation hc)
  · rw [or_iff_right hbad]
    obtain ⟨base,prefixLen,hcidr,hrange⟩ := subnetRange_of_not_malformed hbad
    rw [lastHost_eq] at hrange
    constructor
    · intro given
      obtain ⟨r,hr,hreject,henum⟩ := given
      rw [hrange] at hr
      split_ifs at hr with hzero hmax
      · cases hr
      · cases hr
      · obtain rfl := Except.ok.inj hr
        cases hc : Cidr.ofNotation s with
        | none => cases hreject hc
        | some c =>
          obtain ⟨hbase,hlen⟩ := hcidr c hc
          refine ⟨c,hc,by omega,by omega,?_⟩
          intro hlow hhigh
          obtain ⟨range,hsome,hexact⟩ := henum c hc hlow hhigh
          rw [← Option.some.inj hsome,hbase,hlen] at hexact
          exact (enumerates_range_iff hlow hhigh).mp hexact
    · intro given
      obtain ⟨c,hc,hmin,hmax,hblock⟩ := given
      obtain ⟨hbase,hlen⟩ := hcidr c hc
      rw [if_neg (by omega),if_neg (by omega),hbase,hlen] at hrange
      refine ⟨some c.range,hrange,?_,?_⟩
      · intro hnone
        rw [hc] at hnone
        cases hnone
      · intro c' hc' hlow hhigh
        obtain rfl := Option.some.inj (hc.symm.trans hc')
        exact ⟨c.range,rfl,(enumerates_range_iff hlow hhigh).mpr (hblock hlow hhigh)⟩

/-- A single address in CIDR notation: one possible address without the network and the broadcast
address is less than none. -/
theorem single_address_overflows :
    Cidr.ofNotation "10.0.0.5/32"=some ⟨⟨10,0,0,5⟩,32,by decide⟩ ∧
      subnetRange "10.0.0.5/32"=.error .subtract ∧ ¬RangeCorrect "10.0.0.5/32" := by
  have hrange : subnetRange "10.0.0.5/32"=.error .subtract := by decide +kernel
  refine ⟨by decide +kernel,hrange,?_⟩
  intro given
  obtain ⟨r,hr,_⟩ := given
  rw [hrange] at hr
  cases hr

end NacPlatform
