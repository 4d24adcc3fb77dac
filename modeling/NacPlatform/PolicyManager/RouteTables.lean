import NacPlatform.Enforcement.ProcNet
import NacPlatform.PolicyManager.Background

namespace NacPlatform

/-! Two services read the gateway from `/proc/net/route`, each with a parser of its own. -/

/-- A line of a default route, with the number in its gateway column. -/
def DefaultRoute (line : List Char) (gw : Nat) : Prop :=
  ∃ iface dest gwText rest, splitWhitespace line=iface::dest::gwText::rest ∧
    fromHex (2^32) dest=some 0 ∧ fromHex (2^32) gwText=some gw

/-- A default route without a gateway has one with a gateway above it. -/
def GatewayFirst (content : String) : Prop :=
  ∀ pre line post, (lines content).drop 1=pre++line::post → DefaultRoute line 0 →
    ∃ above ∈ pre, ∃ gw, gw≠0 ∧ DefaultRoute above gw

theorem fromHex_lt {bound n : Nat} {cs : List Char} (h : fromHex bound cs=some n) : n<bound := by
  simp only [fromHex,Option.ite_none_left_eq_some,Option.ite_none_right_eq_some] at h
  obtain ⟨-,hlt,hn⟩ := h
  obtain rfl := Option.some.inj hn
  exact hlt

theorem Ipv4Addr.ofLittleEndian_eq_unspecified {n : Nat} (hn : n<2^32) :
    ofLittleEndian n=unspecified ↔ n=0 := by
  constructor
  · intro h
    simp only [ofLittleEndian,unspecified,Ipv4Addr.mk.injEq,← UInt8.toNat_inj,
      UInt8.toNat_ofNat'] at h
    obtain ⟨ha,hb,hc,hd⟩ := h
    simp only [UInt8.toNat_zero] at ha hb hc hd
    omega
  · rintro rfl
    rfl

namespace Enforcement

theorem routeLineGateway_eq_some {line : List Char} {g : Ipv4Addr} :
    routeLineGateway line=some g ↔
      ∃ gw, DefaultRoute line gw ∧ Ipv4Addr.ofLittleEndian gw=g := by
  unfold routeLineGateway
  constructor
  · intro h
    split at h
    · next iface dest gwText rest hline =>
      split_ifs at h with hdest
      obtain ⟨gw,hgw,rfl⟩ := Option.map_eq_some_iff.mp h
      exact ⟨gw,⟨iface,dest,gwText,rest,hline,hdest,hgw⟩,rfl⟩
    · cases h
  · intro given
    obtain ⟨gw,⟨iface,dest,gwText,rest,hline,hdest,hgw⟩,rfl⟩ := given
    rw [hline]
    simp only [if_pos hdest,hgw,Option.map_some]

theorem routeLineGateway_eq_unspecified {line : List Char} :
    routeLineGateway line=some .unspecified ↔ DefaultRoute line 0 := by
  rw [routeLineGateway_eq_some]
  constructor
  · intro given
    obtain ⟨gw,hroute,hgw⟩ := given
    obtain ⟨_,_,_,_,_,_,hparse⟩ := id hroute
    rwa [← (Ipv4Addr.ofLittleEndian_eq_unspecified (fromHex_lt hparse)).mp hgw]
  · intro hroute
    exact ⟨0,hroute,rfl⟩

/-- The address picked is not `0.0.0.0` exactly if a gateway comes first. -/
theorem detectDefaultGateway_ne_unspecified (content : String) :
    detectDefaultGateway content≠some .unspecified ↔ GatewayFirst content := by
  unfold detectDefaultGateway
  constructor
  · intro hne pre line post heq hline
    by_contra hnone
    have hpre (above : List Char) (habove : above ∈ pre) (g : Ipv4Addr)
        (hg : routeLineGateway above=some g) : g=.unspecified := by
      obtain ⟨gw,hroute,rfl⟩ := routeLineGateway_eq_some.mp hg
      by_cases hgw : gw=0
      · rw [hgw]
        rfl
      · exact absurd ⟨above,habove,gw,hgw,hroute⟩ hnone
    apply hne
    rw [heq,List.findSome?_append,List.findSome?_cons,routeLineGateway_eq_unspecified.mpr hline]
    cases hfirst : pre.findSome? routeLineGateway with
    | none => rfl
    | some g =>
      obtain ⟨above,habove,hg⟩ := List.exists_of_findSome?_eq_some hfirst
      rw [hpre above habove g hg]
      rfl
  · intro hfirst h
    obtain ⟨pre,line,post,heq,hline,hpre⟩ := List.findSome?_eq_some_iff.mp h
    obtain ⟨above,habove,gw,-,hroute⟩ :=
      hfirst pre line post heq (routeLineGateway_eq_unspecified.mp hline)
    have hsome := routeLineGateway_eq_some.mpr ⟨gw,hroute,rfl⟩
    rw [hpre above habove] at hsome
    cases hsome

end Enforcement

namespace Background

open Enforcement

/-- The policy manager leaves out the gateways that are `0.0.0.0`. -/
theorem routeGateway_eq (line : List Char) :
    routeGateway line=(routeLineGateway line).filter (· != .unspecified) := by
  unfold routeGateway routeLineGateway
  rcases splitWhitespace line with _|⟨iface,_|⟨dest,_|⟨gwText,rest⟩⟩⟩
  · rfl
  · rfl
  · rfl
  · simp only []
    cases hdest : fromHex (2^32) dest with
    | none => rfl
    | some d =>
      cases hgw : fromHex (2^32) gwText with
      | none => by_cases hd : d=0 <;> simp [hd]
      | some gw =>
        have hzero := Ipv4Addr.ofLittleEndian_eq_unspecified (fromHex_lt hgw)
        by_cases hd : d=0
        · by_cases hg : gw=0
          · have heq := hzero.mpr hg
            simp [hd,hg,Option.filter,← heq]
          · have hne : Ipv4Addr.ofLittleEndian gw≠.unspecified := fun e => hg (hzero.mp e)
            simp [hd,hg,Option.filter,hne]
        · simp [hd]

theorem detectDefaultGateways_eq (content : String) : detectDefaultGateways content=
    (((lines content).drop 1).filterMap routeLineGateway).filter (· != .unspecified) := by
  rw [detectDefaultGateways,List.filter_filterMap]
  exact List.filterMap_congr fun line _ => routeGateway_eq line

end Background

/-- The services agree on the gateway, and none uses `0.0.0.0`. -/
structure GatewayAgreement (picked : Option Ipv4Addr) (gateways : List Ipv4Addr) : Prop where
  mem : ∀ g, picked=some g → g ∈ gateways
  none : picked=none ↔ gateways=[]
  picked : picked≠some .unspecified
  gateways : Ipv4Addr.unspecified ∉ gateways

open Enforcement Background in
/-- The services agree exactly if no default route without a gateway is the first. -/
theorem gatewayAgreement_iff (content : String) :
    GatewayAgreement (detectDefaultGateway content) (detectDefaultGateways content) ↔
      GatewayFirst content := by
  rw [← detectDefaultGateway_ne_unspecified]
  constructor
  · intro h
    exact h.picked
  · intro hne
    have hhead : detectDefaultGateway content=
        (((lines content).drop 1).filterMap routeLineGateway).head? := by
      rw [List.head?_filterMap]
      rfl
    have hall := detectDefaultGateways_eq content
    rw [hhead] at hne ⊢
    rw [hall]
    cases hdefaults : ((lines content).drop 1).filterMap routeLineGateway with
    | nil => exact ⟨by simp,by simp,by simp,by simp⟩
    | cons g rest =>
      have hg : g≠.unspecified := by
        intro e
        rw [hdefaults,e] at hne
        exact hne rfl
      refine ⟨?_,?_,?_,?_⟩
      · intro picked hpicked
        obtain rfl := Option.some.inj hpicked
        exact List.mem_filter.mpr ⟨List.mem_cons_self,bne_iff_ne.mpr hg⟩
      · simp [hg]
      · simpa using hg
      · intro hmem
        simp at hmem

/-- A route of a point-to-point link, and under it one with a gateway. -/
def onLinkFirst : String := String.ofList ("Iface\tDestination\tGateway\tFlags\n".toList++
  "ppp0\t00000000\t00000000\t0001\n".toList++"eth0\t00000000\t0101A8C0\t0003\n".toList)

theorem gatewayAgreement_onLinkFirst :
    Enforcement.detectDefaultGateway onLinkFirst=some ⟨0,0,0,0⟩ ∧
    Background.detectDefaultGateways onLinkFirst=[⟨192,168,1,1⟩] ∧
    ¬GatewayAgreement (Enforcement.detectDefaultGateway onLinkFirst)
      (Background.detectDefaultGateways onLinkFirst) := by
  have hpicked : Enforcement.detectDefaultGateway onLinkFirst=some ⟨0,0,0,0⟩ := by
    decide +kernel
  refine ⟨hpicked,by decide +kernel,?_⟩
  intro h
  exact h.picked hpicked

end NacPlatform
