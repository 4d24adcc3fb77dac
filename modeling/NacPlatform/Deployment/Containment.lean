import NacPlatform.Deployment.Placement

namespace NacPlatform

namespace Enforcement

/-- What the gateway owes the network about a denied or quarantined device: nothing that the device
sends, from whatever address, is forwarded, its name queries and page requests end at the captive
services, and of the gateway a denied device reaches nothing but these and the management ports. -/
structure Host.Contains (h : Host) (mac : MacAddr) (status : Status) : Prop where
  sets : ∀ a, mac.text ∈ h.sets (macSet a) ↔ status.treatment=some a
  held : ∀ ips members toGateway p, p.srcMac=mac → fate ips members h toGateway p≠.forwarded
  captive : ∀ ips members toGateway p asked port, p.srcMac=mac → p.dport=some asked →
    captiveService asked=some (.redirect port) →
    fate ips members h toGateway p=.delivered (some (asked.1,port))
  reaches : status=.denied → ∀ ips members toGateway p reached, p.srcMac=mac →
    fate ips members h toGateway p=.delivered reached →
    (∃ open_ ∈ openPorts, reached=some open_) ∨ p.Manages ips members

/-- What the gateway owes an allowed device: all that it sends passes as it is, unless an address is
treated from which it sends. -/
structure Host.Passes (h : Host) (mac : MacAddr) : Prop where
  sets : ∀ a, mac.text ∉ h.sets (macSet a)
  passes : ∀ ips members toGateway p, p.srcMac=mac →
    (∀ x, p.srcIp=some x → x.text ∉ h.sets .blockedIps ∧ x.text ∉ h.sets .quarantinedIps) →
    fate ips members h toGateway p=if toGateway then .delivered p.dport else .forwarded

variable {h : Host} {mac : MacAddr} {status : Status}

/-- The MAC set of its status is enough to contain a device. -/
theorem Host.contains_of_sets (hst : status.enforced=true)
    (hsets : ∀ a, mac.text ∈ h.sets (macSet a) ↔ status.treatment=some a) :
    h.Contains mac status := by
  have treated {p : Packet} (hp : p.srcMac=mac) : p.Treated h := by
    apply treated_iff.mpr
    cases status with
    | denied =>
      refine ⟨.blockedMacs,?_⟩
      rw [Packet.SentBy,hp]
      exact (hsets .block).mpr rfl
    | quarantined =>
      refine ⟨.quarantinedMacs,?_⟩
      rw [Packet.SentBy,hp]
      exact (hsets .quarantine).mpr rfl
    | allowed => cases hst
    | pending => cases hst
  constructor
  · exact hsets
  · intro ips members toGateway p hp
    rw [fate_of_treated (treated hp)]
    exact confined_ne_forwarded toGateway
  · intro ips members toGateway p asked port hp hasked hservice
    rw [fate_of_treated (treated hp),confined,hasked,Option.bind_some,hservice]
    rfl
  · intro hdenied ips members toGateway p reached hp hreached
    have hblocked : p.Blocked h := by
      left
      rw [Packet.SentBy,hp]
      exact (hsets .block).mpr (by rw [hdenied]; rfl)
    rw [fate_of_treated (treated hp)] at hreached
    exact confined_reaches hblocked hreached

theorem Host.passes_of_sets (hsets : ∀ a, mac.text ∉ h.sets (macSet a)) : h.Passes mac := by
  refine ⟨hsets,?_⟩
  intro ips members toGateway p hp hips
  apply fate_of_untreated
  intro ht
  obtain ⟨set,hset⟩ := treated_iff.mp ht
  cases set with
  | blockedMacs =>
    rw [Packet.SentBy,hp] at hset
    exact hsets .block hset
  | quarantinedMacs =>
    rw [Packet.SentBy,hp] at hset
    exact hsets .quarantine hset
  | blockedIps =>
    obtain ⟨x,hx,hmem⟩ := hset
    exact (hips x hx).1 hmem
  | quarantinedIps =>
    obtain ⟨x,hx,hmem⟩ := hset
    exact (hips x hx).2 hmem

end Enforcement

open Enforcement

namespace Deployment

variable {d : Deployment} {binds : Status → Bool} {base : Nat} {row : EndpointRow}

theorem Sound.contains (h : d.Sound binds base) (hbinds : ∀ st, binds st=true → st.settled=true)
    (hdone : d.taken=d.published.length)
    (hrow : d.platform.world.endpoints.findById row.id=some row) (hst : row.status.enforced=true)
    (hbound : binds row.status=true) (hdevice : row.macAddress≠noDevice) :
    d.host.Contains row.macAddress row.status :=
  Host.contains_of_sets hst (h.placed hbinds hdone hrow hbound hdevice)

theorem Sound.passes (h : d.Sound Status.settled base) (hdone : d.taken=d.published.length)
    (hrow : d.platform.world.endpoints.findById row.id=some row) (hst : row.status=.allowed)
    (hdevice : row.macAddress≠noDevice) : d.host.Passes row.macAddress := by
  apply Host.passes_of_sets
  intro a hin
  have hplaced := h.placed (fun _ => id) hdone hrow (by rw [hst]; rfl) hdevice a
  rw [hst] at hplaced
  cases hplaced.mp hin

end Deployment

section Runs

variable (pg : Postgres) (rt : Runtime) (policies : List PolicyRow) (spoofer : Option MacAddr)

end Runs

end NacPlatform
