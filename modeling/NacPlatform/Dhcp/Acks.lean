import NacPlatform.Dhcp.Server

namespace NacPlatform.Dhcp

theorem LeasePool.lease_getOrAllocate (pool : LeasePool) (mac : List UInt8) :
    (pool.getOrAllocate mac).2.lease mac=some (pool.getOrAllocate mac).1 := by
  unfold getOrAllocate
  split
  · assumption
  · split
    · simp [lease]
    · simp [lease]

/-- A lease outlives every later allocation. -/
theorem LeasePool.lease_getOrAllocate_of_lease {pool : LeasePool} {mac : List UInt8}
    {ip : Ipv4Addr} (other : List UInt8) (h : pool.lease mac=some ip) :
    (pool.getOrAllocate other).2.lease mac=some ip := by
  cases hother : pool.lease other with
  | some taken => rw [getOrAllocate_of_lease hother,h]
  | none =>
    have hne : (key mac==key other)=false := by
      apply beq_false_of_ne
      intro e
      rw [lease,e] at h
      rw [lease,h] at hother
      cases hother
    simp only [getOrAllocate,hother]
    split
    · simpa [lease,List.lookup_cons,hne] using h
    · simpa [lease,List.lookup_cons,hne] using h

@[simp] theorem deliver_server (s : State) (type : MessageType) (d : Datagram)
    (answer : Message × DhcpServer) : (s.deliver type d answer).2.server=answer.2 := by
  unfold State.deliver
  split <;> rfl

/-- Only the answer is added to what has been sent. -/
theorem deliver_acks (s : State) (type : MessageType) (d : Datagram)
    (answer : Message × DhcpServer) {a : Message} (h : a ∈ (s.deliver type d answer).2.acks) :
    a ∈ s.acks ∨ a=answer.1 ∧ answer.1.opts.messageType=some .ack := by
  unfold State.deliver at h
  split at h
  · exact .inl h
  · simp only [State.acks,List.filter_append,List.mem_append] at h
    cases h with
    | inl h => exact .inl h
    | inr h =>
      rw [List.mem_filter,List.mem_singleton] at h
      have hack := beq_iff_eq.mp h.2
      exact .inr ⟨h.1,h.1 ▸ hack⟩

/-- What one datagram can do: the pool allocates for the client of a DISCOVER or of a REQUEST
that names no address, and only a REQUEST is acknowledged. -/
theorem serve_cases (s : State) (d : Datagram) :
    serve s d=s ∨ ∃ msg, d.message=.ok msg ∧ clients [d]=[msg.chaddr] ∧
      (msg.opts.messageType=some .discover ∧
          serve s d=(s.deliver .discover d (s.server.handleDiscover msg)).2 ∨
        msg.opts.messageType=some .request ∧
          serve s d=(s.deliver .request d (s.server.handleRequest msg)).2) := by
  cases hm : d.message with
  | error e => exact .inl (by simp [serve,handle,hm])
  | ok msg =>
    cases ht : msg.opts.messageType with
    | none => exact .inl (by simp [serve,handle,hm,ht])
    | some type =>
      cases type with
      | discover =>
        exact .inr ⟨msg,rfl,by simp [clients,hm,ht],.inl ⟨ht,by simp [serve,handle,hm,ht]⟩⟩
      | request =>
        exact .inr ⟨msg,rfl,by simp [clients,hm,ht],.inr ⟨ht,by simp [serve,handle,hm,ht]⟩⟩
      | _ => exact .inl (by simp [serve,handle,hm,ht])

/-- A REQUEST that names an address names the one the pool has leased to its client. -/
def AsksForOwn (s : State) (d : Datagram) : Prop :=
  match d.message with
  | .error _ => True
  | .ok msg => msg.opts.messageType=some .request → msg.opts.requestedIpAddress=none ∨
      s.server.pool.lease msg.chaddr=msg.opts.requestedIpAddress

instance (s : State) (d : Datagram) : Decidable (AsksForOwn s d) :=
  match h : d.message with
  | .error _ => .isTrue (by simp [AsksForOwn,h])
  | .ok msg => decidable_of_iff (msg.opts.messageType=some .request →
      msg.opts.requestedIpAddress=none ∨
        s.server.pool.lease msg.chaddr=msg.opts.requestedIpAddress) (by simp [AsksForOwn,h])

/-- No address has been acknowledged to two clients. -/
def Exclusive (s : State) : Prop :=
  ∀ a ∈ s.acks, ∀ b ∈ s.acks, a.yiaddr=b.yiaddr → a.chaddr=b.chaddr

/-- Every acknowledged address lies in the configured range. -/
def Within (poolStart poolEnd : Ipv4Addr) (s : State) : Prop :=
  ∀ a ∈ s.acks, poolStart.toU32 ≤ a.yiaddr.toU32 ∧ a.yiaddr.toU32 ≤ poolEnd.toU32

/-- The acknowledgements agree with the lease table, and the table knows only the clients. -/
structure Agrees (lo hi : UInt32) (cs : List (List UInt8)) (r : Roster (List UInt8))
    (s : State) : Prop where
  start : s.server.pool.start=lo
  end_ : s.server.pool.end_=hi
  pool : s.server.pool.Represents r
  known : ∀ k ∈ r.keys, k ∈ cs.dedup.map LeasePool.key
  acked : ∀ a ∈ s.acks, a.chaddr ∈ cs ∧ s.server.pool.lease a.chaddr=some a.yiaddr

section

variable {lo hi : UInt32} {cs : List (List UInt8)} {r : Roster (List UInt8)} {s : State}

/-- As long as there are no more clients than addresses, the pool has one for each of them. -/
theorem Agrees.room (h : Agrees lo hi cs r s) (hcount : cs.dedup.length ≤ hi.toNat-lo.toNat+1)
    {c : List UInt8} (hc : c ∈ cs) :
    LeasePool.key c ∈ r.keys ∨ r.keys.length<s.server.pool.size := by
  by_cases hk : LeasePool.key c ∈ r.keys
  · exact .inl hk
  · right
    have known : ∀ k ∈ (r.enroll (LeasePool.key c)).keys, k ∈ cs.dedup.map LeasePool.key := by
      intro k hk
      cases Roster.mem_enroll.mp hk with
      | inl hk => exact h.known k hk
      | inr e => exact e ▸ List.mem_map_of_mem (List.mem_dedup.mpr hc)
    have hlen := Roster.length_le known
    have hdedup := (List.dedup_sublist (cs.dedup.map LeasePool.key)).length_le
    rw [List.length_map] at hdedup
    rw [Roster.enroll_keys hk,List.length_append,List.length_singleton] at hlen
    unfold LeasePool.size
    rw [h.start,h.end_]
    omega

/-- Allocating for a client keeps the agreement, whatever is acknowledged to that client. -/
theorem Agrees.allocate (h : Agrees lo hi cs r s)
    (hcount : cs.dedup.length ≤ hi.toNat-lo.toNat+1) {c : List UInt8} (hc : c ∈ cs) {s' : State}
    (hpool : s'.server.pool=(s.server.pool.getOrAllocate c).2)
    (hacks : ∀ a ∈ s'.acks, a ∈ s.acks ∨
      a.chaddr=c ∧ a.yiaddr=(s.server.pool.getOrAllocate c).1) :
    Agrees lo hi cs (r.enroll (LeasePool.key c)) s' := by
  have bounds := s.server.pool.getOrAllocate_bounds c
  refine ⟨?_,?_,?_,?_,?_⟩
  · rw [hpool,bounds.1,h.start]
  · rw [hpool,bounds.2,h.end_]
  · rw [hpool]
    exact (h.pool.getOrAllocate (h.room hcount hc)).1
  · intro k hk
    cases Roster.mem_enroll.mp hk with
    | inl hk => exact h.known k hk
    | inr e => exact e ▸ List.mem_map_of_mem (List.mem_dedup.mpr hc)
  · intro a ha
    rw [hpool]
    cases hacks a ha with
    | inl old =>
      have before := h.acked a old
      exact ⟨before.1,LeasePool.lease_getOrAllocate_of_lease c before.2⟩
    | inr new =>
      rw [new.1,new.2]
      exact ⟨hc,LeasePool.lease_getOrAllocate _ _⟩

/-- One datagram keeps the agreement, if it asks for no address of somebody else. -/
theorem Agrees.step (h : Agrees lo hi cs r s)
    (hcount : cs.dedup.length ≤ hi.toNat-lo.toNat+1) {d : Datagram} (hown : AsksForOwn s d)
    (hd : ∀ c ∈ clients [d], c ∈ cs) : ∃ r', Agrees lo hi cs r' (serve s d) := by
  rcases serve_cases s d with e | ⟨msg,hm,hc,⟨-,e⟩ | ⟨ht,e⟩⟩
  · rw [e]
    exact ⟨r,h⟩
  · have hc : msg.chaddr ∈ cs := hd _ (hc ▸ List.mem_singleton_self _)
    refine ⟨_,h.allocate hcount hc (by rw [e,deliver_server]; rfl) ?_⟩
    intro a ha
    rw [e] at ha
    cases deliver_acks s _ d _ ha with
    | inl old => exact .inl old
    | inr new =>
      -- an offer is no acknowledgement
      cases new.2
  · have hc : msg.chaddr ∈ cs := hd _ (hc ▸ List.mem_singleton_self _)
    cases hip : msg.opts.requestedIpAddress with
    | none =>
      have hr : s.server.handleRequest msg=
          (s.server.answer msg .ack (s.server.pool.getOrAllocate msg.chaddr).1,
            {s.server with pool := (s.server.pool.getOrAllocate msg.chaddr).2}) := by
        simp only [DhcpServer.handleRequest,hip]
      rw [hr] at e
      refine ⟨_,h.allocate hcount hc (by rw [e,deliver_server]) ?_⟩
      intro a ha
      rw [e] at ha
      cases deliver_acks s _ d _ ha with
      | inl old => exact .inl old
      | inr new => exact .inr ⟨new.1 ▸ rfl,new.1 ▸ rfl⟩
    | some ip =>
      have hr : s.server.handleRequest msg=(s.server.answer msg .ack ip,s.server) := by
        simp only [DhcpServer.handleRequest,hip]
      rw [hr] at e
      have same : (serve s d).server=s.server := by rw [e,deliver_server]
      refine ⟨r,⟨same ▸ h.start,same ▸ h.end_,same ▸ h.pool,h.known,?_⟩⟩
      intro a ha
      rw [same]
      rw [e] at ha
      cases deliver_acks s _ d _ ha with
      | inl old => exact h.acked a old
      | inr new =>
        rw [new.1]
        simp only [AsksForOwn,hm,hip] at hown
        exact ⟨hc,(hown ht).resolve_left (Option.some_ne_none ip)⟩

/-- Where the acknowledgements agree with the pool, they are exclusive and in range. -/
theorem Agrees.safe {poolStart poolEnd : Ipv4Addr}
    (h : Agrees poolStart.toU32 poolEnd.toU32 cs r s)
    (hkey : ∀ c ∈ cs, ∀ c' ∈ cs, LeasePool.key c=LeasePool.key c' → c=c') :
    Exclusive s ∧ Within poolStart poolEnd s := by
  have number (a : Message) (ha : a ∈ s.acks) : LeasePool.key a.chaddr ∈ r.keys ∧
      r.number (LeasePool.key a.chaddr)<s.server.pool.size ∧
        a.yiaddr=s.server.pool.nth (r.number (LeasePool.key a.chaddr)) := by
    have hl := (h.acked a ha).2
    have hin := h.pool.mem_of_lease hl
    rw [h.pool.lease_eq hin] at hl
    exact ⟨hin,(Roster.number_lt hin).trans_le h.pool.room,(Option.some.inj hl).symm⟩
  constructor
  · intro a ha b hb e
    obtain ⟨hain,halt,haip⟩ := number a ha
    obtain ⟨-,hblt,hbip⟩ := number b hb
    have same := LeasePool.nth_inj h.pool.ordered halt hblt (haip ▸ hbip ▸ e)
    exact hkey _ (h.acked a ha).1 _ (h.acked b hb).1 (Roster.number_inj hain same)
  · intro a ha
    obtain ⟨-,hlt,hip⟩ := number a ha
    have range := LeasePool.nth_mem h.pool.ordered hlt
    rw [h.start,h.end_] at range
    rw [hip]
    exact range

end

/-- Where no REQUEST names an address leased to nobody or to somebody else, no two clients are
acknowledged the same address and all addresses come from the pool. -/
theorem acks_exclusive (poolStart poolEnd subnetMask gateway serverIp : Ipv4Addr)
    (horder : poolStart.toU32 ≤ poolEnd.toU32) (ds : List Datagram)
    (hcount : (clients ds).dedup.length ≤ poolEnd.toU32.toNat-poolStart.toU32.toNat+1)
    (hkey : ∀ c ∈ clients ds, ∀ c' ∈ clients ds, LeasePool.key c=LeasePool.key c' → c=c')
    (hown : Guarded serve AsksForOwn (boot poolStart poolEnd subnetMask gateway serverIp) ds) :
    Exclusive (runs serve (boot poolStart poolEnd subnetMask gateway serverIp) ds) ∧
      Within poolStart poolEnd
        (runs serve (boot poolStart poolEnd subnetMask gateway serverIp) ds) := by
  have start : ∃ r, Agrees poolStart.toU32 poolEnd.toU32 (clients ds) r
      (boot poolStart poolEnd subnetMask gateway serverIp) :=
    ⟨.empty,rfl,rfl,LeasePool.new_represents _ _ horder,by simp,by simp [boot,State.acks]⟩
  have asked : Guarded serve (fun _ d => ∀ c ∈ clients [d], c ∈ clients ds)
      (boot poolStart poolEnd subnetMask gateway serverIp) ds := by
    apply guarded_of_forall
    intro d hd c hc
    obtain ⟨d',hd',e⟩ := List.mem_filterMap.mp hc
    rw [List.mem_singleton.mp hd'] at e
    exact List.mem_filterMap.mpr ⟨d,hd,e⟩
  obtain ⟨r,h⟩ := (hown.and asked).invariant
    (fun s => ∃ r, Agrees poolStart.toU32 poolEnd.toU32 (clients ds) r s)
    (fun s d ⟨r,h⟩ ⟨own,hd⟩ => h.step hcount own hd) start
  exact h.safe hkey

/-- A client's message as it leaves an Ethernet card. -/
def clientMessage (type : MessageType) (mac : List UInt8) (ip : Option Ipv4Addr) : Message where
  opcode := .bootRequest
  htype := 1
  hops := 0
  xid := 7
  flags := 0
  yiaddr := .unspecified
  siaddr := .unspecified
  giaddr := .unspecified
  chaddr := mac
  opts := {Options.empty with messageType := some type, requestedIpAddress := ip}

def clientDatagram (type : MessageType) (mac : List UInt8) (ip : Option Ipv4Addr) : Datagram :=
  ⟨.ok (clientMessage type mac ip),.ok ()⟩

theorem acks_exclusive_two_clients :
    Exclusive (runs serve (boot ⟨10,0,0,1⟩ ⟨10,0,0,2⟩ ⟨255,255,255,0⟩ ⟨10,0,0,254⟩ ⟨10,0,0,254⟩)
      [clientDatagram .discover [2,0,0,0,0,1] none,
        clientDatagram .request [2,0,0,0,0,1] (some ⟨10,0,0,1⟩),
        clientDatagram .request [2,0,0,0,0,2] none]) ∧
      Within ⟨10,0,0,1⟩ ⟨10,0,0,2⟩
        (runs serve (boot ⟨10,0,0,1⟩ ⟨10,0,0,2⟩ ⟨255,255,255,0⟩ ⟨10,0,0,254⟩ ⟨10,0,0,254⟩)
          [clientDatagram .discover [2,0,0,0,0,1] none,
            clientDatagram .request [2,0,0,0,0,1] (some ⟨10,0,0,1⟩),
            clientDatagram .request [2,0,0,0,0,2] none]) :=
  acks_exclusive ⟨10,0,0,1⟩ ⟨10,0,0,2⟩ ⟨255,255,255,0⟩ ⟨10,0,0,254⟩ ⟨10,0,0,254⟩
    (by decide +kernel) _ (by decide +kernel)
    (by simp [clients,clientDatagram,clientMessage,LeasePool.key]) (by decide +kernel)

/-- A client that asks for a leased address gets it. -/
theorem leased_address_acked_again :
    ¬∀ (poolStart poolEnd subnetMask gateway serverIp : Ipv4Addr) (ds : List Datagram),
      poolStart.toU32 ≤ poolEnd.toU32 →
      (clients ds).dedup.length ≤ poolEnd.toU32.toNat-poolStart.toU32.toNat+1 →
      (∀ c ∈ clients ds, c.length=6) →
      Exclusive (runs serve (boot poolStart poolEnd subnetMask gateway serverIp) ds) ∧
        Within poolStart poolEnd
          (runs serve (boot poolStart poolEnd subnetMask gateway serverIp) ds) := by
  intro h
  have wrong := h ⟨10,0,0,1⟩ ⟨10,0,0,2⟩ ⟨255,255,255,0⟩ ⟨10,0,0,254⟩ ⟨10,0,0,254⟩
    [clientDatagram .request [2,0,0,0,0,1] none,
      clientDatagram .request [2,0,0,0,0,2] (some ⟨10,0,0,1⟩)]
    (by decide +kernel) (by decide +kernel) (by simp [clients,clientDatagram,clientMessage])
  have acks : (runs serve
      (boot ⟨10,0,0,1⟩ ⟨10,0,0,2⟩ ⟨255,255,255,0⟩ ⟨10,0,0,254⟩ ⟨10,0,0,254⟩)
      [clientDatagram .request [2,0,0,0,0,1] none,
        clientDatagram .request [2,0,0,0,0,2] (some ⟨10,0,0,1⟩)]).acks.map
          (fun m => (m.yiaddr,m.chaddr))=
      [((⟨10,0,0,1⟩,[2,0,0,0,0,1]) : Ipv4Addr × List UInt8),(⟨10,0,0,1⟩,[2,0,0,0,0,2])] := by
    decide +kernel
  have first : ((⟨10,0,0,1⟩,[2,0,0,0,0,1]) : Ipv4Addr × List UInt8) ∈ _ :=
    acks ▸ List.mem_cons_self
  have second : ((⟨10,0,0,1⟩,[2,0,0,0,0,2]) : Ipv4Addr × List UInt8) ∈ _ :=
    acks ▸ List.mem_cons_of_mem _ List.mem_cons_self
  obtain ⟨a,ha,ea⟩ := List.mem_map.mp first
  obtain ⟨b,hb,eb⟩ := List.mem_map.mp second
  have same := wrong.1 a ha b hb (by rw [(Prod.mk.inj ea).1,(Prod.mk.inj eb).1])
  rw [(Prod.mk.inj ea).2,(Prod.mk.inj eb).2] at same
  exact absurd same (by decide)

end NacPlatform.Dhcp
