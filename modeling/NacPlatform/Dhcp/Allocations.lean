import NacPlatform.Dhcp.Pool

namespace NacPlatform.Dhcp

namespace LeasePool

/-- The addresses that a sequence of calls is answered with. -/
def answers (pool : LeasePool) : List (List UInt8) → List Ipv4Addr
  | [] => []
  | mac::macs => (pool.getOrAllocate mac).1::(pool.getOrAllocate mac).2.answers macs

/-- What the key with number `n` gets: the next address, and the first one from then on. -/
def share (pool : LeasePool) (n : Nat) : Ipv4Addr :=
  if n<pool.size then pool.nth n else .ofU32 pool.start

/-- The counter moves with the keys up to the end of the range. It stays there, since the address
after the last one can still be counted. -/
structure Tracks (pool : LeasePool) (r : Roster (List UInt8)) : Prop where
  ordered : pool.start ≤ pool.end_
  below : pool.end_.toNat+1<2^32
  next : pool.next.toNat=pool.start.toNat+min r.keys.length pool.size
  leased : r.Tabulates pool.share pool.leases

theorem new_tracks {poolStart poolEnd : Ipv4Addr} (subnetMask gateway : Ipv4Addr)
    (h : poolStart.toU32 ≤ poolEnd.toU32) (hb : poolEnd.toU32.toNat+1<2^32) :
    (new poolStart poolEnd subnetMask gateway).Tracks .empty where
  ordered := by simpa only [new] using h
  below := by simpa only [new] using hb
  next := by
    rw [Roster.empty_keys,List.length_nil,Nat.zero_min,Nat.add_zero]
    rfl
  leased := by
    intro k
    simp only [new,Roster.empty_keys,List.not_mem_nil,if_false,List.lookup_nil]

section

variable {pool : LeasePool} {r : Roster (List UInt8)} {mac : List UInt8}

/-- The counter passes the end of the range once there are no more keys than addresses. -/
theorem Tracks.next_le_iff (h : pool.Tracks r) :
    pool.next ≤ pool.end_ ↔ r.keys.length<pool.size := by
  have hs := UInt32.le_iff_toNat_le.mp h.ordered
  rw [UInt32.le_iff_toNat_le,h.next]
  unfold size
  omega

theorem Tracks.getOrAllocate (h : pool.Tracks r) :
    (pool.getOrAllocate mac).2.Tracks (r.enroll (key mac)) ∧
      (pool.getOrAllocate mac).1=pool.share ((r.enroll (key mac)).number (key mac)) := by
  by_cases hm : key mac ∈ r.keys
  · have hl : pool.lease mac=some (pool.share (r.number (key mac))) := h.leased.lookup hm
    rw [getOrAllocate_of_lease hl,Roster.enroll_of_mem hm]
    exact ⟨h,rfl⟩
  · have hl : pool.lease mac=none := h.leased.lookup_eq_none hm
    have hlen : (r.enroll (key mac)).keys.length=r.keys.length+1 := by
      rw [Roster.enroll_keys hm,List.length_append,List.length_singleton]
    have leased := h.leased.cons hm
    have hnext := h.next
    rw [Roster.number_enroll_self hm]
    by_cases hroom : r.keys.length<pool.size
    · -- the key takes the address at the counter
      have hip : Ipv4Addr.ofU32 pool.next=pool.share r.keys.length := by
        rw [min_eq_left hroom.le] at hnext
        rw [share,if_pos hroom,nth,← hnext,UInt32.ofNat_toNat]
      rw [getOrAllocate_of_next hl (h.next_le_iff.mpr hroom),hip]
      refine ⟨⟨h.ordered,h.below,?_,leased⟩,rfl⟩
      have hs := UInt32.le_iff_toNat_le.mp h.ordered
      have hb := h.below
      rw [min_eq_left hroom.le] at hnext
      change (pool.next+1).toNat=pool.start.toNat+min (r.enroll (key mac)).keys.length pool.size
      rw [hlen,min_eq_left hroom,UInt32.toNat_add,hnext,UInt32.toNat_one]
      have hroom : r.keys.length<pool.end_.toNat-pool.start.toNat+1 := hroom
      rw [Nat.mod_eq_of_lt (by omega),Nat.add_assoc]
    · -- every address is taken: the counter stands still
      have hip : Ipv4Addr.ofU32 pool.start=pool.share r.keys.length := by
        rw [share,if_neg hroom]
      rw [getOrAllocate_of_full hl (mt h.next_le_iff.mp hroom),hip]
      refine ⟨⟨h.ordered,h.below,?_,leased⟩,rfl⟩
      have full : pool.size ≤ r.keys.length := Nat.le_of_not_lt hroom
      change pool.next.toNat=pool.start.toNat+min (r.enroll (key mac)).keys.length pool.size
      rw [hlen,hnext,min_eq_right full,min_eq_right (Nat.le_succ_of_le full)]

/-- The share of a number depends on the bounds of the pool alone. -/
theorem share_getOrAllocate (pool : LeasePool) (mac : List UInt8) :
    (pool.getOrAllocate mac).2.share=pool.share := by
  funext n
  have hb := pool.getOrAllocate_bounds mac
  have hsize : (pool.getOrAllocate mac).2.size=pool.size := by rw [size,size,hb.1,hb.2]
  have hnth : (pool.getOrAllocate mac).2.nth n=pool.nth n := by rw [nth,nth,hb.1]
  rw [share,share,hsize,hnth,hb.1]

/-- Every call of a run is answered with the share of its key's number. -/
theorem Tracks.answers (h : pool.Tracks r) (macs : List (List UInt8)) :
    pool.answers macs=
      macs.map fun mac => pool.share ((r.enrollAll (macs.map key)).number (key mac)) := by
  induction macs generalizing pool r with
  | nil => rfl
  | cons mac macs ih =>
    have step : (pool.getOrAllocate mac).2.Tracks (r.enroll (key mac)) ∧
        (pool.getOrAllocate mac).1=pool.share ((r.enroll (key mac)).number (key mac)) :=
      h.getOrAllocate
    have self : key mac ∈ (r.enroll (key mac)).keys := Roster.mem_enroll.mpr (.inr rfl)
    rw [LeasePool.answers,ih step.1,step.2,share_getOrAllocate,List.map_cons,List.map_cons,
      Roster.enrollAll_cons,Roster.number_enrollAll _ self]

theorem share_toNat (h : pool.Tracks r) (n : Nat) :
    (pool.share n).toU32.toNat=
      if n ≤ pool.end_.toNat-pool.start.toNat then pool.start.toNat+n else pool.start.toNat := by
  have same : n<pool.size ↔ n ≤ pool.end_.toNat-pool.start.toNat := Nat.lt_succ_iff
  unfold share
  by_cases hn : n<pool.size
  · rw [if_pos hn,if_pos (same.mp hn),nth_toNat h.ordered hn]
  · rw [if_neg hn,if_neg (mt same.mpr hn),Ipv4Addr.toU32_ofU32]

end

/-- The keys of a sequence of calls in the order of their first appearance. -/
def keysOf (macs : List (List UInt8)) : Roster (List UInt8) := .enrollAll .empty (macs.map key)

theorem mem_keysOf {macs : List (List UInt8)} {mac : List UInt8} (h : mac ∈ macs) :
    key mac ∈ (keysOf macs).keys := by
  rw [keysOf,Roster.mem_enrollAll]
  exact .inr (List.mem_map_of_mem h)

end LeasePool

theorem mem_zip_map {A B : Type} {f : A → B} {as : List A} {a : A} {b : B}
    (h : (a,b) ∈ as.zip (as.map f)) : a ∈ as ∧ b=f a := by
  have pairs : as.zip (as.map f)=as.map fun a => (a,f a) := by
    simpa only [List.map_id_fun,id_eq] using List.zip_map' (f := id) (g := f) (l := as)
  rw [pairs] at h
  obtain ⟨x,hx,e⟩ := List.mem_map.mp h
  cases e
  exact ⟨hx,rfl⟩

open LeasePool in
/-- A pool gives each new key the next address of its range, and its first address when the range
is used up; a key keeps its address, and only the first address is ever shared. -/
theorem allocations_by_first_appearance (poolStart poolEnd subnetMask gateway : Ipv4Addr)
    (ordered : poolStart.toU32 ≤ poolEnd.toU32)
    (below : poolEnd.toU32<(⟨255,255,255,255⟩ : Ipv4Addr).toU32) (macs : List (List UInt8)) :
    let ips := (LeasePool.new poolStart poolEnd subnetMask gateway).answers macs
    let last := poolEnd.toU32.toNat-poolStart.toU32.toNat
    ips.length=macs.length ∧
      (∀ i mac ip, (mac,ip) ∈ macs.zip ips → (keysOf macs).keys[i]?=some (key mac) →
        ip.toU32.toNat=
          if i ≤ last then poolStart.toU32.toNat+i else poolStart.toU32.toNat) ∧
      (∀ mac ip mac' ip', (mac,ip) ∈ macs.zip ips → (mac',ip') ∈ macs.zip ips →
        key mac=key mac' → ip=ip') ∧
      (∀ ip ∈ ips, poolStart.toU32 ≤ ip.toU32 ∧ ip.toU32 ≤ poolEnd.toU32) ∧
      ∀ mac ip mac' ip', (mac,ip) ∈ macs.zip ips → (mac',ip') ∈ macs.zip ips →
        key mac≠key mac' → ip=ip' → ip=poolStart ∧ last+1<(keysOf macs).keys.length := by
  have hb : poolEnd.toU32.toNat+1<2^32 := by
    have lt := UInt32.lt_iff_toNat_lt.mp below
    have top : (⟨255,255,255,255⟩ : Ipv4Addr).toU32.toNat=2^32-1 := by decide
    omega
  have ho := UInt32.le_iff_toNat_le.mp ordered
  have tracks := new_tracks subnetMask gateway ordered hb
  generalize hpool : LeasePool.new poolStart poolEnd subnetMask gateway=pool at tracks
  have hstart : pool.start=poolStart.toU32 := hpool ▸ rfl
  have hend : pool.end_=poolEnd.toU32 := hpool ▸ rfl
  have hips : pool.answers macs=
      macs.map fun mac => pool.share ((keysOf macs).number (key mac)) := tracks.answers macs
  have hshare := share_toNat tracks
  rw [hstart,hend] at hshare
  have answered : ∀ {mac ip}, (mac,ip) ∈ macs.zip (pool.answers macs) →
      mac ∈ macs ∧ ip=pool.share ((keysOf macs).number (key mac)) := by
    intro mac ip h
    rw [hips] at h
    exact mem_zip_map h
  refine ⟨?_,?_,?_,?_,?_⟩
  · rw [hips,List.length_map]
  · intro i mac ip h hi
    rw [(answered h).2,Roster.number_of_getElem? hi,hshare]
  · intro mac ip mac' ip' h h' e
    rw [(answered h).2,(answered h').2,e]
  · intro ip h
    rw [hips] at h
    obtain ⟨mac,_,rfl⟩ := List.mem_map.mp h
    rw [UInt32.le_iff_toNat_le,UInt32.le_iff_toNat_le,hshare]
    split
    · omega
    · omega
  · intro mac ip mac' ip' h h' hne e
    obtain ⟨hm,hip⟩ := answered h
    obtain ⟨hm',hip'⟩ := answered h'
    have hnum : (keysOf macs).number (key mac)≠(keysOf macs).number (key mac') :=
      fun same => hne (Roster.number_inj (mem_keysOf hm) same)
    have hlt := Roster.number_lt (mem_keysOf hm)
    have hlt' := Roster.number_lt (mem_keysOf hm')
    -- two numbers share an address only when one of them is beyond the range
    have same := congrArg (fun a => a.toU32.toNat) (hip.symm.trans (e.trans hip'))
    simp only [hshare] at same
    have hval := congrArg (fun a => a.toU32.toNat) hip
    simp only [hshare] at hval
    have first : ip.toU32.toNat=poolStart.toU32.toNat ∧
        poolEnd.toU32.toNat-poolStart.toU32.toNat+1<(keysOf macs).keys.length := by
      split at same
      · split at same
        · omega
        · rw [if_pos ‹_›] at hval
          omega
      · rw [if_neg ‹_›] at hval
        omega
    exact ⟨Ipv4Addr.toU32_inj first.1,first.2⟩

/-- Two addresses for three clients: the first and the last one share. -/
theorem allocations_by_first_appearance_three_clients :
    let macs : List (List UInt8) := [[1],[2],[1],[3]]
    let ips := (LeasePool.new ⟨10,0,0,1⟩ ⟨10,0,0,2⟩ ⟨255,255,255,0⟩ ⟨10,0,0,254⟩).answers macs
    ([1],⟨10,0,0,1⟩) ∈ macs.zip ips ∧ ([3],⟨10,0,0,1⟩) ∈ macs.zip ips ∧
      2<(LeasePool.keysOf macs).keys.length := by
  have runs := allocations_by_first_appearance ⟨10,0,0,1⟩ ⟨10,0,0,2⟩ ⟨255,255,255,0⟩
    ⟨10,0,0,254⟩ (by decide) (by decide) [[1],[2],[1],[3]]
  have shared := runs.2.2.2.2 [1] ⟨10,0,0,1⟩ [3] ⟨10,0,0,1⟩ (by decide) (by decide)
    (by decide) rfl
  exact ⟨by decide,by decide,shared.2⟩

end NacPlatform.Dhcp
