import NacPlatform.Framework.Address
import NacPlatform.Framework.Roster

namespace NacPlatform.Dhcp

/-- The table behind the mutex, with the fixed answers of the subnet. -/
structure LeasePool where
  leases : List (List UInt8 × Ipv4Addr)
  next : UInt32
  start : UInt32
  end_ : UInt32
  subnetMask : Ipv4Addr
  gateway : Ipv4Addr
  deriving DecidableEq, Repr

namespace LeasePool

def new (poolStart poolEnd subnetMask gateway : Ipv4Addr) : LeasePool where
  leases := []
  next := poolStart.toU32
  start := poolStart.toU32
  end_ := poolEnd.toU32
  subnetMask := subnetMask
  gateway := gateway

/-- `mac[..6.min(mac.len())]`. -/
def key (mac : List UInt8) : List UInt8 := mac.take 6

def lease (pool : LeasePool) (mac : List UInt8) : Option Ipv4Addr := pool.leases.lookup (key mac)

/-- The address and the pool after the call. The counter wraps as in a release build. -/
def getOrAllocate (pool : LeasePool) (mac : List UInt8) : Ipv4Addr × LeasePool :=
  match pool.lease mac with
  | some ip => (ip,pool)
  | none =>
    if pool.next ≤ pool.end_ then
      let ip := Ipv4Addr.ofU32 pool.next
      (ip,{pool with next := pool.next+1, leases := (key mac,ip)::pool.leases})
    else
      -- an exhausted pool hands out its first address again
      let ip := Ipv4Addr.ofU32 pool.start
      (ip,{pool with leases := (key mac,ip)::pool.leases})

def size (pool : LeasePool) : Nat := pool.end_.toNat-pool.start.toNat+1

theorem getOrAllocate_of_lease {pool : LeasePool} {mac : List UInt8} {ip : Ipv4Addr}
    (h : pool.lease mac=some ip) : pool.getOrAllocate mac=(ip,pool) := by
  simp [getOrAllocate,h]

theorem getOrAllocate_of_next {pool : LeasePool} {mac : List UInt8} (h : pool.lease mac=none)
    (hn : pool.next ≤ pool.end_) :
    pool.getOrAllocate mac=(Ipv4Addr.ofU32 pool.next,
      {pool with
        next := pool.next+1
        leases := (key mac,Ipv4Addr.ofU32 pool.next)::pool.leases}) := by
  simp [getOrAllocate,h,hn]

theorem getOrAllocate_of_full {pool : LeasePool} {mac : List UInt8} (h : pool.lease mac=none)
    (hn : ¬pool.next ≤ pool.end_) :
    pool.getOrAllocate mac=(Ipv4Addr.ofU32 pool.start,
      {pool with leases := (key mac,Ipv4Addr.ofU32 pool.start)::pool.leases}) := by
  simp [getOrAllocate,h,hn]

/-- The bounds of the pool never move. -/
theorem getOrAllocate_bounds (pool : LeasePool) (mac : List UInt8) :
    (pool.getOrAllocate mac).2.start=pool.start ∧ (pool.getOrAllocate mac).2.end_=pool.end_ := by
  unfold getOrAllocate
  split
  · exact ⟨rfl,rfl⟩
  · split
    · exact ⟨rfl,rfl⟩
    · exact ⟨rfl,rfl⟩

/-- The address with number `n` in the pool. -/
def nth (pool : LeasePool) (n : Nat) : Ipv4Addr := .ofU32 (.ofNat (pool.start.toNat+n))

/-- The pool numbers the keys it has seen in the order of their first appearance. -/
structure Represents (pool : LeasePool) (r : Roster (List UInt8)) : Prop where
  ordered : pool.start ≤ pool.end_
  room : r.keys.length ≤ pool.size
  next : r.keys.length<pool.size → pool.next.toNat=pool.start.toNat+r.keys.length
  leased : ∀ k, pool.leases.lookup k=if k ∈ r.keys then some (pool.nth (r.number k)) else none

theorem new_represents {poolStart poolEnd : Ipv4Addr} (subnetMask gateway : Ipv4Addr)
    (h : poolStart.toU32 ≤ poolEnd.toU32) :
    (new poolStart poolEnd subnetMask gateway).Represents .empty where
  ordered := by simpa only [new] using h
  room := by simp only [Roster.empty_keys,List.length_nil,Nat.zero_le]
  next := by
    intro _
    have first : (new poolStart poolEnd subnetMask gateway).next=
        (new poolStart poolEnd subnetMask gateway).start := rfl
    rw [first,Roster.empty_keys,List.length_nil,Nat.add_zero]
  leased := by
    intro k
    simp only [new,Roster.empty_keys,List.not_mem_nil,if_false,List.lookup_nil]

section

variable {pool : LeasePool} {r : Roster (List UInt8)} {mac : List UInt8}

theorem Represents.lease_eq (h : pool.Represents r) (hm : key mac ∈ r.keys) :
    pool.lease mac=some (pool.nth (r.number (key mac))) := by
  rw [lease,h.leased,if_pos hm]

theorem Represents.lease_eq_none (h : pool.Represents r) (hm : key mac ∉ r.keys) :
    pool.lease mac=none := by
  rw [lease,h.leased,if_neg hm]

theorem Represents.mem_of_lease (h : pool.Represents r) {ip : Ipv4Addr}
    (hl : pool.lease mac=some ip) : key mac ∈ r.keys := by
  by_cases hm : key mac ∈ r.keys
  · exact hm
  · rw [h.lease_eq_none hm] at hl
    cases hl

theorem nth_toNat (ho : pool.start ≤ pool.end_) {n : Nat} (hn : n<pool.size) :
    (pool.nth n).toU32.toNat=pool.start.toNat+n := by
  have hs := UInt32.le_iff_toNat_le.mp ho
  have he := pool.end_.toNat_lt
  have small : pool.start.toNat+n<2^32 := by
    unfold size at hn
    omega
  rw [nth,Ipv4Addr.toU32_ofU32,UInt32.toNat_ofNat',Nat.mod_eq_of_lt small]

/-- Different numbers are different addresses. -/
theorem nth_inj (ho : pool.start ≤ pool.end_) {m n : Nat} (hm : m<pool.size) (hn : n<pool.size)
    (e : pool.nth m=pool.nth n) : m=n := by
  have same := congrArg (fun ip => ip.toU32.toNat) e
  simp only [nth_toNat ho hm,nth_toNat ho hn] at same
  omega

/-- Every numbered address lies between the bounds. -/
theorem nth_mem (ho : pool.start ≤ pool.end_) {n : Nat} (hn : n<pool.size) :
    pool.start ≤ (pool.nth n).toU32 ∧ (pool.nth n).toU32 ≤ pool.end_ := by
  have hs := UInt32.le_iff_toNat_le.mp ho
  rw [UInt32.le_iff_toNat_le,UInt32.le_iff_toNat_le,nth_toNat ho hn]
  unfold size at hn
  omega

/-- While there is an address left, the call enrolls the key and answers with its address. -/
theorem Represents.getOrAllocate (h : pool.Represents r)
    (hroom : key mac ∈ r.keys ∨ r.keys.length<pool.size) :
    (pool.getOrAllocate mac).2.Represents (r.enroll (key mac)) ∧
      (pool.getOrAllocate mac).1=pool.nth ((r.enroll (key mac)).number (key mac)) := by
  by_cases hm : key mac ∈ r.keys
  · rw [getOrAllocate_of_lease (h.lease_eq hm),Roster.enroll_of_mem hm]
    exact ⟨h,rfl⟩
  · have hlt : r.keys.length<pool.size := hroom.resolve_left hm
    have hs := UInt32.le_iff_toNat_le.mp h.ordered
    have hnext := h.next hlt
    have hle : pool.next ≤ pool.end_ := by
      rw [UInt32.le_iff_toNat_le,hnext]
      unfold size at hlt
      omega
    have hip : Ipv4Addr.ofU32 pool.next=pool.nth r.keys.length := by
      rw [nth,← hnext,UInt32.ofNat_toNat]
    rw [getOrAllocate_of_next (h.lease_eq_none hm) hle,hip,Roster.number_enroll_self hm]
    refine ⟨⟨h.ordered,?_,?_,?_⟩,rfl⟩
    · rw [Roster.enroll_keys hm,List.length_append,List.length_singleton]
      exact hlt
    · intro hmore
      rw [Roster.enroll_keys hm,List.length_append,List.length_singleton] at hmore ⊢
      have he := pool.end_.toNat_lt
      have hmore : r.keys.length+1<pool.end_.toNat-pool.start.toNat+1 := hmore
      -- another address is left, so the counter has not wrapped
      change (pool.next+1).toNat=pool.start.toNat+(r.keys.length+1)
      rw [UInt32.toNat_add,hnext,UInt32.toNat_one,Nat.mod_eq_of_lt (by omega)]
      omega
    · have leased : r.Tabulates pool.nth pool.leases := h.leased
      exact leased.cons hm

end

end LeasePool

end NacPlatform.Dhcp
