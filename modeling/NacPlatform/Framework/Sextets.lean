import Mathlib.Data.List.Basic

namespace NacPlatform

/-! Octets regrouped into six-bit groups, most significant bit first. -/

namespace Sextets

def ofOctets : List UInt8 → List Nat
  | x::y::z::rest =>
    x.toNat/4::(x.toNat%4*16+y.toNat/16)::(y.toNat%16*4+z.toNat/64)::z.toNat%64::ofOctets rest
  | [x,y] => [x.toNat/4,x.toNat%4*16+y.toNat/16,y.toNat%16*4]
  | [x] => [x.toNat/4,x.toNat%4*16]
  | [] => []

/-- The bits that fill no octet at the end are dropped. -/
def toOctets : List Nat → List UInt8
  | a::b::c::d::rest =>
    .ofNat (a*4+b/16)::.ofNat (b*16+c/4)::.ofNat (c*64+d)::toOctets rest
  | [a,b,c] => [.ofNat (a*4+b/16),.ofNat (b*16+c/4)]
  | [a,b] => [.ofNat (a*4+b/16)]
  | _ => []

/-- The groups end where octets can end and no bit is set behind the last octet. -/
def tight : List Nat → Bool
  | _::_::_::_::rest => tight rest
  | [_,_,c] => c%4==0
  | [_,b] => b%16==0
  | [_] => false
  | [] => true

theorem ofOctets_lt (bytes : List UInt8) : ∀ v ∈ ofOctets bytes, v<64 := by
  fun_induction ofOctets bytes with
  | case1 x y z rest ih =>
    have hx := x.toNat_lt
    have hy := y.toNat_lt
    have hz := z.toNat_lt
    simp only [List.mem_cons,forall_eq_or_imp]
    exact ⟨by omega,by omega,by omega,by omega,ih⟩
  | case2 x y =>
    have hx := x.toNat_lt
    have hy := y.toNat_lt
    simp only [List.mem_cons,List.not_mem_nil,or_false,forall_eq_or_imp,forall_eq]
    exact ⟨by omega,by omega,by omega⟩
  | case3 x =>
    have hx := x.toNat_lt
    simp only [List.mem_cons,List.not_mem_nil,or_false,forall_eq_or_imp,forall_eq]
    exact ⟨by omega,by omega⟩
  | case4 => simp

/-- Six bits to a group, the last one filled up. -/
theorem length_ofOctets (bytes : List UInt8) :
    (ofOctets bytes).length=(8*bytes.length+5)/6 := by
  fun_induction ofOctets bytes with
  | case1 x y z rest ih =>
    simp only [List.length_cons,ih]
    omega
  | case2 x y => simp
  | case3 x => simp
  | case4 => rfl

theorem tight_ofOctets (bytes : List UInt8) : tight (ofOctets bytes)=true := by
  fun_induction ofOctets bytes with
  | case1 x y z rest ih => exact ih
  | case2 x y =>
    rw [tight,beq_iff_eq]
    omega
  | case3 x =>
    rw [tight,beq_iff_eq]
    omega
  | case4 => rfl

theorem toOctets_ofOctets (bytes : List UInt8) : toOctets (ofOctets bytes)=bytes := by
  have octet {n : Nat} {x : UInt8} (h : n%256=x.toNat) : UInt8.ofNat n=x := by
    apply UInt8.toNat_inj.mp
    rw [UInt8.toNat_ofNat',h]
  fun_induction ofOctets bytes with
  | case1 x y z rest ih =>
    have hx := x.toNat_lt
    have hy := y.toNat_lt
    have hz := z.toNat_lt
    rw [toOctets,ih,octet (x := x) (by omega),octet (x := y) (by omega),octet (x := z) (by omega)]
  | case2 x y =>
    have hx := x.toNat_lt
    have hy := y.toNat_lt
    rw [toOctets,octet (x := x) (by omega),octet (x := y) (by omega)]
  | case3 x =>
    have hx := x.toNat_lt
    rw [toOctets,octet (x := x) (by omega)]
  | case4 => rfl

/-- Nothing is lost exactly when the groups are tight. -/
theorem ofOctets_toOctets {groups : List Nat} (hlt : ∀ v ∈ groups, v<64)
    (ht : tight groups=true) : ofOctets (toOctets groups)=groups := by
  fun_induction toOctets groups with
  | case1 a b c d rest ih =>
    simp only [List.mem_cons,forall_eq_or_imp] at hlt
    obtain ⟨ha,hb,hc,hd,hrest⟩ := hlt
    rw [ofOctets,ih hrest ht]
    simp only [UInt8.toNat_ofNat',List.cons.injEq,and_true]
    omega
  | case2 a b c =>
    simp only [List.mem_cons,List.not_mem_nil,or_false,forall_eq_or_imp,forall_eq] at hlt
    rw [tight,beq_iff_eq] at ht
    simp only [ofOctets,UInt8.toNat_ofNat',List.cons.injEq,and_true]
    omega
  | case3 a b =>
    simp only [List.mem_cons,List.not_mem_nil,or_false,forall_eq_or_imp,forall_eq] at hlt
    rw [tight,beq_iff_eq] at ht
    simp only [ofOctets,UInt8.toNat_ofNat',List.cons.injEq,and_true]
    omega
  | case4 groups h1 h2 h3 =>
    rcases groups with _|⟨a,_|⟨b,_|⟨c,_|⟨d,rest⟩⟩⟩⟩
    · rfl
    · simp [tight] at ht
    · exact absurd rfl (h3 a b)
    · exact absurd rfl (h2 a b c)
    · exact absurd rfl (h1 a b c d rest)

end Sextets

end NacPlatform
