import NacPlatform.Framework.Text
import Mathlib.Tactic.IntervalCases

namespace NacPlatform

/-- `std::net::Ipv4Addr`. -/
@[ext] structure Ipv4Addr where
  a : UInt8
  b : UInt8
  c : UInt8
  d : UInt8
  deriving DecidableEq, Repr

namespace Ipv4Addr

def unspecified : Ipv4Addr := ⟨0,0,0,0⟩

/-- `Ipv4Addr::from(u32::to_le_bytes(_))`. -/
def ofLittleEndian (n : Nat) : Ipv4Addr :=
  ⟨.ofNat n,.ofNat (n/2^8),.ofNat (n/2^16),.ofNat (n/2^24)⟩

/-- `Ipv4Addr::from(u32)`: the first octet is the most significant byte. -/
def ofU32 (n : UInt32) : Ipv4Addr :=
  ⟨.ofNat (n.toNat/2^24),.ofNat (n.toNat/2^16),.ofNat (n.toNat/2^8),.ofNat n.toNat⟩

/-- `u32::from(Ipv4Addr)`. -/
def toU32 (x : Ipv4Addr) : UInt32 :=
  .ofNat (x.a.toNat*2^24+x.b.toNat*2^16+x.c.toNat*2^8+x.d.toNat)

theorem toU32_ofU32 (n : UInt32) : (ofU32 n).toU32=n := by
  have hn := n.toNat_lt
  apply UInt32.toNat_inj.mp
  simp only [toU32,ofU32,UInt32.toNat_ofNat',UInt8.toNat_ofNat']
  omega

theorem toNat_toU32 (x : Ipv4Addr) :
    x.toU32.toNat=x.a.toNat*2^24+x.b.toNat*2^16+x.c.toNat*2^8+x.d.toNat := by
  have ha := x.a.toNat_lt
  have hb := x.b.toNat_lt
  have hc := x.c.toNat_lt
  have hd := x.d.toNat_lt
  simp only [toU32,UInt32.toNat_ofNat']
  omega

/-- Different addresses are different numbers. -/
theorem toU32_inj {x y : Ipv4Addr} (h : x.toU32.toNat=y.toU32.toNat) : x=y := by
  rw [toNat_toU32,toNat_toU32] at h
  have hxb := x.b.toNat_lt
  have hxc := x.c.toNat_lt
  have hxd := x.d.toNat_lt
  have hyb := y.b.toNat_lt
  have hyc := y.c.toNat_lt
  have hyd := y.d.toNat_lt
  ext
  · omega
  · omega
  · omega
  · omega

def octetText (n : UInt8) : List Char := (toString n.toNat).toList

/-- The dotted decimal `Display` form. -/
def text (x : Ipv4Addr) : String :=
  String.ofList (octetText x.a ++ '.'::(octetText x.b ++ '.'::(octetText x.c ++ '.'::octetText x.d)))

/-- One decimal octet: digits only, no leading zero, at most 255. -/
def parseOctet (cs : List Char) : Option UInt8 :=
  if cs.isEmpty || !cs.all Char.isDigit || (cs.head?==some '0' && 1<cs.length) then none
  else
    let n := cs.foldl (fun n c => 10*n+(c.toNat- '0'.toNat)) 0
    if n<256 then some (.ofNat n) else none

/-- `Ipv4Addr::from_str`: four octets and nothing else. -/
def parse (s : String) : Option Ipv4Addr :=
  match s.toList.splitOnP (· == '.') with
  | [a,b,c,d] => do return ⟨← parseOctet a,← parseOctet b,← parseOctet c,← parseOctet d⟩
  | _ => none

theorem parseOctet_text (n : UInt8) : parseOctet (octetText n)=some n := by
  have h : ∀ k : Fin 256, parseOctet (octetText (.ofNat k))=some (.ofNat k) := by decide +kernel
  simpa using h ⟨n.toNat,n.toNat_lt⟩

/-- Digits without a leading zero are what their number is written as. -/
theorem toDigits_of_digits {cs : List Char} (hne : cs≠[]) (hdigits : ∀ c ∈ cs, c.isDigit=true)
    (hhead : ¬(cs.head?=some '0' ∧ 1<cs.length)) :
    Nat.toDigits 10 (cs.foldl (fun n c => 10*n+(c.toNat- '0'.toNat)) 0)=cs := by
  have digit (c : Char) (hc : c.isDigit=true) :
      c.toNat- '0'.toNat<10 ∧ Nat.toDigits 10 (c.toNat- '0'.toNat)=[c] := by
    rw [Char.isDigit,Bool.and_eq_true,decide_eq_true_eq,decide_eq_true_eq] at hc
    have hlo : 48 ≤ c.toNat := UInt32.le_iff_toNat_le.mp hc.1
    have hhi : c.toNat ≤ 57 := UInt32.le_iff_toNat_le.mp hc.2
    have hzero : '0'.toNat = 48 := rfl
    have hlt : c.toNat- '0'.toNat<10 := by omega
    refine ⟨hlt,?_⟩
    have hchar : (c.toNat- '0'.toNat).digitChar=c := by
      apply Char.toNat_inj.mp
      rw [Nat.toNat_digitChar_of_lt_ten hlt]
      omega
    rw [Nat.toDigits_of_lt_base hlt,hchar]
  induction cs using List.reverseRecOn with
  | nil => exact absurd rfl hne
  | append_singleton init c ih =>
    obtain ⟨hlt,hc⟩ := digit c (hdigits c (by simp))
    rw [List.foldl_append,List.foldl_cons,List.foldl_nil]
    cases hinit : init with
    | nil => simpa using hc
    | cons d ds =>
      have ih' := ih (by simp [hinit]) (fun x hx => hdigits x (List.mem_append_left _ hx)) (by
        intro given
        apply hhead
        simp only [hinit,List.cons_append,List.head?_cons,List.length_cons,
          List.length_append,List.length_nil] at given ⊢
        exact ⟨given.1,by omega⟩)
      rw [← hinit]
      generalize init.foldl (fun n c => 10*n+(c.toNat- '0'.toNat)) 0=n at ih'
      have hpos : 0<n := by
        rcases Nat.eq_zero_or_pos n with h0|hpos
        · rw [h0,Nat.toDigits_zero] at ih'
          exact absurd ⟨by simp [← ih'],by simp [← ih']⟩ hhead
        · exact hpos
      rw [← Nat.toDigits_append_toDigits (by decide) hpos hlt,ih',hc]

/-- Parsing accepts of an octet what `Display` writes, and nothing else. -/
theorem eq_octetText_of_parseOctet {cs : List Char} {n : UInt8} (h : parseOctet cs=some n) :
    cs=octetText n := by
  unfold parseOctet at h
  split at h
  · cases h
  · next hshape =>
    simp only [Bool.or_eq_true,List.isEmpty_iff,Bool.not_eq_true',beq_iff_eq,Bool.and_eq_true,
      decide_eq_true_eq,not_or,Bool.not_eq_false,List.all_eq_true] at hshape
    obtain ⟨⟨hne,hdigits⟩,hhead⟩ := hshape
    simp only [] at h
    split at h
    · next hlt =>
      obtain rfl := Option.some.inj h
      rw [octetText,UInt8.toNat_ofNat_of_lt' hlt]
      change cs=(Nat.repr _).toList
      rw [Nat.toList_repr,toDigits_of_digits hne hdigits hhead]
    · cases h

theorem octetText_digits (n : UInt8) : ∀ c ∈ octetText n, c.isDigit=true := by
  have h : ∀ k : Fin 256, (octetText (.ofNat k)).all Char.isDigit=true := by decide +kernel
  simpa [List.all_eq_true] using h ⟨n.toNat,n.toNat_lt⟩

theorem octetText_notMem (n : UInt8) {c : Char} (hc : c.isDigit=false) : c ∉ octetText n :=
  fun h => by simp [octetText_digits n c h] at hc

/-- Parsing reads back what `Display` writes. -/
theorem parse_text (x : Ipv4Addr) : parse x.text=some x := by
  have dot (n : UInt8) : ∀ c ∈ octetText n, (c == '.')=false := by
    intro c hc
    simpa using fun e : c = '.' => octetText_notMem n (c := '.') (by decide) (e ▸ hc)
  have split : x.text.toList.splitOnP (· == '.')=
      [octetText x.a,octetText x.b,octetText x.c,octetText x.d] := by
    rw [text,String.toList_ofList,List.splitOnP_append_cons_of_forall_mem (dot _) _ (by simp),
      List.splitOnP_append_cons_of_forall_mem (dot _) _ (by simp),
      List.splitOnP_append_cons_of_forall_mem (dot _) _ (by simp),
      List.splitOnP_eq_singleton (dot _)]
  simp [parse,split,parseOctet_text]

theorem text_injective {x y : Ipv4Addr} (h : x.text=y.text) : x=y := by
  have hp := congrArg parse h
  simpa [parse_text] using hp

@[simp] theorem text_inj {x y : Ipv4Addr} : x.text=y.text ↔ x=y :=
  ⟨text_injective,fun h => h ▸ rfl⟩

/-- A dotted decimal address holds neither a slash nor anything else but digits and dots. -/
theorem text_chars (x : Ipv4Addr) : ∀ c ∈ x.text.toList, c.isDigit=true ∨ c = '.' := by
  intro c hc
  simp only [text,String.toList_ofList,List.mem_append,List.mem_cons] at hc
  rcases hc with h|rfl|h|rfl|h|rfl|h
  all_goals first
    | exact .inr rfl
    | exact .inl (octetText_digits _ _ h)

theorem text_ne_empty (x : Ipv4Addr) : x.text≠"" := by
  intro h
  have hp := congrArg parse h
  have he : parse ""=none := by decide
  simp [parse_text,he] at hp

theorem text_eq_unspecified {x : Ipv4Addr} : x.text="0.0.0.0" ↔ x=unspecified := by
  have h : unspecified.text="0.0.0.0" := by decide
  rw [← h,text_inj]

/-- Cutting a CIDR suffix leaves a plain address alone. -/
theorem takeUntil_text (x : Ipv4Addr) : takeUntil '/' x.text=x.text := by
  apply takeUntil_self
  intro h
  rcases x.text_chars _ h with h | h
  · exact absurd h (by decide)
  · exact absurd h (by decide)

end Ipv4Addr

/-- CIDR suffix removal: everything from the first slash on. -/
def stripCidr (ip : String) : String := takeUntil '/' ip

@[simp] theorem stripCidr_text (a : Ipv4Addr) : stripCidr a.text=a.text := a.takeUntil_text

@[simp] theorem stripCidr_stripCidr (ip : String) : stripCidr (stripCidr ip)=stripCidr ip :=
  takeUntil_idem '/' ip

/-- What a host address is shown as differs from it in the suffix only. -/
theorem stripCidr_shown (a : Ipv4Addr) : stripCidr (a.text++"/32")=a.text := by
  have slash : '/' ∉ a.text.toList := by
    intro h
    rcases a.text_chars _ h with h | h
    · exact absurd h (by decide)
    · exact absurd h (by decide)
  exact takeUntil_append slash "32"

/-- A hardware address, `[u8; 6]`. -/
@[ext] structure MacAddr where
  b0 : UInt8
  b1 : UInt8
  b2 : UInt8
  b3 : UInt8
  b4 : UInt8
  b5 : UInt8
  deriving DecidableEq, Repr

namespace MacAddr

def zero : MacAddr := ⟨0,0,0,0,0,0⟩

def broadcast : MacAddr := ⟨0xff,0xff,0xff,0xff,0xff,0xff⟩

def hexByte (hi lo : Char) : UInt8 := .ofNat (16*hexValue hi+hexValue lo)

def byteText (n : UInt8) : List Char := [hexChar (n.toNat/16),hexChar (n.toNat%16)]

/-- The six bytes that twelve hexadecimal digits stand for. -/
def ofHexDigits : List Char → Option MacAddr
  | [a,b,c,d,e,f,g,h,i,j,k,l] =>
    some ⟨hexByte a b,hexByte c d,hexByte e f,hexByte g h,hexByte i j,hexByte k l⟩
  | _ => none

/-- Lower case, bytes separated by colons. -/
def text (m : MacAddr) : String :=
  String.ofList (byteText m.b0 ++ ':'::(byteText m.b1 ++ ':'::(byteText m.b2 ++ ':'::
    (byteText m.b3 ++ ':'::(byteText m.b4 ++ ':'::byteText m.b5)))))

theorem byteText_hexByte {a b : Char} (ha : isHexDigit a=true) (hb : isHexDigit b=true) :
    byteText (hexByte a b)=[a.toLower,b.toLower] := by
  have va := hexValue_lt ha
  have vb := hexValue_lt hb
  have hn : (hexByte a b).toNat=16*hexValue a+hexValue b := by
    simp only [hexByte,UInt8.toNat_ofNat']
    omega
  rw [byteText,hn,toLower_hexDigit ha,toLower_hexDigit hb]
  congr 2 <;> congr 1 <;> omega

theorem hexByte_byteText (n : UInt8) :
    hexByte (hexChar (n.toNat/16)) (hexChar (n.toNat%16))=n := by
  have hn := n.toNat_lt
  rw [hexByte,(hexChar_hexValue _ (by omega)).2,(hexChar_hexValue _ (by omega)).2,
    Nat.div_add_mod]
  simp

theorem hexDigits_text (m : MacAddr) :
    hexDigits m.text=byteText m.b0++byteText m.b1++byteText m.b2++byteText m.b3++
      byteText m.b4++byteText m.b5 := by
  have digit (n : UInt8) : isHexDigit (hexChar (n.toNat/16))=true ∧
      isHexDigit (hexChar (n.toNat%16))=true := by
    have hn := n.toNat_lt
    exact ⟨(hexChar_hexValue _ (by omega)).1,(hexChar_hexValue _ (by omega)).1⟩
  have colon : isHexDigit ':'=false := by decide
  simp [hexDigits,text,byteText,digit,colon]

/-- The digits of the text of an address give the address back. -/
theorem ofHexDigits_text (m : MacAddr) : ofHexDigits (hexDigits m.text)=some m := by
  simp only [hexDigits_text,byteText,List.cons_append,List.nil_append,ofHexDigits,
    hexByte_byteText]

theorem text_injective {m n : MacAddr} (h : m.text=n.text) : m=n := by
  have hp := congrArg (fun s => ofHexDigits (hexDigits s)) h
  simpa [ofHexDigits_text] using hp

@[simp] theorem text_inj {m n : MacAddr} : m.text=n.text ↔ m=n :=
  ⟨text_injective,fun h => h ▸ rfl⟩

theorem ofHexDigits_isSome {ds : List Char} :
    (∃ m, ofHexDigits ds=some m) ↔ ds.length=12 := by
  constructor
  · intro given
    obtain ⟨m,h⟩ := given
    unfold ofHexDigits at h
    split at h
    · rfl
    · exact absurd h (by simp)
  · intro h
    match ds,h with
    | [a,b,c,d,e,f,g,h,i,j,k,l],_ => exact ⟨_,rfl⟩

/-- Only the values of the digits count, not their case. -/
theorem ofHexDigits_toLower {ds : List Char} (hd : ∀ c ∈ ds, isHexDigit c=true) :
    ofHexDigits (ds.map Char.toLower)=ofHexDigits ds := by
  have value (c : Char) (hc : isHexDigit c=true) : hexValue c.toLower=hexValue c := by
    rw [toLower_hexDigit hc,(hexChar_hexValue _ (hexValue_lt hc)).2]
  unfold ofHexDigits
  split
  · rename_i heq
    match ds,heq with
    | [a,b,c,d,e,f,g,h,i,j,k,l],heq =>
      simp only [List.map_cons,List.map_nil,List.cons.injEq,and_true] at heq
      obtain ⟨rfl,rfl,rfl,rfl,rfl,rfl,rfl,rfl,rfl,rfl,rfl,rfl⟩ := heq
      simp only [List.mem_cons,List.not_mem_nil,or_false,forall_eq_or_imp,forall_eq] at hd
      simp only [hexByte,value _ hd.1,value _ hd.2.1,value _ hd.2.2.1,value _ hd.2.2.2.1,
        value _ hd.2.2.2.2.1,value _ hd.2.2.2.2.2.1,value _ hd.2.2.2.2.2.2.1,
        value _ hd.2.2.2.2.2.2.2.1,value _ hd.2.2.2.2.2.2.2.2.1,
        value _ hd.2.2.2.2.2.2.2.2.2.1,value _ hd.2.2.2.2.2.2.2.2.2.2.1,
        value _ hd.2.2.2.2.2.2.2.2.2.2.2]
  · rename_i hne
    split
    · rename_i a b c d e f g h i j k l
      exact absurd rfl (hne _ _ _ _ _ _ _ _ _ _ _ _)
    · rfl

end MacAddr

end NacPlatform
