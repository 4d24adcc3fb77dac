import Mathlib.Data.List.ReduceOption

namespace NacPlatform.Utf8

/-- The bytes of a text. -/
def encode (cs : List Char) : List UInt8 := cs.flatMap String.utf8EncodeChar

@[simp] theorem encode_nil : encode []=[] := rfl

@[simp] theorem encode_cons (c : Char) (cs : List Char) :
    encode (c::cs)=String.utf8EncodeChar c++encode cs := rfl

@[simp] theorem encode_append (cs ds : List Char) : encode (cs++ds)=encode cs++encode ds :=
  List.flatMap_append

theorem utf8EncodeChar_ascii {c : Char} (h : c.toNat<0x80) :
    String.utf8EncodeChar c=[UInt8.ofNat c.toNat] := by
  have hv : c.val.toNat ≤ 0x7f := Nat.le_of_lt_succ h
  simp only [String.utf8EncodeChar,if_pos hv]
  rfl

/-- An ASCII text has a byte for each character. -/
theorem encode_ascii {cs : List Char} (h : ∀ c ∈ cs, c.toNat<0x80) :
    encode cs=cs.map fun c => UInt8.ofNat c.toNat := by
  induction cs with
  | nil => rfl
  | cons c cs ih =>
    rw [encode_cons,utf8EncodeChar_ascii (h c List.mem_cons_self),
      ih fun d hd => h d (List.mem_cons_of_mem c hd)]
    rfl

/-- A sequence that has begun: how many bytes it still needs, the bounds of the next one, and the
value of those before it. -/
structure Pending where
  more : Nat
  lo : Nat
  hi : Nat
  value : Nat
  deriving DecidableEq, Repr

/-- What the first byte of a sequence announces. The narrower bounds keep out overlong forms,
surrogates and values above the last code point. -/
def lead (n : Nat) : Option Pending :=
  if n<0x80 then some ⟨0,0x80,0xbf,n⟩
  else if n<0xc2 then none
  else if n<0xe0 then some ⟨1,0x80,0xbf,n-0xc0⟩
  else if n<0xf0 then
    some ⟨2,if n=0xe0 then 0xa0 else 0x80,if n=0xed then 0x9f else 0xbf,n-0xe0⟩
  else if n<0xf5 then
    some ⟨3,if n=0xf0 then 0x90 else 0x80,if n=0xf4 then 0x8f else 0xbf,n-0xf0⟩
  else none

/-- A sequence that needs nothing more is a character. -/
def settle (p : Pending) : List (Option Char) × Option Pending :=
  if p.more=0 then ([some (Char.ofNat p.value)],none) else ([],some p)

def enter (n : Nat) : List (Option Char) × Option Pending := (lead n).elim ([none],none) settle

/-- A byte out of place ends the sequence before it and is looked at again as a first byte. -/
def feed (n : Nat) : Option Pending → List (Option Char) × Option Pending
  | none => enter n
  | some p =>
    if p.lo ≤ n ∧ n ≤ p.hi then settle ⟨p.more-1,0x80,0xbf,64*p.value+(n-0x80)⟩
    else (none::(enter n).1,(enter n).2)

/-- The characters of a text, with `none` for every maximal ill-formed sequence. -/
def chunks : Option Pending → List UInt8 → List (Option Char)
  | none, [] => []
  | some _, [] => [none]
  | st, b::bs => (feed b.toNat st).1++chunks (feed b.toNat st).2 bs

/-- `String::from_utf8_lossy`. -/
def lossy (bs : List UInt8) : List Char := (chunks none bs).map (·.getD '\uFFFD')

/-- `str::from_utf8`. -/
def decode (bs : List UInt8) : Option (List Char) :=
  if (chunks none bs).all Option.isSome then some ((chunks none bs).reduceOption) else none

theorem toNat_valid (c : Char) : c.toNat<0xd800 ∨ 0xdfff<c.toNat ∧ c.toNat<0x110000 := c.valid

@[simp] theorem chunks_nil : chunks none []=[] := rfl

theorem chunks_none_cons (b : UInt8) (bs : List UInt8) :
    chunks none (b::bs)=(enter b.toNat).1++chunks (enter b.toNat).2 bs := rfl

theorem chunks_some_cons {p : Pending} {b : UInt8} (bs : List UInt8) (hlo : p.lo ≤ b.toNat)
    (hhi : b.toNat ≤ p.hi) : chunks (some p) (b::bs)=
      (settle ⟨p.more-1,0x80,0xbf,64*p.value+(b.toNat-0x80)⟩).1++
        chunks (settle ⟨p.more-1,0x80,0xbf,64*p.value+(b.toNat-0x80)⟩).2 bs := by
  simp only [chunks,feed,if_pos (And.intro hlo hhi)]

theorem enter_of_lead {n : Nat} {p : Pending} (h : lead n=some p) : enter n=settle p := by
  simp only [enter,h,Option.elim_some]

/-- A byte below 0x80 is a character by itself. -/
theorem chunks_ascii {b : UInt8} (h : b.toNat<0x80) (bs : List UInt8) :
    chunks none (b::bs)=some (Char.ofNat b.toNat)::chunks none bs := by
  have hl : lead b.toNat=some ⟨0,0x80,0xbf,b.toNat⟩ := if_pos h
  rw [chunks_none_cons,enter_of_lead hl]
  rfl

theorem chunks_lead {b : UInt8} {p : Pending} (h : lead b.toNat=some p) (hm : p.more≠0)
    (bs : List UInt8) : chunks none (b::bs)=chunks (some p) bs := by
  rw [chunks_none_cons,enter_of_lead h,settle,if_neg hm]
  rfl

/-- A continuation byte with others to come. -/
theorem chunks_more {m lo hi value : Nat} {b : UInt8} (hlo : lo ≤ b.toNat) (hhi : b.toNat ≤ hi)
    (bs : List UInt8) : chunks (some ⟨m+2,lo,hi,value⟩) (b::bs)=
      chunks (some ⟨m+1,0x80,0xbf,64*value+(b.toNat-0x80)⟩) bs := by
  rw [chunks_some_cons bs hlo hhi,settle,if_neg (by simp)]
  rfl

/-- The last continuation byte. -/
theorem chunks_last {lo hi value : Nat} {b : UInt8} (hlo : lo ≤ b.toNat) (hhi : b.toNat ≤ hi)
    (bs : List UInt8) : chunks (some ⟨1,lo,hi,value⟩) (b::bs)=
      some (Char.ofNat (64*value+(b.toNat-0x80)))::chunks none bs := by
  rw [chunks_some_cons bs hlo hhi]
  rfl

theorem toNat_ofNat {n : Nat} (h : n<256) : (UInt8.ofNat n).toNat=n := by
  rw [UInt8.toNat_ofNat']
  omega

theorem chunks_two {v : Nat} (hlo : 0x80 ≤ v) (hhi : v<0x800) (bs : List UInt8) :
    chunks none (UInt8.ofNat (v/64%0x20+0xc0)::UInt8.ofNat (v%0x40+0x80)::bs)=
      some (Char.ofNat v)::chunks none bs := by
  have h1 : (UInt8.ofNat (v/64%0x20+0xc0)).toNat=v/64+0xc0 := by
    rw [toNat_ofNat (by omega)]
    omega
  have h2 : (UInt8.ofNat (v%0x40+0x80)).toNat=v%0x40+0x80 := toNat_ofNat (by omega)
  have hl : lead (UInt8.ofNat (v/64%0x20+0xc0)).toNat=some ⟨1,0x80,0xbf,v/64⟩ := by
    rw [h1,lead,if_neg (by omega),if_neg (by omega),if_pos (by omega),Nat.add_sub_cancel]
  rw [chunks_lead (hl) (by simp),chunks_last (by omega) (by omega),h2]
  have hv : 64*(v/64)+(v%0x40+0x80-0x80)=v := by omega
  rw [hv]

theorem chunks_three {v : Nat} (hlo : 0x800 ≤ v) (hhi : v<0x10000)
    (hs : v<0xd800 ∨ 0xdfff<v) (bs : List UInt8) :
    chunks none (UInt8.ofNat (v/4096%0x10+0xe0)::UInt8.ofNat (v/64%0x40+0x80)::
        UInt8.ofNat (v%0x40+0x80)::bs)=
      some (Char.ofNat v)::chunks none bs := by
  have h1 : (UInt8.ofNat (v/4096%0x10+0xe0)).toNat=v/4096+0xe0 := by
    rw [toNat_ofNat (by omega)]
    omega
  have h2 : (UInt8.ofNat (v/64%0x40+0x80)).toNat=v/64%0x40+0x80 := toNat_ofNat (by omega)
  have h3 : (UInt8.ofNat (v%0x40+0x80)).toNat=v%0x40+0x80 := toNat_ofNat (by omega)
  have hl : lead (UInt8.ofNat (v/4096%0x10+0xe0)).toNat=
      some ⟨2,if v/4096+0xe0=0xe0 then 0xa0 else 0x80,
        if v/4096+0xe0=0xed then 0x9f else 0xbf,v/4096⟩ := by
    rw [h1,lead,if_neg (by omega),if_neg (by omega),if_neg (by omega),if_pos (by omega),
      Nat.add_sub_cancel]
  have low : (if v/4096+0xe0=0xe0 then 0xa0 else 0x80) ≤ v/64%0x40+0x80 := by
    split <;> omega
  have high : v/64%0x40+0x80 ≤ if v/4096+0xe0=0xed then 0x9f else 0xbf := by
    split <;> omega
  rw [chunks_lead (hl) (by simp),chunks_more (h2.symm ▸ low) (h2.symm ▸ high),
    chunks_last (by omega) (by omega),h2,h3]
  have hv : 64*(64*(v/4096)+(v/64%0x40+0x80-0x80))+(v%0x40+0x80-0x80)=v := by omega
  rw [hv]

theorem chunks_four {v : Nat} (hlo : 0x10000 ≤ v) (hhi : v<0x110000) (bs : List UInt8) :
    chunks none (UInt8.ofNat (v/262144%0x08+0xf0)::UInt8.ofNat (v/4096%0x40+0x80)::
        UInt8.ofNat (v/64%0x40+0x80)::UInt8.ofNat (v%0x40+0x80)::bs)=
      some (Char.ofNat v)::chunks none bs := by
  have h1 : (UInt8.ofNat (v/262144%0x08+0xf0)).toNat=v/262144+0xf0 := by
    rw [toNat_ofNat (by omega)]
    omega
  have h2 : (UInt8.ofNat (v/4096%0x40+0x80)).toNat=v/4096%0x40+0x80 := toNat_ofNat (by omega)
  have h3 : (UInt8.ofNat (v/64%0x40+0x80)).toNat=v/64%0x40+0x80 := toNat_ofNat (by omega)
  have h4 : (UInt8.ofNat (v%0x40+0x80)).toNat=v%0x40+0x80 := toNat_ofNat (by omega)
  have hl : lead (UInt8.ofNat (v/262144%0x08+0xf0)).toNat=
      some ⟨3,if v/262144+0xf0=0xf0 then 0x90 else 0x80,
        if v/262144+0xf0=0xf4 then 0x8f else 0xbf,v/262144⟩ := by
    rw [h1,lead,if_neg (by omega),if_neg (by omega),if_neg (by omega),if_neg (by omega),
      if_pos (by omega),Nat.add_sub_cancel]
  have low : (if v/262144+0xf0=0xf0 then 0x90 else 0x80) ≤ v/4096%0x40+0x80 := by
    split <;> omega
  have high : v/4096%0x40+0x80 ≤ if v/262144+0xf0=0xf4 then 0x8f else 0xbf := by
    split <;> omega
  rw [chunks_lead (hl) (by simp),chunks_more (h2.symm ▸ low) (h2.symm ▸ high),
    chunks_more (by omega) (by omega),chunks_last (by omega) (by omega),h2,h3,h4]
  have hv : 64*(64*(64*(v/262144)+(v/4096%0x40+0x80-0x80))+(v/64%0x40+0x80-0x80))+
      (v%0x40+0x80-0x80)=v := by omega
  rw [hv]

/-- Every character is read back from its bytes, whatever follows. -/
theorem chunks_utf8EncodeChar (c : Char) (bs : List UInt8) :
    chunks none (String.utf8EncodeChar c++bs)=some c::chunks none bs := by
  have hvalid := toNat_valid c
  have hc : Char.ofNat c.val.toNat=c := Char.ofNat_toNat c
  change c.val.toNat<0xd800 ∨ 0xdfff<c.val.toNat ∧ c.val.toNat<0x110000 at hvalid
  unfold String.utf8EncodeChar
  generalize c.val.toNat=v at hvalid hc
  simp only []
  by_cases h1 : v ≤ 0x7f
  · have hb := toNat_ofNat (n := v) (by omega)
    rw [if_pos h1,List.cons_append,List.nil_append,chunks_ascii (by omega),hb,hc]
  by_cases h2 : v ≤ 0x7ff
  · rw [if_neg h1,if_pos h2]
    exact hc ▸ chunks_two (by omega) (by omega) bs
  by_cases h3 : v ≤ 0xffff
  · rw [if_neg h1,if_neg h2,if_pos h3]
    exact hc ▸ chunks_three (by omega) (by omega) (by omega) bs
  · rw [if_neg h1,if_neg h2,if_neg h3]
    exact hc ▸ chunks_four (by omega) (by omega) bs

theorem chunks_encode (cs : List Char) (bs : List UInt8) :
    chunks none (encode cs++bs)=cs.map some++chunks none bs := by
  induction cs with
  | nil => rfl
  | cons c cs ih =>
    rw [encode_cons,List.append_assoc,chunks_utf8EncodeChar,ih,List.map_cons,List.cons_append]

/-- Encoded text is read back. -/
theorem lossy_encode (cs : List Char) : lossy (encode cs)=cs := by
  have h := chunks_encode cs []
  rw [List.append_nil,chunks_nil,List.append_nil] at h
  rw [lossy,h,List.map_map]
  exact List.map_id cs

theorem decode_encode (cs : List Char) : decode (encode cs)=some cs := by
  have h := chunks_encode cs []
  rw [List.append_nil,chunks_nil,List.append_nil] at h
  rw [decode,h]
  simp [List.reduceOption]

/-- Where strict decoding succeeds, lossy decoding does the same. -/
theorem lossy_of_decode {bs : List UInt8} {cs : List Char} (h : decode bs=some cs) :
    lossy bs=cs := by
  unfold decode at h
  split at h
  · next hall =>
    cases h
    unfold lossy
    generalize chunks none bs=os at hall
    induction os with
    | nil => rfl
    | cons o os ih =>
      cases o with
      | none => simp at hall
      | some c =>
        rw [List.all_cons,Bool.and_eq_true] at hall
        rw [List.map_cons,List.reduceOption_cons_of_some,ih hall.2]
        rfl
  · cases h

end NacPlatform.Utf8
