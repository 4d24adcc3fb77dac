import Mathlib.Algebra.Ring.Nat
import NacPlatform.Framework.Percent

namespace NacPlatform

/-! ASCII characters through UTF-8 and percent decoding: reading a text never adds one. -/

namespace Utf8

/-- A property of code points that only ASCII characters can have. -/
def Low (q : Nat → Bool) : Prop := ∀ n, q n=true → n<0x80

/-- What a sequence that has begun can still become: a character from `from` on and below `below`,
beyond ASCII and no surrogate. -/
structure Sound (p : Pending) : Prop where
  more : p.more=1 ∨ p.more=2 ∨ p.more=3
  lo : 0x80 ≤ p.lo
  hi : p.hi ≤ 0xbf
  wide : 0x80 ≤ (64*p.value+(p.lo-0x80))*64^(p.more-1)
  scalar : (64*p.value+(p.hi-0x80)+1)*64^(p.more-1) ≤ 0xd800 ∨
    0xe000 ≤ (64*p.value+(p.lo-0x80))*64^(p.more-1) ∧
      (64*p.value+(p.hi-0x80)+1)*64^(p.more-1) ≤ 0x110000

def SoundState (st : Option Pending) : Prop := ∀ p, st=some p → Sound p

theorem soundState_none : SoundState none := fun _ h => (nomatch h)

/-- How many characters with the property stand among the chunks. -/
def tally (q : Nat → Bool) (os : List (Option Char)) : Nat :=
  os.countP fun o => o.any fun c => q c.toNat

theorem toNat_char_ofNat {n : Nat} (h : n<0xd800 ∨ 0xe000 ≤ n ∧ n<0x110000) :
    (Char.ofNat n).toNat=n := by
  have hv : n.isValidChar := by
    rcases h with h | ⟨h,h'⟩
    · exact .inl h
    · exact .inr ⟨h,h'⟩
  rw [Char.ofNat,dif_pos hv]
  rfl

theorem lead_sound {n : Nat} (hn : 0x80 ≤ n) {p : Pending} (h : lead n=some p) : Sound p := by
  unfold lead at h
  rw [if_neg (by omega)] at h
  split at h
  · cases h
  split at h
  · obtain rfl := Option.some.inj h
    refine ⟨.inl rfl,?_,?_,?_,.inl ?_⟩
    all_goals simp only [Nat.sub_self,Nat.pow_zero,Nat.mul_one]
    all_goals omega
  split at h
  · obtain rfl := Option.some.inj h
    refine ⟨.inr (.inl rfl),?_,?_,?_,?_⟩
    all_goals simp only [Nat.add_one_sub_one,Nat.pow_one]
    · split <;> omega
    · split <;> omega
    · split <;> omega
    · split <;> split <;> omega
  split at h
  · obtain rfl := Option.some.inj h
    refine ⟨.inr (.inr rfl),?_,?_,?_,?_⟩
    all_goals simp only [Nat.add_one_sub_one,Nat.reducePow]
    · split <;> omega
    · split <;> omega
    · split <;> omega
    · split <;> split <;> omega
  · cases h

section

variable {q : Nat → Bool} (hq : Low q)
include hq

theorem not_low {n : Nat} (h : 0x80 ≤ n) : q n=false := by
  cases hn : q n with
  | false => rfl
  | true => exact absurd (hq n hn) (by omega)

/-- A first byte is an ASCII character by itself, or no character yet. -/
theorem enter_sound {n : Nat} :
    SoundState (enter n).2 ∧ tally q (enter n).1=if q n then 1 else 0 := by
  by_cases hn : n<0x80
  · have hc : (Char.ofNat n).toNat=n := toNat_char_ofNat (.inl (by omega))
    have he : enter n=([some (Char.ofNat n)],none) := by
      rw [enter,lead,if_pos hn]
      rfl
    rw [he]
    refine ⟨soundState_none,?_⟩
    simp only [tally,List.countP_singleton,Option.any_some,hc]
  · rw [not_low hq (by omega)]
    cases hl : lead n with
    | none =>
      have he : enter n=([none],none) := by rw [enter,hl]; rfl
      rw [he]
      exact ⟨soundState_none,rfl⟩
    | some p =>
      have hp := lead_sound (by omega) hl
      have hm : p.more≠0 := by
        rcases hp.more with h|h|h <;> omega
      have he : enter n=([],some p) := by rw [enter_of_lead hl,settle,if_neg hm]
      rw [he]
      exact ⟨fun p' h' => Option.some.inj h' ▸ hp,rfl⟩

end

/-- One more digit to the base 64 narrows the range. -/
theorem digit_range (m k : Nat) :
    (64*m+(0x80-0x80))*64^k=m*64^(k+1) ∧ (64*m+(0xbf-0x80)+1)*64^k=(m+1)*64^(k+1) := by
  have hm : 64*m+(0xbf-0x80)+1=64*(m+1) := rfl
  rw [hm,Nat.sub_self,Nat.add_zero,Nat.pow_succ]
  constructor
  · rw [Nat.mul_comm 64 m,Nat.mul_assoc,Nat.mul_comm 64]
  · rw [Nat.mul_comm 64 (m+1),Nat.mul_assoc,Nat.mul_comm 64]

/-- A continuation byte completes the character or leaves the sequence sound. -/
theorem settle_sound {p : Pending} (hp : Sound p) {n : Nat} (hlo : p.lo ≤ n) (hhi : n ≤ p.hi) :
    SoundState (settle ⟨p.more-1,0x80,0xbf,64*p.value+(n-0x80)⟩).2 ∧
      ∀ o ∈ (settle ⟨p.more-1,0x80,0xbf,64*p.value+(n-0x80)⟩).1,
        ∃ c : Char, o=some c ∧ 0x80 ≤ c.toNat := by
  obtain ⟨more,lo,hi,value⟩ := p
  obtain ⟨hmore,lo0,hi0,wide,scalar⟩ := hp
  simp only [] at hmore lo0 hi0 wide scalar hlo hhi ⊢
  have least : 64*value+(lo-0x80) ≤ 64*value+(n-0x80) := by omega
  have greatest : 64*value+(n-0x80) ≤ 64*value+(hi-0x80) := by omega
  generalize 64*value+(n-0x80)=m at least greatest ⊢
  generalize 64*value+(lo-0x80)=a at least wide scalar
  generalize 64*value+(hi-0x80)=b at greatest scalar
  cases more with
  | zero => omega
  | succ more =>
    cases more with
    | zero =>
      simp only [Nat.zero_add,Nat.sub_self,Nat.pow_zero,Nat.mul_one] at wide scalar
      refine ⟨soundState_none,?_⟩
      intro o ho
      rw [settle,if_pos rfl,List.mem_singleton] at ho
      have hc : (Char.ofNat m).toNat=m := toNat_char_ofNat (by omega)
      exact ⟨Char.ofNat m,ho,by omega⟩
    | succ k =>
      have hk : k+1+1-1=k+1 := rfl
      rw [hk] at wide scalar ⊢
      refine ⟨?_,fun o ho => absurd ho List.not_mem_nil⟩
      intro p' h'
      obtain rfl := Option.some.inj h'
      have low := Nat.mul_le_mul_right (64^(k+1)) least
      have high := Nat.mul_le_mul_right (64^(k+1)) (Nat.add_le_add_right greatest 1)
      refine ⟨?_,le_refl _,le_refl _,?_,?_⟩
      all_goals simp only [Nat.add_sub_cancel]
      · omega
      · rw [(digit_range m k).1]
        exact le_trans wide low
      · rw [(digit_range m k).1,(digit_range m k).2]
        rcases scalar with h|⟨h,h'⟩
        · exact .inl (le_trans high h)
        · exact .inr ⟨le_trans h low,le_trans high h'⟩

section

variable {q : Nat → Bool} (hq : Low q)
include hq

/-- A character beyond ASCII has none of the property. -/
theorem feed_sound {st : Option Pending} (hst : SoundState st) (n : Nat) :
    SoundState (feed n st).2 ∧ tally q (feed n st).1=if q n then 1 else 0 := by
  cases st with
  | none => exact enter_sound hq
  | some p =>
    have hp := hst p rfl
    by_cases hn : p.lo ≤ n ∧ n ≤ p.hi
    · have hlow := hp.lo
      obtain ⟨hs,hc⟩ := settle_sound hp hn.1 hn.2
      rw [feed,if_pos hn,not_low hq (by omega)]
      refine ⟨hs,?_⟩
      rw [if_neg Bool.false_ne_true,tally,List.countP_eq_zero]
      intro o ho
      obtain ⟨c,rfl,hge⟩ := hc o ho
      rw [Option.any_some,not_low hq hge]
      exact Bool.false_ne_true
    · rw [feed,if_neg hn]
      obtain ⟨hs,ht⟩ := enter_sound hq (n := n)
      exact ⟨hs,by rw [← ht,tally,List.countP_cons_of_neg (by simp),tally]⟩

theorem tally_chunks (bs : List UInt8) : ∀ {st : Option Pending}, SoundState st →
    tally q (chunks st bs)=bs.countP fun b => q b.toNat := by
  induction bs with
  | nil =>
    intro st _
    cases st with
    | none => rfl
    | some p => rfl
  | cons b bs ih =>
    intro st hst
    obtain ⟨hs,ht⟩ := feed_sound hq hst b.toNat
    have hc : chunks st (b::bs)=(feed b.toNat st).1++chunks (feed b.toNat st).2 bs := by
      cases st with
      | none => rfl
      | some p => rfl
    have hb := ih hs
    unfold tally at ht hb ⊢
    rw [hc,List.countP_append,ht,hb,List.countP_cons,Nat.add_comm]

/-- Reading bytes as text, however broken, neither adds nor loses an ASCII character. -/
theorem countP_lossy (bs : List UInt8) :
    ((lossy bs).countP fun c => q c.toNat)=bs.countP fun b => q b.toNat := by
  have replacement : q '\uFFFD'.toNat=false := not_low hq (by decide)
  rw [← tally_chunks hq bs soundState_none,lossy,List.countP_map,tally]
  apply List.countP_congr
  intro o _
  cases o with
  | none => simpa using replacement
  | some c => rfl

theorem countP_encode (cs : List Char) :
    ((encode cs).countP fun b => q b.toNat)=cs.countP fun c => q c.toNat := by
  rw [← countP_lossy hq,lossy_encode]

end

end Utf8

namespace Percent

def startsHex (bs : List UInt8) : Bool := bs.head?.any isHex

def twoHex : List UInt8 → Bool
  | [] => false
  | b::bs => isHex b && startsHex bs

/-- A percent sign with two digits after it stands somewhere. -/
def grouped : List UInt8 → Bool
  | [] => false
  | b::bs => (b==byte '%' && twoHex bs) || grouped bs

def special (b : UInt8) : Bool := b==byte '%' || isHex b

/-- The same bytes, some of those that no group is made of written as a group. -/
inductive Spells : List UInt8 → List UInt8 → Prop where
  | nil : Spells [] []
  | plain (b : UInt8) {w bs : List UInt8} (rest : Spells w bs) : Spells (b::w) (b::bs)
  | group {b : UInt8} (hb : special b=false) {w bs : List UInt8} (rest : Spells w bs) :
    Spells (Utf8.encode (group b)++w) (b::bs)

theorem decode_percent {bs : List UInt8} (h : twoHex bs=false) :
    decode (byte '%'::bs)=byte '%'::decode bs := by
  match bs with
  | [] => rfl
  | [_] => rfl
  | a::b::bs =>
    have hn : ¬(byte '%'=byte '%' ∧ isHex a ∧ isHex b) :=
      fun hab => by simp [twoHex,startsHex,hab.2] at h
    rw [decode,if_neg hn]

theorem twoHex_some {bs : List UInt8} (h : twoHex bs=true) :
    ∃ a b rest, bs=a::b::rest ∧ isHex a=true ∧ isHex b=true := by
  match bs with
  | [] => cases h
  | [_] => simp [twoHex,startsHex] at h
  | a::b::rest =>
    rw [twoHex,Bool.and_eq_true] at h
    exact ⟨a,b,rest,rfl,h⟩

theorem special_percent : special (byte '%')=true := by decide

theorem special_hex {b : UInt8} (h : isHex b=true) : special b=true := by
  rw [special,h,Bool.or_true]

theorem hex_of_not_special {b : UInt8} (h : special b=false) : isHex b=false ∧ b≠byte '%' := by
  rw [special,Bool.or_eq_false_iff] at h
  exact ⟨h.2,fun hb => by simp [hb] at h⟩

theorem isHex_percent : isHex (byte '%')=false := by decide

/-- What is plain in the meaning stands in the text as it is. -/
theorem Spells.head {w : List UInt8} {b : UInt8} {bs : List UInt8} (h : Spells w (b::bs))
    (hb : special b=true) : ∃ w', w=b::w' ∧ Spells w' bs := by
  cases h with
  | plain _ rest => exact ⟨_,rfl,rest⟩
  | group hn rest => rw [hb] at hn; cases hn

theorem encode_group_append (b : UInt8) (w : List UInt8) : Utf8.encode (group b)++w=
    byte '%'::byte (hexUpper (b.toNat/16))::byte (hexUpper (b.toNat%16))::w := by
  rw [encode_group]
  rfl

theorem Spells.startsHex_eq {w bs : List UInt8} (h : Spells w bs) : startsHex w=startsHex bs := by
  cases h with
  | nil => rfl
  | plain b rest => rfl
  | group hb rest =>
    rw [encode_group_append]
    exact isHex_percent.trans (hex_of_not_special hb).1.symm

theorem Spells.twoHex_eq {w bs : List UInt8} (h : Spells w bs) : twoHex w=twoHex bs := by
  cases h with
  | nil => rfl
  | plain b rest => rw [twoHex,twoHex,rest.startsHex_eq]
  | group hb rest =>
    rw [encode_group_append,twoHex,twoHex,isHex_percent,(hex_of_not_special hb).1,
      Bool.false_and,Bool.false_and]

/-- How a text is spelled makes no difference to what it is decoded to. -/
theorem Spells.decode_eq {w bs : List UInt8} (h : Spells w bs) : decode w=decode bs := by
  induction hn : bs.length using Nat.strongRecOn generalizing w bs with
  | ind n ih =>
    subst hn
    cases h with
    | nil => rfl
    | @group b hb w bs rest =>
      have hd := hexUpper_digit (n := b.toNat/16) (by have := b.toNat_lt; omega)
      have hm := hexUpper_digit (n := b.toNat%16) (by omega)
      rw [encode_group_append,decode_group hd.2.2.1 hm.2.2.1,value_hexUpper,
        decode_cons (hex_of_not_special hb).2,ih bs.length (by simp) rest rfl]
    | @plain b w bs rest =>
      by_cases hb : b=byte '%'
      · subst hb
        cases ht : twoHex bs with
        | false =>
          rw [decode_percent ht,decode_percent (rest.twoHex_eq.trans ht),
            ih bs.length (by simp) rest rfl]
        | true =>
          obtain ⟨x,y,bs',rfl,hx,hy⟩ := twoHex_some ht
          obtain ⟨w',rfl,rest'⟩ := rest.head (special_hex hx)
          obtain ⟨w'',rfl,rest''⟩ := rest'.head (special_hex hy)
          rw [decode_group hx hy,decode_group hx hy,ih bs'.length (by simp; omega) rest'' rfl]
      · rw [decode_cons hb,decode_cons hb,ih bs.length (by simp) rest rfl]

/-- A byte that no group begins with stands for itself. -/
theorem decode_cons_of_no_group {b : UInt8} {bs : List UInt8}
    (h : ¬(b=byte '%' ∧ twoHex bs=true)) :
    decode (b::bs)=b::decode bs ∧ grouped (b::bs)=grouped bs := by
  by_cases hb : b=byte '%'
  · subst hb
    have ht : twoHex bs=false := by simpa using h
    exact ⟨decode_percent ht,by rw [grouped,ht,Bool.and_false,Bool.false_or]⟩
  · exact ⟨decode_cons hb bs,by rw [grouped,beq_false_of_ne hb,Bool.false_and,Bool.false_or]⟩

theorem decode_of_not_grouped {bs : List UInt8} (h : grouped bs=false) : decode bs=bs := by
  induction bs with
  | nil => rfl
  | cons b bs ih =>
    have hb : ¬(b=byte '%' ∧ twoHex bs=true) := by
      intro given
      obtain ⟨rfl,ht⟩ := given
      simp [grouped,ht] at h
    obtain ⟨hd,hg⟩ := decode_cons_of_no_group hb
    rw [hd,ih (hg ▸ h)]

/-- What lets the percent sign and the digits through spells the bytes. -/
theorem spells_encodeWith {plain : UInt8 → Bool} (hp : ∀ b, special b=true → plain b=true)
    (ha : ∀ b, plain b=true → b.toNat<0x80) (bs : List UInt8) :
    Spells (Utf8.encode (encodeWith plain bs)) bs := by
  induction bs with
  | nil => exact .nil
  | cons b bs ih =>
    rw [encodeWith,List.flatMap_cons,Utf8.encode_append]
    by_cases hb : plain b=true
    · rw [if_pos hb,encode_byte (byte_ofNat (ha b hb)).1,(byte_ofNat (ha b hb)).2]
      exact .plain b ih
    · rw [if_neg hb]
      refine .group ?_ ih
      cases hs : special b with
      | false => rfl
      | true => exact absurd (hp b hs) hb

/-- The ASCII characters apart from the equals sign. -/
def isMark (n : Nat) : Bool := decide (n<0x80) && n != '='.toNat

/-- How many of them a text has, as bytes and as characters. -/
def byteMarks (bs : List UInt8) : Nat := bs.countP fun b => isMark b.toNat

def marks (cs : List Char) : Nat := cs.countP fun c => isMark c.toNat

theorem low_isMark : Utf8.Low isMark := by
  intro n h
  rw [isMark,Bool.and_eq_true,decide_eq_true_eq] at h
  exact h.1

theorem isMark_special {b : UInt8} (h : special b=true) : isMark b.toNat=true := by
  have all : ∀ n : Fin 256, special (.ofNat n)=true → isMark (UInt8.ofNat n).toNat=true := by
    decide +kernel
  have hb := all ⟨b.toNat,b.toNat_lt⟩
  rw [UInt8.ofNat_toNat] at hb
  exact hb h

theorem marks_lossy (bs : List UInt8) : marks (Utf8.lossy bs)=byteMarks bs :=
  Utf8.countP_lossy low_isMark bs

theorem byteMarks_encode (cs : List Char) : byteMarks (Utf8.encode cs)=marks cs :=
  Utf8.countP_encode low_isMark cs

theorem byteMarks_cons (b : UInt8) (bs : List UInt8) :
    byteMarks (b::bs)=byteMarks bs+if isMark b.toNat then 1 else 0 := List.countP_cons ..

@[simp] theorem marks_nil : marks []=0 := rfl

theorem marks_cons (c : Char) (cs : List Char) :
    marks (c::cs)=marks cs+if isMark c.toNat then 1 else 0 := List.countP_cons ..

@[simp] theorem marks_append (cs ds : List Char) : marks (cs++ds)=marks cs+marks ds :=
  List.countP_append

/-- Decoding a group removes characters, and nothing adds one. -/
theorem byteMarks_decode (bs : List UInt8) : byteMarks (decode bs) ≤ byteMarks bs ∧
    (byteMarks bs ≤ byteMarks (decode bs) → grouped bs=false) := by
  induction hn : bs.length using Nat.strongRecOn generalizing bs with
  | ind n ih =>
    subst hn
    match bs with
    | [] => exact ⟨le_refl _,fun _ => rfl⟩
    | b::bs =>
      have hi := ih bs.length (by simp) bs rfl
      by_cases hg : b=byte '%' ∧ twoHex bs=true
      · obtain ⟨rfl,ht⟩ := hg
        obtain ⟨x,y,bs',rfl,hx,hy⟩ := twoHex_some ht
        have hi' := (ih bs'.length (by simp; omega) bs' rfl).1
        rw [decode_group hx hy]
        simp only [byteMarks_cons,if_pos (isMark_special special_percent),
          if_pos (isMark_special (special_hex hx)),if_pos (isMark_special (special_hex hy))]
        constructor
        · split <;> omega
        · split <;> omega
      · obtain ⟨hd,hgr⟩ := decode_cons_of_no_group hg
        rw [hd,hgr,byteMarks_cons,byteMarks_cons]
        constructor
        · omega
        · intro h
          exact hi.2 (by omega)

end Percent

end NacPlatform
