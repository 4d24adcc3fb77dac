import NacPlatform.Framework.Tlv
import Mathlib.Data.List.Induction
import Mathlib.Tactic.SplitIfs

namespace NacPlatform.Options

/-! Options in a buffer: a code, the length of the value, the value; between them there may be
padding with 0, and 255 marks the end. -/

/-- The options up to the end mark, the end of the buffer, a code without a length, or an option
that runs past the end. -/
def decode : List UInt8 → List TlvItem
  | [] => []
  | code::rest =>
    if code=255 then []
    else if code=0 then decode rest
    else
      match rest with
      | [] => []
      | len::rest =>
        if rest.length<len.toNat then []
        else ⟨code,rest.take len.toNat⟩::decode (rest.drop len.toNat)
termination_by area => area.length
decreasing_by
  · simp
  · simp only [List.length_drop,List.length_cons]
    omega

@[simp] theorem decode_nil : decode []=[] := by rw [decode]

theorem decode_end (rest : List UInt8) : decode (255::rest)=[] := by
  rw [decode.eq_def]
  rfl

theorem decode_pad (rest : List UInt8) : decode (0::rest)=decode rest := by
  rw [decode.eq_def]
  rfl

theorem decode_lone (code : UInt8) : decode [code]=[] := by
  rw [decode.eq_def]
  simp only []
  split_ifs
  · rfl
  · exact decode_nil
  · rfl

section

variable {code len : UInt8} {rest : List UInt8} (hend : code≠255) (hpad : code≠0)

include hend hpad

theorem decode_beyond (h : rest.length<len.toNat) : decode (code::len::rest)=[] := by
  rw [decode,if_neg hend,if_neg hpad,if_pos h]

theorem decode_item (h : len.toNat ≤ rest.length) :
    decode (code::len::rest)=⟨code,rest.take len.toNat⟩::decode (rest.drop len.toNat) := by
  rw [decode,if_neg hend,if_neg hpad,if_neg (by omega)]

end

/-- What can be written into the buffer. -/
inductive Piece where
  | pad
  | option (item : TlvItem)

namespace Piece

/-- A code that means an option, and a value whose length a byte holds. -/
def Valid : Piece → Prop
  | pad => True
  | option item => item.tag≠0 ∧ item.tag≠255 ∧ item.value.length ≤ 255

def bytes : Piece → List UInt8
  | pad => [0]
  | option item => item.tag::UInt8.ofNat item.value.length::item.value

def toItem : Piece → Option TlvItem
  | pad => none
  | option item => some item

end Piece

def write (pieces : List Piece) : List UInt8 := pieces.flatMap Piece.bytes

def itemsOf (pieces : List Piece) : List TlvItem := pieces.filterMap Piece.toItem

/-- Bytes at which reading stops. -/
inductive Stop : List UInt8 → Prop where
  | ended : Stop []
  | marked (rest : List UInt8) : Stop (255::rest)
  | lone {code : UInt8} (hpad : code≠0) : Stop [code]
  | beyond {code len : UInt8} {rest : List UInt8} (hpad : code≠0) (h : rest.length<len.toNat) :
      Stop (code::len::rest)

theorem decode_stop {tail : List UInt8} (h : Stop tail) : decode tail=[] := by
  cases h with
  | ended => exact decode_nil
  | marked rest => exact decode_end rest
  | lone hpad => exact decode_lone _
  | @beyond code len rest hpad h =>
    by_cases hend : code=255
    · rw [hend,decode_end]
    · exact decode_beyond hend hpad h

/-- What is written is read, whatever stops the reading behind it. -/
theorem decode_write {pieces : List Piece} (hvalid : ∀ p ∈ pieces, p.Valid) {tail : List UInt8}
    (hstop : Stop tail) : decode (write pieces++tail)=itemsOf pieces := by
  induction pieces with
  | nil => exact decode_stop hstop
  | cons p pieces ih =>
    obtain ⟨hp,hps⟩ := List.forall_mem_cons.mp hvalid
    have hcons : write (p::pieces)=p.bytes++write pieces := rfl
    rw [hcons,List.append_assoc]
    cases p with
    | pad =>
      change decode (0::(write pieces++tail))=itemsOf pieces
      rw [decode_pad,ih hps]
    | option item =>
      obtain ⟨hpad,hend,hlen⟩ := hp
      have hbyte : (UInt8.ofNat item.value.length).toNat=item.value.length := by
        rw [UInt8.toNat_ofNat']
        omega
      change decode (item.tag::UInt8.ofNat item.value.length::
        (item.value++(write pieces++tail)))=item::itemsOf pieces
      rw [decode_item hend hpad (by rw [hbyte,List.length_append]; omega),hbyte,List.take_left,
        List.drop_left,ih hps]

/-- Every buffer is options and padding, and something at which reading stops. -/
theorem exists_write (area : List UInt8) :
    ∃ pieces tail, (∀ p ∈ pieces, Piece.Valid p) ∧ Stop tail ∧ area=write pieces++tail := by
  induction area using decode.induct with
  | case1 => exact ⟨[],[],by simp,.ended,rfl⟩
  | case2 rest => exact ⟨[],255::rest,by simp,.marked rest,rfl⟩
  | case3 rest _ ih =>
    obtain ⟨pieces,tail,hvalid,hstop,rfl⟩ := ih
    exact ⟨.pad::pieces,tail,List.forall_mem_cons.mpr ⟨trivial,hvalid⟩,hstop,rfl⟩
  | case4 code hend hpad => exact ⟨[],[code],by simp,.lone hpad,rfl⟩
  | case5 code hend hpad len rest hbeyond =>
    exact ⟨[],code::len::rest,by simp,.beyond hpad hbeyond,rfl⟩
  | case6 code hend hpad len rest hgo ih =>
    obtain ⟨pieces,tail,hvalid,hstop,htail⟩ := ih
    have hlen : (rest.take len.toNat).length=len.toNat := by
      rw [List.length_take]
      omega
    have hvalue : Piece.Valid (.option ⟨code,rest.take len.toNat⟩) := by
      have hbyte := len.toNat_lt
      have hshort : (rest.take len.toNat).length ≤ 255 := by omega
      exact ⟨hpad,hend,hshort⟩
    refine ⟨.option ⟨code,rest.take len.toNat⟩::pieces,tail,
      List.forall_mem_cons.mpr ⟨hvalue,hvalid⟩,hstop,?_⟩
    change code::len::rest=code::UInt8.ofNat (rest.take len.toNat).length::
      (rest.take len.toNat++write pieces)++tail
    rw [hlen,UInt8.ofNat_toNat,List.cons_append,List.cons_append,List.append_assoc,← htail,
      List.take_append_drop]

/-- Where each item that counts overwrites a field, the last one is what remains. -/
theorem foldl_last {A I X : Type} {step : A → I → A} {field : A → X} {counts : I → Bool}
    {value : I → X} (h : ∀ a o, field (step a o)=if counts o then value o else field a) (a : A)
    (opts : List I) :
    field (opts.foldl step a)=(((opts.filter counts).getLast?).map value).getD (field a) := by
  induction opts using List.reverseRecOn with
  | nil => rfl
  | append_singleton opts o ih =>
    rw [List.foldl_append,List.foldl_cons,List.foldl_nil,h,List.filter_append]
    by_cases hc : counts o=true
    · simp [hc]
    · simp [hc,ih]

end NacPlatform.Options
