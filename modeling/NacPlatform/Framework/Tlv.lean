import Mathlib.Data.List.Basic

namespace NacPlatform

/-! Type-length-value items in a buffer: a tag, the length of the whole item, the value. -/

structure TlvItem where
  tag : UInt8
  value : List UInt8
  deriving DecidableEq, Repr

namespace Tlv

/-- The length of the item is that of a byte. -/
def Fits (item : TlvItem) : Prop := item.value.length ≤ 253

def bytes (item : TlvItem) : List UInt8 :=
  item.tag::UInt8.ofNat (item.value.length+2)::item.value

def bytesOf (items : List TlvItem) : List UInt8 := items.flatMap bytes

/-- The items from the start, up to the first that has no room for its header or reaches beyond
the end. -/
def parse : List UInt8 → List TlvItem
  | tag::len::rest =>
    if len.toNat<2 || rest.length+2<len.toNat then []
    else ⟨tag,rest.take (len.toNat-2)⟩::parse (rest.drop (len.toNat-2))
  | _ => []
termination_by buffer => buffer.length
decreasing_by
  simp only [List.length_drop,List.length_cons]
  omega

theorem parse_stop {tag len : UInt8} {rest : List UInt8}
    (h : len.toNat<2 ∨ rest.length+2<len.toNat) : parse (tag::len::rest)=[] := by
  rw [parse,if_pos (by simpa using h)]

theorem parse_item {tag len : UInt8} {rest : List UInt8} (hmin : 2 ≤ len.toNat)
    (hmax : len.toNat ≤ rest.length+2) :
    parse (tag::len::rest)=⟨tag,rest.take (len.toNat-2)⟩::parse (rest.drop (len.toNat-2)) := by
  have h : (decide (len.toNat<2) || decide (rest.length+2<len.toNat))=false := by
    simp only [Bool.or_eq_false_iff,decide_eq_false_iff_not]
    omega
  rw [parse,h]
  rfl

theorem parse_short {buffer : List UInt8} (h : buffer.length<2) : parse buffer=[] := by
  match buffer with
  | [] => rw [parse]; exact fun _ _ _ h => nomatch h
  | [_] => rw [parse]; exact fun _ _ _ h => nomatch h
  | _::_::_ =>
    simp only [List.length_cons] at h
    omega

theorem len_toNat {item : TlvItem} (h : Fits item) :
    (UInt8.ofNat (item.value.length+2)).toNat=item.value.length+2 := by
  have hle : item.value.length ≤ 253 := h
  rw [UInt8.toNat_ofNat']
  omega

/-- Items that fit are read back. -/
theorem parse_bytesOf {items : List TlvItem} (h : ∀ item ∈ items, Fits item) :
    parse (bytesOf items)=items := by
  induction items with
  | nil => exact parse_short (by simp [bytesOf])
  | cons item items ih =>
    obtain ⟨hitem,hitems⟩ := List.forall_mem_cons.mp h
    have hlen := len_toNat hitem
    have hcons : bytesOf (item::items)=
        item.tag::UInt8.ofNat (item.value.length+2)::(item.value++bytesOf items) := rfl
    rw [hcons,parse_item (by omega) (by rw [hlen,List.length_append]; omega),hlen]
    have hsub : item.value.length+2-2=item.value.length := by omega
    rw [hsub,List.take_left,List.drop_left,ih hitems]

/-- What is read fits, and is written as the bytes it was read from. -/
theorem parse_sound (buffer : List UInt8) :
    (∀ item ∈ parse buffer, Fits item) ∧ bytesOf (parse buffer) <+: buffer := by
  induction buffer using parse.induct with
  | case1 tag len rest hstop =>
    have hstop' : len.toNat<2 ∨ rest.length+2<len.toNat := by simpa using hstop
    rw [parse_stop hstop']
    exact ⟨by simp,List.nil_prefix⟩
  | case2 tag len rest hgo ih =>
    have hgo' : 2 ≤ len.toNat ∧ len.toNat ≤ rest.length+2 := by
      simp only [Bool.or_eq_true,decide_eq_true_eq,not_or] at hgo
      omega
    obtain ⟨hfits,htail⟩ := ih
    have hbyte := len.toNat_lt
    have hlen : (rest.take (len.toNat-2)).length=len.toNat-2 := by
      rw [List.length_take]
      omega
    have hwrite : UInt8.ofNat ((rest.take (len.toNat-2)).length+2)=len := by
      rw [hlen]
      have hsum : len.toNat-2+2=len.toNat := by omega
      rw [hsum,UInt8.ofNat_toNat]
    rw [parse_item hgo'.1 hgo'.2]
    constructor
    · have hfit : Fits ⟨tag,rest.take (len.toNat-2)⟩ := by
        change (rest.take (len.toNat-2)).length ≤ 253
        rw [hlen]
        omega
      exact List.forall_mem_cons.mpr ⟨hfit,hfits⟩
    · have hcons : bytesOf (⟨tag,rest.take (len.toNat-2)⟩::parse (rest.drop (len.toNat-2)))=
          tag::UInt8.ofNat ((rest.take (len.toNat-2)).length+2)::
            (rest.take (len.toNat-2)++bytesOf (parse (rest.drop (len.toNat-2)))) := rfl
      rw [hcons,hwrite,List.prefix_cons_inj,List.prefix_cons_inj]
      have hsplit : rest=rest.take (len.toNat-2)++rest.drop (len.toNat-2) :=
        (List.take_append_drop _ _).symm
      conv_rhs => rw [hsplit]
      exact (List.prefix_append_right_inj _).mpr htail
  | case3 buffer hshort =>
    have hlt : buffer.length<2 := by
      match buffer,hshort with
      | [],_ => decide
      | [_],_ => simp
      | tag::len::rest,hshort => exact absurd rfl (hshort tag len rest)
    rw [parse_short hlt]
    exact ⟨by simp,List.nil_prefix⟩

/-- The bytes are items one after another, with nothing left. -/
def Splits (buffer : List UInt8) : Prop :=
  ∃ items, (∀ item ∈ items, Fits item) ∧ bytesOf items=buffer

/-- Bytes split into items exactly when reading them loses nothing. -/
theorem splits_iff (buffer : List UInt8) : Splits buffer ↔ bytesOf (parse buffer)=buffer := by
  constructor
  · intro given
    obtain ⟨items,hfits,rfl⟩ := given
    rw [parse_bytesOf hfits]
  · intro h
    exact ⟨parse buffer,(parse_sound buffer).1,h⟩

end Tlv

end NacPlatform
