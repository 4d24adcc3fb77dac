import NacPlatform.Framework.Tlv
import Mathlib.Data.Vector.Basic

namespace NacPlatform.Radius

structure RadiusAttribute where
  attrType : UInt8
  value : List UInt8
  deriving DecidableEq, Repr

structure RadiusPacket where
  code : UInt8
  identifier : UInt8
  authenticator : Vector UInt8 16
  attributes : List RadiusAttribute
  deriving DecidableEq

inductive ParseError where
  | tooShort (length : Nat)
  | truncated
  deriving DecidableEq, Repr

def ParseError.message : ParseError → String
  | tooShort length => "RADIUS packet too short: "++toString length
  | truncated => "RADIUS packet truncated"

/-- `u16::from_be_bytes`. -/
def fromBeBytes (hi lo : UInt8) : Nat := 256*hi.toNat+lo.toNat

/-- `u16::to_be_bytes`. -/
def toBeBytes (n : UInt16) : List UInt8 := [UInt8.ofNat (n.toNat/256),UInt8.ofNat n.toNat]

/-- The loop over the attributes. It reads below `length`, which the buffer has. -/
def attributesFrom (buf : List UInt8) (length pos : Nat) : List RadiusAttribute :=
  if pos+2 ≤ length then
    let attrType := buf.getD pos 0
    let attrLen := (buf.getD (pos+1) 0).toNat
    if attrLen<2 || length<pos+attrLen then []
    else ⟨attrType,(buf.drop (pos+2)).take (attrLen-2)⟩::attributesFrom buf length (pos+attrLen)
  else []
termination_by length-pos
decreasing_by
  rename_i h
  simp only [Bool.or_eq_true,decide_eq_true_eq,not_or] at h
  omega

/-- The length that the header states. -/
def lengthField (buf : List UInt8) : Nat := fromBeBytes (buf.getD 2 0) (buf.getD 3 0)

def parse (buf : List UInt8) : Except ParseError RadiusPacket :=
  if buf.length<20 then .error (.tooShort buf.length)
  else if buf.length<lengthField buf then .error .truncated
  else .ok {
    code := buf.getD 0 0
    identifier := buf.getD 1 0
    authenticator := Vector.ofFn fun i => buf.getD (4+i) 0
    attributes := attributesFrom buf (lengthField buf) 20 }

def attrsBytes (attributes : List RadiusAttribute) : List UInt8 :=
  attributes.flatMap fun attr => attr.attrType::UInt8.ofNat (attr.value.length+2)::attr.value

def encode (p : RadiusPacket) : List UInt8 :=
  let attrs := attrsBytes p.attributes
  p.code::p.identifier::(toBeBytes (UInt16.ofNat (20+attrs.length))++p.authenticator.toList++attrs)

/-- Every attribute has a length that a byte holds, and the packet one that two bytes hold. -/
def Sized (p : RadiusPacket) : Prop :=
  (∀ attr ∈ p.attributes, attr.value.length ≤ 253) ∧ (encode p).length ≤ 65535

instance (p : RadiusPacket) : Decidable (Sized p) :=
  inferInstanceAs (Decidable ((∀ attr ∈ p.attributes, attr.value.length ≤ 253) ∧
    (encode p).length ≤ 65535))

def RadiusAttribute.item (attr : RadiusAttribute) : TlvItem := ⟨attr.attrType,attr.value⟩

def ofItem (item : TlvItem) : RadiusAttribute := ⟨item.tag,item.value⟩

theorem map_ofItem (attributes : List RadiusAttribute) :
    (attributes.map RadiusAttribute.item).map ofItem=attributes := by
  rw [List.map_map]
  exact List.map_id attributes

theorem attrsBytes_eq (attributes : List RadiusAttribute) :
    attrsBytes attributes=Tlv.bytesOf (attributes.map RadiusAttribute.item) := by
  rw [attrsBytes,Tlv.bytesOf,List.flatMap_map]
  rfl

theorem slice_eq {buf : List UInt8} {length pos : Nat} (hbuf : length ≤ buf.length)
    (hroom : pos+2 ≤ length) : (buf.take length).drop pos=
      buf.getD pos 0::buf.getD (pos+1) 0::(buf.take length).drop (pos+2) := by
  have hlen : (buf.take length).length=length := by
    rw [List.length_take]
    omega
  have hget (i : Nat) (hi : i<(buf.take length).length) :
      (buf.take length)[i]=buf.getD i 0 := by
    have hbound : i<buf.length := by omega
    rw [List.getElem_take,List.getD_eq_getElem?_getD,List.getElem?_eq_getElem hbound,
      Option.getD_some]
  rw [List.drop_eq_getElem_cons (by omega),List.drop_eq_getElem_cons (by omega),
    hget pos (by omega),hget (pos+1) (by omega)]

/-- The loop reads the items between `pos` and `length`. -/
theorem attributesFrom_eq {buf : List UInt8} {length : Nat} (hbuf : length ≤ buf.length)
    (pos : Nat) :
    attributesFrom buf length pos=(Tlv.parse ((buf.take length).drop pos)).map ofItem := by
  have hrest (pos : Nat) (hroom : pos+2 ≤ length) :
      ((buf.take length).drop (pos+2)).length=length-(pos+2) := by
    rw [List.length_drop,List.length_take]
    omega
  induction pos using attributesFrom.induct buf length with
  | case1 pos hroom attrLen hstop =>
    have hstop' : attrLen<2 ∨ length<pos+attrLen := by simpa using hstop
    have hlen := hrest pos hroom
    rw [slice_eq hbuf hroom,Tlv.parse_stop (by omega)]
    rw [attributesFrom,if_pos hroom]
    simp only []
    rw [if_pos hstop]
    rfl
  | case2 pos hroom attrLen hgo ih =>
    have hgo' : 2 ≤ attrLen ∧ pos+attrLen ≤ length := by
      simp only [Bool.or_eq_true,decide_eq_true_eq,not_or] at hgo
      omega
    have hlen := hrest pos hroom
    rw [slice_eq hbuf hroom,Tlv.parse_item hgo'.1 (by omega),List.map_cons]
    rw [attributesFrom,if_pos hroom]
    simp only []
    rw [if_neg hgo,ih]
    have hvalue : ((buf.take length).drop (pos+2)).take (attrLen-2)=
        (buf.drop (pos+2)).take (attrLen-2) := by
      have hmin : min (attrLen-2) (length-(pos+2))=attrLen-2 := by omega
      rw [List.drop_take,List.take_take,hmin]
    have hnext : ((buf.take length).drop (pos+2)).drop (attrLen-2)=
        (buf.take length).drop (pos+attrLen) := by
      have hsum : pos+2+(attrLen-2)=pos+attrLen := by omega
      rw [List.drop_drop,hsum]
    rw [hvalue,hnext]
    rfl
  | case3 pos hroom =>
    have hshort : ((buf.take length).drop pos).length<2 := by
      rw [List.length_drop,List.length_take]
      omega
    rw [Tlv.parse_short hshort,attributesFrom,if_neg hroom]
    rfl

theorem fromBeBytes_toBeBytes {n : Nat} (h : n ≤ 65535) :
    fromBeBytes (UInt8.ofNat ((UInt16.ofNat n).toNat/256))
      (UInt8.ofNat (UInt16.ofNat n).toNat)=n := by
  simp only [fromBeBytes,UInt8.toNat_ofNat',UInt16.toNat_ofNat']
  omega

theorem fromBeBytes_le (hi lo : UInt8) : fromBeBytes hi lo ≤ 65535 := by
  have hhi := hi.toNat_lt
  have hlo := lo.toNat_lt
  unfold fromBeBytes
  omega

theorem length_encode (p : RadiusPacket) :
    (encode p).length=20+(attrsBytes p.attributes).length := by
  simp only [encode,toBeBytes,List.length_cons,List.length_append,List.length_nil,
    Vector.length_toList]
  omega

/-- The header of twenty bytes, and the attributes. -/
theorem encode_eq (p : RadiusPacket) : encode p=
    (p.code::p.identifier::(toBeBytes (UInt16.ofNat (20+(attrsBytes p.attributes).length))++
      p.authenticator.toList))++attrsBytes p.attributes := by
  simp [encode]

/-- A packet that its length fields can describe is read back, whatever follows it. -/
theorem parse_encode {p : RadiusPacket} (h : Sized p) (t : List UInt8) :
    parse (encode p++t)=.ok p := by
  obtain ⟨hattrs,hsize⟩ := h
  rw [length_encode] at hsize
  have hlen := length_encode p
  have hfield : lengthField (encode p++t)=20+(attrsBytes p.attributes).length :=
    fromBeBytes_toBeBytes hsize
  have hlong : (encode p++t).length=20+(attrsBytes p.attributes).length+t.length := by
    rw [List.length_append,hlen]
  have hslice : ((encode p++t).take (20+(attrsBytes p.attributes).length)).drop 20=
      attrsBytes p.attributes := by
    rw [← hlen,List.take_left,encode_eq]
    apply List.drop_left'
    simp [toBeBytes]
  have hauth : (Vector.ofFn fun i : Fin 16 => (encode p++t).getD (4+i) 0)=p.authenticator := by
    apply Vector.ext
    intro i hi
    have hbytes : i<p.authenticator.toList.length := by
      rw [Vector.length_toList]
      exact hi
    have hfour : 4+i=i+1+1+1+1 := by omega
    rw [Vector.getElem_ofFn,hfour,List.getD_eq_getElem?_getD]
    simp only [encode,toBeBytes,List.cons_append,List.nil_append,List.append_assoc,
      List.getElem?_cons_succ]
    rw [List.getElem?_append_left hbytes,List.getElem?_eq_getElem hbytes]
    simp
  have hitems : ∀ item ∈ p.attributes.map RadiusAttribute.item, Tlv.Fits item := by
    intro item hitem
    obtain ⟨attr,hattr,rfl⟩ := List.mem_map.mp hitem
    exact hattrs attr hattr
  have hread : attributesFrom (encode p++t) (lengthField (encode p++t)) 20=p.attributes := by
    rw [hfield,attributesFrom_eq (by omega),hslice,attrsBytes_eq,Tlv.parse_bytesOf hitems,
      map_ofItem]
  have hshort : ¬ (encode p++t).length<20 := by omega
  have htrunc : ¬ (encode p++t).length<lengthField (encode p++t) := by omega
  rw [parse,if_neg hshort,if_neg htrunc,hread,hauth]
  rfl

/-- What is accepted is long enough, and its fields are read at their places. -/
theorem parse_eq_ok {buf : List UInt8} {p : RadiusPacket} (h : parse buf=.ok p) :
    20 ≤ buf.length ∧ lengthField buf ≤ buf.length ∧
      p={ code := buf.getD 0 0
          identifier := buf.getD 1 0
          authenticator := Vector.ofFn fun i => buf.getD (4+i) 0
          attributes := attributesFrom buf (lengthField buf) 20 } := by
  unfold parse at h
  by_cases hshort : buf.length<20
  · rw [if_pos hshort] at h
    cases h
  · rw [if_neg hshort] at h
    by_cases htrunc : buf.length<lengthField buf
    · rw [if_pos htrunc] at h
      cases h
    · rw [if_neg htrunc] at h
      exact ⟨by omega,by omega,(Except.ok.inj h).symm⟩

/-- An accepted packet has lengths that its length fields can describe. -/
theorem sized_of_parse {buf : List UInt8} {p : RadiusPacket} (h : parse buf=.ok p) : Sized p := by
  obtain ⟨hmin,hbuf,hp⟩ := parse_eq_ok h
  have hattrs : p.attributes=
      (Tlv.parse ((buf.take (lengthField buf)).drop 20)).map ofItem := by
    rw [hp]
    exact attributesFrom_eq hbuf 20
  obtain ⟨hfits,hwithin⟩ := Tlv.parse_sound ((buf.take (lengthField buf)).drop 20)
  constructor
  · intro attr hattr
    rw [hattrs] at hattr
    obtain ⟨item,hitem,rfl⟩ := List.mem_map.mp hattr
    exact hfits item hitem
  · have hitems : ∀ items : List TlvItem, (items.map ofItem).map RadiusAttribute.item=items := by
      intro items
      rw [List.map_map]
      exact List.map_id items
    have hsize := hwithin.length_le
    rw [List.length_drop,List.length_take] at hsize
    have hfield := fromBeBytes_le (buf.getD 2 0) (buf.getD 3 0)
    change lengthField buf ≤ 65535 at hfield
    rw [length_encode,hattrs,attrsBytes_eq,hitems]
    omega

/-- Only the header and what the stated length covers is looked at. -/
theorem parse_congr {buf buf' : List UInt8} {p : RadiusPacket} (h : parse buf=.ok p)
    (hsame : buf'.take (max 20 (lengthField buf))=buf.take (max 20 (lengthField buf))) :
    parse buf'=.ok p := by
  obtain ⟨hmin,hbuf,hp⟩ := parse_eq_ok h
  have hlen := congrArg List.length hsame
  rw [List.length_take,List.length_take] at hlen
  have hget (i : Nat) (hi : i<20) : buf'.getD i 0=buf.getD i 0 := by
    have hi' : i < max 20 (lengthField buf) := by omega
    have hi'' := congrArg (fun l : List UInt8 => l[i]?) hsame
    simp only [List.getElem?_take,if_pos hi'] at hi''
    rw [List.getD_eq_getElem?_getD,List.getD_eq_getElem?_getD,hi'']
  have hfield : lengthField buf'=lengthField buf := by
    unfold lengthField
    rw [hget 2 (by omega),hget 3 (by omega)]
  have hslice : buf'.take (lengthField buf)=buf.take (lengthField buf) := by
    have hcut := congrArg (List.take (lengthField buf)) hsame
    have hle : min (lengthField buf) (max 20 (lengthField buf))=lengthField buf := by omega
    rwa [List.take_take,List.take_take,hle] at hcut
  have hauth : (Vector.ofFn fun i : Fin 16 => buf'.getD (4+i) 0)=
      Vector.ofFn fun i : Fin 16 => buf.getD (4+i) 0 := by
    congr 1
    funext i
    exact hget (4+i) (by omega)
  have hshort : ¬ buf'.length<20 := by omega
  have htrunc : ¬ buf'.length<lengthField buf' := by
    rw [hfield]
    omega
  rw [parse,if_neg hshort,if_neg htrunc,hfield,attributesFrom_eq (by omega),hslice,
    ← attributesFrom_eq hbuf,hget 0 (by omega),hget 1 (by omega),hauth,hp]

/-- Packets and buffers correspond: every packet that the length fields can describe is read back
from what it is encoded as, and every packet that is read is such a packet, depends on the header
and the stated length alone, and is read back. -/
theorem radius_round_trip :
    (∀ p : RadiusPacket, Sized p → ∀ t : List UInt8, parse (encode p++t)=.ok p) ∧
    ∀ (buf : List UInt8) (p : RadiusPacket), parse buf=.ok p → Sized p ∧
      (∀ buf' : List UInt8,
        buf'.take (max 20 (lengthField buf))=buf.take (max 20 (lengthField buf)) →
        parse buf'=.ok p) ∧
      parse (encode p)=.ok p := by
  constructor
  · intro p h t
    exact parse_encode h t
  · intro buf p h
    have hsized := sized_of_parse h
    have hback := parse_encode hsized []
    rw [List.append_nil] at hback
    exact ⟨hsized,fun buf' hsame => parse_congr h hsame,hback⟩

/-- The stated length covers the header and is there, and what it covers behind the header is
attributes one after another. -/
structure WellFormed (buf : List UInt8) : Prop where
  covers : 20 ≤ lengthField buf
  within : lengthField buf ≤ buf.length
  splits : Tlv.Splits ((buf.take (lengthField buf)).drop 20)

theorem parse_isOk_iff (buf : List UInt8) :
    (∃ p, parse buf=.ok p) ↔ 20 ≤ buf.length ∧ lengthField buf ≤ buf.length := by
  constructor
  · intro given
    obtain ⟨p,h⟩ := given
    exact ⟨(parse_eq_ok h).1,(parse_eq_ok h).2.1⟩
  · intro given
    obtain ⟨hmin,hwithin⟩ := given
    rw [parse,if_neg (by omega),if_neg (by omega)]
    exact ⟨_,rfl⟩

/-- Exactly the well-formed buffers are accepted, but for a length below the header's that a buffer
of twenty bytes states, and for attributes that do not fill the stated length. -/
theorem parse_wellFormed_iff (buf : List UInt8) :
    ((∃ p, parse buf=.ok p) ↔ WellFormed buf) ↔
      (20 ≤ buf.length → lengthField buf ≤ buf.length →
        20 ≤ lengthField buf ∧ Tlv.Splits ((buf.take (lengthField buf)).drop 20)) := by
  rw [parse_isOk_iff]
  constructor
  · intro h hmin hwithin
    have hwell := h.mp ⟨hmin,hwithin⟩
    exact ⟨hwell.covers,hwell.splits⟩
  · intro h
    constructor
    · intro given
      obtain ⟨hmin,hwithin⟩ := given
      obtain ⟨hcovers,hsplits⟩ := h hmin hwithin
      exact ⟨hcovers,hwithin,hsplits⟩
    · intro hwell
      exact ⟨hwell.covers.trans hwell.within,hwell.within⟩

/-- A request with an attribute of length 0 before the user's name. -/
def brokenRequest : List UInt8 :=
  [1,7,0,26]++List.replicate 16 0++[24,0]++[1,4,97,98]

/-- It is taken for a request without any attribute. -/
theorem broken_request_accepted :
    (∃ p, parse brokenRequest=.ok p ∧ p.attributes=[]) ∧ ¬ WellFormed brokenRequest := by
  have hlength : lengthField brokenRequest=26 := by decide
  have hrest : (brokenRequest.take 26).drop 20=[24,0,1,4,97,98] := by decide
  have hnone : Tlv.parse [24,0,1,4,97,98]=[] := Tlv.parse_stop (.inl (by decide))
  constructor
  · obtain ⟨p,hp⟩ := (parse_isOk_iff brokenRequest).mpr (by rw [hlength]; decide)
    obtain ⟨_,hwithin,hread⟩ := parse_eq_ok hp
    refine ⟨p,hp,?_⟩
    rw [hread]
    change attributesFrom brokenRequest (lengthField brokenRequest) 20=[]
    rw [attributesFrom_eq hwithin,hlength,hrest,hnone,List.map_nil]
  · intro hwell
    have hsplits := (Tlv.splits_iff _).mp hwell.splits
    rw [hlength,hrest,hnone] at hsplits
    cases hsplits

end NacPlatform.Radius
