import Mathlib.Data.Bool.AllAny
import NacPlatform.Framework.Sextets
import NacPlatform.Framework.Text

namespace NacPlatform.ApiGateway

def b64Chars : List Char :=
  "ABCDEFGHIJKLMNOPQRSTUVWXYZabcdefghijklmnopqrstuvwxyz0123456789+/".toList

def b64Char (n : UInt32) : Char := b64Chars.getD (n &&& 63).toNat '='

def encodeChunk (b0 : UInt8) (b1 b2 : Option UInt8) : List Char :=
  let n := (b0.toUInt32 <<< 16) ||| ((b1.getD 0).toUInt32 <<< 8) ||| (b2.getD 0).toUInt32
  [b64Char (n >>> 18),b64Char (n >>> 12),
    if b1.isSome then b64Char (n >>> 6) else '=',
    if b2.isSome then b64Char n else '=']

def encodeChunks : List UInt8 → List Char
  | b0::b1::b2::rest => encodeChunk b0 (some b1) (some b2)++encodeChunks rest
  | [b0,b1] => encodeChunk b0 (some b1) none
  | [b0] => encodeChunk b0 none none
  | [] => []

/-- `str::replace` of one character by one. -/
def replaceChar (a b : Char) (cs : List Char) : List Char := cs.map fun c => if c==a then b else c

def base64urlEncode (input : List UInt8) : String :=
  let s := encodeChunks input
  String.ofList ((replaceChar '/' '_' (replaceChar '+' '-' s)).filter (· != '='))

/-- The bytes of a text. -/
def utf8 (cs : List Char) : List UInt8 := cs.flatMap String.utf8EncodeChar

/-- A byte that is no base64 digit counts as zero. -/
def decodeDigit (c : UInt8) : UInt8 :=
  if 65 ≤ c ∧ c ≤ 90 then c-65
  else if 97 ≤ c ∧ c ≤ 122 then c-97+26
  else if 48 ≤ c ∧ c ≤ 57 then c-48+52
  else if c=43 then 62
  else if c=47 then 63
  else 0

def decodeChunk (c0 c1 c2 c3 : UInt8) : List UInt8 :=
  let b0 := decodeDigit c0
  let b1 := decodeDigit c1
  let b2 := decodeDigit c2
  let b3 := decodeDigit c3
  ((b0 <<< 2) ||| (b1 >>> 4))::
    ((if c2=61 then [] else [(b1 <<< 4) ||| (b2 >>> 2)])++
      (if c3=61 then [] else [(b2 <<< 6) ||| b3]))

/-- A chunk of less than four ends the loop. -/
def decodeChunks : List UInt8 → List UInt8
  | c0::c1::c2::c3::rest => decodeChunk c0 c1 c2 c3++decodeChunks rest
  | _ => []

def padding (len : Nat) : List Char :=
  if len%4=2 then ['=','='] else if len%4=3 then ['='] else []

/-- The result type is fallible, no text is an error. -/
def base64urlDecode (input : String) : Except String (List UInt8) :=
  let padded := input.toList++padding (utf8 input.toList).length
  let standard := replaceChar '_' '/' (replaceChar '-' '+' padded)
  .ok (decodeChunks (utf8 standard))

/-! The digits of the URL alphabet. -/

def urlChars : List Char :=
  "ABCDEFGHIJKLMNOPQRSTUVWXYZabcdefghijklmnopqrstuvwxyz0123456789-_".toList

def urlChar (v : Nat) : Char := urlChars.getD v '='

def urlValue (c : Char) : Nat := urlChars.idxOf c

/-- Letters, digits, `-` and `_` only, of a length that octets can have, and no bit set behind
the last octet. -/
def canonical (s : String) : Bool :=
  s.toList.all (urlChars.contains ·) && Sextets.tight (s.toList.map urlValue)

/-! Encoding. -/

/-- The three replacements at the end of the encoder. -/
def toUrl (s : List Char) : List Char :=
  (replaceChar '/' '_' (replaceChar '+' '-' s)).filter (· != '=')

theorem toUrl_append (s t : List Char) : toUrl (s++t)=toUrl s++toUrl t := by
  simp [toUrl,replaceChar]

theorem toUrl_pad (s : List Char) : toUrl ('='::s)=toUrl s := rfl

theorem toUrl_digit {v : Nat} (h : v<64) (s : List Char) :
    toUrl (b64Chars.getD v '='::s)=urlChar v::toUrl s := by
  have all : ∀ v : Fin 64, toUrl [b64Chars.getD v '=']=[urlChar v] := by decide +kernel
  rw [← List.singleton_append,toUrl_append,all ⟨v,h⟩]
  rfl

theorem chunk_value (b0 b1 b2 : UInt8) :
    ((b0.toUInt32 <<< 16) ||| (b1.toUInt32 <<< 8) ||| b2.toUInt32).toNat=
      b0.toNat*65536+b1.toNat*256+b2.toNat := by
  have h0 := b0.toNat_lt
  have h1 := b1.toNat_lt
  have h2 := b2.toNat_lt
  have h16 : (b0.toUInt32 <<< 16).toNat=b0.toNat*256*2^8 := by
    simp only [UInt32.toNat_shiftLeft,UInt8.toNat_toUInt32,UInt32.reduceToNat,Nat.reduceMod,
      Nat.shiftLeft_eq]
    omega
  have h8 : (b1.toUInt32 <<< 8).toNat=b1.toNat*2^8 := by
    simp only [UInt32.toNat_shiftLeft,UInt8.toNat_toUInt32,UInt32.reduceToNat,Nat.reduceMod,
      Nat.shiftLeft_eq]
    omega
  have high : b0.toNat*256*2^8 ||| b1.toNat*2^8=(b0.toNat*2^8+b1.toNat)*2^8 := by
    rw [show 256=2^8 from rfl,← Nat.shiftLeft_eq (b0.toNat*2^8),← Nat.shiftLeft_eq b1.toNat,
      ← Nat.shiftLeft_or_distrib,← Nat.shiftLeft_eq b0.toNat,← Nat.shiftLeft_add_eq_or_of_lt h1,
      Nat.shiftLeft_eq,Nat.shiftLeft_eq]
  rw [UInt32.toNat_or,UInt32.toNat_or,h16,h8,high,UInt8.toNat_toUInt32,← Nat.shiftLeft_eq,
    ← Nat.shiftLeft_add_eq_or_of_lt h2,Nat.shiftLeft_eq]
  omega

/-- The digit at a six-bit place of the word. -/
theorem toUrl_b64Char (n k : UInt32) (hk : k.toNat<32) {v : Nat} (hv : (n.toNat >>> k.toNat)%64=v)
    (s : List Char) : toUrl (b64Char (n >>> k)::s)=urlChar v::toUrl s := by
  have and63 (m : UInt32) : (m &&& 63).toNat=m.toNat%64 := by
    rw [UInt32.toNat_and]
    exact Nat.and_two_pow_sub_one_eq_mod m.toNat 6
  rw [b64Char,and63,UInt32.toNat_shiftRight,Nat.mod_eq_of_lt hk,hv]
  exact toUrl_digit (hv ▸ Nat.mod_lt _ (Nat.succ_pos 63)) s

/-- The lowest place needs no shift. -/
theorem toUrl_b64Char_low (n : UInt32) {v : Nat} (hv : n.toNat%64=v) (s : List Char) :
    toUrl (b64Char n::s)=urlChar v::toUrl s := by
  have h := toUrl_b64Char n 0 (by decide) (v := v) (by simpa using hv) s
  simpa using h

/-- The four digits of a chunk, with the missing bytes as zero. -/
theorem toUrl_word (b0 b1 b2 : UInt8) {n : UInt32}
    (hn : n.toNat=b0.toNat*65536+b1.toNat*256+b2.toNat) (s : List Char) :
    toUrl (b64Char (n >>> 18)::s)=urlChar (b0.toNat/4)::toUrl s ∧
    toUrl (b64Char (n >>> 12)::s)=urlChar (b0.toNat%4*16+b1.toNat/16)::toUrl s ∧
    toUrl (b64Char (n >>> 6)::s)=urlChar (b1.toNat%16*4+b2.toNat/64)::toUrl s ∧
    toUrl (b64Char n::s)=urlChar (b2.toNat%64)::toUrl s := by
  have h0 := b0.toNat_lt
  have h1 := b1.toNat_lt
  have h2 := b2.toNat_lt
  have first : n.toNat >>> (18 : UInt32).toNat%64=b0.toNat/4 := by
    simp only [UInt32.reduceToNat,Nat.shiftRight_eq_div_pow,hn]
    omega
  have second : n.toNat >>> (12 : UInt32).toNat%64=b0.toNat%4*16+b1.toNat/16 := by
    simp only [UInt32.reduceToNat,Nat.shiftRight_eq_div_pow,hn]
    omega
  have third : n.toNat >>> (6 : UInt32).toNat%64=b1.toNat%16*4+b2.toNat/64 := by
    simp only [UInt32.reduceToNat,Nat.shiftRight_eq_div_pow,hn]
    omega
  have fourth : n.toNat%64=b2.toNat%64 := by omega
  exact ⟨toUrl_b64Char n 18 (by decide) first s,toUrl_b64Char n 12 (by decide) second s,
    toUrl_b64Char n 6 (by decide) third s,toUrl_b64Char_low n fourth s⟩

theorem toUrl_encodeChunk (b0 b1 b2 : UInt8) :
    toUrl (encodeChunk b0 (some b1) (some b2))=(Sextets.ofOctets [b0,b1,b2]).map urlChar := by
  have word := toUrl_word b0 b1 b2 (chunk_value b0 b1 b2)
  simp only [encodeChunk,Option.getD_some,Option.isSome_some,if_true]
  rw [(word _).1,(word _).2.1,(word _).2.2.1,(word _).2.2.2]
  rfl

theorem toUrl_encodeChunk_two (b0 b1 : UInt8) :
    toUrl (encodeChunk b0 (some b1) none)=(Sextets.ofOctets [b0,b1]).map urlChar := by
  have word := toUrl_word b0 b1 0 (chunk_value b0 b1 0)
  simp only [encodeChunk,Option.getD_some,Option.getD_none,Option.isSome_some,Option.isSome_none,
    Bool.false_eq_true,if_true,if_false]
  rw [(word _).1,(word _).2.1,(word _).2.2.1,toUrl_pad]
  rfl

theorem toUrl_encodeChunk_one (b0 : UInt8) :
    toUrl (encodeChunk b0 none none)=(Sextets.ofOctets [b0]).map urlChar := by
  have word := toUrl_word b0 0 0 (chunk_value b0 0 0)
  simp only [encodeChunk,Option.getD_none,Option.isSome_none,Bool.false_eq_true,if_false]
  rw [(word _).1,(word _).2.1,toUrl_pad,toUrl_pad]
  rfl

theorem toUrl_encodeChunks (input : List UInt8) :
    toUrl (encodeChunks input)=(Sextets.ofOctets input).map urlChar := by
  fun_induction encodeChunks input with
  | case1 b0 b1 b2 rest ih =>
    rw [toUrl_append,toUrl_encodeChunk,ih]
    rfl
  | case2 b0 b1 => exact toUrl_encodeChunk_two b0 b1
  | case3 b0 => exact toUrl_encodeChunk_one b0
  | case4 => rfl

theorem toList_base64urlEncode (input : List UInt8) :
    (base64urlEncode input).toList=(Sextets.ofOctets input).map urlChar := by
  rw [← toUrl_encodeChunks,base64urlEncode,String.toList_ofList]
  rfl

/-! Decoding of text in the URL alphabet. -/

/-- The byte that stands for a digit when the text is decoded. -/
def digitByte (v : Nat) : UInt8 :=
  (b64Chars.getD v '=').toNat.toUInt8

theorem utf8_append (s t : List Char) : utf8 (s++t)=utf8 s++utf8 t := by simp [utf8]

theorem length_utf8_urlChar {groups : List Nat} (h : ∀ v ∈ groups, v<64) :
    (utf8 (groups.map urlChar)).length=groups.length := by
  have all : ∀ v : Fin 64, (String.utf8EncodeChar (urlChar v)).length=1 := by decide +kernel
  induction groups with
  | nil => rfl
  | cons v groups ih =>
    rw [List.forall_mem_cons] at h
    rw [List.map_cons,utf8,List.flatMap_cons,List.length_append,all ⟨v,h.1⟩,List.length_cons,
      Nat.add_comm]
    exact congrArg (·+1) (ih h.2)

theorem utf8_standard {groups : List Nat} (h : ∀ v ∈ groups, v<64) :
    utf8 (replaceChar '_' '/' (replaceChar '-' '+' (groups.map urlChar)))=
      groups.map digitByte := by
  have all : ∀ v : Fin 64,
      utf8 (replaceChar '_' '/' (replaceChar '-' '+' [urlChar v]))=[digitByte v] := by
    decide +kernel
  induction groups with
  | nil => rfl
  | cons v groups ih =>
    rw [List.forall_mem_cons] at h
    have hv := all ⟨v,h.1⟩
    simp only [replaceChar,utf8,List.map_cons,List.map_nil,List.flatMap_cons,List.flatMap_nil,
      List.append_nil] at hv ⊢
    rw [hv]
    exact congrArg (digitByte v::·) (ih h.2)

theorem decodeDigit_digitByte {v : Nat} (h : v<64) :
    decodeDigit (digitByte v)=.ofNat v ∧ digitByte v≠61 := by
  have all : ∀ v : Fin 64, decodeDigit (digitByte v)=.ofNat v ∧ digitByte v≠61 := by decide +kernel
  exact all ⟨v,h⟩

/-- The three octets of four digits: a shift to the left drops what leaves the byte. -/
theorem octets_of_digits {a b c d : Nat} (ha : a<64) (hb : b<64) (hc : c<64) (hd : d<64) :
    (UInt8.ofNat a <<< 2) ||| (UInt8.ofNat b >>> 4)=.ofNat (a*4+b/16) ∧
    (UInt8.ofNat b <<< 4) ||| (UInt8.ofNat c >>> 2)=.ofNat (b*16+c/4) ∧
    (UInt8.ofNat c <<< 6) ||| UInt8.ofNat d=.ofNat (c*64+d) := by
  have join {x y : UInt8} {m n k : Nat} (hx : x.toNat=m*2^k) (hy : y.toNat=n) (hn : n<2^k) :
      (x ||| y).toNat=m*2^k+n := by
    rw [UInt8.toNat_or,hx,hy,← Nat.shiftLeft_eq,← Nat.shiftLeft_add_eq_or_of_lt hn]
  have left (n k : Nat) (hn : n<256) (hk : k<8) :
      (UInt8.ofNat n <<< UInt8.ofNat k).toNat=n*2^k%256 := by
    rw [UInt8.toNat_shiftLeft,UInt8.toNat_ofNat_of_lt' hn,
      UInt8.toNat_ofNat_of_lt' (hk.trans (by decide)),Nat.mod_eq_of_lt hk,Nat.shiftLeft_eq]
  have right (n k : Nat) (hn : n<256) (hk : k<8) :
      (UInt8.ofNat n >>> UInt8.ofNat k).toNat=n/2^k := by
    rw [UInt8.toNat_shiftRight,UInt8.toNat_ofNat_of_lt' hn,
      UInt8.toNat_ofNat_of_lt' (hk.trans (by decide)),Nat.mod_eq_of_lt hk,Nat.shiftRight_eq_div_pow]
  refine ⟨?_,?_,?_⟩
  all_goals apply UInt8.toNat_inj.mp
  · have h := join (m := a) (k := 2) (by rw [left a 2 (by omega) (by omega)]; omega)
      (right b 4 (by omega) (by omega)) (by omega)
    exact h.trans (by rw [UInt8.toNat_ofNat']; omega)
  · have h := join (m := b%16) (k := 4) (by rw [left b 4 (by omega) (by omega)]; omega)
      (right c 2 (by omega) (by omega)) (by omega)
    exact h.trans (by rw [UInt8.toNat_ofNat']; omega)
  · have h := join (m := c%4) (k := 6) (by rw [left c 6 (by omega) (by omega)]; omega)
      (UInt8.toNat_ofNat_of_lt' (by omega : d<256)) (by omega)
    exact h.trans (by rw [UInt8.toNat_ofNat']; omega)

theorem decodeChunks_digits {groups : List Nat} (h : ∀ v ∈ groups, v<64) :
    decodeChunks (groups.map digitByte++utf8 (padding groups.length))=
      Sextets.toOctets groups := by
  fun_induction Sextets.toOctets groups with
  | case1 a b c d rest ih =>
    simp only [List.forall_mem_cons] at h
    obtain ⟨ha,hb,hc,hd,hrest⟩ := h
    obtain ⟨h1,h2,h3⟩ := octets_of_digits ha hb hc hd
    have hpad : padding (a::b::c::d::rest).length=padding rest.length := by
      simp only [padding,List.length_cons,Nat.add_assoc,Nat.reduceAdd,Nat.add_mod_right]
    rw [hpad,List.map_cons,List.map_cons,List.map_cons,List.map_cons,List.cons_append,
      List.cons_append,List.cons_append,List.cons_append,decodeChunks,ih hrest,decodeChunk,
      (decodeDigit_digitByte ha).1,(decodeDigit_digitByte hb).1,(decodeDigit_digitByte hc).1,
      (decodeDigit_digitByte hd).1,if_neg (decodeDigit_digitByte hc).2,
      if_neg (decodeDigit_digitByte hd).2,h1,h2,h3]
    rfl
  | case2 a b c =>
    simp only [List.forall_mem_cons] at h
    obtain ⟨ha,hb,hc,-⟩ := h
    obtain ⟨h1,h2,-⟩ := octets_of_digits ha hb hc (d := 0) (by decide)
    change decodeChunk (digitByte a) (digitByte b) (digitByte c) 61++decodeChunks []=_
    rw [decodeChunk,(decodeDigit_digitByte ha).1,(decodeDigit_digitByte hb).1,
      (decodeDigit_digitByte hc).1,if_neg (decodeDigit_digitByte hc).2,if_pos rfl,h1,h2]
    rfl
  | case3 a b =>
    simp only [List.forall_mem_cons] at h
    obtain ⟨ha,hb,-⟩ := h
    obtain ⟨h1,-,-⟩ := octets_of_digits ha hb (c := 0) (d := 0) (by decide) (by decide)
    change decodeChunk (digitByte a) (digitByte b) 61 61++decodeChunks []=_
    rw [decodeChunk,(decodeDigit_digitByte ha).1,(decodeDigit_digitByte hb).1,if_pos rfl,
      if_pos rfl,h1]
    rfl
  | case4 groups h1 h2 h3 =>
    rcases groups with _|⟨a,_|⟨b,_|⟨c,_|⟨d,rest⟩⟩⟩⟩
    · rfl
    · rfl
    · exact absurd rfl (h3 a b)
    · exact absurd rfl (h2 a b c)
    · exact absurd rfl (h1 a b c d rest)

theorem base64urlDecode_digits {groups : List Nat} (h : ∀ v ∈ groups, v<64) :
    base64urlDecode (String.ofList (groups.map urlChar))=.ok (Sextets.toOctets groups) := by
  have hpad (n : Nat) : replaceChar '_' '/' (replaceChar '-' '+' (padding n))=padding n := by
    unfold padding
    split_ifs
    all_goals rfl
  have happend (s t : List Char) : replaceChar '_' '/' (replaceChar '-' '+' (s++t))=
      replaceChar '_' '/' (replaceChar '-' '+' s)++replaceChar '_' '/' (replaceChar '-' '+' t) := by
    simp [replaceChar]
  simp only [base64urlDecode,String.toList_ofList,length_utf8_urlChar h,happend,hpad,utf8_append,
    utf8_standard h,decodeChunks_digits h]

/-- What was encoded is decoded to itself. -/
theorem base64urlDecode_encode (input : List UInt8) :
    base64urlDecode (base64urlEncode input)=.ok input := by
  have hlt := Sextets.ofOctets_lt input
  have h := base64urlDecode_digits hlt
  rw [← toList_base64urlEncode,String.ofList_toList,Sextets.toOctets_ofOctets] at h
  exact h

/-! Canonical text. -/

theorem urlValue_urlChar {v : Nat} (h : v<64) : urlValue (urlChar v)=v := by
  have all : ∀ v : Fin 64, urlValue (urlChar v)=v := by decide +kernel
  exact all ⟨v,h⟩

theorem urlChar_mem {v : Nat} (h : v<64) : urlChar v ∈ urlChars := by
  have all : ∀ v : Fin 64, urlChar v ∈ urlChars := by decide +kernel
  exact all ⟨v,h⟩

theorem urlChar_urlValue {c : Char} (h : c ∈ urlChars) : urlChar (urlValue c)=c := by
  have hlt := List.idxOf_lt_length_iff.mpr h
  rw [urlChar,urlValue,← List.getElem_eq_getD (h := hlt),List.getElem_idxOf]

theorem urlValue_lt {c : Char} (h : c ∈ urlChars) : urlValue c<64 :=
  List.idxOf_lt_length_iff.mpr h

theorem canonical_iff (s : String) :
    canonical s=true ↔ (∀ c ∈ s.toList, c ∈ urlChars) ∧
      Sextets.tight (s.toList.map urlValue)=true := by
  simp [canonical]

theorem canonical_encode (input : List UInt8) : canonical (base64urlEncode input)=true := by
  have hlt := Sextets.ofOctets_lt input
  have hvalues : ((Sextets.ofOctets input).map urlChar).map urlValue=Sextets.ofOctets input := by
    rw [List.map_map]
    exact (List.map_congr_left fun v hv => urlValue_urlChar (hlt v hv)).trans (List.map_id _)
  rw [canonical_iff,toList_base64urlEncode,hvalues]
  refine ⟨?_,Sextets.tight_ofOctets input⟩
  intro c hc
  obtain ⟨v,hv,rfl⟩ := List.mem_map.mp hc
  exact urlChar_mem (hlt v hv)

/-- The text that a decoding came from is its encoding exactly when it is canonical. -/
theorem encode_of_decode_iff {s : String} {bytes : List UInt8}
    (h : base64urlDecode s=.ok bytes) : base64urlEncode bytes=s ↔ canonical s=true := by
  constructor
  · intro e
    rw [← e]
    exact canonical_encode bytes
  · intro hc
    obtain ⟨hmem,ht⟩ := (canonical_iff s).mp hc
    have hlt : ∀ v ∈ s.toList.map urlValue, v<64 := by
      intro v hv
      obtain ⟨c,hcs,rfl⟩ := List.mem_map.mp hv
      exact urlValue_lt (hmem c hcs)
    have hchars : (s.toList.map urlValue).map urlChar=s.toList := by
      rw [List.map_map]
      exact (List.map_congr_left fun c hc' => urlChar_urlValue (hmem c hc')).trans (List.map_id _)
    have hd := base64urlDecode_digits hlt
    rw [hchars,String.ofList_toList,h] at hd
    cases hd
    apply String.toList_inj.mp
    rw [toList_base64urlEncode,Sextets.ofOctets_toOctets hlt ht,hchars]

theorem urlChars_eq {c : Char} (h : c ∈ urlChars) :
    c.isAlphanum=true ∨ c = '-' ∨ c = '_' := by
  have all : ∀ c ∈ urlChars, c.isAlphanum=true ∨ c = '-' ∨ c = '_' :=
    List.all_iff_forall_prop.mp (by decide +kernel)
  exact all c h

/-- Bytes come back from their encoding, which has a letter, a digit, `-` or `_` for each six bits
and no padding. -/
theorem base64url_round_trip (b : List UInt8) :
    base64urlDecode (base64urlEncode b)=.ok b ∧
    (∀ c ∈ (base64urlEncode b).toList, c.isAlphanum=true ∨ c = '-' ∨ c = '_') ∧
    (base64urlEncode b).toList.length=(8*b.length+5)/6 := by
  refine ⟨base64urlDecode_encode b,?_,?_⟩
  · intro c hc
    exact urlChars_eq (((canonical_iff _).mp (canonical_encode b)).1 c hc)
  · rw [toList_base64urlEncode,List.length_map,Sextets.length_ofOctets]

end NacPlatform.ApiGateway
