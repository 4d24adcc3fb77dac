import NacPlatform.Framework.Text
import NacPlatform.Framework.Utf8

namespace NacPlatform.Percent

/-! Percent encoding, and the pairs of a query in the form `application/x-www-form-urlencoded`. -/

/-- The byte of an ASCII character. -/
def byte (c : Char) : UInt8 := .ofNat c.toNat

def isHex (b : UInt8) : Bool := isHexDigit (Char.ofNat b.toNat)

def value (h l : UInt8) : UInt8 :=
  .ofNat (16*hexValue (Char.ofNat h.toNat)+hexValue (Char.ofNat l.toNat))

/-- A percent sign and two digits stand for a byte; every other byte stands for itself. -/
def decode : List UInt8 → List UInt8
  | [] => []
  | b::bs =>
    match bs with
    | h::l::rest =>
      if b=byte '%' ∧ isHex h ∧ isHex l then value h l::decode rest else b::decode (h::l::rest)
    | rest => b::rest

/-- The upper-case digit of a value below sixteen. -/
def hexUpper (n : Nat) : Char :=
  if n<10 then Char.ofNat ('0'.toNat+n) else Char.ofNat ('A'.toNat+n-10)

/-- `%{b:02X}`. -/
def group (b : UInt8) : List Char := ['%',hexUpper (b.toNat/16),hexUpper (b.toNat%16)]

/-- The bytes that `plain` lets through, and groups for the others. -/
def encodeWith (plain : UInt8 → Bool) (bs : List UInt8) : List Char :=
  bs.flatMap fun b => if plain b then [Char.ofNat b.toNat] else group b

/-- Letters, digits and `-`, `.`, `_`, `~`. -/
def unreserved (b : UInt8) : Bool :=
  (byte 'A' ≤ b && b ≤ byte 'Z') || (byte 'a' ≤ b && b ≤ byte 'z') ||
    (byte '0' ≤ b && b ≤ byte '9') || b==byte '-' || b==byte '_' || b==byte '.' || b==byte '~'

/-- The name or the value of a pair. -/
def component (bs : List UInt8) : List Char :=
  Utf8.lossy (decode (bs.map fun b => if b=byte '+' then byte ' ' else b))

def pair (bs : List UInt8) : List Char × List Char :=
  (component (bs.takeWhile (· != byte '=')),
    component ((bs.dropWhile (· != byte '=')).drop 1))

/-- `form_urlencoded::parse`. -/
def pairs (query : List UInt8) : List (List Char × List Char) :=
  ((query.splitOn (byte '&')).filter (!·.isEmpty)).map pair

theorem decode_cons {b : UInt8} (h : b≠byte '%') (bs : List UInt8) :
    decode (b::bs)=b::decode bs := by
  match bs with
  | [] => rfl
  | [_] => rfl
  | _::_::_ => rw [decode,if_neg fun hb => h hb.1]

theorem decode_group {h l : UInt8} (hh : isHex h=true) (hl : isHex l=true) (bs : List UInt8) :
    decode (byte '%'::h::l::bs)=value h l::decode bs := by
  rw [decode,if_pos ⟨rfl,hh,hl⟩]

theorem hexUpper_digit {n : Nat} (hn : n<16) :
    isHexDigit (hexUpper n)=true ∧ (hexUpper n).toNat<0x80 ∧ isHex (byte (hexUpper n))=true ∧
      hexValue (Char.ofNat (byte (hexUpper n)).toNat)=n ∧ byte (hexUpper n)≠byte '+' := by
  have h : ∀ n : Fin 16, isHexDigit (hexUpper n)=true ∧ (hexUpper n).toNat<0x80 ∧
      isHex (byte (hexUpper n))=true ∧ hexValue (Char.ofNat (byte (hexUpper n)).toNat)=n ∧
      byte (hexUpper n)≠byte '+' := by decide
  exact h ⟨n,hn⟩

theorem byte_ofNat {b : UInt8} (h : b.toNat<0x80) :
    (Char.ofNat b.toNat).toNat<0x80 ∧ byte (Char.ofNat b.toNat)=b := by
  have ascii : ∀ n : Fin 128, (Char.ofNat n).toNat=n := by decide
  have hn : (Char.ofNat b.toNat).toNat=b.toNat := ascii ⟨b.toNat,h⟩
  rw [byte,hn,UInt8.ofNat_toNat]
  exact ⟨h,rfl⟩

theorem encode_byte {c : Char} (h : c.toNat<0x80) : Utf8.encode [c]=[byte c] :=
  Utf8.encode_ascii fun d hd => by rwa [List.mem_singleton.mp hd]

theorem encode_group (b : UInt8) : Utf8.encode (group b)=
    [byte '%',byte (hexUpper (b.toNat/16)),byte (hexUpper (b.toNat%16))] := by
  have hb := b.toNat_lt
  apply Utf8.encode_ascii
  intro c hc
  simp only [group,List.mem_cons,List.not_mem_nil,or_false] at hc
  rcases hc with rfl|rfl|rfl
  · decide
  · exact (hexUpper_digit (by omega)).2.1
  · exact (hexUpper_digit (by omega)).2.1

theorem value_hexUpper (b : UInt8) :
    value (byte (hexUpper (b.toNat/16))) (byte (hexUpper (b.toNat%16)))=b := by
  have hb := b.toNat_lt
  rw [value,(hexUpper_digit (by omega)).2.2.2.1,(hexUpper_digit (by omega)).2.2.2.1,
    Nat.div_add_mod,UInt8.ofNat_toNat]

section

variable {p : UInt8 → Bool}

/-- Every byte is read back, whatever follows. -/
theorem decode_encodeWith (h : ∀ b, p b=true → b.toNat<0x80 ∧ b≠byte '%')
    (bs rest : List UInt8) : decode (Utf8.encode (encodeWith p bs)++rest)=bs++decode rest := by
  induction bs with
  | nil => rfl
  | cons b bs ih =>
    have hb := b.toNat_lt
    rw [encodeWith,List.flatMap_cons,Utf8.encode_append,List.append_assoc]
    by_cases hp : p b=true
    · obtain ⟨hlt,hne⟩ := h b hp
      rw [if_pos hp,encode_byte (byte_ofNat hlt).1,(byte_ofNat hlt).2,List.singleton_append,
        decode_cons hne]
      exact congrArg (b::·) ih
    · rw [if_neg hp,encode_group]
      simp only [List.cons_append,List.nil_append]
      rw [decode_group (hexUpper_digit (by omega)).2.2.1 (hexUpper_digit (by omega)).2.2.1,
        value_hexUpper]
      exact congrArg (b::·) ih

theorem mem_encodeWith {bs : List UInt8} {x : UInt8}
    (hx : x ∈ Utf8.encode (encodeWith p bs)) (h : ∀ b, p b=true → b.toNat<0x80) :
    x ∈ bs ∧ p x=true ∨ x=byte '%' ∨ isHex x=true := by
  induction bs with
  | nil => cases hx
  | cons b bs ih =>
    have hb := b.toNat_lt
    rw [encodeWith,List.flatMap_cons,Utf8.encode_append,List.mem_append] at hx
    rcases hx with hx|hx
    · by_cases hp : p b=true
      · rw [if_pos hp,encode_byte (byte_ofNat (h b hp)).1,(byte_ofNat (h b hp)).2,
          List.mem_singleton] at hx
        exact .inl ⟨hx ▸ List.mem_cons_self,hx ▸ hp⟩
      · rw [if_neg hp,encode_group] at hx
        simp only [List.mem_cons,List.not_mem_nil,or_false] at hx
        rcases hx with rfl|rfl|rfl
        · exact .inr (.inl rfl)
        · exact .inr (.inr (hexUpper_digit (by omega)).2.2.1)
        · exact .inr (.inr (hexUpper_digit (by omega)).2.2.1)
    · exact (ih hx).imp_left fun h => ⟨List.mem_cons_of_mem b h.1,h.2⟩

end

theorem unreserved_ascii {b : UInt8} (h : unreserved b=true) :
    b.toNat<0x80 ∧ b≠byte '%' ∧ b≠byte '+' ∧ b≠byte '&' := by
  have all : ∀ n : Fin 256, unreserved (.ofNat n)=true → (UInt8.ofNat n).toNat<0x80 ∧
      UInt8.ofNat n≠byte '%' ∧ UInt8.ofNat n≠byte '+' ∧ UInt8.ofNat n≠byte '&' := by
    decide +kernel
  have hb := all ⟨b.toNat,b.toNat_lt⟩
  rw [UInt8.ofNat_toNat] at hb
  exact hb h

theorem isHex_separator {b : UInt8} (h : isHex b=true) : b≠byte '+' ∧ b≠byte '&' := by
  constructor
  · intro same
    subst same
    exact absurd h (by decide)
  · intro same
    subst same
    exact absurd h (by decide)

/-- What is encoded has no separator of pairs, and is read back as the value of one. -/
theorem component_encodeWith (cs : List Char) :
    byte '&' ∉ Utf8.encode (encodeWith unreserved (Utf8.encode cs)) ∧
      component (Utf8.encode (encodeWith unreserved (Utf8.encode cs)))=cs := by
  have clean : ∀ b ∈ Utf8.encode (encodeWith unreserved (Utf8.encode cs)),
      b≠byte '+' ∧ b≠byte '&' := by
    intro b hb
    rcases mem_encodeWith hb fun b h => (unreserved_ascii h).1 with ⟨-,h⟩|rfl|h
    · exact (unreserved_ascii h).2.2
    · decide
    · exact isHex_separator h
  have nothing : (Utf8.encode (encodeWith unreserved (Utf8.encode cs))).map
      (fun b => if b=byte '+' then byte ' ' else b)=
        Utf8.encode (encodeWith unreserved (Utf8.encode cs)) := by
    conv_rhs => rw [← List.map_id (Utf8.encode (encodeWith unreserved (Utf8.encode cs)))]
    apply List.map_congr_left
    intro b hb
    rw [if_neg (clean b hb).1,id]
  have hback := decode_encodeWith (p := unreserved)
    (fun b h => ⟨(unreserved_ascii h).1,(unreserved_ascii h).2.1⟩) (Utf8.encode cs) []
  rw [List.append_nil,decode,List.append_nil] at hback
  refine ⟨fun h => (clean _ h).2 rfl,?_⟩
  rw [component,nothing,hback,Utf8.lossy_encode]

/-- A name without separators and a value are one pair. -/
theorem pairs_one {name bs : List UInt8} (hname : ∀ b ∈ name, b≠byte '&' ∧ b≠byte '=')
    (hbs : byte '&' ∉ bs) :
    pairs (name++byte '='::bs)=[(component name,component bs)] := by
  have whole : byte '&' ∉ name++byte '='::bs := by
    rw [List.mem_append,List.mem_cons]
    intro given
    rcases given with h|h|h
    · exact (hname _ h).1 rfl
    · exact absurd h (by decide)
    · exact hbs h
  have before : ∀ b ∈ name, (b != byte '=')=true := by
    intro b hb
    simpa using (hname b hb).2
  have kept : [name++byte '='::bs].filter (!·.isEmpty)=[name++byte '='::bs] := by simp
  rw [pairs,List.splitOn_eq_singleton whole,kept,List.map_singleton,pair,
    List.takeWhile_append_of_pos before,List.dropWhile_append_of_pos before]
  simp

end NacPlatform.Percent
