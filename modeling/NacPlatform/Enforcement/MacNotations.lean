import NacPlatform.Aaa.RadiusServer
import NacPlatform.AgentGateway.AgentService
import NacPlatform.Enforcement.Legacy
import NacPlatform.Sensor.Arp

namespace NacPlatform

/-! Every service writes a hardware address its own way; all of them read the twelve digits. -/

theorem isHexDigit_of_whitespace {c : Char} (h : isWhitespace c=true) : isHexDigit c=false := by
  rw [Bool.eq_false_iff]
  intro hc
  have hno : isWhitespace c=false :=
    hexDigit_forall (P := fun c => isWhitespace c=false) (by decide) hc
  rw [h] at hno
  cases hno

theorem filter_dropWhile_whitespace (cs : List Char) :
    (cs.dropWhile isWhitespace).filter isHexDigit=cs.filter isHexDigit := by
  induction cs with
  | nil => rfl
  | cons c cs ih =>
    by_cases h : isWhitespace c=true
    · rw [List.dropWhile_cons_of_pos h,ih,
        List.filter_cons_of_neg (by simp [isHexDigit_of_whitespace h])]
    · rw [List.dropWhile_cons_of_neg h]

/-- Trimming takes no digit. -/
theorem hexDigits_trim (s : String) : hexDigits (trim s)=hexDigits s := by
  rw [hexDigits,trim,String.toList_ofList,List.filter_reverse,filter_dropWhile_whitespace,
    ← List.filter_reverse,List.reverse_reverse,filter_dropWhile_whitespace,hexDigits]

section

open Enforcement

theorem colonPairs_text (m : MacAddr) :
    String.ofList (colonPairs (hexDigits m.text))=m.text := by
  rw [MacAddr.hexDigits_text,MacAddr.text]
  rfl

/-- Twelve digits in lower case, in pairs, are the text of the address they name. -/
theorem text_of_parseMac {s : String} {m : MacAddr} (h : parseMac s=some m) :
    String.ofList (colonPairs ((hexDigits s).map Char.toLower))=m.text := by
  have hlen := MacAddr.ofHexDigits_isSome.mp ⟨m,h⟩
  have hnft := nftMac_eq Runtime.ascii h
  rwa [nftMac,if_pos hlen] at hnft

theorem parseMac_eq_none {s : String} (h : parseMac s=none) : (hexDigits s).length≠12 := by
  intro hlen
  obtain ⟨m,hm⟩ := MacAddr.ofHexDigits_isSome.mpr hlen
  rw [parseMac,hm] at h
  cases h

theorem Radius.normalizeMac_eq (s : String) :
    Radius.normalizeMac s=(parseMac s).map MacAddr.text := by
  cases h : parseMac s with
  | none =>
    have hlen := parseMac_eq_none h
    rw [← List.length_map (f := Char.toLower)] at hlen
    rw [Radius.normalizeMac]
    split
    · rename_i heq
      rw [heq] at hlen
      exact absurd rfl hlen
    · rfl
  | some m =>
    have htext := text_of_parseMac h
    have hlen := MacAddr.ofHexDigits_isSome.mp ⟨m,h⟩
    rw [Option.map_some,← htext,Radius.normalizeMac]
    match hexDigits s,hlen with
    | [a,b,c,d,e,f,g,h',i,j,k,l],_ => rfl

theorem AgentService.normalizeMac_eq (s : String) :
    AgentService.normalizeMac s=(parseMac s).map MacAddr.text := by
  cases h : parseMac s with
  | none =>
    have hlen := parseMac_eq_none h
    rw [← hexDigits_trim] at hlen
    rw [AgentService.normalizeMac]
    split
    · rfl
    · split
      · rename_i heq
        rw [heq] at hlen
        exact absurd rfl hlen
      · rfl
  | some m =>
    have htext := text_of_parseMac h
    have hlen := MacAddr.ofHexDigits_isSome.mp ⟨m,h⟩
    have hne : (trim s).isEmpty=false := by
      rw [← hexDigits_trim] at hlen
      by_contra he
      have hempty : trim s="" := by simpa using he
      rw [hempty] at hlen
      exact absurd hlen (by decide)
    rw [Option.map_some,← htext,AgentService.normalizeMac]
    simp only [hne,hexDigits_trim,Bool.false_eq_true,if_false]
    match hexDigits s,hlen with
    | [a,b,c,d,e,f,g,h',i,j,k,l],_ => rfl

theorem colonPairs_map_toUpper (cs : List Char) :
    (colonPairs cs).map Char.toUpper=colonPairs (cs.map Char.toUpper) := by
  have colon : ':'.toUpper = ':' := by decide
  fun_induction colonPairs cs with
  | case1 a b c cs ih => simp only [List.map_cons,colonPairs,ih,colon]
  | case2 cs hshort =>
    match cs,hshort with
    | [],_ => rfl
    | [_],_ => rfl
    | [_,_],_ => rfl
    | a::b::c::cs,hshort => exact absurd rfl (hshort a b c cs)

theorem iptText_eq (m : MacAddr) : iptText m=asciiUpper m.text := by
  conv_rhs => rw [← colonPairs_text m]
  rw [iptText,asciiUpper,String.toList_ofList,colonPairs_map_toUpper]

/-- The notations agree: all read the same texts, and what they make of one names one address. -/
theorem mac_notations_agree (rt : Runtime) :
    (∀ s : String,
      ((Radius.normalizeMac s).isSome=true ↔ (AgentService.normalizeMac s).isSome=true) ∧
      ((Radius.normalizeMac s).isSome=true ↔ (parseMac s).isSome=true) ∧
      ∀ c, Radius.normalizeMac s=some c →
        AgentService.normalizeMac s=some c ∧ nftMac rt s=c ∧ iptMac rt s=rt.toUppercase c ∧
        parseMac c=parseMac s ∧ Radius.normalizeMac c=some c ∧
        AgentService.normalizeMac c=some c) ∧
    ∀ b : MacAddr, parseMac (Sensor.formatMac b)=some b := by
  constructor
  · intro s
    rw [AgentService.normalizeMac_eq,Radius.normalizeMac_eq,Option.isSome_map]
    refine ⟨Iff.rfl,Iff.rfl,?_⟩
    intro c hc
    obtain ⟨m,hm,rfl⟩ := Option.map_eq_some_iff.mp hc
    have hback : parseMac m.text=some m := m.ofHexDigits_text
    have hupper : rt.toUppercase m.text=asciiUpper m.text :=
      rt.toUppercase_ascii _ m.text_ascii
    refine ⟨hc,nftMac_eq rt hm,?_,hback.trans hm.symm,?_,?_⟩
    · rw [iptMac_eq rt hm,iptText_eq,hupper]
    · rw [Radius.normalizeMac_eq,hback,Option.map_some]
    · rw [AgentService.normalizeMac_eq,hback,Option.map_some]
  · intro b
    have hshown : Sensor.formatMac b=iptText b := (iptText_eq b).symm
    rw [hshown]
    exact parseMac_iptText b

end

end NacPlatform
