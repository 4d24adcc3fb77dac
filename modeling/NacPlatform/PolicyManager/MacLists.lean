import NacPlatform.Enforcement.MacNotations
import NacPlatform.PolicyManager.Agreement

namespace NacPlatform

open Enforcement

/-! What an administrator lists in free text, and what the stored addresses are compared with. -/

section

variable {rt : Runtime} {m : String} {mac : MacAddr}

/-- Digits that are equal in lower case name one address. -/
theorem ofHexDigits_of_lower {s t : String}
    (h : (hexDigits s).map Char.toLower=(hexDigits t).map Char.toLower) :
    parseMac s=parseMac t := by
  rw [parseMac,parseMac,← MacAddr.ofHexDigits_toLower isHexDigit_of_mem,h,
    MacAddr.ofHexDigits_toLower isHexDigit_of_mem]

/-- A text that names an address has its twelve digits and, in upper case, at least those: so it
names the address that its upper case shows. -/
theorem normalizeMac_of_upper {c : String} (hc : Radius.normalizeMac m=some c)
    (h : rt.toUppercase m=rt.toUppercase mac.text) : c=mac.text := by
  rw [Radius.normalizeMac_eq] at hc
  obtain ⟨m',hm',rfl⟩ := Option.map_eq_some_iff.mp hc
  have htext : parseMac mac.text=some mac := mac.ofHexDigits_text
  have hshown : hexDigits (rt.toUppercase m)=(hexDigits mac.text).map Char.toUpper := by
    have hex : ∀ c ∈ (hexDigits mac.text).map Char.toUpper, isHexDigit c=true := by
      intro c hc
      obtain ⟨d,hd,rfl⟩ := List.mem_map.mp hc
      exact (toUpper_hexDigit (isHexDigit_of_mem d hd)).1
    rw [h,rt.toUppercase_ascii _ mac.text_ascii,← iptText_eq,iptText,hexDigits_colonPairs hex]
  have hlen : ((hexDigits m).map Char.toUpper).length=
      ((hexDigits mac.text).map Char.toUpper).length := by
    rw [List.length_map,List.length_map,MacAddr.ofHexDigits_isSome.mp ⟨m',hm'⟩,
      MacAddr.ofHexDigits_isSome.mp ⟨mac,htext⟩]
  have hupper : (hexDigits m).map Char.toUpper=(hexDigits mac.text).map Char.toUpper :=
    (hshown ▸ rt.hexDigits_toUppercase m).eq_of_length hlen
  have lower (s : String) : ((hexDigits s).map Char.toUpper).map Char.toLower=
      (hexDigits s).map Char.toLower := by
    rw [List.map_map]
    exact List.map_congr_left fun c hc => (toUpper_hexDigit (isHexDigit_of_mem c hc)).2.1
  have hsame : parseMac m=parseMac mac.text :=
    ofHexDigits_of_lower (by rw [← lower m,hupper,lower])
  rw [hm',htext] at hsame
  rw [Option.some.inj hsame]

theorem normalizeMac_text (mac : MacAddr) : Radius.normalizeMac mac.text=some mac.text := by
  have htext : parseMac mac.text=some mac := mac.ofHexDigits_text
  rw [Radius.normalizeMac_eq,htext,Option.map_some]

theorem normalizeMac_of_ignoreCase (h : eqIgnoreAsciiCase m mac.text=true) :
    Radius.normalizeMac m=some mac.text := by
  have hlower := congrArg hexDigits ((eqIgnoreAsciiCase_iff m mac.text).mp h)
  rw [hexDigits_asciiLower,hexDigits_asciiLower] at hlower
  rw [← normalizeMac_text,Radius.normalizeMac_eq,Radius.normalizeMac_eq,
    ofHexDigits_of_lower hlower]

/-- What a list of addresses is there for: an entry in any notation is about the device it names,
and entries that name other devices are not about this one. -/
structure ListHonoured (rt : Runtime) (kind : List String → Condition) (macs : List String)
    (row : EndpointRow) (base : PolicyContext) : Prop where
  named : ∀ m ∈ macs, Radius.normalizeMac m=Radius.normalizeMac row.macAddress.text →
    matchesCondition rt (row.facts base) (kind macs)=true ∧
      conditionMatches rt row (kind macs)=true
  others : (∀ m ∈ macs, ∃ c, Radius.normalizeMac m=some c ∧
      some c≠Radius.normalizeMac row.macAddress.text) →
    matchesCondition rt (row.facts base) (kind macs)=false ∧
      conditionMatches rt row (kind macs)=false

/-- No entry names the device, or one of them is its stored address in some letter case. -/
def WrittenAsStored (macs : List String) (mac : MacAddr) : Prop :=
  (∃ m ∈ macs, Radius.normalizeMac m=Radius.normalizeMac mac.text) →
    ∃ m ∈ macs, eqIgnoreAsciiCase m mac.text=true

/-- Both evaluators look for the stored text in the list. -/
theorem listHonoured_iff {kind : List String → Condition} {macs : List String} {row : EndpointRow}
    {base : PolicyContext}
    (hevent : matchesCondition rt (row.facts base) (kind macs)=
      macs.any fun m => rt.toUppercase m==rt.toUppercase row.macAddress.text)
    (hbatch : conditionMatches rt row (kind macs)=
      macs.any fun m => eqIgnoreAsciiCase m row.macAddress.text) :
    ListHonoured rt kind macs row base ↔ WrittenAsStored macs row.macAddress := by
  constructor
  · intro h given
    obtain ⟨m,hm,hname⟩ := given
    have hmatch := (h.named m hm hname).2
    rwa [hbatch,List.any_eq_true] at hmatch
  · intro h
    constructor
    · intro m hm hname
      obtain ⟨m',hm',hcase⟩ := h ⟨m,hm,hname⟩
      rw [hevent,hbatch,List.any_eq_true,List.any_eq_true]
      refine ⟨⟨m',hm',?_⟩,m',hm',hcase⟩
      rw [beq_iff_eq]
      exact upper_eq_of_ignoreCase rt.toUppercase_ascii row.macAddress.text_ascii hcase
    · intro hothers
      rw [normalizeMac_text] at hothers
      rw [hevent,hbatch,List.any_eq_false,List.any_eq_false]
      constructor
      · intro m hm hupper
        obtain ⟨c,hc,hne⟩ := hothers m hm
        exact hne (congrArg some (normalizeMac_of_upper hc (by simpa using hupper)))
      · intro m hm hcase
        obtain ⟨c,hc,hne⟩ := hothers m hm
        rw [normalizeMac_of_ignoreCase hcase] at hc
        exact hne hc.symm

end

/-- Both kinds of list mean the devices they name exactly where a list that names the device has
its address as it is stored, but for the case of letters. -/
theorem mac_lists_honoured_iff (rt : Runtime) (macs : List String) (row : EndpointRow)
    (base : PolicyContext) :
    (ListHonoured rt .macList macs row base ∧ ListHonoured rt .macBlacklist macs row base) ↔
      WrittenAsStored macs row.macAddress := by
  rw [listHonoured_iff rfl rfl,listHonoured_iff rfl rfl,and_self]

/-- A device that is blacklisted with dashes is not matched. -/
theorem dashed_mac_missed :
    Radius.normalizeMac "AA-BB-CC-DD-EE-01"=Radius.normalizeMac windowsRow.macAddress.text ∧
      matchesCondition Runtime.ascii (windowsRow.facts {}) (.macBlacklist ["AA-BB-CC-DD-EE-01"])=
        false ∧
      conditionMatches Runtime.ascii windowsRow (.macBlacklist ["AA-BB-CC-DD-EE-01"])=false := by
  decide +kernel

end NacPlatform
