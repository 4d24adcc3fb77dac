import NacPlatform.Framework.Address

namespace NacPlatform

/-- Rust's Unicode case tables, with what is documented of them on ASCII text. A character is put
in upper case whatever stands around it. -/
structure Runtime where
  toLowercase : String → String
  toUppercase : String → String
  toLowercase_ascii : ∀ s, (∀ c ∈ s.toList, c.toNat<128) → toLowercase s=asciiLower s
  toUppercase_ascii : ∀ s, (∀ c ∈ s.toList, c.toNat<128) → toUppercase s=asciiUpper s
  toUppercase_append : ∀ s t, toUppercase (s++t)=toUppercase s++toUppercase t
  hexDigits_toLowercase : ∀ s, hexDigits (toLowercase s)=(hexDigits s).map Char.toLower

theorem MacAddr.text_ascii (m : MacAddr) : ∀ c ∈ m.text.toList, c.toNat<128 := by
  have digit : ∀ n : Fin 256, (MacAddr.byteText (.ofNat n)).all (·.toNat<128)=true := by
    decide +kernel
  have byte (n : UInt8) : ∀ c ∈ MacAddr.byteText n, c.toNat<128 := by
    simpa using digit ⟨n.toNat,n.toNat_lt⟩
  intro c hc
  simp only [MacAddr.text,String.toList_ofList,List.mem_append,List.mem_cons] at hc
  rcases hc with h|rfl|h|rfl|h|rfl|h|rfl|h|rfl|h
  all_goals first
    | exact byte _ c h
    | decide

namespace Runtime

variable (rt : Runtime)

/-- A shown hardware address is in lower case already. -/
theorem toLowercase_text (m : MacAddr) : rt.toLowercase m.text=m.text := by
  have digit : ∀ n : Fin 256, (MacAddr.byteText (.ofNat n)).map Char.toLower=
      MacAddr.byteText (.ofNat n) := by decide +kernel
  have byte (n : UInt8) : (MacAddr.byteText n).map Char.toLower=MacAddr.byteText n := by
    simpa using digit ⟨n.toNat,n.toNat_lt⟩
  have colon : ':'.toLower = ':' := by decide
  rw [rt.toLowercase_ascii _ (MacAddr.text_ascii m),asciiLower,MacAddr.text]
  simp only [String.toList_ofList,List.map_append,List.map_cons,byte,colon]

/-- Lower case keeps the hardware address a text names. -/
theorem ofHexDigits_toLowercase (s : String) :
    MacAddr.ofHexDigits (hexDigits (rt.toLowercase s))=MacAddr.ofHexDigits (hexDigits s) := by
  rw [rt.hexDigits_toLowercase]
  exact MacAddr.ofHexDigits_toLower fun c hc => (List.mem_filter.mp hc).2

/-- Upper case keeps every digit of a text, and can only add some. -/
theorem hexDigits_toUppercase (s : String) :
    ((hexDigits s).map Char.toUpper).Sublist (hexDigits (rt.toUppercase s)) := by
  suffices h : ∀ cs : List Char, ((cs.filter isHexDigit).map Char.toUpper).Sublist
      (hexDigits (rt.toUppercase (String.ofList cs))) by
    have hs := h s.toList
    rwa [String.ofList_toList] at hs
  intro cs
  induction cs with
  | nil => simp
  | cons c cs ih =>
    have hcons : String.ofList (c::cs)=String.ofList [c]++String.ofList cs := by
      rw [← String.ofList_append,List.singleton_append]
    have hsplit : hexDigits (rt.toUppercase (String.ofList (c::cs)))=
        hexDigits (rt.toUppercase (String.ofList [c]))++
          hexDigits (rt.toUppercase (String.ofList cs)) := by
      rw [hcons,rt.toUppercase_append,hexDigits,String.toList_append,List.filter_append,
        hexDigits,hexDigits]
    rw [hsplit]
    by_cases hc : isHexDigit c=true
    · have hascii : c.toNat<128 := by
        have hlt := isHexDigit_lt hc
        omega
      have hupper : isHexDigit c.toUpper=true :=
        hexDigit_forall (P := fun c => isHexDigit c.toUpper=true) (by decide) hc
      have hone : hexDigits (rt.toUppercase (String.ofList [c]))=[c.toUpper] := by
        rw [rt.toUppercase_ascii _ (by simpa using hascii),hexDigits,asciiUpper]
        simp [hupper]
      rw [List.filter_cons_of_pos hc,hone]
      exact ih.cons_cons _
    · rw [List.filter_cons_of_neg hc]
      exact ih.trans (List.sublist_append_right _ _)

end Runtime

/-- The runtime on ASCII text, where it can be written down. -/
def Runtime.ascii : Runtime where
  toLowercase := asciiLower
  toUppercase := asciiUpper
  toLowercase_ascii _ _ := rfl
  toUppercase_ascii _ _ := rfl
  toUppercase_append s t := by
    rw [asciiUpper,asciiUpper,asciiUpper,String.toList_append,List.map_append,String.ofList_append]
  hexDigits_toLowercase := hexDigits_asciiLower

end NacPlatform
