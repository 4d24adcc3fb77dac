import NacPlatform.Framework.LdapPlace
import NacPlatform.NacAuth.Ldap

namespace NacPlatform.NacAuth

open LdapFilter

/-- A filter with the placeholder once, at a place in a value. -/
structure Template where
  place : Place
  valid : (place.fill placeholder.toList).Valid
  once : ¬placeholder.toList <:+: place.left ∧ ¬placeholder.toList <:+: place.right

def Template.text (t : Template) : String :=
  String.ofList (t.place.fill placeholder.toList).text

/-- The parsed filter is the one of the template, with the username as the text at the place. -/
structure Harmless (t : Template) (username filter : List Char) : Prop where
  parses : ∃ f, Parses filter f
  same : ∀ f, Parses filter f → ∃ v before behind, f=t.place.fill v ∧
    ValueEncoding t.place.ends.1 before ∧ ValueEncoding t.place.ends.2 behind ∧
      ValueEncoding (t.place.value v) (before++(Utf8.encode username++behind))

section

variable {p q : Char}

theorem not_isPrefixOf_pair {cs : List Char} (h : ¬[p,q] <:+: cs) :
    [p,q].isPrefixOf cs=false := by
  rw [Bool.eq_false_iff]
  intro e
  exact h (List.isPrefixOf_iff_prefix.mp e).isInfix

theorem not_infix_tail {c : Char} {cs : List Char} (h : ¬[p,q] <:+: c::cs) : ¬[p,q] <:+: cs :=
  fun e => h (e.trans (List.suffix_cons c cs).isInfix)

/-- Where a pattern does not occur, nothing is replaced. -/
theorem replaceText_of_not_infix {cs : List Char} (h : ¬[p,q] <:+: cs) (by_ : List Char) :
    Aaa.replaceText [p,q] by_ 0 cs=cs := by
  induction cs with
  | nil => rfl
  | cons c cs ih =>
    rw [Aaa.replaceText,not_isPrefixOf_pair h,ih (not_infix_tail h)]
    rfl

/-- A pattern of two different characters is replaced where it stands first. -/
theorem replaceText_pair (hne : p≠q) {cs : List Char} (h : ¬[p,q] <:+: cs)
    (by_ rest : List Char) : Aaa.replaceText [p,q] by_ 0 (cs++([p,q]++rest))=
      cs++(by_++Aaa.replaceText [p,q] by_ 0 rest) := by
  induction cs with
  | nil => exact Aaa.replaceText_self (by simp) by_ rest
  | cons c cs ih =>
    have hnot : [p,q].isPrefixOf (c::(cs++([p,q]++rest)))=false := by
      rw [Bool.eq_false_iff]
      intro e
      obtain ⟨rfl,hq⟩ := List.cons_prefix_cons.mp (List.isPrefixOf_iff_prefix.mp e)
      cases cs with
      | nil => exact hne (List.cons_prefix_cons.mp hq).1.symm
      | cons d cs =>
        obtain ⟨rfl,-⟩ := List.cons_prefix_cons.mp hq
        exact h (List.prefix_append [p,q] cs).isInfix
    rw [List.cons_append,Aaa.replaceText,hnot,ih (not_infix_tail h)]
    rfl

end

theorem placeholder_chars : placeholder.toList=['{','}'] := by decide

/-- What is around the place stays. -/
theorem toList_searchFilter (client : LdapClient) (t : Template) (username : String) :
    (LdapClient.searchFilter { client with userFilter := t.text } username).toList=
      t.place.left++(username.toList++t.place.right) := by
  obtain ⟨hleft,hright⟩ := t.once
  rw [placeholder_chars] at hleft hright
  rw [LdapClient.searchFilter,String.toList_ofList,Template.text,String.toList_ofList,
    Place.text_fill,placeholder_chars,replaceText_pair (by decide) hleft,
    replaceText_of_not_infix hright]

/-- The value of the template around its place. -/
theorem Template.ends (t : Template) : ∃ before behind, ValueEncoding t.place.ends.1 before ∧
    ValueEncoding t.place.ends.2 behind := by
  obtain ⟨⟨bs,hbs⟩,-⟩ := (t.place.valid_fill t.valid placeholder.toList).mp t.valid
  rw [Place.value,placeholder_chars] at hbs
  obtain ⟨before,hbefore⟩ := hbs.cut (c := '{') (by decide)
  obtain ⟨rest,-,hrest⟩ := hbefore.of_append hbs
  have hbraces : ValueEncoding ['{','}'] (Utf8.encode ['{','}']) :=
    .of_normal (List.all_eq_true.mp (by decide))
  obtain ⟨behind,-,hbehind⟩ := hbraces.of_append hrest
  exact ⟨before,behind,hbefore,hbehind⟩

/-- A value says what stands in it exactly if nothing of that has a meaning of its own. -/
theorem normal_of_value {x y z : List Char} {before behind : List UInt8}
    (hx : ValueEncoding x before) (hz : ValueEncoding z behind)
    (h : ValueEncoding (x++(y++z)) (before++(Utf8.encode y++behind))) :
    ∀ c ∈ y, normal c=true := by
  obtain ⟨rest,heq,hyz⟩ := hx.of_append h
  obtain rfl := List.append_cancel_left heq
  -- the bytes are as many as the characters need, so that there is no escape
  have hcount := hyz.length_add
  have hbehind := hz.length_add
  rw [List.length_append,List.count_append,Utf8.encode_append,List.length_append] at hcount
  have hnone : y.count '\\'=0 := by omega
  exact hyz.normal_of_notMem (List.count_eq_zero.mp hnone)

theorem harmless_iff (client : LdapClient) (t : Template) (username : String) :
    Harmless t username.toList
        (LdapClient.searchFilter { client with userFilter := t.text } username).toList ↔
      (∀ c ∈ username.toList, normal c=true) ∧ t.place.KeepsText username.toList := by
  rw [toList_searchFilter]
  have hvalid := t.place.valid_fill t.valid username.toList
  constructor
  · intro h
    obtain ⟨f,hf⟩ := h.parses
    obtain ⟨v,before,behind,rfl,hbefore,hbehind,hvalue⟩ := h.same f hf
    obtain ⟨hfilled,htext⟩ := hf
    rw [Place.text_fill] at htext
    obtain rfl := List.append_cancel_right (List.append_cancel_left htext)
    exact ⟨normal_of_value hbefore hbehind hvalue,(hvalid.mp hfilled).2⟩
  · intro h
    obtain ⟨hnormal,hkeeps⟩ := h
    obtain ⟨before,behind,hbefore,hbehind⟩ := t.ends
    have hvalue := hbefore.append ((ValueEncoding.of_normal hnormal).append hbehind)
    have hparses : Parses (t.place.left++(username.toList++t.place.right))
        (t.place.fill username.toList) :=
      ⟨hvalid.mpr ⟨⟨_,hvalue⟩,hkeeps⟩,t.place.text_fill username.toList⟩
    refine ⟨⟨_,hparses⟩,?_⟩
    intro f hf
    exact ⟨username.toList,before,behind,hf.unique hparses,hbefore,hbehind,hvalue⟩

/-- A search is made with the filter of the username, and no other. -/
def SearchesWith (filter : String) (op : LdapCall) : Prop :=
  ∀ base other attrs, op=.search base other attrs → other=filter

theorem authenticate_searches (rt : Runtime) (client : LdapClient) (username password : String) :
    (authenticate rt client username password).Only (fun _ _ => True)
      (SearchesWith (client.searchFilter username)) := by
  have other {op : LdapCall} (h : ∀ base filter attrs, op≠.search base filter attrs) :
      SearchesWith (client.searchFilter username) op := by
    intro base filter attrs e
    exact absurd e (h base filter attrs)
  unfold authenticate
  split
  · exact Proc.only_fail _
  · refine .bind (Proc.only_performOrFail.mpr (other (by simp))) fun _ => ?_
    refine .bind (Proc.only_performOrFail.mpr (other (by simp))) fun _ => ?_
    refine .bind (Proc.only_performOrFail.mpr ?_) fun entries => ?_
    · intro base filter attrs e
      cases e
      rfl
    · cases entries with
      | nil => exact Proc.only_fail _
      | cons entry entries =>
        refine .bind (Proc.only_performOrFail.mpr (other (by simp))) fun _ => ?_
        refine .bind (Proc.only_perform.mpr (other (by simp))) fun _ => ?_
        exact Proc.only_pure _

/-- The filter of a login is that of the template with the username as a value exactly if the
username has no character with a meaning of its own in a filter, and if it is not empty where an
asterisk has nothing else beside it. -/
theorem searchFilter_harmless_iff (rt : Runtime) (client : LdapClient) (t : Template)
    (username : String) :
    (∀ password, (authenticate rt { client with userFilter := t.text } username password).Only
      (fun _ _ => True)
      (SearchesWith (LdapClient.searchFilter { client with userFilter := t.text } username))) ∧
    (Harmless t username.toList
        (LdapClient.searchFilter { client with userFilter := t.text } username).toList ↔
      (∀ c ∈ username.toList, normal c=true) ∧ t.place.KeepsText username.toList) :=
  ⟨authenticate_searches rt _ username,harmless_iff client t username⟩

theorem attributeDescription_descr {c : Char} {cs : List Char} (letter : c.isAlpha=true)
    (keychars : ∀ d ∈ cs, keychar d=true) : AttributeDescription (c::cs) := by
  have h := AttributeDescription.options (c::cs) [] (.descr c cs letter keychars) (by simp)
  rwa [List.flatMap_nil,List.append_nil] at h

theorem uid_description : AttributeDescription "uid".toList := by
  have hchars : "uid".toList = 'u'::['i','d'] := by decide
  rw [hchars]
  exact attributeDescription_descr (by decide) (List.all_eq_true.mp (by decide))

theorem objectClass_person : (Filter.assertion "objectClass=".toList "person".toList).Valid := by
  have hchars : "objectClass=".toList=('o'::"bjectClass".toList)++['='] := by decide
  rw [hchars]
  refine .assertion _ _ _ (.simple _ _ ?_ (by decide))
    (.of_normal (List.all_eq_true.mp (by decide)))
  exact attributeDescription_descr (by decide) (List.all_eq_true.mp (by decide))

/-- A person with a user id: the placeholder is the whole value. -/
def personFilter : Template where
  place := .and [.assertion "objectClass=".toList "person".toList]
    (.assertion "uid=".toList [] []) []
  valid := by
    have huid : "uid=".toList="uid".toList++['='] := by decide
    have hplace : AssertionLhs ("uid".toList++['=']) := .simple _ _ uid_description (by decide)
    rw [huid]
    refine .and _ (by simp) (List.forall_mem_cons.mpr
      ⟨objectClass_person,List.forall_mem_singleton.mpr ?_⟩)
    exact .assertion _ _ _ hplace (.of_normal (List.all_eq_true.mp (by decide)))
  once := by decide +kernel

def directory : LdapClient where
  url := "ldap://dc"
  bindDn := "cn=portal"
  bindPw := "secret"
  userBase := "dc=corp"
  userFilter := personFilter.text

/-- An asterisk as the username: the search is for every person who has a user id. -/
theorem searchFilter_asterisk :
    personFilter.text="(&(objectClass=person)(uid=\x7b\x7d))" ∧
    directory.searchFilter "*"="(&(objectClass=person)(uid=*))" ∧
    Parses (directory.searchFilter "*").toList
      (.and [.assertion "objectClass=".toList "person".toList,.present "uid".toList]) ∧
    ¬Harmless personFilter "*".toList (directory.searchFilter "*").toList := by
  have hfilter : directory.searchFilter "*"="(&(objectClass=person)(uid=*))" := by decide +kernel
  refine ⟨by decide +kernel,hfilter,⟨?_,?_⟩,?_⟩
  · refine .and _ (by simp) (List.forall_mem_cons.mpr
      ⟨objectClass_person,List.forall_mem_singleton.mpr ?_⟩)
    exact .present _ uid_description
  · rw [hfilter]
    decide +kernel
  · intro h
    have hnormal := ((harmless_iff directory personFilter "*").mp h).1
    exact absurd (hnormal '*' (by decide)) (by decide)

end NacPlatform.NacAuth
