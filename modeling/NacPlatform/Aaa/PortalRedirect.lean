import Mathlib.Data.Bool.AllAny
import NacPlatform.Aaa.LoginTargets
import NacPlatform.Framework.Percent

namespace NacPlatform.Aaa

def percentEncodeUrl (input : String) : String :=
  String.ofList (Percent.encodeWith Percent.unreserved (Utf8.encode input.toList))

/-- `str::replace` with a character as the pattern. -/
def replaceChar (c : Char) (by_ : String) (cs : List Char) : List Char :=
  cs.flatMap fun x => if x=c then by_.toList else [x]

def htmlEscape (s : String) : String :=
  String.ofList (replaceChar '>' "&gt;" (replaceChar '<' "&lt;"
    (replaceChar '"' "&quot;" (replaceChar '&' "&amp;" s.toList))))

/-- `str::replace`: the occurrences from the left, none of which overlaps the one before. -/
def replaceText (pat by_ : List Char) : Nat → List Char → List Char
  | _, [] => []
  | 0, c::cs =>
    if pat.isPrefixOf (c::cs) then by_++replaceText pat by_ (pat.length-1) cs
    else c::replaceText pat by_ 0 cs
  | skip+1, _::cs => replaceText pat by_ skip cs

def macPlaceholder : String := "\x7b\x7bMAC\x7d\x7d"

def urlPlaceholder : String := "\x7b\x7bREDIRECT_URL\x7d\x7d"

def beforeMac : String :=
  "<form method=\"POST\" action=\"/login\">\n    <input type=\"hidden\" name=\"mac\" value=\""

def betweenFields : String := "\">\n    <input type=\"hidden\" "

/-- The start of an input field's value. -/
def fieldStart (name : String) : String := "name=\""++name++"\" value=\""

def afterUrl : String := "\">\n"

/-- The form of the login page with its two hidden fields. -/
def loginHtmlTemplate : String :=
  beforeMac++macPlaceholder++betweenFields++fieldStart "redirect_url"++urlPlaceholder++afterUrl

def loginHtml (mac redirectUrl : String) : String :=
  String.ofList (replaceText urlPlaceholder.toList (htmlEscape redirectUrl).toList 0
    (replaceText macPlaceholder.toList mac.toList 0 loginHtmlTemplate.toList))

inductive PortalResponse where
  | redirect (location : String)
  | blockedPage
  | loginPage (html : String)
  | noContent
  | badRequest (reason : String)
  deriving DecidableEq, Repr

/-- An error counts as no row. -/
def endpointStatus (ip : String) : Handler (Option Status) := do
  match ← probe (.findByHost ip) with
  | .ok (some row) => return some row.status
  | _ => return none

/-- `Query<LandingQuery>`: at most one pair may have the name `url`. -/
def landingQuery (query : String) : Except String (Option String) :=
  match (Percent.pairs (Utf8.encode query.toList)).filter (·.1==['u','r','l']) with
  | [] => .ok none
  | [(_,v)] => .ok (some (String.ofList v))
  | _ => .error "duplicate field"

def landingPage (ip query : String) : Handler PortalResponse :=
  match landingQuery query with
  | .error e => return .badRequest e
  | .ok url => do
    let mac := (← macFromDb ip).getD ""
    match ← endpointStatus ip with
    | some .denied => return .blockedPage
    | _ => return .loginPage (loginHtml mac (url.getD ""))

/-- Every other path. The original URL goes along as a query parameter. -/
def catchAll (portalUrl ip : String) (host : Option String) (pathAndQuery : Option String) :
    Handler PortalResponse := do
  match ← endpointStatus ip with
  | some .denied => return .redirect (portalUrl++"/blocked")
  | some .quarantined =>
    match host with
    | some host =>
      let original := "http://"++host++pathAndQuery.getD "/"
      return .redirect (portalUrl++"/?url="++percentEncodeUrl original)
    | none => return .redirect portalUrl
  | _ => return .noContent

/-! What the browser does with the page. -/

/-- The four entities that stand for characters of their own in an attribute. -/
def decodeEntities : List Char → List Char
  | '&' :: 'a' :: 'm' :: 'p' :: ';' :: cs => '&' :: decodeEntities cs
  | '&' :: 'q' :: 'u' :: 'o' :: 't' :: ';' :: cs => '"' :: decodeEntities cs
  | '&' :: 'l' :: 't' :: ';' :: cs => '<' :: decodeEntities cs
  | '&' :: 'g' :: 't' :: ';' :: cs => '>' :: decodeEntities cs
  | c::cs => c::decodeEntities cs
  | [] => []

/-- A decoder of entities: it knows these four, and what has no ampersand is read as it stands. -/
structure EntityDecoder where
  decode : List Char → List Char
  nil : decode []=[]
  plain : ∀ c cs, c ≠ '&' → decode (c::cs)=c::decode cs
  amp : ∀ cs, decode ("&amp;".toList++cs) = '&'::decode cs
  quot : ∀ cs, decode ("&quot;".toList++cs) = '"'::decode cs
  lt : ∀ cs, decode ("&lt;".toList++cs) = '<'::decode cs
  gt : ∀ cs, decode ("&gt;".toList++cs) = '>'::decode cs

/-- The decoder that knows no others. -/
def fourEntities : EntityDecoder where
  decode := decodeEntities
  nil := rfl
  plain := by
    intro c cs h
    rw [decodeEntities]
    · exact fun _ e => absurd e h
    · exact fun _ e => absurd e h
    · exact fun _ e => absurd e h
    · exact fun _ e => absurd e h
  amp := fun _ => rfl
  quot := fun _ => rfl
  lt := fun _ => rfl
  gt := fun _ => rfl

/-- What follows the first occurrence of a text. -/
def after (pat : List Char) : List Char → Option (List Char)
  | [] => none
  | c::cs => if pat.isPrefixOf (c::cs) then some ((c::cs).drop pat.length) else after pat cs

/-- The pattern does not occur in a text, nor does it begin at its end. -/
def clear (pat : List Char) : List Char → Bool
  | [] => true
  | c::cs => !pat.isPrefixOf (c::cs) && !(c::cs).isPrefixOf pat && clear pat cs

theorem clear_of_head {p : Char} (pat : List Char) {cs : List Char} (h : p ∉ cs) :
    clear (p::pat) cs=true := by
  induction cs with
  | nil => rfl
  | cons c cs ih =>
    have hne : p≠c := fun e => h (e ▸ List.mem_cons_self)
    rw [clear,ih fun hm => h (List.mem_cons_of_mem c hm)]
    simp [List.isPrefixOf_cons_cons,hne,hne.symm]

section

variable {pat : List Char}

/-- In a text that is clear of the pattern it occurs nowhere, whatever follows. -/
theorem not_prefix_of_clear {c : Char} {cs : List Char} (h : clear pat (c::cs)=true)
    (rest : List Char) : pat.isPrefixOf (c::cs++rest)=false := by
  simp only [clear,Bool.and_eq_true,Bool.not_eq_true'] at h
  rw [Bool.eq_false_iff]
  intro hp
  have both := List.prefix_or_prefix_of_prefix (List.isPrefixOf_iff_prefix.mp hp)
    (List.prefix_append (c::cs) rest)
  rcases both with hpre|hpre
  · rw [List.isPrefixOf_iff_prefix.mpr hpre] at h
    exact absurd h.1.1 (by decide)
  · rw [List.isPrefixOf_iff_prefix.mpr hpre] at h
    exact absurd h.1.2 (by decide)

/-- A text that is clear of the start of a pattern is clear of the pattern. -/
theorem clear_longer {t : List Char} (h : clear pat t=true) (more : List Char) :
    clear (pat++more) t=true := by
  induction t with
  | nil => rfl
  | cons c t ih =>
    have hnot := not_prefix_of_clear h []
    simp only [clear,Bool.and_eq_true,Bool.not_eq_true'] at h
    rw [List.append_nil] at hnot
    have hbegin : (pat++more).isPrefixOf (c::t)=false := by
      rw [Bool.eq_false_iff] at hnot ⊢
      intro hp
      apply hnot
      rw [List.isPrefixOf_iff_prefix] at hp ⊢
      exact (List.prefix_append pat more).trans hp
    have hend : (c::t).isPrefixOf (pat++more)=false := by
      rw [Bool.eq_false_iff]
      intro hp
      rcases List.prefix_or_prefix_of_prefix (List.isPrefixOf_iff_prefix.mp hp)
        (List.prefix_append pat more) with hpre|hpre
      · rw [List.isPrefixOf_iff_prefix.mpr hpre] at h
        exact absurd h.1.2 (by decide)
      · rw [List.isPrefixOf_iff_prefix.mpr hpre] at hnot
        exact absurd hnot (by decide)
    rw [clear,hbegin,hend,ih h.2]
    rfl

theorem replaceText_append {t : List Char} (h : clear pat t=true) (by_ rest : List Char) :
    replaceText pat by_ 0 (t++rest)=t++replaceText pat by_ 0 rest := by
  induction t with
  | nil => rfl
  | cons c t ih =>
    have hnot := not_prefix_of_clear h rest
    simp only [clear,Bool.and_eq_true] at h
    rw [List.cons_append,replaceText,← List.cons_append,hnot,ih h.2]
    rfl

theorem replaceText_skip (by_ cs rest : List Char) :
    replaceText pat by_ cs.length (cs++rest)=replaceText pat by_ 0 rest := by
  induction cs with
  | nil => rfl
  | cons c cs ih => exact ih

theorem replaceText_self (hne : pat≠[]) (by_ rest : List Char) :
    replaceText pat by_ 0 (pat++rest)=by_++replaceText pat by_ 0 rest := by
  cases pat with
  | nil => exact absurd rfl hne
  | cons p ps =>
    have hp : (p::ps).isPrefixOf (p::(ps++rest))=true :=
      List.isPrefixOf_iff_prefix.mpr (List.prefix_append (p::ps) rest)
    rw [List.cons_append,replaceText,if_pos hp]
    exact congrArg (by_++·) (replaceText_skip by_ ps rest)

end

/-- What the four replacements make of a character. -/
def escapeChar (c : Char) : List Char :=
  if c = '&' then "&amp;".toList
  else if c = '"' then "&quot;".toList
  else if c = '<' then "&lt;".toList
  else if c = '>' then "&gt;".toList
  else [c]

/-- The ampersands come first, so nothing is escaped twice. -/
theorem toList_htmlEscape (s : String) : (htmlEscape s).toList=s.toList.flatMap escapeChar := by
  rw [htmlEscape,String.toList_ofList]
  induction s.toList with
  | nil => rfl
  | cons c cs ih =>
    simp only [replaceChar,List.flatMap_cons,List.flatMap_append] at ih ⊢
    rw [ih]
    congr 1
    unfold escapeChar
    split_ifs with h1 h2 h3 h4
    · subst h1
      decide
    · subst h2
      decide
    · subst h3
      decide
    · subst h4
      decide
    · simp only [if_neg h2,if_neg h3,if_neg h4,List.flatMap_cons,List.flatMap_nil,
        List.append_nil]

theorem EntityDecoder.decode_escapeChar (d : EntityDecoder) (c : Char) (rest : List Char) :
    d.decode (escapeChar c++rest)=c::d.decode rest := by
  unfold escapeChar
  split_ifs with h1 h2 h3 h4
  · rw [h1,d.amp]
  · rw [h2,d.quot]
  · rw [h3,d.lt]
  · rw [h4,d.gt]
  · exact d.plain c rest h1

/-- Decoding the entities undoes the escaping. -/
theorem EntityDecoder.decode_htmlEscape (d : EntityDecoder) (s : String) :
    d.decode (htmlEscape s).toList=s.toList := by
  rw [toList_htmlEscape]
  induction s.toList with
  | nil => exact d.nil
  | cons c cs ih => rw [List.flatMap_cons,d.decode_escapeChar,ih]

/-- No character is left that would end the attribute or the tag. -/
theorem htmlEscape_clean (s : String) :
    ∀ c ∈ (htmlEscape s).toList, c ≠ '"' ∧ c ≠ '<' ∧ c ≠ '>' := by
  intro c hc
  rw [toList_htmlEscape,List.mem_flatMap] at hc
  obtain ⟨x,_,hx⟩ := hc
  unfold escapeChar at hx
  have entity {e : String} (he : (e.toList.all fun c => c != '"' && c != '<' && c != '>')=true)
      (hc : c ∈ e.toList) : c ≠ '"' ∧ c ≠ '<' ∧ c ≠ '>' := by
    simpa [and_assoc] using List.all_eq_true.mp he c hc
  split_ifs at hx with h1 h2 h3 h4
  · exact entity (by decide) hx
  · exact entity (by decide) hx
  · exact entity (by decide) hx
  · exact entity (by decide) hx
  · rw [List.mem_singleton.mp hx]
    exact ⟨h2,h3,h4⟩

theorem byteText_hex (n : UInt8) : ∀ c ∈ MacAddr.byteText n, isHexDigit c=true := by
  have hn := n.toNat_lt
  intro c hc
  simp only [MacAddr.byteText,List.mem_cons,List.not_mem_nil,or_false] at hc
  rcases hc with rfl|rfl
  · exact (hexChar_hexValue _ (by omega)).1
  · exact (hexChar_hexValue _ (by omega)).1

/-- The text of an address is hexadecimal digits and colons. -/
theorem macText_chars (m : MacAddr) {c : Char} (h : c ∈ m.text.toList) :
    isHexDigit c=true ∨ c = ':' := by
  simp only [MacAddr.text,String.toList_ofList,List.mem_append,List.mem_cons] at h
  rcases h with h|h|h|h|h|h|h|h|h|h|h
  · exact .inl (byteText_hex _ c h)
  · exact .inr h
  · exact .inl (byteText_hex _ c h)
  · exact .inr h
  · exact .inl (byteText_hex _ c h)
  · exact .inr h
  · exact .inl (byteText_hex _ c h)
  · exact .inr h
  · exact .inl (byteText_hex _ c h)
  · exact .inr h
  · exact .inl (byteText_hex _ c h)

theorem clear_macText {p : Char} (pat : List Char) (hp : isHexDigit p=false ∧ p ≠ ':')
    (mac : Option MacAddr) : clear (p::pat) ((mac.map MacAddr.text).getD "").toList=true := by
  apply clear_of_head
  intro h
  cases mac with
  | none => cases h
  | some m =>
    rcases macText_chars m h with hx|hx
    · rw [hp.1] at hx
      cases hx
    · exact hp.2 hx

theorem replaceText_clear {pat t : List Char} (h : clear pat t=true) (by_ : List Char) :
    replaceText pat by_ 0 t=t := by
  have hrest := replaceText_append h by_ []
  rwa [List.append_nil,replaceText,List.append_nil] at hrest

/-- The two places are filled, whatever stands around the form. -/
theorem replaceText_loginHtmlTemplate (top bottom : List Char) (htop : clear ['{','{'] top=true)
    (hbottom : clear ['{','{'] bottom=true) (mac : Option MacAddr) (url : List Char) :
    replaceText urlPlaceholder.toList url 0
        (replaceText macPlaceholder.toList ((mac.map MacAddr.text).getD "").toList 0
          (top++(loginHtmlTemplate.toList++bottom)))=
      top++(beforeMac.toList++(((mac.map MacAddr.text).getD "").toList++(betweenFields.toList++
        ((fieldStart "redirect_url").toList++(url++(afterUrl.toList++bottom)))))) := by
  have hmac : macPlaceholder.toList=['{','{']++"MAC\x7d\x7d".toList := by decide
  have hurl : urlPlaceholder.toList=['{','{']++"REDIRECT_URL\x7d\x7d".toList := by decide
  have hclear : clear ['{','{'] ((mac.map MacAddr.text).getD "").toList=true :=
    clear_macText _ (by decide) mac
  have fixed : clear ['{','{'] beforeMac.toList=true ∧
      clear ['{','{'] betweenFields.toList=true ∧
      clear ['{','{'] (fieldStart "redirect_url").toList=true ∧
      clear ['{','{'] afterUrl.toList=true := by decide
  obtain ⟨hbefore,hbetween,hstart,hafter⟩ := fixed
  simp only [loginHtmlTemplate,String.toList_append,List.append_assoc]
  rw [hmac,replaceText_append (clear_longer htop _),replaceText_append (clear_longer hbefore _),
    replaceText_self (by decide),replaceText_append (clear_longer hbetween _),
    replaceText_append (clear_longer hstart _),
    replaceText_append (t := urlPlaceholder.toList) (by decide),
    replaceText_append (clear_longer hafter _),replaceText_clear (clear_longer hbottom _)]
  rw [hurl,replaceText_append (clear_longer htop _),replaceText_append (clear_longer hbefore _),
    replaceText_append (clear_longer hclear _),replaceText_append (clear_longer hbetween _),
    replaceText_append (clear_longer hstart _),replaceText_self (by decide),
    replaceText_append (clear_longer hafter _),replaceText_clear (clear_longer hbottom _)]

theorem toList_percentEncodeUrl (s : String) : (percentEncodeUrl s).toList=
    Percent.encodeWith Percent.unreserved (Utf8.encode s.toList) := by
  rw [percentEncodeUrl,String.toList_ofList]

/-- A query of one parameter with an encoded value. -/
theorem pairs_parameter {start name : List Char} (hstart : start=name++['='])
    (hname : ∀ b ∈ Utf8.encode name, b≠Percent.byte '&' ∧ b≠Percent.byte '=')
    (hkey : Percent.component (Utf8.encode name)=name) (s : String) :
    Percent.pairs (Utf8.encode (start++(percentEncodeUrl s).toList))=[(name,s.toList)] := by
  obtain ⟨hsep,hback⟩ := Percent.component_encodeWith s.toList
  have hbytes : Utf8.encode (start++(percentEncodeUrl s).toList)=Utf8.encode name++
      Percent.byte '='::Utf8.encode (Percent.encodeWith Percent.unreserved
        (Utf8.encode s.toList)) := by
    rw [hstart,toList_percentEncodeUrl,List.append_assoc,Utf8.encode_append,List.singleton_append]
    rfl
  rw [hbytes,Percent.pairs_one hname hsep,hback,hkey]

/-- The query with an encoded URL is read as the URL. -/
theorem landingQuery_url (s : String) :
    landingQuery ("url="++percentEncodeUrl s)=.ok (some s) := by
  have hname : ∀ b ∈ Utf8.encode ['u','r','l'], b≠Percent.byte '&' ∧ b≠Percent.byte '=' :=
    List.all_iff_forall_prop.mp (by decide)
  have hstart : "url=".toList=['u','r','l']++['='] := by decide
  have hpairs := pairs_parameter hstart hname (by decide) s
  rw [landingQuery,String.toList_append,hpairs]
  simp only [List.filter_cons,beq_self_eq_true,if_true,List.filter_nil,String.ofList_toList]

section

variable (pg : Postgres)

end

end NacPlatform.Aaa
