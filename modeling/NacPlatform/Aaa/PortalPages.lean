import NacPlatform.Aaa.PortalRedirect

namespace NacPlatform.Aaa

/-! The pages of the portal into which a text of the client is put. -/

/-- The login page above its form. -/
def loginTop : List String := [
  "<!DOCTYPE html>\n",
  "<html lang=\"ko\">\n",
  "<head>\n",
  "<meta charset=\"UTF-8\">\n",
  "<meta name=\"viewport\" content=\"width=device-width, initial-scale=1.0\">\n",
  "<title>NAC 네트워크 인증</title>\n",
  "<style>\n",
  "  * \x7b box-sizing: border-box; margin: 0; padding: 0; \x7d\n",
  "  body \x7b\n",
  "    font-family: -apple-system, BlinkMacSystemFont, \"Segoe UI\", Roboto, sans-serif;\n",
  "    background: #f0f2f5;\n",
  "    display: flex;\n",
  "    align-items: center;\n",
  "    justify-content: center;\n",
  "    min-height: 100vh;\n",
  "  \x7d\n",
  "  .container \x7b\n",
  "    background: #fff;\n",
  "    border-radius: 12px;\n",
  "    box-shadow: 0 4px 24px rgba(0,0,0,.12);\n",
  "    padding: 48px 40px;\n",
  "    width: 100%;\n",
  "    max-width: 400px;\n",
  "  \x7d\n",
  "  .logo \x7b text-align: center; margin-bottom: 32px; \x7d\n",
  "  .logo svg \x7b width: 48px; height: 48px; \x7d\n",
  "  h1 \x7b font-size: 22px; font-weight: 700; color: #1a1a1a; text-align: center; ",
  "margin-bottom: 8px; \x7d\n",
  "  p \x7b color: #666; font-size: 14px; text-align: center; margin-bottom: 28px; \x7d\n",
  "  label \x7b display: block; font-size: 13px; font-weight: 600; color: #444; ",
  "margin-bottom: 6px; \x7d\n",
  "  input \x7b\n",
  "    width: 100%; padding: 12px 14px;\n",
  "    border: 1.5px solid #ddd; border-radius: 8px;\n",
  "    font-size: 15px; outline: none;\n",
  "    transition: border-color .2s;\n",
  "    margin-bottom: 16px;\n",
  "  \x7d\n",
  "  input:focus \x7b border-color: #4f46e5; \x7d\n",
  "  button \x7b\n",
  "    width: 100%; padding: 13px;\n",
  "    background: #4f46e5; color: #fff;\n",
  "    border: none; border-radius: 8px;\n",
  "    font-size: 16px; font-weight: 600;\n",
  "    cursor: pointer; transition: background .2s;\n",
  "    margin-top: 4px;\n",
  "  \x7d\n",
  "  button:hover \x7b background: #4338ca; \x7d\n",
  "  .footer \x7b text-align: center; margin-top: 24px; font-size: 12px; color: #aaa; \x7d\n",
  "</style>\n",
  "</head>\n",
  "<body>\n",
  "<div class=\"container\">\n",
  "  <div class=\"logo\">\n",
  "    <svg viewBox=\"0 0 48 48\" fill=\"none\" xmlns=\"http://www.w3.org/2000/svg\">\n",
  "      <rect width=\"48\" height=\"48\" rx=\"12\" fill=\"#4f46e5\"/>\n",
  "      <path d=\"M24 12C17.4 12 12 17.4 12 24s5.4 12 12 12 12-5.4 12-12S30.6 12 24 ",
  "12zm0 4a4 4 0 110 8 4 4 0 010-8zm0 17c-3.3 0-6.2-1.7-8-4.2.04-2.7 5.33-4.1 ",
  "8-4.1s7.96 1.4 8 4.1C30.2 31.3 27.3 33 24 33z\" fill=\"white\"/>\n",
  "    </svg>\n",
  "  </div>\n",
  "  <h1>네트워크 접속 인증</h1>\n",
  "  <p>이 네트워크를 사용하려면 로그인이 필요합니다.</p>\n"]

/-- The login page below the hidden fields. -/
def loginBottom : List String := [
  "    <label for=\"username\">사용자명</label>\n",
  "    <input type=\"text\" id=\"username\" name=\"username\" placeholder=\"사용자명 입력\" ",
  "required autocomplete=\"username\">\n",
  "    <label for=\"password\">비밀번호</label>\n",
  "    <input type=\"password\" id=\"password\" name=\"password\" placeholder=\"비밀번호 입력\" ",
  "required autocomplete=\"current-password\">\n",
  "    <button type=\"submit\">로그인</button>\n",
  "  </form>\n",
  "  <div class=\"footer\">NAC Platform &mdash; 네트워크 접근 제어 시스템</div>\n",
  "</div>\n",
  "</body>\n"]

/-- The denied page above the line with the reason. -/
def deniedTop : List String := [
  "<!DOCTYPE html>\n",
  "<html lang=\"ko\">\n",
  "<head>\n",
  "<meta charset=\"UTF-8\">\n",
  "<title>인증 실패</title>\n",
  "<style>\n",
  "  * \x7b box-sizing: border-box; margin: 0; padding: 0; \x7d\n",
  "  body \x7b\n",
  "    font-family: -apple-system, BlinkMacSystemFont, \"Segoe UI\", Roboto, sans-serif;\n",
  "    background: #f0f2f5;\n",
  "    display: flex; align-items: center; justify-content: center; min-height: 100vh;\n",
  "  \x7d\n",
  "  .container \x7b\n",
  "    background: #fff; border-radius: 12px;\n",
  "    box-shadow: 0 4px 24px rgba(0,0,0,.12);\n",
  "    padding: 48px 40px; width: 100%; max-width: 400px; text-align: center;\n",
  "  \x7d\n",
  "  .icon \x7b font-size: 64px; margin-bottom: 24px; \x7d\n",
  "  h1 \x7b font-size: 24px; color: #dc2626; margin-bottom: 12px; \x7d\n",
  "  p \x7b color: #666; font-size: 15px; margin-bottom: 24px; \x7d\n",
  "  a \x7b\n",
  "    display: inline-block; padding: 12px 28px;\n",
  "    background: #4f46e5; color: #fff;\n",
  "    border-radius: 8px; text-decoration: none; font-weight: 600;\n",
  "  \x7d\n",
  "  a:hover \x7b background: #4338ca; \x7d\n",
  "  .reason \x7b font-size: 12px; color: #aaa; margin-top: 16px; \x7d\n",
  "</style>\n",
  "</head>\n",
  "<body>\n",
  "<div class=\"container\">\n",
  "  <div class=\"icon\">❌</div>\n",
  "  <h1>인증 실패</h1>\n",
  "  <p>사용자명 또는 비밀번호가 올바르지 않습니다.</p>\n",
  "  <a href=\"/\">다시 시도</a>\n"]

def deniedBottom : List String := [
  "</div>\n",
  "</body>\n"]

def lastLine : List Char := "</html>".toList

def joined (pieces : List String) : List Char := pieces.flatMap String.toList

/-- The whole login page around its form. -/
def loginPageTemplate : List Char :=
  joined loginTop++("  ".toList++(loginHtmlTemplate.toList++(joined loginBottom++lastLine)))

def loginPage (mac redirectUrl : String) : String :=
  String.ofList (replaceText urlPlaceholder.toList (htmlEscape redirectUrl).toList 0
    (replaceText macPlaceholder.toList mac.toList 0 loginPageTemplate))

def reasonPlaceholder : String := "\x7b\x7bREASON\x7d\x7d"

def beforeReason : String := "  <div class=\"reason\">사유: "

def afterReason : String := "</div>\n"

def deniedHtml : List Char :=
  joined deniedTop++(beforeReason.toList++(reasonPlaceholder.toList++(afterReason.toList++
    (joined deniedBottom++lastLine))))

/-- `Query<DeniedQuery>`: at most one pair may have the name `reason`. -/
def deniedQuery (query : String) : Except String (Option String) :=
  match (Percent.pairs (Utf8.encode query.toList)).filter (·.1==['r','e','a','s','o','n']) with
  | [] => .ok none
  | [(_,v)] => .ok (some (String.ofList v))
  | _ => .error "duplicate field"

def deniedPage (reason : Option String) : String :=
  String.ofList (replaceText reasonPlaceholder.toList (reason.getD "알 수 없는 오류").toList 0
    deniedHtml)

section

variable {pat : List Char}

theorem clear_append {s t : List Char} (hs : clear pat s=true) (ht : clear pat t=true) :
    clear pat (s++t)=true := by
  induction s with
  | nil => exact ht
  | cons c s ih =>
    have hnot := not_prefix_of_clear hs t
    simp only [clear,Bool.and_eq_true,Bool.not_eq_true'] at hs
    have hend : (c::(s++t)).isPrefixOf pat=false := by
      rw [Bool.eq_false_iff] at hs ⊢
      intro hp
      apply Bool.eq_false_iff.mp hs.1.2
      rw [List.isPrefixOf_iff_prefix] at hp ⊢
      exact (List.prefix_append (c::s) t).trans hp
    rw [List.cons_append,clear,← List.cons_append,hnot,List.cons_append,hend,ih hs.2]
    rfl

theorem clear_joined {pieces : List String} (h : ∀ s ∈ pieces, clear pat s.toList=true) :
    clear pat (joined pieces)=true := by
  induction pieces with
  | nil => rfl
  | cons s pieces ih =>
    obtain ⟨hs,hpieces⟩ := List.forall_mem_cons.mp h
    exact clear_append hs (ih hpieces)

theorem clear_ofList {cs : List Char} (h : clear pat cs=true) :
    clear pat (String.ofList cs).toList=true := by
  rwa [String.toList_ofList]

end

/-- The style sheets have single braces, but nothing that begins like a placeholder. -/
theorem clear_templates : clear ['{','{'] (joined loginTop)=true ∧
    clear ['{','{'] (joined loginBottom)=true ∧
    clear ['{','{'] (joined deniedTop)=true ∧
    clear ['{','{'] (joined deniedBottom)=true := by
  unfold loginTop loginBottom deniedTop deniedBottom
  refine ⟨clear_joined ?_,clear_joined ?_,clear_joined ?_,clear_joined ?_⟩
  all_goals
    repeat refine List.forall_mem_cons.mpr ⟨clear_ofList (by decide),?_⟩
    exact List.forall_mem_nil _

/-- A page is the template with a text at the one place that is left for it: it has the markup of
the template whatever the text is, and decoding the entities at the place gives the text back. -/
structure KeepsMarkup (d : EntityDecoder) (top bottom : List Char) (page text : String) :
    Prop where
  text : ∃ inserted, page.toList=top++(inserted++bottom) ∧ d.decode inserted=text.toList
  markup : ∀ c ∈ ['<','>','"'], page.toList.count c=(top++bottom).count c

theorem keepsMarkup_iff (d : EntityDecoder) {top bottom inserted : List Char}
    {page text : String} (hpage : page.toList=top++(inserted++bottom)) :
    KeepsMarkup d top bottom page text ↔
      (∀ c ∈ ['<','>','"'], c ∉ inserted) ∧ d.decode inserted=text.toList := by
  have count (c : Char) : page.toList.count c=(top++bottom).count c ↔ c ∉ inserted := by
    rw [hpage,← List.count_eq_zero]
    simp only [List.count_append]
    omega
  constructor
  · intro h
    refine ⟨fun c hc => (count c).mp (h.markup c hc),?_⟩
    obtain ⟨other,hother,hdecode⟩ := h.text
    rw [hpage] at hother
    rwa [List.append_cancel_right (List.append_cancel_left hother)]
  · intro h
    exact ⟨⟨inserted,hpage,h.2⟩,fun c hc => (count c).mpr (h.1 c hc)⟩

/-- The login page up to the value of the field for the URL. -/
def loginBefore (mac : Option MacAddr) : List Char :=
  joined loginTop++("  ".toList++(beforeMac.toList++(((mac.map MacAddr.text).getD "").toList++
    (betweenFields.toList++(fieldStart "redirect_url").toList))))

def loginBehind : List Char := afterUrl.toList++(joined loginBottom++lastLine)

def deniedBefore : List Char := joined deniedTop++beforeReason.toList

def deniedBehind : List Char := afterReason.toList++(joined deniedBottom++lastLine)

theorem toList_loginPage (mac : Option MacAddr) (url : String) :
    (loginPage ((mac.map MacAddr.text).getD "") url).toList=
      loginBefore mac++((htmlEscape url).toList++loginBehind) := by
  obtain ⟨htop,hbottom,-,-⟩ := clear_templates
  have hform : clear ['{','{'] "  ".toList=true := by decide
  have hlast : clear ['{','{'] lastLine=true := by decide
  have filled := replaceText_loginHtmlTemplate _ _ (clear_append htop hform)
    (clear_append hbottom hlast) mac (htmlEscape url).toList
  rw [List.append_assoc] at filled
  rw [loginPage,String.toList_ofList,loginPageTemplate,filled,loginBefore,loginBehind]
  simp only [List.append_assoc]

theorem toList_deniedPage (reason : String) : (deniedPage (some reason)).toList=
    deniedBefore++(reason.toList++deniedBehind) := by
  obtain ⟨-,-,htop,hbottom⟩ := clear_templates
  have hplace : reasonPlaceholder.toList=['{','{']++"REASON\x7d\x7d".toList := by decide
  have hbefore : clear ['{','{'] beforeReason.toList=true := by decide
  have hafter : clear ['{','{'] afterReason.toList=true := by decide
  have hlast : clear ['{','{'] lastLine=true := by decide
  rw [deniedPage,String.toList_ofList,deniedHtml,Option.getD_some,deniedBefore,deniedBehind,hplace,
    replaceText_append (clear_longer htop _),replaceText_append (clear_longer hbefore _),
    replaceText_self (by decide),replaceText_append (clear_longer hafter _),
    replaceText_append (clear_longer hbottom _),replaceText_clear (clear_longer hlast _)]
  simp only [List.append_assoc]

/-- The query with an encoded reason is read as the reason. -/
theorem deniedQuery_reason (s : String) :
    deniedQuery ("reason="++percentEncodeUrl s)=.ok (some s) := by
  have hname : ∀ b ∈ Utf8.encode ['r','e','a','s','o','n'],
      b≠Percent.byte '&' ∧ b≠Percent.byte '=' := List.all_iff_forall_prop.mp (by decide)
  have hstart : "reason=".toList=['r','e','a','s','o','n']++['='] := by decide
  have hpairs := pairs_parameter hstart hname (by decide) s
  rw [deniedQuery,String.toList_append,hpairs]
  simp only [List.filter_cons,beq_self_eq_true,if_true,List.filter_nil,String.ofList_toList]

/-- A client can supply every text to both pages. The login page keeps its markup whatever the URL
is; the denied page exactly if the reason has no markup and no entity, for it is not escaped. -/
theorem portalPages_keep_markup (d : EntityDecoder) :
    (∀ s, ∃ query, landingQuery query=.ok (some s)) ∧
    (∀ s, ∃ query, deniedQuery query=.ok (some s)) ∧
    (∀ mac url, KeepsMarkup d (loginBefore mac) loginBehind
      (loginPage ((mac.map MacAddr.text).getD "") url) url) ∧
    ∀ reason, KeepsMarkup d deniedBefore deniedBehind (deniedPage (some reason)) reason ↔
      (∀ c ∈ ['<','>','"'], c ∉ reason.toList) ∧ d.decode reason.toList=reason.toList := by
  refine ⟨fun s => ⟨_,landingQuery_url s⟩,fun s => ⟨_,deniedQuery_reason s⟩,?_,?_⟩
  · intro mac url
    refine (keepsMarkup_iff d (toList_loginPage mac url)).mpr ⟨?_,d.decode_htmlEscape url⟩
    intro c hc hin
    obtain ⟨hquote,hlt,hgt⟩ := htmlEscape_clean url c hin
    simp only [List.mem_cons,List.not_mem_nil,or_false] at hc
    rcases hc with rfl|rfl|rfl
    · exact hlt rfl
    · exact hgt rfl
    · exact hquote rfl
  · intro reason
    exact keepsMarkup_iff d (toList_deniedPage reason)

/-- A reason with an element of its own. -/
theorem portalPages_script : deniedQuery "reason=%3Cscript%3E"=.ok (some "<script>") ∧
    ¬KeepsMarkup fourEntities deniedBefore deniedBehind (deniedPage (some "<script>"))
      "<script>" := by
  refine ⟨by decide +kernel,?_⟩
  intro h
  have clean := ((keepsMarkup_iff fourEntities (toList_deniedPage "<script>")).mp h).1
  exact clean '<' (by decide) (by decide)

end NacPlatform.Aaa
