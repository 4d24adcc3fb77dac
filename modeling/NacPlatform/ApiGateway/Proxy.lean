import Mathlib.Data.Bool.AllAny
import NacPlatform.PolicyManager.Routes

namespace NacPlatform.ApiGateway

open Router

inductive Method where
  | get
  | post
  | put
  | delete
  deriving DecidableEq, Repr

/-- A request to the policy manager; a body is sent as `application/json`. -/
structure Call where
  method : Method
  url : String
  body : Option (List UInt8)
  deriving DecidableEq, Repr

def buildQueryString (params : List (String × String)) : String :=
  if params.isEmpty then ""
  else
    let encoded := params.map fun (k,v) => s!"{k}={v}"
    "?"++"&".intercalate encoded

section

variable (base : String)

def proxyGet (path : String) : Call := ⟨.get,base++path,none⟩

def proxyPost (path : String) : Call := ⟨.post,base++path,none⟩

def proxyPostBody (path : String) (body : List UInt8) : Call := ⟨.post,base++path,some body⟩

def proxyPutBody (path : String) (body : List UInt8) : Call := ⟨.put,base++path,some body⟩

def proxyDelete (path : String) : Call := ⟨.delete,base++path,none⟩

def listEndpoints : Call := proxyGet base "/api/v1/endpoints"

def allowEndpoint (id : String) : Call := proxyPost base s!"/api/v1/endpoints/{id}/allow"

def blockEndpoint (id : String) : Call := proxyPost base s!"/api/v1/endpoints/{id}/block"

def quarantineEndpoint (id : String) : Call :=
  proxyPost base s!"/api/v1/endpoints/{id}/quarantine"

def assignPolicy (id : String) (body : List UInt8) : Call :=
  proxyPostBody base s!"/api/v1/endpoints/{id}/policy" body

def setExempt (id : String) (body : List UInt8) : Call :=
  proxyPostBody base s!"/api/v1/endpoints/{id}/exempt" body

def listPolicies : Call := proxyGet base "/api/v1/policies"

def evaluatePolicies (body : List UInt8) : Call :=
  proxyPostBody base "/api/v1/policies/evaluate" body

def createPolicy (body : List UInt8) : Call := proxyPostBody base "/api/v1/policies" body

def updatePolicy (id : String) (body : List UInt8) : Call :=
  proxyPutBody base s!"/api/v1/policies/{id}" body

def deletePolicy (id : String) : Call := proxyDelete base s!"/api/v1/policies/{id}"

def listAudit (params : List (String × String)) : Call :=
  let qs := buildQueryString params
  proxyGet base s!"/api/v1/audit{qs}"

def getStats : Call := proxyGet base "/api/v1/stats"

def getEndpoint (id : String) : Call := proxyGet base s!"/api/v1/endpoints/{id}"

def getEndpointByMac (mac : String) : Call := proxyGet base s!"/api/v1/endpoints/mac/{mac}"

def getPolicy (id : String) : Call := proxyGet base s!"/api/v1/policies/{id}"

def listUsers : Call := proxyGet base "/api/v1/users"

def createUser (body : List UInt8) : Call := proxyPostBody base "/api/v1/users" body

def deleteUser (id : String) : Call := proxyDelete base s!"/api/v1/users/{id}"

def changePassword (id : String) (body : List UInt8) : Call :=
  proxyPutBody base s!"/api/v1/users/{id}/password" body

def setUserEnabled (id action : String) : Call := proxyPost base s!"/api/v1/users/{id}/{action}"

def listNetworkHosts (params : List (String × String)) : Call :=
  let qs := buildQueryString params
  proxyGet base s!"/api/v1/network/hosts{qs}"

def listIpRules : Call := proxyGet base "/api/v1/network/ip-rules"

def createIpRule (body : List UInt8) : Call :=
  proxyPostBody base "/api/v1/network/ip-rules" body

def deleteIpRule (id : String) : Call := proxyDelete base s!"/api/v1/network/ip-rules/{id}"

def setIpRuleEnabled (id action : String) : Call :=
  proxyPost base s!"/api/v1/network/ip-rules/{id}/{action}"

end

/-- The policy manager's address when none is configured. -/
def defaultPolicyManager : Url.Origin where
  scheme := "http".toList
  authority := "localhost:8001".toList
  scheme_plain := List.all_iff_forall_prop.mp (by decide)
  authority_plain := List.all_iff_forall_prop.mp (by decide)
  authority_nonempty := by decide

/-- A decoded path parameter. No route is matched with an empty one. -/
structure PathParam where
  text : String
  nonempty : text≠""

/-- A request on a proxied route, with what its handler is given of it. -/
inductive ProxyRequest where
  | listEndpoints
  | getEndpointByMac (mac : PathParam)
  | getEndpoint (id : PathParam)
  | allowEndpoint (id : PathParam)
  | blockEndpoint (id : PathParam)
  | quarantineEndpoint (id : PathParam)
  | assignPolicy (id : PathParam) (body : List UInt8)
  | setExempt (id : PathParam) (body : List UInt8)
  | listPolicies
  | createPolicy (body : List UInt8)
  | evaluatePolicies (body : List UInt8)
  | getPolicy (id : PathParam)
  | updatePolicy (id : PathParam) (body : List UInt8)
  | deletePolicy (id : PathParam)
  | listAudit (params : List (String × String))
  | getStats
  | listUsers
  | createUser (body : List UInt8)
  | deleteUser (id : PathParam)
  | changePassword (id : PathParam) (body : List UInt8)
  | setUserEnabled (id action : PathParam)
  | listNetworkHosts (params : List (String × String))
  | listIpRules
  | createIpRule (body : List UInt8)
  | deleteIpRule (id : PathParam)
  | setIpRuleEnabled (id action : PathParam)

namespace ProxyRequest

def call (base : String) : ProxyRequest → Call
  | listEndpoints => ApiGateway.listEndpoints base
  | getEndpointByMac mac => ApiGateway.getEndpointByMac base mac.text
  | getEndpoint id => ApiGateway.getEndpoint base id.text
  | allowEndpoint id => ApiGateway.allowEndpoint base id.text
  | blockEndpoint id => ApiGateway.blockEndpoint base id.text
  | quarantineEndpoint id => ApiGateway.quarantineEndpoint base id.text
  | assignPolicy id body => ApiGateway.assignPolicy base id.text body
  | setExempt id body => ApiGateway.setExempt base id.text body
  | listPolicies => ApiGateway.listPolicies base
  | createPolicy body => ApiGateway.createPolicy base body
  | evaluatePolicies body => ApiGateway.evaluatePolicies base body
  | getPolicy id => ApiGateway.getPolicy base id.text
  | updatePolicy id body => ApiGateway.updatePolicy base id.text body
  | deletePolicy id => ApiGateway.deletePolicy base id.text
  | listAudit params => ApiGateway.listAudit base params
  | getStats => ApiGateway.getStats base
  | listUsers => ApiGateway.listUsers base
  | createUser body => ApiGateway.createUser base body
  | deleteUser id => ApiGateway.deleteUser base id.text
  | changePassword id body => ApiGateway.changePassword base id.text body
  | setUserEnabled id action => ApiGateway.setUserEnabled base id.text action.text
  | listNetworkHosts params => ApiGateway.listNetworkHosts base params
  | listIpRules => ApiGateway.listIpRules base
  | createIpRule body => ApiGateway.createIpRule base body
  | deleteIpRule id => ApiGateway.deleteIpRule base id.text
  | setIpRuleEnabled id action => ApiGateway.setIpRuleEnabled base id.text action.text

/-- The route of the gateway's own router, below `/api`. -/
def route : ProxyRequest → Pattern
  | listEndpoints => [.text "endpoints"]
  | getEndpointByMac _ => [.text "endpoints",.text "mac",.param "mac"]
  | getEndpoint _ => [.text "endpoints",.param "id"]
  | allowEndpoint _ => [.text "endpoints",.param "id",.text "allow"]
  | blockEndpoint _ => [.text "endpoints",.param "id",.text "block"]
  | quarantineEndpoint _ => [.text "endpoints",.param "id",.text "quarantine"]
  | assignPolicy _ _ => [.text "endpoints",.param "id",.text "policy"]
  | setExempt _ _ => [.text "endpoints",.param "id",.text "exempt"]
  | listPolicies | createPolicy _ => [.text "policies"]
  | evaluatePolicies _ => [.text "policies",.text "evaluate"]
  | getPolicy _ | updatePolicy _ _ | deletePolicy _ => [.text "policies",.param "id"]
  | listAudit _ => [.text "audit"]
  | getStats => [.text "stats"]
  | listUsers | createUser _ => [.text "users"]
  | deleteUser _ => [.text "users",.param "id"]
  | changePassword _ _ => [.text "users",.param "id",.text "password"]
  | setUserEnabled _ _ => [.text "users",.param "id",.param "action"]
  | listNetworkHosts _ => [.text "network",.text "hosts"]
  | listIpRules | createIpRule _ => [.text "network",.text "ip-rules"]
  | deleteIpRule _ => [.text "network",.text "ip-rules",.param "id"]
  | setIpRuleEnabled _ _ => [.text "network",.text "ip-rules",.param "id",.param "action"]

def params : ProxyRequest → List PathParam
  | getEndpointByMac mac => [mac]
  | getEndpoint id | allowEndpoint id | blockEndpoint id | quarantineEndpoint id => [id]
  | assignPolicy id _ | setExempt id _ => [id]
  | getPolicy id | updatePolicy id _ | deletePolicy id => [id]
  | deleteUser id | changePassword id _ => [id]
  | deleteIpRule id => [id]
  | setUserEnabled id action | setIpRuleEnabled id action => [id,action]
  | _ => []

def pairs : ProxyRequest → List (String × String)
  | listAudit params | listNetworkHosts params => params
  | _ => []

/-- The parameters and the pairs as lists of characters. -/
def paramTexts (r : ProxyRequest) : List (List Char) := r.params.map (·.text.toList)

def pairTexts (r : ProxyRequest) : List (List Char × List Char) :=
  r.pairs.map fun p => (p.1.toList,p.2.toList)

/-- The segments of the path that is built. -/
def segments (r : ProxyRequest) : List (List Char) :=
  fill String.toList (PolicyManager.v1 r.route) r.paramTexts

theorem toList_toString (s : String) : (toString s).toList=s.toList := rfl

/-- The path is built of the segments, whatever they are. -/
theorem toList_url (base : String) (r : ProxyRequest) : (r.call base).url.toList=
    base.toList++(Url.join r.segments++(buildQueryString r.pairs).toList) := by
  cases r
  all_goals
    simp only [call,segments,paramTexts,pairs,params,route,PolicyManager.v1,fill,Url.join,
      ApiGateway.listEndpoints,ApiGateway.getEndpointByMac,ApiGateway.getEndpoint,
      ApiGateway.allowEndpoint,ApiGateway.blockEndpoint,ApiGateway.quarantineEndpoint,
      ApiGateway.assignPolicy,ApiGateway.setExempt,ApiGateway.listPolicies,
      ApiGateway.createPolicy,ApiGateway.evaluatePolicies,ApiGateway.getPolicy,
      ApiGateway.updatePolicy,ApiGateway.deletePolicy,ApiGateway.listAudit,ApiGateway.getStats,
      ApiGateway.listUsers,ApiGateway.createUser,ApiGateway.deleteUser,ApiGateway.changePassword,
      ApiGateway.setUserEnabled,ApiGateway.listNetworkHosts,ApiGateway.listIpRules,
      ApiGateway.createIpRule,ApiGateway.deleteIpRule,ApiGateway.setIpRuleEnabled,proxyGet,
      proxyPost,proxyPostBody,proxyPutBody,proxyDelete,String.toList_append,toList_toString,
      List.map_cons,List.map_nil]
    simp [buildQueryString]

/-- The text from outside that the URL ends with. -/
def ending (r : ProxyRequest) : Option (List Char) :=
  match r.route.getLast? with
  | some (.param _) => r.paramTexts.getLast?
  | _ => r.pairTexts.getLast?.map Prod.snd

/-- No route with a fixed part in the place of a parameter takes the request. -/
def Unshadowed : ProxyRequest → Prop
  | allowEndpoint id | blockEndpoint id | quarantineEndpoint id => id.text≠"mac"
  | assignPolicy id _ | setExempt id _ => id.text≠"mac"
  | getPolicy id | updatePolicy id _ | deletePolicy id => id.text≠"evaluate"
  | setUserEnabled _ action => action.text≠"password"
  | _ => True

/-- What a URL can carry without any encoding. -/
structure Bare (r : ProxyRequest) : Prop where
  params : ∀ p ∈ r.paramTexts, Url.Plain p
  pairs : ∀ p ∈ r.pairTexts, Url.PlainPair p
  ending : ∀ cs ∈ r.ending, ∀ c ∈ cs.getLast?, Url.isEdge c=false
  unshadowed : r.Unshadowed

/-- The fixed parts of all routes. -/
def fixedParts : List String :=
  ["api","v1","endpoints","mac","allow","block","quarantine","policy","exempt","policies",
    "evaluate","audit","stats","users","password","network","hosts","ip-rules"]

theorem word_of_fixed : ∀ s ∈ fixedParts, ∀ c ∈ s.toList, Url.isWordChar c=true := by
  have h : (fixedParts.all fun s => s.toList.all Url.isWordChar)=true := by decide +kernel
  intro s hs
  exact List.all_eq_true.mp (List.all_eq_true.mp h s hs)

theorem mem_fixedParts {r : ProxyRequest} {s : String}
    (h : .text s ∈ PolicyManager.v1 r.route) : s ∈ fixedParts := by
  cases r
  all_goals
    simp only [PolicyManager.v1,route,List.mem_cons,Part.text.injEq,List.not_mem_nil,or_false,
      reduceCtorEq,false_or] at h
    simp only [fixedParts,List.mem_cons]
    grind

theorem word_of_text {r : ProxyRequest} {s : String} (h : .text s ∈ PolicyManager.v1 r.route) :
    ∀ c ∈ s.toList, Url.isWordChar c=true := word_of_fixed s (mem_fixedParts h)

/-- The path as it is sent when its segments are plain. -/
theorem map_segments (r : ProxyRequest) : r.segments.map Url.encodePath=
    fill id (PolicyManager.v1 r.route) (r.paramTexts.map Url.encodePath) := by
  rw [segments,map_fill]
  apply fill_congr
  intro s hs
  have := (Url.plain_word (word_of_text hs)).2
  rwa [String.ofList_toList] at this

theorem encodePath_text_eq_iff {p : PathParam} (h : Url.Plain p.text.toList) {s : String}
    (hs : ∀ c ∈ s.toList, Url.isWordChar c=true) :
    Url.encodePath p.text.toList=s ↔ p.text=s := by
  rw [Url.encodePath_eq_iff h hs,String.toList_inj]

theorem encodePath_text_ne_empty {p : PathParam} (h : Url.Plain p.text.toList) :
    Url.encodePath p.text.toList≠"" := by
  rw [Ne,encodePath_text_eq_iff h (by simp)]
  exact p.nonempty

open PolicyManager in
/-- With plain parameters it is only a fixed part that can take their place. -/
theorem findRoute_iff {r : ProxyRequest} (h : ∀ p ∈ r.params, Url.Plain p.text.toList) :
    findRoute (fill id (v1 r.route) (r.params.map (Url.encodePath ·.text.toList)))=
      some (v1 r.route,r.params.map (Url.encodePath ·.text.toList)) ↔ r.Unshadowed := by
  have hword := fun {p : PathParam} (hp : Url.Plain p.text.toList) {s : String}
    (hs : s ∈ fixedParts) => encodePath_text_eq_iff hp (word_of_fixed s hs)
  have action : ∀ {p : PathParam}, Url.Plain p.text.toList → ∀ {a : String},
      a ∈ ["allow","block","quarantine","policy","exempt"] →
        (findRoute ["api","v1","endpoints",Url.encodePath p.text.toList,a]=
          some (v1 [.text "endpoints",.param "id",.text a],[Url.encodePath p.text.toList]) ↔
            p.text≠"mac") := by
    intro p hp a ha
    rw [findRoute_endpoint_action (encodePath_text_ne_empty hp) ha,Ne,
      ← hword hp (s := "mac") (by simp [fixedParts])]
    split
    · next hm => simp [hm,v1]
    · next hm => simp [hm]
  have policy : ∀ {p : PathParam}, Url.Plain p.text.toList →
      (findRoute ["api","v1","policies",Url.encodePath p.text.toList]=
        some (v1 [.text "policies",.param "id"],[Url.encodePath p.text.toList]) ↔
          p.text≠"evaluate") := by
    intro p hp
    rw [findRoute_policy (encodePath_text_ne_empty hp),Ne,
      ← hword hp (s := "evaluate") (by simp [fixedParts])]
    split
    · next hm => simp [hm,v1]
    · next hm => simp [hm]
  cases r with
  | listEndpoints => exact iff_of_true (findRoute_single (by simp)) trivial
  | getEndpointByMac mac =>
    exact iff_of_true (findRoute_mac (encodePath_text_ne_empty (h mac (by simp [params])))) trivial
  | getEndpoint id =>
    exact iff_of_true (findRoute_endpoint (encodePath_text_ne_empty (h id (by simp [params]))))
      trivial
  | allowEndpoint id => exact action (h id (by simp [params])) (by simp)
  | blockEndpoint id => exact action (h id (by simp [params])) (by simp)
  | quarantineEndpoint id => exact action (h id (by simp [params])) (by simp)
  | assignPolicy id body => exact action (h id (by simp [params])) (by simp)
  | setExempt id body => exact action (h id (by simp [params])) (by simp)
  | listPolicies => exact iff_of_true (findRoute_single (by simp)) trivial
  | createPolicy body => exact iff_of_true (findRoute_single (by simp)) trivial
  | evaluatePolicies body => exact iff_of_true findRoute_evaluate trivial
  | getPolicy id => exact policy (h id (by simp [params]))
  | updatePolicy id body => exact policy (h id (by simp [params]))
  | deletePolicy id => exact policy (h id (by simp [params]))
  | listAudit ps => exact iff_of_true (findRoute_single (by simp)) trivial
  | getStats => exact iff_of_true (findRoute_single (by simp)) trivial
  | listUsers => exact iff_of_true (findRoute_single (by simp)) trivial
  | createUser body => exact iff_of_true (findRoute_single (by simp)) trivial
  | deleteUser id =>
    exact iff_of_true (findRoute_user (encodePath_text_ne_empty (h id (by simp [params])))) trivial
  | changePassword id body =>
    have hid := encodePath_text_ne_empty (h id (by simp [params]))
    exact iff_of_true ((findRoute_user_action hid (by decide)).trans (if_pos rfl)) trivial
  | setUserEnabled id act =>
    have hid := encodePath_text_ne_empty (h id (by simp [params]))
    have hact := h act (by simp [params])
    change findRoute ["api","v1","users",_,_]=_ ↔ ¬act.text="password"
    rw [findRoute_user_action hid (encodePath_text_ne_empty hact),
      ← hword hact (s := "password") (by simp [fixedParts])]
    split
    · next hm => simp [hm,v1,route]
    · next hm => simp [hm,params,route]
  | listNetworkHosts ps => exact iff_of_true (findRoute_network (by simp)) trivial
  | listIpRules => exact iff_of_true (findRoute_network (by simp)) trivial
  | createIpRule body => exact iff_of_true (findRoute_network (by simp)) trivial
  | deleteIpRule id =>
    exact iff_of_true (findRoute_ip_rule (encodePath_text_ne_empty (h id (by simp [params]))))
      trivial
  | setIpRuleEnabled id act =>
    have hid := encodePath_text_ne_empty (h id (by simp [params]))
    have hact := encodePath_text_ne_empty (h act (by simp [params]))
    exact iff_of_true (findRoute_ip_rule_action hid hact) trivial

theorem toList_buildQueryString (ps : List (String × String)) : (buildQueryString ps).toList=
    if ps=[] then [] else '?'::Url.joinPairs (ps.map fun p => (p.1.toList,p.2.toList)) := by
  have hpair : ∀ p : String × String,
      (s!"{p.1}={p.2}").toList=Url.pairText (p.1.toList,p.2.toList) := by
    intro p
    simp only [String.toList_append,toList_toString,Url.pairText,List.append_assoc]
    rfl
  cases ps with
  | nil => rfl
  | cons p ps =>
    rw [if_neg (List.cons_ne_nil p ps),buildQueryString,List.isEmpty_cons,
      if_neg Bool.false_ne_true,String.toList_append,String.toList_intercalate,Url.joinPairs,
      List.map_map,List.map_map]
    have hmap := List.map_congr_left (l := p::ps) fun q _ => hpair q
    exact congrArg (fun texts => '?'::['&'].intercalate texts) hmap

theorem mem_segments {r : ProxyRequest} {p : List Char} (h : p ∈ r.paramTexts) :
    p ∈ r.segments := by
  cases r
  all_goals
    simp only [paramTexts,params,List.map_cons,List.map_nil,List.mem_cons,List.not_mem_nil,
      or_false] at h
  all_goals
    simp only [segments,route,PolicyManager.v1,fill,paramTexts,params,List.map_cons,List.mem_cons]
    grind

/-- Where nothing follows the path, its last segment comes from outside or is a word. -/
theorem ending_iff {r : ProxyRequest} (h : r.pairs=[]) :
    (∀ s ∈ r.segments.getLast?, ∀ c ∈ s.getLast?, Url.isEdge c=false) ↔
      ∀ s ∈ r.ending, ∀ c ∈ s.getLast?, Url.isEdge c=false := by
  cases r
  case listAudit ps =>
    obtain rfl : ps=[] := h
    simp [segments,route,PolicyManager.v1,fill,paramTexts,params,ending,pairTexts,pairs]
    decide
  case listNetworkHosts ps =>
    obtain rfl : ps=[] := h
    simp [segments,route,PolicyManager.v1,fill,paramTexts,params,ending,pairTexts,pairs]
    decide
  all_goals
    simp [segments,route,PolicyManager.v1,fill,paramTexts,params,ending,pairTexts,pairs]
  all_goals decide

/-- Only two routes pass a query on, and they have no parameters. -/
theorem query_routes {r : ProxyRequest} (h : r.pairs≠[]) : r.paramTexts=[] ∧ r.params=[] ∧
    r.ending=r.pairTexts.getLast?.map Prod.snd ∧ r.Unshadowed := by
  cases r
  case listAudit ps => exact ⟨rfl,rfl,rfl,trivial⟩
  case listNetworkHosts ps => exact ⟨rfl,rfl,rfl,trivial⟩
  all_goals exact absurd rfl h

/-- The fixed parts are plain, so it is the parameters that decide. -/
theorem plain_segments_iff (r : ProxyRequest) : (∀ s ∈ r.segments, Url.Plain s) ↔
    ∀ p ∈ r.paramTexts, Url.Plain p := by
  constructor
  · intro h p hp
    exact h p (mem_segments hp)
  · intro h s hs
    rcases mem_fill hs with ⟨t,ht,rfl⟩|hs
    · exact (Url.plain_word (word_of_text ht)).1
    · exact h s hs

theorem length_params (r : ProxyRequest) :
    r.params.length=slots (PolicyManager.v1 r.route) := by
  cases r <;> rfl

theorem paramTexts_plain {r : ProxyRequest} (h : ∀ p ∈ r.paramTexts, Url.Plain p) :
    ∀ p ∈ r.params, Url.Plain p.text.toList := fun _ hp => h _ (List.mem_map_of_mem hp)

open PolicyManager in
/-- What the handlers below the policy manager's router should be given for a request. -/
def expected (r : ProxyRequest) : Received := ⟨v1 r.route,r.paramTexts,r.pairTexts⟩

theorem url_without_query (o : Url.Origin) {r : ProxyRequest} (h : r.pairs=[]) :
    (r.call (String.ofList o.text)).url.toList=o.text++Url.join r.segments := by
  rw [toList_url,String.toList_ofList,toList_buildQueryString,if_pos h,List.append_nil]

/-- Plain segments that the parser leaves to the end are the path. -/
theorem parse_path (o : Url.Origin) {r : ProxyRequest} (h : r.pairs=[])
    (hplain : ∀ p ∈ r.paramTexts, Url.Plain p)
    (hedge : ∀ c ∈ (Url.join r.segments).getLast?, Url.isEdge c=false) :
    Url.parse (r.call (String.ofList o.text)).url.toList=
      ⟨fill id (PolicyManager.v1 r.route) (r.params.map (Url.encodePath ·.text.toList)),none⟩ := by
  obtain ⟨seg,segs,hsegs⟩ : ∃ seg segs, r.segments=seg::segs := ⟨_,_,rfl⟩
  have hp := (plain_segments_iff r).mpr hplain
  rw [hsegs] at hp hedge
  rw [url_without_query o h,hsegs,Url.parse_join o hp hedge,← hsegs,map_segments,paramTexts,
    List.map_map]
  rfl

/-- A path of the form of the route, read with the parameters, is read as the segments. -/
theorem read_segments {r : ProxyRequest} {raw : List String}
    (h : List.Forall₂ (fun a b => Url.decodeSegment a=some b) raw r.paramTexts) :
    List.Forall₂ (fun a b => Url.decodeSegment a=some b)
      (fill id (PolicyManager.v1 r.route) raw) r.segments := by
  apply forall₂_fill _ h
  intro s hs
  have hword := Url.plain_word (word_of_text hs)
  rw [String.ofList_toList] at hword
  have hd := Url.decodeSegment_of_ungrouped hword.1.ungrouped
  rwa [hword.2] at hd

open PolicyManager in
theorem received_path_iff (o : Url.Origin) {r : ProxyRequest} (h : r.pairs=[]) :
    receive (r.call (String.ofList o.text)).url=some r.expected ↔ r.Bare := by
  have hpairs : r.pairTexts=[] := by rw [pairTexts,h]; rfl
  rw [receive_eq_some_iff]
  constructor
  · intro given
    obtain ⟨raw,hfind,hread,-⟩ := given
    obtain ⟨hpath,hlength⟩ : _=fill id (v1 r.route) raw ∧ raw.length=slots (v1 r.route) :=
      findRoute_fits hfind
    have hall := read_segments hread
    obtain ⟨seg,segs,hsegs⟩ : ∃ seg segs, r.segments=seg::segs := ⟨_,_,rfl⟩
    rw [← hpath,url_without_query o h,hsegs] at hall
    obtain ⟨hplain,hedge⟩ := Url.plain_of_read o hall
    rw [← hsegs] at hplain hedge
    have hparams := (plain_segments_iff r).mp hplain
    rw [parse_path o h hparams hedge] at hfind hpath
    have hraw : raw=r.params.map (Url.encodePath ·.text.toList) := by
      apply fill_inj hlength _ hpath.symm
      rw [List.length_map]
      exact length_params r
    refine ⟨hparams,?_,?_,?_⟩
    · rw [hpairs]
      exact fun p hp => (nomatch hp)
    · rw [Url.edge_join] at hedge
      exact (ending_iff h).mp hedge
    · rw [hraw] at hfind
      exact (findRoute_iff (paramTexts_plain hparams)).mp hfind
  · intro hb
    have hedge : ∀ c ∈ (Url.join r.segments).getLast?, Url.isEdge c=false := by
      rw [Url.edge_join]
      exact (ending_iff h).mpr hb.ending
    rw [parse_path o h hb.params hedge]
    refine ⟨_,(findRoute_iff (paramTexts_plain hb.params)).mpr hb.unshadowed,?_,?_⟩
    · rw [expected,paramTexts,List.forall₂_map_left_iff,List.forall₂_map_right_iff]
      exact List.forall₂_same.mpr fun p hp =>
        Url.decodeSegment_of_ungrouped (paramTexts_plain hb.params p hp).ungrouped
    · rw [expected,hpairs]
      rfl

open PolicyManager in
theorem received_query_iff (o : Url.Origin) {r : ProxyRequest} (h : r.pairs≠[]) :
    receive (r.call (String.ofList o.text)).url=some r.expected ↔ r.Bare := by
  obtain ⟨hparams,hnone,hending,hunshadowed⟩ := query_routes h
  have hplain : ∀ p ∈ r.paramTexts, Url.Plain p := by
    rw [hparams]
    exact fun p hp => (nomatch hp)
  have hne : r.pairTexts≠[] := by
    rw [pairTexts,Ne,List.map_eq_nil_iff]
    exact h
  obtain ⟨seg,segs,hsegs⟩ : ∃ seg segs, r.segments=seg::segs := ⟨_,_,rfl⟩
  have hparse : Url.parse (r.call (String.ofList o.text)).url.toList=
      ⟨fill id (v1 r.route) [],some (Url.encodeQuery (Url.kept (Url.joinPairs r.pairTexts)))⟩ := by
    have hp := (plain_segments_iff r).mpr hplain
    rw [hsegs] at hp
    have hpath := map_segments r
    rw [hparams,hsegs,List.map_nil] at hpath
    rw [toList_url,String.toList_ofList,toList_buildQueryString,if_neg h,hsegs,
      Url.parse_query o hp,hpath]
    rfl
  have hfind := (findRoute_iff (paramTexts_plain hplain)).mpr hunshadowed
  rw [hnone,List.map_nil] at hfind
  have hread : receive (r.call (String.ofList o.text)).url=some r.expected ↔
      Url.readPairs (Url.kept (Url.joinPairs r.pairTexts))=r.pairTexts := by
    rw [receive_eq_some_iff,hparse]
    simp only [hfind,Option.getD_some,expected,hparams]
    constructor
    · intro given
      obtain ⟨_,-,-,hp⟩ := given
      exact hp
    · intro hp
      exact ⟨[],rfl,.nil,hp⟩
  have hlast : (∀ c ∈ (Url.joinPairs r.pairTexts).getLast?, Url.isEdge c=false) ↔
      ∀ cs ∈ r.ending, ∀ c ∈ cs.getLast?, Url.isEdge c=false := by
    rw [Url.edge_joinPairs,hending]
    constructor
    · intro hp cs hcs
      obtain ⟨p,hps,rfl⟩ := Option.map_eq_some_iff.mp hcs
      exact hp p hps
    · intro hcs p hp
      exact hcs p.2 (Option.map_eq_some_iff.mpr ⟨p,hp,rfl⟩)
  rw [hread]
  constructor
  · intro hp
    obtain ⟨hpairs,hedge⟩ := Url.plain_of_readPairs hne hp
    exact ⟨hplain,hpairs,hlast.mp hedge,hunshadowed⟩
  · intro hb
    exact Url.readPairs_joinPairs hne hb.pairs (hlast.mpr hb.ending)

/-- A request reaches its route with what it came with exactly when nothing in it needs to be
encoded. -/
theorem forwarded_unchanged_iff (o : Url.Origin) (r : ProxyRequest) :
    PolicyManager.receive (r.call (String.ofList o.text)).url=some r.expected ↔ r.Bare := by
  by_cases h : r.pairs=[]
  · exact received_path_iff o h
  · exact received_query_iff o h

/-- Spaces inside a parameter need no care of the gateway's. -/
example : PolicyManager.receive ((getEndpoint ⟨"a b",by decide⟩).call
    (String.ofList defaultPolicyManager.text)).url=
      some (getEndpoint ⟨"a b",by decide⟩).expected := by
  decide +kernel

open PolicyManager in
/-- An id leads out of its route, and a value becomes a pair of its own. -/
theorem decoded_parameters_leak :
    (receive ((deletePolicy ⟨"../users/5",by decide⟩).call
        (String.ofList defaultPolicyManager.text)).url=
      some ⟨v1 [.text "users",.param "id"],[['5']],[]⟩ ∧
        receive ((deletePolicy ⟨"../users/5",by decide⟩).call
          (String.ofList defaultPolicyManager.text)).url≠
            some (deletePolicy ⟨"../users/5",by decide⟩).expected) ∧
      receive ((listAudit [("q","a&b=c")]).call (String.ofList defaultPolicyManager.text)).url=
        some ⟨v1 [.text "audit"],[],[(['q'],['a']),(['b'],['c'])]⟩ ∧
          receive ((listAudit [("q","a&b=c")]).call
            (String.ofList defaultPolicyManager.text)).url≠
              some (listAudit [("q","a&b=c")]).expected := by
  decide +kernel

end ProxyRequest

end NacPlatform.ApiGateway
