import NacPlatform.Framework.Query
import NacPlatform.Framework.Router
import NacPlatform.Framework.Traverse

namespace NacPlatform.PolicyManager

open Router

def v1Router : List Pattern :=
  [[.text "endpoints"],
   [.text "endpoints",.text "mac",.param "mac"],
   [.text "endpoints",.param "id"],
   [.text "endpoints",.param "id",.text "allow"],
   [.text "endpoints",.param "id",.text "block"],
   [.text "endpoints",.param "id",.text "quarantine"],
   [.text "endpoints",.param "id",.text "policy"],
   [.text "endpoints",.param "id",.text "exempt"],
   [.text "policies"],
   [.text "policies",.text "evaluate"],
   [.text "policies",.param "id"],
   [.text "network",.text "hosts"],
   [.text "network",.text "ip-rules"],
   [.text "network",.text "ip-rules",.param "id"],
   [.text "network",.text "ip-rules",.param "id",.param "action"],
   [.text "audit"],
   [.text "stats"],
   [.text "users"],
   [.text "users",.param "id"],
   [.text "users",.param "id",.text "password"],
   [.text "users",.param "id",.param "action"]]

/-- Where `v1Router` is nested. -/
def v1 (route : Pattern) : Pattern := .text "api"::.text "v1"::route

def router : List Pattern := v1Router.map v1++[[.text "healthz"]]

/-- The route of a path and what its parameters take. -/
def findRoute (path : List String) : Option (Pattern × List String) :=
  find (router.map fun route => (route,route)) path

/-- A route is found for paths of its own form only. -/
theorem findRoute_fits {path : List String} {route : Pattern} {raw : List String}
    (h : findRoute path=some (route,raw)) : path=fill id route raw ∧ raw.length=slots route := by
  obtain ⟨parts,hmem,hf⟩ := find_fits h
  rw [List.mem_map] at hmem
  obtain ⟨route,-,he⟩ := hmem
  obtain ⟨rfl,rfl⟩ := Prod.mk.inj he
  exact ⟨hf.eq_fill,hf.length_taken⟩

/-- What the handler of a route can take from the URL. -/
structure Received where
  route : Pattern
  params : List (List Char)
  pairs : List (List Char × List Char)
  deriving DecidableEq, Repr

/-- No route, or a parameter that is not UTF-8: no handler runs. -/
def receive (url : String) : Option Received :=
  let parsed := Url.parse url.toList
  (findRoute parsed.path).bind fun found =>
    (found.2.mapM Url.decodeSegment).map fun params =>
      ⟨found.1,params,Percent.pairs (Utf8.encode (parsed.query.getD "").toList)⟩

theorem receive_eq_some_iff {url : String} {received : Received} :
    receive url=some received ↔
      ∃ raw, findRoute (Url.parse url.toList).path=some (received.route,raw) ∧
        List.Forall₂ (fun a b => Url.decodeSegment a=some b) raw received.params ∧
          Percent.pairs (Utf8.encode ((Url.parse url.toList).query.getD "").toList)=
            received.pairs := by
  obtain ⟨route,params,pairs⟩ := received
  simp only [receive,Option.bind_eq_some_iff,Option.map_eq_some_iff,Received.mk.injEq,
    Prod.exists,mapM_eq_some_iff]
  constructor
  · intro given
    obtain ⟨_,raw,hf,_,hp,rfl,rfl,rfl⟩ := given
    exact ⟨raw,hf,hp,rfl⟩
  · intro given
    obtain ⟨raw,hf,hp,rfl⟩ := given
    exact ⟨route,raw,hf,params,hp,rfl,rfl,rfl⟩

/-- Below `/api/v1/` only the routes of `v1Router` are open. -/
theorem findRoute_v1 (segs : List String) : findRoute ("api"::"v1"::segs)=
    find (v1Router.map fun route => (route,v1 route)) segs := by
  have api : (router.map fun route => (route,route)).filterMap (afterText "api")=
      v1Router.map fun route => (.text "v1"::route,v1 route) := by
    simp [router,List.filterMap_map,Function.comp_def,v1,afterText]
  have nested : (v1Router.map fun route => (Part.text "v1"::route,v1 route)).filterMap
      (afterText "v1")=v1Router.map fun route => (route,v1 route) := by
    simp [List.filterMap_map,Function.comp_def,v1,afterText]
  have noParam : (router.map fun route => (route,route)).filterMap afterParam=[] := by
    simp [router,List.filterMap_map,Function.comp_def,v1,afterParam]
  have noParam' : (v1Router.map fun route => (Part.text "v1"::route,v1 route)).filterMap
      afterParam=[] := by
    simp [List.filterMap_map,Function.comp_def,v1,afterParam]
  rw [findRoute,find_text noParam,api,find_text noParam',nested]

/-- Each resource has the routes that begin with its name. -/
theorem findRoute_resource (name : String) (segs : List String) :
    findRoute ("api"::"v1"::name::segs)=
      find ((v1Router.map fun route => (route,v1 route)).filterMap (afterText name)) segs :=
  (findRoute_v1 _).trans (find_text rfl name segs)

theorem rows_endpoints :
    (v1Router.map fun route => (route,v1 route)).filterMap (afterText "endpoints")=
      [([],v1 [.text "endpoints"]),
       ([.text "mac",.param "mac"],v1 [.text "endpoints",.text "mac",.param "mac"]),
       ([.param "id"],v1 [.text "endpoints",.param "id"]),
       ([.param "id",.text "allow"],v1 [.text "endpoints",.param "id",.text "allow"]),
       ([.param "id",.text "block"],v1 [.text "endpoints",.param "id",.text "block"]),
       ([.param "id",.text "quarantine"],v1 [.text "endpoints",.param "id",.text "quarantine"]),
       ([.param "id",.text "policy"],v1 [.text "endpoints",.param "id",.text "policy"]),
       ([.param "id",.text "exempt"],v1 [.text "endpoints",.param "id",.text "exempt"])] := by
  simp [v1Router,afterText]

theorem rows_policies :
    (v1Router.map fun route => (route,v1 route)).filterMap (afterText "policies")=
      [([],v1 [.text "policies"]),
       ([.text "evaluate"],v1 [.text "policies",.text "evaluate"]),
       ([.param "id"],v1 [.text "policies",.param "id"])] := by
  simp [v1Router,afterText]

theorem rows_network :
    (v1Router.map fun route => (route,v1 route)).filterMap (afterText "network")=
      [([.text "hosts"],v1 [.text "network",.text "hosts"]),
       ([.text "ip-rules"],v1 [.text "network",.text "ip-rules"]),
       ([.text "ip-rules",.param "id"],v1 [.text "network",.text "ip-rules",.param "id"]),
       ([.text "ip-rules",.param "id",.param "action"],
        v1 [.text "network",.text "ip-rules",.param "id",.param "action"])] := by
  simp [v1Router,afterText]

theorem rows_users :
    (v1Router.map fun route => (route,v1 route)).filterMap (afterText "users")=
      [([],v1 [.text "users"]),
       ([.param "id"],v1 [.text "users",.param "id"]),
       ([.param "id",.text "password"],v1 [.text "users",.param "id",.text "password"]),
       ([.param "id",.param "action"],v1 [.text "users",.param "id",.param "action"])] := by
  simp [v1Router,afterText]

theorem findRoute_single {name : String}
    (h : name ∈ ["endpoints","policies","audit","stats","users"]) :
    findRoute ["api","v1",name]=some (v1 [.text name],[]) := by
  rw [findRoute_resource]
  simp only [List.mem_cons,List.not_mem_nil,or_false] at h
  rcases h with rfl|rfl|rfl|rfl|rfl
  · rw [rows_endpoints]; rfl
  · rw [rows_policies]; rfl
  · simp [v1Router,afterText,find]
  · simp [v1Router,afterText,find]
  · rw [rows_users]; rfl

theorem findRoute_evaluate : findRoute ["api","v1","policies","evaluate"]=
    some (v1 [.text "policies",.text "evaluate"],[]) := by
  rw [findRoute_resource,rows_policies]
  simp [find,afterText]

theorem findRoute_network {name : String} (h : name ∈ ["hosts","ip-rules"]) :
    findRoute ["api","v1","network",name]=some (v1 [.text "network",.text name],[]) := by
  rw [findRoute_resource,rows_network]
  simp only [List.mem_cons,List.not_mem_nil,or_false] at h
  rcases h with rfl|rfl
  · simp [find,afterText]
  · simp [find,afterText]

section

variable {id : String} (hid : id≠"")
include hid

theorem findRoute_endpoint :
    findRoute ["api","v1","endpoints",id]=some (v1 [.text "endpoints",.param "id"],[id]) := by
  rw [findRoute_resource,rows_endpoints]
  by_cases hmac : "mac"=id
  · subst hmac
    simp [find,afterText,afterParam]
  · simp [find,afterText,afterParam,hid,hmac]

theorem findRoute_mac : findRoute ["api","v1","endpoints","mac",id]=
    some (v1 [.text "endpoints",.text "mac",.param "mac"],[id]) := by
  rw [findRoute_resource,rows_endpoints]
  simp [find,afterText,afterParam,hid]

/-- The id `mac` makes the action a hardware address. -/
theorem findRoute_endpoint_action {action : String}
    (h : action ∈ ["allow","block","quarantine","policy","exempt"]) :
    findRoute ["api","v1","endpoints",id,action]=
      if id="mac" then some (v1 [.text "endpoints",.text "mac",.param "mac"],[action])
      else some (v1 [.text "endpoints",.param "id",.text action],[id]) := by
  by_cases hmac : id="mac"
  · subst hmac
    rw [if_pos rfl,findRoute_mac]
    intro same
    subst same
    simp at h
  · have hne : "mac"≠id := Ne.symm hmac
    rw [findRoute_resource,rows_endpoints,if_neg hmac]
    simp only [List.mem_cons,List.not_mem_nil,or_false] at h
    rcases h with rfl|rfl|rfl|rfl|rfl
    all_goals simp [find,afterText,afterParam,hid,hne]

theorem findRoute_policy : findRoute ["api","v1","policies",id]=
    if id="evaluate" then some (v1 [.text "policies",.text "evaluate"],[])
    else some (v1 [.text "policies",.param "id"],[id]) := by
  by_cases he : id="evaluate"
  · subst he
    rw [if_pos rfl,findRoute_evaluate]
  · have hne : "evaluate"≠id := Ne.symm he
    rw [findRoute_resource,rows_policies,if_neg he]
    simp [find,afterText,afterParam,hid,hne]

theorem findRoute_ip_rule : findRoute ["api","v1","network","ip-rules",id]=
    some (v1 [.text "network",.text "ip-rules",.param "id"],[id]) := by
  rw [findRoute_resource,rows_network]
  simp [find,afterText,afterParam,hid]

theorem findRoute_ip_rule_action {action : String} (ha : action≠"") :
    findRoute ["api","v1","network","ip-rules",id,action]=
      some (v1 [.text "network",.text "ip-rules",.param "id",.param "action"],[id,action]) := by
  rw [findRoute_resource,rows_network]
  simp [find,afterText,afterParam,hid,ha]

theorem findRoute_user :
    findRoute ["api","v1","users",id]=some (v1 [.text "users",.param "id"],[id]) := by
  rw [findRoute_resource,rows_users]
  simp [find,afterText,afterParam,hid]

theorem findRoute_user_action {action : String} (ha : action≠"") :
    findRoute ["api","v1","users",id,action]=
      if action="password" then some (v1 [.text "users",.param "id",.text "password"],[id])
      else some (v1 [.text "users",.param "id",.param "action"],[id,action]) := by
  rw [findRoute_resource,rows_users]
  by_cases hp : action="password"
  · subst hp
    simp [find,afterText,afterParam,hid]
  · have hne : "password"≠action := Ne.symm hp
    simp [find,afterText,afterParam,hid,ha,hp,hne]

end

end NacPlatform.PolicyManager
