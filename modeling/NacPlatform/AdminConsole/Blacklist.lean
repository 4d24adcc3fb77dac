import NacPlatform.Framework.Copies
import NacPlatform.PolicyManager.Conditions
import NacPlatform.PolicyManager.Policies

namespace NacPlatform.AdminConsole

/-- Why a page sends nothing: a `TypeError`, a group or a button that is not there, an address
that is listed already, a blank field. -/
inductive Unsent where
  | threw
  | absent
  | listed
  | blank
  deriving DecidableEq, Repr

abbrev Js := Except Unsent

/-- WhiteSpace and LineTerminator of ECMAScript. -/
def isSpace (c : Char) : Bool := (isWhitespace c && c.toNat != 0x85) || c.toNat==0xfeff

/-- `String.prototype.trim`. -/
def trim (s : String) : String :=
  String.ofList ((s.toList.dropWhile isSpace).reverse.dropWhile isSpace).reverse

/-- `{ ...fields, name: value }`. -/
def setField (name : String) (value : Json) : List (String × Json) → List (String × Json)
  | [] => [(name,value)]
  | (k,v)::fs => if k==name then (k,value)::fs else (k,v)::setField name value fs

/-- A value taken for an array. -/
def elements : Option Json → Js (List Json)
  | some (.array elems) => .ok elems
  | _ => .error .threw

/-- `[...value]`. -/
def spread : Option Json → Js (List Json)
  | some (.string s) => .ok (s.toList.map fun c => .string c.toString)
  | value => elements value

/-- `c.type === 'mac_blacklist'`. -/
def isMacBlacklist : Json → Js Bool
  | .null => .error .threw
  | .object fields => .ok ((fields.lookup "type").bind Json.asString==some "mac_blacklist")
  | _ => .ok false

/-- `c.macs`, of what has a field of that name. -/
def macsOf : Json → Option Json
  | .object fields => fields.lookup "macs"
  | _ => none

/-- `{ ...c, macs: value }`. -/
def withMacs (value : List Json) : Json → Json
  | .object fields => .object (setField "macs" (.array value) fields)
  | c => c

/-- The conditions with those of the blacklist changed. -/
def mapBlacklists (f : Json → Js (List Json)) (conditions : Json) : Js Json := do
  let cs ← elements (some conditions)
  let cs ← cs.mapM fun c => do
    if ← isMacBlacklist c then return withMacs (← f c) c else return c
  return .array cs

/-- `[...c.macs, mac]`. -/
def appended (mac : String) (c : Json) : Js (List Json) := do
  return (← spread (macsOf c))++[.string mac]

/-- A request that gives the conditions and nothing else. -/
def conditionsUpdate (conditions : Json) : UpdatePolicy :=
  ⟨none,none,none,some conditions,none,none,none⟩

/-- The list of the first condition that has one. -/
def firstMacs : List Json → Js (List Json)
  | [] => .ok []
  | c::cs => do
    match ← isMacBlacklist c,macsOf c with
    | true,some (.array macs) => return macs
    | _,_ => firstMacs cs

def getBlacklistMacs (policy : PolicyRecord) : Js (List Json) := do
  firstMacs (← elements (some policy.conditions))

def lowercased (rt : Runtime) : Json → Js String
  | .string s => .ok (rt.toLowercase s)
  | _ => .error .threw

/-- `macs.some(m => m.toLowerCase() === mac.toLowerCase())`. -/
def isListed (rt : Runtime) (mac : String) (macs : List Json) : Js Bool :=
  macs.anyM fun m => do return (← lowercased rt m)==rt.toLowercase mac

def hasBlacklist (policy : PolicyRecord) : Js Bool := do
  (← elements (some policy.conditions)).anyM isMacBlacklist

/-- The groups that the blacklist page shows. -/
def blacklistPolicies : List PolicyRecord → Js (List PolicyRecord)
  | [] => .ok []
  | p::ps => do
    let shown ← hasBlacklist p
    let rest ← blacklistPolicies ps
    return if shown then p::rest else rest

section Handlers

variable (rt : Runtime)

/-- The button of the device page, on the policies that the page has. -/
def handleAddToBlacklist (policies : List PolicyRecord) (mac : String) :
    Js (Uuid × UpdatePolicy) := do
  let some blacklistPolicy ← policies.findM? hasBlacklist | .error .absent
  let existing ← (← elements (some blacklistPolicy.conditions)).findM? isMacBlacklist
  if ← (existing.elim (.ok false) fun c => do isListed rt mac (← elements (macsOf c))) then
    .error .listed
  let newConditions ← mapBlacklists (appended mac) blacklistPolicy.conditions
  return (blacklistPolicy.id,conditionsUpdate newConditions)

/-- The input field of a group on the blacklist page. -/
def handleAddMac (policy : PolicyRecord) (newMac : String) : Js (Uuid × UpdatePolicy) := do
  let mac := trim newMac
  if mac=="" then .error .blank
  if ← isListed rt mac (← getBlacklistMacs policy) then .error .listed
  let newConditions ← mapBlacklists (appended mac) policy.conditions
  return (policy.id,conditionsUpdate newConditions)

/-- The button beside an address that the blacklist page shows. -/
def handleRemoveMac (policy : PolicyRecord) (mac : String) : Js (Uuid × UpdatePolicy) := do
  let newConditions ← mapBlacklists
    (fun c => do return (← elements (macsOf c)).filter (·.asString != some mac)) policy.conditions
  return (policy.id,conditionsUpdate newConditions)

/-- The lines of the form that are not blank. -/
def bulkLines (bulkMacs : String) : List String :=
  ((bulkMacs.toList.splitOnP (· == '\n')).map fun l => trim (String.ofList l)).filter (· != "")

def handleCreateBlacklistPolicy (newPolicyName bulkMacs : String) : CreatePolicy where
  name := newPolicyName
  description := some "MAC 주소 블랙리스트 — 등록된 단말 자동 차단"
  priority := 1
  conditions := some (.array [.object [("type",.string "mac_blacklist"),
    ("macs",.array ((bulkLines bulkMacs).map .string))]])
  action := "deny"
  vlanId := none

end Handlers

/-! The groups that the page makes: one condition, with a list of texts. -/

/-- Conditions that are a blacklist of these texts and nothing else. -/
def ListsOnly (conditions : Json) (texts : List String) : Prop :=
  ∃ fields, conditions=.array [.object fields] ∧
    fields.lookup "type"=some (.string "mac_blacklist") ∧
    fields.lookup "macs"=some (.array (texts.map .string))

/-- Conditions that the pages pass over. -/
def Unlisted (conditions : Json) : Prop :=
  ∃ elems, conditions=.array elems ∧ ∀ e ∈ elems, isMacBlacklist e=.ok false

theorem created_listsOnly (name bulk : String) : ∃ c,
    (handleCreateBlacklistPolicy name bulk).conditions=some c ∧ ListsOnly c (bulkLines bulk) :=
  ⟨_,rfl,_,rfl,rfl,rfl⟩

theorem lookup_setField (name k : String) (value : Json) (fields : List (String × Json)) :
    (setField name value fields).lookup k=if k=name then some value else fields.lookup k := by
  induction fields with
  | nil =>
    by_cases hk : k=name
    · simp [setField,hk]
    · have hk' : (k==name)=false := by simpa using hk
      simp [setField,List.lookup_cons,hk',hk]
  | cons f fs ih =>
    obtain ⟨k',v⟩ := f
    rw [setField]
    by_cases hname : k'=name
    · rw [if_pos (by simpa using hname)]
      by_cases hk : k=name
      · simp [hname,hk]
      · have hk' : (k==k')=false := by simpa [hname] using hk
        simp [List.lookup_cons,hk',hk]
    · rw [if_neg (by simpa using hname)]
      by_cases hk : k=k'
      · simp [hk,hname]
      · have hk' : (k==k')=false := by simpa using hk
        rw [List.lookup_cons,List.lookup_cons,hk',ih]

theorem isMacBlacklist_of_type {fields : List (String × Json)}
    (h : fields.lookup "type"=some (.string "mac_blacklist")) :
    isMacBlacklist (.object fields)=.ok true := by
  rw [isMacBlacklist,h]
  rfl

section Groups

variable {conditions : Json} {texts : List String}

/-- A change of the list is a change of the group. -/
theorem mapBlacklists_listsOnly {f : Json → Js (List Json)} {texts' : List String}
    (h : ListsOnly conditions texts)
    (hf : ∀ c, macsOf c=some (.array (texts.map .string)) → f c=.ok (texts'.map .string)) :
    ∃ c, mapBlacklists f conditions=.ok c ∧ ListsOnly c texts' := by
  obtain ⟨fields,rfl,htype,hmacs⟩ := h
  refine ⟨.array [.object (setField "macs" (.array (texts'.map .string)) fields)],?_,?_⟩
  · simp only [mapBlacklists,elements,List.mapM_cons,List.mapM_nil,isMacBlacklist_of_type htype,
      hf (.object fields) hmacs,withMacs,bind,Except.bind,pure,Except.pure,if_true]
  · refine ⟨_,rfl,?_,?_⟩
    · rw [lookup_setField,if_neg (by decide),htype]
    · rw [lookup_setField,if_pos rfl]

theorem isListed_texts (rt : Runtime) (mac : String) (texts : List String) :
    isListed rt mac (texts.map .string)=
      .ok (texts.any fun m => rt.toLowercase m==rt.toLowercase mac) := by
  rw [isListed]
  induction texts with
  | nil => rfl
  | cons m ms ih =>
    rw [List.map_cons,List.anyM,ih,List.any_cons]
    cases h : rt.toLowercase m==rt.toLowercase mac with
    | false => simp [lowercased,h,bind,Except.bind,pure,Except.pure]
    | true => simp [lowercased,h,bind,Except.bind,pure,Except.pure]

theorem getBlacklistMacs_listsOnly {policy : PolicyRecord}
    (h : ListsOnly policy.conditions texts) :
    getBlacklistMacs policy=.ok (texts.map .string) := by
  obtain ⟨fields,hc,htype,hmacs⟩ := h
  rw [getBlacklistMacs,hc]
  simp [elements,firstMacs,isMacBlacklist_of_type htype,macsOf,hmacs,bind,Except.bind,pure,
    Except.pure]

theorem hasBlacklist_listsOnly {policy : PolicyRecord} (h : ListsOnly policy.conditions texts) :
    hasBlacklist policy=.ok true := by
  obtain ⟨fields,hc,htype,-⟩ := h
  rw [hasBlacklist,hc]
  simp [elements,List.anyM,isMacBlacklist_of_type htype,bind,Except.bind,pure,Except.pure]

theorem hasBlacklist_unlisted {policy : PolicyRecord} (h : Unlisted policy.conditions) :
    hasBlacklist policy=.ok false := by
  obtain ⟨elems,hc,helems⟩ := h
  have none_of (es : List Json) (hes : ∀ e ∈ es, isMacBlacklist e=.ok false) :
      es.anyM isMacBlacklist=.ok false := by
    induction es with
    | nil => rfl
    | cons e es ih =>
      rw [List.anyM,hes e List.mem_cons_self]
      exact ih fun d hd => hes d (List.mem_cons_of_mem e hd)
  rw [hasBlacklist,hc]
  exact none_of elems helems

end Groups

/-- Of policies among which one is a blacklist, the pages come upon that one. -/
theorem findM_hasBlacklist {pre post : List PolicyRecord} {policy : PolicyRecord}
    {texts : List String} (hpre : ∀ p ∈ pre, Unlisted p.conditions)
    (h : ListsOnly policy.conditions texts) :
    (pre++policy::post).findM? hasBlacklist=.ok (some policy) := by
  induction pre with
  | nil =>
    rw [List.nil_append,List.findM?,hasBlacklist_listsOnly h]
    rfl
  | cons p ps ih =>
    obtain ⟨hp,hps⟩ := List.forall_mem_cons.mp hpre
    rw [List.cons_append,List.findM?,hasBlacklist_unlisted hp]
    exact ih hps

theorem blacklistPolicies_unlisted {policies : List PolicyRecord}
    (h : ∀ p ∈ policies, Unlisted p.conditions) : blacklistPolicies policies=.ok [] := by
  induction policies with
  | nil => rfl
  | cons p ps ih =>
    obtain ⟨hp,hps⟩ := List.forall_mem_cons.mp h
    rw [blacklistPolicies,hasBlacklist_unlisted hp,ih hps]
    rfl

theorem blacklistPolicies_one {pre post : List PolicyRecord} {policy : PolicyRecord}
    {texts : List String} (hpre : ∀ p ∈ pre, Unlisted p.conditions)
    (h : ListsOnly policy.conditions texts) (hpost : ∀ p ∈ post, Unlisted p.conditions) :
    blacklistPolicies (pre++policy::post)=.ok [policy] := by
  induction pre with
  | nil =>
    rw [List.nil_append,blacklistPolicies,hasBlacklist_listsOnly h,
      blacklistPolicies_unlisted hpost]
    rfl
  | cons p ps ih =>
    obtain ⟨hp,hps⟩ := List.forall_mem_cons.mp hpre
    rw [List.cons_append,blacklistPolicies,hasBlacklist_unlisted hp,ih hps]
    rfl

/-! What the rule of a group is about. -/

theorem reading_json (j : Json) : (Condition.reading j).json=j := by
  cases j <;> rfl

theorem lookup_fieldReadings (k : String) (fields : List (String × Json)) :
    (Condition.fieldReadings fields).lookup k=(fields.lookup k).map Condition.reading := by
  induction fields with
  | nil => rfl
  | cons f fs ih =>
    obtain ⟨k',v⟩ := f
    rw [Condition.fieldReadings,List.lookup_cons,List.lookup_cons,ih]
    cases k==k' <;> rfl

theorem asStrings_texts (texts : List String) :
    (Json.array (texts.map .string)).asStrings=some texts := by
  rw [Json.asStrings]
  induction texts with
  | nil => rfl
  | cons t ts ih =>
    rw [List.map_cons,List.mapM_cons,ih]
    rfl

/-- The rule of such a group asks for the addresses on its list. -/
theorem toPolicyRule_listsOnly {row : PolicyRow} {texts : List String}
    (h : ListsOnly row.conditions texts) :
    toPolicyRule row=.ok ⟨row.name,row.priority.toInt,.macBlacklist texts,row.decision⟩ := by
  obtain ⟨fields,hc,htype,hmacs⟩ := h
  have hvalue : Condition.fromValue (.object fields)=some (.macBlacklist texts) := by
    have hvariant : Condition.variantOf false (.string "mac_blacklist")=
        some (.field "macs" fun r => r.json.asStrings.map .macBlacklist) := by
      rfl
    simp only [Condition.fromValue,Condition.ofFields,lookup_fieldReadings,htype,Option.map_some,
      bind,Option.bind_some,reading_json,hvariant,hmacs,asStrings_texts]
  rw [toPolicyRule,hc,storedConditions,List.mapM_cons,hvalue]
  rfl

end NacPlatform.AdminConsole
