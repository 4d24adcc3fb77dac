import NacPlatform.Platform.Json

namespace NacPlatform

inductive PolicyDecision where
  | allow
  | allowVlan (vlan : UInt16)
  | quarantine (vlan : UInt16) (reason : String)
  | deny (reason : String)
  deriving DecidableEq, Repr

structure PolicyContext where
  macAddress : String := ""
  ipAddress : Option String := none
  hostname : Option String := none
  osFamily : Option String := none
  deviceType : Option String := none
  username : Option String := none
  groups : List String := []
  isCompliant : Option Bool := none
  switchPort : Option String := none
  deriving DecidableEq, Repr

inductive Condition where
  | osFamily (value : String)
  | userGroup (groups : List String)
  | compliant (required : Bool)
  | deviceType (value : String)
  | and (conditions : List Condition)
  | or (conditions : List Condition)
  | not (condition : Condition)
  | macList (macs : List String)
  | osVersionBelow (version : String)
  | osVersionAtLeast (version : String)
  | softwareInstalled (name : String)
  | softwareNotInstalled (name : String)
  | hasMissingPatches
  | usbEnabled
  | bluetoothEnabled
  | folderSharingEnabled
  | macBlacklist (macs : List String)
  deriving Repr

structure PolicyRule where
  name : String
  priority : Int
  condition : Condition
  decision : PolicyDecision
  deriving Repr

namespace Condition

/-! `Deserialize` as derived with `tag = "type"`: an object with the tag among its fields, or an
array that starts with it. The values under a value are read first, so that the recursion is on
the structure of the JSON. -/

/-- A value with the condition, and the list of conditions, that it reads as. -/
structure Reading where
  json : Json
  condition : Option Condition
  conditions : Option (List Condition)

/-- What stands beside the tag of a variant: nothing, or one named field. -/
inductive Variant where
  | unit (condition : Condition)
  | field (name : String) (read : Reading → Option Condition)

def variants : List (String × Variant) :=
  [("os_family",.field "value" fun r => r.json.asString.map osFamily),
   ("user_group",.field "groups" fun r => r.json.asStrings.map userGroup),
   ("compliant",.field "required" fun r => r.json.asBool.map compliant),
   ("device_type",.field "value" fun r => r.json.asString.map deviceType),
   ("and",.field "conditions" fun r => r.conditions.map and),
   ("or",.field "conditions" fun r => r.conditions.map or),
   ("not",.field "condition" fun r => r.condition.map not),
   ("mac_list",.field "macs" fun r => r.json.asStrings.map macList),
   ("os_version_below",.field "version" fun r => r.json.asString.map osVersionBelow),
   ("os_version_at_least",.field "version" fun r => r.json.asString.map osVersionAtLeast),
   ("software_installed",.field "name" fun r => r.json.asString.map softwareInstalled),
   ("software_not_installed",.field "name" fun r => r.json.asString.map softwareNotInstalled),
   ("has_missing_patches",.unit hasMissingPatches),
   ("usb_enabled",.unit usbEnabled),
   ("bluetooth_enabled",.unit bluetoothEnabled),
   ("folder_sharing_enabled",.unit folderSharingEnabled),
   ("mac_blacklist",.field "macs" fun r => r.json.asStrings.map macBlacklist)]

/-- A tag is the name of a variant. Inside another condition the values are buffered first, and
there serde takes the position of a variant as well. -/
def variantOf (nested : Bool) : Json → Option Variant
  | .string tag => variants.lookup tag
  | .number (.posInt n) => if nested then variants[n]?.map (·.2) else none
  | _ => none

/-- The variant of an object: other fields are ignored, a missing one is an error. -/
def ofFields (nested : Bool) (fields : List (String × Reading)) : Option Condition := do
  let tag ← fields.lookup "type"
  match ← variantOf nested tag.json with
  | .unit condition => some condition
  | .field name read => (fields.lookup name).bind read

/-- The variant of an array: nothing may follow what belongs to it. -/
def ofElems (nested : Bool) : List Reading → Option Condition
  | [] => none
  | tag::rest =>
    match variantOf nested tag.json,rest with
    | some (.unit condition),[] => some condition
    | some (.field _ read),[r] => read r
    | _,_ => none

mutual

def reading : Json → Reading
  | .array elems =>
    let rs := readings elems
    ⟨.array elems,ofElems true rs,rs.mapM (·.condition)⟩
  | .object fields => ⟨.object fields,ofFields true (fieldReadings fields),none⟩
  | .null => ⟨.null,none,none⟩
  | .bool b => ⟨.bool b,none,none⟩
  | .number n => ⟨.number n,none,none⟩
  | .string s => ⟨.string s,none,none⟩

def readings : List Json → List Reading
  | [] => []
  | j::js => reading j::readings js

def fieldReadings : List (String × Json) → List (String × Reading)
  | [] => []
  | (k,j)::fs => (k,reading j)::fieldReadings fs

end

/-- `from_value::<Condition>`. -/
def fromValue : Json → Option Condition
  | .array elems => ofElems false (readings elems)
  | .object fields => ofFields false (fieldReadings fields)
  | _ => none

end Condition

end NacPlatform
