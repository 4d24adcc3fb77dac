import NacPlatform.PolicyEngine.Evaluator
import NacPlatform.Store.Endpoint

namespace NacPlatform

/-- `u64::from_str`: one leading plus sign may stand, at least one digit must. -/
def parseU64 (cs : List Char) : Option Nat :=
  let ds := match cs with | '+'::ds => ds | ds => ds
  if ds.isEmpty || !ds.all Char.isDigit then none
  else
    let n := ds.foldl (fun n c => 10*n+(c.toNat- '0'.toNat)) 0
    if n<2^64 then some n else none

def versionParts (s : String) : List Nat := (s.toList.splitOnP (· == '.')).filterMap parseU64

/-- The first position at which two versions differ decides; missing parts count as zero. -/
def compareOsVersion (a b : String) : Ordering :=
  let va := versionParts a
  let vb := versionParts b
  ((List.range (max va.length vb.length)).map fun i =>
    compare (va.getD i 0) (vb.getD i 0)).foldr Ordering.then .eq

def installedSoftwareList (ep : EndpointRow) : List PostureSoftwareItem :=
  match ep.postureSw with
  | some (.array items) => (items.mapM PostureSoftwareItem.fromValue).getD []
  | _ => []

section Matching

variable (rt : Runtime)

def softwareNamed (ep : EndpointRow) (name : String) : Bool :=
  (installedSoftwareList ep).any fun s =>
    textContains (rt.toLowercase s.name) (rt.toLowercase name)

def reportedOsVersion (ep : EndpointRow) : String :=
  (ep.postureOsVersion.or ep.osVersion).getD ""

mutual

/-- The evaluator of the batch run, on the stored row. -/
def conditionMatches (ep : EndpointRow) : Condition → Bool
  | .and conditions => allMatches ep conditions
  | .or conditions => anyMatches ep conditions
  | .not condition => !conditionMatches ep condition
  | .osFamily value => (ep.osFamily.map fun o => eqIgnoreAsciiCase o value).getD false
  | .deviceType value => (ep.deviceType.map fun d => eqIgnoreAsciiCase d value).getD false
  | .compliant required => ep.isCompliant.getD false==required
  | .macList macs => macs.any fun m => eqIgnoreAsciiCase m ep.macAddress.text
  | .macBlacklist macs => macs.any fun m => eqIgnoreAsciiCase m ep.macAddress.text
  | .userGroup _ => false
  | .osVersionBelow version => compareOsVersion (reportedOsVersion ep) version==.lt
  | .osVersionAtLeast version => compareOsVersion (reportedOsVersion ep) version != .lt
  | .softwareInstalled name => softwareNamed rt ep name
  | .softwareNotInstalled name => !softwareNamed rt ep name
  | .hasMissingPatches => 0<ep.postureMissingPatches
  | .usbEnabled => ep.postureUsbEnabled.getD false
  | .bluetoothEnabled => ep.postureBluetooth.getD false
  | .folderSharingEnabled => ep.postureFolderSharing.getD false

def allMatches (ep : EndpointRow) : List Condition → Bool
  | [] => true
  | c::cs => conditionMatches ep c && allMatches ep cs

def anyMatches (ep : EndpointRow) : List Condition → Bool
  | [] => false
  | c::cs => conditionMatches ep c || anyMatches ep cs

end

end Matching

end NacPlatform
