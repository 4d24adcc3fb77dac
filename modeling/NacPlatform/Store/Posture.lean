import NacPlatform.Store.Endpoint
import NacPlatform.Platform.Runtime

namespace NacPlatform

structure SoftwareItem where
  name : String
  version : String
  deriving DecidableEq, Repr

structure PatchItem where
  kbId : String
  description : String
  deriving DecidableEq, Repr

structure PostureReport where
  deviceId : String
  os : String
  osVersion : String
  installedSoftware : List SoftwareItem
  missingPatches : List PatchItem
  usbEnabled : Bool
  bluetoothEnabled : Bool
  folderSharingEnabled : Bool
  timestamp : Int
  deriving DecidableEq, Repr

/-- `serde_json::to_value`. -/
def SoftwareItem.toValue (s : SoftwareItem) : Json :=
  .object [("name",.string s.name),("version",.string s.version)]

structure CompliancePolicy where
  requiredSoftware : List String
  requirePatches : Bool
  allowUsb : Bool
  allowBluetooth : Bool
  allowFolderSharing : Bool
  deriving DecidableEq, Repr

namespace CompliancePolicy

def defaultPolicy : CompliancePolicy := ⟨[],true,true,true,false⟩

def evaluate (rt : Runtime) (p : CompliancePolicy) (report : PostureReport) : Bool :=
  (p.requiredSoftware.all fun req => report.installedSoftware.any fun s =>
      textContains (rt.toLowercase s.name) (rt.toLowercase req)) &&
    !(p.requirePatches && !report.missingPatches.isEmpty) &&
    !(!p.allowUsb && report.usbEnabled) &&
    !(!p.allowBluetooth && report.bluetoothEnabled) &&
    !(!p.allowFolderSharing && report.folderSharingEnabled)

end CompliancePolicy

def PostureReport.fields (report : PostureReport) : PostureFields where
  sw := .array (report.installedSoftware.map SoftwareItem.toValue)
  missingPatches := .ofNat report.missingPatches.length
  usbEnabled := report.usbEnabled
  bluetooth := report.bluetoothEnabled
  folderSharing := report.folderSharingEnabled
  osVersion := report.osVersion

namespace CompliancePolicy

/-- What a policy can ask of a report. -/
inductive Requirement where
  | software
  | patches
  | usb
  | bluetooth
  | folderSharing
  deriving DecidableEq, Repr

/-- The report fails a requirement that the policy makes. -/
def Violated (rt : Runtime) (p : CompliancePolicy) (report : PostureReport) : Requirement → Prop
  | .software => ∃ req ∈ p.requiredSoftware, ∀ s ∈ report.installedSoftware,
      textContains (rt.toLowercase s.name) (rt.toLowercase req)=false
  | .patches => p.requirePatches=true ∧ report.missingPatches≠[]
  | .usb => p.allowUsb=false ∧ report.usbEnabled=true
  | .bluetooth => p.allowBluetooth=false ∧ report.bluetoothEnabled=true
  | .folderSharing => p.allowFolderSharing=false ∧ report.folderSharingEnabled=true

/-- `p'` asks for nothing that `p` does not ask for. -/
structure Laxer (p' p : CompliancePolicy) : Prop where
  software : ∀ req ∈ p'.requiredSoftware, req ∈ p.requiredSoftware
  patches : p'.requirePatches=true → p.requirePatches=true
  usb : p.allowUsb=true → p'.allowUsb=true
  bluetooth : p.allowBluetooth=true → p'.allowBluetooth=true
  folderSharing : p.allowFolderSharing=true → p'.allowFolderSharing=true

end CompliancePolicy

/-- The device of `r'` has the software that the one of `r` has, and no peripheral more. -/
structure PostureReport.Healthier (r' r : PostureReport) : Prop where
  software : ∀ s ∈ r.installedSoftware, ∃ s' ∈ r'.installedSoftware, s'.name=s.name
  patches : r.missingPatches=[] → r'.missingPatches=[]
  usb : r'.usbEnabled=true → r.usbEnabled=true
  bluetooth : r'.bluetoothEnabled=true → r.bluetoothEnabled=true
  folderSharing : r'.folderSharingEnabled=true → r.folderSharingEnabled=true

namespace CompliancePolicy

variable {rt : Runtime} {p p' : CompliancePolicy} {r r' : PostureReport}

theorem evaluate_eq_true_iff :
    p.evaluate rt r=true ↔ ∀ requirement, ¬p.Violated rt r requirement := by
  have all : (∀ requirement, ¬p.Violated rt r requirement) ↔
      ¬p.Violated rt r .software ∧ ¬p.Violated rt r .patches ∧ ¬p.Violated rt r .usb ∧
        ¬p.Violated rt r .bluetooth ∧ ¬p.Violated rt r .folderSharing := by
    constructor
    · intro h
      exact ⟨h _,h _,h _,h _,h _⟩
    · intro h requirement
      obtain ⟨software,patches,usb,bluetooth,folderSharing⟩ := h
      cases requirement <;> assumption
  rw [all]
  simp [evaluate,Violated,and_assoc,or_iff_not_imp_left]

theorem Violated.of_laxer {requirement : Requirement} (hp : p'.Laxer p) (hr : r'.Healthier r)
    (h : p'.Violated rt r' requirement) : p.Violated rt r requirement := by
  cases requirement with
  | software =>
    obtain ⟨req,hreq,hnone⟩ := h
    refine ⟨req,hp.software req hreq,?_⟩
    intro s hs
    obtain ⟨s',hs',hname⟩ := hr.software s hs
    rw [← hname]
    exact hnone s' hs'
  | patches => exact ⟨hp.patches h.1,fun hnone => h.2 (hr.patches hnone)⟩
  | usb => exact ⟨by simpa [h.1] using hp.usb,hr.usb h.2⟩
  | bluetooth => exact ⟨by simpa [h.1] using hp.bluetooth,hr.bluetooth h.2⟩
  | folderSharing => exact ⟨by simpa [h.1] using hp.folderSharing,hr.folderSharing h.2⟩

/-- A laxer policy finds compliant what a stricter one does, also on a healthier device, and a
report fails exactly when one of the five requirements is violated. -/
theorem evaluate_monotone (rt : Runtime) :
    (∀ (p p' : CompliancePolicy) (r r' : PostureReport), p'.Laxer p → r'.Healthier r →
      p.evaluate rt r=true → p'.evaluate rt r'=true) ∧
    ∀ (p : CompliancePolicy) (r : PostureReport),
      p.evaluate rt r=false ↔ ∃ requirement, p.Violated rt r requirement := by
  constructor
  · intro p p' r r' hp hr heval
    rw [evaluate_eq_true_iff] at heval ⊢
    intro requirement hviolated
    exact heval requirement (hviolated.of_laxer hp hr)
  · intro p r
    rw [← not_iff_not,not_exists,Bool.not_eq_false]
    exact evaluate_eq_true_iff

/-- The default policy asks every device for its patches, and to share no folder. -/
example : defaultPolicy.evaluate .ascii
    ⟨"AA:BB:CC:DD:EE:FF","Windows","11",[],[],false,true,true,0⟩=false := by decide

end CompliancePolicy

end NacPlatform
