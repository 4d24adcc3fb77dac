import NacPlatform.EndpointAgent.Transport
import NacPlatform.PolicyManager.Conditions
import NacPlatform.PolicyManager.Reported

namespace NacPlatform.EndpointAgent

open AgentService (startRequest)
open PostureHandler (posture reportedPosture verdict)

/-- A condition that holds of a device only where something was reported of it. -/
inductive PostureLeaf where
  | compliant
  | softwareInstalled (name : String)
  | hasMissingPatches
  | usbEnabled
  | bluetoothEnabled
  | folderSharingEnabled
  deriving DecidableEq, Repr

def PostureLeaf.condition : PostureLeaf → Condition
  | compliant => .compliant true
  | softwareInstalled name => .softwareInstalled name
  | hasMissingPatches => .hasMissingPatches
  | usbEnabled => .usbEnabled
  | bluetoothEnabled => .bluetoothEnabled
  | folderSharingEnabled => .folderSharingEnabled

section Leaves

variable {rt : Runtime} {report : PostureReport} {row : EndpointRow}

end Leaves

end NacPlatform.EndpointAgent
