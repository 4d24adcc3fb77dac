import NacPlatform.Deployment.Browsing
import NacPlatform.Enforcement.OwnFrames
import NacPlatform.PolicyManager.EndpointLists
import NacPlatform.Sensor.Frames

namespace NacPlatform

open Enforcement

/-! The sensor hears what the enforcement service says. -/

/-- A frame on the wire. -/
def Enforcement.ArpFrame.bytes (frame : ArpFrame) : List UInt8 :=
  NetProto.craftArpReply frame.dst frame.senderMac frame.senderIp frame.targetMac frame.targetIp

section Detection

variable {pg : Postgres} {rt : Runtime} {w : World}

end Detection

end NacPlatform
