import NacPlatform.Deployment.Containment
import NacPlatform.PolicyManager.Assigned

namespace NacPlatform

open Enforcement

/-! From a policy to packets: what the batch run decides, and what the gateway does then. -/

/-- What the gateway owes a device of a status; it owes a pending one nothing. -/
structure Enforcement.Host.Treats (h : Host) (mac : MacAddr) (status : Status) : Prop where
  contains : status.enforced=true → h.Contains mac status
  passes : status=.allowed → h.Passes mac

/-- The tables stay as they are. -/
def DeploymentStep.quiet : DeploymentStep → Bool
  | .deliver _ => true
  | .tick _ => true
  | .managerStarts => true
  | .enforcementStarts .. => true
  | _ => false

section Decisions

variable {pg : Postgres} {rt : Runtime} {d : Deployment}

theorem Deployment.Sound.treats (h : d.Sound Status.settled 0) (hdone : d.taken=d.published.length)
    {row : EndpointRow} (hrow : d.platform.world.endpoints.findById row.id=some row)
    (hdevice : row.macAddress≠noDevice) : d.host.Treats row.macAddress row.status where
  contains hst :=
    h.contains (fun _ => id) hdone hrow hst (Status.settled_of_enforced hst) hdevice
  passes hst := h.passes hdone hrow hst hdevice

end Decisions

end NacPlatform
