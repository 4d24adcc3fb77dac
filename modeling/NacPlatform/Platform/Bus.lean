import NacPlatform.Framework.Text

namespace NacPlatform

/-- The payload of `nac.commands.enforcement`, as every publisher writes it and the enforcement
consumer reads it. -/
@[ext] structure EnforcementCommand where
  macAddress : String
  ipAddress : String
  action : String
  gatewayIp : String
  gatewayMac : Option String
  vlanId : Option UInt16
  deriving DecidableEq, Repr

/-- The payload of `nac.events.endpoint.detected`. -/
structure EndpointDetectedEvent where
  macAddress : String
  ipAddress : String
  interface : String
  source : String
  timestamp : Int
  hostname : Option String
  osFamily : Option String
  osVersion : Option String
  deviceType : Option String
  vendor : Option String
  deriving DecidableEq, Repr

/-- What the enforcement consumer does to a device. -/
inductive NacAction where
  | block
  | quarantine
  deriving DecidableEq, Repr

def isAllowAction (action : String) : Bool := action=="allowed" || action=="allow"

/-- Status strings and action strings alike; an unknown one quarantines. -/
def mapAction (action : String) : NacAction :=
  if action=="denied" || action=="block" || action=="blocked" then .block
  else .quarantine

/-- The treatment a command asks for; `none` is to let the device pass. -/
def EnforcementCommand.treatment (cmd : EnforcementCommand) : Option NacAction :=
  if isAllowAction cmd.action then none else some (mapAction cmd.action)

end NacPlatform
