import NacPlatform.AgentGateway.AgentService
import NacPlatform.Framework.Run
import NacPlatform.PolicyManager.Background
import NacPlatform.PolicyManager.Endpoints
import NacPlatform.PolicyManager.Evaluate
import NacPlatform.PolicyManager.PostureHandler
import NacPlatform.PolicyManager.SessionHandler

namespace NacPlatform

inductive AdminAction where
  | allow
  | block
  | quarantine
  deriving DecidableEq, Repr

def AdminAction.handler (id : Uuid) : AdminAction → Handler Endpoints.Response
  | allow => Endpoints.allowEndpoint id
  | block => Endpoints.blockEndpoint id
  | quarantine => Endpoints.quarantineEndpoint id

/-- What policy-manager and agent-gateway take up. The kernel prints the addresses of its ARP
table in dotted decimal. -/
inductive Step where
  | detected (event : EndpointDetectedEvent)
  | auth (resp : AuthResponse)
  | posture (report : PostureReport)
  | admin (id : Uuid) (action : AdminAction)
  | assignPolicy (id : Uuid) (policyId : Option Uuid)
  | setExempt (id : Uuid) (exempt : Bool)
  | evaluate (defaultAction : Option String)
  | arpSync (arpMap : List (String × Ipv4Addr)) (gatewayIps : List Ipv4Addr) (now : Int)
  | register (remoteIp : Option String) (req : AgentService.RegisterRequest)

/-- The tables and the bus, and what the ARP sync keeps between its cycles. -/
structure Platform where
  world : World
  pendingIp : Background.PendingIp

namespace Platform

def initial (policies : List PolicyRow) : Platform := ⟨World.initial policies,fun _ => none⟩

variable (pg : Postgres) (rt : Runtime)

/-- Each step is handled to its end, every call answered by the database or the bus. -/
def step (s : Platform) : Step → Platform
  | .detected event => { s with world := s.world.handle pg (Consumer.processEvent rt event) }
  | .auth resp => { s with world := s.world.handle pg (SessionHandler.processAuthResponse rt resp) }
  | .posture report =>
    { s with world := s.world.handle pg (PostureHandler.processPosture rt report) }
  | .admin id action => { s with world := s.world.handle pg (action.handler id) }
  | .assignPolicy id policyId =>
    { s with world := s.world.handle pg (Endpoints.assignPolicy id policyId) }
  | .setExempt id exempt => { s with world := s.world.handle pg (Endpoints.setExempt id exempt) }
  | .evaluate defaultAction =>
    { s with world := s.world.handle pg (Evaluate.evaluatePolicies rt defaultAction) }
  | .arpSync arpMap gatewayIps now =>
    let (result,world) := (Background.arpSync rt (arpMap.map fun e => (e.1,e.2.text))
      (gatewayIps.map Ipv4Addr.text) now s.pendingIp).run (Call.exec pg) s.world
    ⟨world,result.toOption.getD s.pendingIp⟩
  | .register remoteIp req =>
    { s with world := s.world.handle pg (AgentService.register remoteIp req) }

end Platform

end NacPlatform
