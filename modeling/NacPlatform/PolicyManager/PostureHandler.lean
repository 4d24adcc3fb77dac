import NacPlatform.PolicyManager.Consumer

namespace NacPlatform.PostureHandler

/-- The verdict of this report, and the reported OS where the fingerprint has none. -/
def context (endpoint : EndpointRow) (report : PostureReport) (isCompliant : Bool) :
    PolicyContext where
  macAddress := endpoint.macAddress.text
  ipAddress := endpoint.ipAddress
  hostname := endpoint.hostname
  osFamily := endpoint.osFamily.or (some report.os)
  deviceType := endpoint.deviceType
  username := endpoint.username
  groups := []
  isCompliant := some isCompliant
  switchPort := endpoint.switchPort

def changeStatus (endpoint : EndpointRow) (newStatus : Status) : Handler Unit := do
  query (.setStatus endpoint.id newStatus.text)
  query (.logAudit "posture_status_change" (some endpoint.id) "policy-manager")
  let _ ← probe (.publishCommand
    (enforcementCommand endpoint.macAddress.text (endpoint.ipAddress.getD "") newStatus.text none))

def evaluateEndpoint (rt : Runtime) (endpoint : EndpointRow) (report : PostureReport)
    (isCompliant : Bool) : Handler Unit := do
  let rules ← loadRules
  if rules.isEmpty then return
  let decision := evaluate rt rules (context endpoint report isCompliant)
  let newStatus := decisionToStatus decision
  if endpoint.status != newStatus then changeStatus endpoint newStatus

def verdict (rt : Runtime) (report : PostureReport) : Bool :=
  CompliancePolicy.defaultPolicy.evaluate rt report

def processPosture (rt : Runtime) (report : PostureReport) : Handler Unit := do
  let found ← query (.findByMac report.deviceId)
  match found with
  | none => return
  | some endpoint =>
    let isCompliant := verdict rt report
    query (.savePosture endpoint.id report isCompliant)
    query (.setCompliance endpoint.id isCompliant)
    query (.updatePostureFields endpoint.id report.fields)
    query (.logAudit "posture_report" (some endpoint.id) "agent-gateway")
    evaluateEndpoint rt endpoint report isCompliant

end NacPlatform.PostureHandler
