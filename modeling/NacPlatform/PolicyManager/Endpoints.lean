import NacPlatform.PolicyManager.Consumer

namespace NacPlatform.Endpoints

/-- The answers of the API: the row as it is afterwards, or 404. -/
inductive Response where
  | updated (row : EndpointRow)
  | notFound

def answer (id : Uuid) : Handler Response := do
  let updated ← query (.findById id)
  match updated with
  | some row => return .updated row
  | none => return .notFound

def updateEndpointStatus (id : Uuid) (status eventType : String) : Handler Response := do
  let found ← query (.findById id)
  match found with
  | none => return .notFound
  | some ep =>
    query (.setStatus id status)
    query (.logAudit eventType (some id) "api")
    let ip := stripCidr (ep.ipAddress.getD "")
    let _ ← probe (.publishCommand
      (enforcementCommand ep.macAddress.text ip status none))
    answer id

def allowEndpoint (id : Uuid) : Handler Response :=
  updateEndpointStatus id "allowed" "endpoint_allowed"

def blockEndpoint (id : Uuid) : Handler Response :=
  updateEndpointStatus id "denied" "endpoint_blocked"

def quarantineEndpoint (id : Uuid) : Handler Response :=
  updateEndpointStatus id "quarantined" "endpoint_quarantined"

/-- A policy set by hand, or with `none` back to the evaluation of all. -/
def assignPolicy (id : Uuid) (policyId : Option Uuid) : Handler Response := do
  let found ← query (.findById id)
  match found with
  | none => return .notFound
  | some _ =>
    query (.setPolicy id policyId)
    query (.logAudit "endpoint_policy_assigned" (some id) "api")
    answer id

def setExempt (id : Uuid) (exempt : Bool) : Handler Response := do
  let found ← query (.findById id)
  match found with
  | none => return .notFound
  | some _ =>
    query (.setExempt id exempt)
    query (.logAudit (if exempt then "endpoint_policy_exempted" else "endpoint_policy_unexempted")
      (some id) "api")
    answer id

end NacPlatform.Endpoints
