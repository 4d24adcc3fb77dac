import NacPlatform.AgentGateway.AgentService
import NacPlatform.Aaa.CaptivePortal

namespace NacPlatform.AgentService

open Aaa (NacClaims)

/-- The `jsonwebtoken` crate with HS256 and its check of `exp`: what it has signed it verifies
until it expires. -/
structure JsonWebToken where
  encode : NacClaims → List UInt8 → Except String String
  decode : Int → String → List UInt8 → Except String NacClaims
  decode_encode : ∀ claims secret token now, encode claims secret=.ok token →
    now ≤ claims.exp → decode now token secret=.ok claims

section

variable (jwt : JsonWebToken)

def signToken (claims : NacClaims) (secret : List UInt8) : Except String String :=
  jwt.encode claims secret

def verifyToken (now : Int) (token : String) (secret : List UInt8) : Except String NacClaims :=
  jwt.decode now token secret

/-- What a registration signs for the device. -/
def registrationClaims (req : RegisterRequest) (now : Int) : NacClaims :=
  ⟨req.deviceId,[],now+86400,now⟩

/-- `report_status` of a service with the secret: of the claims only whether there are any is
looked at. -/
def handleReport (secret : List UInt8) (authorization : Option String) (req : StatusReport)
    (now : Int) (t : EndpointTable) : Except Unauthenticated (PostureReport × String) :=
  reportStatus (fun token => (verifyToken jwt now token secret).toBool) authorization req now t

theorem bearerToken_bearer (token : String) : bearerToken (some ("Bearer "++token))=some token := by
  have htext : ("Bearer "++token).toList="Bearer ".toList++token.toList := String.toList_append
  have hprefix : "Bearer ".toList.isPrefixOf ("Bearer "++token).toList=true := by
    rw [htext]
    exact List.isPrefixOf_iff_prefix.mpr (List.prefix_append _ _)
  change (if _ then some (String.ofList (("Bearer "++token).toList.drop 7)) else none)=_
  rw [if_pos hprefix,htext,List.drop_left' (by rfl),String.ofList_toList]

theorem handleReport_valid {secret : List UInt8} {authorization : Option String} {token : String}
    {now : Int} {claims : NacClaims} (hbearer : bearerToken authorization=some token)
    (hvalid : verifyToken jwt now token secret=.ok claims) (req : StatusReport)
    (t : EndpointTable) : handleReport jwt secret authorization req now t=
      .ok (postureReport req now,ackAction (t.findByAgentId req.deviceId)) := by
  simp only [handleReport,reportStatus,hbearer,hvalid]
  rfl

end

def sampleSecret : List UInt8 := "change-me-in-production-at-least-32-chars!!".toUTF8.toList

/-- The claims of a device that registered. -/
def sampleClaims : NacClaims := registrationClaims ⟨"device-a","","Linux","6.1",""⟩ 1700000000

/-- HS256 of these claims under the secret. -/
def sampleToken : String :=
  "eyJ0eXAiOiJKV1QiLCJhbGciOiJIUzI1NiJ9.eyJzdWIiOiJkZXZpY2UtYSIsImdyb3VwcyI6W10sImV4cCI6MTcwMDA4" ++
    "NjQwMCwiaWF0IjoxNzAwMDAwMDAwfQ.6fO1nNBEdxe7uHupIVtTEBYNT8rkfEoobIEQPgb76vE"

/-- The crate on this one token. -/
def sampleJwt : JsonWebToken where
  encode claims secret :=
    if claims=sampleClaims ∧ secret=sampleSecret then .ok sampleToken else .error "no other token"
  decode now token secret :=
    if token=sampleToken ∧ secret=sampleSecret then
      if now ≤ sampleClaims.exp+60 then .ok sampleClaims else .error "ExpiredSignature"
    else .error "InvalidToken"
  decode_encode claims secret token now h hnow := by
    split at h
    · next hsample =>
      obtain ⟨rfl,rfl⟩ := hsample
      cases h
      rw [if_pos ⟨rfl,rfl⟩,if_pos (by omega)]
    · cases h

end NacPlatform.AgentService
