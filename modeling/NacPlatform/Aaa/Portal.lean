import NacPlatform.Aaa.PortalPages

namespace NacPlatform.Aaa

/-! The whole portal as a browser meets it, or a device that tries whether it is online. -/

/-- A GET request. -/
structure PageRequest where
  host : Option String
  path : String
  query : Option String
  deriving DecidableEq, Repr

/-- `Uri::path_and_query`. -/
def PageRequest.pathAndQuery (req : PageRequest) : String :=
  req.path++(req.query.map ("?"++·)).getD ""

inductive PortalAnswer where
  | page (response : PortalResponse)
  /-- What the system of the device takes for the internet. -/
  | online (status : Nat) (body : String)
  | successPage
  | deniedPage (html : String)
  | healthy
  | methodNotAllowed
  deriving DecidableEq, Repr

/-- The three probes differ in what they answer a device that is not held. -/
def connectivityProbe (portalUrl ip : String) (online : PortalAnswer) : Handler PortalAnswer := do
  match ← endpointStatus ip with
  | some .denied => return .page (.redirect (portalUrl++"/blocked"))
  | some .quarantined => return .page (.redirect portalUrl)
  | _ => return online

def ncsiProbe (portalUrl ip : String) : Handler PortalAnswer :=
  connectivityProbe portalUrl ip (.online 200 "Microsoft NCSI\r\n")

def generate204 (portalUrl ip : String) : Handler PortalAnswer :=
  connectivityProbe portalUrl ip (.online 204 "")

def hotspotDetect (portalUrl ip : String) : Handler PortalAnswer :=
  connectivityProbe portalUrl ip
    (.online 200 "<HTML><HEAD><TITLE>Success</TITLE></HEAD><BODY>Success</BODY></HTML>")

/-- `router`, for a client at an address. -/
def portal (portalUrl ip : String) (req : PageRequest) : Handler PortalAnswer :=
  match req.path with
  | "/" => return .page (← landingPage ip (req.query.getD ""))
  | "/login" => return .methodNotAllowed
  | "/success" => return .successPage
  | "/denied" =>
    match deniedQuery (req.query.getD "") with
    | .ok reason => return .deniedPage (deniedPage reason)
    | .error e => return .page (.badRequest e)
  | "/blocked" => return .page .blockedPage
  | "/health" => return .healthy
  | "/ncsi.txt" => ncsiProbe portalUrl ip
  | "/generate_204" => generate204 portalUrl ip
  | "/hotspot-detect.html" => hotspotDetect portalUrl ip
  | _ => return .page (← catchAll portalUrl ip req.host (some req.pathAndQuery))

section Answers

variable {pg : Postgres} {portalUrl ip : String} {w : World}

end Answers

end NacPlatform.Aaa
