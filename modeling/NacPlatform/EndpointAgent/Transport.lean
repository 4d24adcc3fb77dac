import NacPlatform.AgentGateway.SystemInfo
import NacPlatform.AgentGateway.Tokens
import NacPlatform.EndpointAgent.Software
import NacPlatform.Framework.Copies

namespace NacPlatform.EndpointAgent

open AgentService

/-- The connection of an agent; the token is the one that it was given when it registered. -/
structure AgentTransport where
  deviceId : String
  token : Option String
  deriving DecidableEq, Repr

/-- `MetadataValue::try_from`: what a header can carry. -/
def metadataValue (text : String) : Option String :=
  if text.toList.all fun c => c == '\t' || (32 ≤ c.toNat && c.toNat != 127) then some text else none

/-- `MetadataValue::to_str`: a header that is visible ASCII. -/
def headerText (value : String) : Option String :=
  if value.toList.all fun c => c == '\t' || (32 ≤ c.toNat && c.toNat<127) then some value else none

namespace AgentTransport

def connect (deviceId : String) : AgentTransport := ⟨deviceId,none⟩

/-- What the transport keeps of the answer to its registration. -/
def register (t : AgentTransport) (resp : Except String String) :
    Except String String × AgentTransport :=
  match resp with
  | .error e => (.error e,t)
  | .ok token =>
    if token.isEmpty then (.error "server returned empty token",t)
    else (.ok token,{ t with token := some token })

/-- The header of a report. -/
def authorization (t : AgentTransport) : Option String :=
  t.token.bind fun token => metadataValue ("Bearer "++token)

/-- The message of `AgentTransport::report_status`. -/
def statusReport (t : AgentTransport) (software : List InstalledSoftware)
    (usbEnabled bluetoothEnabled folderSharingEnabled : Bool) (os osVersion : String) :
    StatusReport where
  deviceId := t.deviceId
  installedSoftware := software.map fun s => ⟨s.name,s.version⟩
  missingPatches := []
  usbEnabled := usbEnabled
  bluetoothEnabled := bluetoothEnabled
  folderSharingEnabled := folderSharingEnabled
  os := os
  osVersion := osVersion

end AgentTransport

/-- What an agent finds at a check-in. -/
structure Checkup where
  software : List InstalledSoftware
  usbEnabled : Bool
  bluetoothEnabled : Bool
  folderSharingEnabled : Bool
  deriving DecidableEq, Repr

/-- The agent of a device at work: it goes on registering until it has a token, and then reports. -/
structure Agent where
  transport : AgentTransport
  sys : SystemInfo
  deriving DecidableEq, Repr

def Agent.report (a : Agent) (c : Checkup) : StatusReport :=
  a.transport.statusReport c.software c.usbEnabled c.bluetoothEnabled c.folderSharingEnabled
    a.sys.osName a.sys.osVersion

/-- Tokens in their compact form, which a header can carry, with the minute that an expired one is
granted. -/
structure Hs256 extends JsonWebToken where
  encode_visible : ∀ claims secret token, encode claims secret=.ok token →
    token≠"" ∧ ∀ c ∈ token.toList, 32 ≤ c.toNat ∧ c.toNat<127
  decode_granted : ∀ claims secret token now, encode claims secret=.ok token →
    now ≤ claims.exp+60 → decode now token secret=.ok claims
  decode_expired : ∀ claims secret token now, encode claims secret=.ok token →
    claims.exp+60<now → ∃ e, decode now token secret=.error e

/-- The agents, the tables, and the reports that the gateway has published. -/
structure Fleet where
  agents : Nat → Option Agent
  world : World
  published : List PostureReport

/-- What happens next: an agent starts, tries to register, or checks in; meanwhile anything may
happen to the tables. Calls may fail, and messages be lost on their way. -/
inductive FleetStep where
  | start (i : Nat) (deviceId : String) (sys : SystemInfo)
  | register (i : Nat) (now : Int) (remoteIp : Option String) (fails : Call → Bool)
      (answered : Bool)
  | checkIn (i : Nat) (now : Int) (c : Checkup) (arrives : Bool)
  | others (change : World → World)

section Service

variable (jwt : JsonWebToken) (secret : List UInt8) (pg : Postgres)

/-- `register` of the gateway with its token. -/
def registerResponse (fails : Call → Bool) (remoteIp : Option String) (req : RegisterRequest)
    (now : Int) (w : World) : Except String String × World :=
  match (AgentService.register remoteIp req).run (Call.execFaulty pg fails) w with
  | (.ok _,w') =>
    match signToken jwt (registrationClaims req now) secret with
    | .ok token => (.ok token,w')
    | .error _ => (.error "token error",w')
  | (.error _,w') => (.error "database error",w')

/-- What the agent hears of a registration. -/
def Agent.heard (a : Agent) (fails : Call → Bool) (remoteIp : Option String) (answered : Bool)
    (now : Int) (w : World) : Except String String :=
  if answered then
    (registerResponse jwt secret pg fails remoteIp (startRequest a.transport.deviceId a.sys) now w).1
  else .error "transport error"

/-- What the gateway makes of a check-in. -/
def Agent.checkedIn (a : Agent) (c : Checkup) (now : Int) (w : World) :
    Except Unauthenticated (PostureReport × String) :=
  handleReport jwt secret (a.transport.authorization.bind headerText) (a.report c) now w.endpoints

namespace Fleet

def initial (w : World) : Fleet := ⟨fun _ => none,w,[]⟩

def step (s : Fleet) : FleetStep → Fleet
  | .start i deviceId sys =>
    { s with agents := Function.update s.agents i (some ⟨.connect deviceId,sys⟩) }
  | .register i now remoteIp fails answered =>
    match s.agents i with
    | some a =>
      if a.transport.token.isSome then s
      else
        { s with
          agents := Function.update s.agents i (some { a with
            transport :=
              (a.transport.register (a.heard jwt secret pg fails remoteIp answered now s.world)).2 })
          world := (registerResponse jwt secret pg fails remoteIp
            (startRequest a.transport.deviceId a.sys) now s.world).2 }
    | none => s
  | .checkIn i now c arrives =>
    match s.agents i with
    | some a =>
      if a.transport.token.isSome && arrives then
        match a.checkedIn jwt secret c now s.world with
        | .ok (report,_) => { s with published := s.published++[report] }
        | .error _ => s
      else s
    | none => s
  | .others change => { s with world := change s.world }

end Fleet

/-- What is seen of an agent. -/
inductive Seen where
  | started (i : Nat)
  | registered (i : Nat) (now : Int)
  | published (i : Nat) (now : Int) (report : PostureReport)
  | refused (i : Nat) (now : Int)
  deriving DecidableEq

/-- What is seen of a step. -/
def Fleet.seen (s : Fleet) : FleetStep → List Seen
  | .start i _ _ => [.started i]
  | .register i now remoteIp fails answered =>
    match s.agents i with
    | some a =>
      if a.transport.token.isSome then []
      else
        match (a.transport.register (a.heard jwt secret pg fails remoteIp answered now s.world)).1
        with
        | .ok _ => [.registered i now]
        | .error _ => []
    | none => []
  | .checkIn i now c arrives =>
    match s.agents i with
    | some a =>
      if a.transport.token.isSome && arrives then
        match a.checkedIn jwt secret c now s.world with
        | .ok (report,_) => [.published i now report]
        | .error _ => [.refused i now]
      else []
    | none => []
  | .others _ => []

end Service

/-! When agents are heard: from their registration on, for a day and a minute. -/

/-- When each agent has registered since it started. -/
abbrev Leases := Nat → Option Int

namespace Leases

def step (l : Leases) : Seen → Leases
  | .started i => Function.update l i none
  | .registered i now => Function.update l i (some now)
  | _ => l

/-- An agent registers once; its reports are taken while its lease lasts and no longer. -/
def Allows (l : Leases) : Seen → Prop
  | .started _ => True
  | .registered i _ => l i=none
  | .published i now _ => ∃ since, l i=some since ∧ now ≤ since+86460
  | .refused i now => ∃ since, l i=some since ∧ since+86460<now

end Leases

section Lifetimes

variable {jwt : Hs256} {secret : List UInt8} {pg : Postgres} {s : Fleet} {l : Leases}

/-- A token signed at a time. -/
def Signed (jwt : Hs256) (secret : List UInt8) (since : Int) (token : String) : Prop :=
  ∃ claims, claims.exp=since+86400 ∧ jwt.encode claims secret=.ok token

/-- The token of an agent is one signed when it registered. -/
def Holds (jwt : Hs256) (secret : List UInt8) (a : Agent) (since : Option Int) : Prop :=
  match a.transport.token with
  | none => since=none
  | some token => ∃ t, since=some t ∧ Signed jwt secret t token

/-- The leases are those of the agents. -/
def Leased (jwt : Hs256) (secret : List UInt8) (s : Fleet) (l : Leases) : Prop :=
  ∀ i a, s.agents i=some a → Holds jwt secret a (l i)

theorem metadataValue_visible {text : String}
    (h : ∀ c ∈ text.toList, 32 ≤ c.toNat ∧ c.toNat<127) : metadataValue text=some text := by
  apply if_pos
  rw [List.all_eq_true]
  intro c hc
  obtain ⟨hlow,hhigh⟩ := h c hc
  have hne : c.toNat≠127 := by omega
  simp [hlow,hne]

theorem headerText_visible {text : String}
    (h : ∀ c ∈ text.toList, 32 ≤ c.toNat ∧ c.toNat<127) : headerText text=some text := by
  apply if_pos
  rw [List.all_eq_true]
  intro c hc
  obtain ⟨hlow,hhigh⟩ := h c hc
  simp [hlow,hhigh]

/-- The header of an agent with such a token arrives as it was sent. -/
theorem authorization_signed {a : Agent} {since : Int} {token : String}
    (htoken : a.transport.token=some token) (h : Signed jwt secret since token) :
    a.transport.authorization.bind headerText=some ("Bearer "++token) := by
  obtain ⟨claims,-,hencode⟩ := h
  obtain ⟨-,hvisible⟩ := jwt.encode_visible claims secret token hencode
  have htext : ∀ c ∈ ("Bearer "++token).toList, 32 ≤ c.toNat ∧ c.toNat<127 := by
    intro c hc
    rw [String.toList_append] at hc
    rcases List.mem_append.mp hc with hscheme|hrest
    · have hall : "Bearer ".toList.all (fun c => 32 ≤ c.toNat && c.toNat<127)=true := by
        decide +kernel
      simpa using List.all_eq_true.mp hall c hscheme
    · exact hvisible c hrest
  unfold AgentTransport.authorization
  rw [htoken,Option.bind_some,metadataValue_visible htext,Option.bind_some,headerText_visible htext]

/-- While its lease lasts, what an agent reports is published. -/
theorem checkedIn_leased {a : Agent} {since now : Int} {token : String}
    (htoken : a.transport.token=some token) (h : Signed jwt secret since token)
    (hnow : now ≤ since+86460) (c : Checkup) (w : World) :
    a.checkedIn jwt.toJsonWebToken secret c now w=.ok (postureReport (a.report c) now,
      ackAction (w.endpoints.findByAgentId a.transport.deviceId)) := by
  unfold Agent.checkedIn
  rw [authorization_signed htoken h]
  obtain ⟨claims,hexp,hencode⟩ := h
  have hvalid : verifyToken jwt.toJsonWebToken now token secret=.ok claims :=
    jwt.decode_granted claims secret token now hencode (by omega)
  exact handleReport_valid jwt.toJsonWebToken (bearerToken_bearer token) hvalid (a.report c) _

theorem checkedIn_expired {a : Agent} {since now : Int} {token : String}
    (htoken : a.transport.token=some token) (h : Signed jwt secret since token)
    (hnow : since+86460<now) (c : Checkup) (w : World) :
    a.checkedIn jwt.toJsonWebToken secret c now w=.error ⟨"invalid or expired token"⟩ := by
  unfold Agent.checkedIn
  rw [authorization_signed htoken h]
  obtain ⟨claims,hexp,hencode⟩ := h
  obtain ⟨e,hexpired⟩ := jwt.decode_expired claims secret token now hencode (by omega)
  have hinvalid : verifyToken jwt.toJsonWebToken now token secret=.error e := hexpired
  simp only [handleReport,reportStatus,bearerToken_bearer,hinvalid,Except.toBool]
  rfl

/-- What an agent hears of a registration is a token signed at that time. -/
theorem heard_signed {a : Agent} {fails : Call → Bool} {remoteIp : Option String}
    {answered : Bool} {now : Int} {w : World} {token : String}
    (h : a.heard jwt.toJsonWebToken secret pg fails remoteIp answered now w=.ok token) :
    Signed jwt secret now token := by
  unfold Agent.heard at h
  split at h
  · unfold registerResponse at h
    split at h
    · split at h
      · next token' hsign =>
        cases h
        exact ⟨_,rfl,hsign⟩
      · cases h
    · cases h
  · cases h

/-- A registration that comes to its end leaves the agent with its token. -/
theorem register_ok {t : AgentTransport} {resp : Except String String} {token : String}
    (h : (t.register resp).1=.ok token) :
    resp=.ok token ∧ (t.register resp).2={ t with token := some token } := by
  unfold AgentTransport.register at h ⊢
  cases resp with
  | error e => cases h
  | ok token' =>
    dsimp only at h ⊢
    split at h
    · cases h
    · next hne =>
      cases h
      rw [if_neg hne]
      exact ⟨rfl,rfl⟩

theorem register_error {t : AgentTransport} {resp : Except String String} {e : String}
    (h : (t.register resp).1=.error e) : (t.register resp).2=t := by
  unfold AgentTransport.register at h ⊢
  cases resp with
  | error e => rfl
  | ok token =>
    dsimp only at h ⊢
    split at h
    · next hempty => rw [if_pos hempty]
    · cases h

/-- An agent put in place of another. -/
theorem Leased.update (h : Leased jwt secret s l) (i : Nat) {a : Agent} {since : Option Int}
    (ha : Holds jwt secret a since) (w : World) (published : List PostureReport) :
    Leased jwt secret ⟨Function.update s.agents i (some a),w,published⟩
      (Function.update l i since) := by
  intro j b hb
  change Function.update s.agents i (some a) j=some b at hb
  by_cases hj : j=i
  · subst hj
    rw [Function.update_self] at hb ⊢
    cases hb
    exact ha
  · rw [Function.update_of_ne hj] at hb ⊢
    exact h j b hb

/-- One step: what is seen of it is allowed by the leases, which it leaves those of the agents. -/
theorem Leased.step (h : Leased jwt secret s l) (x : FleetStep) :
    Leased jwt secret (s.step jwt.toJsonWebToken secret pg x)
      (runs Leases.step l (s.seen jwt.toJsonWebToken secret pg x)) ∧
    Guarded Leases.step Leases.Allows l (s.seen jwt.toJsonWebToken secret pg x) := by
  cases x with
  | start i deviceId sys =>
    have hfresh : Holds jwt secret ⟨.connect deviceId,sys⟩ none := rfl
    exact ⟨h.update i hfresh s.world s.published,trivial,trivial⟩
  | register i now remoteIp fails answered =>
    cases ha : s.agents i with
    | none =>
      simp only [Fleet.step,Fleet.seen,ha]
      exact ⟨h,trivial⟩
    | some a =>
      cases htoken : a.transport.token with
      | some token =>
        simp only [Fleet.step,Fleet.seen,ha,htoken,Option.isSome_some,if_true]
        exact ⟨h,trivial⟩
      | none =>
        have hnone : l i=none := by
          have hholds := h i a ha
          rwa [Holds,htoken] at hholds
        simp only [Fleet.step,Fleet.seen,ha,htoken,Option.isSome_none,Bool.false_eq_true,if_false]
        cases hresp : (a.transport.register
            (a.heard jwt.toJsonWebToken secret pg fails remoteIp answered now s.world)).1 with
        | ok token =>
          obtain ⟨hheard,htransport⟩ := register_ok hresp
          rw [htransport]
          have hgiven : Holds jwt secret
              { a with transport := { a.transport with token := some token } } (some now) :=
            ⟨now,rfl,heard_signed hheard⟩
          exact ⟨h.update i hgiven _ s.published,hnone,trivial⟩
        | error e =>
          rw [register_error hresp]
          refine ⟨?_,trivial⟩
          have hsame := h.update i (h i a ha) (registerResponse jwt.toJsonWebToken secret pg fails
            remoteIp (startRequest a.transport.deviceId a.sys) now s.world).2 s.published
          rwa [Function.update_eq_self] at hsame
  | checkIn i now c arrives =>
    cases ha : s.agents i with
    | none =>
      simp only [Fleet.step,Fleet.seen,ha]
      exact ⟨h,trivial⟩
    | some a =>
      cases htoken : a.transport.token with
      | none =>
        simp only [Fleet.step,Fleet.seen,ha,htoken,Option.isSome_none,Bool.false_and,
          Bool.false_eq_true,if_false]
        exact ⟨h,trivial⟩
      | some token =>
        cases arrives with
        | false =>
          simp only [Fleet.step,Fleet.seen,ha,htoken,Bool.and_false,Bool.false_eq_true,if_false]
          exact ⟨h,trivial⟩
        | true =>
          have hholds := h i a ha
          rw [Holds,htoken] at hholds
          obtain ⟨since,hsince,hsigned⟩ := hholds
          simp only [Fleet.step,Fleet.seen,ha,htoken,Option.isSome_some,Bool.and_true,if_true]
          by_cases hnow : now ≤ since+86460
          · rw [checkedIn_leased htoken hsigned hnow]
            exact ⟨h,⟨since,hsince,hnow⟩,trivial⟩
          · rw [checkedIn_expired htoken hsigned (by omega)]
            exact ⟨h,⟨since,hsince,by omega⟩,trivial⟩
  | others change => exact ⟨h,trivial⟩

end Lifetimes

/-- The crate on one token. -/
def sampleHs256 : Hs256 where
  toJsonWebToken := sampleJwt
  encode_visible claims secret token h := by
    simp only [sampleJwt] at h
    split at h
    · cases h
      have hall : (sampleToken.toList.all fun c => 32 ≤ c.toNat && c.toNat<127)=true := by
        decide +kernel
      refine ⟨by decide +kernel,?_⟩
      intro c hc
      simpa using List.all_eq_true.mp hall c hc
    · cases h
  decode_granted claims secret token now h hnow := by
    simp only [sampleJwt] at h ⊢
    split at h
    · next hsample =>
      obtain ⟨rfl,rfl⟩ := hsample
      cases h
      rw [if_pos ⟨rfl,rfl⟩,if_pos hnow]
    · cases h
  decode_expired claims secret token now h hnow := by
    simp only [sampleJwt] at h ⊢
    split at h
    · next hsample =>
      obtain ⟨rfl,rfl⟩ := hsample
      cases h
      rw [if_pos ⟨rfl,rfl⟩,if_neg (by omega)]
      exact ⟨_,rfl⟩
    · cases h

def idle : Checkup := ⟨[],false,false,false⟩

def firstDay : List FleetStep :=
  [.start 0 "device-a" ⟨"pc-7","Linux","6.1","0.1.0",""⟩,
    .register 0 1700000000 none (fun _ => false) true,
    .checkIn 0 1700086460 idle true,.checkIn 0 1700086461 idle true]

example : (trace (Fleet.step sampleHs256.toJsonWebToken sampleSecret .plain)
    (Fleet.seen sampleHs256.toJsonWebToken sampleSecret .plain) (.initial (.initial [])) firstDay)=
      [.started 0,.registered 0 1700000000,.published 0 1700086460
        ⟨"device-a","Linux","6.1",[],[],false,false,false,1700086460⟩,.refused 0 1700086461] := by
  decide +kernel

end NacPlatform.EndpointAgent
