import NacPlatform.Aaa.PortalRedirect
import NacPlatform.PolicyManager.Accounts
import NacPlatform.PolicyManager.UserNames

namespace NacPlatform.Aaa

open NacAuth (Argon2 localAuthenticate LocalAuthError)
open Users (Account Administration Represents UserEvent)

/-- The accounts of the database as the portal is told of them. -/
def localIdentity : Except LocalAuthError NacAuth.UserIdentity → Except String UserIdentity
  | .ok identity => .ok ⟨identity.username,identity.groups⟩
  | .error e => .error e.message

/-- A form that is sent to the portal, with what its handling meets. -/
structure LoginAttempt where
  form : LoginForm
  clientIp : String
  now : Int
  server : UserServer
  signToken : NacClaims → Except String String
  defaultMac : Option String

/-- A portal without a directory. -/
def LoginAttempt.portal (argon : Argon2) (a : LoginAttempt) (t : UserTable) : PortalState where
  ldap := none
  localAuth username password :=
    localIdentity ((localAuthenticate argon username password).run (UserCall.exec a.server) t).1
  signToken := a.signToken
  defaultMac := a.defaultMac

/-- The accounts, the responses that the portal has published, and the handlers at work on the
tables. -/
structure Site where
  accounts : Administration
  published : List AuthResponseEvent
  pool : Pool Nat World ReconcileCall ReconcileCall.Reply DbError

/-- What happens next: a request about the accounts, a login, a response or another job that a task
takes up, or one call of one task, of which any may fail. -/
inductive SiteStep where
  | account (e : UserEvent)
  | login (a : LoginAttempt)
  | deliver (task index : Nat)
  | start (task : Nat) (job : Job)
  | advance (task : Nat) (ipRules : List IpRuleRow) (fails : ReconcileCall → Bool)

namespace Site

variable (argon : Argon2) (pg : Postgres) (rt : Runtime) (uuid : String → Option Uuid)

def initial (policies : List PolicyRow) : Site where
  accounts := .initial
  published := []
  pool := ⟨World.initial policies,fun _ => pure ()⟩

/-- The response that a login publishes, if it does. -/
def response (s : Site) (a : LoginAttempt) : Option AuthResponseEvent :=
  match (handleLogin (a.portal argon s.accounts.table) a.now a.clientIp a.form).run
      (Call.exec pg) s.pool.shared with
  | (.ok (event,_),_) => event
  | _ => none

def step (s : Site) : SiteStep → Site
  | .account e => {s with accounts := s.accounts.step argon e}
  | .login a => {s with published := s.published++(s.response argon pg a).toList}
  | .deliver task index =>
    match s.published[index]?.bind (readEvent uuid) with
    | some resp =>
      {s with pool := s.pool.start task (detached (SessionHandler.processAuthResponse rt resp))}
    | none => s
  | .start task job => {s with pool := s.pool.start task (job.handler rt)}
  | .advance task ipRules fails =>
    {s with pool := s.pool.advance (ReconcileCall.execFaulty pg ipRules fails) task}

end Site

section

variable (argon : Argon2) (pg : Postgres) (rt : Runtime) (uuid : String → Option Uuid)

/-- A name of a response that lets its user in. -/
def Announced (events : List AuthResponseEvent) (u : String) : Prop :=
  ∃ event ∈ events, event.success=true ∧ event.username=some u

theorem Announced.mono {events more : List AuthResponseEvent} {u : String}
    (h : Announced events u) : Announced (events++more) u := by
  obtain ⟨event,hmem,hs,hu⟩ := h
  exact ⟨event,List.mem_append_left more hmem,hs,hu⟩

end

end NacPlatform.Aaa
