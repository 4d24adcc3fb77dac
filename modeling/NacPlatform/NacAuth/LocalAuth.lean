import NacPlatform.NacAuth.Ldap
import NacPlatform.Store.Users

namespace NacPlatform.NacAuth

/-- The argon2 crate. `hash` is the text for a salt and a password, `parse` reads such a text as
what it verifies; a hash verifies the password it was made of. -/
structure Argon2 where
  hash : String → String → Except String String
  parse : String → Except String (String → Bool)
  parse_hash : ∀ salt password text, hash salt password=.ok text →
    ∃ verifies, parse text=.ok verifies ∧ verifies password=true

/-- A hasher that keeps the password, on which a run can be followed. -/
def Argon2.plain : Argon2 where
  hash _ password := .ok password
  parse text := .ok (· == text)
  parse_hash _ password text h := by
    cases h
    exact ⟨_,rfl,beq_self_eq_true password⟩

/-- Some hash of the first password verifies the second. -/
def Argon2.Verifies (argon : Argon2) (password given : String) : Prop :=
  ∃ salt text verifies, argon.hash salt password=.ok text ∧ argon.parse text=.ok verifies ∧
    verifies given=true

/-- The errors of the local accounts; an internal one comes from the database or the hasher. -/
inductive LocalAuthError where
  | invalidCredentials
  | userNotFound (username : String)
  | internal (cause : DbError ⊕ String)
  deriving DecidableEq, Repr

/-- The text of an error. What an internal one says further is only logged. -/
def LocalAuthError.message : LocalAuthError → String
  | invalidCredentials => "invalid credentials"
  | userNotFound username => "user not found: "++username
  | internal _ => "internal error"

def hashPassword (argon : Argon2) (salt password : String) : Except LocalAuthError String :=
  (argon.hash salt password).mapError fun e => .internal (.inr e)

/-- `LocalAuth::authenticate`. -/
def localAuthenticate (argon : Argon2) (username password : String) :
    Proc UserCall UserCall.Reply LocalAuthError UserIdentity := do
  let row ← .performOrFail (.credentials username) fun r =>
    r.mapError fun e => LocalAuthError.internal (.inl e)
  match row with
  | none => .fail (.userNotFound username)
  | some (passwordHash,role) =>
    match argon.parse passwordHash with
    | .error e => .fail (.internal (.inr e))
    | .ok verifies =>
      if verifies password then return ⟨username,none,none,[role]⟩ else .fail .invalidCredentials

end NacPlatform.NacAuth
