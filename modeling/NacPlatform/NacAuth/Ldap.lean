import NacPlatform.Aaa.PortalRedirect
import NacPlatform.Framework.Proc
import NacPlatform.Platform.Runtime

namespace NacPlatform.NacAuth

structure LdapClient where
  url : String
  bindDn : String
  bindPw : String
  userBase : String
  userFilter : String

/-- The errors of the LDAP client. -/
inductive AuthError where
  | invalidCredentials
  | userNotFound (username : String)
  | ldap (message : String)
  deriving DecidableEq, Repr

structure UserIdentity where
  username : String
  displayName : Option String
  email : Option String
  groups : List String

structure SearchEntry where
  dn : String
  attrs : List (String × List String)

/-- What an operation came to, with the text it is shown as. -/
structure LdapResult where
  rc : Nat
  text : String

def LdapResult.success (r : LdapResult) : Except String Unit :=
  if r.rc=0 then .ok () else .error r.text

/-- What is asked of the directory. -/
inductive LdapCall where
  | connect (url : String)
  | simpleBind (dn password : String)
  | search (base filter : String) (attrs : List String)
  | unbind

def LdapCall.Reply : LdapCall → Type
  | .connect _ => Except String Unit
  | .simpleBind _ _ => Except String LdapResult
  | .search _ _ _ => Except String (List SearchEntry × LdapResult)
  | .unbind => Except String Unit

abbrev LdapHandler := Proc LdapCall LdapCall.Reply AuthError

/-- The placeholder of the filter, which the username takes the place of. -/
def placeholder : String := "\x7b\x7d"

/-- The filter of the search for a user. -/
def LdapClient.searchFilter (client : LdapClient) (username : String) : String :=
  String.ofList
    (Aaa.replaceText placeholder.toList username.toList 0 client.userFilter.toList)

/-- The name of the first component. That the component begins with three ASCII characters is seen
before they are cut off. -/
def extractCnFromDn (rt : Runtime) (dn : String) : String :=
  let part := trim (takeUntil ',' dn)
  if "CN=".toList.isPrefixOf (rt.toUppercase part).toList then String.ofList (part.toList.drop 3)
  else dn

/-- The first value of an attribute. -/
def SearchEntry.first (entry : SearchEntry) (attr : String) : Option String :=
  (entry.attrs.lookup attr).bind List.head?

def identity (rt : Runtime) (username : String) (entry : SearchEntry) : UserIdentity where
  username := username
  displayName := (entry.first "displayName").or (entry.first "cn")
  email := entry.first "mail"
  groups := ((entry.attrs.lookup "memberOf").map fun dns => dns.map (extractCnFromDn rt)).getD []

def authenticate (rt : Runtime) (client : LdapClient) (username password : String) :
    LdapHandler UserIdentity :=
  if password.isEmpty then .fail .invalidCredentials
  else do
    .performOrFail (.connect client.url) fun r =>
      r.mapError fun e => .ldap ("connect failed: "++e)
    .performOrFail (.simpleBind client.bindDn client.bindPw) fun r => do
      let result ← r.mapError fun e => .ldap ("service bind failed: "++e)
      result.success.mapError fun e => .ldap ("service bind error: "++e)
    let entries ← .performOrFail (.search client.userBase (client.searchFilter username)
        ["dn","cn","displayName","mail","memberOf"]) fun r => do
      let (entries,result) ← r.mapError fun e => .ldap ("search failed: "++e)
      result.success.mapError fun _ => .userNotFound username
      return entries
    match entries with
    | [] => .fail (.userNotFound username)
    | entry::_ => do
      .performOrFail (.simpleBind entry.dn password) fun r => do
        let result ← r.mapError fun e => .ldap ("user bind failed: "++e)
        result.success.mapError fun _ => .invalidCredentials
      let _ ← .perform .unbind
      return identity rt username entry

end NacPlatform.NacAuth
