import NacPlatform.Framework.Address

namespace NacPlatform

/-- Why a statement fails. -/
inductive DbError where
  | unavailable
  | invalidText
  | uniqueViolation
  | checkViolation
  | conversion
  deriving DecidableEq, Repr

/-- What the services take from PostgreSQL: the casts to its address types (`none` when the text
is none), `host()`, and the order in which a scan meets the rows of a table, of which nothing is
promised. `inet s` is the text that the column then shows. -/
structure Postgres where
  macaddr : String → Option MacAddr
  inet : String → Option String
  host : String → String
  scan : {α : Type} → List α → List α
  macaddr_text : ∀ m : MacAddr, macaddr m.text=some m
  inet_text : ∀ a : Ipv4Addr, inet a.text=some (a.text++"/32")
  host_shown : ∀ a : Ipv4Addr, host (a.text++"/32")=a.text
  scan_perm : ∀ {α : Type} (rows : List α), (scan rows).Perm rows

/-- PostgreSQL on the plain notations: addresses with any separators, rows in table order. -/
def Postgres.plain : Postgres where
  macaddr s := MacAddr.ofHexDigits (hexDigits s)
  inet s :=
    (Ipv4Addr.parse (stripCidr s)).map fun a => if s=a.text then a.text++"/32" else s
  host := stripCidr
  scan rows := rows
  macaddr_text m := MacAddr.ofHexDigits_text m
  inet_text a := by simp [Ipv4Addr.parse_text]
  host_shown := stripCidr_shown
  scan_perm rows := .refl rows

end NacPlatform
