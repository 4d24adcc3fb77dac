import NacPlatform.Aaa.Portal
import NacPlatform.Deployment.Containment
import Mathlib.Data.List.Rotate

namespace NacPlatform

open Enforcement Aaa

/-! What a device gets to see that asks for a page while it is held: the firewall leads the request
to the portal, and the portal looks the device up by its address. -/

section Lookup

variable {pg : Postgres} {t : EndpointTable} {w : World} {row : EndpointRow} {ip : String}

end Lookup

section Runs

variable (pg : Postgres) (rt : Runtime) (policies : List PolicyRow) (spoofer : Option MacAddr)

end Runs

end NacPlatform
