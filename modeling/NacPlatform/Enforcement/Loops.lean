import NacPlatform.Enforcement.Consumer

namespace NacPlatform.Enforcement

section Loops

variable (rt : Runtime) (ipt : Backend)

/-- The reinforcement of the entries a tick has taken out of the state: each is applied again as
it was, an error is logged and the next one follows. -/
def reinforceEntries : List (String × QuarantineEntry) → EnfProc Unit
  | [] => pure ()
  | (mac,entry)::entries => do
    let _ ← (treat rt ipt entry.action mac (some entry.victimIp.text)).attempt
    reinforceEntries entries

/-- One tick of the reinforcement loop (every 60 s). -/
def reinforcePass : EnfProc Unit := do
  let entries ← stateSnapshot
  reinforceEntries rt ipt entries

/-- The poisoning of the entries a tick has taken out of the state, through the gateway of now if
there is one. -/
def repoisonEntries (myMac : MacAddr) (currentGw : Option Ipv4Addr) :
    List (String × QuarantineEntry) → EnfProc Unit
  | [] => pure ()
  | (_,entry)::entries => do
    let gw := currentGw.getD entry.gatewayIp
    let _ ← (spoof entry.action myMac entry.victimIp entry.victimMac gw).attempt
    repoisonEntries myMac currentGw entries

/-- The rest of a re-poison tick, for the entries it has taken out of the state. -/
def repoisonRest (entries : List (String × QuarantineEntry)) : EnfProc Unit :=
  if entries.isEmpty then pure ()
  else do
    match ← lockSpoofer with
    | none => pure ()
    | some myMac => do
      let currentGw ← detectGateway
      repoisonEntries myMac currentGw entries

/-- One tick of the re-poison loop (every 30 s). -/
def repoisonPass : EnfProc Unit := do
  let entries ← stateSnapshot
  repoisonRest entries

end Loops

end NacPlatform.Enforcement
