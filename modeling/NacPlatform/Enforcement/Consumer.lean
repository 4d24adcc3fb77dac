import NacPlatform.Enforcement.Iptables
import NacPlatform.Enforcement.ArpSpoof
import NacPlatform.Framework.Run

namespace NacPlatform.Enforcement

/-- The hardware address a text names: its hexadecimal digits, twelve of them. -/
def parseMac (mac : String) : Option MacAddr := MacAddr.ofHexDigits (hexDigits mac)

section Commands

variable (rt : Runtime) (ipt : Backend)

/-- The key of a command's entry in the quarantine state. -/
def stateKey (cmd : EnforcementCommand) : String := rt.toLowercase cmd.macAddress

def ipOpt (cmd : EnforcementCommand) : Option String :=
  if cmd.ipAddress="" || cmd.ipAddress="0.0.0.0" then none else some cmd.ipAddress

def updateState (cmd : EnforcementCommand) (victimIp : Ipv4Addr) (victimMac : MacAddr)
    (gatewayIp : Ipv4Addr) (action : NacAction) : EnfProc Unit :=
  stateInsert (stateKey rt cmd) ⟨victimIp,victimMac,gatewayIp,action⟩

/-- First part of `execute_command`: an entry of this MAC with another address is leaving it. -/
def releaseOldIp (cmd : EnforcementCommand) : EnfProc Unit :=
  if (ipOpt cmd).isSome then do
    match ← stateGet (stateKey rt cmd),Ipv4Addr.parse cmd.ipAddress with
    | some old,some newIp =>
      if old.victimIp=newIp then pure () else removeIp ipt old.victimIp.text
    | _,_ => pure ()
  else pure ()

/-- The command's own gateway if it names one, else the default route. -/
def commandGateway (cmd : EnforcementCommand) : EnfProc (Option Ipv4Addr) :=
  if cmd.gatewayIp != "" && cmd.gatewayIp != "0.0.0.0" then
    pure (Ipv4Addr.parse cmd.gatewayIp)
  else detectGateway

/-- Last part of `execute_command`: poison the device and remember it, where its addresses and
the gateway are known. -/
def enforceArp (cmd : EnforcementCommand) (action : NacAction) : EnfProc Unit :=
  match ipOpt cmd with
  | none => pure ()
  | some ip =>
    match Ipv4Addr.parse ip,parseMac cmd.macAddress with
    | some victimIp,some victimMac => do
      match ← commandGateway cmd with
      | none => pure ()
      | some gatewayIp => do
        match ← lockSpoofer with
        | none => updateState rt cmd victimIp victimMac gatewayIp action
        | some myMac => do
          spoof action myMac victimIp victimMac gatewayIp
          updateState rt cmd victimIp victimMac gatewayIp action
    | _,_ => pure ()

def executeCommand (cmd : EnforcementCommand) : EnfProc Unit := do
  let action := mapAction cmd.action
  releaseOldIp rt ipt cmd
  treat rt ipt action cmd.macAddress (ipOpt cmd)
  enforceArp rt cmd action

/-- The gateway the device was poisoned through, else the default route. -/
def restoreGateway : Option QuarantineEntry → EnfProc (Option Ipv4Addr)
  | some entry => pure (some entry.gatewayIp)
  | none => detectGateway

/-- The command's own gateway MAC if it names one, else the ARP cache. -/
def commandGatewayMac (cmd : EnforcementCommand) (gatewayIp : Ipv4Addr) :
    EnfProc (Option MacAddr) :=
  match cmd.gatewayMac.bind parseMac with
  | some mac => pure (some mac)
  | none => arpLookup gatewayIp

/-- Last part of `execute_allow`: what the entry does not tell is taken from the command. -/
def restoreArp (cmd : EnforcementCommand) (entry : Option QuarantineEntry) : EnfProc Unit :=
  let victimMac := (entry.map (·.victimMac)).or (parseMac cmd.macAddress)
  let victimIp := (entry.map (·.victimIp)).or (Ipv4Addr.parse cmd.ipAddress)
  match victimMac,victimIp with
  | some victimMac,some victimIp => do
    let gatewayIp := (← restoreGateway entry).getD .unspecified
    let gatewayMac := (← commandGatewayMac cmd gatewayIp).getD .broadcast
    match ← lockSpoofer with
    | some _ => spooferAllow victimIp victimMac gatewayIp gatewayMac
    | none => pure ()
  | _,_ => pure ()

def executeAllow (cmd : EnforcementCommand) : EnfProc Unit := do
  allow rt ipt cmd.macAddress (ipOpt cmd)
  let entry ← stateRemove (stateKey rt cmd)
  restoreArp cmd entry

/-- The CIDR suffix an address may come with from the database goes on receipt. -/
def received (cmd : EnforcementCommand) : EnforcementCommand :=
  { cmd with ipAddress := stripCidr cmd.ipAddress }

/-- One round of the consumer loop: the command is executed, and an error is logged and
forgotten. -/
def consume (cmd : EnforcementCommand) : EnfProc Unit := do
  let cmd := received cmd
  let _ ← (if isAllowAction cmd.action then executeAllow rt ipt cmd
    else executeCommand rt ipt cmd).attempt

/-- The host after one round of the loop, with what the operating system answered meanwhile. -/
def handle (h : Host) (c : Env × EnforcementCommand) : Host :=
  ((consume rt ipt c.2).run (exec c.1) h).2

end Commands

/-- The command, if it is for this hardware address. -/
def commandFor (c : Env × EnforcementCommand) (m : MacAddr) : Option EnforcementCommand :=
  if parseMac c.2.macAddress=some m then some c.2 else none

@[simp] theorem received_macAddress (cmd : EnforcementCommand) :
    (received cmd).macAddress=cmd.macAddress := rfl

@[simp] theorem received_action (cmd : EnforcementCommand) :
    (received cmd).action=cmd.action := rfl

@[simp] theorem stateKey_received (rt : Runtime) (cmd : EnforcementCommand) :
    stateKey rt (received cmd)=stateKey rt cmd := rfl

theorem treatment_eq_some {cmd : EnforcementCommand} {action : NacAction} :
    cmd.treatment=some action ↔ isAllowAction cmd.action=false ∧ mapAction cmd.action=action := by
  unfold EnforcementCommand.treatment
  cases isAllowAction cmd.action <;> simp

theorem treatment_eq_none {cmd : EnforcementCommand} :
    cmd.treatment=none ↔ isAllowAction cmd.action=true := by
  unfold EnforcementCommand.treatment
  cases isAllowAction cmd.action <;> simp

/-- A round is the execution of what was received: its error changes nothing. -/
theorem handle_eq (rt : Runtime) (ipt : Backend) (h : Host) (c : Env × EnforcementCommand) :
    handle rt ipt h c=
      if isAllowAction c.2.action then
        ((executeAllow rt ipt (received c.2)).run (exec c.1) h).2
      else ((executeCommand rt ipt (received c.2)).run (exec c.1) h).2 := by
  simp only [handle,consume,Proc.run_bind,Proc.run_attempt,Proc.run_pure,received_action]
  by_cases hallow : isAllowAction c.2.action=true <;> simp [hallow]

theorem ipOpt_eq (cmd : EnforcementCommand) : ipOpt cmd=(some cmd.ipAddress).filter usableIp := by
  unfold ipOpt usableIp
  by_cases h : cmd.ipAddress="" <;> by_cases h' : cmd.ipAddress="0.0.0.0" <;>
    simp [Option.filter,h,h']

end NacPlatform.Enforcement
