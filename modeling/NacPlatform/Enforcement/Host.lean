import NacPlatform.Framework.Proc
import NacPlatform.Enforcement.ProcNet
import NacPlatform.Platform.Runtime
import NacPlatform.Platform.Bus
import Mathlib.Data.Finset.Basic
import Mathlib.Data.List.AList

namespace NacPlatform.Enforcement

/-- A device under block or quarantine, as the re-poison loop needs it. -/
structure QuarantineEntry where
  victimIp : Ipv4Addr
  victimMac : MacAddr
  gatewayIp : Ipv4Addr
  action : NacAction
  deriving DecidableEq, Repr

/-- `HashMap<String, QuarantineEntry>`, keyed by the lower-cased MAC string of the command. -/
abbrev QuarantineState := AList fun _ : String => QuarantineEntry

/-- The sets of `table inet nac_filter` that commands change. -/
inductive NftSet where
  | blockedMacs
  | quarantinedMacs
  | blockedIps
  | quarantinedIps
  deriving DecidableEq, Repr

inductive NftVerb where
  | add
  | delete
  deriving DecidableEq, Repr

inductive Chain where
  | nacBlock
  | nacQuarantine
  deriving DecidableEq, Repr

inductive IptTarget where
  | drop
  | return
  deriving DecidableEq, Repr

inductive IptProto where
  | udp
  | tcp
  deriving DecidableEq, Repr

/-- A rule `-m mac --mac-source .. [-p .. --dport ..] -j ..` of a NAC chain. -/
structure IptRule where
  macSource : String
  dport : Option (IptProto × Nat)
  target : IptTarget
  deriving DecidableEq, Repr

/-- An ARP reply on the wire: `senderMac` is Ethernet source and sender hardware address. -/
structure ArpFrame where
  dst : MacAddr
  senderMac : MacAddr
  senderIp : Ipv4Addr
  targetMac : MacAddr
  targetIp : Ipv4Addr
  deriving DecidableEq, Repr

/-- Whether a frame redirects its receiver to the spoofer or undoes that. -/
inductive FrameKind where
  | poison
  | restore
  deriving DecidableEq, Repr

inductive EnforceError where
  | nft (verb : NftVerb) (set : NftSet) (elem : String)
  | iptables (chain : Chain) (rule : IptRule)
  | sendFrame
  deriving DecidableEq, Repr

/-- The operations on shared state and on the operating system: each access to the quarantine
state under its lock, each firewall command, each look into a kernel table and each frame sent is
one. -/
inductive EnfOp where
  | nft (verb : NftVerb) (set : NftSet) (elem : String)
  | iptCheck (chain : Chain) (rule : IptRule)
  | iptInsert (chain : Chain) (rule : IptRule)
  | iptAppend (chain : Chain) (rule : IptRule)
  | iptDeleteLoop (chain : Chain) (rule : IptRule)
  | stateGet (key : String)
  | stateInsert (key : String) (entry : QuarantineEntry)
  | stateRemove (key : String)
  | stateSnapshot
  | detectGateway
  | arpLookup (ip : Ipv4Addr)
  | lockSpoofer
  | sendFrame (kind : FrameKind) (frame : ArpFrame)

@[reducible] def EnfOp.Reply : EnfOp → Type
  | .nft .. => Except EnforceError Unit
  | .iptCheck .. => Bool
  | .iptInsert .. => Except EnforceError Unit
  | .iptAppend .. => Except EnforceError Unit
  | .iptDeleteLoop .. => Unit
  | .stateGet _ => Option QuarantineEntry
  | .stateInsert .. => Unit
  | .stateRemove _ => Option QuarantineEntry
  | .stateSnapshot => List (String × QuarantineEntry)
  | .detectGateway => Option Ipv4Addr
  | .arpLookup _ => Option MacAddr
  | .lockSpoofer => Option MacAddr
  | .sendFrame .. => Except EnforceError Unit

abbrev EnfProc := Proc EnfOp EnfOp.Reply EnforceError

/-- What the operating system answers while a handler runs: the contents of `/proc/net/route`
and `/proc/net/arp`, which commands and which frames fail, and the order in which the hash map
is walked. -/
structure Env where
  route : Option String
  arp : Option String
  nftFails : NftVerb → NftSet → String → Bool
  iptFails : Chain → IptRule → Bool
  sendFails : ArpFrame → Bool
  walk : List (String × QuarantineEntry) → List (String × QuarantineEntry)
  walk_perm : ∀ l, (walk l).Perm l

/-- A system on which nothing fails. -/
def Env.calm (route arp : Option String) : Env where
  route := route
  arp := arp
  nftFails _ _ _ := false
  iptFails _ _ := false
  sendFails _ := false
  walk := id
  walk_perm _ := .refl _

/-- The state the tasks of the service share, with the kernel's NAC sets and chains and the
frames sent so far, oldest first. -/
structure Host where
  sets : NftSet → Finset String
  chains : Chain → List IptRule
  state : QuarantineState
  spoofer : Option MacAddr
  frames : List (FrameKind × ArpFrame)

/-- The service as it starts, with or without a working ARP spoofer. -/
def Host.empty (spoofer : Option MacAddr) : Host where
  sets _ := ∅
  chains _ := []
  state := ∅
  spoofer := spoofer
  frames := []

/-- The live entries, in no particular order. -/
def Host.entries (h : Host) : List (String × QuarantineEntry) :=
  h.state.entries.map fun e => (e.1,e.2)

def Host.setNft (h : Host) (set : NftSet) (elems : Finset String) : Host :=
  { h with sets := Function.update h.sets set elems }

def Host.setChain (h : Host) (chain : Chain) (rules : List IptRule) : Host :=
  { h with chains := Function.update h.chains chain rules }

/-- `while run_ipt(["-D", ..]).is_ok() {}`: deletes the first match until none is left. -/
def deleteLoop (rule : IptRule) (rules : List IptRule) : List IptRule :=
  if rule ∈ rules then deleteLoop rule (rules.erase rule) else rules
termination_by rules.length
decreasing_by
  rename_i hr
  have hp := List.length_pos_of_mem hr
  rw [List.length_erase_of_mem hr]
  omega

/-- A command on an nft element changes the set it names and no other; deleting an element that
is not there is no error. -/
def execNft (env : Env) (verb : NftVerb) (set : NftSet) (elem : String) (h : Host) :
    Except EnforceError Unit × Host :=
  if env.nftFails verb set elem then (.error (.nft verb set elem),h)
  else
    match verb with
    | .add => (.ok (),h.setNft set (insert elem (h.sets set)))
    | .delete => (.ok (),h.setNft set ((h.sets set).erase elem))

def execIpt (env : Env) (chain : Chain) (rule : IptRule) (rules : List IptRule) (h : Host) :
    Except EnforceError Unit × Host :=
  if env.iptFails chain rule then (.error (.iptables chain rule),h)
  else (.ok (),h.setChain chain rules)

def exec (env : Env) : (op : EnfOp) → Host → op.Reply × Host
  | .nft verb set elem, h => execNft env verb set elem h
  | .iptCheck chain rule, h => (!env.iptFails chain rule && rule ∈ h.chains chain,h)
  | .iptInsert chain rule, h => execIpt env chain rule (rule::h.chains chain) h
  | .iptAppend chain rule, h => execIpt env chain rule (h.chains chain++[rule]) h
  | .iptDeleteLoop chain rule, h =>
    ((),if env.iptFails chain rule then h
      else h.setChain chain (deleteLoop rule (h.chains chain)))
  | .stateGet key, h => (h.state.lookup key,h)
  | .stateInsert key entry, h => ((),{ h with state := h.state.insert key entry })
  | .stateRemove key, h => (h.state.lookup key,{ h with state := h.state.erase key })
  | .stateSnapshot, h => (env.walk h.entries,h)
  | .detectGateway, h => (env.route.bind detectDefaultGateway,h)
  | .arpLookup ip, h => (env.arp.bind fun content => getArpMac content ip,h)
  | .lockSpoofer, h => (h.spoofer,h)
  | .sendFrame kind frame, h =>
    if env.sendFails frame then (.error .sendFrame,h)
    else (.ok (),{ h with frames := h.frames++[(kind,frame)] })

/-! The operations as a handler calls them. `tryNft` is a call whose error the caller looks at,
`nft` one whose error ends the handler. -/

def tryNft (verb : NftVerb) (set : NftSet) (elem : String) :
    EnfProc (Except EnforceError Unit) :=
  .perform (EnfOp.nft verb set elem)

def nft (verb : NftVerb) (set : NftSet) (elem : String) : EnfProc Unit :=
  .performOrFail (EnfOp.nft verb set elem) id

def iptCheck (chain : Chain) (rule : IptRule) : EnfProc Bool := .perform (EnfOp.iptCheck chain rule)

def iptInsert (chain : Chain) (rule : IptRule) : EnfProc Unit :=
  .performOrFail (EnfOp.iptInsert chain rule) id

def iptAppend (chain : Chain) (rule : IptRule) : EnfProc Unit :=
  .performOrFail (EnfOp.iptAppend chain rule) id

def iptDeleteLoop (chain : Chain) (rule : IptRule) : EnfProc Unit :=
  .perform (EnfOp.iptDeleteLoop chain rule)

def stateGet (key : String) : EnfProc (Option QuarantineEntry) := .perform (EnfOp.stateGet key)

def stateInsert (key : String) (entry : QuarantineEntry) : EnfProc Unit :=
  .perform (EnfOp.stateInsert key entry)

def stateRemove (key : String) : EnfProc (Option QuarantineEntry) :=
  .perform (EnfOp.stateRemove key)

def stateSnapshot : EnfProc (List (String × QuarantineEntry)) := .perform EnfOp.stateSnapshot

/-- The gateway of the default route. -/
def detectGateway : EnfProc (Option Ipv4Addr) := .perform EnfOp.detectGateway

def arpLookup (ip : Ipv4Addr) : EnfProc (Option MacAddr) := .perform (EnfOp.arpLookup ip)

def lockSpoofer : EnfProc (Option MacAddr) := .perform EnfOp.lockSpoofer

def sendFrame (kind : FrameKind) (frame : ArpFrame) : EnfProc Unit :=
  .performOrFail (EnfOp.sendFrame kind frame) id

@[simp] theorem setNft_sets (h : Host) (set : NftSet) (elems : Finset String) :
    (h.setNft set elems).sets=Function.update h.sets set elems := rfl

@[simp] theorem setNft_state (h : Host) (set : NftSet) (elems : Finset String) :
    (h.setNft set elems).state=h.state := rfl

@[simp] theorem setNft_frames (h : Host) (set : NftSet) (elems : Finset String) :
    (h.setNft set elems).frames=h.frames := rfl

@[simp] theorem setNft_spoofer (h : Host) (set : NftSet) (elems : Finset String) :
    (h.setNft set elems).spoofer=h.spoofer := rfl

theorem mem_entries {h : Host} {key : String} {entry : QuarantineEntry} :
    (key,entry) ∈ h.entries ↔ h.state.lookup key=some entry := by
  rw [← Option.mem_def,AList.mem_lookup_iff]
  simp [Host.entries]

end NacPlatform.Enforcement
