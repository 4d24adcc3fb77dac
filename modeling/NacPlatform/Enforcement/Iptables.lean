import NacPlatform.Enforcement.Host

namespace NacPlatform

namespace NacAction

def other : NacAction → NacAction
  | .block => .quarantine
  | .quarantine => .block

end NacAction

namespace Enforcement

/-- The firewall tool found at start. -/
inductive Backend where
  | nft
  | iptablesLegacy
  | unavailable
  deriving DecidableEq, Repr

def macSet : NacAction → NftSet
  | .block => .blockedMacs
  | .quarantine => .quarantinedMacs

def ipSet : NacAction → NftSet
  | .block => .blockedIps
  | .quarantine => .quarantinedIps

/-- Digits taken two at a time, joined by colons. -/
def colonPairs : List Char → List Char
  | a::b::c::cs => a::b:: ':'::colonPairs (c::cs)
  | cs => cs

section Firewall

variable (rt : Runtime)

/-- nftables form of a MAC: lower case, separated by colons. -/
def nftMac (mac : String) : String :=
  let clean := hexDigits mac
  if clean.length=12 then String.ofList (colonPairs (clean.map Char.toLower))
  else rt.toLowercase mac

/-- iptables form of a MAC: upper case, separated by colons. -/
def iptMac (mac : String) : String :=
  let clean := hexDigits mac
  if clean.length=12 then String.ofList (colonPairs (clean.map Char.toUpper))
  else rt.toUppercase mac

/-- An address that an IP set can hold: neither empty nor unspecified. -/
def usableIp (ip : String) : Bool := ip != "" && ip != "0.0.0.0"

/-- Moves an address, if there is one, from the IP set of the other action to that of `action`. -/
def nftMoveIp (action : NacAction) (ip : Option String) : EnfProc Unit :=
  match ip.filter usableIp with
  | some ip => do
    let _ ← tryNft .delete (ipSet action.other) ip
    let _ ← tryNft .add (ipSet action) ip
  | none => pure ()

/-- Moves a device to the sets of one action: out of the other MAC set, into its own, and the
same for the address if there is one. Only a failed insertion of the MAC is an error. -/
def nftTreat (action : NacAction) (mac : String) (ip : Option String) : EnfProc Unit := do
  let m := nftMac rt mac
  let _ ← tryNft .delete (macSet action.other) m
  nft .add (macSet action) m
  nftMoveIp action ip

def captivePort : Nat := 8080

def dropRule (mac : String) : IptRule := ⟨mac,none,.drop⟩

def dnsRule (mac : String) : IptRule := ⟨mac,some (.udp,53),.return⟩

def portalRule (mac : String) : IptRule := ⟨mac,some (.tcp,captivePort),.return⟩

def iptRemoveBlock (mac : String) : EnfProc Unit := iptDeleteLoop .nacBlock (dropRule mac)

def iptRemoveQuarantine (mac : String) : EnfProc Unit := do
  iptDeleteLoop .nacQuarantine (dnsRule mac)
  iptDeleteLoop .nacQuarantine (portalRule mac)
  iptDeleteLoop .nacQuarantine (dropRule mac)

def iptBlock (mac : String) : EnfProc Unit := do
  let mac := iptMac rt mac
  iptRemoveQuarantine mac
  if ← iptCheck .nacBlock (dropRule mac) then pure ()
  else iptInsert .nacBlock (dropRule mac)

def iptQuarantine (mac : String) : EnfProc Unit := do
  let mac := iptMac rt mac
  iptRemoveBlock mac
  if ← iptCheck .nacQuarantine (dropRule mac) then pure ()
  else do
    iptInsert .nacQuarantine (dnsRule mac)
    iptInsert .nacQuarantine (portalRule mac)
    iptAppend .nacQuarantine (dropRule mac)

def iptAllow (mac : String) : EnfProc Unit := do
  let mac := iptMac rt mac
  iptRemoveBlock mac
  iptRemoveQuarantine mac

/-- Blocks a device completely (denied). -/
def block (ipt : Backend) (mac : String) (ip : Option String) : EnfProc Unit :=
  match ipt with
  | .nft => nftTreat rt .block mac ip
  | .iptablesLegacy => iptBlock rt mac
  | .unavailable => pure ()

/-- Quarantines a device: DNS and the captive portal only. -/
def quarantine (ipt : Backend) (mac : String) (ip : Option String) : EnfProc Unit :=
  match ipt with
  | .nft => nftTreat rt .quarantine mac ip
  | .iptablesLegacy => iptQuarantine rt mac
  | .unavailable => pure ()

/-- Takes an address out of both IP sets, when a device has moved away from it. -/
def removeIp (ipt : Backend) (ip : String) : EnfProc Unit :=
  match ipt with
  | .nft => do
    let _ ← tryNft .delete .blockedIps ip
    let _ ← tryNft .delete .quarantinedIps ip
  | _ => pure ()

/-- Takes an address, if there is one, out of both IP sets. -/
def allowIp (ip : Option String) : EnfProc Unit :=
  match ip.filter usableIp with
  | some ip => removeIp .nft ip
  | none => pure ()

/-- Lets a device pass: removes every rule about it. -/
def allow (ipt : Backend) (mac : String) (ip : Option String) : EnfProc Unit :=
  match ipt with
  | .nft => do
    let m := nftMac rt mac
    let _ ← tryNft .delete .blockedMacs m
    let _ ← tryNft .delete .quarantinedMacs m
    allowIp ip
  | .iptablesLegacy => iptAllow rt mac
  | .unavailable => pure ()

/-- The firewall call an action stands for. -/
def treat (ipt : Backend) : NacAction → String → Option String → EnfProc Unit
  | .block => block rt ipt
  | .quarantine => quarantine rt ipt

@[simp] theorem treat_nft (action : NacAction) (mac : String) (ip : Option String) :
    treat rt .nft action mac ip=nftTreat rt action mac ip := by
  cases action <;> rfl

end Firewall

@[simp] theorem macSet_ne_ipSet (a b : NacAction) : macSet a≠ipSet b := by
  cases a <;> cases b <;> decide

@[simp] theorem ipSet_ne_macSet (a b : NacAction) : ipSet a≠macSet b := by
  cases a <;> cases b <;> decide

@[simp] theorem macSet_inj {a b : NacAction} : macSet a=macSet b ↔ a=b := by
  cases a <;> cases b <;> decide

@[simp] theorem ipSet_inj {a b : NacAction} : ipSet a=ipSet b ↔ a=b := by
  cases a <;> cases b <;> decide

/-- Texts that name one hardware address become one set element. -/
theorem nftMac_eq (rt : Runtime) {mac : String} {m : MacAddr}
    (h : MacAddr.ofHexDigits (hexDigits mac)=some m) : nftMac rt mac=m.text := by
  have hex : ∀ c ∈ hexDigits mac, isHexDigit c=true := fun c hc => (List.mem_filter.mp hc).2
  have hl := MacAddr.ofHexDigits_isSome.mp ⟨m,h⟩
  unfold nftMac
  rw [if_pos hl]
  generalize hexDigits mac=ds at h hl hex
  match ds,hl with
  | [a,b,c,d,e,f,g,h',i,j,k,l],_ =>
    simp only [List.mem_cons,List.not_mem_nil,or_false,forall_eq_or_imp,forall_eq] at hex
    obtain ⟨ha,hb,hc,hd,he,hf,hg,hh,hi,hj,hk,hl⟩ := hex
    simp only [MacAddr.ofHexDigits,Option.some.injEq] at h
    subst h
    simp only [MacAddr.text,MacAddr.byteText_hexByte ha hb,MacAddr.byteText_hexByte hc hd,
      MacAddr.byteText_hexByte he hf,MacAddr.byteText_hexByte hg hh,
      MacAddr.byteText_hexByte hi hj,MacAddr.byteText_hexByte hk hl]
    rfl

end Enforcement

end NacPlatform
