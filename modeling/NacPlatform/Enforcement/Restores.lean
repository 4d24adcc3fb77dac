import NacPlatform.Enforcement.ArpTraffic

namespace NacPlatform.Enforcement

/-- What happens to a device: a command for it arrives, or the re-poison loop ticks. -/
inductive ArpStep where
  | command (cmd : EnforcementCommand)
  | repoison
  deriving DecidableEq, Repr

def ArpStep.isAllow : ArpStep → Bool
  | .command cmd => isAllowAction cmd.action
  | .repoison => false

def arpStep (rt : Runtime) (ipt : Backend) (h : Host) (s : Env × ArpStep) : Host :=
  match s.2 with
  | .command cmd => handle rt ipt h (s.1,cmd)
  | .repoison => (repoisonPass.run (exec s.1) h).2

/-- A device, and the gateways of its network with their hardware addresses. -/
structure Lan where
  device : MacAddr
  gateways : List Ipv4Addr
  real : Ipv4Addr → MacAddr
  apart : ∀ g ∈ gateways, real g≠device ∧ real g≠.broadcast

namespace Lan

variable (lan : Lan)

/-- The binding that a frame tells the device about an address, if the frame reaches it. -/
def binds (f : FrameKind × ArpFrame) (x : Ipv4Addr) : Option MacAddr :=
  if (f.2.dst=lan.device ∨ f.2.dst=.broadcast) ∧ f.2.senderIp=x then some f.2.senderMac else none

/-- What the latest reply to the device about an address says. -/
def latest (x : Ipv4Addr) (frames : List (FrameKind × ArpFrame)) : Option MacAddr :=
  lastWrite lan.binds x frames

/-- The device is told that the address is at `mac`. -/
def Bound (mac : MacAddr) (frames : List (FrameKind × ArpFrame)) (x : Ipv4Addr) : Prop :=
  ∃ f ∈ frames, lan.binds f x=some mac

/-- The ARP table knows the gateways, which are the only ones that the step finds, and a command is
for the device, whose address is not a gateway's. -/
structure Takes (s : Env × ArpStep) : Prop where
  arp : ∀ g ∈ lan.gateways, (s.1.arp.bind fun content => getArpMac content g)=some (lan.real g)
  route : ∀ g, s.1.route.bind detectDefaultGateway=some g → g ∈ lan.gateways
  mac : ∀ cmd, s.2=.command cmd → parseMac cmd.macAddress=some lan.device
  gateway : ∀ cmd, s.2=.command cmd → ∀ g, knownGateway s.1 (received cmd)=some g →
    g ∈ lan.gateways
  ip : ∀ cmd, s.2=.command cmd → ∀ x, Ipv4Addr.parse (received cmd).ipAddress=some x →
    x ∉ lan.gateways

section Steps

variable (rt : Runtime) (ipt : Backend) (myMac : MacAddr)

/-- The frame that tells the device that a gateway is here does not fail. -/
def Misleads (env : Env) (x g : Ipv4Addr) : Prop :=
  env.sendFails (craftArpReply lan.device myMac g lan.device x)=false

/-- The device is poisoned only through the gateway that the entries about it have, and is then
remembered; an allow of a device that has entries restores their gateway, and with the gateway's
own hardware address. -/
def Undoes (h : Host) (s : Env × ArpStep) : Prop :=
  match s.2 with
  | .repoison => ∀ g, s.1.route.bind detectDefaultGateway=some g →
    ∀ key entry, h.state.lookup key=some entry →
      lan.Misleads myMac s.1 entry.victimIp g → entry.gatewayIp=g
  | .command cmd =>
    if isAllowAction cmd.action then ∀ key entry, h.state.lookup key=some entry →
      restoredGateway s.1 (h.state.lookup (stateKey rt cmd))=some entry.gatewayIp ∧
        ∀ mac, cmd.gatewayMac.bind parseMac=some mac → mac=lan.real entry.gatewayIp
    else ∀ x g, (ipOpt (received cmd)).bind Ipv4Addr.parse=some x →
      knownGateway s.1 (received cmd)=some g → lan.Misleads myMac s.1 x g →
      ((firewallPart rt ipt (received cmd)).run (exec s.1) h).1=.ok () →
      (∀ key entry, h.state.lookup key=some entry → entry.gatewayIp=g) ∧
        (poisonOk s.1 myMac x lan.device g=true ∨
          ∃ key entry, h.state.lookup key=some entry)

/-- After each allow that sends a frame: whatever address the device was told to be here since the
allow before, the latest reply to the device about it gives the real hardware address. -/
def Restored (steps : List (Env × ArpStep)) : Prop :=
  ∀ pre mid s post, steps=pre++mid++s::post → (∀ t ∈ mid, t.2.isAllow=false) →
    s.2.isAllow=true →
    let before := runs (arpStep rt ipt) (.empty (some myMac)) pre
    let after := runs (arpStep rt ipt) before mid
    let restored := arpStep rt ipt after s
    restored.frames≠after.frames →
      ∀ x, lan.Bound myMac (after.frames.drop before.frames.length) x →
        lan.latest x restored.frames=some (lan.real x)

end Steps

/-- What is remembered is about the device, through a gateway. -/
structure Sane (myMac : MacAddr) (h : Host) : Prop where
  spoofer : h.spoofer=some myMac
  entry : ∀ key entry, h.state.lookup key=some entry →
    entry.victimMac=lan.device ∧ entry.gatewayIp ∈ lan.gateways ∧ entry.victimIp ∉ lan.gateways

/-- An entry about the device has this gateway. -/
def Remembers (h : Host) (g : Ipv4Addr) : Prop :=
  ∃ key entry, h.state.lookup key=some entry ∧ entry.gatewayIp=g

section Frames

variable {lan : Lan} {myMac mac : MacAddr} {env : Env} {g x : Ipv4Addr}

theorem mem_sentFrames {kind : FrameKind} {frames : List ArpFrame} {f : FrameKind × ArpFrame}
    (h : f ∈ sentFrames env kind frames) : f.2 ∈ frames ∧ env.sendFails f.2=false := by
  obtain ⟨frame,hframe,rfl⟩ := List.mem_map.mp h
  have htake := List.mem_takeWhile_imp hframe
  exact ⟨List.takeWhile_subset _ hframe,by simpa using htake⟩

theorem Takes.arpMac {s : Env × ArpStep} (hs : lan.Takes s) (hg : g ∈ lan.gateways) :
    arpMac s.1 g=lan.real g := by
  rw [Enforcement.arpMac,hs.arp g hg]
  rfl

/-- Of a poisoning the device gets the frame about the gateway only. -/
theorem bound_poison {s : Env × ArpStep} (hs : lan.Takes s) (hg : g ∈ lan.gateways)
    {victimIp : Ipv4Addr} (h : lan.Bound mac (sentFrames s.1 .poison
      (poisonFrames s.1 myMac victimIp lan.device g)) x) :
    x=g ∧ lan.Misleads myMac s.1 victimIp g := by
  obtain ⟨f,hf,hbinds⟩ := h
  obtain ⟨hmem,hsent⟩ := mem_sentFrames hf
  obtain ⟨hdevice,hbroadcast⟩ := lan.apart g hg
  unfold binds at hbinds
  split at hbinds
  · next hreach =>
    simp only [poisonFrames,List.mem_cons,List.not_mem_nil,or_false] at hmem
    rcases hmem with hframe | hframe
    · rw [hframe] at hreach hsent
      exact ⟨hreach.2.symm,hsent⟩
    · rw [hframe,hs.arpMac hg] at hreach
      exact absurd hreach.1 (not_or.mpr ⟨hdevice,hbroadcast⟩)
  · cases hbinds

/-- The first frame of an allow is the last one that the device gets about the gateway. -/
theorem latest_restore (hx : x ∈ lan.gateways) {victimIp : Ipv4Addr} (hip : victimIp≠x)
    (hsent : sentFrames env .restore (restoreFrames victimIp lan.device x (lan.real x))≠[]) :
    lan.latest x (sentFrames env .restore (restoreFrames victimIp lan.device x (lan.real x)))=
      some (lan.real x) := by
  obtain ⟨hdevice,hbroadcast⟩ := lan.apart x hx
  have first : env.sendFails (craftArpReply lan.device (lan.real x) x lan.device victimIp)=
      false := by
    by_contra hfails
    simp [sentFrames,restoreFrames,hfails] at hsent
  rw [latest,sentFrames,restoreFrames,List.takeWhile_cons,if_pos (by rw [first]; rfl),
    List.map_cons,lastWrite,lastWrite_eq_none.mpr]
  · simp [binds,craftArpReply]
  · intro f hf
    obtain ⟨frame,hframe,rfl⟩ := List.mem_map.mp hf
    have hmem := List.takeWhile_subset _ hframe
    simp only [List.mem_cons,List.not_mem_nil,or_false] at hmem
    rcases hmem with rfl | rfl
    · exact if_neg fun hreach => not_or.mpr ⟨hdevice,hbroadcast⟩ hreach.1
    · exact if_neg fun hreach => hip hreach.2

end Frames

section Runs

variable {lan : Lan} {rt : Runtime} {ipt : Backend} {myMac : MacAddr} {h : Host}
  {s : Env × ArpStep}

/-- What a command other than an allow does on the ARP side. -/
theorem arpStep_command {cmd : EnforcementCommand} (hs : s.2=.command cmd)
    (ha : isAllowAction cmd.action=false) :
    arpStep rt ipt h s=((executeCommand rt ipt (received cmd)).run (exec s.1) h).2 := by
  rw [arpStep,hs]
  simp only [handle_eq,ha,Bool.false_eq_true,if_false]

theorem arpStep_allow {cmd : EnforcementCommand} (hs : s.2=.command cmd)
    (ha : isAllowAction cmd.action=true) :
    arpStep rt ipt h s=((executeAllow rt ipt (received cmd)).run (exec s.1) h).2 := by
  rw [arpStep,hs]
  simp only [handle_eq,ha,if_true]

theorem arpStep_spoofer (h : Host) (s : Env × ArpStep) :
    (arpStep rt ipt h s).spoofer=h.spoofer := by
  unfold arpStep
  split
  · exact run_spoofer ..
  · exact run_spoofer ..

/-- The entry that a poisoning leaves is about the device. -/
theorem Sane.step (hsane : lan.Sane myMac h) (hs : lan.Takes s) :
    lan.Sane myMac (arpStep rt ipt h s) := by
  refine ⟨(arpStep_spoofer h s).trans hsane.spoofer,?_⟩
  cases hstep : s.2 with
  | repoison =>
    intro key entry hl
    rw [arpStep,hstep] at hl
    simp only [repoisonPass_send s.1 hsane.spoofer] at hl
    exact hsane.entry key entry hl
  | command cmd =>
    cases ha : isAllowAction cmd.action with
    | true =>
      have side := executeAllow_arpSide rt s.1 ipt hsane.spoofer (received cmd)
      rw [← arpStep_allow hstep ha] at side
      intro key entry hl
      rw [(Prod.mk.inj side).2] at hl
      exact hsane.entry key entry (lookup_erase_eq.mp hl).2
    | false =>
      have side := executeCommand_poisons rt s.1 ipt hsane.spoofer (received cmd)
      rw [← arpStep_command hstep ha] at side
      intro key entry hl
      rcases side with same | ⟨-,same | ⟨x,v,g,hip,hmac,hgw,-,hstate⟩⟩
      · rw [(Prod.mk.inj same).2] at hl
        exact hsane.entry key entry hl
      · rw [(Prod.mk.inj same).2] at hl
        exact hsane.entry key entry hl
      · rw [hstate] at hl
        split at hl
        · rw [lookup_insert_eq] at hl
          split at hl
          · obtain rfl := hl
            obtain ⟨ip,hipo,hparse⟩ := Option.bind_eq_some_iff.mp hip
            rw [ipOpt_eq,Option.filter_eq_some_iff] at hipo
            obtain rfl := Option.some.inj hipo.1
            have hdev : v=lan.device := Option.some.inj (hmac.symm.trans (hs.mac cmd hstep))
            exact ⟨hdev,hs.gateway cmd hstep g hgw,hs.ip cmd hstep x hparse⟩
          · exact hsane.entry key entry hl
        · exact hsane.entry key entry hl

theorem Remembers.of_state {h' : Host} (hstate : h'.state=h.state) {x : Ipv4Addr}
    (hx : Remembers h x) : Remembers h' x := by
  rw [Remembers,hstate]
  exact hx

/-- A tick tells the device of no gateway but that of its entry. -/
theorem repoison_remembers (hsane : lan.Sane myMac h) (hs : lan.Takes s)
    (hok : ∀ g, s.1.route.bind detectDefaultGateway=some g →
      ∀ key entry, h.state.lookup key=some entry →
        lan.Misleads myMac s.1 entry.victimIp g → entry.gatewayIp=g) {x : Ipv4Addr}
    (hx : lan.Bound myMac ((s.1.walk h.entries).flatMap fun e => sentFrames s.1 .poison
      (poisonFrames s.1 myMac e.2.victimIp e.2.victimMac
        ((s.1.route.bind detectDefaultGateway).getD e.2.gatewayIp))) x) : Remembers h x := by
  obtain ⟨f,hf,hbinds⟩ := hx
  obtain ⟨⟨key,entry⟩,he,hf⟩ := List.mem_flatMap.mp hf
  have hl : h.state.lookup key=some entry := mem_entries.mp ((s.1.walk_perm _).mem_iff.mp he)
  obtain ⟨hdev,hgw,-⟩ := hsane.entry key entry hl
  rw [hdev] at hf
  have hin : (s.1.route.bind detectDefaultGateway).getD entry.gatewayIp ∈ lan.gateways := by
    cases hroute : s.1.route.bind detectDefaultGateway with
    | none => exact hgw
    | some g => exact hs.route g hroute
  obtain ⟨rfl,hmis⟩ := bound_poison hs hin ⟨f,hf,hbinds⟩
  refine ⟨key,entry,hl,?_⟩
  cases hroute : s.1.route.bind detectDefaultGateway with
  | none => rfl
  | some g =>
    rw [hroute] at hmis
    exact hok g hroute key entry hl hmis

/-- A step other than an allow: what the device is told to be here is the gateway of an entry, and
no gateway of an entry is forgotten. -/
theorem step_remembers (hsane : lan.Sane myMac h) (hs : lan.Takes s)
    (hok : lan.Undoes rt ipt myMac h s) (hno : s.2.isAllow=false) :
    ∃ sent, (arpStep rt ipt h s).frames=h.frames++sent ∧
      (∀ x, lan.Bound myMac sent x → Remembers (arpStep rt ipt h s) x) ∧
      ∀ x, Remembers h x → Remembers (arpStep rt ipt h s) x := by
  have quiet (same : (arpStep rt ipt h s).arpSide=h.arpSide) :
      ∃ sent, (arpStep rt ipt h s).frames=h.frames++sent ∧
        (∀ x, lan.Bound myMac sent x → Remembers (arpStep rt ipt h s) x) ∧
        ∀ x, Remembers h x → Remembers (arpStep rt ipt h s) x := by
    obtain ⟨hframes,hstate⟩ := Prod.mk.inj same
    refine ⟨[],by rw [hframes,List.append_nil],?_,fun x => Remembers.of_state hstate⟩
    intro x given
    obtain ⟨f,hf,_⟩ := given
    cases hf
  cases hstep : s.2 with
  | repoison =>
    rw [Undoes,hstep] at hok
    have hrun := repoisonPass_send s.1 hsane.spoofer
    have htick : arpStep rt ipt h s=(repoisonPass.run (exec s.1) h).2 := by rw [arpStep,hstep]
    rw [htick,hrun]
    exact ⟨_,rfl,fun x hx => repoison_remembers hsane hs hok hx,fun x hx => hx⟩
  | command cmd =>
    have ha : isAllowAction cmd.action=false := by
      rw [hstep] at hno
      exact hno
    rw [Undoes,hstep] at hok
    simp only [ha,Bool.false_eq_true,if_false] at hok
    have side := executeCommand_poisons rt s.1 ipt hsane.spoofer (received cmd)
    rw [← arpStep_command hstep ha] at side
    rcases side with same | ⟨hfirewall,same | ⟨x,v,g,hip,hmac,hgw,hframes,hstate⟩⟩
    · exact quiet same
    · exact quiet same
    · have hdev : v=lan.device := Option.some.inj (hmac.symm.trans (hs.mac cmd hstep))
      subst hdev
      have hin := hs.gateway cmd hstep g hgw
      -- where the poisoning goes through, its entry is there afterwards
      have new (hpoison : poisonOk s.1 myMac x lan.device g=true) :
          Remembers (arpStep rt ipt h s) g := by
        rw [if_pos hpoison] at hstate
        refine ⟨stateKey rt (received cmd),
          ⟨x,lan.device,g,mapAction (received cmd).action⟩,?_,rfl⟩
        rw [hstate,AList.lookup_insert]
      have old (hpoison : ¬poisonOk s.1 myMac x lan.device g=true) :
          (arpStep rt ipt h s).state=h.state := by rw [hstate,if_neg hpoison]
      refine ⟨_,hframes,?_,?_⟩
      · intro y hy
        obtain ⟨rfl,hmis⟩ := bound_poison hs hin hy
        obtain ⟨hsame,hkept⟩ := hok x y hip hgw hmis hfirewall
        by_cases hpoison : poisonOk s.1 myMac x lan.device y=true
        · exact new hpoison
        · obtain ⟨key,entry,hl⟩ := hkept.resolve_left hpoison
          exact Remembers.of_state (old hpoison) ⟨key,entry,hl,hsame key entry hl⟩
      · intro y given
        obtain ⟨key,entry,hl,rfl⟩ := given
        by_cases hpoison : poisonOk s.1 myMac x lan.device g=true
        · have hmis : lan.Misleads myMac s.1 x g := by
            simp only [poisonOk,Bool.and_eq_true,Bool.not_eq_true'] at hpoison
            exact hpoison.1
          rw [(hok x g hip hgw hmis hfirewall).1 key entry hl]
          exact new hpoison
        · exact Remembers.of_state (old hpoison) ⟨key,entry,hl,rfl⟩

/-- An allow that sends a frame restores the gateway that it remembers. -/
theorem allow_restores (hsane : lan.Sane myMac h) (hs : lan.Takes s)
    (hok : lan.Undoes rt ipt myMac h s) (hallow : s.2.isAllow=true)
    (hsent : (arpStep rt ipt h s).frames≠h.frames) {x : Ipv4Addr} (hx : Remembers h x) :
    lan.latest x (arpStep rt ipt h s).frames=some (lan.real x) := by
  obtain ⟨key,entry,hl,rfl⟩ := hx
  obtain ⟨-,hin,-⟩ := hsane.entry key entry hl
  cases hstep : s.2 with
  | repoison =>
    rw [hstep] at hallow
    cases hallow
  | command cmd =>
    have ha : isAllowAction cmd.action=true := by
      rw [hstep] at hallow
      exact hallow
    rw [Undoes,hstep] at hok
    simp only [ha,if_true] at hok
    obtain ⟨hgateway,hmac⟩ := hok key entry hl
    have side := executeAllow_arpSide rt s.1 ipt hsane.spoofer (received cmd)
    rw [← arpStep_allow hstep ha] at side
    obtain ⟨hframes,-⟩ := Prod.mk.inj side
    rw [hframes] at hsent ⊢
    have hrestored : restoredMac s.1 (received cmd) entry.gatewayIp=lan.real entry.gatewayIp := by
      unfold restoredMac
      cases hcmd : (received cmd).gatewayMac.bind parseMac with
      | none => exact hs.arpMac hin
      | some mac => exact hmac mac hcmd
    have hempty : restoreSent s.1 (received cmd) (h.state.lookup (stateKey rt (received cmd)))≠[] :=
      fun e => hsent (by rw [e,List.append_nil])
    have hlatest : lan.latest entry.gatewayIp (restoreSent s.1 (received cmd)
        (h.state.lookup (stateKey rt (received cmd))))=some (lan.real entry.gatewayIp) := by
      have hgw : (restoredGateway s.1 (h.state.lookup (stateKey rt (received cmd)))).getD
          .unspecified=entry.gatewayIp := by
        rw [stateKey_received,hgateway]
        rfl
      unfold restoreSent at hempty ⊢
      simp only [hgw,hrestored] at hempty ⊢
      split at hempty
      · next victimMac victimIp hmac' hip' =>
        have hdev : victimMac=lan.device := by
          rcases Option.or_eq_some_iff.mp hmac' with hold | ⟨-,hcmd⟩
          · obtain ⟨e,he,rfl⟩ := Option.map_eq_some_iff.mp hold
            exact (hsane.entry _ e he).1
          · exact Option.some.inj (hcmd.symm.trans (hs.mac cmd hstep))
        have hapart : victimIp ∉ lan.gateways := by
          rcases Option.or_eq_some_iff.mp hip' with hold | ⟨-,hcmd⟩
          · obtain ⟨e,he,rfl⟩ := Option.map_eq_some_iff.mp hold
            exact (hsane.entry _ e he).2.2
          · exact hs.ip cmd hstep victimIp hcmd
        subst hdev
        exact latest_restore hin (fun e => hapart (e ▸ hin)) hempty
      · exact absurd rfl hempty
    rw [latest,lastWrite_append]
    rw [latest] at hlatest
    rw [hlatest]
    rfl

/-- In a run without an allow the device is told of no gateway that is not remembered. -/
theorem runs_remember {steps : List (Env × ArpStep)} (hsteps : ∀ s ∈ steps, lan.Takes s)
    (hno : ∀ s ∈ steps, s.2.isAllow=false) (hsane : lan.Sane myMac h)
    (hg : Guarded (arpStep rt ipt) (lan.Undoes rt ipt myMac) h steps) :
    ∃ sent, (runs (arpStep rt ipt) h steps).frames=h.frames++sent ∧
      (∀ x, lan.Bound myMac sent x → Remembers (runs (arpStep rt ipt) h steps) x) ∧
      ∀ x, Remembers h x → Remembers (runs (arpStep rt ipt) h steps) x := by
  induction steps generalizing h with
  | nil =>
    refine ⟨[],(List.append_nil _).symm,?_,fun x hx => hx⟩
    intro x given
    obtain ⟨f,hf,_⟩ := given
    cases hf
  | cons s steps ih =>
    obtain ⟨hs,hsteps⟩ := List.forall_mem_cons.mp hsteps
    obtain ⟨hs',hno⟩ := List.forall_mem_cons.mp hno
    obtain ⟨first,hfirst,hnew,hold⟩ := step_remembers hsane hs hg.1 hs'
    obtain ⟨rest,hrest,hnew',hold'⟩ := ih hsteps hno (hsane.step hs) hg.2
    refine ⟨first++rest,?_,?_,fun x hx => hold' x (hold x hx)⟩
    · rw [runs_cons,hrest,hfirst,List.append_assoc]
    · intro x given
      obtain ⟨f,hf,hbinds⟩ := given
      rcases List.mem_append.mp hf with hf | hf
      · exact hold' x (hnew x ⟨f,hf,hbinds⟩)
      · exact hnew' x ⟨f,hf,hbinds⟩

theorem Sane.runs (hsane : lan.Sane myMac h) {steps : List (Env × ArpStep)}
    (hsteps : ∀ s ∈ steps, lan.Takes s) :
    lan.Sane myMac (runs (arpStep rt ipt) h steps) := by
  induction steps generalizing h with
  | nil => exact hsane
  | cons s steps ih =>
    obtain ⟨hs,hsteps⟩ := List.forall_mem_cons.mp hsteps
    exact ih (hsane.step hs) hsteps

end Runs

/-- Where every step of a run for a device can be undone, every allow that sends frames leaves the
device with the real hardware address of each gateway that was impersonated. -/
theorem restored_of_guarded (lan : Lan) (rt : Runtime) (ipt : Backend) (myMac : MacAddr)
    (steps : List (Env × ArpStep)) (hsteps : ∀ s ∈ steps, lan.Takes s)
    (hg : Guarded (arpStep rt ipt) (lan.Undoes rt ipt myMac) (.empty (some myMac)) steps) :
    lan.Restored rt ipt myMac steps := by
  intro pre mid s post same hno hallow before after restored hsent x hx
  subst same
  obtain ⟨hpre,hg⟩ := (guarded_append ..).mp (List.append_assoc pre mid (s::post) ▸ hg)
  obtain ⟨hmid,hlast⟩ := (guarded_append ..).mp hg
  have taken {t} (ht : t ∈ pre ∨ t ∈ mid ∨ t=s) : lan.Takes t := by
    apply hsteps
    rcases ht with ht | ht | rfl <;> simp [*]
  have hinit : lan.Sane myMac (.empty (some myMac)) := by
    refine ⟨rfl,?_⟩
    intro key entry hl
    cases hl
  have hbefore : lan.Sane myMac before := hinit.runs fun t ht => taken (.inl ht)
  have hmids : ∀ t ∈ mid, lan.Takes t := fun t ht => taken (.inr (.inl ht))
  have hafter : lan.Sane myMac after := hbefore.runs hmids
  obtain ⟨sent,hframes,hnew,-⟩ := runs_remember hmids hno hbefore hmid
  have hwindow : after.frames.drop before.frames.length=sent := by
    rw [hframes,List.drop_left]
  rw [hwindow] at hx
  exact allow_restores hafter (taken (.inr (.inr rfl))) hlast.1 hallow hsent (hnew x hx)

/-- A network that changes over from the gateway 10.0.0.1 to 10.0.0.2. -/
def sample : Lan where
  device := ⟨2,0,0,0,0,7⟩
  gateways := [⟨10,0,0,1⟩,⟨10,0,0,2⟩]
  real x := ⟨2,0,0,0,1,x.d⟩
  apart := by decide

def sampleArp : String := "h\n10.0.0.1 1 2 2:0:0:0:1:1\n10.0.0.2 1 2 2:0:0:0:1:2"

/-- A step on that network while the given line is the default route. -/
def sampleStep (route : String) (step : ArpStep) : Env × ArpStep :=
  (.calm (some route) (some sampleArp),step)

def sampleCommandStep (action : String) : ArpStep :=
  .command ⟨"020000000007","10.0.0.7",action,"",none,none⟩

theorem sampleArp_knows : ∀ g ∈ sample.gateways, getArpMac sampleArp g=some (sample.real g) := by
  decide +kernel

theorem sample_takes {route : String} {g : Ipv4Addr}
    (hroute : detectDefaultGateway route=some g) (hg : g ∈ sample.gateways) (action : String) :
    sample.Takes (sampleStep route .repoison) ∧
      sample.Takes (sampleStep route (sampleCommandStep action)) := by
  have arp_eq (step : ArpStep) : ∀ g ∈ sample.gateways,
      ((sampleStep route step).1.arp.bind fun content => getArpMac content g)=
        some (sample.real g) := by
    intro g hg
    simp only [sampleStep,Env.calm,Option.bind_some]
    exact sampleArp_knows g hg
  have route_eq (step : ArpStep) (g' : Ipv4Addr)
      (h : (sampleStep route step).1.route.bind detectDefaultGateway=some g') :
      g' ∈ sample.gateways := by
    simp only [sampleStep,Env.calm,Option.bind_some,hroute,Option.some.injEq] at h
    exact h ▸ hg
  constructor
  · refine ⟨arp_eq _,route_eq _,?_,?_,?_⟩
    all_goals
      intro cmd hcmd
      cases hcmd
  · refine ⟨arp_eq _,route_eq _,?_,?_,?_⟩
    all_goals
      intro cmd hcmd
      cases hcmd
    · show parseMac "020000000007"=some sample.device
      decide +kernel
    · exact route_eq (sampleCommandStep action)
    · intro x hx
      have hip : Ipv4Addr.parse (stripCidr "10.0.0.7")=some ⟨10,0,0,7⟩ := by decide +kernel
      rw [← Option.some.inj (hip.symm.trans hx)]
      decide

/-- The default route of the sample network before and after the change. -/
def oldRoute : String := "h\ne 0 0100000A"

def newRoute : String := "h\ne 0 0200000A"

theorem restored_of_guarded_block_allow :
    let before := arpStep .ascii .nft (.empty (some .zero))
      (sampleStep oldRoute (sampleCommandStep "block"))
    let restored := arpStep .ascii .nft before (sampleStep newRoute (sampleCommandStep "allow"))
    sample.latest ⟨10,0,0,1⟩ restored.frames=some ⟨2,0,0,0,1,1⟩ := by
  intro before restored
  have hold : detectDefaultGateway oldRoute=some ⟨10,0,0,1⟩ := by decide +kernel
  have hnew : detectDefaultGateway newRoute=some ⟨10,0,0,2⟩ := by decide +kernel
  have takes : ∀ s ∈ [sampleStep oldRoute (sampleCommandStep "block"),
      sampleStep newRoute (sampleCommandStep "allow")], sample.Takes s :=
    List.forall_mem_cons.mpr ⟨(sample_takes hold (by decide) _).2,
      List.forall_mem_singleton.mpr (sample_takes hnew (by decide) _).2⟩
  have entries : before.entries=
      [("020000000007",⟨⟨10,0,0,7⟩,sample.device,⟨10,0,0,1⟩,.block⟩)] := by decide +kernel
  have found : before.state.lookup "020000000007"=
      some ⟨⟨10,0,0,7⟩,sample.device,⟨10,0,0,1⟩,.block⟩ := by
    rw [← mem_entries,entries]
    exact List.mem_singleton_self _
  have blocks : sample.Undoes .ascii .nft .zero (.empty (some .zero))
      (sampleStep oldRoute (sampleCommandStep "block")) := by
    intro x g _ _ _ _
    exact ⟨fun key entry hl => (nomatch hl),.inl rfl⟩
  have allows : sample.Undoes .ascii .nft .zero before
      (sampleStep newRoute (sampleCommandStep "allow")) := by
    intro key entry hl
    rw [← mem_entries,entries,List.mem_singleton] at hl
    obtain ⟨-,rfl⟩ := Prod.mk.inj hl
    refine ⟨?_,fun mac hmac => (nomatch hmac)⟩
    have key : stateKey .ascii ⟨"020000000007","10.0.0.7","allow","",none,none⟩="020000000007" := by
      decide +kernel
    rw [key,found]
    rfl
  refine restored_of_guarded sample .ascii .nft .zero _ takes ⟨blocks,allows,trivial⟩ []
    [sampleStep oldRoute (sampleCommandStep "block")]
    (sampleStep newRoute (sampleCommandStep "allow")) [] rfl (by decide) (by decide)
    (by decide +kernel) ⟨10,0,0,1⟩ ?_
  exact ⟨(.poison,craftArpReply sample.device .zero ⟨10,0,0,1⟩ sample.device ⟨10,0,0,7⟩),
    by decide +kernel,by decide⟩

/-- The device is poisoned through the new gateway and restored through the old one. -/
theorem new_gateway_not_restored :
    ¬∀ steps : List (Env × ArpStep), (∀ s ∈ steps, sample.Takes s) →
      sample.Restored .ascii .nft .zero steps := by
  intro h
  have hold : detectDefaultGateway oldRoute=some ⟨10,0,0,1⟩ := by decide +kernel
  have hnew : detectDefaultGateway newRoute=some ⟨10,0,0,2⟩ := by decide +kernel
  have takes : ∀ s ∈ [sampleStep oldRoute (sampleCommandStep "block"),
      sampleStep newRoute .repoison,sampleStep newRoute (sampleCommandStep "allow")],
      sample.Takes s :=
    List.forall_mem_cons.mpr ⟨(sample_takes hold (by decide) _).2,
      List.forall_mem_cons.mpr ⟨(sample_takes hnew (by decide) "").1,
        List.forall_mem_singleton.mpr (sample_takes hnew (by decide) _).2⟩⟩
  have real := h _ takes [] [sampleStep oldRoute (sampleCommandStep "block"),
      sampleStep newRoute .repoison] (sampleStep newRoute (sampleCommandStep "allow")) [] rfl
    (by decide) (by decide) (by decide +kernel) ⟨10,0,0,2⟩
    ⟨(.poison,craftArpReply sample.device .zero ⟨10,0,0,2⟩ sample.device ⟨10,0,0,7⟩),
      by decide +kernel,by decide⟩
  have here : sample.latest ⟨10,0,0,2⟩ (runs (arpStep .ascii .nft) (.empty (some .zero))
      [sampleStep oldRoute (sampleCommandStep "block"),sampleStep newRoute .repoison,
        sampleStep newRoute (sampleCommandStep "allow")]).frames=some .zero := by
    decide +kernel
  exact absurd (here.symm.trans real) (by decide)

end Lan

end NacPlatform.Enforcement
