import NacPlatform.NetProto.Dhcp

namespace NacPlatform.NetProto

structure ArpEntry where
  senderMac : MacAddr
  senderIp : Ipv4Addr
  targetIp : Ipv4Addr
  isReply : Bool
  deriving DecidableEq, Repr

def macOctets (m : MacAddr) : List UInt8 := [m.b0,m.b1,m.b2,m.b3,m.b4,m.b5]

def ipOctets (ip : Ipv4Addr) : List UInt8 := [ip.a,ip.b,ip.c,ip.d]

/-- Ethernet, IPv4, lengths of both kinds of addresses, reply. -/
def replyHeader : List UInt8 := [0,1,8,0,6,4,0,2]

def craftGratuitousArp (senderMac : MacAddr) (senderIp targetIp : Ipv4Addr) : List UInt8 :=
  [0xff,0xff,0xff,0xff,0xff,0xff]++macOctets senderMac++[8,6]++replyHeader++
    macOctets senderMac++ipOctets senderIp++[0,0,0,0,0,0]++ipOctets targetIp

def craftArpReply (dstMac senderMac : MacAddr) (senderIp : Ipv4Addr) (targetMac : MacAddr)
    (targetIp : Ipv4Addr) : List UInt8 :=
  macOctets dstMac++macOctets senderMac++[8,6]++replyHeader++
    macOctets senderMac++ipOctets senderIp++macOctets targetMac++ipOctets targetIp

def parseArp (frame : List UInt8) : Except Fault (Except NetProtoError ArpEntry) := do
  if frame.length<42 then return .error (.parse "frame too short for ARP")
  let oper := (← byteAt frame 20).toNat*2^8+(← byteAt frame 21).toNat
  let sha ← toMac (← slice frame 22 28)
  let spa : Ipv4Addr := ⟨← byteAt frame 28,← byteAt frame 29,← byteAt frame 30,
    ← byteAt frame 31⟩
  let tpa : Ipv4Addr := ⟨← byteAt frame 38,← byteAt frame 39,← byteAt frame 40,
    ← byteAt frame 41⟩
  return .ok ⟨sha,spa,tpa,oper==2⟩

section

variable (dstMac senderMac targetMac : MacAddr) (senderIp targetIp : Ipv4Addr)

theorem parseArp_craftArpReply :
    parseArp (craftArpReply dstMac senderMac senderIp targetMac targetIp)=
      .ok (.ok ⟨senderMac,senderIp,targetIp,true⟩) := by
  obtain ⟨d0,d1,d2,d3,d4,d5⟩ := dstMac
  obtain ⟨s0,s1,s2,s3,s4,s5⟩ := senderMac
  have hlength : ¬(craftArpReply ⟨d0,d1,d2,d3,d4,d5⟩ ⟨s0,s1,s2,s3,s4,s5⟩ senderIp targetMac
      targetIp).length<42 := by simp [craftArpReply,macOctets,ipOctets,replyHeader]
  rw [parseArp,if_neg hlength]
  simp [craftArpReply,macOctets,ipOctets,replyHeader,byteAt,slice,toMac]

/-- A gratuitous reply is one to everybody that names no hardware address as its target. -/
theorem craftGratuitousArp_eq : craftGratuitousArp senderMac senderIp targetIp=
    craftArpReply .broadcast senderMac senderIp .zero targetIp := rfl

end

end NacPlatform.NetProto
