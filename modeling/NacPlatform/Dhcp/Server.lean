import NacPlatform.Dhcp.Pool
import NacPlatform.Framework.Run

namespace NacPlatform.Dhcp

inductive Opcode where
  | bootRequest
  | bootReply
  | unknown (code : UInt8)
  deriving DecidableEq, Repr

inductive MessageType where
  | discover
  | offer
  | request
  | decline
  | ack
  | nak
  | release
  | inform
  | unknown (code : UInt8)
  deriving DecidableEq, Repr

/-- The options the server reads or writes, at most one of each code. -/
structure Options where
  messageType : Option MessageType
  requestedIpAddress : Option Ipv4Addr
  serverIdentifier : Option Ipv4Addr
  addressLeaseTime : Option UInt32
  subnetMask : Option Ipv4Addr
  router : Option (List Ipv4Addr)
  deriving DecidableEq, Repr

def Options.empty : Options := ⟨none,none,none,none,none,none⟩

/-- A decoded message; `chaddr` is as long as the hardware address in it. -/
structure Message where
  opcode : Opcode
  htype : UInt8
  hops : UInt8
  xid : UInt32
  flags : UInt16
  yiaddr : Ipv4Addr
  siaddr : Ipv4Addr
  giaddr : Ipv4Addr
  chaddr : List UInt8
  opts : Options
  deriving DecidableEq, Repr

structure DhcpServer where
  pool : LeasePool
  serverIp : Ipv4Addr
  deriving DecidableEq, Repr

/-- The payload of `nac.events.dhcp`. -/
structure DhcpBinding where
  mac : String
  ip : String
  msgType : MessageType
  deriving DecidableEq, Repr

/-- `{b:02x}` of the first six bytes, joined with colons. -/
def formatMac (chaddr : List UInt8) : String :=
  ":".intercalate ((chaddr.take 6).map fun b => String.ofList (MacAddr.byteText b))

namespace DhcpServer

/-- What both handlers answer, but for the type and the address. -/
def answer (srv : DhcpServer) (msg : Message) (type : MessageType) (ip : Ipv4Addr) : Message where
  opcode := .bootReply
  htype := msg.htype
  hops := 0
  xid := msg.xid
  flags := msg.flags
  yiaddr := ip
  siaddr := srv.serverIp
  giaddr := msg.giaddr
  chaddr := msg.chaddr
  opts := {
    messageType := some type
    requestedIpAddress := none
    serverIdentifier := some srv.serverIp
    addressLeaseTime := some 86400
    subnetMask := some srv.pool.subnetMask
    router := some [srv.pool.gateway] }

def handleDiscover (srv : DhcpServer) (msg : Message) : Message × DhcpServer :=
  let (offeredIp,pool) := srv.pool.getOrAllocate msg.chaddr
  (srv.answer msg .offer offeredIp,{srv with pool := pool})

/-- An address the client asks for is acknowledged as it stands. -/
def handleRequest (srv : DhcpServer) (msg : Message) : Message × DhcpServer :=
  match msg.opts.requestedIpAddress with
  | some ip => (srv.answer msg .ack ip,srv)
  | none =>
    let (requestedIp,pool) := srv.pool.getOrAllocate msg.chaddr
    (srv.answer msg .ack requestedIp,{srv with pool := pool})

end DhcpServer

/-- What the socket delivers: the decoder's verdict on the bytes, and whether the answer, if
there is one, can be encoded and sent. -/
structure Datagram where
  message : Except String Message
  send : Except String Unit

/-- The server with everything it has sent and published so far, oldest first. -/
structure State where
  server : DhcpServer
  sent : List Message
  published : List DhcpBinding
  deriving DecidableEq, Repr

/-- What `handle` does with an answer it has built. -/
def State.deliver (s : State) (type : MessageType) (d : Datagram) (answer : Message × DhcpServer) :
    Except String Unit × State :=
  match d.send with
  | .error e => (.error e,{s with server := answer.2})
  | .ok () =>
    let published :=
      if answer.1.yiaddr=Ipv4Addr.unspecified then s.published
      else s.published++[⟨formatMac answer.1.chaddr,answer.1.yiaddr.text,type⟩]
    (.ok (),⟨answer.2,s.sent++[answer.1],published⟩)

def handle (s : State) (d : Datagram) : Except String Unit × State :=
  match d.message with
  | .error e => (.error e,s)
  | .ok msg =>
    match msg.opts.messageType with
    | none => (.error "no msg type",s)
    | some .discover => s.deliver .discover d (s.server.handleDiscover msg)
    | some .request => s.deliver .request d (s.server.handleRequest msg)
    | some _ => (.ok (),s)

/-- Each datagram has a task of its own. The pool is locked once in it, so the tasks act in the
order in which they take the lock; an error is only logged. -/
def serve (s : State) (d : Datagram) : State := (handle s d).2

def boot (poolStart poolEnd subnetMask gateway serverIp : Ipv4Addr) : State :=
  ⟨⟨.new poolStart poolEnd subnetMask gateway,serverIp⟩,[],[]⟩

/-- The acknowledgements among the messages sent. -/
def State.acks (s : State) : List Message :=
  s.sent.filter fun m => m.opts.messageType==some .ack

/-- The hardware addresses that discover or request in a sequence. -/
def clients (ds : List Datagram) : List (List UInt8) :=
  ds.filterMap fun d =>
    match d.message with
    | .error _ => none
    | .ok msg =>
      if msg.opts.messageType=some .discover ∨ msg.opts.messageType=some .request then
        some msg.chaddr
      else none

end NacPlatform.Dhcp
