import NacPlatform.Aaa.Radius
import NacPlatform.Framework.Utf8
import NacPlatform.PolicyManager.Conditions

namespace NacPlatform.Radius

def getAttr (p : RadiusPacket) (attrType : UInt8) : Option (List UInt8) :=
  (p.attributes.find? fun a => a.attrType==attrType).map RadiusAttribute.value

/-- The value of an attribute as text, where it is UTF-8. -/
def getText (p : RadiusPacket) (attrType : UInt8) : Option String :=
  (getAttr p attrType).bind fun bytes => (Utf8.decode bytes).map String.ofList

/-- `str::as_bytes`. -/
def asBytes (s : String) : List UInt8 := Utf8.encode s.toList

/-- The six pairs of twelve digits, joined with colons. -/
def normalizeMac (raw : String) : Option String :=
  match (hexDigits raw).map Char.toLower with
  | [a,b,c,d,e,f,g,h,i,j,k,l] =>
    some (String.ofList [a,b, ':',c,d, ':',e,f, ':',g,h, ':',i,j, ':',k,l])
  | _ => none

/-- Three attributes, each with the tag 0 before its value. -/
def vlanAttributes (vlanId : UInt16) : List RadiusAttribute :=
  [⟨64,[0,0,0,0,13]⟩,⟨65,[0,0,0,0,6]⟩,⟨81,0::asBytes (toString vlanId.toNat)⟩]

def buildResponse (req : RadiusPacket) (accept : Bool) (vlan : Option UInt16) (message : String) :
    RadiusPacket where
  code := if accept then 2 else 3
  identifier := req.identifier
  authenticator := req.authenticator
  attributes := ⟨18,asBytes message⟩::if accept then vlan.elim [] vlanAttributes else []

/-- The texts that go with an answer. -/
inductive ReplyMessage where
  | papAuthentication
  | unknownEndpoint
  | internalError
  | accessGranted
  | quarantineVlanAssigned
  | accessDenied
  deriving DecidableEq, Repr

def ReplyMessage.text : ReplyMessage → String
  | papAuthentication => "PAP authentication"
  | unknownEndpoint => "Unknown endpoint"
  | internalError => "Internal error"
  | accessGranted => "Access granted"
  | quarantineVlanAssigned => "Quarantine VLAN assigned"
  | accessDenied => "Access denied"

/-- What the handler decides. -/
structure Outcome where
  accept : Bool
  vlan : Option UInt16
  message : ReplyMessage
  deriving DecidableEq, Repr

def Outcome.response (o : Outcome) (req : RadiusPacket) : RadiusPacket :=
  buildResponse req o.accept o.vlan o.message.text

/-- `u16::from_str`. -/
def parseU16 (s : String) : Option UInt16 :=
  (parseU64 s.toList).bind fun n => if n<65536 then some (.ofNat n) else none

/-- `copy_from_slice` into the bytes 4 to 20 of a packet. -/
def copyAuth (buf : List UInt8) (auth : Vector UInt8 16) : List UInt8 :=
  buf.take 4++auth.toList++buf.drop 20

section

variable (md5 : List UInt8 → Vector UInt8 16)

/-- The chunks of sixteen bytes, each combined with the hash of the secret and the chunk before
it. -/
def decryptChunks (secret : List UInt8) (prev encrypted : List UInt8) : List UInt8 :=
  match encrypted with
  | [] => []
  | e::es =>
    let chunk := (e::es).take 16
    List.zipWith (· ^^^ ·) chunk (md5 (secret++prev)).toList++
      decryptChunks secret chunk ((e::es).drop 16)
termination_by encrypted.length
decreasing_by
  simp only [List.length_drop,List.length_cons]
  omega

def decryptPapPassword (encrypted secret : List UInt8) (authenticator : Vector UInt8 16) :
    List UInt8 :=
  ((decryptChunks md5 secret authenticator.toList encrypted).reverse.dropWhile (· == 0)).reverse

/-- The environment variables, and what the database answers for a MAC. -/
structure AuthContext where
  env : String → Option String
  findByMac : String → Except String (Option Status)

def papAccepts (ctx : AuthContext) (secret : List UInt8) (pkt : RadiusPacket) : Bool :=
  match getAttr pkt 2 with
  | some encPw =>
    let pw := decryptPapPassword md5 encPw secret pkt.authenticator
    let adminPass := (ctx.env "RADIUS_ADMIN_PASS").getD "changeme"
    let adminUser := (ctx.env "RADIUS_ADMIN_USER").getD "admin"
    (getText pkt 1).getD ""==adminUser && String.ofList (Utf8.lossy pw)==adminPass
  | none => false

def AuthContext.vlan (ctx : AuthContext) (name : String) : Option UInt16 :=
  (ctx.env name).bind parseU16

/-- The calling station names the MAC, else the user does; without one the password decides. -/
def accessOutcome (ctx : AuthContext) (secret : List UInt8) (pkt : RadiusPacket) : Outcome :=
  match normalizeMac (((getText pkt 31).or (getText pkt 1)).getD "") with
  | none => ⟨papAccepts md5 ctx secret pkt,none,.papAuthentication⟩
  | some mac =>
    match ctx.findByMac mac with
    | .ok (some status) =>
      match status with
      | .allowed => ⟨true,ctx.vlan "RADIUS_ALLOW_VLAN",.accessGranted⟩
      | .quarantined =>
        ⟨true,some ((ctx.vlan "RADIUS_QUARANTINE_VLAN").getD 99),.quarantineVlanAssigned⟩
      | _ => ⟨false,none,.accessDenied⟩
    | .ok none => ⟨false,ctx.vlan "RADIUS_UNKNOWN_VLAN",.unknownEndpoint⟩
    | .error _ => ⟨false,none,.internalError⟩

/-- RFC 2865: the hash is taken with the authenticator of the request in place, and then takes
its place. -/
def encodeWithResponseAuth (p : RadiusPacket) (requestAuth : Vector UInt8 16)
    (secret : List UInt8) : List UInt8 :=
  let buf := copyAuth (encode p) requestAuth
  copyAuth buf (md5 (buf++secret))

/-- The datagram that is sent back, if one is. -/
def handleAuthPacket (outcome : RadiusPacket → Outcome) (secret buf : List UInt8) :
    Option (List UInt8) :=
  match parse buf with
  | .error _ => none
  | .ok pkt =>
    if pkt.code=1 then
      some (encodeWithResponseAuth md5 ((outcome pkt).response pkt) pkt.authenticator secret)
    else none

/-- The accounting port: the secret is not used. -/
def handleAcctPacket (buf : List UInt8) : Option (List UInt8) :=
  match parse buf with
  | .error _ => none
  | .ok pkt =>
    if pkt.code=4 then some (encode ⟨5,pkt.identifier,pkt.authenticator,[]⟩) else none

/-- What a client that knows the secret asks of the answer to a request. -/
def Authentic (request : RadiusPacket) (secret bytes : List UInt8) : Prop :=
  (bytes.drop 4).take 16=
    (md5 (bytes.take 4++request.authenticator.toList++bytes.drop 20++secret)).toList

end

theorem take_encode (p : RadiusPacket) :
    (encode p).take 4=p.code::p.identifier::
      toBeBytes (UInt16.ofNat (20+(attrsBytes p.attributes).length)) := by
  simp [encode,toBeBytes]

theorem drop_encode (p : RadiusPacket) : (encode p).drop 20=attrsBytes p.attributes := by
  rw [encode_eq]
  apply List.drop_left'
  simp [toBeBytes]

theorem auth_encode (p : RadiusPacket) :
    ((encode p).drop 4).take 16=p.authenticator.toList := by
  have hdrop : (encode p).drop 4=p.authenticator.toList++attrsBytes p.attributes := by
    simp [encode,toBeBytes]
  rw [hdrop]
  apply List.take_left'
  exact p.authenticator.length_toList

/-- Copying an authenticator into a packet's bytes is encoding the packet with it. -/
theorem copyAuth_encode (p : RadiusPacket) (auth : Vector UInt8 16) :
    copyAuth (encode p) auth=encode {p with authenticator := auth} := by
  rw [copyAuth,take_encode,drop_encode,encode_eq {p with authenticator := auth}]
  simp

theorem encodeWithResponseAuth_eq (md5 : List UInt8 → Vector UInt8 16) (p : RadiusPacket)
    (requestAuth : Vector UInt8 16) (secret : List UInt8) :
    encodeWithResponseAuth md5 p requestAuth secret=encode {p with
      authenticator := md5 (encode {p with authenticator := requestAuth}++secret)} := by
  rw [encodeWithResponseAuth,copyAuth_encode,copyAuth_encode]

/-- A packet is authentic exactly when it carries the hash of itself with the authenticator of the
request. -/
theorem authentic_encode_iff (md5 : List UInt8 → Vector UInt8 16) (request p : RadiusPacket)
    (secret : List UInt8) : Authentic md5 request secret (encode p) ↔ p.authenticator=
      md5 (encode {p with authenticator := request.authenticator}++secret) := by
  have hinput : (encode p).take 4++request.authenticator.toList++(encode p).drop 20=
      encode {p with authenticator := request.authenticator} := copyAuth_encode p _
  rw [Authentic,hinput,auth_encode,Vector.toList_inj]

theorem lengthField_encode {p : RadiusPacket} (h : Sized p) :
    lengthField (encode p)=(encode p).length := by
  have hsize := h.2
  rw [length_encode] at hsize ⊢
  exact fromBeBytes_toBeBytes hsize

theorem length_attrsBytes_le {n : Nat} {attributes : List RadiusAttribute}
    (h : ∀ attr ∈ attributes, attr.value.length ≤ n) :
    (attrsBytes attributes).length ≤ attributes.length*(n+2) := by
  induction attributes with
  | nil => simp [attrsBytes]
  | cons attr attributes ih =>
    have first := h attr List.mem_cons_self
    have rest := ih fun a ha => h a (List.mem_cons_of_mem attr ha)
    have hcons : attrsBytes (attr::attributes)=
        attr.attrType::UInt8.ofNat (attr.value.length+2)::(attr.value++attrsBytes attributes) := rfl
    rw [hcons,List.length_cons,List.length_cons,List.length_append,List.length_cons,Nat.succ_mul]
    omega

theorem message_short (m : ReplyMessage) : (asBytes m.text).length ≤ 24 := by
  cases m <;> decide

theorem vlan_text_short (v : UInt16) : (asBytes (toString v.toNat)).length ≤ 5 := by
  have htext : (toString v.toNat).toList=Nat.toDigits 10 v.toNat := Nat.toList_repr
  have digits : ∀ c ∈ Nat.toDigits 10 v.toNat, c.toNat<0x80 := by
    intro c hc
    have hd := Nat.isDigit_of_mem_toDigits (by decide) (by decide) hc
    rw [Char.isDigit,Bool.and_eq_true,decide_eq_true_eq,decide_eq_true_eq] at hd
    exact lt_of_le_of_lt (UInt32.le_iff_toNat_le.mp hd.2) (by decide)
  have hv := v.toNat_lt
  rw [asBytes,htext,Utf8.encode_ascii digits,List.length_map]
  exact (Nat.length_toDigits_le_iff (by decide) (by decide)).mpr (by omega)

theorem sized_response (o : Outcome) (req : RadiusPacket) (auth : Vector UInt8 16) :
    Sized {o.response req with authenticator := auth} := by
  have hm := message_short o.message
  have values : ∀ attr ∈ (o.response req).attributes, attr.value.length ≤ 24 := by
    intro attr hattr
    simp only [Outcome.response,buildResponse,List.mem_cons] at hattr
    rcases hattr with rfl|hattr
    · exact hm
    · split at hattr
      · cases hv : o.vlan with
        | none => simp [hv] at hattr
        | some v =>
          have hshort := vlan_text_short v
          simp only [hv,Option.elim_some,vlanAttributes,List.mem_cons,List.not_mem_nil,
            or_false] at hattr
          rcases hattr with rfl|rfl|rfl
          · simp
          · simp
          · simp only [List.length_cons]
            omega
      · simp at hattr
  have few : (o.response req).attributes.length ≤ 4 := by
    simp only [Outcome.response,buildResponse,List.length_cons]
    split
    · cases o.vlan with
      | none => simp
      | some v => simp [vlanAttributes]
    · simp
  constructor
  · intro attr hattr
    exact (values attr hattr).trans (by decide)
  · have hbytes := length_attrsBytes_le values
    have hmul := Nat.mul_le_mul_right 26 few
    rw [length_encode]
    change 20+(attrsBytes (o.response req).attributes).length ≤ 65535
    omega

/-- What is sent for an Access-Request carries the hash of itself, and it is read back. -/
theorem handleAuthPacket_reply (md5 : List UInt8 → Vector UInt8 16)
    (outcome : RadiusPacket → Outcome) (secret : List UInt8) {buf : List UInt8}
    {pkt : RadiusPacket} (h : parse buf=.ok pkt) (hcode : pkt.code=1) :
    ∃ auth, let reply : RadiusPacket := {(outcome pkt).response pkt with authenticator := auth}
      auth=md5 (encode {(outcome pkt).response pkt with
        authenticator := pkt.authenticator}++secret) ∧
      handleAuthPacket md5 outcome secret buf=some (encode reply) ∧
      parse (encode reply)=.ok reply := by
  have hsent : handleAuthPacket md5 outcome secret buf=
      some (encodeWithResponseAuth md5 ((outcome pkt).response pkt) pkt.authenticator secret) := by
    simp only [handleAuthPacket,h,if_pos hcode]
  rw [encodeWithResponseAuth_eq] at hsent
  have hback (auth : Vector UInt8 16) := parse_encode (sized_response (outcome pkt) pkt auth) []
  simp only [List.append_nil] at hback
  exact ⟨_,rfl,hsent,hback _⟩

/-- The answer to every Access-Request states its own length, repeats the identifier, says what was
decided, is read back with the chosen attributes and convinces a client that knows the secret. -/
theorem auth_reply_convinces (md5 : List UInt8 → Vector UInt8 16)
    (outcome : RadiusPacket → Outcome) (secret buf : List UInt8) (pkt : RadiusPacket)
    (h : parse buf=.ok pkt) (hcode : pkt.code=1) :
    ∃ bytes reply, handleAuthPacket md5 outcome secret buf=some bytes ∧
      lengthField bytes=bytes.length ∧ bytes[0]?=some (if (outcome pkt).accept then 2 else 3) ∧
      bytes[1]?=buf[1]? ∧ parse bytes=.ok reply ∧
      reply.attributes=((outcome pkt).response pkt).attributes ∧
      Authentic md5 pkt secret bytes := by
  have hid : buf[1]?=some pkt.identifier := by
    obtain ⟨hlong,_,rfl⟩ := parse_eq_ok h
    have hone : 1<buf.length := by omega
    simp only [List.getD_eq_getElem?_getD,List.getElem?_eq_getElem hone,Option.getD_some]
  obtain ⟨auth,hauth,hsent,hback⟩ := handleAuthPacket_reply md5 outcome secret h hcode
  refine ⟨_,_,hsent,?_,?_,?_,hback,rfl,?_⟩
  · exact lengthField_encode (sized_response ..)
  · rfl
  · rw [hid]
    rfl
  · exact (authentic_encode_iff ..).mpr hauth

/-- A quarantined device, with the MD5 of what is answered to it. -/
theorem auth_reply_convinces_quarantined :
    let md5 (_ : List UInt8) : Vector UInt8 16 := #v[205,14,9,56,106,204,201,59,
      62,197,164,149,245,94,224,212]
    let request : RadiusPacket := ⟨1,7,.replicate 16 0,[⟨31,asBytes "aa-bb-cc-dd-ee-ff"⟩]⟩
    let ctx : AuthContext := ⟨fun _ => none,fun _ => .ok (some .quarantined)⟩
    let outcome := accessOutcome md5 ctx [115]
    ∃ bytes reply, handleAuthPacket md5 outcome [115] (encode request)=some bytes ∧
      lengthField bytes=bytes.length ∧ parse bytes=.ok reply ∧
      reply.attributes=((outcome request).response request).attributes ∧
      Authentic md5 request [115] bytes := by
  intro md5 request ctx outcome
  have sized : Sized request := by decide
  have hparse := parse_encode sized []
  rw [List.append_nil] at hparse
  obtain ⟨bytes,reply,hsent,hlen,_,_,hback,hattrs,hauth⟩ :=
    auth_reply_convinces md5 outcome [115] (encode request) request hparse rfl
  exact ⟨bytes,reply,hsent,hlen,hback,hattrs,hauth⟩

theorem handleAcctPacket_of_parse {buf : List UInt8} {pkt : RadiusPacket} (h : parse buf=.ok pkt)
    (hcode : pkt.code=4) :
    handleAcctPacket buf=some (encode ⟨5,pkt.identifier,pkt.authenticator,[]⟩) := by
  simp only [handleAcctPacket,h,if_pos hcode]

/-- The accounting answer carries the authenticator of the request, and no hash. A client that
knows the secret accepts it exactly when the two happen to agree. -/
theorem acct_reply_authentic_iff (md5 : List UInt8 → Vector UInt8 16) (secret buf : List UInt8)
    (pkt : RadiusPacket) (h : parse buf=.ok pkt) (hcode : pkt.code=4) :
    (∃ bytes, handleAcctPacket buf=some bytes ∧ Authentic md5 pkt secret bytes) ↔
      md5 ([5,pkt.identifier,0,20]++pkt.authenticator.toList++secret)=pkt.authenticator := by
  have hinput : encode ⟨5,pkt.identifier,pkt.authenticator,[]⟩=
      [5,pkt.identifier,0,20]++pkt.authenticator.toList := by
    simp [encode_eq,attrsBytes,toBeBytes]
  rw [handleAcctPacket_of_parse h hcode]
  simp only [Option.some.injEq,exists_eq_left']
  rw [authentic_encode_iff,hinput]
  exact eq_comm

theorem acct_reply_authentic_iff_zero :
    let md5 (_ : List UInt8) : Vector UInt8 16 := #v[23,142,2,157,70,245,137,227,
      10,127,218,214,32,38,10,141]
    let request : RadiusPacket := ⟨4,7,.replicate 16 0,[]⟩
    (∃ bytes, handleAcctPacket (encode request)=some bytes ∧ Authentic md5 request [115] bytes) ↔
      md5 ([5,7,0,20]++List.replicate 16 0++[115])=Vector.replicate 16 0 := by
  intro md5 request
  have sized : Sized request := by decide
  have hparse := parse_encode sized []
  rw [List.append_nil] at hparse
  exact acct_reply_authentic_iff md5 [115] (encode request) request hparse rfl

/-- With the MD5 of code 5, identifier 7, length 20, a zero authenticator and the secret "s", the
answer to an Accounting-Request is not authentic. -/
theorem acct_reply_not_authentic :
    let md5 (_ : List UInt8) : Vector UInt8 16 := #v[23,142,2,157,70,245,137,227,
      10,127,218,214,32,38,10,141]
    let request : RadiusPacket := ⟨4,7,.replicate 16 0,[]⟩
    ¬∃ bytes, handleAcctPacket (encode request)=some bytes ∧
      Authentic md5 request [115] bytes := by
  intro md5 request
  have sized : Sized request := by decide
  have hparse := parse_encode sized []
  rw [List.append_nil] at hparse
  rw [handleAcctPacket_of_parse hparse rfl]
  intro given
  obtain ⟨bytes,hbytes,hauth⟩ := given
  cases hbytes
  exact absurd ((authentic_encode_iff md5 request _ [115]).mp hauth) (by decide)

end NacPlatform.Radius
