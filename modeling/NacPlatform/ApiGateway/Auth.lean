import NacPlatform.ApiGateway.Base64
import NacPlatform.Platform.DefaultHasher

namespace NacPlatform.ApiGateway

/-- `exp` is in seconds since the epoch, as the clock is read. -/
structure Claims where
  sub : String
  exp : Nat
  deriving DecidableEq, Repr

/-- `serde_json` on `Claims`. -/
structure ClaimsJson where
  toVec : Claims → List UInt8
  fromSlice : List UInt8 → Except String Claims

/-- The name is the source's: the keyed hash is that of `DefaultHasher`, four times over. -/
def hmacSha256 (key data : List UInt8) : List UInt8 :=
  let h := DefaultHasher.finish (DefaultHasher.hashed key++DefaultHasher.hashed data)
  (List.replicate 4 (DefaultHasher.toLeBytes h)).flatten

section

variable (json : ClaimsJson) (hmac : List UInt8 → List UInt8 → List UInt8)

/-- `now` is the reading of the clock in whole seconds, here and when a token is verified. -/
def createToken (now : Nat) (secret : List UInt8) (username : String) : String :=
  let exp := now+86400
  let header := base64urlEncode (utf8 "\x7b\"alg\":\"HS256\",\"typ\":\"JWT\"\x7d".toList)
  let payload := base64urlEncode (json.toVec ⟨username,exp⟩)
  let message := header++"."++payload
  let signature := base64urlEncode (hmac secret (utf8 message.toList))
  message++"."++signature

def verifyToken (now : Nat) (secret : List UInt8) (token : String) : Except String String :=
  match splitn '.' 3 token.toList with
  | [header,payload,signature] => do
    let message := header ++ '.'::payload
    let expectedSig := hmac secret (utf8 message)
    let providedSig ← base64urlDecode (String.ofList signature)
    if expectedSig ≠ providedSig then .error "invalid token signature"
    else do
      let claimsBytes ← base64urlDecode (String.ofList payload)
      let claims ← json.fromSlice claimsBytes
      if claims.exp<now then .error "token expired" else .ok claims.sub
  | _ => .error "invalid token format"

theorem toList_message (header payload : String) :
    (header++"."++payload).toList=header.toList ++ '.'::payload.toList := by
  simp only [String.toList_append,List.append_assoc]
  rfl

/-- A token whose first two parts have no dot is split into its parts. -/
theorem splitn_token {header payload : String} (hh : '.' ∉ header.toList)
    (hp : '.' ∉ payload.toList) (signature : String) :
    splitn '.' 3 (header++"."++payload++"."++signature).toList=
      [header.toList,payload.toList,signature.toList] := by
  have htext : (header++"."++payload++"."++signature).toList=
      header.toList ++ '.'::(payload.toList ++ '.'::signature.toList) := by
    rw [toList_message,toList_message,List.append_assoc]
    rfl
  rw [htext,splitn_append hh,splitn_append hp]
  rfl

theorem splitn_token_inv {token : String} {header payload signature : List Char}
    (h : splitn '.' 3 token.toList=[header,payload,signature]) :
    '.' ∉ header ∧ '.' ∉ payload ∧
      token=String.ofList header++"."++String.ofList payload++"."++String.ofList signature := by
  obtain ⟨rest,htoken,hh,hrest⟩ := splitn_cons h
  obtain ⟨rest',hrest',hp,hsig⟩ := splitn_cons hrest
  have hs : rest'=signature := by simpa [splitn] using hsig
  subst rest'
  refine ⟨hh,hp,?_⟩
  apply String.toList_inj.mp
  rw [htoken,hrest',toList_message,toList_message,String.toList_ofList,String.toList_ofList,
    String.toList_ofList,List.append_assoc]
  rfl

/-- The checks of a token, in their order. -/
theorem verifyToken_eq (now : Nat) (secret : List UInt8) {token : String}
    {header payload signature : List Char} {provided bytes : List UInt8}
    (hparts : splitn '.' 3 token.toList=[header,payload,signature])
    (hsig : base64urlDecode (String.ofList signature)=.ok provided)
    (hbytes : base64urlDecode (String.ofList payload)=.ok bytes) :
    verifyToken json hmac now secret token=
      if hmac secret (utf8 (header ++ '.'::payload)) ≠ provided then
        .error "invalid token signature"
      else (json.fromSlice bytes).bind fun claims =>
        if claims.exp<now then .error "token expired" else .ok claims.sub := by
  simp only [verifyToken,hparts,hsig,hbytes]
  rfl

/-- The signature of an accepted token decodes to the hash of its first two parts. -/
theorem verifyToken_ok {now : Nat} {secret : List UInt8} {token user : String}
    (h : verifyToken json hmac now secret token=.ok user) :
    ∃ header payload signature, splitn '.' 3 token.toList=[header,payload,signature] ∧
      base64urlDecode (String.ofList signature)=
        .ok (hmac secret (utf8 (header ++ '.'::payload))) := by
  unfold verifyToken at h
  split at h
  · next header payload signature hparts =>
    refine ⟨header,payload,signature,hparts,?_⟩
    obtain ⟨provided,hsig⟩ : ∃ provided,
        base64urlDecode (String.ofList signature)=.ok provided := ⟨_,rfl⟩
    rw [hsig] at h ⊢
    by_cases hne : hmac secret (utf8 (header ++ '.'::payload))=provided
    · rw [hne]
    · change (if _ then _ else _)=_ at h
      rw [if_pos hne] at h
      cases h
  · cases h

theorem dot_notMem_encode (bytes : List UInt8) : '.' ∉ (base64urlEncode bytes).toList := by
  intro h
  have hm := ((canonical_iff _).mp (canonical_encode bytes)).1 _ h
  exact absurd hm (by decide)

/-- A token is accepted for its user up to 86400 seconds after it was made, and not later. -/
theorem verifyToken_createToken (secret : List UInt8) (username : String) (created now : Nat)
    (hserde : json.fromSlice (json.toVec ⟨username,created+86400⟩)=
      .ok ⟨username,created+86400⟩) :
    (now ≤ created+86400 →
      verifyToken json hmac now secret (createToken json hmac created secret username)=
        .ok username) ∧
    (created+86400<now →
      verifyToken json hmac now secret (createToken json hmac created secret username)=
        .error "token expired") := by
  have htoken : verifyToken json hmac now secret
      (createToken json hmac created secret username)=
        if created+86400<now then .error "token expired" else .ok username := by
    unfold createToken
    rw [verifyToken_eq json hmac now secret
      (splitn_token (dot_notMem_encode _) (dot_notMem_encode _) _)
      (by rw [String.ofList_toList]; exact base64urlDecode_encode _)
      (by rw [String.ofList_toList]; exact base64urlDecode_encode _),hserde,if_neg]
    · rfl
    · rw [toList_message]
      exact fun h => h rfl
  rw [htoken]
  exact ⟨fun h => if_neg (by omega),fun h => if_pos h⟩

end

/-- `serde_json` on a name that needs no escape, and on one text. -/
def sampleJson : ClaimsJson where
  toVec c := utf8 ("\x7b\"sub\":\""++c.sub++"\",\"exp\":"++toString c.exp++"\x7d").toList
  fromSlice bytes :=
    if bytes=utf8 "\x7b\"sub\":\"admin\",\"exp\":1700086400\x7d".toList then
      .ok ⟨"admin",1700086400⟩
    else .error "expected value at line 1 column 1"

def sampleSecret : List UInt8 := utf8 "test-secret-key-min-32-characters".toList

theorem verifyToken_createToken_admin :
    verifyToken sampleJson hmacSha256 1700086400 sampleSecret
      (createToken sampleJson hmacSha256 1700000000 sampleSecret "admin")=.ok "admin" ∧
    verifyToken sampleJson hmacSha256 1700086401 sampleSecret
      (createToken sampleJson hmacSha256 1700000000 sampleSecret "admin")=
        .error "token expired" := by
  have hserde : sampleJson.fromSlice (sampleJson.toVec ⟨"admin",1700000000+86400⟩)=
      .ok ⟨"admin",1700000000+86400⟩ := by decide +kernel
  exact ⟨(verifyToken_createToken sampleJson hmacSha256 sampleSecret "admin" 1700000000 1700086400
      hserde).1 (by decide),
    (verifyToken_createToken sampleJson hmacSha256 sampleSecret "admin" 1700000000 1700086401
      hserde).2 (by decide)⟩

section

variable (json : ClaimsJson) (hmac : List UInt8 → List UInt8 → List UInt8)

/-- What stands behind the second dot of a token, if it has two. -/
def signaturePart (token : String) : String :=
  String.ofList ((splitn '.' 3 token.toList).getD 2 [])

/-- The token is its own first two parts with the encoded hash of them behind. -/
def ExactlySigned (secret : List UInt8) (token : String) : Prop :=
  ∃ header payload : String, '.' ∉ header.toList ∧ '.' ∉ payload.toList ∧
    token=header++"."++payload++"."++
      base64urlEncode (hmac secret (utf8 (header++"."++payload).toList))

theorem exactlySigned_iff {now : Nat} {secret : List UInt8} {token user : String}
    (h : verifyToken json hmac now secret token=.ok user) :
    ExactlySigned hmac secret token ↔ canonical (signaturePart token)=true := by
  obtain ⟨header,payload,signature,hparts,hsig⟩ := verifyToken_ok json hmac h
  obtain ⟨hh,hp,htoken⟩ := splitn_token_inv hparts
  have hpart : signaturePart token=String.ofList signature := by rw [signaturePart,hparts]; rfl
  rw [hpart,← encode_of_decode_iff hsig]
  constructor
  · intro given
    obtain ⟨header',payload',hh',hp',he⟩ := given
    have hparts' := splitn_token hh' hp'
      (base64urlEncode (hmac secret (utf8 (header'++"."++payload').toList)))
    rw [← he,hparts] at hparts'
    simp only [List.cons.injEq,and_true] at hparts'
    obtain ⟨rfl,rfl,rfl⟩ := hparts'
    rw [String.ofList_toList,toList_message]
  · intro he
    refine ⟨String.ofList header,String.ofList payload,?_,?_,?_⟩
    · rwa [String.toList_ofList]
    · rwa [String.toList_ofList]
    · rw [toList_message,String.toList_ofList,String.toList_ofList,he]
      exact htoken

/-- Text that decodes is the encoding of what it decodes to exactly when it is canonical, and so
an accepted token is exactly signed: of the canonical signatures one at most is accepted. -/
theorem verifyToken_exact_iff (secret : List UInt8) :
    (∀ s, (∀ bytes, base64urlDecode s=.ok bytes → base64urlEncode bytes=s) ↔
      canonical s=true) ∧
    (∀ now token user, verifyToken json hmac now secret token=.ok user →
      (ExactlySigned hmac secret token ↔ canonical (signaturePart token)=true)) ∧
    ∀ now now' header payload s s' user user', '.' ∉ header.toList → '.' ∉ payload.toList →
      canonical s=true → canonical s'=true →
      verifyToken json hmac now secret (header++"."++payload++"."++s)=.ok user →
      verifyToken json hmac now' secret (header++"."++payload++"."++s')=.ok user' → s=s' := by
  refine ⟨?_,?_,?_⟩
  · intro s
    obtain ⟨bytes,hs⟩ : ∃ bytes, base64urlDecode s=.ok bytes := ⟨_,rfl⟩
    rw [← encode_of_decode_iff hs]
    exact ⟨fun h => h bytes hs,fun h bytes' hs' => by
      rw [hs] at hs'
      cases hs'
      exact h⟩
  · intro now token user h
    exact exactlySigned_iff json hmac h
  · intro now now' header payload s s' user user' hh hp hs hs' h h'
    have decoded {now : Nat} {s user : String} (hs : canonical s=true)
        (h : verifyToken json hmac now secret (header++"."++payload++"."++s)=.ok user) :
        s=base64urlEncode (hmac secret (utf8 (header.toList ++ '.'::payload.toList))) := by
      obtain ⟨_,_,_,hparts,hsig⟩ := verifyToken_ok json hmac h
      rw [splitn_token hh hp] at hparts
      cases hparts
      rw [String.ofList_toList] at hsig
      exact ((encode_of_decode_iff hsig).mpr hs).symm
    rw [decoded hs h,decoded hs' h']

end

/-- The token of `admin` with a padding character behind its signature. -/
def paddedToken : String :=
  "eyJhbGciOiJIUzI1NiIsInR5cCI6IkpXVCJ9.eyJzdWIiOiJhZG1pbiIsImV4cCI6MTcwMDA4NjQwMH0." ++
    "cP--d0o29BFw_753Sjb0EXD_vndKNvQRcP--d0o29BE="

theorem paddedToken_accepted :
    verifyToken sampleJson hmacSha256 1700000000 sampleSecret paddedToken=.ok "admin" ∧
      ¬ExactlySigned hmacSha256 sampleSecret paddedToken := by
  have h : verifyToken sampleJson hmacSha256 1700000000 sampleSecret paddedToken=.ok "admin" := by
    decide +kernel
  refine ⟨h,?_⟩
  rw [exactlySigned_iff sampleJson hmacSha256 h]
  decide +kernel

end NacPlatform.ApiGateway
