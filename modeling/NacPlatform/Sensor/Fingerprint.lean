import NacPlatform.Framework.Text
import NacPlatform.Platform.Runtime

namespace NacPlatform.Fingerprinting

inductive Confidence where
  | low
  | medium
  | high
  deriving DecidableEq, Repr

def Confidence.rank : Confidence → Nat
  | low => 0
  | medium => 1
  | high => 2

instance : LE Confidence := ⟨fun a b => a.rank ≤ b.rank⟩

instance (a b : Confidence) : Decidable (a ≤ b) := inferInstanceAs (Decidable (a.rank ≤ b.rank))

theorem Confidence.le_refl (a : Confidence) : a ≤ a := Nat.le_refl a.rank

theorem Confidence.low_le (a : Confidence) : Confidence.low ≤ a := Nat.zero_le a.rank

theorem Confidence.le_high (a : Confidence) : a ≤ Confidence.high := by
  cases a <;> decide

structure Fingerprint where
  osFamily : Option String
  osVersion : Option String
  deviceType : Option String
  vendor : Option String
  confidence : Confidence
  deriving DecidableEq, Repr

/-- What was collected about a device; `oui` is the first half of its MAC, in hex. -/
structure FingerprintSignals where
  oui : Option String
  dhcpPrl : Option (List UInt8)
  userAgent : Option String
  tcpWinSize : Option UInt16
  tcpOptions : Option String
  ttl : Option UInt8
  deriving DecidableEq, Repr

/-- The vendors with their prefixes, in the order of the table. -/
def vendorOuis : List (String × List String) :=
  [("Apple",["000393","000502","000A27","000A95","000D93","001124","001451","0016CB","0017F2",
    "0019E3","001B63","001CB3","001D4F","001E52","001EC2","001F5B","001FF3","0021E9","002241",
    "002312","002332","00236C","0023DF","002436","002500","00254B","0025BC","002608","0026B9",
    "0026BB","003065","040CCE","041552","04E536","080007","10405F","109ADD","10DDB1","146090",
    "18AF61","1C91DF","20A2E4","24A074","283737","2C1F23","34159E","34363B","34C059","380F4A",
    "3C0754","3C2EFF","400010","40A6D9","40D32D","4488BB","485D60","4C3275","4C8D79","50BC96",
    "5404A6","54AE27","587F57","5C59A8","5CF938","60D9A3","60FB42","64200C","6476BA","64A3CB",
    "68096C","6C3E6D","6C709F","6CF049","70480F","704D7B","70CD60","74E2F5","783A84","7831C1",
    "7C04D0","7CF05F","7CE9D3","80EA96","84788B","84FC8D","880066","8C7B9D","8C8590","8CFAB8",
    "90840D","9027E4","982966","9C04EB","9C20F6","9C35EB","9CF387","A01789","A01C0E","A4C361",
    "A8667F","A8BE27","A8FAD8","ACBC32","ACDE48","ACE4B5","ACF2C5","ACFDEC","B03495","B06582",
    "B09FBA","B4F61C","B819EC","B85C93","B8C75A","BC3BAF","BC4CC4","BC926B","C08997","C42C03",
    "C82A14","C86F1D","CC08E0","D09466","D0A637","D0C5F3","D4619D","D8004D","D8BB2C","DC2B2A",
    "DCA904","E0B9BA","E4CE8F","E80688","EC3586","F07BCB","F0DBF8","F40F24","F4F15A","F81EDF",
    "FC253F","FCFC48"]),
   ("Samsung",["0418D6","08FC88","0C1420","183F47","1C62B8","200DB0","240AC4","2C4401","34AA8B",
    "380AA8","400E85","48449C","4844F7","4C3C16","4CACF7","5051D8","5C5187","5CF821","6017C8",
    "6C2F2C","6C8336","70F927","74458A","7825AD","78D6F0","80571A","805181","8471F8","84A466",
    "8C71F8","90F1AA","9435A0","9C0298","A01081","A07391","A40CF3","A81E84","A8D3B7","B047BF",
    "B47443","B4EF39","B814D5","BC14EF","C01173","C0BDD1","C47D46","CC07AB","D022BE","D06396",
    "D87195","DC7144","E4B021","E47CF9","E8508B","EC9BF3","F047D0","F47B5E","F8042E","FC0012"]),
   ("Cisco",["00000C","000142","000143","000163","000164","000196","000197","0001C7","0001C9",
    "0002FC","000374","000B45","000BBE","000CCE","000D28","000D29","000D65","000D6F","000E08",
    "000E38","000E39","000E83","000E84","000E8F","001010","0011BB","001120","001185","001201",
    "001310","001483","001601","00176B","001801","001906","001AA2","001B0D","001C0F","001D45",
    "001D70","001E13","001E14","001E7A","001F26","001F27","001F6C","001F9E","002001","00219B",
    "0021D8","002255","00238E","002390","002391","002497","002498","0025B4","0026CA","002702"]),
   ("Dell",["00065B","000874","000BDB","000F1F","001143","00123F","001372","001422","0015C5",
    "0016F0","00188B","0019B9","001AA0","001C23","001D09","001E4F","001FD0","002170","002219",
    "0023AE","0024E8","002564","14FEB5","18A99B","1C40AF","205548","24B6FD","34E6AD","3417EB",
    "5C260A","74867A","782BCB","848589","8851FB","906048","9844CF","A4BADB","B083FE","B4966A",
    "C81F66","D067E5","D4BE36","D4F557","E09D31","EC9A74","F04DA2","F8BC12"]),
   ("HP",["000B97","000D9D","000EB6","00110A","00166F","001708","001A4B","001B78","001CC4",
    "001E0B","001F29","002264","002354","002481","0025B3","0026F2","28924A","3091C1","3CFDF0",
    "380202","3C4A92","3C98C9","400FA3","4436AC","50657D","5066AB","58205F","6805CA","705A0F",
    "7452D3","788CB5","80C16E","843600","94571A","9457A5","A0D3C1","B499BA","C4346B","C83A35",
    "D4C9EF","D850E6","E0071B","E4115B","E8393D","F0921C"]),
   ("Lenovo",["002590","0022FA","0050FA","285012","54EE75","5CE0C5","689C70","70723C","7C7A91",
    "84978D","88703D","98FA9B","A076F0","D4E8B2","E8B4C8","F0DEF1"]),
   ("Intel",["000102","001101","001150","001302","001320","0013CE","0015FF","001760","0017C4",
    "001E65","00224D","002360","00262F","7085C2","8086F2","886B6F","8C45CF","946E49","9C4E36",
    "A0369F","A4C494","AC7F3E","B4B686","B44BFE","BCEE7B","C0CB38","E4B97A","E8D4E0","F4060D"]),
   ("Microsoft",["00125A","0015F2","001DD8","005056","281878","485073","54271E","7C1E52","985FD3",
    "BC8385","DCF505"]),
   ("Google",["3C5AB4","54600A","68D475","A47733","D43D7E","F88FCA","A4773A","1CB72C","48D705"]),
   ("Amazon",["0C7A37","147590","18742E","34D270","40B4CD","44650D","680571","6C5697","78D94F",
    "84D6D0","A002DC","B47C9C","F0272D","FC65DE"]),
   ("Netgear",["001E2A","00224D","20E52A","28C68E","2CB05D","44940C","4CE676","5C3316","6CB0CE",
    "80371A","84189F","A040A0","C0FF28","C4049B"]),
   ("TP-Link",["10FEED","14CC20","1C3BF3","20DC93","28D244","3C46D8","50BD5F","5C628B","60E327",
    "6466B3","688FF7","74DA38","7CB5C5","84162B","8CAAB5","90F652","94D9B3","98DABC","9C5322",
    "A84006","B00C86","C46E1F","E8DE27","F4EC38","F8D111"]),
   ("ASUS",["000EA6","049226","08606E","107B44","1C872C","2C56DC","30855B","3497F6","38D547",
    "40167E","4CE67F","60A44C","702E22","74D02B","7C1EA0","88D7F6","AC220B","BC946B","C860EB",
    "E03F49","F04261"]),
   ("VMware",["000C29","000569","001C14"]),
   ("Broadcom",["000AF7","001018","001AA0","0050EF","00904C","001EC2","083E5D","20E52A","3C970E",
    "4C1755","60EB69","94103E","A4ED43","ACF1DF","D86162"]),
   ("Huawei",["001882","00464B","00E0FC","0422F7","047975","086070","0C37DC","103140","1C8E5C",
    "200BC7","247F3C","285FDB","2C3557","2CAB25","34A849","3C8782","407C7D","407D0F","44CC59",
    "48DB50","4CBFEE","50A72B","50ADF7","542AEB","54511B","54A51B","5CF96A","6416F0","688A76",
    "68CC6E","6CF04B","704ABE","7CB2BD","84A8E4","84BF00","8C34FD","8CE748","900548","A0086F",
    "A83FA3","AC853D","ACBECE","B4430D","B47724","BC7670","C47D4F","C8D15E","CC53B5","D4E6B7",
    "DC004C","E0247F","E09496","E43682","E804A6","EC38D0","F03E90","F4559C","F48E92","F8BFB8",
    "FC48EF"]),
   ("Sony",["001A80","0025E7","302918","40B8B8","48590E","54E72D","6045CB","70F1A1","84C7E9",
    "8C647E","90CEE9","A8B86E","D479B4","EC26CA"]),
   ("LG",["001E75","003ADE","0088A4","14C913","1C232C","20CF30","28277E","285192","2C54CF",
    "3868DD","40B0FA","48599F","4C4E35","5C4959","6417A7","686A44","6C400A","843835","88C9D0",
    "8C3AE3","90E7C4","B4E62D","CC2D8C","D812B6","E8E5D6","F04F7C"]),
   ("Xiaomi",["002021","0C1DAF","10BA01","1486E8","18598B","28E31F","34CE00","3C8749","404260",
    "50EC50","58440E","5C1AC0","642737","6C4FAE","74051B","7811DC","80F623","8C97EA","9C993A",
    "A086C6","A4D179","AC2251","B0E235","C436C3","D43A78","D8A959","E41078","F048EE","F4831F",
    "FC64BA"]),
   ("OnePlus",["0024D4","18B169","1C9994","380B3B","3CA3C1","60B735","707EA0","7C1DA1","88D4B7",
    "A8656C","C0C80B","E8D7F5"]),
   ("D-Link",["000D88","000F3D","001195","001380","001CF0","0021E8","00265A","1062EB","1C5F2B",
    "28107B","2CA15E","340804","3C1E04","5474A9","6006C9","6CB2AE","74DADA","788A20","8091CA",
    "84C9B2","906204","A8638C","BC0F9A","C8BE19","CCB255","E46F13","F07D68"]),
   ("Raspberry Pi",["B827EB","DCA632","E45F01"]),
   ("Ubiquiti",["002722","049F81","24A43C","44D9E7","68725D","788A20","80E4DA","E063DA","F09FC2",
    "FC4687"])]

/-- The map that is built from the table: of a prefix listed twice, the later line counts. -/
def ouiLookup (rt : Runtime) (ouiHex : String) : Option String :=
  (vendorOuis.flatMap fun entry => entry.2.map fun oui => (oui,entry.1)).reverse.lookup
    (rt.toUppercase ouiHex)

/-- The system from the TTL of a packet, not corrected for the hops before. -/
def osFromTtl (ttl : UInt8) : Option String :=
  if 113 ≤ ttl ∧ ttl ≤ 128 then some "Windows"
  else if 49 ≤ ttl ∧ ttl ≤ 64 then some "Linux"
  else if 240 ≤ ttl then some "Network Equipment"
  else if ttl=239 then some "Unix"
  else none

def inferFromVendor (vendor : String) (fp : Fingerprint) : Fingerprint :=
  match vendor with
  | "Apple" => {fp with osFamily := fp.osFamily.or (some "iOS/macOS")}
  | "Cisco" => {fp with deviceType := fp.deviceType.or (some "Network Equipment")}
  | "Netgear" | "TP-Link" | "D-Link" | "ASUS" | "Ubiquiti" =>
    {fp with deviceType := fp.deviceType.or (some "Network Equipment")}
  | "VMware" => {fp with deviceType := fp.deviceType.or (some "Virtual Machine")}
  | "Raspberry Pi" => {fp with
      deviceType := fp.deviceType.or (some "IoT")
      osFamily := fp.osFamily.or (some "Linux")}
  | _ => fp

def windowsPrl : List UInt8 := [1,3,6,15,31,33,43,44,46,47,119,121,249,252]

def linuxPrl : List UInt8 := [1,28,2,3,15,6,119,12,44,47,26,121,42]

/-! The four detectors, each of which goes on from what the ones before it found. -/

def fromOui (rt : Runtime) (signals : FingerprintSignals) (fp : Fingerprint) : Fingerprint :=
  match signals.oui.bind (ouiLookup rt) with
  | some vendor => inferFromVendor vendor {fp with vendor := some vendor,confidence := .medium}
  | none => fp

def fromDhcp (signals : FingerprintSignals) (fp : Fingerprint) : Fingerprint :=
  match signals.dhcpPrl with
  | some prl =>
    let fp := if prl=windowsPrl then {fp with osFamily := some "Windows",confidence := .high}
      else fp
    if prl=linuxPrl then {fp with osFamily := some "Linux",confidence := .high} else fp
  | none => fp

def fromTtl (signals : FingerprintSignals) (fp : Fingerprint) : Fingerprint :=
  match signals.ttl.bind osFromTtl with
  | some os => {fp with osFamily := fp.osFamily.or (some os)}
  | none => fp

def fromUserAgent (signals : FingerprintSignals) (fp : Fingerprint) : Fingerprint :=
  match signals.userAgent with
  | some ua =>
    if textContains ua "Windows NT" then {fp with osFamily := some "Windows",confidence := .high}
    else if textContains ua "iPhone" || textContains ua "iPad" then
      {fp with osFamily := some "iOS",deviceType := some "Mobile",confidence := .high}
    else if textContains ua "Android" then
      {fp with osFamily := some "Android",deviceType := some "Mobile",confidence := .high}
    else if textContains ua "Macintosh" then
      {fp with osFamily := some "macOS",confidence := .high}
    else if textContains ua "Linux" then
      {fp with osFamily := some "Linux",confidence := .medium}
    else fp
  | none => fp

def blank : Fingerprint := ⟨none,none,none,none,.low⟩

/-- It never fails. -/
def identify (rt : Runtime) (signals : FingerprintSignals) : Fingerprint :=
  fromUserAgent signals (fromTtl signals (fromDhcp signals (fromOui rt signals blank)))

/-! What a detector finds is what it makes of a blank fingerprint. -/

inductive Signal where
  | oui
  | dhcpPrl
  | ttl
  | userAgent
  deriving DecidableEq, Repr

/-- The signals without all but one. -/
def FingerprintSignals.only (signals : FingerprintSignals) : Signal → FingerprintSignals
  | .oui => ⟨signals.oui,none,none,none,none,none⟩
  | .dhcpPrl => ⟨none,signals.dhcpPrl,none,none,none,none⟩
  | .ttl => ⟨none,none,none,none,none,signals.ttl⟩
  | .userAgent => ⟨none,none,signals.userAgent,none,none,none⟩

section Detectors

variable (rt : Runtime) (signals : FingerprintSignals)

/-- The family that a signal stands for. -/
def familyOf : Signal → Option String
  | .oui => (fromOui rt signals blank).osFamily
  | .dhcpPrl => (fromDhcp signals blank).osFamily
  | .ttl => (fromTtl signals blank).osFamily
  | .userAgent => (fromUserAgent signals blank).osFamily

/-- How far a signal is trusted: what is reported on it alone. -/
def strength (k : Signal) : Confidence := (identify rt (signals.only k)).confidence

/-- The signal that set the reported family. The user agent and the DHCP list write over what was
found before them, the TTL writes only where nothing was. -/
def familySetter : Option Signal :=
  [Signal.userAgent,.dhcpPrl,.oui,.ttl].find? fun k => (familyOf rt signals k).isSome

variable {rt signals}

theorem inferFromVendor_confidence (vendor : String) (fp : Fingerprint) :
    (inferFromVendor vendor fp).confidence=fp.confidence := by
  unfold inferFromVendor
  split <;> rfl

theorem fromOui_confidence : (fromOui rt signals blank).confidence=
    if (signals.oui.bind (ouiLookup rt)).isSome then .medium else .low := by
  unfold fromOui
  cases signals.oui.bind (ouiLookup rt) with
  | none => rfl
  | some vendor =>
    simp only []
    rw [inferFromVendor_confidence]
    rfl

/-- A family is found in a prefix only with its vendor. -/
theorem vendor_of_familyOf (h : (familyOf rt signals .oui).isSome=true) :
    (signals.oui.bind (ouiLookup rt)).isSome=true := by
  unfold familyOf fromOui at h
  cases hv : signals.oui.bind (ouiLookup rt) with
  | none => simp [hv,blank] at h
  | some vendor => rfl

variable (rt)

theorem fromDhcp_osFamily (fp : Fingerprint) :
    (fromDhcp signals fp).osFamily=(familyOf rt signals .dhcpPrl).or fp.osFamily := by
  unfold familyOf fromDhcp
  cases signals.dhcpPrl with
  | none => rfl
  | some prl =>
    simp only []
    split_ifs <;> rfl

theorem fromDhcp_confidence (fp : Fingerprint) : (fromDhcp signals fp).confidence=
    if (familyOf rt signals .dhcpPrl).isSome then .high else fp.confidence := by
  unfold familyOf fromDhcp
  cases signals.dhcpPrl with
  | none => rfl
  | some prl =>
    simp only []
    split_ifs <;> first | rfl | contradiction

theorem fromTtl_osFamily (fp : Fingerprint) :
    (fromTtl signals fp).osFamily=fp.osFamily.or (familyOf rt signals .ttl) := by
  unfold familyOf fromTtl
  cases signals.ttl.bind osFromTtl <;> simp [blank]

theorem fromTtl_confidence (fp : Fingerprint) :
    (fromTtl signals fp).confidence=fp.confidence := by
  unfold fromTtl
  split <;> rfl

theorem fromUserAgent_osFamily (fp : Fingerprint) :
    (fromUserAgent signals fp).osFamily=(familyOf rt signals .userAgent).or fp.osFamily := by
  unfold familyOf fromUserAgent
  cases signals.userAgent with
  | none => rfl
  | some ua =>
    simp only []
    split_ifs <;> rfl

theorem fromUserAgent_confidence (fp : Fingerprint) : (fromUserAgent signals fp).confidence=
    if (familyOf rt signals .userAgent).isSome then (fromUserAgent signals blank).confidence
    else fp.confidence := by
  unfold familyOf fromUserAgent
  cases signals.userAgent with
  | none => rfl
  | some ua =>
    simp only []
    split_ifs <;> first | rfl | contradiction

end Detectors

section Identify

variable (rt : Runtime) (signals : FingerprintSignals)

theorem identify_osFamily : (identify rt signals).osFamily=
    (familyOf rt signals .userAgent).or ((familyOf rt signals .dhcpPrl).or
      ((familyOf rt signals .oui).or (familyOf rt signals .ttl))) := by
  rw [identify,fromUserAgent_osFamily rt,fromTtl_osFamily rt,fromDhcp_osFamily rt,
    Option.or_assoc]
  rfl

/-- The trust in the best signal there is, where `prefixed` says whether the prefix is one. -/
def trust (prefixed : Bool) : Confidence :=
  if (familyOf rt signals .userAgent).isSome then (fromUserAgent signals blank).confidence
  else if (familyOf rt signals .dhcpPrl).isSome then .high
  else if prefixed then .medium else .low

theorem identify_confidence : (identify rt signals).confidence=
    trust rt signals (signals.oui.bind (ouiLookup rt)).isSome := by
  rw [identify,fromUserAgent_confidence rt,fromTtl_confidence,fromDhcp_confidence rt,
    fromOui_confidence,trust]

/-- The setter's family is the one that is reported. -/
theorem identify_osFamily_setter :
    (identify rt signals).osFamily=(familySetter rt signals).bind (familyOf rt signals) := by
  rw [identify_osFamily,familySetter]
  cases hua : familyOf rt signals .userAgent with
  | some family => simp [hua]
  | none =>
    cases hprl : familyOf rt signals .dhcpPrl with
    | some family => simp [hua,hprl]
    | none =>
      cases houi : familyOf rt signals .oui with
      | some family => simp [hua,hprl,houi]
      | none => cases httl : familyOf rt signals .ttl <;> simp [hua,hprl,houi,httl]

theorem familySetter_eq : familySetter rt signals=
    if (familyOf rt signals .userAgent).isSome then some .userAgent
    else if (familyOf rt signals .dhcpPrl).isSome then some .dhcpPrl
    else if (familyOf rt signals .oui).isSome then some .oui
    else if (familyOf rt signals .ttl).isSome then some .ttl else none := by
  unfold familySetter
  split_ifs with hua hprl houi httl
  · simp [hua]
  · simp [hua,hprl]
  · simp [hua,hprl,houi]
  · simp [hua,hprl,houi,httl]
  · simp [hua,hprl,houi,httl]

/-- The setter is the most trusted of the signals that stand for a family. -/
theorem strength_setter {k : Signal} (h : familySetter rt signals=some k) :
    strength rt signals k=trust rt signals (familyOf rt signals .oui).isSome := by
  rw [familySetter_eq] at h
  rw [strength,identify_confidence]
  split_ifs at h with hua hprl houi httl
  · obtain rfl := Option.some.inj h
    have alone : (familyOf rt (signals.only .userAgent) .userAgent).isSome=true := hua
    rw [trust,trust,if_pos alone,if_pos hua]
    rfl
  · obtain rfl := Option.some.inj h
    have alone : (familyOf rt (signals.only .dhcpPrl) .dhcpPrl).isSome=true := hprl
    rw [trust,trust,if_neg hua,if_pos hprl,if_pos alone]
    rfl
  · obtain rfl := Option.some.inj h
    have alone : ((signals.only .oui).oui.bind (ouiLookup rt)).isSome=true :=
      vendor_of_familyOf houi
    rw [trust,trust,if_neg hua,if_neg hprl,if_pos houi,if_pos alone]
    rfl
  · obtain rfl := Option.some.inj h
    rw [trust,trust,if_neg hua,if_neg hprl,if_neg houi]
    rfl

end Identify

/-- Every signal of `s` is one of `s'` too, with the same value. -/
structure Extends (s' s : FingerprintSignals) : Prop where
  oui : ∀ v, s.oui=some v → s'.oui=some v
  dhcpPrl : ∀ v, s.dhcpPrl=some v → s'.dhcpPrl=some v
  userAgent : ∀ v, s.userAgent=some v → s'.userAgent=some v
  tcpWinSize : ∀ v, s.tcpWinSize=some v → s'.tcpWinSize=some v
  tcpOptions : ∀ v, s.tcpOptions=some v → s'.tcpOptions=some v
  ttl : ∀ v, s.ttl=some v → s'.ttl=some v

/-- More signals lower no confidence, and where they change the family, it is then set by a signal
that is trusted as far as the one that set it before. -/
structure EvidenceRespected (rt : Runtime) (s s' : FingerprintSignals) : Prop where
  confidence : (identify rt s).confidence ≤ (identify rt s').confidence
  family : ∀ k k', familySetter rt s=some k → familySetter rt s'=some k' →
    (identify rt s).osFamily≠(identify rt s').osFamily → strength rt s k ≤ strength rt s' k'

/-- A user agent of a system that has "Linux" in it as its only mark. -/
def LinuxAgent (ua : String) : Prop :=
  textContains ua "Linux"=true ∧
    ∀ mark ∈ ["Windows NT","iPhone","iPad","Android","Macintosh"], textContains ua mark=false

/-- A DHCP list tells the system, and a user agent that mentions Linux comes to it. -/
structure Downgraded (s s' : FingerprintSignals) : Prop where
  none_before : s.userAgent=none
  list : s.dhcpPrl=some windowsPrl ∨ s.dhcpPrl=some linuxPrl
  agent : ∃ ua, s'.userAgent=some ua ∧ LinuxAgent ua

section Law

variable {rt : Runtime} {s s' : FingerprintSignals}

theorem familyOf_dhcpPrl_isSome : (familyOf rt s .dhcpPrl).isSome=true ↔
    s.dhcpPrl=some windowsPrl ∨ s.dhcpPrl=some linuxPrl := by
  unfold familyOf fromDhcp
  cases s.dhcpPrl with
  | none => simp [blank]
  | some prl =>
    simp only [Option.some.injEq]
    split_ifs with hw hl hl <;> simp [hw,hl,blank]

/-- The user agent leaves the confidence at most where it is high, but for a Linux agent. -/
theorem fromUserAgent_blank (h : (familyOf rt s .userAgent).isSome=true) :
    (fromUserAgent s blank).confidence=.high ∨
      (fromUserAgent s blank).confidence=.medium ∧ ∃ ua, s.userAgent=some ua ∧ LinuxAgent ua := by
  unfold familyOf fromUserAgent at h
  unfold fromUserAgent
  cases hua : s.userAgent with
  | none => simp [hua,blank] at h
  | some ua =>
    simp only [hua] at h ⊢
    split_ifs at h ⊢ with hwindows hios handroid hmac hlinux
    · exact .inl rfl
    · exact .inl rfl
    · exact .inl rfl
    · exact .inl rfl
    · simp only [Bool.or_eq_true,not_or,Bool.not_eq_true] at hwindows hios handroid hmac
      exact .inr ⟨rfl,ua,rfl,hlinux,by simp [hwindows,hios,handroid,hmac]⟩
    · simp [blank] at h

theorem fromUserAgent_of_linuxAgent {ua : String} (hua : s.userAgent=some ua)
    (h : LinuxAgent ua) (fp : Fingerprint) :
    fromUserAgent s fp={fp with osFamily := some "Linux",confidence := .medium} := by
  obtain ⟨hlinux,hother⟩ := h
  simp only [List.mem_cons,List.not_mem_nil,or_false,forall_eq_or_imp,forall_eq] at hother
  obtain ⟨hwindows,hiphone,hipad,handroid,hmac⟩ := hother
  simp [fromUserAgent,hua,hlinux,hwindows,hiphone,hipad,handroid,hmac]

/-- What a present signal stands for, it still stands for among more signals. -/
theorem familyOf_extends (hx : Extends s' s) {k : Signal}
    (h : (familyOf rt s k).isSome=true) : familyOf rt s' k=familyOf rt s k := by
  cases k with
  | oui =>
    cases hv : s.oui with
    | none => simp [familyOf,fromOui,hv,blank] at h
    | some v => simp only [familyOf,fromOui,hv,hx.oui v hv]
  | dhcpPrl =>
    cases hv : s.dhcpPrl with
    | none => simp [familyOf,fromDhcp,hv,blank] at h
    | some v => simp only [familyOf,fromDhcp,hv,hx.dhcpPrl v hv]
  | ttl =>
    cases hv : s.ttl with
    | none => simp [familyOf,fromTtl,hv,blank] at h
    | some v => simp only [familyOf,fromTtl,hv,hx.ttl v hv]
  | userAgent =>
    cases hv : s.userAgent with
    | none => simp [familyOf,fromUserAgent,hv,blank] at h
    | some v => simp only [familyOf,fromUserAgent,hv,hx.userAgent v hv]

theorem userAgent_of_extends (hx : Extends s' s) (h : (familyOf rt s .userAgent).isSome=true) :
    s'.userAgent=s.userAgent := by
  cases hv : s.userAgent with
  | none => simp [familyOf,fromUserAgent,hv,blank] at h
  | some v => exact hx.userAgent v hv

/-- A user agent that was not there before is trusted as far as what was, unless it downgrades. -/
theorem trust_le_userAgent (hx : Extends s' s) (hno : ¬Downgraded s s')
    (hua : ¬(familyOf rt s .userAgent).isSome=true)
    (hua' : (familyOf rt s' .userAgent).isSome=true) (prefixed : Bool) :
    trust rt s prefixed ≤ (fromUserAgent s' blank).confidence := by
  rcases fromUserAgent_blank hua' with hhigh|⟨hmedium,hagent⟩
  · rw [hhigh]
    exact Confidence.le_high _
  · have hnone : s.userAgent=none := by
      cases hv : s.userAgent with
      | none => rfl
      | some v =>
        have hsame : familyOf rt s' .userAgent=familyOf rt s .userAgent := by
          simp only [familyOf,fromUserAgent,hv,hx.userAgent v hv]
        exact absurd (hsame ▸ hua') hua
    have hprl : ¬(familyOf rt s .dhcpPrl).isSome=true := by
      intro hlist
      exact hno ⟨hnone,familyOf_dhcpPrl_isSome.mp hlist,hagent⟩
    rw [hmedium,trust,if_neg hua,if_neg hprl]
    cases prefixed <;> decide

theorem trust_mono (hx : Extends s' s) (hno : ¬Downgraded s s') {prefixed prefixed' : Bool}
    (hp : prefixed=true → prefixed'=true) : trust rt s prefixed ≤ trust rt s' prefixed' := by
  by_cases hua : (familyOf rt s .userAgent).isSome=true
  · have hua' : (familyOf rt s' .userAgent).isSome=true := by rwa [familyOf_extends hx hua]
    have hsame : fromUserAgent s' blank=fromUserAgent s blank := by
      simp only [fromUserAgent,userAgent_of_extends hx hua]
    rw [trust,trust,if_pos hua,if_pos hua',hsame]
    exact Confidence.le_refl _
  · by_cases hua' : (familyOf rt s' .userAgent).isSome=true
    · have hle := trust_le_userAgent hx hno hua hua' prefixed
      rwa [trust.eq_def rt s' prefixed',if_pos hua']
    · rw [trust,trust,if_neg hua,if_neg hua']
      by_cases hprl : (familyOf rt s .dhcpPrl).isSome=true
      · have hprl' : (familyOf rt s' .dhcpPrl).isSome=true := by rwa [familyOf_extends hx hprl]
        rw [if_pos hprl,if_pos hprl']
        exact Confidence.le_refl _
      · rw [if_neg hprl]
        by_cases hprl' : (familyOf rt s' .dhcpPrl).isSome=true
        · rw [if_pos hprl']
          exact Confidence.le_high _
        · rw [if_neg hprl']
          cases prefixed with
          | false => exact Confidence.low_le _
          | true =>
            rw [hp rfl]
            exact Confidence.le_refl _

end Law

/-- Weaker evidence never takes the place of stronger, but where a Linux user agent comes to a DHCP
list that told the system: then the confidence falls from high to medium. -/
theorem evidence_respected_iff (rt : Runtime) (s s' : FingerprintSignals) (hx : Extends s' s) :
    EvidenceRespected rt s s' ↔ ¬Downgraded s s' := by
  constructor
  · intro hrespected hdown
    obtain ⟨ua,hua,hlinux⟩ := hdown.agent
    have before : (identify rt s).confidence=.high := by
      have hlist : (familyOf rt s .dhcpPrl).isSome=true :=
        familyOf_dhcpPrl_isSome.mpr hdown.list
      have hnone : ¬(familyOf rt s .userAgent).isSome=true := by
        simp [familyOf,fromUserAgent,hdown.none_before,blank]
      rw [identify_confidence,trust,if_neg hnone,if_pos hlist]
    have after : (identify rt s').confidence=.medium := by
      rw [identify,fromUserAgent_of_linuxAgent hua hlinux]
    have hle := hrespected.confidence
    rw [before,after] at hle
    exact absurd hle (by decide)
  · intro hno
    constructor
    · rw [identify_confidence,identify_confidence]
      apply trust_mono hx hno
      intro hvendor
      cases hv : s.oui with
      | none => simp [hv] at hvendor
      | some v => rwa [hx.oui v hv,← hv]
    · intro k k' hk hk' _
      rw [strength_setter rt s hk,strength_setter rt s' hk']
      apply trust_mono hx hno
      intro hfamily
      rwa [familyOf_extends hx hfamily]

/-- The DHCP list of a Windows device, alone. -/
def dhcpOnly : FingerprintSignals := ⟨none,some windowsPrl,none,none,none,none⟩

theorem evidence_respected_iff_windows :
    EvidenceRespected .ascii dhcpOnly {dhcpOnly with userAgent := some "Windows NT 10.0"} := by
  refine (evidence_respected_iff .ascii dhcpOnly _ ?_).mpr ?_
  · constructor <;> simp [dhcpOnly]
  · intro hdown
    obtain ⟨ua,hua,_,hother⟩ := hdown.agent
    obtain rfl := Option.some.inj hua
    exact absurd (hother "Windows NT" (by simp)) (by decide)

/-- A browser on Linux comes to it: "Linux" with medium confidence takes the place of "Windows" with
high. -/
theorem evidence_not_respected :
    let s' := {dhcpOnly with userAgent := some "Mozilla/5.0 (X11; Linux x86_64)"}
    Extends s' dhcpOnly ∧ (identify .ascii dhcpOnly).osFamily=some "Windows" ∧
      (identify .ascii s').osFamily=some "Linux" ∧ ¬EvidenceRespected .ascii dhcpOnly s' := by
  intro s'
  refine ⟨?_,by decide,by decide,?_⟩
  · constructor <;> simp [s',dhcpOnly]
  · intro hrespected
    exact absurd hrespected.confidence (by decide)

end NacPlatform.Fingerprinting
