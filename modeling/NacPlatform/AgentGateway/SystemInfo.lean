import NacPlatform.AgentGateway.Registration

namespace NacPlatform

/-- What the agent of a device collects about it. -/
structure SystemInfo where
  hostname : String
  osName : String
  osVersion : String
  agentVersion : String
  primaryMac : String
  deriving DecidableEq, Repr

namespace AgentService

open EndpointTable

/-- The message of `AgentTransport::register`. -/
def transportRegister (deviceId os version primaryMac hostname : String) : RegisterRequest :=
  ⟨deviceId,hostname,os,version,primaryMac⟩

/-- The registration at the start of the agent. -/
def startRequest (deviceId : String) (sys : SystemInfo) : RegisterRequest :=
  let osStr := sys.osName++" "++sys.osVersion
  transportRegister deviceId osStr sys.agentVersion sys.primaryMac sys.hostname

/-- What the conditions of a policy have to see in the row of a device that has not reported yet. -/
structure OsVisible (rt : Runtime) (sys : SystemInfo) (row : EndpointRow) : Prop where
  family : conditionMatches rt row (.osFamily sys.osName)=true
  version : row.postureOsVersion=none → ∀ v,
    conditionMatches rt row (.osVersionBelow v)=true ↔ compareOsVersion sys.osVersion v=.lt

section Row

variable {rt : Runtime} {pg : Postgres} {w w' : World} {remoteIp : Option String}
  {req : RegisterRequest} {row : EndpointRow}

/-- A statement that writes a row of a request, with its system and its version. -/
theorem upsert_row {t t' : EndpointTable} {now : Timestamp}
    (h : t.upsert pg (upsertOf remoteIp req) now=.ok (row,t')) :
    row.osFamily=some req.os ∧ row.osVersion=some req.version ∧ t'.findById row.id=some row := by
  obtain ⟨mac,ip,_,hput,hrow⟩ := upsert_ok h
  rcases hrow with ⟨r,_,rfl⟩|⟨_,rfl⟩
  · exact ⟨rfl,rfl,hput.self⟩
  · exact ⟨rfl,rfl,hput.self⟩

/-- The row that a registration answers with is stored. -/
theorem register_row (h : (register remoteIp req).run (Call.exec pg) w=(.ok row,w')) :
    row.osFamily=some req.os ∧ row.osVersion=some req.version ∧
      w'.endpoints.findById row.id=some row := by
  have second (w₁ : World)
      (h : Call.exec pg (.upsert (upsertOf remoteIp req)) w₁=(.ok row,w')) :
      row.osFamily=some req.os ∧ row.osVersion=some req.version ∧
        w'.endpoints.findById row.id=some row := by
    simp only [Call.exec] at h
    split at h
    · next row' t hupsert =>
      obtain ⟨hrow,hw⟩ := Prod.mk.inj h
      obtain rfl := Except.ok.inj hrow
      subst hw
      exact upsert_row hupsert
    · cases (Prod.mk.inj h).1
  rw [run_register] at h
  split at h
  · next moved t hmoves =>
    obtain ⟨hrow,hw⟩ := Prod.mk.inj h
    obtain rfl := Except.ok.inj hrow
    subst hw
    rcases upsertByAgentId_ok hmoves with ⟨hnone,_⟩|⟨_,_,_,_,_,_,_,_,hrow,hput⟩
    · cases hnone
    · obtain rfl := Option.some.inj hrow
      exact ⟨rfl,rfl,hput.self⟩
  · exact second _ h
  · exact second _ h

/-- The system's name with something behind it is not its name, in any case of its letters. -/
theorem name_with_version_ne (name version : String) :
    eqIgnoreAsciiCase (name++" "++version) name=false := by
  rw [← Bool.not_eq_true,eqIgnoreAsciiCase_iff]
  intro hsame
  have hlen := congrArg (fun s => s.toList.length) hsame
  simp [asciiLower] at hlen

theorem conditionMatches_osFamily {os : String} (hrow : row.osFamily=some os) (name : String) :
    conditionMatches rt row (.osFamily name)=eqIgnoreAsciiCase os name := by
  rw [conditionMatches,hrow]
  rfl

/-- Before a report the version condition looks at the version in the row. -/
theorem conditionMatches_osVersionBelow {version : String} (hrow : row.osVersion=some version)
    (hposture : row.postureOsVersion=none) (v : String) :
    conditionMatches rt row (.osVersionBelow v)=true ↔ compareOsVersion version v=.lt := by
  rw [conditionMatches,reportedOsVersion,hposture,hrow,Option.none_or,Option.getD_some]
  exact beq_iff_eq

end Row

/-- The policy conditions see neither the name nor the version of the system: the column of the name
has the version glued to it, and the column of the version has that of the agent. -/
theorem os_never_visible (rt : Runtime) (pg : Postgres) (w w' : World) (remoteIp : Option String)
    (deviceId : String) (sys : SystemInfo) (row : EndpointRow)
    (h : (register remoteIp (startRequest deviceId sys)).run (Call.exec pg) w=(.ok row,w')) :
    w'.endpoints.findById row.id=some row ∧ ¬OsVisible rt sys row ∧
      conditionMatches rt row (.osFamily sys.osName)=false ∧
      (row.postureOsVersion=none → ∀ v, conditionMatches rt row (.osVersionBelow v)=true ↔
        compareOsVersion sys.agentVersion v=.lt) := by
  obtain ⟨hfamily,hversion,hstored⟩ := register_row h
  have hunseen : conditionMatches rt row (.osFamily sys.osName)=false := by
    rw [conditionMatches_osFamily hfamily]
    exact name_with_version_ne sys.osName sys.osVersion
  refine ⟨hstored,?_,hunseen,?_⟩
  · intro hvisible
    rw [hvisible.family] at hunseen
    cases hunseen
  · intro hposture v
    exact conditionMatches_osVersionBelow hversion hposture v

/-- A device with Debian. -/
def debian : SystemInfo := ⟨"pc-7","Linux","6.1.0","0.1.0","AA-BB-CC-DD-EE-01"⟩

/-- Its first registration. -/
def debianStart : Except DbError EndpointRow × World :=
  (register (some "10.0.0.7") (startRequest "0f8c7b1e" debian)).run (Call.exec Postgres.plain)
    (.initial [])

theorem debianStart_row : ∃ row w', debianStart=(.ok row,w') ∧ row.osFamily=some "Linux 6.1.0" ∧
    row.osVersion=some "0.1.0" ∧ row.postureOsVersion=none := by
  have hrow : debianStart.1.toOption.map (fun r => (r.osFamily,r.osVersion,r.postureOsVersion))=
      some (some "Linux 6.1.0",some "0.1.0",none) := by decide +kernel
  obtain ⟨row,hok,hcolumns⟩ := Option.map_eq_some_iff.mp hrow
  obtain ⟨hfamily,hcolumns⟩ := Prod.mk.inj hcolumns
  obtain ⟨hversion,hposture⟩ := Prod.mk.inj hcolumns
  have hresult : debianStart.1=.ok row := by
    cases hcase : debianStart.1 with
    | error e =>
      rw [hcase] at hok
      cases hok
    | ok row' =>
      rw [hcase] at hok
      rw [Option.some.inj hok]
  exact ⟨row,debianStart.2,by rw [← hresult],hfamily,hversion,hposture⟩

theorem os_never_visible_debian : ∃ row w', debianStart=(.ok row,w') ∧
    w'.endpoints.findById row.id=some row ∧ ¬OsVisible .ascii debian row := by
  obtain ⟨row,w',h,_⟩ := debianStart_row
  have hnever := os_never_visible .ascii Postgres.plain (.initial []) w' (some "10.0.0.7")
    "0f8c7b1e" debian row h
  exact ⟨row,w',h,hnever.1,hnever.2.1⟩

/-- A policy for "Linux" does not match the row, and one for versions below 6 does. -/
theorem debian_not_visible : ∃ row w', debianStart=(.ok row,w') ∧ row.postureOsVersion=none ∧
    conditionMatches .ascii row (.osFamily "Linux")=false ∧
    conditionMatches .ascii row (.osVersionBelow "6")=true ∧
    compareOsVersion debian.osVersion "6"=.gt ∧ ¬OsVisible .ascii debian row := by
  obtain ⟨row,w',h,hfamily,hversion,hposture⟩ := debianStart_row
  have hunseen : conditionMatches .ascii row (.osFamily "Linux")=false := by
    rw [conditionMatches_osFamily hfamily]
    decide
  refine ⟨row,w',h,hposture,hunseen,?_,by decide,?_⟩
  · rw [conditionMatches_osVersionBelow hversion hposture]
    decide
  · intro hvisible
    exact absurd (hvisible.family.symm.trans hunseen) (by decide)

end AgentService

end NacPlatform
