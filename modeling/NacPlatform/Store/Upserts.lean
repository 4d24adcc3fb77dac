import NacPlatform.Framework.Run
import NacPlatform.Store.Lookup

namespace NacPlatform

/-- The columns that an upsert merges. -/
inductive MergedColumn where
  | ipAddress
  | hostname
  | osFamily
  | osVersion
  | deviceType
  | vendor
  | interface
  | agentId
  deriving DecidableEq, Repr

def EndpointRow.get (r : EndpointRow) : MergedColumn → Option String
  | .ipAddress => r.ipAddress
  | .hostname => r.hostname
  | .osFamily => r.osFamily
  | .osVersion => r.osVersion
  | .deviceType => r.deviceType
  | .vendor => r.vendor
  | .interface => r.interface
  | .agentId => r.agentId

/-- A row without them, and without the time at which the device was seen last. -/
def EndpointRow.others (r : EndpointRow) : EndpointRow :=
  { r with
    ipAddress := none
    hostname := none
    osFamily := none
    osVersion := none
    deviceType := none
    vendor := none
    interface := none
    agentId := none
    lastSeen := 0 }

/-- A row without the time at which the device was seen last. -/
def EndpointRow.unseen (r : EndpointRow) : EndpointRow := { r with lastSeen := 0 }

def UpsertEndpoint.get (ep : UpsertEndpoint) : MergedColumn → Option String
  | .ipAddress => ep.ipAddress
  | .hostname => ep.hostname
  | .osFamily => ep.osFamily
  | .osVersion => ep.osVersion
  | .deviceType => ep.deviceType
  | .vendor => ep.vendor
  | .interface => ep.interface
  | .agentId => ep.agentId

/-- No column is given by both. -/
def UpsertEndpoint.Apart (ep ep' : UpsertEndpoint) : Prop :=
  ∀ c, ep.get c=none ∨ ep'.get c=none

namespace EndpointTable

section Statements

variable (pg : Postgres)

/-- One upsert after another, each at its time, as long as they succeed. -/
def upserts : List (UpsertEndpoint × Timestamp) → EndpointTable → Except DbError EndpointTable
  | [],t => .ok t
  | (ep,now)::eps,t =>
    match t.upsert pg ep now with
    | .ok (_,t') => upserts eps t'
    | .error e => .error e

/-- What an upsert gives for a column, as the column then shows it. -/
def given (e : UpsertEndpoint × Timestamp) (c : MergedColumn) : Option String :=
  if c=.ipAddress then e.1.ipAddress.bind pg.inet else e.1.get c

/-- `r'` has in each merged column what was given last, else what `r` has there, and in the other
columns what `r` has. -/
structure Merged (eps : List (UpsertEndpoint × Timestamp)) (r r' : EndpointRow) : Prop where
  columns : ∀ c, r'.get c=(lastWrite (given pg) c eps).or (r.get c)
  others : r'.others=r.others

end Statements

/-- A row as the defaults of the schema have it, first seen at a time. -/
def defaultRow (id : Uuid) (mac : MacAddr) (now : Timestamp) : EndpointRow :=
  insertedRow id mac none ⟨mac.text,none,none,none,none,none,none,none,none⟩ now

/-- The same rows, but for the times at which devices were seen last. -/
def SameButSeen (t t' : EndpointTable) : Prop :=
  ∀ id, (t.findById id).map EndpointRow.unseen=(t'.findById id).map EndpointRow.unseen

section Merge

variable {pg : Postgres} {t t' : EndpointTable} {ep : UpsertEndpoint} {now : Timestamp}
  {mac : MacAddr} {ip : Option String}

theorem given_ipAddress (hcast : cast pg ep=.ok (mac,ip)) : ep.ipAddress.bind pg.inet=ip := by
  rcases (cast_ok hcast).2 with ⟨hnone,rfl⟩|⟨s,shown,hs,hshown,rfl⟩
  · rw [hnone,Option.bind_none]
  · rw [hs,Option.bind_some,hshown]

theorem merged_mergedRow (hcast : cast pg ep=.ok (mac,ip)) (r : EndpointRow) :
    Merged pg [(ep,now)] r (mergedRow ip ep now r) := by
  constructor
  · intro c
    rw [lastWrite,lastWrite,Option.none_or]
    cases c with
    | ipAddress =>
      rw [given,if_pos rfl,given_ipAddress hcast]
      rfl
    | _ => rfl
  · rfl

theorem merged_insertedRow (hcast : cast pg ep=.ok (mac,ip)) (id : Uuid) :
    Merged pg [(ep,now)] (defaultRow id mac now) (insertedRow id mac ip ep now) := by
  constructor
  · intro c
    have hdefault : (defaultRow id mac now).get c=none := by cases c <;> rfl
    rw [lastWrite,lastWrite,Option.none_or,hdefault,Option.or_none]
    cases c with
    | ipAddress =>
      rw [given,if_pos rfl,given_ipAddress hcast]
      rfl
    | _ => rfl
  · rfl

theorem Merged.refl (r : EndpointRow) : Merged pg [] r r := ⟨fun _ => rfl,rfl⟩

theorem Merged.trans {eps eps' : List (UpsertEndpoint × Timestamp)} {r r' r'' : EndpointRow}
    (h : Merged pg eps r r') (h' : Merged pg eps' r' r'') : Merged pg (eps++eps') r r'' := by
  constructor
  · intro c
    rw [h'.columns c,h.columns c,lastWrite_append,Option.or_assoc]
  · rw [h'.others,h.others]

/-- A row written under its MAC changes the row of no other MAC. -/
theorem Put.findByMac_other {row : EndpointRow} (h : Put t t' row)
    (hold : ∀ r, t.findById row.id=some r → r.macAddress=row.macAddress) {m : MacAddr}
    (hm : m≠row.macAddress) : t'.findByMac m=t.findByMac m := by
  apply Option.ext
  intro r
  rw [findByMac_eq_some,findByMac_eq_some]
  by_cases hid : r.id=row.id
  · constructor
    · intro hr
      obtain ⟨hfind,hmac⟩ := hr
      rw [hid,h.self] at hfind
      obtain rfl := Option.some.inj hfind
      exact absurd hmac.symm hm
    · intro hr
      obtain ⟨hfind,hmac⟩ := hr
      rw [hid] at hfind
      exact absurd (hmac.symm.trans (hold r hfind)) hm
  · rw [h.other hid]

/-- One upsert: the row of its MAC is merged with what is stored or with the defaults, and the rows
of other MACs stay. -/
theorem upsert_step {row : EndpointRow} (h : t.upsert pg ep now=.ok (row,t'))
    (hmac : pg.macaddr ep.macAddress=some mac) :
    t'.findByMac mac=some row ∧
      (∀ r, t.findByMac mac=some r → Merged pg [(ep,now)] r row) ∧
      (t.findByMac mac=none → Merged pg [(ep,now)] (defaultRow t.freshId mac now) row) ∧
      ∀ m, m≠mac → t'.findByMac m=t.findByMac m := by
  have hrowmac := upsert_mac h
  obtain ⟨mac',ip,hcast,hput,hrow⟩ := upsert_ok h
  obtain rfl := Option.some.inj (hmac.symm.trans (cast_ok hcast).1)
  have hsame : row.macAddress=mac := Option.some.inj (hrowmac.symm.trans hmac)
  have hold : ∀ r, t.findById row.id=some r → r.macAddress=row.macAddress := by
    intro r hr
    obtain ⟨ip',hcast',hmerged⟩ := upsert_stored h hr
    rw [hmerged]
    rfl
  refine ⟨findByMac_eq_some.mpr ⟨hput.self,hsame⟩,?_,?_,?_⟩
  · intro r hr
    rcases hrow with ⟨r',hr',rfl⟩|⟨hnone,_⟩
    · obtain rfl := Option.some.inj (hr.symm.trans hr')
      exact merged_mergedRow hcast r
    · rw [hr] at hnone
      cases hnone
  · intro hnone
    rcases hrow with ⟨r',hr',_⟩|⟨_,rfl⟩
    · rw [hnone] at hr'
      cases hr'
    · exact merged_insertedRow hcast t.freshId
  · intro m hm
    exact hput.findByMac_other hold (by rwa [hsame])

theorem upserts_cons {eps : List (UpsertEndpoint × Timestamp)} {t₂ : EndpointTable}
    (h : upserts pg ((ep,now)::eps) t=.ok t₂) :
    ∃ row t₁, t.upsert pg ep now=.ok (row,t₁) ∧ upserts pg eps t₁=.ok t₂ := by
  rw [upserts] at h
  split at h
  · next row t₁ hupsert => exact ⟨row,t₁,hupsert,h⟩
  · cases h

/-- A run of upserts for one MAC that a row has. -/
theorem upserts_merged {eps : List (UpsertEndpoint × Timestamp)}
    (hmac : ∀ e ∈ eps, pg.macaddr e.1.macAddress=some mac) (h : upserts pg eps t=.ok t')
    {r : EndpointRow} (hr : t.findByMac mac=some r) :
    ∃ r', t'.findByMac mac=some r' ∧ Merged pg eps r r' := by
  induction eps generalizing t r with
  | nil =>
    cases h
    exact ⟨r,hr,.refl r⟩
  | cons e eps ih =>
    obtain ⟨ep,now⟩ := e
    obtain ⟨row,t₁,hupsert,hrest⟩ := upserts_cons h
    obtain ⟨hrow,hmerged,_,_⟩ := upsert_step hupsert (hmac (ep,now) List.mem_cons_self)
    obtain ⟨r',hr',hlast⟩ := ih (fun e he => hmac e (List.mem_cons_of_mem _ he)) hrest hrow
    exact ⟨r',hr',(hmerged r hr).trans hlast⟩

theorem upserts_others {eps : List (UpsertEndpoint × Timestamp)}
    (hmac : ∀ e ∈ eps, pg.macaddr e.1.macAddress=some mac) (h : upserts pg eps t=.ok t')
    {m : MacAddr} (hm : m≠mac) : t'.findByMac m=t.findByMac m := by
  induction eps generalizing t with
  | nil =>
    cases h
    rfl
  | cons e eps ih =>
    obtain ⟨ep,now⟩ := e
    obtain ⟨row,t₁,hupsert,hrest⟩ := upserts_cons h
    obtain ⟨_,_,_,hothers⟩ := upsert_step hupsert (hmac (ep,now) List.mem_cons_self)
    rw [ih (fun e he => hmac e (List.mem_cons_of_mem _ he)) hrest,hothers m hm]

end Merge

section Commute

variable {pg : Postgres} {t t' t₁ t₂ : EndpointTable} {ep ep' : UpsertEndpoint} {mac : MacAddr}
  {ip ip' : Option String} {r row row' : EndpointRow}

theorem Put.trans (h : Put t t₁ row) (h' : Put t₁ t₂ row') (hid : row'.id=row.id) :
    Put t t₂ row' := by
  intro id
  rw [h' id,h id,hid]
  by_cases hsame : id=row.id
  · rw [if_pos hsame,if_pos hsame]
  · rw [if_neg hsame,if_neg hsame,if_neg hsame]

/-- Once a row is written with an agent id, no other row has that id. -/
theorem Put.agent_free (h : Put t t' row) (hr : t.findById r.id=some r) (hid : r.id≠row.id)
    {a : String} (ha : row.agentId=some a) : r.agentId≠some a := by
  intro hsame
  have hr' : t'.findById r.id=some r := by rw [h.other hid,hr]
  have hboth := agent_unique (findById_eq_some.mp hr').1 (findById_eq_some.mp h.self).1 hsame ha
  exact hid (congrArg EndpointRow.id hboth)

/-- An upsert for a MAC that a row has. -/
theorem upsert_existing {now : Timestamp} (h : t.upsert pg ep now=.ok (row,t'))
    (hmac : pg.macaddr ep.macAddress=some mac) (hr : t.findByMac mac=some r) :
    ∃ ip, cast pg ep=.ok (mac,ip) ∧ row=mergedRow ip ep now r := by
  obtain ⟨mac',ip,hcast,_,hrow⟩ := upsert_ok h
  obtain rfl := Option.some.inj (hmac.symm.trans (cast_ok hcast).1)
  rcases hrow with ⟨r',hr',rfl⟩|⟨hnone,_⟩
  · obtain rfl := Option.some.inj (hr.symm.trans hr')
    exact ⟨ip,hcast,rfl⟩
  · rw [hr] at hnone
    cases hnone

theorem or_left_comm {α : Type} {a b : Option α} (h : a=none ∨ b=none) (c : Option α) :
    a.or (b.or c)=b.or (a.or c) := by
  rcases h with rfl|rfl <;> simp

/-- Merges that give no column twice commute. -/
theorem mergedRow_comm (hip : ip=none ∨ ip'=none) (hapart : ep.Apart ep')
    (n₁ n₂ n₃ n₄ : Timestamp) (r : EndpointRow) :
    (mergedRow ip' ep' n₂ (mergedRow ip ep n₁ r)).unseen=
      (mergedRow ip ep n₄ (mergedRow ip' ep' n₃ r)).unseen := by
  have hostname := or_left_comm (hapart .hostname) r.hostname
  have osFamily := or_left_comm (hapart .osFamily) r.osFamily
  have osVersion := or_left_comm (hapart .osVersion) r.osVersion
  have deviceType := or_left_comm (hapart .deviceType) r.deviceType
  have vendor := or_left_comm (hapart .vendor) r.vendor
  have interface := or_left_comm (hapart .interface) r.interface
  have agentId := or_left_comm (hapart .agentId) r.agentId
  have ipAddress := or_left_comm hip r.ipAddress
  simp only [UpsertEndpoint.get] at hostname osFamily osVersion deviceType vendor interface agentId
  simp only [EndpointRow.unseen,mergedRow,hostname,osFamily,osVersion,deviceType,vendor,interface,
    agentId,ipAddress]

theorem apart_ip (hapart : ep.Apart ep') (hcast : cast pg ep=.ok (mac,ip))
    (hcast' : cast pg ep'=.ok (mac,ip')) : ip=none ∨ ip'=none := by
  rcases hapart .ipAddress with hnone|hnone
  · left
    rw [← given_ipAddress hcast]
    exact congrArg (·.bind pg.inet) hnone
  · right
    rw [← given_ipAddress hcast']
    exact congrArg (·.bind pg.inet) hnone

/-- The agent id that a merge leaves in a row is free for it, where the one that it gives is. -/
theorem merged_agent_free (hstored : r ∈ t.rows)
    (hgiven : ∀ a, ep.agentId=some a → ∀ r' ∈ t.rows, r'.id≠r.id → r'.agentId≠some a) :
    ∀ r' ∈ t.rows, r'≠r → ∀ a, ep.agentId.or r.agentId=some a → r'.agentId≠some a := by
  intro r' hr' hne a ha hra
  cases hep : ep.agentId with
  | some b =>
    rw [hep,Option.some_or] at ha
    have hid : r'.id≠r.id := fun e => hne (List.inj_on_of_nodup_map t.ids hr' hstored e)
    exact hgiven a (hep.trans ha) r' hr' hid hra
  | none =>
    rw [hep,Option.none_or] at ha
    exact hne (agent_unique hr' hstored hra ha)

/-- Two upserts for the MAC of a row that give no column twice succeed in the other order too, and
leave the same rows. -/
theorem upserts_commute (hapart : ep.Apart ep') (hmac : pg.macaddr ep.macAddress=some mac)
    (hmac' : pg.macaddr ep'.macAddress=some mac) (hr : t.findByMac mac=some r)
    {n₁ n₂ : Timestamp} (h : upserts pg [(ep,n₁),(ep',n₂)] t=.ok t') (n₃ n₄ : Timestamp) :
    ∃ t₂, upserts pg [(ep',n₃),(ep,n₄)] t=.ok t₂ ∧ SameButSeen t' t₂ := by
  obtain ⟨row,t₁,hfirst,h⟩ := upserts_cons h
  obtain ⟨row',t₂,hsecond,hlast⟩ := upserts_cons h
  obtain rfl : t₂=t' := Except.ok.inj hlast
  have hrow₁ := (upsert_step hfirst hmac).1
  obtain ⟨ip,hcast,rfl⟩ := upsert_existing hfirst hmac hr
  obtain ⟨ip',hcast',rfl⟩ := upsert_existing hsecond hmac' hrow₁
  have hput := (upsert_put hfirst).trans (upsert_put hsecond) rfl
  obtain ⟨hfind,hsame⟩ := findByMac_eq_some.mp hr
  have hstored := (findById_eq_some.mp hfind).1
  -- the agent id after both upserts is free for the row in the other order
  have hfree : ∀ r', t.findById r'.id=some r' → r'.id≠r.id → ∀ a,
      ep'.agentId.or (ep.agentId.or r.agentId)=some a → r'.agentId≠some a := by
    intro r' hr' hid a ha
    exact hput.agent_free hr' hid ha
  have hgiven : ∀ a, ep'.agentId=some a → ∀ r' ∈ t.rows, r'.id≠r.id → r'.agentId≠some a := by
    intro a ha r' hr' hid
    exact hfree r' (findById_eq_some.mpr ⟨hr',rfl⟩) hid a (by rw [ha,Option.some_or])
  obtain ⟨t₃,hthird,hrow₃⟩ := upsert_merges n₃ hstored (by rwa [hsame])
    (merged_agent_free hstored hgiven)
  have hput₃ := upsert_put hthird
  have hagents₃ : ∀ r' ∈ t₃.rows, r'≠mergedRow ip' ep' n₃ r → ∀ a,
      ep.agentId.or (mergedRow ip' ep' n₃ r).agentId=some a → r'.agentId≠some a := by
    intro r' hr' hne a ha
    have hid : r'.id≠r.id := fun e => hne (List.inj_on_of_nodup_map t₃.ids hr' hrow₃ e)
    have hold : t.findById r'.id=some r' := by
      rw [← hput₃.other hid]
      exact findById_eq_some.mpr ⟨hr',rfl⟩
    have hcomm : ep.agentId.or (ep'.agentId.or r.agentId)=
        ep'.agentId.or (ep.agentId.or r.agentId) := or_left_comm (hapart .agentId) r.agentId
    exact hfree r' hold hid a (hcomm.symm.trans ha)
  obtain ⟨t₄,hfourth,_⟩ := upsert_merges (r := mergedRow ip' ep' n₃ r) n₄ hrow₃
    (by change cast pg ep=.ok (r.macAddress,ip); rwa [hsame]) hagents₃
  have hput₄ := hput₃.trans (upsert_put hfourth) rfl
  refine ⟨t₄,?_,?_⟩
  · rw [upserts,hthird]
    simp only [upserts,hfourth]
  · intro id
    by_cases hid : id=r.id
    · have hone := hput.self
      have hother := hput₄.self
      change t₂.findById r.id=_ at hone
      change t₄.findById r.id=_ at hother
      rw [hid,hone,hother]
      exact congrArg some (mergedRow_comm (apart_ip hapart hcast hcast') hapart n₁ n₂ n₃ n₄ r)
    · rw [hput.other hid,hput₄.other hid]

end Commute

/-- Upserts for one MAC leave in each merged column what was given last and touch nothing else, the
first of an unknown MAC starts from the defaults, and two that give no column twice commute. -/
theorem upserts_merge (pg : Postgres) (t : EndpointTable) (mac : MacAddr) :
    (∀ eps t', (∀ e ∈ eps, pg.macaddr e.1.macAddress=some mac) → upserts pg eps t=.ok t' →
      (∀ r, t.findByMac mac=some r → ∃ r', t'.findByMac mac=some r' ∧ Merged pg eps r r') ∧
      (t.findByMac mac=none → ∀ first rest, eps=first::rest →
        ∃ r', t'.findByMac mac=some r' ∧
          Merged pg eps (defaultRow t.freshId mac first.2) r') ∧
      ∀ m, m≠mac → t'.findByMac m=t.findByMac m) ∧
    ∀ r, t.findByMac mac=some r → ∀ ep ep' : UpsertEndpoint,
      pg.macaddr ep.macAddress=some mac → pg.macaddr ep'.macAddress=some mac → ep.Apart ep' →
      ∀ n₁ n₂ t', upserts pg [(ep,n₁),(ep',n₂)] t=.ok t' →
      ∀ n₃ n₄, ∃ t₂, upserts pg [(ep',n₃),(ep,n₄)] t=.ok t₂ ∧ SameButSeen t' t₂ := by
  constructor
  · intro eps t' hmac h
    refine ⟨fun r hr => upserts_merged hmac h hr,?_,fun m hm => upserts_others hmac h hm⟩
    intro hnone first rest heps
    subst heps
    obtain ⟨ep,now⟩ := first
    obtain ⟨row,t₁,hupsert,hrest⟩ := upserts_cons h
    obtain ⟨hrow,_,hfresh,_⟩ := upsert_step hupsert (hmac (ep,now) List.mem_cons_self)
    obtain ⟨r',hr',hlast⟩ := upserts_merged (fun e he => hmac e (List.mem_cons_of_mem _ he))
      hrest hrow
    exact ⟨r',hr',(hfresh hnone).trans hlast⟩
  · intro r hr ep ep' hmac hmac' hapart n₁ n₂ t' h n₃ n₄
    exact upserts_commute hapart hmac hmac' hr h n₃ n₄

end EndpointTable

end NacPlatform
