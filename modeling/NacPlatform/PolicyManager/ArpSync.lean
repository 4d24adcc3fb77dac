import NacPlatform.Framework.Run
import NacPlatform.PolicyManager.EvaluateAll

namespace NacPlatform

namespace Background

/-- `str::trim_start_matches("0x")`. -/
def trimHexPrefix : List Char → List Char
  | '0' :: 'x' :: cs => trimHexPrefix cs
  | cs => cs

/-- The MAC, the address and the flags of one line of `/proc/net/arp`, if the line counts. -/
def arpLine (rt : Runtime) (line : List Char) : Option (String × String × Nat) :=
  match splitWhitespace line with
  | ip::_::flags::mac::_ =>
    let flags := (fromHex 256 (trimHexPrefix flags)).getD 0
    let mac := rt.toLowercase (String.ofList mac)
    if mac=="00:00:00:00:00:00" || flags==0 then none
    else if ["172.","127.","169.254."].any fun p => p.toList.isPrefixOf ip then none
    else some (mac,String.ofList ip,flags)
  | _ => none

/-- A MAC keeps the first of its entries with the highest flags. -/
def noteArp (table : List (String × String × Nat)) (entry : String × String × Nat) :
    List (String × String × Nat) :=
  if entry.1 ∈ table.map Prod.fst then
    table.map fun known => if known.1=entry.1 ∧ known.2.2<entry.2.2 then entry else known
  else table++[entry]

/-- The addresses of the MACs in the ARP table. -/
def arpTable (rt : Runtime) (content : String) : List (String × String) :=
  ((((lines content).drop 1).filterMap (arpLine rt)).foldl noteArp []).map fun e => (e.1,e.2.1)

theorem nodup_noteArp {table : List (String × String × Nat)} (entry : String × String × Nat)
    (h : (table.map Prod.fst).Nodup) : ((noteArp table entry).map Prod.fst).Nodup := by
  unfold noteArp
  split
  · have keys : (table.map fun known =>
        if known.1=entry.1 ∧ known.2.2<entry.2.2 then entry else known).map Prod.fst=
        table.map Prod.fst := by
      rw [List.map_map]
      apply List.map_congr_left
      intro known _
      rw [Function.comp_apply]
      split
      · next hsame => exact hsame.1.symm
      · rfl
    rw [keys]
    exact h
  · next hnew =>
    rw [List.map_append,List.nodup_append]
    refine ⟨h,List.nodup_singleton _,?_⟩
    intro mac hmac mac' hmac' same
    subst same
    exact hnew (List.mem_singleton.mp hmac' ▸ hmac)

/-- No MAC has two addresses. -/
theorem nodup_arpTable (rt : Runtime) (content : String) :
    ((arpTable rt content).map Prod.fst).Nodup := by
  rw [arpTable,List.map_map]
  have all (entries : List (String × String × Nat)) {table : List (String × String × Nat)}
      (h : (table.map Prod.fst).Nodup) : ((entries.foldl noteArp table).map Prod.fst).Nodup := by
    induction entries generalizing table with
    | nil => exact h
    | cons entry entries ih => exact ih (nodup_noteArp entry h)
  exact all _ List.nodup_nil

/-- The command that a confirmed address is announced with to a device of this status. -/
def reannounce (mac ip : String) : Status → Handler Unit
  | .denied => publishEnforcement mac ip "block"
  | .quarantined => publishEnforcement mac ip "quarantine"
  | _ => return

theorem total_reannounce (mac ip : String) (status : Status) :
    (reannounce mac ip status).Total := by
  cases status with
  | denied => exact fun _ => trivial
  | quarantined => exact fun _ => trivial
  | allowed => trivial
  | pending => trivial

theorem only_reannounce {s : Call → Prop} (h : ∀ cmd, s (.publishCommand cmd)) (mac ip : String)
    (status : Status) : (reannounce mac ip status).Only (fun _ _ => True) s := by
  cases status with
  | denied => exact ⟨h _,fun _ _ => trivial⟩
  | quarantined => exact ⟨h _,fun _ _ => trivial⟩
  | allowed => trivial
  | pending => trivial

theorem total_confirmIp (mac ip : String) : (confirmIp mac ip).Total := by
  intro _ given
  rcases given with e|_|ep
  · trivial
  · trivial
  · exact total_reannounce mac ip ep.status

section

variable (gatewayIps : List String) (existing : List (String × Option String)) (now : Int)

/-- What an entry makes of the candidate of its MAC. -/
def nextCandidate (candidate : Option String) (entry : String × String) : Option String :=
  if gatewayIps.contains entry.2 then none
  else
    match existing.lookup entry.1 with
    | none => none
    | some stored =>
      if stored.map stripCidr=some entry.2 ∨ candidate=some entry.2 then none else some entry.2

def nextPending (pending : PendingIp) (entry : String × String) : PendingIp :=
  Function.update pending entry.1 (nextCandidate gatewayIps existing (pending entry.1) entry)

/-- What an entry's turn may perform: it stores the address only if that is the candidate already
and announces a device only if it is not known. -/
def MayCall (pending : PendingIp) (entry : String × String) : Call → Prop
  | .updateIp mac ip => (mac,ip)=entry ∧ ip ∉ gatewayIps ∧ pending mac=some ip ∧
      ∃ stored, existing.lookup mac=some stored ∧ stored.map stripCidr≠some ip
  | .publishDetected event => event.macAddress=entry.1 ∧ existing.lookup entry.1=none
  | .findByMac _ => True
  | .publishCommand _ => True
  | _ => False

theorem only_confirmIp {pending : PendingIp} {entry : String × String} {mac ip : String}
    (h : MayCall gatewayIps existing pending entry (.updateIp mac ip)) :
    (confirmIp mac ip).Only (fun _ _ => True) (MayCall gatewayIps existing pending entry) := by
  refine ⟨h,fun _ _ => ⟨trivial,?_⟩⟩
  intro given _
  rcases given with e|_|ep
  · trivial
  · trivial
  · exact only_reannounce (fun _ => trivial) mac ip ep.status

/-- The turn of an entry is some calls of these, and the next candidates. -/
theorem arpSyncEntry_eq (pending : PendingIp) (entry : String × String) :
    ∃ body : Handler Unit,
      arpSyncEntry gatewayIps existing now pending entry=
        body >>= (fun _ => pure (nextPending gatewayIps existing pending entry)) ∧
      body.Total ∧
      body.Only (fun _ _ => True) (MayCall gatewayIps existing pending entry) := by
  obtain ⟨mac,ip⟩ := entry
  unfold arpSyncEntry nextPending nextCandidate
  simp only []
  by_cases hgw : gatewayIps.contains ip=true
  · rw [if_pos hgw,if_pos hgw]
    exact ⟨pure (),rfl,trivial,trivial⟩
  rw [if_neg hgw,if_neg hgw]
  have hout : ip ∉ gatewayIps := by simpa using hgw
  cases hl : existing.lookup mac with
  | none =>
    simp only []
    refine ⟨do let _ ← probe (.publishDetected (arpSyncEvent mac ip now)),rfl,fun _ => trivial,?_⟩
    exact ⟨⟨rfl,hl⟩,fun _ _ => trivial⟩
  | some stored =>
    simp only []
    by_cases hchange : stored.map stripCidr=some ip
    · have hsame : ¬(stored.map stripCidr != some ip)=true := by simp [hchange]
      rw [if_neg hsame,if_pos (.inl hchange)]
      exact ⟨pure (),rfl,trivial,trivial⟩
    have hdiff : (stored.map stripCidr != some ip)=true := by simpa using hchange
    rw [if_pos hdiff]
    by_cases hpend : pending mac=some ip
    · have hbeq : (pending mac==some ip)=true := by simpa using hpend
      rw [if_pos hbeq,if_pos (.inr hpend)]
      refine ⟨confirmIp mac ip,rfl,total_confirmIp mac ip,only_confirmIp _ _ ?_⟩
      exact ⟨rfl,hout,hpend,stored,hl,hchange⟩
    · have hbeq : ¬(pending mac==some ip)=true := by simpa using hpend
      rw [if_neg hbeq,if_neg (not_or.mpr ⟨hchange,hpend⟩)]
      exact ⟨pure (),rfl,trivial,trivial⟩

theorem foldl_nextPending_of_notMem {entries : List (String × String)} (pending : PendingIp)
    {mac : String} (h : mac ∉ entries.map Prod.fst) :
    entries.foldl (nextPending gatewayIps existing) pending mac=pending mac := by
  induction entries generalizing pending with
  | nil => rfl
  | cons entry entries ih =>
    rw [List.map_cons,List.mem_cons,not_or] at h
    rw [List.foldl_cons,ih _ h.2,nextPending,Function.update_of_ne h.1]

/-- The turns of other MACs leave the candidate of a MAC alone. -/
theorem foldl_nextPending_of_mem {entries : List (String × String)} (pending : PendingIp)
    (hkeys : (entries.map Prod.fst).Nodup) {mac ip : String} (h : (mac,ip) ∈ entries) :
    entries.foldl (nextPending gatewayIps existing) pending mac=
      nextCandidate gatewayIps existing (pending mac) (mac,ip) := by
  induction entries generalizing pending with
  | nil => cases h
  | cons entry entries ih =>
    rw [List.map_cons,List.nodup_cons] at hkeys
    rw [List.foldl_cons]
    rcases List.mem_cons.mp h with rfl|h
    · rw [foldl_nextPending_of_notMem _ _ _ hkeys.1,nextPending,Function.update_self]
    · have hne : mac≠entry.1 := by
        intro same
        subst same
        exact hkeys.1 (List.mem_map.mpr ⟨_,h,rfl⟩)
      rw [ih _ hkeys.2 h,nextPending,Function.update_of_ne hne]

/-- A call of the loop is one of an entry, with the candidates that the entries before it left. -/
def LoopCall (entries : List (String × String)) (pending : PendingIp) (call : Call) : Prop :=
  ∃ before entry rest, entries=before++entry::rest ∧
    MayCall gatewayIps existing (before.foldl (nextPending gatewayIps existing) pending) entry call

theorem loop_calls (entries : List (String × String)) (pending : PendingIp) :
    (entries.foldlM (arpSyncEntry gatewayIps existing now) pending).Only (fun _ _ => True)
      (LoopCall gatewayIps existing entries pending) := by
  induction entries generalizing pending with
  | nil => trivial
  | cons entry entries ih =>
    obtain ⟨body,heq,_,honly⟩ := arpSyncEntry_eq gatewayIps existing now pending entry
    rw [List.foldlM_cons,heq,Proc.bind_assoc]
    refine Proc.Only.bind (honly.mono ?_) fun _ => (ih _).mono ?_
    · intro call hcall
      exact ⟨[],entry,entries,rfl,hcall⟩
    · intro call given
      obtain ⟨before,entry',rest,rfl,hcall⟩ := given
      exact ⟨entry::before,entry',rest,rfl,hcall⟩

theorem loop_run {W : Type} (exec : (c : Call) → W → c.Reply × W)
    (entries : List (String × String)) (pending : PendingIp) (w : W) :
    ∃ w', (entries.foldlM (arpSyncEntry gatewayIps existing now) pending).run exec w=
      (.ok (entries.foldl (nextPending gatewayIps existing) pending),w') := by
  induction entries generalizing pending w with
  | nil => exact ⟨w,rfl⟩
  | cons entry entries ih =>
    obtain ⟨body,heq,htotal,_⟩ := arpSyncEntry_eq gatewayIps existing now pending entry
    obtain ⟨u,hu⟩ := htotal.run_eq exec w
    rw [List.foldlM_cons,heq,Proc.run_bind,Proc.run_bind,hu]
    exact ih _ _

end

end Background

/-- What a cycle of the synchronisation meets: how others change the tables before it, the ARP
table unless it is unreadable, the order in which the map of its entries is gone through, the
gateways, and the calls that fail. -/
structure SyncCycle (rt : Runtime) where
  others : World → World
  table : Option String
  arpMap : List (String × String)
  entries : ∀ content, table=some content → arpMap.Perm (Background.arpTable rt content)
  gatewayIps : List String
  fails : Call → Bool
  now : Int

/-- The loop between two cycles. -/
structure SyncState where
  pendingIp : Background.PendingIp
  world : World

namespace SyncCycle

variable {rt : Runtime} (pg : Postgres)

/-- It gets past reading the ARP table and the endpoints. -/
def Effective (c : SyncCycle rt) : Prop := c.table.isSome=true ∧ c.fails .listAddresses=false

def handler (c : SyncCycle rt) (s : SyncState) : Handler Background.PendingIp :=
  match c.table with
  | none => return s.pendingIp
  | some _ => Background.arpSync rt c.arpMap c.gatewayIps c.now s.pendingIp

/-- What others leave it. -/
def found (c : SyncCycle rt) (s : SyncState) : World := c.others s.world

/-- An error leaves the pending addresses as they were. -/
def step (s : SyncState) (c : SyncCycle rt) : SyncState :=
  match (c.handler s).run (Call.execFailing pg c.fails) (c.found s) with
  | (.ok pendingIp,w) => ⟨pendingIp,w⟩
  | (.error _,w) => ⟨s.pendingIp,w⟩

/-- The statements and publications of a cycle. -/
def calls (s : SyncState) (c : SyncCycle rt) : List Call :=
  (c.handler s).performed (Call.execFailing pg c.fails) (c.found s)

/-- The cycle finds the address of a known device changed. -/
def Observes (s : SyncState) (c : SyncCycle rt) (mac ip : String) : Prop :=
  (∃ content, c.table=some content ∧ (mac,ip) ∈ Background.arpTable rt content) ∧
    ip ∉ c.gatewayIps ∧
    ∃ row ∈ (c.found s).endpoints.rows, row.macAddress.text=mac ∧
      row.ipAddress.map stripCidr≠some ip

/-- The endpoints as the cycle reads them. -/
def existing (c : SyncCycle rt) (s : SyncState) : List (String × Option String) :=
  (((pg.scan (c.found s).endpoints.rows).map fun r => (r.macAddress,r.ipAddress))).map fun r =>
    (rt.toLowercase r.1.text,r.2)

/-- The candidates of the MACs that are still in the table. -/
def kept (c : SyncCycle rt) (s : SyncState) : Background.PendingIp :=
  fun mac => if (c.arpMap.lookup mac).isSome then s.pendingIp mac else none

/-- The loop over the table, with the endpoints that were read. -/
def loop (c : SyncCycle rt) (s : SyncState) : Handler Background.PendingIp :=
  c.arpMap.foldlM (Background.arpSyncEntry c.gatewayIps (c.existing pg s) c.now) (c.kept s)

section

variable {pg} {c : SyncCycle rt} {s : SyncState} {mac ip : String}

theorem lookup_existing {stored : Option String} (h : (c.existing pg s).lookup mac=some stored) :
    ∃ row ∈ (c.found s).endpoints.rows, row.macAddress.text=mac ∧ row.ipAddress=stored := by
  obtain ⟨before,rest,hsplit,_⟩ := List.lookup_eq_some_iff.mp h
  have hmem : (mac,stored) ∈ c.existing pg s := by
    rw [hsplit]
    exact List.mem_append_right _ List.mem_cons_self
  obtain ⟨r,hr,e⟩ := List.mem_map.mp hmem
  obtain ⟨row,hrow,rfl⟩ := List.mem_map.mp hr
  rw [rt.toLowercase_text,Prod.mk.injEq] at e
  exact ⟨row,(pg.scan_perm _).mem_iff.mp hrow,e⟩

theorem lookup_existing_none (h : (c.existing pg s).lookup mac=none) :
    ∀ row ∈ (c.found s).endpoints.rows, row.macAddress.text≠mac := by
  intro row hrow same
  subst same
  have hmem : (row.macAddress.text,row.ipAddress) ∈ c.existing pg s := by
    refine List.mem_map.mpr ⟨(row.macAddress,row.ipAddress),?_,?_⟩
    · exact List.mem_map.mpr ⟨row,(pg.scan_perm _).mem_iff.mpr hrow,rfl⟩
    · rw [rt.toLowercase_text]
  have hne := List.lookup_eq_none_iff.mp h _ hmem
  exact absurd rfl (bne_iff_ne.mp hne)

theorem step_of_not_effective (h : ¬c.Effective) : (step pg s c).pendingIp=s.pendingIp := by
  unfold step handler
  cases ht : c.table with
  | none => rfl
  | some content =>
    have hfails : c.fails .listAddresses=true := by
      by_contra hok
      exact h ⟨by rw [ht]; rfl,by simpa using hok⟩
    simp only [Background.arpSync]
    rw [World.run_query_bind,Call.execFailing,if_pos hfails]

/-- The candidates after a cycle that gets past its readings. -/
theorem step_of_effective (h : c.Effective) : (step pg s c).pendingIp=
    c.arpMap.foldl (Background.nextPending c.gatewayIps (c.existing pg s)) (c.kept s) := by
  obtain ⟨content,ht⟩ := Option.isSome_iff_exists.mp h.1
  have hreads : ¬c.fails .listAddresses=true := by simp [h.2]
  have hrun : (c.handler s).run (Call.execFailing pg c.fails) (c.found s)=
      (c.loop pg s).run (Call.execFailing pg c.fails) (c.found s) := by
    unfold handler
    simp only [ht,Background.arpSync]
    rw [World.run_query_bind,Call.execFailing,if_neg hreads]
    rfl
  obtain ⟨w',hloop⟩ := Background.loop_run c.gatewayIps (c.existing pg s) c.now
    (Call.execFailing pg c.fails) c.arpMap (c.kept s) (c.found s)
  rw [step,hrun,loop,hloop]

/-- Writes and announcements are those of the loop over the table. -/
theorem mem_calls {call : Call} (h : call ∈ calls pg s c) : call=.listAddresses ∨
    c.Effective ∧ Background.LoopCall c.gatewayIps (c.existing pg s) c.arpMap (c.kept s) call := by
  unfold calls handler at h
  cases ht : c.table with
  | none =>
    rw [ht] at h
    cases h
  | some content =>
    rw [ht] at h
    by_cases hfails : c.fails .listAddresses=true
    · have hcalls : (Background.arpSync rt c.arpMap c.gatewayIps c.now s.pendingIp).performed
          (Call.execFailing pg c.fails) (c.found s)=[.listAddresses] := by
        rw [Background.arpSync,World.performed_query_bind,Call.execFailing,if_pos hfails]
      rw [hcalls] at h
      exact .inl (List.mem_singleton.mp h)
    · have hcalls : (Background.arpSync rt c.arpMap c.gatewayIps c.now s.pendingIp).performed
          (Call.execFailing pg c.fails) (c.found s)=.listAddresses::
            (c.loop pg s).performed (Call.execFailing pg c.fails) (c.found s) := by
        rw [Background.arpSync,World.performed_query_bind,Call.execFailing,if_neg hfails]
        rfl
      rw [hcalls] at h
      rcases List.mem_cons.mp h with h|h
      · exact .inl h
      · refine .inr ⟨⟨by rw [ht]; rfl,by simpa using hfails⟩,?_⟩
        exact (Background.loop_calls ..).performed h

theorem nodup_keys (h : c.Effective) : (c.arpMap.map Prod.fst).Nodup := by
  obtain ⟨content,ht⟩ := Option.isSome_iff_exists.mp h.1
  have hperm := (c.entries content ht).map Prod.fst
  exact hperm.nodup_iff.mpr (Background.nodup_arpTable rt content)

theorem observes_of_mem (h : c.Effective) (hmem : (mac,ip) ∈ c.arpMap) (hgw : ip ∉ c.gatewayIps)
    {stored : Option String} (hl : (c.existing pg s).lookup mac=some stored)
    (hne : stored.map stripCidr≠some ip) : Observes s c mac ip := by
  obtain ⟨content,ht⟩ := Option.isSome_iff_exists.mp h.1
  obtain ⟨row,hrow,hmac,rfl⟩ := lookup_existing hl
  exact ⟨⟨content,ht,(c.entries content ht).mem_iff.mp hmem⟩,hgw,row,hrow,hmac,hne⟩

/-- A candidate that a cycle leaves is one that it has seen itself. -/
theorem observes_of_candidate (h : c.Effective) (hp : (step pg s c).pendingIp mac=some ip) :
    Observes s c mac ip := by
  rw [step_of_effective h] at hp
  by_cases hmac : mac ∈ c.arpMap.map Prod.fst
  · obtain ⟨⟨mac',x⟩,hmem,rfl⟩ := List.mem_map.mp hmac
    rw [Background.foldl_nextPending_of_mem _ _ _ (nodup_keys h) hmem] at hp
    unfold Background.nextCandidate at hp
    simp only [] at hp
    split at hp
    · cases hp
    next hgw =>
    split at hp
    · cases hp
    next stored hl =>
    split at hp
    · cases hp
    next hne =>
    obtain rfl := Option.some.inj hp
    exact observes_of_mem h hmem (by simpa using hgw) hl (not_or.mp hne).1
  · rw [Background.foldl_nextPending_of_notMem _ _ _ hmac,kept] at hp
    split at hp
    · next hl =>
      obtain ⟨x,hx⟩ := Option.isSome_iff_exists.mp hl
      obtain ⟨before,rest,hsplit,_⟩ := List.lookup_eq_some_iff.mp hx
      have hmem : (mac,x) ∈ c.arpMap := by
        rw [hsplit]
        exact List.mem_append_right _ List.mem_cons_self
      exact absurd (List.mem_map.mpr ⟨_,hmem,rfl⟩) hmac
    · cases hp

/-- An address that is stored was the candidate, and is seen again. -/
theorem candidate_of_updateIp (h : .updateIp mac ip ∈ calls pg s c) :
    c.Effective ∧ s.pendingIp mac=some ip ∧ Observes s c mac ip := by
  rcases mem_calls h with h|⟨heff,before,entry,rest,hsplit,rfl,hgw,hp,stored,hl,hne⟩
  · cases h
  have hmem : (mac,ip) ∈ c.arpMap := by
    rw [hsplit]
    exact List.mem_append_right _ List.mem_cons_self
  have hkeys := nodup_keys heff
  rw [hsplit,List.map_append,List.map_cons,List.nodup_append] at hkeys
  have hnot : mac ∉ before.map Prod.fst := fun hm => hkeys.2.2 mac hm mac List.mem_cons_self rfl
  rw [Background.foldl_nextPending_of_notMem _ _ _ hnot,kept] at hp
  split at hp
  · exact ⟨heff,hp,observes_of_mem heff hmem hgw hl hne⟩
  · cases hp

/-- A device that is announced is in no row. -/
theorem unknown_of_publishDetected {event : EndpointDetectedEvent}
    (h : .publishDetected event ∈ calls pg s c) :
    ∀ row ∈ (c.found s).endpoints.rows, row.macAddress.text≠event.macAddress := by
  rcases mem_calls h with h|⟨_,before,entry,rest,_,hmac,hl⟩
  · cases h
  · rw [hmac]
    exact lookup_existing_none hl

end

/-- The last effective cycle of a history saw this address for the MAC. -/
def SeenLast (start : SyncState) (past : List (SyncCycle rt)) (mac ip : String) : Prop :=
  ∃ before last idle, past=before++last::idle ∧ last.Effective ∧ (∀ d ∈ idle, ¬d.Effective) ∧
    Observes (runs (step pg) start before) last mac ip

/-- Every candidate was seen in the last effective cycle. -/
theorem seenLast_of_candidate {start : SyncState} (hstart : ∀ mac, start.pendingIp mac=none)
    (past : List (SyncCycle rt)) {mac ip : String}
    (h : (runs (step pg) start past).pendingIp mac=some ip) : SeenLast pg start past mac ip := by
  induction past using List.reverseRecOn with
  | nil =>
    rw [runs_nil,hstart] at h
    cases h
  | append_singleton past c ih =>
    rw [runs_append,runs_cons,runs_nil] at h
    by_cases heff : c.Effective
    · exact ⟨past,c,[],rfl,heff,by simp,observes_of_candidate heff h⟩
    · rw [step_of_not_effective heff] at h
      obtain ⟨before,last,idle,rfl,hlast,hidle,hseen⟩ := ih h
      refine ⟨before,last,idle++[c],by simp,hlast,?_,hseen⟩
      intro d hd
      rcases List.mem_append.mp hd with hd|hd
      · exact hidle d hd
      · exact List.mem_singleton.mp hd ▸ heff

end SyncCycle

open SyncCycle in
/-- The synchronisation stores an address only when two effective cycles in a row have seen it,
never announces a device that is in the database, and keeps as candidates only what its last
effective cycle has seen. -/
theorem arp_sync_debounced (pg : Postgres) (rt : Runtime) (w : World)
    (past : List (SyncCycle rt)) (c : SyncCycle rt) :
    let start : SyncState := ⟨fun _ => none,w⟩
    let s := runs (step pg) start past
    (∀ mac ip, .updateIp mac ip ∈ calls pg s c →
      c.Effective ∧ Observes s c mac ip ∧ SeenLast pg start past mac ip) ∧
    (∀ event, .publishDetected event ∈ calls pg s c →
      ∀ row ∈ (c.found s).endpoints.rows, row.macAddress.text≠event.macAddress) ∧
    (c.Effective → ∀ mac ip, (step pg s c).pendingIp mac=some ip →
      ∃ content, c.table=some content ∧ (mac,ip) ∈ Background.arpTable rt content) := by
  intro start s
  refine ⟨?_,?_,?_⟩
  · intro mac ip h
    obtain ⟨heff,hp,hseen⟩ := candidate_of_updateIp h
    exact ⟨heff,hseen,seenLast_of_candidate pg (fun _ => rfl) past hp⟩
  · intro event h
    exact unknown_of_publishDetected h
  · intro heff mac ip h
    exact (observes_of_candidate heff h).1

end NacPlatform
