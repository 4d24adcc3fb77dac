import NacPlatform.Framework.Paging
import NacPlatform.PolicyManager.Users

namespace NacPlatform

/-- No device was last seen when another one was, or is still to be seen. -/
structure World.Apart (w : World) : Prop where
  before : ∀ id v, w.endpoints.column (·.lastSeen) id=some v → v<w.clock
  apart : ∀ id id' v, w.endpoints.column (·.lastSeen) id=some v →
    w.endpoints.column (·.lastSeen) id'=some v → id=id'

section Sightings

variable {pg : Postgres} {w w' : World}

end Sightings

namespace Endpoints

open Users (AppError)

def defaultLimit : Int := 50

structure ListQuery where
  limit : Int := defaultLimit
  offset : Int := 0

structure ListResponse where
  total : Nat
  limit : Nat
  offset : Nat
  items : List EndpointRow

/-- `i64::clamp`. -/
def clamp (low high n : Int) : Int := if n<low then low else if high<n then high else n

/-- The number of rows that a page has room for. -/
def pageLimit (limit : Int) : Nat := (clamp 1 200 limit).toNat

/-- The two statements go to connections of their own; either may fail. -/
def listEndpoints (q : ListQuery) (count : Except DbError Nat)
    (list : Nat → Nat → Except DbError (List EndpointRow)) : Except AppError ListResponse := do
  let limit := pageLimit q.limit
  let offset := (max q.offset 0).toNat
  let total ← count.mapError fun _ => .db
  let items ← (list limit offset).mapError fun _ => .db
  return ⟨total,limit,offset,items⟩

theorem pageLimit_pos (limit : Int) : 0<pageLimit limit := by
  unfold pageLimit clamp
  split_ifs <;> omega

section Unchanged

/-- The devices of a page, if there is an answer. -/
def itemsOf : Except AppError ListResponse → List EndpointRow
  | .ok response => response.items
  | .error _ => []

/-- The pages of a table that stays as it is; each scan meets the rows in an order of its own. -/
def readPages (t : EndpointTable) (limit : Int) (pgs : Nat → Postgres) (n : Nat) :
    List (Except AppError ListResponse) :=
  (List.range n).map fun k : Nat =>
    listEndpoints ⟨limit,(k : Int)*pageLimit limit⟩ (.ok t.rows.length)
      fun limit offset => .ok (t.list (pgs k) limit offset)

theorem flatMap_readPages (t : EndpointTable) (limit : Int) (pgs : Nat → Postgres) (n : Nat) :
    (readPages t limit pgs n).flatMap itemsOf=(List.range n).flatMap fun k =>
      page EndpointRow.lastSeen (pageLimit limit) (k*pageLimit limit) ((pgs k).scan t.rows) := by
  rw [readPages,List.flatMap_map]
  congr 1
  funext k
  have hoffset : (max ((k : Int)*pageLimit limit) 0).toNat=k*pageLimit limit := by
    rw [max_eq_left (by positivity),← Nat.cast_mul,Int.toNat_natCast]
  show t.list (pgs k) (pageLimit limit) (max ((k : Int)*pageLimit limit) 0).toNat=_
  rw [hoffset]
  rfl

/-- PostgreSQL may meet the rows of a table in any order. -/
theorem exists_scan {rows met : List EndpointRow} (h : met.Perm rows) :
    ∃ pg : Postgres, pg.scan rows=met := by
  classical
  let scan : {α : Type} → List α → List α := fun {α} l =>
    if hα : EndpointRow=α then if l=hα▸rows then hα▸met else l else l
  refine ⟨{ Postgres.plain with scan := scan, scan_perm := ?_ },?_⟩
  · intro α l
    show (scan l).Perm l
    unfold scan
    split_ifs with hα hl
    · subst hα
      rw [hl]
      exact h
    · exact .refl l
    · exact .refl l
  · show scan rows=met
    simp [scan]

/-- A client that reads a table page by page is sent every device once, in whatever orders the
scans meet the rows, exactly when no page ends between two devices that were last seen at the same
time. -/
theorem devices_listed_once_iff (t : EndpointTable) (limit : Int) (n : Nat)
    (hn : t.rows.length ≤ n*pageLimit limit) :
    (∀ pgs, ((readPages t limit pgs n).flatMap itemsOf).Perm t.rows) ↔
      ∀ k, ¬Straddled EndpointRow.lastSeen t.rows (k*pageLimit limit) := by
  rw [← pages_perm_iff t.ids.of_map (pageLimit_pos limit) hn]
  constructor
  · intro h met hmet
    choose pgs hpgs using fun k => exists_scan (hmet k)
    have hpages := h pgs
    rw [flatMap_readPages] at hpages
    simpa only [hpgs] using hpages
  · intro h pgs
    rw [flatMap_readPages]
    exact h _ fun k => (pgs k).scan_perm t.rows

def seenAt (mac : MacAddr) (id now : Nat) : EndpointRow :=
  EndpointTable.insertedRow id mac none ⟨mac.text,none,none,none,none,none,none,none,none⟩ now

/-- Two devices that were last seen at the same time. -/
def twoAtOnce : EndpointTable where
  rows := [seenAt ⟨2,0,0,0,0,1⟩ 1 7,seenAt ⟨2,0,0,0,0,2⟩ 2 7]
  ids := by decide
  macs := by decide
  agents := by decide

theorem devices_listed_once_iff_two :
    ¬∀ pgs, ((readPages twoAtOnce 1 pgs 2).flatMap itemsOf).Perm twoAtOnce.rows := by
  rw [devices_listed_once_iff twoAtOnce 1 2 (by decide)]
  intro h
  exact h 1 ⟨seenAt ⟨2,0,0,0,0,1⟩ 1 7,List.mem_cons_self,by decide,by decide⟩

end Unchanged

section Browsing

/-- A client that reads the list page by page while handlers are at work. -/
structure Browsing where
  world : World
  responses : List ListResponse

inductive BrowsingStep where
  | call (c : Call) (fails : Call → Bool)
  | next (count : Except DbError Nat) (refused : Bool)

/-- The offset of the next page is what the pages so far had room for. -/
def Browsing.step (pg : Postgres) (limit : Int) (s : Browsing) : BrowsingStep → Browsing
  | .call c fails => {s with world := (c.execFaulty pg fails s.world).2}
  | .next count refused =>
    let offset : Nat := (s.responses.map (·.limit)).sum
    match listEndpoints ⟨limit,offset⟩ count fun limit offset =>
        if refused then .error .unavailable else .ok (s.world.endpoints.list pg limit offset) with
    | .ok response => {s with responses := s.responses++[response]}
    | .error _ => s

/-- The same among the tables only. -/
def BrowsingStep.reading : BrowsingStep → ReadingStep (Option (Call × (Call → Bool)))
  | .call c fails => .change (some (c,fails))
  | .next (.ok _) false => .next
  | .next _ _ => .change none

def changed (pg : Postgres) (w : World) : Option (Call × (Call → Bool)) → World
  | some (c,fails) => (c.execFaulty pg fails w).2
  | none => w

/-- The pages that have been read are those of the responses. -/
structure Reads (limit : Int) (s : Browsing) (r : Reading World EndpointRow) : Prop where
  state : r.state=s.world
  pages : r.pages=s.responses.map (·.items)
  limits : ∀ response ∈ s.responses, response.limit=pageLimit limit

theorem Reads.step {pg : Postgres} {limit : Int} {s : Browsing} {r : Reading World EndpointRow}
    (h : Reads limit s r) (a : BrowsingStep) :
    Reads limit (s.step pg limit a) (r.step EndpointRow.lastSeen (changed pg)
      (fun w => pg.scan w.endpoints.rows) (pageLimit limit) a.reading) := by
  obtain ⟨world,responses⟩ := s
  obtain ⟨state,pages⟩ := r
  obtain ⟨hstate,hpages,hlimits⟩ := h
  dsimp only at hstate hpages hlimits
  subst hstate hpages
  cases a with
  | call c fails => exact ⟨rfl,rfl,hlimits⟩
  | next count refused =>
    cases count with
    | error e => exact ⟨rfl,rfl,hlimits⟩
    | ok total =>
      cases refused with
      | true => exact ⟨rfl,rfl,hlimits⟩
      | false =>
        have hsum : (responses.map (·.limit)).sum=responses.length*pageLimit limit := by
          rw [List.map_congr_left hlimits,List.map_const',List.sum_replicate_nat]
        refine ⟨rfl,?_,?_⟩
        · show responses.map ListResponse.items++[_]=(responses++[_]).map ListResponse.items
          rw [List.map_append,List.map_singleton,List.length_map,← hsum]
          congr 2
          show _=state.endpoints.list pg (pageLimit limit) _
          rw [max_eq_left (Int.natCast_nonneg _),Int.toNat_natCast]
          rfl
        · intro response hmem
          rcases List.mem_append.mp hmem with hmem|hmem
          · exact hlimits response hmem
          · rw [List.mem_singleton.mp hmem]

def sighting (mac : MacAddr) : Call × (Call → Bool) :=
  (.upsert ⟨mac.text,none,none,none,none,none,none,none,none⟩,fun _ => false)

end Browsing

end Endpoints

end NacPlatform
