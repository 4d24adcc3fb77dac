import NacPlatform.Store.Endpoint

namespace NacPlatform

/-- `CHECK (state IN (…))` of the table `sessions`. -/
inductive SessionState where
  | detecting
  | authenticating
  | checkingIntegrity
  | active
  | quarantined
  | terminated
  deriving DecidableEq, Repr

namespace SessionState

def text : SessionState → String
  | detecting => "detecting"
  | authenticating => "authenticating"
  | checkingIntegrity => "checking_integrity"
  | active => "active"
  | quarantined => "quarantined"
  | terminated => "terminated"

def parse (s : String) : Option SessionState :=
  [detecting,authenticating,checkingIntegrity,active,quarantined,terminated].find?
    fun st => st.text==s

end SessionState

structure SessionRow where
  id : Uuid
  endpointId : Uuid
  username : Option String
  authMethod : Option String
  state : SessionState
  vlanId : Option Int16
  startedAt : Timestamp
  endedAt : Option Timestamp
  updatedAt : Timestamp
  deriving DecidableEq, Repr

structure CreateSession where
  endpointId : Uuid
  authMethod : String
  vlanId : Option Int16
  deriving DecidableEq, Repr

/-- The rows of `sessions` under their primary key. -/
structure SessionTable where
  rows : List SessionRow
  ids : (rows.map (·.id)).Nodup

namespace SessionTable

def empty : SessionTable := ⟨[],by simp⟩

def freshId (t : SessionTable) : Uuid := freshKey (t.rows.map (·.id))

/-- An insert leaves the state to the default of its column. -/
def created (id : Uuid) (s : CreateSession) (now : Timestamp) : SessionRow where
  id := id
  endpointId := s.endpointId
  username := none
  authMethod := some s.authMethod
  state := .detecting
  vlanId := s.vlanId
  startedAt := now
  endedAt := none
  updatedAt := now

def create (s : CreateSession) (now : Timestamp) (t : SessionTable) : SessionTable where
  rows := t.rows++[created t.freshId s now]
  ids := by
    rw [List.map_append,List.nodup_append]
    refine ⟨t.ids,by simp,?_⟩
    intro id hid id' hid' he
    have hc : id'=t.freshId := by simpa [created] using hid'
    exact freshKey_notMem _ (hc ▸ he ▸ hid)

def isOpen (endpointId : Uuid) (s : SessionRow) : Bool :=
  s.endpointId==endpointId && s.endedAt.isNone

/-- `ended_at IS NULL ORDER BY started_at DESC LIMIT 1`. -/
def findActiveByEndpoint (pg : Postgres) (endpointId : Uuid) (t : SessionTable) :
    Option SessionRow :=
  (((pg.scan t.rows).filter (isOpen endpointId)).insertionSort
    fun a b => b.startedAt ≤ a.startedAt).head?

def findById (id : Uuid) (t : SessionTable) : Option SessionRow := t.rows.find? (·.id==id)

def modify (t : SessionTable) (id : Uuid) (f : SessionRow → SessionRow)
    (key : ∀ s, (f s).id=s.id) : SessionTable where
  rows := updateRows (·.id==id) f t.rows
  ids := by rw [map_updateRows key]; exact t.ids

def transition (id : Uuid) (state : SessionState) (username : Option String) (now : Timestamp)
    (t : SessionTable) : SessionTable :=
  t.modify id
    (fun s => { s with state := state, username := username.or s.username, updatedAt := now })
    fun _ => rfl

def terminate (id : Uuid) (now : Timestamp) (t : SessionTable) : SessionTable :=
  t.modify id (fun s => { s with state := .terminated, endedAt := some now, updatedAt := now })
    fun _ => rfl

end SessionTable

end NacPlatform
