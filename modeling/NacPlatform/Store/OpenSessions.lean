import NacPlatform.Store.Latest

namespace NacPlatform

/-- `state = 'terminated'` goes with `ended_at`. -/
def SessionRow.Consistent (s : SessionRow) : Prop := s.state=.terminated ↔ s.endedAt.isSome=true

instance (s : SessionRow) : Decidable s.Consistent :=
  inferInstanceAs (Decidable (_ ↔ _))

namespace SessionTable

variable {t t' t'' : SessionTable} {e id : Uuid} {now : Timestamp}

def modifyWhere (t : SessionTable) (p : SessionRow → Bool) (f : SessionRow → SessionRow)
    (key : ∀ s, (f s).id=s.id) : SessionTable where
  rows := updateRows p f t.rows
  ids := by rw [map_updateRows key]; exact t.ids

def ended (now : Timestamp) (s : SessionRow) : SessionRow :=
  { s with state := .terminated, endedAt := some now, updatedAt := now }

theorem ended_id (now : Timestamp) (s : SessionRow) : (ended now s).id=s.id := rfl

/-- `UPDATE sessions … WHERE ended_at IS NULL`. -/
def terminateOpen (now : Timestamp) (t : SessionTable) : SessionTable :=
  t.modifyWhere (·.endedAt.isNone) (ended now) (ended_id now)

/-! How many sessions of a device are open. -/

def openCount (e : Uuid) (t : SessionTable) : Nat := t.rows.countP (isOpen e)

theorem openCount_eq_zero (pg : Postgres) : t.openCount e=0 ↔ t.findActiveByEndpoint pg e=none := by
  rw [findActiveByEndpoint_eq_none,openCount,List.countP_eq_zero]
  simp only [Bool.not_eq_true]

theorem openCount_create (s : CreateSession) (now : Timestamp) (t : SessionTable) :
    (t.create s now).openCount e=t.openCount e+if s.endpointId=e then 1 else 0 := by
  rw [openCount,create,List.countP_append,openCount]
  simp [created,isOpen]

/-- A write to rows that are still open for the same device afterwards only if they were before. -/
theorem countP_updateRows_le {p q : SessionRow → Bool} {f : SessionRow → SessionRow}
    (h : ∀ s, q (f s)=true → q s=true) (rows : List SessionRow) :
    (updateRows p f rows).countP q ≤ rows.countP q := by
  rw [updateRows,List.countP_map]
  apply List.countP_mono_left
  intro s _ hs
  by_cases hp : p s=true
  · exact h s (by simpa [hp] using hs)
  · simpa [hp] using hs

theorem openCount_terminate_le : (t.terminate id now).openCount e ≤ t.openCount e :=
  countP_updateRows_le (fun s h => by simp [isOpen] at h) t.rows

theorem openCount_transition_le {state : SessionState} {username : Option String} :
    (t.transition id state username now).openCount e ≤ t.openCount e :=
  countP_updateRows_le (q := isOpen e) (f := fun s =>
    { s with state := state, username := username.or s.username, updatedAt := now })
    (fun _ h => h) t.rows

theorem openCount_terminateOpen : (t.terminateOpen now).openCount e=0 := by
  rw [openCount,List.countP_eq_zero]
  intro s hs
  rcases mem_updateRows.mp hs with ⟨s',-,-,rfl⟩ | ⟨-,hp⟩
  · simp [isOpen,ended]
  · simp [isOpen,hp]

/-! Every session is consistent. -/

def Consistent (t : SessionTable) : Prop := ∀ s ∈ t.rows, s.Consistent

theorem Consistent.updateRows {p : SessionRow → Bool} {f : SessionRow → SessionRow}
    (h : t.Consistent) (hf : ∀ s ∈ t.rows, p s=true → (f s).Consistent) :
    ∀ s ∈ updateRows p f t.rows, s.Consistent := by
  intro s hs
  rcases mem_updateRows.mp hs with ⟨s',hs',hp,rfl⟩ | ⟨hs,-⟩
  · exact hf s' hs' hp
  · exact h s hs

theorem Consistent.create (h : t.Consistent) (s : CreateSession) (now : Timestamp) :
    (t.create s now).Consistent := by
  intro s' hs'
  rcases List.mem_append.mp hs' with hs' | hs'
  · exact h s' hs'
  · obtain rfl := List.mem_singleton.mp hs'
    simp [SessionRow.Consistent,created]

theorem Consistent.terminate (h : t.Consistent) : (t.terminate id now).Consistent :=
  h.updateRows fun _ _ _ => by simp [SessionRow.Consistent]

theorem Consistent.terminateOpen (h : t.Consistent) : (t.terminateOpen now).Consistent :=
  h.updateRows fun _ _ _ => by simp [SessionRow.Consistent,ended]

/-- A session that is activated must be open. -/
theorem Consistent.activate_iff (h : t.Consistent) {s : SessionRow} (hs : s ∈ t.rows)
    (username : Option String) :
    (t.transition s.id .active username now).Consistent ↔ s.endedAt=none := by
  constructor
  · intro h'
    have hrow := h' _ (mem_updateRows.mpr (.inl ⟨s,hs,by simp,rfl⟩))
    simpa [SessionRow.Consistent] using hrow
  · intro hopen
    refine h.updateRows fun s' hs' hp => ?_
    have hid : s'.id=s.id := by simpa using hp
    rw [List.inj_on_of_nodup_map t.ids hs' hs hid]
    simp [SessionRow.Consistent,hopen]

/-! What has ended stays ended. -/

def KeepsEnded (t t' : SessionTable) : Prop :=
  ∀ s ∈ t.rows, s.endedAt.isSome=true → ∃ s' ∈ t'.rows, s'.id=s.id ∧ s'.endedAt.isSome=true

theorem KeepsEnded.refl (t : SessionTable) : KeepsEnded t t := fun s hs he => ⟨s,hs,rfl,he⟩

theorem KeepsEnded.trans (h : KeepsEnded t t') (h' : KeepsEnded t' t'') : KeepsEnded t t'' := by
  intro s hs he
  obtain ⟨s',hs',hid,he'⟩ := h s hs he
  obtain ⟨s'',hs'',hid',he''⟩ := h' s' hs' he'
  exact ⟨s'',hs'',hid'.trans hid,he''⟩

theorem KeepsEnded.create (s : CreateSession) (now : Timestamp) (t : SessionTable) :
    KeepsEnded t (t.create s now) := fun s' hs' he => ⟨s',List.mem_append_left _ hs',rfl,he⟩

theorem KeepsEnded.updateRows {p : SessionRow → Bool} {f : SessionRow → SessionRow}
    (hrows : t'.rows=updateRows p f t.rows) (hid : ∀ s, (f s).id=s.id)
    (hended : ∀ s, s.endedAt.isSome=true → (f s).endedAt.isSome=true) : KeepsEnded t t' := by
  intro s hs he
  cases hp : p s with
  | true => exact ⟨f s,hrows ▸ mem_updateRows.mpr (.inl ⟨s,hs,hp,rfl⟩),hid s,hended s he⟩
  | false => exact ⟨s,hrows ▸ mem_updateRows.mpr (.inr ⟨hs,hp⟩),rfl,he⟩

theorem KeepsEnded.terminate : KeepsEnded t (t.terminate id now) :=
  .updateRows rfl (fun _ => rfl) fun _ _ => rfl

theorem KeepsEnded.transition {state : SessionState} {username : Option String} :
    KeepsEnded t (t.transition id state username now) :=
  .updateRows rfl (fun _ => rfl) fun _ h => h

theorem KeepsEnded.terminateOpen : KeepsEnded t (t.terminateOpen now) :=
  .updateRows rfl (fun _ => rfl) fun _ _ => rfl

/-- What has ended is in the same state. -/
def KeepsState (t t' : SessionTable) : Prop :=
  ∀ s ∈ t.rows, s.endedAt.isSome=true → ∃ s' ∈ t'.rows, s'.id=s.id ∧ s'.state=s.state

theorem KeepsEnded.keepsState (h : KeepsEnded t t') (ht : t.Consistent) (ht' : t'.Consistent) :
    KeepsState t t' := by
  intro s hs he
  obtain ⟨s',hs',hid,he'⟩ := h s hs he
  exact ⟨s',hs',hid,((ht' s' hs').mpr he').trans ((ht s hs).mpr he).symm⟩

/-! No device has two open sessions. -/

def Single (t : SessionTable) : Prop := ∀ e, t.openCount e ≤ 1

theorem Single.create_iff (h : t.Single) (s : CreateSession) (now : Timestamp) :
    (t.create s now).Single ↔ t.openCount s.endpointId=0 := by
  constructor
  · intro h'
    have hone := h' s.endpointId
    rw [openCount_create,if_pos rfl] at hone
    omega
  · intro hzero e
    rw [openCount_create]
    by_cases he : s.endpointId=e
    · subst he
      rw [if_pos rfl,hzero]
    · rw [if_neg he]
      exact h e

theorem Single.terminate (h : t.Single) : (t.terminate id now).Single :=
  fun e => openCount_terminate_le.trans (h e)

theorem Single.transition {state : SessionState} {username : Option String} (h : t.Single) :
    (t.transition id state username now).Single := fun e => openCount_transition_le.trans (h e)

end SessionTable

end NacPlatform
