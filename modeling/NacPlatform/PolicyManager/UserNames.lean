import NacPlatform.PolicyManager.Jobs
import NacPlatform.Store.Lookup

namespace NacPlatform

/-- The names that the tables show: those of the devices and those of the sessions. -/
structure World.Named (who : String → Prop) (w : World) : Prop where
  endpoints : ∀ id r, w.endpoints.findById id=some r → ∀ u, r.username=some u → who u
  sessions : ∀ s ∈ w.sessions.rows, ∀ u, s.username=some u → who u

namespace Call

/-- A call that writes no other names than these. -/
def Names (who : String → Prop) : Call → Prop
  | setUsername _ u => who u
  | transition _ _ (some u) => who u
  | _ => True

theorem Names.mono {who who' : String → Prop} (h : ∀ u, who u → who' u) {c : Call}
    (hc : c.Names who) : c.Names who' := by
  cases c with
  | setUsername id u => exact h u hc
  | transition id state u =>
    cases u with
    | none => trivial
    | some u => exact h u hc
  | _ => trivial

end Call

namespace World

variable {who : String → Prop} {w : World}

theorem Named.mono {who' : String → Prop} (h : ∀ u, who u → who' u) (hw : w.Named who) :
    w.Named who' where
  endpoints id r hr u hu := h u (hw.endpoints id r hr u hu)
  sessions s hs u hu := h u (hw.sessions s hs u hu)

/-- Device rows whose names were there before. -/
theorem Named.rows (hw : w.Named who) {t : EndpointTable}
    (h : ∀ id r, t.findById id=some r → ∀ u, r.username=some u →
      ∃ id' r', w.endpoints.findById id'=some r' ∧ r'.username=some u) {clock : Timestamp} :
    ({w with endpoints := t, clock := clock} : World).Named who where
  endpoints id r hr u hu := by
    obtain ⟨id',r',hr',hu'⟩ := h id r hr u hu
    exact hw.endpoints id' r' hr' u hu'
  sessions := hw.sessions

theorem Named.column (hw : w.Named who) {t : EndpointTable} {clock : Timestamp}
    (h : t.column (·.username)=w.endpoints.column (·.username)) :
    ({w with endpoints := t, clock := clock} : World).Named who := by
  apply hw.rows
  intro id r hr u hu
  have hcol : t.column (·.username) id=some (some u) := EndpointTable.column_eq_some.mpr ⟨r,hr,hu⟩
  rw [h] at hcol
  obtain ⟨r',hr',hu'⟩ := EndpointTable.column_eq_some.mp hcol
  exact ⟨id,r',hr',hu'⟩

/-- A row put in place of one with the same name, or a row without a name. -/
theorem Named.put (hw : w.Named who) {t : EndpointTable} {row : EndpointRow}
    (hput : EndpointTable.Put w.endpoints t row)
    (hrow : ∀ u, row.username=some u →
      ∃ id r, w.endpoints.findById id=some r ∧ r.username=some u) {clock : Timestamp} :
    ({w with endpoints := t, clock := clock} : World).Named who := by
  apply hw.rows
  intro id r hr u hu
  by_cases hid : id=row.id
  · rw [hid,hput.self] at hr
    cases hr
    exact hrow u hu
  · rw [hput.other hid] at hr
    exact ⟨id,r,hr,hu⟩

end World

namespace ReconcileCall

end ReconcileCall

namespace Call

variable {who : String → Prop} {c : Call}

end Call

end NacPlatform
