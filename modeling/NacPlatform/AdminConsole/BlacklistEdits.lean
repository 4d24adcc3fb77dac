import NacPlatform.AdminConsole.Blacklist
import NacPlatform.PolicyManager.Agreement

namespace NacPlatform.AdminConsole

/-- What an administrator does to a group: the button beside a device, the input field of the
group, the button beside an address of it. -/
inductive Edit where
  | device (mac : MacAddr)
  | add (newMac : String)
  | remove (mac : String)

/-- What became of a text. -/
inductive Change where
  | listed (text : String)
  | unlisted (text : String)
  deriving DecidableEq, Repr

def Change.apply (texts : List String) : Change → List String
  | listed text => texts++[text]
  | unlisted text => texts.filter (· != text)

def Edit.change : Edit → Change
  | device mac => .listed mac.text
  | add newMac => .listed (trim newMac)
  | remove mac => .unlisted mac

/-- The request of an edit, by a page that has these policies. The last two kinds are on the group
with the id; the page shows a button beside each address of its list. -/
def Edit.sends (rt : Runtime) (id : Uuid) (policies : List PolicyRecord) :
    Edit → Js (Uuid × UpdatePolicy)
  | device mac => handleAddToBlacklist rt policies mac.text
  | add newMac => do
    let some policy := (← blacklistPolicies policies).find? (·.id==id) | .error .absent
    handleAddMac rt policy newMac
  | remove mac => do
    let some policy := (← blacklistPolicies policies).find? (·.id==id) | .error .absent
    if (← getBlacklistMacs policy).any (·.asString==some mac) then handleRemoveMac policy mac
    else .error .absent

/-- What the pages have been given, and the policies as they are. -/
structure Consoles (Tab : Type) where
  table : PolicyTable
  data : Tab → Option (List PolicyRecord)

/-- A page is given the policies, an administrator edits on it, or a client of the policy API that
is not one of the pages sends a request. -/
inductive Act (Tab : Type) where
  | load (tab : Tab)
  | edit (tab : Tab) (e : Edit)
  | other (r : PolicyRequest)

/-- `SELECT … ORDER BY priority ASC`. -/
def listAll (pg : Postgres) (t : PolicyTable) : List PolicyRecord :=
  (pg.scan t.rows).insertionSort fun a b => a.priority ≤ b.priority

section System

variable {Tab : Type} [DecidableEq Tab] (rt : Runtime) (pg : Postgres)
  (refuses : PolicyCall → Bool) (id : Uuid)

def Consoles.sends (s : Consoles Tab) (tab : Tab) (e : Edit) : Js (Uuid × UpdatePolicy) :=
  e.sends rt id ((s.data tab).getD [])

def Consoles.step (s : Consoles Tab) : Act Tab → Consoles Tab
  | .load tab => { s with data := Function.update s.data tab (some (listAll pg s.table)) }
  | .edit tab e =>
    match s.sends rt id tab e with
    | .ok (id',body) => { s with table := (PolicyRequest.update id' body).step refuses s.table }
    | .error _ => s
  | .other r => { s with table := r.step refuses s.table }

/-- The page has sent a request and it was answered with success. -/
def Consoles.wentThrough (s : Consoles Tab) (tab : Tab) (e : Edit) : Bool :=
  match s.sends rt id tab e with
  | .ok (id',body) => (PolicyRequest.update id' body).accepted refuses s.table
  | .error _ => false

/-- The moves of the list of the group that a step stands for. -/
def Consoles.moves (s : Consoles Tab) : Act Tab → List (Copies.Event Tab Change)
  | .load tab => [.load tab]
  | .edit tab e => if s.wentThrough rt refuses id tab e then [.change tab e.change] else []
  | .other _ => []

/-- The changes that went through, in order. -/
def Consoles.changes (s : Consoles Tab) (as : List (Act Tab)) : List Change :=
  Copies.changes (trace (step rt pg refuses id) (moves rt refuses id) s as)

end System

/-- The group with the id lists these texts, and no other policy is a blacklist. -/
structure Sole (id : Uuid) (texts : List String) (rows : List PolicyRecord) : Prop where
  ids : (rows.map (·.id)).Nodup
  group : ∃ row ∈ rows, row.id=id ∧ ListsOnly row.conditions texts
  others : ∀ row ∈ rows, row.id≠id → Unlisted row.conditions

/-- A request that neither deletes the group nor gives its conditions, and makes no blacklist. -/
def Leaves (id : Uuid) : PolicyRequest → Prop
  | .create body => ∀ c, body.conditions=some c → Unlisted c
  | .update id' body => ∀ c, body.conditions=some c → id'≠id ∧ Unlisted c
  | .delete id' => id'≠id

/-- What the list that an edit is made on has to be for the page to send it. -/
def Fits (rt : Runtime) (texts : List String) : Change → Prop
  | .listed text => ∀ m ∈ texts, rt.toLowercase m≠rt.toLowercase text
  | .unlisted text => text ∈ texts

namespace Sole

variable {rt : Runtime} {id : Uuid} {texts : List String} {rows : List PolicyRecord}

theorem find (h : Sole id texts rows) :
    ∃ row, rows.find? (·.id==id)=some row ∧ row.id=id ∧ ListsOnly row.conditions texts := by
  obtain ⟨row,hrow,hid,hlists⟩ := h.group
  refine ⟨row,?_,hid,hlists⟩
  refine find?_unique h.ids hrow (by simpa using hid) ?_
  intro r _ hr
  rw [hid]
  simpa using hr

/-- The group stands between policies that are no blacklists. -/
theorem split (h : Sole id texts rows) : ∃ pre row post, rows=pre++row::post ∧ row.id=id ∧
    ListsOnly row.conditions texts ∧ (∀ r ∈ pre, Unlisted r.conditions) ∧
    ∀ r ∈ post, Unlisted r.conditions := by
  obtain ⟨row,hrow,hid,hlists⟩ := h.group
  obtain ⟨pre,post,rfl⟩ := List.append_of_mem hrow
  have hids : (pre.map (·.id)++row.id::post.map (·.id)).Nodup := by
    simpa using h.ids
  have hfresh : row.id ∉ pre.map (·.id)++post.map (·.id) := (List.nodup_middle.mp hids).notMem
  rw [List.mem_append,not_or] at hfresh
  refine ⟨pre,row,post,rfl,hid,hlists,?_,?_⟩
  · intro r hr
    refine h.others r (List.mem_append_left _ hr) fun e => hfresh.1 ?_
    exact List.mem_map.mpr ⟨r,hr,e.trans hid.symm⟩
  · intro r hr
    refine h.others r (List.mem_append_right _ (List.mem_cons_of_mem _ hr)) fun e => hfresh.2 ?_
    exact List.mem_map.mpr ⟨r,hr,e.trans hid.symm⟩

theorem perm {rows' : List PolicyRecord} (h : Sole id texts rows) (hp : rows'.Perm rows) :
    Sole id texts rows' where
  ids := ((hp.map _).nodup_iff).mpr h.ids
  group := by
    obtain ⟨row,hrow,hlists⟩ := h.group
    exact ⟨row,hp.mem_iff.mpr hrow,hlists⟩
  others row hrow := h.others row (hp.mem_iff.mp hrow)

theorem listAll {pg : Postgres} {t : PolicyTable} (h : Sole id texts t.rows) :
    Sole id texts (listAll pg t) :=
  h.perm ((List.perm_insertionSort _ _).trans (pg.scan_perm _))

end Sole

/-! Each handler on the group: nothing is sent, or the list with one change made. -/

section Handlers

variable {rt : Runtime} {texts : List String} {policy : PolicyRecord}

/-- What a handler does with the group: nothing, or it sends the changed list. -/
def Sends (rt : Runtime) (id : Uuid) (texts : List String) (change : Change) :
    Js (Uuid × UpdatePolicy) → Prop
  | .ok (id',body) => id'=id ∧ Fits rt texts change ∧
    ∃ c, body=conditionsUpdate c ∧ ListsOnly c (change.apply texts)
  | .error _ => True

theorem appended_texts (mac : String) (c : Json)
    (hc : macsOf c=some (.array (texts.map .string))) :
    appended mac c=.ok ((texts++[mac]).map .string) := by
  rw [appended,hc,List.map_append]
  rfl

theorem fits_listed {mac : String}
    (h : (texts.any fun m => rt.toLowercase m==rt.toLowercase mac)=false) :
    Fits rt texts (.listed mac) := by
  intro m hm
  simpa using List.any_eq_false.mp h m hm

theorem handleAddToBlacklist_sends {rows : List PolicyRecord} (mac : String)
    (hfind : rows.findM? hasBlacklist=.ok (some policy)) (h : ListsOnly policy.conditions texts) :
    Sends rt policy.id texts (.listed mac) (handleAddToBlacklist rt rows mac) := by
  obtain ⟨c,hmap,hc⟩ := mapBlacklists_listsOnly h (appended_texts mac)
  obtain ⟨fields,hconditions,htype,hmacs⟩ := h
  have hfirst : [Json.object fields].findM? isMacBlacklist=.ok (some (.object fields)) := by
    simp [List.findM?,isMacBlacklist_of_type htype,bind,Except.bind,pure,Except.pure]
  rw [hconditions] at hmap
  rw [handleAddToBlacklist,hfind]
  simp only [bind,Except.bind,hconditions,elements,hfirst,Option.elim_some,macsOf,hmacs,
    isListed_texts]
  cases hany : texts.any fun m => rt.toLowercase m==rt.toLowercase mac with
  | true => trivial
  | false =>
    simp only [hmap]
    exact ⟨rfl,fits_listed hany,c,rfl,hc⟩

theorem handleAddMac_sends (newMac : String) (h : ListsOnly policy.conditions texts) :
    Sends rt policy.id texts (.listed (trim newMac)) (handleAddMac rt policy newMac) := by
  obtain ⟨c,hmap,hc⟩ := mapBlacklists_listsOnly h (appended_texts (trim newMac))
  unfold handleAddMac
  by_cases hblank : trim newMac==""
  · simp only [hblank,if_true]
    trivial
  · simp only [hblank,getBlacklistMacs_listsOnly h,isListed_texts,bind,Except.bind]
    cases hany : texts.any fun m => rt.toLowercase m==rt.toLowercase (trim newMac) with
    | true => trivial
    | false =>
      simp only [hmap]
      exact ⟨rfl,fits_listed hany,c,rfl,hc⟩

theorem handleRemoveMac_ok (mac : String) (h : ListsOnly policy.conditions texts) :
    ∃ c, handleRemoveMac policy mac=.ok (policy.id,conditionsUpdate c) ∧
      ListsOnly c (Change.apply texts (.unlisted mac)) := by
  have hfilter (c : Json) (hc : macsOf c=some (.array (texts.map .string))) :
      (do return (← elements (macsOf c)).filter (·.asString != some mac) : Js (List Json))=
        .ok ((texts.filter (· != mac)).map .string) := by
    have htexts : (texts.map Json.string).filter (·.asString != some mac)=
        (texts.filter (· != mac)).map .string := by
      rw [List.filter_map]
      congr 1
    rw [hc,← htexts]
    rfl
  obtain ⟨c,hmap,hc⟩ := mapBlacklists_listsOnly h hfilter
  rw [handleRemoveMac,hmap]
  exact ⟨c,rfl,hc⟩

end Handlers

theorem Sole.sends {id : Uuid} {texts : List String} {rows : List PolicyRecord}
    (h : Sole id texts rows) (rt : Runtime) (e : Edit) : Sends rt id texts e.change (e.sends rt id rows) := by
  obtain ⟨pre,row,post,rfl,rfl,hlists,hpre,hpost⟩ := h.split
  cases e with
  | device mac =>
    exact handleAddToBlacklist_sends mac.text (findM_hasBlacklist hpre hlists) hlists
  | add newMac =>
    simp only [Edit.sends,blacklistPolicies_one hpre hlists hpost,bind,Except.bind,List.find?_cons,
      beq_self_eq_true]
    exact handleAddMac_sends newMac hlists
  | remove mac =>
    simp only [Edit.sends,blacklistPolicies_one hpre hlists hpost,bind,Except.bind,List.find?_cons,
      beq_self_eq_true,getBlacklistMacs_listsOnly hlists]
    split_ifs with hshown
    · obtain ⟨j,hj,he⟩ := List.any_eq_true.mp hshown
      obtain ⟨m,hm,rfl⟩ := List.mem_map.mp hj
      have hsame : m=mac := by simpa [Json.asString] using he
      obtain ⟨c,hsent,hc⟩ := handleRemoveMac_ok mac hlists
      rw [hsent]
      exact ⟨rfl,hsame ▸ hm,c,rfl,hc⟩
    · trivial

/-- The page shows a button beside each address of its list. -/
theorem Sole.sends_remove {id : Uuid} {texts : List String} {rows : List PolicyRecord}
    {mac : String} (h : Sole id texts rows) (rt : Runtime) (hmac : mac ∈ texts) :
    ∃ c, Edit.sends rt id rows (.remove mac)=.ok (id,conditionsUpdate c) := by
  obtain ⟨pre,row,post,rfl,rfl,hlists,hpre,hpost⟩ := h.split
  have hshown : (texts.map Json.string).any (·.asString==some mac)=true := by
    rw [List.any_map,List.any_eq_true]
    exact ⟨mac,hmac,by simp [Json.asString]⟩
  obtain ⟨c,hc,-⟩ := handleRemoveMac_ok mac hlists
  refine ⟨c,?_⟩
  simp only [Edit.sends,blacklistPolicies_one hpre hlists hpost,bind,Except.bind,List.find?_cons,
    beq_self_eq_true,getBlacklistMacs_listsOnly hlists,hshown,if_true]
  exact hc

/-! What the policy API makes of the requests. -/

section Requests

variable {refuses : PolicyCall → Bool} {id : Uuid} {texts : List String} {t : PolicyTable}

/-- An accepted update has put a row with the same id in the place of the one it found. -/
theorem rows_of_accepted {body : UpdatePolicy}
    (h : (PolicyRequest.update id body).accepted refuses t=true) :
    ∃ old row, t.findById id=some old ∧ row.id=id ∧
      row.conditions=body.conditions.getD old.conditions ∧
      ((PolicyRequest.update id body).step refuses t).rows=
        updateRows (·.id==id) (fun _ => row) t.rows := by
  unfold PolicyRequest.accepted at h
  unfold PolicyRequest.step
  rw [PolicyRequest.handler,Proc.run_bind,Policies.updatePolicy,Proc.run_bind] at h ⊢
  rcases PolicyRequest.run_update refuses id body t with
    ⟨old,row,t',hrun,hfind,hcolumns,hrows⟩|hrun|⟨e,hrun⟩
  · refine ⟨old,row,hfind,?_,congrArg PolicyColumns.conditions hcolumns,?_⟩
    · rw [Policies.update,Policies.run_query_bind] at hrun
      rcases hexec : PolicyCall.exec refuses (.findById id) t with ⟨found,t₁⟩
      rw [hexec] at hrun
      rcases found with e|_|existing
      · cases hrun
      · cases hrun
      · have hwrite := Proc.run_performOrFail (PolicyCall.exec refuses)
          (.update id (Policies.merged body existing.columns))
          (fun r => r.mapError Policies.AppError.database) t₁
        rcases hreply : PolicyCall.exec refuses
            (.update id (Policies.merged body existing.columns)) t₁ with ⟨reply,t₂⟩
        dsimp only at hrun
        rw [Policies.query,hwrite,hreply] at hrun
        rcases reply with e|written
        · cases hrun
        · cases hrun
          obtain ⟨_,-,-,hid,-⟩ := PolicyTable.update_ok (PolicyCall.exec_update_ok hreply)
          exact hid
    · rw [hrun]
      exact hrows
  · rw [hrun] at h
    cases h
  · rw [hrun] at h
    cases h

theorem Sole.update {texts' : List String} {c : Json} (h : Sole id texts t.rows)
    (ha : (PolicyRequest.update id (conditionsUpdate c)).accepted refuses t=true)
    (hc : ListsOnly c texts') :
    Sole id texts' ((PolicyRequest.update id (conditionsUpdate c)).step refuses t).rows := by
  obtain ⟨old,row,hfind,hid,hconditions,hrows⟩ := rows_of_accepted ha
  obtain ⟨hold,holdId⟩ := PolicyTable.mem_of_findById hfind
  refine ⟨((PolicyRequest.update id (conditionsUpdate c)).step refuses t).ids,?_,?_⟩
  · refine ⟨row,?_,hid,?_⟩
    · rw [hrows,mem_updateRows]
      exact .inl ⟨old,hold,by simpa using holdId,rfl⟩
    · rw [hconditions]
      exact hc
  · intro r hr hne
    rw [hrows,mem_updateRows] at hr
    rcases hr with ⟨_,-,-,rfl⟩|⟨hr,-⟩
    · exact absurd hid hne
    · exact h.others r hr hne

theorem unlisted_nil : Unlisted (.array []) := ⟨[],rfl,fun _ he => absurd he List.not_mem_nil⟩

theorem unlisted_getD {conditions : Option Json} {stored : Json}
    (h : ∀ c, conditions=some c → Unlisted c) (hs : conditions=none → Unlisted stored) :
    Unlisted (conditions.getD stored) := by
  cases hc : conditions with
  | none => exact hs hc
  | some c => exact h c hc

theorem Sole.created {body : CreatePolicy} {t' : PolicyTable} (h : Sole id texts t.rows)
    (hr : Leaves id (.create body)) (he : PolicyRequest.Effect t t' (.create body)) :
    Sole id texts t'.rows := by
  cases he with
  | created new conditions rows =>
    obtain ⟨row,hrow,hlists⟩ := h.group
    refine ⟨t'.ids,⟨row,by rw [rows]; exact List.mem_append_left _ hrow,hlists⟩,?_⟩
    intro r hmem hne
    rw [rows,List.mem_append,List.mem_singleton] at hmem
    rcases hmem with hmem|rfl
    · exact h.others r hmem hne
    · rw [conditions]
      exact unlisted_getD hr fun _ => unlisted_nil

theorem Sole.deleted {id' : Uuid} {t' : PolicyTable} (h : Sole id texts t.rows)
    (hr : Leaves id (.delete id')) (he : PolicyRequest.Effect t t' (.delete id')) :
    Sole id texts t'.rows := by
  cases he with
  | deleted rows =>
    obtain ⟨row,hrow,hid,hlists⟩ := h.group
    refine ⟨t'.ids,⟨row,?_,hid,hlists⟩,?_⟩
    · rw [rows,List.mem_filter]
      exact ⟨hrow,by simpa [hid] using fun e : id=id' => hr e.symm⟩
    · intro r hmem hne
      rw [rows] at hmem
      exact h.others r (List.mem_of_mem_filter hmem) hne

theorem Sole.updated {id' : Uuid} {body : UpdatePolicy} (h : Sole id texts t.rows)
    (hr : Leaves id (.update id' body))
    (ha : (PolicyRequest.update id' body).accepted refuses t=true) :
    Sole id texts ((PolicyRequest.update id' body).step refuses t).rows := by
  obtain ⟨row,hrow,hid,hlists⟩ := h.group
  obtain ⟨old,new,hfind,hnew,hconditions,hrows⟩ := rows_of_accepted ha
  obtain ⟨hold,holdId⟩ := PolicyTable.mem_of_findById hfind
  refine ⟨((PolicyRequest.update id' body).step refuses t).ids,?_,?_⟩
  · by_cases hsame : id'=id
    · subst hsame
      have hgroup : old=row := List.inj_on_of_nodup_map t.ids hold hrow (holdId.trans hid.symm)
      subst hgroup
      have hnone : body.conditions=none := by
        cases hbody : body.conditions with
        | none => rfl
        | some c => exact absurd rfl (hr c hbody).1
      refine ⟨new,?_,hnew,?_⟩
      · rw [hrows,mem_updateRows]
        exact .inl ⟨old,hold,by simpa using holdId,rfl⟩
      · rw [hconditions,hnone]
        exact hlists
    · refine ⟨row,?_,hid,hlists⟩
      rw [hrows,mem_updateRows]
      exact .inr ⟨hrow,by simpa [hid] using fun e : id=id' => hsame e.symm⟩
  · intro r hmem hne
    rw [hrows,mem_updateRows] at hmem
    rcases hmem with ⟨_,-,-,rfl⟩|⟨hmem,-⟩
    · rw [hconditions]
      exact unlisted_getD (fun c hc => (hr c hc).2) fun _ =>
        h.others old hold fun e => hne (hnew.trans (holdId.symm.trans e))
    · exact h.others r hmem hne

theorem Sole.other {r : PolicyRequest} (h : Sole id texts t.rows) (hr : Leaves id r) :
    Sole id texts (r.step refuses t).rows := by
  cases ha : r.accepted refuses t with
  | false =>
    rw [PolicyRequest.step_of_refused refuses ha]
    exact h
  | true =>
    cases r with
    | create body => exact h.created hr (PolicyRequest.effect_of_accepted refuses ha)
    | update id' body => exact h.updated hr ha
    | delete id' => exact h.deleted hr (PolicyRequest.effect_of_accepted refuses ha)

end Requests

section Simulation

variable {Tab : Type} [DecidableEq Tab] {rt : Runtime} {pg : Postgres}
  {refuses : PolicyCall → Bool} {id : Uuid}

/-- The table and the pages have the group with the texts that the copies have. -/
structure Shows (id : Uuid) (s : Consoles Tab) (c : Copies Tab (List String)) : Prop where
  table : Sole id c.stored s.table.rows
  data : ∀ tab rows, s.data tab=some rows → Sole id (c.copy tab) rows

/-- A page that has been given nothing sends nothing. -/
theorem sends_nil (e : Edit) : ∃ u, e.sends rt id []=.error u := by
  cases e <;> exact ⟨_,rfl⟩

theorem step_of_sends {s : Consoles Tab} {tab : Tab} {e : Edit} {id' : Uuid} {body : UpdatePolicy}
    (h : s.sends rt id tab e=.ok (id',body)) : s.step rt pg refuses id (.edit tab e)=
      { s with table := (PolicyRequest.update id' body).step refuses s.table } := by
  simp only [Consoles.step,h]

omit [DecidableEq Tab] in
theorem exists_sends {s : Consoles Tab} {tab : Tab} {e : Edit}
    (hw : s.wentThrough rt refuses id tab e=true) : ∃ id' body,
      s.sends rt id tab e=.ok (id',body) ∧
        (PolicyRequest.update id' body).accepted refuses s.table=true := by
  unfold Consoles.wentThrough at hw
  cases hsent : s.sends rt id tab e with
  | error u =>
    rw [hsent] at hw
    cases hw
  | ok sent =>
    rw [hsent] at hw
    exact ⟨sent.1,sent.2,rfl,hw⟩

variable (pg) in
/-- An edit that went through was made on what the page has and sent it with the change. -/
theorem went_edit {s : Consoles Tab} {c : Copies Tab (List String)} {tab : Tab} {e : Edit}
    (h : Shows id s c) (hw : s.wentThrough rt refuses id tab e=true) :
    Fits rt (c.copy tab) e.change ∧
      Sole id (e.change.apply (c.copy tab)) (s.step rt pg refuses id (.edit tab e)).table.rows := by
  obtain ⟨id',body,hsent,haccepted⟩ := exists_sends hw
  rw [step_of_sends hsent]
  rw [Consoles.sends] at hsent
  cases hdata : s.data tab with
  | none =>
    obtain ⟨u,hu⟩ : ∃ u, e.sends rt id []=.error u := sends_nil e
    rw [hdata,Option.getD_none,hu] at hsent
    cases hsent
  | some rows =>
    have hsends := (h.data tab rows hdata).sends rt e
    rw [hdata,Option.getD_some] at hsent
    rw [hsent] at hsends
    obtain ⟨rfl,hfits,c',rfl,hlists⟩ := hsends
    exact ⟨hfits,h.table.update haccepted hlists⟩

theorem step_of_not_went {s : Consoles Tab} {tab : Tab} {e : Edit}
    (hw : s.wentThrough rt refuses id tab e=false) :
    s.step rt pg refuses id (.edit tab e)=s := by
  unfold Consoles.wentThrough at hw
  cases hsent : s.sends rt id tab e with
  | error u => simp only [Consoles.step,hsent]
  | ok sent =>
    obtain ⟨id',body⟩ := sent
    rw [hsent] at hw
    rw [step_of_sends hsent,PolicyRequest.step_of_refused refuses hw]

/-- The pages and the policy API do with the group what is done with a value and copies of it. -/
theorem step_simulates {s : Consoles Tab} {c : Copies Tab (List String)} {a : Act Tab}
    (ha : ∀ r, a=.other r → Leaves id r) (h : Shows id s c) :
    Shows id (s.step rt pg refuses id a)
      (runs (Copies.step Change.apply) c (s.moves rt refuses id a)) := by
  cases a with
  | load tab =>
    refine ⟨h.table,?_⟩
    intro tab' rows hrows
    by_cases htab : tab'=tab
    · subst htab
      have hgiven : Function.update s.data tab' (some (listAll pg s.table)) tab'=some rows := hrows
      rw [Function.update_self] at hgiven
      cases hgiven
      have hcopy : (Copies.step Change.apply c (.load tab')).copy tab'=c.stored :=
        Function.update_self ..
      show Sole id ((Copies.step Change.apply c (.load tab')).copy tab') _
      rw [hcopy]
      exact h.table.listAll
    · have hold : s.data tab'=some rows := by
        rw [← hrows]
        exact (Function.update_of_ne htab ..).symm
      have hcopy : (Copies.step Change.apply c (.load tab)).copy tab'=c.copy tab' :=
        Function.update_of_ne htab ..
      show Sole id ((Copies.step Change.apply c (.load tab)).copy tab') rows
      rw [hcopy]
      exact h.data tab' rows hold
  | edit tab e =>
    cases hw : s.wentThrough rt refuses id tab e with
    | false =>
      rw [step_of_not_went hw,Consoles.moves,hw]
      exact h
    | true =>
      have hmoves : s.moves rt refuses id (.edit tab e)=[.change tab e.change] := by
        rw [Consoles.moves,hw]
        rfl
      have hdata : (s.step rt pg refuses id (.edit tab e)).data=s.data := by
        obtain ⟨id',body,hsent,-⟩ := exists_sends hw
        rw [step_of_sends hsent]
      rw [hmoves]
      refine ⟨(went_edit pg h hw).2,?_⟩
      rw [hdata]
      exact h.data
  | other r => exact ⟨h.table.other (ha r rfl),h.data⟩

variable (rt pg refuses) in
theorem runs_simulate {s : Consoles Tab} {c : Copies Tab (List String)} {as : List (Act Tab)}
    (has : ∀ r, .other r ∈ as → Leaves id r) (h : Shows id s c) :
    Shows id (runs (Consoles.step rt pg refuses id) s as)
      (runs (Copies.step Change.apply) c
        (trace (Consoles.step rt pg refuses id) (Consoles.moves rt refuses id) s as)) :=
  runs_trace (Shows id) as (fun _ _ _ ha => step_simulates fun r hr => has r (hr ▸ ha)) h

end Simulation

end NacPlatform.AdminConsole
