import NacPlatform.Framework.LdapFilter

namespace NacPlatform.LdapFilter

/-- A place in a value of a filter: what stands before it and behind it in the value, and around
the value. -/
inductive Place where
  | assertion (lhs before behind : List Char)
  | substrings (attr : List Char) (pieces : List (List Char)) (before behind : List Char)
      (more : List (List Char))
  | not (p : Place)
  | and (fs : List Filter) (p : Place) (gs : List Filter)
  | or (fs : List Filter) (p : Place) (gs : List Filter)

namespace Place

/-- The filter with a text at the place. -/
def fill : Place → List Char → Filter
  | .assertion lhs before behind, v => .assertion lhs (before++(v++behind))
  | .substrings attr pieces before behind more, v =>
    .substrings attr (pieces++(before++(v++behind))::more)
  | .not p, v => .not (p.fill v)
  | .and fs p gs, v => .and (fs++p.fill v::gs)
  | .or fs p gs, v => .or (fs++p.fill v::gs)

/-- The value around the place. -/
def ends : Place → List Char × List Char
  | .assertion _ before behind => (before,behind)
  | .substrings _ _ before behind _ => (before,behind)
  | .not p => p.ends
  | .and _ p _ => p.ends
  | .or _ p _ => p.ends

/-- An asterisk keeps a text beside it. -/
def KeepsText : Place → List Char → Prop
  | .assertion .., _ => True
  | .substrings _ pieces before behind more, v => pieces++(before++(v++behind))::more≠[[],[]]
  | .not p, v => p.KeepsText v
  | .and _ p _, v => p.KeepsText v
  | .or _ p _, v => p.KeepsText v

def left : Place → List Char
  | .assertion lhs before _ => '('::(lhs++before)
  | .substrings attr pieces before _ _ => '('::(attr++ '='::(pieces.flatMap (·++['*'])++before))
  | .not p => '(':: '!'::p.left
  | .and fs p _ => '(':: '&'::(texts fs++p.left)
  | .or fs p _ => '(':: '|'::(texts fs++p.left)

def right : Place → List Char
  | .assertion _ _ behind => behind++[')']
  | .substrings _ _ _ behind more => behind++(more.flatMap ('*'::·)++[')'])
  | .not p => p.right++[')']
  | .and _ p gs => p.right++(texts gs++[')'])
  | .or _ p gs => p.right++(texts gs++[')'])

theorem texts_append (fs gs : List Filter) : texts (fs++gs)=texts fs++texts gs := by
  induction fs with
  | nil => rw [texts,List.nil_append,List.nil_append]
  | cons f fs ih => rw [List.cons_append,texts,texts,ih,List.append_assoc]

/-- What stands around the place does not depend on what is put there. -/
theorem text_fill (p : Place) (v : List Char) : (p.fill v).text=p.left++(v++p.right) := by
  induction p with
  | assertion lhs before behind => simp [fill,Filter.text,left,right]
  | substrings attr pieces before behind more =>
    rw [fill,Filter.text,intercalate_append,left,right]
    simp
  | not p ih =>
    rw [fill,Filter.text,ih,left,right]
    simp
  | and fs p gs ih =>
    rw [fill,Filter.text,texts_append,texts,ih,left,right]
    simp
  | or fs p gs ih =>
    rw [fill,Filter.text,texts_append,texts,ih,left,right]
    simp

/-- The value with a text at the place. -/
def value (p : Place) (v : List Char) : List Char := p.ends.1++(v++p.ends.2)

theorem valid_not {f : Filter} : (Filter.not f).Valid ↔ f.Valid := by
  constructor
  · intro h
    cases h with
    | not _ valid => exact valid
  · exact .not f

theorem forall_mem_place {P : Filter → Prop} {fs gs : List Filter} {f : Filter} :
    (∀ g ∈ fs++f::gs, P g) ↔ (∀ g ∈ fs++gs, P g) ∧ P f := by
  simp only [List.forall_mem_append,List.forall_mem_cons]
  tauto

theorem valid_and {fs gs : List Filter} {f : Filter} :
    (Filter.and (fs++f::gs)).Valid ↔ (∀ g ∈ fs++gs, g.Valid) ∧ f.Valid := by
  rw [← forall_mem_place]
  constructor
  · intro h
    cases h with
    | and _ _ valid => exact valid
  · exact .and _ (by simp)

theorem valid_or {fs gs : List Filter} {f : Filter} :
    (Filter.or (fs++f::gs)).Valid ↔ (∀ g ∈ fs++gs, g.Valid) ∧ f.Valid := by
  rw [← forall_mem_place]
  constructor
  · intro h
    cases h with
    | or _ _ valid => exact valid
  · exact .or _ (by simp)

/-- A filter stays one if its value does and keeps a text where it needs one. -/
theorem valid_fill (p : Place) {v : List Char} (h : (p.fill v).Valid) (w : List Char) :
    (p.fill w).Valid ↔ (∃ bs, ValueEncoding (p.value w) bs) ∧ p.KeepsText w := by
  induction p with
  | assertion lhs before behind =>
    cases h with
    | assertion _ _ _ hleft hright =>
      constructor
      · intro hw
        cases hw with
        | assertion _ _ bs _ hright' => exact ⟨⟨bs,hright'⟩,trivial⟩
      · intro hw
        obtain ⟨⟨bs,hbs⟩,-⟩ := hw
        exact .assertion _ _ bs hleft hbs
  | substrings attr pieces before behind more =>
    cases h with
    | substrings _ _ hleft hasterisk hright _ =>
      constructor
      · intro hw
        cases hw with
        | substrings _ _ _ _ hright' text => exact ⟨hright' _ (by simp [value,ends]),text⟩
      · intro hw
        obtain ⟨hvalue,htext⟩ := hw
        refine .substrings _ _ hleft (by simpa using hasterisk) ?_ htext
        intro x hx
        rcases List.mem_append.mp hx with hx|hx
        · exact hright x (List.mem_append_left _ hx)
        · rcases List.mem_cons.mp hx with rfl|hx
          · exact hvalue
          · exact hright x (List.mem_append_right _ (List.mem_cons_of_mem _ hx))
  | not p ih =>
    have hp := valid_not.mp h
    exact valid_not.trans (ih hp)
  | and fs p gs ih =>
    obtain ⟨hothers,hp⟩ := valid_and.mp h
    exact valid_and.trans ((and_iff_right hothers).trans (ih hp))
  | or fs p gs ih =>
    obtain ⟨hothers,hp⟩ := valid_or.mp h
    exact valid_or.trans ((and_iff_right hothers).trans (ih hp))

end Place

end NacPlatform.LdapFilter
