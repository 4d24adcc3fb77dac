import Mathlib.Logic.Function.Basic

namespace NacPlatform

universe u

/-- A handler seen as the atomic operations it performs, one after another, on a shared
state. `Reply op` is what the operation `op` hands back; `fail` is a handler that returns early
with an error. -/
inductive Proc (Op : Type u) (Reply : Op → Type) (E α : Type) : Type u where
  | ret : α → Proc Op Reply E α
  | fail : E → Proc Op Reply E α
  | call : (op : Op) → (Reply op → Proc Op Reply E α) → Proc Op Reply E α

namespace Proc

variable {Op : Type u} {Reply : Op → Type} {E W α β : Type}

protected def bind : Proc Op Reply E α → (α → Proc Op Reply E β) → Proc Op Reply E β
  | .ret a, f => f a
  | .fail e, _ => .fail e
  | .call op k, f => .call op fun r => (k r).bind f

instance : Monad (Proc Op Reply E) where
  pure := Proc.ret
  bind := Proc.bind

protected theorem bind_assoc {γ : Type} (p : Proc Op Reply E α) (f : α → Proc Op Reply E β)
    (g : β → Proc Op Reply E γ) : (p >>= f) >>= g=p >>= fun a => f a >>= g := by
  change (p.bind f).bind g=p.bind fun a => (f a).bind g
  induction p with
  | ret a => rfl
  | fail e => rfl
  | call op k ih => exact congrArg (Proc.call op) (funext ih)

/-- One operation, with its reply as the result. -/
def perform (op : Op) : Proc Op Reply E (Reply op) := .call op .ret

/-- One operation whose error ends the handler, as a call followed by `?` does. -/
def performOrFail (op : Op) (result : Reply op → Except E α) : Proc Op Reply E α :=
  .call op fun r =>
    match result r with
    | .ok a => .ret a
    | .error e => .fail e

/-- Runs `p` and hands its error back as a value, as `.ok()` or a `match` on the result does. -/
def attempt : Proc Op Reply E α → Proc Op Reply E (Except E α)
  | .ret a => .ret (.ok a)
  | .fail e => .ret (.error e)
  | .call op k => .call op fun r => (k r).attempt

/-- Runs a handler to completion, every operation taken by `exec`. -/
def run (exec : (op : Op) → W → Reply op × W) : Proc Op Reply E α → W → Except E α × W
  | .ret a, w => (.ok a,w)
  | .fail e, w => (.error e,w)
  | .call op k, w => run exec (k (exec op w).1) (exec op w).2

section Run

variable (exec : (op : Op) → W → Reply op × W)

@[simp] theorem run_ret (a : α) (w : W) :
    run exec (.ret a : Proc Op Reply E α) w = (.ok a,w) := rfl

@[simp] theorem run_pure (a : α) (w : W) :
    run exec (pure a : Proc Op Reply E α) w = (.ok a,w) := rfl

@[simp] theorem run_fail (e : E) (w : W) :
    run exec (.fail e : Proc Op Reply E α) w = (.error e,w) := rfl

@[simp] theorem run_perform (op : Op) (w : W) :
    run exec (perform op : Proc Op Reply E (Reply op)) w = (.ok (exec op w).1,(exec op w).2) := rfl

theorem run_performOrFail (op : Op) (result : Reply op → Except E α) (w : W) :
    run exec (performOrFail op result) w = (result (exec op w).1,(exec op w).2) := by
  simp only [performOrFail,run]
  cases result (exec op w).1 <;> rfl

/-- The second part of a sequence runs on the state the first part left, if it succeeded. -/
theorem run_bind (p : Proc Op Reply E α) (f : α → Proc Op Reply E β) (w : W) :
    run exec (p >>= f) w =
      match run exec p w with
      | (.ok a,w') => run exec (f a) w'
      | (.error e,w') => (.error e,w') := by
  change run exec (p.bind f) w = _
  induction p generalizing w with
  | ret a => rfl
  | fail e => rfl
  | call op k ih => exact ih (exec op w).1 (exec op w).2

/-- A loop whose passes all come to their end. -/
theorem run_forM {f : β → Proc Op Reply E PUnit} {turn : W → β → W}
    (h : ∀ b w, run exec (f b) w=(.ok ⟨⟩,turn w b)) (bs : List β) (w : W) :
    run exec (bs.forM f) w=(.ok ⟨⟩,bs.foldl turn w) := by
  induction bs generalizing w with
  | nil => rfl
  | cons b bs ih =>
    change run exec (f b >>= fun _ => bs.forM f) w=_
    rw [run_bind,h]
    exact ih (turn w b)

/-- What each operation keeps, every handler keeps. -/
theorem run_invariant {exec : (op : Op) → W → Reply op × W} (I : W → Prop)
    (hexec : ∀ op w, I w → I (exec op w).2) (p : Proc Op Reply E α) {w : W} (hw : I w) :
    I (run exec p w).2 := by
  induction p generalizing w with
  | ret a => exact hw
  | fail e => exact hw
  | call op k ih => exact ih _ (hexec op w hw)

theorem run_attempt (p : Proc Op Reply E α) (w : W) :
    run exec p.attempt w = (.ok (run exec p w).1,(run exec p w).2) := by
  induction p generalizing w with
  | ret a => rfl
  | fail e => rfl
  | call op k ih => exact ih (exec op w).1 (exec op w).2

end Run

/-- The operations of a run, in their order. -/
def performed (exec : (op : Op) → W → Reply op × W) : Proc Op Reply E α → W → List Op
  | .ret _, _ => []
  | .fail _, _ => []
  | .call op k, w => op::performed exec (k (exec op w).1) (exec op w).2

/-- Every operation `p` can still come to perform satisfies `s`, if the operations answer as
`allowed` says. -/
def Only (allowed : (op : Op) → Reply op → Prop) (s : Op → Prop) : Proc Op Reply E α → Prop
  | .ret _ => True
  | .fail _ => True
  | .call op k => s op ∧ ∀ r, allowed op r → Only allowed s (k r)

/-- Whatever its operations answer, `p` comes to perform an operation of `goal`, and only
operations of `before` until then. -/
def Until (before goal : Op → Prop) : Proc Op Reply E α → Prop
  | .ret _ => False
  | .fail _ => False
  | .call op k => goal op ∨ (before op ∧ ∀ r, Until before goal (k r))

/-- `p` ends without an error, whatever its operations answer. -/
def Total : Proc Op Reply E α → Prop
  | .ret _ => True
  | .fail _ => False
  | .call _ k => ∀ r, Total (k r)

section Totality

variable {p : Proc Op Reply E α}

theorem total_perform (op : Op) : Total (perform op : Proc Op Reply E (Reply op)) :=
  fun _ => trivial

theorem Total.bind {f : α → Proc Op Reply E β} (hp : Total p) (hf : ∀ a, Total (f a)) :
    Total (p >>= f) := by
  change Total (p.bind f)
  induction p with
  | ret a => exact hf a
  | fail e => exact absurd hp id
  | call op k ih => exact fun r => ih r (hp r)

theorem Total.run_eq (hp : Total p) (exec : (op : Op) → W → Reply op × W) (w : W) :
    ∃ a, run exec p w=(.ok a,(run exec p w).2) := by
  induction p generalizing w with
  | ret a => exact ⟨a,rfl⟩
  | fail e => exact absurd hp id
  | call op k ih => exact ih _ (hp _) _

/-- A first part that cannot fail leaves its state to the second. -/
theorem Total.run_bind {f : Unit → Proc Op Reply E β} {p : Proc Op Reply E Unit} (hp : Total p)
    (exec : (op : Op) → W → Reply op × W) (w : W) :
    run exec (p >>= f) w=run exec (f ()) (run exec p w).2 := by
  obtain ⟨a,ha⟩ := hp.run_eq exec w
  rw [Proc.run_bind,ha]

end Totality

section Calls

variable {allowed : (op : Op) → Reply op → Prop} {s t : Op → Prop}

@[simp] theorem only_ret (a : α) : Only allowed s (.ret a : Proc Op Reply E α) := trivial

@[simp] theorem only_pure (a : α) : Only allowed s (pure a : Proc Op Reply E α) := trivial

@[simp] theorem only_fail (e : E) : Only allowed s (.fail e : Proc Op Reply E α) := trivial

@[simp] theorem only_perform {op : Op} :
    Only allowed s (perform op : Proc Op Reply E (Reply op)) ↔ s op :=
  ⟨fun h => h.1,fun h => ⟨h,fun _ _ => trivial⟩⟩

@[simp] theorem only_performOrFail {op : Op} {result : Reply op → Except E α} :
    Only allowed s (performOrFail op result) ↔ s op := by
  refine ⟨fun h => h.1,fun h => ⟨h,fun r _ => ?_⟩⟩
  cases h : result r <;> simp [h]

theorem Only.mono (h : ∀ op, s op → t op) {p : Proc Op Reply E α} (hp : Only allowed s p) :
    Only allowed t p := by
  induction p with
  | ret a => trivial
  | fail e => trivial
  | call op k ih => exact ⟨h op hp.1,fun r hr => ih r (hp.2 r hr)⟩

theorem Only.bind {p : Proc Op Reply E α} {f : α → Proc Op Reply E β}
    (hp : Only allowed s p) (hf : ∀ a, Only allowed s (f a)) : Only allowed s (p >>= f) := by
  change Only allowed s (p.bind f)
  induction p with
  | ret a => exact hf a
  | fail e => trivial
  | call op k ih => exact ⟨hp.1,fun r hr => ih r (hp.2 r hr)⟩

theorem Only.attempt {p : Proc Op Reply E α} (hp : Only allowed s p) :
    Only allowed s p.attempt := by
  induction p with
  | ret a => trivial
  | fail e => trivial
  | call op k ih => exact ⟨hp.1,fun r hr => ih r (hp.2 r hr)⟩

/-- What each of its operations keeps, a handler keeps. -/
theorem Only.run_invariant {exec : (op : Op) → W → Reply op × W} (I : W → Prop)
    (hexec : ∀ op w, s op → I w → I (exec op w).2) {p : Proc Op Reply E α}
    (hp : Only (fun _ _ => True) s p) {w : W} (hw : I w) : I (run exec p w).2 := by
  induction p generalizing w with
  | ret a => exact hw
  | fail e => exact hw
  | call op k ih => exact ih _ (hp.2 _ trivial) (hexec op w hp.1 hw)

/-- What none of its operations touches, a handler leaves as it was. -/
theorem Only.run_frame {X : Type} {exec : (op : Op) → W → Reply op × W} (view : W → X)
    (hexec : ∀ op w, s op → view (exec op w).2=view w) {p : Proc Op Reply E α}
    (hp : Only (fun _ _ => True) s p) (w : W) : view (run exec p w).2=view w :=
  hp.run_invariant (fun w' => view w'=view w) (fun op w' hs hw => (hexec op w' hs).trans hw) rfl

/-- What a handler may perform is all that its runs perform. -/
theorem Only.performed {exec : (op : Op) → W → Reply op × W} {p : Proc Op Reply E α}
    (hp : Only (fun _ _ => True) s p) {w : W} {op : Op} (h : op ∈ p.performed exec w) : s op := by
  induction p generalizing w with
  | ret a => cases h
  | fail e => cases h
  | call op' k ih =>
    cases h with
    | head => exact hp.1
    | tail _ h => exact ih _ (hp.2 _ trivial) h

theorem Only.of_anyReply {p : Proc Op Reply E α} (hp : Only (fun _ _ => True) s p) :
    Only allowed s p := by
  induction p with
  | ret a => trivial
  | fail e => trivial
  | call op k ih => exact ⟨hp.1,fun r _ => ih r (hp.2 r trivial)⟩

end Calls

section Embedding

variable {Op' : Type u} {Reply' : Op' → Type}

/-- The handler with its operations seen as some of those of another kind. -/
def embed (f : Op → Op') (reply : ∀ op, Reply' (f op) → Reply op) :
    Proc Op Reply E α → Proc Op' Reply' E α
  | .ret a => .ret a
  | .fail e => .fail e
  | .call op k => .call (f op) fun r => (k (reply op r)).embed f reply

theorem Only.embed {allowed : (op : Op) → Reply op → Prop} {allowed' : (op : Op') → Reply' op → Prop}
    {f : Op → Op'} {reply : ∀ op, Reply' (f op) → Reply op} {s : Op → Prop} {t : Op' → Prop}
    (h : ∀ op, s op → t (f op)) (hreply : ∀ op r, allowed' (f op) r → allowed op (reply op r))
    {p : Proc Op Reply E α} (hp : Only allowed s p) : Only allowed' t (p.embed f reply) := by
  induction p with
  | ret a => trivial
  | fail e => trivial
  | call op k ih => exact ⟨h op hp.1,fun r hr => ih _ (hp.2 _ (hreply op r hr))⟩

end Embedding

section Order

variable {before goal : Op → Prop}

theorem Until.bind {p : Proc Op Reply E α} {f : α → Proc Op Reply E β}
    (h : Until before goal p) : Until before goal (p >>= f) := by
  change Until before goal (p.bind f)
  induction p with
  | ret a => exact absurd h id
  | fail e => exact absurd h id
  | call op k ih => exact h.imp id fun h => ⟨h.1,fun r => ih r (h.2 r)⟩

/-- A first part that cannot fail and keeps to `before` puts nothing in the way of the goal. -/
theorem Until.bind_right {p : Proc Op Reply E α} {f : α → Proc Op Reply E β} (ht : Total p)
    (hp : Only (fun _ _ => True) before p) (hf : ∀ a, Until before goal (f a)) :
    Until before goal (p >>= f) := by
  change Until before goal (p.bind f)
  induction p with
  | ret a => exact hf a
  | fail e => exact absurd ht id
  | call op k ih => exact .inr ⟨hp.1,fun r => ih r (ht r) (hp.2 r trivial)⟩

theorem Until.attempt {p : Proc Op Reply E α} (h : Until before goal p) :
    Until before goal p.attempt := by
  induction p with
  | ret a => exact absurd h id
  | fail e => exact absurd h id
  | call op k ih => exact h.imp id fun h => ⟨h.1,fun r => ih r (h.2 r)⟩

end Order

end Proc

end NacPlatform
