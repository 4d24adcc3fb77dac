import Mathlib.Logic.Function.Basic
import NacPlatform.Framework.Run

namespace NacPlatform

section Traces

variable {S T A B : Type} (step : S → A → S) (step' : T → B → T) (moves : S → A → List B)

/-- What a run amounts to in another machine, each of whose steps stands for a part of one. -/
def trace : S → List A → List B
  | _,[] => []
  | s,a::as => moves s a++trace (step s a) as

theorem trace_append (s : S) (as bs : List A) :
    trace step moves s (as++bs)=
      trace step moves s as++trace step moves (runs step s as) bs := by
  induction as generalizing s with
  | nil => rfl
  | cons a as ih => simp [trace,ih]

variable {step step' moves}

/-- A machine that simulates each step with the moves of that step simulates the run with its
trace. -/
theorem runs_trace (R : S → T → Prop) {s : S} {t : T} (as : List A)
    (hstep : ∀ s t, ∀ a ∈ as, R s t → R (step s a) (runs step' t (moves s a))) (h : R s t) :
    R (runs step s as) (runs step' t (trace step moves s as)) := by
  induction as generalizing s t with
  | nil => exact h
  | cons a as ih =>
    have hnext := hstep s t a List.mem_cons_self h
    rw [trace,runs_append]
    exact ih (fun s t b hb => hstep s t b (List.mem_cons_of_mem a hb)) hnext

theorem Guarded.trace {ok : S → A → Prop} {ok' : T → B → Prop} (moves : S → A → List B)
    (R : S → T → Prop) {s : S} {t : T} {as : List A} (hg : Guarded step ok s as)
    (hstep : ∀ s t, ∀ a ∈ as, R s t → R (step s a) (runs step' t (moves s a)))
    (hok : ∀ s t, ∀ a ∈ as, R s t → ok s a → Guarded step' ok' t (moves s a)) (h : R s t) :
    Guarded step' ok' t (NacPlatform.trace step moves s as) := by
  induction as generalizing s t with
  | nil => trivial
  | cons a as ih =>
    obtain ⟨ha,has⟩ := hg
    have hnext := hstep s t a List.mem_cons_self h
    refine (guarded_append ..).mpr ⟨hok s t a List.mem_cons_self h ha,?_⟩
    exact ih has (fun s t b hb => hstep s t b (List.mem_cons_of_mem a hb))
      (fun s t b hb => hok s t b (List.mem_cons_of_mem a hb)) hnext

end Traces

/-! A value that is changed through copies of it: who holds a copy changes that one, and writes it
back whole over what has been written since. -/

/-- The value and, for each place, the copy that it was last given. -/
structure Copies (P V : Type) where
  stored : V
  copy : P → V

namespace Copies

inductive Event (P C : Type) where
  | load (place : P)
  | change (place : P) (c : C)

variable {P V C : Type} [DecidableEq P] (apply : V → C → V)

def step (s : Copies P V) : Event P C → Copies P V
  | .load p => { s with copy := Function.update s.copy p s.stored }
  | .change p c => { s with stored := apply (s.copy p) c }

def Event.change? : Event P C → Option C
  | .load _ => none
  | .change _ c => some c

/-- The changes of a run, in order. -/
def changes (es : List (Event P C)) : List C := es.filterMap Event.change?

/-- A change is made to a copy that is the value as it stands, and one that `ok` allows there. -/
def Current (ok : V → C → Prop) (s : Copies P V) : Event P C → Prop
  | .load _ => True
  | .change p c => s.copy p=s.stored ∧ ok s.stored c

/-- Where every change is made to a current copy, the value takes all of them in order. -/
theorem stored_of_current {ok : V → C → Prop} {s : Copies P V} {es : List (Event P C)}
    (h : Guarded (step apply) (Current ok) s es) :
    Guarded apply ok s.stored (changes es) ∧
      (runs (step apply) s es).stored=runs apply s.stored (changes es) := by
  induction es generalizing s with
  | nil => exact ⟨trivial,rfl⟩
  | cons e es ih =>
    obtain ⟨he,hes⟩ := h
    cases e with
    | load p => exact ih hes
    | change p c =>
      obtain ⟨hcopy,hok⟩ := he
      have hnext : (step apply s (.change p c)).stored=apply s.stored c :=
        congrArg (apply · c) hcopy
      obtain ⟨hguard,hstored⟩ := ih hes
      rw [hnext] at hguard hstored
      exact ⟨⟨hok,hguard⟩,hstored⟩

/-- Of the changes to one copy only the last is left. -/
theorem stored_of_changes (s : Copies P V) (p : P) (cs : List C) :
    (runs (step apply) s (cs.map (.change p))).stored=
      runs apply (if cs=[] then s.stored else s.copy p) cs.getLast?.toList := by
  induction cs generalizing s with
  | nil => rfl
  | cons c cs ih =>
    rw [List.map_cons,runs_cons,ih]
    cases cs with
    | nil => rfl
    | cons d ds => rfl

/-- A visit gives a place its copy and makes changes to that: the last one is left, on what stood
there before the visit. -/
theorem stored_of_visit (s : Copies P V) (p : P) (cs : List C) :
    (runs (step apply) s (.load p::cs.map (.change p))).stored=
      runs apply s.stored cs.getLast?.toList := by
  have hcopy : (step apply s (.load p)).copy p=s.stored := Function.update_self ..
  rw [runs_cons,stored_of_changes,hcopy]
  exact congrArg (runs apply · _) (ite_self _)

end Copies

end NacPlatform
