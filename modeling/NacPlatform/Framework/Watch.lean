import NacPlatform.Framework.Pool
import NacPlatform.Framework.Run

namespace NacPlatform

universe u

namespace Proc

variable {Op : Type u} {Reply : Op → Type} {E G α β : Type}

/-- Each operation of `p` is one that `may` allows after what is noted of those before it, and at
its end `post` holds of the notes and the result, if the operations answer as `allowed` says. -/
def Follows (allowed : (op : Op) → Reply op → Prop) (note : G → (op : Op) → Reply op → G)
    (may : G → Op → Prop) (post : G → Except E α → Prop) : G → Proc Op Reply E α → Prop
  | g,.ret a => post g (.ok a)
  | g,.fail e => post g (.error e)
  | g,.call op k =>
    may g op ∧ ∀ r, allowed op r → Follows allowed note may post (note g op r) (k r)

section Rules

variable {allowed : (op : Op) → Reply op → Prop} {note : G → (op : Op) → Reply op → G}
  {may : G → Op → Prop} {post : G → Except E β → Prop} {g : G}

/-- What a first part must leave for the second to follow. -/
def Onward (allowed : (op : Op) → Reply op → Prop) (note : G → (op : Op) → Reply op → G)
    (may : G → Op → Prop) (post : G → Except E β → Prop) (f : α → Proc Op Reply E β) (g : G) :
    Except E α → Prop
  | .ok a => Follows allowed note may post g (f a)
  | .error e => post g (.error e)

theorem Follows.bind {p : Proc Op Reply E α} {f : α → Proc Op Reply E β}
    (h : Follows allowed note may (Onward allowed note may post f) g p) :
    Follows allowed note may post g (p >>= f) := by
  change Follows allowed note may post g (p.bind f)
  induction p generalizing g with
  | ret a => exact h
  | fail e => exact h
  | call op k ih => exact ⟨h.1,fun r hr => ih r (h.2 r hr)⟩

theorem Follows.mono {post' : G → Except E β → Prop} (hpost : ∀ g r, post g r → post' g r)
    {p : Proc Op Reply E β} (h : Follows allowed note may post g p) :
    Follows allowed note may post' g p := by
  induction p generalizing g with
  | ret a => exact hpost _ _ h
  | fail e => exact hpost _ _ h
  | call op k ih => exact ⟨h.1,fun r hr => ih r (h.2 r hr)⟩

theorem follows_perform_bind {op : Op} {f : Reply op → Proc Op Reply E β} (hop : may g op)
    (hnext : ∀ r, allowed op r → Follows allowed note may post (note g op r) (f r)) :
    Follows allowed note may post g (perform op >>= f) := ⟨hop,hnext⟩

theorem follows_performOrFail_bind {op : Op} {result : Reply op → Except E α}
    {f : α → Proc Op Reply E β} (hop : may g op)
    (hnext : ∀ r, allowed op r → Onward allowed note may post f (note g op r) (result r)) :
    Follows allowed note may post g (performOrFail op result >>= f) := by
  refine ⟨hop,fun r hr => ?_⟩
  have h := hnext r hr
  cases hresult : result r with
  | ok a =>
    rw [hresult] at h
    simp only [hresult]
    exact h
  | error e =>
    rw [hresult] at h
    simp only [hresult]
    exact h

end Rules

end Proc

/-- A pool with, for each task, what is noted of the operations it has performed. -/
structure Watched (I W Op : Type) (Reply : Op → Type) (E G : Type)
    extends Pool I W Op Reply E where
  marks : I → G

namespace Watched

variable {I W Op E G : Type} {Reply : Op → Type} {exec : (op : Op) → W → Reply op × W}
  {allowed : (op : Op) → Reply op → Prop} {note : G → (op : Op) → Reply op → G}
  {may : I → G → Op → Prop} {post : I → G → Prop} {s : Watched I W Op Reply E G} {i : I}

/-- Each task goes on as its rules say. -/
def Keeps (allowed : (op : Op) → Reply op → Prop) (note : G → (op : Op) → Reply op → G)
    (may : I → G → Op → Prop) (post : I → G → Prop) (s : Watched I W Op Reply E G) : Prop :=
  ∀ i, (s.tasks i).Follows allowed note (may i) (fun g _ => post i g) (s.marks i)

/-- At the end of a task its postcondition holds of what is noted of it. -/
theorem Keeps.ended (h : s.Keeps allowed note may post) (hi : (s.tasks i).idle=true) :
    post i (s.marks i) := by
  have hfollows := h i
  cases htask : s.tasks i with
  | ret a =>
    rw [htask] at hfollows
    exact hfollows
  | fail e =>
    rw [htask] at hfollows
    exact hfollows
  | call op k => simp [htask] at hi

variable [DecidableEq I]

def advance (exec : (op : Op) → W → Reply op × W) (note : G → (op : Op) → Reply op → G)
    (s : Watched I W Op Reply E G) (i : I) : Watched I W Op Reply E G :=
  match s.tasks i with
  | .call op _ =>
    ⟨s.toPool.advance exec i,
      Function.update s.marks i (note (s.marks i) op (exec op s.shared).1)⟩
  | _ => s

theorem advance_of_call {op : Op} {k : Reply op → Proc Op Reply E Unit}
    (h : s.tasks i=.call op k) : s.advance exec note i=
      ⟨⟨(exec op s.shared).2,Function.update s.tasks i (k (exec op s.shared).1)⟩,
        Function.update s.marks i (note (s.marks i) op (exec op s.shared).1)⟩ := by
  simp only [advance,h,Pool.advance_of_call h]

theorem advance_of_idle (h : (s.tasks i).idle=true) : s.advance exec note i=s := by
  unfold advance
  split
  · rename_i heq
    simp [heq] at h
  · rfl

theorem Keeps.advance (h : s.Keeps allowed note may post)
    (hexec : ∀ op, allowed op (exec op s.shared).1) (i : I) :
    (s.advance exec note i).Keeps allowed note may post := by
  cases hi : (s.tasks i).idle with
  | true => rwa [advance_of_idle hi]
  | false =>
    obtain ⟨op,k,hcall⟩ := Proc.eq_call_of_not_idle hi
    have hfollows := h i
    rw [hcall] at hfollows
    intro j
    rw [advance_of_call hcall]
    by_cases hj : j=i
    · subst hj
      simpa using hfollows.2 _ (hexec op)
    · simpa [hj] using h j

/-- What each operation that the rules and `ok` allow preserves, every such run preserves. -/
theorem Keeps.invariant {ok : Watched I W Op Reply E G → I → Prop} (J : W → Prop)
    (hallowed : ∀ op w, J w → allowed op (exec op w).1) (hJ : ∀ op w, J w → J (exec op w).2)
    (K : W → (I → G) → Prop)
    (hkeep : ∀ s i op k, s.tasks i=.call op k → may i (s.marks i) op → ok s i → J s.shared →
      K s.shared s.marks →
      K (exec op s.shared).2 (Function.update s.marks i (note (s.marks i) op (exec op s.shared).1)))
    {is : List I} (hok : Guarded (Watched.advance exec note) ok s is)
    (hs : s.Keeps allowed note may post) (hj : J s.shared) (hk : K s.shared s.marks) :
    (runs (Watched.advance exec note) s is).Keeps allowed note may post ∧
      J (runs (Watched.advance exec note) s is).shared ∧
      K (runs (Watched.advance exec note) s is).shared
        (runs (Watched.advance exec note) s is).marks := by
  refine hok.invariant (fun s => s.Keeps allowed note may post ∧ J s.shared ∧ K s.shared s.marks)
    ?_ ⟨hs,hj,hk⟩
  intro s i ⟨hs,hj,hk⟩ hok
  refine ⟨hs.advance (fun op => hallowed op _ hj) i,?_⟩
  cases hi : (s.tasks i).idle with
  | true => rw [advance_of_idle hi]; exact ⟨hj,hk⟩
  | false =>
    obtain ⟨op,k,hcall⟩ := Proc.eq_call_of_not_idle hi
    have hfollows := hs i
    rw [hcall] at hfollows
    rw [advance_of_call hcall]
    exact ⟨hJ op _ hj,hkeep s i op k hcall hfollows.1 hok hj hk⟩

end Watched

end NacPlatform
