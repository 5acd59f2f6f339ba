/- GID: IcsOs/Lib/Runs
   generality: G
   digest: Guarded runs of a step system, with the invariant rule for reachable states and paths. -/

import Mathlib.Logic.Relation

set_option autoImplicit false

namespace IcsOs.Lib.Runs

universe u v

/-- States, the ones a run may start in, and labelled steps. -/
structure System (S : Type u) (A : Type v) where
  start : S → Prop
  step : S → A → S → Prop

variable {S : Type u} {A : Type v}

/-- States reached by runs whose every step meets the guard. -/
inductive Reachable (sys : System S A) (guard : S → A → Prop) : S → Prop
  | start {s : S} (initial : sys.start s) : Reachable sys guard s
  | step {s t : S} {a : A} (before : Reachable sys guard s) (allowed : guard s a)
      (taken : sys.step s a t) : Reachable sys guard t

/-- Runs from one state to another whose every step meets the guard. -/
inductive Path (sys : System S A) (guard : S → A → Prop) : S → S → Prop
  | refl (s : S) : Path sys guard s s
  | step {s t u : S} {a : A} (before : Path sys guard s t) (allowed : guard t a)
      (taken : sys.step t a u) : Path sys guard s u

variable {sys : System S A} {guard guard' : S → A → Prop} {s t : S}

/-- What holds initially and survives guarded steps holds of every reachable state. -/
theorem Reachable.invariant {I : S → Prop} (initial : ∀ s, sys.start s → I s)
    (kept : ∀ s a t, I s → guard s a → sys.step s a t → I t) (run : Reachable sys guard s) :
    I s := by
  induction run with
  | start first => exact initial _ first
  | step _ allowed taken ih => exact kept _ _ _ ih allowed taken

/-- What survives every guarded step survives a whole path. -/
theorem Path.invariant {I : S → Prop} (kept : ∀ s a t, I s → guard s a → sys.step s a t → I t)
    (path : Path sys guard s t) (holds : I s) : I t := by
  induction path with
  | refl => exact holds
  | step _ allowed taken ih => exact kept _ _ _ ih allowed taken

theorem Path.trans {u : S} (first : Path sys guard s t) (second : Path sys guard t u) :
    Path sys guard s u := by
  induction second with
  | refl => exact first
  | step _ allowed taken ih => exact .step ih allowed taken

theorem Path.one {a : A} (allowed : guard s a) (taken : sys.step s a t) : Path sys guard s t :=
  .step (.refl s) allowed taken

theorem Reachable.mono (weaker : ∀ s a, guard s a → guard' s a) (run : Reachable sys guard s) :
    Reachable sys guard' s := by
  induction run with
  | start first => exact .start first
  | step _ allowed taken ih => exact .step ih (weaker _ _ allowed) taken

/-- A run goes on along a path under a stronger guard. -/
theorem Reachable.extend (weaker : ∀ s a, guard' s a → guard s a) (run : Reachable sys guard s)
    (path : Path sys guard' s t) : Reachable sys guard t := by
  induction path with
  | refl => exact run
  | step _ allowed taken ih => exact .step ih (weaker _ _ allowed) taken

/-- Every step a function takes for a list of actions meets the guard. -/
def Along (guard : S → A → Prop) (f : S → A → S) : S → List A → Prop
  | _, [] => True
  | s, a :: rest => guard s a ∧ Along guard f (f s a) rest

/-- The actions of a list are a run, if they may be taken one after the other. -/
theorem Reachable.follow {f : S → A → S} (does : ∀ s a, sys.step s a (f s a)) (acts : List A)
    (run : Reachable sys guard s) (allowed : Along guard f s acts) :
    Reachable sys guard (acts.foldl f s) := by
  induction acts generalizing s with
  | nil => exact run
  | cons a rest ih => exact ih (.step run allowed.1 (does s a)) allowed.2

/-- Actions that a function takes are a run, if it takes only allowed ones. -/
theorem Reachable.pursue {f : S → A → Option S}
    (does : ∀ s a t, f s a = some t → guard s a ∧ sys.step s a t) (acts : List A)
    (run : Reachable sys guard s) (ends : acts.foldlM f s = some t) : Reachable sys guard t := by
  induction acts generalizing s with
  | nil =>
    cases ends
    exact run
  | cons a rest ih =>
    obtain ⟨u, first, later⟩ := Option.bind_eq_some_iff.mp ends
    obtain ⟨allowed, taken⟩ := does s a u first
    exact ih (.step run allowed taken) later

/-- Actions that a function takes are a run, where nothing is asked. -/
theorem Reachable.attempt {f : S → A → Option S} (does : ∀ s a t, f s a = some t → sys.step s a t)
    (acts : List A) (run : Reachable sys (fun _ _ => True) s) (ends : acts.foldlM f s = some t) :
    Reachable sys (fun _ _ => True) t :=
  run.pursue (fun s a t taken => ⟨trivial, does s a t taken⟩) acts ends

theorem along_true (f : S → A → S) (s : S) (acts : List A) :
    Along (fun _ _ => True) f s acts := by
  induction acts generalizing s with
  | nil => trivial
  | cons a rest ih => exact ⟨trivial, ih (f s a)⟩

end IcsOs.Lib.Runs
