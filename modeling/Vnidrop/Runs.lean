import Mathlib.Data.List.Basic

/-! Labelled transition systems and what holds along their runs. Nothing here
refers to a particular program: a development instantiates `System` and uses the
rules below in place of its own inductions over runs. -/
namespace Vnidrop.Runs

/-- Where runs start, and what a labelled step does when it is enabled. -/
structure System (σ ℓ : Type) where
  init : σ → Prop
  step : σ → ℓ → Option σ

variable {σ ℓ : Type} {M : System σ ℓ} {ok : σ → ℓ → Prop}

/-- Executes a list of labels; `none` as soon as one of them is not enabled. -/
def System.run (M : System σ ℓ) (s : σ) : List ℓ → Option σ
  | [] => some s
  | a :: as => (M.step s a).bind (M.run · as)

/-- Every step of the execution meets the side condition in the state before it. -/
def System.Meets (M : System σ ℓ) (ok : σ → ℓ → Prop) (s : σ) : List ℓ → Prop
  | [] => True
  | a :: as => ok s a ∧ ∀ t, M.step s a = some t → M.Meets ok t as

/-- The states of runs all of whose steps meet `ok`. -/
inductive Reach (M : System σ ℓ) (ok : σ → ℓ → Prop) : σ → Prop
  | start (s : σ) (h : M.init s) : Reach M ok s
  | advance {s t : σ} (a : ℓ) (past : Reach M ok s) (meets : ok s a) (h : M.step s a = some t) :
      Reach M ok t

/-- No side condition on the steps. -/
def Always : σ → ℓ → Prop := fun _ _ => True

theorem Reach.mono {ok' : σ → ℓ → Prop} (weaker : ∀ s a, ok s a → ok' s a) {s : σ}
    (reach : Reach M ok s) : Reach M ok' s := by
  induction reach with
  | start s h => exact .start s h
  | advance a _ meets h ih => exact .advance a ih (weaker _ _ meets) h

/-- An inductive property holds in every reached state. -/
theorem Reach.invariant (I : σ → Prop) (initial : ∀ s, M.init s → I s)
    (advance : ∀ s a t, I s → ok s a → M.step s a = some t → I t) {s : σ}
    (reach : Reach M ok s) : I s := by
  induction reach with
  | start s h => exact initial s h
  | advance a _ meets h ih => exact advance _ a _ ih meets h

theorem Reach.run {s t : σ} {as : List ℓ} (past : Reach M ok s) (meets : M.Meets ok s as)
    (h : M.run s as = some t) : Reach M ok t := by
  induction as generalizing s with
  | nil => simp only [System.run,Option.some.injEq] at h; exact h ▸ past
  | cons a as ih =>
    simp only [System.run,Option.bind_eq_some_iff] at h
    obtain ⟨u,stepped,rest⟩ := h
    exact ih (.advance a past meets.1 stepped) (meets.2 u stepped) rest

instance System.decidableMeets [∀ s a, Decidable (ok s a)] (M : System σ ℓ) :
    ∀ s as, Decidable (M.Meets ok s as)
  | _, [] => .isTrue trivial
  | s, a :: as =>
    match h : M.step s a with
    | none => decidable_of_iff (ok s a) ⟨fun here => ⟨here,fun t stepped => by simp [h] at stepped⟩,And.left⟩
    | some t =>
      have := M.decidableMeets t as
      decidable_of_iff (ok s a ∧ M.Meets ok t as)
        ⟨fun both => ⟨both.1,fun u stepped => by rw [h] at stepped; cases stepped; exact both.2⟩,
         fun both => ⟨both.1,both.2 t h⟩⟩

theorem meets_always (s : σ) (as : List ℓ) : M.Meets Always s as := by
  induction as generalizing s with
  | nil => trivial
  | cons a as ih => exact ⟨trivial,fun t _ => ih t⟩

theorem Reach.of_run {s t : σ} {as : List ℓ} (start : M.init s) (h : M.run s as = some t) :
    Reach M Always t :=
  (Reach.start s start).run (meets_always s as) h

/-- A relation that each step establishes and that composes holds across a run. -/
theorem run_related {R : σ → σ → Prop} (reflexive : ∀ s, R s s)
    (transitive : ∀ s t u, R s t → R t u → R s u)
    (advance : ∀ s a t, M.step s a = some t → R s t) {s t : σ} {as : List ℓ}
    (h : M.run s as = some t) : R s t := by
  induction as generalizing s with
  | nil => simp only [System.run,Option.some.injEq] at h; exact h ▸ reflexive s
  | cons a as ih =>
    simp only [System.run,Option.bind_eq_some_iff] at h
    obtain ⟨u,stepped,rest⟩ := h
    exact transitive _ _ _ (advance s a u stepped) (ih rest)

end Vnidrop.Runs
