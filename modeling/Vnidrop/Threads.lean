import Vnidrop.Runs

/-! Interleaved threads over a shared state, each with an explicit program
counter, and the assertional rule for them. Finished threads keep their place, so
an index names one call for the whole run. -/
namespace Vnidrop.Threads

open Runs

/-- `entry` says which counters a new thread may start at, `step` is one atomic
step of the thread with that index under a choice, `env` moves the shared state alone. -/
structure Machine (σ τ ε γ : Type) where
  init : σ → Prop
  entry : σ → τ → Bool
  step : σ → Nat → τ → ε → Option (σ × τ)
  env : σ → γ → Option σ

structure Conf (σ τ : Type) where
  shared : σ
  threads : List τ
  deriving DecidableEq

inductive Label (τ ε γ : Type) where
  | fork (t : τ)
  | act (i : Nat) (choice : ε)
  | env (e : γ)
  deriving DecidableEq

variable {σ τ ε γ : Type}

def Machine.next (M : Machine σ τ ε γ) (c : Conf σ τ) : Label τ ε γ → Option (Conf σ τ)
  | .fork t => if M.entry c.shared t then some { c with threads := c.threads ++ [t] } else none
  | .act i choice =>
    match c.threads[i]? with
    | none => none
    | some t =>
      match M.step c.shared i t choice with
      | none => none
      | some (s,t') => some ⟨s,c.threads.set i t'⟩
  | .env e =>
    match M.env c.shared e with
    | none => none
    | some s => some { c with shared := s }

def Machine.system (M : Machine σ τ ε γ) : System (Conf σ τ) (Label τ ε γ) where
  init c := M.init c.shared ∧ c.threads = []
  step := M.next

/-- What one step of the machine can be. -/
theorem next_cases {M : Machine σ τ ε γ} {c d : Conf σ τ} {a : Label τ ε γ}
    (h : M.next c a = some d) :
    (∃ t, a = .fork t ∧ M.entry c.shared t = true ∧ d = ⟨c.shared,c.threads ++ [t]⟩) ∨
    (∃ i choice t s t', a = .act i choice ∧ c.threads[i]? = some t ∧
      M.step c.shared i t choice = some (s,t') ∧ d = ⟨s,c.threads.set i t'⟩) ∨
    (∃ e s, a = .env e ∧ M.env c.shared e = some s ∧ d = ⟨s,c.threads⟩) := by
  cases a with
  | fork t =>
    simp only [Machine.next] at h
    split at h
    · rename_i enabled
      exact .inl ⟨t,rfl,enabled,(Option.some.inj h).symm⟩
    · cases h
  | act i choice =>
    simp only [Machine.next] at h
    split at h
    · cases h
    · rename_i t here
      split at h
      · cases h
      · rename_i s t' stepped
        exact .inr (.inl ⟨i,choice,t,s,t',rfl,here,stepped,(Option.some.inj h).symm⟩)
  | env e =>
    simp only [Machine.next] at h
    split at h
    · cases h
    · rename_i s moved
      exact .inr (.inr ⟨e,s,rfl,moved,(Option.some.inj h).symm⟩)

theorem getElem?_set_some {l : List τ} {i j : Nat} {t u : τ} (h : (l.set i t)[j]? = some u) :
    (j = i ∧ u = t) ∨ (j ≠ i ∧ l[j]? = some u) := by
  by_cases same : i = j
  · subst same
    rw [List.getElem?_set] at h
    simp only [↓reduceIte] at h
    split at h
    · exact .inl ⟨rfl,(Option.some.inj h).symm⟩
    · cases h
  · rw [List.getElem?_set_ne same] at h
    exact .inr ⟨fun eq => same eq.symm,h⟩

theorem getElem?_push_some {l : List τ} {j : Nat} {t u : τ} (h : (l ++ [t])[j]? = some u) :
    (j = l.length ∧ u = t) ∨ l[j]? = some u := by
  rcases Nat.lt_trichotomy j l.length with lt | eq | gt
  · exact .inr (by rwa [List.getElem?_append_left lt] at h)
  · subst eq
    simp at h
    exact .inl ⟨rfl,h.symm⟩
  · have out : (l ++ [t])[j]? = none := by
      rw [List.getElem?_eq_none_iff]
      simp
      omega
    rw [out] at h
    cases h

/-- A shared invariant together with an assertion at each thread's counter. -/
structure Outline (I : σ → Prop) (A : σ → Nat → τ → Prop) (c : Conf σ τ) : Prop where
  shared : I c.shared
  local_ : ∀ i t, c.threads[i]? = some t → A c.shared i t

/-- The assertional rule: a thread's own step re-establishes the invariant and
its assertion, and no step disturbs the assertion of another thread. -/
theorem outline_step {M : Machine σ τ ε γ} {I : σ → Prop} {A : σ → Nat → τ → Prop}
    {c d : Conf σ τ} {a : Label τ ε γ}
    (fork : ∀ t, a = .fork t → M.entry c.shared t = true → A c.shared c.threads.length t)
    (own : ∀ i choice t s t', a = .act i choice → c.threads[i]? = some t →
      M.step c.shared i t choice = some (s,t') → I s ∧ A s i t')
    (other : ∀ i choice t s t' j u, a = .act i choice → c.threads[i]? = some t →
      M.step c.shared i t choice = some (s,t') → j ≠ i → c.threads[j]? = some u → A s j u)
    (env : ∀ e s, a = .env e → M.env c.shared e = some s →
      I s ∧ ∀ j u, c.threads[j]? = some u → A s j u)
    (now : Outline I A c) (h : M.next c a = some d) : Outline I A d := by
  rcases next_cases h with ⟨t,rfl,enabled,rfl⟩ | ⟨i,choice,t,s,t',rfl,here,stepped,rfl⟩ |
    ⟨e,s,rfl,moved,rfl⟩
  · refine ⟨now.shared,fun j u there => ?_⟩
    rcases getElem?_push_some there with ⟨rfl,rfl⟩ | old
    · exact fork _ rfl enabled
    · exact now.local_ j u old
  · have mine := own i choice t s t' rfl here stepped
    refine ⟨mine.1,fun j u there => ?_⟩
    rcases getElem?_set_some there with ⟨rfl,rfl⟩ | ⟨different,old⟩
    · exact mine.2
    · exact other i choice t s t' j u rfl here stepped different old
  · have both := env e s rfl moved
    exact ⟨both.1,both.2⟩

end Vnidrop.Threads
