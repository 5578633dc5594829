import Mathlib.Data.List.Forall2

/-! Successful runs of computations that may fail, taken apart. -/
namespace Vnidrop.Excepts

variable {ε ε' α β : Type} {a : α} {b : β}

theorem bind_ok {x : Except ε α} {f : α → Except ε β} : (x >>= f) = .ok b ↔ ∃ a, x = .ok a ∧ f a = .ok b := by
  cases x with
  | error e =>
    constructor
    · intro h
      cases h
    · rintro ⟨_,same,_⟩
      cases same
  | ok a =>
    constructor
    · intro h
      exact ⟨a,rfl,h⟩
    · rintro ⟨_,same,h⟩
      cases same
      exact h

theorem mapError_ok {x : Except ε α} {f : ε → ε'} : x.mapError f = .ok a ↔ x = .ok a := by
  cases x with
  | error e => constructor <;> (intro h; cases h)
  | ok a' => constructor <;> (intro h; cases h; rfl)

theorem mapM_ok {f : α → Except ε β} {l : List α} {bs : List β} :
    l.mapM f = .ok bs ↔ List.Forall₂ (fun a b => f a = .ok b) l bs := by
  induction l generalizing bs with
  | nil =>
    rw [List.forall₂_nil_left_iff]
    constructor <;> (intro h; cases h; rfl)
  | cons a l ih =>
    simp only [List.mapM_cons,bind_ok,List.forall₂_cons_left_iff,← ih]
    constructor
    · rintro ⟨b,first,bs',rest,same⟩
      cases same
      exact ⟨b,bs',first,rest,rfl⟩
    · rintro ⟨b,bs',first,rest,rfl⟩
      exact ⟨b,first,bs',rest,rfl⟩

theorem foldlM_cons_ok {f : β → α → Except ε β} {l : List α} {c : β} :
    (a :: l).foldlM f b = .ok c ↔ ∃ d, f b a = .ok d ∧ l.foldlM f d = .ok c := by
  rw [List.foldlM_cons,bind_ok]

end Vnidrop.Excepts
