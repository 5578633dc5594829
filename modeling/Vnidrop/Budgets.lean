import Vnidrop.Runs
import Mathlib.Data.Finset.Card
import Mathlib.Data.Finset.Option

/-! What the steps of a run cost together, and turns: how often others are served before one that
waits. Those ahead of it are served one at a time, and whoever has been served is ahead no more. -/
namespace Vnidrop.Budgets

open Runs

variable {σ ℓ ι : Type} {M : System σ ℓ} {ok : σ → ℓ → Prop}

/-- The cost of the steps that are taken. -/
def spent (M : System σ ℓ) (cost : σ → ℓ → Nat) (s : σ) : List ℓ → Nat
  | [] => 0
  | a :: as => cost s a + ((M.step s a).map (spent M cost · as)).getD 0

/-- Steps that pay for themselves out of a potential cost no more together. -/
theorem run_budget {cost : σ → ℓ → Nat} {potential : σ → Nat}
    (pays : ∀ s a t, ok s a → M.step s a = some t → cost s a + potential t ≤ potential s) {s t : σ} {as : List ℓ}
    (meets : M.Meets ok s as) (h : M.run s as = some t) : spent M cost s as + potential t ≤ potential s := by
  induction as generalizing s with
  | nil =>
    simp only [System.run,Option.some.injEq] at h
    simp [spent,h]
  | cons a as ih =>
    simp only [System.run,Option.bind_eq_some_iff] at h
    obtain ⟨u,stepped,rest⟩ := h
    have later := ih (meets.2 u stepped) rest
    have first := pays s a u meets.1 stepped
    simp only [spent,stepped,Option.map_some,Option.getD_some]
    omega

/-- One step for one that waits: those ahead of it before and after, who is being served before
and after, and whether the step ends the serving of one. -/
inductive Turn : Finset ι → Option ι → Bool → Finset ι → Option ι → Prop
  | idle {ahead ahead' : Finset ι} {taken taken' : Option ι} (fewer : ahead' ⊆ ahead)
      (stays : taken' = taken ∨ taken' = none) : Turn ahead taken false ahead' taken'
  | take {ahead ahead' : Finset ι} {x : ι} (first : x ∈ ahead) (fewer : ahead' ⊆ ahead) :
      Turn ahead none false ahead' (some x)
  | settle {ahead ahead' : Finset ι} {x : ι} (fewer : ahead' ⊆ ahead) (behind : x ∉ ahead') :
      Turn ahead (some x) true ahead' none

variable [DecidableEq ι]

/-- Those that may still be served before. -/
def turns (ahead : Finset ι) (taken : Option ι) : Finset ι := ahead ∪ taken.toFinset

theorem Turn.pays {ahead ahead' : Finset ι} {taken taken' : Option ι} {settles : Bool}
    (turn : Turn ahead taken settles ahead' taken') :
    settles.toNat + (turns ahead' taken').card ≤ (turns ahead taken).card := by
  cases turn with
  | idle fewer stays =>
    rw [Bool.toNat_false,Nat.zero_add]
    apply Finset.card_le_card
    rcases stays with rfl | rfl
    · exact Finset.union_subset_union_left fewer
    · exact Finset.union_subset_union fewer (by simp)
  | take first fewer =>
    rw [Bool.toNat_false,Nat.zero_add]
    apply Finset.card_le_card
    refine Finset.union_subset (fewer.trans Finset.subset_union_left) ?_
    simpa using show _ ∈ turns ahead none from Finset.mem_union_left _ first
  | @settle _ x fewer behind =>
    have added : insert x ahead' ⊆ turns ahead (some x) := by
      refine Finset.insert_subset ?_ (fewer.trans Finset.subset_union_left)
      simp [turns]
    have more := Finset.card_le_card added
    rw [Finset.card_insert_of_notMem behind] at more
    simp only [turns,Option.toFinset_none,Finset.union_empty,Bool.toNat_true] at more ⊢
    omega

/-- No more turns are taken before the one that waits than there are ahead of it. -/
theorem turns_bounded {ahead : σ → Finset ι} {taken : σ → Option ι} (settles : σ → ℓ → Bool)
    (turn : ∀ s a t, ok s a → M.step s a = some t → Turn (ahead s) (taken s) (settles s a) (ahead t) (taken t))
    {s t : σ} {as : List ℓ} (meets : M.Meets ok s as) (h : M.run s as = some t) :
    spent M (fun s a => (settles s a).toNat) s as + (turns (ahead t) (taken t)).card ≤
      (turns (ahead s) (taken s)).card :=
  run_budget (fun s a t permitted stepped => (turn s a t permitted stepped).pays) meets h

end Vnidrop.Budgets
