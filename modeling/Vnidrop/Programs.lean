import Vnidrop.Runs

/-! Sequential programs that share a state and are interleaved operation by
operation, and a rely-guarantee rule for them. A program is a tree over its atomic
operations: it stops at each of them and continues with the answer. -/
namespace Vnidrop.Programs

open Runs

/-- A finished program, or an operation and what follows each of its answers. -/
inductive Prog (Op : Type) (Ans : Op → Type) (α : Type) where
  | ret (a : α)
  | step (op : Op) (k : Ans op → Prog Op Ans α)

namespace Prog

variable {Op : Type} {Ans : Op → Type} {α β : Type}

def bind : Prog Op Ans α → (α → Prog Op Ans β) → Prog Op Ans β
  | .ret a, f => f a
  | .step op k, f => .step op fun r => (k r).bind f

instance : Monad (Prog Op Ans) where
  pure := .ret
  bind := bind

def perform (op : Op) : Prog Op Ans (Ans op) := .step op .ret

def finished : Prog Op Ans α → Bool
  | .ret _ => true
  | .step .. => false

/-- Every operation the program can come to satisfies `p`. -/
def All (p : Op → Prop) : Prog Op Ans α → Prop
  | .ret _ => True
  | .step op k => p op ∧ ∀ r, (k r).All p

/-- The same program over a larger set of operations, which answers these as before. -/
def embed {Op' : Type} {Ans' : Op' → Type} (e : Op → Op') (back : ∀ op, Ans' (e op) → Ans op) :
    Prog Op Ans α → Prog Op' Ans' α
  | .ret a => .ret a
  | .step op k => .step (e op) fun r => (k (back op r)).embed e back

/-- `m?`: goes on with the value of a success, and returns an error. -/
def andThen {E : Type} (m : Prog Op Ans (Except E α)) (f : α → Prog Op Ans (Except E β)) :
    Prog Op Ans (Except E β) :=
  m >>= fun r => match r with
    | .ok a => f a
    | .error e => pure (.error e)

theorem all_pure (p : Op → Prop) (a : α) : (pure a : Prog Op Ans α).All p := trivial

theorem all_perform {p : Op → Prop} {op : Op} (h : p op) :
    (perform op : Prog Op Ans (Ans op)).All p := ⟨h,fun _ => trivial⟩

theorem all_bind {p : Op → Prop} {m : Prog Op Ans α} {f : α → Prog Op Ans β} (first : m.All p)
    (rest : ∀ a, (f a).All p) : (m >>= f).All p := by
  induction m with
  | ret a => exact rest a
  | step op k ih => exact ⟨first.1,fun r => ih r (first.2 r)⟩

theorem all_mono {p q : Op → Prop} {m : Prog Op Ans α} (weaker : ∀ op, p op → q op)
    (all : m.All p) : m.All q := by
  induction m with
  | ret a => trivial
  | step op k ih => exact ⟨weaker op all.1,fun r => ih r (all.2 r)⟩

theorem all_embed {Op' : Type} {Ans' : Op' → Type} {e : Op → Op'} {back : ∀ op, Ans' (e op) → Ans op}
    {p : Op' → Prop} {m : Prog Op Ans α} (all : m.All fun op => p (e op)) : (m.embed e back).All p := by
  induction m with
  | ret a => trivial
  | step op k ih => exact ⟨all.1,fun r => ih (back op r) (all.2 (back op r))⟩

theorem embed_bind {Op' : Type} {Ans' : Op' → Type} {e : Op → Op'} {back : ∀ op, Ans' (e op) → Ans op}
    (m : Prog Op Ans α) (f : α → Prog Op Ans β) :
    (m >>= f).embed e back = m.embed e back >>= fun a => (f a).embed e back := by
  induction m with
  | ret a => rfl
  | step op k ih => exact congrArg (step (e op)) (funext fun r => ih (back op r))

theorem all_andThen {E : Type} {p : Op → Prop} {m : Prog Op Ans (Except E α)}
    {f : α → Prog Op Ans (Except E β)} (first : m.All p) (rest : ∀ a, (f a).All p) :
    (m.andThen f).All p := by
  refine all_bind first fun r => ?_
  cases r with
  | ok a => exact rest a
  | error e => trivial

end Prog

/-- `body` is the program of a call; `exec` performs one operation of the thread with
that index, when it is enabled; `env` moves the shared state without a thread. -/
structure Machine (σ Call Op : Type) (Ans : Op → Type) (ε γ : Type) where
  init : σ → Prop
  admits : σ → Call → Bool
  body : Call → Prog Op Ans Unit
  exec : σ → Nat → Call → (op : Op) → ε → Option (Ans op × σ)
  env : σ → γ → Option σ

/-- A call and what is left of its program. -/
structure Thread (Call Op : Type) (Ans : Op → Type) where
  call : Call
  rest : Prog Op Ans Unit

structure Conf (σ Call Op : Type) (Ans : Op → Type) where
  shared : σ
  threads : List (Thread Call Op Ans)

inductive Label (Call ε γ : Type) where
  | fork (call : Call)
  | act (i : Nat) (choice : ε)
  | env (e : γ)
  deriving DecidableEq

variable {σ Call Op ε γ : Type} {Ans : Op → Type}

def Machine.next (M : Machine σ Call Op Ans ε γ) (c : Conf σ Call Op Ans) :
    Label Call ε γ → Option (Conf σ Call Op Ans)
  | .fork call =>
    if M.admits c.shared call then some { c with threads := c.threads ++ [⟨call,M.body call⟩] }
    else none
  | .act i choice =>
    match c.threads[i]? with
    | some ⟨call,.step op k⟩ =>
      match M.exec c.shared i call op choice with
      | some (r,s) => some ⟨s,c.threads.set i ⟨call,k r⟩⟩
      | none => none
    | _ => none
  | .env e =>
    match M.env c.shared e with
    | some s => some { c with shared := s }
    | none => none

def Machine.system (M : Machine σ Call Op Ans ε γ) : System (Conf σ Call Op Ans) (Label Call ε γ) where
  init c := M.init c.shared ∧ c.threads = []
  step := M.next

/-- A side condition on the calls that start, on the operations threads are about to
perform, and on the moves of the surroundings. -/
structure Guard (σ Call Op ε γ : Type) where
  starts : σ → Call → Prop
  steps : σ → Call → Op → ε → Prop
  events : σ → γ → Prop

def Guard.holds (g : Guard σ Call Op ε γ) (c : Conf σ Call Op Ans) : Label Call ε γ → Prop
  | .fork call => g.starts c.shared call
  | .act i choice => ∀ t ∈ c.threads[i]?, match t.rest with
    | .step op _ => g.steps c.shared t.call op choice
    | .ret _ => True
  | .env e => g.events c.shared e

instance (g : Guard σ Call Op ε γ) [∀ s call, Decidable (g.starts s call)]
    [∀ s call op c, Decidable (g.steps s call op c)] [∀ s e, Decidable (g.events s e)]
    (c : Conf σ Call Op Ans) : DecidablePred (g.holds c) := fun a => by
  cases a with
  | fork | env => dsimp only [Guard.holds]; infer_instance
  | act i choice =>
    have (t : Thread Call Op Ans) : Decidable (match t.rest with
        | .step op _ => g.steps c.shared t.call op choice
        | .ret _ => True) := by
      cases t.rest <;> (dsimp only; infer_instance)
    dsimp only [Guard.holds]
    infer_instance

/-- Every step is allowed. -/
def free : Guard σ Call Op ε γ := ⟨fun _ _ => True,fun _ _ _ _ => True,fun _ _ => True⟩

/-- What one step of the machine can be. -/
theorem next_cases {M : Machine σ Call Op Ans ε γ} {c d : Conf σ Call Op Ans} {a : Label Call ε γ}
    (h : M.next c a = some d) :
    (∃ call, a = .fork call ∧ M.admits c.shared call = true ∧
      d = ⟨c.shared,c.threads ++ [⟨call,M.body call⟩]⟩) ∨
    (∃ i choice call op k r s, a = .act i choice ∧ c.threads[i]? = some ⟨call,.step op k⟩ ∧
      M.exec c.shared i call op choice = some (r,s) ∧ d = ⟨s,c.threads.set i ⟨call,k r⟩⟩) ∨
    (∃ e s, a = .env e ∧ M.env c.shared e = some s ∧ d = ⟨s,c.threads⟩) := by
  cases a with
  | fork call =>
    simp only [Machine.next] at h
    split at h
    · rename_i admitted
      exact .inl ⟨call,rfl,admitted,(Option.some.inj h).symm⟩
    · cases h
  | act i choice =>
    simp only [Machine.next] at h
    split at h
    · rename_i call op k here
      split at h
      · rename_i r s performed
        exact .inr (.inl ⟨i,choice,call,op,k,r,s,rfl,here,performed,(Option.some.inj h).symm⟩)
      · cases h
    · cases h
  | env e =>
    simp only [Machine.next] at h
    split at h
    · rename_i s moved
      exact .inr (.inr ⟨e,s,rfl,moved,(Option.some.inj h).symm⟩)
    · cases h

/-- The terms of a proof: what is already known of every reached state, the invariant to
be kept, and what a thread may rely on the others to do between two of its operations. -/
structure Terms (σ : Type) where
  known : σ → Prop
  inv : σ → Prop
  rely : Nat → σ → σ → Prop
  refl : ∀ i s, rely i s s
  trans : ∀ i {s t u}, rely i s t → rely i t u → rely i s u

section Rules

variable {α β : Type} {M : Machine σ Call Op Ans ε γ} {g : Guard σ Call Op ε γ} {T : Terms σ}
  {i : Nat} {call : Call}

/-- Run by thread `i` from `s` on, the program keeps the invariant at each of its
operations, does to the others only what they rely on, and ends in `post`. -/
def Safe (M : Machine σ Call Op Ans ε γ) (g : Guard σ Call Op ε γ) (T : Terms σ) (i : Nat)
    (call : Call) : Prog Op Ans α → (α → σ → Prop) → σ → Prop
  | .ret a, post, s => post a s
  | .step op k, post, s => ∀ t, T.known t → T.inv t → T.rely i s t → ∀ choice r u,
      g.steps t call op choice → M.exec t i call op choice = some (r,u) →
      (T.inv u ∧ ∀ j, j ≠ i → T.rely j t u) ∧ Safe M g T i call (k r) post u

theorem safe_pure {a : α} {post : α → σ → Prop} {s : σ} (h : post a s) :
    Safe M g T i call (pure a) post s := h

/-- The rule of a single operation: it is entered with what is relied on since `s`. -/
theorem safe_perform {op : Op} {f : Ans op → Prog Op Ans β} {post : β → σ → Prop} {s : σ}
    (h : ∀ t, T.known t → T.inv t → T.rely i s t → ∀ choice r u, g.steps t call op choice →
      M.exec t i call op choice = some (r,u) →
      (T.inv u ∧ ∀ j, j ≠ i → T.rely j t u) ∧ Safe M g T i call (f r) post u) :
    Safe M g T i call (Prog.perform op >>= f) post s := h

/-- An operation that changes nothing, taken with what its answer tells. -/
theorem safe_read {op : Op} {f : Ans op → Prog Op Ans β} {post : β → σ → Prop} {s : σ}
    (reads : ∀ t choice r u, M.exec t i call op choice = some (r,u) → u = t)
    (h : ∀ t, T.inv t → T.rely i s t → ∀ choice r, g.steps t call op choice →
      M.exec t i call op choice = some (r,t) → Safe M g T i call (f r) post t) :
    Safe M g T i call (Prog.perform op >>= f) post s := by
  intro t _ inv rely choice r u ok performed
  have same := reads t choice r u performed
  subst same
  exact ⟨⟨inv,fun j _ => T.refl j u⟩,h u inv rely choice r ok performed⟩

theorem safe_bind {p : Prog Op Ans α} {f : α → Prog Op Ans β} {post : β → σ → Prop} {s : σ}
    (h : Safe M g T i call p (fun a => Safe M g T i call (f a) post) s) :
    Safe M g T i call (p >>= f) post s := by
  induction p generalizing s with
  | ret a => exact h
  | step op k ih =>
    intro t known inv rely choice r u ok performed
    have here := h t known inv rely choice r u ok performed
    exact ⟨here.1,ih r here.2⟩

theorem safe_andThen {E : Type} {p : Prog Op Ans (Except E α)} {f : α → Prog Op Ans (Except E β)}
    {post : Except E β → σ → Prop} {s : σ}
    (h : Safe M g T i call p (fun r t => (∀ a, r = .ok a → Safe M g T i call (f a) post t) ∧
      ∀ e, r = .error e → post (.error e) t) s) : Safe M g T i call (p.andThen f) post s := by
  refine safe_bind ?_
  induction p generalizing s with
  | ret r =>
    cases r with
    | ok a => exact h.1 a rfl
    | error e => exact h.2 e rfl
  | step op k ih =>
    intro t known inv rely choice r u ok performed
    have here := h t known inv rely choice r u ok performed
    exact ⟨here.1,ih r here.2⟩

theorem safe_mono {p : Prog Op Ans α} {post post' : α → σ → Prop} {s : σ}
    (weaker : ∀ a u, post a u → post' a u) (h : Safe M g T i call p post s) :
    Safe M g T i call p post' s := by
  induction p generalizing s with
  | ret a => exact weaker a s h
  | step op k ih =>
    intro t known inv rely choice r u ok performed
    have here := h t known inv rely choice r u ok performed
    exact ⟨here.1,ih r here.2⟩

/-- A program that is safe stays safe while the others do what it relies on. -/
theorem safe_later {p : Prog Op Ans α} {post : α → σ → Prop} {s t : σ}
    (stable : ∀ a, post a s → post a t) (rely : T.rely i s t)
    (h : Safe M g T i call p post s) : Safe M g T i call p post t := by
  cases p with
  | ret a => exact stable a h
  | step op k =>
    intro u known inv relied
    exact h u known inv (T.trans i rely relied)

/-- An operation that keeps the invariant and disturbs no thread, its own included. -/
def Quiet (M : Machine σ Call Op Ans ε γ) (g : Guard σ Call Op ε γ) (T : Terms σ) (i : Nat)
    (call : Call) (op : Op) : Prop :=
  ∀ t, T.known t → T.inv t → ∀ choice r u, g.steps t call op choice →
    M.exec t i call op choice = some (r,u) → T.inv u ∧ ∀ j, T.rely j t u

/-- A program of quiet operations needs no assertions. -/
theorem safe_quiet {p : Prog Op Ans α} (quiet : p.All (Quiet M g T i call)) (s : σ) :
    Safe M g T i call p (fun _ => T.rely i s) s := by
  suffices general : ∀ t, T.rely i s t → Safe M g T i call p (fun _ => T.rely i s) t from
    general s (T.refl i s)
  induction p with
  | ret a => exact fun t rely => rely
  | step op k ih =>
    intro t since u known inv rely choice r v ok performed
    have here := quiet.1 u known inv choice r v ok performed
    exact ⟨⟨here.1,fun j _ => here.2 j⟩,
      ih r (quiet.2 r) v (T.trans i since (T.trans i rely (here.2 i)))⟩

/-- From every state with `K` the program is safe, and it ends in one. -/
def Keeps (M : Machine σ Call Op Ans ε γ) (g : Guard σ Call Op ε γ) (T : Terms σ) (i : Nat)
    (call : Call) (K : σ → Prop) (p : Prog Op Ans α) : Prop :=
  ∀ s, K s → Safe M g T i call p (fun _ t => K t) s

theorem keeps_pure {K : σ → Prop} {a : α} : Keeps M g T i call K (pure a) := fun _ here => here

theorem keeps_bind {K : σ → Prop} {p : Prog Op Ans α} {f : α → Prog Op Ans β}
    (first : Keeps M g T i call K p) (rest : ∀ a, Keeps M g T i call K (f a)) :
    Keeps M g T i call K (p >>= f) :=
  fun s here => safe_bind (safe_mono (fun a t there => rest a t there) (first s here))

theorem keeps_andThen {E : Type} {K : σ → Prop} {p : Prog Op Ans (Except E α)}
    {f : α → Prog Op Ans (Except E β)} (first : Keeps M g T i call K p)
    (rest : ∀ a, Keeps M g T i call K (f a)) : Keeps M g T i call K (p.andThen f) :=
  fun s here => safe_andThen (safe_mono (fun _ t there => ⟨fun a _ => rest a t there,fun _ _ => there⟩)
    (first s here))

/-- Each thread of the configuration is safe. -/
structure Secured (M : Machine σ Call Op Ans ε γ) (g : Guard σ Call Op ε γ) (T : Terms σ)
    (post : Nat → Call → σ → Prop) (c : Conf σ Call Op Ans) : Prop where
  inv : T.inv c.shared
  threads : ∀ i t, c.threads[i]? = some t →
    Safe M g T i t.call t.rest (fun _ => post i t.call) c.shared

theorem getElem?_set_some {l : List α} {i j : Nat} {a b : α} (h : (l.set i a)[j]? = some b) :
    (j = i ∧ b = a) ∨ (j ≠ i ∧ l[j]? = some b) := by
  rw [List.getElem?_set] at h
  split at h
  · rename_i same
    split at h
    · exact .inl ⟨same.symm,(Option.some.inj h).symm⟩
    · cases h
  · rename_i different
    exact .inr ⟨fun same => different same.symm,h⟩

/-- The rely-guarantee rule: if every call starts safe, and the surroundings do what all
threads rely on, then each thread is safe in every reached configuration. -/
theorem reach_secured {post : Nat → Call → σ → Prop}
    (known : ∀ c, Reach M.system g.holds c → T.known c.shared)
    (initial : ∀ s, M.init s → T.inv s)
    (start : ∀ c call, Reach M.system g.holds c → T.inv c.shared →
      M.admits c.shared call = true → g.starts c.shared call →
      Safe M g T c.threads.length call (M.body call) (fun _ => post c.threads.length call) c.shared)
    (stable : ∀ i call s t, T.rely i s t → post i call s → post i call t)
    (env : ∀ s e t, T.known s → T.inv s → g.events s e → M.env s e = some t →
      T.inv t ∧ ∀ j, T.rely j s t)
    {c : Conf σ Call Op Ans} (reach : Reach M.system g.holds c) : Secured M g T post c := by
  induction reach with
  | start c h =>
    refine ⟨initial _ h.1,fun i t there => ?_⟩
    simp [h.2] at there
  | @advance c d a past ok h ih =>
    have now := known c past
    rcases next_cases h with ⟨call,rfl,admitted,rfl⟩ |
      ⟨i,choice,call,op,k,r,s,rfl,here,performed,rfl⟩ | ⟨e,s,rfl,moved,rfl⟩
    · refine ⟨ih.inv,fun i t there => ?_⟩
      by_cases old : i < c.threads.length
      · rw [List.getElem?_append_left old] at there
        exact ih.threads i t there
      · rw [List.getElem?_append_right (by omega)] at there
        by_cases last : i = c.threads.length
        · subst last
          simp at there
          subst there
          exact start c call past ih.inv admitted ok
        · rw [List.getElem?_eq_none (by simp; omega)] at there
          cases there
    · have mine := ih.threads i _ here c.shared now ih.inv (T.refl i _) choice r s (ok _ here) performed
      refine ⟨mine.1.1,fun j t there => ?_⟩
      rcases getElem?_set_some there with ⟨rfl,rfl⟩ | ⟨different,there⟩
      · exact mine.2
      · have rely := mine.1.2 j different
        exact safe_later (fun _ => stable j t.call _ _ rely) rely (ih.threads j t there)
    · have both := env _ e s now ih.inv ok moved
      refine ⟨both.1,fun j t there => ?_⟩
      exact safe_later (fun _ => stable j t.call _ _ (both.2 j)) (both.2 j) (ih.threads j t there)

/-- A thread comes to no operation that the program of its call does not have. -/
theorem reach_performs {ok : Conf σ Call Op Ans → Label Call ε γ → Prop} {p : Call → Op → Prop}
    (body : ∀ call, (M.body call).All (p call)) {c : Conf σ Call Op Ans} (reach : Reach M.system ok c) :
    ∀ (i : Nat) (t : Thread Call Op Ans), c.threads[i]? = some t → t.rest.All (p t.call) := by
  induction reach with
  | start c h =>
    intro i t there
    simp [h.2] at there
  | @advance c d a _ _ h ih =>
    intro i t there
    rcases next_cases h with ⟨call,rfl,_,rfl⟩ | ⟨j,choice,call,op,k,r,s,rfl,here,_,rfl⟩ | ⟨e,s,rfl,_,rfl⟩
    · rcases List.mem_append.mp (List.mem_of_getElem? there) with old | new
      · obtain ⟨j,before⟩ := List.getElem?_of_mem old
        exact ih j t before
      · rw [List.mem_singleton.mp new]
        exact body call
    · rcases getElem?_set_some there with ⟨rfl,rfl⟩ | ⟨_,old⟩
      · exact (ih _ _ here).2 r
      · exact ih i t old
    · exact ih i t there

end Rules

/-! A program run by itself. -/

section Alone

variable {α β : Type} {exec : σ → ε → (op : Op) → Option (Ans op × σ)} {s t : σ}

/-- Run from `s` without interference, the program can end in `t` with that result. -/
def Alone (exec : σ → ε → (op : Op) → Option (Ans op × σ)) : Prog Op Ans α → σ → α → σ → Prop
  | .ret a, s, b, t => a = b ∧ s = t
  | .step op k, s, b, t => ∃ choice r u,
      exec s choice op = some (r,u) ∧ Alone exec (k r) u b t

theorem alone_pure {a b : α} : Alone exec (pure a) s b t ↔ a = b ∧ s = t := Iff.rfl

theorem alone_bind {p : Prog Op Ans α} {f : α → Prog Op Ans β} {b : β} :
    Alone exec (p >>= f) s b t ↔ ∃ a u, Alone exec p s a u ∧ Alone exec (f a) u b t := by
  induction p generalizing s with
  | ret a =>
    constructor
    · intro h
      exact ⟨a,s,⟨rfl,rfl⟩,h⟩
    · rintro ⟨_,_,⟨rfl,rfl⟩,h⟩
      exact h
  | step op k ih =>
    constructor
    · rintro ⟨choice,r,u,performed,rest⟩
      obtain ⟨a,v,first,second⟩ := (ih r).mp rest
      exact ⟨a,v,⟨choice,r,u,performed,first⟩,second⟩
    · rintro ⟨a,v,⟨choice,r,u,performed,first⟩,second⟩
      exact ⟨choice,r,u,performed,(ih r).mpr ⟨a,v,first,second⟩⟩

theorem alone_perform {op : Op} {f : Ans op → Prog Op Ans β} {b : β} :
    Alone exec (Prog.perform op >>= f) s b t ↔ ∃ choice r u,
      exec s choice op = some (r,u) ∧ Alone exec (f r) u b t := Iff.rfl

/-- A relation that every operation of the program establishes holds across its run. -/
theorem alone_related {R : σ → σ → Prop} {p : Prog Op Ans α} {allowed : Op → Prop} {a : α}
    (reflexive : ∀ s, R s s) (transitive : ∀ s t u, R s t → R t u → R s u)
    (advance : ∀ op, allowed op → ∀ s c r u, exec s c op = some (r,u) → R s u)
    (all : p.All allowed) (run : Alone exec p s a t) : R s t := by
  induction p generalizing s with
  | ret b => exact run.2 ▸ reflexive s
  | step op k ih =>
    obtain ⟨c,r,u,performed,rest⟩ := run
    exact transitive _ _ _ (advance op all.1 s c r u performed) (ih r (all.2 r) rest)

/-- The run in given surroundings: the operation performed as number `n` meets `course n`. -/
def play (exec : σ → ε → (op : Op) → Option (Ans op × σ)) (course : Nat → ε) :
    Prog Op Ans α → σ → Nat → Option (α × σ)
  | .ret a, s, _ => some (a,s)
  | .step op k, s, n => (exec s (course n) op).bind fun (r,u) => play exec course (k r) u (n + 1)

theorem alone_of_play {course : Nat → ε} {p : Prog Op Ans α} {a : α} {n : Nat}
    (h : play exec course p s n = some (a,t)) : Alone exec p s a t := by
  induction p generalizing s n with
  | ret b =>
    cases h
    exact ⟨rfl,rfl⟩
  | step op k ih =>
    obtain ⟨⟨r,u⟩,performed,rest⟩ := Option.bind_eq_some_iff.mp h
    exact ⟨course n,r,u,performed,ih r rest⟩

/-- An embedded program does to a part of the state what it does by itself. -/
theorem alone_embed {σ' ε' Op' : Type} {Ans' : Op' → Type}
    (exec' : σ' → ε' → (op : Op') → Option (Ans' op × σ')) (e : Op → Op')
    (back : ∀ op, Ans' (e op) → Ans op) (get : σ' → σ) (put : σ' → σ → σ')
    (put_put : ∀ x s t, put (put x s) t = put x t) (put_get : ∀ x, put x (get x) = x)
    (get_put : ∀ x s, get (put x s) = s)
    (same : ∀ x op r y, (∃ c, exec' x c (e op) = some (r,y)) ↔
      ∃ c u, exec (get x) c op = some (back op r,u) ∧ y = put x u)
    (onto : ∀ op r, ∃ r', back op r' = r)
    {p : Prog Op Ans α} {x y : σ'} {a : α} :
    Alone exec' (p.embed e back) x a y ↔ ∃ t, Alone exec p (get x) a t ∧ y = put x t := by
  induction p generalizing x with
  | ret b =>
    constructor
    · rintro ⟨rfl,rfl⟩
      exact ⟨get x,⟨rfl,rfl⟩,(put_get x).symm⟩
    · rintro ⟨_,⟨rfl,rfl⟩,rfl⟩
      exact ⟨rfl,(put_get x).symm⟩
  | step op k ih =>
    constructor
    · rintro ⟨c,r,z,performed,rest⟩
      obtain ⟨c',u,ran,rfl⟩ := (same x op r z).mp ⟨c,performed⟩
      obtain ⟨t,run,rfl⟩ := (ih (back op r)).mp rest
      rw [get_put] at run
      exact ⟨t,⟨c',_,u,ran,run⟩,put_put x u t⟩
    · rintro ⟨t,⟨c,r,u,ran,run⟩,rfl⟩
      obtain ⟨r',rfl⟩ := onto op r
      obtain ⟨c',performed⟩ := (same x op r' (put x u)).mpr ⟨c,u,ran,rfl⟩
      refine ⟨c',r',put x u,performed,(ih (back op r')).mpr ⟨t,?_,(put_put x u t).symm⟩⟩
      rw [get_put]
      exact run

end Alone

/-- A machine together with a history that observes its operations. -/
structure Observed (σ η : Type) where
  state : σ
  history : η

/-- `record` sees the state before an operation, the call that performs it, and its answer. -/
def Machine.observe {η : Type} (M : Machine σ Call Op Ans ε γ) (first : η)
    (record : η → σ → Nat → Call → (op : Op) → Ans op → η) (witness : η → σ → γ → η) :
    Machine (Observed σ η) Call Op Ans ε γ where
  init s := M.init s.state ∧ s.history = first
  admits s := M.admits s.state
  body := M.body
  exec s i call op choice := (M.exec s.state i call op choice).map fun (r,t) =>
    (r,⟨t,record s.history s.state i call op r⟩)
  env s e := (M.env s.state e).map fun t => ⟨t,witness s.history s.state e⟩

theorem observe_exec {η : Type} {M : Machine σ Call Op Ans ε γ} {first : η}
    {record : η → σ → Nat → Call → (op : Op) → Ans op → η} {witness : η → σ → γ → η}
    {s u : Observed σ η} {i : Nat} {call : Call} {op : Op} {c : ε} {r : Ans op}
    (h : (M.observe first record witness).exec s i call op c = some (r,u)) :
    ∃ t, M.exec s.state i call op c = some (r,t) ∧
      u = ⟨t,record s.history s.state i call op r⟩ := by
  obtain ⟨⟨r',t⟩,performed,same⟩ := Option.map_eq_some_iff.mp h
  cases same
  exact ⟨t,performed,rfl⟩

/-! Side conditions that look at which thread performs an operation. -/

/-- The operation the thread is about to perform is allowed to it. -/
def Watched (allowed : σ → Nat → Call → Op → ε → Prop) (c : Conf σ Call Op Ans) :
    Label Call ε γ → Prop
  | .act i choice => ∀ t ∈ c.threads[i]?, match t.rest with
    | .step op _ => allowed c.shared i t.call op choice
    | .ret _ => True
  | _ => True

instance (allowed : σ → Nat → Call → Op → ε → Prop) [∀ s i call op c, Decidable (allowed s i call op c)]
    (c : Conf σ Call Op Ans) : DecidablePred (Watched (γ := γ) allowed c) := fun a => by
  cases a with
  | fork | env => dsimp only [Watched]; infer_instance
  | act i choice =>
    have (t : Thread Call Op Ans) : Decidable (match t.rest with
        | .step op _ => allowed c.shared i t.call op choice
        | .ret _ => True) := by
      cases t.rest <;> (dsimp only; infer_instance)
    dsimp only [Watched]
    infer_instance

open Classical in
/-- The machine that performs only what is allowed. -/
noncomputable def Machine.restrict (M : Machine σ Call Op Ans ε γ)
    (allowed : σ → Nat → Call → Op → ε → Prop) : Machine σ Call Op Ans ε γ :=
  { M with exec := fun s i call op choice =>
      if allowed s i call op choice then M.exec s i call op choice else none }

theorem restrict_exec {M : Machine σ Call Op Ans ε γ} {allowed : σ → Nat → Call → Op → ε → Prop}
    {s u : σ} {i : Nat} {call : Call} {op : Op} {c : ε} {r : Ans op} :
    (M.restrict allowed).exec s i call op c = some (r,u) ↔
      allowed s i call op c ∧ M.exec s i call op c = some (r,u) := by
  simp only [Machine.restrict]
  split
  · rename_i permitted
    exact (and_iff_right permitted).symm
  · rename_i forbidden
    exact ⟨nofun,fun both => absurd both.1 forbidden⟩

/-- A run all of whose operations are allowed is a run of the restricted machine. -/
theorem reach_restrict {M : Machine σ Call Op Ans ε γ} {g : Guard σ Call Op ε γ}
    {allowed : σ → Nat → Call → Op → ε → Prop} {c : Conf σ Call Op Ans}
    (reach : Reach M.system (fun c a => g.holds c a ∧ Watched allowed c a) c) :
    Reach (M.restrict allowed).system g.holds c := by
  induction reach with
  | start c h => exact .start c h
  | @advance c d a past ok h ih =>
    refine .advance a ih ok.1 ?_
    rcases next_cases h with ⟨call,rfl,admitted,rfl⟩ |
      ⟨i,choice,call,op,k,r,s,rfl,here,performed,rfl⟩ | ⟨e,s,rfl,moved,rfl⟩
    · exact h
    · have permitted : allowed c.shared i call op choice := ok.2 _ here
      have still := (restrict_exec (M := M)).mpr ⟨permitted,performed⟩
      change (M.restrict allowed).next c (.act i choice) = _
      simp only [Machine.next,here,still]
    · exact h

theorem free_holds (c : Conf σ Call Op Ans) (a : Label Call ε γ) : free.holds c a := by
  cases a with
  | act i choice =>
    intro t _
    cases t.rest <;> trivial
  | _ => trivial

/-- Where only the operations are watched, nothing else of a run is constrained. -/
theorem reach_watched {M : Machine σ Call Op Ans ε γ} {allowed : σ → Nat → Call → Op → ε → Prop}
    {c : Conf σ Call Op Ans} (reach : Reach M.system (Watched allowed) c) :
    Reach (M.restrict allowed).system free.holds c :=
  reach_restrict (reach.mono fun d a ok => ⟨free_holds d a,ok⟩)

end Vnidrop.Programs
