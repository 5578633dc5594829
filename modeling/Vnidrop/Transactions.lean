import Mathlib.Control.Monad.Basic

/-! Transactions of a database session. A transaction works on a copy; the copy is stored by its
commit, and dropped with the transaction otherwise. Any call of the session may fail. -/
namespace Vnidrop.Transactions

structure Session (σ : Type) where
  stored : σ
  /-- The copy of the open transaction. -/
  working : Option σ
  fails : Nat → Bool
  calls : Nat

/-- A failure leaves the session as it is at that point. -/
abbrev Db (σ ε α : Type) := ExceptT ε (StateM (Session σ)) α

variable {σ ε α β : Type}

def Db.exec (m : Db σ ε α) (s : Session σ) : Except ε α × Session σ := m.run.run s

/-- A call that fails with the given error, or answers and changes the session. -/
def call (error : ε) (act : Session σ → α × Session σ) : Db σ ε α :=
  ExceptT.mk fun s =>
    if s.fails s.calls then (.error error,{ s with calls := s.calls + 1 })
    else
      let (answer,t) := act { s with calls := s.calls + 1 }
      (.ok answer,t)

def begin_ (error : ε) : Db σ ε Unit := call error fun s => ((),{ s with working := some s.stored })

def commit (error : ε) : Db σ ε Unit :=
  call error fun s => ((),{ s with stored := s.working.getD s.stored, working := none })

/-- A place where the session may fail, without an effect. -/
def point (error : ε) : Db σ ε Unit := call error fun s => ((),s)

/-- `?` on a result that no call has made. -/
def check : Except ε α → Db σ ε α
  | .ok a => pure a
  | .error e => throw e

/-- A statement: its answer and what it leaves. Outside a transaction it is stored at once. -/
def execute (error : ε) (statement : σ → α × σ) : Db σ ε α :=
  call error fun s =>
    match s.working with
    | some w => ((statement w).1,{ s with working := some (statement w).2 })
    | none => ((statement s.stored).1,{ s with stored := (statement s.stored).2 })

def committed (error : ε) (body : Db σ ε α) : Db σ ε α := do
  begin_ error
  let a ← body
  commit error
  return a

/-- A transaction that ends without its commit rolls back when it is dropped. -/
def transaction (error : ε) (body : Db σ ε α) : Db σ ε α :=
  ExceptT.mk fun s =>
    let (answer,t) := (committed error body).exec s
    (answer,{ t with working := none })

theorem exec_bind (m : Db σ ε α) (k : α → Db σ ε β) (s : Session σ) : Db.exec (m >>= k) s =
    match m.exec s with
    | (.ok a,t) => (k a).exec t
    | (.error e,t) => (.error e,t) := by
  change (ExceptT.bindCont k (m.exec s).1).run (m.exec s).2 = _
  rcases m.exec s with ⟨e | a,t⟩ <;> rfl

@[simp] theorem exec_pure (a : α) (s : Session σ) : Db.exec (pure a : Db σ ε α) s = (.ok a,s) := rfl

@[simp] theorem exec_throw (e : ε) (s : Session σ) : Db.exec (throw e : Db σ ε α) s = (.error e,s) := rfl

/-- Every call of the session succeeds. -/
def Session.Calm (s : Session σ) : Prop := ∀ n, s.fails n = false

theorem exec_call (error : ε) (act : Session σ → α × Session σ) (s : Session σ) :
    Db.exec (call error act) s = if s.fails s.calls then (.error error,{ s with calls := s.calls + 1 })
      else (.ok (act { s with calls := s.calls + 1 }).1,(act { s with calls := s.calls + 1 }).2) := rfl

/-- Within a transaction the program does to the copy what `f` says, and nothing to what is stored. -/
structure Means (m : Db σ ε α) (f : StateT σ (Except ε) α) : Prop where
  frame : ∀ s w, s.working = some w →
    (m.exec s).2.stored = s.stored ∧ (m.exec s).2.fails = s.fails
  done : ∀ s w a t, s.working = some w → m.exec s = (.ok a,t) → ∃ w', f.run w = .ok (a,w') ∧ t.working = some w'
  calm : ∀ s w a w', s.working = some w → s.Calm → f.run w = .ok (a,w') →
    ∃ t, m.exec s = (.ok a,t) ∧ t.working = some w'

namespace Means

variable {m : Db σ ε α} {f : StateT σ (Except ε) α} {k : α → Db σ ε β} {g : α → StateT σ (Except ε) β}

theorem pure (a : α) : Means (Pure.pure a : Db σ ε α) (Pure.pure a) where
  frame s w _ := ⟨rfl,rfl⟩
  done s w b t opened ran := by
    cases ran
    exact ⟨w,rfl,opened⟩
  calm s w b w' opened _ ran := by
    cases ran
    exact ⟨s,rfl,opened⟩

theorem check (x : Except ε α) : Means (check x : Db σ ε α) (StateT.lift x) :=
  match x with
  | .ok a => pure a
  | .error _ =>
    { frame := fun _ _ _ => ⟨rfl,rfl⟩
      done := fun _ _ _ _ _ ran => by cases ran
      calm := fun _ _ _ _ _ _ ran => by cases ran }

theorem point (error : ε) : Means (point error : Db σ ε Unit) (Pure.pure ()) where
  frame s w _ := by
    rw [Transactions.point,exec_call]
    split <;> exact ⟨rfl,rfl⟩
  done s w b t opened ran := by
    rw [Transactions.point,exec_call] at ran
    split at ran
    · cases ran
    · cases ran
      exact ⟨w,rfl,opened⟩
  calm s w b w' opened calm ran := by
    rw [Transactions.point,exec_call,if_neg (by simp [calm s.calls])]
    cases ran
    exact ⟨_,rfl,opened⟩

theorem execute (error : ε) (statement : σ → α × σ) :
    Means (execute error statement) (fun w => .ok (statement w)) where
  frame s w opened := by
    rw [Transactions.execute,exec_call]
    split
    · exact ⟨rfl,rfl⟩
    · simp [opened]
  done s w b t opened ran := by
    rw [Transactions.execute,exec_call] at ran
    split at ran
    · cases ran
    · simp only [opened] at ran
      cases ran
      exact ⟨_,rfl,rfl⟩
  calm s w b w' opened calm ran := by
    rw [Transactions.execute,exec_call,if_neg (by simp [calm s.calls])]
    have same : statement w = (b,w') := Except.ok.inj ran
    simp only [opened,same]
    exact ⟨_,rfl,rfl⟩

theorem bind (first : Means m f) (next : ∀ a, Means (k a) (g a)) : Means (m >>= k) (f >>= g) where
  frame s w opened := by
    obtain ⟨stored,fails⟩ := first.frame s w opened
    rw [exec_bind]
    rcases ran : m.exec s with ⟨e | a,t⟩
    · rw [ran] at stored fails
      exact ⟨stored,fails⟩
    · obtain ⟨w',-,opened'⟩ := first.done s w a t opened ran
      obtain ⟨stored',fails'⟩ := (next a).frame t w' opened'
      rw [ran] at stored fails
      exact ⟨stored'.trans stored,fails'.trans fails⟩
  done s w b u opened ran := by
    rw [exec_bind] at ran
    rcases began : m.exec s with ⟨e | a,t⟩
    · rw [began] at ran
      cases ran
    · rw [began] at ran
      obtain ⟨w',same,opened'⟩ := first.done s w a t opened began
      obtain ⟨w'',same',opened''⟩ := (next a).done t w' b u opened' ran
      exact ⟨w'',by rw [StateT.run_bind,same]; exact same',opened''⟩
  calm s w b w'' opened calm ran := by
    rw [StateT.run_bind] at ran
    cases same : f.run w with
    | error e =>
      rw [same] at ran
      cases ran
    | ok r =>
      obtain ⟨a,w'⟩ := r
      rw [same] at ran
      obtain ⟨t,began,opened'⟩ := first.calm s w a w' opened calm same
      have fails := (first.frame s w opened).2
      rw [began] at fails
      obtain ⟨u,ended,opened''⟩ := (next a).calm t w' b w'' opened' (fun n => by rw [fails]; exact calm n) ran
      exact ⟨u,by rw [exec_bind,began]; exact ended,opened''⟩

end Means

section

variable {error : ε} {body : Db σ ε α} {f : StateT σ (Except ε) α}

/-- The session after `BEGIN`. -/
def begun (s : Session σ) : Session σ := { s with calls := s.calls + 1, working := some s.stored }

theorem exec_committed (s : Session σ) : (committed error body).exec s =
    if s.fails s.calls then (.error error,{ s with calls := s.calls + 1 })
    else match body.exec (begun s) with
      | (.error e,t) => (.error e,t)
      | (.ok a,t) =>
        if t.fails t.calls then (.error error,{ t with calls := t.calls + 1 })
        else (.ok a,{ t with calls := t.calls + 1, stored := t.working.getD t.stored, working := none }) := by
  rw [committed,exec_bind,begin_,exec_call]
  by_cases first : s.fails s.calls
  · rw [if_pos first,if_pos first]
  · rw [if_neg first,if_neg first]
    change Db.exec (body >>= fun a => commit error >>= fun _ => pure a) (begun s) = _
    rw [exec_bind]
    rcases body.exec (begun s) with ⟨e | a,t⟩
    · rfl
    · simp only [exec_bind,commit,exec_call]
      by_cases last : t.fails t.calls
      · rw [if_pos last,if_pos last]
      · rw [if_neg last,if_neg last]
        rfl

/-- A program that does all that `f` says to what is stored, or nothing; and all of it without
failures. -/
structure Atomic (m : Db σ ε α) (f : StateT σ (Except ε) α) : Prop where
  failed : ∀ s e t, m.exec s = (.error e,t) → t.stored = s.stored
  done : ∀ s a t, m.exec s = (.ok a,t) → f.run s.stored = .ok (a,t.stored)
  calm : ∀ s a w', s.Calm → f.run s.stored = .ok (a,w') → ∃ t, m.exec s = (.ok a,t)

theorem transaction_spec (means : Means body f) (s : Session σ) :
    (∀ e t, (transaction error body).exec s = (.error e,t) → t.stored = s.stored) ∧
    (∀ a t, (transaction error body).exec s = (.ok a,t) → f.run s.stored = .ok (a,t.stored)) ∧
    ∀ a w', s.Calm → f.run s.stored = .ok (a,w') → ∃ t, (transaction error body).exec s = (.ok a,t) := by
  have dropped : (transaction error body).exec s =
      (((committed error body).exec s).1,{ ((committed error body).exec s).2 with working := none }) := rfl
  rw [dropped,exec_committed]
  obtain ⟨stored,fails⟩ := means.frame (begun s) s.stored rfl
  by_cases first : s.fails s.calls
  · rw [if_pos first]
    refine ⟨fun e t ran => ?_,fun a t ran => ?_,fun a w' calm ran => ?_⟩
    · cases ran
      rfl
    · cases ran
    · simp [calm s.calls] at first
  · rw [if_neg first]
    rcases inner : body.exec (begun s) with ⟨e' | b,u⟩
    · rw [inner] at stored
      refine ⟨fun e t ran => ?_,fun a t ran => ?_,fun a w' calm ran => ?_⟩
      · cases ran
        exact stored
      · cases ran
      · obtain ⟨u',ended,-⟩ := means.calm (begun s) s.stored a w' rfl calm ran
        cases inner.symm.trans ended
    · rw [inner] at stored fails
      obtain ⟨w',same,opened⟩ := means.done (begun s) s.stored b u rfl inner
      simp only
      by_cases last : u.fails u.calls
      · rw [if_pos last]
        refine ⟨fun e t ran => ?_,fun a t ran => ?_,fun a w' calm ran => ?_⟩
        · cases ran
          exact stored
        · cases ran
        · rw [fails] at last
          exact absurd last (by simp [begun,calm u.calls])
      · rw [if_neg last]
        refine ⟨fun e t ran => ?_,fun a t ran => ?_,fun a w'' calm ran => ?_⟩
        · cases ran
        · cases ran
          simpa [opened] using same
        · cases ran.symm.trans same
          exact ⟨_,rfl⟩

theorem transaction_atomic (means : Means body f) : Atomic (transaction error body) f where
  failed s := (transaction_spec means s).1
  done s := (transaction_spec means s).2.1
  calm s := (transaction_spec means s).2.2

namespace Atomic

variable {m : Db σ ε α}

theorem after_point (atomic : Atomic m f) : Atomic (point error >>= fun _ => m) f := by
  have exec (s : Session σ) : Db.exec (point error >>= fun _ => m) s =
      if s.fails s.calls then (.error error,{ s with calls := s.calls + 1 })
      else m.exec { s with calls := s.calls + 1 } := by
    rw [exec_bind,point,exec_call]
    by_cases failed : s.fails s.calls
    · rw [if_pos failed,if_pos failed]
    · rw [if_neg failed,if_neg failed]
  refine ⟨fun s e t ran => ?_,fun s a t ran => ?_,fun s a w' calm ran => ?_⟩
  · rw [exec] at ran
    split at ran
    · cases ran
      rfl
    · exact atomic.failed { s with calls := s.calls + 1 } e t ran
  · rw [exec] at ran
    split at ran
    · cases ran
    · exact atomic.done { s with calls := s.calls + 1 } a t ran
  · rw [exec,if_neg (by simp [calm s.calls])]
    exact atomic.calm { s with calls := s.calls + 1 } a w' calm ran

theorem after_check {β : Type} {x : Except ε β} {k : β → Db σ ε α} {g : β → StateT σ (Except ε) α}
    (atomic : ∀ b, x = .ok b → Atomic (k b) (g b)) : Atomic (check x >>= k) (StateT.lift x >>= g) :=
  match x, atomic with
  | .ok b, atomic => atomic b rfl
  | .error _, _ =>
    { failed := fun _ _ _ ran => by
        cases ran
        rfl
      done := fun _ _ _ ran => by cases ran
      calm := fun _ _ _ _ ran => by cases ran }

end Atomic

end

end Vnidrop.Transactions
