import Mathlib.Data.List.Basic

/-! A bounded channel between one sender and one receiver. A sender waits while the channel is
full and a receiver while it is empty; each learns that the other has gone. -/
namespace Vnidrop.Pipes

/-- `sending` and `receiving` say which ends are still held. -/
structure Pipe (α : Type) (capacity : Nat) where
  queue : List α
  sending : Bool
  receiving : Bool
  fits : queue.length ≤ capacity

variable {α : Type} {capacity : Nat}

namespace Pipe

def opened (α : Type) (capacity : Nat) : Pipe α capacity := ⟨[],true,true,Nat.zero_le _⟩

/-- `none` while the sender waits; `false` when nobody is left to receive. -/
def send (p : Pipe α capacity) (a : α) : Option (Bool × Pipe α capacity) :=
  if p.receiving then
    if room : p.queue.length < capacity then
      some (true,{ p with queue := p.queue ++ [a], fits := by simpa [Nat.succ_le_iff] using room })
    else none
  else some (false,p)

/-- `none` while the receiver waits; what was sent is still received when the sender has gone. -/
def receive (p : Pipe α capacity) : Option (Option α × Pipe α capacity) :=
  match h : p.queue with
  | a :: rest => some (some a,{ p with queue := rest, fits := by have := p.fits; rw [h] at this; exact Nat.le_of_succ_le this })
  | [] => if p.sending then none else some (none,p)

def dropSender (p : Pipe α capacity) : Pipe α capacity := { p with sending := false }

def dropReceiver (p : Pipe α capacity) : Pipe α capacity := { p with receiving := false }

variable {p q : Pipe α capacity} {a : α}

/-- All that a send can do. -/
theorem send_cases {sent : Bool} (h : p.send a = some (sent,q)) :
    (sent = true ∧ p.receiving = true ∧ q.queue = p.queue ++ [a] ∧ q.sending = p.sending ∧ q.receiving = p.receiving) ∨
    (sent = false ∧ p.receiving = false ∧ q = p) := by
  unfold send at h
  split at h
  · rename_i held
    split at h
    · cases h
      exact .inl ⟨rfl,held,rfl,rfl,rfl⟩
    · cases h
  · rename_i gone
    cases h
    exact .inr ⟨rfl,by simpa using gone,rfl⟩

/-- All that a receive can do. -/
theorem receive_cases {r : Option α} (h : p.receive = some (r,q)) :
    (∃ a, r = some a ∧ p.queue = a :: q.queue ∧ q.sending = p.sending ∧ q.receiving = p.receiving) ∨
    (r = none ∧ p.queue = [] ∧ p.sending = false ∧ q = p) := by
  unfold receive at h
  split at h
  · rename_i a rest queued
    cases h
    exact .inl ⟨a,rfl,queued,rfl,rfl⟩
  · rename_i queued
    split at h
    · cases h
    · rename_i gone
      cases h
      exact .inr ⟨rfl,queued,by simpa using gone,rfl⟩

/-- A sender waits only for a full channel that somebody receives from. -/
theorem send_waits : p.send a = none ↔ p.receiving = true ∧ p.queue.length = capacity := by
  have := p.fits
  unfold send
  split
  · rename_i held
    split
    · simp
      omega
    · simp [held]
      omega
  · rename_i gone
    simp [gone]

/-- A receiver waits only for an empty channel that somebody sends to. -/
theorem receive_waits : p.receive = none ↔ p.queue = [] ∧ p.sending = true := by
  unfold receive
  split
  · rename_i queued
    simp [queued]
  · rename_i queued
    simp [queued]

/-- The two ends never wait for each other. -/
theorem not_both_wait (room : 0 < capacity) : ¬(p.send a = none ∧ p.receive = none) := by
  rw [send_waits,receive_waits]
  rintro ⟨⟨-,full⟩,empty,-⟩
  rw [empty] at full
  simp at full
  omega

end Pipe

end Vnidrop.Pipes
