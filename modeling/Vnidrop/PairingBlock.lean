import Vnidrop.PairingOps

/-! Blocking a device. A block deletes the relationship with the peer, and it stays deleted
if no pairing that was let in before inserts it again. -/
namespace Vnidrop.Pairing.Block

open Programs Runs

/-- The blocks that have seen the relationship gone and not returned yet; the peers of which
a block has returned since they were last unblocked. -/
structure History where
  swept : List (Nat × EndpointId)
  returned : EndpointId → Bool

namespace History

def new : History := ⟨[],fun _ => false⟩

def sweep (h : History) (i : Nat) (peer : EndpointId) : History :=
  { h with swept := (i,peer) :: h.swept }

def finish (h : History) (i : Nat) (peer : EndpointId) (success : Bool) : History where
  swept := h.swept.filter (· ≠ (i,peer))
  returned := if success then Function.update h.returned peer true else h.returned

/-- A block of the peer stands, or is about to. -/
def stands (h : History) (peer : EndpointId) : Bool :=
  h.returned peer || (h.swept.map (·.2)).contains peer

end History

def record (h : History) (_ : Device) (i : Nat) : Call → (op : Op) → Ans op → History
  | .blockDevice _, .findRow peer, .ok none => h.sweep i peer
  | .blockDevice _, .writeRow peer .delete, .ok _ => h.sweep i peer
  | .blockDevice peer, .returned success, _ => h.finish i peer success
  | _, .unblockEndpoint peer, .ok _ =>
    { h with returned := Function.update h.returned peer false }
  | _, _, _ => h

abbrev State := Observed Device History

/-- Whatever is stored when the process starts. -/
def machine (l : Local) : Machine State Call Op Ans Choice Empty :=
  (domain l fun _ => True).observe .new record fun h _ _ => h

/-- No relationship is inserted against a block. -/
def guard : Guard State Call Op Choice Empty where
  starts _ _ := True
  steps s _ o c := match o with
    | .writeRow peer (.upsert _) => c.fails = true ∨ s.history.stands peer = false
    | _ => True
  events _ _ := True

def Inv (s : State) : Prop :=
  ∀ peer, s.history.stands peer = true → s.state.relationships.find peer = none

/-- What thread `i` relies on: what it has swept stays on record. -/
def Kept (i : Nat) (s t : State) : Prop :=
  ∀ peer, (i,peer) ∈ s.history.swept → (i,peer) ∈ t.history.swept

def terms : Terms State where
  known _ := True
  inv := Inv
  rely := Kept
  refl _ _ _ h := h
  trans _ _ _ _ f g peer h := g peer (f peer h)

abbrev Safely (l : Local) (i : Nat) (call : Call) {α : Type} (p : Task α) (post : α → State → Prop)
    (s : State) : Prop := Safe (machine l) guard terms i call p post s

section Steps

variable {l : Local} {s t u : State} {i : Nat} {call : Call} {c : Choice} {peer : EndpointId}

theorem stands_iff {h : History} :
    h.stands peer = true ↔ h.returned peer = true ∨ ∃ i, (i,peer) ∈ h.swept := by
  simp [History.stands]

/-- A relationship that is gone is back only by an insertion. -/
theorem gone_stays {d d' : Device} {o : Op} {r : Ans o} (h : d.exec l i c o = some (r,d'))
    (gone : d.relationships.find peer = none)
    (fine : ∀ e, o = .writeRow peer (.upsert e) → c.fails = true) :
    d'.relationships.find peer = none := by
  by_cases writes : ∃ peer' w, o = .writeRow peer' w
  · obtain ⟨peer',w,rfl⟩ := writes
    rcases exec_writeRow h with ⟨_,_,rfl⟩ | ⟨works,_,rfl⟩
    · exact gone
    · rw [Relationships.find_write]
      split
      · rename_i same
        subst same
        rw [gone]
        cases w with
        | upsert e =>
          rw [fine e rfl] at works
          cases works
        | _ => rfl
      · exact gone
  · rw [exec_relationships h fun peer' w same => writes ⟨peer',w,same⟩]
    exact gone

/-- A block that comes to stand has seen the relationship gone, or has stood before. -/
theorem record_stands {d d' : Device} {h : History} {o : Op} {r : Ans o}
    (performed : d.exec l i c o = some (r,d'))
    (mine : ∀ peer, call = .blockDevice peer → o = .returned true → (i,peer) ∈ h.swept)
    (now : (record h d i call o r).stands peer = true) :
    h.stands peer = true ∨ d'.relationships.find peer = none := by
  unfold record at now
  split at now
  · rename_i peer'
    rcases stands_iff.mp now with returned | ⟨j,swept⟩
    · exact .inl (stands_iff.mpr (.inl returned))
    · rcases List.mem_cons.mp swept with same | before
      · cases same
        obtain ⟨rfl,found⟩ := exec_findRow performed
        exact .inr (Option.map_eq_none_iff.mp (found none rfl).symm)
      · exact .inl (stands_iff.mpr (.inr ⟨j,before⟩))
  · rename_i peer' _
    rcases stands_iff.mp now with returned | ⟨j,swept⟩
    · exact .inl (stands_iff.mpr (.inl returned))
    · rcases List.mem_cons.mp swept with same | before
      · cases same
        rcases exec_writeRow performed with ⟨_,failed,_⟩ | ⟨_,_,rfl⟩
        · cases failed
        · refine .inr ?_
          rw [Relationships.find_write,if_pos rfl]
          cases d.relationships.find peer <;> rfl
      · exact .inl (stands_iff.mpr (.inr ⟨j,before⟩))
  · rename_i peer' success _
    refine .inl (stands_iff.mpr ?_)
    rcases stands_iff.mp now with returned | ⟨j,swept⟩
    · cases success with
      | false => exact .inl returned
      | true =>
        by_cases same : peer = peer'
        · subst same
          exact .inr ⟨i,mine peer rfl rfl⟩
        · exact .inl ((Function.update_of_ne same _ _).symm.trans returned)
    · exact .inr ⟨j,List.mem_of_mem_filter swept⟩
  · rename_i peer' _
    refine .inl (stands_iff.mpr ((stands_iff.mp now).imp_left fun returned => ?_))
    by_cases same : peer = peer'
    · subst same
      dsimp only at returned
      rw [Function.update_self] at returned
      cases returned
    · exact (Function.update_of_ne same _ _).symm.trans returned
  · exact .inl now

theorem Inv.step {o : Op} {r : Ans o} (inv : Inv s) (ok : guard.steps s call o c)
    (mine : ∀ peer, call = .blockDevice peer → o = .returned true → (i,peer) ∈ s.history.swept)
    (h : (machine l).exec s i call o c = some (r,t)) : Inv t := by
  obtain ⟨d,performed,rfl⟩ := observe_exec h
  intro peer stands
  rcases record_stands performed mine stands with before | gone
  · refine gone_stays performed (inv peer before) ?_
    rintro e rfl
    exact ok.resolve_right fun clear => by
      rw [before] at clear
      cases clear
  · exact gone

/-- A block takes off the record only what it has swept itself. -/
theorem Kept.step {o : Op} {r : Ans o} (h : (machine l).exec s i call o c = some (r,t)) {j : Nat}
    (apart : j ≠ i ∨ [Kind.returned].contains o.kind = false) : Kept j s t := by
  obtain ⟨d,performed,rfl⟩ := observe_exec h
  intro peer swept
  change (j,peer) ∈ (record s.history s.state i call o r).swept
  unfold record
  split
  · exact List.mem_cons_of_mem _ swept
  · exact List.mem_cons_of_mem _ swept
  · refine List.mem_filter.mpr ⟨swept,decide_eq_true fun same => ?_⟩
    cases same
    exact apart.elim (fun other => other rfl) nofun
  · exact swept
  · exact swept

theorem quiet_op {o : Op} (apart : [Kind.returned].contains o.kind = false) : Quiet (machine l) guard terms i call o :=
  fun _ _ inv _ _ _ ok performed =>
    ⟨inv.step ok (fun _ _ returns => by cases returns; cases apart) performed,
      fun _ => Kept.step performed (.inr apart)⟩

theorem safe_aside {α : Type} {p : Task α} (apart : Avoids [.returned] p) (s : State) :
    Safely l i call p (fun _ t => Kept i s t) s := by
  refine safe_quiet ?_ s
  induction p with
  | ret a => trivial
  | step o k ih => exact ⟨quiet_op apart.1,fun r => ih r (apart.2 r)⟩

/-- In a call that blocks nobody every operation is quiet. -/
theorem safe_call_aside {α : Type} (p : Task α) (other : ∀ peer, call ≠ .blockDevice peer) (s : State) :
    Safely l i call p (fun _ t => Kept i s t) s := by
  refine safe_quiet ?_ s
  induction p with
  | ret a => trivial
  | step o k ih =>
    refine ⟨fun t _ inv choice r u ok performed => ?_,ih⟩
    refine ⟨inv.step ok (fun peer same => absurd same (other peer)) performed,fun j => ?_⟩
    obtain ⟨d,_,rfl⟩ := observe_exec performed
    intro peer swept
    change (j,peer) ∈ (record t.history t.state i call o r).swept
    unfold record
    split
    · exact absurd rfl (other _)
    · exact absurd rfl (other _)
    · exact absurd rfl (other _)
    · exact swept
    · exact swept

end Steps

section Calls

variable {l : Local} {s : State} {i : Nat} {peer : EndpointId}

/-- A program that succeeds only with the relationship of the peer swept by thread `i`. -/
abbrev Sweeps (l : Local) (i : Nat) (peer : EndpointId) {α : Type} (p : Task (Outcome α)) (s : State) :
    Prop :=
  Safely l i (.blockDevice peer) p (fun r t => ∀ a, r = .ok a → (i,peer) ∈ t.history.swept) s

/-- What follows the sweep does not matter. -/
theorem sweeps_aside {α : Type} {p : Task (Outcome α)} (apart : Avoids [.returned] p)
    (swept : (i,peer) ∈ s.history.swept) : Sweeps l i peer p s :=
  safe_mono (fun _ _ kept _ _ => kept peer swept) (safe_aside apart s)

/-- What precedes it neither. -/
theorem sweeps_andThen {α β : Type} {p : Task (Outcome α)} {f : α → Task (Outcome β)}
    (apart : Avoids [.returned] p) (rest : ∀ a t, Sweeps l i peer (f a) t) :
    Sweeps l i peer (p.andThen f) s :=
  safe_andThen (safe_mono (fun _ t _ => ⟨fun a _ => rest a t,fun _ _ _ => nofun⟩) (safe_aside apart s))

theorem sweeps_delete : Sweeps l i peer (write peer .delete) s := by
  intro t _ inv _ c r u ok performed
  refine ⟨⟨inv.step ok nofun performed,fun j other => Kept.step performed (.inl other)⟩,?_⟩
  rintro a rfl
  obtain ⟨d,_,rfl⟩ := observe_exec performed
  exact List.mem_cons_self

theorem sweeps_deleteRelationship : Sweeps l i peer (deleteRelationship l peer) s := by
  refine safe_bind (safe_mono (fun found t _ => ?_) (safe_aside (Prog.all_perform rfl) s))
  dsimp only
  split
  · exact safe_bind (safe_mono (fun _ _ _ => sweeps_delete)
      (safe_aside ((clearGrantSecrets_uses _).avoids rfl) t))
  · exact sweeps_delete

/-- Under the lock a block sweeps by finding no row, or by deleting it. -/
theorem sweeps_revokeRelationship : Sweeps l i peer (revokeRelationship l peer) s := by
  refine safe_andThen fun t _ inv _ c r u ok performed => ?_
  refine ⟨⟨inv.step ok nofun performed,fun j other => Kept.step performed (.inl other)⟩,?_⟩
  refine ⟨?_,fun _ _ _ => nofun⟩
  rintro row rfl
  cases row with
  | none =>
    have swept : (i,peer) ∈ u.history.swept := by
      obtain ⟨d,_,rfl⟩ := observe_exec performed
      exact List.mem_cons_self
    exact sweeps_aside (Prog.all_andThen (removeForPeer_uses.avoids rfl) fun _ => trivial) swept
  | some row =>
    refine sweeps_andThen (Prog.all_perform rfl) fun _ v => ?_
    refine safe_andThen (safe_mono (fun r w swept => ⟨fun a fine => ?_,fun _ _ _ => nofun⟩)
      sweeps_deleteRelationship)
    exact sweeps_aside (Prog.all_andThen (removeForPeer_uses.avoids rfl) fun _ => trivial)
      (swept a fine)

theorem sweeps_blockDevice : Sweeps l i peer (blockDevice l peer) s := by
  refine sweeps_andThen (Prog.all_perform rfl) fun _ t => ?_
  refine safe_bind (safe_mono (fun _ u _ => ?_) (safe_aside (Prog.all_perform rfl) t))
  refine safe_bind (safe_mono (fun revoked v swept => ?_) sweeps_revokeRelationship)
  refine safe_bind (safe_mono (fun _ w kept => ?_) (safe_aside (Prog.all_perform rfl) v))
  cases revoked with
  | error e => exact fun _ => nofun
  | ok row =>
    refine sweeps_aside ?_ (kept peer (swept row rfl))
    refine Prog.all_andThen (Prog.all_perform rfl) fun _ => ?_
    cases row with
    | none => trivial
    | some row => exact Prog.all_bind ((notify_uses row).avoids rfl) fun _ => trivial

theorem safe_call {call : Call} : Safely l i call (call.body l) (fun _ _ => True) s := by
  by_cases blocks : ∃ peer, call = .blockDevice peer
  · obtain ⟨peer,rfl⟩ := blocks
    refine safe_bind (safe_mono (fun r t swept => ?_) sweeps_blockDevice)
    have returns : ∀ success, (success = true → (i,peer) ∈ t.history.swept) →
        Safely l i (.blockDevice peer) (op (.returned success)) (fun _ _ => True) t := by
      intro success mine u _ inv kept c r v ok performed
      refine ⟨⟨inv.step ok (fun peer' same succeeds => ?_) performed,fun j other =>
        Kept.step performed (.inl other)⟩,trivial⟩
      cases same
      cases succeeds
      exact kept peer (mine rfl)
    cases r with
    | ok a => exact returns true fun _ => swept a rfl
    | error e => exact returns false nofun
  · exact safe_mono (fun _ _ _ => trivial)
      (safe_call_aside _ (fun peer same => blocks ⟨peer,same⟩) s)

end Calls

namespace Sample

open Pairing.Sample

def start : Conf State Call Op Ans := ⟨⟨.new,.new⟩,[]⟩

theorem started {l : Local} : (machine l).system.init start := ⟨⟨⟨trivial,fun _ => rfl⟩,rfl⟩,rfl⟩

def blocks (i : Nat) (acts : Nat) : List (Label Call Choice Empty) :=
  starts (.blockDevice 2) :: List.replicate acts (act i)

/-- A pairing is let in before the block, and finds its eligibility after it: a receive from
device 2 has completed meanwhile. -/
def races : List (Label Call Choice Empty) :=
  starts (.requestPairing 2) :: act 0 :: blocks 1 7 ++ received 2 ++ List.replicate 16 (act 0)

/-- The pairing comes first. -/
def waits : List (Label Call Choice Empty) :=
  received 0 ++ starts (.requestPairing 2) :: List.replicate 18 (act 1) ++ blocks 2 12

def after (labels : List (Label Call Choice Empty)) : Conf State Call Op Ans :=
  ((machine device).system.run start labels).getD start

end Sample

instance (s : State) (call : Call) : Decidable (guard.starts s call) := isTrue trivial

instance (s : State) (e : Empty) : Decidable (guard.events s e) := isTrue trivial

instance (s : State) (call : Call) (o : Op) (c : Choice) : Decidable (guard.steps s call o c) := by
  dsimp only [guard]
  split <;> infer_instance

end Vnidrop.Pairing.Block
