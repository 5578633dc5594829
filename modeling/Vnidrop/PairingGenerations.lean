import Vnidrop.PairingOps

/-! The generation of a relationship. It is positive, it fits the database, and it lies
above every generation that has been revoked. -/
namespace Vnidrop.Pairing.Generations

open Programs Runs

/-- An accepted proof, and whether its generation was tombstoned by then. -/
structure Acceptance where
  peer : EndpointId
  generation : Nat
  tombstoned : Bool
  deriving DecidableEq, Repr

/-- The calls that have tombstoned the generation of a row and not removed it yet; the
verifications that have looked for a tombstone and found none; the proofs accepted so far. -/
structure History where
  closing : EndpointId → Option (Nat × Call)
  verifying : List (Nat × EndpointId × Nat)
  accepted : List Acceptance

namespace History

def new : History := ⟨fun _ => none,[],[]⟩

def close (h : History) (i : Nat) (call : Call) (peer : EndpointId) : History :=
  { h with closing := Function.update h.closing peer (some (i,call)) }

/-- The row that thread `i` has tombstoned is gone, or has a new generation. -/
def closed (h : History) (i : Nat) (peer : EndpointId) : History :=
  if (h.closing peer).map (·.1) = some i then
    { h with closing := Function.update h.closing peer none }
  else h

def verified (h : History) (i : Nat) (d : Device) (peer : EndpointId) (generation : Nat)
    (success : Bool) : History :=
  { h with
    verifying := h.verifying.filter (·.1 ≠ i)
    accepted :=
      if success then ⟨peer,generation,asI64 generation ∈ d.tombstones peer⟩ :: h.accepted
      else h.accepted }

end History

/-- A revoke notice looks for tombstones too, but not for the sake of a proof. -/
def checksProofs : Call → Bool
  | .revokeNotice .. => false
  | _ => true

def record (h : History) (d : Device) (i : Nat) (call : Call) : (op : Op) → Ans op → History
  | .insertTombstone peer _, .ok _ => h.close i call peer
  | .writeRow peer .delete, .ok _ => h.closed i peer
  | .writeRow peer (.beginGrantRotation _), .ok _ => h.closed i peer
  | .findTombstone peer generation, .ok false =>
    if checksProofs call then { h with verifying := (i,peer,generation) :: h.verifying } else h
  | .verification peer _ generation success, _ => h.verified i d peer generation success
  | _, _ => h

def maxGeneration : Int := 9223372036854775807

/-- The rows of a peer and its tombstones keep to the discipline. -/
structure Disciplined (d : Device) (peer : EndpointId) : Prop where
  range : ∀ r, d.relationships.find peer = some r → 1 ≤ r.generation ∧ r.generation ≤ maxGeneration
  above : ∀ r, d.relationships.find peer = some r → ∀ g ∈ d.tombstones peer, g < r.generation

structure Stored (d : Device) : Prop where
  disciplined : ∀ peer, Disciplined d peer
  tombstones : ∀ peer, ∀ g ∈ d.tombstones peer, 1 ≤ g ∧ g ≤ maxGeneration

abbrev State := Observed Device History

def machine (l : Local) : Machine State Call Op Ans Choice Empty :=
  (domain l Stored).observe .new record fun h _ _ => h

/-- A generation that can replace the current one. -/
structure Sound (d : Device) (peer : EndpointId) (generation : Nat) : Prop where
  positive : 1 ≤ generation
  fits : fitsI64 generation = true
  above : ∀ g ∈ d.tombstones peer, g < generation

instance (d : Device) (peer : EndpointId) (generation : Nat) : Decidable (Sound d peer generation) :=
  decidable_of_iff (1 ≤ generation ∧ fitsI64 generation = true ∧
    ∀ g ∈ d.tombstones peer, g < generation)
    ⟨fun h => ⟨h.1,h.2.1,h.2.2⟩,fun h => ⟨h.positive,h.fits,h.above⟩⟩

/-- The calls that adopt the generation of an answer. -/
def adopts : Call → Bool
  | .requestPairing _ => true
  | _ => false

/-- What is asked of the steps: a generation that the peer has answered is sound if a row
adopts it, a rotation does not overflow, no generation is tombstoned while a verification of
it has already looked for the tombstone, and a row that is to go does go. -/
def guard : Guard State Call Op Choice Empty where
  starts _ _ := True
  steps s call o c := match o with
    | .writeRow peer (.setPendingGeneration sessionId generation) => adopts call = true →
      ∀ r ∈ s.state.relationships.find peer,
        (RelationshipWrite.setPendingGeneration sessionId generation).selects r = true →
          Sound s.state peer generation
    | .writeRow _ .delete => c.fails = false
    | .writeRow _ (.beginGrantRotation generation) => c.fails = false ∧ fitsI64 generation = true
    | .insertTombstone peer row => ∀ x ∈ s.history.verifying,
      x.2.1 = peer → asI64 x.2.2 ≠ asI64 row.generation
    | _ => True
  events _ _ := True

structure Inv (s : State) : Prop where
  tombstones : ∀ peer, ∀ g ∈ s.state.tombstones peer, 1 ≤ g ∧ g ≤ maxGeneration
  range : ∀ peer r, s.state.relationships.find peer = some r →
    1 ≤ r.generation ∧ r.generation ≤ maxGeneration
  above : ∀ peer r, s.state.relationships.find peer = some r → s.history.closing peer = none →
    ∀ g ∈ s.state.tombstones peer, g < r.generation
  holder : ∀ peer i call, s.history.closing peer = some (i,call) →
    s.state.locks peer = some i ∧ call.peer = some peer
  verifying : ∀ i peer g, (i,peer,g) ∈ s.history.verifying → asI64 g ∉ s.state.tombstones peer
  accepted : ∀ a ∈ s.history.accepted, a.tombstoned = false

/-- What thread `i` relies on: the locks it holds, what they guard, and its verification. -/
structure Kept (i : Nat) (s t : State) : Prop where
  locks : ∀ peer, t.state.locks peer = some i ↔ s.state.locks peer = some i
  tombstones : ∀ peer, s.state.locks peer = some i → t.state.tombstones peer = s.state.tombstones peer
  closing : ∀ peer, s.state.locks peer = some i → t.history.closing peer = s.history.closing peer
  verifying : ∀ peer g, (i,peer,g) ∈ s.history.verifying → (i,peer,g) ∈ t.history.verifying

theorem Kept.refl (i : Nat) (s : State) : Kept i s s :=
  ⟨fun _ => Iff.rfl,fun _ _ => rfl,fun _ _ => rfl,fun _ _ h => h⟩

theorem Kept.trans {i : Nat} {s t u : State} (f : Kept i s t) (g : Kept i t u) : Kept i s u where
  locks peer := (g.locks peer).trans (f.locks peer)
  tombstones peer mine := (g.tombstones peer ((f.locks peer).mpr mine)).trans (f.tombstones peer mine)
  closing peer mine := (g.closing peer ((f.locks peer).mpr mine)).trans (f.closing peer mine)
  verifying peer x h := g.verifying peer x (f.verifying peer x h)

def terms : Terms State where
  known _ := True
  inv := Inv
  rely := Kept
  refl := Kept.refl
  trans i := Kept.trans (i := i)

abbrev Safely (l : Local) (i : Nat) (call : Call) {α : Type} (p : Task α) (post : α → State → Prop)
    (s : State) : Prop := Safe (machine l) guard terms i call p post s

/-! What a step does. -/

section Steps

variable {l : Local} {s t : State} {d d' : Device} {h : History} {i j : Nat} {call : Call} {c : Choice}
  {o : Op} {r : Ans o} {peer : EndpointId}

/-- What thread `i` has to know when it performs an operation. -/
def Fits (s : State) (i : Nat) (call : Call) : Op → Prop
  | .unlockPeer peer => s.state.locks peer = some i ∧ s.history.closing peer = none
  | .insertTombstone peer row => s.state.locks peer = some i ∧ call.peer = some peer ∧
    1 ≤ asI64 row.generation ∧ asI64 row.generation ≤ maxGeneration
  | .writeRow peer (.upsert e) => Sound s.state peer e.generation
  | .writeRow peer (.setPendingGeneration sessionId generation) =>
    ∀ r, s.state.relationships.find peer = some r →
      (RelationshipWrite.setPendingGeneration sessionId generation).selects r = true →
        Sound s.state peer generation
  | .writeRow peer (.beginGrantRotation generation) => Sound s.state peer generation
  | .verification peer _ generation success => success = true →
    (i,peer,generation) ∈ s.history.verifying
  | _ => True

theorem Sound.asI64 {generation : Nat} (sound : Sound d peer generation) :
    Pairing.asI64 generation = generation := asI64_fits sound.fits

theorem regenerate_generation (r : Relationship) (generation : Int) :
    (r.regenerate generation).generation = generation := by
  unfold Relationship.regenerate
  split
  · assumption
  · rfl

theorem onRow_delete (now : Millis) (r : Option Relationship) :
    RelationshipWrite.delete.onRow peer now r = none := by
  cases r <;> rfl

/-- A row keeps its generation, or gets a sound one. -/
theorem row_after {r' : Relationship} (performed : s.state.exec l i c o = some (r,d'))
    (fits : Fits s i call o) (there : d'.relationships.find peer = some r') :
    (∃ r₀, s.state.relationships.find peer = some r₀ ∧ r'.generation = r₀.generation) ∨
    ∃ g, Sound s.state peer g ∧ r'.generation = asI64 g := by
  by_cases writes : ∃ peer' w, o = .writeRow peer' w
  · obtain ⟨peer',w,rfl⟩ := writes
    rcases exec_writeRow performed with ⟨_,_,rfl⟩ | ⟨_,_,rfl⟩
    · exact .inl ⟨r',there,rfl⟩
    · rw [Relationships.find_write] at there
      split at there
      · rename_i same
        subst same
        cases here : s.state.relationships.find peer with
        | none =>
          rw [here] at there
          cases w with
          | upsert e => cases there; exact .inr ⟨e.generation,fits,rfl⟩
          | _ => cases there
        | some r₀ =>
          rw [here] at there
          simp only [RelationshipWrite.onRow] at there
          split at there
          · cases there
          · split at there <;> cases there
            · rename_i selected
              cases w with
              | upsert e => exact .inr ⟨e.generation,fits,regenerate_generation ..⟩
              | setPendingGeneration sessionId generation =>
                exact .inr ⟨generation,fits r₀ here selected,regenerate_generation ..⟩
              | beginGrantRotation generation => exact .inr ⟨generation,fits,rfl⟩
              | _ => exact .inl ⟨r₀,rfl,rfl⟩
            · exact .inl ⟨r',rfl,rfl⟩
      · exact .inl ⟨r',there,rfl⟩
  · rw [exec_relationships performed fun peer' w same => writes ⟨peer',w,same⟩] at there
    exact .inl ⟨r',there,rfl⟩

theorem tombstones_after (h : History) (call : Call) (peer : EndpointId)
    (performed : d.exec l i c o = some (r,d')) :
    d'.tombstones peer = d.tombstones peer ∨
    ∃ row, o = .insertTombstone peer row ∧
      d'.tombstones peer = (d.tombstones peer).insert (asI64 row.generation) ∧
      (record h d i call o r).closing peer = some (i,call) := by
  by_cases inserts : ∃ peer' row, o = .insertTombstone peer' row
  · obtain ⟨peer',row,rfl⟩ := inserts
    rcases exec_insertTombstone performed with ⟨_,rfl⟩ | ⟨rfl,rfl⟩
    · exact .inl rfl
    · by_cases same : peer = peer'
      · subst same
        exact .inr ⟨row,rfl,Function.update_self ..,Function.update_self ..⟩
      · exact .inl (Function.update_of_ne same ..)
  · exact .inl (congrFun (exec_tombstones performed fun peer' row same => inserts ⟨peer',row,same⟩) peer)

theorem locks_after (peer : EndpointId) (performed : d.exec l i c o = some (r,d')) :
    d'.locks peer = d.locks peer ∨
    (o = .lockPeer peer ∧ d.locks peer = none ∧ d'.locks peer = some i) ∨
    (o = .unlockPeer peer ∧ d'.locks peer = none) := by
  by_cases locks : ∃ peer', o = .lockPeer peer' ∨ o = .unlockPeer peer'
  · obtain ⟨peer',rfl | rfl⟩ := locks
    · change (if d.locks peer' = none then _ else _) = _ at performed
      split at performed
      · rename_i free
        cases performed
        by_cases same : peer = peer'
        · subst same
          exact .inr (.inl ⟨rfl,free,Function.update_self ..⟩)
        · exact .inl (Function.update_of_ne same ..)
      · cases performed
    · cases performed
      by_cases same : peer = peer'
      · subst same
        exact .inr (.inr ⟨rfl,Function.update_self ..⟩)
      · exact .inl (Function.update_of_ne same ..)
  · exact .inl (congrFun (exec_locks performed fun peer' =>
      ⟨fun same => locks ⟨peer',.inl same⟩,fun same => locks ⟨peer',.inr same⟩⟩) peer)

theorem closed_cases (h : History) (i : Nat) (peer peer' : EndpointId) :
    (h.closed i peer').closing peer = h.closing peer ∨
    peer = peer' ∧ (h.closing peer).map (·.1) = some i ∧ (h.closed i peer').closing peer = none := by
  unfold History.closed
  split
  · rename_i mine
    by_cases same : peer = peer'
    · subst same
      exact .inr ⟨rfl,mine,Function.update_self ..⟩
    · exact .inl (Function.update_of_ne same ..)
  · exact .inl rfl

/-- A row is closed by the thread that is closing it, and is then gone or rotated. -/
theorem closing_after (h : History) (call : Call) (peer : EndpointId)
    (performed : d.exec l i c o = some (r,d')) :
    (record h d i call o r).closing peer = h.closing peer ∨
    (∃ row, o = .insertTombstone peer row ∧ (record h d i call o r).closing peer = some (i,call)) ∨
    ((h.closing peer).map (·.1) = some i ∧ (record h d i call o r).closing peer = none ∧
      ∀ r', d'.relationships.find peer = some r' →
        ∃ g, o = .writeRow peer (.beginGrantRotation g) ∧ r'.generation = asI64 g) := by
  unfold record
  split
  · rename_i peer' row _
    by_cases same : peer = peer'
    · subst same
      exact .inr (.inl ⟨row,rfl,Function.update_self ..⟩)
    · exact .inl (Function.update_of_ne same ..)
  · rename_i peer' _
    rcases closed_cases h i peer peer' with same | ⟨rfl,mine,closed⟩
    · exact .inl same
    · refine .inr (.inr ⟨mine,closed,fun r' there => ?_⟩)
      rcases exec_writeRow performed with ⟨_,failed,_⟩ | ⟨_,_,rfl⟩
      · cases failed
      · rw [Relationships.find_write,if_pos rfl,onRow_delete] at there
        cases there
  · rename_i peer' g _
    rcases closed_cases h i peer peer' with same | ⟨rfl,mine,closed⟩
    · exact .inl same
    · refine .inr (.inr ⟨mine,closed,fun r' there => ⟨g,rfl,?_⟩⟩)
      rcases exec_writeRow performed with ⟨_,failed,_⟩ | ⟨_,_,rfl⟩
      · cases failed
      · rw [Relationships.find_write,if_pos rfl] at there
        cases here : d.relationships.find peer <;> rw [here] at there <;> cases there
        rfl
  · split <;> exact .inl rfl
  · exact .inl rfl
  · exact .inl rfl

theorem exec_findTombstone {g : Nat} {r : Except VnidropError Bool}
    (h : d.exec l i c (.findTombstone peer g) = some (r,d')) :
    d' = d ∧ ∀ found, r = .ok found → found = decide (asI64 g ∈ d.tombstones peer) := by
  change Device.read d c _ = _ at h
  unfold Device.read at h
  cases h
  refine ⟨rfl,fun row fine => ?_⟩
  split at fine <;> cases fine
  rfl

/-- A verification goes on from a generation without a tombstone. -/
theorem verifying_after {g : Nat} (performed : d.exec l i c o = some (r,d'))
    (there : (j,peer,g) ∈ (record h d i call o r).verifying) :
    (j,peer,g) ∈ h.verifying ∨ (o = .findTombstone peer g ∧ asI64 g ∉ d.tombstones peer) := by
  unfold record at there
  split at there
  · exact .inl there
  · unfold History.closed at there
    split at there <;> exact .inl there
  · unfold History.closed at there
    split at there <;> exact .inl there
  · split at there
    · rcases List.mem_cons.mp there with same | before
      · cases same
        exact .inr ⟨rfl,of_decide_eq_false ((exec_findTombstone performed).2 false rfl).symm⟩
      · exact .inl before
    · exact .inl there
  · exact .inl (List.mem_of_mem_filter there)
  · exact .inl there

theorem accepted_after {a : Acceptance} (there : a ∈ (record h d i call o r).accepted) :
    a ∈ h.accepted ∨ ∃ peer challenge g, o = .verification peer challenge g true ∧
      a = ⟨peer,g,asI64 g ∈ d.tombstones peer⟩ := by
  unfold record at there
  split at there
  · exact .inl there
  · unfold History.closed at there
    split at there <;> exact .inl there
  · unfold History.closed at there
    split at there <;> exact .inl there
  · split at there <;> exact .inl there
  · rename_i peer challenge g success _
    cases success with
    | false => exact .inl there
    | true =>
      rcases List.mem_cons.mp there with same | before
      · exact .inr ⟨peer,challenge,g,rfl,same⟩
      · exact .inl before
  · exact .inl there

theorem Inv.step (inv : Inv s) (ok : guard.steps s call o c) (fits : Fits s i call o)
    (h : (machine l).exec s i call o c = some (r,t)) : Inv t := by
  obtain ⟨d,performed,rfl⟩ := domain_exec h
  refine ⟨fun peer g tombstone => ?_,fun peer r' there => ?_,fun peer r' there clear g tombstone => ?_,
    fun peer j call' closing => ?_,fun j peer g verifying tombstone => ?_,fun a there => ?_⟩
  · rcases tombstones_after s.history call peer performed with same | ⟨row,rfl,added,_⟩
    · exact inv.tombstones peer g (same ▸ tombstone)
    · rw [added] at tombstone
      rcases List.mem_insert_iff.mp tombstone with rfl | before
      · exact fits.2.2
      · exact inv.tombstones peer g before
  · rcases row_after performed fits there with ⟨r₀,here,same⟩ | ⟨g,sound,fresh⟩
    · rw [same]
      exact inv.range peer r₀ here
    · rw [fresh,sound.asI64]
      have positive := sound.positive
      have small : g < 9223372036854775808 := of_decide_eq_true sound.fits
      unfold maxGeneration
      omega
  · rcases tombstones_after s.history call peer performed with same | ⟨_,_,_,closing⟩
    · rw [same] at tombstone
      rcases row_after performed fits there with ⟨r₀,here,kept⟩ | ⟨g',sound,fresh⟩
      · rcases closing_after s.history call peer performed with same' | ⟨_,_,closing⟩ |
          ⟨_,_,rotated⟩
        · rw [kept]
          exact inv.above peer r₀ here (same'.symm.trans clear) g tombstone
        · cases clear.symm.trans closing
        · obtain ⟨g',rfl,fresh⟩ := rotated r' there
          rw [fresh,Sound.asI64 fits]
          exact fits.above g tombstone
      · rw [fresh,sound.asI64]
        exact sound.above g tombstone
    · cases clear.symm.trans closing
  · rcases closing_after s.history call peer performed with same |
      ⟨row,rfl,closed⟩ | ⟨_,closed,_⟩
    · obtain ⟨held,concerns⟩ := inv.holder peer j call' (same.symm.trans closing)
      refine ⟨?_,concerns⟩
      rcases locks_after peer performed with same | ⟨_,free,_⟩ | ⟨rfl,_⟩
      · exact same.trans held
      · cases free.symm.trans held
      · cases fits.2.symm.trans (same.symm.trans closing)
    · cases closed.symm.trans closing
      refine ⟨?_,fits.2.1⟩
      rcases locks_after peer performed with same | ⟨locks,_⟩ | ⟨unlocks,_⟩
      · exact same.trans fits.1
      · cases locks
      · cases unlocks
    · cases closed.symm.trans closing
  · rcases verifying_after performed verifying with before | ⟨rfl,clear⟩
    · have clear := inv.verifying j peer g before
      rcases tombstones_after s.history call peer performed with same |
        ⟨row,rfl,added,_⟩
      · exact clear (same ▸ tombstone)
      · rw [added] at tombstone
        rcases List.mem_insert_iff.mp tombstone with same | old
        · exact ok _ before rfl same
        · exact clear old
    · obtain ⟨rfl,_⟩ := exec_findTombstone performed
      exact clear tombstone
  · rcases accepted_after there with before | ⟨peer,challenge,g,rfl,rfl⟩
    · exact inv.accepted a before
    · exact decide_eq_false (inv.verifying i peer g (fits rfl))

/-- What the other threads rely on. -/
theorem Kept.step (inv : Inv s) (fits : Fits s i call o)
    (h : (machine l).exec s i call o c = some (r,t)) (other : j ≠ i) : Kept j s t := by
  obtain ⟨d,performed,rfl⟩ := domain_exec h
  refine ⟨fun peer => ?_,fun peer mine => ?_,fun peer mine => ?_,fun peer g verifying => ?_⟩
  · rcases locks_after peer performed with same | ⟨_,free,locked⟩ | ⟨rfl,unlocked⟩
    · simp only [same]
    · simp [free,locked,other.symm]
    · simp [fits.1,unlocked,other.symm]
  · rcases tombstones_after s.history call peer performed with same |
      ⟨row,rfl,_,_⟩
    · exact same
    · exact absurd (Option.some.inj (mine.symm.trans fits.1)) other
  · rcases closing_after s.history call peer performed with same |
      ⟨row,rfl,_⟩ | ⟨closing,_,_⟩
    · exact same
    · exact absurd (Option.some.inj (mine.symm.trans fits.1)) other
    · obtain ⟨⟨_,call'⟩,here,rfl⟩ := Option.map_eq_some_iff.mp closing
      exact absurd (Option.some.inj (mine.symm.trans (inv.holder peer _ call' here).1)) other
  · change (j,peer,g) ∈ (record s.history s.state i call o r).verifying
    unfold record
    split
    · exact verifying
    · unfold History.closed
      split <;> exact verifying
    · unfold History.closed
      split <;> exact verifying
    · split
      · exact List.mem_cons_of_mem _ verifying
      · exact verifying
    · exact List.mem_filter.mpr ⟨verifying,decide_eq_true other⟩
    · exact verifying

end Steps

/-! What a thread knows between its own operations. -/

section Own

variable {l : Local} {s t : State} {i : Nat} {call : Call} {c : Choice} {o : Op} {r : Ans o}
  {peer : EndpointId} {g : Nat}

/-- The operations that change a lock, what it guards, or the verification of their thread. -/
abbrev moving : List Kind := [.lockPeer,.unlockPeer,.insertTombstone,.deleteRow,.beginGrantRotation,
  .verification]

/-- Those that need to know something. -/
abbrev restricted : List Kind := [.lockPeer,.unlockPeer,.insertTombstone,.upsert,
  .setPendingGeneration,.beginGrantRotation,.verification]

theorem locks_same (h : (machine l).exec s i call o c = some (r,t))
    (apart : [Kind.lockPeer,.unlockPeer].contains o.kind = false) : t.state.locks = s.state.locks := by
  obtain ⟨d,performed,rfl⟩ := domain_exec h
  refine exec_locks performed fun peer => ⟨?_,?_⟩ <;> rintro rfl <;> cases apart

theorem Kept.own (h : (machine l).exec s i call o c = some (r,t))
    (apart : moving.contains o.kind = false) : Kept i s t := by
  have locks : t.state.locks = s.state.locks := by
    refine locks_same h ?_
    cases o with
    | writeRow peer w => cases w <;> rfl
    | lockPeer | unlockPeer => cases apart
    | _ => rfl
  obtain ⟨d,performed,rfl⟩ := domain_exec h
  have tombstones : d.tombstones = s.state.tombstones :=
    exec_tombstones performed fun peer row same => by
      subst same
      cases apart
  refine ⟨fun peer => by rw [locks],fun peer _ => congrFun tombstones peer,fun peer _ => ?_,
    fun peer g verifying => ?_⟩
  · change (record s.history s.state i call o r).closing peer = _
    unfold record
    split
    · cases apart
    · cases apart
    · cases apart
    · split <;> rfl
    · cases apart
    · rfl
  · change (i,peer,g) ∈ (record s.history s.state i call o r).verifying
    unfold record
    split
    · exact verifying
    · cases apart
    · cases apart
    · split
      · exact List.mem_cons_of_mem _ verifying
      · exact verifying
    · cases apart
    · exact verifying

/-- The thread holds no lock. -/
def Loose (i : Nat) (s : State) : Prop := ∀ peer, s.state.locks peer ≠ some i

/-- The thread holds the lock of the peer and no other. -/
def Locked (i : Nat) (peer : EndpointId) (s : State) : Prop :=
  ∀ q, s.state.locks q = some i ↔ q = peer

/-- It holds the lock and is not closing the row. -/
structure Held (i : Nat) (peer : EndpointId) (s : State) : Prop where
  locked : Locked i peer s
  clear : s.history.closing peer = none

theorem Kept.loose (kept : Kept i s t) (loose : Loose i s) : Loose i t :=
  fun peer mine => loose peer ((kept.locks peer).mp mine)

theorem Kept.locked (kept : Kept i s t) (locked : Locked i peer s) : Locked i peer t :=
  fun q => (kept.locks q).trans (locked q)

theorem Locked.mine (locked : Locked i peer s) : s.state.locks peer = some i := (locked peer).mpr rfl

theorem Kept.held (kept : Kept i s t) (held : Held i peer s) : Held i peer t :=
  ⟨kept.locked held.locked,(kept.closing peer held.locked.mine).trans held.clear⟩

theorem Kept.sound (kept : Kept i s t) (held : Held i peer s) (sound : Sound s.state peer g) :
    Sound t.state peer g :=
  ⟨sound.positive,sound.fits,by rw [kept.tombstones peer held.locked.mine]; exact sound.above⟩

theorem Sound.max {d : Device} {g' : Nat} (sound : Sound d peer g) (fits : fitsI64 g' = true) :
    Sound d peer (max g g') where
  positive := Nat.le_trans sound.positive (Nat.le_max_left g g')
  fits := by
    rcases Nat.le_total g g' with le | le
    · rwa [Nat.max_eq_right le]
    · rw [Nat.max_eq_left le]
      exact sound.fits
  above x tombstone := by
    have below := sound.above x tombstone
    have larger := Nat.le_max_left g g'
    omega

/-- The generation of a row that is not being closed. -/
theorem Inv.sound (inv : Inv s) (clear : s.history.closing peer = none) {r : Relationship}
    (here : s.state.relationships.find peer = some r) : Sound s.state peer r.row.generation := by
  obtain ⟨positive,small⟩ := inv.range peer r here
  have same : (asU64 r.generation : Int) = r.generation := asU64_range positive small
  refine ⟨?_,decide_eq_true ?_,fun g tombstone => ?_⟩
  · change 1 ≤ asU64 r.generation
    omega
  · change asU64 r.generation < 9223372036854775808
    unfold maxGeneration at small
    omega
  · change g < (asU64 r.generation : Int)
    rw [same]
    exact inv.above peer r here clear g tombstone

theorem Inv.floor (inv : Inv s) {g : Int} (tombstone : g ∈ s.state.tombstones peer) :
    g ≤ (s.state.generationFloor peer : Int) := by
  unfold Device.generationFloor
  have ranged : ∀ x ∈ ((s.state.relationships.find peer).map (·.generation)).toList ++
      s.state.tombstones peer, 1 ≤ x ∧ x ≤ maxGeneration := by
    intro x member
    rcases List.mem_append.mp member with row | tombstone
    · obtain ⟨r,here,rfl⟩ := Option.map_eq_some_iff.mp (Option.mem_toList.mp row)
      exact inv.range peer r here
    · exact inv.tombstones peer x tombstone
  have among := List.mem_append_right
    ((s.state.relationships.find peer).map (·.generation)).toList tombstone
  generalize ((s.state.relationships.find peer).map (·.generation)).toList ++
    s.state.tombstones peer = all at ranged among
  cases largest : all.max? with
  | none =>
    rw [List.max?_eq_none_iff.mp largest] at among
    cases among
  | some x =>
    obtain ⟨member,bound⟩ := List.max?_eq_some_iff.mp largest
    obtain ⟨positive,small⟩ := ranged x member
    rw [Option.getD_some,asU64_range positive small]
    exact bound g among

end Own

/-! The programs. -/

section Calls

variable {α β : Type} {l : Local} {s : State} {i : Nat} {call : Call} {peer : EndpointId}

abbrev Looses (l : Local) (i : Nat) (call : Call) (p : Task α) : Prop :=
  Keeps (machine l) guard terms i call (Loose i) p

abbrev Holds (l : Local) (i : Nat) (call : Call) (peer : EndpointId) (p : Task α) : Prop :=
  Keeps (machine l) guard terms i call (Held i peer) p

theorem fits_aside {o : Op} (apart : restricted.contains o.kind = false) : Fits s i call o := by
  cases o with
  | writeRow peer w => cases w <;> first | exact trivial | cases apart
  | unlockPeer | insertTombstone | verification => cases apart
  | _ => trivial

theorem quiet_op {o : Op} (apart : (restricted ++ moving).contains o.kind = false) :
    Quiet (machine l) guard terms i call o := by
  obtain ⟨free,still⟩ : restricted.contains o.kind = false ∧ moving.contains o.kind = false := by
    rwa [List.contains_append,Bool.or_eq_false_iff] at apart
  intro t _ inv c r u ok performed
  have fits : Fits t i call o := fits_aside free
  refine ⟨inv.step ok fits performed,fun j => ?_⟩
  by_cases own : j = i
  · subst own
    exact Kept.own performed still
  · exact Kept.step inv fits performed own

/-- A program that does nothing of what matters. -/
theorem safe_aside {p : Task α} (apart : Avoids (restricted ++ moving) p) (s : State) :
    Safely l i call p (fun _ t => Kept i s t) s := by
  refine safe_quiet ?_ s
  induction p with
  | ret a => trivial
  | step o k ih => exact ⟨quiet_op apart.1,fun r => ih r (apart.2 r)⟩

theorem holds_aside {p : Task α} (apart : Avoids (restricted ++ moving) p) : Holds l i call peer p :=
  fun s held => safe_mono (fun _ _ kept => kept.held held) (safe_aside apart s)

/-- Without a lock even the deletion of a row is harmless. -/
theorem looses_aside {p : Task α} (apart : Avoids restricted p) : Looses l i call p := by
  induction p with
  | ret a => exact fun _ loose => loose
  | step o k ih =>
    intro s loose t _ inv kept c r u ok performed
    have fits : Fits t i call o := fits_aside apart.1
    refine ⟨⟨inv.step ok fits performed,fun j other => Kept.step inv fits performed other⟩,?_⟩
    refine ih r (apart.2 r) u fun peer mine => ?_
    have locks := locks_same performed (by
      cases o with
      | lockPeer | unlockPeer => cases apart.1
      | writeRow peer w => cases w <;> rfl
      | _ => rfl)
    rw [locks] at mine
    exact kept.loose loose peer mine

/-- An operation that is fitting. -/
theorem safe_fitting {o : Op} (apart : moving.contains o.kind = false)
    (fits : ∀ t, Kept i s t → Inv t → Fits t i call o) :
    Safely l i call (op o) (fun _ t => Kept i s t) s := by
  intro t _ inv kept c r u ok performed
  have fits := fits t kept inv
  exact ⟨⟨inv.step ok fits performed,fun j other => Kept.step inv fits performed other⟩,
    kept.trans (Kept.own performed apart)⟩

theorem safe_lock (loose : Loose i s) :
    Safely l i call (op (.lockPeer peer)) (fun _ t => Held i peer t) s := by
  intro t _ inv kept c r u ok performed
  have fits : Fits t i call (.lockPeer peer) := trivial
  refine ⟨⟨inv.step ok fits performed,fun j other => Kept.step inv fits performed other⟩,?_⟩
  replace loose := kept.loose loose
  obtain ⟨d,locks,rfl⟩ := domain_exec performed
  change (if t.state.locks peer = none then _ else _) = _ at locks
  split at locks
  · rename_i free
    cases locks
    refine ⟨fun q => ?_,?_⟩
    · change Function.update t.state.locks peer (some i) q = some i ↔ q = peer
      by_cases same : q = peer
      · subst same
        simp
      · rw [Function.update_of_ne same]
        exact ⟨fun mine => absurd mine (loose q),fun h => absurd h same⟩
    · cases closing : t.history.closing peer with
      | none => exact closing
      | some x => cases free.symm.trans (inv.holder peer x.1 x.2 closing).1
  · cases locks

theorem safe_unlock (held : Held i peer s) :
    Safely l i call (op (.unlockPeer peer)) (fun _ t => Loose i t) s := by
  intro t _ inv kept c r u ok performed
  replace held := kept.held held
  have fits : Fits t i call (.unlockPeer peer) := ⟨held.locked.mine,held.clear⟩
  refine ⟨⟨inv.step ok fits performed,fun j other => Kept.step inv fits performed other⟩,?_⟩
  obtain ⟨d,unlocks,rfl⟩ := domain_exec performed
  cases unlocks
  intro q mine
  change Function.update t.state.locks peer none q = some i at mine
  by_cases same : q = peer
  · subst same
    rw [Function.update_self] at mine
    cases mine
  · rw [Function.update_of_ne same] at mine
    exact same ((held.locked q).mp mine)

/-- The lock is taken for a part of a call. -/
theorem looses_locked {p : Task α} {f : α → Task β} (inside : Holds l i call peer p)
    (rest : ∀ a, Looses l i call (f a)) : Looses l i call (do
      op (.lockPeer peer)
      let a ← p
      op (.unlockPeer peer)
      f a) := by
  intro s loose
  refine safe_bind (safe_mono (fun _ t held => ?_) (safe_lock loose))
  refine safe_bind (safe_mono (fun a u held => ?_) (inside t held))
  exact safe_bind (safe_mono (fun _ v loose => rest a v loose) (safe_unlock held))

theorem closed_clear (inv : Inv s) (locked : Locked i peer s) :
    (s.history.closed i peer).closing peer = none := by
  unfold History.closed
  cases closing : s.history.closing peer with
  | none => exact closing
  | some x =>
    have mine : x.1 = i :=
      Option.some.inj ((inv.holder peer x.1 x.2 closing).1.symm.trans locked.mine)
    rw [Option.map_some,mine,if_pos rfl]
    exact Function.update_self ..

/-- A deletion under the lock completes what its thread has begun. -/
theorem safe_delete (locked : Locked i peer s) :
    Safely l i call (write peer .delete) (fun _ t => Held i peer t) s := by
  intro t _ inv kept c r u ok performed
  replace locked := kept.locked locked
  have fits : Fits t i call (.writeRow peer .delete) := trivial
  refine ⟨⟨inv.step ok fits performed,fun j other => Kept.step inv fits performed other⟩,?_⟩
  have locks := locks_same performed rfl
  refine ⟨fun q => by rw [locks]; exact locked q,?_⟩
  obtain ⟨d,deletes,rfl⟩ := domain_exec performed
  rcases exec_writeRow deletes with ⟨failed,_,_⟩ | ⟨_,rfl,_⟩
  · cases failed.symm.trans ok
  · exact closed_clear inv locked

theorem safe_deleteRelationship (locked : Locked i peer s) :
    Safely l i call (deleteRelationship l peer) (fun _ t => Held i peer t) s := by
  refine safe_bind (safe_mono (fun found t kept => ?_) (safe_aside (Prog.all_perform rfl) s))
  replace locked := kept.locked locked
  dsimp only
  split
  · exact safe_bind (safe_mono (fun _ _ kept => safe_delete (kept.locked locked))
      (safe_aside ((clearGrantSecrets_uses _).avoids rfl) t))
  · exact safe_delete locked

/-- The row, read under its lock. -/
theorem safe_findRow (held : Held i peer s) :
    Safely l i call (op (.findRow peer)) (fun found t => Held i peer t ∧
      ∀ row, found = .ok (some row) → Sound t.state peer row.generation) s := by
  intro t _ inv kept c r u ok performed
  have fits : Fits t i call (.findRow peer) := trivial
  refine ⟨⟨inv.step ok fits performed,fun j other => Kept.step inv fits performed other⟩,?_⟩
  have own := Kept.own performed rfl
  refine ⟨own.held (kept.held held),?_⟩
  rintro row rfl
  obtain ⟨d,reads,rfl⟩ := domain_exec performed
  obtain ⟨rfl,found⟩ := exec_findRow reads
  obtain ⟨r,here,rfl⟩ := Option.map_eq_some_iff.mp (found _ rfl).symm
  exact inv.sound (kept.held held).clear here

theorem safe_nextGeneration (held : Held i peer s) :
    Safely l i call (nextGeneration peer) (fun found t => Held i peer t ∧
      ∀ g, found = .ok g → Sound t.state peer g) s := by
  refine safe_andThen fun t _ inv kept c r u ok performed => ?_
  have fits : Fits t i call (.generationFloor peer) := trivial
  refine ⟨⟨inv.step ok fits performed,fun j other => Kept.step inv fits performed other⟩,?_⟩
  replace held := (Kept.own performed rfl).held (kept.held held)
  refine ⟨?_,fun _ _ => ⟨held,fun _ => nofun⟩⟩
  rintro floor rfl
  obtain ⟨d,reads,rfl⟩ := domain_exec performed
  obtain ⟨rfl,rfl⟩ : d = t.state ∧ floor = t.state.generationFloor peer := by
    change Device.read t.state c _ = _ at reads
    unfold Device.read at reads
    split at reads <;> cases reads
    exact ⟨rfl,rfl⟩
  split
  · rename_i fits
    obtain ⟨_,fits⟩ := Bool.and_eq_true_iff.mp fits
    refine ⟨held,fun g fine => ?_⟩
    cases fine
    refine ⟨Nat.le_add_left ..,fits,fun g tombstone => ?_⟩
    have below := inv.floor tombstone
    omega
  · exact ⟨held,fun _ => nofun⟩

theorem holds_beginPairing : Holds l i call peer (beginPairing l peer) := by
  refine keeps_andThen (holds_aside (Prog.all_perform rfl)) fun existing => ?_
  split
  · exact keeps_pure
  refine keeps_andThen (holds_aside (canCreate_uses.avoids rfl)) fun room => ?_
  split
  · exact keeps_pure
  refine keeps_andThen (holds_aside (takeEligibility_uses.avoids rfl)) fun taken => ?_
  cases taken with
  | none => exact keeps_pure
  | some taken =>
    intro s held
    refine safe_andThen (safe_mono (fun found t both => ⟨fun g fine => ?_,fun _ _ => both.1⟩)
      (safe_nextGeneration held))
    obtain ⟨held,sound⟩ := both
    replace sound := sound g fine
    refine safe_bind (safe_mono (fun now u kept => ?_) (safe_aside (Prog.all_perform rfl) t))
    replace sound := kept.sound held sound
    replace held := kept.held held
    refine safe_andThen (safe_mono (fun found v kept => ⟨fun existing _ => ?_,fun _ _ =>
      kept.held held⟩) (safe_aside (Prog.all_perform rfl) u))
    replace sound := kept.sound held sound
    replace held := kept.held held
    refine safe_andThen (safe_mono (fun written w kept => ⟨fun _ _ => ?_,fun _ _ =>
      kept.held held⟩) (safe_fitting rfl fun x kept _ => kept.sound held sound))
    replace held := kept.held held
    split <;> exact held

theorem holds_joinPending (request : PairingRequest) {existing : RelationshipRow}
    (fits : fitsI64 request.generation = true) {s : State} (held : Held i peer s)
    (sound : Sound s.state peer existing.generation) :
    Safely l i call (joinPending peer existing request) (fun _ t => Held i peer t) s := by
  refine safe_bind (safe_mono (fun written t kept => ?_) (safe_fitting rfl fun x kept _ _ _ _ =>
    (kept.sound held sound).max fits))
  replace held := kept.held held
  split <;> exact held

theorem holds_acceptRequest (request : PairingRequest) :
    Holds l i call peer (acceptRequest l peer request) := by
  unfold acceptRequest
  split
  · exact keeps_pure
  split
  · exact keeps_pure
  refine keeps_bind (holds_aside ((validate_uses _ _).avoids rfl)) fun entry => ?_
  split
  · refine keeps_bind (holds_aside (canCreate_uses.avoids rfl)) fun room => ?_
    split
    · intro s held
      refine safe_bind (safe_mono (fun found t both => ?_) (safe_nextGeneration held))
      obtain ⟨held,sound⟩ := both
      split
      · rename_i g
        dsimp only
        split
        · exact held
        rename_i fits
        replace sound : Sound t.state peer (max request.generation g) := by
          have sound := sound g rfl
          refine ⟨Nat.le_trans sound.positive (Nat.le_max_right ..),?_,fun x tombstone => ?_⟩
          · simpa using fits
          · have below := sound.above x tombstone
            have larger := Nat.le_max_right request.generation g
            omega
        refine safe_bind (safe_mono (fun now u kept => ?_) (safe_aside (Prog.all_perform rfl) t))
        replace sound := kept.sound held sound
        replace held := kept.held held
        refine safe_bind (safe_mono (fun written w kept => ?_)
          (safe_fitting rfl fun x kept _ => kept.sound held sound))
        replace held := kept.held held
        split <;> exact held
      · exact held
    · exact keeps_pure
  · exact keeps_pure

theorem holds_answerRequest (request : PairingRequest) :
    Holds l i call peer (answerRequest l peer request) := by
  unfold answerRequest
  split
  · exact keeps_pure
  rename_i fine
  have fits : fitsI64 request.generation = true := by
    simp only [Bool.or_eq_true,not_or,Bool.not_eq_true,Bool.not_eq_false'] at fine
    exact fine.2
  have accepts : Holds l i call peer
      (do return (← acceptRequest l peer request,none) : Task (PairingRequestResponse × Option Nat)) :=
    keeps_bind (holds_acceptRequest request) fun _ => keeps_pure
  intro s held
  refine safe_bind (safe_mono (fun found t both => ?_) (safe_findRow held))
  obtain ⟨held,sound⟩ := both
  split
  · rename_i existing
    have joins : Safely l i call (joinPending peer existing request) (fun _ t => Held i peer t) t :=
      holds_joinPending request fits held (sound existing rfl)
    split
    · exact held
    split
    · refine safe_bind (safe_mono (fun joined u held => ?_) joins)
      split <;> exact held
    split
    · refine safe_bind (safe_mono (fun joined u held => ?_) joins)
      split <;> exact held
    · exact accepts t held
  · exact accepts t held

theorem safe_insertTombstone (concerns : call.peer = some peer) {row : RelationshipRow}
    (held : Held i peer s) (sound : Sound s.state peer row.generation) :
    Safely l i call (op (.insertTombstone peer row)) (fun r t => Locked i peer t ∧
      (∀ e, r = .error e → Held i peer t) ∧
      ∀ g ∈ t.state.tombstones peer, g ≤ row.generation) s := by
  intro t _ inv kept c r u ok performed
  replace sound := kept.sound held sound
  replace held := kept.held held
  have positive := sound.positive
  have small : row.generation < 9223372036854775808 := of_decide_eq_true sound.fits
  have fits : Fits t i call (.insertTombstone peer row) := by
    refine ⟨held.locked.mine,concerns,?_,?_⟩ <;> rw [sound.asI64]
    · omega
    · unfold maxGeneration
      omega
  refine ⟨⟨inv.step ok fits performed,fun j other => Kept.step inv fits performed other⟩,?_⟩
  have locks := locks_same performed rfl
  refine ⟨fun q => by rw [locks]; exact held.locked q,?_,?_⟩
  · rintro e rfl
    obtain ⟨d,_,rfl⟩ := domain_exec performed
    exact ⟨fun q => by rw [locks]; exact held.locked q,held.clear⟩
  · obtain ⟨d,inserts,rfl⟩ := domain_exec performed
    intro g tombstone
    rcases exec_insertTombstone inserts with ⟨_,rfl⟩ | ⟨_,rfl⟩
    · exact Int.le_of_lt (sound.above g tombstone)
    · change g ∈ Function.update t.state.tombstones peer _ peer at tombstone
      rw [Function.update_self] at tombstone
      rcases List.mem_insert_iff.mp tombstone with rfl | before
      · exact Int.le_of_eq sound.asI64
      · exact Int.le_of_lt (sound.above g before)

theorem holds_revokeRelationship (concerns : call.peer = some peer) :
    Holds l i call peer (revokeRelationship l peer) := by
  intro s held
  refine safe_andThen (safe_mono (fun found t both => ⟨fun row fine => ?_,fun _ _ => both.1⟩)
    (safe_findRow held))
  obtain ⟨held,sound⟩ := both
  cases row with
  | none => exact safe_andThen (safe_mono (fun _ _ kept => ⟨fun _ _ => kept.held held,fun _ _ =>
      kept.held held⟩) (safe_aside (removeForPeer_uses.avoids rfl) t))
  | some row =>
    refine safe_andThen (safe_mono (fun inserted u all => ⟨fun _ _ => ?_,fun e failed =>
      all.2.1 e failed⟩) (safe_insertTombstone concerns held (sound row fine)))
    refine safe_andThen (safe_mono (fun _ v held => ⟨fun _ _ => ?_,fun _ _ => held⟩)
      (safe_deleteRelationship all.1))
    exact safe_andThen (safe_mono (fun _ _ kept => ⟨fun _ _ => kept.held held,fun _ _ =>
      kept.held held⟩) (safe_aside (removeForPeer_uses.avoids rfl) v))

theorem safe_rotate {g : Nat} (locked : Locked i peer s)
    (above : ∀ x ∈ s.state.tombstones peer, x < g) (positive : 1 ≤ g) :
    Safely l i call (write peer (.beginGrantRotation g)) (fun _ t => Held i peer t) s := by
  intro t _ inv kept c r u ok performed
  replace above : ∀ x ∈ t.state.tombstones peer, x < g := by
    rw [kept.tombstones peer locked.mine]
    exact above
  replace locked := kept.locked locked
  have fits : Fits t i call (.writeRow peer (.beginGrantRotation g)) := ⟨positive,ok.2,above⟩
  refine ⟨⟨inv.step ok fits performed,fun j other => Kept.step inv fits performed other⟩,?_⟩
  have locks := locks_same performed rfl
  refine ⟨fun q => by rw [locks]; exact locked q,?_⟩
  obtain ⟨d,rotates,rfl⟩ := domain_exec performed
  rcases exec_writeRow rotates with ⟨failed,_,_⟩ | ⟨_,rfl,_⟩
  · cases failed.symm.trans ok.1
  · exact closed_clear inv locked

theorem holds_rotateLocked (concerns : call.peer = some peer) :
    Holds l i call peer (rotateLocked l peer) := by
  intro s held
  refine safe_andThen (safe_mono (fun found t both => ⟨fun row fine => ?_,fun _ _ => both.1⟩)
    (safe_findRow held))
  obtain ⟨held,sound⟩ := both
  cases row with
  | none => exact held
  | some row =>
    dsimp only
    split
    · exact held
    have sound := sound row fine
    refine safe_andThen (safe_mono (fun inserted u all => ⟨fun _ _ => ?_,fun e failed =>
      all.2.1 e failed⟩) (safe_insertTombstone concerns held sound))
    obtain ⟨locked,_,below⟩ := all
    refine safe_bind (safe_mono (fun _ v kept => ?_)
      (safe_aside ((clearGrantSecrets_uses row).avoids rfl) u))
    have small : row.generation < 9223372036854775808 := of_decide_eq_true sound.fits
    have next : min (row.generation + 1) 18446744073709551615 = row.generation + 1 := by omega
    rw [next]
    refine safe_andThen (safe_mono (fun _ w held => ⟨fun _ _ => ?_,fun _ _ => held⟩)
      (safe_rotate (kept.locked locked) (fun x tombstone => ?_) (Nat.le_add_left ..)))
    · exact safe_andThen (safe_mono (fun _ _ kept => ⟨fun _ _ => kept.held held,fun _ _ =>
        kept.held held⟩) (safe_aside ((mint_uses _ _).avoids rfl) w))
    · rw [kept.tombstones peer locked.mine] at tombstone
      have := below x tombstone
      omega

theorem holds_revokeNoticed (concerns : call.peer = some peer) (generation : Nat) :
    Holds l i call peer (revokeNoticed l peer generation) := by
  intro s held
  refine safe_bind (safe_mono (fun found t both => ?_) (safe_findRow held))
  obtain ⟨held,sound⟩ := both
  split
  · rename_i row
    have sound := sound row rfl
    refine safe_bind (safe_mono (fun stale u kept => ?_)
      (safe_aside ((staleNotice_uses row generation).avoids rfl) t))
    replace sound := kept.sound held sound
    replace held := kept.held held
    split
    · exact held
    · refine safe_bind (safe_mono (fun inserted v all => ?_) (safe_insertTombstone concerns held sound))
      refine safe_bind (safe_mono (fun _ w held => ?_) (safe_deleteRelationship all.1))
      exact safe_bind (safe_mono (fun _ _ kept => kept.held held)
        (safe_aside (removeForPeer_uses.avoids rfl) w))
  · exact held

/-! Outside the lock: proofs, and the generations of answers. -/

theorem safe_rejectReplayed (checks : checksProofs call = true) (generation : Nat) (s : State) :
    Safely l i call (rejectReplayedGeneration peer generation) (fun rejection t => Kept i s t ∧
      (rejection = none → (i,peer,generation) ∈ t.history.verifying)) s := by
  intro t _ inv kept c r u ok performed
  have fits : Fits t i call (.findTombstone peer generation) := trivial
  refine ⟨⟨inv.step ok fits performed,fun j other => Kept.step inv fits performed other⟩,?_⟩
  replace kept := kept.trans (Kept.own performed rfl)
  rcases r with e | _ | _
  · exact ⟨kept,nofun⟩
  · have verifying : (i,peer,generation) ∈ u.history.verifying := by
      obtain ⟨d,_,rfl⟩ := domain_exec performed
      change _ ∈ (if checksProofs call then _ else _ : History).verifying
      rw [if_pos checks]
      exact List.mem_cons_self
    refine safe_bind (p := op (.findRow peer)) (safe_mono (fun found v later => ?_)
      (safe_aside (Prog.all_perform rfl) u))
    replace verifying := later.verifying _ _ verifying
    replace kept := kept.trans later
    split
    · split
      · exact ⟨kept,fun _ => verifying⟩
      · exact ⟨kept,nofun⟩
    · exact ⟨kept,nofun⟩
  · exact ⟨kept,nofun⟩

theorem looses_verification {challenge : Text} {generation : Nat} {success : Bool} (loose : Loose i s)
    (verifying : success = true → (i,peer,generation) ∈ s.history.verifying) :
    Safely l i call (op (.verification peer challenge generation success)) (fun _ t => Loose i t) s := by
  intro t _ inv kept c r u ok performed
  have fits : Fits t i call (.verification peer challenge generation success) :=
    fun succeeds => kept.verifying _ _ (verifying succeeds)
  refine ⟨⟨inv.step ok fits performed,fun j other => Kept.step inv fits performed other⟩,?_⟩
  intro q mine
  rw [locks_same performed rfl] at mine
  exact kept.loose loose q mine

theorem looses_verifyIssued (checks : checksProofs call = true) (challenge : Text) (proof : WireProof)
    (generation protocolVersion : Nat) :
    Looses l i call (verifyIssuedPossession l peer challenge proof generation protocolVersion) := by
  intro s loose
  have checked : Safely l i call (checkPossession l peer challenge proof generation protocolVersion)
      (fun outcome t => Kept i s t ∧
        ∀ a, outcome = .ok a → (i,peer,generation) ∈ t.history.verifying) s := by
    refine safe_bind (safe_mono (fun rejection t both => ?_) (safe_rejectReplayed checks generation s))
    obtain ⟨kept,verifying⟩ := both
    cases rejection with
    | some rejection => exact ⟨kept,fun _ => nofun⟩
    | none =>
      refine safe_mono (fun outcome u later => ⟨kept.trans later,fun _ _ => ?_⟩)
        (safe_aside ((compareProof_uses challenge proof generation protocolVersion).avoids rfl) t)
      exact later.verifying _ _ (verifying rfl)
  refine safe_bind (safe_mono (fun outcome t both => ?_) checked)
  obtain ⟨kept,verifying⟩ := both
  cases outcome with
  | ok a =>
    exact safe_bind (safe_mono (fun _ _ loose => loose)
      (looses_verification (kept.loose loose) fun _ => verifying a rfl))
  | error e =>
    exact safe_bind (safe_mono (fun _ _ loose => loose)
      (looses_verification (kept.loose loose) nofun))

/-- The answered generation is as good as the side condition asks. -/
theorem looses_adopt (adopting : adopts call = true) (sessionId : SessionId) (generation : Nat) :
    Looses l i call (adoptPendingGeneration peer sessionId generation) := by
  intro s loose
  unfold adoptPendingGeneration
  split
  · exact loose
  refine safe_andThen fun t _ inv kept c r u ok performed => ?_
  have fits : Fits t i call (.writeRow peer (.setPendingGeneration sessionId generation)) :=
    fun r here selected => ok adopting r here selected
  refine ⟨⟨inv.step ok fits performed,fun j other => Kept.step inv fits performed other⟩,?_⟩
  replace loose := (Kept.own performed rfl).loose (kept.loose loose)
  refine ⟨fun adopted _ => ?_,fun _ _ => loose⟩
  split
  · exact loose
  · refine safe_andThen (safe_mono (fun _ v kept => ⟨fun row _ => ?_,fun _ _ => kept.loose loose⟩)
      (safe_aside (Prog.all_perform rfl) u))
    split <;> exact kept.loose loose

theorem looses_op {o : Op} (apart : restricted.contains o.kind = false) : Looses l i call (op o) :=
  looses_aside (Prog.all_perform apart)

theorem looses_activateSaved : Looses l i call (activateSaved peer) := looses_op rfl

theorem looses_finishConsent (checks : checksProofs call = true) (challenge : Text)
    (generation protocolVersion : Nat) (response : Option PairingConsentResponse) :
    Looses l i call (finishConsent l peer challenge generation protocolVersion response) := by
  unfold finishConsent
  split
  · exact keeps_pure
  · exact keeps_pure
  · exact keeps_andThen looses_activateSaved fun _ => keeps_pure
  · refine keeps_andThen (looses_verifyIssued checks _ _ _ _) fun _ => ?_
    refine keeps_andThen (looses_aside ((storeHeldGrant_uses _).avoids rfl)) fun _ => ?_
    split
    · exact keeps_pure
    · refine keeps_andThen (looses_aside ((prove_uses ..).avoids rfl)) fun proof => ?_
      refine keeps_bind (looses_op rfl) fun _ => keeps_bind (looses_op rfl) fun answer => ?_
      have saved : Looses l i call ((write peer (.setAcks true true)).andThen fun _ =>
          (activateSaved peer).andThen fun _ => return .ok true) :=
        keeps_andThen (looses_op rfl) fun _ => keeps_andThen looses_activateSaved fun _ => keeps_pure
      split
      · exact saved
      · exact saved
      · exact keeps_pure

theorem looses_declinePairing (row : RelationshipRow) : Looses l i call (declinePairing l peer row) := by
  refine keeps_bind (looses_aside ((consumeFor_uses _).avoids rfl)) fun _ => ?_
  refine keeps_andThen (looses_aside (deleteRelationship_uses.avoids rfl)) fun _ => ?_
  refine keeps_andThen (looses_op rfl) fun _ => keeps_bind (looses_op rfl) fun _ => ?_
  exact keeps_bind (looses_op rfl) fun _ => keeps_pure

theorem looses_acceptPairing (checks : checksProofs call = true) (row : RelationshipRow) :
    Looses l i call (acceptPairing l peer row) := by
  refine keeps_bind (looses_aside ((consumeFor_uses _).avoids rfl)) fun _ => ?_
  refine keeps_andThen (looses_aside ((mint_uses _ _).avoids rfl)) fun grant => ?_
  refine keeps_bind (looses_op rfl) fun challenge => keeps_andThen (looses_op rfl) fun _ => ?_
  refine keeps_bind (looses_op rfl) fun _ => keeps_bind (looses_op rfl) fun response => ?_
  exact looses_finishConsent checks _ _ _ _

theorem looses_respondToPairing (checks : checksProofs call = true) (accepted : Bool) :
    Looses l i call (respondToPairing l peer accepted) := by
  refine keeps_bind (looses_op rfl) fun blocked => ?_
  split
  · exact keeps_pure
  refine keeps_andThen (looses_op rfl) fun found => ?_
  cases found with
  | none => exact keeps_pure
  | some row =>
    dsimp only
    split
    · exact keeps_pure
    split
    · exact keeps_pure
    split
    · exact looses_acceptPairing checks row
    · exact looses_declinePairing row

theorem looses_merge (checks : checksProofs call = true) (generation protocolVersion : Nat) :
    Looses l i call (completeSimultaneousMerge l peer generation protocolVersion) := by
  refine looses_locked (holds_aside ((mintForMerge_uses ..).avoids rfl)) fun minted => ?_
  split
  · exact keeps_pure
  · exact keeps_pure
  · refine keeps_andThen (looses_aside (Prog.all_perform rfl)) fun _ => ?_
    refine keeps_bind (looses_aside (Prog.all_perform rfl)) fun _ => ?_
    refine keeps_bind (looses_aside (Prog.all_perform rfl)) fun response => ?_
    exact keeps_andThen (looses_finishConsent checks _ _ _ _) fun _ => keeps_pure

theorem looses_requestPairing (checks : checksProofs call = true) (adopting : adopts call = true) :
    Looses l i call (requestPairing l peer) := by
  refine keeps_bind (looses_aside (Prog.all_perform rfl)) fun blocked => ?_
  split
  · exact keeps_pure
  refine looses_locked holds_beginPairing fun begun => ?_
  split
  · exact keeps_pure
  · exact keeps_pure
  · exact keeps_andThen (looses_merge checks _ _) fun _ => keeps_pure
  · refine keeps_andThen (looses_aside (Prog.all_perform rfl)) fun _ => ?_
    refine keeps_bind (looses_aside (Prog.all_perform rfl)) fun _ => ?_
    refine keeps_bind (looses_aside (Prog.all_perform rfl)) fun response => ?_
    unfold finishRequest
    split
    · exact keeps_pure
    · exact keeps_andThen (looses_adopt adopting _ _) fun _ => keeps_pure
    · refine keeps_andThen (looses_adopt adopting _ _) fun _ => ?_
      exact keeps_andThen (looses_merge checks _ _) fun _ => keeps_pure
    · exact keeps_andThen (looses_aside (Prog.all_perform rfl)) fun _ => keeps_pure
    · exact keeps_pure

theorem looses_endRelationship (concerns : call.peer = some peer) :
    Looses l i call (endRelationship l peer) := by
  refine looses_locked (holds_revokeRelationship concerns) fun revoked => ?_
  split
  · exact keeps_pure
  · refine keeps_andThen (looses_aside (Prog.all_perform rfl)) fun _ => ?_
    split
    · exact keeps_pure
    · exact keeps_bind (looses_aside ((notify_uses _).avoids rfl)) fun _ => keeps_pure

theorem looses_handlePairingRequest (checks : checksProofs call = true) (request : PairingRequest) :
    Looses l i call (handlePairingRequest l peer request) := by
  refine keeps_bind (looses_aside (Prog.all_perform rfl)) fun blocked => ?_
  split
  · exact keeps_pure
  refine looses_locked (holds_answerRequest request) fun answer => ?_
  split
  · split
    · exact keeps_bind (looses_merge checks _ _) fun _ => keeps_pure
    · exact keeps_pure
  · exact keeps_pure

theorem looses_handlePairingAck (checks : checksProofs call = true) (ack : PairingAck) :
    Looses l i call (handlePairingAck l peer ack) := by
  have accepted : Looses l i call (acceptAck l peer ack) := by
    refine keeps_andThen (looses_verifyIssued checks _ _ _ _) fun _ => ?_
    exact keeps_andThen (looses_op rfl) fun _ => keeps_andThen looses_activateSaved fun _ => keeps_pure
  refine keeps_bind (looses_op rfl) fun blocked => ?_
  split
  · exact keeps_pure
  refine keeps_bind (looses_op rfl) fun found => ?_
  split
  · split
    · exact keeps_pure
    split
    · exact keeps_pure
    split
    · exact keeps_pure
    refine keeps_bind accepted fun outcome => ?_
    cases outcome <;> exact keeps_pure
  · exact keeps_pure

theorem looses_exchangeGrants (consent : PairingConsent) (peerGrant : WireGrant) (challenge : Text) :
    Looses l i call (exchangeGrants l peer consent peerGrant challenge) := by
  refine keeps_andThen (looses_aside ((storeHeldGrant_uses _).avoids rfl)) fun _ => ?_
  refine keeps_andThen (looses_aside ((mint_uses _ _).avoids rfl)) fun grant => ?_
  refine keeps_andThen (looses_aside ((prove_uses _ _ _).avoids rfl)) fun proof => ?_
  exact keeps_bind (looses_op rfl) fun _ => keeps_andThen (looses_op rfl) fun _ => keeps_pure

theorem looses_handlePairingConsent (consent : PairingConsent) :
    Looses l i call (handlePairingConsent l peer consent) := by
  refine keeps_bind (looses_op rfl) fun blocked => ?_
  split
  · exact keeps_pure
  refine keeps_bind (looses_op rfl) fun found => ?_
  split
  · split
    · exact keeps_pure
    split
    · exact keeps_pure
    split
    · exact keeps_pure
    split
    · exact keeps_bind (looses_aside (deleteRelationship_uses.avoids rfl)) fun _ => keeps_pure
    split
    · split
      · exact keeps_pure
      refine keeps_bind (looses_exchangeGrants consent _ _) fun outcome => ?_
      cases outcome <;> exact keeps_pure
    · exact keeps_pure
  · exact keeps_pure

theorem looses_verifySaved (checks : checksProofs call = true) (challenge : Text) (proof : WireProof)
    (generation protocolVersion : Nat) :
    Looses l i call (verifySavedPossession l peer challenge proof generation protocolVersion) := by
  refine keeps_andThen (looses_op rfl) fun found => ?_
  cases found with
  | none => exact keeps_pure
  | some row =>
    dsimp only
    split
    · exact keeps_pure
    split
    · exact keeps_pure
    split
    · exact keeps_pure
    · exact looses_verifyIssued checks _ _ _ _

theorem looses_returning {p : Task (Outcome α)} (inside : Looses l i call p) :
    Looses l i call (returning p) := by
  refine keeps_bind inside fun r => ?_
  cases r <;> exact looses_aside (Prog.all_perform rfl)

theorem looses_call : Looses l i call (call.body l) := by
  cases call with
  | requestPairing peer => exact looses_returning (looses_requestPairing rfl rfl)
  | respondToPairing peer accepted =>
    refine looses_returning (keeps_bind (looses_op rfl) fun blocked => ?_)
    split
    · exact keeps_pure
    · exact looses_respondToPairing rfl accepted
  | forgetSavedDevice peer => exact looses_returning (looses_endRelationship rfl)
  | blockDevice peer =>
    exact looses_returning (keeps_andThen (looses_aside (Prog.all_perform rfl)) fun _ =>
      looses_endRelationship rfl)
  | unblockDevice peer => exact looses_returning (looses_aside (Prog.all_perform rfl))
  | rotateRelationshipGrant peer =>
    exact looses_returning (looses_locked (holds_rotateLocked rfl) fun _ => keeps_pure)
  | listDeviceRelationships => exact looses_returning (looses_aside (expirePending_uses.avoids rfl))
  | listPairingEligibilities => exact looses_returning (looses_aside (expireDue_uses.avoids rfl))
  | declinePairingEligibility peer =>
    exact looses_returning (looses_aside (removeForPeer_uses.avoids rfl))
  | received peer name sessionId token =>
    exact looses_returning (looses_aside ((activate_uses ..).avoids rfl))
  | pairingRequest remote m =>
    exact keeps_bind (looses_handlePairingRequest rfl m) fun _ => looses_aside (Prog.all_perform rfl)
  | pairingConsent remote m =>
    exact keeps_bind (looses_handlePairingConsent m) fun _ => looses_op rfl
  | pairingAck remote m =>
    exact keeps_bind (looses_handlePairingAck rfl m) fun _ => looses_aside (Prog.all_perform rfl)
  | revokeNotice remote m =>
    refine keeps_bind (fun s loose => ?_) fun _ => looses_aside (Prog.all_perform rfl)
    refine safe_bind (safe_mono (fun _ t held => ?_) (safe_lock loose))
    exact safe_bind (safe_mono (fun _ u held => safe_unlock held)
      (holds_revokeNoticed rfl m.generation t held))
  | deliveryReceipt remote receipt => exact looses_aside ((completeDelivery_uses receipt).avoids rfl)
  | savedPossession peer challenge proof generation protocolVersion =>
    exact looses_returning (looses_verifySaved rfl _ _ _ _)

end Calls

section Runs

variable {l : Local} {c : Conf State Call Op Ans}

/-- Who closes a row is a running call. -/
theorem reach_closing (reach : Reach (machine l).system guard.holds c) {peer : EndpointId} {i : Nat}
    {call : Call} (closing : c.shared.history.closing peer = some (i,call)) :
    ∃ t, c.threads[i]? = some t ∧ t.call = call := by
  induction reach with
  | start c h =>
    rw [h.1.2] at closing
    cases closing
  | @advance c d a _ _ h ih =>
    rcases next_cases h with ⟨call',rfl,_,rfl⟩ | ⟨j,choice,call',op,k,r,s,rfl,here,performed,rfl⟩ |
      ⟨e,s,rfl,_,rfl⟩
    · obtain ⟨t,there,same⟩ := ih closing
      refine ⟨t,?_,same⟩
      rw [List.getElem?_append_left (List.getElem?_eq_some_iff.mp there).1]
      exact there
    · obtain ⟨t,there,same⟩ : ∃ t, c.threads[i]? = some t ∧ t.call = call := by
        obtain ⟨d,ran,rfl⟩ := domain_exec performed
        rcases closing_after c.shared.history call' peer ran with
          same | ⟨_,_,closed⟩ | ⟨_,closed,_⟩
        · exact ih (same.symm.trans closing)
        · cases closed.symm.trans closing
          exact ⟨_,here,rfl⟩
        · cases closed.symm.trans closing
      by_cases same' : i = j
      · subst same'
        cases here.symm.trans there
        refine ⟨⟨call',k r⟩,?_,same⟩
        rw [List.getElem?_set_self (List.getElem?_eq_some_iff.mp there).1]
      · exact ⟨t,by rw [List.getElem?_set_ne (Ne.symm same')]; exact there,same⟩
    · cases e

/-- Locks are held by calls that have started. -/
theorem reach_below (reach : Reach (machine l).system guard.holds c) {peer : EndpointId} {i : Nat}
    (held : c.shared.state.locks peer = some i) : i < c.threads.length := by
  induction reach with
  | start c h =>
    rw [h.1.1.2 peer] at held
    cases held
  | @advance c d a _ _ h ih =>
    rcases next_cases h with ⟨call',rfl,_,rfl⟩ | ⟨j,choice,call',op,k,r,s,rfl,here,performed,rfl⟩ |
      ⟨e,s,rfl,_,rfl⟩
    · have before := ih held
      rw [List.length_append]
      omega
    · rw [List.length_set]
      obtain ⟨d,ran,rfl⟩ := domain_exec performed
      rcases locks_after peer ran with same | ⟨_,_,locked⟩ | ⟨_,unlocked⟩
      · exact ih (same.symm.trans held)
      · cases locked.symm.trans held
        exact (List.getElem?_eq_some_iff.mp here).1
      · cases unlocked.symm.trans held
    · cases e

theorem stored_inv {d : Device} (stored : Stored d) : Inv ⟨d,.new⟩ where
  tombstones := stored.tombstones
  range peer := (stored.disciplined peer).range
  above peer r here _ := (stored.disciplined peer).above r here
  holder _ _ _ := nofun
  verifying _ _ _ := nofun
  accepted := nofun

theorem reach_safe (reach : Reach (machine l).system guard.holds c) :
    Secured (machine l) guard terms (fun i _ s => Loose i s) c := by
  refine reach_secured (fun _ _ => trivial) ?_ ?_
    (fun i _ s t (kept : Kept i s t) loose => kept.loose loose) nofun reach
  · rintro ⟨d,h⟩ ⟨⟨stored,_⟩,rfl⟩
    exact stored_inv stored
  · intro c call past _ _ _
    exact looses_call c.shared fun peer mine => Nat.lt_irrefl _ (reach_below past mine)

/-- No call about the peer is running. -/
def Resting (c : Conf State Call Op Ans) (peer : EndpointId) : Prop :=
  ∀ t ∈ c.threads, t.call.peer = some peer → t.rest.finished = true

/-- In every run whose steps meet the side condition, a peer that nobody works on has a
generation in range and above its tombstones, and no proof for a tombstoned generation is
accepted. -/
theorem generation_discipline (reach : Reach (machine l).system guard.holds c) :
    (∀ peer, Resting c peer → Disciplined c.shared.state peer) ∧
    ∀ a ∈ c.shared.history.accepted, a.tombstoned = false := by
  have secured := reach_safe reach
  refine ⟨fun peer resting => ⟨secured.inv.range peer,fun r here => ?_⟩,secured.inv.accepted⟩
  refine secured.inv.above peer r here ?_
  cases closing : c.shared.history.closing peer with
  | none => rfl
  | some x =>
    obtain ⟨t,there,same⟩ := reach_closing reach closing
    obtain ⟨held,concerns⟩ := secured.inv.holder peer x.1 x.2 closing
    have finished := resting t (List.mem_of_getElem? there) (by rw [same]; exact concerns)
    have safe := secured.threads x.1 t there
    cases rest : t.rest with
    | step o k =>
      rw [rest] at finished
      cases finished
    | ret a =>
      rw [rest] at safe
      exact absurd held (safe peer)

end Runs

/-! Device 1 and a peer that answers what it likes. -/

namespace Sample

open Pairing.Sample

def start (d : Device) : Conf State Call Op Ans := ⟨⟨d,.new⟩,[]⟩

/-- Device 2 is saved. -/
def row : Relationship where
  remoteEndpointId := 2
  state := .saved
  generation := 1
  minimumProtocolVersion := 1
  sessionId := none
  remoteDisplayName := none
  lastAuthenticatedAt := none
  issuedGrantHandle := some 5
  heldGrantHandle := none
  issuedGrantId := some 6
  heldGrantId := none
  peerAck := true
  localAck := true
  createdAt := 0
  updatedAt := 0

def saved : Device :=
  { Device.new with relationships := ⟨[row],List.nodup_singleton _⟩, custody := fun _ => some 9 }

theorem started_new {l : Local} : (machine l).system.init (start .new) := by
  refine ⟨⟨⟨⟨fun peer => ⟨?_,?_⟩,?_⟩,fun _ => rfl⟩,rfl⟩,rfl⟩ <;> exact fun _ => nofun

theorem started_saved {l : Local} : (machine l).system.init (start saved) := by
  refine ⟨⟨⟨⟨fun peer => ⟨fun r here => ?_,fun _ _ _ => nofun⟩,fun _ _ => nofun⟩,fun _ => rfl⟩,rfl⟩,rfl⟩
  have member : r ∈ [row] := Tables.Table.find_mem here
  cases List.mem_singleton.mp member
  decide

/-- Device 2 answers a pairing request with a generation. -/
def answers (generation : Nat) : List (Label Call Choice Empty) :=
  received 0 ++ starts (.requestPairing 2) :: List.replicate 20 (act 1) ++
    .act 1 ⟨0,false,0,some (.awaitingConsent generation),none,none⟩ :: List.replicate 2 (act 1)

/-- Device 2 is forgotten while a proof of it is checked. -/
def presents : List (Label Call Choice Empty) :=
  starts (.savedPossession 2 3 ⟨6,12,3⟩ 1 1) :: List.replicate 3 (act 0) ++
    starts (.forgetSavedDevice 2) :: List.replicate 3 (act 1) ++ List.replicate 3 (act 0)

def after (d : Device) (labels : List (Label Call Choice Empty)) : Conf State Call Op Ans :=
  ((machine device).system.run (start d) labels).getD (start d)

end Sample

open Pairing.Sample Sample in
/-- A row adopts generation 0; and a proof for a tombstoned generation is accepted. -/
theorem generation_undisciplined :
    ((machine device).system.init (start .new) ∧
      (machine device).system.run (start .new) (answers 0) = some (after .new (answers 0)) ∧
      Resting (after .new (answers 0)) 2 ∧
      ((after .new (answers 0)).shared.state.relationships.find 2).map (·.generation) = some 0) ∧
    (machine device).system.init (start saved) ∧
      (machine device).system.run (start saved) presents = some (after saved presents) ∧
      (after saved presents).shared.history.accepted = [⟨2,1,true⟩] :=
  ⟨⟨started_new,rfl,by unfold Resting; decide,rfl⟩,started_saved,rfl,rfl⟩

instance (s : State) (call : Call) : Decidable (guard.starts s call) := isTrue trivial

instance (s : State) (e : Empty) : Decidable (guard.events s e) := isTrue trivial

instance (s : State) (call : Call) (o : Op) (c : Choice) : Decidable (guard.steps s call o c) := by
  dsimp only [guard]
  split <;> infer_instance

open Pairing.Sample Sample in
/-- Device 2 answers with the generation it was asked for. -/
theorem generation_discipline_adopted :
    Resting (after .new (answers 1)) 2 ∧ Disciplined (after .new (answers 1)).shared.state 2 := by
  have reach : Reach (machine device).system guard.holds (after .new (answers 1)) :=
    (Reach.start _ started_new).run (by decide)
      (show (machine device).system.run _ (answers 1) = some _ from rfl)
  have resting : Resting (after .new (answers 1)) 2 := by
    unfold Resting
    decide
  exact ⟨resting,(generation_discipline reach).1 2 resting⟩

end Vnidrop.Pairing.Generations
