import Vnidrop.PairingOps

/-! Expiry of pending relationships. The expired peers are listed first and deleted one by
one; a row that is pending and stale when it is listed is still so when it is deleted, if no
statement revives it meanwhile. -/
namespace Vnidrop.Pairing.Expiry

open Programs Runs

/-- A peer that a call has listed and not deleted yet, with the cutoff of the listing. -/
structure Due where
  thread : Nat
  peer : EndpointId
  cutoff : Millis
  deriving DecidableEq, Repr

/-- What is due; the rows that expiry has deleted, with the cutoff of their listing. -/
structure History where
  due : List Due
  deleted : List (Relationship × Option Millis)

namespace History

def new : History := ⟨[],[]⟩

def list (h : History) (i : Nat) (cutoff : Millis) (peers : List EndpointId) : History :=
  { h with due := peers.map (⟨i,·,cutoff⟩) ++ h.due }

def cutoffOf (h : History) (i : Nat) (peer : EndpointId) : Option Millis :=
  (h.due.find? fun x => x.thread = i && x.peer = peer).map (·.cutoff)

def delete (h : History) (i : Nat) (peer : EndpointId) (row : Option Relationship) : History where
  due := h.due.filter fun x => !(x.thread = i && x.peer = peer)
  deleted := (row.map (·,h.cutoffOf i peer)).toList ++ h.deleted

def finish (h : History) (i : Nat) : History :=
  { h with due := h.due.filter fun x => !(x.thread = i) }

end History

def record (h : History) (d : Device) (i : Nat) (call : Call) : (op : Op) → Ans op → History
  | .listExpiredPendingPeers cutoff, .ok peers => h.list i cutoff peers
  | .writeRow peer .delete, .ok _ =>
    if call = .listDeviceRelationships then h.delete i peer (d.relationships.find peer) else h
  | .returned _, _ => h.finish i
  | _, _ => h

abbrev State := Observed Device History

/-- Whatever is stored when the process starts. -/
def machine (l : Local) : Machine State Call Op Ans Choice Empty :=
  (domain l fun _ => True).observe .new record fun h _ _ => h

/-- Pending, and last updated before the cutoff. -/
def expired (cutoff : Millis) (r : Relationship) : Bool := r.state.pending && r.updatedAt < cutoff

/-- While a peer is due, no statement leaves it a row that is not expired. -/
def guard : Guard State Call Op Choice Empty where
  starts _ _ := True
  steps s _ o c := match o with
    | .writeRow peer w => c.fails = true ∨ ∀ x ∈ s.history.due, x.peer = peer →
      ∀ r ∈ w.onRow peer c.now (s.state.relationships.find peer), expired x.cutoff r = true
    | _ => True
  events _ _ := True

structure Inv (s : State) : Prop where
  due : ∀ x ∈ s.history.due, ∀ r, s.state.relationships.find x.peer = some r →
    expired x.cutoff r = true
  deleted : ∀ x ∈ s.history.deleted, ∃ cutoff, x.2 = some cutoff ∧ expired cutoff x.1 = true

/-- What thread `i` relies on: what is due to it stays due. -/
def Kept (i : Nat) (s t : State) : Prop :=
  ∀ x ∈ s.history.due, x.thread = i → x ∈ t.history.due

def terms : Terms State where
  known _ := True
  inv := Inv
  rely := Kept
  refl _ _ _ h _ := h
  trans _ _ _ _ f g x h own := g x (f x h own) own

abbrev Safely (l : Local) (i : Nat) (call : Call) {α : Type} (p : Task α) (post : α → State → Prop)
    (s : State) : Prop := Safe (machine l) guard terms i call p post s

section Steps

variable {l : Local} {s t : State} {i j : Nat} {call : Call} {c : Choice} {o : Op} {r : Ans o}

/-- What becomes of the due peers. -/
theorem due_after {h : History} {d d' : Device} {x : Due} (performed : d.exec l i c o = some (r,d'))
    (there : x ∈ (record h d i call o r).due) :
    x ∈ h.due ∨ (d' = d ∧ ∀ row, d.relationships.find x.peer = some row →
      expired x.cutoff row = true) := by
  unfold record at there
  split at there
  · rename_i cutoff peers
    rcases List.mem_append.mp there with new | old
    · obtain ⟨peer,listed,rfl⟩ := List.mem_map.mp new
      change Device.read d c _ = _ at performed
      unfold Device.read at performed
      split at performed <;> cases performed
      refine .inr ⟨rfl,fun row here => ?_⟩
      obtain ⟨row',member,same⟩ := List.mem_map.mp listed
      obtain ⟨stored,expired'⟩ := List.mem_filter.mp member
      have found := d.relationships.find_of_mem stored
      rw [same] at found
      cases here.symm.trans found
      exact expired'
    · exact .inl old
  · split at there
    · exact .inl (List.mem_of_mem_filter there)
    · exact .inl there
  · exact .inl (List.mem_of_mem_filter there)
  · exact .inl there

/-- Expiry deletes a row that is due to its thread. -/
def Fits (s : State) (i : Nat) (call : Call) : Op → Prop
  | .writeRow peer .delete => call = .listDeviceRelationships →
    ∃ cutoff, ⟨i,peer,cutoff⟩ ∈ s.history.due
  | _ => True

theorem cutoffOf_due {h : History} {peer : EndpointId} (due : ∃ cutoff, ⟨i,peer,cutoff⟩ ∈ h.due) :
    ∃ x ∈ h.due, x.peer = peer ∧ h.cutoffOf i peer = some x.cutoff := by
  obtain ⟨cutoff,due⟩ := due
  unfold History.cutoffOf
  cases found : h.due.find? fun x => x.thread = i && x.peer = peer with
  | none =>
    have missed := List.find?_eq_none.mp found _ due
    simp at missed
  | some x =>
    have here := List.find?_some found
    simp only [Bool.and_eq_true,decide_eq_true_eq] at here
    exact ⟨x,List.mem_of_find?_eq_some found,here.2,rfl⟩

theorem Inv.step (inv : Inv s) (ok : guard.steps s call o c) (fits : Fits s i call o)
    (h : (machine l).exec s i call o c = some (r,t)) : Inv t := by
  obtain ⟨d,performed,rfl⟩ := domain_exec h
  constructor
  · intro x there row here
    dsimp only at there here
    rcases due_after performed there with before | ⟨rfl,listed⟩
    · by_cases writes : ∃ peer w, o = .writeRow peer w
      · obtain ⟨peer,w,rfl⟩ := writes
        rcases exec_writeRow performed with ⟨_,_,rfl⟩ | ⟨works,_,rfl⟩
        · exact inv.due x before row here
        · rw [Relationships.find_write] at here
          split at here
          · rename_i same
            have spares := ok.resolve_left fun fails => by
              rw [works] at fails
              cases fails
            exact spares x before same row here
          · exact inv.due x before row here
      · rw [exec_relationships performed fun peer w same => writes ⟨peer,w,same⟩] at here
        exact inv.due x before row here
    · exact listed row here
  · intro x there
    change x ∈ (record s.history s.state i call o r).deleted at there
    unfold record at there
    split at there
    · exact inv.deleted x there
    · rename_i peer _
      split at there
      · rename_i expires
        rcases List.mem_append.mp there with new | old
        · obtain ⟨row,here,rfl⟩ := Option.map_eq_some_iff.mp (Option.mem_toList.mp new)
          obtain ⟨due,member,same,cutoff⟩ := cutoffOf_due (fits expires)
          exact ⟨due.cutoff,cutoff,inv.due due member row (same ▸ here)⟩
        · exact inv.deleted x old
      · exact inv.deleted x there
    · exact inv.deleted x there
    · exact inv.deleted x there

theorem Kept.step (h : (machine l).exec s i call o c = some (r,t))
    (apart : j ≠ i ∨ [Kind.deleteRow,.returned].contains o.kind = false) : Kept j s t := by
  obtain ⟨d,performed,rfl⟩ := domain_exec h
  intro x due own
  change x ∈ (record s.history s.state i call o r).due
  unfold record
  split
  · exact List.mem_append_right _ due
  · split
    · rcases apart with other | apart
      · refine List.mem_filter.mpr ⟨due,?_⟩
        simp [own,other]
      · cases apart
    · exact due
  · rcases apart with other | apart
    · refine List.mem_filter.mpr ⟨due,?_⟩
      simp [own,other]
    · cases apart
  · exact due

end Steps

section Calls

variable {α : Type} {l : Local} {s : State} {i : Nat} {call : Call} {peer : EndpointId}

theorem quiet_op {o : Op} (apart : [Kind.deleteRow,.returned].contains o.kind = false) :
    Quiet (machine l) guard terms i call o := by
  intro t _ inv c r u ok performed
  have fits : Fits t i call o := by
    cases o with
    | writeRow peer w => cases w <;> first | exact trivial | cases apart
    | _ => trivial
  exact ⟨inv.step ok fits performed,fun _ => Kept.step performed (.inr apart)⟩

theorem safe_aside {p : Task α} (apart : Avoids [.deleteRow,.returned] p) (s : State) :
    Safely l i call p (fun _ t => Kept i s t) s := by
  refine safe_quiet ?_ s
  induction p with
  | ret a => trivial
  | step o k ih => exact ⟨quiet_op apart.1,fun r => ih r (apart.2 r)⟩

/-- The calls that expire nothing rely on nothing. -/
theorem safe_others {p : Task α} (other : call ≠ .listDeviceRelationships) :
    Safely l i call p (fun _ _ => True) s := by
  induction p generalizing s with
  | ret a => trivial
  | step o k ih =>
    intro t _ inv _ c r u ok performed
    have fits : Fits t i call o := by
      cases o with
      | writeRow peer w => cases w <;> first | exact trivial | exact fun same => absurd same other
      | _ => trivial
    exact ⟨⟨inv.step ok fits performed,fun j apart => Kept.step performed (.inl apart)⟩,ih r⟩

/-- The peers still to be deleted are due. -/
def Listed (i : Nat) (cutoff : Millis) (peers : List EndpointId) (s : State) : Prop :=
  ∀ peer ∈ peers, ⟨i,peer,cutoff⟩ ∈ s.history.due

theorem Kept.listed {t : State} {cutoff : Millis} {peers : List EndpointId} (kept : Kept i s t)
    (listed : Listed i cutoff peers s) : Listed i cutoff peers t :=
  fun peer member => kept _ (listed peer member) rfl

theorem safe_delete {cutoff : Millis} {peers : List EndpointId} (fresh : peer ∉ peers)
    (listed : Listed i cutoff (peer :: peers) s) :
    Safely l i .listDeviceRelationships (write peer .delete)
      (fun _ t => Listed i cutoff peers t) s := by
  intro t _ inv kept c r u ok performed
  replace listed := kept.listed listed
  have fits : Fits t i .listDeviceRelationships (.writeRow peer .delete) :=
    fun _ => ⟨cutoff,listed peer List.mem_cons_self⟩
  refine ⟨⟨inv.step ok fits performed,fun j other => Kept.step performed (.inl other)⟩,?_⟩
  intro q member
  have due := listed q (List.mem_cons_of_mem _ member)
  obtain ⟨d,deletes,rfl⟩ := domain_exec performed
  rcases exec_writeRow deletes with ⟨_,rfl,_⟩ | ⟨_,rfl,_⟩
  · exact due
  · have other : q ≠ peer := fun same => fresh (same ▸ member)
    refine List.mem_filter.mpr ⟨due,?_⟩
    simp [other]

theorem safe_deleteEach {cutoff : Millis} {peers : List EndpointId} (distinct : peers.Nodup)
    (listed : Listed i cutoff peers s) :
    Safely l i .listDeviceRelationships (deleteEach l peers) (fun _ _ => True) s := by
  induction peers generalizing s with
  | nil => trivial
  | cons peer peers ih =>
    obtain ⟨fresh,distinct⟩ := List.nodup_cons.mp distinct
    refine safe_andThen (safe_mono (fun _ t listed => ⟨fun _ _ => ih distinct listed,fun _ _ => trivial⟩) ?_)
    refine safe_bind (safe_mono (fun found t kept => ?_) (safe_aside (Prog.all_perform rfl) s))
    replace listed := kept.listed listed
    dsimp only
    split
    · exact safe_bind (safe_mono (fun _ _ kept => safe_delete fresh (kept.listed listed))
        (safe_aside ((clearGrantSecrets_uses _).avoids rfl) t))
    · exact safe_delete fresh listed

theorem safe_expirePending :
    Safely l i .listDeviceRelationships (expirePending l) (fun _ _ => True) s := by
  refine safe_bind (safe_mono (fun now t _ => ?_) (safe_aside (Prog.all_perform rfl) s))
  refine safe_andThen fun u _ inv _ c r v ok performed => ?_
  refine ⟨⟨(quiet_op rfl u trivial inv c r v ok performed).1,fun j other =>
    Kept.step performed (.inl other)⟩,?_,fun _ _ => trivial⟩
  rintro peers rfl
  obtain ⟨d,lists,rfl⟩ := domain_exec performed
  have distinct : peers.Nodup := by
    change Device.read u.state c _ = _ at lists
    unfold Device.read at lists
    split at lists <;> cases lists
    exact u.state.relationships.unique.sublist (List.filter_sublist.map _)
  have listed : Listed i (now - pendingTtlMs) peers ⟨d,record u.history u.state i
      .listDeviceRelationships (.listExpiredPendingPeers (now - pendingTtlMs)) (.ok peers)⟩ :=
    fun peer member => List.mem_append_left _ (List.mem_map.mpr ⟨peer,member,rfl⟩)
  exact safe_deleteEach distinct listed

theorem safe_call : Safely l i call (call.body l) (fun _ _ => True) s := by
  by_cases expires : call = .listDeviceRelationships
  · subst expires
    refine safe_bind (safe_mono (fun r t _ => ?_) safe_expirePending)
    have returns : ∀ success, Safely l i .listDeviceRelationships (op (.returned success))
        (fun _ _ => True) t := by
      intro success u _ inv _ c r v ok performed
      exact ⟨⟨inv.step ok trivial performed,fun j other => Kept.step performed (.inl other)⟩,trivial⟩
    cases r <;> exact returns _
  · exact safe_others expires

end Calls

/-- In every run in which no statement revives a row that is due, expiry deletes only rows
that are pending and older than its cutoff. -/
theorem expiry_spares {l : Local} {c : Conf State Call Op Ans}
    (reach : Reach (machine l).system guard.holds c) :
    ∀ x ∈ c.shared.history.deleted, ∃ cutoff, x.2 = some cutoff ∧ expired cutoff x.1 = true := by
  have secured : Secured (machine l) guard terms (fun _ _ _ => True) c :=
    reach_secured (fun _ _ => trivial) ?_ (fun _ _ _ _ _ _ => safe_call)
      (fun _ _ _ _ _ _ => trivial) nofun reach
  · exact secured.inv.deleted
  · rintro ⟨d,h⟩ ⟨_,rfl⟩
    constructor <;> intro x there <;> cases there

/-! Device 2 is pending for an hour on device 1. -/

namespace Sample

open Pairing.Sample

def row : Relationship where
  remoteEndpointId := 2
  state := .pendingIncoming
  generation := 1
  minimumProtocolVersion := 1
  sessionId := none
  remoteDisplayName := none
  lastAuthenticatedAt := none
  issuedGrantHandle := some 5
  heldGrantHandle := some 4
  issuedGrantId := some 6
  heldGrantId := some 8
  peerAck := false
  localAck := false
  createdAt := 0
  updatedAt := 0

def pending : Device :=
  { Device.new with relationships := ⟨[row],List.nodup_singleton _⟩, custody := fun _ => some 9 }

def start : Conf State Call Op Ans := ⟨⟨pending,.new⟩,[]⟩

theorem started {l : Local} : (machine l).system.init start := ⟨⟨⟨trivial,fun _ => rfl⟩,rfl⟩,rfl⟩

def hour : Millis := 60 * 60 * 1000

def late (i : Nat) : Label Call Choice Empty := .act i ⟨hour,false,0,none,none,none⟩

/-- The pairing completes between the listing and the deletion. -/
def races : List (Label Call Choice Empty) :=
  starts .listDeviceRelationships :: List.replicate 2 (late 0) ++
    starts (.pairingAck 2 ⟨⟨6,12,3⟩,3,1,1⟩) :: List.replicate 10 (late 1) ++ List.replicate 4 (late 0)

/-- Nobody answers. -/
def expires : List (Label Call Choice Empty) :=
  starts .listDeviceRelationships :: List.replicate 7 (late 0)

def after (labels : List (Label Call Choice Empty)) : Conf State Call Op Ans :=
  ((machine device).system.run start labels).getD start

end Sample

open Pairing.Sample Expiry.Sample in
/-- A relationship that has just been saved is deleted. -/
theorem expiry_takes :
    (machine device).system.init start ∧
    (machine device).system.run start races = some (after races) ∧
    (after races).shared.history.deleted =
      [({ row with state := .saved, localAck := true, peerAck := true, updatedAt := hour },
        some (hour - pendingTtlMs))] :=
  ⟨started,rfl,rfl⟩

instance (s : State) (call : Call) : Decidable (guard.starts s call) := isTrue trivial

instance (s : State) (e : Empty) : Decidable (guard.events s e) := isTrue trivial

instance (s : State) (call : Call) (o : Op) (c : Choice) : Decidable (guard.steps s call o c) := by
  dsimp only [guard]
  split <;> infer_instance

open Pairing.Sample Expiry.Sample in
/-- A relationship that nobody has completed expires. -/
theorem expiry_spares_expired : (after expires).shared.history.deleted = [(row,some (hour - pendingTtlMs))] ∧
    ∀ x ∈ (after expires).shared.history.deleted,
      ∃ cutoff, x.2 = some cutoff ∧ expired cutoff x.1 = true := by
  have reach : Reach (machine device).system guard.holds (after expires) :=
    (Reach.start _ started).run (by decide)
      (show (machine device).system.run _ expires = some _ from rfl)
  exact ⟨rfl,expiry_spares reach⟩

end Vnidrop.Pairing.Expiry
