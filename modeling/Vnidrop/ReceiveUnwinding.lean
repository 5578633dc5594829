import Vnidrop.Receives
import Mathlib

/-! What the unwinding of a receive does to the receives of the same id. The active entry and
the row are found by the id alone: by a receive that fails or is cancelled, and by the cancel
that has taken its entry. -/
namespace Vnidrop.Receives.Unwinding

open Tables Programs Runs Invitation

inductive Call where
  | receive (t : ParsedTransferTicket) (target : ReceiveTarget)
  | cancel (id : TransferId)
  deriving DecidableEq

def Call.transferId : Call → TransferId
  | .receive t _ => t.transferId
  | .cancel id => id

def Call.receives (call : Call) (id : TransferId) : Bool :=
  match call with
  | .receive t _ => t.transferId = id
  | .cancel _ => false

def Call.body (l : CoreLimits) : Call → Task Unit
  | .receive t target => do
    let _ ← receiveToTarget l t target
    return ()
  | .cancel id => do
    let _ ← cancelTransfer id
    return ()

def receiving (s : Device) (id : TransferId) : Bool :=
  (s.transfers.find id).any (·.status = .receiving)

/-- `recover_interrupted_transfers` has run and no call has been made. -/
def Recovered (s : Device) : Prop := (∀ id, receiving s id = false) ∧ ∀ id, s.active id = none

def device (l : CoreLimits) : Machine Device Call Op Ans Choice Empty where
  init := Recovered
  admits _ _ := true
  body := Call.body l
  exec s i call o c := s.exec i c call.transferId o
  env _ e := nomatch e

abbrev Calls := List (Nat × TransferId)

def Calls.without (l : Calls) (e : Nat × TransferId) : Calls := l.filter (· ≠ e)

/-- Which receive has last started on a row; the receives that have started and not returned,
those of them that may still write the status, and those between their activation and the
removal of their entry; the cancels that have taken an entry and have not written the row;
and the receives that have unwound at the cost of another. -/
structure History where
  writer : TransferId → Option Nat
  running : Calls
  bound : Calls
  entered : Calls
  pending : Calls
  harmed : List Nat

def History.unbind (h : History) (e : Nat × TransferId) : History := { h with bound := h.bound.without e }

/-- The receive has taken the cancel branch of its `select!`. -/
def gaveUp : (o : Op) → Ans o → Bool
  | .createDir _, .error .cancelled | .connect _, .error .cancelled | .download _, .error .cancelled |
    .recordArtifact _, .error .cancelled | .completeReceive .., .error .cancelled |
    .activateEligibility .., .error .cancelled => true
  | .requestApproval _, .error .cancelled => true
  | .getSizes _, .error .cancelled => true
  | .loadCollection _, .error .cancelled => true
  | .transferLocalId _, .error .cancelled => true
  | .exportBlob .., .error .cancelled => true
  | _, _ => false

/-- What receive `i` of `id` leaves in the history. -/
def received (h : History) (d : Device) (i : Nat) (id : TransferId) : (o : Op) → Ans o → History
  | .startReceive _, .ok _ =>
    { h with
      writer := Function.update h.writer id (some i)
      running := (i,id) :: h.running
      bound := (i,id) :: h.bound }
  | .activate _, _ => { h with entered := (i,id) :: h.entered }
  | .completeReceive .., .ok _ => h.unbind (i,id)
  | .deactivate _, _ =>
    { h with
      entered := h.entered.without (i,id)
      harmed := if (d.active id).any (· ≠ i) then i :: h.harmed else h.harmed }
  | .markFailed _, _ =>
    { h.unbind (i,id) with
      harmed := if receiving d id && h.writer id ≠ some i then i :: h.harmed else h.harmed }
  | .releaseSlot, _ => { h.unbind (i,id) with running := h.running.without (i,id) }
  | o, a => if gaveUp o a then h.unbind (i,id) else h

def cancelling (h : History) (i : Nat) (id : TransferId) : (o : Op) → Ans o → History
  | .takeActive _, true => { h with pending := (i,id) :: h.pending }
  | .markCancelled _, _ => { h with pending := h.pending.without (i,id) }
  | _, _ => h

def record (h : History) (d : Device) (i : Nat) (call : Call) (o : Op) (a : Ans o) : History :=
  match call with
  | .receive t _ => received h d i t.transferId o a
  | .cancel id => cancelling h i id o a

abbrev Seen := Observed Device History

def nothing : History := ⟨fun _ => none,[],[],[],[],[]⟩

def machine (l : CoreLimits) : Machine Seen Call Op Ans Choice Empty :=
  (device l).observe nothing record fun h _ _ => h

/-- The row is receiving on behalf of receive `i`. -/
def mine (s : Seen) (i : Nat) (id : TransferId) : Bool :=
  receiving s.state id && s.history.writer id = some i

/-- A receive starts anew only when no earlier one of its id may still write the row, and is
activated only when each earlier one has removed its entry; what stands between the start and
the activation, and the writes of the status a receiving row is to get, do not fail; and a
receive does not return before the cancel that has taken its entry has written the row. -/
def permits (s : Seen) (i : Nat) (call : Call) (o : Op) (c : Choice) : Bool :=
  match o with
  | .startReceive u =>
    c.fails || !decide (Transfers.Storable u) ||
      (s.state.transfers.find u.transferId).any (fun row => !Transfers.restarts row) ||
      s.history.bound.all (·.2 ≠ u.transferId)
  | .activate id => s.history.entered.all (·.2 ≠ id)
  | .encodeAddress _ => !c.fails || !mine s i call.transferId
  | .markFailed id => !c.fails || !mine s i id
  | .markCancelled id => !c.fails || !receiving s.state id
  | .releaseSlot => !mine s i call.transferId || s.history.pending.all (·.2 ≠ call.transferId)
  | _ => true

def minds (s : Seen) (i : Nat) (call : Call) (o : Op) (c : Choice) : Prop :=
  permits s i call o c = true


section Rows

variable {d e : Device} {c : Choice} {i : Nat} {id k : TransferId} {o : Op} {a : Ans o}

theorem receiving_iff : receiving d id = true ↔
    ∃ row, d.transfers.find id = some row ∧ row.status = .receiving := by
  unfold receiving
  rw [Option.any_eq_true]
  simp

/-- No operation but a start makes a row receiving. -/
theorem exec_receiving (settled : ∀ up, o ≠ .startReceive up) (h : d.exec i c id o = some (a,e))
    (here : receiving e k = true) : receiving d k = true := by
  rcases exec_wrote h with same | ⟨up,eq,_⟩ | ⟨id',_,there,row,moves,found,was,after⟩
  · exact (congrArg (fun t => (t.find k).any (·.status = .receiving)) same).symm.trans here
  · exact absurd eq (settled up)
  · obtain ⟨row',found',status⟩ := receiving_iff.mp here
    rw [after k] at found'
    split at found'
    · cases found'
      -- no operation moves a row to this status
      have ended : there ≠ .receiving := by
        cases o <;> simp only [Op.moves] at moves <;> cases moves <;> decide
      exact absurd status ended
    · exact receiving_iff.mpr ⟨row',found',status⟩

/-- The operations that write the map of active transfers. -/
def registers : Op → Bool
  | .activate _ | .deactivate _ | .takeActive _ => true
  | _ => false

theorem statement_active {s : Device} {fails : Bool} {r : Except VnidropError Device}
    (kept : ∀ t, r = .ok t → t.active = s.active) : (statement s fails r).2.active = s.active := by
  rcases statement_cases (rfl : statement s fails r = _) with eq | ⟨t,_,ok,eq⟩
  · rw [eq]
  · rw [eq]
    exact kept t ok

theorem setTransfers_active {r : Except VnidropError Transfers} {t : Device}
    (h : d.setTransfers r = .ok t) : t.active = d.active := by
  cases r with
  | ok transfers => cases h; rfl
  | error e => cases h

theorem completeReceive_active {address : Text} {r : DeliveryReceipt} {now : Millis} {t : Device}
    (h : d.completeReceive id address r now = .ok t) : t.active = d.active := by
  unfold Device.completeReceive at h
  cases moved : d.transfers.completeReceive id now with
  | ok transfers =>
    rw [moved] at h
    rcases Transfers.toDbId_cases r.transferId with ⟨_,fits⟩ | ⟨_,e,bad⟩
    · rw [fits] at h
      cases h
      rfl
    · rw [bad] at h
      cases h
  | error e =>
    rw [moved] at h
    cases h

theorem queueFailed_active {address : Text} {r : DeliveryReceipt} {reason : String} {now : Millis}
    {t : Device} (h : d.queueFailed id address r reason now = .ok t) : t.active = d.active := by
  unfold Device.queueFailed at h
  rcases Transfers.toDbId_cases id with ⟨_,fits⟩ | ⟨_,e,bad⟩
  · rw [fits] at h
    rcases Transfers.toDbId_cases r.transferId with ⟨_,fits'⟩ | ⟨_,e,bad⟩
    · rw [fits'] at h
      cases h
      rfl
    · rw [bad] at h
      cases h
  · rw [bad] at h
    cases h

theorem cancelIdleOrShare_active {now : Millis} {t : Device}
    (h : d.cancelIdleOrShare id now = .ok t) : t.active = d.active := by
  unfold Device.cancelIdleOrShare at h
  split at h
  · cases moved : d.transfers.transition id .sharing .stopped now with
    | ok transfers =>
      rw [moved] at h
      cases h
      rfl
    | error e =>
      rw [moved] at h
      cases h
  · cases h

theorem exec_active (quiet : registers o = false) (h : d.exec i c id o = some (a,e)) :
    e.active = d.active := by
  unfold Device.exec at h
  split at h
  · split at h
    · cases h
    · obtain ⟨_,_,eq⟩ := Option.map_eq_some_iff.mp h
      cases eq
      rfl
  · cases o with
    | activate | deactivate | takeActive => cases quiet
    | acquireSlot =>
      simp only [Device.act] at h
      split at h
      · cases h
      · cases h
        rfl
    | startReceive up =>
      rw [show e = _ from (congrArg Prod.snd (Option.some.inj h)).symm]
      exact statement_active fun t ok => setTransfers_active ok
    | markCancelled =>
      rw [show e = _ from (congrArg Prod.snd (Option.some.inj h)).symm]
      exact statement_active fun t ok => setTransfers_active ok
    | markFailed =>
      rw [show e = _ from (congrArg Prod.snd (Option.some.inj h)).symm]
      exact statement_active fun t ok => setTransfers_active ok
    | completeReceive =>
      rw [show e = _ from (congrArg Prod.snd (Option.some.inj h)).symm]
      exact statement_active fun t ok => completeReceive_active ok
    | queueFailed =>
      rw [show e = _ from (congrArg Prod.snd (Option.some.inj h)).symm]
      exact statement_active fun t ok => queueFailed_active ok
    | cancelIdleOrShare =>
      rw [show e = _ from (congrArg Prod.snd (Option.some.inj h)).symm]
      exact statement_active fun t ok => cancelIdleOrShare_active ok
    | recordArtifact new =>
      rw [show e = _ from (congrArg Prod.snd (Option.some.inj h)).symm]
      refine statement_active fun t ok => ?_
      cases recorded : recordReceivedArtifact d.artifacts new c.fresh c.now with
      | ok artifacts =>
        rw [recorded] at ok
        cases ok
        rfl
      | error e =>
        rw [recorded] at ok
        cases ok
    | filterPeerAddr | encodeAddress | createDir | connect | download | activateEligibility
      | requestApproval | getSizes | loadCollection | transferLocalId | exportBlob | releaseSlot =>
      cases Option.some.inj h
      rfl

/-- A status that a receiving row is moved to is there once its statement has not failed. -/
theorem transition_leaves {t : Transfers} {next : TransferStatus} {now : Millis}
    (terminal : TransferStatus.receiving.canTransitionTo next = true) (fits : id < 9223372036854775808)
    (here : (t.find id).any (·.status = .receiving) = true) :
    ∃ v, t.transition id .receiving next now = .ok v ∧ (v.find id).any (·.status = .receiving) = false := by
  rw [Option.any_eq_true] at here
  obtain ⟨row,found,was⟩ := here
  have was : row.status = .receiving := of_decide_eq_true was
  have other : next ≠ .receiving := by
    rintro rfl
    cases terminal
  obtain ⟨v,ok⟩ : ∃ v, t.transition id .receiving next now = .ok v := by
    unfold Transfers.transition
    rw [if_neg (by simp [terminal])]
    rcases Transfers.toDbId_cases id with ⟨_,db⟩ | ⟨large,_⟩
    · rw [db]
      have changed : t.affects (fun row => row.transferId = id && row.status = .receiving) = true := by
        rw [Table.affects_key,found]
        simpa using was
      exact ⟨_,if_pos changed⟩
    · exact absurd fits large
  refine ⟨v,ok,?_⟩
  rcases Transfers.transition_ok ok with ⟨row',_,_,after⟩ | ⟨rfl,row',found',status⟩
  · rw [after id,if_pos rfl]
    simpa using other
  · cases found.symm.trans found'
    exact absurd (status.symm.trans was) other

/-- A row that has been completed is not receiving. -/
theorem completed_leaves {address : Text} {r : DeliveryReceipt} {done : Ans (.completeReceive k address r)}
    (h : d.exec i c id (.completeReceive k address r) = some (done,e)) (ok : done = .ok ()) :
    receiving e k = false := by
  subst ok
  unfold Device.exec at h
  split at h
  · split at h
    · cases h
    · cases h
  · rcases statement_cases (Option.some.inj h).symm with eq | ⟨t,_,ok,eq⟩
    · cases eq
    · cases eq
      unfold Device.completeReceive at ok
      cases moved : d.transfers.completeReceive k c.now with
      | ok transfers =>
        rw [moved] at ok
        obtain ⟨row,_,_,after⟩ := Transfers.completeReceive_ok moved
        rcases Transfers.toDbId_cases r.transferId with ⟨_,fits⟩ | ⟨_,e,bad⟩
        · rw [fits] at ok
          cases ok
          show (transfers.find k).any _ = false
          rw [after k,if_pos rfl]
          rfl
        · rw [bad] at ok
          cases ok
      | error e =>
        rw [moved] at ok
        cases ok

end Rows


/-! The invariant, and what the others leave to a receive. -/

/-- A receiving row is the affair of a receive that has not returned; a receive that may still
write a status has started last; an active entry belongs to a receive that is yet to remove
it, and one receive of an id at a time has that to do. -/
structure Inv (s : Seen) : Prop where
  storable : ∀ id, receiving s.state id = true → id < 9223372036854775808
  responsible : ∀ id, receiving s.state id = true →
    ∃ i, s.history.writer id = some i ∧ (i,id) ∈ s.history.running
  written : ∀ i id, (i,id) ∈ s.history.bound → s.history.writer id = some i
  held : ∀ i id, s.state.active id = some i → (i,id) ∈ s.history.entered
  alone : ∀ i k id, (i,id) ∈ s.history.entered → (k,id) ∈ s.history.entered → i = k
  unharmed : s.history.harmed = []

/-- The row is not receiving, or it is not receive `i` that it is receiving for. -/
def Off (i : Nat) (id : TransferId) (s : Seen) : Prop := mine s i id = false

/-- The row is settled, or a cancel that has taken the entry will settle it. -/
def Taken (i : Nat) (id : TransferId) (s : Seen) : Prop :=
  (∃ k, (k,id) ∈ s.history.pending) ∨ Off i id s

/-- The cancel branch of receive `i` is not ready, or a cancel has made it so. -/
def Entry (i : Nat) (id : TransferId) (s : Seen) : Prop := s.state.active id = some i ∨ Taken i id s

structure Kept (i : Nat) (s t : Seen) : Prop where
  running : ∀ id, (i,id) ∈ t.history.running ↔ (i,id) ∈ s.history.running
  bound : ∀ id, (i,id) ∈ t.history.bound ↔ (i,id) ∈ s.history.bound
  entered : ∀ id, (i,id) ∈ t.history.entered ↔ (i,id) ∈ s.history.entered
  off : ∀ id, Off i id s → Off i id t
  taken : ∀ id, Taken i id s → Taken i id t
  entry : ∀ id, Entry i id s → Entry i id t

theorem Kept.refl (i : Nat) (s : Seen) : Kept i s s :=
  ⟨fun _ => Iff.rfl,fun _ => Iff.rfl,fun _ => Iff.rfl,fun _ h => h,fun _ h => h,fun _ h => h⟩

theorem Kept.trans {i : Nat} {s t u : Seen} (first : Kept i s t) (second : Kept i t u) : Kept i s u where
  running id := (second.running id).trans (first.running id)
  bound id := (second.bound id).trans (first.bound id)
  entered id := (second.entered id).trans (first.entered id)
  off id here := second.off id (first.off id here)
  taken id here := second.taken id (first.taken id here)
  entry id here := second.entry id (first.entry id here)

def terms : Terms Seen where
  known _ := True
  inv := Inv
  rely := Kept
  refl := Kept.refl
  trans _ := Kept.trans

section Steps

variable {s t u : Seen} {i j k : Nat} {id id' : TransferId} {l : Calls} {e e' : Nat × TransferId}

theorem mem_without : e ∈ l.without e' ↔ e ∈ l ∧ e ≠ e' := by
  unfold Calls.without
  simp

/-- What removes the entries of one call leaves those of another. -/
theorem mem_without_of_ne (other : j ≠ i) : (j,id) ∈ l.without (i,id') ↔ (j,id) ∈ l := by
  rw [mem_without]
  refine and_iff_left fun same => other (congrArg Prod.fst same)

theorem mem_cons_of_ne (other : j ≠ i) : (j,id) ∈ (i,id') :: l ↔ (j,id) ∈ l := by
  rw [List.mem_cons]
  refine or_iff_right fun same => other (congrArg Prod.fst same)

theorem off_of_settled (settled : receiving s.state id = false) : Off i id s := by
  unfold Off mine
  rw [settled]
  rfl

theorem off_of_other (other : s.history.writer id ≠ some i) : Off i id s := by
  unfold Off mine
  simp [other]

/-- The rows have only left the status, and the history is another one with the same writers. -/
theorem off_later (rows : receiving t.state id = true → receiving s.state id = true)
    (writer : t.history.writer = s.history.writer) (here : Off i id s) : Off i id t := by
  unfold Off mine at here ⊢
  rw [writer]
  cases status : receiving t.state id with
  | false => rfl
  | true =>
    rw [rows status] at here
    exact here

/-- A step that starts no receive and leaves the map of active transfers, the running receives
and the pending cancels alone. -/
structure Calm (s t : Seen) : Prop where
  rows : ∀ id, receiving t.state id = true → receiving s.state id = true
  active : t.state.active = s.state.active
  writer : t.history.writer = s.history.writer
  running : t.history.running = s.history.running
  entered : t.history.entered = s.history.entered
  pending : t.history.pending = s.history.pending
  harmed : t.history.harmed = s.history.harmed
  bound : ∀ e, e ∈ t.history.bound → e ∈ s.history.bound

theorem Calm.inv (calm : Calm s t) (inv : Inv s) : Inv t where
  storable id here := inv.storable id (calm.rows id here)
  responsible id here := by
    rw [calm.writer,calm.running]
    exact inv.responsible id (calm.rows id here)
  written i id here := by
    rw [calm.writer]
    exact inv.written i id (calm.bound _ here)
  held i id here := by
    rw [calm.entered]
    exact inv.held i id (calm.active ▸ here)
  alone i k id first second := by
    rw [calm.entered] at first second
    exact inv.alone i k id first second
  unharmed := calm.harmed.trans inv.unharmed

theorem Calm.off (calm : Calm s t) (here : Off i id s) : Off i id t :=
  off_later (calm.rows id) calm.writer here

theorem Calm.taken (calm : Calm s t) (here : Taken i id s) : Taken i id t := by
  unfold Taken
  rw [calm.pending]
  exact here.imp_right calm.off

theorem Calm.entry (calm : Calm s t) (here : Entry i id s) : Entry i id t := by
  unfold Entry
  rw [calm.active]
  exact here.imp_right calm.taken

theorem Calm.kept (calm : Calm s t) (bound : ∀ id, (i,id) ∈ t.history.bound ↔ (i,id) ∈ s.history.bound) :
    Kept i s t where
  running id := by rw [calm.running]
  bound := bound
  entered id := by rw [calm.entered]
  off id := calm.off
  taken id := calm.taken
  entry id := calm.entry

end Steps

section Operations

variable {l : CoreLimits} {s t u : Seen} {i j k : Nat} {call : Call} {id : TransferId} {o : Op}
  {c : Choice} {a : Ans o}

abbrev Does (l : CoreLimits) (i : Nat) (call : Call) {α : Type} (p : Task α) (post : α → Seen → Prop)
    (s : Seen) : Prop := Safe ((machine l).restrict minds) free terms i call p post s

/-- What an operation does, and that it was permitted. -/
theorem performed (h : ((machine l).restrict minds).exec s i call o c = some (a,u)) :
    permits s i call o c = true ∧ ∃ e, s.state.exec i c call.transferId o = some (a,e) ∧
      u = ⟨e,record s.history s.state i call o a⟩ := by
  obtain ⟨permitted,h⟩ := restrict_exec.mp h
  exact ⟨permitted,observe_exec h⟩

/-- The receive has given up, or has completed. -/
def settles : (o : Op) → Ans o → Bool
  | .completeReceive .., .ok _ => true
  | o, a => gaveUp o a

/-- The operations that leave in the history at most that a receive has settled. -/
def plain : Op → Bool
  | .startReceive _ | .activate _ | .deactivate _ | .markFailed _ | .releaseSlot | .takeActive _ |
    .markCancelled _ => false
  | _ => true

theorem plain_start {up : TransferUpsert} (h : plain o = true) : o ≠ .startReceive up := by
  rintro rfl
  cases h

theorem plain_registers (h : plain o = true) : registers o = false := by
  cases o <;> first | rfl | cases h

theorem record_plain (h : History) (d : Device) (i : Nat) (call : Call) (a : Ans o)
    (simple : plain o = true) :
    record h d i call o a = h ∨ (settles o a = true ∧ record h d i call o a = h.unbind (i,call.transferId)) := by
  cases call with
  | receive t target =>
    have eq : record h d i (.receive t target) o a =
        if settles o a then h.unbind (i,t.transferId) else h := by
      cases o with
      | completeReceive => cases a <;> rfl
      | _ => first | rfl | cases simple
    rw [eq]
    split
    · rename_i settled
      exact .inr ⟨settled,rfl⟩
    · exact .inl rfl
  | cancel id =>
    left
    cases o <;> first | rfl | cases simple

theorem unbind_mem {h : History} {e e' : Nat × TransferId} (here : e ∈ (h.unbind e').bound) : e ∈ h.bound :=
  (mem_without.mp here).1

theorem plain_calm (simple : plain o = true) {e : Device}
    (ran : s.state.exec i c call.transferId o = some (a,e)) :
    Calm s ⟨e,record s.history s.state i call o a⟩ := by
  have rows (id : TransferId) : receiving e id = true → receiving s.state id = true :=
    exec_receiving (fun up => plain_start simple) ran
  have active := exec_active (plain_registers simple) ran
  rcases record_plain s.history s.state i call a simple with
    eq | ⟨_,eq⟩
  · rw [eq]
    exact ⟨rows,active,rfl,rfl,rfl,rfl,rfl,fun _ here => here⟩
  · rw [eq]
    exact ⟨rows,active,rfl,rfl,rfl,rfl,rfl,fun _ => unbind_mem⟩

/-- Only receive `i` itself stops being bound by such a step. -/
theorem plain_others (simple : plain o = true) {e : Device}
    (ran : s.state.exec i c call.transferId o = some (a,e)) (other : j ≠ i) :
    Kept j s ⟨e,record s.history s.state i call o a⟩ := by
  refine (plain_calm simple ran).kept fun id => ?_
  rcases record_plain s.history s.state i call a simple with
    eq | ⟨_,eq⟩
  · rw [eq]
  · rw [eq]
    exact mem_without_of_ne other

end Operations


/-! A receive. -/

section Receive

variable {l : CoreLimits} {s u v : Seen} {i j k : Nat} {id : TransferId} {o : Op} {c : Choice} {a : Ans o}
  {t : ParsedTransferTicket} {target : ReceiveTarget} {call : Call} {α : Type}

/-- Receive `i` is inside its `select!`. -/
structure Busy (i : Nat) (id : TransferId) (s : Seen) : Prop where
  bound : (i,id) ∈ s.history.bound
  entered : (i,id) ∈ s.history.entered
  entry : Entry i id s

/-- Receive `i` has taken the cancel branch, and has yet to remove its entry. -/
structure Gone (i : Nat) (id : TransferId) (s : Seen) : Prop where
  entered : (i,id) ∈ s.history.entered
  taken : Taken i id s

/-- Receive `i` has completed its row, and has yet to remove its entry. -/
structure Done (i : Nat) (id : TransferId) (s : Seen) : Prop where
  entered : (i,id) ∈ s.history.entered
  off : Off i id s

theorem Busy.later (here : Busy i id s) (kept : Kept i s u) : Busy i id u :=
  ⟨(kept.bound id).mpr here.bound,(kept.entered id).mpr here.entered,kept.entry id here.entry⟩

theorem Gone.later (here : Gone i id s) (kept : Kept i s u) : Gone i id u :=
  ⟨(kept.entered id).mpr here.entered,kept.taken id here.taken⟩

theorem Done.later (here : Done i id s) (kept : Kept i s u) : Done i id u :=
  ⟨(kept.entered id).mpr here.entered,kept.off id here.off⟩

/-- Only the cancel branch gives a receive up, and it is not ready while the entry is there. -/
theorem gave_up {d e : Device} (h : d.exec i c id o = some (a,e)) (gave : gaveUp o a = true) :
    d.active id ≠ some i := by
  unfold Device.exec at h
  split at h
  · split at h
    · cases h
    · assumption
  · exfalso
    cases o with
    | createDir | connect | download | activateEligibility | requestApproval | getSizes | loadCollection
      | exportBlob =>
      have answer := congrArg Prod.fst (Option.some.inj h)
      dsimp only at answer
      split at answer <;> (subst answer; cases gave)
    | transferLocalId =>
      have answer := congrArg Prod.fst (Option.some.inj h)
      dsimp only at answer
      split at answer
      · subst answer
        cases gave
      · split at answer <;> (subst answer; cases gave)
    | recordArtifact | completeReceive =>
      rcases statement_cases (Option.some.inj h).symm with eq | ⟨t,_,_,eq⟩ <;> (cases eq; cases gave)
    | _ => cases gave

/-- The operations outside the `select!` that write nothing a receive looks at. -/
def aside : Op → Bool
  | .acquireSlot | .filterPeerAddr _ | .encodeAddress _ | .queueFailed .. | .cancelIdleOrShare _ => true
  | _ => false

theorem aside_plain (h : aside o = true) : plain o = true := by
  cases o <;> first | rfl | cases h

theorem aside_settles (h : aside o = true) : settles o a = false := by
  cases o <;> first | rfl | cases h

theorem quiet_aside (quiet : aside o = true) : Quiet ((machine l).restrict minds) free terms i call o := by
  intro s _ inv c a u _ h
  obtain ⟨_,e,ran,rfl⟩ := performed h
  have calm := plain_calm (aside_plain quiet) ran
  refine ⟨calm.inv inv,fun j => calm.kept fun id => ?_⟩
  rcases record_plain s.history s.state i call a (aside_plain quiet) with eq | ⟨settled,_⟩
  · rw [eq]
  · rw [aside_settles quiet] at settled
    cases settled

/-- An operation inside the `select!`, from where a receive may still fail. -/
theorem does_inside (simple : plain o = true) (completes : ∀ id' address r, o ≠ .completeReceive id' address r)
    (busy : Busy i t.transferId s) : Does l i (.receive t target) (op o)
      (fun r u => if gaveUp o r then Gone i t.transferId u else Busy i t.transferId u) s := by
  intro u _ inv kept c r v _ h
  obtain ⟨_,e,ran,rfl⟩ := performed h
  have calm := plain_calm simple ran
  have busy := busy.later kept
  refine ⟨⟨calm.inv inv,fun j other => plain_others simple ran other⟩,?_⟩
  have settles_eq : settles o r = gaveUp o r := by
    cases o with
    | completeReceive id' address receipt => exact absurd rfl (completes id' address receipt)
    | _ => rfl
  show if gaveUp o r then _ else _
  split
  · rename_i gave
    exact ⟨calm.entered ▸ busy.entered,
      calm.taken (busy.entry.resolve_left (gave_up ran gave))⟩
  · rename_i going
    refine ⟨?_,calm.entered ▸ busy.entered,calm.entry busy.entry⟩
    rcases record_plain u.history u.state i (.receive t target) r simple with eq | ⟨settled,_⟩
    · rw [eq]
      exact busy.bound
    · exact absurd (settles_eq.symm.trans settled) going

/-- After the row has been completed nothing brings it back. -/
theorem does_done (simple : plain o = true) (done : Done i t.transferId s) :
    Does l i (.receive t target) (op o) (fun _ u => Done i t.transferId u) s := by
  intro u _ inv kept c r v _ h
  obtain ⟨_,e,ran,rfl⟩ := performed h
  have calm := plain_calm simple ran
  have done := done.later kept
  exact ⟨⟨calm.inv inv,fun j other => plain_others simple ran other⟩,
    calm.entered ▸ done.entered,calm.off done.off⟩

/-- What a part of the `select!` leaves, by its result. -/
def Mid (i : Nat) (id : TransferId) : Except Stop α → Seen → Prop
  | .ok _, s | .error (.failed _), s => Busy i id s
  | .error .cancelled, s => Gone i id s

/-- What the whole of it leaves. -/
def Ended (i : Nat) (id : TransferId) : Except Stop α → Seen → Prop
  | .ok _, s => Done i id s
  | .error (.failed _), s => Busy i id s
  | .error .cancelled, s => Gone i id s

theorem does_complete {address : Text} {receipt : DeliveryReceipt} (busy : Busy i t.transferId s) :
    Does l i (.receive t target) (op (.completeReceive t.transferId address receipt))
      (Ended i t.transferId) s := by
  intro u _ inv kept c r v _ h
  obtain ⟨_,e,ran,rfl⟩ := performed h
  have simple : plain (.completeReceive t.transferId address receipt) = true := rfl
  have calm := plain_calm simple ran
  have busy := busy.later kept
  refine ⟨⟨calm.inv inv,fun j other => plain_others simple ran other⟩,?_⟩
  rcases r with (code | _) | _
  · exact ⟨busy.bound,busy.entered,calm.entry busy.entry⟩
  · exact ⟨busy.entered,calm.taken (busy.entry.resolve_left (gave_up ran rfl))⟩
  · exact ⟨busy.entered,off_of_settled (completed_leaves ran rfl)⟩

theorem mid_andThen {β : Type} {p : Task (Except Stop α)} {f : α → Task (Except Stop β)}
    (first : Does l i (.receive t target) p (Mid i t.transferId) s)
    (rest : ∀ a u, Busy i t.transferId u → Does l i (.receive t target) (f a) (Mid i t.transferId) u) :
    Does l i (.receive t target) (p.andThen f) (Mid i t.transferId) s := by
  refine safe_andThen (safe_mono (fun r u here => ⟨?_,?_⟩) first)
  · rintro a rfl
    exact rest a u here
  · rintro (code | _) rfl
    · exact here
    · exact here

theorem ended_andThen {β : Type} {p : Task (Except Stop α)} {f : α → Task (Except Stop β)}
    (first : Does l i (.receive t target) p (Mid i t.transferId) s)
    (rest : ∀ a u, Busy i t.transferId u → Does l i (.receive t target) (f a) (Ended i t.transferId) u) :
    Does l i (.receive t target) (p.andThen f) (Ended i t.transferId) s := by
  refine safe_andThen (safe_mono (fun r u here => ⟨?_,?_⟩) first)
  · rintro a rfl
    exact rest a u here
  · rintro (code | _) rfl
    · exact here
    · exact here

end Receive


section Inner

variable {l : CoreLimits} {s : Seen} {i : Nat} {t : ParsedTransferTicket} {target : ReceiveTarget}

/-- `bail!` fails without an operation. -/
theorem does_bail {α : Type} (busy : Busy i t.transferId s) :
    Does l i (.receive t target) (bail : Task (Except Stop α)) (Mid i t.transferId) s := busy

theorem does_exportBlob {localId : Text} {file : String × Text} (busy : Busy i t.transferId s) :
    Does l i (.receive t target) (exportBlob l t.transferId localId target file) (Mid i t.transferId) s := by
  unfold exportBlob
  split
  · exact does_bail busy
  · refine mid_andThen (safe_mono (fun r u here => ?_) (does_inside rfl nofun busy)) fun published u busy => ?_
    · rcases r with (code | _) | _ <;> exact here
    · split
      · exact busy
      · refine safe_mono (fun r u here => ?_) (does_inside rfl nofun busy)
        rcases r with (code | _) | _ <;> exact here

theorem does_exportEach {localId : Text} {files : List (String × Text)} (busy : Busy i t.transferId s) :
    Does l i (.receive t target) (exportEach l t.transferId localId target files)
      (Mid i t.transferId) s := by
  induction files generalizing s with
  | nil => exact busy
  | cons file files ih => exact mid_andThen (does_exportBlob busy) fun _ u busy => ih busy

theorem does_exportCollection {files : List (String × Text)} (busy : Busy i t.transferId s) :
    Does l i (.receive t target) (exportCollection l t.transferId target files)
      (Mid i t.transferId) s := by
  refine mid_andThen (safe_mono (fun r u here => ?_) (does_inside rfl nofun busy))
    fun localId u busy => does_exportEach busy
  rcases r with (code | _) | _ <;> exact here

theorem does_approved {address : Text} {receipt : DeliveryReceipt} {senderName : Option Text}
    (busy : Busy i t.transferId s) : Does l i (.receive t target)
      (receiveApproved l t target address receipt senderName) (Ended i t.transferId) s := by
  unfold receiveApproved
  refine ended_andThen (safe_mono (fun r u here => ?_) (does_inside rfl nofun busy)) fun _ u busy => ?_
  · rcases r with (code | _) | _ <;> exact here
  refine ended_andThen (safe_mono (fun r u here => ?_) (does_inside rfl nofun busy)) fun sizes u busy => ?_
  · rcases r with (code | _) | _ <;> exact here
  split
  · exact busy
  · split
    · exact busy
    · split
      · exact busy
      · refine ended_andThen (safe_mono (fun r u here => ?_) (does_inside rfl nofun busy)) fun _ u busy => ?_
        · rcases r with (code | _) | _ <;> exact here
        refine ended_andThen (safe_mono (fun r u here => ?_) (does_inside rfl nofun busy)) fun files u busy => ?_
        · rcases r with (code | _) | _ <;> exact here
        refine ended_andThen (does_exportCollection busy) fun _ u busy => ?_
        refine safe_andThen (safe_mono (fun r u here => ⟨?_,?_⟩) (does_complete busy))
        · rintro _ rfl
          refine safe_bind (safe_mono (fun r u done => ?_) (does_done rfl here))
          -- a cancellation after the completion finds the row settled
          rcases r with (code | _) | _
          · exact done
          · exact ⟨done.entered,.inr done.off⟩
          · exact done
        · rintro (code | _) rfl
          · exact here
          · exact here

theorem does_createDir (busy : Busy i t.transferId s) :
    Does l i (.receive t target) (createDir target) (Mid i t.transferId) s := by
  cases target with
  | directory path =>
    refine safe_mono (fun r u here => ?_) (does_inside rfl nofun busy)
    rcases r with (code | _) | _ <;> exact here
  | outputSink | outputSinkV2 => exact busy

theorem does_inner {address : Text} (busy : Busy i t.transferId s) :
    Does l i (.receive t target) (receiveInner l t target address)
      (fun r u => Ended i t.transferId r.1 u) s := by
  unfold receiveInner
  refine safe_bind (safe_mono (fun r u here => ?_) (mid_andThen (does_createDir busy) fun _ u busy => ?_))
  · rcases r with (code | _) | ⟨receipt,senderName⟩
    · exact here
    · exact here
    · refine safe_bind (safe_mono (fun r u here => ?_) (does_approved here))
      rcases r with (code | _) | _
      · exact here
      · exact here
      · exact here
  · refine safe_mono (fun r u here => ?_) (does_inside rfl nofun busy)
    rcases r with (code | _) | _ <;> exact here

end Inner


/-! The steps that begin and end a receive. -/

section Bounds

variable {l : CoreLimits} {s : Seen} {i : Nat} {t : ParsedTransferTicket} {target : ReceiveTarget}

/-- Before it starts, a receive has nothing at the row. -/
structure Fresh (i : Nat) (id : TransferId) (s : Seen) : Prop where
  absent : (i,id) ∉ s.history.running
  off : Off i id s

theorem Fresh.later {u : Seen} {id : TransferId} (here : Fresh i id s) (kept : Kept i s u) :
    Fresh i id u :=
  ⟨fun there => here.absent ((kept.running id).mp there),kept.off id here.off⟩

theorem startReceive_exec {d e : Device} {c : Choice} {id : TransferId} {up : TransferUpsert}
    {a : Ans (.startReceive up)} (h : d.exec i c id (.startReceive up) = some (a,e)) :
    (e = d ∧ a = .error (.failed "repository")) ∨ (a = .ok () ∧ c.fails = false ∧
      ∃ transfers, d.transfers.startReceive up c.fresh c.now = .ok transfers ∧ e = { d with transfers }) := by
  unfold Device.exec at h
  split at h
  · split at h <;> cases h
  · rcases statement_cases (Option.some.inj h).symm with eq | ⟨v,works,ok,eq⟩
    · cases eq
      exact .inl ⟨rfl,rfl⟩
    · cases eq
      cases started : d.transfers.startReceive up c.fresh c.now with
      | ok transfers =>
        rw [started] at ok
        cases ok
        exact .inr ⟨rfl,works,transfers,rfl,rfl⟩
      | error e =>
        rw [started] at ok
        cases ok

theorem does_start (fresh : Fresh i t.transferId s) :
    Does l i (.receive t target) (op (.startReceive (upsertOf t))) (fun r u =>
      match r with
      | .ok _ => (i,t.transferId) ∈ u.history.bound
      | .error _ => Off i t.transferId u) s := by
  intro u _ inv kept c r v _ h
  obtain ⟨permitted,e,ran,rfl⟩ := performed h
  have fresh := fresh.later kept
  rcases startReceive_exec ran with ⟨rfl,rfl⟩ | ⟨rfl,works,transfers,started,rfl⟩
  · exact ⟨⟨inv,fun j _ => Kept.refl j _⟩,fresh.off⟩
  · obtain ⟨fits,restarts,after⟩ := Transfers.startReceive_ok rfl rfl started
    have unbound (j : Nat) : (j,t.transferId) ∉ u.history.bound := by
      intro bound
      simp only [permits,works,fits,Bool.or_eq_true,Bool.false_or,decide_true,Bool.not_true] at permitted
      rcases permitted with running | free
      · rw [Option.any_eq_true] at running
        obtain ⟨row,found,stands⟩ := running
        rw [restarts row found] at stands
        cases stands
      · have other := List.all_eq_true.mp free _ bound
        simp [upsertOf] at other
    have elsewhere (id : TransferId) (other : id ≠ t.transferId)
        (here : receiving { u.state with transfers } id = true) : receiving u.state id = true := by
      obtain ⟨row,found,status⟩ := receiving_iff.mp here
      exact receiving_iff.mpr ⟨row,((after id).trans (if_neg other)).symm.trans found,status⟩
    have writer (id : TransferId) (other : id ≠ t.transferId) :
        Function.update u.history.writer t.transferId (some i) id = u.history.writer id :=
      Function.update_of_ne other _ _
    refine ⟨⟨⟨fun id here => ?_,fun id here => ?_,fun j id here => ?_,inv.held,inv.alone,inv.unharmed⟩,
      fun j other => ?_⟩,List.mem_cons_self⟩
    · by_cases same : id = t.transferId
      · exact same ▸ fits.1
      · exact inv.storable id (elsewhere id same here)
    · by_cases same : id = t.transferId
      · subst same
        exact ⟨i,Function.update_self _ _ _,List.mem_cons_self⟩
      · obtain ⟨j,wrote,running⟩ := inv.responsible id (elsewhere id same here)
        exact ⟨j,(writer id same).trans wrote,List.mem_cons_of_mem _ running⟩
    · by_cases same : id = t.transferId
      · subst same
        rcases List.mem_cons.mp here with eq | bound
        · cases eq
          exact Function.update_self _ _ _
        · exact absurd bound (unbound j)
      · rcases List.mem_cons.mp here with eq | bound
        · cases eq
          exact absurd rfl same
        · exact (writer id same).trans (inv.written j id bound)
    · have off (id : TransferId) (here : Off j id u) : Off j id
          ⟨{ u.state with transfers },record u.history u.state i (.receive t target)
            (.startReceive (upsertOf t)) (.ok ())⟩ := by
        by_cases same : id = t.transferId
        · subst same
          refine off_of_other ?_
          rw [show History.writer _ t.transferId = some i from Function.update_self _ _ _]
          exact fun eq => other (Option.some.inj eq).symm
        · cases status : receiving { u.state with transfers } id with
          | false => exact off_of_settled status
          | true =>
            unfold Off mine at here ⊢
            rw [elsewhere id same status] at here
            rw [show History.writer _ id = u.history.writer id from writer id same,status]
            exact here
      exact ⟨fun id => mem_cons_of_ne other,fun id => mem_cons_of_ne other,fun id => Iff.rfl,off,
        fun id here => here.imp_right (off id),fun id here => here.imp_right (Or.imp_right (off id))⟩

theorem does_activate (bound : (i,t.transferId) ∈ s.history.bound) :
    Does l i (.receive t target) (op (.activate t.transferId)) (fun _ u => Busy i t.transferId u) s := by
  intro u _ inv kept c r v _ h
  obtain ⟨permitted,e,ran,rfl⟩ := performed h
  have bound := (kept.bound _).mpr bound
  have free (j : Nat) : (j,t.transferId) ∉ u.history.entered := by
    intro entered
    have other := List.all_eq_true.mp permitted _ entered
    simp at other
  obtain rfl : e = u.state.setActive t.transferId (some i) := by
    unfold Device.exec at ran
    split at ran
    · split at ran <;> cases ran
    · exact (congrArg Prod.snd (Option.some.inj ran)).symm
  have active (id : TransferId) (other : id ≠ t.transferId) :
      Function.update u.state.active t.transferId (some i) id = u.state.active id :=
    Function.update_of_ne other _ _
  refine ⟨⟨⟨inv.storable,inv.responsible,inv.written,fun j id here => ?_,fun j k id first second => ?_,
    inv.unharmed⟩,fun j other => ?_⟩,bound,List.mem_cons_self,.inl (Function.update_self _ _ _)⟩
  · by_cases same : id = t.transferId
    · subst same
      have here : Function.update u.state.active t.transferId (some i) t.transferId = some j := here
      rw [Function.update_self] at here
      cases here
      exact List.mem_cons_self
    · exact List.mem_cons_of_mem _ (inv.held j id ((active id same).symm.trans here))
  · rcases List.mem_cons.mp first with eq | first <;> rcases List.mem_cons.mp second with eq' | second
    · exact (congrArg Prod.fst eq).trans (congrArg Prod.fst eq').symm
    · cases eq
      exact absurd second (free k)
    · cases eq'
      exact absurd first (free j)
    · exact inv.alone j k id first second
  · refine ⟨fun _ => Iff.rfl,fun _ => Iff.rfl,fun id => mem_cons_of_ne other,fun _ here => here,
      fun _ here => here,fun id here => ?_⟩
    by_cases same : id = t.transferId
    · subst same
      rcases here with mine | taken
      · exact absurd (inv.held j _ mine) (free j)
      · exact .inr taken
    · exact here.imp_left fun mine => (active id same).trans mine

/-- What is left of that once the entry has been removed. -/
def Left {α : Type} (i : Nat) (id : TransferId) : Except Stop α → Seen → Prop
  | .ok _, s => Off i id s
  | .error (.failed _), s => (i,id) ∈ s.history.bound
  | .error .cancelled, s => Taken i id s

/-- The entry that a receive removes is its own. -/
theorem does_deactivate {α : Type} {result : Except Stop α} (ended : Ended i t.transferId result s) :
    Does l i (.receive t target) (op (.deactivate t.transferId))
      (fun _ u => Left i t.transferId result u) s := by
  intro u _ inv kept c r v _ h
  obtain ⟨_,e,ran,rfl⟩ := performed h
  have entered : (i,t.transferId) ∈ u.history.entered := by
    refine (kept.entered _).mpr ?_
    rcases result with (code | _) | _
    · exact ended.entered
    · exact ended.entered
    · exact ended.entered
  obtain rfl : e = u.state.setActive t.transferId none := by
    unfold Device.exec at ran
    split at ran
    · split at ran <;> cases ran
    · exact (congrArg Prod.snd (Option.some.inj ran)).symm
  have active (id : TransferId) (j : Nat)
      (here : Function.update u.state.active t.transferId none id = some j) :
      id ≠ t.transferId ∧ u.state.active id = some j := by
    rw [Function.update_apply] at here
    split at here
    · cases here
    · rename_i other
      exact ⟨other,here⟩
  have unharmed : (if (u.state.active t.transferId).any (· ≠ i) then i :: u.history.harmed
      else u.history.harmed) = u.history.harmed := by
    refine if_neg ?_
    rw [Option.any_eq_true]
    rintro ⟨j,held,other⟩
    exact of_decide_eq_true other (inv.alone j i _ (inv.held j _ held) entered)
  refine ⟨⟨⟨inv.storable,inv.responsible,inv.written,fun j id here => ?_,fun j k id first second => ?_,
    unharmed.trans inv.unharmed⟩,fun j other => ?_⟩,?_⟩
  · obtain ⟨elsewhere,held⟩ := active id j here
    refine mem_without.mpr ⟨inv.held j id held,fun same => elsewhere (congrArg Prod.snd same)⟩
  · exact inv.alone j k id (mem_without.mp first).1 (mem_without.mp second).1
  · refine ⟨fun _ => Iff.rfl,fun _ => Iff.rfl,fun id => mem_without_of_ne other,fun _ here => here,
      fun _ here => here,fun id here => ?_⟩
    rcases here with held | taken
    · by_cases same : id = t.transferId
      · subst same
        exact absurd (inv.alone j i _ (inv.held j _ held) entered) other
      · exact .inl ((Function.update_of_ne same _ _).trans held)
    · exact .inr taken
  · rcases result with (code | _) | _
    · exact (ended.later kept).bound
    · exact (ended.later kept).taken
    · exact (ended.later kept).off

end Bounds


section Settling

variable {l : CoreLimits} {s : Seen} {i : Nat} {t : ParsedTransferTicket} {target : ReceiveTarget}
  {id : TransferId}

/-- A transition of a receiving row that does not fail settles it, whoever asks for it. -/
theorem moved_settles {d : Device} {c : Choice} {next : TransferStatus} {r : Except Stop Unit × Device}
    (terminal : TransferStatus.receiving.canTransitionTo next = true)
    (storable : receiving d id = true → id < 9223372036854775808)
    (works : receiving d id = true → c.fails = false)
    (ran : r = statement d c.fails (d.setTransfers (d.transfers.transition id .receiving next c.now)))
    (rows : receiving r.2 id = true → receiving d id = true) : receiving r.2 id = false := by
  rw [← Bool.not_eq_true]
  intro still
  have was := rows still
  obtain ⟨v,ok,left⟩ : ∃ v, d.transfers.transition id .receiving next c.now = .ok v ∧
      (v.find id).any (·.status = .receiving) = false := transition_leaves terminal (storable was) was
  rw [ran,works was,ok] at still
  exact Bool.false_ne_true (left.symm.trans still)

theorem does_markFailed (bound : (i,t.transferId) ∈ s.history.bound) :
    Does l i (.receive t target) (op (.markFailed t.transferId)) (fun _ u => Off i t.transferId u) s := by
  intro u _ inv kept c r v _ h
  obtain ⟨permitted,e,ran,rfl⟩ := performed h
  have writer := inv.written i _ ((kept.bound _).mpr bound)
  have rows (id : TransferId) : receiving e id = true → receiving u.state id = true :=
    exec_receiving (fun _ => by simp) ran
  have active := exec_active rfl ran
  have settled : receiving e t.transferId = false := by
    unfold Device.exec at ran
    split at ran
    · split at ran <;> cases ran
    · have written := (congrArg Prod.snd (Option.some.inj ran)).symm
      dsimp only at written
      subst written
      refine moved_settles rfl (inv.storable _) (fun here => ?_) rfl (rows _)
      simpa [permits,mine,here,writer] using permitted
  have unharmed : (if receiving u.state t.transferId && u.history.writer t.transferId ≠ some i then
      i :: u.history.harmed else u.history.harmed) = u.history.harmed := if_neg (by simp [writer])
  have off (j : Nat) (id : TransferId) (here : Off j id u) : Off j id
      ⟨e,record u.history u.state i (.receive t target) (.markFailed t.transferId) r⟩ :=
    off_later (rows id) rfl here
  refine ⟨⟨⟨fun id here => inv.storable id (rows id here),fun id here => inv.responsible id (rows id here),
    fun j id here => inv.written j id (mem_without.mp here).1,fun j id here => inv.held j id (active ▸ here),
    inv.alone,unharmed.trans inv.unharmed⟩,fun j other => ?_⟩,off_of_settled settled⟩
  refine ⟨fun _ => Iff.rfl,fun id => mem_without_of_ne other,fun _ => Iff.rfl,off j,
    fun id here => here.imp_right (off j id),fun id here => ?_⟩
  unfold Entry
  rw [active]
  exact here.imp_right (Or.imp_right (off j id))

/-- A receive returns with its row settled. -/
theorem does_release (taken : Taken i t.transferId s) :
    Does l i (.receive t target) (op .releaseSlot) (fun _ u => (i,t.transferId) ∉ u.history.running) s := by
  intro u _ inv kept c r v _ h
  obtain ⟨permitted,e,ran,rfl⟩ := performed h
  have rows (id : TransferId) : receiving e id = true → receiving u.state id = true :=
    exec_receiving (fun _ => by simp) ran
  have active := exec_active rfl ran
  have off : Off i t.transferId u := by
    rcases kept.taken _ taken with ⟨k,pending⟩ | off
    · cases here : mine u i t.transferId with
      | false => exact here
      | true =>
        have permitted : (!mine u i t.transferId ||
          u.history.pending.all (·.2 ≠ t.transferId)) = true := permitted
        rw [here] at permitted
        have other := List.all_eq_true.mp permitted _ pending
        simp at other
    · exact off
  have kept' (j : Nat) (id : TransferId) (here : Off j id u) : Off j id
      ⟨e,record u.history u.state i (.receive t target) .releaseSlot r⟩ := off_later (rows id) rfl here
  refine ⟨⟨⟨fun id here => inv.storable id (rows id here),fun id here => ?_,
    fun j id here => inv.written j id (mem_without.mp here).1,fun j id here => inv.held j id (active ▸ here),
    inv.alone,inv.unharmed⟩,fun j other => ?_⟩,fun here => (mem_without.mp here).2 rfl⟩
  · obtain ⟨j,wrote,running⟩ := inv.responsible id (rows id here)
    refine ⟨j,wrote,mem_without.mpr ⟨running,fun same => ?_⟩⟩
    cases same
    unfold Off mine at off
    rw [rows _ here,wrote] at off
    simp at off
  · refine ⟨fun id => mem_without_of_ne other,fun id => mem_without_of_ne other,fun _ => Iff.rfl,kept' j,
      fun id here => here.imp_right (kept' j id),fun id here => ?_⟩
    unfold Entry
    rw [active]
    exact here.imp_right (Or.imp_right (kept' j id))

theorem does_queueReceipt {address : Text} {stop : Stop} {receipt : Option DeliveryReceipt}
    (taken : Taken i t.transferId s) : Does l i (.receive t target)
      (queueReceipt t.transferId address stop receipt) (fun _ u => Taken i t.transferId u) s := by
  cases receipt with
  | none => exact taken
  | some r =>
    exact safe_mono (fun _ u kept => kept.taken _ taken)
      (safe_quiet (T := terms) (Prog.all_perform (quiet_aside rfl)) s)

theorem does_afterwards {address : Text} {result : Except Stop Unit × Option DeliveryReceipt}
    (left : Left i t.transferId result.1 s) : Does l i (.receive t target)
      (afterwards t.transferId address result) (fun _ u => Taken i t.transferId u) s := by
  obtain ⟨(code | _) | _,receipt⟩ := result
  · exact safe_bind (safe_mono (fun _ u off => does_queueReceipt (.inr off)) (does_markFailed left))
  · exact does_queueReceipt left
  · exact .inr left

/-- Between its start and its activation only the address can stop a receive. -/
theorem does_encode (bound : (i,t.transferId) ∈ s.history.bound) :
    Does l i (.receive t target) (op (.encodeAddress t.address)) (fun r u =>
      match r with
      | .ok _ => (i,t.transferId) ∈ u.history.bound
      | .error _ => Off i t.transferId u) s := by
  intro u _ inv kept c r v _ h
  have both := quiet_aside rfl u trivial inv c r v trivial h
  refine ⟨⟨both.1,fun j _ => both.2 j⟩,?_⟩
  obtain ⟨permitted,e,ran,rfl⟩ := performed h
  unfold Device.exec at ran
  split at ran
  · split at ran <;> cases ran
  · cases Option.some.inj ran
    cases fails : c.fails with
    | false =>
      rw [fails] at both
      exact ((both.2 i).bound _).mpr ((kept.bound _).mpr bound)
    | true =>
      rw [fails] at both
      refine (both.2 i).off _ ?_
      have permitted : (!c.fails || !mine u i t.transferId) = true := permitted
      rw [fails] at permitted
      exact (Bool.not_eq_true' _).mp permitted

theorem does_receive (fresh : Fresh i t.transferId s) : Does l i (.receive t target)
    (receiveToTarget l t target) (fun _ u => (i,t.transferId) ∉ u.history.running) s := by
  unfold receiveToTarget
  refine safe_bind (safe_mono (fun r u kept => ?_)
    (safe_quiet (T := terms) (Prog.all_perform (quiet_aside rfl)) s))
  have fresh := fresh.later kept
  rcases r with stop | _
  · exact fresh.absent
  have release (r : Except Stop Unit) (u : Seen) (taken : Taken i t.transferId u) :
      Does l i (.receive t target) (do op .releaseSlot; return r)
        (fun _ u => (i,t.transferId) ∉ u.history.running) u :=
    safe_bind (safe_mono (fun _ u gone => gone) (does_release taken))
  refine safe_bind (safe_mono release ?_)
  refine safe_andThen (safe_mono (fun r u kept => ⟨fun _ _ => ?_,fun _ _ => .inr (fresh.later kept).off⟩)
    (safe_quiet (T := terms) (Prog.all_perform (quiet_aside rfl)) u))
  have fresh := fresh.later kept
  refine safe_andThen (safe_mono (fun r u here => ⟨?_,?_⟩) (does_start fresh))
  · rintro _ rfl
    refine safe_andThen (safe_mono (fun r u here => ⟨?_,?_⟩) (does_encode here))
    · rintro address rfl
      refine safe_bind (safe_mono (fun _ u busy => ?_) (does_activate here))
      refine safe_bind (safe_mono (fun result u ended => ?_) (does_inner busy))
      refine safe_bind (safe_mono (fun _ u left => ?_) (does_deactivate ended))
      exact safe_bind (safe_mono (fun _ u taken => taken) (does_afterwards left))
    · rintro _ rfl
      exact .inr here
  · rintro _ rfl
    exact .inr here

end Settling

/-! A cancel. -/

section Cancels

variable {l : CoreLimits} {s : Seen} {i : Nat} {id : TransferId}

theorem quiet_take : Quiet ((machine l).restrict minds) free terms i (.cancel id) (.takeActive id) := by
  intro u _ inv c r v _ h
  obtain ⟨_,e,ran,rfl⟩ := performed h
  unfold Device.exec at ran
  split at ran
  · split at ran <;> cases ran
  · simp only [Device.act] at ran
    split at ran
    · rename_i k held
      cases ran
      refine ⟨⟨inv.storable,inv.responsible,inv.written,fun j id' here => ?_,inv.alone,inv.unharmed⟩,
        fun j => ?_⟩
      · have here : Function.update u.state.active id none id' = some j := here
        rw [Function.update_apply] at here
        split at here
        · cases here
        · exact inv.held j id' here
      · have more (id' : TransferId) (here : Taken j id' u) : Taken j id' ⟨u.state.setActive id none,
            cancelling u.history i id (.takeActive id) true⟩ := by
          rcases here with ⟨k,pending⟩ | off
          · exact .inl ⟨k,List.mem_cons_of_mem _ pending⟩
          · exact .inr off
        refine ⟨fun _ => Iff.rfl,fun _ => Iff.rfl,fun _ => Iff.rfl,fun _ here => here,more,fun id' here => ?_⟩
        rcases here with held | taken
        · by_cases same : id' = id
          · subst same
            exact .inr (.inl ⟨i,List.mem_cons_self⟩)
          · exact .inl ((Function.update_of_ne same _ _).trans held)
        · exact .inr (more id' taken)
    · cases ran
      exact ⟨inv,fun j => Kept.refl j _⟩

theorem quiet_mark : Quiet ((machine l).restrict minds) free terms i (.cancel id) (.markCancelled id) := by
  intro u _ inv c r v _ h
  obtain ⟨permitted,e,ran,rfl⟩ := performed h
  have rows (id' : TransferId) : receiving e id' = true → receiving u.state id' = true :=
    exec_receiving (fun _ => by simp) ran
  have active := exec_active rfl ran
  have settled : receiving e id = false := by
    unfold Device.exec at ran
    split at ran
    · split at ran <;> cases ran
    · have written := (Option.some.inj ran).symm
      refine (congrArg (receiving · id) (congrArg Prod.snd written)).trans ?_
      refine moved_settles rfl (inv.storable id) (fun here => ?_) rfl fun still => rows id ?_
      · simpa [permits,here] using permitted
      · exact (congrArg (receiving · id) (congrArg Prod.snd written)).trans still
  have off (j : Nat) (id' : TransferId) (here : Off j id' u) : Off j id'
      ⟨e,cancelling u.history i id (.markCancelled id) r⟩ := off_later (rows id') rfl here
  refine ⟨⟨fun id' here => inv.storable id' (rows id' here),fun id' here => inv.responsible id' (rows id' here),
    inv.written,fun j id' here => inv.held j id' (active ▸ here),inv.alone,inv.unharmed⟩,fun j => ?_⟩
  have taken (id' : TransferId) (here : Taken j id' u) : Taken j id'
      ⟨e,cancelling u.history i id (.markCancelled id) r⟩ := by
    by_cases same : id' = id
    · subst same
      exact .inr (off_of_settled settled)
    · rcases here with ⟨k,pending⟩ | here
      · refine .inl ⟨k,mem_without.mpr ⟨pending,fun eq => same (congrArg Prod.snd eq)⟩⟩
      · exact .inr (off j id' here)
  refine ⟨fun _ => Iff.rfl,fun _ => Iff.rfl,fun _ => Iff.rfl,off j,taken,fun id' here => ?_⟩
  unfold Entry
  rw [active]
  exact here.imp_right (taken id')

theorem quiet_cancel : (cancelTransfer id).All
    (Quiet ((machine l).restrict minds) free terms i (.cancel id)) := by
  refine Prog.all_bind (Prog.all_perform quiet_take) fun taken => ?_
  split
  · exact Prog.all_perform quiet_mark
  · exact Prog.all_perform (quiet_aside rfl)

end Cancels


/-! Every run. -/

section Reached

variable {l : CoreLimits} {c : Conf Seen Call Op Ans} {i : Nat} {id : TransferId}

theorem record_running {h : History} {d : Device} {j : Nat} {call : Call} {o : Op} {a : Ans o}
    (running : (i,id) ∈ (record h d j call o a).running) :
    (i,id) ∈ h.running ∨ (i = j ∧ call.receives id = true) := by
  cases call with
  | cancel id' =>
    left
    simp only [record] at running
    unfold cancelling at running
    split at running <;> exact running
  | receive t target =>
    simp only [record] at running
    unfold received at running
    split at running
    · rcases List.mem_cons.mp running with eq | old
      · cases eq
        exact .inr ⟨rfl,decide_eq_true rfl⟩
      · exact .inl old
    · exact .inl running
    · exact .inl running
    · exact .inl running
    · exact .inl running
    · exact .inl (mem_without.mp running).1
    · split at running <;> exact .inl running

/-- A receive that has not returned is a thread. -/
theorem running_thread (reach : Reach ((machine l).restrict minds).system free.holds c) :
    ∀ i id, (i,id) ∈ c.shared.history.running →
      ∃ call rest, c.threads[i]? = some ⟨call,rest⟩ ∧ call.receives id = true := by
  refine reach.invariant (fun c => ∀ i id, (i,id) ∈ c.shared.history.running →
    ∃ call rest, c.threads[i]? = some ⟨call,rest⟩ ∧ call.receives id = true)
    (fun s start i id running => ?_) fun s a u ih _ h => ?_
  · rw [start.1.2] at running
    cases running
  · rcases next_cases h with ⟨call,rfl,_,rfl⟩ | ⟨j,choice,call,o,k,r,u,rfl,here,ran,rfl⟩ | ⟨e,_⟩
    · intro i id running
      obtain ⟨call,rest,there,receives⟩ := ih i id running
      exact ⟨call,rest,(List.getElem?_append_left (List.getElem?_eq_some_iff.mp there).1).trans there,receives⟩
    · intro i id running
      obtain ⟨_,e,_,rfl⟩ := performed ran
      have bound : j < s.threads.length := (List.getElem?_eq_some_iff.mp here).1
      rcases record_running running with old | ⟨rfl,receives⟩
      · obtain ⟨call',rest,there,receives⟩ := ih i id old
        by_cases same : i = j
        · subst same
          cases there.symm.trans here
          exact ⟨call,k r,List.getElem?_set_self bound,receives⟩
        · exact ⟨call',rest,(List.getElem?_set_ne (Ne.symm same)).trans there,receives⟩
      · exact ⟨call,k r,List.getElem?_set_self bound,receives⟩
    · cases e

/-- Every receive that has returned has left its row settled. -/
theorem secured (reach : Reach ((machine l).restrict minds).system free.holds c) :
    Secured ((machine l).restrict minds) free terms
      (fun i call s => ∀ id, call.receives id = true → (i,id) ∉ s.history.running) c := by
  refine reach_secured (fun _ _ => trivial) (fun s fresh => ?_) (fun d call past inv _ _ => ?_)
    (fun i call s u kept gone id mine there => gone id mine ((kept.running id).mp there))
    (fun _ e => nomatch e) reach
  · obtain ⟨⟨settled,inactive⟩,history⟩ := fresh
    refine ⟨fun id here => ?_,fun id here => ?_,fun i id here => ?_,fun i id here => ?_,
      fun i k id first _ => ?_,?_⟩
    · rw [settled id] at here
      cases here
    · rw [settled id] at here
      cases here
    · rw [history] at here
      cases here
    · rw [inactive id] at here
      cases here
    · rw [history] at first
      cases first
    · rw [history]
      rfl
  · cases call with
    | cancel id =>
      refine safe_bind (safe_mono (fun _ u _ => nofun) (safe_quiet quiet_cancel d.shared))
    | receive t target =>
      -- a thread that has not started is not responsible for any row
      have absent (id : TransferId) : (d.threads.length,id) ∉ d.shared.history.running := by
        intro running
        obtain ⟨_,_,there,_⟩ := running_thread past _ id running
        exact absurd (List.getElem?_eq_some_iff.mp there).1 (Nat.lt_irrefl _)
      have off : Off d.threads.length t.transferId d.shared := by
        cases here : receiving d.shared.state t.transferId with
        | false => exact off_of_settled here
        | true =>
          obtain ⟨j,wrote,running⟩ := inv.responsible _ here
          refine off_of_other fun own => ?_
          cases wrote.symm.trans own
          exact absent _ running
      refine safe_bind (safe_mono (fun _ u gone => ?_) (does_receive ⟨absent _,off⟩))
      intro id mine
      exact of_decide_eq_true mine ▸ gone

/-- Receives of an id that overlap no more than is permitted, and that meet none of the failures
that would leave the row: then the row is not receiving once each of them has returned, and none
has unwound at the cost of another. -/
theorem receives_unwound (reach : Reach (machine l).system (Watched minds) c) :
    (∀ id, (∀ t ∈ c.threads, t.call.receives id = true → t.rest.finished = true) →
      ∀ row, c.shared.state.transfers.find id = some row → row.status ≠ .receiving) ∧
    c.shared.history.harmed = [] := by
  have reach := reach_watched reach
  have secured := secured reach
  refine ⟨fun id returned row found status => ?_,secured.inv.unharmed⟩
  obtain ⟨i,_,running⟩ := secured.inv.responsible id (receiving_iff.mpr ⟨row,found,status⟩)
  obtain ⟨call,rest,there,mine⟩ := running_thread reach i id running
  have ended := returned _ (List.mem_of_getElem? there) mine
  have safe := secured.threads i _ there
  cases rest with
  | step => cases ended
  | ret a => exact safe id mine running

end Reached

/-! Transfer 7 is received into a sink. -/
namespace Sample

def ticket : ParsedTransferTicket := ⟨7,1,none,2,1,10,3,4⟩

def limits : CoreLimits := ⟨8,100,64⟩

def start : Conf Seen Call Op Ans where
  shared := ⟨⟨⟨[],List.nodup_nil⟩,⟨[],List.nodup_nil⟩,⟨[],List.nodup_nil⟩,fun _ => none,fun _ => false,2⟩,
    nothing⟩
  threads := []

/-- Nothing fails; the cancel branch is taken or not. -/
def course (cancels : Bool) : Choice :=
  ⟨0,false,cancels,"",5,4,⟨9,7,6⟩,none,[10,10],[("a",8)],⟨.filesystemPath,3,10⟩⟩

def receive : Label Call Choice Empty := .fork (.receive ticket .outputSink)

def cancel : Label Call Choice Empty := .fork (.cancel 7)

def proceed (i : Nat) : Label Call Choice Empty := .act i (course false)

def givesUp (i : Nat) : Label Call Choice Empty := .act i (course true)

/-- The receive is active when it is cancelled, and takes its cancel branch. -/
def cancelled : List (Label Call Choice Empty) :=
  receive :: List.replicate 5 (proceed 0) ++ cancel :: List.replicate 2 (proceed 1) ++
    givesUp 0 :: List.replicate 2 (proceed 0)

/-- Between the cancel and the unwinding a second receive starts and becomes active; the first
then removes its entry, and the second takes this for a cancel. -/
def overlapping : List (Label Call Choice Empty) :=
  receive :: List.replicate 5 (proceed 0) ++ cancel :: List.replicate 2 (proceed 1) ++
    receive :: List.replicate 5 (proceed 2) ++ givesUp 0 :: List.replicate 2 (proceed 0) ++
    givesUp 2 :: List.replicate 2 (proceed 2)

def reached (labels : List (Label Call Choice Empty)) : Conf Seen Call Op Ans :=
  ((machine limits).system.run start labels).getD start

theorem start_recovered : (machine limits).system.init start := ⟨⟨⟨fun _ => rfl,fun _ => rfl⟩,rfl⟩,rfl⟩

instance (c : Conf Seen Call Op Ans) : DecidablePred (Watched (γ := Empty) minds c) :=
  have (s : Seen) (i : Nat) (call : Call) (o : Op) (c : Choice) : Decidable (minds s i call o c) :=
    inferInstanceAs (Decidable (permits s i call o c = true))
  inferInstance

end Sample

open Receives.Unwinding.Sample

/-- A cancelled receive leaves its row cancelled. -/
theorem cancelled_unwound : ∃ row, (reached cancelled).shared.state.transfers.find 7 = some row ∧
    row.status ≠ .receiving ∧ (reached cancelled).shared.history.harmed = [] := by
  have reach : Reach (machine limits).system (Watched minds) (reached cancelled) :=
    (Reach.start start start_recovered).run (by decide)
      (show (machine limits).system.run _ cancelled = some _ from rfl)
  have both := receives_unwound reach
  exact ⟨_,rfl,both.1 7 (by decide) _ rfl,both.2⟩

/-- No step fails, and one cancel is made: both receives have returned, the first has
removed the entry of the second, and the row is receiving. -/
theorem overlapping_stuck : ∃ c row, (machine limits).system.init start ∧
    (machine limits).system.run start overlapping = some c ∧
    (∀ t ∈ c.threads, t.rest.finished = true) ∧ c.shared.history.harmed = [0] ∧
    c.shared.state.transfers.find 7 = some row ∧ row.status = .receiving :=
  ⟨reached overlapping,_,start_recovered,rfl,by decide,rfl,rfl,rfl⟩

end Vnidrop.Receives.Unwinding
