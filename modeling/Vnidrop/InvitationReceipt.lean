import Vnidrop.Tables
import Vnidrop.Threads
import Vnidrop.TransferState

/-! An invitation receive, its cancellation, and the delivery receipt it leaves for
the sender. The completion transaction writes the history and the success receipt
together; the failure receipt is written after the `select!` of the receive returns. -/
namespace Vnidrop.Invitation

open Tables Threads Runs

abbrev RequestId := Nat

structure PendingDeliveryReceipt where
  requestId : RequestId
  localTransferId : TransferId
  senderBlobTicket : Text
  senderTransferId : TransferId
  token : Text
  failureReason : Option String
  createdAt : Millis
  deriving DecidableEq, Repr

/-- The receipt the sender's approval carries. -/
structure DeliveryReceipt where
  requestId : RequestId
  transferId : TransferId
  token : Text
  deriving DecidableEq, Repr

/-- What a receive call fixes: its transfer and where the receipt goes. -/
structure Ticket where
  transferId : TransferId
  senderAddress : Text
  deriving DecidableEq, Repr

structure Repository where
  /-- The `receive` rows of `transfers`. -/
  transfers : TransferId → Option TransferStatus
  receipts : Table PendingDeliveryReceipt.requestId
  /-- The call whose cancel sender is in `active_transfers`. -/
  active : TransferId → Option Nat
  /-- History: the call each request id was issued to, and those whose completion committed. -/
  issued : RequestId → Option Nat
  committed : RequestId → Bool

namespace Repository

def setTransfer (s : Repository) (id : TransferId) (status : Option TransferStatus) : Repository :=
  { s with transfers := Function.update s.transfers id status }

def setActive (s : Repository) (id : TransferId) (call : Option Nat) : Repository :=
  { s with active := Function.update s.active id call }

def issue (s : Repository) (r : RequestId) (call : Nat) : Repository :=
  { s with issued := Function.update s.issued r (some call) }

/-- The row a receipt insertion binds. -/
def pending (t : Ticket) (r : DeliveryReceipt) (failureReason : Option String) (now : Millis) :
    PendingDeliveryReceipt :=
  ⟨r.requestId,t.transferId,t.senderAddress,r.transferId,r.token,failureReason,now⟩

/-- The statement both receipt writers share; a row that is present keeps `created_at`. -/
def upsertReceipt (s : Repository) (new : PendingDeliveryReceipt) : Repository :=
  { s with
    receipts := s.receipts.upsert new fun old =>
      ⟨old.requestId,new.localTransferId,new.senderBlobTicket,new.senderTransferId,new.token,
        new.failureReason,old.createdAt⟩ }

/-- `start_receive`: a new row, or a settled one that is received again. -/
def startReceive (s : Repository) (id : TransferId) : Except VnidropError Repository :=
  match s.transfers id with
  | none | some .done | some .failed | some .cancelled => .ok (s.setTransfer id (some .receiving))
  | some _ => .error (.repository "start receive")

theorem startReceive_ok {s s' : Repository} {id : TransferId} (h : s.startReceive id = .ok s') :
    s' = s.setTransfer id (some .receiving) := by
  unfold startReceive at h
  split at h <;> first | exact (Except.ok.inj h).symm | cases h

def completeReceiveWithPendingReceipt (s : Repository) (t : Ticket) (r : DeliveryReceipt)
    (now : Millis) : Except VnidropError Repository :=
  if s.transfers t.transferId = some .receiving then
    .ok { (s.setTransfer t.transferId (some .done)).upsertReceipt (pending t r none now) with
      committed := Function.update s.committed r.requestId true }
  else .error (.repository "complete receive")

def queueFailedDeliveryReceipt (s : Repository) (t : Ticket) (r : DeliveryReceipt) (reason : String)
    (now : Millis) : Repository :=
  s.upsertReceipt (pending t r (some reason) now)

end Repository

/-- A call at its next step. `receipt` is what `pending_delivery_receipt` holds. -/
inductive Call where
  | receive (t : Ticket)
  | activate (t : Ticket)
  | requestApproval (t : Ticket)
  | download (t : Ticket) (receipt : DeliveryReceipt)
  | complete (t : Ticket) (receipt : DeliveryReceipt)
  | completed (t : Ticket) (receipt : DeliveryReceipt)
  | returning (t : Ticket)
  | stopped (t : Ticket) (receipt : Option DeliveryReceipt) (cancelled : Bool)
  | markFailed (t : Ticket) (receipt : Option DeliveryReceipt)
  | queueFailure (t : Ticket) (receipt : DeliveryReceipt) (cancelled : Bool)
  | cancelTransfer (id : TransferId)
  | cancelStatus (id : TransferId)
  | returned
  deriving DecidableEq, Repr

/-- The surroundings at a step: the clock, failures, whether the `select!` takes its cancel
branch, the request id and token of the sender's approval, and the code of an error. -/
structure Choice where
  now : Millis
  fails : Bool
  takesCancel : Bool
  requestId : RequestId
  token : Text
  code : String
  deriving DecidableEq, Repr

/-- The receipt cell while `receive_inner` runs inside the `select!`. -/
def Call.inner : Call → Option (Ticket × Option DeliveryReceipt)
  | .requestApproval t => some (t,none)
  | .download t r | .complete t r | .completed t r => some (t,some r)
  | _ => none

def Call.isCompleted : Call → Bool
  | .completed .. => true
  | _ => false

/-- A receive that failed or was cancelled queues a receipt if it has one. -/
def afterFailure (t : Ticket) (receipt : Option DeliveryReceipt) (cancelled : Bool) : Call :=
  match receipt with
  | some r => .queueFailure t r cancelled
  | none => .returned

namespace Repository

def stepReceive (s : Repository) (i : Nat) (c : Choice) : Call → Option (Repository × Call)
  | .receive t =>
    match s.startReceive t.transferId with
    | .ok s' => if c.fails then some (s,.returned) else some (s',.activate t)
    | .error _ => some (s,.returned)
  | .activate t => some (s.setActive t.transferId (some i),.requestApproval t)
  | .requestApproval t =>
    if c.fails then some (s,.stopped t none false)
    -- the sender issues a fresh UUID with each approval
    else if s.issued c.requestId ≠ none then none
    else some (s.issue c.requestId i,.download t ⟨c.requestId,t.transferId,c.token⟩)
  | .download t r =>
    if c.fails then some (s,.stopped t (some r) false) else some (s,.complete t r)
  | .complete t r =>
    match s.completeReceiveWithPendingReceipt t r c.now with
    | .ok s' => if c.fails then some (s,.stopped t (some r) false) else some (s',.completed t r)
    | .error _ => some (s,.stopped t (some r) false)
  -- eligibility is activated, then the cell is taken without another await
  | .completed t _ => some (s,.returning t)
  | .returning t => some (s.setActive t.transferId none,.returned)
  | .stopped t receipt cancelled =>
    some (s.setActive t.transferId none,
      if cancelled then afterFailure t receipt true else .markFailed t receipt)
  | .markFailed t receipt =>
    match transitionTransferStatus (s.transfers t.transferId) .receiving .failed with
    | .ok row =>
      some (if c.fails then s else s.setTransfer t.transferId row,afterFailure t receipt false)
    | .error _ => some (s,afterFailure t receipt false)
  | .queueFailure t r cancelled =>
    if c.fails then some (s,.returned)
    else some (s.queueFailedDeliveryReceipt t r (if cancelled then "cancelled" else c.code) c.now,
      .returned)
  | .cancelTransfer id =>
    match s.active id with
    | some _ => some (s.setActive id none,.cancelStatus id)
    | none => some (s,.returned)
  | .cancelStatus id =>
    match transitionTransferStatus (s.transfers id) .receiving .cancelled with
    | .ok row => if c.fails then some (s,.returned) else some (s.setTransfer id row,.returned)
    | .error _ => some (s,.returned)
  | .returned => none

/-- The cancel branch is ready once the sender has fired or has been dropped, which is
when `active_transfers` no longer holds it. -/
def stepCall (s : Repository) (i : Nat) (call : Call) (c : Choice) : Option (Repository × Call) :=
  match call.inner with
  | some (t,receipt) =>
    if c.takesCancel then
      if s.active t.transferId = some i then none else some (s,.stopped t receipt true)
    else s.stepReceive i c call
  | none => s.stepReceive i c call

end Repository

/-- The delivery task settles a receipt, or history is deleted. -/
inductive Env where
  | settleReceipt (r : RequestId)
  | deleteTransfer (id : TransferId)
  deriving DecidableEq, Repr

def Repository.stepEnv (s : Repository) : Env → Repository
  | .settleReceipt r => { s with receipts := s.receipts.delete r }
  | .deleteTransfer id => s.setTransfer id none

def machine : Machine Repository Call Choice Env where
  init s := s.receipts = .empty ∧ (∀ r, s.issued r = none) ∧ ∀ r, s.committed r = false
  entry _ call := match call with
    | .receive _ | .cancelTransfer _ => true
    | _ => false
  step s i call c := s.stepCall i call c
  env s e := some (s.stepEnv e)

/-- The pending receipts agree with what committed. -/
structure Agrees (s : Repository) : Prop where
  committed : ∀ r receipt, s.committed r = true → s.receipts.find r = some receipt →
    receipt.failureReason = none
  success : ∀ r receipt, s.receipts.find r = some receipt → receipt.failureReason = none →
    s.committed r = true

/-- The request id is this call's, and its completion has, or has not, committed. -/
def Holds (s : Repository) (i : Nat) (r : RequestId) (done : Bool) : Prop :=
  s.issued r = some i ∧ s.committed r = done

structure Invariant (s : Repository) : Prop where
  agrees : Agrees s
  unissued : ∀ r, s.issued r = none → s.committed r = false

def At (s : Repository) (i : Nat) : Call → Prop
  | .download _ r | .complete _ r | .queueFailure _ r _ => Holds s i r.requestId false
  | .completed _ r => Holds s i r.requestId true
  | .stopped _ (some r) _ | .markFailed _ (some r) => Holds s i r.requestId false
  | _ => True

/-- The side condition: the cancel branch is not taken by a receive whose completion has
committed and that has not yet taken its receipt. -/
def Unhurried (c : Conf Repository Call) : Label Call Choice Env → Prop
  | .act i choice => ∀ call ∈ c.threads[i]?, choice.takesCancel = true → ∀ t r, call ≠ .completed t r
  | _ => True

instance (c : Conf Repository Call) : DecidablePred (Unhurried c) := fun a => by
  cases a with
  | act i choice =>
    exact decidable_of_iff
      (∀ call ∈ c.threads[i]?, choice.takesCancel = true → call.isCompleted = false)
      (forall₃_congr fun call _ _ => by cases call <;> simp [Call.isCompleted])
  | _ => exact isTrue trivial

/-- What a step of call `i` leaves alone: request ids of other calls. -/
def Keeps (s s' : Repository) (i : Nat) : Prop :=
  ∀ r j done, j ≠ i → Holds s j r done → Holds s' j r done

theorem at_stable {s s' : Repository} {i j : Nat} {call : Call} (keeps : Keeps s s' i)
    (different : j ≠ i) (here : At s j call) : At s' j call := by
  cases call with
  | download | complete | queueFailure | completed => exact keeps _ _ _ different here
  | stopped t receipt _ | markFailed t receipt =>
    cases receipt with
    | none => trivial
    | some r => exact keeps _ _ _ different here
  | _ => trivial

/-- A step that touches neither the receipts nor the history of request ids. -/
theorem keeps_of_same {s s' : Repository} {i : Nat} (issued : s'.issued = s.issued)
    (committed : s'.committed = s.committed) : Keeps s s' i := by
  intro r j done _ holds
  exact ⟨issued ▸ holds.1,committed ▸ holds.2⟩

theorem agrees_of_same {s s' : Repository} (now : Agrees s) (receipts : s'.receipts = s.receipts)
    (committed : s'.committed = s.committed) : Agrees s' :=
  ⟨by rw [receipts,committed]; exact now.committed,by rw [receipts,committed]; exact now.success⟩

theorem find_upsertReceipt (s : Repository) (new : PendingDeliveryReceipt) (r : RequestId) :
    ((s.upsertReceipt new).receipts.find r).map (·.failureReason) =
      if r = new.requestId then some new.failureReason
      else (s.receipts.find r).map (·.failureReason) := by
  unfold Repository.upsertReceipt
  rw [Table.find_upsert]
  split
  · cases s.receipts.find r <;> rfl
  · rfl

/-- Agreement, said of the failure column alone. -/
theorem agrees_iff {s : Repository} : Agrees s ↔ ∀ r reason,
    (s.receipts.find r).map (·.failureReason) = some reason →
      (s.committed r = true ↔ reason = none) := by
  constructor
  · intro now r reason found
    obtain ⟨receipt,there,rfl⟩ := Option.map_eq_some_iff.mp found
    exact ⟨fun done => now.committed r receipt done there,now.success r receipt there⟩
  · intro now
    exact ⟨fun r receipt done found => (now r _ (by rw [found]; rfl)).mp done,
      fun r receipt found success => (now r _ (by rw [found]; rfl)).mpr success⟩

/-- A receipt for `r` is written together with what the history says of `r`. -/
theorem agrees_write {s s' : Repository} (new : PendingDeliveryReceipt) (now : Agrees s)
    (receipts : s'.receipts = (s.upsertReceipt new).receipts)
    (others : ∀ r, r ≠ new.requestId → s'.committed r = s.committed r)
    (here : s'.committed new.requestId = true ↔ new.failureReason = none) : Agrees s' := by
  rw [agrees_iff] at now ⊢
  intro r reason found
  rw [receipts,find_upsertReceipt] at found
  split at found
  · rename_i same
    cases found
    exact same ▸ here
  · rename_i different
    rw [others r different]
    exact now r reason found

theorem agrees_settle {s : Repository} (now : Agrees s) (r : RequestId) :
    Agrees { s with receipts := s.receipts.delete r } := by
  have remains : ∀ r' receipt, (s.receipts.delete r).find r' = some receipt →
      s.receipts.find r' = some receipt := by
    intro r' receipt found
    rw [Table.find_delete] at found
    split at found
    · cases found
    · exact found
  exact ⟨fun r' receipt done found => now.committed r' receipt done (remains r' receipt found),
    fun r' receipt found => now.success r' receipt (remains r' receipt found)⟩

/-- What a step has to do: keep the invariant, arrive where its counter says, and leave
the request ids of other calls alone. -/
structure Moves (s s' : Repository) (i : Nat) (call' : Call) : Prop where
  invariant : Invariant s'
  here : At s' i call'
  keeps : Keeps s s' i

section Effects

open Repository

variable {s s' : Repository} {i : Nat} {t : Ticket} {r : DeliveryReceipt} {call' : Call}

/-- A step that leaves the receipts and the request ids alone. -/
theorem Moves.of_same (now : Invariant s) (receipts : s'.receipts = s.receipts)
    (issued : s'.issued = s.issued) (committed : s'.committed = s.committed)
    (next : At s i call') : Moves s s' i call' where
  invariant :=
    { agrees := agrees_of_same now.agrees receipts committed
      unissued := by rw [issued,committed]; exact now.unissued }
  here := by
    cases call' with
    | stopped _ receipt _ | markFailed _ receipt =>
      cases receipt with
      | none => trivial
      | some r => exact ⟨issued ▸ next.1,committed ▸ next.2⟩
    | download | complete | queueFailure | completed => exact ⟨issued ▸ next.1,committed ▸ next.2⟩
    | _ => trivial
  keeps := keeps_of_same issued committed

theorem moves_issue (now : Invariant s) (r : DeliveryReceipt) (fresh : s.issued r.requestId = none) :
    Moves s (s.issue r.requestId i) i (.download t r) where
  invariant :=
    { agrees := agrees_of_same now.agrees rfl rfl
      unissued := fun r' unissued => by
        simp only [issue,Function.update_apply] at unissued
        split at unissued
        · cases unissued
        · exact now.unissued r' unissued }
  here := ⟨by simp [issue],now.unissued _ fresh⟩
  keeps r' j done _ holds := by
    have other : r' ≠ r.requestId := fun same => by rw [same,Holds,fresh] at holds; cases holds.1
    exact ⟨(Function.update_of_ne other _ _).trans holds.1,holds.2⟩

/-- The completion transaction writes `done` and the success receipt of its own id. -/
theorem moves_complete {now : Millis} (inv : Invariant s) (mine : Holds s i r.requestId false)
    (h : s.completeReceiveWithPendingReceipt t r now = .ok s') :
    Moves s s' i (.completed t r) := by
  unfold completeReceiveWithPendingReceipt at h
  split at h
  · cases h
    refine ⟨⟨agrees_write (pending t r none now) inv.agrees rfl ?_ ?_,?_⟩,⟨mine.1,?_⟩,?_⟩
    · intro r' different
      exact Function.update_of_ne different _ _
    · simp [pending]
    · intro r' unissued
      have other : r' ≠ r.requestId := fun same => by
        rw [same] at unissued
        exact absurd (unissued.symm.trans mine.1) (by simp)
      exact (Function.update_of_ne other _ _).trans (inv.unissued r' unissued)
    · simp
    · intro r' j done different holds
      have other : r' ≠ r.requestId := fun same => by
        rw [same] at holds
        exact different (Option.some.inj (holds.1.symm.trans mine.1))
      exact ⟨holds.1,(Function.update_of_ne other _ _).trans holds.2⟩
  · cases h

/-- A failure receipt is queued by an attempt that has not committed. -/
theorem moves_queue {reason : String} {now : Millis} (inv : Invariant s)
    (mine : Holds s i r.requestId false) :
    Moves s (s.queueFailedDeliveryReceipt t r reason now) i .returned where
  invariant :=
    { agrees := agrees_write (pending t r (some reason) now) inv.agrees rfl (fun _ _ => rfl)
        (by simp [pending,queueFailedDeliveryReceipt,upsertReceipt,mine.2])
      unissued := inv.unissued }
  here := trivial
  keeps := keeps_of_same rfl rfl

/-- A failed or cancelled receive carries a receipt only of an uncommitted attempt. -/
theorem at_afterFailure {receipt : Option DeliveryReceipt} {cancelled : Bool}
    (mine : ∀ r ∈ receipt, Holds s i r.requestId false) :
    At s i (afterFailure t receipt cancelled) := by
  cases receipt with
  | none => trivial
  | some r => exact mine r rfl

/-- The arms of `receive` and `cancel_transfer`. -/
theorem stepReceive_moves {call : Call} {c : Choice} (now : Invariant s) (here : At s i call)
    (h : s.stepReceive i c call = some (s',call')) : Moves s s' i call' := by
  have same : ∀ {s' call'}, s'.receipts = s.receipts → s'.issued = s.issued →
      s'.committed = s.committed → At s i call' → Moves s s' i call' := Moves.of_same now
  cases call with
  | receive t =>
    simp only [stepReceive] at h
    split at h
    · rename_i started
      split at h
      · cases h; exact same rfl rfl rfl trivial
      · cases h; cases startReceive_ok started; exact same rfl rfl rfl trivial
    · cases h; exact same rfl rfl rfl trivial
  | activate t => cases h; exact same rfl rfl rfl trivial
  | requestApproval t =>
    simp only [stepReceive] at h
    split at h
    · cases h; exact same rfl rfl rfl trivial
    · split at h
      · cases h
      · rename_i fresh
        have unissued : s.issued c.requestId = none := not_not.mp fresh
        cases h
        exact moves_issue now ⟨c.requestId,t.transferId,c.token⟩ unissued
  | download t r =>
    simp only [stepReceive] at h
    split at h <;> cases h <;> exact same rfl rfl rfl here
  | complete t r =>
    simp only [stepReceive] at h
    split at h
    · rename_i done committed
      split at h
      · cases h; exact same rfl rfl rfl here
      · cases h; exact moves_complete now here committed
    · cases h; exact same rfl rfl rfl here
  | completed t r => cases h; exact same rfl rfl rfl trivial
  | returning t => cases h; exact same rfl rfl rfl trivial
  | stopped t receipt cancelled =>
    have mine : ∀ r ∈ receipt, Holds s i r.requestId false := fun r held => by
      rw [Option.mem_def.mp held] at here
      exact here
    cases h
    refine same rfl rfl rfl ?_
    split
    · exact at_afterFailure mine
    · cases receipt with
      | none => trivial
      | some r => exact mine r rfl
  | markFailed t receipt =>
    have mine : ∀ r ∈ receipt, Holds s i r.requestId false := fun r held => by
      rw [Option.mem_def.mp held] at here
      exact here
    simp only [stepReceive] at h
    split at h
    · cases h
      split <;> exact same rfl rfl rfl (at_afterFailure mine)
    · cases h; exact same rfl rfl rfl (at_afterFailure mine)
  | queueFailure t r cancelled =>
    simp only [stepReceive] at h
    split at h
    · cases h; exact same rfl rfl rfl trivial
    · cases h; exact moves_queue now here
  | cancelTransfer id =>
    simp only [stepReceive] at h
    split at h <;> cases h <;> exact same rfl rfl rfl trivial
  | cancelStatus id =>
    simp only [stepReceive] at h
    repeat' split at h
    all_goals cases h
    all_goals exact same rfl rfl rfl trivial
  | returned => cases h

/-- Around them stands the `select!`: its cancel branch drops the receive with its receipt. -/
theorem stepCall_moves {call : Call} {c : Choice} (now : Invariant s) (here : At s i call)
    (unhurried : c.takesCancel = true → ∀ t r, call ≠ .completed t r)
    (h : s.stepCall i call c = some (s',call')) : Moves s s' i call' := by
  unfold stepCall at h
  split at h
  · rename_i t receipt inner
    split at h
    · rename_i taken
      split at h
      · cases h
      · cases h
        refine Moves.of_same now rfl rfl rfl ?_
        cases call with
        | requestApproval => cases inner; trivial
        | download | complete => cases inner; exact here
        | completed t r => exact absurd rfl (unhurried taken t r)
        | _ => cases inner
    · exact stepReceive_moves now here h
  · exact stepReceive_moves now here h

end Effects

theorem stepEnv_invariant {s : Repository} (now : Invariant s) (e : Env) :
    Invariant (s.stepEnv e) ∧ ∀ i call, At s i call → At (s.stepEnv e) i call := by
  have keeps : ∀ i, Keeps s (s.stepEnv e) i := fun i => by
    cases e <;> exact keeps_of_same rfl rfl
  refine ⟨?_,fun i call => at_stable (keeps (i + 1)) (by omega)⟩
  cases e with
  | settleReceipt r => exact ⟨agrees_settle now.agrees r,now.unissued⟩
  | deleteTransfer id => exact ⟨agrees_of_same now.agrees rfl rfl,now.unissued⟩

/-- One step of any call, of the delivery task or of the history. -/
theorem next_outline {c d : Conf Repository Call} {a : Label Call Choice Env}
    (now : Outline Invariant At c) (unhurried : Unhurried c a) (h : machine.next c a = some d) :
    Outline Invariant At d := by
  have moved : ∀ i choice call s' call', a = .act i choice → c.threads[i]? = some call →
      c.shared.stepCall i call choice = some (s',call') → Moves c.shared s' i call' := by
    rintro i choice call s' call' rfl there stepped
    exact stepCall_moves now.shared (now.local_ i call there) (unhurried call there) stepped
  refine outline_step ?_ ?_ ?_ ?_ now h
  · intro call _ enabled
    cases call with
    | receive | cancelTransfer => trivial
    | _ => cases enabled
  · intro i choice call s' call' act there stepped
    have step := moved i choice call s' call' act there stepped
    exact ⟨step.invariant,step.here⟩
  · intro i choice call s' call' j other act there stepped different here
    exact at_stable (moved i choice call s' call' act there stepped).keeps different
      (now.local_ j other here)
  · rintro e s' _ moved
    cases moved
    have both := stepEnv_invariant now.shared e
    exact ⟨both.1,fun j call here => both.2 j call (now.local_ j call here)⟩

theorem reach_outline {c : Conf Repository Call} (reach : Reach machine.system Unhurried c) :
    Outline Invariant At c := by
  refine reach.invariant (Outline Invariant At) ?_ fun c a d now => next_outline now
  rintro c ⟨⟨receipts,issued,committed⟩,idle⟩
  refine ⟨⟨⟨fun r receipt done => ?_,fun r receipt found => ?_⟩,fun r _ => committed r⟩,?_⟩
  · simp [committed r] at done
  · simp [receipts] at found
  · intro i call there
    simp [idle] at there

/-- In every run in which no receive takes its cancel branch between the commit of its
completion and its return, a request id that committed never has a failure receipt, and
only one that committed has a success receipt. -/
theorem receipt_agrees_with_history {c : Conf Repository Call}
    (reach : Reach machine.system Unhurried c) (r : RequestId) (receipt : PendingDeliveryReceipt)
    (stored : c.shared.receipts.find r = some receipt) :
    (c.shared.committed r = true → receipt.failureReason = none) ∧
      (receipt.failureReason = none → c.shared.committed r = true) := by
  have agrees := (reach_outline reach).shared.agrees
  exact ⟨fun done => agrees.committed r receipt done stored,agrees.success r receipt stored⟩

section Runs

private def installed : Repository where
  transfers _ := none
  receipts := .empty
  active _ := none
  issued _ := none
  committed _ := false

private theorem installed_initial : machine.system.init ⟨installed,[]⟩ :=
  ⟨⟨rfl,fun _ => rfl,fun _ => rfl⟩,rfl⟩

private def proceed (i : Nat) : Label Call Choice Env := .act i ⟨0,false,false,8,3,"connection"⟩

private def hurry (i : Nat) : Label Call Choice Env := .act i ⟨0,false,true,8,3,"connection"⟩

/-- A receive runs up to the commit of its completion; then it is cancelled. -/
private def cancelledLate : List (Label Call Choice Env) :=
  .fork (.receive ⟨1,2⟩) :: List.replicate 5 (proceed 0) ++
    [.fork (.cancelTransfer 1),proceed 1,hurry 0,proceed 0,proceed 0]

private def cancelledConf : Conf Repository Call :=
  (machine.system.run ⟨installed,[]⟩ cancelledLate).getD ⟨installed,[]⟩

/-- The cancel branch wins after the commit, and its receipt replaces the success receipt. -/
theorem cancel_after_commit_queues_failure :
    ∃ c, Reach machine.system Always c ∧ c.shared.committed 8 = true ∧
      c.shared.transfers 1 = some .done ∧
      (c.shared.receipts.find 8).map (·.failureReason) = some (some "cancelled") :=
  ⟨cancelledConf,
    .of_run installed_initial (show machine.system.run _ cancelledLate = some cancelledConf from rfl),
    rfl,rfl,rfl⟩

/-- The same call is cancelled once it has taken its receipt. -/
private def completedFirst : List (Label Call Choice Env) :=
  .fork (.receive ⟨1,2⟩) :: List.replicate 6 (proceed 0) ++
    [.fork (.cancelTransfer 1),proceed 1,proceed 0,proceed 1]

private def completedConf : Conf Repository Call :=
  (machine.system.run ⟨installed,[]⟩ completedFirst).getD ⟨installed,[]⟩

theorem receipt_agrees_when_cancelled_in_time :
    (completedConf.shared.committed 8 = true → (none : Option String) = none) ∧
      ((none : Option String) = none → completedConf.shared.committed 8 = true) :=
  receipt_agrees_with_history (.run (.start _ installed_initial) (by decide)
    (show machine.system.run _ completedFirst = some completedConf from rfl)) 8 ⟨8,1,2,1,3,none,0⟩ rfl

end Runs

end Vnidrop.Invitation
