import Vnidrop.InvitationReceipt
import Vnidrop.ReceiverLifecycle
import Mathlib.Data.List.Sort

/-! Delivery receipts between two devices: the receiver retries a receipt until the sender
answers it, and the sender answers with what its repository made of it. -/
namespace Vnidrop.DeliveryReceipts

open Tables Programs Runs
open Invitation (DeliveryReceipt PendingDeliveryReceipt RequestId ReceiverRequestInsert toDbId)
open ReceiverLifecycle (Receipt Outcome Decision Refusal Requests Ledger StoredRequest matching Recorded Fits
  insertReceiverRequest updateReceiverRequestStatus setReceiverReceiptToken completeReceiverDelivery
  failReceiverDelivery Changed exec_wrote matching_iff find_setRow setRow_changed setRow_recorded Orderly exec_fits)

/-- What the two devices compute with: the endpoint of the receiver, the digest of a receipt
token, the codec of stored addresses, and the addresses that the relay mode leaves. -/
structure Local where
  receiver : EndpointId
  receiptTokenHash : Text → Text
  encodePersistedSenderAddress : Text → Text
  parsePersistedSenderAddress : Text → Option Text
  filterPeerAddr : Text → Option Text

inductive Report where
  | reportDelivery (r : DeliveryReceipt)
  | reportDeliveryFailure (r : DeliveryReceipt) (reason : String)
  deriving DecidableEq, Repr

def Report.receipt : Report → DeliveryReceipt
  | .reportDelivery r | .reportDeliveryFailure r _ => r

inductive DeliveryReceiptResponse where
  | recorded
  | rejected (reason : String)
  deriving DecidableEq, Repr

/-- What the requests are compared with when a device reports. -/
def Local.receipt (l : Local) (remoteEndpointId : EndpointId) (r : DeliveryReceipt) : Receipt :=
  ⟨r.requestId,r.transferId,remoteEndpointId,l.receiptTokenHash r.token⟩

/-- The receipt that a row of the receiver keeps. -/
def kept (p : PendingDeliveryReceipt) : DeliveryReceipt := ⟨p.requestId,p.senderTransferId,p.token⟩

def outcome (p : PendingDeliveryReceipt) : Outcome :=
  match p.failureReason with
  | none => .completed
  | some _ => .failed

/-- A receipt that the receiver no longer keeps: the requests of the sender at that moment, and
whether a statement of the sender's store failed in the delivery that it was dropped after. -/
structure Drop where
  receipt : Receipt
  outcome : Outcome
  requests : Requests
  storeFailed : Bool

structure Net where
  /-- The requests of the sender. -/
  ledger : Ledger
  /-- `Uuid::new_v4`, as often as it was called for a request. -/
  drawn : RequestId
  /-- What the receiver was approved with. -/
  approved : List DeliveryReceipt
  pending : Table PendingDeliveryReceipt.requestId
  /-- The reports of the receiver, and how they were answered. -/
  sent : List Report
  answers : Nat → Option DeliveryReceiptResponse
  /-- History: the call that drew an id, the reports whose handling a statement failed in, and
  the receipts that were dropped. -/
  owner : RequestId → Option Nat
  failed : Nat → Bool
  drops : List Drop

inductive Op where
  | ledger (o : ReceiverLifecycle.Op)
  | drawRequestId
  | drawToken
  | approve (r : ReceiverRequestInsert) (token : Text)
  | take (rpc : Nat)
  | answer (rpc : Nat) (response : DeliveryReceiptResponse)
  | listPending
  | send (address : Text) (report : Report)
  | await (rpc : Nat)
  | deletePending (requestId : RequestId) (after : Option Nat)

abbrev Ans : Op → Type
  | .ledger o => ReceiverLifecycle.Ans o
  | .drawRequestId => RequestId
  | .drawToken => Text
  | .take _ => Option Report
  | .listPending => Except Unit (List PendingDeliveryReceipt)
  | .send .. => Nat
  | .await _ => Option DeliveryReceiptResponse
  | .approve .. | .answer .. | .deletePending .. => Unit

abbrev Task (α : Type) := Prog Op Ans α

def op (o : Op) : Task (Ans o) := Prog.perform o

def within {α : Type} (p : ReceiverLifecycle.Task α) : Task α := p.embed .ledger fun _ a => a

/-! The sender. -/

/-- An accepted request is given a token, and the approval goes out with it. -/
def approve (l : Local) (r : ReceiverRequestInsert) : Task (Except Refusal Unit) := do
  let token ← op .drawToken
  Prog.andThen (within (setReceiverReceiptToken r.id (l.receiptTokenHash token))) fun _ => do
    op (.approve r token)
    return .ok ()

def allowWithoutSenderDecision (l : Local) (r : ReceiverRequestInsert) : Task (Except Refusal Unit) := do
  let id ← op .drawRequestId
  Prog.andThen (within (insertReceiverRequest { r with id })) fun _ =>
  Prog.andThen (within (updateReceiverRequestStatus id .accepted none)) fun _ =>
  approve l { r with id }

def waitForSenderDecision (l : Local) (r : ReceiverRequestInsert) : Task (Except Refusal Unit) := do
  let id ← op .drawRequestId
  Prog.andThen (within (insertReceiverRequest { r with id })) fun _ => do
    match ← op (.ledger (.awaitDecision id)) with
    | .accepted => approve l { r with id }
    | .refused => return .ok ()
    | .expired => within (updateReceiverRequestStatus id .expired (some "approval timed out"))

/-- Every error of the repository is the same answer. -/
def respond {α : Type} : Except Refusal α → DeliveryReceiptResponse
  | .ok _ => .recorded
  | .error _ => .rejected "invalid-receipt"

def completeDelivery (x : Receipt) : Task DeliveryReceiptResponse := do
  let result ← within (completeReceiverDelivery x)
  return respond result

def failDelivery (x : Receipt) (reason : String) : Task DeliveryReceiptResponse := do
  let result ← within (failReceiverDelivery x reason)
  return respond result

def serve (l : Local) (remoteEndpointId : EndpointId) : Report → Task DeliveryReceiptResponse
  | .reportDelivery r => completeDelivery (l.receipt remoteEndpointId r)
  | .reportDeliveryFailure r reason => failDelivery (l.receipt remoteEndpointId r) reason

def handle (l : Local) (rpc : Nat) : Task Unit := do
  match ← op (.take rpc) with
  | none => return ()
  | some report =>
    let response ← serve l l.receiver report
    op (.answer rpc response)

/-! The receiver. -/

def reportOf (p : PendingDeliveryReceipt) : Report :=
  match p.failureReason with
  | none => .reportDelivery (kept p)
  | some reason => .reportDeliveryFailure (kept p) reason

def deliverPendingReceipt (l : Local) (p : PendingDeliveryReceipt) : Task Unit :=
  match l.parsePersistedSenderAddress p.senderBlobTicket with
  | none => op (.deletePending p.requestId none)
  | some address =>
    match l.filterPeerAddr address with
    | none => return ()
    | some address => do
      let rpc ← op (.send address (reportOf p))
      match ← op (.await rpc) with
      | some .recorded | some (.rejected _) => op (.deletePending p.requestId (some rpc))
      | none => return ()

def deliverEach (l : Local) : List PendingDeliveryReceipt → Task Unit
  | [] => return ()
  | p :: ps => do
    deliverPendingReceipt l p
    deliverEach l ps

def deliverPendingReceipts (l : Local) : Task Unit := do
  match ← op .listPending with
  | .error _ => return ()
  | .ok receipts => deliverEach l receipts

/-! The system. -/

inductive Call where
  | allowWithoutSenderDecision (r : ReceiverRequestInsert)
  | waitForSenderDecision (r : ReceiverRequestInsert)
  | respond (id : RequestId) (accepted : Bool) (reason : Option String)
  | expirePendingReceiverRequests (reason : String)
  /-- A report of another device. -/
  | report (remoteEndpointId : EndpointId) (report : Report)
  | handle (rpc : Nat)
  | deliverPendingReceipts
  deriving DecidableEq

/-- A call whose result nobody waits for. -/
def dropping {α : Type} (p : Task α) : Task Unit := do
  let _ ← p
  return ()

def Call.body (l : Local) : Call → Task Unit
  | .allowWithoutSenderDecision r => dropping (DeliveryReceipts.allowWithoutSenderDecision l r)
  | .waitForSenderDecision r => dropping (DeliveryReceipts.waitForSenderDecision l r)
  | .respond id accepted reason =>
    dropping (within (updateReceiverRequestStatus id (if accepted then .accepted else .refused) reason))
  | .expirePendingReceiverRequests reason => dropping (op (.ledger (.expirePending reason)))
  | .report remoteEndpointId r => dropping (serve l remoteEndpointId r)
  | .handle rpc => DeliveryReceipts.handle l rpc
  | .deliverPendingReceipts => DeliveryReceipts.deliverPendingReceipts l

/-- The report that a call handles for the receiver. -/
def Call.rpc : Call → Option Nat
  | .handle rpc => some rpc
  | _ => none

structure Choice extends ReceiverLifecycle.Choice where
  token : Text
  deriving DecidableEq

namespace Net

def drop (l : Local) (s : Net) (requestId : RequestId) (after : Option Nat) : List Drop :=
  match s.pending.find requestId with
  | some p => ⟨l.receipt l.receiver (kept p),outcome p,s.ledger.requests,after.any s.failed⟩ :: s.drops
  | none => s.drops

/-- One operation; a delivery may be lost, or end before its answer. -/
def exec (l : Local) (s : Net) (i : Nat) (call : Call) (c : Choice) : (o : Op) → Option (Ans o × Net)
  | .ledger o =>
    let (a,ledger) := s.ledger.exec c.toChoice o
    some (a,{ s with ledger, failed := fun rpc => s.failed rpc || (c.fails && call.rpc = some rpc) })
  | .drawRequestId =>
    some (s.drawn,{ s with drawn := s.drawn + 1, owner := Function.update s.owner s.drawn (some i) })
  | .drawToken => some (c.token,s)
  | .approve r token =>
    some ((),if r.remoteEndpointId = l.receiver then
      { s with approved := ⟨r.id,r.transferId,token⟩ :: s.approved } else s)
  | .take rpc => some (s.sent[rpc]?,s)
  | .answer rpc response => some ((),{ s with answers := Function.update s.answers rpc (some response) })
  | .listPending =>
    some (if c.fails then .error () else .ok (s.pending.rows.insertionSort (·.createdAt ≤ ·.createdAt)),s)
  | .send _ report => some (s.sent.length,{ s with sent := s.sent ++ [report] })
  | .await rpc => if c.fails then some (none,s) else (s.answers rpc).map fun response => (some response,s)
  | .deletePending requestId after =>
    some ((),if c.fails then s else
      { s with pending := s.pending.delete requestId, drops := s.drop l requestId after })

end Net

/-- A receive of the receiver ends, and what else the sender does to its requests. -/
inductive Event where
  | queue (transferId : TransferId) (address : Text) (r : DeliveryReceipt) (failureReason : Option String)
      (now : Millis)
  | deleteTransfer (id : TransferId)
  | deleteReceiveHistory (ids : List TransferId)
  | resetIdentity (now : Millis)
  deriving DecidableEq

namespace Net

/-- What the upsert of both receipt statements makes of a row. -/
def merged (new old : PendingDeliveryReceipt) : PendingDeliveryReceipt :=
  { new with requestId := old.requestId, createdAt := old.createdAt }

def queue (s : Net) (new : PendingDeliveryReceipt) : Net :=
  { s with pending := s.pending.upsert new (merged new) fun _ => rfl }

def deleteRequests (s : Net) (ids : List TransferId) : Net :=
  { s with ledger := { s.ledger with requests := s.ledger.requests.deleteWhere fun r => r.transferId ∈ ids } }

/-- The `receiver_requests` of an identity reset. -/
def reset (r : StoredRequest) (now : Millis) : StoredRequest :=
  { r with
    status := if r.status = .requested then .expired else .failed
    reason := some "device identity reset"
    respondedAt := r.respondedAt <|> some now }

def resetIdentity (s : Net) (now : Millis) : Net :=
  { s with ledger := { s.ledger with
      requests := s.ledger.requests.updateWhere (fun r => r.status = .requested || r.status = .accepted)
        (reset · now) fun _ => rfl } }

def event (l : Local) (s : Net) : Event → Option Net
  | .queue transferId address r failureReason now =>
    if r ∈ s.approved then
      some (s.queue (Invitation.Repository.pending ⟨transferId,l.encodePersistedSenderAddress address⟩ r failureReason now))
    else none
  | .deleteTransfer id => some (s.deleteRequests [id])
  | .deleteReceiveHistory ids => some (s.deleteRequests ids)
  | .resetIdentity now => some (s.resetIdentity now)

def new : Net := ⟨⟨.empty,[]⟩,0,[],.empty,[],fun _ => none,fun _ => none,fun _ => false,[]⟩

end Net

def machine (l : Local) : Machine Net Call Op Ans Choice Event where
  init s := s = .new
  admits _ _ := true
  body := Call.body l
  exec s i call o c := s.exec l i call c o
  env := Net.event l

/-- The sender has a request for this receipt, in the state that both outcomes are recorded in. -/
def CanRecord (t : Requests) (x : Receipt) : Prop :=
  ∃ row, t.find x.requestId = some row ∧ matching x .accepted row = true

/-- The outcome was recorded or could no longer be, and no failure of the store is why it was dropped. -/
structure Drop.Justified (d : Drop) : Prop where
  settled : Recorded d.requests d.receipt d.outcome ∨ ¬CanRecord d.requests d.receipt
  stored : d.storeFailed = false

/-- The receiver loses no receipt that the sender could still record. -/
def NoneLost (s : Net) : Prop := ∀ d ∈ s.drops, d.Justified

namespace Sample

def device : Local := ⟨5,id,id,some,some⟩

def offered : ReceiverRequestInsert := ⟨0,77,5,"demo",some "receiver",none,"0.1.0"⟩

def good : Choice := ⟨⟨4,false,.accepted⟩,9⟩

def start : Conf Net Call Op Ans := ⟨.new,[]⟩

/-- The request is accepted, its receive completed and the receipt sent; the statement that
completes it fails or not, and the answer arrives. -/
def labels (fails : Bool) : List (Label Call Choice Event) :=
  [.fork (.waitForSenderDecision offered),.act 0 good,.act 0 good,.fork (.respond 0 true none),.act 1 good] ++
  List.replicate 4 (.act 0 good) ++
  [.env (.queue 3 8 ⟨0,77,9⟩ none 6),.fork .deliverPendingReceipts,.act 2 good,.act 2 good,.fork (.handle 0),
    .act 3 good,.act 3 { good with fails }] ++
  List.replicate (if fails then 1 else 2) (.act 3 good) ++ List.replicate 2 (.act 2 good)

def final (fails : Bool) : Conf Net Call Op Ans := ((machine device).system.run start (labels fails)).getD start

theorem start_new : (machine device).system.init start := ⟨rfl,rfl⟩

end Sample

open Sample in
/-- The store fails once, and the receipt of a request that is still accepted is gone. -/
theorem receipt_lost : ∃ c, Reach (machine device).system Always c ∧ ¬NoneLost c.shared ∧
    c.shared.pending.rows = [] ∧ c.shared.ledger.requests.rows.map (·.status) = [.accepted] ∧
    ∀ t ∈ c.threads, t.rest.finished = true := by
  have ran : (machine device).system.run start (labels true) = some (final true) := rfl
  refine ⟨final true,.of_run start_new ran,fun none => ?_,rfl,rfl,by decide⟩
  have stored := (none _ (List.mem_singleton_self _ : _ ∈ (final true).shared.drops)).stored
  cases stored

/-! What becomes of a request that was approved. -/

/-- The request was accepted, and its delivery may be settled. -/
def acceptedOnce (status : ReceiverRequestStatus) : Prop :=
  status = .accepted ∨ status = .completed ∨ status = .failed

/-- A request later on: one that was accepted stays so, and a settled one settled. -/
structure Onward (row row' : StoredRequest) : Prop where
  transfer : row'.transferId = row.transferId
  endpoint : row'.remoteEndpointId = row.remoteEndpointId
  token : row'.receiptTokenHash = row.receiptTokenHash
  granted : acceptedOnce row.status → acceptedOnce row'.status
  accepted : acceptedOnce row.status → row'.status = .accepted → row.status = .accepted

/-- The request of this id is the one it was, if there is one. -/
def Kept (t u : Requests) (id : RequestId) : Prop :=
  ∀ row', u.find id = some row' → ∃ row, t.find id = some row ∧ Onward row row'

/-- What the approval of the receiver says of the request. -/
def Granted (l : Local) (t : Requests) (r : DeliveryReceipt) : Prop :=
  ∀ row, t.find r.requestId = some row → row.transferId = r.transferId ∧
    row.remoteEndpointId = l.receiver ∧ row.receiptTokenHash = some (l.receiptTokenHash r.token) ∧
    acceptedOnce row.status

/-- No outcome can be recorded for the receipt any more. -/
def Closed (l : Local) (t : Requests) (r : DeliveryReceipt) : Prop := ¬CanRecord t (l.receipt l.receiver r)

/-- The statements that add a request, or change what it is compared with. -/
def Writes (o : ReceiverLifecycle.Op) (id : RequestId) : Prop :=
  match o with
  | .insertRequest r => r.id = id
  | .setToken id' _ => id' = id
  | _ => False

section Requests

variable {l : Local} {t u v : Requests} {s : Ledger} {c : ReceiverLifecycle.Choice} {o : ReceiverLifecycle.Op}
  {row row' : StoredRequest} {id : RequestId} {r : DeliveryReceipt} {x : Receipt}

theorem onward_refl (row : StoredRequest) : Onward row row := ⟨rfl,rfl,rfl,id,fun _ => id⟩

theorem Onward.trans {row'' : StoredRequest} (first : Onward row row') (second : Onward row' row'') :
    Onward row row'' where
  transfer := second.transfer.trans first.transfer
  endpoint := second.endpoint.trans first.endpoint
  token := second.token.trans first.token
  granted was := second.granted (first.granted was)
  accepted was now := first.accepted was (second.accepted (first.granted was) now)

theorem kept_refl (t : Requests) (id : RequestId) : Kept t t id := fun row there => ⟨row,there,onward_refl row⟩

theorem Kept.trans (first : Kept t u id) (second : Kept u v id) : Kept t v id := by
  intro row'' there
  obtain ⟨row',before,later⟩ := second row'' there
  obtain ⟨row,earlier,sooner⟩ := first row' before
  exact ⟨row,earlier,sooner.trans later⟩

theorem not_granted (waiting : row.status = .requested) : ¬acceptedOnce row.status := by
  rw [waiting]
  rintro (is | is | is) <;> cases is

theorem changed_onward (h : Changed o row row') (untouched : ¬Writes o row.id) : Onward row row' := by
  cases h with
  | tokened => exact absurd rfl untouched
  | decided _ _ _ waiting | expired _ _ waiting =>
    exact ⟨rfl,rfl,rfl,fun is => absurd is (not_granted waiting),fun is => absurd is (not_granted waiting)⟩
  | completed | failed => exact ⟨rfl,rfl,rfl,fun _ => by simp [acceptedOnce],fun _ is => by cases is⟩

theorem exec_kept (untouched : ¬Writes o id) : Kept s.requests (s.exec c o).2.requests id := by
  intro row' there
  rcases exec_wrote (s := s) (c := c) (o := o) id with same | ⟨new,now,is,_,added⟩ | ⟨row,new,was,becomes,changed⟩
  · exact ⟨row',same.symm.trans there,onward_refl row'⟩
  · have own := Table.find_key added
    exact absurd (is ▸ own : Writes o id) untouched
  · cases becomes.symm.trans there
    have own : row.key = id := Table.find_key was
    exact ⟨row,was,changed_onward changed (own ▸ untouched : ¬Writes o row.key)⟩

/-- A request after a statement is one from before, or the one that the statement adds. -/
theorem exec_origin (there : (s.exec c o).2.requests.find id = some row') :
    (∃ row, s.requests.find id = some row ∧ row'.transferId = row.transferId ∧
      row'.remoteEndpointId = row.remoteEndpointId) ∨
    ∃ new now, o = .insertRequest new ∧ new.id = id ∧
      row' = ⟨Invitation.ReceiverRequests.requested new now,none⟩ := by
  rcases exec_wrote (s := s) (c := c) (o := o) id with same | ⟨new,now,is,_,added⟩ | ⟨row,after,was,becomes,changed⟩
  · exact .inl ⟨row',same.symm.trans there,rfl,rfl⟩
  · have own := Table.find_key added
    cases added.symm.trans there
    exact .inr ⟨new,now,is,own,rfl⟩
  · cases becomes.symm.trans there
    refine .inl ⟨row,was,?_⟩
    cases changed <;> exact ⟨rfl,rfl⟩

theorem granted_later (kept : Kept t u r.requestId) (before : Granted l t r) : Granted l u r := by
  intro row' there
  obtain ⟨row,was,onward⟩ := kept row' there
  obtain ⟨transfer,endpoint,token,is⟩ := before row was
  exact ⟨onward.transfer.trans transfer,onward.endpoint.trans endpoint,onward.token.trans token,onward.granted is⟩

theorem closed_later (kept : Kept t u r.requestId) (before : Granted l t r) (closed : Closed l t r) :
    Closed l u r := by
  rintro ⟨row',there,met⟩
  obtain ⟨row,was,onward⟩ := kept row' there
  obtain ⟨received,accepted⟩ := matching_iff.mp met
  refine closed ⟨row,was,matching_iff.mpr ⟨?_,onward.accepted (before row was).2.2.2 accepted⟩⟩
  simpa [Invitation.ReceiverRequests.receives,onward.transfer,onward.endpoint,onward.token] using received

/-- A receipt for the same request can be recorded if the approved one can. -/
theorem canRecord_same {r' : DeliveryReceipt} (grant : Granted l t r) (same : r'.requestId = r.requestId)
    (can : CanRecord t (l.receipt l.receiver r')) : CanRecord t (l.receipt l.receiver r) := by
  obtain ⟨row,found,met⟩ := can
  have here : t.find r.requestId = some row := same ▸ found
  obtain ⟨transfer,endpoint,token,_⟩ := grant row here
  refine ⟨row,here,matching_iff.mpr ⟨?_,(matching_iff.mp met).2⟩⟩
  simp [Invitation.ReceiverRequests.receives,Local.receipt,transfer,endpoint,token]

end Requests

/-! What is kept while no statement fails that a report of the receiver is handled with. -/

/-- The statements that a report of the receiver is handled with do not fail. -/
def permits (call : Call) (c : Choice) : Op → Bool
  | .ledger _ => call.rpc.isNone || !c.fails
  | _ => true

def minds (_ : Net) (_ : Nat) (call : Call) (o : Op) (c : Choice) : Prop := permits call c o = true

structure Inv (l : Local) (s : Net) : Prop where
  fresh : ∀ id row, s.ledger.requests.find id = some row → id < s.drawn
  unowned : ∀ id, s.drawn ≤ id → s.owner id = none
  fits : Fits s.ledger.requests
  drawn : ∀ r ∈ s.approved, r.requestId < s.drawn
  granted : ∀ r ∈ s.approved, Granted l s.ledger.requests r
  pending : ∀ id p, s.pending.find id = some p → kept p ∈ s.approved ∧
    l.parsePersistedSenderAddress p.senderBlobTicket ≠ none
  sent : ∀ report ∈ s.sent, report.receipt ∈ s.approved
  asked : ∀ rpc, s.answers rpc ≠ none → rpc < s.sent.length
  answered : ∀ (rpc : Nat) (report : Report), s.sent[rpc]? = some report → s.answers rpc ≠ none →
    Closed l s.ledger.requests report.receipt
  unfailed : ∀ rpc, s.failed rpc = false
  drops : NoneLost s

/-- What the others leave to thread `i`, and to the receiver. -/
structure Rely (l : Local) (i : Nat) (s t : Net) : Prop where
  approved : ∀ r ∈ s.approved, r ∈ t.approved
  sent : ∀ (rpc : Nat) (report : Report), s.sent[rpc]? = some report → t.sent[rpc]? = some report
  closed : ∀ r ∈ s.approved, Closed l s.ledger.requests r → Closed l t.ledger.requests r
  own : ∀ id, s.owner id = some i → t.owner id = some i ∧ Kept s.ledger.requests t.ledger.requests id ∧
    ∀ r ∈ t.approved, r.requestId = id → r ∈ s.approved

theorem rely_refl (l : Local) (i : Nat) (s : Net) : Rely l i s s :=
  ⟨fun _ h => h,fun _ _ h => h,fun _ _ h => h,fun id own => ⟨own,kept_refl _ id,fun _ h _ => h⟩⟩

theorem Rely.trans {l : Local} {i : Nat} {s t u : Net} (first : Rely l i s t) (second : Rely l i t u) :
    Rely l i s u where
  approved r there := second.approved r (first.approved r there)
  sent rpc report there := second.sent rpc report (first.sent rpc report there)
  closed r there closed := second.closed r (first.approved r there) (first.closed r there closed)
  own id own := by
    obtain ⟨owned,kept,unapproved⟩ := first.own id own
    obtain ⟨owned',kept',unapproved'⟩ := second.own id owned
    exact ⟨owned',kept.trans kept',fun r there same => unapproved r (unapproved' r there same) same⟩

def terms (l : Local) : Terms Net where
  known _ := True
  inv := Inv l
  rely := Rely l
  refl := rely_refl l
  trans _ := Rely.trans

/-- The requests a thread may write, and that the column can hold them. -/
def Entitled (s : Net) (i : Nat) (o : ReceiverLifecycle.Op) : Prop :=
  Orderly o ∧ ∀ id, Writes o id → s.owner id = some i ∧ ∀ r ∈ s.approved, r.requestId ≠ id

/-- The state after a statement of the sender. -/
def ran (s : Net) (call : Call) (c : Choice) (o : ReceiverLifecycle.Op) : Net :=
  { s with
    ledger := (s.ledger.exec c.toChoice o).2
    failed := fun rpc => s.failed rpc || (c.fails && call.rpc = some rpc) }

section Steps

variable {l : Local} {s t u : Net} {i j : Nat} {call : Call} {c : Choice} {o : ReceiverLifecycle.Op}
  {r : DeliveryReceipt} {id : RequestId}

/-- The requests move on, and the rest stays. -/
theorem Inv.requests {ledger : Ledger} {failed : Nat → Bool} (inv : Inv l s)
    (kept : ∀ r ∈ s.approved, Kept s.ledger.requests ledger.requests r.requestId)
    (fresh : ∀ id row, ledger.requests.find id = some row → id < s.drawn) (fits : Fits ledger.requests)
    (unfailed : ∀ rpc, failed rpc = false) : Inv l { s with ledger, failed } where
  fresh := fresh
  unowned := inv.unowned
  fits := fits
  drawn := inv.drawn
  granted r there := granted_later (kept r there) (inv.granted r there)
  pending := inv.pending
  sent := inv.sent
  asked := inv.asked
  answered rpc report there answered := by
    have approved := inv.sent report (List.mem_of_getElem? there)
    exact closed_later (kept _ approved) (inv.granted _ approved) (inv.answered rpc report there answered)
  unfailed := unfailed
  drops := inv.drops

theorem Inv.rely_requests {ledger : Ledger} {failed : Nat → Bool} (inv : Inv l s)
    (kept : ∀ r ∈ s.approved, Kept s.ledger.requests ledger.requests r.requestId)
    (own : ∀ id, s.owner id = some j → Kept s.ledger.requests ledger.requests id) :
    Rely l j s { s with ledger, failed } where
  approved _ there := there
  sent _ _ there := there
  closed r there := closed_later (kept r there) (inv.granted r there)
  own id owned := ⟨owned,own id owned,fun _ there _ => there⟩

theorem Entitled.approved (entitled : Entitled s i o) : ∀ r ∈ s.approved,
    Kept s.ledger.requests (s.ledger.exec c.toChoice o).2.requests r.requestId :=
  fun r there => exec_kept fun writes => (entitled.2 _ writes).2 r there rfl

theorem ran_inv (inv : Inv l s) (entitled : Entitled s i o) (permitted : permits call c (.ledger o) = true) :
    Inv l (ran s call c o) := by
  refine inv.requests entitled.approved (fun id row' there => ?_) ?_ fun rpc => ?_
  · rcases exec_origin there with ⟨row,was,_⟩ | ⟨new,now,rfl,rfl,_⟩
    · exact inv.fresh id row was
    · by_contra late
      have owned := (entitled.2 new.id rfl).1
      rw [inv.unowned new.id (Nat.le_of_not_lt late)] at owned
      cases owned
  · apply exec_fits inv.fits
    rintro new rfl
    exact entitled.1
  · simp only [permits,Bool.or_eq_true,Option.isNone_iff_eq_none,Bool.not_eq_true'] at permitted
    rcases permitted with other | works
    · simp [inv.unfailed rpc,other]
    · simp [inv.unfailed rpc,works]

theorem ran_rely (inv : Inv l s) (entitled : Entitled s i o) (other : j ≠ i) :
    Rely l j s (ran s call c o) := by
  refine inv.rely_requests entitled.approved fun id owned => exec_kept fun writes => ?_
  have both := (entitled.2 id writes).1.symm.trans owned
  exact other (Option.some.inj both).symm

/-- A statement that writes no request of its own disturbs no thread at all. -/
theorem ran_rely_plain (inv : Inv l s) (plain : ∀ id, ¬Writes o id) : Rely l j s (ran s call c o) :=
  inv.rely_requests (fun _ _ => exec_kept (plain _)) fun id _ => exec_kept (plain id)

/-- The surroundings change no request but by what any statement may do. -/
theorem requests_step {ledger : Ledger} (inv : Inv l s)
    (kept : ∀ id, Kept s.ledger.requests ledger.requests id) :
    Inv l { s with ledger } ∧ ∀ j, Rely l j s { s with ledger } := by
  refine ⟨inv.requests (fun r _ => kept _) (fun id row' there => ?_) (fun id row' there => ?_) inv.unfailed,
    fun j => inv.rely_requests (fun r _ => kept _) fun id _ => kept id⟩
  · obtain ⟨row,was,_⟩ := kept id row' there
    exact inv.fresh id row was
  · obtain ⟨row,was,onward⟩ := kept id row' there
    rw [onward.transfer]
    exact inv.fits id row was

theorem kept_deleteWhere (t : Requests) (p : StoredRequest → Bool) (id : RequestId) : Kept t (t.deleteWhere p) id := by
  intro row there
  rw [Table.find_deleteWhere] at there
  exact ⟨row,(Option.filter_eq_some_iff.mp there).1,onward_refl row⟩

theorem reset_onward {row : StoredRequest} {now : Millis} : Onward row (Net.reset row now) := by
  refine ⟨rfl,rfl,rfl,fun is => ?_,fun is now => ?_⟩
  · have opened : row.status ≠ .requested := fun waiting => not_granted waiting is
    simp [Net.reset,acceptedOnce,opened]
  · simp only [Net.reset] at now
    split at now <;> cases now

theorem kept_reset (t : Requests) (p : StoredRequest → Bool) (now : Millis)
    (keeps : ∀ r, (Net.reset r now).key = r.key) (id : RequestId) :
    Kept t (t.updateWhere p (Net.reset · now) keeps) id := by
  intro row' there
  rw [Table.find_updateWhere] at there
  obtain ⟨row,was,rfl⟩ := Option.map_eq_some_iff.mp there
  refine ⟨row,was,?_⟩
  split
  · exact reset_onward
  · exact onward_refl row

/-- The answers and the receiver's rows are no thread's to rely on. -/
theorem rely_beside (l : Local) (j : Nat) (s : Net) (answers : Nat → Option DeliveryReceiptResponse)
    (pending : Table PendingDeliveryReceipt.requestId) (drops : List Drop) :
    Rely l j s { s with answers, pending, drops } :=
  ⟨fun _ h => h,fun _ _ h => h,fun _ _ h => h,fun id own => ⟨own,kept_refl _ id,fun _ h _ => h⟩⟩

theorem queue_step (inv : Inv l s) {new : PendingDeliveryReceipt} (approved : kept new ∈ s.approved)
    (parses : l.parsePersistedSenderAddress new.senderBlobTicket ≠ none) :
    Inv l (s.queue new) ∧ ∀ j, Rely l j s (s.queue new) := by
  refine ⟨{ inv with pending := fun id p there => ?_ },fun j => rely_beside l j s _ _ _⟩
  have after : (s.queue new).pending.find id =
      if id = new.requestId then some ((s.pending.find id).elim new (Net.merged new)) else s.pending.find id :=
    Table.find_upsert s.pending new (Net.merged new) (fun _ => rfl) id
  rw [after] at there
  split at there
  · rename_i same
    cases before : s.pending.find id with
    | none =>
      rw [before] at there
      cases there
      exact ⟨approved,parses⟩
    | some old =>
      have key : old.requestId = new.requestId := (Table.find_key before).trans same
      rw [before] at there
      cases there
      have same : kept (Net.merged new old) = kept new := by simp only [kept,Net.merged,key]
      exact ⟨same ▸ approved,parses⟩
  · exact inv.pending id p there

theorem event_step (reads : ∀ a, l.parsePersistedSenderAddress (l.encodePersistedSenderAddress a) = some a)
    {e : Event} (inv : Inv l s) (moved : Net.event l s e = some t) : Inv l t ∧ ∀ j, Rely l j s t := by
  cases e with
  | queue transferId address r failureReason now =>
    simp only [Net.event] at moved
    split at moved
    · rename_i approved
      cases moved
      refine queue_step inv approved ?_
      show l.parsePersistedSenderAddress (l.encodePersistedSenderAddress address) ≠ none
      rw [reads]
      exact Option.some_ne_none _
    · cases moved
  | deleteTransfer id | deleteReceiveHistory ids =>
    cases moved
    exact requests_step inv fun id => kept_deleteWhere _ _ id
  | resetIdentity now =>
    cases moved
    exact requests_step inv fun id => kept_reset _ _ now (fun _ => rfl) id

end Steps

/-! The calls, one by one. -/

section Calls

variable {l : Local} {s t u : Net} {i j : Nat} {call : Call} {r : DeliveryReceipt} {x : Receipt}

abbrev Does (l : Local) (i : Nat) (call : Call) {α : Type} (p : Task α) (post : α → Net → Prop) (s : Net) : Prop :=
  Safe ((machine l).restrict minds) free (terms l) i call p post s

abbrev done {α : Type} : α → Net → Prop := fun _ _ => True

theorem performed {o : Op} {c : Choice} {a : Ans o} (h : ((machine l).restrict minds).exec s i call o c = some (a,u)) :
    permits call c o = true ∧ s.exec l i call c o = some (a,u) := restrict_exec.mp h

/-- A statement, and what follows it. -/
theorem does_ledger {α : Type} {o : ReceiverLifecycle.Op} {k : ReceiverLifecycle.Ans o → Task α}
    {post : α → Net → Prop} (entitled : ∀ t, Rely l i s t → Entitled t i o)
    (next : ∀ t c, Inv l t → Rely l i s t → permits call c (.ledger o) = true →
      Does l i call (k (t.ledger.exec c.toChoice o).1) post (ran t call c o)) :
    Does l i call (.step (.ledger o) k) post s := by
  intro t _ inv rely c a u _ happened
  obtain ⟨permitted,same⟩ := performed happened
  cases same
  exact ⟨⟨ran_inv inv (entitled t rely) permitted,fun j other => ran_rely inv (entitled t rely) other⟩,
    next t c inv rely permitted⟩

/-- A statement that any call may perform. -/
def Plain (o : ReceiverLifecycle.Op) : Prop := Orderly o ∧ ∀ id, ¬Writes o id

theorem Plain.entitled {o : ReceiverLifecycle.Op} (plain : Plain o) : Entitled s i o :=
  ⟨plain.1,fun id writes => absurd writes (plain.2 id)⟩

theorem quiet_plain {o : ReceiverLifecycle.Op} (plain : Plain o) :
    Quiet ((machine l).restrict minds) free (terms l) i call (.ledger o) := by
  intro t _ inv c a u _ happened
  obtain ⟨permitted,same⟩ := performed happened
  cases same
  exact ⟨ran_inv inv (plain.entitled (i := i)) permitted,fun j => ran_rely_plain inv plain.2⟩

theorem does_plain {α : Type} {p : ReceiverLifecycle.Task α} (plain : p.All Plain) :
    Does l i call (within p) (fun _ => Rely l i s) s :=
  safe_quiet (Prog.all_embed (Prog.all_mono (fun _ => quiet_plain) plain)) s

theorem does_dropping {α : Type} {p : Task α} (h : Does l i call p done s) : Does l i call (dropping p) done s :=
  safe_bind (safe_mono (fun _ _ _ => trivial) h)

theorem plain_update (id : RequestId) (decision : Decision) (reason : Option String) :
    (updateReceiverRequestStatus id decision reason).All Plain := by
  refine Prog.all_andThen (Prog.all_perform ⟨trivial,fun _ writes => writes⟩) fun changed => ?_
  split <;> trivial

theorem plain_recorded (x : Receipt) (out : Outcome) {α : Type} {k : Bool → ReceiverLifecycle.Task (Except Refusal α)}
    (rest : ∀ a, (k a).All Plain) : (Prog.andThen (ReceiverLifecycle.op (.isRecorded x out)) k).All Plain :=
  Prog.all_andThen (Prog.all_perform ⟨trivial,fun _ writes => writes⟩) rest

theorem plain_displayName (x : Receipt) : (ReceiverLifecycle.op (.displayName x)).All Plain :=
  Prog.all_perform ⟨trivial,fun _ writes => writes⟩

theorem plain_complete (x : Receipt) : (completeReceiverDelivery x).All Plain := by
  unfold completeReceiverDelivery
  split
  · trivial
  · refine Prog.all_andThen (Prog.all_perform ⟨trivial,fun _ writes => writes⟩) fun changed => ?_
    cases changed with
    | true => exact plain_displayName x
    | false =>
      refine plain_recorded x .completed fun already => ?_
      cases already
      · trivial
      · exact plain_displayName x

theorem plain_fail (x : Receipt) (reason : String) : (failReceiverDelivery x reason).All Plain := by
  unfold failReceiverDelivery
  split
  · trivial
  · refine Prog.all_andThen (Prog.all_perform ⟨trivial,fun _ writes => writes⟩) fun changed => ?_
    cases changed with
    | true => trivial
    | false =>
      refine plain_recorded x .failed fun already => ?_
      cases already <;> trivial

/-- The settling statement leaves no accepted request behind that its receipt is for. -/
theorem setRow_closed {t : Requests} {f : StoredRequest → StoredRequest} (keeps : ∀ r, (f r).key = r.key)
    (settles : ∀ row, (f row).status ≠ .accepted) :
    ¬CanRecord (Requests.setRow t x.requestId (matching x .accepted) f keeps).2 x := by
  rintro ⟨row',there,met⟩
  rw [find_setRow,if_pos rfl] at there
  obtain ⟨row,_,rfl⟩ := Option.map_eq_some_iff.mp there
  split at met
  · exact settles row (matching_iff.mp met).2
  · rename_i missed
    exact missed met

theorem completed_closed {s : Ledger} {c : ReceiverLifecycle.Choice} (works : c.fails = false) :
    ¬CanRecord (s.exec c (.complete x)).2.requests x := by
  have after : (s.exec c (.complete x)).2.requests = (s.requests.complete x c.now).2 := by
    simp [Ledger.exec,works]
  rw [after]
  unfold ReceiverLifecycle.Requests.complete
  apply setRow_closed
  intro row is
  cases is

theorem failed_closed {s : Ledger} {c : ReceiverLifecycle.Choice} {reason : String} (works : c.fails = false) :
    ¬CanRecord (s.exec c (.fail x reason)).2.requests x := by
  have after : (s.exec c (.fail x reason)).2.requests = (s.requests.fail x reason).2 := by
    simp [Ledger.exec,works]
  rw [after]
  unfold ReceiverLifecycle.Requests.fail
  apply setRow_closed
  intro row is
  cases is

/-- A receipt that the requests cannot have is closed. -/
theorem unfit_closed {t : Requests} {e : VnidropError} (fits : Fits t) (large : toDbId x.transferId = .error e) :
    ¬CanRecord t x := by
  rintro ⟨row,found,met⟩
  have received := (matching_iff.mp met).1
  simp only [Invitation.ReceiverRequests.receives,Bool.and_eq_true,decide_eq_true_eq] at received
  have small := fits _ row found
  rw [received.1.1] at small
  unfold toDbId at large
  rw [if_pos small] at large
  cases large

/-- A report is served, without a failure if it is the receiver's. -/
theorem does_served {α : Type} {o : ReceiverLifecycle.Op}
    {k : ReceiverLifecycle.Ans o → ReceiverLifecycle.Task α} (plain : Plain o) (rest : ∀ a, (k a).All Plain)
    (closes : ∀ (t : Ledger) (c : ReceiverLifecycle.Choice), c.fails = false →
      ¬CanRecord (t.exec c o).2.requests (l.receipt l.receiver r))
    (handles : call.rpc ≠ none) (approved : r ∈ s.approved) :
    Does l i call (within (.step o k)) (fun _ t => Rely l i s t ∧ Closed l t.ledger.requests r) s := by
  refine does_ledger (fun _ _ => plain.entitled) fun t c inv rely permitted => ?_
  have works : c.fails = false := by
    simpa [permits,Option.isNone_iff_eq_none,handles] using permitted
  have after : Rely l i s (ran t call c o) := rely.trans (ran_rely_plain inv plain.2)
  refine safe_mono (fun _ u later => ⟨after.trans later,?_⟩) (does_plain (rest _))
  exact later.closed r (after.approved r approved) (closes t.ledger c.toChoice works)

theorem does_completeDelivery (handles : call.rpc ≠ none) (approved : r ∈ s.approved)
    (fits : Fits s.ledger.requests) : Does l i call (completeDelivery (l.receipt l.receiver r))
      (fun _ t => Rely l i s t ∧ Closed l t.ledger.requests r) s := by
  refine safe_bind (safe_mono (fun _ _ h => h) ?_)
  have all := plain_complete (l.receipt l.receiver r)
  unfold completeReceiverDelivery at all ⊢
  cases fit : toDbId (l.receipt l.receiver r).transferId with
  | error e => exact ⟨rely_refl l i s,unfit_closed fits fit⟩
  | ok _ =>
    rw [fit] at all
    exact does_served (o := .complete (l.receipt l.receiver r)) all.1 all.2 (fun _ _ => completed_closed)
      handles approved

theorem does_failDelivery {reason : String} (handles : call.rpc ≠ none) (approved : r ∈ s.approved)
    (fits : Fits s.ledger.requests) : Does l i call (failDelivery (l.receipt l.receiver r) reason)
      (fun _ t => Rely l i s t ∧ Closed l t.ledger.requests r) s := by
  refine safe_bind (safe_mono (fun _ _ h => h) ?_)
  have all := plain_fail (l.receipt l.receiver r) reason
  unfold failReceiverDelivery at all ⊢
  cases fit : toDbId (l.receipt l.receiver r).transferId with
  | error e => exact ⟨rely_refl l i s,unfit_closed fits fit⟩
  | ok _ =>
    rw [fit] at all
    exact does_served (o := .fail (l.receipt l.receiver r) reason) all.1 all.2 (fun _ _ => failed_closed)
      handles approved

theorem does_serve {report : Report} (handles : call.rpc ≠ none) (approved : report.receipt ∈ s.approved)
    (fits : Fits s.ledger.requests) : Does l i call (serve l l.receiver report)
      (fun _ t => Rely l i s t ∧ Closed l t.ledger.requests report.receipt) s := by
  cases report with
  | reportDelivery r => exact does_completeDelivery handles approved fits
  | reportDeliveryFailure r reason => exact does_failDelivery handles approved fits

theorem does_handle {rpc : Nat} (handles : call.rpc ≠ none) : Does l i call (handle l rpc) done s := by
  refine safe_perform fun t _ inv _ c a u _ happened => ?_
  obtain ⟨_,same⟩ := performed happened
  cases same
  refine ⟨⟨inv,fun j _ => rely_refl l j t⟩,?_⟩
  cases sent : t.sent[rpc]? with
  | none => trivial
  | some report =>
    have approved := inv.sent report (List.mem_of_getElem? sent)
    refine safe_bind (safe_mono (fun response u served => ?_) (does_serve handles approved inv.fits))
    intro v _ inv relied c a w _ happened
    obtain ⟨_,same⟩ := performed happened
    cases same
    have still : v.sent[rpc]? = some report := relied.sent rpc report (served.1.sent rpc report sent)
    have closed := relied.closed _ (served.1.approved _ approved) served.2
    refine ⟨⟨{ inv with asked := fun rpc' answered => ?_, answered := fun rpc' report' there answered => ?_ },
      fun j _ => rely_beside l j v _ _ _⟩,trivial⟩
    · by_cases this : rpc' = rpc
      · exact this ▸ (List.getElem?_eq_some_iff.mp still).1
      · exact inv.asked rpc' (by simpa [Function.update_of_ne this] using answered)
    · by_cases this : rpc' = rpc
      · subst this
        cases still.symm.trans there
        exact closed
      · exact inv.answered rpc' report' there (by simpa [Function.update_of_ne this] using answered)

theorem reportOf_receipt (p : PendingDeliveryReceipt) : (reportOf p).receipt = kept p := by
  unfold reportOf
  cases p.failureReason <;> rfl

/-- A report is sent, and its answer is not there yet. -/
theorem send_step (inv : Inv l s) {report : Report} (approved : report.receipt ∈ s.approved) :
    Inv l { s with sent := s.sent ++ [report] } ∧ ∀ j, Rely l j s { s with sent := s.sent ++ [report] } := by
  have grows (rpc : Nat) (report' : Report) (there : s.sent[rpc]? = some report') :
      (s.sent ++ [report])[rpc]? = some report' := by
    rw [List.getElem?_append_left (List.getElem?_eq_some_iff.mp there).1]
    exact there
  refine ⟨{ inv with sent := ?_, asked := ?_, answered := ?_ },fun j => ⟨fun _ h => h,grows,fun _ _ h => h,
    fun id own => ⟨own,kept_refl _ id,fun _ h _ => h⟩⟩⟩
  · intro report' there
    rcases List.mem_append.mp there with old | new
    · exact inv.sent report' old
    · exact List.mem_singleton.mp new ▸ approved
  · intro rpc answered
    have asked := inv.asked rpc answered
    simp only [List.length_append]
    omega
  · intro rpc report' there answered
    rw [List.getElem?_append_left (inv.asked rpc answered)] at there
    exact inv.answered rpc report' there answered

/-- A receipt is dropped once its request is closed. -/
theorem delete_step (inv : Inv l s) {requestId : RequestId} {rpc : Nat} (approved : r ∈ s.approved)
    (named : r.requestId = requestId) (closed : Closed l s.ledger.requests r) :
    Inv l { s with pending := s.pending.delete requestId, drops := s.drop l requestId (some rpc) } := by
  refine { inv with pending := fun id p there => ?_, drops := ?_ }
  · have here : (s.pending.delete requestId).find id = some p := there
    by_cases same : id = requestId
    · rw [same,Table.find_delete_self] at here
      cases here
    · rw [Table.find_delete_other _ same] at here
      exact inv.pending id p here
  · show ∀ d ∈ s.drop l requestId (some rpc), d.Justified
    unfold Net.drop
    cases found : s.pending.find requestId with
    | none => exact inv.drops
    | some p =>
      refine List.forall_mem_cons.mpr ⟨⟨.inr fun can => ?_,inv.unfailed rpc⟩,inv.drops⟩
      have own : (kept p).requestId = r.requestId := (Table.find_key found).trans named.symm
      exact closed (canRecord_same (inv.granted r approved) own can)

theorem does_deliver {p : PendingDeliveryReceipt} (approved : kept p ∈ s.approved)
    (parses : l.parsePersistedSenderAddress p.senderBlobTicket ≠ none) :
    Does l i call (deliverPendingReceipt l p) (fun _ => Rely l i s) s := by
  unfold deliverPendingReceipt
  split
  · rename_i none
    exact absurd none parses
  · split
    · exact rely_refl l i s
    · refine safe_perform fun t _ inv rely c rpc u _ happened => ?_
      obtain ⟨_,same⟩ := performed happened
      cases same
      have there : (reportOf p).receipt ∈ t.approved := reportOf_receipt p ▸ rely.approved _ approved
      obtain ⟨inv',rely'⟩ := send_step inv there
      refine ⟨⟨inv',fun j _ => rely' j⟩,?_⟩
      have sent : (t.sent ++ [reportOf p])[t.sent.length]? = some (reportOf p) := List.getElem?_concat_length
      refine safe_perform fun v _ inv later c response w _ happened => ?_
      obtain ⟨_,same⟩ := performed happened
      have before := (rely.trans (rely' i)).trans later
      simp only [Net.exec] at same
      split at same
      · cases same
        exact ⟨⟨inv,fun j _ => rely_refl l j v⟩,before⟩
      · obtain ⟨answer,answered,same⟩ := Option.map_eq_some_iff.mp same
        cases same
        refine ⟨⟨inv,fun j _ => rely_refl l j v⟩,?_⟩
        have closed : Closed l v.ledger.requests (kept p) := by
          have held := inv.answered _ _ (later.sent _ _ sent) (by rw [answered]; exact Option.some_ne_none _)
          exact reportOf_receipt p ▸ held
        have deletes : Does l i call (op (.deletePending p.requestId (some t.sent.length))) (fun _ => Rely l i s) v := by
          intro x _ inv last c a y _ happened
          obtain ⟨_,same⟩ := performed happened
          have all := before.trans last
          cases same
          split
          · exact ⟨⟨inv,fun j _ => rely_refl l j x⟩,all⟩
          · have still := all.approved _ approved
            have closed' := last.closed _ (before.approved _ approved) closed
            exact ⟨⟨delete_step inv still rfl closed',fun j _ => rely_beside l j x _ _ _⟩,
              all.trans (rely_beside l i x _ _ _)⟩
        cases answer <;> exact deletes

theorem does_deliverEach {ps : List PendingDeliveryReceipt} (known : ∀ p ∈ ps, kept p ∈ s.approved ∧
    l.parsePersistedSenderAddress p.senderBlobTicket ≠ none) : Does l i call (deliverEach l ps) done s := by
  induction ps generalizing s with
  | nil => trivial
  | cons p ps ih =>
    obtain ⟨⟨approved,parses⟩,rest⟩ := List.forall_mem_cons.mp known
    refine safe_bind (safe_mono (fun _ t rely => ih fun q there => ?_) (does_deliver approved parses))
    exact ⟨rely.approved _ (rest q there).1,(rest q there).2⟩

theorem does_deliverPending : Does l i call (deliverPendingReceipts l) done s := by
  refine safe_perform fun t _ inv _ c listed u _ happened => ?_
  obtain ⟨_,same⟩ := performed happened
  simp only [Net.exec] at same
  split at same
  · cases same
    exact ⟨⟨inv,fun j _ => rely_refl l j t⟩,trivial⟩
  · cases same
    refine ⟨⟨inv,fun j _ => rely_refl l j t⟩,does_deliverEach fun p there => ?_⟩
    have row : p ∈ t.pending.rows := (List.perm_insertionSort _ _).mem_iff.mp there
    exact inv.pending _ p (Table.find_of_mem row)

/-- Thread `i` has drawn the id of the request, and has not approved anyone with it. -/
structure Holds (i : Nat) (new : ReceiverRequestInsert) (s : Net) : Prop where
  owner : s.owner new.id = some i
  unapproved : ∀ r ∈ s.approved, r.requestId ≠ new.id
  same : ∀ row, s.ledger.requests.find new.id = some row → row.transferId = new.transferId ∧
    row.remoteEndpointId = new.remoteEndpointId

variable {new : ReceiverRequestInsert} {c : Choice} {o : ReceiverLifecycle.Op} {token : Text}

theorem Holds.later (holds : Holds i new s) (rely : Rely l i s t) : Holds i new t := by
  obtain ⟨owner,kept,unapproved⟩ := rely.own new.id holds.owner
  refine ⟨owner,fun r there same => holds.unapproved r (unapproved r there same) same,fun row' there => ?_⟩
  obtain ⟨row,was,onward⟩ := kept row' there
  obtain ⟨transfer,endpoint⟩ := holds.same row was
  exact ⟨onward.transfer.trans transfer,onward.endpoint.trans endpoint⟩

theorem Holds.ran (holds : Holds i new s) (own : ∀ other, o = .insertRequest other → other = new) :
    Holds i new (ran s call c o) := by
  refine ⟨holds.owner,holds.unapproved,fun row' there => ?_⟩
  rcases exec_origin there with ⟨row,was,transfer,endpoint⟩ | ⟨other,now,is,_,rfl⟩
  · obtain ⟨transfer',endpoint'⟩ := holds.same row was
    exact ⟨transfer.trans transfer',endpoint.trans endpoint'⟩
  · rw [own other is]
    exact ⟨rfl,rfl⟩

theorem Holds.entitled (holds : Holds i new s) (orderly : Orderly o) (own : ∀ id, Writes o id → id = new.id) :
    Entitled s i o := by
  refine ⟨orderly,fun id writes => ?_⟩
  rw [own id writes]
  exact ⟨holds.owner,holds.unapproved⟩

/-- The request has the token that its approval goes out with. -/
structure Ready (l : Local) (i : Nat) (new : ReceiverRequestInsert) (token : Text) (s : Net) : Prop
    extends Holds i new s where
  granted : new.remoteEndpointId = l.receiver → Granted l s.ledger.requests ⟨new.id,new.transferId,token⟩

theorem Ready.later (ready : Ready l i new token s) (rely : Rely l i s t) : Ready l i new token t :=
  ⟨ready.toHolds.later rely,fun receiver => granted_later (rely.own _ ready.owner).2.1 (ready.granted receiver)⟩

/-- A statement that attached the token found an accepted request. -/
theorem setToken_row {s : Ledger} {c : ReceiverLifecycle.Choice} {id : RequestId} {tokenHash : Text}
    {row' : StoredRequest} (attached : (s.exec c (.setToken id tokenHash)).1 = .ok true)
    (there : (s.exec c (.setToken id tokenHash)).2.requests.find id = some row') :
    row'.status = .accepted ∧ row'.receiptTokenHash = some tokenHash := by
  simp only [Ledger.exec] at attached there
  split at attached
  · cases attached
  · rename_i works
    rw [if_neg works] at there
    have keeps (r : StoredRequest) : ({ r with receiptTokenHash := some tokenHash } : StoredRequest).key = r.key := rfl
    have changed := (setRow_changed (t := s.requests) (q := fun r => decide (r.status = .accepted)) keeps).symm.trans
      (Except.ok.inj attached)
    have after := (find_setRow (t := s.requests) (q := fun r => decide (r.status = .accepted)) keeps id).symm.trans there
    rw [if_pos rfl] at after
    obtain ⟨row,found,rfl⟩ := Option.map_eq_some_iff.mp after
    have accepted : row.status = .accepted := by simpa [found] using changed
    simp [accepted]

theorem draw_step (i : Nat) (new : ReceiverRequestInsert) (inv : Inv l s) :
    Inv l { s with drawn := s.drawn + 1, owner := Function.update s.owner s.drawn (some i) } ∧
    (∀ j, Rely l j s { s with drawn := s.drawn + 1, owner := Function.update s.owner s.drawn (some i) }) ∧
    Holds i { new with id := s.drawn }
      { s with drawn := s.drawn + 1, owner := Function.update s.owner s.drawn (some i) } := by
  refine ⟨{ inv with fresh := ?_, unowned := ?_, drawn := ?_ },fun j => ⟨fun _ h => h,fun _ _ h => h,fun _ _ h => h,?_⟩,?_⟩
  · exact fun id row there => Nat.lt_succ_of_lt (inv.fresh id row there)
  · intro id late
    have other : id ≠ s.drawn := Nat.ne_of_gt late
    exact (Function.update_of_ne other _ _).trans (inv.unowned id (Nat.le_of_succ_le late))
  · exact fun r there => Nat.lt_succ_of_lt (inv.drawn r there)
  · intro id own
    have other : id ≠ s.drawn := by
      rintro rfl
      rw [inv.unowned _ (Nat.le_refl _)] at own
      cases own
    exact ⟨(Function.update_of_ne other _ _).trans own,kept_refl _ id,fun _ h _ => h⟩
  · refine ⟨Function.update_self _ _ _,fun r there same => ?_,fun row there => ?_⟩
    · exact Nat.lt_irrefl _ (same ▸ inv.drawn r there)
    · exact absurd (inv.fresh _ row there) (Nat.lt_irrefl _)

theorem approve_step (inv : Inv l s) (ready : Ready l i new token s) (receiver : new.remoteEndpointId = l.receiver) :
    Inv l { s with approved := ⟨new.id,new.transferId,token⟩ :: s.approved } ∧
    ∀ j, j ≠ i → Rely l j s { s with approved := ⟨new.id,new.transferId,token⟩ :: s.approved } := by
  have grows (r : DeliveryReceipt) (there : r ∈ s.approved) :
      r ∈ (⟨new.id,new.transferId,token⟩ :: s.approved : List DeliveryReceipt) := List.mem_cons_of_mem _ there
  refine ⟨{ inv with drawn := ?_, granted := ?_, pending := ?_, sent := ?_ },
    fun j other => ⟨grows,fun _ _ h => h,fun _ _ h => h,fun id own => ⟨own,kept_refl _ id,fun r there same => ?_⟩⟩⟩
  · refine List.forall_mem_cons.mpr ⟨?_,inv.drawn⟩
    by_contra late
    have owned := ready.owner
    rw [inv.unowned new.id (Nat.le_of_not_lt late)] at owned
    cases owned
  · exact List.forall_mem_cons.mpr ⟨ready.granted receiver,inv.granted⟩
  · exact fun id p there => ⟨grows _ (inv.pending id p there).1,(inv.pending id p there).2⟩
  · exact fun report there => grows _ (inv.sent report there)
  · rcases List.mem_cons.mp there with rfl | there
    · have named : new.id = id := same
      have both : some i = some j := ready.owner.symm.trans (named ▸ own)
      exact absurd (Option.some.inj both).symm other
    · exact there

theorem does_token (holds : Holds i new s) :
    Does l i call (within (setReceiverReceiptToken new.id (l.receiptTokenHash token)))
      (fun a t => ∀ u, a = .ok u → Ready l i new token t) s := by
  refine does_ledger (o := .setToken new.id (l.receiptTokenHash token))
    (fun t rely => (holds.later rely).entitled trivial fun id writes => writes.symm) fun t c inv rely _ => ?_
  have still : Holds i new (ran t call c (.setToken new.id (l.receiptTokenHash token))) :=
    (holds.later rely).ran fun _ is => nomatch is
  cases attached : (t.ledger.exec c.toChoice (.setToken new.id (l.receiptTokenHash token))).1 with
  | error e => exact fun _ ok => nomatch ok
  | ok changed =>
    cases changed with
    | false => exact fun _ ok => nomatch ok
    | true =>
      refine fun _ _ => ⟨still,fun receiver row there => ?_⟩
      obtain ⟨transfer,endpoint⟩ := still.same row there
      obtain ⟨accepted,tokened⟩ := setToken_row attached there
      exact ⟨transfer,endpoint.trans receiver,tokened,.inl accepted⟩

theorem does_approve (holds : Holds i new s) : Does l i call (approve l new) done s := by
  refine safe_perform fun t _ inv rely c token u _ happened => ?_
  obtain ⟨_,same⟩ := performed happened
  cases same
  refine ⟨⟨inv,fun j _ => rely_refl l j t⟩,safe_andThen (safe_mono (fun a v ready => ⟨fun b ok => ?_,fun _ _ => trivial⟩)
    (does_token (holds.later rely)))⟩
  intro w _ inv later c a x _ happened
  obtain ⟨_,same⟩ := performed happened
  have now := (ready b ok).later later
  simp only [Net.exec] at same
  cases same
  split
  · rename_i receiver
    exact ⟨approve_step inv now receiver,trivial⟩
  · exact ⟨⟨inv,fun j _ => rely_refl l j w⟩,trivial⟩

theorem does_insert (holds : Holds i new s) :
    Does l i call (within (insertReceiverRequest new)) (fun _ => Holds i new) s := by
  unfold insertReceiverRequest
  by_cases small : new.transferId < 9223372036854775808
  · rw [show toDbId new.transferId = .ok new.transferId from if_pos small]
    refine does_ledger (o := .insertRequest new)
      (fun t rely => (holds.later rely).entitled small fun id writes => writes.symm) fun t c _ rely _ => ?_
    exact (holds.later rely).ran fun other is => (ReceiverLifecycle.Op.insertRequest.inj is).symm
  · rw [show toDbId new.transferId = .error _ from if_neg small]
    exact holds

theorem does_update (holds : Holds i new s) (decision : Decision) (reason : Option String) :
    Does l i call (within (updateReceiverRequestStatus new.id decision reason)) (fun _ => Holds i new) s :=
  safe_mono (fun _ _ rely => holds.later rely) (does_plain (plain_update new.id decision reason))

/-- The calls of a receiver's request go on from the id they have drawn. -/
theorem does_draw {α : Type} (new : ReceiverRequestInsert) {k : RequestId → Task α}
    (next : ∀ t id, Holds i { new with id } t → Does l i call (k id) done t) :
    Does l i call (op .drawRequestId >>= k) done s := by
  refine safe_perform fun t _ inv _ c id u _ happened => ?_
  obtain ⟨_,same⟩ := performed happened
  cases same
  obtain ⟨inv',rely,holds⟩ := draw_step i new inv
  exact ⟨⟨inv',fun j _ => rely j⟩,next _ _ holds⟩

theorem does_allow : Does l i call (allowWithoutSenderDecision l new) done s := by
  refine does_draw new fun t id holds => safe_andThen (safe_mono (fun _ u holds => ⟨fun _ _ => ?_,fun _ _ => trivial⟩)
    (does_insert holds))
  refine safe_andThen (safe_mono (fun _ v holds => ⟨fun _ _ => does_approve holds,fun _ _ => trivial⟩)
    (does_update holds .accepted none))

theorem does_wait : Does l i call (waitForSenderDecision l new) done s := by
  refine does_draw new fun t id holds => safe_andThen (safe_mono (fun _ u holds => ⟨fun _ _ => ?_,fun _ _ => trivial⟩)
    (does_insert holds))
  refine does_ledger (o := .awaitDecision id)
    (fun v rely => (holds.later rely).entitled trivial fun _ writes => nomatch writes) fun v c _ rely _ => ?_
  have still : Holds i { new with id } (ran v call c (.awaitDecision id)) :=
    (holds.later rely).ran fun _ is => nomatch is
  generalize (v.ledger.exec c.toChoice (.awaitDecision id)).1 = decision
  cases decision with
  | accepted => exact does_approve still
  | refused => trivial
  | expired => exact safe_mono (fun _ _ _ => trivial) (does_update still .expired _)

theorem does_call : Does l i call (call.body l) done s := by
  cases call with
  | allowWithoutSenderDecision new => exact does_dropping does_allow
  | waitForSenderDecision new => exact does_dropping does_wait
  | respond id accepted reason =>
    exact does_dropping (safe_mono (fun _ _ _ => trivial) (does_plain (plain_update id _ reason)))
  | expirePendingReceiverRequests reason =>
    exact does_dropping (safe_mono (fun _ _ _ => trivial)
      (does_plain (p := .step (.expirePending reason) .ret) ⟨⟨trivial,fun _ writes => writes⟩,fun _ => trivial⟩))
  | report remoteEndpointId report =>
    refine does_dropping ?_
    cases report with
    | reportDelivery r => exact safe_bind (safe_mono (fun _ _ _ => trivial) (does_plain (plain_complete _)))
    | reportDeliveryFailure r reason => exact safe_bind (safe_mono (fun _ _ _ => trivial) (does_plain (plain_fail _ _)))
  | handle rpc => exact does_handle (Option.some_ne_none rpc)
  | deliverPendingReceipts => exact does_deliverPending

end Calls

/-- While no statement fails that a report of the receiver is handled with, the receiver drops
no receipt whose outcome is neither recorded nor past recording. -/
theorem receipts_kept {l : Local}
    (reads : ∀ a, l.parsePersistedSenderAddress (l.encodePersistedSenderAddress a) = some a)
    {c : Conf Net Call Op Ans} (reach : Reach (machine l).system (Watched minds) c) : NoneLost c.shared := by
  have secured : Secured ((machine l).restrict minds) free (terms l) (fun _ _ _ => True) c := by
    refine reach_secured (fun _ _ => trivial) (fun s start => ?_) (fun c call _ _ _ _ => does_call)
      (fun _ _ _ _ _ _ => trivial) (fun s e t _ inv _ moved => event_step reads inv moved) (reach_watched reach)
    cases start
    exact {
      fresh := fun _ _ found => by cases found
      unowned := fun _ _ => rfl
      fits := fun _ _ found => by cases found
      drawn := fun _ listed => by cases listed
      granted := fun _ listed => by cases listed
      pending := fun _ _ found => by cases found
      sent := fun _ listed => by cases listed
      asked := fun _ answered => absurd rfl answered
      answered := fun _ _ found => by cases found
      unfailed := fun _ => rfl
      drops := fun _ listed => by cases listed }
  exact secured.inv.drops

instance (c : Conf Net Call Op Ans) : DecidablePred (Watched (γ := Event) minds c) :=
  have (s : Net) (i : Nat) (call : Call) (o : Op) (c : Choice) : Decidable (minds s i call o c) :=
    instDecidableEqBool (permits call c o) true
  inferInstance

open Sample in
theorem receipt_recorded : (final false).shared.drops.map (fun d => (d.receipt,d.outcome,d.storeFailed)) =
      [(⟨0,77,5,9⟩,.completed,false)] ∧
    (final false).shared.ledger.requests.rows.map (·.status) = [.completed] ∧ NoneLost (final false).shared := by
  have ran : (machine device).system.run start (labels false) = some (final false) := rfl
  exact ⟨rfl,rfl,receipts_kept (fun _ => rfl) (.run (.start start start_new) (by decide) ran)⟩

end Vnidrop.DeliveryReceipts
