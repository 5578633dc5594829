import Vnidrop.Tables
import Vnidrop.TargetedState

/-! The five targeted-transfer tables and the statements that write them. A
function is one statement or one transaction on the single store connection, so
it is atomic; an error stands for a rollback and leaves the store as it was. -/
namespace Vnidrop.Targeted

open Tables TargetedTransferState

structure OutboxEntry where
  transferId : TransferId
  createdAt : Millis
  nextAttemptAt : Millis
  deriving DecidableEq, Repr

structure ReleaseEntry where
  transferId : TransferId
  createdAt : Millis
  deriving DecidableEq, Repr

structure Store where
  transfers : Table TargetedTransferRow.id
  intents : Table AcceptedOfferIntent.transferId
  authorizationDelivery : Table OutboxEntry.transferId
  completion : Table OutboxEntry.transferId
  payloadRelease : Table ReleaseEntry.transferId
  deriving DecidableEq

namespace Store

def empty : Store := ⟨.empty,.empty,.empty,.empty,.empty⟩

def getRow (s : Store) (id : TransferId) : Option TargetedTransferRow := s.transfers.find id

/-- Whether the row belongs to a transfer with this peer. -/
def withPeer (peer : EndpointId) (r : TargetedTransferRow) : Bool :=
  r.senderEndpointId = peer || r.receiverEndpointId = peer

/-- The columns an accepted offer must agree on with an intent that is already stored. -/
def sameOffer (i j : AcceptedOfferIntent) : Bool :=
  i.senderEndpointId = j.senderEndpointId && i.receiverEndpointId = j.receiverEndpointId &&
  i.manifestId = j.manifestId && i.contentHash = j.contentHash &&
  i.transferName = j.transferName && i.fileCount = j.fileCount &&
  i.totalSize = j.totalSize && i.protocolVersion = j.protocolVersion

def intentOf (offer : PendingTargetedOffer) (now : Millis) : AcceptedOfferIntent where
  transferId := offer.transferId
  senderEndpointId := offer.senderEndpointId
  receiverEndpointId := offer.receiverEndpointId
  manifestId := offer.manifestId
  contentHash := offer.contentHash
  transferName := offer.transferName
  fileCount := offer.fileCount
  totalSize := offer.totalSize
  protocolVersion := offer.protocolVersion
  acceptedAt := now

def persistAcceptedOfferIntent (s : Store) (offer : PendingTargetedOffer) (now : Millis) :
    Except VnidropError Store :=
  let new := intentOf offer now
  match s.intents.insert new with
  | some intents => .ok { s with intents }
  | none =>
    -- ON CONFLICT … DO UPDATE SET accepted_at, only where every column agrees
    let same := fun i : AcceptedOfferIntent => i.transferId = offer.transferId && sameOffer i new
    if s.intents.affects same then
      .ok { s with intents := s.intents.updateWhere same fun i => { i with acceptedAt := now } }
    else .error (.invalidInput "accepted targeted offer conflicts with durable consent")

def clearAcceptedOfferIntent (s : Store) (id : TransferId) : Store :=
  { s with intents := s.intents.delete id }

def clearAcceptedIntentIfSender (s : Store) (id : TransferId) (sender : EndpointId) : Store :=
  { s with intents := s.intents.deleteWhere fun i => i.transferId = id && i.senderEndpointId = sender }

/-- `DELETE FROM targeted_transfers`, with the outbox entries that reference the rows. -/
def deleteTransfersWhere (s : Store) (p : TargetedTransferRow → Bool) : Store :=
  let gone := fun id => s.transfers.affects fun r => r.id = id && p r
  { s with
    transfers := s.transfers.deleteWhere p
    authorizationDelivery := s.authorizationDelivery.deleteWhere fun e => gone e.transferId
    completion := s.completion.deleteWhere fun e => gone e.transferId
    payloadRelease := s.payloadRelease.deleteWhere fun e => gone e.transferId }

def abandonSenderPreapproval (s : Store) (id : TransferId) : Bool × Store :=
  let p := fun r : TargetedTransferRow => r.id = id && (r.role = .sender && r.state.preapproval)
  (s.transfers.affects p,s.deleteTransfersWhere p)

/-- Both the identifier and the protocol identifier are unique. -/
def insert (s : Store) (transfer : TargetedTransferRow) : Except VnidropError Store :=
  if s.transfers.affects fun r => r.protocolTransferId = transfer.protocolTransferId then
    .error (.repository "UNIQUE constraint failed: targeted_transfers.protocol_transfer_id")
  else match s.transfers.insert transfer with
    | some transfers => .ok { s with transfers }
    | none => .error (.repository "UNIQUE constraint failed: targeted_transfers.id")

def invalidTransition (src dst : TargetedTransferState) : VnidropError :=
  .invalidTransition (src.asStr ++ " -> " ++ dst.asStr)

/-- `UPDATE … SET state = ?2, updated_at = ?3 WHERE id = ?1 AND state = ?4`. -/
def updateState (s : Store) (id : TransferId) (src dst : TargetedTransferState) (now : Millis) :
    Except VnidropError Store :=
  let p := fun r : TargetedTransferRow => r.id = id && decide (r.state = src)
  if s.transfers.affects p then
    .ok { s with transfers := s.transfers.updateWhere p fun r =>
      { r with state := dst, updatedAt := now } }
  else .error (invalidTransition src dst)

def setState (s : Store) (id : TransferId) (src dst : TargetedTransferState) (now : Millis) :
    Except VnidropError Store := do
  src.validateTransitionTo dst
  s.updateState id src dst now

/-- What `set_state_from_any` does with the row it has read; `none` when nothing is left to do. -/
def setStateFromAnyRead (row : Option TargetedTransferRow) (dst : TargetedTransferState) :
    Except VnidropError (Option TargetedTransferState) :=
  match row with
  | none => .error (.invalidInput "unknown targeted transfer")
  | some row =>
    if row.state = dst then .ok none
    else do
      row.state.validateTransitionTo dst
      return some row.state

def markSenderCompleted (s : Store) (id : TransferId) (now : Millis) :
    Except VnidropError (Bool × Store) :=
  let p := fun r : TargetedTransferRow => r.id = id && (r.role = .sender && r.state.resumable)
  if s.transfers.affects p then
    .ok (true,{ s with
      transfers := s.transfers.updateWhere p fun r =>
        { r with state := .completed, verifiedBytes := r.totalSize, updatedAt := now }
      authorizationDelivery := s.authorizationDelivery.delete id
      payloadRelease := s.payloadRelease.insertOrIgnore ⟨id,now⟩ })
  else if s.transfers.affects fun r => r.id = id && (r.role = .sender && r.state = .completed) then
    .ok (false,{ s with authorizationDelivery := s.authorizationDelivery.delete id })
  else .error (.invalidTransition "sender transfer cannot be completed")

/-- `INSERT OR REPLACE`. -/
def replaceEntry (t : Table OutboxEntry.transferId) (e : OutboxEntry) : Table OutboxEntry.transferId :=
  (t.delete e.transferId).insertOrIgnore e

def finalizeSenderAuthorizationAndEnqueue (s : Store) (id : TransferId) (blobTicket : Text)
    (handle : Handle) (now : Millis) : Except VnidropError Store :=
  let p := fun r : TargetedTransferRow =>
    r.id = id && (r.role = .sender && r.state = .awaitingApproval)
  if s.transfers.affects p then
    .ok { s with
      transfers := s.transfers.updateWhere p fun r => { r with
        state := .approved, blobTicket := some blobTicket
        authorizationSecretHandle := some handle, updatedAt := now }
      authorizationDelivery := replaceEntry s.authorizationDelivery ⟨id,now,now⟩ }
  else .error (.invalidTransition "sender transfer cannot be approved")

/-- The columns durable consent must agree on with an authorization. -/
def consents (auth : TargetedAuthorization) (i : AcceptedOfferIntent) : Bool :=
  i.senderEndpointId = auth.senderEndpointId && i.receiverEndpointId = auth.receiverEndpointId &&
  i.manifestId = auth.manifestId && i.contentHash = auth.contentHash &&
  i.transferName = auth.transferName && i.fileCount = auth.fileCount &&
  i.totalSize = auth.totalSize && i.protocolVersion = auth.protocolVersion

def receiverRow (auth : TargetedAuthorization) (handle : Handle) (now : Millis) :
    TargetedTransferRow where
  id := auth.transferId
  protocolTransferId := auth.protocolTransferId
  senderEndpointId := auth.senderEndpointId
  receiverEndpointId := auth.receiverEndpointId
  manifestId := auth.manifestId
  contentHash := auth.contentHash
  transferName := auth.transferName
  fileCount := auth.fileCount
  totalSize := auth.totalSize
  verifiedBytes := 0
  blobTicket := some auth.blobTicket
  authorizationSecretHandle := some handle
  role := .receiver
  state := .approved
  createdAt := now
  updatedAt := now

def persistReceiverAuthorizationAndConsumeIntent (s : Store) (auth : TargetedAuthorization)
    (handle : Handle) (now : Millis) : Except VnidropError Store :=
  if s.intents.affects fun i => i.transferId = auth.transferId && consents auth i then do
    let s ← s.insert (receiverRow auth handle now)
    return { s with intents := s.intents.delete auth.transferId }
  else .error (.permission "authorization does not match durable receiver consent")

def failResumableAndClearDelivery (s : Store) (id : TransferId) (now : Millis) : Bool × Store :=
  let p := fun r : TargetedTransferRow => r.id = id && r.state.resumable
  if s.transfers.affects p then
    (true,{ s with
      transfers := s.transfers.updateWhere p fun r => { r with state := .failed, updatedAt := now }
      authorizationDelivery := s.authorizationDelivery.delete id })
  else (false,s)

def cancelByPeer (s : Store) (peer : EndpointId) (now : Millis) : Store :=
  { s with
    intents := s.intents.deleteWhere fun i =>
      i.senderEndpointId = peer || i.receiverEndpointId = peer
    authorizationDelivery := s.authorizationDelivery.deleteWhere fun e =>
      s.transfers.affects fun r => r.id = e.transferId && withPeer peer r
    transfers := s.transfers.updateWhere (fun r => withPeer peer r && !r.state.terminal) fun r =>
      { r with state := .cancelled, blobTicket := none, authorizationSecretHandle := none
               updatedAt := now } }

def markInterruptedInFlight (s : Store) (now : Millis) : Store :=
  { s with
    transfers := s.transfers.updateWhere (fun r => r.state = .connecting || r.state = .transferring)
      fun r => { r with state := .interrupted, updatedAt := now } }

/-- The rows `fail_sender_preapproval_on_restart` selects, and then updates. -/
def senderPreapproval (r : TargetedTransferRow) : Bool := r.role = .sender && r.state.preapproval

def failSenderPreapproval (s : Store) (now : Millis) : Store :=
  { s with transfers := s.transfers.updateWhere senderPreapproval fun r =>
      { r with state := .failed, updatedAt := now } }

def completeReceiverAndEnqueue (s : Store) (id : TransferId) (verifiedBytes : Nat) (now : Millis) :
    Except VnidropError Store :=
  let p := fun r : TargetedTransferRow =>
    r.id = id && (r.role = .receiver && r.state = .transferring)
  if s.transfers.affects p then
    .ok { s with
      transfers := s.transfers.updateWhere p fun r =>
        { r with state := .completed, verifiedBytes, updatedAt := now }
      completion := s.completion.insertOrIgnore ⟨id,now,now⟩ }
  else .error (.invalidTransition "receiver transfer cannot be completed")

def advanceVerifiedBytes (s : Store) (id : TransferId) (verifiedBytes : Nat) (now : Millis) :
    Bool × Store :=
  let p := fun r : TargetedTransferRow => r.id = id &&
    (r.role = .receiver && r.state = .transferring && decide (r.verifiedBytes < verifiedBytes))
  (s.transfers.affects p,{ s with transfers := s.transfers.updateWhere p fun r =>
    { r with verifiedBytes := min r.totalSize (max r.verifiedBytes verifiedBytes), updatedAt := now } })

def clearPendingAuthorizationDelivery (s : Store) (id : TransferId) : Store :=
  { s with authorizationDelivery := s.authorizationDelivery.delete id }

def deferPendingAuthorizationDelivery (s : Store) (id : TransferId) (next : Millis) : Store :=
  { s with
    authorizationDelivery := s.authorizationDelivery.updateWhere (fun e => e.transferId = id)
      fun e => { e with nextAttemptAt := next } }

def clearPendingCompletion (s : Store) (id : TransferId) : Store :=
  { s with completion := s.completion.delete id }

def deferPendingCompletion (s : Store) (id : TransferId) (next : Millis) : Store :=
  { s with
    completion := s.completion.updateWhere (fun e => e.transferId = id)
      fun e => { e with nextAttemptAt := next } }

def clearPendingPayloadRelease (s : Store) (id : TransferId) : Store :=
  { s with payloadRelease := s.payloadRelease.delete id }

def clearAuthorization (s : Store) (id : TransferId) : Store :=
  { s with
    authorizationDelivery := s.authorizationDelivery.delete id
    completion := s.completion.delete id
    payloadRelease := s.payloadRelease.delete id
    transfers := s.transfers.updateWhere (fun r => r.id = id) fun r =>
      { r with blobTicket := none, authorizationSecretHandle := none } }

/-- The `WHERE` clause of the terminal update. -/
def leavesFor (dst state : TargetedTransferState) : Bool :=
  state != dst && ((dst == .deleted && state != .deleted) || (dst == .cancelled && !state.terminal))

/-- The deletes of `transition_terminal`, which precede its update. -/
def clearForTerminal (s : Store) (id : TransferId) (clearAuthorization : Bool) : Store :=
  let s := { s with intents := s.intents.delete id
                    authorizationDelivery := s.authorizationDelivery.delete id }
  if clearAuthorization then
    { s with completion := s.completion.delete id, payloadRelease := s.payloadRelease.delete id }
  else s

def transitionTerminal (s : Store) (id : TransferId) (state : TargetedTransferState)
    (clearAuthorization : Bool) (now : Millis) : Except VnidropError (Bool × Store) :=
  if state = .cancelled ∨ state = .deleted then
    let p := fun r : TargetedTransferRow => r.id = id && leavesFor state r.state
    let cleared := s.clearForTerminal id clearAuthorization
    .ok (s.transfers.affects p,{ cleared with
      transfers := cleared.transfers.updateWhere p fun r => { r with
        state := state
        blobTicket := if clearAuthorization then none else r.blobTicket
        authorizationSecretHandle := if clearAuthorization then none else r.authorizationSecretHandle
        updatedAt := now } })
  else .error (.invalidInput "terminal transition requires cancelled or deleted")

/-- The targeted part of `reset_identity_bound_state`. -/
def resetIdentityBoundState (s : Store) (now : Millis) : Store where
  intents := .empty
  authorizationDelivery := .empty
  completion := .empty
  payloadRelease := .empty
  transfers := s.transfers.updateWhere (fun _ => true) fun r => { r with
    state := if r.state.terminal then r.state else .cancelled
    blobTicket := none
    authorizationSecretHandle := none
    updatedAt := if !r.state.terminal || r.blobTicket.isSome || r.authorizationSecretHandle.isSome
      then now else r.updatedAt }

end Store

end Vnidrop.Targeted
