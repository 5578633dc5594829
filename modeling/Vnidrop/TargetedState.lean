import Vnidrop.Values

/-! The durable states of a targeted transfer and the transition table that the
checked store updates consult. -/
namespace Vnidrop.Targeted

inductive TargetedTransferState where
  | preparing
  | offering
  | awaitingApproval
  | approved
  | connecting
  | transferring
  | interrupted
  | completed
  | declined
  | cancelled
  | failed
  | deleted
  deriving DecidableEq, Repr

namespace TargetedTransferState

def asStr : TargetedTransferState → String
  | preparing => "preparing"
  | offering => "offering"
  | awaitingApproval => "awaiting_approval"
  | approved => "approved"
  | connecting => "connecting"
  | transferring => "transferring"
  | interrupted => "interrupted"
  | completed => "completed"
  | declined => "declined"
  | cancelled => "cancelled"
  | failed => "failed"
  | deleted => "deleted"

/-- The `matches!` table of `validate_transition_to`. -/
def allowed : TargetedTransferState → TargetedTransferState → Bool
  | state, deleted => state != deleted
  | preparing, next => next ∈ [offering,cancelled,failed]
  | offering, next => next ∈ [awaitingApproval,cancelled,failed]
  | awaitingApproval, next => next ∈ [approved,declined,cancelled,failed]
  | approved, next => next ∈ [connecting,cancelled,failed]
  | connecting, next => next ∈ [transferring,interrupted,cancelled,failed]
  | transferring, next => next ∈ [completed,interrupted,cancelled,failed]
  | interrupted, next => next ∈ [connecting,cancelled,failed]
  | _, _ => false

/-- Validates a durable state change. -/
def validateTransitionTo (self next : TargetedTransferState) : Except VnidropError Unit :=
  if self.allowed next then .ok ()
  else .error (.invalidTransition (self.asStr ++ " -> " ++ next.asStr))

/-- The states no `WHERE` list of a terminal update selects. -/
def terminal : TargetedTransferState → Bool
  | completed | declined | cancelled | failed | deleted => true
  | _ => false

/-- The sender states before the receiver's decision is recorded. -/
def preapproval : TargetedTransferState → Bool
  | preparing | offering | awaitingApproval => true
  | _ => false

/-- The states an authorised transfer can be resumed from. -/
def resumable : TargetedTransferState → Bool
  | approved | connecting | transferring | interrupted => true
  | _ => false

theorem validate_ok {self next : TargetedTransferState} :
    self.validateTransitionTo next = .ok () ↔ self.allowed next = true := by
  unfold validateTransitionTo
  split <;> simp_all

/-- A settled state leaves the table only for deletion. -/
theorem allowed_of_terminal {self next : TargetedTransferState} (h : self.terminal = true)
    (step : self.allowed next = true) : next = deleted ∧ self ≠ deleted := by
  cases self <;> cases next <;> simp_all [terminal,allowed]

theorem allowed_cancelled (self : TargetedTransferState) :
    self.allowed cancelled = !self.terminal := by
  cases self <;> rfl

theorem allowed_failed (self : TargetedTransferState) :
    self.allowed failed = !self.terminal := by
  cases self <;> rfl

theorem resumable_live {self : TargetedTransferState} (h : self.resumable = true) :
    self.terminal = false := by
  cases self <;> simp_all [resumable,terminal]

theorem preapproval_live {self : TargetedTransferState} (h : self.preapproval = true) :
    self.terminal = false := by
  cases self <;> simp_all [preapproval,terminal]

end TargetedTransferState

inductive TargetedTransferRole where
  | sender
  | receiver
  deriving DecidableEq, Repr

structure TargetedTransferRow where
  id : TransferId
  protocolTransferId : Nat
  senderEndpointId : EndpointId
  receiverEndpointId : EndpointId
  manifestId : Text
  contentHash : Text
  transferName : Text
  fileCount : Nat
  totalSize : Nat
  verifiedBytes : Nat
  blobTicket : Option Text
  authorizationSecretHandle : Option Handle
  role : TargetedTransferRole
  state : TargetedTransferState
  createdAt : Millis
  updatedAt : Millis
  deriving DecidableEq, Repr

/-- The receiver's durable consent to one offer, `targeted_accepted_offer_intents`. -/
structure AcceptedOfferIntent where
  transferId : TransferId
  senderEndpointId : EndpointId
  receiverEndpointId : EndpointId
  manifestId : Text
  contentHash : Text
  transferName : Text
  fileCount : Nat
  totalSize : Nat
  protocolVersion : Nat
  acceptedAt : Millis
  deriving DecidableEq, Repr

/-- An offer as the inbox shows it to the local user. -/
structure PendingTargetedOffer where
  transferId : TransferId
  senderEndpointId : EndpointId
  receiverEndpointId : EndpointId
  manifestId : Text
  contentHash : Text
  transferName : Text
  fileCount : Nat
  totalSize : Nat
  protocolVersion : Nat
  receivedAt : Millis
  deriving DecidableEq, Repr

/-- The credential an approved sender delivers, once its text has decoded and its
digest over these fields has been verified. -/
structure TargetedAuthorization where
  transferId : TransferId
  protocolTransferId : Nat
  senderEndpointId : EndpointId
  receiverEndpointId : EndpointId
  manifestId : Text
  contentHash : Text
  fileCount : Nat
  totalSize : Nat
  protocolVersion : Nat
  transferName : Text
  blobTicket : Text
  authSecret : Text
  deriving DecidableEq, Repr

end Vnidrop.Targeted
