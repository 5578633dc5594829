import Vnidrop.PairingStore
import Vnidrop.Programs
import Vnidrop.ReceiverRequests

/-! A device as the saved-device domain sees it: its rows, its protected secrets, the deny
records and the locks of the peers, and the operations its calls are made of. -/
namespace Vnidrop.Pairing

open Invitation Programs Tables

structure WireGrant where
  grantId : Text
  secret : Text
  issuerEndpointId : EndpointId
  holderEndpointId : EndpointId
  generation : Nat
  protocolVersion : Nat
  deriving DecidableEq, Repr

structure WireProof where
  grantId : Text
  mac : Text
  challenge : Text
  deriving DecidableEq, Repr

structure PairingRequest where
  sessionId : SessionId
  capability : Text
  protocolVersion : Nat
  generation : Nat
  deriving DecidableEq, Repr

inductive PairingRequestResponse where
  | awaitingConsent (generation : Nat)
  | merged (generation : Nat)
  | alreadySaved
  | rejected
  deriving DecidableEq, Repr

structure PairingConsent where
  accepted : Bool
  grant : Option WireGrant
  challenge : Option Text
  generation : Nat
  protocolVersion : Nat
  deriving DecidableEq, Repr

inductive PairingConsentResponse where
  | completed (grant : WireGrant) (possessionProof : WireProof) (ackChallenge : Text)
  | alreadySaved
  | rejected
  deriving DecidableEq, Repr

structure PairingAck where
  possessionProof : WireProof
  challenge : Text
  generation : Nat
  protocolVersion : Nat
  deriving DecidableEq, Repr

inductive PairingAckResponse where
  | acknowledged
  | alreadySaved
  | rejected
  deriving DecidableEq, Repr

structure RevokeNotice where
  generation : Nat
  issuedGrantId : Option Text
  deriving DecidableEq, Repr

inductive Message where
  | request (m : PairingRequest)
  | consent (m : PairingConsent)
  | ack (m : PairingAck)
  | revoke (m : RevokeNotice)
  deriving DecidableEq, Repr

inductive Reply where
  | request (r : PairingRequestResponse)
  | consent (r : PairingConsentResponse)
  | ack (r : PairingAckResponse)
  | revoke
  deriving DecidableEq, Repr

/-- The receipt of a completed delivery. -/
structure DeliveryReceipt where
  requestId : SessionId
  transferId : TransferId
  token : Text
  deriving DecidableEq, Repr

/-- The configuration and the primitives of a device. Identifiers, secrets and challenges
travel in a canonical encoding, so a text decodes to at most one value, which is named by it. -/
structure Local where
  endpointId : EndpointId
  relationshipProtocolVersion : Nat
  maxSavedDevices : Nat
  hasCustody : Bool
  decodesGrantId : Text → Bool
  decodesSecret : Text → Bool
  decodesChallenge : Text → Bool
  decodesMac : Text → Bool
  relationshipMac : Text → Text → EndpointId → EndpointId → Nat → Nat → Text
  deriveCapability : Text → EndpointId → EndpointId → SessionId → Nat → Text
  receiptTokenHash : Text → Text

structure Device where
  relationships : Relationships
  tombstones : EndpointId → List Int
  eligibilities : Eligibilities
  requests : ReceiverRequests
  custody : Handle → Option Text
  blocked : EndpointId → Bool
  locks : EndpointId → Option Nat
  /-- The random values drawn so far. -/
  drawn : List Nat

inductive Op where
  | findRow (peer : EndpointId)
  | writeRow (peer : EndpointId) (w : RelationshipWrite)
  | countActiveSlots
  | generationFloor (peer : EndpointId)
  | insertTombstone (peer : EndpointId) (row : RelationshipRow)
  | findTombstone (peer : EndpointId) (generation : Nat)
  | listExpiredPendingPeers (cutoff : Millis)
  | eligibilitiesFor (peer : EndpointId)
  | expiredEligibilities (now : Millis)
  | findBySession (sessionId : SessionId)
  | insertEligibility (r : PairingEligibilityRecord)
  | deleteEligibility (sessionId : SessionId)
  | completeReceiverDelivery (receipt : DeliveryReceipt) (remote : EndpointId)
  | protect (material : Text)
  | load (handle : Handle)
  | remove (handle : Handle)
  | isBlocked (peer : EndpointId)
  | blockEndpoint (peer : EndpointId)
  | unblockEndpoint (peer : EndpointId)
  | lockPeer (peer : EndpointId)
  | unlockPeer (peer : EndpointId)
  | generate
  | nowMs
  | cancelTargetedTransfers (peer : EndpointId)
  | peerAddr (peer : EndpointId)
  | send (peer : EndpointId) (message : Message)
  | awaitRequest (peer : EndpointId)
  | awaitConsent (peer : EndpointId)
  | awaitAck (peer : EndpointId)
  | answer (peer : EndpointId) (reply : Reply)
  /-- A local call returns, with a success or an error. -/
  | returned (success : Bool)
  /-- `verify_issued_possession` returns, with a success or an error. -/
  | verification (peer : EndpointId) (challenge : Text) (generation : Nat) (success : Bool)
  /-- `take_eligibility` hands a session out. -/
  | taken (sessionId : SessionId)
  deriving DecidableEq

abbrev Ans : Op → Type
  | .findRow _ => Except VnidropError (Option RelationshipRow)
  | .writeRow .. => Except VnidropError Bool
  | .countActiveSlots | .generationFloor _ => Except VnidropError Nat
  | .insertTombstone .. => Except VnidropError Unit
  | .findTombstone .. => Except VnidropError Bool
  | .listExpiredPendingPeers _ => Except VnidropError (List EndpointId)
  | .eligibilitiesFor _ | .expiredEligibilities _ =>
    Except VnidropError (List PairingEligibilityRecord)
  | .findBySession _ => Except VnidropError (Option PairingEligibilityRecord)
  | .insertEligibility _ | .deleteEligibility _ => Except VnidropError Unit
  | .completeReceiverDelivery .. => Except VnidropError (Option String)
  | .protect _ => Except VnidropError Handle
  | .load _ => Except VnidropError Text
  | .isBlocked _ => Bool
  | .blockEndpoint _ | .unblockEndpoint _ => Except VnidropError Unit
  | .generate => Nat
  | .nowMs => Millis
  | .cancelTargetedTransfers _ | .peerAddr _ => Except VnidropError Unit
  | .awaitRequest _ => Option PairingRequestResponse
  | .awaitConsent _ => Option PairingConsentResponse
  | .awaitAck _ => Option PairingAckResponse
  | _ => Unit

/-- The surroundings at a step: the clock, a failure, a random value, and what arrives from
the peer, if anything does in time. -/
structure Choice where
  now : Millis
  fails : Bool
  random : Nat
  requestResponse : Option PairingRequestResponse
  consentResponse : Option PairingConsentResponse
  ackResponse : Option PairingAckResponse
  deriving DecidableEq

abbrev Task (α : Type) := Prog Op Ans α

namespace Device

/-- Nothing stored and nothing locked. -/
def new : Device where
  relationships := .empty
  tombstones _ := []
  eligibilities := .empty
  requests := .empty
  custody _ := none
  blocked _ := false
  locks _ := none
  drawn := []

def unavailable : VnidropError := .repository "database is unavailable"

/-- An answer of the database. -/
def read {α : Type} (s : Device) (c : Choice) (a : α) : Option (Except VnidropError α × Device) :=
  some (if c.fails then .error unavailable else .ok a,s)

/-- A statement that changes the state, unless it fails. -/
def attempt {α : Type} (s : Device) (c : Choice) (a : α) (t : Device) :
    Option (Except VnidropError α × Device) :=
  if c.fails then some (.error unavailable,s) else some (.ok a,t)

/-- `MAX(generation)` of the row of the peer and its tombstones. -/
def generationFloor (s : Device) (peer : EndpointId) : Nat :=
  asU64 ((((s.relationships.find peer).map (·.generation)).toList ++ s.tombstones peer).max?.getD 0)

def setSecret (s : Device) (handle : Handle) (material : Option Text) : Device :=
  { s with custody := Function.update s.custody handle material }

def setBlocked (s : Device) (peer : EndpointId) (blocked : Bool) : Device :=
  { s with blocked := Function.update s.blocked peer blocked }

def setLock (s : Device) (peer : EndpointId) (holder : Option Nat) : Device :=
  { s with locks := Function.update s.locks peer holder }

def insertTombstone (s : Device) (peer : EndpointId) (generation : Nat) : Device :=
  { s with
    tombstones := Function.update s.tombstones peer ((s.tombstones peer).insert (asI64 generation)) }

/-- One operation of call `i` under a choice; `none` when it cannot be taken that way. -/
def exec (l : Local) (s : Device) (i : Nat) (c : Choice) : (op : Op) → Option (Ans op × Device)
  | .findRow peer => s.read c ((s.relationships.find peer).map (·.row))
  | .writeRow peer w =>
    let (changed,relationships) := s.relationships.write peer c.now w
    s.attempt c changed { s with relationships }
  | .countActiveSlots => s.read c s.relationships.activeSlots
  | .generationFloor peer => s.read c (s.generationFloor peer)
  | .insertTombstone peer row => s.attempt c () (s.insertTombstone peer row.generation)
  | .findTombstone peer generation => s.read c (asI64 generation ∈ s.tombstones peer)
  | .listExpiredPendingPeers cutoff =>
    s.read c ((s.relationships.rows.filter fun r => r.state.pending && r.updatedAt < cutoff).map
      (·.remoteEndpointId))
  | .eligibilitiesFor peer => s.read c (s.eligibilities.rows.filter fun r => r.peerEndpointId = peer)
  | .expiredEligibilities now => s.read c (s.eligibilities.rows.filter fun r => r.expiresAt ≤ now)
  | .findBySession sessionId => s.read c (s.eligibilities.find sessionId)
  | .insertEligibility r =>
    match s.eligibilities.insert r with
    | some eligibilities => s.attempt c () { s with eligibilities }
    | none => some (.error (.repository "insert pairing eligibility"),s)
  | .deleteEligibility sessionId =>
    s.attempt c () { s with eligibilities := s.eligibilities.delete sessionId }
  | .completeReceiverDelivery receipt remote =>
    match s.requests.completeReceiverDelivery receipt.requestId receipt.transferId remote
        (l.receiptTokenHash receipt.token) with
    | .ok (name,requests) => s.attempt c name { s with requests }
    | .error e => some (.error e,s)
  | .protect material =>
    -- a handle is a fresh random name
    if c.random ∈ s.drawn then none
    else s.attempt c c.random
      { s.setSecret c.random (some material) with drawn := c.random :: s.drawn }
  | .load handle =>
    match s.custody handle with
    | some material => s.read c material
    | none => some (.error (.secureStorageMissing "protected secret metadata is missing"),s)
  | .remove handle => some ((),if c.fails then s else s.setSecret handle none)
  -- `is_blocked(..).unwrap_or(true)`
  | .isBlocked peer => some (c.fails || s.blocked peer,s)
  | .blockEndpoint peer => s.attempt c () (s.setBlocked peer true)
  | .unblockEndpoint peer => s.attempt c () (s.setBlocked peer false)
  | .lockPeer peer => if s.locks peer = none then some ((),s.setLock peer (some i)) else none
  | .unlockPeer peer => some ((),s.setLock peer none)
  | .generate =>
    if c.random ∈ s.drawn then none else some (c.random,{ s with drawn := c.random :: s.drawn })
  | .nowMs => some (c.now,s)
  | .cancelTargetedTransfers _ => s.read c ()
  | .peerAddr _ =>
    some (if c.fails then .error (.invalidInput "unusable peer endpoint id") else .ok (),s)
  | .send .. => some ((),s)
  | .awaitRequest _ => some (c.requestResponse,s)
  | .awaitConsent _ => some (c.consentResponse,s)
  | .awaitAck _ => some (c.ackResponse,s)
  | .answer .. => some ((),s)
  | .returned _ => some ((),s)
  | .verification .. => some ((),s)
  | .taken _ => some ((),s)

end Device

end Vnidrop.Pairing
