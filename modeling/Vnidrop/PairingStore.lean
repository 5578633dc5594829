import Vnidrop.Tables
import Vnidrop.Values

/-! Durable rows of the saved-device domain: relationships, the tombstones of their
revoked generations, and pairing eligibilities. -/
namespace Vnidrop.Pairing

open Tables

abbrev SessionId := Nat

/-! Generations are `u64` in the code and `i64` in the database. -/

/-- `value as i64`. -/
def asI64 (value : Nat) : Int :=
  if value % 18446744073709551616 < 9223372036854775808 then value % 18446744073709551616
  else value % 18446744073709551616 - 18446744073709551616

/-- `value as u64`. -/
def asU64 (value : Int) : Nat := (value % 18446744073709551616).toNat

/-- `i64::try_from(value).is_ok()`. -/
def fitsI64 (value : Nat) : Bool := value < 9223372036854775808

theorem asI64_fits {value : Nat} (h : fitsI64 value = true) : asI64 value = value := by
  have small : value < 9223372036854775808 := of_decide_eq_true h
  unfold asI64
  split <;> omega

theorem asU64_range {value : Int} (positive : 1 ≤ value) (small : value ≤ 9223372036854775807) :
    (asU64 value : Int) = value := by
  unfold asU64
  omega

inductive DeviceRelationshipState where
  | pendingOutgoing
  | pendingIncoming
  | saved
  | revoked
  | blocked
  deriving DecidableEq, Repr

def DeviceRelationshipState.pending : DeviceRelationshipState → Bool
  | .pendingOutgoing | .pendingIncoming => true
  | _ => false

/-- A row of `device_relationships`. -/
structure Relationship where
  remoteEndpointId : EndpointId
  state : DeviceRelationshipState
  generation : Int
  minimumProtocolVersion : Nat
  sessionId : Option SessionId
  remoteDisplayName : Option String
  lastAuthenticatedAt : Option Millis
  issuedGrantHandle : Option Handle
  heldGrantHandle : Option Handle
  issuedGrantId : Option Text
  heldGrantId : Option Text
  peerAck : Bool
  localAck : Bool
  createdAt : Millis
  updatedAt : Millis
  deriving DecidableEq, Repr

/-- What `find_row` reads of a row. -/
structure RelationshipRow where
  state : DeviceRelationshipState
  generation : Nat
  minimumProtocolVersion : Nat
  sessionId : Option SessionId
  issuedGrantHandle : Option Handle
  heldGrantHandle : Option Handle
  issuedGrantId : Option Text
  heldGrantId : Option Text
  createdAt : Millis
  deriving DecidableEq, Repr

def Relationship.row (r : Relationship) : RelationshipRow where
  state := r.state
  generation := asU64 r.generation
  minimumProtocolVersion := r.minimumProtocolVersion
  sessionId := r.sessionId
  issuedGrantHandle := r.issuedGrantHandle
  heldGrantHandle := r.heldGrantHandle
  issuedGrantId := r.issuedGrantId
  heldGrantId := r.heldGrantId
  createdAt := r.createdAt

/-- Every upsert of the source binds no grants and no acks. -/
structure RelationshipUpsert where
  state : DeviceRelationshipState
  generation : Nat
  minimumProtocolVersion : Nat
  sessionId : Option SessionId
  remoteDisplayName : Option String
  lastAuthenticatedAt : Option Millis
  createdAt : Millis
  updatedAt : Millis
  deriving DecidableEq, Repr

def RelationshipUpsert.fresh (e : RelationshipUpsert) (peer : EndpointId) : Relationship where
  remoteEndpointId := peer
  state := e.state
  generation := asI64 e.generation
  minimumProtocolVersion := e.minimumProtocolVersion
  sessionId := e.sessionId
  remoteDisplayName := e.remoteDisplayName
  lastAuthenticatedAt := e.lastAuthenticatedAt
  issuedGrantHandle := none
  heldGrantHandle := none
  issuedGrantId := none
  heldGrantId := none
  peerAck := false
  localAck := false
  createdAt := e.createdAt
  updatedAt := e.updatedAt

/-- Grants and acks belong to a generation: a row that changes it loses them. -/
def Relationship.regenerate (r : Relationship) (generation : Int) : Relationship :=
  if r.generation = generation then r
  else { r with
    generation := generation, issuedGrantHandle := none, heldGrantHandle := none,
    issuedGrantId := none, heldGrantId := none, peerAck := false, localAck := false }

/-- `ON CONFLICT(remote_endpoint_id) DO UPDATE`. -/
def RelationshipUpsert.merge (e : RelationshipUpsert) (r : Relationship) : Relationship :=
  { r.regenerate (asI64 e.generation) with
    state := e.state
    minimumProtocolVersion := e.minimumProtocolVersion
    sessionId := e.sessionId
    remoteDisplayName := e.remoteDisplayName <|> r.remoteDisplayName
    lastAuthenticatedAt := e.lastAuthenticatedAt <|> r.lastAuthenticatedAt
    peerAck := false
    localAck := false
    updatedAt := e.updatedAt }

/-- The statements on the row of one peer. -/
inductive RelationshipWrite where
  | upsert (entry : RelationshipUpsert)
  | setPendingGeneration (sessionId : SessionId) (generation : Nat)
  | setIssuedGrant (handle : Handle) (grantId : Text)
  | setHeldGrant (handle : Handle) (grantId : Text)
  | setAcks (localAck peerAck : Bool)
  | setState (state : DeviceRelationshipState)
  | beginGrantRotation (generation : Nat)
  | refreshAuthenticatedPeer (remoteDisplayName : Option String) (authenticatedAt : Millis)
  | delete
  deriving DecidableEq, Repr

namespace RelationshipWrite

/-- The rows a statement is restricted to, among those of its peer. -/
def selects : RelationshipWrite → Relationship → Bool
  | .setPendingGeneration sessionId _, r => r.sessionId = some sessionId && r.state.pending
  | .refreshAuthenticatedPeer .., r => r.state = .saved
  | _, _ => true

/-- What an `UPDATE` sets. -/
def sets (now : Millis) : RelationshipWrite → Relationship → Relationship
  | .upsert e, r => e.merge r
  | .setPendingGeneration _ generation, r => { r.regenerate (asI64 generation) with updatedAt := now }
  | .setIssuedGrant handle grantId, r =>
    { r with issuedGrantHandle := some handle, issuedGrantId := some grantId, updatedAt := now }
  | .setHeldGrant handle grantId, r =>
    { r with heldGrantHandle := some handle, heldGrantId := some grantId, updatedAt := now }
  | .setAcks localAck peerAck, r => { r with localAck, peerAck, updatedAt := now }
  | .setState state, r => { r with state, updatedAt := now }
  | .beginGrantRotation generation, r =>
    { r with
      generation := asI64 generation, issuedGrantHandle := none, heldGrantHandle := none,
      issuedGrantId := none, heldGrantId := none, updatedAt := now }
  | .refreshAuthenticatedPeer name authenticatedAt, r =>
    { r with
      remoteDisplayName := name <|> r.remoteDisplayName
      lastAuthenticatedAt := some authenticatedAt, updatedAt := authenticatedAt }
  | .delete, r => r

theorem regenerate_key (r : Relationship) (generation : Int) :
    (r.regenerate generation).remoteEndpointId = r.remoteEndpointId := by
  unfold Relationship.regenerate
  split <;> rfl

theorem sets_key (w : RelationshipWrite) (now : Millis) (r : Relationship) :
    (w.sets now r).remoteEndpointId = r.remoteEndpointId := by
  cases w with
  | upsert e => exact regenerate_key r _
  | setPendingGeneration _ generation => exact regenerate_key r _
  | _ => rfl

/-- What becomes of the row of the peer. -/
def onRow (w : RelationshipWrite) (peer : EndpointId) (now : Millis) :
    Option Relationship → Option Relationship
  | none =>
    match w with
    | .upsert e => some (e.fresh peer)
    | _ => none
  | some r => if w = .delete then none else some (if w.selects r then w.sets now r else r)

end RelationshipWrite

abbrev Relationships := Table Relationship.remoteEndpointId

namespace Relationships

/-- One statement, and whether it changed a row. -/
def write (t : Relationships) (peer : EndpointId) (now : Millis) (w : RelationshipWrite) :
    Bool × Relationships :=
  match w with
  | .upsert e => (true,t.upsert (e.fresh peer) e.merge (RelationshipWrite.sets_key (.upsert e) now))
  | .delete => ((t.find peer).isSome,t.delete peer)
  | w =>
    (t.affects fun r => r.remoteEndpointId = peer && w.selects r,
     t.updateWhere (fun r => r.remoteEndpointId = peer && w.selects r) (w.sets now) (w.sets_key now))

theorem find_update (t : Relationships) (peer peer' : EndpointId) (now : Millis) (w : RelationshipWrite)
    (keeps : ∀ r, (w.sets now r).remoteEndpointId = r.remoteEndpointId) :
    (t.updateWhere (fun r => r.remoteEndpointId = peer && w.selects r) (w.sets now) keeps).find peer' =
      if peer' = peer then (t.find peer).map fun r => if w.selects r then w.sets now r else r
      else t.find peer' :=
  t.find_updateKey peer w.selects (w.sets now) keeps peer'

theorem find_write (t : Relationships) (peer peer' : EndpointId) (now : Millis) (w : RelationshipWrite) :
    (t.write peer now w).2.find peer' =
      if peer' = peer then w.onRow peer now (t.find peer) else t.find peer' := by
  cases w with
  | upsert e =>
    refine (t.find_upsert (e.fresh peer) e.merge _ peer').trans ?_
    change (if peer' = peer then _ else _) = _
    split
    · rename_i same
      subst same
      cases t.find peer' <;> rfl
    · rfl
  | delete =>
    refine (t.find_delete peer peer').trans ?_
    split
    · cases t.find peer <;> rfl
    · rfl
  | _ =>
    refine (find_update t peer peer' now _ (RelationshipWrite.sets_key _ now)).trans ?_
    split
    · cases t.find peer <;> rfl
    · rfl

def activeSlots (t : Relationships) : Nat :=
  (t.rows.filter fun r => r.state = .saved || r.state.pending).length

end Relationships

structure PairingEligibilityRecord where
  sessionId : SessionId
  peerEndpointId : EndpointId
  remoteDisplayName : Option String
  protocolVersion : Nat
  secretHandle : Handle
  createdAt : Millis
  expiresAt : Millis
  deriving DecidableEq, Repr

abbrev Eligibilities := Table PairingEligibilityRecord.sessionId

end Vnidrop.Pairing
