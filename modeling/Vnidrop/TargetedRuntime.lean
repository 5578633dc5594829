import Vnidrop.TargetedCalls

/-! The runtime around the targeted domain: relationships end here by forgetting, blocking
or a notice of the peer, and the provider access of stored transfers is restored here when
the process starts. -/
namespace Vnidrop.Targeted

open Programs TargetedTransferState

/-- A device with the deny list and, of the relationship store, the generation of each row
and the tombstones. -/
structure Runtime where
  device : Device
  blocked : List EndpointId
  relationships : EndpointId → Option Nat
  tombstones : List (EndpointId × Nat)

inductive RuntimeOp where
  | targeted (op : Op)
  | isBlocked (peer : EndpointId)
  | blockEndpoint (peer : EndpointId)
  | unblockEndpoint (peer : EndpointId)
  | findRelationship (peer : EndpointId)
  | findTombstone (peer : EndpointId) (generation : Nat)
  | insertTombstone (peer : EndpointId) (generation : Nat)
  | deleteRelationship (peer : EndpointId)
  | removeEligibility (peer : EndpointId)
  | notifyRevoke (peer : EndpointId) (generation : Nat)
  | acceptedIntentSenders
  | resumableRows
  | authorizationRows
  | resumableSenderRows
  | failResumable (id : TransferId)
  | loadCollection (hash : Text)
  | deleteOtherTags (kept : List TransferId)
  deriving DecidableEq

abbrev RuntimeAns : RuntimeOp → Type
  | .targeted op => Ans op
  | .isBlocked _ => Except VnidropError Bool
  | .findRelationship _ => Except VnidropError (Option Nat)
  | .findTombstone .. => Bool
  | .acceptedIntentSenders => Except VnidropError (List (TransferId × EndpointId))
  | .resumableRows | .authorizationRows | .resumableSenderRows =>
    Except VnidropError (List TargetedTransferRow)
  | .loadCollection _ => Option (List Text)
  | .notifyRevoke .. => Unit
  | _ => Bool

/-- `members` are the file hashes of a collection that is loaded. -/
structure RuntimeChoice extends Choice where
  members : List Text
  deriving DecidableEq

abbrev RuntimeTask (α : Type) := Prog RuntimeOp RuntimeAns α

namespace Runtime

def setDevice (s : Runtime) (device : Device) : Runtime := { s with device }

/-- `list_resumable_rows`, `authorization_rows` and `list_resumable_sender_rows`. -/
def rowsWhere (s : Runtime) (p : TargetedTransferRow → Bool) : List TargetedTransferRow :=
  s.device.store.transfers.rows.filter p

def answerOr {α : Type} (c : RuntimeChoice) (a : α) : Except VnidropError α :=
  if c.fails then .error Device.unavailable else .ok a

/-- A statement that reports only whether it went through. -/
def attempt (s : Runtime) (c : RuntimeChoice) (t : Runtime) : Option (Bool × Runtime) :=
  if c.fails then some (false,s) else some (true,t)

def exec (l : Local) (s : Runtime) (c : RuntimeChoice) :
    (op : RuntimeOp) → Option (RuntimeAns op × Runtime)
  | .targeted op => (s.device.exec l c.toChoice op).map fun (r,d) => (r,s.setDevice d)
  | .isBlocked peer => some (answerOr c (decide (peer ∈ s.blocked)),s)
  | .blockEndpoint peer => s.attempt c { s with blocked := peer :: s.blocked }
  | .unblockEndpoint peer => s.attempt c { s with blocked := s.blocked.filter (· ≠ peer) }
  | .findRelationship peer => some (answerOr c (s.relationships peer),s)
  | .findTombstone peer generation =>
    some (!c.fails && decide ((peer,generation) ∈ s.tombstones),s)
  | .insertTombstone peer generation =>
    s.attempt c { s with tombstones := (peer,generation) :: s.tombstones }
  | .deleteRelationship peer =>
    s.attempt c { s with relationships := Function.update s.relationships peer none }
  | .removeEligibility _ => s.attempt c s
  | .notifyRevoke _ _ => some ((),s)
  | .acceptedIntentSenders => some (answerOr c
      (s.device.store.intents.rows.map fun i => (i.transferId,i.senderEndpointId)),s)
  | .resumableRows => some (answerOr c (s.rowsWhere (·.state.resumable)),s)
  | .authorizationRows => some (answerOr c (s.rowsWhere (·.authorizationSecretHandle.isSome)),s)
  | .resumableSenderRows => some (answerOr c
      (s.rowsWhere fun r => r.role = .sender && r.state.resumable),s)
  | .failResumable id =>
    let (changed,store) := s.device.store.failResumableAndClearDelivery id c.now
    if c.fails then some (false,s) else some (changed,s.setDevice { s.device with store })
  | .loadCollection _ => some (if c.fails then none else some c.members,s)
  | .deleteOtherTags kept => s.attempt c (s.setDevice { s.device with
      tags := fun id => if id ∈ kept then s.device.tags id else none })

end Runtime

/-! Programs of the targeted domain as the runtime runs them. -/

def within {α : Type} (p : Task α) : RuntimeTask α := p.embed .targeted fun _ r => r

/-- A program of the targeted domain acts on the device alone. -/
theorem alone_within {α : Type} {l : Local} {p : Task α} {s t : Runtime} {a : α} :
    Alone (Runtime.exec l) (within p) s a t ↔
      ∃ d, Alone (Device.exec l) p s.device a d ∧ t = s.setDevice d := by
  refine alone_embed (Runtime.exec l) RuntimeOp.targeted (fun _ r => r) Runtime.device
    Runtime.setDevice (fun _ _ _ => rfl) (fun _ => rfl) (fun _ _ => rfl) (fun x op r y => ?_)
    (fun _ r => ⟨r,rfl⟩)
  constructor
  · rintro ⟨c,ran⟩
    obtain ⟨⟨r',d⟩,performed,same⟩ := Option.map_eq_some_iff.mp ran
    cases same
    exact ⟨c.toChoice,d,performed,rfl⟩
  · rintro ⟨c,d,performed,rfl⟩
    exact ⟨⟨c,[]⟩,Option.map_eq_some_iff.mpr ⟨(r,d),performed,rfl⟩⟩

theorem within_bind {α β : Type} (p : Task α) (f : α → Task β) :
    within (p >>= f) = within p >>= fun a => within (f a) := Prog.embed_bind p f

theorem all_within {α : Type} {allowed : RuntimeOp → Prop} {p : Task α}
    (all : p.All fun o => allowed (.targeted o)) : (within p).All allowed := Prog.all_embed all

def perform (o : RuntimeOp) : RuntimeTask (RuntimeAns o) := Prog.perform o

/-- The cleanups of `terminate_peer`, up to the first that fails. -/
def cleanupAll : List TargetedTransferRow → Task Bool
  | [] => return true
  | row :: rows => do
    if ← cleanup row then cleanupAll rows else return false

/-- `cancel_targeted_transfers_for_peer`, which is `terminate_peer` with its result. -/
def cancelTargetedTransfersForPeer (peer : EndpointId) : Task Bool := do
  let pending ← op (.pendingFrom peer)
  discardEach pending
  match ← op (.idsForPeer peer) with
  | .error _ => return false
  | .ok ids =>
    match ← rowsOf ids with
    | .error _ => return false
    | .ok rows =>
      match ← write (.cancelByPeer peer) with
      | .error _ => return false
      | .ok _ => cleanupAll rows

/-! The ways a relationship ends on this device; `false` is an error. -/

/-- `tombstone_generation` and `delete_relationship` under the lock of the peer. -/
def endRelationship (peer : EndpointId) : Option Nat → RuntimeTask Bool
  | none => return true
  | some generation => do
    if ← perform (.insertTombstone peer generation) then perform (.deleteRelationship peer)
    else return false

/-- `forget` and `revoke_for_block` do the same to the relationship of the peer; the
result is the generation that has ended. -/
def revokeRelationship (peer : EndpointId) : RuntimeTask (Option (Option Nat)) := do
  match ← perform (.findRelationship peer) with
  | .error _ => return none
  | .ok row =>
    if ← endRelationship peer row then
      if ← perform (.removeEligibility peer) then return some row else return none
    else return none

def notifyRemoteRevoke (peer : EndpointId) : Option Nat → RuntimeTask Unit
  | none => return ()
  | some generation => perform (.notifyRevoke peer generation)

def forgetSavedDevice (peer : EndpointId) : RuntimeTask Bool := do
  match ← revokeRelationship peer with
  | none => return false
  | some generation =>
    if ← within (cancelTargetedTransfersForPeer peer) then do
      notifyRemoteRevoke peer generation
      return true
    else return false

def blockDevice (peer : EndpointId) : RuntimeTask Bool := do
  if ← perform (.blockEndpoint peer) then forgetSavedDevice peer else return false

/-- A notice about a generation that is not the row's, and already ended, changes nothing. -/
def staleNotice (peer : EndpointId) (generation current : Nat) : RuntimeTask Bool := do
  if current ≠ generation ∧ generation ≠ 0 then perform (.findTombstone peer generation)
  else return false

/-- `handle_remote_revoke`. -/
def handleRemoteRevoke (peer : EndpointId) (generation : Nat) : RuntimeTask Bool := do
  match ← perform (.findRelationship peer) with
  | .ok (some current) =>
    if ← staleNotice peer generation current then return true
    else do
      let _ ← perform (.insertTombstone peer current)
      let _ ← perform (.deleteRelationship peer)
      let _ ← perform (.removeEligibility peer)
      return true
  | _ => return true

/-! Restoring access. -/

def clearUnsavedIntents : List (TransferId × EndpointId) → RuntimeTask Bool
  | [] => return true
  | (id,sender) :: rest => do
    if ← within (op (.ask .relationshipSaved)) then clearUnsavedIntents rest
    else
      match ← within (write (.clearAcceptedIntentIfSender id sender)) with
      | .ok _ => clearUnsavedIntents rest
      | .error _ => return false

/-- Whether the peer is blocked, or no longer saved; `none` when the deny list fails. -/
def revokedPeer (peer : EndpointId) : RuntimeTask (Option Bool) := do
  match ← perform (.isBlocked peer) with
  | .error _ => return none
  | .ok true => return some true
  | .ok false => do
    let saved ← within (op (.ask .relationshipSaved))
    return some (!saved)

def cancelRevokedPeers : List EndpointId → List TargetedTransferRow → RuntimeTask Bool
  | _, [] => return true
  | revoked, row :: rows => do
    match ← revokedPeer (peerOf row) with
    | none => return false
    | some true =>
      if peerOf row ∈ revoked then cancelRevokedPeers revoked rows
      else if ← within (cancelTargetedTransfersForPeer (peerOf row)) then
        cancelRevokedPeers (peerOf row :: revoked) rows
      else return false
    | some false => cancelRevokedPeers revoked rows

/-- Whether the secret of a row with a handle is still owed to the transfer. -/
def revokedAuthorization (row : TargetedTransferRow) : RuntimeTask (Option Bool) := do
  match ← perform (.isBlocked (peerOf row)) with
  | .error _ => return none
  | .ok blocked =>
    if row.state = .cancelled ∨ row.state = .deleted ∨ row.state = .failed then return some true
    else if row.role = .receiver then
      if blocked then return some true
      else do
        let saved ← within (op (.ask .relationshipSaved))
        return some (!saved)
    else return some false

def releaseRevoked : List TargetedTransferRow → RuntimeTask Bool
  | [] => return true
  | row :: rows => do
    match ← revokedAuthorization row with
    | none => return false
    | some true =>
      if ← within (releaseSecret row) then releaseRevoked rows else return false
    | some false => releaseRevoked rows

/-- The payload of a listed row: its hashes, once its collection is loaded and its tag set. -/
def restorePayload (row : TargetedTransferRow) : RuntimeTask (Option (List Text)) := do
  match ← perform (.loadCollection row.contentHash) with
  | none => return none
  | some members =>
    if ← within (op (.setTag row.id row.contentHash)) then
      return some (row.contentHash :: members)
    else return none

def grantRestored (row : TargetedTransferRow) (hashes : List Text) : Task Unit := do
  op (.registerShareHashes row.protocolTransferId hashes)
  op (.setMode row.protocolTransferId)
  op (.approveEndpoint row.protocolTransferId row.receiverEndpointId)

/-- The rows are those of the listing; none is read again before its access is granted. -/
def restoreEach : List TransferId → List TargetedTransferRow → RuntimeTask (Option (List TransferId))
  | kept, [] => return some kept
  | kept, row :: rows => do
    match ← revokedPeer row.receiverEndpointId with
    | none => return none
    | some true =>
      match ← within (write (.transitionTerminal row.id .cancelled false)) with
      | .error _ => return none
      | .ok _ => do
        within (teardownTargetedPayload row.protocolTransferId row.id)
        restoreEach kept rows
    | some false =>
      match ← restorePayload row with
      | none => do
        let _ ← perform (.failResumable row.id)
        within (teardownTargetedPayload row.protocolTransferId row.id)
        restoreEach kept rows
      | some hashes => do
        within (grantRestored row hashes)
        restoreEach (row.id :: kept) rows

def restoreListed : RuntimeTask Unit := do
  match ← perform .resumableSenderRows with
  | .error _ => return ()
  | .ok rows =>
    match ← restoreEach [] rows with
    | none => return ()
    | some kept => do
      let _ ← perform (.deleteOtherTags kept)
      return ()

def restoreTargetedTransferAccess : RuntimeTask Unit := do
  match ← perform .acceptedIntentSenders with
  | .error _ => return ()
  | .ok intents =>
    if ← clearUnsavedIntents intents then
      match ← perform .resumableRows with
      | .error _ => return ()
      | .ok rows =>
        if ← cancelRevokedPeers [] rows then
          match ← perform .authorizationRows with
          | .error _ => return ()
          | .ok held => if ← releaseRevoked held then restoreListed else return ()
        else return ()
    else return ()

/-! The runtime as a machine. -/

inductive RuntimeCall where
  | targeted (call : Call)
  | restore
  | forget (peer : EndpointId)
  | block (peer : EndpointId)
  | unblock (peer : EndpointId)
  | revoked (peer : EndpointId) (generation : Nat)
  deriving DecidableEq

/-- A call whose result nobody waits for. -/
def dropping {α : Type} (p : RuntimeTask α) : RuntimeTask Unit := do
  let _ ← p
  return ()

def RuntimeCall.body (l : Local) : RuntimeCall → RuntimeTask Unit
  | .targeted call => within (call.body l)
  | .restore => restoreTargetedTransferAccess
  | .forget peer => dropping (forgetSavedDevice peer)
  | .block peer => dropping (blockDevice peer)
  | .unblock peer => dropping (perform (.unblockEndpoint peer))
  | .revoked peer generation => dropping (handleRemoteRevoke peer generation)

def RuntimeCall.admitted (s : Runtime) : RuntimeCall → Bool
  | .targeted call => call.admitted s.device
  | _ => true

def runtime (l : Local) (start : Runtime → Prop) :
    Machine Runtime RuntimeCall RuntimeOp RuntimeAns RuntimeChoice Housekeeping where
  init := start
  admits := RuntimeCall.admitted
  body := RuntimeCall.body l
  exec s _ _ op c := s.exec l c op
  env s e := some (s.setDevice (s.device.housekeep e))

end Vnidrop.Targeted
