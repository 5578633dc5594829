import Vnidrop.PairingDevice

/-! The calls of the saved-device domain, operation by operation: what the local user and
the peer can start on a device. -/
namespace Vnidrop.Pairing

open Programs

def op (o : Op) : Task (Ans o) := Prog.perform o

abbrev Outcome (α : Type) := Except VnidropError α

def fail {α : Type} (e : VnidropError) : Task (Outcome α) := return .error e

def invalid {α : Type} (reason : String) : Task (Outcome α) := fail (.invalidInput reason)

def write (peer : EndpointId) (w : RelationshipWrite) : Task (Outcome Bool) := op (.writeRow peer w)

def pendingTtlMs : Millis := 30 * 60 * 1000

def eligibilityTtlMs : Millis := 24 * 60 * 60 * 1000

/-! Pairing eligibility. -/

/-- `White_Space`. -/
def isWhiteSpace (c : Char) : Bool :=
  [0x20,0x85,0xA0,0x1680,0x2028,0x2029,0x202F,0x205F,0x3000].contains c.toNat ||
    (0x9 ≤ c.toNat && c.toNat ≤ 0xD) || (0x2000 ≤ c.toNat && c.toNat ≤ 0x200A)

def trim (s : String) : String :=
  String.ofList (((s.toList.dropWhile isWhiteSpace).reverse.dropWhile isWhiteSpace).reverse)

/-- Texts are numbered, and the empty one is 0. -/
def isEmpty (t : Text) : Bool := t = 0

structure TakenEligibility where
  sessionId : SessionId
  protocolVersion : Nat
  remoteDisplayName : Option String
  authenticatedAt : Millis
  capability : Text
  deriving DecidableEq, Repr

/-- `delete_entry` and `delete_entry_silent`, which differ in an event. -/
def deleteEntry (l : Local) (entry : PairingEligibilityRecord) : Task (Outcome Unit) := do
  if l.hasCustody then op (.remove entry.secretHandle)
  op (.deleteEligibility entry.sessionId)

def deleteEntries (l : Local) : List PairingEligibilityRecord → Task (Outcome Unit)
  | [] => return .ok ()
  | entry :: entries => (deleteEntry l entry).andThen fun _ => deleteEntries l entries

def expireDue (l : Local) : Task (Outcome Unit) := do
  let now ← op .nowMs
  Prog.andThen (op (.expiredEligibilities now)) (deleteEntries l)

def removeForPeer (l : Local) (peer : EndpointId) : Task (Outcome Unit) :=
  Prog.andThen (op (.eligibilitiesFor peer)) (deleteEntries l)

/-- The secret is there, and only the row is missing. -/
def insertEntry (entry : PairingEligibilityRecord) : Task (Outcome Unit) := do
  match ← op (.insertEligibility entry) with
  | .ok _ => return .ok ()
  | .error e =>
    op (.remove entry.secretHandle)
    return .error e

def activateAfterCompletedTransfer (l : Local) (peer : EndpointId) (remoteDisplayName : Option String)
    (sessionId : SessionId) (approvalToken : Text) : Task (Outcome Unit) :=
  if !l.hasCustody then return .ok ()
  else if isEmpty peer || isEmpty sessionId || isEmpty approvalToken then return .ok ()
  else do
    let name := (remoteDisplayName.map trim).filter (· ≠ "")
    let authenticatedAt ← op .nowMs
    Prog.andThen (write peer (.refreshAuthenticatedPeer name authenticatedAt)) fun saved =>
      if saved then removeForPeer l peer
      else Prog.andThen (op (.findBySession sessionId)) fun found =>
        if found.isSome then return .ok ()
        else
          let protocolVersion := l.relationshipProtocolVersion
          let capability := l.deriveCapability approvalToken (min l.endpointId peer)
            (max l.endpointId peer) sessionId protocolVersion
          Prog.andThen (op (.protect capability)) fun handle =>
            insertEntry ⟨sessionId,peer,name,protocolVersion,handle,authenticatedAt,
              authenticatedAt + eligibilityTtlMs⟩

def takeEntry (l : Local) (entry : PairingEligibilityRecord) : Task (Outcome (Option TakenEligibility)) := do
  let now ← op .nowMs
  if entry.expiresAt ≤ now then (deleteEntry l entry).andThen fun _ => return .ok none
  else if !l.hasCustody then (deleteEntry l entry).andThen fun _ => return .ok none
  else
    match ← op (.load entry.secretHandle) with
    | .error _ => (deleteEntry l entry).andThen fun _ => return .ok none
    | .ok capability =>
      (deleteEntry l entry).andThen fun _ => do
        op (.taken entry.sessionId)
        return .ok (some ⟨entry.sessionId,entry.protocolVersion,entry.remoteDisplayName,
          entry.createdAt,capability⟩)

def takeEligibility (l : Local) (peer : EndpointId) : Task (Outcome (Option TakenEligibility)) :=
  (expireDue l).andThen fun _ =>
    Prog.andThen (op (.eligibilitiesFor peer)) fun entries =>
      match entries with
      | [] => return .ok none
      | entry :: _ => takeEntry l entry

def consumeSession (l : Local) (peer : EndpointId) (sessionId : SessionId) : Task (Outcome Unit) :=
  Prog.andThen (op (.findBySession sessionId)) fun found =>
    match found with
    | none => return .ok ()
    | some entry => if entry.peerEndpointId = peer then deleteEntry l entry else return .ok ()

def validatePresentedCapability (l : Local) (peer : EndpointId) (sessionId : SessionId)
    (capability : Text) : Task (Outcome (Option PairingEligibilityRecord)) :=
  (expireDue l).andThen fun _ =>
    if !l.hasCustody then return .ok none
    else Prog.andThen (op (.findBySession sessionId)) fun found =>
      match found with
      | none => return .ok none
      | some entry => do
        let now ← op .nowMs
        if entry.peerEndpointId ≠ peer || entry.expiresAt ≤ now then return .ok none
        else
          match ← op (.load entry.secretHandle) with
          | .error _ => return .ok none
          | .ok stored => return .ok (if stored = capability then some entry else none)

/-- `complete_delivery`, with a failed activation only logged. -/
def completeDelivery (l : Local) (remote : EndpointId) (receipt : DeliveryReceipt) : Task Unit := do
  match ← op (.completeReceiverDelivery receipt remote) with
  | .ok name =>
    let _ ← activateAfterCompletedTransfer l remote name receipt.requestId receipt.token
    return ()
  | .error _ => return ()

/-! Relationships and their grants. -/

def removeAll : List Handle → Task Unit
  | [] => return ()
  | handle :: handles => do
    op (.remove handle)
    removeAll handles

/-- The grant secrets of a row. -/
def clearGrantSecrets (l : Local) (row : RelationshipRow) : Task Unit :=
  if l.hasCustody then removeAll (row.issuedGrantHandle.toList ++ row.heldGrantHandle.toList)
  else return ()

def deleteRelationship (l : Local) (peer : EndpointId) : Task (Outcome Bool) := do
  match ← op (.findRow peer) with
  | .ok (some row) => clearGrantSecrets l row
  | _ => pure ()
  write peer .delete

def canCreateNewRelationship (l : Local) (peer : EndpointId) : Task (Outcome Bool) :=
  Prog.andThen (op (.findRow peer)) fun row =>
    if row.isSome then return .ok true
    else Prog.andThen (op .countActiveSlots) fun used => return .ok (used < l.maxSavedDevices)

def nextGeneration (peer : EndpointId) : Task (Outcome Nat) :=
  Prog.andThen (op (.generationFloor peer)) fun floor =>
    if floor + 1 < 18446744073709551616 && fitsI64 (floor + 1) then return .ok (floor + 1)
    else invalid "relationship generation exhausted"

def adoptPendingGeneration (peer : EndpointId) (sessionId : SessionId) (generation : Nat) :
    Task (Outcome Unit) :=
  if !fitsI64 generation then
    invalid "pairing response did not match the pending relationship"
  else (write peer (.setPendingGeneration sessionId generation)).andThen fun adopted =>
    if adopted then return .ok ()
    else Prog.andThen (op (.findRow peer)) fun row =>
      if row.any fun r => r.state = .saved && r.generation = generation then return .ok ()
      else invalid "pairing response did not match the pending relationship"

def custodyRequired {α : Type} : Task (Outcome α) :=
  fail (.secureStorageUnavailable "relationship grants require protected custody")

def mintAndStoreIssuedGrant (l : Local) (peer : EndpointId) (generation protocolVersion : Nat) :
    Task (Outcome WireGrant) :=
  if !l.hasCustody then custodyRequired
  else do
    let secret ← op .generate
    let grantId ← op .generate
    Prog.andThen (op (.protect secret)) fun handle =>
      (write peer (.setIssuedGrant handle grantId)).andThen fun _ =>
        return .ok ⟨grantId,secret,l.endpointId,peer,generation,protocolVersion⟩

def storeHeldGrant (l : Local) (peer : EndpointId) (grant : WireGrant) : Task (Outcome Unit) :=
  if grant.holderEndpointId ≠ l.endpointId || grant.issuerEndpointId ≠ peer then
    invalid "relationship grant endpoint binding mismatch"
  else if !l.hasCustody then custodyRequired
  else if !l.decodesGrantId grant.grantId then invalid "invalid grant id encoding"
  else if !l.decodesSecret grant.secret then invalid "invalid grant secret encoding"
  else Prog.andThen (op (.protect grant.secret)) fun handle =>
    (write peer (.setHeldGrant handle grant.grantId)).andThen fun _ => return .ok ()

def proveHeldPossession (l : Local) (peer : EndpointId) (challenge : Text)
    (generation protocolVersion : Nat) : Task (Outcome WireProof) :=
  if !l.hasCustody then custodyRequired
  else Prog.andThen (op (.findRow peer)) fun row =>
    match row with
    | none => invalid "missing relationship for proof"
    | some row =>
      match row.heldGrantHandle, row.heldGrantId with
      | none, _ => invalid "missing held grant for proof"
      | some _, none => invalid "missing held grant id"
      | some handle, some grantId =>
        if !l.decodesGrantId grantId then invalid "invalid grant id encoding"
        else Prog.andThen (op (.load handle)) fun secret =>
          let mac := l.relationshipMac secret challenge peer l.endpointId generation protocolVersion
          return .ok ⟨grantId,mac,challenge⟩

inductive GrantRejection where
  | unknown
  | revoked
  deriving DecidableEq, Repr

def GrantRejection.asStr : GrantRejection → String
  | .unknown => "unknown"
  | .revoked => "revoked"

/-- `none` when the presented generation is the active one and not tombstoned. -/
def rejectReplayedGeneration (peer : EndpointId) (generation : Nat) : Task (Option GrantRejection) := do
  match ← op (.findTombstone peer generation) with
  | .error _ => return some .unknown
  | .ok true => return some .revoked
  | .ok false =>
    match ← op (.findRow peer) with
    | .ok (some row) =>
      if (row.state.pending || row.state = .saved) && row.generation = generation then return none
      else return some .unknown
    | _ => return some .unknown

/-- The comparison of a presented proof with the issued grant that the row names. -/
def compareProof (l : Local) (peer : EndpointId) (challenge : Text) (proof : WireProof)
    (generation protocolVersion : Nat) : Task (Outcome Unit) :=
  if !l.hasCustody then custodyRequired
  else Prog.andThen (op (.findRow peer)) fun row =>
    match row with
    | none => invalid "missing relationship for verify"
    | some row =>
      match row.issuedGrantHandle, row.issuedGrantId with
      | none, _ => invalid "missing issued grant for verify"
      | some _, none => invalid "missing issued grant id"
      | some handle, some expectedId =>
        if proof.grantId ≠ expectedId then invalid "relationship grant id mismatch"
        else Prog.andThen (op (.load handle)) fun secret =>
          if !l.decodesGrantId proof.grantId then invalid "invalid grant id encoding"
          else if !l.decodesMac proof.mac then invalid "invalid proof mac"
          else if proof.mac ≠
              l.relationshipMac secret challenge l.endpointId peer generation protocolVersion then
            invalid "bad relationship grant proof"
          else return .ok ()

def checkPossession (l : Local) (peer : EndpointId) (challenge : Text) (proof : WireProof)
    (generation protocolVersion : Nat) : Task (Outcome Unit) := do
  match ← rejectReplayedGeneration peer generation with
  | some rejection => invalid ("relationship grant " ++ rejection.asStr)
  | none => compareProof l peer challenge proof generation protocolVersion

def verifyIssuedPossession (l : Local) (peer : EndpointId) (challenge : Text) (proof : WireProof)
    (generation protocolVersion : Nat) : Task (Outcome Unit) := do
  match ← checkPossession l peer challenge proof generation protocolVersion with
  | .ok _ =>
    op (.verification peer challenge generation true)
    return .ok ()
  | .error e =>
    op (.verification peer challenge generation false)
    return .error e

def verifySavedPossession (l : Local) (peer : EndpointId) (challenge : Text) (proof : WireProof)
    (generation protocolVersion : Nat) : Task (Outcome Unit) :=
  Prog.andThen (op (.findRow peer)) fun row =>
    match row with
    | none => fail (.permission "no saved relationship with peer")
    | some row =>
      if row.state ≠ .saved then fail (.permission "peer is not a saved device")
      else if row.generation ≠ generation then
        fail (.permission "relationship generation mismatch")
      else if protocolVersion < row.minimumProtocolVersion then
        fail (.protocolIncompatible "relationship protocol downgrade is forbidden")
      else verifyIssuedPossession l peer challenge proof generation protocolVersion

def activateSaved (peer : EndpointId) : Task (Outcome Bool) := write peer (.setState .saved)

/-! The exchange that follows a consent. -/

/-- The answer to a consent, by the side that led the exchange. -/
def finishConsent (l : Local) (peer : EndpointId) (challenge : Text) (generation protocolVersion : Nat) :
    Option PairingConsentResponse → Task (Outcome Bool)
  | none => return .ok true
  | some .rejected => return .ok false
  | some .alreadySaved => (activateSaved peer).andThen fun _ => return .ok true
  | some (.completed peerGrant possessionProof ackChallenge) =>
    (verifyIssuedPossession l peer challenge possessionProof generation protocolVersion).andThen fun _ =>
      (storeHeldGrant l peer peerGrant).andThen fun _ =>
        if !l.decodesChallenge ackChallenge then invalid "invalid challenge encoding"
        else
          (proveHeldPossession l peer ackChallenge peerGrant.generation
            peerGrant.protocolVersion).andThen fun proof => do
              op (.send peer (.ack ⟨proof,ackChallenge,generation,protocolVersion⟩))
              match ← op (.awaitAck peer) with
              | some .acknowledged | some .alreadySaved =>
                (write peer (.setAcks true true)).andThen fun _ =>
                  (activateSaved peer).andThen fun _ => return .ok true
              | _ => return .ok true

/-- Under the lock: the grant to send, if this side leads and nobody has minted it yet. -/
def mintForMerge (l : Local) (peer : EndpointId) (generation protocolVersion : Nat) :
    Task (Outcome (Option (WireGrant × Text))) :=
  Prog.andThen (op (.findRow peer)) fun row =>
    if row.any fun r => r.state = .saved || r.issuedGrantHandle.isSome then return .ok none
    else if peer ≤ l.endpointId then return .ok none
    else (mintAndStoreIssuedGrant l peer generation protocolVersion).andThen fun grant => do
      let challenge ← op .generate
      return .ok (some (grant,challenge))

def completeSimultaneousMerge (l : Local) (peer : EndpointId) (generation protocolVersion : Nat) :
    Task (Outcome Unit) := do
  op (.lockPeer peer)
  let minted ← mintForMerge l peer generation protocolVersion
  op (.unlockPeer peer)
  match minted with
  | .error e => return .error e
  | .ok none => return .ok ()
  | .ok (some (grant,challenge)) =>
    Prog.andThen (op (.peerAddr peer)) fun _ => do
      op (.send peer (.consent ⟨true,some grant,some challenge,generation,protocolVersion⟩))
      let response ← op (.awaitConsent peer)
      (finishConsent l peer challenge generation protocolVersion response).andThen fun _ =>
        return .ok ()

/-! Local calls. -/

/-- What `request_pairing` has decided when it drops the lock. -/
inductive Begun where
  | returns (requested : Bool)
  | merges (generation protocolVersion : Nat)
  | asks (taken : TakenEligibility) (generation : Nat)

def beginPairing (l : Local) (peer : EndpointId) : Task (Outcome Begun) :=
  Prog.andThen (op (.findRow peer)) fun existing =>
    if existing.any fun r => r.state = .saved then return .ok (.returns true)
    else (canCreateNewRelationship l peer).andThen fun room =>
      if !room then return .ok (.returns false)
      else (takeEligibility l peer).andThen fun taken =>
        match taken with
        | none => return .ok (.returns false)
        | some taken =>
          (nextGeneration peer).andThen fun generation => do
            let now ← op .nowMs
            Prog.andThen (op (.findRow peer)) fun existing =>
              -- the peer already prompted us for the same session
              let merging := existing.filter fun r =>
                r.state = .pendingIncoming && r.sessionId = some taken.sessionId
              let entry := ⟨.pendingOutgoing,generation,taken.protocolVersion,some taken.sessionId,
                taken.remoteDisplayName,some taken.authenticatedAt,
                (merging.map (·.createdAt)).getD now,now⟩
              (write peer (.upsert entry)).andThen fun _ =>
                if merging.isSome then return .ok (.merges generation taken.protocolVersion)
                else return .ok (.asks taken generation)

/-- The answer to a pairing request. -/
def finishRequest (l : Local) (peer : EndpointId) (taken : TakenEligibility) :
    Option PairingRequestResponse → Task (Outcome Bool)
  | none => return .ok true
  | some (.awaitingConsent generation) =>
    (adoptPendingGeneration peer taken.sessionId generation).andThen fun _ => return .ok true
  | some (.merged generation) =>
    (adoptPendingGeneration peer taken.sessionId generation).andThen fun _ =>
      (completeSimultaneousMerge l peer generation taken.protocolVersion).andThen fun _ =>
        return .ok true
  | some .alreadySaved => (activateSaved peer).andThen fun _ => return .ok true
  | some .rejected => return .ok true

def requestPairing (l : Local) (peer : EndpointId) : Task (Outcome Bool) := do
  if ← op (.isBlocked peer) then return .ok false
  else
    op (.lockPeer peer)
    let begun ← beginPairing l peer
    op (.unlockPeer peer)
    match begun with
    | .error e => return .error e
    | .ok (.returns requested) => return .ok requested
    | .ok (.merges generation protocolVersion) =>
      (completeSimultaneousMerge l peer generation protocolVersion).andThen fun _ => return .ok true
    | .ok (.asks taken generation) =>
      Prog.andThen (op (.peerAddr peer)) fun _ => do
        op (.send peer (.request ⟨taken.sessionId,taken.capability,taken.protocolVersion,generation⟩))
        let response ← op (.awaitRequest peer)
        finishRequest l peer taken response

/-- A failure to consume the session is ignored. -/
def consumeFor (l : Local) (peer : EndpointId) (sessionId : Option SessionId) : Task Unit :=
  match sessionId with
  | none => return ()
  | some sessionId => do
    let _ ← consumeSession l peer sessionId
    return ()

def declinePairing (l : Local) (peer : EndpointId) (row : RelationshipRow) : Task (Outcome Bool) := do
  consumeFor l peer row.sessionId
  (deleteRelationship l peer).andThen fun _ =>
    Prog.andThen (op (.peerAddr peer)) fun _ => do
      op (.send peer (.consent ⟨false,none,none,row.generation,row.minimumProtocolVersion⟩))
      let _ ← op (.awaitConsent peer)
      return .ok true

def acceptPairing (l : Local) (peer : EndpointId) (row : RelationshipRow) : Task (Outcome Bool) := do
  consumeFor l peer row.sessionId
  (mintAndStoreIssuedGrant l peer row.generation row.minimumProtocolVersion).andThen fun grant => do
    let challenge ← op .generate
    Prog.andThen (op (.peerAddr peer)) fun _ => do
      op (.send peer (.consent ⟨true,some grant,some challenge,row.generation,
        row.minimumProtocolVersion⟩))
      let response ← op (.awaitConsent peer)
      finishConsent l peer challenge row.generation row.minimumProtocolVersion response

def respondToPairing (l : Local) (peer : EndpointId) (accepted : Bool) : Task (Outcome Bool) := do
  if ← op (.isBlocked peer) then return .ok false
  else
    Prog.andThen (op (.findRow peer)) fun row =>
      match row with
      | none => return .ok false
      | some row =>
        if row.state = .saved then return .ok true
        else if row.state ≠ .pendingIncoming then return .ok false
        else if accepted then acceptPairing l peer row
        else declinePairing l peer row

/-- `forget` and `revoke_for_block` under the lock; the result is the row that has ended. -/
def revokeRelationship (l : Local) (peer : EndpointId) : Task (Outcome (Option RelationshipRow)) :=
  Prog.andThen (op (.findRow peer)) fun row =>
    match row with
    | none => (removeForPeer l peer).andThen fun _ => return .ok none
    | some row =>
      Prog.andThen (op (.insertTombstone peer row)) fun _ =>
        (deleteRelationship l peer).andThen fun _ =>
          (removeForPeer l peer).andThen fun _ => return .ok (some row)

def notifyRemoteRevoke (peer : EndpointId) (row : RelationshipRow) : Task Unit := do
  match ← op (.peerAddr peer) with
  | .error _ => return ()
  | .ok _ => op (.send peer (.revoke ⟨row.generation,row.issuedGrantId⟩))

/-- What `forget_saved_device` and `block_device` do after the deny record. -/
def endRelationship (l : Local) (peer : EndpointId) : Task (Outcome Unit) := do
  op (.lockPeer peer)
  let revoked ← revokeRelationship l peer
  op (.unlockPeer peer)
  match revoked with
  | .error e => return .error e
  | .ok row =>
    Prog.andThen (op (.cancelTargetedTransfers peer)) fun _ => do
      match row with
      | none => return .ok ()
      | some row =>
        notifyRemoteRevoke peer row
        return .ok ()

def blockDevice (l : Local) (peer : EndpointId) : Task (Outcome Unit) :=
  Prog.andThen (op (.blockEndpoint peer)) fun _ => endRelationship l peer

/-- Under the lock: invalidate first, then mint the one new active generation. -/
def rotateLocked (l : Local) (peer : EndpointId) : Task (Outcome Unit) :=
  Prog.andThen (op (.findRow peer)) fun row =>
    match row with
    | none => invalid "no relationship to rotate"
    | some row =>
      if row.state ≠ .saved then invalid "only saved relationships can rotate grants"
      else Prog.andThen (op (.insertTombstone peer row)) fun _ => do
        clearGrantSecrets l row
        -- `saturating_add(1)`
        let newGeneration := min (row.generation + 1) 18446744073709551615
        (write peer (.beginGrantRotation newGeneration)).andThen fun _ =>
          (mintAndStoreIssuedGrant l peer newGeneration row.minimumProtocolVersion).andThen fun _ =>
            return .ok ()

def rotateRelationshipGrant (l : Local) (peer : EndpointId) : Task (Outcome Unit) := do
  op (.lockPeer peer)
  let rotated ← rotateLocked l peer
  op (.unlockPeer peer)
  return rotated

def deleteEach (l : Local) : List EndpointId → Task (Outcome Unit)
  | [] => return .ok ()
  | peer :: peers => (deleteRelationship l peer).andThen fun _ => deleteEach l peers

def expirePending (l : Local) : Task (Outcome Unit) := do
  let now ← op .nowMs
  Prog.andThen (op (.listExpiredPendingPeers (now - pendingTtlMs))) (deleteEach l)

/-! Messages of the peer. -/

/-- A repeated or crossing request for the pending row of the same session. -/
def joinPending (remote : EndpointId) (existing : RelationshipRow) (request : PairingRequest) :
    Task (Option Nat) := do
  let generation := max existing.generation request.generation
  match ← write remote (.setPendingGeneration request.sessionId generation) with
  | .ok true => return some generation
  | _ => return none

/-- A request that no pending row answers. -/
def acceptRequest (l : Local) (remote : EndpointId) (request : PairingRequest) :
    Task PairingRequestResponse :=
  if !l.decodesSecret request.capability then return .rejected
  else if request.protocolVersion ≠ l.relationshipProtocolVersion then return .rejected
  else do
    match ← validatePresentedCapability l remote request.sessionId request.capability with
    | .ok (some entry) =>
      match ← canCreateNewRelationship l remote with
      | .ok true =>
        match ← nextGeneration remote with
        | .ok localGeneration =>
          let generation := max request.generation localGeneration
          if !fitsI64 generation then return .rejected
          else
            let now ← op .nowMs
            match ← write remote (.upsert ⟨.pendingIncoming,generation,request.protocolVersion,
              some request.sessionId,entry.remoteDisplayName,some now,now,now⟩) with
            | .ok _ => return .awaitingConsent generation
            | .error _ => return .rejected
        | .error _ => return .rejected
      | _ => return .rejected
    | _ => return .rejected

/-- Under the lock: the answer, and the protocol version of a merge this side leads. -/
def answerRequest (l : Local) (remote : EndpointId) (request : PairingRequest) :
    Task (PairingRequestResponse × Option Nat) := do
  if request.generation = 0 || !fitsI64 request.generation then return (.rejected,none)
  else
    let accept : Task (PairingRequestResponse × Option Nat) := do
      return (← acceptRequest l remote request,none)
    match ← op (.findRow remote) with
    | .ok (some existing) =>
      if existing.state = .saved then return (.alreadySaved,none)
      else if existing.state = .pendingIncoming && existing.sessionId = some request.sessionId then
        match ← joinPending remote existing request with
        | some generation => return (.awaitingConsent generation,none)
        | none => return (.rejected,none)
      else if existing.state = .pendingOutgoing && existing.sessionId = some request.sessionId then
        match ← joinPending remote existing request with
        | some generation => return (.merged generation,some existing.minimumProtocolVersion)
        | none => return (.rejected,none)
      else accept
    | _ => accept

def handlePairingRequest (l : Local) (remote : EndpointId) (request : PairingRequest) :
    Task PairingRequestResponse := do
  if ← op (.isBlocked remote) then return .rejected
  else
    op (.lockPeer remote)
    let (response,merging) ← answerRequest l remote request
    op (.unlockPeer remote)
    match response, merging with
    | .merged generation, some protocolVersion =>
      if l.endpointId < remote then
        let _ ← completeSimultaneousMerge l remote generation protocolVersion
        return response
      else return response
    | _, _ => return response

/-- The grants are exchanged and the acks are reset. -/
def exchangeGrants (l : Local) (remote : EndpointId) (consent : PairingConsent) (peerGrant : WireGrant)
    (challenge : Text) : Task (Outcome PairingConsentResponse) :=
  (storeHeldGrant l remote peerGrant).andThen fun _ =>
    (mintAndStoreIssuedGrant l remote consent.generation consent.protocolVersion).andThen fun grant =>
      (proveHeldPossession l remote challenge peerGrant.generation
        peerGrant.protocolVersion).andThen fun proof => do
          let ackChallenge ← op .generate
          (write remote (.setAcks false false)).andThen fun _ =>
            return .ok (.completed grant proof ackChallenge)

def handlePairingConsent (l : Local) (remote : EndpointId) (consent : PairingConsent) :
    Task PairingConsentResponse := do
  if ← op (.isBlocked remote) then return .rejected
  else
    match ← op (.findRow remote) with
    | .ok (some row) =>
      if row.state = .saved then return .alreadySaved
      else if row.state ≠ .pendingOutgoing then return .rejected
      else if consent.protocolVersion < row.minimumProtocolVersion ||
          consent.generation ≠ row.generation then return .rejected
      else if !consent.accepted then
        let _ ← deleteRelationship l remote
        return .rejected
      else
        match consent.grant, consent.challenge with
        | some peerGrant, some challenge =>
          if !l.decodesChallenge challenge then return .rejected
          else
            match ← exchangeGrants l remote consent peerGrant challenge with
            | .ok response => return response
            | .error _ => return .rejected
        | _, _ => return .rejected
    | _ => return .rejected

def acceptAck (l : Local) (remote : EndpointId) (ack : PairingAck) : Task (Outcome Unit) :=
  (verifyIssuedPossession l remote ack.challenge ack.possessionProof ack.generation
    ack.protocolVersion).andThen fun _ =>
      (write remote (.setAcks true true)).andThen fun _ =>
        (activateSaved remote).andThen fun _ => return .ok ()

def handlePairingAck (l : Local) (remote : EndpointId) (ack : PairingAck) : Task PairingAckResponse := do
  if ← op (.isBlocked remote) then return .rejected
  else
    match ← op (.findRow remote) with
    | .ok (some row) =>
      if row.state = .saved then return .alreadySaved
      else if !row.state.pending then return .rejected
      else if !l.decodesChallenge ack.challenge then return .rejected
      else
        match ← acceptAck l remote ack with
        | .ok _ => return .acknowledged
        | .error _ => return .rejected
    | _ => return .rejected

/-- A notice for an older generation is stale; one for generation 0 never is. -/
def staleNotice (remote : EndpointId) (row : RelationshipRow) (generation : Nat) : Task Bool :=
  if row.generation ≠ generation && generation ≠ 0 then do
    match ← op (.findTombstone remote generation) with
    | .ok found => return found
    | .error _ => return false
  else return false

def revokeNoticed (l : Local) (remote : EndpointId) (generation : Nat) : Task Unit := do
  match ← op (.findRow remote) with
  | .ok (some row) =>
    if ← staleNotice remote row generation then return ()
    else
      let _ ← op (.insertTombstone remote row)
      let _ ← deleteRelationship l remote
      let _ ← removeForPeer l remote
      return ()
  | _ => return ()

def handleRemoteRevoke (l : Local) (remote : EndpointId) (generation : Nat) : Task Unit := do
  op (.lockPeer remote)
  revokeNoticed l remote generation
  op (.unlockPeer remote)

/-- `respond_to_device_pairing`, which asks for the deny record twice. -/
def respondToDevicePairing (l : Local) (peer : EndpointId) (accepted : Bool) : Task (Outcome Bool) := do
  if ← op (.isBlocked peer) then return .ok false
  else respondToPairing l peer accepted

/-! What can be started. -/

inductive Call where
  | requestPairing (peer : EndpointId)
  | respondToPairing (peer : EndpointId) (accepted : Bool)
  | forgetSavedDevice (peer : EndpointId)
  | blockDevice (peer : EndpointId)
  | unblockDevice (peer : EndpointId)
  | rotateRelationshipGrant (peer : EndpointId)
  | listDeviceRelationships
  | listPairingEligibilities
  | declinePairingEligibility (peer : EndpointId)
  /-- A receive from the peer has completed. -/
  | received (peer : EndpointId) (name : Option String) (sessionId : SessionId) (token : Text)
  | pairingRequest (remote : EndpointId) (m : PairingRequest)
  | pairingConsent (remote : EndpointId) (m : PairingConsent)
  | pairingAck (remote : EndpointId) (m : PairingAck)
  | revokeNotice (remote : EndpointId) (m : RevokeNotice)
  | deliveryReceipt (remote : EndpointId) (receipt : DeliveryReceipt)
  /-- The targeted domain checks a proof of the peer. -/
  | savedPossession (peer : EndpointId) (challenge : Text) (proof : WireProof)
    (generation protocolVersion : Nat)
  deriving DecidableEq, Repr

/-- The peer a call is about; the two listings are about none. -/
def Call.peer : Call → Option EndpointId
  | .listDeviceRelationships | .listPairingEligibilities => none
  | .requestPairing peer | .respondToPairing peer _ | .forgetSavedDevice peer => some peer
  | .blockDevice peer | .unblockDevice peer | .rotateRelationshipGrant peer => some peer
  | .declinePairingEligibility peer | .received peer .. => some peer
  | .pairingRequest remote _ | .pairingConsent remote _ | .pairingAck remote _ => some remote
  | .revokeNotice remote _ | .deliveryReceipt remote _ | .savedPossession remote .. => some remote

/-- A local call returns to the user. -/
def returning {α : Type} (p : Task (Outcome α)) : Task Unit := do
  match ← p with
  | .ok _ => op (.returned true)
  | .error _ => op (.returned false)

def Call.body (l : Local) : Call → Task Unit
  | .requestPairing peer => returning (Pairing.requestPairing l peer)
  | .respondToPairing peer accepted => returning (respondToDevicePairing l peer accepted)
  | .forgetSavedDevice peer => returning (endRelationship l peer)
  | .blockDevice peer => returning (Pairing.blockDevice l peer)
  | .unblockDevice peer => returning (op (.unblockEndpoint peer))
  | .rotateRelationshipGrant peer => returning (Pairing.rotateRelationshipGrant l peer)
  | .listDeviceRelationships => returning (expirePending l)
  | .listPairingEligibilities => returning (expireDue l)
  | .declinePairingEligibility peer => returning (removeForPeer l peer)
  | .received peer name sessionId token =>
    returning (activateAfterCompletedTransfer l peer name sessionId token)
  | .pairingRequest remote m => do
    let response ← handlePairingRequest l remote m
    op (.answer remote (.request response))
  | .pairingConsent remote m => do
    let response ← handlePairingConsent l remote m
    op (.answer remote (.consent response))
  | .pairingAck remote m => do
    let response ← handlePairingAck l remote m
    op (.answer remote (.ack response))
  | .revokeNotice remote m => do
    handleRemoteRevoke l remote m.generation
    op (.answer remote .revoke)
  | .deliveryReceipt remote receipt => completeDelivery l remote receipt
  | .savedPossession peer challenge proof generation protocolVersion =>
    returning (verifySavedPossession l peer challenge proof generation protocolVersion)

/-- The device and its calls; `stored` says what a device may have stored when it starts. -/
def domain (l : Local) (stored : Device → Prop) : Machine Device Call Op Ans Choice Empty where
  init s := stored s ∧ ∀ peer, s.locks peer = none
  admits _ _ := true
  body := Call.body l
  exec s i _ op c := s.exec l i c op
  env _ e := nomatch e

/-! Device 1, with keys that are sums. -/

namespace Sample

def device : Local where
  endpointId := 1
  relationshipProtocolVersion := 1
  maxSavedDevices := 4
  hasCustody := true
  decodesGrantId _ := true
  decodesSecret _ := true
  decodesChallenge _ := true
  decodesMac _ := true
  relationshipMac secret challenge _ _ _ _ := secret + challenge
  deriveCapability token _ _ sessionId _ := token + sessionId
  receiptTokenHash token := token

def starts (call : Call) : Label Call Choice Empty := .fork call

/-- A step at time 0 in which nothing fails and nothing arrives. -/
def act (i : Nat) : Label Call Choice Empty := .act i ⟨0,false,0,none,none,none⟩

def draws (i random : Nat) : Label Call Choice Empty := .act i ⟨0,false,random,none,none,none⟩

/-- A receive from device 2 completes under session 7, and device 2 may be paired with. -/
def received (i : Nat) : List (Label Call Choice Empty) :=
  starts (.received 2 none 7 1) :: List.replicate 3 (act i) ++ draws i 1 :: List.replicate 2 (act i)

end Sample

end Vnidrop.Pairing
