import Vnidrop.TargetedDevice

/-! The targeted-transfer calls, operation by operation: what the local user and the
peer can start on a device, and its background tasks. -/
namespace Vnidrop.Targeted

open Programs TargetedTransferState

def op (o : Op) : Task (Ans o) := Prog.perform o

def write (w : Write) : Task (Except VnidropError Bool) := op (.write w)

/-- A request and its response; `none` when the connection fails or times out. -/
def request (peer : EndpointId) (r : Request) : Task (Option Response) := do
  op (.send peer r)
  op (.await peer r)

/-! Provider and secrets. -/

def tryTeardownTargetedPayload (protocolId : Nat) (id : TransferId) : Task Bool := do
  op (.unregisterTransferHashes protocolId)
  op (.removeMode protocolId)
  op (.removeSessions protocolId)
  op (.deleteTag id)

def teardownTargetedPayload (protocolId : Nat) (id : TransferId) : Task Unit := do
  let _ ← tryTeardownTargetedPayload protocolId id
  return ()

def releaseSecret (row : TargetedTransferRow) : Task Bool :=
  match row.authorizationSecretHandle with
  | none => return true
  | some handle => do
    if ← op (.remove handle) then
      match ← write (.clearAuthorization row.id) with
      | .ok _ => return true
      | .error _ => return false
    else return false

theorem releaseSecret_held {row : TargetedTransferRow} {handle : Handle}
    (held : row.authorizationSecretHandle = some handle) : releaseSecret row = (do
      if ← op (.remove handle) then
        match ← write (.clearAuthorization row.id) with
        | .ok _ => return true
        | .error _ => return false
      else return false) := by
  cases row
  cases held
  rfl

/-- `targeted_cleanup`, from the snapshot of the row its caller holds. -/
def cleanup (row : TargetedTransferRow) : Task Bool := do
  op (.deactivate row.id)
  op (.unregisterTransferHashes row.protocolTransferId)
  op (.removeMode row.protocolTransferId)
  op (.removeSessions row.protocolTransferId)
  if row.role = .sender then
    if ← op (.deleteTag row.id) then releaseSecret row else return false
  else releaseSecret row

/-- `reconstruct_authorization`, from the columns of a row and its secret. -/
def reconstructAuthorization (protocolVersion : Nat) (row : TargetedTransferRow) (blobTicket : Text)
    (material : Text) : TargetedAuthorization where
  transferId := row.id
  protocolTransferId := row.protocolTransferId
  senderEndpointId := row.senderEndpointId
  receiverEndpointId := row.receiverEndpointId
  manifestId := row.manifestId
  contentHash := row.contentHash
  fileCount := row.fileCount
  totalSize := row.totalSize
  protocolVersion := protocolVersion
  transferName := row.transferName
  blobTicket := blobTicket
  authSecret := material

def secretUnavailable : VnidropError := .secureStorageMissing "protected secret is not available"

def loadAuthorization (l : Local) (row : TargetedTransferRow) :
    Task (Except VnidropError (Option TargetedAuthorization)) :=
  match row.authorizationSecretHandle, row.blobTicket with
  | some handle, some blobTicket => do
    match ← op (.load handle) with
    | some material =>
      return .ok (some (reconstructAuthorization l.protocolVersion row blobTicket material))
    | none => return .error secretUnavailable
  | _, _ => return .ok none

theorem loadAuthorization_held {l : Local} {row : TargetedTransferRow} {handle : Handle} {blobTicket : Text}
    (held : row.authorizationSecretHandle = some handle) (ticket : row.blobTicket = some blobTicket) :
    loadAuthorization l row = (do
      match ← op (.load handle) with
      | some material =>
        return .ok (some (reconstructAuthorization l.protocolVersion row blobTicket material))
      | none => return .error secretUnavailable) := by
  cases row
  cases held
  cases ticket
  rfl

/-! The inbox. -/

def discard (id : TransferId) : Task Unit := do
  op (.dropPending id)
  op (.dropDecision id)
  op (.dropAuth id)

def waitExistingDecision (id : TransferId) : Task TargetedOfferDecision := do
  match ← op (.subscribe id) with
  | .error decision => return decision
  | .ok channel =>
    match ← op (.awaitDecision channel) with
    | .value true => return .accepted
    | .value false | .closed => do
      discard id
      return .declined "receiver-declined"
    | .elapsed => do
      discard id
      return .declined "no-response"

def submit (offer : PendingTargetedOffer) : Task TargetedOfferDecision := do
  if ← op (.ask .coolingDown) then return .refused "identity-cooldown"
  else
    match ← op (.settled offer.transferId) with
    | some settled => return settledToDecision settled
    | none =>
      match ← op (.examine offer) with
      | .join => waitExistingDecision offer.transferId
      | .refuse reason => return .refused reason
      | .enter =>
        match ← op (.enqueue offer) with
        | .join => waitExistingDecision offer.transferId
        | .refuse reason => return .refused reason
        | .enter => do
          op (.openDecision offer.transferId)
          waitExistingDecision offer.transferId

def acceptLive (id : TransferId) : Task (Except RespondError Unit) := do
  match ← op (.decisionOf id) with
  | none => return .error .unknown
  | some decision =>
    let auth ← op (.openAuth id)
    if ← op (.sendDecision decision true) then do
      op (.leaveAuth auth)
      return .ok ()
    else do
      op (.dropAuth id)
      op (.leaveAuth auth)
      return .error .senderGone

def waitForAuthorization (id : TransferId) :
    Task (Except RespondError (Option TargetedAuthorization)) := do
  match Inbox.settledAuthorization (← op (.settled id)) with
  | some auth => return .ok (some auth)
  | none =>
    match ← op (.subscribeAuth id) with
    | none => return .error .unknown
    | some channel =>
      match ← op (.awaitAuth channel) with
      | .value auth => do
        op (.dropPending id)
        op (.dropAuth id)
        op (.settle id (.accepted (some auth)))
        op (.leaveAuth channel)
        return .ok (some auth)
      | _ => do
        op (.dropAuth id)
        op (.leaveAuth channel)
        return .error .authorizationTimeout

/-- `TargetedOfferInbox::respond`. -/
def respond (id : TransferId) (accepted : Bool) :
    Task (Except RespondError (Option TargetedAuthorization)) := do
  match Inbox.settledAuthorization (← op (.settled id)) with
  | some auth => return .ok (some auth)
  | none =>
    match ← op (.getPending id) with
    | none => return .error .unknown
    | some _ =>
      if accepted then
        match ← acceptLive id with
        | .error e => return .error e
        | .ok _ => waitForAuthorization id
      else
        match ← op (.decisionOf id) with
        | none => return .error .unknown
        | some decision => do
          let _ ← op (.sendDecision decision false)
          discard id
          op (.settle id (.declined "receiver-declined"))
          return .ok none

/-- A delivery that finds the result settled, or no waiter, leaves the inbox as it is. -/
def deliverAuthorization (id : TransferId) (auth : TargetedAuthorization) : Task Bool := do
  match Inbox.settledAuthorization (← op (.settled id)) with
  | some existing => return existing = auth
  | none => op (.sendAuthorization id auth)

/-! Handlers of the peer's requests. -/

/-- The checks of an offer against itself, the connection and the configuration. -/
def offerRefusal (l : Local) (remote : EndpointId) (offer : SubmitTargetedOffer) : Option String :=
  if offer.protocolVersion ≠ l.protocolVersion then some "protocol-incompatible"
  else if offer.receiverEndpointId ≠ l.endpointId then some "receiver-mismatch"
  else if offer.senderEndpointId ≠ remote then some "sender-mismatch"
  -- the empty text is numbered 0
  else if offer.fileCount = 0 ∨ l.maxCollectionFiles < offer.fileCount ∨ offer.totalSize = 0 ∨
      l.maxTotalBytes < offer.totalSize ∨ offer.transferId = 0 ∨ offer.manifestId = 0 ∨
      offer.contentHash = 0 then some "manifest-limits"
  else none

/-- The answer to an offer whose transfer already has a row. -/
def existingRowResponse (existing : TargetedTransferRow) (offer : SubmitTargetedOffer) :
    WireOfferResponse :=
  if existing.manifestId ≠ offer.manifestId ∨ existing.contentHash ≠ offer.contentHash ∨
      existing.fileCount ≠ offer.fileCount ∨ existing.totalSize ≠ offer.totalSize ∨
      existing.senderEndpointId ≠ offer.senderEndpointId ∨
      existing.receiverEndpointId ≠ offer.receiverEndpointId then
    .refused "immutable-transfer-mismatch"
  else match existing.state with
    | .approved | .connecting | .transferring | .interrupted | .completed => .accepted
    | .declined => .declined "receiver-declined"
    | .cancelled => .declined "cancelled"
    | .failed | .deleted => .refused ("transfer-" ++ existing.state.asStr)
    | .preparing | .offering | .awaitingApproval => .accepted

def pendingOf (l : Local) (remote : EndpointId) (offer : SubmitTargetedOffer) (now : Millis) :
    PendingTargetedOffer where
  transferId := offer.transferId
  senderEndpointId := remote
  receiverEndpointId := l.endpointId
  manifestId := offer.manifestId
  contentHash := offer.contentHash
  transferName := offer.transferName
  fileCount := offer.fileCount
  totalSize := offer.totalSize
  protocolVersion := offer.protocolVersion
  receivedAt := now

def wireDecision : TargetedOfferDecision → WireOfferResponse
  | .accepted => .accepted
  | .declined reason => .declined reason
  | .refused reason => .refused reason

/-- An offer without a row: the relay profiles, then the proof, then the local user. -/
def promptOffer (l : Local) (remote : EndpointId) (offer : SubmitTargetedOffer) :
    Task WireOfferResponse := do
  if ← op (.ask .relayCompatible) then
    if ← op (.ask .possessionVerified) then
      let now ← op .now
      let decision ← submit (pendingOf l remote offer now)
      return wireDecision decision
    else return .refused "unauthenticated"
  else return .refused "relay-policy-incompatible"

def handleOffer (l : Local) (remote : EndpointId) (offer : SubmitTargetedOffer) :
    Task WireOfferResponse := do
  if ← op (.ask .coolingDown) then return .refused "identity-cooldown"
  else
    match offerRefusal l remote offer with
    | some reason => return .refused reason
    | none =>
      if ← op (.ask .validTransferName) then
        match ← op (.getRow offer.transferId) with
        | .ok (some existing) => return existingRowResponse existing offer
        | _ => promptOffer l remote offer
      else return .refused "transfer name"

/-- The columns a stored receiver row must share with a redelivered authorization. -/
def exactRow (row : TargetedTransferRow) (auth : TargetedAuthorization) : Bool :=
  row.role = .receiver && (row.state.resumable || row.state = .completed) &&
  row.protocolTransferId = auth.protocolTransferId &&
  row.senderEndpointId = auth.senderEndpointId && row.receiverEndpointId = auth.receiverEndpointId &&
  row.manifestId = auth.manifestId && row.contentHash = auth.contentHash &&
  row.transferName = auth.transferName && row.fileCount = auth.fileCount &&
  row.totalSize = auth.totalSize && row.blobTicket = some auth.blobTicket

def redeliverReceiver (row : TargetedTransferRow) (auth : TargetedAuthorization) :
    Task (Except VnidropError Bool) :=
  match row.authorizationSecretHandle with
  | none => return .error (.secureStorageMissing "receiver authorization handle is missing")
  | some handle =>
    if exactRow row auth then do
      match ← op (.load handle) with
      | none => return .error secretUnavailable
      | some material =>
        if reconstructAuthorization auth.protocolVersion row auth.blobTicket material = auth then
          return .ok false
        else return .error (.permission "protected receiver authorization does not match delivery")
    else return .error (.permission "targeted authorization conflicts with receiver state")

def storeReceiver (auth : TargetedAuthorization) : Task (Except VnidropError Bool) := do
  if ← op (.ask .invitationCollision) then
    return .error (.invalidInput "targeted transfer protocol id collides with invitation work")
  else
    match ← op (.protect auth) with
    | none => return .error secretUnavailable
    | some handle =>
      match ← write (.persistReceiverAuthorization auth handle) with
      | .ok created => return .ok created
      | .error e => do
        let _ ← op (.remove handle)
        return .error e

def persistReceiver (auth : TargetedAuthorization) : Task (Except VnidropError Bool) := do
  match ← op (.getRow auth.transferId) with
  | .error e => return .error e
  | .ok (some row) => redeliverReceiver row auth
  | .ok none => storeReceiver auth

/-- What the connection, the configuration and the ticket say of a delivered authorization. -/
def deliverable (l : Local) (remote : EndpointId) (id : TransferId) (auth : TargetedAuthorization) :
    Bool :=
  auth.senderEndpointId = remote && auth.receiverEndpointId = l.endpointId &&
  auth.transferId = id && auth.protocolVersion = l.protocolVersion &&
  l.ticketHash auth.blobTicket = some auth.manifestId && auth.manifestId = auth.contentHash

def handleAuthorization (l : Local) (remote : EndpointId) (delivery : DeliverTargetedAuthorization) :
    Task Response := do
  if ← op (.ask .relationshipSaved) then
    match delivery.authorization with
    | none => return .rejected
    | some auth =>
      if deliverable l remote delivery.transferId auth then do
        match ← persistReceiver auth with
        | .error _ => return .rejected
        | .ok _ => do
          let _ ← deliverAuthorization delivery.transferId auth
          return .stored
      else return .rejected
  else return .rejected

/-- The peer of a row is the other end of its transfer. -/
def isPeer (row : TargetedTransferRow) (remote : EndpointId) : Bool :=
  match row.role with
  | .sender => row.receiverEndpointId = remote
  | .receiver => row.senderEndpointId = remote

def cancelRow (row : TargetedTransferRow) : Task Bool := do
  if row.state = .cancelled then cleanup row
  else if row.state.terminal then return true
  else
    match ← write (.transitionTerminal row.id .cancelled false) with
    | .error _ => return false
    | .ok true => cleanup row
    | .ok false => return true

/-- `cancel_from_peer`; an error and a foreign row are both refused by the handler. -/
def cancelFromPeer (remote : EndpointId) (id : TransferId) : Task Bool := do
  match ← op (.getRow id) with
  | .error _ => return false
  | .ok none =>
    match ← write (.clearAcceptedIntentIfSender id remote) with
    | .ok _ => return true
    | .error _ => return false
  | .ok (some row) => if isPeer row remote then cancelRow row else return false

/-- The inbox branch of `handle_cancel`. -/
def cancelPending (remote : EndpointId) (pending : PendingTargetedOffer) (id : TransferId) :
    Task Bool := do
  if pending.senderEndpointId ≠ remote then return false
  else
    discard id
    match ← write (.clearAcceptedOfferIntent id) with
    | .ok _ => return true
    | .error _ => return false

def handleCancel (remote : EndpointId) (cancel : CancelTargetedOffer) : Task Response := do
  match ← op (.getPending cancel.transferId) with
  | some pending =>
    let done ← cancelPending remote pending cancel.transferId
    return if done then .cancelled else .rejected
  | none =>
    if cancel.terminal = some .cancelled ∨ cancel.terminal = some .deleted then
      let done ← cancelFromPeer remote cancel.transferId
      return if done then .cancelled else .rejected
    else return .cancelled

/-- What a completion report must agree on with the sender's row. -/
def completes (l : Local) (remote : EndpointId) (row : TargetedTransferRow)
    (auth : TargetedAuthorization) (verifiedBytes : Nat) : Bool :=
  row.role = .sender && row.receiverEndpointId = remote && auth.receiverEndpointId = remote &&
  auth.senderEndpointId = l.endpointId && auth.transferId = row.id &&
  auth.protocolTransferId = row.protocolTransferId && auth.manifestId = row.manifestId &&
  auth.contentHash = row.contentHash && auth.transferName = row.transferName &&
  auth.fileCount = row.fileCount && auth.totalSize = row.totalSize &&
  auth.totalSize = verifiedBytes && row.blobTicket = some auth.blobTicket &&
  auth.protocolVersion = l.protocolVersion

def handleCompletion (l : Local) (remote : EndpointId) (completion : CompleteTargetedTransfer) :
    Task Response := do
  if ← op (.ask .relationshipSaved) then
    match ← op (.getRow completion.transferId) with
    | .ok (some row) =>
      match completion.authorization with
      | none => return .rejected
      | some auth =>
        if completes l remote row auth completion.verifiedBytes then
          if row.state = .completed then return .recorded
          else if row.state.terminal then return .rejected
          else
            match ← write (.markSenderCompleted completion.transferId) with
            | .ok _ => return .recorded
            | .error _ => return .rejected
        else return .rejected
    | _ => return .rejected
  else return .rejected

/-! Calls of the local user. -/

inductive TargetedOfferResponse where
  | alreadySettled
  | approved
  | declined
  deriving DecidableEq, Repr

/-- A transfer with a row has nothing left to decide, unless it is one of its own before
the receiver's decision. -/
def alreadySettled (l : Local) (id : TransferId) : Task (Except VnidropError Bool) := do
  match ← op (.settled id) with
  | some _ => return .ok true
  | none =>
    match ← op (.getRow id) with
    | .ok (some row) =>
      match ← loadAuthorization l row with
      | .error e => return .error e
      | .ok auth => return .ok (auth.isSome || !row.state.preapproval)
    | _ => return .ok false

def acceptOffer (id : TransferId) : Task (Except VnidropError Unit) := do
  match ← op (.getPending id) with
  | none => return .error (.invalidInput "unknown targeted offer")
  | some offer =>
    match ← write (.persistAcceptedOfferIntent offer) with
    | .ok _ => return .ok ()
    | .error e => return .error e

def respondOutcome (id : TransferId) (outcome : Except RespondError (Option TargetedAuthorization)) :
    Task (Except VnidropError TargetedOfferResponse) :=
  match outcome with
  | .ok (some _) => do
    match ← op (.getRow id) with
    | .error e => return .error e
    | .ok row =>
      if row.any fun r => r.role = .receiver && r.state = .approved &&
          r.authorizationSecretHandle.isSome then return .ok .approved
      else return .error (.internal "receiver acknowledged authorization without durable custody")
  | .ok none => do
    match ← write (.clearAcceptedOfferIntent id) with
    | .ok _ => return .ok .declined
    | .error e => return .error e
  | .error .unknown => return .error (.invalidInput "unknown targeted offer")
  | .error .senderGone =>
    return .error (.deviceUnavailable "sender disconnected before approval completed")
  | .error .authorizationTimeout =>
    return .error (.offerTimeout "authorization was not delivered in time")

def respondToTargetedOffer (l : Local) (id : TransferId) (accepted : Bool) :
    Task (Except VnidropError TargetedOfferResponse) := do
  match ← alreadySettled l id with
  | .error e => return .error e
  | .ok true => return .ok .alreadySettled
  | .ok false =>
    if accepted then
      match ← acceptOffer id with
      | .error e => return .error e
      | .ok _ => do
        let outcome ← respond id true
        respondOutcome id outcome
    else do
      let outcome ← respond id false
      respondOutcome id outcome

/-- `terminate_local`: the row as it was read, and whether this call ended it. -/
def terminateLocal (id : TransferId) (state : TargetedTransferState) :
    Task (Except VnidropError (Option (TargetedTransferRow × Bool))) := do
  match ← op (.getRow id) with
  | .error e => return .error e
  | .ok none => do
    discard id
    match ← write (.clearAcceptedOfferIntent id) with
    | .ok _ => return .ok none
    | .error e => return .error e
  | .ok (some row) =>
    if row.state = state then
      if row.authorizationSecretHandle = none ∧ row.blobTicket = none then do
        discard id
        return .ok (some (row,false))
      else do
        discard id
        if ← cleanup row then return .ok (some (row,false)) else return .error Device.unavailable
    else
      match ← write (.transitionTerminal id state true) with
      | .error e => return .error e
      | .ok changed => do
        discard id
        if ← cleanup row then return .ok (some (row,changed)) else return .error Device.unavailable

def peerOf (row : TargetedTransferRow) : EndpointId :=
  match row.role with
  | .sender => row.receiverEndpointId
  | .receiver => row.senderEndpointId

/-- Best-effort teardown at the peer. -/
def notifyCancel (peer : EndpointId) (id : TransferId) (terminal : Option TargetedTransferState) :
    Task Unit := do
  if ← op (.ask .peerReachable) then
    let _ ← request peer (.cancelOffer ⟨id,terminal⟩)
    return ()
  else return ()

def cancelTargetedTransfer (id : TransferId) : Task Unit := do
  match ← terminateLocal id .cancelled with
  | .ok (some (row,_)) =>
    if row.state = .deleted then return () else notifyCancel (peerOf row) id (some .cancelled)
  | _ => return ()

def deleteTargetedTransfer (id : TransferId) : Task Unit := do
  match ← terminateLocal id .deleted with
  | .ok (some (row,true)) => notifyCancel (peerOf row) id (some .deleted)
  | _ => return ()

/-- `terminate_peer`, when the relationship ends by forgetting or blocking. -/
def discardEach : List TransferId → Task Unit
  | [] => return ()
  | id :: ids => do
    discard id
    discardEach ids

def rowsOf : List TransferId → Task (Except VnidropError (List TargetedTransferRow))
  | [] => return .ok []
  | id :: ids => do
    match ← op (.getRow id) with
    | .error e => return .error e
    | .ok row =>
      match ← rowsOf ids with
      | .error e => return .error e
      | .ok rows => return .ok (row.toList ++ rows)

def cleanupEach : List TargetedTransferRow → Task Unit
  | [] => return ()
  | row :: rows => do
    if ← cleanup row then cleanupEach rows else return ()

def terminatePeer (peer : EndpointId) : Task Unit := do
  let pending ← op (.pendingFrom peer)
  discardEach pending
  match ← op (.idsForPeer peer) with
  | .error _ => return ()
  | .ok ids =>
    match ← rowsOf ids with
    | .error _ => return ()
    | .ok rows =>
      match ← write (.cancelByPeer peer) with
      | .error _ => return ()
      | .ok _ => cleanupEach rows

/-! Sending. -/

/-- What the import has determined about the payload of a new transfer. -/
structure Payload where
  receiverEndpointId : EndpointId
  rootHash : Text
  memberHashes : List Text
  blobTicket : Text
  payloadName : Text
  fileCount : Nat
  totalSize : Nat
  deriving DecidableEq, Repr

def senderRow (l : Local) (p : Payload) (id : TransferId) (now : Millis) : TargetedTransferRow where
  id := id
  protocolTransferId := l.allocateProtocolTransferId id
  senderEndpointId := l.endpointId
  receiverEndpointId := p.receiverEndpointId
  manifestId := p.rootHash
  contentHash := p.rootHash
  transferName := p.payloadName
  fileCount := p.fileCount
  totalSize := p.totalSize
  verifiedBytes := 0
  blobTicket := none
  authorizationSecretHandle := none
  role := .sender
  state := .preparing
  createdAt := now
  updatedAt := now

def offerOf (l : Local) (p : Payload) (id : TransferId) : SubmitTargetedOffer where
  protocolVersion := l.protocolVersion
  transferId := id
  senderEndpointId := l.endpointId
  receiverEndpointId := p.receiverEndpointId
  manifestId := p.rootHash
  contentHash := p.rootHash
  transferName := p.payloadName
  fileCount := p.fileCount
  totalSize := p.totalSize

def authorizationOf (l : Local) (p : Payload) (id : TransferId) (secret : Text) :
    TargetedAuthorization where
  transferId := id
  protocolTransferId := l.allocateProtocolTransferId id
  senderEndpointId := l.endpointId
  receiverEndpointId := p.receiverEndpointId
  manifestId := p.rootHash
  contentHash := p.rootHash
  fileCount := p.fileCount
  totalSize := p.totalSize
  protocolVersion := l.protocolVersion
  transferName := p.payloadName
  blobTicket := p.blobTicket
  authSecret := secret

def registerSender (row : TargetedTransferRow) : Task Bool := do
  match ← write (.insert row) with
  | .error _ => return false
  | .ok _ =>
    match ← write (.setState row.id .preparing .offering) with
    | .error _ => return false
    | .ok _ => return true

/-- The payload is provided and the row registered; `none` when the call fails before. -/
def prepareTargetedTransfer (l : Local) (p : Payload) : Task (Option TransferId) := do
  if ← op (.ask .relationshipSaved) then
    let id ← op .drawTransferId
    let protocolId := l.allocateProtocolTransferId id
    if ← op (.setTag id p.rootHash) then do
      op (.registerShareHashes protocolId (p.rootHash :: p.memberHashes))
      op (.setMode protocolId)
      if ← op (.ask .registrationStopped) then do
        teardownTargetedPayload protocolId id
        return none
      else
        let now ← op .now
        if ← registerSender (senderRow l p id now) then
          match ← op (.getRow id) with
          | .ok (some _) => return some id
          | _ => return none
        else do
          teardownTargetedPayload protocolId id
          return none
    else return none
  else return none

/-- A failed negotiation: the row leaves the state it is expected in, and the payload goes. -/
def abandonOffer (l : Local) (id : TransferId) (src dst : TargetedTransferState) : Task Unit := do
  let _ ← write (.setState id src dst)
  teardownTargetedPayload (l.allocateProtocolTransferId id) id

def setStateFromAny (id : TransferId) (dst : TargetedTransferState) : Task (Except VnidropError Unit) := do
  match ← op (.getRow id) with
  | .error e => return .error e
  | .ok row =>
    match Store.setStateFromAnyRead row dst with
    | .error e => return .error e
    | .ok none => return .ok ()
    | .ok (some src) =>
      match ← write (.updateState id src dst) with
      | .ok _ => return .ok ()
      | .error e => return .error e

def abandonApproval (l : Local) (id : TransferId) : Task Unit := do
  let _ ← setStateFromAny id .failed
  teardownTargetedPayload (l.allocateProtocolTransferId id) id

/-- `protect_sender`: the secret first, then the row; a refused row rolls the secret back. -/
def protectSender (auth : TargetedAuthorization) : Task Bool := do
  match ← op (.protect auth) with
  | none => return false
  | some handle =>
    match ← write (.finalizeSenderAuthorization auth.transferId auth.blobTicket handle) with
    | .ok _ => return true
    | .error _ => do
      let _ ← op (.remove handle)
      return false

/-- What follows an accepted offer. -/
def approve (l : Local) (p : Payload) (id : TransferId) : Task Unit := do
  -- permanent until cancel or delete
  op (.approveEndpoint (l.allocateProtocolTransferId id) p.receiverEndpointId)
  if ← op (.ask .authorizationIssued) then
    let secret ← op .generateSecret
    if ← protectSender (authorizationOf l p id secret) then return () else abandonApproval l id
  else abandonApproval l id

def negotiate (l : Local) (p : Payload) (id : TransferId) : Task Unit := do
  match ← request p.receiverEndpointId (.submitOffer (offerOf l p id)) with
  | some (.offer .accepted) => approve l p id
  | some (.offer (.declined _)) => abandonOffer l id .awaitingApproval .declined
  | _ => abandonOffer l id .awaitingApproval .failed

def continueTargetedTransfer (l : Local) (p : Payload) (id : TransferId) : Task Unit := do
  if ← op (.ask .peerReachable) then
    if ← op (.ask .challengeAnswered) then
      if ← op (.ask .possessionProved) then
        match ← write (.setState id .offering .awaitingApproval) with
        | .ok _ => negotiate l p id
        | .error _ => teardownTargetedPayload (l.allocateProtocolTransferId id) id
      else abandonOffer l id .offering .failed
    else abandonOffer l id .offering .failed
  else abandonOffer l id .offering .failed

/-- `TargetedTransferPreparation::send`; the negotiation goes on after it has returned. -/
def send (l : Local) (p : Payload) : Task Unit := do
  match ← prepareTargetedTransfer l p with
  | none => return ()
  | some id => do
    op (.registered id)
    continueTargetedTransfer l p id

/-- `stop_preparation`. -/
def stopPreparation (id : TransferId) : Task (Except VnidropError TargetedPreparationStopOutcome) := do
  match ← op (.getRow id) with
  | .error e => return .error e
  | .ok none => return .ok .transferAbandoned
  | .ok (some row) =>
    if row.state.terminal then return .ok .alreadyTerminal
    else
      match ← write (.abandonSenderPreapproval id) with
      | .error e => return .error e
      | .ok true => do
        if ← cleanup row then return .ok .transferAbandoned else return .error Device.unavailable
      | .ok false =>
        match ← op (.getRow id) with
        | .error e => return .error e
        | .ok none => return .ok .transferAbandoned
        | .ok (some current) =>
          if current.state.terminal then return .ok .alreadyTerminal
          else
            match ← write (.transitionTerminal id .cancelled true) with
            | .error e => return .error e
            | .ok changed =>
              if ← cleanup current then
                return .ok (if changed then .transferCancelled else .alreadyTerminal)
              else return .error Device.unavailable

/-- `TargetedTransferPreparation::stop` of a registered transfer. -/
def stop (id : TransferId) : Task Unit := do
  op (.deactivate id)
  match ← op (.getRow id) with
  | .error _ => return ()
  | .ok row =>
    match ← stopPreparation id with
    | .error _ => return ()
    | .ok outcome => do
      match row, outcome with
      | some row, .transferAbandoned => do
        notifyCancel row.receiverEndpointId id none
        op (.stopped id outcome)
      | some row, .transferCancelled => do
        notifyCancel row.receiverEndpointId id (some .cancelled)
        op (.stopped id outcome)
      | _, _ => op (.stopped id outcome)

/-! Receiving. -/

def loadReceiverAuthorization (l : Local) (id : TransferId) : Task (Option TargetedAuthorization) := do
  match ← op (.getRow id) with
  | .ok (some row) =>
    match ← loadAuthorization l row with
    | .ok auth => return auth.filter (·.receiverEndpointId = l.endpointId)
    | .error _ => return none
  | _ => return none

def advanceEach (id : TransferId) : List Nat → Task Bool
  | [] => return true
  | bytes :: rest => do
    match ← write (.advanceVerifiedBytes id bytes) with
    | .ok _ => advanceEach id rest
    | .error _ => return false

/-- The download and its export; a cancel signal makes it fail. -/
def receiveTargetedPayload (id : TransferId) : Task Bool := do
  let download ← op .download
  let advanced ← advanceEach id download.progress
  return advanced && download.succeeded

/-- `acknowledge_targeted_completion`. -/
def acknowledgeCompletion (auth : TargetedAuthorization) : Task Bool := do
  if ← op (.ask .peerReachable) then
    let response ← request auth.senderEndpointId
      (.completeTransfer ⟨auth.transferId,auth.totalSize,some auth⟩)
    return response = some .recorded
  else return false

def completeReceive (auth : TargetedAuthorization) : Task Unit := do
  match ← op (.getRow auth.transferId) with
  | .ok (some row) =>
    match ← write (.completeReceiver auth.transferId row.totalSize) with
    | .error _ => return ()
    | .ok _ =>
      if ← acknowledgeCompletion auth then
        let _ ← write (.clearPendingCompletion auth.transferId)
        return ()
      else return ()
  | _ => return ()

def interruptReceive (id : TransferId) : Task Unit := do
  match ← op (.getRow id) with
  | .ok (some row) =>
    if row.state = .connecting ∨ row.state = .transferring then
      let _ ← setStateFromAny id .interrupted
      return ()
    else return ()
  | _ => return ()

/-- `begin_receive`; without a row the receive goes on to fail at its completion. -/
def beginReceive (id : TransferId) : Task Bool := do
  match ← op (.getRow id) with
  | .error _ => return false
  | .ok none => return true
  | .ok (some row) =>
    if row.state = .approved ∨ row.state = .interrupted then
      match ← write (.setState id row.state .connecting) with
      | .error _ => return false
      | .ok _ =>
        match ← write (.setState id .connecting .transferring) with
        | .error _ => return false
        | .ok _ => return true
    else return false

/-- `run_registered_targeted_receive`; the ticket is parsed after the row has moved. -/
def runRegisteredReceive (l : Local) (auth : TargetedAuthorization) : Task Unit := do
  if ← beginReceive auth.transferId then
    match l.ticketHash auth.blobTicket with
    | none => return ()
    | some _ =>
      if ← receiveTargetedPayload auth.transferId then completeReceive auth
      else interruptReceive auth.transferId
  else return ()

def runTargetedReceive (l : Local) (auth : TargetedAuthorization) : Task Unit := do
  if ← op (.activate auth.transferId) then
    runRegisteredReceive l auth
    op (.deactivate auth.transferId)
  else return ()

def receiveTargetedTransfer (l : Local) (id : TransferId) : Task Unit := do
  match ← loadReceiverAuthorization l id with
  | some auth => runTargetedReceive l auth
  | none => return ()

def resumeTargetedTransfer (l : Local) (id : TransferId) : Task Unit := do
  match ← op (.getRow id) with
  | .ok (some row) => if row.state.resumable then receiveTargetedTransfer l id else return ()
  | _ => return ()

/-! Background reconciliation. -/

def deferCompletion (id : TransferId) (delay : Millis) : Task Unit := do
  let now ← op .now
  let _ ← write (.deferPendingCompletion id (now + delay))
  return ()

def retryCompletion (l : Local) : Task Unit := do
  match ← op .pendingCompletion with
  | none => return ()
  | some row =>
    match ← loadAuthorization l row with
    | .ok (some auth) =>
      if ← acknowledgeCompletion auth then
        let _ ← write (.clearPendingCompletion row.id)
        return ()
      else deferCompletion row.id 5000
    | _ => deferCompletion row.id 30000

/-- `deliver_stored_targeted_authorization`. -/
def deliverStored (l : Local) (row : TargetedTransferRow) : Task Bool := do
  match ← loadAuthorization l row with
  | .ok (some auth) =>
    if ← op (.ask .peerReachable) then
      let response ← request row.receiverEndpointId (.deliverAuthorization ⟨row.id,some auth⟩)
      return response = some .stored
    else return false
  | _ => return false

def retryAuthorizationDelivery (l : Local) : Task Unit := do
  match ← op .pendingAuthorizationDelivery with
  | none => return ()
  | some row =>
    if ← deliverStored l row then
      let _ ← write (.clearPendingAuthorizationDelivery row.id)
      return ()
    else
      let now ← op .now
      let _ ← write (.deferPendingAuthorizationDelivery row.id (now + 5000))
      return ()

def releaseEach : List TargetedTransferRow → Task Unit
  | [] => return ()
  | row :: rows => do
    if ← tryTeardownTargetedPayload row.protocolTransferId row.id then
      let _ ← write (.clearPendingPayloadRelease row.id)
      releaseEach rows
    else releaseEach rows

def releaseCompletedPayloads : Task Unit := do
  let rows ← op .completedSenderRows
  releaseEach rows

/-! The device as a machine. -/

inductive Call where
  | offered (remote : EndpointId) (offer : SubmitTargetedOffer)
  | authorized (remote : EndpointId) (delivery : DeliverTargetedAuthorization)
  | cancelled (remote : EndpointId) (cancel : CancelTargetedOffer)
  | completed (remote : EndpointId) (completion : CompleteTargetedTransfer)
  | respond (id : TransferId) (accepted : Bool)
  | cancel (id : TransferId)
  | delete (id : TransferId)
  | receive (id : TransferId)
  | resume (id : TransferId)
  | send (payload : Payload)
  | stop (id : TransferId)
  | terminatePeer (peer : EndpointId)
  | retryCompletion
  | retryAuthorizationDelivery
  | releaseCompletedPayloads
  deriving DecidableEq

/-- A handler's answer is an operation of its own: the response may be lost. -/
def Call.body (l : Local) : Call → Task Unit
  | .offered remote offer => do
    let response ← handleOffer l remote offer
    op (.answer remote (.submitOffer offer) (.offer response))
  | .authorized remote delivery => do
    let response ← handleAuthorization l remote delivery
    op (.answer remote (.deliverAuthorization delivery) response)
  | .cancelled remote message => do
    let response ← handleCancel remote message
    op (.answer remote (.cancelOffer message) response)
  | .completed remote completion => do
    let response ← handleCompletion l remote completion
    op (.answer remote (.completeTransfer completion) response)
  | .respond id accepted => do
    let _ ← respondToTargetedOffer l id accepted
    return ()
  | .cancel id => cancelTargetedTransfer id
  | .delete id => deleteTargetedTransfer id
  | .receive id => receiveTargetedTransfer l id
  | .resume id => resumeTargetedTransfer l id
  | .send payload => Targeted.send l payload
  | .stop id => Targeted.stop id
  | .terminatePeer peer => Targeted.terminatePeer peer
  | .retryCompletion => Targeted.retryCompletion l
  | .retryAuthorizationDelivery => Targeted.retryAuthorizationDelivery l
  | .releaseCompletedPayloads => Targeted.releaseCompletedPayloads

/-- A stop reaches a transfer that its preparation has registered. -/
def Call.admitted (s : Device) : Call → Bool
  | .stop id => id ∈ s.registered
  | _ => true

/-- Bulk statements outside the calls: recovery at start, and a new identity. -/
inductive Housekeeping where
  | markInterruptedInFlight (now : Millis)
  | failSenderPreapproval (now : Millis)
  | resetIdentity (now : Millis)
  deriving DecidableEq

def Device.housekeep (s : Device) : Housekeeping → Device
  | .markInterruptedInFlight now => { s with store := s.store.markInterruptedInFlight now }
  | .failSenderPreapproval now => { s with store := s.store.failSenderPreapproval now }
  | .resetIdentity now => { s with store := s.store.resetIdentityBoundState now }

def device (l : Local) (start : Device → Prop) : Machine Device Call Op Ans Choice Housekeeping where
  init := start
  admits := Call.admitted
  body := Call.body l
  exec s _ _ op c := s.exec l c op
  env s e := some (s.housekeep e)

/-- A device that has done nothing yet. -/
def Device.new : Device where
  store := .empty
  inbox := .new
  custody _ := none
  handles := []
  hashes _ := []
  policy := .new
  tags _ := none
  active _ := false
  drawn := []
  registered := []
  sent := []
  answers := []

/-! A run that later examples start from: device 1 sends to device 2 and is accepted. -/
namespace Sample

def sender : Local := ⟨1,1,10,100,8,id,fun _ => none⟩

/-- Every draw is 7, and the peer accepts. -/
def proceed (flag : Bool) : Label Call Choice Housekeeping :=
  .act 0 ⟨0,false,flag,7,some (.offer .accepted),⟨[],false⟩⟩

def approving : List (Label Call Choice Housekeeping) :=
  .fork (.send ⟨2,3,[],4,5,1,1⟩) :: List.replicate 5 (proceed true) ++
    List.replicate 6 (proceed false) ++ List.replicate 11 (proceed true)

def approvedConf : Conf Device Call Op Ans :=
  ((device sender (· = .new)).system.run ⟨.new,[]⟩ approving).getD ⟨.new,[]⟩

def approved : Device := approvedConf.shared

theorem approved_reached : (device sender (· = .new)).system.run ⟨.new,[]⟩ approving =
    some approvedConf := rfl

end Sample

end Vnidrop.Targeted
