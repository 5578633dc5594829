import Vnidrop.AccessPolicy
import Vnidrop.Programs
import Vnidrop.TargetedInbox
import Vnidrop.TargetedStore

/-! One device as the targeted-transfer calls see it: its store, inbox, secrets and
provider state, and the atomic operations on them. Where the outside decides (a clock,
a failure, a check of the relationship, the peer's response), the choice says how. -/
namespace Vnidrop.Targeted

open Tables Access Programs

/-- What a device is configured with. -/
structure Local where
  endpointId : EndpointId
  protocolVersion : Nat
  maxCollectionFiles : Nat
  maxTotalBytes : Nat
  maxPending : Nat
  /-- `allocate_protocol_transfer_id`, a digest of the identifier. -/
  allocateProtocolTransferId : TransferId → Nat
  /-- The hash a blob ticket names; a text that is no ticket has none. -/
  ticketHash : Text → Option Text

structure SubmitTargetedOffer where
  protocolVersion : Nat
  transferId : TransferId
  senderEndpointId : EndpointId
  receiverEndpointId : EndpointId
  manifestId : Text
  contentHash : Text
  transferName : Text
  fileCount : Nat
  totalSize : Nat
  deriving DecidableEq, Repr

inductive WireOfferResponse where
  | accepted
  | declined (reason : String)
  | refused (reason : String)
  deriving DecidableEq, Repr

/-- `none` stands for a text that does not decode, or whose digest is wrong. -/
structure DeliverTargetedAuthorization where
  transferId : TransferId
  authorization : Option TargetedAuthorization
  deriving DecidableEq, Repr

structure CancelTargetedOffer where
  transferId : TransferId
  terminal : Option TargetedTransferState
  deriving DecidableEq, Repr

structure CompleteTargetedTransfer where
  transferId : TransferId
  verifiedBytes : Nat
  authorization : Option TargetedAuthorization
  deriving DecidableEq, Repr

inductive Request where
  | submitOffer (offer : SubmitTargetedOffer)
  | deliverAuthorization (delivery : DeliverTargetedAuthorization)
  | cancelOffer (cancel : CancelTargetedOffer)
  | completeTransfer (completion : CompleteTargetedTransfer)
  deriving DecidableEq, Repr

inductive Response where
  | offer (response : WireOfferResponse)
  | stored
  | cancelled
  | recorded
  | rejected
  deriving DecidableEq, Repr

inductive TargetedPreparationStopOutcome where
  | transferAbandoned
  | transferCancelled
  | alreadyTerminal
  deriving DecidableEq, Repr

/-- The statements the calls run on the targeted tables. -/
inductive Write where
  | insert (row : TargetedTransferRow)
  | abandonSenderPreapproval (id : TransferId)
  | setState (id : TransferId) (src dst : TargetedTransferState)
  | updateState (id : TransferId) (src dst : TargetedTransferState)
  | markSenderCompleted (id : TransferId)
  | finalizeSenderAuthorization (id : TransferId) (blobTicket : Text) (handle : Handle)
  | persistAcceptedOfferIntent (offer : PendingTargetedOffer)
  | persistReceiverAuthorization (auth : TargetedAuthorization) (handle : Handle)
  | clearAcceptedOfferIntent (id : TransferId)
  | clearAcceptedIntentIfSender (id : TransferId) (sender : EndpointId)
  | cancelByPeer (peer : EndpointId)
  | completeReceiver (id : TransferId) (verifiedBytes : Nat)
  | advanceVerifiedBytes (id : TransferId) (verifiedBytes : Nat)
  | clearPendingAuthorizationDelivery (id : TransferId)
  | deferPendingAuthorizationDelivery (id : TransferId) (next : Millis)
  | clearPendingCompletion (id : TransferId)
  | deferPendingCompletion (id : TransferId) (next : Millis)
  | clearPendingPayloadRelease (id : TransferId)
  | clearAuthorization (id : TransferId)
  | transitionTerminal (id : TransferId) (dst : TargetedTransferState) (clearAuthorization : Bool)
  deriving DecidableEq

/-- The flag is what the function returns; a statement without one returns `true`. -/
def Write.run (s : Store) (now : Millis) : Write → Except VnidropError (Bool × Store)
  | .insert row => (s.insert row).map (true,·)
  | .abandonSenderPreapproval id => .ok (s.abandonSenderPreapproval id)
  | .setState id src dst => (s.setState id src dst now).map (true,·)
  | .updateState id src dst => (s.updateState id src dst now).map (true,·)
  | .markSenderCompleted id => s.markSenderCompleted id now
  | .finalizeSenderAuthorization id blobTicket handle =>
    (s.finalizeSenderAuthorizationAndEnqueue id blobTicket handle now).map (true,·)
  | .persistAcceptedOfferIntent offer => (s.persistAcceptedOfferIntent offer now).map (true,·)
  | .persistReceiverAuthorization auth handle =>
    (s.persistReceiverAuthorizationAndConsumeIntent auth handle now).map (true,·)
  | .clearAcceptedOfferIntent id => .ok (true,s.clearAcceptedOfferIntent id)
  | .clearAcceptedIntentIfSender id sender => .ok (true,s.clearAcceptedIntentIfSender id sender)
  | .cancelByPeer peer => .ok (true,s.cancelByPeer peer now)
  | .completeReceiver id bytes => (s.completeReceiverAndEnqueue id bytes now).map (true,·)
  | .advanceVerifiedBytes id bytes => .ok (s.advanceVerifiedBytes id bytes now)
  | .clearPendingAuthorizationDelivery id => .ok (true,s.clearPendingAuthorizationDelivery id)
  | .deferPendingAuthorizationDelivery id next =>
    .ok (true,s.deferPendingAuthorizationDelivery id next)
  | .clearPendingCompletion id => .ok (true,s.clearPendingCompletion id)
  | .deferPendingCompletion id next => .ok (true,s.deferPendingCompletion id next)
  | .clearPendingPayloadRelease id => .ok (true,s.clearPendingPayloadRelease id)
  | .clearAuthorization id => .ok (true,s.clearAuthorization id)
  | .transitionTerminal id dst clear => s.transitionTerminal id dst clear now

structure Device where
  store : Store
  inbox : Inbox
  /-- Protected secret material, and the handles given out so far. -/
  custody : Handle → Option Text
  handles : List Handle
  /-- `hash_to_transfer`: the protocol identifiers that own a hash. -/
  hashes : Text → List Nat
  policy : AccessPolicy
  tags : TransferId → Option Text
  active : TransferId → Bool
  /-- Identifiers drawn for new transfers, and those registered with a preparation. -/
  drawn : List TransferId
  registered : List TransferId
  /-- Requests made to, and answers given to, a peer. -/
  sent : List (EndpointId × Request)
  answers : List (EndpointId × Request × Response)

/-- A check whose outcome is not a matter of the targeted state. -/
inductive Question where
  | coolingDown
  | validTransferName
  | relayCompatible
  | possessionVerified
  | relationshipSaved
  | invitationCollision
  | registrationStopped
  | peerReachable
  | challengeAnswered
  | possessionProved
  | authorizationIssued
  deriving DecidableEq, Repr

inductive Op where
  | ask (q : Question)
  | getRow (id : TransferId)
  | write (w : Write)
  | pendingCompletion
  | pendingAuthorizationDelivery
  | completedSenderRows
  | idsForPeer (peer : EndpointId)
  | protect (auth : TargetedAuthorization)
  | load (handle : Handle)
  | remove (handle : Handle)
  | generateSecret
  | drawTransferId
  | registered (id : TransferId)
  | setTag (id : TransferId) (hash : Text)
  | deleteTag (id : TransferId)
  | registerShareHashes (protocolId : Nat) (hashes : List Text)
  | unregisterTransferHashes (protocolId : Nat)
  | setMode (protocolId : Nat)
  | approveEndpoint (protocolId : Nat) (endpoint : EndpointId)
  | removeMode (protocolId : Nat)
  | removeSessions (protocolId : Nat)
  | activate (id : TransferId)
  | deactivate (id : TransferId)
  | settled (id : TransferId)
  | examine (offer : PendingTargetedOffer)
  | enqueue (offer : PendingTargetedOffer)
  | openDecision (id : TransferId)
  | subscribe (id : TransferId)
  | awaitDecision (channel : Channel)
  | getPending (id : TransferId)
  | pendingFrom (peer : EndpointId)
  | dropPending (id : TransferId)
  | dropDecision (id : TransferId)
  | dropAuth (id : TransferId)
  | decisionOf (id : TransferId)
  | sendDecision (channel : Channel) (decision : Bool)
  | openAuth (id : TransferId)
  | subscribeAuth (id : TransferId)
  | awaitAuth (channel : Channel)
  | leaveAuth (channel : Channel)
  | sendAuthorization (id : TransferId) (auth : TargetedAuthorization)
  | settle (id : TransferId) (result : SettledOfferResult)
  | download
  | now
  | send (peer : EndpointId) (request : Request)
  | await (peer : EndpointId) (request : Request)
  | answer (peer : EndpointId) (request : Request) (response : Response)
  | stopped (id : TransferId) (outcome : TargetedPreparationStopOutcome)
  deriving DecidableEq

/-- A download reports verified bytes on its way, and ends well or not. -/
structure Download where
  progress : List Nat
  succeeded : Bool
  deriving DecidableEq, Repr

abbrev Ans : Op → Type
  | .ask _ => Bool
  | .getRow _ => Except VnidropError (Option TargetedTransferRow)
  | .write _ => Except VnidropError Bool
  | .pendingCompletion | .pendingAuthorizationDelivery => Option TargetedTransferRow
  | .completedSenderRows => List TargetedTransferRow
  | .idsForPeer _ => Except VnidropError (List TransferId)
  | .protect _ => Option Handle
  | .load _ => Option Text
  | .remove _ | .deleteTag _ | .setTag .. => Bool
  | .generateSecret => Text
  | .drawTransferId => TransferId
  | .activate _ => Bool
  | .settled _ => Option SettledOfferResult
  | .examine _ | .enqueue _ => Admission
  | .subscribe _ => Except TargetedOfferDecision Channel
  | .awaitDecision _ => Waited Bool
  | .getPending _ => Option PendingTargetedOffer
  | .pendingFrom _ => List TransferId
  | .decisionOf _ | .subscribeAuth _ => Option Channel
  | .openAuth _ => Channel
  | .sendDecision .. => Bool
  | .awaitAuth _ => Waited TargetedAuthorization
  | .sendAuthorization .. => Bool
  | .download => Download
  | .now => Millis
  | .await .. => Option Response
  | _ => Unit

structure Choice where
  now : Millis
  fails : Bool
  flag : Bool
  number : Nat
  response : Option Response
  download : Download
  deriving DecidableEq

abbrev Task (α : Type) := Prog Op Ans α

namespace Store

/-- A row of `list_pending_completions`; the choice says which is the first. -/
def pendingCompletion (s : Store) (id : TransferId) (now : Millis) : Option TargetedTransferRow :=
  (s.getRow id).filter fun r => r.role = .receiver && r.state = .completed &&
    (s.completion.find id).any (·.nextAttemptAt ≤ now)

/-- A row of `list_pending_authorization_deliveries`. -/
def pendingAuthorizationDelivery (s : Store) (id : TransferId) (now : Millis) :
    Option TargetedTransferRow :=
  (s.getRow id).filter fun r => r.role = .sender && r.state = .approved &&
    (s.authorizationDelivery.find id).any (·.nextAttemptAt ≤ now)

def completedSenderRows (s : Store) : List TargetedTransferRow :=
  s.transfers.rows.filter fun r => r.role = .sender && r.state = .completed &&
    (s.payloadRelease.find r.id).isSome

def idsForPeer (s : Store) (peer : EndpointId) : List TransferId :=
  (s.transfers.rows.filter (withPeer peer)).map (·.id)

end Store

namespace Device

def unavailable : VnidropError := .repository "database is unavailable"

def setInbox (s : Device) (inbox : Inbox) : Device := { s with inbox }

def setPolicy (s : Device) (policy : AccessPolicy) : Device := { s with policy }

def registerShareHashes (s : Device) (protocolId : Nat) (hashes : List Text) : Device :=
  { s with hashes := fun h =>
      if h ∈ hashes ∧ protocolId ∉ s.hashes h then protocolId :: s.hashes h else s.hashes h }

def unregisterTransferHashes (s : Device) (protocolId : Nat) : Device :=
  { s with hashes := fun h => (s.hashes h).filter (· != protocolId) }

def setTag (s : Device) (id : TransferId) (hash : Option Text) : Device :=
  { s with tags := Function.update s.tags id hash }

def setActive (s : Device) (id : TransferId) (active : Bool) : Device :=
  { s with active := Function.update s.active id active }

def keep (s : Device) (handle : Handle) (material : Option Text) : Device :=
  { s with custody := Function.update s.custody handle material }

/-- A waiter sees the value of its channel; without one it leaves when every sender is
gone or its time is up. -/
def waited {α : Type} (value : Option α) (registered elapsed : Bool) : Option (Waited α) :=
  match value with
  | some a => some (.value a)
  | none => if elapsed then some .elapsed else if registered then none else some .closed

/-- One operation under a choice; `none` when it cannot be taken that way. -/
def exec (l : Local) (s : Device) (c : Choice) : (op : Op) → Option (Ans op × Device)
  | .ask _ => some (c.flag,s)
  | .getRow id => some (if c.fails then .error unavailable else .ok (s.store.getRow id),s)
  | .write w =>
    if c.fails then some (.error unavailable,s)
    else match w.run s.store c.now with
      | .ok (changed,store) => some (.ok changed,{ s with store })
      | .error e => some (.error e,s)
  | .pendingCompletion => some (s.store.pendingCompletion c.number c.now,s)
  | .pendingAuthorizationDelivery => some (s.store.pendingAuthorizationDelivery c.number c.now,s)
  | .completedSenderRows => some (if c.fails then [] else s.store.completedSenderRows,s)
  | .idsForPeer peer => some (if c.fails then .error unavailable else .ok (s.store.idsForPeer peer),s)
  | .protect auth =>
    if c.fails then some (none,s)
    -- a handle is a fresh random name
    else if c.number ∈ s.handles then none
    else some (some c.number,{ s.keep c.number auth.authSecret with handles := c.number :: s.handles })
  | .load handle => some (if c.fails then none else s.custody handle,s)
  | .remove handle => if c.fails then some (false,s) else some (true,s.keep handle none)
  | .generateSecret => some (c.number,s)
  | .drawTransferId =>
    -- a fresh UUID with a fresh digest, drawn again while a row has that protocol identifier
    if l.allocateProtocolTransferId c.number ∈ s.drawn.map l.allocateProtocolTransferId ∨
      s.store.transfers.affects (fun r =>
        r.protocolTransferId = l.allocateProtocolTransferId c.number) then none
    else some (c.number,{ s with drawn := c.number :: s.drawn })
  | .registered id => some ((),{ s with registered := id :: s.registered })
  | .setTag id hash => if c.fails then some (false,s) else some (true,s.setTag id (some hash))
  | .deleteTag id => if c.fails then some (false,s) else some (true,s.setTag id none)
  | .registerShareHashes protocolId hashes => some ((),s.registerShareHashes protocolId hashes)
  | .unregisterTransferHashes protocolId => some ((),s.unregisterTransferHashes protocolId)
  | .setMode protocolId => some ((),s.setPolicy (s.policy.setMode protocolId .approvalRequired))
  | .approveEndpoint protocolId endpoint =>
    some ((),s.setPolicy (s.policy.approveEndpointUntil protocolId endpoint none))
  | .removeMode protocolId => some ((),s.setPolicy (s.policy.removeMode protocolId))
  | .removeSessions protocolId => some ((),s.setPolicy (s.policy.removeSessions protocolId))
  | .activate id => if s.active id then some (false,s) else some (true,s.setActive id true)
  | .deactivate id => some ((),s.setActive id false)
  | .settled id => some (s.inbox.settled id,s)
  | .examine offer => some (s.inbox.examine l.maxPending offer,s)
  | .enqueue offer =>
    let (admission,inbox) := s.inbox.enqueue l.maxPending offer
    some (admission,s.setInbox inbox)
  | .openDecision id => some ((),s.setInbox (s.inbox.openDecision id))
  | .subscribe id => some (s.inbox.subscribe id,s)
  | .awaitDecision channel =>
    (waited (s.inbox.decided channel) (s.inbox.decisions channel.transferId = some channel) c.flag).map
      (·,s)
  | .getPending id => some (s.inbox.getPending id,s)
  | .pendingFrom peer => some ((s.inbox.pending.rows.filter (·.senderEndpointId = peer)).map
      (·.transferId),s)
  | .dropPending id => some ((),s.setInbox (s.inbox.dropPending id))
  | .dropDecision id => some ((),s.setInbox (s.inbox.dropDecision id))
  | .dropAuth id => some ((),s.setInbox (s.inbox.dropAuth id))
  | .decisionOf id => some (s.inbox.decisions id,s)
  | .sendDecision channel decision =>
    -- fails when the waiters are gone
    if c.fails then some (false,s) else some (true,s.setInbox (s.inbox.sendDecision channel decision))
  | .openAuth id =>
    let (channel,inbox) := s.inbox.openAuth id
    some (channel,s.setInbox inbox)
  | .subscribeAuth id =>
    match s.inbox.auths id with
    | some channel => some (some channel,s.setInbox (s.inbox.listen channel (· + 1)))
    | none => some (none,s)
  | .awaitAuth channel =>
    (waited (s.inbox.delivered channel) (s.inbox.auths channel.transferId = some channel) c.flag).map
      (·,s)
  | .leaveAuth channel => some ((),s.setInbox (s.inbox.listen channel (· - 1)))
  | .sendAuthorization id auth =>
    let (sent,inbox) := s.inbox.sendAuthorization id auth
    some (sent,s.setInbox inbox)
  | .settle id result => some ((),s.setInbox (s.inbox.settle id result))
  | .download => some (c.download,s)
  | .now => some (c.now,s)
  | .send peer request => some ((),{ s with sent := (peer,request) :: s.sent })
  | .await _ _ => some (c.response,s)
  | .answer peer request response =>
    some ((),{ s with answers := (peer,request,response) :: s.answers })
  | .stopped _ _ => some ((),s)

/-- The operations that look at the device, or at the outside, and change nothing. -/
def reads : Op → Bool
  | .ask _ | .getRow _ | .pendingCompletion | .pendingAuthorizationDelivery => true
  | .completedSenderRows | .idsForPeer _ | .load _ | .generateSecret | .settled _ => true
  | .examine _ | .subscribe _ | .awaitDecision _ | .getPending _ | .pendingFrom _ => true
  | .decisionOf _ | .awaitAuth _ | .download | .now | .await .. | .stopped .. => true
  | _ => false

theorem exec_reads {l : Local} {s u : Device} {c : Choice} {op : Op} {r : Ans op}
    (read : reads op = true) (h : s.exec l c op = some (r,u)) : u = s := by
  cases op <;> try cases read
  case awaitDecision | awaitAuth =>
    obtain ⟨_,_,same⟩ := Option.map_eq_some_iff.mp h
    exact (Prod.mk.inj same).2.symm
  all_goals exact (Prod.mk.inj (Option.some.inj h)).2.symm

/-- A statement that fails leaves the store, and one that runs replaces it. -/
theorem exec_write {l : Local} {s u : Device} {c : Choice} {w : Write} {r : Ans (.write w)}
    (h : s.exec l c (.write w) = some (r,u)) :
    ((∃ e, r = .error e) ∧ u = s) ∨
    ∃ changed store, w.run s.store c.now = .ok (changed,store) ∧ r = .ok changed ∧
      u = { s with store } := by
  simp only [exec] at h
  split at h
  · cases h; exact .inl ⟨⟨_,rfl⟩,rfl⟩
  · split at h
    · rename_i changed store ran
      cases h
      exact .inr ⟨changed,store,ran,rfl,rfl⟩
    · cases h; exact .inl ⟨⟨_,rfl⟩,rfl⟩

theorem exec_getRow {l : Local} {s u : Device} {c : Choice} {id : TransferId}
    {row : Option TargetedTransferRow} (h : s.exec l c (.getRow id) = some (.ok row,u)) :
    s.store.getRow id = row := by
  have answer : (if c.fails then .error unavailable else .ok (s.store.getRow id)) = Except.ok row :=
    (Prod.mk.inj (Option.some.inj h)).1
  split at answer
  · cases answer
  · exact Except.ok.inj answer

theorem exec_idsForPeer {l : Local} {s u : Device} {c : Choice} {peer : EndpointId}
    {ids : List TransferId} (h : s.exec l c (.idsForPeer peer) = some (.ok ids,u)) :
    ids = s.store.idsForPeer peer := by
  have answer : (if c.fails then .error unavailable else .ok (s.store.idsForPeer peer)) =
      Except.ok ids := (Prod.mk.inj (Option.some.inj h)).1
  split at answer
  · cases answer
  · exact (Except.ok.inj answer).symm

end Device

end Vnidrop.Targeted
