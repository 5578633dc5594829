import Vnidrop.IdentityCooldown
import Vnidrop.TargetedDevice

/-! The live inbox by itself: the functions of `TargetedOfferInbox` over its four maps and the
cooldown, one operation for each critical section and each use of a watch channel. -/
namespace Vnidrop.OfferInbox

open Programs Targeted

structure Settings where
  maxPending : Nat
  cooldownMs : Int

structure State where
  inbox : Inbox
  cooldown : IdentityCooldown

inductive Op where
  | isCooling (identity : EndpointId)
  | clearStrikes (identity : EndpointId)
  | recordDecline (identity : EndpointId)
  | settled (id : TransferId)
  | examine (offer : PendingTargetedOffer)
  | enqueue (offer : PendingTargetedOffer)
  | openDecision (id : TransferId)
  | subscribe (id : TransferId)
  | awaitDecision (channel : Channel)
  | getPending (id : TransferId)
  | pendingFrom (endpoint : EndpointId)
  | dropPending (id : TransferId)
  | dropDecision (id : TransferId)
  | dropAuth (id : TransferId)
  | decisionOf (id : TransferId)
  | sendDecision (channel : Channel) (decision : Bool)
  | openAuth (id : TransferId)
  | subscribeAuth (id : TransferId)
  | awaitAuth (channel : Channel)
  | sendAuthorization (id : TransferId) (auth : TargetedAuthorization)
  | settle (id : TransferId) (result : SettledOfferResult)
  /-- A receiver is dropped. -/
  | leave (channel : Channel)
  deriving DecidableEq

abbrev Ans : Op → Type
  | .isCooling _ | .sendDecision .. | .sendAuthorization .. => Bool
  | .settled _ => Option SettledOfferResult
  | .examine _ | .enqueue _ => Admission
  | .openDecision _ | .openAuth _ => Channel
  | .subscribe _ => Except TargetedOfferDecision Channel
  | .awaitDecision _ => Waited Bool
  | .getPending _ => Option PendingTargetedOffer
  | .pendingFrom _ => List TransferId
  | .decisionOf _ | .subscribeAuth _ => Option Channel
  | .awaitAuth _ => Waited TargetedAuthorization
  | _ => Unit

/-- The clock, and whether the time of a waiter is up. -/
structure Choice where
  now : Millis
  elapsed : Bool
  deriving DecidableEq

abbrev Task (α : Type) := Prog Op Ans α

def op (o : Op) : Task (Ans o) := Prog.perform o

def discard (id : TransferId) : Task Unit := do
  op (.dropPending id)
  op (.dropDecision id)
  op (.dropAuth id)

def waitExistingDecision (id : TransferId) : Task TargetedOfferDecision := do
  match ← op (.subscribe id) with
  | .error decision => return decision
  | .ok channel =>
    match ← op (.awaitDecision channel) with
    | .value true => do
      op (.leave channel)
      return .accepted
    | .value false | .closed => do
      discard id
      op (.leave channel)
      return .declined "receiver-declined"
    | .elapsed => do
      discard id
      op (.leave channel)
      return .declined "no-response"

def submit (offer : PendingTargetedOffer) : Task TargetedOfferDecision := do
  if ← op (.isCooling offer.senderEndpointId) then return .refused "identity-cooldown"
  else
    match ← op (.settled offer.transferId) with
    | some settled => return settledToDecision settled
    | none =>
      match ← op (.examine offer) with
      | .join => waitExistingDecision offer.transferId
      | .refuse reason => return .refused reason
      | .enter =>
        match ← op (.enqueue offer) with
        | .join => waitExistingDecision offer.transferId
        | .refuse reason => return .refused reason
        | .enter => do
          -- the receiver that the channel is made with lives to the end of the call
          let channel ← op (.openDecision offer.transferId)
          op (.clearStrikes offer.senderEndpointId)
          let decision ← waitExistingDecision offer.transferId
          op (.leave channel)
          return decision

def acceptLive (id : TransferId) : Task (Except RespondError Unit) := do
  match ← op (.decisionOf id) with
  | none => return .error .unknown
  | some decision =>
    let auth ← op (.openAuth id)
    if ← op (.sendDecision decision true) then do
      op (.leave auth)
      return .ok ()
    else do
      op (.dropAuth id)
      op (.leave auth)
      return .error .senderGone

def waitForAuthorization (id : TransferId) :
    Task (Except RespondError (Option TargetedAuthorization)) := do
  match Inbox.settledAuthorization (← op (.settled id)) with
  | some auth => return .ok (some auth)
  | none =>
    match ← op (.subscribeAuth id) with
    | none => return .error .unknown
    | some channel =>
      match ← op (.awaitAuth channel) with
      | .value auth => do
        op (.dropPending id)
        op (.dropAuth id)
        op (.settle id (.accepted (some auth)))
        op (.leave channel)
        return .ok (some auth)
      | _ => do
        op (.dropAuth id)
        op (.leave channel)
        return .error .authorizationTimeout

def respond (id : TransferId) (accepted : Bool) :
    Task (Except RespondError (Option TargetedAuthorization)) := do
  match Inbox.settledAuthorization (← op (.settled id)) with
  | some auth => return .ok (some auth)
  | none =>
    match ← op (.getPending id) with
    | none => return .error .unknown
    | some pending =>
      if accepted then
        match ← acceptLive id with
        | .error e => return .error e
        | .ok _ => waitForAuthorization id
      else
        match ← op (.decisionOf id) with
        | none => return .error .unknown
        | some decision => do
          let _ ← op (.sendDecision decision false)
          discard id
          op (.recordDecline pending.senderEndpointId)
          op (.settle id (.declined "receiver-declined"))
          return .ok none

def deliverAuthorization (id : TransferId) (auth : TargetedAuthorization) : Task Bool := do
  match Inbox.settledAuthorization (← op (.settled id)) with
  | some existing => return existing = auth
  | none => op (.sendAuthorization id auth)

def discardAll : List TransferId → Task Unit
  | [] => return ()
  | id :: ids => do
    discard id
    discardAll ids

def discardFrom (endpoint : EndpointId) : Task Unit := do
  let ids ← op (.pendingFrom endpoint)
  discardAll ids

inductive Call where
  | submit (offer : PendingTargetedOffer)
  | respond (id : TransferId) (accepted : Bool)
  | deliverAuthorization (id : TransferId) (auth : TargetedAuthorization)
  | discard (id : TransferId)
  | discardFrom (endpoint : EndpointId)
  deriving DecidableEq

def Call.body : Call → Task Unit
  | .submit offer => do
    let _ ← OfferInbox.submit offer
    return ()
  | .respond id accepted => do
    let _ ← OfferInbox.respond id accepted
    return ()
  | .deliverAuthorization id auth => do
    let _ ← OfferInbox.deliverAuthorization id auth
    return ()
  | .discard id => OfferInbox.discard id
  | .discardFrom endpoint => OfferInbox.discardFrom endpoint

namespace State

def new : State := ⟨.new,.new⟩

def setInbox (s : State) (inbox : Inbox) : State := { s with inbox }

/-- One operation; `none` while there is nothing to be received. -/
def exec (l : Settings) (s : State) (c : Choice) : (o : Op) → Option (Ans o × State)
  | .isCooling identity =>
    some (s.cooldown.isCooling c.now identity,{ s with cooldown := s.cooldown.prune c.now })
  | .clearStrikes identity => some ((),{ s with cooldown := s.cooldown.clearStrikes identity })
  | .recordDecline identity =>
    some ((),{ s with cooldown := s.cooldown.recordDecline l.cooldownMs c.now identity })
  | .settled id => some (s.inbox.settled id,s)
  | .examine offer => some (s.inbox.examine l.maxPending offer,s)
  | .enqueue offer =>
    let (admission,inbox) := s.inbox.enqueue l.maxPending offer
    some (admission,s.setInbox inbox)
  | .openDecision id =>
    let channel : Channel := ⟨id,s.inbox.opened⟩
    some (channel,s.setInbox ((s.inbox.openDecision id).listen channel (· + 1)))
  | .subscribe id =>
    match s.inbox.subscribe id with
    | .ok channel => some (.ok channel,s.setInbox (s.inbox.listen channel (· + 1)))
    | .error decision => some (.error decision,s)
  | .awaitDecision channel =>
    (Device.waited (s.inbox.decided channel) (s.inbox.decisions channel.transferId = some channel)
      c.elapsed).map (·,s)
  | .getPending id => some (s.inbox.getPending id,s)
  | .pendingFrom endpoint =>
    some ((s.inbox.pending.rows.filter (·.senderEndpointId = endpoint)).map (·.transferId),s)
  | .dropPending id => some ((),s.setInbox (s.inbox.dropPending id))
  | .dropDecision id => some ((),s.setInbox (s.inbox.dropDecision id))
  | .dropAuth id => some ((),s.setInbox (s.inbox.dropAuth id))
  | .decisionOf id => some (s.inbox.decisions id,s)
  | .sendDecision channel decision =>
    if s.inbox.listeners channel = 0 then some (false,s)
    else some (true,s.setInbox (s.inbox.sendDecision channel decision))
  | .openAuth id =>
    let (channel,inbox) := s.inbox.openAuth id
    some (channel,s.setInbox inbox)
  | .subscribeAuth id =>
    match s.inbox.auths id with
    | some channel => some (some channel,s.setInbox (s.inbox.listen channel (· + 1)))
    | none => some (none,s)
  | .awaitAuth channel =>
    (Device.waited (s.inbox.delivered channel) (s.inbox.auths channel.transferId = some channel)
      c.elapsed).map (·,s)
  | .sendAuthorization id auth =>
    let (sent,inbox) := s.inbox.sendAuthorization id auth
    some (sent,s.setInbox inbox)
  | .settle id result => some ((),s.setInbox (s.inbox.settle id result))
  | .leave channel => some ((),s.setInbox (s.inbox.listen channel (· - 1)))

end State

/-- Calls interleaved on one inbox, which starts empty. -/
def calls (l : Settings) : Machine State Call Op Ans Choice Empty where
  init s := s = .new
  admits _ _ := true
  body := Call.body
  exec s _ _ o c := s.exec l c o
  env _ e := nomatch e

end Vnidrop.OfferInbox
