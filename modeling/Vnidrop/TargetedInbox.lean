import Mathlib.Logic.Function.Basic
import Vnidrop.Tables
import Vnidrop.TargetedState

/-! The live inbox of unapproved offers. Each function is one critical section, under
the lock of one of its maps; what a call does between two of them is in the calls. -/
namespace Vnidrop.Targeted

open Tables

inductive TargetedOfferDecision where
  | accepted
  | declined (reason : String)
  | refused (reason : String)
  deriving DecidableEq, Repr

inductive SettledOfferResult where
  | accepted (authorization : Option TargetedAuthorization)
  | declined (reason : String)
  deriving DecidableEq, Repr

def settledToDecision : SettledOfferResult → TargetedOfferDecision
  | .accepted _ => .accepted
  | .declined reason => .declined reason

inductive RespondError where
  | unknown
  | senderGone
  | authorizationTimeout
  deriving DecidableEq, Repr

/-- A watch channel: the transfer it was opened for, and its number. -/
structure Channel where
  transferId : TransferId
  number : Nat
  deriving DecidableEq, Repr

/-- The four maps, and the watch channels: what they hold, and how many receivers an
authorization channel has. A waiter keeps its channel when the map entry is gone. -/
structure Inbox where
  pending : Table PendingTargetedOffer.transferId
  decisions : TransferId → Option Channel
  auths : TransferId → Option Channel
  settled : TransferId → Option SettledOfferResult
  decided : Channel → Option Bool
  delivered : Channel → Option TargetedAuthorization
  listeners : Channel → Nat
  opened : Nat

def offersEquivalent (left right : PendingTargetedOffer) : Bool :=
  left.transferId = right.transferId && left.senderEndpointId = right.senderEndpointId &&
  left.receiverEndpointId = right.receiverEndpointId && left.manifestId = right.manifestId &&
  left.contentHash = right.contentHash && left.transferName = right.transferName &&
  left.fileCount = right.fileCount && left.totalSize = right.totalSize &&
  left.protocolVersion = right.protocolVersion

/-- What a look at the pending map tells a submitted offer. -/
inductive Admission where
  | join
  | refuse (reason : String)
  | enter
  deriving DecidableEq, Repr

namespace Inbox

def new : Inbox where
  pending := .empty
  decisions _ := none
  auths _ := none
  settled _ := none
  decided _ := none
  delivered _ := none
  listeners _ := 0
  opened := 0

def getPending (b : Inbox) (id : TransferId) : Option PendingTargetedOffer := b.pending.find id

/-- Per-sender refusal before the global bound. -/
def room (b : Inbox) (maxPending : Nat) (offer : PendingTargetedOffer) : Admission :=
  if b.pending.affects fun p => p.senderEndpointId = offer.senderEndpointId then
    .refuse "offer-already-pending"
  else if maxPending ≤ b.pending.rows.length then .refuse "too-many-pending-offers"
  else .enter

/-- The first look of `submit`. -/
def examine (b : Inbox) (maxPending : Nat) (offer : PendingTargetedOffer) : Admission :=
  match b.getPending offer.transferId with
  | some existing =>
    if offersEquivalent existing offer then .join else .refuse "immutable-transfer-mismatch"
  | none => b.room maxPending offer

/-- The second look, under the lock that inserts: an entry of the same id is joined. -/
def enqueue (b : Inbox) (maxPending : Nat) (offer : PendingTargetedOffer) : Admission × Inbox :=
  match b.getPending offer.transferId with
  | some _ => (.join,b)
  | none =>
    match b.room maxPending offer with
    | .enter => (.enter,{ b with pending := b.pending.insertOrIgnore offer })
    | other => (other,b)

/-- An offer that is admitted had no entry. -/
theorem enqueue_cases (b : Inbox) (maxPending : Nat) (offer : PendingTargetedOffer) :
    ((b.enqueue maxPending offer).2 = b ∧ (b.enqueue maxPending offer).1 ≠ .enter) ∨
    (b.getPending offer.transferId = none ∧ b.enqueue maxPending offer =
      (.enter,{ b with pending := b.pending.insertOrIgnore offer })) := by
  unfold enqueue
  split
  · exact .inl ⟨rfl,by simp⟩
  · rename_i absent
    split
    · exact .inr ⟨absent,rfl⟩
    · rename_i other
      exact .inl ⟨rfl,other⟩

def openDecision (b : Inbox) (id : TransferId) : Inbox :=
  { b with decisions := Function.update b.decisions id (some ⟨id,b.opened⟩)
           opened := b.opened + 1 }

def listen (b : Inbox) (channel : Channel) (more : Nat → Nat) : Inbox :=
  { b with listeners := Function.update b.listeners channel (more (b.listeners channel)) }

/-- `accept_live` registers a waiter and holds its first receiver. -/
def openAuth (b : Inbox) (id : TransferId) : Channel × Inbox :=
  let channel : Channel := ⟨id,b.opened⟩
  (channel,{ b.listen channel (· + 1) with
    auths := Function.update b.auths id (some channel)
    opened := b.opened + 1 })

/-- `wait_existing_decision` subscribes, or answers from the settled results. -/
def subscribe (b : Inbox) (id : TransferId) : Except TargetedOfferDecision Channel :=
  match b.decisions id with
  | some channel => .ok channel
  | none =>
    match b.settled id with
    | some settled => .error (settledToDecision settled)
    | none => .error (.declined "no-response")

def sendDecision (b : Inbox) (channel : Channel) (decision : Bool) : Inbox :=
  { b with decided := Function.update b.decided channel (some decision) }

def dropPending (b : Inbox) (id : TransferId) : Inbox :=
  { b with pending := b.pending.delete id }

/-- The second lock of `discard`: the waiter is removed and told no. -/
def dropDecision (b : Inbox) (id : TransferId) : Inbox :=
  match b.decisions id with
  | some channel => { b.sendDecision channel false with decisions := Function.update b.decisions id none }
  | none => b

def dropAuth (b : Inbox) (id : TransferId) : Inbox :=
  { b with auths := Function.update b.auths id none }

def settle (b : Inbox) (id : TransferId) (result : SettledOfferResult) : Inbox :=
  { b with settled := Function.update b.settled id (some result) }

/-- Sending on a watch channel without receivers fails and stores nothing. -/
def sendAuthorization (b : Inbox) (id : TransferId) (auth : TargetedAuthorization) : Bool × Inbox :=
  match b.auths id with
  | some channel =>
    if b.listeners channel = 0 then (false,b)
    else (true,{ b with delivered := Function.update b.delivered channel (some auth) })
  | none => (false,b)

def settledAuthorization (settled : Option SettledOfferResult) : Option TargetedAuthorization :=
  match settled with
  | some (.accepted (some auth)) => some auth
  | _ => none

end Inbox

/-- What a waiter of a watch channel sees. -/
inductive Waited (α : Type) where
  | value (a : α)
  | closed
  | elapsed
  deriving DecidableEq, Repr

end Vnidrop.Targeted
