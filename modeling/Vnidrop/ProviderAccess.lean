import Vnidrop.AccessPolicy
import Vnidrop.Threads
import Vnidrop.TransferState

/-! The provider's access maps and the calls that update them: publication of a
share, its cancellation, stop and deletion, mode changes and approvals. A step
is one critical section or one statement; the `active_shares` guard is explicit. -/
namespace Vnidrop.Shares

open Access Threads

abbrev Hash := Nat
abbrev ConnectionId := Nat

/-- `APPROVAL_SESSION_TTL_MS`; the handshake uses the same lifetime. -/
def approvalSessionTtl : Millis := 10 * 60 * 1000

structure Provider where
  hashes : Hash → List TransferId
  policy : AccessPolicy
  connections : ConnectionId → Option EndpointId
  /-- The `send` rows of `transfers`. -/
  rows : TransferId → Option TransferStatus
  /-- The call that imports a share, and whether its cancel signal was sent. -/
  activeTransfers : TransferId → Option Nat
  signalled : Nat → Bool
  activeShares : TransferId → Bool
  /-- The call holding the guard of `active_shares`. -/
  lock : Option Nat
  /-- History: the share being registered under the guard, how many shares have used
  an id, which of them each session was granted for, and which of them have ended. -/
  publishing : Option TransferId
  share : TransferId → Nat
  grantedFor : TransferId → EndpointId → Nat
  ended : List (TransferId × Nat)

/-! Requests. -/

/-- `allow_any_transfer`: the first owner that allows, else the last refusal. -/
def allowAnyTransfer (p : AccessPolicy) (endpoint : Option EndpointId) (now : Millis) :
    List TransferId → String → Except String TransferId × AccessPolicy
  | [], lastReason => (.error lastReason,p)
  | id :: ids, _ =>
    match p.decide id endpoint now with
    | (.allow,p') => (.ok id,p')
    | (.deny reason,p') => allowAnyTransfer p' endpoint now ids reason

def authorizeHash (s : Provider) (p : AccessPolicy) (hash : Hash) (conn : ConnectionId)
    (now : Millis) : Except String TransferId × AccessPolicy :=
  if s.hashes hash = [] then (.error "unknown-hash",p)
  else allowAnyTransfer p (s.connections conn) now (s.hashes hash) "approval-required"

def authorizeEach (s : Provider) (conn : ConnectionId) (now : Millis) :
    AccessPolicy → List Hash → Option TransferId → Except String TransferId × AccessPolicy
  | p, [], attributed =>
    match attributed with
    | some id => (.ok id,p)
    | none => (.error "empty-request",p)
  | p, hash :: hashes, attributed =>
    match authorizeHash s p hash conn now with
    | (.error reason,p') => (.error reason,p')
    | (.ok id,p') => authorizeEach s conn now p' hashes (attributed.or (some id))

/-- Get, get-many and observe requests all come down to this decision. -/
def authorizeHashes (s : Provider) (hashes : List Hash) (conn : ConnectionId) (now : Millis) :
    Except String TransferId × AccessPolicy :=
  authorizeEach s conn now s.policy hashes none

/-! Calls. -/

/-- The three ways a share ends. -/
inductive Removal where
  | preparation
  | stop
  | delete
  deriving DecidableEq, Repr

inductive Call where
  /- `share_files` -/
  | share (id : TransferId) (mode : TransferAccessMode) (files : List Hash)
  | shareActivate (id : TransferId) (mode : TransferAccessMode) (files : List Hash)
  | shareImport (id : TransferId) (mode : TransferAccessMode) (files : List Hash)
  | shareLock (id : TransferId) (mode : TransferAccessMode) (files : List Hash)
  | shareCommit (id : TransferId) (mode : TransferAccessMode) (files : List Hash)
  | shareRegister (id : TransferId) (mode : TransferAccessMode) (files : List Hash)
  | shareSetMode (id : TransferId) (mode : TransferAccessMode)
  | shareFinish (id : TransferId)
  | shareReturn (id : TransferId)
  | shareFailed (id : TransferId)
  | shareFailedStatus (id : TransferId)
  | shareCancelled (id : TransferId)
  /- `cancel_transfer`, `cancel_share_preparation`, `cancel_idle_or_share`, `delete_transfer` -/
  | cancel (id : TransferId)
  | prepareLock (id : TransferId)
  | prepareCancel (id : TransferId)
  | prepareRemove (id : TransferId) (share : Nat)
  | stopLock (id : TransferId)
  | stopStatus (id : TransferId)
  | stopRemove (id : TransferId) (share : Nat)
  | delete (id : TransferId)
  | deleteList (id : TransferId)
  | deleteStatus (id : TransferId)
  | deleteRemove (id : TransferId)
  | unregister (by_ : Removal) (id : TransferId) (share : Nat)
  | removeMode (by_ : Removal) (id : TransferId) (share : Nat)
  | removeSessions (by_ : Removal) (id : TransferId) (share : Nat)
  | releaseTag (by_ : Removal) (id : TransferId) (share : Nat)
  | deleteRow (id : TransferId)
  /- `set_transfer_access_mode`, `approve_endpoint_for_transfer` -/
  | setMode (id : TransferId) (mode : TransferAccessMode)
  | setModeWrite (id : TransferId) (mode : TransferAccessMode)
  | approve (id : TransferId) (endpoint : EndpointId)
  | approveWrite (id : TransferId) (endpoint : EndpointId) (share : Nat)
  /- `request_transfer` and `wait_for_sender_decision` -/
  | handshake (id : TransferId) (endpoint : EndpointId)
  | handshakeDecide (id : TransferId) (endpoint : EndpointId) (share : Nat)
  | handshakeWait (id : TransferId) (endpoint : EndpointId) (share : Nat)
  | returned
  deriving DecidableEq, Repr

/-- What the surroundings decide at a step: the clock, a failing statement or import,
whether a waiting call observes its cancel signal, and the user's answer. -/
structure Choice where
  now : Millis
  fails : Bool
  observesCancel : Bool
  accepted : Bool
  deriving DecidableEq, Repr

namespace Provider

def setRow (s : Provider) (id : TransferId) (row : Option TransferStatus) : Provider :=
  { s with rows := Function.update s.rows id row }

def setActive (s : Provider) (id : TransferId) (call : Option Nat) : Provider :=
  { s with activeTransfers := Function.update s.activeTransfers id call }

def setShare (s : Provider) (id : TransferId) (live : Bool) : Provider :=
  { s with activeShares := Function.update s.activeShares id live }

def setPolicy (s : Provider) (p : AccessPolicy) : Provider := { s with policy := p }

def acquire (s : Provider) (i : Nat) : Provider := { s with lock := some i }

def release (s : Provider) : Provider := { s with lock := none, publishing := none }

/-- `insert_transfer` opens the next share under its id. -/
def insertTransfer (s : Provider) (id : TransferId) : Provider :=
  { s.setRow id (some .importing) with share := Function.update s.share id (s.share id + 1) }

/-- `complete_share_import`. -/
def completeShareImport (s : Provider) (id : TransferId) : Provider :=
  { s.setRow id (some .sharing) with publishing := some id }

def registerShareHashes (s : Provider) (id : TransferId) (files : List Hash) : Provider :=
  { s with hashes := fun h => if h ∈ files ∧ id ∉ s.hashes h then id :: s.hashes h else s.hashes h }

def unregisterTransferHashes (s : Provider) (id : TransferId) : Provider :=
  { s with hashes := fun h => (s.hashes h).filter (· != id) }

def grant (s : Provider) (id : TransferId) (endpoint : EndpointId) (share : Nat) (now : Millis) :
    Provider :=
  { s with
    policy := s.policy.approveEndpointUntil id endpoint (some (now + approvalSessionTtl))
    grantedFor := Function.update s.grantedFor id
      (Function.update (s.grantedFor id) endpoint share) }

def finishRemoval (s : Provider) (id : TransferId) (share : Nat) : Provider :=
  { s with ended := (id,share) :: s.ended }

/-- The status `cancel_share_preparation` leaves, when it finds the share. -/
def cancelPreparationStatus : Option TransferStatus → Option TransferStatus
  | some .importing => some .cancelled
  | some .sharing => some .stopped
  | some .cancelled => some .cancelled
  | some .stopped => some .stopped
  | some .failed => some .failed
  | _ => none

/-- Whether the dropped publication future holds the guard. -/
def abandon (s : Provider) (i : Nat) : Provider := if s.lock = some i then s.release else s

def stepShare (s : Provider) (i : Nat) (c : Choice) : Call → Option (Provider × Call)
  | .share id mode files =>
    if c.fails ∨ s.rows id ≠ none then some (s,.returned)
    else some (s.insertTransfer id,.shareActivate id mode files)
  | .shareActivate id mode files => some (s.setActive id (some i),.shareImport id mode files)
  | .shareImport id mode files =>
    if c.fails then some (s,.shareFailed id) else some (s,.shareLock id mode files)
  | .shareLock id mode files =>
    if s.lock = none then some (s.acquire i,.shareCommit id mode files) else none
  | .shareCommit id mode files =>
    if c.fails ∨ s.rows id ≠ some .importing then some (s.release,.shareFailed id)
    else some (s.completeShareImport id,.shareRegister id mode files)
  | .shareRegister id mode files => some (s.registerShareHashes id files,.shareSetMode id mode)
  | .shareSetMode id mode => some (s.setPolicy (s.policy.setMode id mode),.shareFinish id)
  | .shareFinish id => some ((s.setShare id true).release,.shareReturn id)
  | .shareReturn id => some (s.setActive id none,.returned)
  | .shareFailed id => some (s.setActive id none,.shareFailedStatus id)
  | .shareFailedStatus id =>
    match transitionTransferStatus (s.rows id) .importing .failed with
    | .ok row => if c.fails then some (s,.returned) else some (s.setRow id row,.returned)
    | .error _ => some (s,.returned)
  | .shareCancelled id => some (s.setActive id none,.prepareLock id)
  | _ => none

/-- The points of `share_files_inner` at which the enclosing `select!` can drop it. -/
def Call.droppable : Call → Option TransferId
  | .shareImport id _ _ | .shareLock id _ _ | .shareCommit id _ _ | .shareRegister id _ _ => some id
  | .shareSetMode id _ => some id
  | _ => none

def stepRemoval (s : Provider) (i : Nat) (c : Choice) : Call → Option (Provider × Call)
  | .cancel id =>
    match s.activeTransfers id with
    | some call =>
      some ({ s.setActive id none with signalled := Function.update s.signalled call true },
        .prepareLock id)
    | none => some (s,.stopLock id)
  | .prepareLock id => if s.lock = none then some (s.acquire i,.prepareCancel id) else none
  | .prepareCancel id =>
    match cancelPreparationStatus (s.rows id) with
    | some status =>
      if c.fails then some (s.release,.returned)
      else some (s.setRow id (some status),.prepareRemove id (s.share id))
    | none => some (s.release,.returned)
  | .prepareRemove id share => some (s.setShare id false,.unregister .preparation id share)
  | .stopLock id =>
    if s.lock = none then
      if s.activeShares id then some (s.acquire i,.stopStatus id) else some (s,.returned)
    else none
  | .stopStatus id =>
    match transitionTransferStatus (s.rows id) .sharing .stopped with
    | .ok row =>
      if c.fails then some (s.release,.returned)
      else some (s.setRow id row,.stopRemove id (s.share id))
    | .error _ => some (s.release,.returned)
  | .stopRemove id share => some ((s.setShare id false).release,.unregister .stop id share)
  | .delete id => if (s.activeTransfers id).isSome then some (s,.returned) else some (s,.deleteList id)
  | .deleteList id =>
    match s.rows id with
    | none => some (s,.returned)
    | some .sharing => some (s,.deleteStatus id)
    | some _ => some (s,.deleteRemove id)
  | .deleteStatus id =>
    match transitionTransferStatus (s.rows id) .sharing .stopped with
    | .ok row => if c.fails then some (s,.returned) else some (s.setRow id row,.deleteRemove id)
    | .error _ => some (s,.returned)
  | .deleteRemove id =>
    if s.lock = none then some (s.setShare id false,.unregister .delete id (s.share id)) else none
  | .unregister by_ id share => some (s.unregisterTransferHashes id,.removeMode by_ id share)
  | .removeMode by_ id share =>
    some (s.setPolicy (s.policy.removeMode id),.removeSessions by_ id share)
  | .removeSessions by_ id share =>
    some (s.setPolicy (s.policy.removeSessions id),.releaseTag by_ id share)
  | .releaseTag .preparation id share =>
    if c.fails then some (s.release,.returned) else some ((s.finishRemoval id share).release,.returned)
  | .releaseTag .stop id share =>
    if c.fails then some (s,.returned) else some (s.finishRemoval id share,.returned)
  | .releaseTag .delete id _ => if c.fails then some (s,.returned) else some (s,.deleteRow id)
  | .deleteRow id =>
    if c.fails ∨ s.rows id = none then some (s,.returned)
    else some ((s.setRow id none).finishRemoval id (s.share id),.returned)
  | _ => none

def stepAccess (s : Provider) (c : Choice) : Call → Option (Provider × Call)
  | .setMode id mode =>
    if c.fails ∨ s.rows id ≠ some .sharing then some (s,.returned) else some (s,.setModeWrite id mode)
  | .setModeWrite id mode => some (s.setPolicy (s.policy.setMode id mode),.returned)
  | .approve id endpoint =>
    if s.lock = none then
      if s.activeShares id then some (s,.approveWrite id endpoint (s.share id)) else some (s,.returned)
    else none
  | .approveWrite id endpoint share => some (s.grant id endpoint share c.now,.returned)
  | .handshake id endpoint =>
    if c.fails ∨ s.rows id ≠ some .sharing then some (s,.returned)
    else some (s,.handshakeDecide id endpoint (s.share id))
  | .handshakeDecide id endpoint share =>
    match s.policy.decide id (some endpoint) c.now with
    | (.allow,p) => some (s.setPolicy p,.returned)
    | (.deny _,p) => some (s.setPolicy p,.handshakeWait id endpoint share)
  | .handshakeWait id endpoint share =>
    if c.accepted then some (s.grant id endpoint share c.now,.returned) else some (s,.returned)
  | _ => none

def stepCall (s : Provider) (i : Nat) (call : Call) (c : Choice) : Option (Provider × Call) :=
  match Call.droppable call with
  | some id =>
    if c.observesCancel ∧ s.signalled i then some (s.abandon i,.shareCancelled id)
    else s.stepShare i c call
  | none => (s.stepShare i c call).or ((s.stepRemoval i c call).or (s.stepAccess c call))

def begins : Call → Bool
  | .share .. | .cancel _ | .delete _ | .setMode .. | .approve .. | .handshake .. => true
  | _ => false

/-- A connection appears or closes, or a request's decision drops an expired session. -/
inductive Env where
  | connect (conn : ConnectionId) (endpoint : Option EndpointId)
  | decide (id : TransferId) (endpoint : Option EndpointId) (now : Millis)
  deriving DecidableEq

def stepEnv (s : Provider) : Env → Provider
  | .connect conn endpoint => { s with connections := Function.update s.connections conn endpoint }
  | .decide id endpoint now => s.setPolicy (s.policy.decide id endpoint now).2

/-- A started process: exactly the restored shares are registered and have a mode, and
there are no sessions. -/
structure Restored (s : Provider) : Prop where
  owners : ∀ id h, id ∈ s.hashes h → s.activeShares id = true
  modes : ∀ id, s.policy.modes id ≠ none → s.activeShares id = true
  sessions : ∀ id e, s.policy.sessions id e = none
  shared : ∀ id, s.activeShares id = true → s.rows id = some .sharing
  idle : s.lock = none ∧ s.publishing = none ∧ s.ended = []

end Provider

def machine : Machine Provider Call Choice Provider.Env where
  init := Provider.Restored
  entry _ call := Provider.begins call
  step s i call c := s.stepCall i call c
  env s e := some (s.stepEnv e)

end Vnidrop.Shares
