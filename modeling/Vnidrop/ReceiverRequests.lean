import Vnidrop.Tables
import Vnidrop.TransferState

/-! The requests of receivers for an invitation transfer, `receiver_requests`, and the
statements that move one of them. -/
namespace Vnidrop.Invitation

open Tables

structure ReceiverRequestInsert where
  id : Nat
  transferId : TransferId
  remoteEndpointId : EndpointId
  transferName : String
  receiverName : Option String
  receiverDeviceName : Option String
  appVersion : String
  deriving DecidableEq, Repr

structure ReceiverRequest extends ReceiverRequestInsert where
  status : ReceiverRequestStatus
  reason : Option String
  requestedAt : Millis
  respondedAt : Option Millis
  receiptTokenHash : Option Text
  deriving DecidableEq, Repr

def ReceiverRequest.key (r : ReceiverRequest) : Nat := r.id

abbrev ReceiverRequests := Table ReceiverRequest.key

def toDbId (value : Nat) : Except VnidropError Nat :=
  if value < 9223372036854775808 then .ok value
  else .error (.repository "transfer id exceeds SQLite signed integer range")

def requireOneChanged (changed : Bool) (operation : String) : Except VnidropError Unit :=
  if changed then .ok ()
  else .error (.repository (operation ++ " expected one matching transfer, changed 0"))

namespace ReceiverRequests

def requested (r : ReceiverRequestInsert) (now : Millis) : ReceiverRequest :=
  { r with status := .requested, reason := none, requestedAt := now, respondedAt := none,
           receiptTokenHash := none }

def insertReceiverRequest (t : ReceiverRequests) (r : ReceiverRequestInsert) (now : Millis) :
    Except VnidropError ReceiverRequests := do
  let _ ← toDbId r.transferId
  match t.insert (requested r now) with
  | some t => return t
  | none => .error (.repository "insert receiver request")

/-- What a statement that also tests `status` does to the row of one id. -/
def setWhere (t : ReceiverRequests) (id : Nat) (status : ReceiverRequestStatus)
    (f : ReceiverRequest → ReceiverRequest) (keeps : ∀ r, (f r).key = r.key) :
    Bool × ReceiverRequests :=
  (t.affects fun r => r.key = id && r.status = status,
   t.updateWhere (fun r => r.key = id && r.status = status) f keeps)

def updateReceiverRequestStatus (t : ReceiverRequests) (id : Nat) (status : ReceiverRequestStatus)
    (reason : Option String) (now : Millis) : Except VnidropError ReceiverRequests :=
  let (changed,t) := t.setWhere id .requested
    (fun r => { r with status, reason, respondedAt := some now }) fun _ => rfl
  if changed then .ok t
  else .error (.repository "receiver request not found or already handled")

def setReceiverReceiptToken (t : ReceiverRequests) (id : Nat) (tokenHash : Text) :
    Except VnidropError ReceiverRequests := do
  let (changed,t) := t.setWhere id .accepted
    (fun r => { r with receiptTokenHash := some tokenHash }) fun _ => rfl
  requireOneChanged changed "attach receiver receipt token"
  return t

/-- The row a delivery receipt is for. -/
def receives (r : ReceiverRequest) (transferId : TransferId) (remote : EndpointId) (tokenHash : Text) :
    Bool :=
  r.transferId = transferId && r.remoteEndpointId = remote && r.receiptTokenHash = some tokenHash

/-- The three statements settle the request once, find it settled by a repeated receipt, and
read the name the receiver gave. -/
def completeReceiverDelivery (t : ReceiverRequests) (id : Nat) (transferId : TransferId)
    (remote : EndpointId) (tokenHash : Text) : Except VnidropError (Option String × ReceiverRequests) := do
  let transferId ← toDbId transferId
  let t : ReceiverRequests := t.updateWhere
    (fun r => r.key = id && (receives r transferId remote tokenHash && r.status = .accepted))
    (fun r => { r with status := .completed }) fun _ => rfl
  match t.find id with
  | some r =>
    if receives r transferId remote tokenHash && r.status = .completed then
      return (r.receiverDeviceName <|> r.receiverName,t)
    else .error (.repository "delivery receipt did not match an accepted receiver request")
  | none => .error (.repository "delivery receipt did not match an accepted receiver request")

theorem find_setWhere (t : ReceiverRequests) (id : Nat) (status : ReceiverRequestStatus)
    (f : ReceiverRequest → ReceiverRequest) (keeps : ∀ r, (f r).key = r.key) (id' : Nat) :
    (t.setWhere id status f keeps).2.find id' =
      if id' = id then (t.find id).map fun r => if r.status = status then f r else r
      else t.find id' := by
  refine (t.find_updateKey id (fun r => r.status = status) f keeps id').trans ?_
  simp only [decide_eq_true_eq]

theorem setWhere_changed {t : ReceiverRequests} {id : Nat} {status : ReceiverRequestStatus}
    {f : ReceiverRequest → ReceiverRequest} {keeps : ∀ r, (f r).key = r.key} :
    (t.setWhere id status f keeps).1 = true ↔ ∃ r, t.find id = some r ∧ r.status = status := by
  show t.affects _ = true ↔ _
  rw [Table.affects_key]
  simp [Option.any_eq_true]

theorem insert_ok {t u : ReceiverRequests} {r : ReceiverRequestInsert} {now : Millis}
    (h : t.insertReceiverRequest r now = .ok u) :
    t.find r.id = none ∧ ∀ id, u.find id = if id = r.id then some (requested r now) else t.find id := by
  unfold insertReceiverRequest toDbId at h
  split at h
  · change (match t.insert (requested r now) with
      | some t => Except.ok t
      | none => .error (VnidropError.repository "insert receiver request")) = _ at h
    cases inserted : t.insert (requested r now) with
    | none =>
      rw [inserted] at h
      cases h
    | some u' =>
      rw [inserted] at h
      cases h
      have absent := Table.insert_isSome.mp (inserted ▸ rfl : (t.insert (requested r now)).isSome)
      exact ⟨absent,Table.find_insert inserted⟩
  · cases h

theorem update_ok {t u : ReceiverRequests} {id : Nat} {status : ReceiverRequestStatus}
    {reason : Option String} {now : Millis}
    (h : t.updateReceiverRequestStatus id status reason now = .ok u) :
    ∃ r, t.find id = some r ∧ r.status = .requested ∧ ∀ id', u.find id' =
      if id' = id then some { r with status, reason, respondedAt := some now } else t.find id' := by
  unfold updateReceiverRequestStatus at h
  dsimp only at h
  split at h
  · rename_i changed
    obtain ⟨r,found,waiting⟩ := setWhere_changed.mp changed
    cases h
    refine ⟨r,found,waiting,fun id' => ?_⟩
    refine (find_setWhere t id .requested _ _ id').trans ?_
    rw [found]
    simp [waiting]
  · cases h

theorem setToken_ok {t u : ReceiverRequests} {id : Nat} {tokenHash : Text}
    (h : t.setReceiverReceiptToken id tokenHash = .ok u) :
    ∃ r, t.find id = some r ∧ r.status = .accepted ∧ ∀ id', u.find id' =
      if id' = id then some { r with receiptTokenHash := some tokenHash } else t.find id' := by
  unfold setReceiverReceiptToken requireOneChanged at h
  dsimp only at h
  split at h
  · rename_i changed
    obtain ⟨r,found,accepted⟩ := setWhere_changed.mp changed
    cases h
    refine ⟨r,found,accepted,fun id' => ?_⟩
    refine (find_setWhere t id .accepted _ _ id').trans ?_
    rw [found]
    simp [accepted]
  · cases h

/-- The token is attached to whichever request is accepted. -/
theorem setToken_accepted {t : ReceiverRequests} {id : Nat} {r : ReceiverRequest} (tokenHash : Text)
    (found : t.find id = some r) (accepted : r.status = .accepted) :
    ∃ u, t.setReceiverReceiptToken id tokenHash = .ok u := by
  unfold setReceiverReceiptToken requireOneChanged
  dsimp only
  split
  · exact ⟨_,rfl⟩
  · rename_i unchanged
    exact absurd (setWhere_changed.mpr ⟨r,found,accepted⟩) unchanged

end ReceiverRequests

end Vnidrop.Invitation
