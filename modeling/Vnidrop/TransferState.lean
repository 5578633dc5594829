import Vnidrop.Values

/-! Status of an invitation transfer, `transfers.status`, and of a receiver's request for
one, `receiver_requests.status`. -/
namespace Vnidrop

inductive TransferStatus where
  | importing
  | sharing
  | receiving
  | done
  | failed
  | cancelled
  | stopped
  deriving DecidableEq, Repr

def TransferStatus.canTransitionTo : TransferStatus → TransferStatus → Bool
  | .importing, .sharing | .importing, .failed | .importing, .cancelled => true
  | .sharing, .stopped | .sharing, .failed => true
  | .receiving, .done | .receiving, .failed | .receiving, .cancelled => true
  | _, _ => false

/-- `transition_transfer_status` on the row's status, `none` for an absent row. The
result is the new status; repeating a transition already made succeeds. -/
def transitionTransferStatus (row : Option TransferStatus) (expected next : TransferStatus) :
    Except VnidropError (Option TransferStatus) :=
  if !expected.canTransitionTo next then .error (.repository "illegal transfer status transition")
  else if row = some expected then .ok (some next)
  else if row = some next then .ok row
  else .error (.repository "transition transfer status")

inductive ReceiverRequestStatus where
  | requested
  | accepted
  | refused
  | expired
  | completed
  | failed
  deriving DecidableEq, Repr

end Vnidrop
