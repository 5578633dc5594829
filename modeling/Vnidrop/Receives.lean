import Vnidrop.InvitationReceipt
import Vnidrop.Programs
import Vnidrop.ReceiverRequests
import Mathlib

/-! `receive_to_target` and `cancel_transfer` over the invitation repository: the rows of
`transfers`, the artifacts of published files, the pending receipts, and the calls whose
cancel sender is in `active_transfers`. -/
namespace Vnidrop.Receives

open Tables Programs Invitation

inductive TransferDirection where
  | send
  | receive
  deriving DecidableEq, Repr

structure Transfer where
  transferId : TransferId
  localId : Text
  protocolTransferId : TransferId
  peerId : Option EndpointId
  direction : TransferDirection
  status : TransferStatus
  transferName : Option Text
  senderName : Option Text
  contentHash : Option Text
  ticket : Option Text
  fileCount : Nat
  totalSize : Nat
  accessMode : String
  createdAt : Millis
  updatedAt : Millis
  deriving DecidableEq, Repr

structure TransferUpsert where
  transferId : TransferId
  peerId : Option EndpointId
  direction : TransferDirection
  status : TransferStatus
  transferName : Option Text
  senderName : Option Text
  contentHash : Option Text
  ticket : Option Text
  fileCount : Nat
  totalSize : Nat
  accessMode : String
  deriving DecidableEq, Repr

inductive ReceivedLocatorKind where
  | filesystemPath
  | androidMediaStore
  | androidDocument
  deriving DecidableEq, Repr

structure ReceivedArtifact where
  id : Text
  transferLocalId : Text
  protocolTransferId : TransferId
  relativePath : String
  locatorKind : ReceivedLocatorKind
  locator : Text
  logicalSize : Nat
  publishedAt : Millis
  deriving DecidableEq, Repr

def ReceivedArtifact.key (a : ReceivedArtifact) : Text × String := (a.transferLocalId,a.relativePath)

structure ReceivedArtifactInsert where
  transferLocalId : Text
  protocolTransferId : TransferId
  relativePath : String
  locatorKind : ReceivedLocatorKind
  locator : Text
  logicalSize : Nat
  deriving DecidableEq, Repr

/-- A parsed ticket: its metadata, and the endpoint and address of its blob ticket. -/
structure ParsedTransferTicket where
  transferId : TransferId
  transferName : Text
  senderName : Option Text
  contentHash : Text
  fileCount : Nat
  totalSize : Nat
  sender : EndpointId
  address : Text
  deriving DecidableEq, Repr

inductive ReceiveTarget where
  | directory (path : Text)
  | outputSink
  | outputSinkV2
  deriving DecidableEq, Repr

structure CoreLimits where
  maxCollectionFiles : Nat
  maxTotalBytes : Nat
  maxPathBytes : Nat

/-- How a receive stops: with the code of its error, or through its cancel channel. -/
inductive Stop where
  | failed (code : String)
  | cancelled
  deriving DecidableEq, Repr

/-- What a published file is recorded as. -/
structure Published where
  locatorKind : ReceivedLocatorKind
  locator : Text
  size : Nat
  deriving DecidableEq, Repr

abbrev Transfers := Table Transfer.transferId
abbrev Artifacts := Table ReceivedArtifact.key

namespace Transfers

/-- The row `start_receive` inserts. -/
def started (u : TransferUpsert) (localId : Text) (now : Millis) : Transfer where
  transferId := u.transferId
  localId := localId
  protocolTransferId := u.transferId
  peerId := u.peerId
  direction := .receive
  status := .receiving
  transferName := u.transferName
  senderName := none
  contentHash := u.contentHash
  ticket := u.ticket
  fileCount := u.fileCount
  totalSize := u.totalSize
  accessMode := u.accessMode
  createdAt := now
  updatedAt := now

/-- The `DO UPDATE` of `start_receive` on a row that is present. -/
def restarted (row : Transfer) (u : TransferUpsert) (now : Millis) : Transfer :=
  { row with
    status := .receiving
    transferName := u.transferName
    contentHash := u.contentHash
    ticket := u.ticket
    fileCount := u.fileCount
    totalSize := u.totalSize
    accessMode := u.accessMode
    peerId := u.peerId
    updatedAt := now }

/-- The `WHERE` of that update. -/
def restarts (row : Transfer) : Bool :=
  row.direction = .receive && (row.status = .done || row.status = .failed || row.status = .cancelled)

def startReceive (t : Transfers) (u : TransferUpsert) (localId : Text) (now : Millis) :
    Except VnidropError Transfers := do
  if u.direction ≠ .receive ∨ u.status ≠ .receiving then
    .error (.repository "receive must start in the receiving state")
  else
    let _ ← toDbId u.transferId
    let _ ← toDbId u.fileCount
    let _ ← toDbId u.totalSize
    match t.insert (started u localId now) with
    | some t => return t
    | none => do
      let here := fun row : Transfer => row.transferId = u.transferId && restarts row
      requireOneChanged (t.affects here) "start receive"
      return t.updateWhere here fun row => restarted row u now

def transferLocalId (t : Transfers) (id : TransferId) : Except VnidropError Text :=
  match t.find id with
  | some row => .ok row.localId
  | none => .error (.repository "no rows returned by a query that expected to return at least one row")

/-- `transition_transfer_status`. -/
def transition (t : Transfers) (id : TransferId) (expected next : TransferStatus) (now : Millis) :
    Except VnidropError Transfers :=
  if expected.canTransitionTo next = false then
    .error (.repository "illegal transfer status transition")
  else do
    let _ ← toDbId id
    let here := fun row : Transfer => row.transferId = id && row.status = expected
    if t.affects here then return t.updateWhere here fun row => { row with status := next, updatedAt := now }
    else if (t.find id).any fun row => row.status = next then return t
    else .error (.repository "transition transfer status")

/-- The history part of `complete_receive_with_pending_receipt`. -/
def completeReceive (t : Transfers) (id : TransferId) (now : Millis) : Except VnidropError Transfers := do
  let _ ← toDbId id
  let here := fun row : Transfer =>
    row.transferId = id && (row.direction = .receive && row.status = .receiving)
  requireOneChanged (t.affects here) "complete receive"
  return t.updateWhere here fun row => { row with status := .done, updatedAt := now }

end Transfers

namespace Transfers

variable {t v : Transfers} {u : TransferUpsert} {localId : Text} {id : TransferId} {now : Millis}
  {expected next : TransferStatus}

/-- A number that does not fit a column is refused before the statement runs. -/
theorem toDbId_cases (n : Nat) : (n < 9223372036854775808 ∧ toDbId n = .ok n) ∨
    (¬n < 9223372036854775808 ∧ ∃ e, toDbId n = .error e) := by
  unfold toDbId
  by_cases fits : n < 9223372036854775808
  · exact .inl ⟨fits,if_pos fits⟩
  · exact .inr ⟨fits,_,if_neg fits⟩

/-- The numbers of the row fit the columns of the history. -/
def Storable (u : TransferUpsert) : Prop :=
  u.transferId < 9223372036854775808 ∧ u.fileCount < 9223372036854775808 ∧
    u.totalSize < 9223372036854775808

instance (u : TransferUpsert) : Decidable (Storable u) := inferInstanceAs (Decidable (_ ∧ _ ∧ _))

theorem startReceive_unstorable (large : ¬Storable u) : ∃ e, t.startReceive u localId now = .error e := by
  unfold startReceive
  split
  · exact ⟨_,rfl⟩
  · rcases toDbId_cases u.transferId with ⟨first,ok⟩ | ⟨_,e,bad⟩
    · rcases toDbId_cases u.fileCount with ⟨second,ok'⟩ | ⟨_,e,bad⟩
      · rcases toDbId_cases u.totalSize with ⟨third,_⟩ | ⟨_,e,bad⟩
        · exact absurd ⟨first,second,third⟩ large
        · exact ⟨e,by rw [ok,ok',bad]; rfl⟩
      · exact ⟨e,by rw [ok,bad]; rfl⟩
    · exact ⟨e,by rw [bad]; rfl⟩

/-- With numbers that fit, a start inserts a row or restarts one that has ended. -/
theorem startReceive_storable (receive : u.direction = .receive) (receiving : u.status = .receiving)
    (fits : Storable u) : t.startReceive u localId now =
      match t.insert (started u localId now) with
      | some t => .ok t
      | none =>
        if t.affects fun row => row.transferId = u.transferId && restarts row then
          .ok (t.updateWhere (fun row => row.transferId = u.transferId && restarts row)
            fun row => restarted row u now)
        else .error (.repository ("start receive" ++ " expected one matching transfer, changed 0")) := by
  obtain ⟨first,second,third⟩ := fits
  unfold startReceive toDbId requireOneChanged
  rw [if_neg (by simp [receive,receiving]),if_pos first,if_pos second,if_pos third]
  show (match t.insert (started u localId now) with | some t => _ | none => _) = _
  cases t.insert (started u localId now) with
  | some v => rfl
  | none => dsimp only; split <;> rfl

/-- What a start that succeeds has found, and what it writes. -/
theorem startReceive_ok (receive : u.direction = .receive) (receiving : u.status = .receiving)
    (h : t.startReceive u localId now = .ok v) : Storable u ∧
      (∀ row, t.find u.transferId = some row → restarts row = true) ∧
      ∀ k, v.find k = if k = u.transferId then
          some ((t.find k).elim (started u localId now) fun row => restarted row u now)
        else t.find k := by
  by_cases fits : Storable u
  · rw [startReceive_storable receive receiving fits] at h
    refine ⟨fits,?_⟩
    cases inserted : t.insert (started u localId now) with
    | some w =>
      rw [inserted] at h
      cases h
      have absent : t.find u.transferId = none :=
        Table.insert_isSome.mp (inserted ▸ rfl : (t.insert (started u localId now)).isSome)
      constructor
      · intro row there
        rw [absent] at there
        cases there
      · intro k
        refine (Table.find_insert inserted k).trans ?_
        by_cases same : k = u.transferId
        · subst same
          rw [if_pos rfl,absent]
          exact if_pos rfl
        · exact (if_neg same).trans (if_neg same).symm
    | none =>
      rw [inserted] at h
      dsimp only at h
      split at h
      · rename_i changed
        cases h
        rw [Table.affects_key,Option.any_eq_true] at changed
        obtain ⟨old,there,ended⟩ := changed
        constructor
        · intro row found
          exact Option.some.inj (there.symm.trans found) ▸ ended
        · intro k
          refine (Table.find_updateKey t u.transferId restarts (fun row => restarted row u now)
            (fun _ => rfl) k).trans ?_
          by_cases same : k = u.transferId
          · subst same
            rw [if_pos rfl,if_pos rfl,there]
            simp [ended]
          · rw [if_neg same,if_neg same]
      · cases h
  · obtain ⟨e,bad⟩ : ∃ e, t.startReceive u localId now = .error e := startReceive_unstorable fits
    rw [bad] at h
    cases h

/-- A row that has ended is started again. -/
theorem startReceive_restarts {row : Transfer} (receive : u.direction = .receive)
    (receiving : u.status = .receiving) (fits : Storable u) (there : t.find u.transferId = some row)
    (ended : restarts row = true) : ∃ v, t.startReceive u localId now = .ok v := by
  rw [startReceive_storable receive receiving fits]
  cases t.insert (started u localId now) with
  | some v => exact ⟨v,rfl⟩
  | none =>
    have changed : t.affects (fun row => row.transferId = u.transferId && restarts row) = true := by
      rw [Table.affects_key,there]
      exact ended
    dsimp only
    rw [if_pos changed]
    exact ⟨_,rfl⟩

/-- A transition that succeeds has moved the row, or has found it moved. -/
theorem transition_ok (h : t.transition id expected next now = .ok v) :
    (∃ row, t.find id = some row ∧ row.status = expected ∧ ∀ k, v.find k =
      if k = id then some { row with status := next, updatedAt := now } else t.find k) ∨
    (v = t ∧ ∃ row, t.find id = some row ∧ row.status = next) := by
  unfold transition at h
  split at h
  · cases h
  · rcases toDbId_cases id with ⟨_,ok⟩ | ⟨_,e,bad⟩
    · rw [ok] at h
      change (if _ then _ else _) = _ at h
      split at h
      · rename_i changed
        rw [Table.affects_key,Option.any_eq_true] at changed
        obtain ⟨row,there,here⟩ := changed
        cases h
        refine .inl ⟨row,there,by simpa using here,fun k => ?_⟩
        refine (Table.find_updateKey t id (fun row => row.status = expected)
          (fun row => { row with status := next, updatedAt := now }) (fun _ => rfl) k).trans ?_
        by_cases same : k = id
        · subst same
          rw [if_pos rfl,if_pos rfl,there]
          simp at here
          simp [here]
        · rw [if_neg same,if_neg same]
      · split at h
        · rename_i already
          cases h
          rw [Option.any_eq_true] at already
          obtain ⟨row,there,here⟩ := already
          exact .inr ⟨rfl,row,there,by simpa using here⟩
        · cases h
    · rw [bad] at h
      cases h

theorem completeReceive_ok (h : t.completeReceive id now = .ok v) :
    ∃ row, t.find id = some row ∧ row.status = .receiving ∧ ∀ k, v.find k =
      if k = id then some { row with status := .done, updatedAt := now } else t.find k := by
  unfold completeReceive at h
  rcases toDbId_cases id with ⟨_,ok⟩ | ⟨_,e,bad⟩
  · rw [ok] at h
    change (requireOneChanged (t.affects fun row => row.transferId = id &&
        (row.direction = .receive && row.status = .receiving)) "complete receive" >>= _) = _ at h
    unfold requireOneChanged at h
    split at h
    · rename_i changed
      rw [Table.affects_key,Option.any_eq_true] at changed
      obtain ⟨row,there,here⟩ := changed
      cases h
      refine ⟨row,there,by simp at here; exact here.2,fun k => ?_⟩
      refine (Table.find_updateKey t id (fun row => row.direction = .receive && row.status = .receiving)
        (fun row => { row with status := .done, updatedAt := now }) (fun _ => rfl) k).trans ?_
      by_cases same : k = id
      · subst same
        rw [if_pos rfl,if_pos rfl,there]
        simp at here
        simp [here]
      · rw [if_neg same,if_neg same]
    · cases h
  · rw [bad] at h
    cases h

end Transfers

/-- `record_received_artifact`. -/
def recordReceivedArtifact (t : Artifacts) (a : ReceivedArtifactInsert) (id : Text) (now : Millis) :
    Except VnidropError Artifacts := do
  let _ ← toDbId a.protocolTransferId
  let _ ← toDbId a.logicalSize
  return t.upsert ⟨id,a.transferLocalId,a.protocolTransferId,a.relativePath,a.locatorKind,a.locator,
      a.logicalSize,now⟩
    fun old => { old with
      locatorKind := a.locatorKind, locator := a.locator, logicalSize := a.logicalSize,
      publishedAt := now }

structure Device where
  transfers : Transfers
  artifacts : Artifacts
  receipts : Table PendingDeliveryReceipt.requestId
  /-- The call whose cancel sender is in `active_transfers`. -/
  active : TransferId → Option Nat
  activeShares : TransferId → Bool
  /-- Free permits of `transfer_slots`. -/
  slots : Nat

inductive Op where
  | acquireSlot
  | filterPeerAddr (address : Text)
  | startReceive (u : TransferUpsert)
  | encodeAddress (address : Text)
  | activate (id : TransferId)
  | createDir (path : Text)
  | requestApproval (t : ParsedTransferTicket)
  | connect (address : Text)
  | getSizes (contentHash : Text)
  | download (contentHash : Text)
  | loadCollection (contentHash : Text)
  | transferLocalId (id : TransferId)
  | exportBlob (target : ReceiveTarget) (name : String) (hash : Text)
  | recordArtifact (a : ReceivedArtifactInsert)
  | completeReceive (id : TransferId) (address : Text) (r : DeliveryReceipt)
  | activateEligibility (peer : EndpointId) (senderName : Option Text) (r : DeliveryReceipt)
  | deactivate (id : TransferId)
  | markFailed (id : TransferId)
  | queueFailed (id : TransferId) (address : Text) (r : DeliveryReceipt) (reason : String)
  | releaseSlot
  | takeActive (id : TransferId)
  | markCancelled (id : TransferId)
  | cancelIdleOrShare (id : TransferId)
  deriving DecidableEq

/-- The operations from `createDir` to `activateEligibility` stand inside the `select!`. -/
abbrev Ans : Op → Type
  | .acquireSlot | .filterPeerAddr _ | .startReceive _ | .markCancelled _ | .cancelIdleOrShare _ =>
    Except Stop Unit
  | .encodeAddress _ => Except Stop Text
  | .createDir _ | .connect _ | .download _ | .recordArtifact _ | .completeReceive .. |
    .activateEligibility .. => Except Stop Unit
  | .requestApproval _ => Except Stop (DeliveryReceipt × Option Text)
  | .getSizes _ => Except Stop (List Nat)
  | .loadCollection _ => Except Stop (List (String × Text))
  | .transferLocalId _ => Except Stop Text
  | .exportBlob .. => Except Stop Published
  | .takeActive _ => Bool
  | _ => Unit

/-- The answer of an operation inside the `select!` that does not come to its end. -/
def stopped : (op : Op) → Stop → Option (Ans op)
  | .createDir _, stop | .connect _, stop | .download _, stop | .recordArtifact _, stop |
    .completeReceive .., stop | .activateEligibility .., stop => some (.error stop)
  | .requestApproval _, stop => some (.error stop)
  | .getSizes _, stop => some (.error stop)
  | .loadCollection _, stop => some (.error stop)
  | .transferLocalId _, stop => some (.error stop)
  | .exportBlob .., stop => some (.error stop)
  | _, _ => none

abbrev Task (α : Type) := Prog Op Ans α

def op (o : Op) : Task (Ans o) := Prog.perform o

def upsertOf (t : ParsedTransferTicket) : TransferUpsert where
  transferId := t.transferId
  peerId := some t.sender
  direction := .receive
  status := .receiving
  transferName := some t.transferName
  senderName := t.senderName
  contentHash := some t.contentHash
  ticket := none
  fileCount := t.fileCount
  totalSize := t.totalSize
  accessMode := "approval_required"

/-- Errors of plain `bail!`s reach the caller as `VnidropError::Transfer`. -/
def bail {α : Type} : Task (Except Stop α) := pure (.error (.failed "transfer"))

/-- Every target but the first sink records what it has published. -/
def exportBlob (l : CoreLimits) (id : TransferId) (localId : Text) (target : ReceiveTarget)
    (file : String × Text) : Task (Except Stop Unit) :=
  if file.1.utf8ByteSize > l.maxPathBytes then bail
  else
    Prog.andThen (op (.exportBlob target file.1 file.2)) fun published =>
      if target = .outputSink then pure (.ok ())
      else op (.recordArtifact
        ⟨localId,id,file.1,published.locatorKind,published.locator,published.size⟩)

def exportEach (l : CoreLimits) (id : TransferId) (localId : Text) (target : ReceiveTarget) :
    List (String × Text) → Task (Except Stop Unit)
  | [] => pure (.ok ())
  | file :: files => Prog.andThen (exportBlob l id localId target file) fun _ =>
    exportEach l id localId target files

def exportCollection (l : CoreLimits) (id : TransferId) (target : ReceiveTarget)
    (files : List (String × Text)) : Task (Except Stop Unit) :=
  Prog.andThen (op (.transferLocalId id)) fun localId => exportEach l id localId target files

/-- `try_fold` with `checked_add` over the sizes. -/
def checkedSum (sizes : List Nat) : Option Nat :=
  sizes.foldlM (fun total size => if total + size < 2 ^ 64 then some (total + size) else none) 0

/-- `receive_inner` once the sender has approved. -/
def receiveApproved (l : CoreLimits) (t : ParsedTransferTicket) (target : ReceiveTarget)
    (address : Text) (receipt : DeliveryReceipt) (senderName : Option Text) : Task (Except Stop Unit) :=
  Prog.andThen (op (.connect t.address)) fun _ =>
  Prog.andThen (op (.getSizes t.contentHash)) fun sizes =>
  match checkedSum sizes with
  | none => bail
  | some totalSize =>
    if sizes.length - 1 > l.maxCollectionFiles then bail
    else if totalSize > l.maxTotalBytes then bail
    else
      Prog.andThen (op (.download t.contentHash)) fun _ =>
      Prog.andThen (op (.loadCollection t.contentHash)) fun files =>
      Prog.andThen (exportCollection l t.transferId target files) fun _ =>
      Prog.andThen (op (.completeReceive t.transferId address receipt)) fun _ => do
        -- an error of the eligibility is logged; only a cancellation ends the receive here
        match ← op (.activateEligibility t.sender senderName receipt) with
        | .error .cancelled => return .error .cancelled
        | .error (.failed _) | .ok () => return .ok ()

def createDir : ReceiveTarget → Task (Except Stop Unit)
  | .directory path => op (.createDir path)
  | _ => pure (.ok ())

/-- The result, and what is left in `pending_delivery_receipt`. -/
def receiveInner (l : CoreLimits) (t : ParsedTransferTicket) (target : ReceiveTarget) (address : Text) :
    Task (Except Stop Unit × Option DeliveryReceipt) := do
  match ← Prog.andThen (createDir target) fun _ => op (.requestApproval t) with
  | .error stop => return (.error stop,none)
  | .ok (receipt,senderName) =>
    match ← receiveApproved l t target address receipt senderName with
    | .error stop => return (.error stop,some receipt)
    | .ok () => return (.ok (),none)

def Stop.reason : Stop → String
  | .failed code => code
  | .cancelled => "cancelled"

/-- A receive that was cancelled leaves its status to `cancel_transfer`. -/
def settleStatus (id : TransferId) : Stop → Task Unit
  | .failed _ => op (.markFailed id)
  | .cancelled => pure ()

def queueReceipt (id : TransferId) (address : Text) (stop : Stop) : Option DeliveryReceipt → Task Unit
  | some r => op (.queueFailed id address r stop.reason)
  | none => pure ()

/-- What follows the `select!` and the removal of the active entry. -/
def afterwards (id : TransferId) (address : Text) :
    Except Stop Unit × Option DeliveryReceipt → Task Unit
  | (.ok (),_) => pure ()
  | (.error stop,receipt) => do
    settleStatus id stop
    queueReceipt id address stop receipt

/-- `receive_to_target` for a ticket that has been parsed; the permit is dropped last. -/
def receiveToTarget (l : CoreLimits) (t : ParsedTransferTicket) (target : ReceiveTarget) :
    Task (Except Stop Unit) := do
  match ← op .acquireSlot with
  | .error stop => return .error stop
  | .ok () =>
    let result ← Prog.andThen (op (.filterPeerAddr t.address)) fun _ =>
      Prog.andThen (op (.startReceive (upsertOf t))) fun _ =>
      Prog.andThen (op (.encodeAddress t.address)) fun address => do
        op (.activate t.transferId)
        let result ← receiveInner l t target address
        op (.deactivate t.transferId)
        afterwards t.transferId address result
        return result.1
    op .releaseSlot
    return result

def cancelTransfer (id : TransferId) : Task (Except Stop Unit) := do
  if ← op (.takeActive id) then op (.markCancelled id) else op (.cancelIdleOrShare id)

/-- The surroundings at an operation: the clock, whether it fails and with which code, whether
the `select!` takes its cancel branch there, and what others answer. -/
structure Choice where
  now : Millis
  fails : Bool
  cancels : Bool
  code : String
  fresh : Text
  address : Text
  receipt : DeliveryReceipt
  senderName : Option Text
  sizes : List Nat
  files : List (String × Text)
  published : Published
  deriving DecidableEq

/-- A statement on the repository that fails as a whole leaves nothing behind. -/
def statement {σ : Type} (s : σ) (fails : Bool) (r : Except VnidropError σ) : Except Stop Unit × σ :=
  if fails then (.error (.failed "repository"),s)
  else match r with
    | .ok t => (.ok (),t)
    | .error _ => (.error (.failed "repository"),s)

namespace Device

def setActive (s : Device) (id : TransferId) (call : Option Nat) : Device :=
  { s with active := Function.update s.active id call }

def receiptOf (id : TransferId) (address : Text) (r : DeliveryReceipt) (failureReason : Option String)
    (now : Millis) : PendingDeliveryReceipt :=
  ⟨r.requestId,id,address,r.transferId,r.token,failureReason,now⟩

/-- The `DO UPDATE` of a pending receipt. -/
def replaced (new old : PendingDeliveryReceipt) : PendingDeliveryReceipt :=
  ⟨old.requestId,new.localTransferId,new.senderBlobTicket,new.senderTransferId,new.token,
    new.failureReason,old.createdAt⟩

theorem replaced_requestId (new old : PendingDeliveryReceipt) :
    (replaced new old).requestId = old.requestId := rfl

/-- The statement both receipt writers share. -/
def upsertReceipt (s : Device) (new : PendingDeliveryReceipt) : Device :=
  { s with receipts := s.receipts.upsert new (replaced new) (replaced_requestId new) }

def completeReceive (s : Device) (id : TransferId) (address : Text) (r : DeliveryReceipt)
    (now : Millis) : Except VnidropError Device := do
  let transfers ← s.transfers.completeReceive id now
  let _ ← toDbId r.transferId
  return { s with transfers }.upsertReceipt (receiptOf id address r none now)

def queueFailed (s : Device) (id : TransferId) (address : Text) (r : DeliveryReceipt) (reason : String)
    (now : Millis) : Except VnidropError Device := do
  let _ ← toDbId id
  let _ ← toDbId r.transferId
  return s.upsertReceipt (receiptOf id address r (some reason) now)

def setTransfers (s : Device) (r : Except VnidropError Transfers) : Except VnidropError Device :=
  r.map fun transfers => { s with transfers }

/-- `cancel_idle_or_share`, as far as the history goes. -/
def cancelIdleOrShare (s : Device) (id : TransferId) (now : Millis) : Except VnidropError Device :=
  if s.activeShares id then do
    let transfers ← s.transfers.transition id .sharing .stopped now
    return { s with transfers, activeShares := Function.update s.activeShares id false }
  else .error (.transfer "transfer not found")

/-- One operation of thread `i` that is not interrupted. -/
def act (s : Device) (i : Nat) (c : Choice) : (o : Op) → Option (Ans o × Device)
  | .acquireSlot =>
    match s.slots with
    | 0 => none
    | n + 1 => some (.ok (),{ s with slots := n })
  | .filterPeerAddr _ => some (if c.fails then .error (.failed "network") else .ok (),s)
  | .startReceive u =>
    some (statement s c.fails (s.setTransfers (s.transfers.startReceive u c.fresh c.now)))
  | .encodeAddress _ => some (if c.fails then .error (.failed "transfer") else .ok c.address,s)
  | .activate id => some ((),s.setActive id (some i))
  | .createDir _ | .connect _ | .download _ | .activateEligibility .. =>
    some (if c.fails then .error (.failed c.code) else .ok (),s)
  | .requestApproval _ => some (if c.fails then .error (.failed c.code) else .ok (c.receipt,c.senderName),s)
  | .getSizes _ => some (if c.fails then .error (.failed c.code) else .ok c.sizes,s)
  | .loadCollection _ => some (if c.fails then .error (.failed c.code) else .ok c.files,s)
  | .transferLocalId id =>
    some (if c.fails then .error (.failed "repository")
      else match s.transfers.transferLocalId id with
        | .ok localId => .ok localId
        | .error _ => .error (.failed "repository"),s)
  | .exportBlob .. => some (if c.fails then .error (.failed c.code) else .ok c.published,s)
  | .recordArtifact a =>
    some (statement s c.fails ((recordReceivedArtifact s.artifacts a c.fresh c.now).map
      fun artifacts => { s with artifacts }))
  | .completeReceive id address r => some (statement s c.fails (s.completeReceive id address r c.now))
  | .deactivate id => some ((),s.setActive id none)
  | .markFailed id =>
    some ((),(statement s c.fails (s.setTransfers (s.transfers.transition id .receiving .failed c.now))).2)
  | .queueFailed id address r reason =>
    some ((),(statement s c.fails (s.queueFailed id address r reason c.now)).2)
  | .releaseSlot => some ((),{ s with slots := s.slots + 1 })
  | .takeActive id =>
    match s.active id with
    | some _ => some (true,s.setActive id none)
    | none => some (false,s)
  | .markCancelled id =>
    some (statement s c.fails (s.setTransfers (s.transfers.transition id .receiving .cancelled c.now)))
  | .cancelIdleOrShare id => some (statement s c.fails (s.cancelIdleOrShare id c.now))

/-- The cancel branch is ready once the sender has fired or has been dropped, which is when
`active_transfers` no longer holds it. -/
def exec (s : Device) (i : Nat) (c : Choice) (id : TransferId) (o : Op) : Option (Ans o × Device) :=
  if c.cancels then
    if s.active id = some i then none else (stopped o .cancelled).map (·,s)
  else s.act i c o

end Device

/-! What an operation does to the history, and which operations stand inside the `select!`. -/

/-- The status an operation moves a row from and to. -/
def Op.moves : Op → Option (TransferId × TransferStatus × TransferStatus)
  | .completeReceive id .. => some (id,.receiving,.done)
  | .markFailed id => some (id,.receiving,.failed)
  | .markCancelled id => some (id,.receiving,.cancelled)
  | .cancelIdleOrShare id => some (id,.sharing,.stopped)
  | _ => none

/-- The operation has started a receive, has moved one row, or has written no row. -/
def Wrote (s u : Device) (c : Choice) (o : Op) : Prop :=
  u.transfers = s.transfers ∨
  (∃ up, o = .startReceive up ∧ s.transfers.startReceive up c.fresh c.now = .ok u.transfers) ∨
  ∃ id here there row, o.moves = some (id,here,there) ∧ s.transfers.find id = some row ∧
    row.status = here ∧ ∀ k, u.transfers.find k =
      if k = id then some { row with status := there, updatedAt := c.now } else s.transfers.find k

section Writes

variable {s u : Device} {c : Choice} {i : Nat} {id : TransferId} {o : Op}

theorem statement_cases {σ : Type} {s : σ} {fails : Bool} {r : Except VnidropError σ}
    {a : Except Stop Unit × σ} (h : a = statement s fails r) :
    a = (.error (.failed "repository"),s) ∨ ∃ t, fails = false ∧ r = .ok t ∧ a = (.ok (),t) := by
  unfold statement at h
  split at h
  · exact .inl h
  · rename_i works
    cases r with
    | ok t => exact .inr ⟨t,by simpa using works,rfl,h⟩
    | error e => exact .inl h

/-- A transition of the status, as part of a statement. -/
theorem wrote_transition {here there : TransferStatus} {r : Except VnidropError Device}
    {a : Except Stop Unit × Device} (h : a = statement s c.fails r)
    (writes : ∀ t, r = .ok t → s.transfers.transition id here there c.now = .ok t.transfers)
    (moves : o.moves = some (id,here,there)) : Wrote s a.2 c o := by
  rcases statement_cases h with rfl | ⟨t,_,ok,rfl⟩
  · exact .inl rfl
  · rcases Transfers.transition_ok (writes t ok) with ⟨row,found,was,after⟩ | ⟨same,_⟩
    · exact .inr (.inr ⟨id,here,there,row,moves,found,was,after⟩)
    · exact .inl same

theorem setTransfers_ok {r : Except VnidropError Transfers} {t : Device} (h : s.setTransfers r = .ok t) :
    r = .ok t.transfers := by
  cases r with
  | ok transfers => cases h; rfl
  | error e => cases h

theorem act_wrote {a : Ans o} (h : s.act i c o = some (a,u)) : Wrote s u c o := by
  cases o with
  | acquireSlot =>
    simp only [Device.act] at h
    split at h
    · cases h
    · cases h
      exact .inl rfl
  | startReceive up =>
    have done := (Option.some.inj h).symm
    rcases statement_cases done with eq | ⟨t,_,ok,eq⟩
    · cases eq
      exact .inl rfl
    · cases eq
      exact .inr (.inl ⟨up,rfl,setTransfers_ok ok⟩)
  | recordArtifact new =>
    have done := (Option.some.inj h).symm
    rcases statement_cases done with eq | ⟨t,_,ok,eq⟩
    · cases eq
      exact .inl rfl
    · cases eq
      cases recorded : recordReceivedArtifact s.artifacts new c.fresh c.now with
      | ok artifacts =>
        rw [recorded] at ok
        cases ok
        exact .inl rfl
      | error e =>
        rw [recorded] at ok
        cases ok
  | completeReceive id address r =>
    have done := (Option.some.inj h).symm
    rcases statement_cases done with eq | ⟨t,_,ok,eq⟩
    · cases eq
      exact .inl rfl
    · cases eq
      unfold Device.completeReceive at ok
      cases moved : s.transfers.completeReceive id c.now with
      | ok transfers =>
        rw [moved] at ok
        rcases Transfers.toDbId_cases r.transferId with ⟨_,fits⟩ | ⟨_,e,bad⟩
        · rw [fits] at ok
          cases ok
          obtain ⟨row,found,was,after⟩ := Transfers.completeReceive_ok moved
          exact .inr (.inr ⟨id,.receiving,.done,row,rfl,found,was,after⟩)
        · rw [bad] at ok
          cases ok
      | error e =>
        rw [moved] at ok
        cases ok
  | markFailed id =>
    cases Option.some.inj h
    exact wrote_transition rfl (fun t ok => setTransfers_ok ok) rfl
  | markCancelled id =>
    have done := (Option.some.inj h).symm
    exact wrote_transition done (fun t ok => setTransfers_ok ok) rfl
  | queueFailed id address r reason =>
    have done := congrArg Prod.snd (Option.some.inj h)
    rcases statement_cases (rfl : statement s c.fails (s.queueFailed id address r reason c.now) = _)
      with eq | ⟨t,_,ok,eq⟩
    · exact .inl (congrArg Device.transfers (done.symm.trans (congrArg Prod.snd eq)))
    · have same : u = t := done.symm.trans (congrArg Prod.snd eq)
      unfold Device.queueFailed at ok
      rcases Transfers.toDbId_cases id with ⟨_,fits⟩ | ⟨_,e,bad⟩
      · rw [fits] at ok
        rcases Transfers.toDbId_cases r.transferId with ⟨_,fits'⟩ | ⟨_,e,bad⟩
        · rw [fits'] at ok
          cases ok
          have kept := congrArg Device.transfers same
          exact .inl kept
        · rw [bad] at ok
          cases ok
      · rw [bad] at ok
        cases ok
  | takeActive id =>
    simp only [Device.act] at h
    split at h
    · cases h
      exact .inl rfl
    · cases h
      exact .inl rfl
  | cancelIdleOrShare id =>
    have done := (Option.some.inj h).symm
    refine wrote_transition done (fun t ok => ?_) (show Op.moves (.cancelIdleOrShare id) =
      some (id,.sharing,.stopped) from rfl)
    unfold Device.cancelIdleOrShare at ok
    split at ok
    · cases moved : s.transfers.transition id .sharing .stopped c.now with
      | ok transfers =>
        rw [moved] at ok
        cases ok
        rfl
      | error e =>
        rw [moved] at ok
        cases ok
    · cases ok
  | filterPeerAddr | encodeAddress | activate | createDir | connect | download | activateEligibility
    | requestApproval | getSizes | loadCollection | transferLocalId | exportBlob | deactivate
    | releaseSlot =>
    cases Option.some.inj h
    exact .inl rfl

theorem exec_wrote {r : Ans o} (h : s.exec i c id o = some (r,u)) : Wrote s u c o := by
  unfold Device.exec at h
  split at h
  · split at h
    · cases h
    · obtain ⟨_,_,eq⟩ := Option.map_eq_some_iff.mp h
      cases eq
      exact .inl rfl
  · exact act_wrote h

end Writes

/-- An operation inside the `select!` of a receive of that transfer. -/
def Inside (id : TransferId) : Op → Prop
  | .completeReceive id' .. => id' = id
  | o => (stopped o .cancelled).isSome = true

section Programs

variable {l : CoreLimits} {t : ParsedTransferTicket} {target : ReceiveTarget}

theorem exportBlob_inside (id : TransferId) (localId : Text) (file : String × Text) :
    (exportBlob l id localId target file).All (Inside id) := by
  unfold exportBlob
  split
  · trivial
  · refine Prog.all_andThen (Prog.all_perform rfl) fun published => ?_
    split
    · trivial
    · exact Prog.all_perform rfl

theorem exportEach_inside (id : TransferId) (localId : Text) (files : List (String × Text)) :
    (exportEach l id localId target files).All (Inside id) := by
  induction files with
  | nil => trivial
  | cons file files ih => exact Prog.all_andThen (exportBlob_inside id localId file) fun _ => ih

theorem receiveApproved_inside (address : Text) (receipt : DeliveryReceipt) (senderName : Option Text) :
    (receiveApproved l t target address receipt senderName).All (Inside t.transferId) := by
  unfold receiveApproved
  refine Prog.all_andThen (Prog.all_perform rfl) fun _ => ?_
  refine Prog.all_andThen (Prog.all_perform rfl) fun sizes => ?_
  split
  · trivial
  · split
    · trivial
    · split
      · trivial
      · refine Prog.all_andThen (Prog.all_perform rfl) fun _ => ?_
        refine Prog.all_andThen (Prog.all_perform rfl) fun files => ?_
        refine Prog.all_andThen ?_ fun _ => ?_
        · exact Prog.all_andThen (Prog.all_perform rfl) fun localId => exportEach_inside _ localId files
        · refine Prog.all_andThen (Prog.all_perform rfl) fun _ => ?_
          refine Prog.all_bind (Prog.all_perform rfl) fun r => ?_
          split <;> trivial

theorem receiveInner_inside (address : Text) :
    (receiveInner l t target address).All (Inside t.transferId) := by
  unfold receiveInner
  refine Prog.all_bind (Prog.all_andThen ?_ fun _ => Prog.all_perform rfl) fun r => ?_
  · cases target with
    | directory path => exact Prog.all_perform rfl
    | outputSink | outputSinkV2 => trivial
  · split
    · trivial
    · refine Prog.all_bind (receiveApproved_inside address _ _) fun r => ?_
      split <;> trivial

end Programs

end Vnidrop.Receives
