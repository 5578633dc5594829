import Vnidrop.Excepts
import Vnidrop.Receives
import Vnidrop.TargetedOps
import Vnidrop.TargetedRows
import Vnidrop.TargetedRuntime
import Mathlib

/-! The four calls that bring a number into use: a share and a receive as the id of an
invitation transfer, a targeted creation and the custody of a received authorization as the
protocol id of a targeted transfer. -/
namespace Vnidrop.Identifiers

open Programs Runs Tables
open Invitation (toDbId)
open Receives (Transfer TransferUpsert Transfers ParsedTransferTicket Stop upsertOf)
open Targeted (Local Payload PendingTargetedOffer TargetedAuthorization TargetedTransferRow Write senderRow)

/-! Checks that others may overtake. -/

/-- The numbers each thread has found unused, and those that were taken afterwards. -/
structure Checks (κ : Type) where
  passed : List (Nat × κ)
  overtaken : List (Nat × κ)

namespace Checks

variable {κ : Type} [DecidableEq κ]

def new : Checks κ := ⟨[],[]⟩

def pass (l : Checks κ) (i : Nat) (k : κ) : Checks κ :=
  ⟨(i,k) :: l.passed,l.overtaken.filter (· ≠ (i,k))⟩

def overtake (l : Checks κ) (k : κ) : Checks κ :=
  ⟨l.passed,l.passed.filter (·.2 = k) ++ l.overtaken⟩

def stands (l : Checks κ) (i : Nat) (k : κ) : Bool := (i,k) ∉ l.overtaken

/-- A check that stands has found a number that is still unused. -/
def Sound (l : Checks κ) (used : κ → Prop) : Prop :=
  ∀ i k, (i,k) ∈ l.passed → l.stands i k = true → ¬used k

variable {l : Checks κ} {used used' : κ → Prop} {i j : Nat} {k k' : κ}

@[simp] theorem overtake_passed : (l.overtake k).passed = l.passed := rfl

theorem passed_pass (there : (j,k') ∈ l.passed) : (j,k') ∈ (l.pass i k).passed :=
  List.mem_cons_of_mem _ there

theorem Sound.pass (sound : l.Sound used) (free : ¬used k) : (l.pass i k).Sound used := by
  intro j k' there stands
  rcases List.mem_cons.mp there with same | there
  · cases same
    exact free
  · by_cases same : k' = k
    · exact same ▸ free
    · refine sound j k' there ?_
      simpa [Checks.stands,Checks.pass,same] using stands

theorem Sound.overtake (sound : l.Sound used) (more : ∀ k', used' k' → used k' ∨ k' = k) :
    (l.overtake k).Sound used' := by
  intro j k' there stands taken
  simp only [Checks.stands,Checks.overtake,List.mem_append,List.mem_filter,decide_eq_true_eq] at stands
  rcases more k' taken with before | same
  · exact sound j k' there (by simpa [Checks.stands] using fun gone => stands (.inr gone)) before
  · exact stands (.inl ⟨there,same⟩)

theorem Sound.mono (sound : l.Sound used) (fewer : ∀ k, used' k → used k) : l.Sound used' :=
  fun i k there stands taken => sound i k there stands (fewer k taken)

end Checks

/-! The calls. -/

structure Limits where
  maxSources : Nat
  maxMetadataBytes : Nat
  /-- The length of a text in UTF-8. -/
  utf8Len : Text → Nat

/-- `CoreLimits::validate_metadata_text`. -/
def Limits.validateMetadataText (limits : Limits) (field : String) (value : Option Text) :
    Except VnidropError Unit :=
  match value with
  | some value =>
    if limits.maxMetadataBytes < limits.utf8Len value then
      .error (.invalidInput (field ++ " is " ++ toString (limits.utf8Len value) ++ " bytes, limit is " ++
        toString limits.maxMetadataBytes))
    else .ok ()
  | none => .ok ()

/-- Both calls that import sources look at how many there are. -/
def Limits.checkSources (limits : Limits) (sources : Nat) : Except VnidropError Unit :=
  if sources = 0 then .error (.invalidInput "at least one source is required")
  else if limits.maxSources < sources then
    .error (.invalidInput ("source count " ++ toString sources ++ " exceeds limit " ++
      toString limits.maxSources))
  else .ok ()

structure ShareMetadataInput where
  transferId : TransferId
  transferName : Option Text
  senderName : Option Text
  accessMode : String
  deriving DecidableEq, Repr

def shareUpsert (m : ShareMetadataInput) : TransferUpsert where
  transferId := m.transferId
  peerId := none
  direction := .send
  status := .importing
  transferName := m.transferName
  senderName := m.senderName
  contentHash := none
  ticket := none
  fileCount := 0
  totalSize := 0
  accessMode := m.accessMode

/-- The row `insert_transfer` writes. -/
def inserted (u : TransferUpsert) (localId : Text) (now : Millis) : Transfer where
  transferId := u.transferId
  localId := localId
  protocolTransferId := u.transferId
  peerId := u.peerId
  direction := u.direction
  status := u.status
  transferName := u.transferName
  senderName := none
  contentHash := u.contentHash
  ticket := u.ticket
  fileCount := u.fileCount
  totalSize := u.totalSize
  accessMode := u.accessMode
  createdAt := now
  updatedAt := now

def insertTransfer (t : Transfers) (u : TransferUpsert) (localId : Text) (now : Millis) :
    Except VnidropError Transfers := do
  let _ ← toDbId u.transferId
  let _ ← toDbId u.fileCount
  let _ ← toDbId u.totalSize
  match t.insert (inserted u localId now) with
  | some t => return t
  | none => .error (.repository "UNIQUE constraint failed: transfers.transfer_id")

inductive Op where
  | targeted (o : Targeted.Op)
  | acquireSlot
  | drawUuid
  | containsProtocolId (n : Nat)
  | invitationCollision (n : Nat)
  | importSources (n : Nat)
  | filterPeerAddr (address : Text)
  | insertTransfer (u : TransferUpsert)
  | startReceive (u : TransferUpsert)
  deriving DecidableEq

abbrev Ans : Op → Type
  | .targeted o => Targeted.Ans o
  | .acquireSlot | .filterPeerAddr _ => Bool
  | .drawUuid => TransferId
  | .containsProtocolId _ | .invitationCollision _ => Except VnidropError Bool
  | .importSources _ => Except VnidropError Payload
  | .insertTransfer _ | .startReceive _ => Except VnidropError Unit

abbrev Task (α : Type) := Prog Op Ans α

def op (o : Op) : Task (Ans o) := Prog.perform o

def within {α : Type} (p : Targeted.Task α) : Task α := p.embed .targeted fun _ a => a

/-- `share_files` up to its row. -/
def shareFiles (limits : Limits) (sources : Nat) (m : ShareMetadataInput) : Task (Except VnidropError Unit) := do
  if ← op .acquireSlot then
    Prog.andThen (pure (limits.checkSources sources)) fun _ =>
    Prog.andThen (pure (limits.validateMetadataText "transfer name" m.transferName)) fun _ =>
    Prog.andThen (pure (limits.validateMetadataText "sender name" m.senderName)) fun _ =>
    Prog.andThen (op (.containsProtocolId m.transferId)) fun reserved =>
      if reserved then
        pure (.error (.invalidInput "transfer id is already reserved by a targeted transfer"))
      else op (.insertTransfer (shareUpsert m))
  else return .error (.internal "transfer limiter is closed")

/-- `receive_to_target` from its parsed ticket to its row. -/
def persistReceiveStart (t : ParsedTransferTicket) : Task (Except Stop Unit) := do
  if ← op .acquireSlot then
    if ← op (.filterPeerAddr t.address) then
      match ← op (.startReceive (upsertOf t)) with
      | .ok _ => return .ok ()
      | .error _ => return .error (.failed "repository")
    else return .error (.failed "network")
  else return .error (.failed "internal")

/-- The loop of `prepare_targeted_transfer`, through the draws it takes; `none` while it has
not found an id. -/
def allocate (l : Local) : Nat → Task (Except VnidropError (Option TransferId))
  | 0 => return .ok none
  | draws + 1 => do
    let id ← op .drawUuid
    let protocolId := l.allocateProtocolTransferId id
    Prog.andThen (op (.invitationCollision protocolId)) fun collides =>
      if collides then allocate l draws
      else Prog.andThen (op (.containsProtocolId protocolId)) fun contained =>
        if contained then allocate l draws else pure (.ok (some id))

/-- What a caller of `prepare_targeted_transfer` asks for. -/
structure Preparation where
  receiverEndpointId : EndpointId
  sources : Nat
  transferName : Option Text
  deriving DecidableEq, Repr

/-- The payload is tagged and provided, and its row is registered. -/
def registerImported (l : Local) (p : Payload) (id : TransferId) : Targeted.Task (Except VnidropError Unit) := do
  let protocolId := l.allocateProtocolTransferId id
  if ← Targeted.op (.setTag id p.rootHash) then do
    Targeted.op (.registerShareHashes protocolId (p.rootHash :: p.memberHashes))
    Targeted.op (.setMode protocolId)
    if ← Targeted.op (.ask .registrationStopped) then do
      Targeted.teardownTargetedPayload protocolId id
      return .error (.invalidInput "targeted preparation stopped")
    else
      let now ← Targeted.op .now
      if ← Targeted.registerSender (senderRow l p id now) then
        match ← Targeted.op (.getRow id) with
        | .ok (some _) => return .ok ()
        | .ok none => return .error (.internal "targeted transfer missing")
        | .error e => return .error e
      else do
        Targeted.teardownTargetedPayload protocolId id
        return .error Targeted.Device.unavailable
  else return .error (.transfer "tag")

/-- `prepare_targeted_transfer`. -/
def prepareTargetedTransfer (l : Local) (limits : Limits) (draws : Nat) (r : Preparation) :
    Task (Except VnidropError Unit) := do
  if ← op (.targeted (.ask .relationshipSaved)) then
    Prog.andThen (allocate l draws) fun id =>
      match id with
      | none => pure (.ok ())
      | some id =>
        Prog.andThen (pure (limits.checkSources r.sources)) fun _ =>
        Prog.andThen (pure (limits.validateMetadataText "transfer name" r.transferName)) fun _ =>
        Prog.andThen (op (.importSources (l.allocateProtocolTransferId id))) fun payload =>
          within (registerImported l { payload with receiverEndpointId := r.receiverEndpointId } id)
  else return .error (.permission "relationship is not saved")

def storeReceiver (auth : TargetedAuthorization) : Task (Except VnidropError Bool) :=
  Prog.andThen (op (.invitationCollision auth.protocolTransferId)) fun collides =>
    if collides then
      pure (.error (.invalidInput "targeted transfer protocol id collides with invitation work"))
    else do
      match ← op (.targeted (.protect auth)) with
      | none => return .error Targeted.secretUnavailable
      | some handle =>
        match ← op (.targeted (.write (.persistReceiverAuthorization auth handle))) with
        | .ok created => return .ok created
        | .error e => do
          let _ ← op (.targeted (.remove handle))
          return .error e

def persistReceiver (auth : TargetedAuthorization) : Task (Except VnidropError Bool) :=
  Prog.andThen (op (.targeted (.getRow auth.transferId))) fun row =>
    match row with
    | some row => within (Targeted.redeliverReceiver row auth)
    | none => storeReceiver auth

inductive Call where
  | share (sources : Nat) (metadata : ShareMetadataInput)
  | receive (ticket : ParsedTransferTicket)
  | create (draws : Nat) (preparation : Preparation)
  | store (auth : TargetedAuthorization)
  deriving DecidableEq

/-- A call whose result nobody waits for. -/
def dropping {α : Type} (p : Task α) : Task Unit := do
  let _ ← p
  return ()

def Call.body (l : Local) (limits : Limits) : Call → Task Unit
  | .share sources metadata => dropping (shareFiles limits sources metadata)
  | .receive ticket => dropping (persistReceiveStart ticket)
  | .create draws preparation => dropping (prepareTargetedTransfer l limits draws preparation)
  | .store auth => dropping (persistReceiver auth)

/-! The installation. -/

/-- The two stores of one installation. -/
structure Installation where
  transfers : Transfers
  device : Targeted.Device

structure Choice extends Targeted.Choice where
  payload : Payload
  deriving DecidableEq

namespace Installation

/-- `contains_protocol_id`. -/
def containsProtocolId (s : Installation) (n : Nat) : Bool :=
  s.device.store.transfers.affects fun r => r.protocolTransferId = n

/-- `list_transfers`, searched for a number. -/
def lists (s : Installation) (n : Nat) : Bool := s.transfers.affects fun t => t.transferId = n

def history (s : Installation) (c : Choice) (r : Except VnidropError Transfers) :
    Option (Except VnidropError Unit × Installation) :=
  if c.fails then some (.error Targeted.Device.unavailable,s)
  else match r with
    | .ok transfers => some (.ok (),{ s with transfers })
    | .error e => some (.error e,s)

def exec (l : Local) (s : Installation) (c : Choice) : (o : Op) → Option (Ans o × Installation)
  | .targeted o => (s.device.exec l c.toChoice o).map fun r => (r.1,{ s with device := r.2 })
  | .acquireSlot | .filterPeerAddr _ => some (!c.fails,s)
  | .drawUuid => some (c.number,s)
  | .containsProtocolId n =>
    some (if c.fails then .error Targeted.Device.unavailable else .ok (s.containsProtocolId n),s)
  | .invitationCollision n =>
    some (if c.fails then .error Targeted.Device.unavailable else .ok (s.lists n),s)
  | .importSources _ => some (if c.fails then .error (.transfer "import") else .ok c.payload,s)
  | .insertTransfer u => s.history c (insertTransfer s.transfers u c.number c.now)
  | .startReceive u => s.history c (s.transfers.startReceive u c.number c.now)

end Installation

/-- What the rest of the program does to the two stores. -/
inductive Event where
  | transition (id : TransferId) (expected next : TransferStatus) (now : Millis)
  | completeReceive (id : TransferId) (now : Millis)
  | deleteTransfer (id : TransferId)
  | deleteReceiveHistory
  | targeted (w : Write) (now : Millis)
  | failResumable (id : TransferId) (now : Millis)
  | housekeep (e : Targeted.Housekeeping)
  deriving DecidableEq

/-- The protocol id of the row that a statement adds. -/
def brings : Write → Option Nat
  | .insert row => some row.protocolTransferId
  | .persistReceiverAuthorization auth _ => some auth.protocolTransferId
  | _ => none

def HasTransfer (t : Transfers) (n : Nat) : Prop := ∃ row, t.find n = some row

def HasProtocolId (s : Targeted.Store) (n : Nat) : Prop :=
  ∃ id row, s.getRow id = some row ∧ row.protocolTransferId = n

namespace Installation

def setTransfers (s : Installation) (r : Except VnidropError Transfers) : Option Installation :=
  match r with
  | .ok transfers => some { s with transfers }
  | .error _ => none

def setStore (s : Installation) (store : Targeted.Store) : Installation :=
  { s with device := { s.device with store } }

def event (s : Installation) : Event → Option Installation
  | .transition id expected next now => s.setTransfers (s.transfers.transition id expected next now)
  | .completeReceive id now => s.setTransfers (s.transfers.completeReceive id now)
  | .deleteTransfer id => some { s with transfers := s.transfers.delete id }
  | .deleteReceiveHistory => some { s with transfers := s.transfers.deleteWhere Transfers.restarts }
  | .targeted w now =>
    -- the rows are added by the calls
    if (brings w).isSome then none
    else match w.run s.device.store now with
      | .ok (_,store) => some (s.setStore store)
      | .error _ => none
  | .failResumable id now => some (s.setStore (s.device.store.failResumableAndClearDelivery id now).2)
  | .housekeep e => some { s with device := s.device.housekeep e }

/-- The number is the id of an invitation transfer. -/
def IsInvitation (s : Installation) (n : Nat) : Prop := HasTransfer s.transfers n

/-- The number is the protocol id of a targeted transfer. -/
def IsTargeted (s : Installation) (n : Nat) : Prop := HasProtocolId s.device.store n

end Installation

/-! What the statements do to the numbers in use. -/

section Statements

variable {s t : Targeted.Store} {w : Write} {now : Millis} {changed : Bool} {n : Nat}
  {row old : TargetedTransferRow} {found : Option TargetedTransferRow} {id : TransferId}

theorem kept_map {f : TargetedTransferRow → TargetedTransferRow} (h : found.map f = some row)
    (keeps : ∀ r, (f r).protocolTransferId = r.protocolTransferId) :
    ∃ old, found = some old ∧ old.protocolTransferId = row.protocolTransferId := by
  obtain ⟨old,there,rfl⟩ := Option.map_eq_some_iff.mp h
  exact ⟨old,there,(keeps old).symm⟩

/-- A row after a statement has the protocol id of the row before, or the one that it brings. -/
theorem onRow_brings (h : w.onRow now id found = some row) :
    (∃ old, found = some old ∧ old.protocolTransferId = row.protocolTransferId) ∨
    brings w = some row.protocolTransferId := by
  have same (h : found = some row) : ∃ old, found = some old ∧
      old.protocolTransferId = row.protocolTransferId := ⟨row,h,rfl⟩
  cases w with
  | insert new =>
    simp only [Write.onRow] at h
    split at h
    · cases h
      exact .inr rfl
    · exact .inl (same h)
  | persistReceiverAuthorization auth handle =>
    simp only [Write.onRow] at h
    split at h
    · cases h
      exact .inr rfl
    · exact .inl (same h)
  | abandonSenderPreapproval id' =>
    simp only [Write.onRow] at h
    split at h
    · exact .inl (same (Option.filter_eq_some_iff.mp h).1)
    · exact .inl (same h)
  | setState | updateState | markSenderCompleted | finalizeSenderAuthorization | completeReceiver
    | advanceVerifiedBytes | clearAuthorization | transitionTerminal =>
    left
    simp only [Write.onRow] at h
    split at h
    · refine kept_map h fun r => ?_
      first
        | rfl
        | (split <;> rfl)
    · exact same h
  | cancelByPeer peer => exact .inl (kept_map h fun r => by split <;> rfl)
  | _ => exact .inl (same h)

theorem run_brings (h : w.run s now = .ok (changed,t)) (there : HasProtocolId t n) :
    HasProtocolId s n ∨ brings w = some n := by
  obtain ⟨id,row,here,rfl⟩ := there
  rw [Targeted.run_getRow h id] at here
  rcases onRow_brings here with ⟨old,found,same⟩ | brought
  · exact .inl ⟨id,old,found,same⟩
  · exact .inr brought

theorem kept_update {p : TargetedTransferRow → Bool} {f : TargetedTransferRow → TargetedTransferRow}
    {table : Table TargetedTransferRow.id} (keeps : ∀ r, (f r).id = r.id)
    (same : ∀ r, (f r).protocolTransferId = r.protocolTransferId)
    (there : (table.updateWhere p f keeps).find id = some row) :
    ∃ old, table.find id = some old ∧ old.protocolTransferId = row.protocolTransferId := by
  rw [Table.find_updateWhere] at there
  refine kept_map there fun r => ?_
  split
  · exact same r
  · rfl

theorem housekeep_keeps {d : Targeted.Device} {e : Targeted.Housekeeping}
    (there : HasProtocolId (d.housekeep e).store n) : HasProtocolId d.store n := by
  obtain ⟨id,row,here,rfl⟩ := there
  cases e with
  | markInterruptedInFlight | failSenderPreapproval | resetIdentity =>
    obtain ⟨old,found,same⟩ := kept_update (fun _ => by rfl) (fun _ => by rfl) here
    exact ⟨id,old,found,same⟩

theorem failResumable_keeps (there : HasProtocolId (s.failResumableAndClearDelivery id now).2 n) :
    HasProtocolId s n := by
  obtain ⟨id',row,here,rfl⟩ := there
  unfold Targeted.Store.failResumableAndClearDelivery at here
  dsimp only at here
  split at here
  · obtain ⟨old,found,same⟩ := kept_update (fun _ => by rfl) (fun _ => by rfl) here
    exact ⟨id',old,found,same⟩
  · exact ⟨id',row,here,rfl⟩

theorem affects_protocol : (s.transfers.affects fun r => r.protocolTransferId = n) = true ↔ HasProtocolId s n := by
  constructor
  · intro h
    obtain ⟨row,member,same⟩ := List.any_eq_true.mp h
    exact ⟨row.id,row,Table.find_of_mem member,of_decide_eq_true same⟩
  · rintro ⟨id,row,here,same⟩
    exact List.any_eq_true.mpr ⟨row,Table.find_mem here,decide_eq_true same⟩

end Statements

section History

variable {t v : Transfers} {u : TransferUpsert} {localId : Text} {id n : Nat} {now : Millis}
  {expected next : TransferStatus}

theorem affects_transfer : (t.affects fun row => row.transferId = n) = true ↔ HasTransfer t n := by
  constructor
  · intro h
    obtain ⟨row,member,same⟩ := List.any_eq_true.mp h
    exact ⟨row,of_decide_eq_true same ▸ Table.find_of_mem member⟩
  · rintro ⟨row,here⟩
    exact List.any_eq_true.mpr ⟨row,Table.find_mem here,decide_eq_true (Table.find_key here)⟩

theorem moved_row {row new : Transfer} (found : t.find id = some row)
    (after : ∀ k, v.find k = if k = id then some new else t.find k) (there : HasTransfer v n) :
    HasTransfer t n := by
  by_cases same : n = id
  · exact ⟨row,same ▸ found⟩
  · obtain ⟨r,here⟩ := there
    rw [after n,if_neg same] at here
    exact ⟨r,here⟩

theorem transition_keeps (h : t.transition id expected next now = .ok v) (there : HasTransfer v n) :
    HasTransfer t n := by
  rcases Transfers.transition_ok h with ⟨row,found,_,after⟩ | ⟨rfl,_⟩
  · exact moved_row found after there
  · exact there

theorem completeReceive_keeps (h : t.completeReceive id now = .ok v) (there : HasTransfer v n) :
    HasTransfer t n := by
  obtain ⟨row,found,_,after⟩ := Transfers.completeReceive_ok h
  exact moved_row found after there

theorem deleteWhere_keeps {p : Transfer → Bool} (there : HasTransfer (t.deleteWhere p) n) : HasTransfer t n := by
  obtain ⟨row,here⟩ := there
  rw [Table.find_deleteWhere] at here
  exact ⟨row,(Option.filter_eq_some_iff.mp here).1⟩

theorem startReceive_adds (h : t.startReceive u localId now = .ok v) (there : HasTransfer v n) :
    HasTransfer t n ∨ n = u.transferId := by
  by_cases starts : u.direction = .receive ∧ u.status = .receiving
  · obtain ⟨_,_,after⟩ := Transfers.startReceive_ok starts.1 starts.2 h
    by_cases same : n = u.transferId
    · exact .inr same
    · obtain ⟨row,here⟩ := there
      rw [after n,if_neg same] at here
      exact .inl ⟨row,here⟩
  · have refused : u.direction ≠ .receive ∨ u.status ≠ .receiving := by
      by_cases receive : u.direction = .receive
      · exact .inr fun receiving => starts ⟨receive,receiving⟩
      · exact .inl receive
    unfold Transfers.startReceive at h
    rw [if_pos refused] at h
    cases h

/-- An insertion that succeeds has found the id unused, and adds it alone. -/
theorem insertTransfer_ok (h : insertTransfer t u localId now = .ok v) :
    t.find u.transferId = none ∧ ∀ n, HasTransfer v n → HasTransfer t n ∨ n = u.transferId := by
  unfold insertTransfer at h
  simp only [Excepts.bind_ok] at h
  obtain ⟨_,_,_,_,_,_,h⟩ := h
  split at h
  · rename_i w added
    cases h
    refine ⟨Table.insert_isSome.mp (added ▸ rfl : (t.insert (inserted u localId now)).isSome),fun n there => ?_⟩
    obtain ⟨row,here⟩ := there
    rw [Table.find_insert added] at here
    split at here
    · rename_i same
      exact .inr same
    · exact .inl ⟨row,here⟩
  · cases h

end History

/-! Which checks have been overtaken. -/

/-- The checks of the targeted transfers, and those of the invitation transfers. -/
structure History where
  shares : Checks Nat
  targets : Checks Nat

def record (h : History) (_ : Installation) (i : Nat) (_ : Call) : (o : Op) → Ans o → History
  | .containsProtocolId n, .ok false => { h with shares := h.shares.pass i n }
  | .invitationCollision n, .ok false => { h with targets := h.targets.pass i n }
  | .insertTransfer u, .ok _ | .startReceive u, .ok _ =>
    { h with targets := h.targets.overtake u.transferId }
  | .targeted (.write w), .ok _ => (brings w).elim h fun n => { h with shares := h.shares.overtake n }
  | _, _ => h

/-- The two namespaces have no number in common. -/
def Disjoint (s : Installation) : Prop := ∀ n, s.IsInvitation n → ¬s.IsTargeted n

abbrev Seen := Observed Installation History

def machine (l : Local) (limits : Limits) : Machine Seen Call Op Ans Choice Event :=
  Machine.observe ⟨Disjoint,fun _ _ => true,Call.body l limits,fun s _ _ o c => s.exec l c o,Installation.event⟩
    ⟨.new,.new⟩ record fun h _ _ => h

/-- A receive adds no row for a number of a targeted transfer, and a call adds no row for a
number that the other side has taken, and still has, since the call checked it. -/
def permits (s : Seen) (i : Nat) (c : Choice) : Op → Bool
  | .insertTransfer u =>
    c.fails || s.state.lists u.transferId || s.history.shares.stands i u.transferId ||
      !s.state.containsProtocolId u.transferId
  | .startReceive u =>
    c.fails || s.state.lists u.transferId || !s.state.containsProtocolId u.transferId
  | .targeted (.write w) =>
    c.fails || (brings w).all fun n => s.history.targets.stands i n || !s.state.lists n
  | _ => true

def minds (s : Seen) (i : Nat) (_ : Call) (o : Op) (c : Choice) : Prop := permits s i c o = true

structure Inv (s : Seen) : Prop where
  disjoint : Disjoint s.state
  shares : s.history.shares.Sound s.state.IsTargeted
  targets : s.history.targets.Sound s.state.IsInvitation

/-- What the others leave to thread `i`. -/
structure Kept (i : Nat) (s t : Seen) : Prop where
  shares : ∀ n, (i,n) ∈ s.history.shares.passed → (i,n) ∈ t.history.shares.passed
  targets : ∀ n, (i,n) ∈ s.history.targets.passed → (i,n) ∈ t.history.targets.passed

theorem Kept.refl (i : Nat) (s : Seen) : Kept i s s := ⟨fun _ h => h,fun _ h => h⟩

theorem Kept.trans {i : Nat} {s t u : Seen} (first : Kept i s t) (second : Kept i t u) : Kept i s u :=
  ⟨fun n h => second.shares n (first.shares n h),fun n h => second.targets n (first.targets n h)⟩

def terms : Terms Seen where
  known _ := True
  inv := Inv
  rely := Kept
  refl := Kept.refl
  trans _ := Kept.trans

section Steps

variable {l : Local} {limits : Limits} {s t u : Seen} {i j : Nat} {call : Call} {c : Choice} {o : Op}
  {a : Ans o} {n : Nat}

theorem lists_iff {s : Installation} : s.lists n = true ↔ s.IsInvitation n := affects_transfer

theorem contains_iff {s : Installation} : s.containsProtocolId n = true ↔ s.IsTargeted n := affects_protocol

theorem Inv.fewer (inv : Inv s) (same : t.history = s.history)
    (transfers : ∀ n, t.state.IsInvitation n → s.state.IsInvitation n)
    (targeted : ∀ n, t.state.IsTargeted n → s.state.IsTargeted n) : Inv t where
  disjoint n here there := inv.disjoint n (transfers n here) (targeted n there)
  shares := same ▸ inv.shares.mono targeted
  targets := same ▸ inv.targets.mono transfers

/-- A number that no targeted transfer has becomes the id of an invitation transfer. -/
theorem Inv.addTransfer (inv : Inv s) {transfers : Transfers} (fresh : ¬s.state.IsTargeted n)
    (more : ∀ k, HasTransfer transfers k → s.state.IsInvitation k ∨ k = n) :
    Inv ⟨{ s.state with transfers },{ s.history with targets := s.history.targets.overtake n }⟩ where
  disjoint k here there := by
    rcases more k here with before | same
    · exact inv.disjoint k before there
    · exact fresh (same ▸ there)
  shares := inv.shares
  targets := inv.targets.overtake more

/-- A number that no invitation transfer has becomes the protocol id of a targeted transfer. -/
theorem Inv.addTargeted (inv : Inv s) {device : Targeted.Device} (fresh : ¬s.state.IsInvitation n)
    (more : ∀ k, HasProtocolId device.store k → s.state.IsTargeted k ∨ k = n) :
    Inv ⟨{ s.state with device },{ s.history with shares := s.history.shares.overtake n }⟩ where
  disjoint k here there := by
    rcases more k there with before | same
    · exact inv.disjoint k here before
    · exact fresh (same ▸ here)
  shares := inv.shares.overtake more
  targets := inv.targets

theorem history_cases {s t : Installation} {r : Except VnidropError Transfers} {a : Except VnidropError Unit}
    (h : s.history c r = some (a,t)) :
    (t = s ∧ ∃ e, a = .error e) ∨
    ∃ transfers, c.fails = false ∧ r = .ok transfers ∧ a = .ok () ∧ t = { s with transfers } := by
  unfold Installation.history at h
  split at h
  · cases h
    exact .inl ⟨rfl,_,rfl⟩
  · rename_i works
    cases r with
    | ok transfers =>
      cases h
      exact .inr ⟨transfers,Bool.not_eq_true _ ▸ works,rfl,rfl,rfl⟩
    | error e =>
      cases h
      exact .inl ⟨rfl,_,rfl⟩

/-- A call that adds a row has checked its number, a receive apart. -/
def Ready (s : Seen) (i : Nat) : Op → Prop
  | .insertTransfer u => (i,u.transferId) ∈ s.history.shares.passed
  | .targeted (.write w) => ∀ n, brings w = some n → (i,n) ∈ s.history.targets.passed
  | _ => True

theorem write_inv {w : Write} {a : Ans (.targeted (.write w))} {d : Targeted.Device} (inv : Inv s)
    (ready : Ready s i (.targeted (.write w))) (permitted : permits s i c (.targeted (.write w)) = true)
    (ran : s.state.device.exec l c.toChoice (.write w) = some (a,d)) :
    Inv ⟨{ s.state with device := d },record s.history s.state i call (.targeted (.write w)) a⟩ := by
  rcases Targeted.Device.exec_write ran with ⟨⟨e,rfl⟩,rfl⟩ | ⟨changed,store,wrote,rfl,rfl⟩
  · exact inv
  · have works : c.fails = false := by
      rw [← Bool.not_eq_true]
      intro fails
      simp only [Targeted.Device.exec,fails,if_true] at ran
      cases ran
    have adds (k : Nat) (there : HasProtocolId store k) : s.state.IsTargeted k ∨ brings w = some k :=
      run_brings wrote there
    simp only [record]
    cases brought : brings w with
    | none =>
      rw [brought] at adds
      exact inv.fewer rfl (fun _ here => here) fun k there => (adds k there).resolve_right fun same => by cases same
    | some n =>
      rw [brought] at adds
      have free : ¬s.state.IsInvitation n := by
        have either : s.history.targets.stands i n = true ∨ s.state.lists n = false := by
          simpa [permits,works,brought] using permitted
        rcases either with stands | unlisted
        · exact inv.targets i n (ready n brought) stands
        · rw [← lists_iff,unlisted]
          exact Bool.false_ne_true
      exact inv.addTargeted free fun k there =>
        (adds k there).imp_right fun same => (Option.some.inj same).symm

theorem exec_inv {e : Installation} (inv : Inv s) (ready : Ready s i o) (permitted : permits s i c o = true)
    (ran : s.state.exec l c o = some (a,e)) : Inv ⟨e,record s.history s.state i call o a⟩ := by
  cases o with
  | targeted o' =>
    obtain ⟨⟨b,d⟩,performed,same⟩ := Option.map_eq_some_iff.mp ran
    cases same
    have kept := Targeted.store_kept performed
    cases o' with
    | write w => exact write_inv inv ready permitted performed
    | _ =>
      rcases kept with ⟨w,eq⟩ | same
      · cases eq
      · exact inv.fewer rfl (fun _ here => here) fun n (there : HasProtocolId d.store n) =>
          (show HasProtocolId s.state.device.store n from same ▸ there)
  | acquireSlot | filterPeerAddr | drawUuid | importSources =>
    cases ran
    exact inv
  | containsProtocolId n =>
    have ran : some (if c.fails then .error Targeted.Device.unavailable
      else .ok (s.state.containsProtocolId n),s.state) = some (a,e) := ran
    cases ran
    split
    · exact inv
    · cases found : s.state.containsProtocolId n with
      | true => exact inv
      | false =>
        refine ⟨inv.disjoint,inv.shares.pass fun there => ?_,inv.targets⟩
        rw [contains_iff.mpr there] at found
        cases found
  | invitationCollision n =>
    have ran : some (if c.fails then .error Targeted.Device.unavailable
      else .ok (s.state.lists n),s.state) = some (a,e) := ran
    cases ran
    split
    · exact inv
    · cases found : s.state.lists n with
      | true => exact inv
      | false =>
        refine ⟨inv.disjoint,inv.shares,inv.targets.pass fun there => ?_⟩
        rw [lists_iff.mpr there] at found
        cases found
  | insertTransfer u =>
    rcases history_cases ran with ⟨rfl,_,rfl⟩ | ⟨transfers,works,added,rfl,rfl⟩
    · exact inv
    · obtain ⟨absent,more⟩ := insertTransfer_ok added
      have unlisted : s.state.lists u.transferId = false := by
        rw [← Bool.not_eq_true,lists_iff]
        rintro ⟨row,there⟩
        rw [absent] at there
        cases there
      have free : ¬s.state.IsTargeted u.transferId := by
        have either : s.history.shares.stands i u.transferId = true ∨
            s.state.containsProtocolId u.transferId = false := by
          simpa [permits,works,unlisted] using permitted
        rcases either with stands | absent
        · exact inv.shares i _ ready stands
        · rw [← contains_iff,absent]
          exact Bool.false_ne_true
      exact inv.addTransfer free more
  | startReceive u =>
    rcases history_cases ran with ⟨rfl,_,rfl⟩ | ⟨transfers,works,added,rfl,rfl⟩
    · exact inv
    · refine inv.addTransfer (fun there => ?_) fun k here => startReceive_adds added here
      by_cases listed : s.state.lists u.transferId = true
      · exact inv.disjoint _ (lists_iff.mp listed) there
      · simp [permits,works,listed,contains_iff.mpr there] at permitted

/-- No operation takes a passed check back. -/
theorem exec_kept (e : Installation) : Kept j s ⟨e,record s.history s.state i call o a⟩ := by
  have same : Kept j s ⟨e,s.history⟩ := ⟨fun _ h => h,fun _ h => h⟩
  cases o with
  | containsProtocolId n =>
    rcases a with _ | _ | _
    · exact same
    · exact ⟨fun _ => Checks.passed_pass,fun _ h => h⟩
    · exact same
  | invitationCollision n =>
    rcases a with _ | _ | _
    · exact same
    · exact ⟨fun _ h => h,fun _ => Checks.passed_pass⟩
    · exact same
  | insertTransfer u | startReceive u => cases a <;> exact ⟨fun _ h => h,fun _ h => h⟩
  | targeted o' =>
    cases o' with
    | write w =>
      cases a with
      | error _ => exact same
      | ok _ =>
        simp only [record]
        cases brings w <;> exact ⟨fun _ h => h,fun _ h => h⟩
    | _ => exact same
  | _ => exact same

theorem event_inv {e : Event} {d : Installation} (inv : Inv s) (moved : s.state.event e = some d) :
    Inv ⟨d,s.history⟩ := by
  cases e with
  | transition id expected next now =>
    simp only [Installation.event,Installation.setTransfers] at moved
    split at moved
    · rename_i done
      cases moved
      exact inv.fewer rfl (fun _ => transition_keeps done) fun _ there => there
    · cases moved
  | completeReceive id now =>
    simp only [Installation.event,Installation.setTransfers] at moved
    split at moved
    · rename_i done
      cases moved
      exact inv.fewer rfl (fun _ => completeReceive_keeps done) fun _ there => there
    · cases moved
  | deleteTransfer id | deleteReceiveHistory =>
    cases moved
    exact inv.fewer rfl (fun _ => deleteWhere_keeps) fun _ there => there
  | targeted w now =>
    simp only [Installation.event] at moved
    split at moved
    · cases moved
    · rename_i none
      split at moved
      · rename_i wrote
        cases moved
        refine inv.fewer rfl (fun _ here => here) fun n there => (run_brings wrote there).resolve_right ?_
        intro brought
        simp [brought] at none
      · cases moved
  | failResumable id now =>
    cases moved
    exact inv.fewer rfl (fun _ here => here) fun _ => failResumable_keeps
  | housekeep e =>
    cases moved
    exact inv.fewer rfl (fun _ here => here) fun _ => housekeep_keeps

end Steps

namespace Sample

def device : Local := ⟨2,1,10,100,8,id,some⟩

def limits : Limits := ⟨10,4096,id⟩

def start : Conf Seen Call Op Ans := ⟨⟨⟨⟨[],List.nodup_nil⟩,.new⟩,⟨.new,.new⟩⟩,[]⟩

/-- Nothing fails; call `i` is told `flag` where it asks. -/
def proceed (i : Nat) (flag : Bool) : Label Call Choice Event :=
  .act i ⟨⟨0,false,flag,9,none,⟨[],true⟩⟩,⟨3,5,[],3,1,1,1⟩⟩

/-- An accepted offer, and its authorization with the protocol id 7. -/
def offer : PendingTargetedOffer := ⟨5,1,2,3,3,4,1,1,1,0⟩
def authorization : TargetedAuthorization := ⟨5,7,1,2,3,3,1,1,1,4,3,6⟩

def ticket (n : TransferId) : ParsedTransferTicket := ⟨n,4,none,3,1,1,1,8⟩

/-- The authorization is stored, 8 is shared, 9 is created, and a ticket for `n` received. -/
def calls (n : TransferId) : List (Label Call Choice Event) :=
  .env (.targeted (.persistAcceptedOfferIntent offer) 0) ::
  .fork (.store authorization) :: List.replicate 4 (proceed 0 false) ++
  .fork (.share 1 ⟨8,none,none,"open"⟩) :: List.replicate 3 (proceed 1 false) ++
  .fork (.create 1 ⟨3,1,none⟩) :: List.replicate 6 (proceed 2 true) ++ List.replicate 7 (proceed 2 false) ++
  .fork (.receive (ticket n)) :: List.replicate 3 (proceed 3 false)

def after (n : TransferId) : Conf Seen Call Op Ans :=
  ((machine device limits).system.run start (calls n)).getD start

theorem start_new : (machine device limits).system.init start := by
  refine ⟨⟨fun n here => ?_,rfl⟩,rfl⟩
  obtain ⟨row,there⟩ := here
  cases there

end Sample

open Sample in
/-- A ticket with the protocol id of a stored authorization is received. -/
theorem received_protocol_id : ∃ c, Reach (machine device limits).system Always c ∧
    ¬Disjoint c.shared.state ∧ ∀ t ∈ c.threads, t.rest.finished = true := by
  have ran : (machine device limits).system.run start (calls 7) = some (after 7) := rfl
  refine ⟨after 7,.of_run start_new ran,fun disjoint => ?_,by decide⟩
  exact disjoint 7 (lists_iff.mp rfl) (contains_iff.mp rfl)

/-! The calls, one by one. -/

section Calls

variable {l : Local} {limits : Limits} {s u : Seen} {i : Nat} {call : Call} {c : Choice} {o : Op} {a : Ans o}
  {n : Nat}

abbrev Does (l : Local) (limits : Limits) (i : Nat) (call : Call) {α : Type} (p : Task α)
    (post : α → Seen → Prop) (s : Seen) : Prop :=
  Safe ((machine l limits).restrict minds) free terms i call p post s

abbrev done {α : Type} : α → Seen → Prop := fun _ _ => True

/-- What an operation does, and that it was permitted. -/
theorem performed (ran : ((machine l limits).restrict minds).exec s i call o c = some (a,u)) :
    permits s i c o = true ∧ ∃ e, s.state.exec l c o = some (a,e) ∧
      u = ⟨e,record s.history s.state i call o a⟩ := by
  obtain ⟨permitted,ran⟩ := restrict_exec.mp ran
  exact ⟨permitted,observe_exec ran⟩

theorem does_op {α : Type} {o : Op} {f : Ans o → Task α} {post : α → Seen → Prop}
    (h : ∀ t, Kept i s t → Ready t i o ∧ ∀ a e,
      Does l limits i call (f a) post ⟨e,record t.history t.state i call o a⟩) :
    Does l limits i call (op o >>= f) post s := by
  refine safe_perform fun t _ inv kept choice r u _ ran => ?_
  obtain ⟨permitted,e,here,rfl⟩ := performed ran
  obtain ⟨ready,rest⟩ := h t kept
  exact ⟨⟨exec_inv inv ready permitted here,fun j _ => exec_kept e⟩,rest r e⟩

/-- A program of operations that are ready while `K` holds, which the others keep. -/
theorem does_all {K : Seen → Prop} (stable : ∀ s t, Kept i s t → K s → K t) {α : Type} {p : Task α}
    (all : p.All fun o => ∀ t, K t → Ready t i o) (here : K s) : Does l limits i call p (fun _ => K) s := by
  induction p generalizing s with
  | ret a => exact here
  | step o k ih =>
    refine does_op fun t kept => ⟨all.1 t (stable s t kept here),fun a e => ?_⟩
    exact ih a (all.2 a) (stable t _ (exec_kept e) (stable s t kept here))

theorem does_checked {α β : Type} {r : Except VnidropError α} {f : α → Task (Except VnidropError β)}
    (h : ∀ a, Does l limits i call (f a) done s) : Does l limits i call (Prog.andThen (pure r) f) done s := by
  cases r with
  | ok a => exact h a
  | error e => trivial

/-- The statements that add a row are other operations. -/
abbrev adds : List Targeted.Kind := [.insert,.persistReceiverAuthorization]

theorem ready_aside {o : Targeted.Op} (aside : adds.contains o.kind = false) : Ready s i (.targeted o) := by
  cases o with
  | write w =>
    intro n brought
    cases w with
    | insert | persistReceiverAuthorization => cases aside
    | _ => cases brought
  | _ => trivial

theorem does_aside {α : Type} {p : Targeted.Task α} (aside : Targeted.Avoids adds p) :
    Does l limits i call (within p) done s := by
  refine safe_mono (fun _ _ _ => trivial) (does_all (K := fun _ => True) (fun _ _ _ h => h) ?_ trivial)
  exact Prog.all_embed (Prog.all_mono (fun _ aside _ _ => ready_aside aside) aside)

theorem does_share {sources : Nat} {m : ShareMetadataInput} :
    Does l limits i call (shareFiles limits sources m) done s := by
  refine does_op fun t _ => ⟨trivial,fun a e => ?_⟩
  cases a with
  | false => trivial
  | true =>
    refine does_checked fun _ => does_checked fun _ => does_checked fun _ => ?_
    refine does_op fun t _ => ⟨trivial,fun a e => ?_⟩
    rcases a with _ | _ | _
    · trivial
    · exact does_op fun v kept => ⟨kept.shares _ List.mem_cons_self,fun _ _ => trivial⟩
    · trivial

theorem does_receive {ticket : ParsedTransferTicket} :
    Does l limits i call (persistReceiveStart ticket) done s := by
  refine does_op fun t _ => ⟨trivial,fun a e => ?_⟩
  cases a with
  | false => trivial
  | true =>
    refine does_op fun t _ => ⟨trivial,fun a e => ?_⟩
    cases a with
    | false => trivial
    | true =>
      refine does_op fun t _ => ⟨trivial,fun a e => ?_⟩
      cases a <;> trivial

/-- The listing has been searched for the protocol id that the loop ends with. -/
theorem does_allocate {draws : Nat} : Does l limits i call (allocate l draws) (fun r t =>
    ∀ id, r = .ok (some id) → (i,l.allocateProtocolTransferId id) ∈ t.history.targets.passed) s := by
  induction draws generalizing s with
  | zero => exact fun id same => by cases same
  | succ draws ih =>
    refine does_op fun t _ => ⟨trivial,fun id e => ?_⟩
    refine does_op fun t _ => ⟨trivial,fun collides e => ?_⟩
    rcases collides with _ | _ | _
    · exact fun id same => by cases same
    · refine does_op fun v kept => ⟨trivial,fun contained e => ?_⟩
      rcases contained with _ | _ | _
      · exact fun id same => by cases same
      · intro id' same
        cases same
        exact (exec_kept e).targets _ (kept.targets _ List.mem_cons_self)
      · exact ih
    · exact ih

theorem stable_passed {t : Seen} (kept : Kept i s t) (passed : (i,n) ∈ s.history.targets.passed) :
    (i,n) ∈ t.history.targets.passed := kept.targets n passed

/-- The row of a creation has the protocol id of its identifier, and no other statement adds one. -/
theorem registerImported_ready {p : Payload} {id : TransferId} :
    (registerImported l p id).All fun o => ∀ t, (i,l.allocateProtocolTransferId id) ∈ t.history.targets.passed →
      Ready t i (.targeted o) := by
  have aside {α : Type} {q : Targeted.Task α} (avoids : Targeted.Avoids adds q) : q.All fun o => ∀ t,
      (i,l.allocateProtocolTransferId id) ∈ t.history.targets.passed → Ready t i (.targeted o) :=
    Prog.all_mono (fun _ aside _ _ => ready_aside aside) avoids
  have torn : Targeted.Avoids adds (Targeted.teardownTargetedPayload (l.allocateProtocolTransferId id) id) :=
    (Targeted.teardown_uses _).avoids (by decide)
  unfold registerImported
  refine Prog.all_bind (aside (Prog.all_perform rfl)) fun tagged => ?_
  cases tagged with
  | false => trivial
  | true =>
    refine Prog.all_bind (aside (Prog.all_perform rfl)) fun _ => ?_
    refine Prog.all_bind (aside (Prog.all_perform rfl)) fun _ => ?_
    refine Prog.all_bind (aside (Prog.all_perform rfl)) fun stopped => ?_
    cases stopped with
    | true => exact Prog.all_bind (aside torn) fun _ => trivial
    | false =>
      refine Prog.all_bind (aside (Prog.all_perform rfl)) fun now => ?_
      refine Prog.all_bind ?_ fun registered => ?_
      · refine Prog.all_bind (Prog.all_perform fun t passed n brought => ?_) fun added => ?_
        · cases brought
          exact passed
        · cases added with
          | error e => trivial
          | ok _ =>
            refine Prog.all_bind (aside (Prog.all_perform rfl)) fun set => ?_
            cases set <;> trivial
      · cases registered with
        | false => exact Prog.all_bind (aside torn) fun _ => trivial
        | true =>
          refine Prog.all_bind (aside (Prog.all_perform rfl)) fun row => ?_
          rcases row with _ | _ | _ <;> trivial

theorem does_prepare {draws : Nat} {r : Preparation} :
    Does l limits i call (prepareTargetedTransfer l limits draws r) done s := by
  refine does_op fun t _ => ⟨trivial,fun saved e => ?_⟩
  cases saved with
  | false => trivial
  | true =>
    refine safe_andThen (safe_mono (fun result t passed => ⟨fun id same => ?_,fun _ _ => trivial⟩) does_allocate)
    cases id with
    | none => trivial
    | some id =>
      refine does_checked fun _ => does_checked fun _ => ?_
      refine does_op fun v kept => ⟨trivial,fun payload e => ?_⟩
      cases payload with
      | error e => trivial
      | ok payload =>
        refine safe_mono (fun _ _ _ => trivial) (does_all (fun _ _ => stable_passed)
          (Prog.all_embed registerImported_ready) ?_)
        exact kept.targets _ (passed id same)

theorem does_store {auth : TargetedAuthorization} : Does l limits i call (persistReceiver auth) done s := by
  refine does_op fun t _ => ⟨trivial,fun row e => ?_⟩
  rcases row with _ | _ | row
  · trivial
  · refine does_op fun t _ => ⟨trivial,fun collides e => ?_⟩
    rcases collides with _ | _ | _
    · trivial
    · refine does_op fun v kept => ⟨trivial,fun handle e => ?_⟩
      cases handle with
      | none => trivial
      | some handle =>
        refine does_op fun w kept' => ⟨fun n brought => ?_,fun stored e => ?_⟩
        · cases brought
          exact kept'.targets _ (kept.targets _ List.mem_cons_self)
        · cases stored with
          | ok created => trivial
          | error _ => exact does_op fun _ _ => ⟨trivial,fun _ _ => trivial⟩
    · trivial
  · refine does_aside ?_
    unfold Targeted.redeliverReceiver
    repeat' first
      | exact trivial
      | exact Prog.all_perform rfl
      | refine Prog.all_bind ?_ fun _ => ?_
      | split

theorem does_call : Does l limits i call (call.body l limits) done s := by
  cases call with
  | share => exact safe_bind (safe_mono (fun _ _ _ => trivial) does_share)
  | receive => exact safe_bind (safe_mono (fun _ _ _ => trivial) does_receive)
  | create => exact safe_bind (safe_mono (fun _ _ _ => trivial) does_prepare)
  | store => exact safe_bind (safe_mono (fun _ _ _ => trivial) does_store)

end Calls

/-- In a run whose receives take no number of a targeted transfer, and whose calls add no row
after their check has been overtaken, no number is in use on both sides. -/
theorem namespaces_disjoint {l : Local} {limits : Limits} {c : Conf Seen Call Op Ans}
    (reach : Reach (machine l limits).system (Watched minds) c) : Disjoint c.shared.state := by
  have secured : Secured ((machine l limits).restrict minds) free terms (fun _ _ _ => True) c := by
    refine reach_secured (fun _ _ => trivial) (fun s start => ?_) (fun c call _ _ _ _ => does_call)
      (fun _ _ _ _ _ _ => trivial) (fun s e t _ inv _ moved => ?_) (reach_watched reach)
    · obtain ⟨disjoint,history⟩ := start
      refine ⟨disjoint,fun i k there => ?_,fun i k there => ?_⟩
      · rw [history] at there
        cases there
      · rw [history] at there
        cases there
    · obtain ⟨d,happened,rfl⟩ := Option.map_eq_some_iff.mp moved
      exact ⟨event_inv inv happened,fun j => ⟨fun _ h => h,fun _ h => h⟩⟩
  exact secured.inv.disjoint

instance (c : Conf Seen Call Op Ans) : DecidablePred (Watched (γ := Event) minds c) :=
  have (s : Seen) (i : Nat) (call : Call) (o : Op) (c : Choice) : Decidable (minds s i call o c) :=
    inferInstanceAs (Decidable (permits s i c o = true))
  inferInstance

open Sample in
theorem calls_disjoint : ([7,8,9,10].map (after 10).shared.state.lists = [false,true,false,true] ∧
    [7,8,9,10].map (after 10).shared.state.containsProtocolId = [true,false,true,false]) ∧
    Disjoint (after 10).shared.state := by
  have ran : (machine device limits).system.run start (calls 10) = some (after 10) := rfl
  exact ⟨⟨by rfl,by rfl⟩,namespaces_disjoint (.run (.start start start_new) (by decide) ran)⟩

end Vnidrop.Identifiers
