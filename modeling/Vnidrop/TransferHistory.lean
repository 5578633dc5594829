import Vnidrop.Identifiers

/-! The statements that write `transfers`, and what the rows go through over any run of them. -/
namespace Vnidrop.Receives

open Tables Runs Invitation
open Identifiers (ShareMetadataInput shareUpsert insertTransfer inserted)

structure RecoveredTransfer where
  transferId : TransferId
  direction : TransferDirection
  previousStatus : TransferStatus
  deriving DecidableEq, Repr

namespace Transfers

def completeShareImport (t : Transfers) (u : TransferUpsert) (now : Millis) :
    Except VnidropError Transfers := do
  if u.direction ≠ .send ∨ u.status ≠ .sharing then
    .error (.repository "share import must complete in the sharing state")
  else
    let _ ← toDbId u.fileCount
    let _ ← toDbId u.totalSize
    let _ ← toDbId u.transferId
    let here := fun row : Transfer =>
      row.transferId = u.transferId && (row.direction = .send && row.status = .importing)
    requireOneChanged (t.affects here) "complete share import"
    return t.updateWhere here fun row => { row with
      status := u.status, transferName := u.transferName, senderName := u.senderName,
      contentHash := u.contentHash, ticket := u.ticket, fileCount := u.fileCount,
      totalSize := u.totalSize, accessMode := u.accessMode, updatedAt := now }

/-- A share that is still being prepared or is live. -/
def shareOpen (row : Transfer) : Bool :=
  row.direction = .send && (row.status = .importing || row.status = .sharing)

def shareEnded (row : Transfer) : Bool :=
  row.direction = .send && (row.status = .cancelled || row.status = .stopped || row.status = .failed)

def cancelSharePreparation (t : Transfers) (id : TransferId) (now : Millis) :
    Except VnidropError Transfers := do
  let _ ← toDbId id
  let here := fun row : Transfer => row.transferId = id && shareOpen row
  if t.affects here then
    return t.updateWhere here fun row => { row with
      status := if row.status = .sharing then .stopped else .cancelled, updatedAt := now }
  else if (t.find id).any shareEnded then return t
  else .error (.repository "share preparation was not found")

/-- The statuses that a restart ends. -/
def interrupted (row : Transfer) : Bool := row.status = .importing || row.status = .receiving

def recoverInterruptedTransfers (t : Transfers) (now : Millis) : List RecoveredTransfer × Transfers :=
  let rows := (t.rows.filter interrupted).insertionSort fun a b => a.createdAt ≤ b.createdAt
  let recovered := rows.map fun row => ⟨row.transferId,row.direction,row.status⟩
  if recovered.isEmpty then (recovered,t)
  else (recovered,t.updateWhere interrupted fun row => { row with status := .failed, updatedAt := now })

def updateActiveShareAccessMode (t : Transfers) (id : TransferId) (accessMode : String) (now : Millis) :
    Except VnidropError Transfers := do
  let _ ← toDbId id
  let here := fun row : Transfer =>
    row.transferId = id && (row.direction = .send && row.status = .sharing)
  requireOneChanged (t.affects here) "update active share access mode"
  return t.updateWhere here fun row => { row with accessMode, updatedAt := now }

def deleteTransfer (t : Transfers) (id : TransferId) : Except VnidropError Transfers := do
  let _ ← toDbId id
  requireOneChanged (t.affects fun row => row.transferId = id) "delete transfer"
  return t.delete id

def deleteReceiveHistory (t : Transfers) : Transfers := t.deleteWhere restarts

def live (row : Transfer) : Bool :=
  row.status = .sharing || (row.status = .importing || row.status = .receiving)

/-- The part of `reset_identity_bound_state` that is about `transfers`. -/
def resetIdentityBoundState (t : Transfers) (now : Millis) : Transfers :=
  t.updateWhere live fun row => { row with
    status := if row.status = .sharing then .stopped else .cancelled, ticket := none, updatedAt := now }

end Transfers

/-- A statement that writes `transfers`; a share starts with the row of `share_files`. -/
inductive Statement where
  | insertTransfer (m : ShareMetadataInput) (localId : Text)
  | startReceive (u : TransferUpsert) (localId : Text)
  | completeShareImport (u : TransferUpsert)
  | cancelSharePreparation (id : TransferId)
  | transitionTransferStatus (id : TransferId) (expected next : TransferStatus)
  | completeReceiveWithPendingReceipt (id : TransferId)
  | recoverInterruptedTransfers
  | updateActiveShareAccessMode (id : TransferId) (accessMode : String)
  | deleteTransfer (id : TransferId)
  | deleteReceiveHistory
  | resetIdentityBoundState
  deriving DecidableEq

def Statement.run (t : Transfers) (now : Millis) : Statement → Except VnidropError Transfers
  | .insertTransfer m localId => Identifiers.insertTransfer t (shareUpsert m) localId now
  | .startReceive u localId => t.startReceive u localId now
  | .completeShareImport u => t.completeShareImport u now
  | .cancelSharePreparation id => t.cancelSharePreparation id now
  | .transitionTransferStatus id expected next => t.transition id expected next now
  | .completeReceiveWithPendingReceipt id => t.completeReceive id now
  | .recoverInterruptedTransfers => .ok (t.recoverInterruptedTransfers now).2
  | .updateActiveShareAccessMode id accessMode => t.updateActiveShareAccessMode id accessMode now
  | .deleteTransfer id => t.deleteTransfer id
  | .deleteReceiveHistory => .ok t.deleteReceiveHistory
  | .resetIdentityBoundState => .ok (t.resetIdentityBoundState now)

/-- Statements in any order on a new database; one that fails changes nothing. -/
def history : System Transfers (Statement × Millis) where
  init t := t = .empty
  step t a := (a.1.run t a.2).toOption

/-- The statuses of a direction. -/
def Allowed : TransferDirection → TransferStatus → Prop
  | .send, status => status ∈ [.importing,.sharing,.stopped,.failed,.cancelled]
  | .receive, status => status ∈ [.receiving,.done,.failed,.cancelled]

/-- `start_receive` on a receive that has ended. -/
def Restarted (s : Statement) (row row' : Transfer) : Prop :=
  ∃ u localId, s = .startReceive u localId ∧ u.transferId = row.transferId ∧
    Transfers.restarts row = true ∧ row'.status = .receiving

/-- What a statement may do to a row that stays. -/
def Moved (s : Statement) (row row' : Transfer) : Prop :=
  row'.direction = row.direction ∧ (row'.status = row.status ∨
    row.status.canTransitionTo row'.status = true ∨ Restarted s row row')

/-- A row before and after a statement. -/
def Written (s : Statement) (before after : Option Transfer) : Prop :=
  after = before ∨ after = none ∨
  (before = none ∧ ∃ row, after = some row ∧
    (row.direction = .send ∧ row.status = .importing ∨ row.direction = .receive ∧ row.status = .receiving)) ∨
  ∃ row row', before = some row ∧ after = some row' ∧ Moved s row row'

namespace Transfers

variable {t v : Transfers} {s : Statement} {now : Millis} {id k : TransferId} {u : TransferUpsert}
  {localId : Text} {q : Transfer → Bool} {f : Transfer → Transfer}

/-- An update that moves the rows it touches. -/
theorem written_update (keeps : ∀ row, (f row).transferId = row.transferId)
    (moves : ∀ row, q row = true → Moved s row (f row)) (k : TransferId) :
    Written s (t.find k) ((t.updateWhere q f keeps).find k) := by
  rw [Table.find_updateWhere]
  cases found : t.find k with
  | none => exact .inl rfl
  | some row =>
    by_cases touched : q row = true
    · refine .inr (.inr (.inr ⟨row,f row,rfl,?_,moves row touched⟩))
      simp [touched]
    · refine .inl ?_
      simp [touched]

theorem written_delete (q : Transfer → Bool) (k : TransferId) :
    Written s (t.find k) ((t.deleteWhere q).find k) := by
  rw [Table.find_deleteWhere]
  cases found : t.find k with
  | none => exact .inl rfl
  | some row =>
    by_cases gone : q row = true
    · exact .inr (.inl (by simp [gone]))
    · exact .inl (by simp [gone])

theorem written_insert (h : insertTransfer t u localId now = .ok v) (sends : u.direction = .send)
    (imports : u.status = .importing) (k : TransferId) : Written s (t.find k) (v.find k) := by
  unfold insertTransfer at h
  simp only [Excepts.bind_ok] at h
  obtain ⟨_,_,_,_,_,_,h⟩ := h
  split at h
  · rename_i w added
    cases h
    rw [Table.find_insert added]
    split
    · rename_i same
      refine .inr (.inr (.inl ⟨?_,_,rfl,.inl ⟨sends,imports⟩⟩))
      rw [same]
      exact Table.insert_isSome.mp (by rw [added]; rfl)
    · exact .inl rfl
  · cases h

theorem written_start (h : t.startReceive u localId now = .ok v) (k : TransferId) :
    Written (.startReceive u localId) (t.find k) (v.find k) := by
  have guarded : u.direction = .receive ∧ u.status = .receiving := by
    by_contra other
    unfold startReceive at h
    rw [if_pos (by tauto)] at h
    cases h
  obtain ⟨_,ended,written⟩ := startReceive_ok guarded.1 guarded.2 h
  rw [written k]
  split
  · rename_i same
    cases found : t.find k with
    | none => exact .inr (.inr (.inl ⟨rfl,_,rfl,.inr ⟨rfl,rfl⟩⟩))
    | some row =>
      have keyed : row.transferId = k := Table.find_key found
      refine .inr (.inr (.inr ⟨row,_,rfl,rfl,rfl,.inr (.inr ?_)⟩))
      exact ⟨u,localId,rfl,(same.symm.trans keyed.symm),ended row (same ▸ found),rfl⟩
  · exact .inl rfl

theorem moved_status {row row' : Transfer} (direction : row'.direction = row.direction)
    (allowed : row.status.canTransitionTo row'.status = true) : Moved s row row' :=
  ⟨direction,.inr (.inl allowed)⟩

/-- A row that `CASE WHEN status = 'sharing'` ends. -/
theorem ends_live {status : TransferStatus}
    (open' : status = .sharing ∨ status = .importing ∨ status = .receiving) :
    status.canTransitionTo (if status = .sharing then .stopped else .cancelled) = true := by
  rcases open' with rfl | rfl | rfl <;> rfl

/-- Every statement does to each row one of the listed things. -/
theorem run_written (h : s.run t now = .ok v) (k : TransferId) : Written s (t.find k) (v.find k) := by
  cases s with
  | insertTransfer m localId => exact written_insert h rfl rfl k
  | startReceive u localId => exact written_start h k
  | completeShareImport u =>
    simp only [Statement.run,completeShareImport] at h
    split at h
    · cases h
    · rename_i guarded
      simp only [Excepts.bind_ok] at h
      obtain ⟨_,_,_,_,_,_,_,_,h⟩ := h
      cases h
      have sharing : u.status = .sharing := by tauto
      refine written_update _ ?_ k
      intro row touched
      simp only [Bool.and_eq_true,decide_eq_true_eq] at touched
      refine moved_status rfl ?_
      rw [touched.2.2,sharing]
      rfl
  | cancelSharePreparation id =>
    simp only [Statement.run,cancelSharePreparation,Excepts.bind_ok] at h
    obtain ⟨_,_,h⟩ := h
    split at h
    · cases h
      refine written_update _ ?_ k
      intro row touched
      refine moved_status rfl (ends_live ?_)
      simp only [shareOpen,Bool.and_eq_true,Bool.or_eq_true,decide_eq_true_eq] at touched
      tauto
    · split at h
      · cases h
        exact .inl rfl
      · cases h
  | transitionTransferStatus id expected next =>
    have legal : expected.canTransitionTo next = true := by
      by_contra illegal
      simp only [Statement.run,transition] at h
      rw [if_pos (by simpa using illegal)] at h
      cases h
    rcases transition_ok h with ⟨row,found,was,written⟩ | ⟨rfl,_⟩
    · rw [written k]
      split
      · rename_i same
        refine .inr (.inr (.inr ⟨row,_,same ▸ found,rfl,moved_status rfl ?_⟩))
        rw [was]
        exact legal
      · exact .inl rfl
    · exact .inl rfl
  | completeReceiveWithPendingReceipt id =>
    obtain ⟨row,found,was,written⟩ := completeReceive_ok h
    rw [written k]
    split
    · rename_i same
      refine .inr (.inr (.inr ⟨row,_,same ▸ found,rfl,moved_status rfl ?_⟩))
      rw [was]
      rfl
    · exact .inl rfl
  | recoverInterruptedTransfers =>
    cases Except.ok.inj h
    unfold recoverInterruptedTransfers
    dsimp only
    split
    · exact .inl rfl
    · refine written_update ?_ ?_ k
      · exact fun _ => rfl
      · intro row touched
        refine moved_status rfl ?_
        simp only [interrupted,Bool.or_eq_true,decide_eq_true_eq] at touched
        rcases touched with was | was <;> rw [was] <;> rfl
  | updateActiveShareAccessMode id accessMode =>
    simp only [Statement.run,updateActiveShareAccessMode,Excepts.bind_ok] at h
    obtain ⟨_,_,_,_,h⟩ := h
    cases h
    refine written_update _ ?_ k
    exact fun row _ => ⟨rfl,.inl rfl⟩
  | deleteTransfer id =>
    simp only [Statement.run,deleteTransfer,Excepts.bind_ok] at h
    obtain ⟨_,_,_,_,h⟩ := h
    cases h
    exact written_delete _ k
  | deleteReceiveHistory =>
    cases Except.ok.inj h
    exact written_delete _ k
  | resetIdentityBoundState =>
    cases Except.ok.inj h
    refine written_update _ ?_ k
    intro row touched
    refine moved_status rfl (ends_live ?_)
    simp only [live,Bool.or_eq_true,decide_eq_true_eq] at touched
    exact touched

end Transfers

/-- The statuses of a direction are closed under the moves, a restart among them. -/
theorem allowed_moved {s : Statement} {row row' : Transfer} (allowed : Allowed row.direction row.status)
    (moved : Moved s row row') : Allowed row'.direction row'.status := by
  obtain ⟨same,status | legal | ⟨_,_,_,_,ended,receiving⟩⟩ := moved
  · rw [same,status]
    exact allowed
  · rw [same]
    generalize row.status = before, row'.status = after, row.direction = direction at allowed legal
    cases direction <;> cases before <;> cases after <;> simp_all [Allowed,TransferStatus.canTransitionTo]
  · simp only [Transfers.restarts,Bool.and_eq_true,decide_eq_true_eq] at ended
    rw [same,ended.1,receiving]
    exact List.mem_cons_self

structure StateMachine (t : Transfers) : Prop where
  /-- Every row has a status of its direction. -/
  separated : ∀ id row, t.find id = some row → Allowed row.direction row.status
  /-- A statement on the state keeps the direction of a row and makes a legal move of its status. -/
  moves : ∀ s now u, Statement.run t now s = .ok u → ∀ id row row', t.find id = some row →
    u.find id = some row' → Moved s row row'

theorem transfers_state_machine {t : Transfers} (reach : Reach history Always t) : StateMachine t := by
  constructor
  case separated =>
    refine reach.invariant (fun t => ∀ id row, t.find id = some row → Allowed row.direction row.status) ?_ ?_
    · rintro t rfl id row found
      cases found
    · rintro t ⟨s,now⟩ u separated _ stepped id row found
      have ran : Statement.run t now s = .ok u := by
        simp only [history] at stepped
        cases result : Statement.run t now s with
        | ok v =>
          rw [result] at stepped
          exact congrArg Except.ok (Option.some.inj stepped)
        | error e =>
          rw [result] at stepped
          cases stepped
      rcases Transfers.run_written ran id with same | gone | ⟨_,new,added,kind⟩ | ⟨old,new,was,becomes,moved⟩
      · exact separated id row (same ▸ found)
      · rw [gone] at found
        cases found
      · cases added.symm.trans found
        rcases kind with ⟨sends,imports⟩ | ⟨receives,receiving⟩
        · rw [sends,imports]
          exact List.mem_cons_self
        · rw [receives,receiving]
          exact List.mem_cons_self
      · cases becomes.symm.trans found
        exact allowed_moved (separated id old was) moved
  case moves =>
    intro s now u ran id row row' found found'
    rcases Transfers.run_written ran id with same | gone | ⟨none,_⟩ | ⟨old,new,was,becomes,moved⟩
    · cases found.symm.trans (same.symm.trans found')
      exact ⟨rfl,.inl rfl⟩
    · cases gone.symm.trans found'
    · cases none.symm.trans found
    · cases was.symm.trans found
      cases becomes.symm.trans found'
      exact moved

namespace Sample

def share : ShareMetadataInput := ⟨4,none,none,"approval_required"⟩

def receive : TransferUpsert :=
  ⟨7,some 2,.receive,.receiving,some 21,none,some 22,none,1,5,"approval_required"⟩

/-- A receive is interrupted and restarted, while a share is published and then reset. -/
def writes : List (Statement × Millis) :=
  [(.startReceive receive 70,1),(.insertTransfer share 71,2),
    (.completeShareImport { shareUpsert share with status := .sharing, contentHash := some 8 },3),
    (.recoverInterruptedTransfers,4),(.startReceive receive 72,5),(.resetIdentityBoundState,6)]

def written : Transfers := (history.run .empty writes).getD .empty

end Sample

open Sample in
theorem written_state_machine : history.run .empty writes = some written ∧
    written.rows.map (fun row => (row.transferId,row.direction,row.status)) =
      [(7,.receive,.cancelled),(4,.send,.stopped)] ∧ StateMachine written := by
  have ran : history.run .empty writes = some written := rfl
  exact ⟨ran,rfl,transfers_state_machine (.of_run rfl ran)⟩

end Vnidrop.Receives
