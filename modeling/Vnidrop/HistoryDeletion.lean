import Vnidrop.Transactions
import Vnidrop.TransferHistory
import Vnidrop.ReceiverLifecycle
import Vnidrop.InvitationReceipt
import Vnidrop.EventHistory

/-! Deletion of transfers from the history, with their requests and events, in one transaction
over the tables of the invitation store. -/
namespace Vnidrop.HistoryDeletion

open Tables Transactions
open Invitation (toDbId requireOneChanged PendingDeliveryReceipt)
open Receives (Transfer Transfers Artifacts)
open Receives.Transfers (restarts)
open ReceiverLifecycle (Requests StoredRequest)
open EventHistory (TransferEvents CoreEvent)

structure Database where
  transfers : Transfers
  requests : Requests
  events : TransferEvents
  artifacts : Artifacts
  receipts : Table PendingDeliveryReceipt.requestId

abbrev Store := Db Database VnidropError

def failure : VnidropError := .repository "store failure"

/-- `maybe_fail_write`, which tests make fail. -/
def maybeFailWrite : Store Unit := point failure

/-- `DELETE FROM receiver_requests WHERE …`. -/
def deleteRequests (p : Database → StoredRequest → Bool) : Store Unit :=
  execute failure fun d => ((),{ d with requests := d.requests.deleteWhere (p d) })

/-- `DELETE FROM transfer_events WHERE …`. -/
def deleteEvents (p : Database → CoreEvent → Bool) : Store Unit :=
  execute failure fun d => ((),{ d with events := d.events.deleteWhere (p d) })

/-- `DELETE FROM transfers WHERE …`, with the number of rows it affects. -/
def deleteTransfers (p : Transfer → Bool) : Store Nat :=
  execute failure fun d => ((d.transfers.rows.filter p).length,{ d with transfers := d.transfers.deleteWhere p })

def deleteTransfer (transferId : TransferId) : Store Unit := do
  maybeFailWrite
  let transferId ← check (toDbId transferId)
  transaction failure do
    deleteRequests fun _ r => r.transferId = transferId
    deleteEvents fun _ e => e.transferId = some transferId
    let deleted ← deleteTransfers fun row => row.transferId = transferId
    check (requireOneChanged (deleted = 1) "delete transfer")

/-- `SELECT transfer_id FROM transfers WHERE direction = 'receive' AND status IN …`. -/
def finished (d : Database) : List TransferId := (d.transfers.rows.filter restarts).map (·.transferId)

def deleteReceiveHistory : Store Nat := do
  maybeFailWrite
  transaction failure do
    deleteRequests fun d r => r.transferId ∈ finished d
    deleteEvents fun d e => e.transferId.any (· ∈ finished d)
    -- the failure that a test injects between the statements
    maybeFailWrite
    deleteTransfers restarts

/-- The rows that meet the condition are gone, with their requests and their events. -/
structure Removes (gone : Transfer → Prop) (d d' : Database) : Prop where
  transfers : ∀ row, row ∈ d'.transfers.rows ↔ row ∈ d.transfers.rows ∧ ¬gone row
  requests : ∀ r, r ∈ d'.requests.rows ↔
    r ∈ d.requests.rows ∧ ¬∃ row ∈ d.transfers.rows, gone row ∧ r.transferId = row.transferId
  events : ∀ e, e ∈ d'.events.rows ↔
    e ∈ d.events.rows ∧ ¬∃ row ∈ d.transfers.rows, gone row ∧ e.transferId = some row.transferId
  artifacts : d'.artifacts = d.artifacts
  receipts : d'.receipts = d.receipts

section

variable {α : Type} {d d' : Database} {id : TransferId} {s : Session Database}

theorem mem_finished : id ∈ finished d ↔ ∃ row ∈ d.transfers.rows, restarts row = true ∧ id = row.transferId := by
  simp only [finished,List.mem_map,List.mem_filter,and_assoc]
  exact exists_congr fun row => and_congr_right fun _ => and_congr_right fun _ => eq_comm

theorem Removes.congr {gone gone' : Transfer → Prop} (removes : Removes gone d d') (same : ∀ row, gone row ↔ gone' row) :
    Removes gone' d d' := by
  obtain rfl : gone = gone' := funext fun row => propext (same row)
  exact removes

/-- What the statements of a deletion make of the database. -/
def without (d : Database) (request : StoredRequest → Bool) (event : CoreEvent → Bool) (gone : Transfer → Bool) : Database :=
  { d with
    transfers := d.transfers.deleteWhere gone, requests := d.requests.deleteWhere request,
    events := d.events.deleteWhere event }

theorem deleteTransfer_means (id : TransferId) : Means
    (do
      deleteRequests fun _ r => r.transferId = id
      deleteEvents fun _ e => e.transferId = some id
      let deleted ← deleteTransfers fun row => row.transferId = id
      check (requireOneChanged (deleted = 1) "delete transfer"))
    (fun d => (requireOneChanged ((d.transfers.rows.filter fun row => row.transferId = id).length = 1) "delete transfer").map
      fun u => (u,without d (·.transferId = id) (·.transferId = some id) (·.transferId = id))) :=
  .bind (.execute _ _) fun _ => .bind (.execute _ _) fun _ => .bind (.execute _ _) fun _ => .check _

theorem deleteReceiveHistory_means : Means
    (do
      deleteRequests fun d r => r.transferId ∈ finished d
      deleteEvents fun d e => e.transferId.any (· ∈ finished d)
      maybeFailWrite
      deleteTransfers restarts)
    (fun d => .ok ((d.transfers.rows.filter restarts).length,
      without d (·.transferId ∈ finished d) (·.transferId.any (· ∈ finished d)) restarts)) :=
  .bind (.execute _ _) fun _ => .bind (.execute _ _) fun _ => .bind (.point _) fun _ => .execute _ _

/-- What `delete_transfer` does when nothing fails. -/
def deleted (id : TransferId) : StateT Database (Except VnidropError) Unit := StateT.lift (toDbId id) >>= fun id d =>
  (requireOneChanged ((d.transfers.rows.filter fun row => row.transferId = id).length = 1) "delete transfer").map
    fun u => (u,without d (·.transferId = id) (·.transferId = some id) (·.transferId = id))

theorem deleteTransfer_atomic (id : TransferId) : Atomic (deleteTransfer id) (deleted id) :=
  .after_point (.after_check fun id _ => transaction_atomic (deleteTransfer_means id))

theorem deleteReceiveHistory_atomic : Atomic deleteReceiveHistory (fun d =>
    .ok ((d.transfers.rows.filter restarts).length,
      without d (·.transferId ∈ finished d) (·.transferId.any (· ∈ finished d)) restarts)) :=
  .after_point (transaction_atomic deleteReceiveHistory_means)

/-- One row has the id, or none. -/
theorem one_row : (d.transfers.rows.filter fun row => row.transferId = id).length = 1 ↔
    ∃ row ∈ d.transfers.rows, row.transferId = id := by
  constructor
  · intro one
    obtain ⟨row,same⟩ := List.length_eq_one_iff.mp one
    have listed : row ∈ d.transfers.rows.filter fun row => row.transferId = id := same ▸ List.mem_singleton_self row
    exact ⟨row,by simpa using listed⟩
  · rintro ⟨row,listed,rfl⟩
    have once := List.nodup_iff_count_le_one.mp d.transfers.unique row.transferId
    rw [List.count,List.countP_map,List.countP_eq_length_filter] at once
    have some : 0 < (d.transfers.rows.filter fun r => r.transferId = row.transferId).length :=
      List.length_pos_of_mem (List.mem_filter.mpr ⟨listed,by simp⟩)
    exact Nat.le_antisymm once some

theorem requireOneChanged_map {changed : Bool} {operation : String} {g : Unit → α} {a : α} :
    (requireOneChanged changed operation).map g = .ok a ↔ changed = true ∧ g () = a := by
  cases changed
  · exact iff_of_false (fun same => by cases same) fun held => Bool.false_ne_true held.1
  · exact ⟨fun same => ⟨rfl,Except.ok.inj same⟩,fun held => congrArg Except.ok held.2⟩

theorem deleted_iff : (deleted id).run d = .ok ((),d') ↔ id < 9223372036854775808 ∧
    (∃ row ∈ d.transfers.rows, row.transferId = id) ∧
    d' = without d (·.transferId = id) (·.transferId = some id) (·.transferId = id) := by
  rw [← one_row]
  unfold deleted
  obtain ⟨small,fits⟩ | ⟨large,e,beyond⟩ := Receives.Transfers.toDbId_cases id
  · rw [fits]
    refine requireOneChanged_map.trans ?_
    rw [decide_eq_true_iff]
    exact ⟨fun ⟨one,same⟩ => ⟨small,one,(Prod.mk.inj same).2.symm⟩,fun ⟨_,one,same⟩ => ⟨one,by rw [same]⟩⟩
  · rw [beyond]
    exact iff_of_false (fun same => by cases same) fun held => large held.1

theorem without_removes {request : StoredRequest → Bool} {event : CoreEvent → Bool} {gone : Transfer → Bool}
    (requests : ∀ r, request r = true ↔ ∃ row ∈ d.transfers.rows, gone row ∧ r.transferId = row.transferId)
    (events : ∀ e, event e = true ↔ ∃ row ∈ d.transfers.rows, gone row ∧ e.transferId = some row.transferId) :
    Removes (gone ·) d (without d request event gone) where
  transfers row := by simp [without,Table.deleteWhere]
  requests r := by
    rw [← requests]
    simp [without,Table.deleteWhere]
  events e := by
    rw [← events]
    simp [without,Table.deleteWhere]
  artifacts := rfl
  receipts := rfl

end

/-- A deletion removes exactly the rows it names, with their requests and their events, or fails and
changes nothing; an unknown id fails, and without failures of the store a deletion succeeds. -/
theorem deletion_exact (s : Session Database) :
    (∀ id, (∀ e t, (deleteTransfer id).exec s = (.error e,t) → t.stored = s.stored) ∧
      (∀ t, (deleteTransfer id).exec s = (.ok (),t) →
        (∃ row ∈ s.stored.transfers.rows, row.transferId = id) ∧ Removes (·.transferId = id) s.stored t.stored) ∧
      (s.Calm → id < 9223372036854775808 → (∃ row ∈ s.stored.transfers.rows, row.transferId = id) →
        ∃ t, (deleteTransfer id).exec s = (.ok (),t))) ∧
    (∀ e t, deleteReceiveHistory.exec s = (.error e,t) → t.stored = s.stored) ∧
    (∀ n t, deleteReceiveHistory.exec s = (.ok n,t) →
      n = (s.stored.transfers.rows.filter restarts).length ∧
      Removes (fun row => row.direction = .receive ∧ row.status ∈ [.done,.failed,.cancelled]) s.stored t.stored) ∧
    (s.Calm → ∃ n t, deleteReceiveHistory.exec s = (.ok n,t)) := by
  have all := deleteReceiveHistory_atomic
  refine ⟨fun id => ?_,all.failed s,fun n t ran => ?_,fun calm => ⟨_,all.calm s _ _ calm rfl⟩⟩
  · have one := deleteTransfer_atomic id
    refine ⟨one.failed s,fun t ran => ?_,fun calm small present => one.calm s () _ calm (deleted_iff.mpr ⟨small,present,rfl⟩)⟩
    obtain ⟨-,present,left⟩ := deleted_iff.mp (one.done s () t ran)
    rw [left]
    refine ⟨present,(@without_removes _ _ _ (·.transferId = id) ?_ ?_).congr fun row => by simp⟩
    all_goals
      obtain ⟨row,listed,rfl⟩ := present
      intro r
      simp only [decide_eq_true_iff]
      constructor
      · exact fun same => ⟨row,listed,rfl,same⟩
      · rintro ⟨other,-,same,mine⟩
        rwa [← same]
  · obtain ⟨rfl,left⟩ := Prod.mk.inj (Except.ok.inj (all.done s n t ran))
    refine ⟨rfl,?_⟩
    rw [← left]
    refine (without_removes ?_ ?_).congr fun row => by simp [restarts,or_assoc]
    · exact fun r => decide_eq_true_iff.trans mem_finished
    · intro e
      simp only [Option.any_eq_true,decide_eq_true_iff,mem_finished]
      constructor
      · rintro ⟨_,same,row,listed,gone,rfl⟩
        exact ⟨row,listed,gone,same⟩
      · rintro ⟨row,listed,gone,same⟩
        exact ⟨row.transferId,same,row,listed,gone,rfl⟩

end Vnidrop.HistoryDeletion
