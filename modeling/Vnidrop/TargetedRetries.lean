import Vnidrop.Budgets
import Vnidrop.TargetedCalls
import Vnidrop.TargetedRows
import Mathlib

/-! The outboxes that the reconciliation task works off. It takes one entry at a time, of those that
are due one that is due first, and puts it off when its attempt fails; meanwhile the transfers go on. -/
namespace Vnidrop.Targeted.Retries

open Budgets Runs Tables

inductive Outbox where
  | authorizationDelivery
  | completion
  deriving DecidableEq

namespace Outbox

def entries : Outbox → Store → Table OutboxEntry.transferId
  | .authorizationDelivery, s => s.authorizationDelivery
  | .completion, s => s.completion

/-- The row of a due entry, joined as the listing of the outbox joins it. -/
def pending : Outbox → Store → TransferId → Millis → Option TargetedTransferRow
  | .authorizationDelivery => Store.pendingAuthorizationDelivery
  | .completion => Store.pendingCompletion

def clear : Outbox → Store → TransferId → Store
  | .authorizationDelivery => Store.clearPendingAuthorizationDelivery
  | .completion => Store.clearPendingCompletion

def defer : Outbox → Store → TransferId → Millis → Store
  | .authorizationDelivery => Store.deferPendingAuthorizationDelivery
  | .completion => Store.deferPendingCompletion

/-- The writes that put off an entry; only the task makes them. -/
def defers : Outbox → Write → Bool
  | .authorizationDelivery, .deferPendingAuthorizationDelivery .. => true
  | .completion, .deferPendingCompletion .. => true
  | _, _ => false

/-- A completion whose authorization cannot be loaded is put off for longer. -/
def delay : Outbox → Bool → Millis
  | .completion, false => 30000
  | _, _ => 5000

def due (o : Outbox) (s : Store) (now : Millis) : List OutboxEntry :=
  (o.entries s).rows.filter fun e => (o.pending s e.transferId now).isSome

end Outbox

/-- `ORDER BY next_attempt_at, created_at`. -/
def order (e : OutboxEntry) : Int ×ₗ Int := toLex (e.nextAttemptAt,e.createdAt)

/-- `list_pending_authorization_deliveries` and `list_pending_completions`. -/
def Outbox.list (o : Outbox) (s : Store) (now : Millis) : List TargetedTransferRow :=
  ((o.due s now).mergeSort fun e x => decide (order e ≤ order x)).filterMap fun e => o.pending s e.transferId now

/-- An entry that a listing may have at its head: the order says no more. -/
def First (o : Outbox) (s : Store) (now : Millis) (id : TransferId) : Prop :=
  ∃ e ∈ o.due s now, e.transferId = id ∧ ∀ x ∈ o.due s now, order e ≤ order x

instance (o : Outbox) (s : Store) (now : Millis) (id : TransferId) : Decidable (First o s now id) :=
  inferInstanceAs (Decidable (∃ e ∈ o.due s now, _))

/-- The entry the task is at, and when it was listed. -/
structure Attempt where
  transferId : TransferId
  listed : Millis
  deriving DecidableEq

structure Reconciliation where
  store : Store
  now : Millis
  taken : Option Attempt
  deriving DecidableEq

/-- How an attempt ends: with an answer that settles it, with a failure after which the entry is put
off by the clock as it was read then, or with a failure of the store. -/
inductive Outcome where
  | settled
  | failed (read : Millis) (loaded : Bool)
  | unwritten
  deriving DecidableEq

inductive Step where
  | pass (now : Millis)
  | write (w : Write)
  | failResumable (id : TransferId)
  | housekeep (h : Housekeeping)
  | restart
  | take (id : TransferId)
  | finish (outcome : Outcome)
  deriving DecidableEq

def swept (s : Store) : Housekeeping → Store
  | .markInterruptedInFlight now => s.markInterruptedInFlight now
  | .failSenderPreapproval now => s.failSenderPreapproval now
  | .resetIdentity now => s.resetIdentityBoundState now

/-- A write that fails leaves the store as it is. -/
def written (s : Store) (now : Millis) (w : Write) : Store :=
  match w.run s now with
  | .ok (_,s) => s
  | .error _ => s

/-- What the task leaves of its entry. -/
def finished (o : Outbox) (s : Store) (id : TransferId) : Outcome → Store
  | .settled => o.clear s id
  | .failed read loaded => o.defer s id (read + o.delay loaded)
  | .unwritten => s

/-- The clock was read after the listing and before now. -/
def Outcome.timely (a : Attempt) (now : Millis) : Outcome → Bool
  | .failed read _ => a.listed ≤ read ∧ read ≤ now
  | _ => true

def step (o : Outbox) (s : Reconciliation) : Step → Option Reconciliation
  | .pass now => if s.now ≤ now then some { s with now } else none
  | .write w => if o.defers w then none else some { s with store := written s.store s.now w }
  | .failResumable id => some { s with store := (s.store.failResumableAndClearDelivery id s.now).2 }
  | .housekeep h => some { s with store := swept s.store h }
  | .restart => some { s with taken := none }
  | .take id =>
    if s.taken = none ∧ First o s.store s.now id then some { s with taken := some ⟨id,s.now⟩ } else none
  | .finish outcome =>
    match s.taken with
    | none => none
    | some a =>
      if outcome.timely a s.now then some ⟨finished o s.store a.transferId outcome,s.now,none⟩ else none

def reconciliation (o : Outbox) : System Reconciliation Step where
  init s := s.taken = none
  step := step o

/-- The entry is overdue and listed. The task is not at it, and at no other since before it was due. -/
structure Waits (o : Outbox) (e : OutboxEntry) (s : Reconciliation) : Prop where
  due : e ∈ o.due s.store s.now
  overdue : e.nextAttemptAt < s.now
  others : ∀ a ∈ s.taken, a.transferId ≠ e.transferId ∧ e.nextAttemptAt ≤ a.listed

/-- The other entries that are due no later. -/
def ahead (o : Outbox) (e : OutboxEntry) (s : Reconciliation) : Finset TransferId :=
  (((o.entries s.store).rows.filter fun x => x.transferId ≠ e.transferId ∧ order x ≤ order e).map
    OutboxEntry.transferId).toFinset

/-- The attempt is over, and the store has been told. -/
def settles : Step → Bool
  | .finish .settled | .finish (.failed _ _) => true
  | _ => false

/-- The attempts on other entries along the run. -/
def overtakings (o : Outbox) (s : Reconciliation) (as : List Step) : Nat :=
  spent (reconciliation o) (fun _ a => (settles a).toNat) s as

section Entries

variable {o : Outbox} {e x : OutboxEntry} {s t : Reconciliation} {st : Store}
  {now listed : Millis} {id : TransferId}

theorem mem_ahead : id ∈ ahead o e s ↔
    ∃ x ∈ (o.entries s.store).rows, x.transferId ≠ e.transferId ∧ order x ≤ order e ∧ x.transferId = id := by
  simp [ahead,and_assoc]

/-- An entry that comes to be due later is not ahead. -/
theorem order_later (later : e.nextAttemptAt < x.nextAttemptAt) : ¬order x ≤ order e := by
  intro le
  rcases Prod.Lex.le_iff.mp le with less | ⟨same,-⟩
  · exact lt_asymm less later
  · exact absurd same (ne_of_gt later)

/-- Where the entries are among those of before, or due later, no more are ahead. -/
theorem ahead_subset (kept : ∀ x ∈ (o.entries t.store).rows, x ∈ (o.entries s.store).rows ∨
    e.nextAttemptAt < x.nextAttemptAt) : ahead o e t ⊆ ahead o e s := by
  intro id there
  obtain ⟨x,listed,other,le,same⟩ := mem_ahead.mp there
  rcases kept x listed with old | later
  · exact mem_ahead.mpr ⟨x,old,other,le,same⟩
  · exact absurd le (order_later later)

theorem mem_deleteWhere {t : Table OutboxEntry.transferId} {p : OutboxEntry → Bool} (there : x ∈ (t.deleteWhere p).rows) :
    x ∈ t.rows := (List.mem_filter.mp there).1

theorem mem_insertOrIgnore {t : Table OutboxEntry.transferId} (there : x ∈ (t.insertOrIgnore e).rows) :
    x ∈ t.rows ∨ x = e := by
  unfold Table.insertOrIgnore Table.insert at there
  split at there
  · exact .inl there
  · simpa using there

theorem mem_replaceEntry {t : Table OutboxEntry.transferId} (there : x ∈ (Store.replaceEntry t e).rows) :
    x ∈ t.rows ∨ x = e :=
  (mem_insertOrIgnore there).imp_left mem_deleteWhere

/-- An outbox after a write: its entries are old ones, or enqueued now. -/
def Enqueues (now : Millis) (t u : Table OutboxEntry.transferId) : Prop :=
  ∀ x ∈ u.rows, x ∈ t.rows ∨ now ≤ x.nextAttemptAt

theorem enqueues_same {t : Table OutboxEntry.transferId} : Enqueues now t t := fun _ => .inl

theorem enqueues_deleteWhere {t : Table OutboxEntry.transferId} {p : OutboxEntry → Bool} :
    Enqueues now t (t.deleteWhere p) := fun _ there => .inl (mem_deleteWhere there)

theorem enqueues_insert {t : Table OutboxEntry.transferId} : Enqueues now t (t.insertOrIgnore ⟨id,now,now⟩) :=
  fun x there => (mem_insertOrIgnore there).imp_right fun same => by rw [same]

theorem enqueues_replace {t : Table OutboxEntry.transferId} :
    Enqueues now t (Store.replaceEntry t ⟨id,now,now⟩) :=
  fun x there => (mem_replaceEntry there).imp_right fun same => by rw [same]

theorem updateState_enqueues {src dst : TargetedTransferState} {u : Store} (ok : st.updateState id src dst now = .ok u) :
    Enqueues now (o.entries st) (o.entries u) := by
  unfold Store.updateState at ok
  dsimp only at ok
  split at ok <;> cases ok
  cases o <;> exact enqueues_same

/-- What any write but a deferral of the outbox does to it. -/
theorem run_enqueues {w : Write} {changed : Bool} {u : Store} (other : o.defers w = false)
    (ran : w.run st now = .ok (changed,u)) : Enqueues now (o.entries st) (o.entries u) := by
  cases w with
  | abandonSenderPreapproval id =>
    cases Except.ok.inj ran
    cases o <;> exact enqueues_deleteWhere
  | markSenderCompleted id =>
    simp only [Write.run,Store.markSenderCompleted] at ran
    split at ran
    · cases ran
      cases o
      · exact enqueues_deleteWhere
      · exact enqueues_same
    · split at ran <;> cases ran
      cases o
      · exact enqueues_deleteWhere
      · exact enqueues_same
  | finalizeSenderAuthorization id blobTicket handle =>
    obtain ⟨u,ok,same⟩ := except_map_ok ran
    cases same
    unfold Store.finalizeSenderAuthorizationAndEnqueue at ok
    dsimp only at ok
    split at ok <;> cases ok
    cases o
    · exact enqueues_replace
    · exact enqueues_same
  | cancelByPeer peer =>
    cases Except.ok.inj ran
    cases o
    · exact enqueues_deleteWhere
    · exact enqueues_same
  | completeReceiver id bytes =>
    obtain ⟨u,ok,same⟩ := except_map_ok ran
    cases same
    unfold Store.completeReceiverAndEnqueue at ok
    dsimp only at ok
    split at ok <;> cases ok
    cases o
    · exact enqueues_same
    · exact enqueues_insert
  | clearAuthorization id =>
    cases Except.ok.inj ran
    cases o <;> exact enqueues_deleteWhere
  | clearPendingAuthorizationDelivery id =>
    cases Except.ok.inj ran
    cases o
    · exact enqueues_deleteWhere
    · exact enqueues_same
  | clearPendingCompletion id =>
    cases Except.ok.inj ran
    cases o
    · exact enqueues_same
    · exact enqueues_deleteWhere
  | deferPendingAuthorizationDelivery id next =>
    cases Except.ok.inj ran
    cases o
    · cases other
    · exact enqueues_same
  | deferPendingCompletion id next =>
    cases Except.ok.inj ran
    cases o
    · exact enqueues_same
    · cases other
  | clearPendingPayloadRelease id =>
    cases Except.ok.inj ran
    cases o <;> exact enqueues_same
  | transitionTerminal id dst clear =>
    simp only [Write.run,Store.transitionTerminal] at ran
    split at ran <;> cases ran
    cases o
    · cases clear <;> exact enqueues_deleteWhere
    · cases clear
      · exact enqueues_same
      · exact enqueues_deleteWhere
  | insert row =>
    obtain ⟨u,inserted,same⟩ := except_map_ok ran
    cases same
    obtain ⟨_,transfers,_,rfl⟩ := insert_ok inserted
    cases o <;> exact enqueues_same
  | setState id src dst =>
    obtain ⟨u,set,same⟩ := except_map_ok ran
    cases same
    exact updateState_enqueues (setState_ok set).2
  | updateState id src dst =>
    obtain ⟨u,set,same⟩ := except_map_ok ran
    cases same
    exact updateState_enqueues set
  | persistAcceptedOfferIntent offer =>
    obtain ⟨u,persisted,same⟩ := except_map_ok ran
    cases same
    unfold Store.persistAcceptedOfferIntent at persisted
    dsimp only at persisted
    split at persisted
    · cases persisted
      cases o <;> exact enqueues_same
    · split at persisted <;> cases persisted
      cases o <;> exact enqueues_same
  | persistReceiverAuthorization auth handle =>
    obtain ⟨u,stored,same⟩ := except_map_ok ran
    cases same
    obtain ⟨_,_,transfers,_,rfl⟩ := persistReceiver_ok stored
    cases o <;> exact enqueues_same
  | clearAcceptedOfferIntent | clearAcceptedIntentIfSender | advanceVerifiedBytes =>
    cases Except.ok.inj ran
    cases o <;> exact enqueues_same

theorem written_enqueues {w : Write} (other : o.defers w = false) :
    Enqueues now (o.entries st) (o.entries (written st now w)) := by
  unfold written
  split
  · rename_i changed u ran
    exact run_enqueues other ran
  · exact enqueues_same

theorem failed_enqueues : Enqueues now (o.entries st) (o.entries (st.failResumableAndClearDelivery id now).2) := by
  unfold Store.failResumableAndClearDelivery
  dsimp only
  split
  · cases o
    · exact enqueues_deleteWhere
    · exact enqueues_same
  · exact enqueues_same

theorem swept_enqueues {h : Housekeeping} : Enqueues now (o.entries st) (o.entries (swept st h)) := by
  cases h with
  | markInterruptedInFlight | failSenderPreapproval => cases o <;> exact enqueues_same
  | resetIdentity => cases o <;> exact fun x there => absurd there List.not_mem_nil

/-- An entry that its attempt has taken out or put off is behind. -/
theorem finished_behind {outcome : Outcome} (timely : outcome.timely ⟨id,listed⟩ now = true)
    (told : settles (.finish outcome) = true) :
    ∀ x ∈ (o.entries (finished o st id outcome)).rows,
      (x ∈ (o.entries st).rows ∧ x.transferId ≠ id) ∨ listed < x.nextAttemptAt := by
  intro x there
  cases outcome with
  | settled =>
    refine .inl ?_
    cases o <;> simpa [finished,Outbox.clear,Outbox.entries,Store.clearPendingAuthorizationDelivery,
      Store.clearPendingCompletion,Table.delete,Table.deleteWhere] using there
  | failed read loaded =>
    have later : 0 < o.delay loaded := by cases o <;> cases loaded <;> decide
    have rows : (o.entries (finished o st id (.failed read loaded))).rows = (o.entries st).rows.map fun e =>
        if e.transferId = id then { e with nextAttemptAt := read + o.delay loaded } else e := by
      cases o <;> simp [finished,Outbox.defer,Outbox.entries,Store.deferPendingAuthorizationDelivery,
        Store.deferPendingCompletion,Table.updateWhere]
    rw [rows] at there
    obtain ⟨y,listed,rfl⟩ := List.mem_map.mp there
    by_cases own : y.transferId = id
    · rw [if_pos own]
      simp only [Outcome.timely,Bool.decide_and,Bool.and_eq_true,decide_eq_true_eq] at timely
      exact .inr (lt_of_le_of_lt timely.1 (Int.lt_add_of_pos_right read later))
    · rw [if_neg own]
      exact .inl ⟨listed,own⟩
  | unwritten => cases told

/-- A step of the others, and of the task, while the entry waits. -/
theorem step_turn {a : Step} (waits : Waits o e s) (other : a ≠ .take e.transferId)
    (stepped : (reconciliation o).step s a = some t) :
    Turn (ahead o e s) (s.taken.map Attempt.transferId) (settles a) (ahead o e t) (t.taken.map Attempt.transferId) := by
  have enqueued : ∀ {u : Store}, Enqueues s.now (o.entries s.store) (o.entries u) →
      ahead o e { s with store := u } ⊆ ahead o e s := fun enqueues =>
    ahead_subset fun x there => (enqueues x there).imp_right (lt_of_lt_of_le waits.overdue)
  cases a with
  | pass now =>
    simp only [reconciliation,step] at stepped
    split at stepped <;> cases stepped
    exact .idle (ahead_subset fun x => .inl) (.inl rfl)
  | write w =>
    simp only [reconciliation,step] at stepped
    split at stepped
    · cases stepped
    · rename_i others
      cases stepped
      exact .idle (enqueued (written_enqueues (by simpa using others))) (.inl rfl)
  | failResumable id =>
    cases stepped
    exact .idle (enqueued failed_enqueues) (.inl rfl)
  | housekeep h =>
    cases stepped
    exact .idle (enqueued swept_enqueues) (.inl rfl)
  | restart =>
    cases stepped
    exact .idle (ahead_subset fun x => .inl) (.inr rfl)
  | take id =>
    simp only [reconciliation,step] at stepped
    split at stepped
    · rename_i free
      cases stepped
      obtain ⟨none,x,due,same,first⟩ := free
      have before : id ∈ ahead o e s :=
        mem_ahead.mpr ⟨x,(List.mem_filter.mp due).1,fun own => other (by rw [← same,own]),first e waits.due,same⟩
      rw [none]
      exact .take before (ahead_subset fun x => .inl)
    · cases stepped
  | finish outcome =>
    simp only [reconciliation,step] at stepped
    split at stepped
    · cases stepped
    · rename_i a taken
      obtain ⟨_,since⟩ := waits.others a taken
      split at stepped <;> cases stepped
      rename_i timely
      rw [taken]
      by_cases told : settles (.finish outcome) = true
      · have behind : ∀ x ∈ (o.entries (finished o s.store a.transferId outcome)).rows,
            (x ∈ (o.entries s.store).rows ∧ x.transferId ≠ a.transferId) ∨ a.listed < x.nextAttemptAt :=
          finished_behind timely told
        rw [told]
        refine .settle (ahead_subset fun x there => ?_) fun there => ?_
        · exact (behind x there).imp And.left (lt_of_le_of_lt since)
        · obtain ⟨x,listed,-,le,same⟩ := mem_ahead.mp there
          rcases behind x listed with ⟨-,differs⟩ | later
          · exact differs same
          · exact order_later (lt_of_le_of_lt since later) le
      · have unwritten : outcome = .unwritten := by cases outcome <;> simp [settles] at told ⊢
        cases unwritten
        exact .idle (ahead_subset fun x => .inl) (.inr rfl)

theorem Outbox.pending_id {row : TargetedTransferRow} (found : o.pending st id now = some row) : row.id = id := by
  have kept : st.getRow id = some row := by cases o <;> exact (Option.filter_eq_some_iff.mp found).1
  exact Table.find_key kept

/-- The head of the listing is an entry that is due first. -/
theorem Outbox.list_head (due : o.due st now ≠ []) :
    ∃ row, (o.list st now).head? = some row ∧ First o st now row.id := by
  have sorted : ((o.due st now).mergeSort (fun e x => decide (order e ≤ order x))).Pairwise
      fun e x => decide (order e ≤ order x) = true :=
    List.pairwise_mergeSort (fun a b c => by simpa using le_trans)
      (fun a b => by simpa using le_total (order a) (order b)) (o.due st now)
  have members : ∀ x, x ∈ (o.due st now).mergeSort (fun e x => decide (order e ≤ order x)) ↔ x ∈ o.due st now :=
    fun x => List.mem_mergeSort
  cases entries : (o.due st now).mergeSort (fun e x => decide (order e ≤ order x)) with
  | nil =>
    have none : (o.due st now).length = 0 := by rw [← List.length_mergeSort,entries]; rfl
    exact absurd (List.eq_nil_of_length_eq_zero none) due
  | cons e es =>
    rw [entries] at sorted members
    have there : e ∈ o.due st now := (members e).mp List.mem_cons_self
    obtain ⟨row,found⟩ := Option.isSome_iff_exists.mp (List.mem_filter.mp there).2
    refine ⟨row,by simp [Outbox.list,entries,found],e,there,(Outbox.pending_id found).symm,fun x listed => ?_⟩
    rcases List.mem_cons.mp ((members x).mpr listed) with rfl | later
    · exact le_rfl
    · simpa using (List.pairwise_cons.mp sorted).1 x later

/-- Where no turn is left the entry is the only one that can be taken. -/
theorem first_alone (waits : Waits o e s) (none : ahead o e s = ∅) (first : First o s.store s.now id) :
    id = e.transferId := by
  obtain ⟨x,due,same,least⟩ := first
  by_contra other
  have before : id ∈ ahead o e s :=
    mem_ahead.mpr ⟨x,(List.mem_filter.mp due).1,fun own => other (by rw [← same,own]),least e waits.due,same⟩
  simp [none] at before

end Entries

instance (o : Outbox) (e : OutboxEntry) (s : Reconciliation) : Decidable (Waits o e s) :=
  decidable_of_iff
    (e ∈ o.due s.store s.now ∧ e.nextAttemptAt < s.now ∧
      ∀ a ∈ s.taken, a.transferId ≠ e.transferId ∧ e.nextAttemptAt ≤ a.listed)
    ⟨fun ⟨due,overdue,others⟩ => ⟨due,overdue,others⟩,fun w => ⟨w.due,w.overdue,w.others⟩⟩

private def waitingRow (id : TransferId) : TargetedTransferRow where
  id := id
  protocolTransferId := id
  senderEndpointId := 1
  receiverEndpointId := 2
  manifestId := 1
  contentHash := 2
  transferName := 3
  fileCount := 1
  totalSize := 1
  verifiedBytes := 0
  blobTicket := none
  authorizationSecretHandle := none
  role := .sender
  state := .approved
  createdAt := 0
  updatedAt := 0

private def backlog : Reconciliation where
  store := { Store.empty with
    transfers := ⟨[waitingRow 7,waitingRow 8,waitingRow 9],by decide⟩
    authorizationDelivery := ⟨[⟨7,0,20⟩,⟨8,0,10⟩,⟨9,0,15⟩],by decide⟩ }
  now := 30
  taken := none

/-- The first attempt fails while a transfer is added, the second settles its entry. -/
private def attempts : List Step :=
  [.take 8,.pass 40,.write (.insert (waitingRow 6)),.finish (.failed 35 true),.take 9,.finish .settled]

private def worked : Reconciliation := ((reconciliation .authorizationDelivery).run backlog attempts).getD backlog

end Vnidrop.Targeted.Retries
