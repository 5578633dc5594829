import Vnidrop.Programs
import Vnidrop.ReceiverRequests

/-! The requests of receivers over runs: the calls of the approval service that write
`receiver_requests`, interleaved statement by statement. -/
namespace Vnidrop.ReceiverLifecycle

open Tables Programs Runs Invitation

/-- A row with the column that only a completed delivery sets. -/
structure StoredRequest extends ReceiverRequest where
  completedAt : Option Millis
  deriving DecidableEq, Repr

def StoredRequest.key (r : StoredRequest) : Nat := r.id

abbrev Requests := Table StoredRequest.key

/-- What a delivery receipt is compared with. -/
structure Receipt where
  requestId : Nat
  transferId : TransferId
  remoteEndpointId : EndpointId
  tokenHash : Text
  deriving DecidableEq, Repr

inductive Outcome where
  | completed
  | failed
  deriving DecidableEq, Repr

def Outcome.status : Outcome → ReceiverRequestStatus
  | .completed => .completed
  | .failed => .failed

def Outcome.opposite : Outcome → Outcome
  | .completed => .failed
  | .failed => .completed

/-- The statuses that `update_receiver_request_status` is called with. -/
inductive Decision where
  | accepted
  | refused
  | expired
  deriving DecidableEq, Repr

def Decision.status : Decision → ReceiverRequestStatus
  | .accepted => .accepted
  | .refused => .refused
  | .expired => .expired

/-- An error of the store, or one of the function itself. -/
inductive Refusal where
  | store
  | rejected (e : VnidropError)
  deriving DecidableEq, Repr

structure Reply where
  receipt : Receipt
  outcome : Outcome
  /-- The table as the receipt arrived. -/
  seen : Requests
  result : Except Refusal Unit

structure Ledger where
  requests : Requests
  /-- History: how the receipts were answered. -/
  replies : List Reply

inductive Op where
  | arrive
  | insertRequest (r : ReceiverRequestInsert)
  | updateStatus (id : Nat) (decision : Decision) (reason : Option String)
  | awaitDecision (id : Nat)
  | setToken (id : Nat) (tokenHash : Text)
  | complete (x : Receipt)
  | fail (x : Receipt) (reason : String)
  | isRecorded (x : Receipt) (o : Outcome)
  | displayName (x : Receipt)
  | expirePending (reason : String)
  | reply (r : Reply)

abbrev Ans : Op → Type
  | .arrive => Requests
  | .insertRequest _ => Except Refusal Unit
  | .awaitDecision _ => Decision
  | .updateStatus .. | .setToken .. | .complete _ | .fail .. | .isRecorded .. => Except Refusal Bool
  | .displayName _ => Except Refusal (Option String)
  | .expirePending _ => Except Refusal Unit
  | .reply _ => Unit

/-- The clock, whether the statement fails, and what a waiter is told. -/
structure Choice where
  now : Millis
  fails : Bool
  decision : Decision
  deriving DecidableEq

abbrev Task (α : Type) := Prog Op Ans α

def op (o : Op) : Task (Ans o) := Prog.perform o

def refuse {α : Type} (text : String) : Task (Except Refusal α) :=
  return .error (.rejected (.repository text))

def insertReceiverRequest (r : ReceiverRequestInsert) : Task (Except Refusal Unit) :=
  match toDbId r.transferId with
  | .error e => return .error (.rejected e)
  | .ok _ => op (.insertRequest r)

def updateReceiverRequestStatus (id : Nat) (decision : Decision) (reason : Option String) :
    Task (Except Refusal Unit) :=
  Prog.andThen (op (.updateStatus id decision reason)) fun changed =>
    if changed then return .ok () else refuse "receiver request not found or already handled"

def setReceiverReceiptToken (id : Nat) (tokenHash : Text) : Task (Except Refusal Unit) :=
  Prog.andThen (op (.setToken id tokenHash)) fun changed =>
    match requireOneChanged changed "attach receiver receipt token" with
    | .ok _ => return .ok ()
    | .error e => return .error (.rejected e)

def completeReceiverDelivery (x : Receipt) : Task (Except Refusal (Option String)) :=
  match toDbId x.transferId with
  | .error e => return .error (.rejected e)
  | .ok _ =>
    Prog.andThen (op (.complete x)) fun changed =>
      if changed then op (.displayName x)
      else Prog.andThen (op (.isRecorded x .completed)) fun alreadyRecorded =>
        if alreadyRecorded then op (.displayName x)
        else refuse "delivery receipt did not match an accepted receiver request"

def failReceiverDelivery (x : Receipt) (reason : String) : Task (Except Refusal Unit) :=
  match toDbId x.transferId with
  | .error e => return .error (.rejected e)
  | .ok _ =>
    Prog.andThen (op (.fail x reason)) fun changed =>
      if changed then return .ok ()
      else Prog.andThen (op (.isRecorded x .failed)) fun alreadyRecorded =>
        if alreadyRecorded then return .ok ()
        else refuse "delivery failure did not match an accepted receiver request"

/-- `allow_without_sender_decision`, as far as the table goes. -/
def allowWithoutSenderDecision (r : ReceiverRequestInsert) (tokenHash : Text) :
    Task (Except Refusal Unit) :=
  Prog.andThen (insertReceiverRequest r) fun _ =>
  Prog.andThen (updateReceiverRequestStatus r.id .accepted none) fun _ =>
  setReceiverReceiptToken r.id tokenHash

/-- `wait_for_sender_decision`; the waiter may be told of a decision or run out of time. -/
def waitForSenderDecision (r : ReceiverRequestInsert) (tokenHash : Text) :
    Task (Except Refusal Unit) :=
  Prog.andThen (insertReceiverRequest r) fun _ => do
    match ← op (.awaitDecision r.id) with
    | .accepted => setReceiverReceiptToken r.id tokenHash
    | .refused => return .ok ()
    | .expired => updateReceiverRequestStatus r.id .expired (some "approval timed out")

inductive Call where
  | allowWithoutSenderDecision (r : ReceiverRequestInsert) (tokenHash : Text)
  | waitForSenderDecision (r : ReceiverRequestInsert) (tokenHash : Text)
  | respond (id : Nat) (accepted : Bool) (reason : Option String)
  | expirePendingReceiverRequests (reason : String)
  | completeDelivery (x : Receipt)
  | failDelivery (x : Receipt) (reason : String)
  deriving DecidableEq

/-- The receipt a call brings, and its outcome. -/
def Call.receipt : Call → Option (Receipt × Outcome)
  | .completeDelivery x => some (x,.completed)
  | .failDelivery x _ => some (x,.failed)
  | _ => none

/-- A receipt is answered with what the repository made of it. -/
def answer (x : Receipt) (o : Outcome) (deliver : Task (Except Refusal Unit)) : Task Unit := do
  let seen ← op .arrive
  let result ← deliver
  op (.reply ⟨x,o,seen,result⟩)

def Call.body : Call → Task Unit
  | .allowWithoutSenderDecision r tokenHash => do
    let _ ← ReceiverLifecycle.allowWithoutSenderDecision r tokenHash
    return ()
  | .waitForSenderDecision r tokenHash => do
    let _ ← ReceiverLifecycle.waitForSenderDecision r tokenHash
    return ()
  | .respond id accepted reason => do
    let _ ← updateReceiverRequestStatus id (if accepted then .accepted else .refused) reason
    return ()
  | .expirePendingReceiverRequests reason => do
    let _ ← op (.expirePending reason)
    return ()
  | .completeDelivery x =>
    answer x .completed (Prog.andThen (completeReceiverDelivery x) fun _ => return .ok ())
  | .failDelivery x reason => answer x .failed (failReceiverDelivery x reason)

/-- The `WHERE` of the receipt statements. -/
def matching (x : Receipt) (status : ReceiverRequestStatus) (row : StoredRequest) : Bool :=
  ReceiverRequests.receives row.toReceiverRequest x.transferId x.remoteEndpointId x.tokenHash &&
    row.status = status

namespace Requests

/-- A statement on the row of one id, if `q` holds of it: whether it changed one, and the table. -/
def setRow (t : Requests) (id : Nat) (q : StoredRequest → Bool) (f : StoredRequest → StoredRequest)
    (keeps : ∀ r, (f r).key = r.key) : Bool × Requests :=
  (t.affects fun r => r.key = id && q r,t.updateWhere (fun r => r.key = id && q r) f keeps)

def decide (t : Requests) (id : Nat) (decision : Decision) (reason : Option String) (now : Millis) :
    Bool × Requests :=
  setRow t id (fun r => r.status = .requested)
    (fun r => { r with status := decision.status, reason, respondedAt := some now }) fun _ => rfl

def attachToken (t : Requests) (id : Nat) (tokenHash : Text) : Bool × Requests :=
  setRow t id (fun r => r.status = .accepted)
    (fun r => { r with receiptTokenHash := some tokenHash }) fun _ => rfl

def complete (t : Requests) (x : Receipt) (now : Millis) : Bool × Requests :=
  setRow t x.requestId (matching x .accepted)
    (fun r => { r with status := .completed, completedAt := some now }) fun _ => rfl

def fail (t : Requests) (x : Receipt) (reason : String) : Bool × Requests :=
  setRow t x.requestId (matching x .accepted)
    (fun r => { r with status := .failed, reason := some reason }) fun _ => rfl

def isRecorded (t : Requests) (x : Receipt) (o : Outcome) : Bool :=
  t.affects fun r => r.key = x.requestId && matching x o.status r

def expirePending (t : Requests) (reason : String) (now : Millis) : Requests :=
  t.updateWhere (fun r => r.status = .requested)
    (fun r => { r with status := .expired, reason := some reason, respondedAt := some now }) fun _ => rfl

end Requests

namespace Ledger

/-- One statement; one that fails leaves the table as it is. -/
def exec (s : Ledger) (c : Choice) : (o : Op) → Ans o × Ledger
  | .arrive => (s.requests,s)
  | .insertRequest r =>
    if c.fails then (.error .store,s)
    else match s.requests.insert ⟨ReceiverRequests.requested r c.now,none⟩ with
      | some t => (.ok (),{ s with requests := t })
      | none => (.error .store,s)
  | .updateStatus id decision reason =>
    if c.fails then (.error .store,s)
    else
      let (changed,t) := Requests.decide s.requests id decision reason c.now
      (.ok changed,{ s with requests := t })
  | .awaitDecision _ => (c.decision,s)
  | .setToken id tokenHash =>
    if c.fails then (.error .store,s)
    else
      let (changed,t) := Requests.attachToken s.requests id tokenHash
      (.ok changed,{ s with requests := t })
  | .complete x =>
    if c.fails then (.error .store,s)
    else
      let (changed,t) := Requests.complete s.requests x c.now
      (.ok changed,{ s with requests := t })
  | .fail x reason =>
    if c.fails then (.error .store,s)
    else
      let (changed,t) := Requests.fail s.requests x reason
      (.ok changed,{ s with requests := t })
  | .isRecorded x o =>
    (if c.fails then .error .store else .ok (Requests.isRecorded s.requests x o),s)
  | .displayName x =>
    (if c.fails then .error .store
      else match (s.requests.find x.requestId).filter (matching x .completed) with
        | some row => .ok (row.receiverDeviceName <|> row.receiverName)
        | none => .error .store,s)
  | .expirePending reason =>
    if c.fails then (.error .store,s)
    else (.ok (),{ s with requests := Requests.expirePending s.requests reason c.now })
  | .reply r => ((),{ s with replies := s.replies ++ [r] })

end Ledger

/-- Transfer ids are stored in a signed column. -/
def Fits (t : Requests) : Prop := ∀ id row, t.find id = some row → row.transferId < 9223372036854775808

/-- The table starts as any that the column types allow. -/
def calls : Machine Ledger Call Op Ans Choice Empty where
  init s := Fits s.requests ∧ s.replies = []
  admits _ _ := true
  body := Call.body
  exec s _ _ o c := some (s.exec c o)
  env _ e := nomatch e

/-! What one statement does to the table. -/

/-- The change of a row that an operation makes. -/
inductive Changed : Op → StoredRequest → StoredRequest → Prop
  | decided {row : StoredRequest} (decision : Decision) (reason : Option String) (now : Millis)
      (waiting : row.status = .requested) : Changed (.updateStatus row.id decision reason) row
        { row with status := decision.status, reason, respondedAt := some now }
  | tokened {row : StoredRequest} (tokenHash : Text) (accepted : row.status = .accepted) :
      Changed (.setToken row.id tokenHash) row { row with receiptTokenHash := some tokenHash }
  | completed {row : StoredRequest} {x : Receipt} (now : Millis) (named : row.id = x.requestId)
      (matches' : matching x .accepted row = true) :
      Changed (.complete x) row { row with status := .completed, completedAt := some now }
  | failed {row : StoredRequest} {x : Receipt} (reason : String) (named : row.id = x.requestId)
      (matches' : matching x .accepted row = true) :
      Changed (.fail x reason) row { row with status := .failed, reason := some reason }
  | expired {row : StoredRequest} (reason : String) (now : Millis) (waiting : row.status = .requested) :
      Changed (.expirePending reason) row
        { row with status := .expired, reason := some reason, respondedAt := some now }

/-- A row after an operation: as before, added, or changed. -/
def Wrote (o : Op) (before after : Option StoredRequest) : Prop :=
  after = before ∨
  (∃ r now, o = .insertRequest r ∧ before = none ∧
    after = some ⟨ReceiverRequests.requested r now,none⟩) ∨
  ∃ row row', before = some row ∧ after = some row' ∧ Changed o row row'

section Statements

variable {t : Requests} {s : Ledger} {c : Choice} {o : Op} {id : Nat} {q : StoredRequest → Bool}
  {f : StoredRequest → StoredRequest}

theorem find_setRow (keeps : ∀ r, (f r).key = r.key) (id' : Nat) : (Requests.setRow t id q f keeps).2.find id' =
    if id' = id then (t.find id).map fun r => if q r then f r else r else t.find id' :=
  Table.find_updateKey t id q f keeps id'

theorem setRow_changed (keeps : ∀ r, (f r).key = r.key) : (Requests.setRow t id q f keeps).1 = (t.find id).any q :=
  Table.affects_key

/-- A statement whose condition does not hold of the row is no change. -/
theorem setRow_missed (keeps : ∀ r, (f r).key = r.key) (misses : (t.find id).any q = false) :
    Requests.setRow t id q f keeps = (false,t) := by
  have untouched : (t.affects fun r => r.key = id && q r) = false := Table.affects_key.trans misses
  unfold Requests.setRow
  rw [untouched,Table.updateWhere_eq_self untouched]

theorem complete_missed {x : Receipt} {now : Millis}
    (misses : (t.find x.requestId).any (matching x .accepted) = false) :
    Requests.complete t x now = (false,t) :=
  setRow_missed _ misses

theorem fail_missed {x : Receipt} {reason : String}
    (misses : (t.find x.requestId).any (matching x .accepted) = false) :
    Requests.fail t x reason = (false,t) :=
  setRow_missed _ misses

theorem setRow_wrote (keeps : ∀ r, (f r).key = r.key)
    (changes : ∀ row, row.key = id → q row = true → Changed o row (f row)) (id' : Nat) :
    Wrote o (t.find id') ((Requests.setRow t id q f keeps).2.find id') := by
  rw [find_setRow]
  split
  · rename_i same
    subst same
    cases found : t.find id' with
    | none => exact .inl rfl
    | some row =>
      by_cases holds : q row = true
      · refine .inr (.inr ⟨row,f row,rfl,?_,changes row (Table.find_key found) holds⟩)
        simp [holds]
      · refine .inl ?_
        simp [holds]
  · exact .inl rfl

/-- Every operation does to each row one of the listed things. -/
theorem exec_wrote (id : Nat) : Wrote o (s.requests.find id) ((s.exec c o).2.requests.find id) := by
  cases o with
  | arrive | awaitDecision | isRecorded | displayName | reply => exact .inl rfl
  | insertRequest r =>
    simp only [Ledger.exec]
    split
    · exact .inl rfl
    · split
      · rename_i t inserted
        show Wrote _ _ (t.find id)
        rw [Table.find_insert inserted]
        split
        · rename_i same
          refine .inr (.inl ⟨r,c.now,rfl,?_,rfl⟩)
          rw [same]
          exact Table.insert_isSome.mp (by rw [inserted]; rfl)
        · exact .inl rfl
      · exact .inl rfl
  | updateStatus id' decision reason =>
    simp only [Ledger.exec,Requests.decide]
    split
    · exact .inl rfl
    · refine setRow_wrote ?_ ?_ id
      · exact fun _ => rfl
      · rintro row rfl waiting
        exact .decided decision reason c.now (by simpa using waiting)
  | setToken id' tokenHash =>
    simp only [Ledger.exec,Requests.attachToken]
    split
    · exact .inl rfl
    · refine setRow_wrote ?_ ?_ id
      · exact fun _ => rfl
      · rintro row rfl accepted
        exact .tokened tokenHash (by simpa using accepted)
  | complete x =>
    simp only [Ledger.exec,Requests.complete]
    split
    · exact .inl rfl
    · refine setRow_wrote ?_ ?_ id
      · exact fun _ => rfl
      · intro row named met
        exact .completed c.now named met
  | fail x reason =>
    simp only [Ledger.exec,Requests.fail]
    split
    · exact .inl rfl
    · refine setRow_wrote ?_ ?_ id
      · exact fun _ => rfl
      · intro row named met
        exact .failed reason named met
  | expirePending reason =>
    simp only [Ledger.exec]
    split
    · exact .inl rfl
    · have after := Table.find_updateWhere s.requests (fun r => r.status = .requested)
        (fun r => { r with status := .expired, reason := some reason, respondedAt := some c.now })
        (fun _ => rfl) id
      show Wrote _ _ ((Requests.expirePending s.requests reason c.now).find id)
      rw [Requests.expirePending,after]
      cases found : s.requests.find id with
      | none => exact .inl rfl
      | some row =>
        by_cases waiting : row.status = .requested
        · refine .inr (.inr ⟨row,_,rfl,?_,.expired reason c.now waiting⟩)
          simp [waiting]
        · refine .inl ?_
          simp [waiting]

end Statements

/-! What is kept: a settled row is never written again, and an answer says what is recorded. -/

/-- No operation moves a request on from this status. -/
def settled (status : ReceiverRequestStatus) : Prop := status ≠ .requested ∧ status ≠ .accepted

/-- The settled rows of `t` are those of `u`. -/
def Since (t u : Requests) : Prop :=
  ∀ id row, t.find id = some row → settled row.status → u.find id = some row

/-- The receipt is for this row, and its outcome is the status of the row. -/
def Recorded (t : Requests) (x : Receipt) (o : Outcome) : Prop :=
  ∃ row, t.find x.requestId = some row ∧ matching x o.status row = true

/-- An answer to a receipt. -/
structure Sound (t : Requests) (r : Reply) : Prop where
  recorded : r.result = .ok () → Recorded t r.receipt r.outcome
  repeated : Recorded r.seen r.receipt r.outcome → r.result = .ok () ∨ r.result = .error .store
  opposed : Recorded r.seen r.receipt r.outcome.opposite → r.result ≠ .ok ()

section Receipts

variable {t u v : Requests} {s : Ledger} {c : Choice} {o : Op} {x : Receipt} {out : Outcome}
  {row row' : StoredRequest} {r : Reply}

theorem since_refl (t : Requests) : Since t t := fun _ _ found _ => found

theorem since_trans (first : Since t u) (second : Since u v) : Since t v :=
  fun id row found final => second id row (first id row found final) final

theorem outcome_settled (out : Outcome) : settled out.status := by
  cases out <;> exact ⟨by decide,by decide⟩

theorem matching_iff {status : ReceiverRequestStatus} : matching x status row = true ↔
    ReceiverRequests.receives row.toReceiverRequest x.transferId x.remoteEndpointId x.tokenHash = true ∧
      row.status = status := by
  simp [matching]

theorem changed_open (h : Changed o row row') : ¬settled row.status := by
  rintro ⟨waiting,accepted⟩
  cases h with
  | decided _ _ _ is | expired _ _ is => exact waiting is
  | tokened _ is => exact accepted is
  | completed _ _ met | failed _ _ met => exact accepted (matching_iff.mp met).2

theorem changed_transfer (h : Changed o row row') : row'.transferId = row.transferId := by
  cases h <;> rfl

theorem exec_since : Since s.requests (s.exec c o).2.requests := by
  intro id row found final
  rcases exec_wrote id with same | ⟨r,now,_,absent,_⟩ | ⟨old,new,was,_,changed⟩
  · exact same.trans found
  · cases absent.symm.trans found
  · cases was.symm.trans found
    exact absurd final (changed_open changed)

theorem exec_fits (fits : Fits s.requests)
    (fitting : ∀ r, o = .insertRequest r → r.transferId < 9223372036854775808) :
    Fits (s.exec c o).2.requests := by
  intro id row found
  rcases exec_wrote id with same | ⟨r,now,is,_,added⟩ | ⟨old,new,was,becomes,changed⟩
  · exact fits id row (same.symm.trans found)
  · cases added.symm.trans found
    exact fitting r is
  · cases becomes.symm.trans found
    rw [changed_transfer changed]
    exact fits id old was

theorem recorded_later (since : Since t u) (recorded : Recorded t x out) : Recorded u x out := by
  obtain ⟨row,found,met⟩ := recorded
  have final : settled row.status := (matching_iff.mp met).2 ▸ outcome_settled out
  exact ⟨row,since _ row found final,met⟩

theorem recorded_fits (fits : Fits t) (recorded : Recorded t x out) :
    x.transferId < 9223372036854775808 := by
  obtain ⟨row,found,met⟩ := recorded
  have same : row.transferId = x.transferId := by
    have received := (matching_iff.mp met).1
    simp only [ReceiverRequests.receives,Bool.and_eq_true,decide_eq_true_eq] at received
    exact received.1.1
  exact same ▸ fits _ row found

/-- A request has one outcome. -/
theorem recorded_once (here : Recorded t x out) : ¬Recorded t x out.opposite := by
  rintro ⟨row',found',met'⟩
  obtain ⟨row,found,met⟩ := here
  cases found.symm.trans found'
  have twice := (matching_iff.mp met).2.symm.trans (matching_iff.mp met').2
  cases out <;> cases twice

theorem isRecorded_iff : Requests.isRecorded t x out = true ↔ Recorded t x out := by
  unfold Requests.isRecorded
  rw [Table.affects_key,Option.any_eq_true]
  exact Iff.rfl

theorem sound_later (since : Since t u) (sound : Sound t r) : Sound u r :=
  ⟨fun ok => recorded_later since (sound.recorded ok),sound.repeated,sound.opposed⟩

/-- An answer that goes by what is recorded now is right about what was before. -/
theorem sound_of (since : Since r.seen t) (recorded : r.result = .ok () → Recorded t r.receipt r.outcome)
    (repeated : Recorded r.seen r.receipt r.outcome → r.result = .ok () ∨ r.result = .error .store) :
    Sound t r :=
  ⟨recorded,repeated,fun opposed ok => recorded_once (recorded ok) (recorded_later since opposed)⟩

/-- The statement that settles a request, if it changes a row, records the outcome. -/
theorem setRow_recorded {f : StoredRequest → StoredRequest} (keeps : ∀ r, (f r).key = r.key)
    (sets : ∀ row, matching x .accepted row = true → matching x out.status (f row) = true)
    (changed : (Requests.setRow t x.requestId (matching x .accepted) f keeps).1 = true) :
    Recorded (Requests.setRow t x.requestId (matching x .accepted) f keeps).2 x out := by
  rw [setRow_changed,Option.any_eq_true] at changed
  obtain ⟨row,found,met⟩ := changed
  refine ⟨f row,?_,sets row met⟩
  rw [find_setRow,if_pos rfl,found]
  simp [met]

end Receipts

/-- What holds of every reached state, and what a call relies on. -/
def terms : Terms Ledger where
  known _ := True
  inv s := Fits s.requests ∧ ∀ r ∈ s.replies, Sound s.requests r
  rely _ s t := Since s.requests t.requests
  refl _ s := since_refl s.requests
  trans _ := since_trans

section Calls

variable {s t u : Ledger} {seen : Requests} {c : Choice} {o : Op} {x : Receipt} {out : Outcome}
  {i : Nat} {call : Call} {reason : String}

/-- An operation that any call may perform without further ado. -/
def Orderly : Op → Prop
  | .insertRequest r => r.transferId < 9223372036854775808
  | .reply _ => False
  | _ => True

theorem exec_replies (orderly : Orderly o) : (s.exec c o).2.replies = s.replies := by
  cases o with
  | reply => exact orderly.elim
  | insertRequest r =>
    simp only [Ledger.exec]
    split
    · rfl
    · split <;> rfl
  | arrive | awaitDecision | isRecorded | displayName => rfl
  | updateStatus | setToken | complete | fail | expirePending =>
    simp only [Ledger.exec]
    split <;> rfl

theorem exec_inv (inv : terms.inv s) (orderly : Orderly o) : terms.inv (s.exec c o).2 := by
  have fits : Fits (s.exec c o).2.requests := by
    apply exec_fits inv.1
    rintro r rfl
    exact orderly
  refine ⟨fits,fun r there => ?_⟩
  rw [exec_replies orderly] at there
  exact sound_later exec_since (inv.2 r there)

theorem exec_eq {r : Ans o} (h : calls.exec s i call o c = some (r,u)) :
    r = (s.exec c o).1 ∧ u = (s.exec c o).2 := by
  have eq := Option.some.inj h
  exact ⟨(congrArg Prod.fst eq).symm,(congrArg Prod.snd eq).symm⟩

theorem quiet (orderly : Orderly o) : Quiet calls free terms i call o := by
  intro t _ inv choice r u _ performed
  rw [(exec_eq performed).2]
  exact ⟨exec_inv inv orderly,fun _ => exec_since⟩

/-- One operation of a program, entered with what was settled before. -/
theorem safe_op {α : Type} {post : α → Ledger → Prop} {k : Ans o → Task α} (orderly : Orderly o)
    (since : Since seen s.requests)
    (next : ∀ (t : Ledger) c, Since seen t.requests → Since seen (t.exec c o).2.requests →
      Safe calls free terms i call (k (t.exec c o).1) post (t.exec c o).2) :
    Safe calls free terms i call (op o >>= k) post s := by
  refine safe_perform fun t _ inv rely choice r u _ performed => ?_
  obtain ⟨rfl,rfl⟩ := exec_eq performed
  have before := since_trans since rely
  exact ⟨⟨exec_inv inv orderly,fun _ _ => exec_since⟩,
    next t choice before (since_trans before exec_since)⟩

theorem exec_complete (s : Ledger) (c : Choice) (x : Receipt) :
    (s.exec c (.complete x)).1 = .error .store ∨
    ((s.exec c (.complete x)).1 = .ok true ∧ Recorded (s.exec c (.complete x)).2.requests x .completed) ∨
    (s.exec c (.complete x)).1 = .ok false := by
  simp only [Ledger.exec,Requests.complete]
  split
  · exact .inl rfl
  · by_cases changed : (Requests.complete s.requests x c.now).1 = true
    · refine .inr (.inl ⟨congrArg Except.ok changed,setRow_recorded _ ?_ changed⟩)
      intro row met
      exact matching_iff.mpr ⟨(matching_iff.mp met).1,rfl⟩
    · exact .inr (.inr (congrArg Except.ok (Bool.eq_false_iff.mpr changed)))

theorem exec_fail (s : Ledger) (c : Choice) (x : Receipt) (reason : String) :
    (s.exec c (.fail x reason)).1 = .error .store ∨
    ((s.exec c (.fail x reason)).1 = .ok true ∧ Recorded (s.exec c (.fail x reason)).2.requests x .failed) ∨
    (s.exec c (.fail x reason)).1 = .ok false := by
  simp only [Ledger.exec,Requests.fail]
  split
  · exact .inl rfl
  · by_cases changed : (Requests.fail s.requests x reason).1 = true
    · refine .inr (.inl ⟨congrArg Except.ok changed,setRow_recorded _ ?_ changed⟩)
      intro row met
      exact matching_iff.mpr ⟨(matching_iff.mp met).1,rfl⟩
    · exact .inr (.inr (congrArg Except.ok (Bool.eq_false_iff.mpr changed)))

theorem exec_isRecorded (s : Ledger) (c : Choice) (x : Receipt) (out : Outcome) :
    (s.exec c (.isRecorded x out)).1 = .error .store ∨
    ((s.exec c (.isRecorded x out)).1 = .ok true ∧ Recorded s.requests x out) ∨
    ((s.exec c (.isRecorded x out)).1 = .ok false ∧ ¬Recorded s.requests x out) := by
  simp only [Ledger.exec]
  split
  · exact .inl rfl
  · by_cases recorded : Requests.isRecorded s.requests x out = true
    · exact .inr (.inl ⟨congrArg Except.ok recorded,isRecorded_iff.mp recorded⟩)
    · exact .inr (.inr ⟨congrArg Except.ok (by simpa using recorded),
        fun there => recorded (isRecorded_iff.mpr there)⟩)

theorem exec_displayName (s : Ledger) (c : Choice) (x : Receipt) :
    (s.exec c (.displayName x)).1 = .error .store ∨ ∃ name, (s.exec c (.displayName x)).1 = .ok name := by
  simp only [Ledger.exec]
  split
  · exact .inl rfl
  · split
    · exact .inr ⟨_,rfl⟩
    · exact .inl rfl

/-- The name is read once the outcome is recorded. -/
theorem safe_displayName (since : Since seen s.requests) (recorded : Recorded s.requests x .completed) :
    Safe calls free terms i call (op (.displayName x))
      (fun r t => Sound t.requests ⟨x,.completed,seen,r.map fun _ => ()⟩) s := by
  intro t _ inv rely choice r u _ performed
  obtain ⟨rfl,same⟩ := exec_eq performed
  have here : t = u := same.symm
  subst here
  have now := recorded_later rely recorded
  refine ⟨⟨inv,fun j _ => terms.refl j t⟩,?_⟩
  refine sound_of (since_trans since rely) (fun _ => now) fun _ => ?_
  rcases exec_displayName t choice x with bad | ⟨name,good⟩
  · exact .inr (by rw [bad]; rfl)
  · exact .inl (by rw [good]; rfl)

/-- What the statement finds after no row has changed. -/
theorem safe_alreadyRecorded {α : Type} {k : Bool → Task (Except Refusal α)} {post : Except Refusal α → Ledger → Prop}
    (since : Since seen s.requests) (unavailable : ∀ t : Ledger, Since seen t.requests → post (.error .store) t)
    (found : ∀ t : Ledger, Since seen t.requests → Recorded t.requests x out →
      Safe calls free terms i call (k true) post t)
    (missing : ∀ t : Ledger, Since seen t.requests → ¬Recorded seen x out →
      Safe calls free terms i call (k false) post t) :
    Safe calls free terms i call (Prog.andThen (op (.isRecorded x out)) k) post s := by
  refine safe_op trivial since fun t c before _ => ?_
  show Safe _ _ _ _ _ _ _ t
  rcases exec_isRecorded t c x out with bad | ⟨yes,there⟩ | ⟨no,absent⟩
  · rw [bad]
    exact unavailable t before
  · rw [yes]
    exact found t before there
  · rw [no]
    exact missing t before fun old => absent (recorded_later before old)

/-- No receipt was recorded whose transfer id the column cannot hold. -/
theorem sound_unfit {e : VnidropError} {r : Refusal} (fits : Fits seen) (since : Since seen s.requests)
    (large : toDbId x.transferId = .error e) : Sound s.requests ⟨x,out,seen,.error r⟩ := by
  refine sound_of since (fun ok => by cases ok) fun recorded => ?_
  have small := recorded_fits fits recorded
  unfold toDbId at large
  rw [if_pos small] at large
  cases large

theorem safe_complete (fits : Fits seen) (since : Since seen s.requests) :
    Safe calls free terms i call (completeReceiverDelivery x)
      (fun r t => Sound t.requests ⟨x,.completed,seen,r.map fun _ => ()⟩) s := by
  unfold completeReceiverDelivery
  split
  · rename_i e large
    exact safe_pure (sound_unfit fits since large)
  · refine safe_op trivial since fun t c before after => ?_
    rcases exec_complete t c x with bad | ⟨yes,recorded⟩ | no
    · rw [bad]
      exact sound_of after (fun ok => by cases ok) fun _ => .inr rfl
    · rw [yes]
      exact safe_displayName after recorded
    · rw [no]
      refine safe_alreadyRecorded after ?_ ?_ ?_
      · exact fun t since => sound_of since (fun ok => by cases ok) fun _ => .inr rfl
      · exact fun t since recorded => safe_displayName since recorded
      · exact fun t since missing => sound_of since (fun ok => by cases ok) fun recorded => absurd recorded missing

theorem safe_fail (fits : Fits seen) (since : Since seen s.requests) :
    Safe calls free terms i call (failReceiverDelivery x reason)
      (fun r t => Sound t.requests ⟨x,.failed,seen,r⟩) s := by
  unfold failReceiverDelivery
  split
  · rename_i e large
    exact safe_pure (sound_unfit fits since large)
  · refine safe_op trivial since fun t c before after => ?_
    rcases exec_fail t c x reason with bad | ⟨yes,recorded⟩ | no
    · rw [bad]
      exact sound_of after (fun ok => by cases ok) fun _ => .inr rfl
    · rw [yes]
      exact sound_of after (fun _ => recorded) fun _ => .inl rfl
    · rw [no]
      refine safe_alreadyRecorded after ?_ ?_ ?_
      · exact fun t since => sound_of since (fun ok => by cases ok) fun _ => .inr rfl
      · exact fun t since recorded => sound_of since (fun _ => recorded) fun _ => .inl rfl
      · exact fun t since missing => sound_of since (fun ok => by cases ok) fun recorded => absurd recorded missing

/-- A receipt is answered soundly if the repository is right about what was recorded. -/
theorem safe_answer {deliver : Task (Except Refusal Unit)}
    (delivers : ∀ (seen : Requests) (t : Ledger), Fits seen → Since seen t.requests →
      Safe calls free terms i call deliver (fun r t => Sound t.requests ⟨x,out,seen,r⟩) t) :
    Safe calls free terms i call (answer x out deliver) (fun _ _ => True) s := by
  refine safe_perform fun t _ inv _ choice seen u _ performed => ?_
  obtain ⟨rfl,same⟩ := exec_eq performed
  have here : t = u := same.symm
  subst here
  refine ⟨⟨inv,fun j _ => terms.refl j t⟩,?_⟩
  refine safe_bind (safe_mono (fun r v sound => ?_) (delivers t.requests t inv.1 (since_refl _)))
  intro w _ inv rely choice _ u _ performed
  obtain ⟨-,rfl⟩ := exec_eq performed
  refine ⟨⟨⟨inv.1,fun reply there => ?_⟩,fun _ _ => since_refl _⟩,trivial⟩
  rcases List.mem_append.mp there with old | new
  · exact inv.2 reply old
  · rw [List.mem_singleton.mp new]
    exact sound_later rely sound

theorem orderly_insert (r : ReceiverRequestInsert) : (insertReceiverRequest r).All Orderly := by
  unfold insertReceiverRequest
  rcases Nat.lt_or_ge r.transferId 9223372036854775808 with small | large
  · rw [show toDbId r.transferId = .ok r.transferId from if_pos small]
    exact Prog.all_perform small
  · rw [show toDbId r.transferId = .error _ from if_neg (Nat.not_lt.mpr large)]
    trivial

theorem orderly_update (id : Nat) (decision : Decision) (reason : Option String) :
    (updateReceiverRequestStatus id decision reason).All Orderly := by
  refine Prog.all_andThen (Prog.all_perform trivial) fun changed => ?_
  split <;> trivial

theorem orderly_token (id : Nat) (tokenHash : Text) : (setReceiverReceiptToken id tokenHash).All Orderly := by
  refine Prog.all_andThen (Prog.all_perform trivial) fun changed => ?_
  split <;> trivial

/-- A program of orderly operations, its answer dropped. -/
theorem safe_orderly {α : Type} {m : Task α} (orderly : m.All Orderly) :
    Safe calls free terms i call (m >>= fun _ => pure ()) (fun _ _ => True) s := by
  have all : (m >>= fun _ => pure () : Task Unit).All Orderly := Prog.all_bind orderly fun _ => trivial
  exact safe_mono (fun _ _ _ => trivial) (safe_quiet (Prog.all_mono (fun _ => quiet) all) s)

theorem body_safe (call : Call) :
    Safe calls free terms i call call.body (fun _ _ => True) s := by
  cases call with
  | allowWithoutSenderDecision r tokenHash =>
    refine safe_orderly (Prog.all_andThen (orderly_insert r) fun _ => ?_)
    exact Prog.all_andThen (orderly_update _ _ _) fun _ => orderly_token _ _
  | waitForSenderDecision r tokenHash =>
    refine safe_orderly (Prog.all_andThen (orderly_insert r) fun _ => ?_)
    refine Prog.all_bind (Prog.all_perform trivial) fun decision => ?_
    cases decision with
    | accepted => exact orderly_token _ _
    | refused => trivial
    | expired => exact orderly_update _ _ _
  | respond id accepted reason => exact safe_orderly (orderly_update _ _ _)
  | expirePendingReceiverRequests reason => exact safe_orderly (Prog.all_perform trivial)
  | completeDelivery x =>
    refine safe_answer fun seen t fits since => safe_andThen ?_
    refine safe_mono (fun r u sound => ⟨?_,?_⟩) (safe_complete fits since)
    · rintro name rfl
      exact sound
    · rintro e rfl
      exact sound
  | failDelivery x reason =>
    exact safe_answer fun seen t fits since => safe_fail fits since

end Calls

/-- The calls that have an operation: receipts settle requests, and do nothing else to the table. -/
def Performs (call : Call) : Op → Prop
  | .complete x => call.receipt = some (x,.completed)
  | .fail x _ => call.receipt = some (x,.failed)
  | .insertRequest _ | .updateStatus .. | .setToken .. | .expirePending _ => call.receipt = none
  | _ => True

section Bodies

variable {call : Call} (other : call.receipt = none)

include other

theorem performs_insert (r : ReceiverRequestInsert) : (insertReceiverRequest r).All (Performs call) := by
  unfold insertReceiverRequest
  split
  · trivial
  · exact Prog.all_perform other

theorem performs_update (id : Nat) (decision : Decision) (reason : Option String) :
    (updateReceiverRequestStatus id decision reason).All (Performs call) := by
  refine Prog.all_andThen (Prog.all_perform other) fun changed => ?_
  split <;> trivial

theorem performs_token (id : Nat) (tokenHash : Text) :
    (setReceiverReceiptToken id tokenHash).All (Performs call) := by
  refine Prog.all_andThen (Prog.all_perform other) fun changed => ?_
  split <;> trivial

end Bodies

theorem body_performs (call : Call) : call.body.All (Performs call) := by
  have dropped {α : Type} {m : Task α} (all : m.All (Performs call)) :
      (m >>= fun _ => pure () : Task Unit).All (Performs call) := Prog.all_bind all fun _ => trivial
  have answered {m : Task (Except Refusal Unit)} {x : Receipt} {out : Outcome}
      (all : m.All (Performs call)) : (answer x out m).All (Performs call) :=
    Prog.all_bind (Prog.all_perform trivial) fun _ => Prog.all_bind all fun _ => Prog.all_perform trivial
  cases call with
  | allowWithoutSenderDecision r tokenHash =>
    refine dropped (Prog.all_andThen (performs_insert rfl r) fun _ => ?_)
    exact Prog.all_andThen (performs_update rfl _ _ _) fun _ => performs_token rfl _ _
  | waitForSenderDecision r tokenHash =>
    refine dropped (Prog.all_andThen (performs_insert rfl r) fun _ => ?_)
    refine Prog.all_bind (Prog.all_perform trivial) fun decision => ?_
    cases decision with
    | accepted => exact performs_token rfl _ _
    | refused => trivial
    | expired => exact performs_update rfl _ _ _
  | respond id accepted reason => exact dropped (performs_update rfl _ _ _)
  | expirePendingReceiverRequests reason => exact dropped (Prog.all_perform rfl)
  | completeDelivery x =>
    refine answered (Prog.all_andThen ?_ fun _ => trivial)
    unfold completeReceiverDelivery
    split
    · trivial
    · refine Prog.all_andThen (Prog.all_perform rfl) fun changed => ?_
      split
      · exact Prog.all_perform trivial
      · refine Prog.all_andThen (Prog.all_perform trivial) fun recorded => ?_
        split
        · exact Prog.all_perform trivial
        · trivial
  | failDelivery x reason =>
    refine answered ?_
    unfold failReceiverDelivery
    split
    · trivial
    · refine Prog.all_andThen (Prog.all_perform rfl) fun changed => ?_
      split
      · trivial
      · refine Prog.all_andThen (Prog.all_perform trivial) fun recorded => ?_
        split <;> trivial

/-- The moves of a request. -/
inductive Moves : ReceiverRequestStatus → ReceiverRequestStatus → Prop
  | accept : Moves .requested .accepted
  | refuse : Moves .requested .refused
  | expire : Moves .requested .expired
  | complete : Moves .accepted .completed
  | fail : Moves .accepted .failed

structure Lifecycle (c : Conf Ledger Call Op Ans) : Prop where
  moves : ∀ a d id row, calls.next c a = some d → c.shared.requests.find id = some row →
    ∃ row', d.shared.requests.find id = some row' ∧
      (row'.status = row.status ∨ Moves row.status row'.status)
  enters : ∀ a d id row, calls.next c a = some d → c.shared.requests.find id = none →
    d.shared.requests.find id = some row → row.status = .requested
  /-- An accepted request is settled by a receipt that is for it. -/
  settles : ∀ a d id row row', calls.next c a = some d → c.shared.requests.find id = some row →
    d.shared.requests.find id = some row' → row.status = .accepted → row'.status ≠ .accepted →
    ∃ i choice t x out, a = .act i choice ∧ c.threads[i]? = some t ∧ t.call.receipt = some (x,out) ∧
      x.requestId = id ∧ row'.status = out.status ∧
      ReceiverRequests.receives row.toReceiverRequest x.transferId x.remoteEndpointId x.tokenHash = true
  /-- A request that is refused, expired, completed or failed stays as it is. -/
  stays : ∀ a d, calls.next c a = some d → Since c.shared.requests d.shared.requests
  answered : ∀ r ∈ c.shared.replies, Sound c.shared.requests r
  /-- A receipt whose outcome, or the opposite one, is recorded changes nothing. -/
  idle : ∀ i choice d t x out, calls.next c (.act i choice) = some d → c.threads[i]? = some t →
    t.call.receipt = some (x,out) →
    Recorded c.shared.requests x out ∨ Recorded c.shared.requests x out.opposite →
    d.shared.requests = c.shared.requests

section Steps

variable {c d : Conf Ledger Call Op Ans} {a : Label Call Choice Empty} {o : Op} {row row' : StoredRequest}

/-- A step performs one operation of one thread, or leaves the table alone. -/
theorem next_requests (h : calls.next c a = some d) : d.shared.requests = c.shared.requests ∨
    ∃ i choice call o k, a = .act i choice ∧ c.threads[i]? = some ⟨call,.step o k⟩ ∧
      d.shared = (c.shared.exec choice o).2 := by
  rcases next_cases h with ⟨call,_,_,rfl⟩ | ⟨i,choice,call,o,k,r,s,rfl,here,performed,rfl⟩ | ⟨e,_⟩
  · exact .inl rfl
  · exact .inr ⟨i,choice,call,o,k,rfl,here,(exec_eq performed).2⟩
  · exact e.elim

theorem changed_moves (h : Changed o row row') : row'.status = row.status ∨ Moves row.status row'.status := by
  cases h with
  | decided decision _ _ is =>
    rw [is]
    cases decision with
    | accepted => exact .inr .accept
    | refused => exact .inr .refuse
    | expired => exact .inr .expire
  | tokened => exact .inl rfl
  | completed _ _ met =>
    rw [(matching_iff.mp met).2]
    exact .inr .complete
  | failed _ _ met =>
    rw [(matching_iff.mp met).2]
    exact .inr .fail
  | expired _ _ is =>
    rw [is]
    exact .inr .expire

/-- Only a receipt settles an accepted request. -/
theorem changed_settles {call : Call} (performs : Performs call o) (h : Changed o row row')
    (accepted : row.status = .accepted) (gone : row'.status ≠ .accepted) :
    ∃ x out, call.receipt = some (x,out) ∧ x.requestId = row.id ∧ row'.status = out.status ∧
      ReceiverRequests.receives row.toReceiverRequest x.transferId x.remoteEndpointId x.tokenHash = true := by
  cases h with
  | decided _ _ _ is | expired _ _ is => cases is.symm.trans accepted
  | tokened => exact absurd accepted gone
  | @completed _ x _ named met => exact ⟨x,.completed,performs,named.symm,rfl,(matching_iff.mp met).1⟩
  | @failed _ x _ named met => exact ⟨x,.failed,performs,named.symm,rfl,(matching_iff.mp met).1⟩

theorem exec_idle {s : Ledger} {choice : Choice} {call : Call} {x : Receipt} {out : Outcome}
    (performs : Performs call o) (brings : call.receipt = some (x,out))
    (final : ∀ row, s.requests.find x.requestId = some row → settled row.status) :
    (s.exec choice o).2.requests = s.requests := by
  have missed : (s.requests.find x.requestId).any (matching x .accepted) = false := by
    rw [Option.any_eq_false]
    intro row found
    exact Bool.eq_false_iff.mpr fun met => (final row found).2 (matching_iff.mp met).2
  cases o with
  | arrive | awaitDecision | isRecorded | displayName | reply => rfl
  | insertRequest | updateStatus | setToken | expirePending => cases brings.symm.trans performs
  | complete x' =>
    cases brings.symm.trans performs
    simp only [Ledger.exec]
    split
    · rfl
    · exact congrArg Prod.snd (complete_missed missed)
  | fail x' reason =>
    cases brings.symm.trans performs
    simp only [Ledger.exec]
    split
    · rfl
    · exact congrArg Prod.snd (fail_missed missed)

/-- Every request lives its lifecycle, in every reached state. -/
theorem request_lifecycle (reach : Reach calls.system Always c) : Lifecycle c := by
  have reached : Reach calls.system free.holds c := reach.mono fun s a _ => free_holds s a
  have secured : Secured calls free terms (fun _ _ _ => True) c := by
    refine reach_secured (fun _ _ => trivial) ?_ (fun c call _ _ _ _ => body_safe call)
      (fun _ _ _ _ _ _ => trivial) (fun _ e => e.elim) reached
    rintro s ⟨fits,none⟩
    refine ⟨fits,fun r there => ?_⟩
    rw [none] at there
    cases there
  have performs := reach_performs body_performs reached
  have recorded {x : Receipt} {out : Outcome} (there : Recorded c.shared.requests x out) :
      ∀ row, c.shared.requests.find x.requestId = some row → settled row.status := by
    obtain ⟨row,found,met⟩ := there
    intro row' found'
    cases found.symm.trans found'
    exact (matching_iff.mp met).2 ▸ outcome_settled out
  constructor
  case moves =>
    intro a d id row stepped found
    rcases next_requests stepped with same | ⟨i,choice,call,o,k,rfl,here,after⟩
    · exact ⟨row,same ▸ found,.inl rfl⟩
    · rw [after]
      rcases exec_wrote id with same | ⟨_,_,_,absent,_⟩ | ⟨old,new,was,becomes,changed⟩
      · exact ⟨row,same.trans found,.inl rfl⟩
      · cases absent.symm.trans found
      · cases was.symm.trans found
        exact ⟨new,becomes,changed_moves changed⟩
  case enters =>
    intro a d id row stepped absent found
    rcases next_requests stepped with same | ⟨i,choice,call,o,k,rfl,here,after⟩
    · rw [same] at found
      cases absent.symm.trans found
    · rw [after] at found
      rcases exec_wrote id with same | ⟨_,_,_,_,added⟩ | ⟨old,new,was,_,_⟩
      · cases absent.symm.trans (same.symm.trans found)
      · cases added.symm.trans found
        rfl
      · cases absent.symm.trans was
  case settles =>
    intro a d id row row' stepped found found' accepted gone
    rcases next_requests stepped with same | ⟨i,choice,call,o,k,rfl,here,after⟩
    · rw [same] at found'
      cases found.symm.trans found'
      exact absurd accepted gone
    · rw [after] at found'
      rcases exec_wrote id with same | ⟨_,_,_,absent,_⟩ | ⟨old,new,was,becomes,changed⟩
      · cases found.symm.trans (same.symm.trans found')
        exact absurd accepted gone
      · cases absent.symm.trans found
      · cases was.symm.trans found
        cases becomes.symm.trans found'
        obtain ⟨x,out,brings,named,status,received⟩ :=
          changed_settles (performs i _ here).1 changed accepted gone
        have keyed := Table.find_key found
        exact ⟨i,choice,_,x,out,rfl,here,brings,named.trans keyed,status,received⟩
  case stays =>
    intro a d stepped
    rcases next_requests stepped with same | ⟨i,choice,call,o,k,rfl,here,after⟩
    · rw [same]
      exact since_refl _
    · rw [after]
      exact exec_since
  case answered => exact secured.inv.2
  case idle =>
    intro i choice d t x out stepped there brings which
    have final := which.elim recorded recorded
    rcases next_requests stepped with same | ⟨j,choice',call,o,k,eq,here,after⟩
    · exact same
    · cases eq
      cases there.symm.trans here
      rw [after]
      exact exec_idle (performs i _ here).1 brings final

end Steps

namespace Sample

def offered : ReceiverRequestInsert := ⟨1,77,5,"demo",some "receiver",some "phone","0.1.0"⟩

def receipt : Receipt := ⟨1,77,5,9⟩

def good : Choice := ⟨4,false,.accepted⟩

def forgery : Receipt := { receipt with remoteEndpointId := 6 }

/-- The request is accepted and completed; then the receipt is repeated, forged and contradicted. -/
def labels : List (Label Call Choice Empty) :=
  [.fork (.waitForSenderDecision offered 9),.fork (.respond 1 true none),.fork (.completeDelivery receipt),
    .fork (.completeDelivery receipt),.fork (.completeDelivery forgery),
    .fork (.failDelivery receipt "destination_exists")] ++
  [0,1,0,0,2,2,2,2,3,3,3,3,3,4,4,4,4,5,5,5,5].map fun i => .act i good

def start : Conf Ledger Call Op Ans := ⟨⟨.empty,[]⟩,[]⟩

def final : Conf Ledger Call Op Ans := (calls.system.run start labels).getD start

end Sample

open Sample in
theorem completed_lifecycle : calls.system.run start labels = some final ∧
    final.shared.replies.map (fun r => match r.result with
      | .ok _ => true
      | .error _ => false) = [true,true,false,false] ∧
    (final.shared.requests.find 1).map (·.status) = some .completed ∧ Lifecycle final := by
  have ran : calls.system.run start labels = some final := rfl
  have initial : calls.system.init start := ⟨⟨fun _ _ found => (by cases found),rfl⟩,rfl⟩
  exact ⟨ran,rfl,rfl,request_lifecycle (.of_run initial ran)⟩

end Vnidrop.ReceiverLifecycle
