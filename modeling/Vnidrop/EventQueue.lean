import Vnidrop.HistoryDeletion
import Vnidrop.Programs
import Vnidrop.RedactedJson

/-! The hub of the core's events. Emissions are numbered, and queued where there is room; one
worker takes the queue in order and writes the history; a deletion first lets the worker come to
the end of what is queued. -/
namespace Vnidrop.EventQueue

open Programs Runs Tables
open EventHistory (CoreEvent Emission eventId persist)
open HistoryDeletion (Database)
open JsonTrees (Value)
open Paths (Str)
open Receives (TransferDirection)
open RedactedJson (redactJson)

inductive EventScope where
  | endpoint
  | transfer

def EventScope.asStr : EventScope → String
  | .endpoint => "endpoint"
  | .transfer => "transfer"

inductive EventPhase where
  | startup
  | recovery
  | shutdown
  | provider
  | error
  | imports
  | ticket
  | lifecycle
  | network
  | download
  | exports
  | access
  | handshake
  | approval
  | transfer
  | delivery
  | pairing
  | targetedTransfer
  | runtimeObligation
  deriving DecidableEq

def EventPhase.parse : String → Option EventPhase
  | "startup" => some .startup
  | "recovery" => some .recovery
  | "shutdown" => some .shutdown
  | "provider" => some .provider
  | "error" => some .error
  | "import" => some .imports
  | "ticket" => some .ticket
  | "lifecycle" => some .lifecycle
  | "network" => some .network
  | "download" => some .download
  | "export" => some .exports
  | "access" => some .access
  | "handshake" => some .handshake
  | "approval" => some .approval
  | "transfer" => some .transfer
  | "delivery" => some .delivery
  | "pairing" => some .pairing
  | "targeted_transfer" => some .targetedTransfer
  | "runtime_obligation" => some .runtimeObligation
  | _ => none

def EventPhase.asStr : EventPhase → String
  | .startup => "startup"
  | .recovery => "recovery"
  | .shutdown => "shutdown"
  | .provider => "provider"
  | .error => "error"
  | .imports => "import"
  | .ticket => "ticket"
  | .lifecycle => "lifecycle"
  | .network => "network"
  | .download => "download"
  | .exports => "export"
  | .access => "access"
  | .handshake => "handshake"
  | .approval => "approval"
  | .transfer => "transfer"
  | .delivery => "delivery"
  | .pairing => "pairing"
  | .targetedTransfer => "targeted_transfer"
  | .runtimeObligation => "runtime_obligation"

@[simp] theorem EventPhase.parse_asStr (phase : EventPhase) : EventPhase.parse phase.asStr = some phase := by
  cases phase <;> rfl

/-- A lower case letter, a digit or a dash. -/
def kindByte (byte : UInt8) : Bool := (97 ≤ byte && byte ≤ 122) || (48 ≤ byte && byte ≤ 57) || byte = 45

def validKind (value : String) : Bool :=
  !value.isEmpty && value.utf8ByteSize ≤ 64 && value.toUTF8.data.toList.all kindByte

structure EventKind where
  text : String
  valid : validKind text = true

def EventKind.parse (value : String) : Option EventKind :=
  if valid : validKind value = true then some ⟨value,valid⟩ else none

def directionAsStr : TransferDirection → String
  | .send => "send"
  | .receive => "receive"

/-- `TransferDirection::try_from`. -/
def parseDirection : String → Option TransferDirection
  | "send" => some .send
  | "receive" => some .receive
  | _ => none

section Emissions

-- `blake3::hash`, and the text that serde makes of a value
variable {Number : Type} (blake3 : List UInt8 → Vector UInt8 32) (render : Value Str Number → String)

/-- What `emit_endpoint` passes on; `none` where it drops the event. -/
def emitEndpoint (now : Millis) (phase kind : String) (data : Value Str Number) : Option Emission := do
  let phase ← EventPhase.parse phase
  let kind ← EventKind.parse kind
  return ⟨now,EventScope.endpoint.asStr,none,none,phase.asStr,kind.text,render (redactJson blake3 data)⟩

def emitTransfer (now : Millis) (transferId : TransferId) (direction phase kind : String)
    (data : Value Str Number) : Option Emission := do
  let direction ← parseDirection direction
  let phase ← EventPhase.parse phase
  let kind ← EventKind.parse kind
  return ⟨now,EventScope.transfer.asStr,some transferId,some (directionAsStr direction),phase.asStr,kind.text,
    render (redactJson blake3 data)⟩

end Emissions

inductive Order where
  | flush
  | shutdown
  deriving DecidableEq

/-- `EventCommand`; an order bears the channel on which it is answered. -/
inductive Command where
  | persist (event : CoreEvent)
  | order (order : Order) (done : Nat)
  deriving DecidableEq

/-- What the task of the hub is at. -/
inductive Worker where
  | waiting
  | storing (event : CoreEvent)
  | stopped
  deriving DecidableEq

/-- The hub with the store it writes to: `handle` while the task has not been joined, and
`channels` are the answers asked for so far. -/
structure Hub where
  counter : EventHistory.EventHub
  queue : List Command
  worker : Worker
  handle : Bool
  channels : Nat
  database : Database

inductive Op where
  | number (e : Emission)
  | trySend (event : CoreEvent)
  | send (order : Order)
  | answered (done : Nat)
  | takeHandle
  | join
  | deleteTransfer (transferId : TransferId)
  | deleteReceiveHistory

abbrev Ans : Op → Type
  | .number _ => CoreEvent
  | .answered _ | .join => Unit
  | .send _ => Option Nat
  | .trySend _ | .takeHandle => Bool
  | .deleteTransfer _ => Except VnidropError Unit
  | .deleteReceiveHistory => Except VnidropError Nat

/-- A deletion by itself, on what is stored. -/
def Hub.delete {α : Type} (s : Hub) (m : HistoryDeletion.Store α) (fails : Nat → Bool) : Except VnidropError α × Hub :=
  let (answer,session) := m.exec ⟨s.database,none,fails,0⟩
  (answer,{ s with database := session.stored })

/-- An order waits for room in the queue, an event is dropped without it; a queue whose worker
has stopped is closed. The sender of an answer is dropped with its order. -/
def exec (capacity : Nat) (s : Hub) : (op : Op) → (Nat → Bool) → Option (Ans op × Hub)
  | .number e, _ => some ((s.counter.emit e).1,{ s with counter := (s.counter.emit e).2 })
  | .trySend event, _ =>
    if s.worker ≠ .stopped ∧ s.queue.length < capacity then
      some (true,{ s with queue := s.queue ++ [.persist event] })
    else some (false,s)
  | .send order, _ =>
    if s.worker = .stopped then some (none,s)
    else if s.queue.length < capacity then
      some (some s.channels,{ s with queue := s.queue ++ [.order order s.channels], channels := s.channels + 1 })
    else none
  | .answered done, _ => if .order .flush done ∈ s.queue ∨ .order .shutdown done ∈ s.queue then none else some ((),s)
  | .takeHandle, _ => some (s.handle,{ s with handle := false })
  | .join, _ => if s.worker = .stopped then some ((),s) else none
  | .deleteTransfer id, fails => some (s.delete (HistoryDeletion.deleteTransfer id) fails)
  | .deleteReceiveHistory, fails => some (s.delete HistoryDeletion.deleteReceiveHistory fails)

/-- The task takes the head of the queue; the last order ends it, and what is queued behind. -/
def Hub.take (s : Hub) : Option Hub :=
  match s.worker, s.queue with
  | .waiting, .persist event :: queue => some { s with queue := queue, worker := .storing event }
  | .waiting, .order .flush _ :: queue => some { s with queue := queue }
  | .waiting, .order .shutdown _ :: _ => some { s with queue := [], worker := .stopped }
  | _, _ => none

def Hub.store (maxHistory : Nat) (s : Hub) (fails : Bool) : Option Hub :=
  match s.worker with
  | .storing event =>
    some { s with
      worker := .waiting
      database := { s.database with
        events := if fails then s.database.events else persist maxHistory s.database.events event } }
  | _ => none

/-- A step of the task, or a write of others to the other tables. -/
inductive Work where
  | take
  | store (fails : Bool)
  | other (database : Database)

def env (maxHistory : Nat) (s : Hub) : Work → Option Hub
  | .take => s.take
  | .store fails => s.store maxHistory fails
  | .other database => some { s with database := { database with events := s.database.events } }

inductive Call (Number : Type) where
  | emitEndpoint (now : Millis) (phase kind : String) (data : Value Str Number)
  | emitTransfer (now : Millis) (transferId : TransferId) (direction phase kind : String) (data : Value Str Number)
  | flush
  | shutdown
  | deleteTransfer (transferId : TransferId)
  | deleteReceiveHistory

abbrev Task (α : Type) := Prog Op Ans α

def op (o : Op) : Task (Ans o) := Prog.perform o

/-- The number is given under a lock of its own, which is free again when the event is queued. -/
def emit (e : Emission) : Task Unit := do
  let event ← op (.number e)
  let _ ← op (.trySend event)

def order (o : Order) : Task Unit := do
  match ← op (.send o) with
  | some done => op (.answered done)
  | none => return ()

def flush : Task Unit := order .flush

def shutdown : Task Unit := do
  order .shutdown
  if ← op .takeHandle then op .join

/-- The end of `delete_transfer`, when the transfer has been withdrawn. -/
def deleteTransfer (transferId : TransferId) : Task Unit := do
  flush
  let _ ← op (.deleteTransfer transferId)

def deleteReceiveHistory : Task Unit := do
  flush
  let _ ← op .deleteReceiveHistory

section Machine

variable {Number : Type} (blake3 : List UInt8 → Vector UInt8 32) (render : Value Str Number → String)

def Call.body : Call Number → Task Unit
  | .emitEndpoint now phase kind data => (EventQueue.emitEndpoint blake3 render now phase kind data).forM emit
  | .emitTransfer now transferId direction phase kind data =>
    (EventQueue.emitTransfer blake3 render now transferId direction phase kind data).forM emit
  | .flush => EventQueue.flush
  | .shutdown => EventQueue.shutdown
  | .deleteTransfer transferId => EventQueue.deleteTransfer transferId
  | .deleteReceiveHistory => EventQueue.deleteReceiveHistory

/-- The hub as it starts, on whatever is stored. -/
def hub (capacity maxHistory : Nat) : Programs.Machine Hub (Call Number) Op Ans (Nat → Bool) Work where
  init s := s.counter = ⟨1⟩ ∧ s.queue = [] ∧ s.worker = .waiting ∧ s.handle = true ∧ s.channels = 0
  admits _ _ := true
  body := Call.body blake3 render
  exec s _ _ op fails := exec capacity s op fails
  env := env maxHistory

end Machine

/-- The rows there were at first; the events that are numbered and not yet offered, by thread; those
the queue has accepted, and how many of them the worker has done with; how many it had accepted
when an order was given, by channel and by thread; and the transfers whose events were deleted. -/
structure History where
  earlier : List CoreEvent
  pending : List (Nat × CoreEvent)
  accepted : List CoreEvent
  done : Nat
  marks : List Nat
  drained : List (Nat × Nat)
  deletions : List (TransferId × Nat)

namespace History

def new (earlier : List CoreEvent) : History := ⟨earlier,[],[],0,[],[],[]⟩

/-- How many events the queue had accepted when the thread gave its last order. -/
def mark (h : History) (i : Nat) : Nat := (h.drained.lookup i).getD 0

def record (h : History) (s : Hub) (i : Nat) : (o : Op) → Ans o → History
  | .number _, event => { h with pending := (i,event) :: h.pending }
  | .trySend event, accepted =>
    { h with pending := h.pending.erase (i,event), accepted := h.accepted ++ if accepted then [event] else [] }
  | .send _, done =>
    { h with
      marks := h.marks ++ done.toList.map fun _ => h.accepted.length
      drained := (i,h.accepted.length) :: h.drained }
  | .deleteTransfer id, .ok _ => { h with deletions := (id,h.mark i) :: h.deletions }
  | .deleteReceiveHistory, .ok _ =>
    { h with deletions := (HistoryDeletion.finished s.database).map (·,h.mark i) ++ h.deletions }
  | _, _ => h

def witness (h : History) (_ : Hub) : Work → History
  | .store _ => { h with done := h.done + 1 }
  | _ => h

end History

abbrev State := Observed Hub History

section System

variable {Number : Type} (blake3 : List UInt8 → Vector UInt8 32) (render : Value Str Number → String)

def machine (capacity maxHistory : Nat) (earlier : List CoreEvent) :
    Programs.Machine State (Call Number) Op Ans (Nat → Bool) Work :=
  { (hub blake3 render capacity maxHistory).observe (.new earlier) (fun h s i _ => h.record s i) History.witness with
    init := fun s => (hub blake3 render capacity maxHistory).init s.state ∧ s.history = .new earlier ∧
      s.state.database.events.rows = earlier }

end System

def Worker.hand : Worker → List CoreEvent
  | .storing event => [event]
  | _ => []

/-- The events among the commands. -/
def events : List Command → List CoreEvent
  | [] => []
  | .persist event :: queue => event :: events queue
  | .order .. :: queue => events queue

/-- The number of events ahead of the order that is answered on the channel. -/
def ahead (done : Nat) : List Command → Option Nat
  | [] => none
  | .persist _ :: queue => (ahead done queue).map (· + 1)
  | .order _ d :: queue => if d = done then some 0 else ahead done queue

/-- An event as the hub makes it: it is known by its time and number, says a phase and a kind there
are, and has no data but redacted. -/
structure Formed {Number : Type} (blake3 : List UInt8 → Vector UInt8 32) (render : Value Str Number → String)
    (e : CoreEvent) : Prop where
  id : e.id = eventId e.timestamp e.revision
  phase : (EventPhase.parse e.phase).isSome
  kind : validKind e.kind = true
  direction : ∀ d ∈ e.direction, (parseDirection d).isSome
  scope : e.scope = if e.transferId.isSome then "transfer" else "endpoint"
  redacted : ∃ data, e.dataJson = render (redactJson blake3 data)

/-- Events with different numbers, up to those the counter has given. -/
structure Distinct (events : List CoreEvent) (next : Nat) : Prop where
  nodup : (events.map CoreEvent.revision).Nodup
  below : ∀ e ∈ events, e.revision < next

/-- What the worker has in hand and what is queued follows what it has done with, but for what its end
has dropped; what an order waits for, and what deletions have left. -/
structure Inv {Number : Type} (blake3 : List UInt8 → Vector UInt8 32) (render : Value Str Number → String)
    (capacity : Nat) (s : State) : Prop where
  order : ∃ lost, s.history.accepted.drop s.history.done = s.state.worker.hand ++ events s.state.queue ++ lost ∧
    (lost = [] ∨ s.state.worker = .stopped)
  done : s.history.done ≤ s.history.accepted.length
  room : s.state.queue.length ≤ capacity
  channels : s.history.marks.length = s.state.channels
  orders : ∀ o d, .order o d ∈ s.state.queue → d < s.state.channels
  ahead : ∀ (d mark : Nat), s.history.marks[d]? = some mark →
    s.state.worker = .stopped ∨ mark ≤ s.history.done +
      ((ahead d s.state.queue).map (s.state.worker.hand.length + ·)).getD 0
  rows : ∀ e ∈ s.state.database.events.rows, e ∈ s.history.earlier ∨ e ∈ s.history.accepted.take s.history.done
  deletions : ∀ x ∈ s.history.deletions, (s.state.worker = .stopped ∨ x.2 ≤ s.history.done) ∧
    ∀ e ∈ s.state.database.events.rows, e.transferId = some x.1 → ∃ n, x.2 ≤ n ∧ s.history.accepted[n]? = some e
  numbered : s.state.counter.sequence < 18446744073709551615 →
    Distinct (s.history.pending.map (·.2) ++ s.history.accepted) s.state.counter.sequence
  formed : ∀ e ∈ s.history.pending.map (·.2) ++ s.history.accepted, Formed blake3 render e

/-- What thread `i` relies on. -/
structure Kept (i : Nat) (s t : State) : Prop where
  pending : ∀ x ∈ s.history.pending, x.1 = i → x ∈ t.history.pending
  drained : t.history.drained.lookup i = s.history.drained.lookup i
  marks : ∀ (d mark : Nat), s.history.marks[d]? = some mark → t.history.marks[d]? = some mark
  done : s.history.done ≤ t.history.done
  stopped : s.state.worker = .stopped → t.state.worker = .stopped

theorem Kept.refl (i : Nat) (s : State) : Kept i s s := ⟨fun _ h _ => h,rfl,fun _ _ h => h,Nat.le_refl _,id⟩

theorem Kept.trans {i : Nat} {s t u : State} (f : Kept i s t) (g : Kept i t u) : Kept i s u where
  pending x h own := g.pending x (f.pending x h own) own
  drained := g.drained.trans f.drained
  marks d mark h := g.marks d mark (f.marks d mark h)
  done := Nat.le_trans f.done g.done
  stopped h := g.stopped (f.stopped h)

theorem events_append (q r : List Command) : events (q ++ r) = events q ++ events r := by
  induction q with
  | nil => rfl
  | cons c q ih => cases c <;> simp [events,ih]

theorem ahead_none {d : Nat} {q : List Command} (absent : ∀ o, .order o d ∉ q) : ahead d q = none := by
  induction q with
  | nil => rfl
  | cons c q ih =>
    have rest := ih fun o there => absent o (List.mem_cons_of_mem _ there)
    cases c with
    | persist event => simp [ahead,rest]
    | order o d' =>
      have other : d' ≠ d := fun same => absent o (same ▸ List.mem_cons_self)
      simp [ahead,other,rest]

/-- A command at the end of the queue has no order wait longer. -/
theorem ahead_append {d : Nat} {q r : List Command} {n : Nat} (there : ahead d q = some n) :
    ahead d (q ++ r) = some n := by
  induction q generalizing n with
  | nil => cases there
  | cons c q ih =>
    cases c with
    | persist event =>
      obtain ⟨m,here,rfl⟩ := Option.map_eq_some_iff.mp there
      simp [ahead,ih here]
    | order o d' =>
      simp only [ahead,List.cons_append] at there ⊢
      split at there
      · rename_i same
        rw [if_pos same]
        exact there
      · rename_i other
        rw [if_neg other]
        exact ih there

theorem ahead_last {d : Nat} {q : List Command} {o : Order} (absent : ∀ o, .order o d ∉ q) :
    ahead d (q ++ [.order o d]) = some (events q).length := by
  induction q with
  | nil => simp [ahead,events]
  | cons c q ih =>
    have rest := ih fun o there => absent o (List.mem_cons_of_mem _ there)
    cases c with
    | persist event => simp [ahead,events,rest]
    | order o' d' =>
      have other : d' ≠ d := fun same => absent o' (same ▸ List.mem_cons_self)
      simp [ahead,events,other,rest]

theorem ahead_persist {d : Nat} {q : List Command} {event : CoreEvent} :
    ahead d (q ++ [.persist event]) = ahead d q := by
  induction q with
  | nil => rfl
  | cons c q ih => cases c <;> simp [ahead,ih]

section Steps

variable {Number : Type} {blake3 : List UInt8 → Vector UInt8 32} {render : Value Str Number → String}
  {capacity maxHistory : Nat} {s t : State} {i j : Nat}

theorem endpoint_formed {now : Millis} {phase kind : String} {data : Value Str Number} {e : Emission}
    (made : emitEndpoint blake3 render now phase kind data = some e) (counter : EventHistory.EventHub) :
    Formed blake3 render (counter.emit e).1 := by
  simp only [emitEndpoint,Option.bind_eq_bind,Option.bind_eq_some_iff] at made
  obtain ⟨phase,-,kind,-,same⟩ := made
  cases same
  exact ⟨rfl,by simp [EventHistory.EventHub.emit],kind.valid,by simp [EventHistory.EventHub.emit],rfl,data,rfl⟩

theorem transfer_formed {now : Millis} {id : TransferId} {direction phase kind : String} {data : Value Str Number}
    {e : Emission} (made : emitTransfer blake3 render now id direction phase kind data = some e)
    (counter : EventHistory.EventHub) : Formed blake3 render (counter.emit e).1 := by
  simp only [emitTransfer,Option.bind_eq_bind,Option.bind_eq_some_iff] at made
  obtain ⟨direction,-,phase,-,kind,-,same⟩ := made
  cases same
  refine ⟨rfl,by simp [EventHistory.EventHub.emit],kind.valid,?_,rfl,data,rfl⟩
  intro d is
  obtain rfl : directionAsStr direction = d := by simpa [EventHistory.EventHub.emit] using is
  cases direction <;> rfl

theorem number_step {e : Emission} (inv : Inv blake3 render capacity s)
    (formed : Formed blake3 render (s.state.counter.emit e).1) :
    Inv blake3 render capacity ⟨{ s.state with counter := (s.state.counter.emit e).2 },
      { s.history with pending := (i,(s.state.counter.emit e).1) :: s.history.pending }⟩ := by
  refine { inv with numbered := fun small => ?_, formed := ?_ }
  · have next : (s.state.counter.emit e).2.sequence = s.state.counter.sequence + 1 := by
      simp only [EventHistory.EventHub.emit] at small ⊢
      omega
    have before := inv.numbered (by simp only [next] at small; omega)
    simp only [next,List.map_cons,List.cons_append]
    refine ⟨List.nodup_cons.mpr ⟨fun there => ?_,before.nodup⟩,List.forall_mem_cons.mpr ⟨Nat.lt_succ_self _,fun x there => ?_⟩⟩
    · obtain ⟨x,listed,same⟩ := List.mem_map.mp there
      exact absurd same (Nat.ne_of_lt (before.below x listed))
    · exact Nat.lt_succ_of_lt (before.below x there)
  · exact List.forall_mem_cons.mpr ⟨formed,inv.formed⟩

/-- The event leaves those that are pending, and the queue accepts it or not. -/
theorem offered {pending : List (Nat × CoreEvent)} (accepted : List CoreEvent) {event : CoreEvent}
    (own : (i,event) ∈ pending) (taken : Bool) :
    ((pending.erase (i,event)).map (·.2) ++ (accepted ++ if taken then [event] else [])).Subperm
      (pending.map (·.2) ++ accepted) := by
  have whole : (event :: ((pending.erase (i,event)).map (·.2) ++ accepted)).Perm (pending.map (·.2) ++ accepted) := by
    have := ((List.perm_cons_erase own).map (·.2)).symm
    simpa using this.append_right accepted
  cases taken with
  | true =>
    refine List.Perm.subperm (.trans ?_ whole)
    rw [if_pos rfl,← List.append_assoc]
    exact List.perm_append_singleton _ _
  | false =>
    simp only [Bool.false_eq_true,if_false,List.append_nil]
    exact (List.sublist_cons_self _ _).subperm.trans whole.subperm

theorem Distinct.of_subperm {events events' : List CoreEvent} {next : Nat} (distinct : Distinct events next)
    (sub : events'.Subperm events) : Distinct events' next := by
  refine ⟨?_,fun e there => distinct.below e (sub.subset there)⟩
  obtain ⟨l,perm,thin⟩ := sub
  exact (perm.map _).nodup_iff.mp (distinct.nodup.sublist (thin.map _))

theorem trySend_step {event : CoreEvent} {fails : Nat → Bool} {r : Bool} {u : Hub} (inv : Inv blake3 render capacity s)
    (own : (i,event) ∈ s.history.pending) (ran : exec capacity s.state (.trySend event) fails = some (r,u)) :
    Inv blake3 render capacity ⟨u,s.history.record s.state i (.trySend event) r⟩ := by
  have sub := offered s.history.accepted own r
  simp only [exec] at ran
  split at ran
  · rename_i free
    obtain ⟨rfl,rfl⟩ := Prod.mk.inj (Option.some.inj ran)
    obtain ⟨lost,order,none⟩ := inv.order
    have none := none.resolve_right free.1
    subst none
    refine ⟨⟨[],?_,.inl rfl⟩,?_,?_,inv.channels,?_,?_,?_,?_,?_,?_⟩
    · simp [History.record,List.drop_append_of_le_length inv.done,order,events_append,events]
    · simpa [History.record] using Nat.le_succ_of_le inv.done
    · simpa using free.2
    · intro o d there
      exact inv.orders o d (by simpa using there)
    · intro d mark given
      simp only [ahead_persist]
      exact inv.ahead d mark given
    · intro e there
      rcases inv.rows e there with first | done
      · exact .inl first
      · refine .inr ?_
        simp only [History.record,List.take_append_of_le_length inv.done]
        exact done
    · intro x there
      refine ⟨(inv.deletions x there).1,fun e row same => ?_⟩
      obtain ⟨n,le,is⟩ := (inv.deletions x there).2 e row same
      exact ⟨n,le,List.getElem?_append_left (List.getElem?_eq_some_iff.mp is).1 ▸ is⟩
    · exact fun small => (inv.numbered small).of_subperm sub
    · exact fun e there => inv.formed e (sub.subset there)
  · obtain ⟨rfl,rfl⟩ := Prod.mk.inj (Option.some.inj ran)
    simp only [Bool.false_eq_true,if_false,List.append_nil] at sub
    simp only [History.record,Bool.false_eq_true,if_false,List.append_nil]
    exact { inv with
      numbered := fun small => (inv.numbered small).of_subperm sub
      formed := fun e there => inv.formed e (sub.subset there) }

theorem send_step {o : Order} {fails : Nat → Bool} {r : Option Nat} {u : Hub} (inv : Inv blake3 render capacity s)
    (ran : exec capacity s.state (.send o) fails = some (r,u)) :
    Inv blake3 render capacity ⟨u,s.history.record s.state i (.send o) r⟩ := by
  simp only [exec] at ran
  split at ran
  · obtain ⟨rfl,rfl⟩ := Prod.mk.inj (Option.some.inj ran)
    simp only [History.record,Option.toList_none,List.map_nil,List.append_nil]
    exact { inv with }
  · rename_i running
    split at ran
    · rename_i free
      obtain ⟨rfl,rfl⟩ := Prod.mk.inj (Option.some.inj ran)
      obtain ⟨lost,order,none⟩ := inv.order
      have none := none.resolve_right running
      subst none
      have fresh (o' : Order) : .order o' s.state.channels ∉ s.state.queue :=
        fun there => Nat.lt_irrefl _ (inv.orders o' _ there)
      have whole : s.history.accepted.length =
          s.history.done + (s.state.worker.hand.length + (events s.state.queue).length) := by
        have := congrArg List.length order
        simp only [List.length_drop,List.length_append,List.length_nil] at this
        have := inv.done
        omega
      refine { inv with order := ⟨[],?_,.inl rfl⟩, room := ?_, channels := ?_, orders := ?_, ahead := ?_ }
      · simpa [History.record,events_append,events] using order
      · simpa using free
      · simp [History.record,inv.channels]
      · intro o' d there
        rcases List.mem_append.mp there with old | new
        · exact Nat.lt_succ_of_lt (inv.orders o' d old)
        · cases List.mem_singleton.mp new
          exact Nat.lt_succ_self _
      · intro d mark given
        refine .inr ?_
        simp only [History.record,Option.toList_some,List.map_cons,List.map_nil] at given ⊢
        by_cases old : d < s.history.marks.length
        · rw [List.getElem?_append_left old] at given
          have before := (inv.ahead d mark given).resolve_left running
          cases there : ahead d s.state.queue with
          | some n =>
            rw [there] at before
            simpa [ahead_append there] using before
          | none =>
            rw [there] at before
            exact Nat.le_trans before (Nat.le_add_right _ _)
        · obtain rfl : d = s.state.channels := by
            have inside := (List.getElem?_eq_some_iff.mp given).1
            have := inv.channels
            rw [List.length_append,List.length_singleton] at inside
            omega
          rw [← inv.channels,List.getElem?_append_right (Nat.le_refl _)] at given
          obtain rfl : s.history.accepted.length = mark := by simpa using given
          rw [ahead_last fresh]
          exact Nat.le_of_eq whole
    · cases ran

/-- A deletion takes rows away, among them those of the transfer when it succeeds. -/
theorem deleteTransfer_rows {id : TransferId} {fails : Nat → Bool} {h : Hub} {r : Except VnidropError Unit}
    {u : Hub} (ran : h.delete (HistoryDeletion.deleteTransfer id) fails = (r,u)) :
    u = { h with database := u.database } ∧ (∀ e ∈ u.database.events.rows, e ∈ h.database.events.rows) ∧
      (r = .ok () → ∀ e ∈ u.database.events.rows, e.transferId ≠ some id) := by
  have atomic := HistoryDeletion.deleteTransfer_atomic id
  unfold Hub.delete at ran
  rcases run : (HistoryDeletion.deleteTransfer id).exec ⟨h.database,none,fails,0⟩ with ⟨answer,session⟩
  rw [run] at ran
  cases ran
  refine ⟨rfl,?_⟩
  cases r with
  | error e =>
    rw [show session.stored = h.database from atomic.failed _ _ _ run]
    exact ⟨fun _ there => there,nofun⟩
  | ok a =>
    obtain ⟨-,-,left⟩ := HistoryDeletion.deleted_iff.mp (atomic.done _ () _ run)
    simp only [left,HistoryDeletion.without,Table.deleteWhere,List.mem_filter]
    exact ⟨fun e there => there.1,fun _ e there same => by simp [same] at there⟩

theorem deleteReceiveHistory_rows {fails : Nat → Bool} {h : Hub} {r : Except VnidropError Nat} {u : Hub}
    (ran : h.delete HistoryDeletion.deleteReceiveHistory fails = (r,u)) :
    u = { h with database := u.database } ∧ (∀ e ∈ u.database.events.rows, e ∈ h.database.events.rows) ∧
      (∀ n, r = .ok n → ∀ e ∈ u.database.events.rows, ∀ id ∈ HistoryDeletion.finished h.database,
        e.transferId ≠ some id) := by
  have atomic := HistoryDeletion.deleteReceiveHistory_atomic
  unfold Hub.delete at ran
  rcases run : HistoryDeletion.deleteReceiveHistory.exec ⟨h.database,none,fails,0⟩ with ⟨answer,session⟩
  rw [run] at ran
  cases ran
  refine ⟨rfl,?_⟩
  cases r with
  | error e =>
    rw [show session.stored = h.database from atomic.failed _ _ _ run]
    exact ⟨fun _ there => there,fun _ is => nomatch is⟩
  | ok n =>
    obtain ⟨-,left⟩ := Prod.mk.inj (Except.ok.inj (atomic.done _ n _ run))
    rw [← left]
    simp only [HistoryDeletion.without,Table.deleteWhere,List.mem_filter]
    refine ⟨fun e there => there.1,fun _ _ e there id listed same => ?_⟩
    simp [same,listed] at there

theorem delete_step {d : Database} (gone : List TransferId) (mark : Nat) (inv : Inv blake3 render capacity s)
    (fewer : ∀ e ∈ d.events.rows, e ∈ s.state.database.events.rows)
    (free : ∀ id ∈ gone, ∀ e ∈ d.events.rows, e.transferId ≠ some id)
    (drained : s.state.worker = .stopped ∨ mark ≤ s.history.done) :
    Inv blake3 render capacity ⟨{ s.state with database := d },
      { s.history with deletions := gone.map (·,mark) ++ s.history.deletions }⟩ := by
  refine { inv with rows := fun e there => inv.rows e (fewer e there), deletions := fun x listed => ?_ }
  rcases List.mem_append.mp listed with new | old
  · obtain ⟨id,named,rfl⟩ := List.mem_map.mp new
    exact ⟨drained,fun e there same => absurd same (free id named e there)⟩
  · exact ⟨(inv.deletions x old).1,fun e there => (inv.deletions x old).2 e (fewer e there)⟩

/-- The worker stores what it has in hand, the first of the events it has not done with. -/
theorem store_step {event : CoreEvent} {table : EventHistory.TransferEvents} (inv : Inv blake3 render capacity s)
    (hand : s.state.worker = .storing event)
    (kept : ∀ e ∈ table.rows, e ∈ s.state.database.events.rows ∨ e = event) :
    Inv blake3 render capacity ⟨{ s.state with worker := .waiting, database := { s.state.database with events := table } },
      { s.history with done := s.history.done + 1 }⟩ := by
  have running : s.state.worker ≠ .stopped := by simp [hand]
  obtain ⟨lost,order,none⟩ := inv.order
  have none := none.resolve_right running
  subst none
  simp only [hand,Worker.hand,List.append_nil,List.cons_append,List.nil_append] at order
  have first : s.history.accepted[s.history.done]? = some event := by
    rw [← List.head?_drop,order]
    rfl
  have inside := (List.getElem?_eq_some_iff.mp first).1
  have taken : s.history.accepted.take (s.history.done + 1) = s.history.accepted.take s.history.done ++ [event] := by
    rw [List.take_add_one,first]
    rfl
  refine { inv with order := ⟨[],?_,.inl rfl⟩, done := inside, ahead := ?_, rows := ?_, deletions := ?_ }
  · have := congrArg (List.drop 1) order
    simpa [Worker.hand] using this
  · intro d mark given
    have before := (inv.ahead d mark given).resolve_left running
    refine .inr ?_
    cases there : ahead d s.state.queue with
    | some n =>
      simp only [there,hand,Worker.hand,Option.map_some,Option.getD_some,List.length_singleton,List.length_nil] at before ⊢
      omega
    | none =>
      simp only [there,Option.map_none,Option.getD_none] at before ⊢
      omega
  · intro e there
    rw [taken,List.mem_append,List.mem_singleton]
    rcases kept e there with old | rfl
    · exact (inv.rows e old).imp_right .inl
    · exact .inr (.inr rfl)
  · intro x listed
    obtain ⟨since,left⟩ := inv.deletions x listed
    have since := since.resolve_left running
    refine ⟨.inr (Nat.le_succ_of_le since),fun e there same => ?_⟩
    rcases kept e there with old | rfl
    · exact left e old same
    · exact ⟨_,since,first⟩

theorem persist_rows {m : Nat} {t : EventHistory.TransferEvents} {event e : CoreEvent}
    (there : e ∈ (persist m t event).rows) : e ∈ t.rows ∨ e = event := by
  rcases EventHistory.insertEvent_eq (t := t) (e := event) (m := m) with ⟨_,same⟩ | ⟨_,error,same⟩
  · unfold persist at there
    rw [same] at there
    have added := (List.mem_filter.mp there).1
    have older : ∀ x ∈ (t.delete event.id).rows, x ∈ t.rows := fun x member => (List.mem_filter.mp member).1
    unfold Table.insertOrIgnore Table.insert at added
    split at added
    · exact .inl (older e added)
    · rcases List.mem_append.mp added with old | new
      · exact .inl (older e old)
      · exact .inr (List.mem_singleton.mp new)
  · unfold persist at there
    rw [same] at there
    exact .inl there

/-- What the worker may find at the head of the queue. -/
theorem take_cases {h u : Hub} (moved : h.take = some u) : h.worker = .waiting ∧
    ((∃ event queue, h.queue = .persist event :: queue ∧ u = { h with queue := queue, worker := .storing event }) ∨
    (∃ d queue, h.queue = .order .flush d :: queue ∧ u = { h with queue := queue }) ∨
    ∃ d queue, h.queue = .order .shutdown d :: queue ∧ u = { h with queue := [], worker := .stopped }) := by
  unfold Hub.take at moved
  split at moved <;> rename_i idle here
  · exact ⟨idle,.inl ⟨_,_,here,(Option.some.inj moved).symm⟩⟩
  · exact ⟨idle,.inr (.inl ⟨_,_,here,(Option.some.inj moved).symm⟩)⟩
  · exact ⟨idle,.inr (.inr ⟨_,_,here,(Option.some.inj moved).symm⟩)⟩
  · cases moved

theorem take_step {u : Hub} (inv : Inv blake3 render capacity s) (moved : s.state.take = some u) :
    Inv blake3 render capacity ⟨u,s.history⟩ := by
  obtain ⟨idle,⟨event,queue,here,rfl⟩ | ⟨d,queue,here,rfl⟩ | ⟨d,queue,here,rfl⟩⟩ := take_cases moved
  all_goals
    have running : s.state.worker ≠ .stopped := by simp [idle]
    obtain ⟨lost,order,none⟩ := inv.order
    have none := none.resolve_right running
    subst none
    have room := inv.room
    have orders := inv.orders
    rw [here] at order room orders
    simp only [idle,Worker.hand,List.nil_append,List.append_nil,events] at order
  · refine { inv with
      order := ⟨[],by simpa [Worker.hand] using order,.inl rfl⟩
      room := Nat.le_of_succ_le room
      orders := fun o d there => orders o d (List.mem_cons_of_mem _ there)
      ahead := fun d mark given => .inr ?_
      deletions := fun x there => ⟨.inr ((inv.deletions x there).1.resolve_left running),(inv.deletions x there).2⟩ }
    have before := (inv.ahead d mark given).resolve_left running
    rw [here,idle] at before
    cases there : ahead d queue with
    | some n =>
      simp only [ahead,there,Worker.hand,Option.map_some,Option.getD_some,List.length_singleton,List.length_nil] at before ⊢
      omega
    | none => simpa [ahead,there] using before
  · refine { inv with
      order := ⟨[],by simpa [idle,Worker.hand] using order,.inl rfl⟩
      room := Nat.le_of_succ_le room
      orders := fun o d there => orders o d (List.mem_cons_of_mem _ there)
      ahead := fun d' mark given => .inr ?_ }
    have before := (inv.ahead d' mark given).resolve_left running
    rw [here] at before
    by_cases own : d = d'
    -- the order itself is answered: nothing was ahead of it
    · simp only [ahead,if_pos own,idle,Worker.hand,Option.map_some,Option.getD_some,List.length_nil] at before
      exact Nat.le_add_right_of_le before
    · simpa only [ahead,if_neg own] using before
  · exact { inv with
      order := ⟨events queue,by simpa [Worker.hand,events] using order,.inr rfl⟩
      room := Nat.zero_le _
      orders := fun o d there => absurd there List.not_mem_nil
      ahead := fun _ _ _ => .inl rfl
      deletions := fun x there => ⟨.inl rfl,(inv.deletions x there).2⟩ }

theorem env_step {w : Work} {u : Hub} (inv : Inv blake3 render capacity s) (moved : env maxHistory s.state w = some u) :
    Inv blake3 render capacity ⟨u,s.history.witness s.state w⟩ ∧ ∀ j, Kept j s ⟨u,s.history.witness s.state w⟩ := by
  cases w with
  | take =>
    refine ⟨take_step inv moved,fun j => ⟨fun _ h _ => h,rfl,fun _ _ h => h,Nat.le_refl _,fun stopped => ?_⟩⟩
    rw [(take_cases moved).1] at stopped
    cases stopped
  | store fails =>
    change s.state.store maxHistory fails = some u at moved
    unfold Hub.store at moved
    split at moved
    · rename_i event hand
      cases moved
      refine ⟨store_step inv hand ?_,
        fun j => ⟨fun _ h _ => h,rfl,fun _ _ h => h,Nat.le_succ _,fun stopped => ?_⟩⟩
      · intro e there
        split at there
        · exact .inl there
        · exact persist_rows there
      · rw [hand] at stopped
        cases stopped
    · cases moved
  | other database =>
    cases moved
    exact ⟨{ inv with },fun j => ⟨fun _ h _ => h,rfl,fun _ _ h => h,Nat.le_refl _,id⟩⟩

/-- What the operations of other threads leave to thread `j`. -/
theorem exec_kept {op : Op} {fails : Nat → Bool} {r : Ans op} {u : Hub} (different : j ≠ i)
    (ran : exec capacity s.state op fails = some (r,u)) : Kept j s ⟨u,s.history.record s.state i op r⟩ := by
  cases op with
  | number e =>
    cases ran
    exact ⟨fun _ h _ => List.mem_cons_of_mem _ h,rfl,fun _ _ h => h,Nat.le_refl _,id⟩
  | trySend event =>
    have stays : u.worker = s.state.worker := by
      simp only [exec] at ran
      split at ran <;> cases ran <;> rfl
    refine ⟨fun x h own => ?_,rfl,fun _ _ h => h,Nat.le_refl _,fun stopped => stays.trans stopped⟩
    exact (List.mem_erase_of_ne fun same => different (own.symm.trans (congrArg Prod.fst same))).mpr h
  | send o =>
    have stays : u.worker = s.state.worker := by
      simp only [exec] at ran
      split at ran
      · cases ran
        rfl
      · split at ran
        · cases ran
          rfl
        · cases ran
    refine ⟨fun _ h _ => h,?_,fun d mark given => ?_,Nat.le_refl _,fun stopped => stays.trans stopped⟩
    · simp [History.record,List.lookup,beq_eq_false_iff_ne.mpr different]
    · rw [History.record,List.getElem?_append_left (List.getElem?_eq_some_iff.mp given).1]
      exact given
  | answered d =>
    simp only [exec] at ran
    split at ran <;> cases ran
    exact Kept.refl j s
  | takeHandle =>
    cases ran
    exact ⟨fun _ h _ => h,rfl,fun _ _ h => h,Nat.le_refl _,id⟩
  | join =>
    simp only [exec] at ran
    split at ran <;> cases ran
    exact Kept.refl j s
  | deleteTransfer id =>
    obtain ⟨same,-⟩ := deleteTransfer_rows (Option.some.inj ran)
    rw [same]
    cases r <;> exact ⟨fun _ h _ => h,rfl,fun _ _ h => h,Nat.le_refl _,fun stopped => stopped⟩
  | deleteReceiveHistory =>
    obtain ⟨same,-⟩ := deleteReceiveHistory_rows (Option.some.inj ran)
    rw [same]
    cases r <;> exact ⟨fun _ h _ => h,rfl,fun _ _ h => h,Nat.le_refl _,id⟩

def terms (blake3 : List UInt8 → Vector UInt8 32) (render : Value Str Number → String) (capacity : Nat) :
    Terms State where
  known _ := True
  inv := Inv blake3 render capacity
  rely := Kept
  refl := Kept.refl
  trans i := Kept.trans (i := i)

variable {earlier : List CoreEvent} {call : Call Number}

theorem machine_exec {op : Op} {fails : Nat → Bool} {r : Ans op}
    (ran : (machine blake3 render capacity maxHistory earlier).exec s i call op fails = some (r,t)) :
    ∃ u, exec capacity s.state op fails = some (r,u) ∧ t = ⟨u,s.history.record s.state i op r⟩ := by
  obtain ⟨⟨r',u⟩,performed,same⟩ := Option.map_eq_some_iff.mp ran
  cases same
  exact ⟨u,performed,rfl⟩

/-- The thread's last order has been reached: the worker has done with all that was accepted before. -/
def Drained (i : Nat) (s : State) : Prop :=
  s.history.drained.lookup i ≠ none ∧ (s.state.worker = .stopped ∨ s.history.mark i ≤ s.history.done)

theorem Drained.kept (drained : Drained i s) (kept : Kept i s t) : Drained i t := by
  unfold Drained History.mark at drained ⊢
  rw [kept.drained]
  exact ⟨drained.1,drained.2.imp kept.stopped fun le => Nat.le_trans le kept.done⟩

theorem emit_safe {e : Emission} (formed : ∀ counter : EventHistory.EventHub, Formed blake3 render (counter.emit e).1) :
    Safe (machine blake3 render capacity maxHistory earlier) free (terms blake3 render capacity) i call (emit e)
      (fun _ _ => True) s := by
  refine safe_perform fun t _ inv _ fails r u _ performed => ?_
  obtain ⟨u,ran,rfl⟩ := machine_exec performed
  refine ⟨⟨?_,fun j other => exec_kept other ran⟩,?_⟩
  · cases ran
    exact number_step inv (formed _)
  · refine safe_perform fun v _ inv rely fails r w _ performed => ?_
    obtain ⟨w,ran',rfl⟩ := machine_exec performed
    refine ⟨⟨trySend_step inv (rely.pending _ ?_ rfl) ran',fun j other => exec_kept other ran'⟩,trivial⟩
    exact List.mem_cons_self

theorem order_safe {o : Order} :
    Safe (machine blake3 render capacity maxHistory earlier) free (terms blake3 render capacity) i call (order o)
      (fun _ => Drained i) s := by
  refine safe_perform fun t _ inv _ fails r u _ performed => ?_
  obtain ⟨u,ran,rfl⟩ := machine_exec performed
  refine ⟨⟨send_step inv ran,fun j other => exec_kept other ran⟩,?_⟩
  have known : (t.history.record t.state i (.send o) r).drained.lookup i = some t.history.accepted.length := by
    simp [History.record]
  cases r with
  | none =>
    refine safe_pure ⟨by simp [known],.inl ?_⟩
    simp only [exec] at ran
    split at ran
    · cases ran
      assumption
    · split at ran <;> cases ran
  | some d =>
    have given : (t.history.record t.state i (.send o) (some d)).marks[d]? = some t.history.accepted.length := by
      obtain rfl : t.state.channels = d := by
        simp only [exec] at ran
        split at ran
        · cases ran
        · split at ran
          · exact Option.some.inj (Prod.mk.inj (Option.some.inj ran)).1
          · cases ran
      simp [History.record,← inv.channels]
    refine safe_perform fun v _ inv rely fails r w _ performed => ?_
    obtain ⟨w,ran',rfl⟩ := machine_exec performed
    simp only [exec] at ran'
    split at ran'
    · cases ran'
    · rename_i reached
      cases ran'
      have drained : v.history.drained.lookup i = some t.history.accepted.length := rely.drained.trans known
      refine ⟨⟨inv,fun j _ => Kept.refl j v⟩,?_⟩
      change Drained i v
      have before := inv.ahead d _ (rely.marks d _ given)
      have absent (o : Order) : .order o d ∉ v.state.queue := by
        cases o
        · exact fun there => reached (.inl there)
        · exact fun there => reached (.inr there)
      rw [ahead_none absent] at before
      exact ⟨by simp [drained],by simpa [History.mark,drained] using before⟩

theorem call_safe (call : Call Number) :
    Safe (machine blake3 render capacity maxHistory earlier) free (terms blake3 render capacity) i call
      (call.body blake3 render) (fun _ _ => True) s := by
  cases call with
  | emitEndpoint now phase kind data =>
    change Safe _ _ _ _ _ ((emitEndpoint blake3 render now phase kind data).forM emit) _ s
    cases made : emitEndpoint blake3 render now phase kind data with
    | none => exact safe_pure trivial
    | some e => exact emit_safe (endpoint_formed made)
  | emitTransfer now id direction phase kind data =>
    change Safe _ _ _ _ _ ((emitTransfer blake3 render now id direction phase kind data).forM emit) _ s
    cases made : emitTransfer blake3 render now id direction phase kind data with
    | none => exact safe_pure trivial
    | some e => exact emit_safe (transfer_formed made)
  | flush => exact safe_mono (fun _ _ _ => trivial) order_safe
  | shutdown =>
    refine safe_bind (safe_mono (fun _ v _ => ?_) order_safe)
    refine safe_perform fun w _ inv _ fails r u _ performed => ?_
    obtain ⟨u,ran,rfl⟩ := machine_exec performed
    cases ran
    refine ⟨⟨{ inv with },fun j other => exec_kept (r := w.state.handle) other (show exec capacity w.state .takeHandle fails = _ from rfl)⟩,?_⟩
    cases w.state.handle with
    | false => exact safe_pure trivial
    | true =>
      refine safe_perform fun x _ inv _ fails r u _ performed => ?_
      obtain ⟨u,ran,rfl⟩ := machine_exec performed
      refine ⟨⟨?_,fun j other => exec_kept other ran⟩,trivial⟩
      simp only [exec] at ran
      split at ran <;> cases ran
      exact inv
  | deleteTransfer id =>
    refine safe_bind (safe_mono (fun _ v drained => ?_) order_safe)
    refine safe_perform fun w _ inv rely fails r u _ performed => ?_
    obtain ⟨u,ran,rfl⟩ := machine_exec performed
    refine ⟨⟨?_,fun j other => exec_kept other ran⟩,trivial⟩
    obtain ⟨same,fewer,free⟩ := deleteTransfer_rows (Option.some.inj ran)
    rw [same]
    cases r with
    | error e => exact delete_step [] 0 inv fewer nofun (.inr (Nat.zero_le _))
    | ok a => exact delete_step [id] _ inv fewer (by simpa using free rfl) (drained.kept rely).2
  | deleteReceiveHistory =>
    refine safe_bind (safe_mono (fun _ v drained => ?_) order_safe)
    refine safe_perform fun w _ inv rely fails r u _ performed => ?_
    obtain ⟨u,ran,rfl⟩ := machine_exec performed
    refine ⟨⟨?_,fun j other => exec_kept other ran⟩,trivial⟩
    obtain ⟨same,fewer,free⟩ := deleteReceiveHistory_rows (Option.some.inj ran)
    rw [same]
    cases r with
    | error e => exact delete_step [] 0 inv fewer nofun (.inr (Nat.zero_le _))
    | ok n => exact delete_step _ _ inv fewer (fun id listed e there => free n rfl e there id listed) (drained.kept rely).2

theorem init_inv (initial : (machine blake3 render capacity maxHistory earlier).init s) : Inv blake3 render capacity s := by
  obtain ⟨⟨-,queue,worker,-,channels⟩,new,rows⟩ := initial
  rw [← rows] at new
  refine ⟨⟨[],?_,.inl rfl⟩,?_,?_,?_,?_,?_,?_,?_,?_,?_⟩ <;>
    simp [new,queue,worker,channels,History.new,Worker.hand,events]
  exact fun _ => ⟨.nil,nofun⟩

theorem reach_inv {c : Conf State (Call Number) Op Ans}
    (reach : Reach (machine blake3 render capacity maxHistory earlier).system Always c) : Inv blake3 render capacity c.shared :=
  (reach_secured (T := terms blake3 render capacity) (fun _ _ => trivial)
    (fun _ => init_inv) (fun _ call _ _ _ _ => call_safe call) (fun _ _ _ _ _ _ => trivial)
    (fun s e t _ inv _ moved => by
      obtain ⟨u,went,rfl⟩ := Option.map_eq_some_iff.mp moved
      exact env_step inv went)
    (reach.mono fun d a _ => free_holds d a)).inv

/-- A deletion is final: an event of the transfer that is in the history after it was accepted by the
queue after the deletion had asked for the queue to be written. -/
theorem deletions_final {c : Conf State (Call Number) Op Ans}
    (reach : Reach (machine blake3 render capacity maxHistory earlier).system Always c) :
    ∀ x ∈ c.shared.history.deletions, ∀ e ∈ c.shared.state.database.events.rows, e.transferId = some x.1 →
      ∃ n, x.2 ≤ n ∧ c.shared.history.accepted[n]? = some e :=
  fun x listed => ((reach_inv reach).deletions x listed).2

end Steps

/-- What can be said of the hub at any time: it writes each accepted event at most once and in the
order of acceptance, within its capacity; up to the end of its counter no two events have one number
or one id; and every row of the history was there at first or is an event as the hub makes it. -/
structure Sound {Number : Type} (blake3 : List UInt8 → Vector UInt8 32) (render : Value Str Number → String)
    (capacity : Nat) (s : State) : Prop where
  order : s.state.worker ≠ .stopped → s.history.accepted =
    s.history.accepted.take s.history.done ++ s.state.worker.hand ++ events s.state.queue
  room : s.state.queue.length ≤ capacity
  numbers : s.state.counter.sequence < 18446744073709551615 → (s.history.accepted.map CoreEvent.revision).Nodup
  ids : s.state.counter.sequence < 18446744073709551615 → (s.history.accepted.map CoreEvent.id).Nodup
  rows : ∀ e ∈ s.state.database.events.rows, e ∈ s.history.earlier ∨
    e ∈ s.history.accepted.take s.history.done ∧ Formed blake3 render e

namespace Sample

def hash : List UInt8 → Vector UInt8 32 := fun _ => Vector.replicate 32 0

def text : Value Str Nat → String := fun _ => "{}"

def transfer : Receives.Transfer where
  transferId := 3
  localId := 9
  protocolTransferId := 3
  peerId := none
  direction := .send
  status := .stopped
  transferName := none
  senderName := none
  contentHash := none
  ticket := none
  fileCount := 1
  totalSize := 1
  accessMode := "approval_required"
  createdAt := 0
  updatedAt := 0

def start : Conf State (Call Nat) Op Ans :=
  ⟨⟨⟨⟨1⟩,[],.waiting,true,0,⟨⟨[transfer],List.nodup_singleton _⟩,.empty,.empty,.empty,.empty⟩⟩,.new []⟩,[]⟩

def calm : Nat → Bool := fun _ => false

def emits (i : Nat) (kind : String) (fails : Bool) : List (Label (Call Nat) (Nat → Bool) Work) :=
  [.fork (.emitTransfer 1000 3 "send" "lifecycle" kind .null),.act i calm,.act i calm,.env .take,.env (.store fails)]

/-- The write of an event fails, the transfer is deleted, and another event comes. -/
def late : List (Label (Call Nat) (Nat → Bool) Work) :=
  emits 0 "share-stopped" true ++ [.fork (.deleteTransfer 3),.act 1 calm,.env .take,.act 1 calm,.act 1 calm] ++
    emits 2 "share-deleted" false

def after : Conf State (Call Nat) Op Ans := ((machine hash text 4 100 []).system.run start late).getD start

def last : CoreEvent :=
  ⟨eventId 1000 2,2,1000,"transfer",some 3,some "send","lifecycle","share-deleted","{}"⟩

theorem reached : Reach (machine hash text 4 100 []).system Always after :=
  .of_run (show (machine hash text 4 100 []).system.init start from ⟨⟨⟨rfl,rfl,rfl,rfl,rfl⟩,rfl,rfl⟩,rfl⟩)
    (show System.run _ start late = some after from rfl)

theorem rows : after.shared.state.database.events.rows = [last] := by
  change (persist 100 .empty last).rows = [last]
  exact List.perm_singleton.mp ((EventHistory.persist_fit rfl rfl).trans (by simp [Newest.greatest,Table.empty]))

end Sample

open EventQueue.Sample in
theorem late_event : after.shared.history.deletions = [(3,1)] ∧ ∃ n, 1 ≤ n ∧ after.shared.history.accepted[n]? = some last :=
  ⟨rfl,deletions_final reached (3,1) (List.mem_singleton_self _) last (rows ▸ List.mem_singleton_self _) rfl⟩

end Vnidrop.EventQueue
