import Vnidrop.Identifiers

/-! The gate of a targeted preparation: one send and any number of stops share a phase, a
condition variable and the row that the send registers. -/
namespace Vnidrop.PreparationGate

open Programs Runs
open Identifiers (Limits)
open Targeted (Device Local Payload TargetedTransferRow TargetedPreparationStopOutcome)

/-- What a stop reports: that the preparation was stopped, or what became of its transfer. -/
inductive StopOutcome where
  | preparationStopped
  | transfer (outcome : TargetedPreparationStopOutcome)
  deriving DecidableEq, Repr

inductive PreparationPhase where
  | ready
  | preparing
  | stopRequested
  | registering
  | registered (id : TransferId)
  | stopping
  | stopped
  | failed
  | finished (outcome : StopOutcome)
  deriving DecidableEq, Repr

/-- One round of `stop_target` under the lock: the stop waits to be notified, is given the
transfer to act on, or has its outcome. -/
inductive Visit where
  | wait
  | target (id : TransferId)
  | outcome (o : StopOutcome)
  deriving DecidableEq, Repr

namespace PreparationPhase

def start : PreparationPhase → Option PreparationPhase
  | .ready => some .preparing
  | _ => none

def beginRegistration : PreparationPhase → Bool × PreparationPhase
  | .stopRequested => (false,.stopRequested)
  | _ => (true,.registering)

def fail : PreparationPhase → PreparationPhase
  | .stopRequested => .finished .preparationStopped
  | _ => .failed

def visit : PreparationPhase → Visit × PreparationPhase
  | .ready => (.outcome .preparationStopped,.stopped)
  | .preparing => (.wait,.stopRequested)
  | .stopRequested => (.wait,.stopRequested)
  | .registering => (.wait,.registering)
  | .registered id => (.target id,.stopping)
  | .stopping => (.wait,.stopping)
  | .stopped => (.outcome .preparationStopped,.stopped)
  | .failed => (.outcome .preparationStopped,.failed)
  | .finished outcome => (.outcome outcome,.finished outcome)

/-- What every stop from now on reports. -/
def outcome : PreparationPhase → Option StopOutcome
  | .stopped | .failed => some .preparationStopped
  | .finished outcome => some outcome
  | _ => none

/-- The send has started, and has neither registered its transfer nor failed. -/
def pending : PreparationPhase → Bool
  | .preparing | .stopRequested | .registering => true
  | _ => false

end PreparationPhase

/-- The device and the gate of one preparation. -/
structure Gate where
  device : Device
  phase : PreparationPhase
  activeTargetedPreparations : Nat
  /-- The negotiation that the send has left to the runtime, and whether it has begun. -/
  spawned : Option (Payload × TransferId)
  begun : Bool
  /-- History: how many sends were called, the one that has started, the id it has drawn for its
  transfer, what the sends and the stops returned, and the stops that have the transfer to act on. -/
  sends : Nat
  sender : Option Nat
  created : Option TransferId
  sent : List (Except VnidropError TransferId)
  stops : List (Except VnidropError StopOutcome)
  acting : List Nat

inductive Op where
  | device (o : Targeted.Op)
  | start
  | preparations (up : Bool)
  | drawTransferId
  | importSources
  | beginRegistration
  | spawn (p : Payload) (id : TransferId)
  | registered (id : TransferId)
  | failed
  | returnSend (result : Except VnidropError TransferId)
  | beginNegotiation
  | visit
  | finish (outcome : StopOutcome)
  | stopFailed (id : TransferId)
  | returnStop (result : Except VnidropError StopOutcome)

abbrev Ans : Op → Type
  | .device o => Targeted.Ans o
  | .start => Except VnidropError Unit
  | .drawTransferId => Except VnidropError TransferId
  | .importSources => Except VnidropError Payload
  | .beginRegistration => Bool
  | .beginNegotiation => Payload × TransferId
  | .visit => Visit
  | _ => Unit

abbrev Task (α : Type) := Prog Op Ans α

def op (o : Op) : Task (Ans o) := Prog.perform o

def within {α : Type} (p : Targeted.Task α) : Task α := p.embed .device fun _ a => a

/-! The send. -/

/-- The transfer that was registered. -/
def readBack (id : TransferId) : Targeted.Task (Except VnidropError TransferId) := do
  match ← Targeted.op (.getRow id) with
  | .ok (some _) => return .ok id
  | .ok none => return .error (.internal "targeted transfer missing")
  | .error e => return .error e

/-- The row goes in and moves on, and is read back. -/
def registerRow (row : TargetedTransferRow) : Targeted.Task (Except VnidropError TransferId) := do
  if ← Targeted.registerSender row then readBack row.id
  else do
    Targeted.teardownTargetedPayload row.protocolTransferId row.id
    return .error Device.unavailable

/-- The payload is tagged and provided. -/
def provide (l : Local) (p : Payload) (id : TransferId) : Targeted.Task (Except VnidropError Unit) := do
  let protocolId := l.allocateProtocolTransferId id
  if ← Targeted.op (.setTag id p.rootHash) then do
    Targeted.op (.registerShareHashes protocolId (p.rootHash :: p.memberHashes))
    Targeted.op (.setMode protocolId)
    return .ok ()
  else return .error (.transfer "tag")

/-- `prepare_targeted_transfer` with a gate. -/
def prepareTargetedTransfer (l : Local) (limits : Limits) (r : Identifiers.Preparation) :
    Task (Except VnidropError (TransferId × Payload)) := do
  if ← op (.device (.ask .relationshipSaved)) then
    Prog.andThen (op .drawTransferId) fun id =>
    Prog.andThen (pure (limits.checkSources r.sources)) fun _ =>
    Prog.andThen (pure (limits.validateMetadataText "transfer name" r.transferName)) fun _ =>
    Prog.andThen (op .importSources) fun imported =>
      let p := { imported with receiverEndpointId := r.receiverEndpointId }
      Prog.andThen (within (provide l p id)) fun _ => do
        if ← op .beginRegistration then
          let now ← op (.device .now)
          Prog.andThen (within (registerRow (Targeted.senderRow l p id now))) fun registered =>
            return .ok (registered,p)
        else do
          within (Targeted.teardownTargetedPayload (l.allocateProtocolTransferId id) id)
          return .error (.invalidInput "targeted preparation stopped")
  else return .error (.permission "relationship is not saved")

/-- `TargetedTransferPreparation::send`. -/
def send (l : Local) (limits : Limits) (r : Identifiers.Preparation) : Task Unit := do
  match ← op .start with
  | .error e => op (.returnSend (.error e))
  | .ok _ => do
    op (.preparations true)
    let prepared ← prepareTargetedTransfer l limits r
    op (.preparations false)
    match prepared with
    | .error e => do
      op .failed
      op (.returnSend (.error e))
    | .ok (id,p) => do
      op (.spawn p id)
      op (.registered id)
      op (.returnSend (.ok id))

/-- The negotiation that was spawned. -/
def negotiate (l : Local) : Task Unit := do
  let transfer ← op .beginNegotiation
  within (Targeted.continueTargetedTransfer l transfer.1 transfer.2)

/-! The stop. -/

/-- `stop_target`, through the rounds it takes, each but the first after a notification or none;
`none` while it still waits. -/
def stopTarget : Nat → Task (Option (Except StopOutcome TransferId))
  | 0 => return none
  | rounds + 1 => do
    match ← op .visit with
    | .wait => stopTarget rounds
    | .target id => return some (.ok id)
    | .outcome o => return some (.error o)

/-- `stop_targeted_preparation`. -/
def stopTargetedPreparation (id : TransferId) :
    Targeted.Task (Except VnidropError TargetedPreparationStopOutcome) :=
  Prog.andThen (Targeted.op (.getRow id)) fun row =>
  Prog.andThen (Targeted.stopPreparation id) fun outcome => do
    match row, outcome with
    | some row, .transferAbandoned => do
      Targeted.notifyCancel row.receiverEndpointId id none
      return .ok outcome
    | some row, .transferCancelled => do
      Targeted.notifyCancel row.receiverEndpointId id (some .cancelled)
      return .ok outcome
    | _, _ => return .ok outcome

/-- A running exchange of the transfer is signalled first. -/
def actOn (id : TransferId) : Targeted.Task (Except VnidropError TargetedPreparationStopOutcome) := do
  Targeted.op (.deactivate id)
  stopTargetedPreparation id

/-- `TargetedTransferPreparation::stop`. -/
def stop (rounds : Nat) : Task Unit := do
  match ← stopTarget rounds with
  | none => return ()
  | some (.error outcome) => op (.returnStop (.ok outcome))
  | some (.ok id) => do
    match ← within (actOn id) with
    | .ok outcome => do
      op (.finish (.transfer outcome))
      op (.returnStop (.ok (.transfer outcome)))
    | .error e => do
      op (.stopFailed id)
      op (.returnStop (.error e))

/-! The system. -/

inductive Call where
  | send (r : Identifiers.Preparation)
  | negotiate
  | stop (rounds : Nat)
  deriving DecidableEq

def Call.body (l : Local) (limits : Limits) : Call → Task Unit
  | .send r => PreparationGate.send l limits r
  | .negotiate => PreparationGate.negotiate l
  | .stop rounds => PreparationGate.stop rounds

structure Choice extends Targeted.Choice where
  imported : Payload
  deriving DecidableEq

namespace Gate

def onlyOnce : VnidropError := .invalidInput "targeted preparation can send only once"

def visited (s : Gate) (i : Nat) : Gate :=
  { s with
    phase := s.phase.visit.2
    acting := match s.phase.visit.1 with
      | .target _ => i :: s.acting
      | _ => s.acting }

def exec (l : Local) (s : Gate) (i : Nat) (c : Choice) : (o : Op) → Option (Ans o × Gate)
  | .device o => (s.device.exec l c.toChoice o).map fun (a,device) => (a,{ s with device })
  | .start =>
    match s.phase.start with
    | some phase => some (.ok (),{ s with phase, sends := s.sends + 1, sender := some i })
    | none => some (.error onlyOnce,{ s with sends := s.sends + 1 })
  | .preparations up =>
    some ((),{ s with activeTargetedPreparations :=
      if up then s.activeTargetedPreparations + 1 else s.activeTargetedPreparations - 1 })
  | .drawTransferId =>
    if c.fails then some (.error Device.unavailable,s)
    else match s.device.exec l c.toChoice .drawTransferId with
      | some (id,device) =>
        -- no row has a fresh UUID
        if s.device.store.getRow id = none then some (.ok id,{ s with device, created := some id })
        else none
      | none => none
  | .importSources => some (if c.fails then .error (.transfer "import") else .ok c.imported,s)
  | .beginRegistration =>
    some (s.phase.beginRegistration.1,{ s with phase := s.phase.beginRegistration.2 })
  | .spawn p id => some ((),{ s with spawned := some (p,id) })
  | .registered id => some ((),{ s with phase := .registered id })
  | .failed => some ((),{ s with phase := s.phase.fail })
  | .returnSend result => some ((),{ s with sent := result :: s.sent })
  | .beginNegotiation =>
    if s.begun then none else s.spawned.map fun transfer => (transfer,{ s with begun := true })
  | .visit => some (s.phase.visit.1,s.visited i)
  | .finish outcome => some ((),{ s with phase := .finished outcome, acting := s.acting.erase i })
  | .stopFailed id => some ((),{ s with phase := .registered id, acting := s.acting.erase i })
  | .returnStop result => some ((),{ s with stops := result :: s.stops })

/-- A preparation that is still ready, on any device. -/
def new (device : Device) : Gate := ⟨device,.ready,0,none,false,0,none,none,[],[],[]⟩

end Gate

def machine (l : Local) (limits : Limits) : Machine Gate Call Op Ans Choice Empty where
  init s := ∃ device, s = .new device
  admits _ _ := true
  body := Call.body l limits
  exec s i _ o c := s.exec l i c o
  env _ e := nomatch e

/-- The one send returned an error, or some stop returned that the preparation was stopped. -/
def SaidStopped (s : Gate) : Prop :=
  (s.sends = 1 ∧ ∃ e, .error e ∈ s.sent) ∨ .ok .preparationStopped ∈ s.stops

/-- The claims of the gate: a preparation that is said to be stopped has no row, at most one stop
acts on the transfer, and the stops agree. -/
structure Sound (s : Gate) : Prop where
  undone : SaidStopped s → ∀ id ∈ s.created, s.device.store.getRow id = none
  single : s.acting.length ≤ 1
  agreed : ∀ o o', .ok o ∈ s.stops → .ok o' ∈ s.stops → o = o'

namespace Sample

def limits : Limits := ⟨4,64,id⟩

def payload : Payload := ⟨2,3,[],4,5,1,1⟩

/-- Every draw is 7, and the device answers. -/
def good : Choice := ⟨⟨0,false,true,7,none,⟨[],false⟩⟩,payload⟩

def start : Conf Gate Call Op Ans := ⟨.new .new,[]⟩

def system := (machine Targeted.Sample.sender limits).system

theorem start_new : system.init start := ⟨⟨.new,rfl⟩,rfl⟩

/-- A send registers its transfer up to the insert of the row. -/
def inserting : List (Label Call Choice Empty) :=
  .fork (.send ⟨2,1,none⟩) :: List.replicate 11 (.act 0 good)

/-- The row does not move on, and a stop comes after the send has returned. -/
def failing : List (Label Call Choice Empty) :=
  inserting ++ .act 0 { good with fails := true } :: List.replicate 7 (.act 0 good) ++
    [.fork (.stop 1),.act 1 good,.act 1 good]

/-- The row moves on; of two stops of the transfer one acts, and the other waits for it. -/
def stopping : List (Label Call Choice Empty) :=
  inserting ++ List.replicate 6 (.act 0 good) ++
    [.fork (.stop 1),.fork (.stop 2),.act 1 good,.act 2 good] ++ List.replicate 14 (.act 1 good) ++
    [.act 2 good,.act 2 good]

def final (labels : List (Label Call Choice Empty)) : Conf Gate Call Op Ans := (system.run start labels).getD start

end Sample

open Sample in
/-- The row of a preparation that failed and is reported as stopped is left behind. -/
theorem row_left : ∃ c, Reach system Always c ∧ SaidStopped c.shared ∧ ¬Sound c.shared ∧
    c.shared.device.store.transfers.rows.map (·.id) = c.shared.created.toList ∧
    ∀ t ∈ c.threads, t.rest.finished = true := by
  have ran : system.run start failing = some (final failing) := rfl
  refine ⟨final failing,.of_run start_new ran,.inr (.head _),fun sound => ?_,rfl,by decide⟩
  exact absurd (sound.undone (.inr (.head _)) 7 rfl) nofun

/-! What is kept while the send does not fail between the row's insert and its answer. -/

/-- The statements of the send after the insert do not fail. -/
def permits (call : Call) (c : Choice) : Op → Bool
  | .device (.write (.setState ..)) | .device (.getRow _) =>
    match call with
    | .send _ => !c.fails
    | _ => true
  | _ => true

def minds (_ : Gate) (_ : Nat) (call : Call) (o : Op) (c : Choice) : Prop := permits call c o = true

structure Inv (s : Gate) : Prop where
  idle : s.sender = none → s.created = none ∧ s.spawned = none ∧ (s.phase = .ready ∨ s.phase = .stopped)
  ready : s.phase = .ready → s.sender = none ∧ s.sends = 0
  undone : s.phase.outcome = some .preparationStopped →
    s.spawned = none ∧ ∀ id ∈ s.created, s.device.store.getRow id = none
  called : s.sender ≠ none → 0 < s.sends
  unsent : s.sends = 0 → s.sent = []
  sent : s.sends = 1 → ∀ e, .error e ∈ s.sent → s.phase.outcome = some .preparationStopped
  stops : ∀ o, .ok o ∈ s.stops → s.phase.outcome = some o
  acting : (s.acting = [] ∧ s.phase ≠ .stopping) ∨ ∃ i, s.acting = [i] ∧ s.phase = .stopping

/-- What the others leave to the send until it has registered its transfer or failed. -/
structure Steady (s t : Gate) : Prop where
  pending : t.phase.pending = true
  registering : s.phase = .registering → t.phase = .registering
  row : s.spawned = none → t.spawned = none ∧ t.created = s.created ∧ t.device = s.device

/-- What the others leave to thread `i`. -/
structure Rely (i : Nat) (s t : Gate) : Prop where
  outcome : ∀ o, s.phase.outcome = some o → t.phase.outcome = some o
  spawned : s.spawned ≠ none → t.spawned ≠ none
  sender : ∀ j, s.sender = some j → t.sender = some j
  sends : s.sends ≤ t.sends
  own : s.sender = some i → s.phase.pending = true → Steady s t
  acts : s.acting = [i] → t.acting = [i] ∧ t.phase = s.phase

theorem Steady.trans {s t u : Gate} (first : Steady s t) (second : Steady t u) : Steady s u where
  pending := second.pending
  registering is := second.registering (first.registering is)
  row fresh := by
    obtain ⟨fresh',created,device⟩ := first.row fresh
    obtain ⟨fresh'',created',device'⟩ := second.row fresh'
    exact ⟨fresh'',created'.trans created,device'.trans device⟩

theorem rely_refl (i : Nat) (s : Gate) : Rely i s s :=
  ⟨fun _ is => is,id,fun _ is => is,le_rfl,fun _ pending => ⟨pending,id,fun fresh => ⟨fresh,rfl,rfl⟩⟩,
    fun acts => ⟨acts,rfl⟩⟩

theorem Rely.trans {i : Nat} {s t u : Gate} (first : Rely i s t) (second : Rely i t u) : Rely i s u where
  outcome o is := second.outcome o (first.outcome o is)
  spawned is := second.spawned (first.spawned is)
  sender j is := second.sender j (first.sender j is)
  sends := first.sends.trans second.sends
  own is pending :=
    have steady := first.own is pending
    steady.trans (second.own (first.sender i is) steady.pending)
  acts is := by
    obtain ⟨acts,phase⟩ := first.acts is
    obtain ⟨acts',phase'⟩ := second.acts acts
    exact ⟨acts',phase'.trans phase⟩

def terms : Terms Gate where
  known _ := True
  inv := Inv
  rely := Rely
  refl := rely_refl
  trans _ := Rely.trans

/-- A step of thread `i` that keeps the invariant and does to the others what they rely on. -/
def Fair (i : Nat) (s t : Gate) : Prop := Inv t ∧ ∀ j, j ≠ i → Rely j s t

namespace PreparationPhase

theorem pending_outcome {phase : PreparationPhase} (pending : phase.pending = true) : phase.outcome = none := by
  cases phase <;> first | rfl | cases pending

theorem pending_not_stopping {phase : PreparationPhase} (pending : phase.pending = true) : phase ≠ .stopping := by
  rintro rfl
  cases pending

theorem pending_not_ready {phase : PreparationPhase} (pending : phase.pending = true) : phase ≠ .ready := by
  rintro rfl
  cases pending

theorem fail_outcome (phase : PreparationPhase) : phase.fail.outcome = some .preparationStopped := by
  cases phase <;> rfl

end PreparationPhase

/-- Thread `i` is the send, and has spawned nothing yet: the row of its transfer is its own. -/
structure Own (i : Nat) (begun : Bool) (drawn : Option TransferId)
    (row : Option TargetedTransferRow → Prop) (s : Gate) : Prop where
  sender : s.sender = some i
  pending : s.phase.pending = true
  begun : begun = true → s.phase = .registering
  spawned : s.spawned = none
  created : s.created = drawn
  row : ∀ id ∈ drawn, row (s.device.store.getRow id)

/-- Thread `i` is the stop that acts on the transfer. -/
structure Acts (i : Nat) (s : Gate) : Prop where
  acting : s.acting = [i]
  phase : s.phase = .stopping

section Steps

variable {i j : Nat} {s t : Gate} {begun : Bool} {drawn : Option TransferId}
  {row : Option TargetedTransferRow → Prop}

theorem Own.later (own : Own i begun drawn row s) (rely : Rely i s t) : Own i begun drawn row t := by
  have steady := rely.own own.sender own.pending
  obtain ⟨spawned,same,device⟩ := steady.row own.spawned
  refine ⟨rely.sender i own.sender,steady.pending,fun is => steady.registering (own.begun is),spawned,
    same.trans own.created,?_⟩
  rw [device]
  exact own.row

theorem Acts.later (acts : Acts i s) (rely : Rely i s t) : Acts i t := by
  obtain ⟨acting,phase⟩ := rely.acts acts.acting
  exact ⟨acting,phase.trans acts.phase⟩

theorem Inv.not_acting (inv : Inv s) (phase : s.phase ≠ .stopping) : s.acting = [] := by
  rcases inv.acting with ⟨none,_⟩ | ⟨_,_,stopping⟩
  · exact none
  · exact absurd stopping phase

theorem Inv.started (inv : Inv s) (ready : s.phase ≠ .ready) (stopped : s.phase ≠ .stopped) : s.sender ≠ none :=
  fun none => (inv.idle none).2.2.elim ready stopped

/-- What the others rely on is in these fields. -/
theorem rely_same (phase : t.phase = s.phase) (spawned : t.spawned = s.spawned) (sender : t.sender = s.sender)
    (sends : s.sends ≤ t.sends) (acting : t.acting = s.acting) (created : t.created = s.created)
    (device : t.device = s.device) : Rely j s t where
  outcome _ is := phase ▸ is
  spawned is := spawned ▸ is
  sender _ is := sender.trans is
  sends := sends
  own _ pending := ⟨phase ▸ pending,fun is => phase.trans is,fun none => ⟨spawned.trans none,created,device⟩⟩
  acts is := ⟨acting.trans is,phase⟩

/-- A step from a phase in which nothing is reported and nobody acts. -/
theorem open_fair (inv : Inv s) (open_ : s.phase.outcome = none) (phase : s.phase ≠ .stopping)
    (same : t.sender = s.sender ∧ t.sends = s.sends ∧ t.sent = s.sent ∧ t.stops = s.stops)
    (idle : s.sender = none → t.created = none ∧ t.spawned = none ∧ (t.phase = .ready ∨ t.phase = .stopped))
    (ready : t.phase ≠ .ready)
    (undone : t.phase.outcome = some .preparationStopped →
      t.spawned = none ∧ ∀ id ∈ t.created, t.device.store.getRow id = none)
    (acting : (t.acting = [] ∧ t.phase ≠ .stopping) ∨ ∃ k, t.acting = [k] ∧ t.phase = .stopping)
    (spawned : s.spawned ≠ none → t.spawned ≠ none)
    (own : ∀ j, j ≠ i → s.sender = some j → s.phase.pending = true → Steady s t) : Fair i s t := by
  obtain ⟨sender,sends,sent,stops⟩ := same
  have nobody := inv.not_acting phase
  refine ⟨⟨sender ▸ idle,fun is => absurd is ready,undone,?_,?_,fun one e is => ?_,fun o is => ?_,acting⟩,
    fun j other => ⟨fun o is => ?_,spawned,fun _ is => sender.trans is,sends.ge,own j other,fun is => ?_⟩⟩
  · rw [sender,sends]
    exact inv.called
  · rw [sends,sent]
    exact inv.unsent
  · have before := inv.sent (sends ▸ one) e (sent ▸ is)
    rw [open_] at before
    cases before
  · have before := inv.stops o (stops ▸ is)
    rw [open_] at before
    cases before
  · rw [open_] at is
    cases is
  · rw [nobody] at is
    cases is

/-- A step of the send while it is pending, to a phase that says no more than is true. -/
theorem own_fair (inv : Inv s) (sender : s.sender = some i) (pending : s.phase.pending = true)
    (same : t.sender = s.sender ∧ t.sends = s.sends ∧ t.sent = s.sent ∧ t.stops = s.stops) (acting : t.acting = s.acting)
    (spawned : s.spawned ≠ none → t.spawned ≠ none) (phase : t.phase ≠ .ready ∧ t.phase ≠ .stopping)
    (undone : t.phase.outcome = some .preparationStopped →
      t.spawned = none ∧ ∀ id ∈ t.created, t.device.store.getRow id = none) : Fair i s t := by
  have free := PreparationPhase.pending_not_stopping pending
  refine open_fair inv (PreparationPhase.pending_outcome pending) free same (fun none => ?_) phase.1 undone
    (.inl ⟨acting.trans (inv.not_acting free),phase.2⟩) spawned
    fun j other is _ => absurd (Option.some.inj (is.symm.trans sender)) other
  rw [sender] at none
  cases none

/-- The send goes on with its row, pending as before. -/
theorem own_next (row' : Option TargetedTransferRow → Prop) (device : Device) (inv : Inv s)
    (own : Own i begun drawn row s) (next : ∀ id ∈ drawn, row' (device.store.getRow id)) :
    Fair i s { s with device } ∧ Own i begun drawn row' { s with device } := by
  refine ⟨own_fair inv own.sender own.pending ⟨rfl,rfl,rfl,rfl⟩ rfl id
    ⟨PreparationPhase.pending_not_ready own.pending,PreparationPhase.pending_not_stopping own.pending⟩ fun is => ?_,
    own.sender,own.pending,own.begun,own.spawned,own.created,next⟩
  rw [show (s.phase).outcome = none from PreparationPhase.pending_outcome own.pending] at is
  cases is

/-- What is done with the device once the send has spawned its negotiation. -/
theorem away_fair {device : Device} (inv : Inv s) (outcome : s.phase.outcome ≠ some .preparationStopped)
    (spawned : s.phase.pending = true → s.spawned ≠ none) : Fair i s { s with device } := by
  refine ⟨⟨inv.idle,inv.ready,fun is => absurd is outcome,inv.called,inv.unsent,inv.sent,inv.stops,inv.acting⟩,
    fun j _ => ⟨fun _ is => is,id,fun _ is => is,le_rfl,fun _ pending => ⟨pending,id,fun none => ?_⟩,
    fun is => ⟨is,rfl⟩⟩⟩
  exact absurd none (spawned pending)

theorem start_fair (inv : Inv s) (ready : s.phase = .ready) :
    Fair i s { s with phase := .preparing, sends := s.sends + 1, sender := some i } ∧
    Own i false none (· = none) { s with phase := .preparing, sends := s.sends + 1, sender := some i } := by
  obtain ⟨sender,sends⟩ := inv.ready ready
  obtain ⟨created,spawned,_⟩ := inv.idle sender
  have open_ : s.phase.outcome = none := by rw [ready]; rfl
  have nobody := inv.not_acting (by rw [ready]; exact nofun)
  refine ⟨⟨⟨nofun,nofun,nofun,fun _ => Nat.succ_pos _,nofun,fun _ e is => ?_,fun o is => ?_,.inl ⟨nobody,nofun⟩⟩,
    fun j _ => ⟨fun o is => ?_,id,fun k is => ?_,Nat.le_succ _,fun is => ?_,fun is => ?_⟩⟩,
    rfl,rfl,nofun,spawned,created,nofun⟩
  · rw [inv.unsent sends] at is
    cases is
  · have before := inv.stops o is
    rw [open_] at before
    cases before
  · rw [open_] at is
    cases is
  · rw [sender] at is
    cases is
  · rw [sender] at is
    cases is
  · rw [nobody] at is
    cases is

/-- A send that comes too late changes nothing; when it is the only one, a stop has come first. -/
theorem refused_fair (inv : Inv s) (started : s.phase ≠ .ready) :
    Fair i s { s with sends := s.sends + 1 } ∧
    (s.sends + 1 = 1 → s.phase.outcome = some .preparationStopped) := by
  have stopped (none : s.sends = 0) : s.phase.outcome = some .preparationStopped := by
    have idle : s.sender = Option.none := by_contra fun is => absurd none (inv.called is).ne'
    rcases (inv.idle idle).2.2 with ready | stopped
    · exact absurd ready started
    · rw [stopped]
      rfl
  refine ⟨⟨⟨inv.idle,fun ready => absurd ready started,inv.undone,fun _ => Nat.succ_pos _,nofun,fun one e _ => ?_,
    inv.stops,inv.acting⟩,fun j _ => rely_same rfl rfl rfl (Nat.le_succ _) rfl rfl rfl⟩,fun one => ?_⟩
  · exact stopped (Nat.succ.inj one)
  · exact stopped (Nat.succ.inj one)

/-- The act of a stop ends. -/
theorem acts_fair {phase : PreparationPhase} (inv : Inv s) (acts : Acts i s) (ready : phase ≠ .ready)
    (stopping : phase ≠ .stopping) (outcome : phase.outcome ≠ some .preparationStopped) :
    Fair i s { s with phase, acting := s.acting.erase i } := by
  have open_ : s.phase.outcome = none := by rw [acts.phase]; rfl
  have started := inv.started (by rw [acts.phase]; exact nofun) (by rw [acts.phase]; exact nofun)
  refine ⟨⟨fun none => absurd none started,fun is => absurd is ready,fun is => absurd is outcome,inv.called,
    inv.unsent,fun one e is => ?_,fun o is => ?_,.inl ⟨?_,stopping⟩⟩,
    fun j other => ⟨fun o is => ?_,id,fun _ is => is,le_rfl,fun _ is => ?_,fun is => ?_⟩⟩
  · exact absurd (inv.sent one e is) (by rw [open_]; exact nofun)
  · exact absurd (inv.stops o is) (by rw [open_]; exact nofun)
  · rw [acts.acting,List.erase_cons_head]
  · rw [open_] at is
    cases is
  · rw [acts.phase] at is
    cases is
  · rw [acts.acting] at is
    exact absurd (List.cons.inj is).1.symm other

/-- What a stop knows when its round is over. -/
def Visited (i : Nat) (s : Gate) : Visit → Prop
  | .wait => True
  | .target _ => Acts i s
  | .outcome o => s.phase.outcome = some o

/-- A stop that comes first stops the preparation before it has begun. -/
theorem stopped_fair (inv : Inv s) (ready : s.phase = .ready) : Fair i s { s with phase := .stopped } := by
  have sender := (inv.ready ready).1
  obtain ⟨created,spawned,_⟩ := inv.idle sender
  have free : s.phase ≠ .stopping := by rw [ready]; exact nofun
  refine open_fair inv (by rw [ready]; rfl) free ⟨rfl,rfl,rfl,rfl⟩ (fun _ => ⟨created,spawned,.inr rfl⟩) nofun
    (fun _ => ⟨spawned,fun id is => ?_⟩) (.inl ⟨inv.not_acting free,nofun⟩) id fun j _ is _ => ?_
  · rw [created] at is
    cases is
  · rw [sender] at is
    cases is

theorem requested_fair (inv : Inv s) (preparing : s.phase = .preparing) :
    Fair i s { s with phase := .stopRequested } := by
  have free : s.phase ≠ .stopping := by rw [preparing]; exact nofun
  have started := inv.started (by rw [preparing]; exact nofun) (by rw [preparing]; exact nofun)
  refine open_fair inv (by rw [preparing]; rfl) free ⟨rfl,rfl,rfl,rfl⟩ (fun none => absurd none started) nofun nofun
    (.inl ⟨inv.not_acting free,nofun⟩) id
    fun j _ _ _ => ⟨rfl,fun is => ?_,fun none => ⟨none,rfl,rfl⟩⟩
  rw [preparing] at is
  cases is

/-- The transfer is given to one stop. -/
theorem target_fair {id : TransferId} (inv : Inv s) (registered : s.phase = .registered id) :
    Fair i s { s with phase := .stopping, acting := i :: s.acting } ∧
    Acts i { s with phase := .stopping, acting := i :: s.acting } := by
  have free : s.phase ≠ .stopping := by rw [registered]; exact nofun
  have started := inv.started (by rw [registered]; exact nofun) (by rw [registered]; exact nofun)
  have one : i :: s.acting = [i] := by rw [inv.not_acting free]
  refine ⟨open_fair inv (by rw [registered]; rfl) free ⟨rfl,rfl,rfl,rfl⟩ (fun none => absurd none started) nofun nofun
    (.inr ⟨i,one,rfl⟩) (fun is => is) fun j _ _ pending => ?_,one,rfl⟩
  rw [registered] at pending
  cases pending

theorem visit_fair (inv : Inv s) : Fair i s (s.visited i) ∧ Visited i (s.visited i) s.phase.visit.1 := by
  rcases s with ⟨device,phase,active,spawned,begun,sender,created,sent,stops,acting⟩
  cases phase with
  | ready => exact ⟨stopped_fair inv rfl,rfl⟩
  | preparing => exact ⟨requested_fair inv rfl,trivial⟩
  | registered id => exact target_fair inv rfl
  | stopRequested | registering | stopping => exact ⟨⟨inv,fun j _ => rely_refl j _⟩,trivial⟩
  | stopped | failed | finished => exact ⟨⟨inv,fun j _ => rely_refl j _⟩,rfl⟩

theorem returnStop_fair {result : Except VnidropError StopOutcome} (inv : Inv s)
    (told : ∀ o, result = .ok o → s.phase.outcome = some o) : Fair i s { s with stops := result :: s.stops } := by
  refine ⟨⟨inv.idle,inv.ready,inv.undone,inv.called,inv.unsent,inv.sent,fun o is => ?_,inv.acting⟩,
    fun j _ => rely_same rfl rfl rfl le_rfl rfl rfl rfl⟩
  rcases List.mem_cons.mp is with is | earlier
  · exact told o is.symm
  · exact inv.stops o earlier

theorem returnSend_fair {result : Except VnidropError TransferId} (inv : Inv s) (called : 0 < s.sends)
    (told : s.sends = 1 → ∀ e, result = .error e → s.phase.outcome = some .preparationStopped) :
    Fair i s { s with sent := result :: s.sent } := by
  refine ⟨⟨inv.idle,inv.ready,inv.undone,inv.called,fun none => absurd none called.ne',fun one e is => ?_,inv.stops,
    inv.acting⟩,fun j _ => rely_same rfl rfl rfl le_rfl rfl rfl rfl⟩
  rcases List.mem_cons.mp is with is | earlier
  · exact told one e is.symm
  · exact inv.sent one e earlier

end Steps

/-! The calls, one by one. -/

section Calls

variable {l : Local} {limits : Limits} {i : Nat} {call : Call} {s t u : Gate} {begun : Bool}
  {drawn : Option TransferId} {row : Option TargetedTransferRow → Prop} {id : TransferId}

abbrev Does (l : Local) (limits : Limits) (i : Nat) (call : Call) {α : Type} (p : Task α) (post : α → Gate → Prop)
    (s : Gate) : Prop :=
  Safe ((machine l limits).restrict minds) free terms i call p post s

abbrev done {α : Type} : α → Gate → Prop := fun _ _ => True

/-- An operation, and what follows it. -/
theorem does_op {α : Type} {o : Op} {k : Ans o → Task α} {post : α → Gate → Prop}
    (next : ∀ t c a u, Inv t → Rely i s t → permits call c o = true → t.exec l i c o = some (a,u) →
      Fair i t u ∧ Does l limits i call (k a) post u) : Does l limits i call (.step o k) post s := by
  intro t _ inv rely c a u _ happened
  obtain ⟨permitted,ran⟩ := restrict_exec.mp happened
  exact next t c a u inv rely permitted ran

theorem does_then {α : Type} {o : Op} {f : Ans o → Task α} {post : α → Gate → Prop}
    (next : ∀ t c a u, Inv t → Rely i s t → permits call c o = true → t.exec l i c o = some (a,u) →
      Fair i t u ∧ Does l limits i call (f a) post u) : Does l limits i call (op o >>= f) post s := does_op next

theorem exec_device {c : Choice} {o : Targeted.Op} {a : Targeted.Ans o}
    (ran : t.exec l i c (.device o) = some (a,u)) :
    ∃ device, t.device.exec l c.toChoice o = some (a,device) ∧ u = { t with device } := by
  obtain ⟨⟨a',device⟩,performed,same⟩ := Option.map_eq_some_iff.mp ran
  cases same
  exact ⟨device,performed,rfl⟩

/-- What the send does with the device besides its row. -/
theorem does_aside {α : Type} {p : Targeted.Task α} (aside : p.All fun o => ∀ w, o ≠ .write w)
    (own : Own i begun drawn row s) :
    Does l limits i call (within p) (fun _ => Own i begun drawn row) s := by
  induction p generalizing s with
  | ret a => exact own
  | step o k ih =>
    refine does_op fun t c a u inv rely _ ran => ?_
    obtain ⟨device,performed,rfl⟩ := exec_device ran
    have mine := own.later rely
    have kept := (Targeted.store_kept performed).resolve_left fun ⟨w,is⟩ => aside.1 w is
    obtain ⟨fair,mine'⟩ := own_next row device inv mine (by rw [kept]; exact mine.row)
    exact ⟨fair,ih a (aside.2 a) mine'⟩

/-- What is done with the device for a transfer that has left the send. -/
theorem does_away {α : Type} {K : Gate → Prop} (later : ∀ t u, Rely i t u → K t → K u)
    (blind : ∀ t device, K t → K { t with device })
    (away : ∀ t, Inv t → K t → t.phase.outcome ≠ some .preparationStopped ∧
      (t.phase.pending = true → t.spawned ≠ none)) (p : Targeted.Task α) (here : K s) :
    Does l limits i call (within p) (fun _ => K) s := by
  induction p generalizing s with
  | ret a => exact here
  | step o k ih =>
    refine does_op fun t c a u inv rely _ ran => ?_
    obtain ⟨device,_,rfl⟩ := exec_device ran
    have now := later s t rely here
    obtain ⟨outcome,spawned⟩ := away t inv now
    exact ⟨away_fair inv outcome spawned,ih a (blind t device now)⟩

/-! The send. -/

theorem aside_teardown (protocolId : Nat) :
    (Targeted.teardownTargetedPayload protocolId id).All fun o => ∀ w, o ≠ .write w :=
  ⟨by simp,fun _ => ⟨by simp,fun _ => ⟨by simp,fun _ => ⟨by simp,fun _ => trivial⟩⟩⟩⟩

theorem aside_provide (p : Payload) : (provide l p id).All fun o => ∀ w, o ≠ .write w := by
  refine ⟨by simp,fun tagged => ?_⟩
  cases tagged with
  | false => trivial
  | true => exact ⟨by simp,fun _ => ⟨by simp,fun _ => trivial⟩⟩

/-- How a preparation of the send ends. -/
def Prepared {α : Type} (i : Nat) (r : Except VnidropError α) (s : Gate) : Prop :=
  match r with
  | .ok _ => ∃ drawn, Own i true drawn (· ≠ none) s
  | .error _ => ∃ begun drawn, Own i begun drawn (· = none) s

theorem does_read {r : Identifiers.Preparation} (own : Own i true (some id) (· ≠ none) s) :
    Does l limits i (.send r) (within (readBack id)) (Prepared i) s := by
  refine does_op fun t c a u inv rely permitted ran => ?_
  obtain ⟨device,performed,rfl⟩ := exec_device ran
  have mine := own.later rely
  have works : c.fails = false := by simpa [permits] using permitted
  simp only [Device.exec,works,Bool.false_eq_true,if_false] at performed
  cases performed
  obtain ⟨fair,mine'⟩ := own_next (· ≠ none) t.device inv mine mine.row
  refine ⟨fair,?_⟩
  cases found : t.device.store.getRow id with
  | none => exact absurd found (mine.row id rfl)
  | some r => exact ⟨some id,mine'⟩

/-- The row that was inserted moves on. -/
theorem does_advance {r : Identifiers.Preparation}
    (own : Own i true (some id) (fun row => ∃ r, row = some r ∧ r.state = .preparing) s) :
    Does l limits i (.send r) (within (do
      match ← Targeted.write (.setState id .preparing .offering) with
      | .error _ => return false
      | .ok _ => return true)) (fun ok t => ok = true ∧ Own i true (some id) (· ≠ none) t) s := by
  refine does_op fun t c a u inv rely permitted ran => ?_
  obtain ⟨device,performed,rfl⟩ := exec_device ran
  have mine := own.later rely
  obtain ⟨r,here,preparing⟩ := mine.row id rfl
  have works : c.fails = false := by simpa [permits] using permitted
  obtain ⟨store,moved⟩ := Targeted.setState_succeeds here
    (show r.state.allowed .offering = true by rw [preparing]; rfl) c.now
  rw [preparing] at moved
  have run : (Targeted.Write.setState id .preparing .offering).run t.device.store c.now = .ok (true,store) := by
    rw [Targeted.Write.run,moved]
    rfl
  simp only [Device.exec,works,Bool.false_eq_true,if_false,run] at performed
  cases performed
  obtain ⟨fair,mine'⟩ := own_next (· ≠ none) { t.device with store } inv mine fun _ is => by
    cases is
    rw [show store.getRow id = _ from Targeted.run_getRow run id,here,Targeted.Write.onRow,if_pos rfl]
    exact Option.some_ne_none _
  exact ⟨fair,rfl,mine'⟩

theorem does_register {r : Identifiers.Preparation} {new : TargetedTransferRow} (preparing : new.state = .preparing)
    (own : Own i true (some new.id) (· = none) s) :
    Does l limits i (.send r) (within (Targeted.registerSender new))
      (fun ok => Own i true (some new.id) fun row => row = none ↔ ok = false) s := by
  refine does_op (o := .device (.write (.insert new))) fun t c a u inv rely _ ran => ?_
  obtain ⟨device,performed,rfl⟩ := exec_device ran
  have mine := own.later rely
  rcases Targeted.Device.exec_write performed with ⟨⟨e,rfl⟩,rfl⟩ | ⟨changed,store,run,rfl,rfl⟩
  · obtain ⟨fair,mine'⟩ := own_next (fun row => row = none ↔ false = false) t.device inv mine
      fun id is => iff_of_true (mine.row id is) rfl
    exact ⟨fair,mine'⟩
  · obtain ⟨fair,mine'⟩ := own_next (fun row => ∃ r, row = some r ∧ r.state = .preparing)
      { t.device with store } inv mine fun _ is => by
        cases is
        rw [show store.getRow new.id = _ from Targeted.run_getRow run new.id,Targeted.Write.onRow,if_pos rfl]
        exact ⟨new,rfl,preparing⟩
    refine ⟨fair,safe_mono (fun ok v ended => ?_) (does_advance mine')⟩
    obtain ⟨rfl,own⟩ := ended
    exact { own with row := fun id is => iff_of_false (own.row id is) (by decide) }

theorem within_bind {α β : Type} (p : Targeted.Task α) (f : α → Targeted.Task β) :
    within (p >>= f) = within p >>= fun a => within (f a) := Prog.embed_bind p f

theorem does_registerRow {r : Identifiers.Preparation} {new : TargetedTransferRow} (preparing : new.state = .preparing)
    (own : Own i true (some new.id) (· = none) s) :
    Does l limits i (.send r) (within (registerRow new)) (Prepared i) s := by
  unfold registerRow
  rw [within_bind]
  refine safe_bind (safe_mono (fun ok t mine => ?_) (does_register preparing own))
  cases ok with
  | true =>
    rw [if_pos rfl]
    exact does_read { mine with row := fun id is none => nomatch (mine.row id is).mp none }
  | false =>
    rw [if_neg Bool.false_ne_true,within_bind]
    have absent : Own i true (some new.id) (· = none) t := { mine with row := fun id is => (mine.row id is).mpr rfl }
    exact safe_bind (safe_mono (fun _ _ mine => ⟨true,_,mine⟩) (does_aside (aside_teardown _) absent))

theorem draw_step {c : Choice} {a : Except VnidropError TransferId} (inv : Inv t)
    (own : Own i false none row t) (ran : t.exec l i c .drawTransferId = some (a,u)) :
    Fair i t u ∧ Own i false a.toOption (· = none) u := by
  simp only [Gate.exec] at ran
  split at ran
  · cases ran
    exact own_next _ t.device inv own nofun
  · split at ran
    · rename_i id device drawn
      split at ran
      · rename_i absent
        cases ran
        have kept := (Targeted.store_kept drawn).resolve_left fun ⟨_,is⟩ => nomatch is
        have open_ := PreparationPhase.pending_outcome own.pending
        refine ⟨own_fair inv own.sender own.pending ⟨rfl,rfl,rfl,rfl⟩ rfl (fun is => is)
          ⟨PreparationPhase.pending_not_ready own.pending,PreparationPhase.pending_not_stopping own.pending⟩ fun is => ?_,
          own.sender,own.pending,nofun,own.spawned,rfl,fun _ is => ?_⟩
        · rw [show t.phase.outcome = _ from is] at open_
          cases open_
        · cases is
          rw [kept]
          exact absent
      · cases ran
    · cases ran

theorem begin_step {c : Choice} {a : Bool} (inv : Inv t) (own : Own i begun drawn row t)
    (ran : t.exec l i c .beginRegistration = some (a,u)) : Fair i t u ∧ Own i a drawn row u := by
  have pending : t.phase.beginRegistration.2.pending = true ∧
      (t.phase.beginRegistration.1 = true → t.phase.beginRegistration.2 = .registering) := by
    cases t.phase <;> exact ⟨rfl,fun is => by cases is <;> rfl⟩
  simp only [Gate.exec,Option.some.injEq,Prod.mk.injEq] at ran
  obtain ⟨rfl,rfl⟩ := ran
  refine ⟨own_fair inv own.sender own.pending ⟨rfl,rfl,rfl,rfl⟩ rfl (fun is => is)
    ⟨PreparationPhase.pending_not_ready pending.1,PreparationPhase.pending_not_stopping pending.1⟩ fun is => ?_,
    own.sender,pending.1,pending.2,own.spawned,own.created,own.row⟩
  rw [show t.phase.beginRegistration.2.outcome = none from PreparationPhase.pending_outcome pending.1] at is
  cases is

/-- A check before anything is begun. -/
theorem does_check {α : Type} {check : Except VnidropError Unit} {f : Unit → Task (Except VnidropError α)}
    (own : Own i begun drawn (· = none) s) (next : Does l limits i call (f ()) (Prepared i) s) :
    Does l limits i call (Prog.andThen (pure check) f) (Prepared i) s := by
  cases check with
  | error e => exact ⟨begun,drawn,own⟩
  | ok u => exact next

theorem does_prepare {r : Identifiers.Preparation} (own : Own i false none (· = none) s) :
    Does l limits i (.send r) (prepareTargetedTransfer l limits r) (Prepared i) s := by
  refine safe_bind (safe_mono (fun saved t own => ?_)
    (does_aside (p := Targeted.op (.ask .relationshipSaved)) ⟨nofun,fun _ => trivial⟩ own))
  cases saved with
  | false => exact ⟨false,none,own⟩
  | true =>
  rw [if_pos rfl]
  refine safe_andThen (does_op fun t c a u inv rely _ ran => ?_)
  obtain ⟨fair,own⟩ := draw_step inv (own.later rely) ran
  cases a with
  | error e => exact ⟨fair,nofun,fun _ _ => ⟨false,none,own⟩⟩
  | ok id =>
  refine ⟨fair,fun _ is => ?_,nofun⟩
  cases is
  refine does_check own (does_check own (safe_andThen (does_op fun t c a v inv rely _ ran => ?_)))
  have own := own.later rely
  cases ran
  refine ⟨⟨inv,fun j _ => rely_refl j t⟩,fun imported _ => ?_,fun _ _ => ⟨false,_,own⟩⟩
  refine safe_andThen (safe_mono (fun a v own => ⟨fun _ _ => ?_,fun _ _ => ⟨false,_,own⟩⟩)
    (does_aside (aside_provide _) own))
  refine does_then fun t c begun w inv rely _ ran => ?_
  obtain ⟨fair,own⟩ := begin_step inv (own.later rely) ran
  refine ⟨fair,?_⟩
  cases begun with
  | false =>
    rw [if_neg Bool.false_ne_true]
    exact safe_bind (safe_mono (fun _ _ own => ⟨false,_,own⟩) (does_aside (aside_teardown _) own))
  | true =>
    rw [if_pos rfl]
    refine safe_bind (safe_mono (fun now x own => ?_)
      (does_aside (p := Targeted.op .now) ⟨nofun,fun _ => trivial⟩ own))
    refine safe_andThen (safe_mono (fun a y ended => ⟨fun id is => ?_,fun e is => ?_⟩) (does_registerRow rfl own))
    · rw [is] at ended
      exact ended
    · rw [is] at ended
      exact ended

theorem spawn_step {c : Choice} {a : Unit} {p : Payload} (inv : Inv t) (own : Own i true drawn (· ≠ none) t)
    (ran : t.exec l i c (.spawn p id) = some (a,u)) :
    Fair i t u ∧ u.sender = some i ∧ u.phase = .registering ∧ u.spawned ≠ none := by
  cases ran
  have registering := own.begun rfl
  refine ⟨own_fair inv own.sender own.pending ⟨rfl,rfl,rfl,rfl⟩ rfl (fun _ => nofun) ⟨?_,?_⟩ fun is => ?_,
    own.sender,registering,nofun⟩
  · exact fun is => nomatch registering.symm.trans is
  · exact fun is => nomatch registering.symm.trans is
  · rw [show t.phase = _ from registering] at is
    cases is

theorem start_step {c : Choice} {a : Except VnidropError Unit} (inv : Inv t)
    (ran : t.exec l i c .start = some (a,u)) : Fair i t u ∧ match a with
      | .ok _ => Own i false none (· = none) u
      | .error _ => 0 < u.sends ∧ (u.sends = 1 → u.phase.outcome = some .preparationStopped) := by
  by_cases ready : t.phase = .ready
  · simp only [Gate.exec,ready,PreparationPhase.start] at ran
    cases ran
    exact start_fair inv ready
  · have late : t.phase.start = none := by
      cases here : t.phase <;> first | rfl | exact absurd here ready
    simp only [Gate.exec,late] at ran
    cases ran
    obtain ⟨fair,told⟩ := refused_fair inv ready
    exact ⟨fair,Nat.succ_pos _,told⟩

theorem does_returnSend {result : Except VnidropError TransferId} (called : 0 < s.sends)
    (told : s.sends = 1 → ∀ e, result = .error e → s.phase.outcome = some .preparationStopped) :
    Does l limits i call (op (.returnSend result)) done s := by
  refine does_op fun t c a u inv rely _ ran => ?_
  cases ran
  refine ⟨returnSend_fair inv (called.trans_le rely.sends) fun one e is => ?_,trivial⟩
  have alone : s.sends = 1 := le_antisymm (one ▸ rely.sends) called
  exact rely.outcome _ (told alone e is)

/-- The count of preparations is nobody's concern. -/
theorem does_count {α : Type} {up : Bool} {f : Unit → Task α} {post : α → Gate → Prop}
    (next : ∀ t, Inv t → Rely i s t → Does l limits i call (f ()) post t) :
    Does l limits i call (op (.preparations up) >>= f) post s := by
  refine does_then fun t c a u inv rely _ ran => ?_
  cases ran
  have same (j : Nat) : Rely j t { t with activeTargetedPreparations :=
      if up then t.activeTargetedPreparations + 1 else t.activeTargetedPreparations - 1 } :=
    rely_same rfl rfl rfl le_rfl rfl rfl rfl
  have inv' : Inv { t with activeTargetedPreparations :=
      if up then t.activeTargetedPreparations + 1 else t.activeTargetedPreparations - 1 } :=
    ⟨inv.idle,inv.ready,inv.undone,inv.called,inv.unsent,inv.sent,inv.stops,inv.acting⟩
  exact ⟨⟨inv',fun j _ => same j⟩,next _ inv' (rely.trans (same i))⟩

/-- The send has failed, and left no row. -/
theorem does_fail {e : VnidropError} (own : Own i begun drawn (· = none) s) :
    Does l limits i call (do
      op .failed
      op (.returnSend (.error e))) done s := by
  refine does_then fun t c a u inv rely _ ran => ?_
  have own := own.later rely
  cases ran
  have told := PreparationPhase.fail_outcome t.phase
  refine ⟨own_fair inv own.sender own.pending ⟨rfl,rfl,rfl,rfl⟩ rfl id ⟨fun is => ?_,fun is => ?_⟩
    fun _ => ⟨own.spawned,fun id is => own.row id (own.created ▸ is)⟩,does_returnSend (inv.called ?_) fun _ _ _ => told⟩
  · rw [show t.phase.fail = _ from is] at told
    cases told
  · rw [show t.phase.fail = _ from is] at told
    cases told
  · rw [own.sender]
    exact nofun

/-- The transfer is registered, and its negotiation left to the runtime. -/
theorem does_finish {p : Payload} (own : Own i true drawn (· ≠ none) s) :
    Does l limits i call (do
      op (.spawn p id)
      op (.registered id)
      op (.returnSend (.ok id))) done s := by
  refine does_then fun t c a u inv rely _ ran => ?_
  obtain ⟨fair,sender,phase,spawned⟩ := spawn_step inv (own.later rely) ran
  refine ⟨fair,does_then fun v c b w inv rely _ ran => ?_⟩
  have pending : u.phase.pending = true := by rw [phase]; rfl
  have steady := rely.own sender pending
  have sender := rely.sender i sender
  cases ran
  refine ⟨own_fair inv sender steady.pending ⟨rfl,rfl,rfl,rfl⟩ rfl (fun is => is) ⟨nofun,nofun⟩ nofun,
    does_returnSend (inv.called ?_) fun _ _ => nofun⟩
  rw [sender]
  exact nofun

theorem does_send {r : Identifiers.Preparation} : Does l limits i (.send r) (send l limits r) done s := by
  refine does_then fun t c a u inv _ _ ran => ?_
  obtain ⟨fair,after⟩ := start_step inv ran
  refine ⟨fair,?_⟩
  cases a with
  | error e => exact does_returnSend after.1 fun one _ _ => after.2 one
  | ok started =>
  refine does_count fun v _ rely => safe_bind (safe_mono (fun prepared w ended => ?_) (does_prepare (after.later rely)))
  refine does_count fun x _ rely => ?_
  cases prepared with
  | error e =>
    obtain ⟨begun,drawn,own⟩ := ended
    exact does_fail (own.later rely)
  | ok registered =>
    obtain ⟨drawn,own⟩ := ended
    exact does_finish (own.later rely)

/-! The negotiation and the stops. -/

theorem does_negotiate : Does l limits i call (negotiate l) done s := by
  refine does_then fun t c transfer u inv _ _ ran => ?_
  simp only [Gate.exec] at ran
  split at ran
  · cases ran
  obtain ⟨_,spawned,same⟩ := Option.map_eq_some_iff.mp ran
  cases same
  have left : t.spawned ≠ none := by rw [show t.spawned = _ from spawned]; exact nofun
  have rest : Does l limits i call (within (Targeted.continueTargetedTransfer l transfer.1 transfer.2))
      (fun _ t => t.spawned ≠ none) { t with begun := true } :=
    does_away (fun _ _ rely => rely.spawned) (fun _ _ => id)
      (fun t inv left => ⟨fun said => left (inv.undone said).1,fun _ => left⟩) _ left
  exact ⟨⟨⟨inv.idle,inv.ready,inv.undone,inv.called,inv.unsent,inv.sent,inv.stops,inv.acting⟩,
    fun j _ => rely_same rfl rfl rfl le_rfl rfl rfl rfl⟩,safe_mono (fun _ _ _ => trivial) rest⟩

theorem does_stopTarget (rounds : Nat) :
    Does l limits i call (stopTarget rounds) (fun visit t => match visit with
      | none => True
      | some (.ok _) => Acts i t
      | some (.error o) => t.phase.outcome = some o) s := by
  induction rounds generalizing s with
  | zero => trivial
  | succ rounds ih =>
    refine does_op fun t c a u inv _ _ ran => ?_
    obtain ⟨fair,visited⟩ := visit_fair (i := i) inv
    cases ran
    refine ⟨fair,?_⟩
    generalize t.phase.visit.1 = visit at visited ⊢
    cases visit with
    | wait => exact ih
    | target id => exact visited
    | outcome o => exact visited

theorem does_returnStop {result : Except VnidropError StopOutcome}
    (told : ∀ o, result = .ok o → s.phase.outcome = some o) :
    Does l limits i call (op (.returnStop result)) done s := by
  refine does_op fun t c a u inv rely _ ran => ?_
  cases ran
  exact ⟨returnStop_fair inv fun o is => rely.outcome o (told o is),trivial⟩

theorem does_actOn (acts : Acts i s) : Does l limits i call (within (actOn id)) (fun _ => Acts i) s :=
  does_away (fun _ _ rely acts => acts.later rely) (fun _ _ acts => ⟨acts.acting,acts.phase⟩)
    (fun _ _ acts => ⟨by rw [acts.phase]; exact nofun,by rw [acts.phase]; exact nofun⟩) _ acts

theorem does_stop (rounds : Nat) : Does l limits i call (stop rounds) done s := by
  refine safe_bind (safe_mono (fun visit t visited => ?_) (does_stopTarget rounds))
  rcases visit with _ | outcome | id
  · trivial
  · exact does_returnStop fun o is => by cases is; exact visited
  · refine safe_bind (safe_mono (fun ended u acts => ?_) (does_actOn visited))
    cases ended with
    | ok outcome =>
      refine does_then fun v c a w inv rely _ ran => ?_
      cases ran
      exact ⟨acts_fair inv (acts.later rely) nofun nofun nofun,does_returnStop fun o is => by cases is; rfl⟩
    | error e =>
      refine does_then fun v c a w inv rely _ ran => ?_
      cases ran
      exact ⟨acts_fair inv (acts.later rely) nofun nofun nofun,does_returnStop nofun⟩

theorem does_call : Does l limits i call (call.body l limits) done s := by
  cases call with
  | send r => exact does_send
  | negotiate => exact does_negotiate
  | stop rounds => exact does_stop rounds

end Calls

theorem Inv.sound {s : Gate} (inv : Inv s) : Sound s where
  undone said := by
    refine (inv.undone ?_).2
    rcases said with ⟨one,e,is⟩ | is
    · exact inv.sent one e is
    · exact inv.stops _ is
  single := by
    rcases inv.acting with ⟨none,_⟩ | ⟨i,one,_⟩
    · simp [none]
    · simp [one]
  agreed o o' is is' := Option.some.inj ((inv.stops o is).symm.trans (inv.stops o' is'))

/-- While the send does not fail between its insert and its answer, a preparation that is said to be
stopped has no row, at most one stop acts on its transfer, and all stops agree. -/
theorem gate_sound {l : Local} {limits : Limits} {c : Conf Gate Call Op Ans}
    (reach : Reach (machine l limits).system (Watched minds) c) : Sound c.shared := by
  have secured : Secured ((machine l limits).restrict minds) free terms (fun _ _ _ => True) c := by
    refine reach_secured (fun _ _ => trivial) (fun s start => ?_) (fun c call _ _ _ _ => does_call)
      (fun _ _ _ _ _ _ => trivial) (fun _ e _ _ _ _ _ => nomatch e) (reach_watched reach)
    obtain ⟨device,rfl⟩ := start
    exact ⟨fun _ => ⟨rfl,rfl,.inl rfl⟩,fun _ => ⟨rfl,rfl⟩,nofun,nofun,fun _ => rfl,nofun,nofun,.inl ⟨rfl,nofun⟩⟩
  exact secured.inv.sound

instance (c : Conf Gate Call Op Ans) : DecidablePred (Watched (γ := Empty) minds c) :=
  have (s : Gate) (i : Nat) (call : Call) (o : Op) (c : Choice) : Decidable (minds s i call o c) :=
    instDecidableEqBool (permits call c o) true
  inferInstance

open Sample in
theorem stops_agreed : (final stopping).shared.stops = List.replicate 2 (.ok (.transfer .transferAbandoned)) ∧
    (final stopping).shared.sent = [.ok 7] ∧ Sound (final stopping).shared := by
  have ran : (machine Targeted.Sample.sender limits).system.run start stopping = some (final stopping) := rfl
  exact ⟨rfl,rfl,gate_sound (.run (.start start start_new) (by decide) ran)⟩

end Vnidrop.PreparationGate
