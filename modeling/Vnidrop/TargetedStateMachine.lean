import Vnidrop.Threads
import Vnidrop.TargetedStore

/-! The durable state machine across arbitrarily interleaved store operations.
A thread is one operation on `targeted_transfers` with arbitrary arguments, so
every caller, in any order, is among the runs. -/
namespace Vnidrop.Targeted

open Runs Threads Tables TargetedTransferState Store

/-- An operation at its next statement. Only two of them read and write in
separate statements. -/
inductive StoreCall where
  | insert (row : TargetedTransferRow)
  | abandonSenderPreapproval (id : TransferId)
  | setState (id : TransferId) (src dst : TargetedTransferState)
  | setStateFromAny (id : TransferId) (dst : TargetedTransferState)
  | setStateFromAnyWrite (id : TransferId) (src dst : TargetedTransferState)
  | markSenderCompleted (id : TransferId)
  | finalizeSenderAuthorization (id : TransferId) (blobTicket : Text) (handle : Handle)
  | persistAcceptedOfferIntent (offer : PendingTargetedOffer)
  | persistReceiverAuthorization (auth : TargetedAuthorization) (handle : Handle)
  | failResumable (id : TransferId)
  | cancelByPeer (peer : EndpointId)
  | markInterruptedInFlight
  | failSenderPreapprovalOnRestart
  | failSenderPreapprovalWrite
  | completeReceiver (id : TransferId) (verifiedBytes : Nat)
  | advanceVerifiedBytes (id : TransferId) (verifiedBytes : Nat)
  | clearAuthorization (id : TransferId)
  | transitionTerminal (id : TransferId) (dst : TargetedTransferState) (clear : Bool)
  | resetIdentity
  | done
  deriving DecidableEq

/-- When the statement runs, and whether the database refuses it. -/
structure Statement where
  now : Millis
  fails : Bool
  deriving DecidableEq

def committed (s : Store) : Except VnidropError Store → Store
  | .ok t => t
  | .error _ => s

def committedWith (s : Store) : Except VnidropError (Bool × Store) → Store
  | .ok (_,t) => t
  | .error _ => s

def StoreCall.execute (s : Store) (now : Millis) : StoreCall → Store × StoreCall
  | .insert row => (committed s (s.insert row),.done)
  | .abandonSenderPreapproval id => ((s.abandonSenderPreapproval id).2,.done)
  | .setState id src dst => (committed s (s.setState id src dst now),.done)
  | .setStateFromAny id dst =>
    match setStateFromAnyRead (s.getRow id) dst with
    | .ok (some src) => (s,.setStateFromAnyWrite id src dst)
    | _ => (s,.done)
  | .setStateFromAnyWrite id src dst => (committed s (s.updateState id src dst now),.done)
  | .markSenderCompleted id => (committedWith s (s.markSenderCompleted id now),.done)
  | .finalizeSenderAuthorization id blobTicket handle =>
    (committed s (s.finalizeSenderAuthorizationAndEnqueue id blobTicket handle now),.done)
  | .persistAcceptedOfferIntent offer => (committed s (s.persistAcceptedOfferIntent offer now),.done)
  | .persistReceiverAuthorization auth handle =>
    (committed s (s.persistReceiverAuthorizationAndConsumeIntent auth handle now),.done)
  | .failResumable id => ((s.failResumableAndClearDelivery id now).2,.done)
  | .cancelByPeer peer => (s.cancelByPeer peer now,.done)
  | .markInterruptedInFlight => (s.markInterruptedInFlight now,.done)
  | .failSenderPreapprovalOnRestart =>
    if s.transfers.affects senderPreapproval then (s,.failSenderPreapprovalWrite) else (s,.done)
  | .failSenderPreapprovalWrite => (s.failSenderPreapproval now,.done)
  | .completeReceiver id bytes => (committed s (s.completeReceiverAndEnqueue id bytes now),.done)
  | .advanceVerifiedBytes id bytes => ((s.advanceVerifiedBytes id bytes now).2,.done)
  | .clearAuthorization id => (s.clearAuthorization id,.done)
  | .transitionTerminal id dst clear => (committedWith s (s.transitionTerminal id dst clear now),.done)
  | .resetIdentity => (s.resetIdentityBoundState now,.done)
  | .done => (s,.done)

/-- A counter between statements is reached only from the call's first statement. -/
def StoreCall.begins : StoreCall → Bool
  | .setStateFromAnyWrite .. | .failSenderPreapprovalWrite | .done => false
  | _ => true

def storeMachine : Machine Store StoreCall Statement Empty where
  init s := s = .empty
  entry _ call := call.begins
  step s _ call c := if c.fails then some (s,.done) else some (call.execute s c.now)
  env _ e := e.elim

/-- What may happen to the state column of a row. -/
inductive StateChange (r r' : TargetedTransferRow) : Prop where
  | same (h : r'.state = r.state)
  | checked (h : r.state.validateTransitionTo r'.state = .ok ())
  | senderCompletion (role : r.role = .sender)
      (src : r.state = .approved ∨ r.state = .connecting ∨ r.state = .interrupted)
      (dst : r'.state = .completed)

/-- What may happen to a row: a state change, or the removal of an unapproved sender row. -/
def RowChange (r : TargetedTransferRow) : Option TargetedTransferRow → Prop
  | some r' => StateChange r r'
  | none => senderPreapproval r = true

def Evolves (s t : Store) : Prop :=
  ∀ id r, s.getRow id = some r → RowChange r (t.getRow id)

theorem Evolves.of_same {s t : Store} (h : t.transfers = s.transfers) : Evolves s t := by
  intro id r found
  rw [getRow,h,← getRow,found]
  exact .same rfl

theorem Evolves.after_same {s s' t : Store} (h : s'.transfers = s.transfers) (later : Evolves s' t) :
    Evolves s t := fun id r found => later id r (by rw [getRow,h]; exact found)

theorem Evolves.refl (s : Store) : Evolves s s := .of_same rfl

/-- A statement that updates rows changes states as its assignments do. -/
theorem Evolves.of_update {s t : Store} {p : TargetedTransferRow → Bool}
    {f : TargetedTransferRow → TargetedTransferRow}
    (h : t.transfers.rows = s.transfers.rows.map fun r => if p r then f r else r)
    (keeps : ∀ r, (f r).id = r.id)
    (assigns : ∀ r, p r = true → StateChange r (f r)) : Evolves s t := by
  have updated : t.transfers = s.transfers.updateWhere p f keeps := Table.ext_rows h
  intro id r found
  rw [getRow] at found
  rw [getRow,updated,Table.find_updateWhere,found]
  by_cases selected : p r = true
  · simpa [RowChange,selected] using assigns r selected
  · simpa [RowChange,selected] using StateChange.same rfl

theorem StateChange.cancel {r r' : TargetedTransferRow} (live : r.state.terminal = false)
    (dst : r'.state = .cancelled) : StateChange r r' :=
  .checked (by rw [dst,validate_ok,allowed_cancelled,live]; rfl)

theorem StateChange.fail {r r' : TargetedTransferRow} (live : r.state.terminal = false)
    (dst : r'.state = .failed) : StateChange r r' :=
  .checked (by rw [dst,validate_ok,allowed_failed,live]; rfl)

/-- Completing a sender row from a resumable state is checked or the sender's own shortcut. -/
theorem StateChange.complete {r r' : TargetedTransferRow} (role : r.role = .sender)
    (src : r.state.resumable = true) (dst : r'.state = .completed) : StateChange r r' := by
  cases state : r.state with
  | transferring => exact .checked (by rw [state,dst]; rfl)
  | approved => exact .senderCompletion role (.inl state) dst
  | connecting => exact .senderCompletion role (.inr (.inl state)) dst
  | interrupted => exact .senderCompletion role (.inr (.inr state)) dst
  | _ => simp [state,resumable] at src

theorem evolves_insert (s : Store) (row : TargetedTransferRow) :
    Evolves s (committed s (s.insert row)) := by
  unfold Store.insert
  split
  · exact .refl s
  · split
    · rename_i transfers inserted
      intro id r found
      show RowChange r (transfers.find id)
      rw [Table.find_insert inserted]
      split
      · rename_i same
        have absent : s.transfers.find row.id = none := Table.insert_isSome.mp (by simp [inserted])
        rw [getRow,same,absent] at found
        cases found
      · rw [getRow] at found
        rw [found]
        exact .same rfl
    · exact .refl s

theorem evolves_abandon (s : Store) (id : TransferId) :
    Evolves s (s.abandonSenderPreapproval id).2 := by
  intro id' r found
  show RowChange r ((s.transfers.deleteWhere _).find id')
  rw [getRow] at found
  rw [Table.find_deleteWhere,found]
  by_cases selected : r.id = id ∧ senderPreapproval r = true
  · rw [Option.filter_some_neg (by simpa [senderPreapproval] using selected)]
    exact selected.2
  · rw [Option.filter_some_pos (by simpa [senderPreapproval,imp_iff_not_or] using selected)]
    exact .same rfl

theorem evolves_updateState {s : Store} {id : TransferId} {src dst : TargetedTransferState}
    {now : Millis} (valid : src.validateTransitionTo dst = .ok ()) :
    Evolves s (committed s (s.updateState id src dst now)) := by
  unfold updateState
  dsimp only
  split
  · refine .of_update rfl (fun _ => rfl) fun r selected => ?_
    simp only [Bool.and_eq_true,decide_eq_true_eq] at selected
    exact .checked (by rw [selected.2]; exact valid)
  · exact .refl s

theorem evolves_setState (s : Store) (id : TransferId) (src dst : TargetedTransferState)
    (now : Millis) : Evolves s (committed s (s.setState id src dst now)) := by
  unfold setState
  cases valid : src.validateTransitionTo dst with
  | error _ => exact .refl s
  | ok _ => exact evolves_updateState valid

theorem evolves_markSenderCompleted (s : Store) (id : TransferId) (now : Millis) :
    Evolves s (committedWith s (s.markSenderCompleted id now)) := by
  unfold markSenderCompleted
  dsimp only
  split
  · refine .of_update rfl (fun _ => rfl) fun r selected => ?_
    simp only [Bool.and_eq_true,decide_eq_true_eq] at selected
    exact .complete selected.2.1 selected.2.2 rfl
  · split
    · exact .of_same rfl
    · exact .refl s

theorem evolves_finalize (s : Store) (id : TransferId) (blobTicket : Text) (handle : Handle)
    (now : Millis) :
    Evolves s (committed s (s.finalizeSenderAuthorizationAndEnqueue id blobTicket handle now)) := by
  unfold finalizeSenderAuthorizationAndEnqueue
  dsimp only
  split
  · refine .of_update rfl (fun _ => rfl) fun r selected => ?_
    simp only [Bool.and_eq_true,decide_eq_true_eq] at selected
    exact .checked (by rw [selected.2.2]; rfl)
  · exact .refl s

theorem evolves_persistIntent (s : Store) (offer : PendingTargetedOffer) (now : Millis) :
    Evolves s (committed s (s.persistAcceptedOfferIntent offer now)) := by
  unfold persistAcceptedOfferIntent
  dsimp only
  split
  · exact .of_same rfl
  · split
    · exact .of_same rfl
    · exact .refl s

theorem evolves_persistReceiver (s : Store) (auth : TargetedAuthorization) (handle : Handle)
    (now : Millis) :
    Evolves s (committed s (s.persistReceiverAuthorizationAndConsumeIntent auth handle now)) := by
  unfold persistReceiverAuthorizationAndConsumeIntent
  split
  · have inserts := evolves_insert s (receiverRow auth handle now)
    cases inserted : s.insert (receiverRow auth handle now) with
    | error _ => exact .refl s
    | ok t => rw [inserted] at inserts; exact inserts
  · exact .refl s

theorem evolves_failResumable (s : Store) (id : TransferId) (now : Millis) :
    Evolves s (s.failResumableAndClearDelivery id now).2 := by
  unfold failResumableAndClearDelivery
  dsimp only
  split
  · refine .of_update rfl (fun _ => rfl) fun r selected => ?_
    simp only [Bool.and_eq_true,decide_eq_true_eq] at selected
    exact .fail (resumable_live selected.2) rfl
  · exact .refl s

theorem evolves_cancelByPeer (s : Store) (peer : EndpointId) (now : Millis) :
    Evolves s (s.cancelByPeer peer now) := by
  refine .of_update rfl (fun _ => rfl) fun r selected => ?_
  simp only [Bool.and_eq_true,Bool.not_eq_true'] at selected
  exact .cancel selected.2 rfl

theorem evolves_markInterrupted (s : Store) (now : Millis) :
    Evolves s (s.markInterruptedInFlight now) := by
  refine .of_update rfl (fun _ => rfl) fun r selected => ?_
  simp only [Bool.or_eq_true,decide_eq_true_eq] at selected
  rcases selected with state | state <;> exact .checked (by rw [state]; rfl)

theorem evolves_failPreapproval (s : Store) (now : Millis) :
    Evolves s (s.failSenderPreapproval now) := by
  refine .of_update rfl (fun _ => rfl) fun r selected => ?_
  simp only [senderPreapproval,Bool.and_eq_true] at selected
  exact .fail (preapproval_live selected.2) rfl

theorem evolves_completeReceiver (s : Store) (id : TransferId) (bytes : Nat) (now : Millis) :
    Evolves s (committed s (s.completeReceiverAndEnqueue id bytes now)) := by
  unfold completeReceiverAndEnqueue
  dsimp only
  split
  · refine .of_update rfl (fun _ => rfl) fun r selected => ?_
    simp only [Bool.and_eq_true,decide_eq_true_eq] at selected
    exact .checked (by rw [selected.2.2]; rfl)
  · exact .refl s

theorem clearForTerminal_transfers (s : Store) (id : TransferId) (clear : Bool) :
    (s.clearForTerminal id clear).transfers = s.transfers := by
  cases clear <;> rfl

theorem leavesFor_allowed {dst state : TargetedTransferState} (h : leavesFor dst state = true) :
    state.allowed dst = true := by
  cases dst <;> cases state <;> simp_all [leavesFor,allowed,terminal]

theorem evolves_transitionTerminal (s : Store) (id : TransferId) (dst : TargetedTransferState)
    (clear : Bool) (now : Millis) :
    Evolves s (committedWith s (s.transitionTerminal id dst clear now)) := by
  unfold transitionTerminal
  split
  · refine .after_same (clearForTerminal_transfers s id clear) ?_
    refine .of_update rfl (fun _ => rfl) fun r selected => ?_
    simp only [Bool.and_eq_true,decide_eq_true_eq] at selected
    exact .checked (validate_ok.mpr (leavesFor_allowed selected.2))
  · exact .refl s

theorem evolves_resetIdentity (s : Store) (now : Millis) :
    Evolves s (s.resetIdentityBoundState now) := by
  refine .of_update rfl (fun _ => rfl) fun r _ => ?_
  cases settled : r.state.terminal with
  | true => exact .same (by simp)
  | false => exact .cancel settled (by simp)

/-- A thread past its read carries a pair of states the table allows. -/
def CallChecked : StoreCall → Prop
  | .setStateFromAnyWrite _ src dst => src.validateTransitionTo dst = .ok ()
  | _ => True

theorem execute_checked (s : Store) (now : Millis) (call : StoreCall) :
    CallChecked (call.execute s now).2 := by
  cases call with
  | setStateFromAny id dst =>
    simp only [StoreCall.execute]
    split
    · rename_i src read
      cases row : s.getRow id with
      | none => simp [setStateFromAnyRead,row] at read
      | some r =>
        rw [row] at read
        simp only [setStateFromAnyRead] at read
        split at read
        · cases read
        · cases valid : r.state.validateTransitionTo dst with
          | error _ => rw [valid] at read; cases read
          | ok _ =>
            rw [valid] at read
            cases read
            exact valid
    · trivial
  | failSenderPreapprovalOnRestart =>
    simp only [StoreCall.execute]
    split <;> trivial
  | _ => trivial

/-- Every statement moves each row along the table. -/
theorem execute_evolves (s : Store) (now : Millis) (call : StoreCall) (checked : CallChecked call) :
    Evolves s (call.execute s now).1 := by
  cases call with
  | insert row => exact evolves_insert s row
  | abandonSenderPreapproval id => exact evolves_abandon s id
  | setState id src dst => exact evolves_setState s id src dst now
  | setStateFromAny id dst => simp only [StoreCall.execute]; split <;> exact .refl s
  | setStateFromAnyWrite id src dst => exact evolves_updateState checked
  | markSenderCompleted id => exact evolves_markSenderCompleted s id now
  | finalizeSenderAuthorization id ticket handle => exact evolves_finalize s id ticket handle now
  | persistAcceptedOfferIntent offer => exact evolves_persistIntent s offer now
  | persistReceiverAuthorization auth handle => exact evolves_persistReceiver s auth handle now
  | failResumable id => exact evolves_failResumable s id now
  | cancelByPeer peer => exact evolves_cancelByPeer s peer now
  | markInterruptedInFlight => exact evolves_markInterrupted s now
  | failSenderPreapprovalOnRestart => simp only [StoreCall.execute]; split <;> exact .refl s
  | failSenderPreapprovalWrite => exact evolves_failPreapproval s now
  | completeReceiver id bytes => exact evolves_completeReceiver s id bytes now
  | advanceVerifiedBytes id bytes => exact .of_update rfl (fun _ => rfl) fun r _ => .same rfl
  | clearAuthorization id => exact .of_update rfl (fun _ => rfl) fun r _ => .same rfl
  | transitionTerminal id dst clear => exact evolves_transitionTerminal s id dst clear now
  | resetIdentity => exact evolves_resetIdentity s now
  | done => exact .refl s

def Checked (c : Conf Store StoreCall) : Prop :=
  ∀ (i : Nat) call, c.threads[i]? = some call → CallChecked call

theorem step_checked {c d : Conf Store StoreCall} {a : Label StoreCall Statement Empty}
    (now : Checked c) (h : storeMachine.next c a = some d) : Checked d := by
  rcases next_cases h with ⟨t,rfl,enters,rfl⟩ | ⟨i,choice,t,s,t',rfl,_,stepped,rfl⟩ | ⟨e,_⟩
  · intro j u there
    rcases getElem?_push_some there with ⟨_,rfl⟩ | old
    · cases u <;> trivial
    · exact now j u old
  · intro j u there
    rcases getElem?_set_some there with ⟨_,rfl⟩ | ⟨_,old⟩
    · simp only [storeMachine] at stepped
      split at stepped
      · cases stepped; trivial
      · have eq := Option.some.inj stepped
        rw [← show (t.execute c.shared choice.now).2 = u from congrArg Prod.snd eq]
        exact execute_checked _ _ _
    · exact now j u old
  · exact e.elim

theorem step_evolves {c d : Conf Store StoreCall} {a : Label StoreCall Statement Empty}
    (checked : Checked c) (h : storeMachine.next c a = some d) : Evolves c.shared d.shared := by
  rcases next_cases h with ⟨t,rfl,_,rfl⟩ | ⟨i,choice,t,s,t',rfl,here,stepped,rfl⟩ | ⟨e,_⟩
  · exact .refl _
  · simp only [storeMachine] at stepped
    split at stepped
    · cases stepped; exact .refl _
    · have eq := Option.some.inj stepped
      rw [← show (t.execute c.shared choice.now).1 = s from congrArg Prod.fst eq]
      exact execute_evolves _ _ _ (checked i t here)
  · exact e.elim

/-- A settled row stays in the table, in its state or deleted. -/
def KeepsSettled (s t : Store) : Prop :=
  ∀ id r, s.getRow id = some r → r.state.terminal = true →
    ∃ r', t.getRow id = some r' ∧ (r'.state = r.state ∨ r'.state = .deleted)

theorem KeepsSettled.trans {s t u : Store} (first : KeepsSettled s t) (second : KeepsSettled t u) :
    KeepsSettled s u := by
  intro id r found settled
  obtain ⟨r',found',now⟩ := first id r found settled
  have settled' : r'.state.terminal = true := by
    rcases now with same | gone
    · rw [same]; exact settled
    · rw [gone]; rfl
  obtain ⟨r'',found'',later⟩ := second id r' found' settled'
  refine ⟨r'',found'',?_⟩
  rcases later with same | gone
  · rw [same]; exact now
  · exact .inr gone

theorem Evolves.keepsSettled {s t : Store} (h : Evolves s t) : KeepsSettled s t := by
  intro id r found settled
  have change := h id r found
  cases now : t.getRow id with
  | none =>
    rw [now] at change
    simp only [RowChange,senderPreapproval,Bool.and_eq_true] at change
    simp [preapproval_live change.2] at settled
  | some r' =>
    rw [now] at change
    refine ⟨r',rfl,?_⟩
    cases change with
    | same h => exact .inl h
    | checked h => exact .inr (allowed_of_terminal settled (validate_ok.mp h)).1
    | senderCompletion _ src _ => rcases src with src | src | src <;> simp [src,terminal] at settled

theorem run_settled {c d : Conf Store StoreCall} {labels : List (Label StoreCall Statement Empty)}
    (checked : Checked c) (h : storeMachine.system.run c labels = some d) :
    KeepsSettled c.shared d.shared := by
  induction labels generalizing c with
  | nil => cases h; exact fun _ r found _ => ⟨r,found,.inl rfl⟩
  | cons a labels ih =>
    simp only [System.run,Option.bind_eq_some_iff] at h
    obtain ⟨e,stepped,rest⟩ := h
    exact (step_evolves checked stepped).keepsSettled.trans (ih (step_checked checked stepped) rest)

theorem reach_checked {c : Conf Store StoreCall} (reach : Reach storeMachine.system Always c) :
    Checked c := by
  refine reach.invariant Checked (fun s start => ?_) fun s a t now _ h => step_checked now h
  intro i call there
  rw [start.2] at there
  simp at there

/-- In every run, each step moves each row along the transition table or by the
sender's completion, and from any reached state on, however the run continues, a
settled row keeps its state or is deleted, and a deleted row keeps its state. -/
theorem durable_state_machine {c d : Conf Store StoreCall}
    {labels : List (Label StoreCall Statement Empty)}
    (reach : Reach storeMachine.system Always c) (h : storeMachine.system.run c labels = some d) :
    (∀ a e, storeMachine.next d a = some e → Evolves d.shared e.shared) ∧
    KeepsSettled c.shared d.shared ∧
    ∀ id r, c.shared.getRow id = some r → r.state = .deleted →
      ∃ r', d.shared.getRow id = some r' ∧ r'.state = .deleted := by
  have checked := reach_checked reach
  have settled := run_settled checked h
  refine ⟨fun a e step => step_evolves (reach_checked (reach.run ?_ h)) step,settled,?_⟩
  · exact meets_always c labels
  · intro id r found gone
    obtain ⟨r',found',now⟩ := settled id r found (by rw [gone]; rfl)
    exact ⟨r',found',by rcases now with same | gone'; exacts [same.trans gone,gone']⟩

section Sample

private def row : TargetedTransferRow where
  id := 1
  protocolTransferId := 7
  senderEndpointId := 10
  receiverEndpointId := 20
  manifestId := 30
  contentHash := 40
  transferName := 50
  fileCount := 2
  totalSize := 64
  verifiedBytes := 0
  blobTicket := none
  authorizationSecretHandle := none
  role := .sender
  state := .preparing
  createdAt := 0
  updatedAt := 0

private def statement : Statement := ⟨1,false⟩

/-- A sender row is created, cancelled and deleted. -/
private def deletion : List (Label StoreCall Statement Empty) :=
  [.fork (.insert row),.act 0 statement,.fork (.transitionTerminal 1 .cancelled true),.act 1 statement,
   .fork (.transitionTerminal 1 .deleted true),.act 2 statement]

/-- Afterwards a peer termination, a completion and a stale checked write find the row. -/
private def afterwards : List (Label StoreCall Statement Empty) :=
  [.fork (.cancelByPeer 20),.act 3 statement,.fork (.markSenderCompleted 1),.act 4 statement,
   .fork (.setState 1 .preparing .offering),.act 5 statement]

private def deletedConf : Conf Store StoreCall :=
  (storeMachine.system.run ⟨.empty,[]⟩ deletion).getD ⟨.empty,[]⟩

private def laterConf : Conf Store StoreCall :=
  (storeMachine.system.run deletedConf afterwards).getD ⟨.empty,[]⟩

theorem durable_state_machine_deleted :
    (deletedConf.shared.getRow 1).map (·.state) = some .deleted ∧
    (∀ a e, storeMachine.next laterConf a = some e → Evolves laterConf.shared e.shared) ∧
    KeepsSettled deletedConf.shared laterConf.shared ∧
    ∀ id r, deletedConf.shared.getRow id = some r → r.state = .deleted →
      ∃ r', laterConf.shared.getRow id = some r' ∧ r'.state = .deleted :=
  have past : Reach storeMachine.system Always deletedConf :=
    .of_run (show storeMachine.system.init ⟨.empty,[]⟩ from ⟨rfl,rfl⟩)
      (show storeMachine.system.run ⟨.empty,[]⟩ deletion = some deletedConf from rfl)
  have later : storeMachine.system.run deletedConf afterwards = some laterConf := rfl
  ⟨rfl,durable_state_machine past later⟩

end Sample

end Vnidrop.Targeted
