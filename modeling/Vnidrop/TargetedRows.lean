import Vnidrop.TargetedDevice

/-! What the statements do to the row, the intent and the completion entry of one
identifier, and when they succeed. A statement acts on each identifier by itself. -/
namespace Vnidrop.Targeted

open Tables TargetedTransferState Store

/-- The row under `id` after a statement that has succeeded. -/
def Write.onRow (now : Millis) (id : TransferId) (row : Option TargetedTransferRow) :
    Write → Option TargetedTransferRow
  | .insert new => if id = new.id then some new else row
  | .abandonSenderPreapproval id' =>
    if id = id' then row.filter fun r => !(decide (r.role = .sender) && r.state.preapproval) else row
  | .setState id' src dst | .updateState id' src dst =>
    if id = id' then row.map fun r =>
      if decide (r.state = src) then { r with state := dst, updatedAt := now } else r
    else row
  | .markSenderCompleted id' =>
    if id = id' then row.map fun r =>
      if decide (r.role = .sender) && r.state.resumable then
        { r with state := .completed, verifiedBytes := r.totalSize, updatedAt := now }
      else r
    else row
  | .finalizeSenderAuthorization id' blobTicket handle =>
    if id = id' then row.map fun r =>
      if decide (r.role = .sender) && decide (r.state = .awaitingApproval) then
        { r with state := .approved, blobTicket := some blobTicket
                 authorizationSecretHandle := some handle, updatedAt := now }
      else r
    else row
  | .persistReceiverAuthorization auth handle =>
    if id = auth.transferId then some (receiverRow auth handle now) else row
  | .cancelByPeer peer =>
    row.map fun r => if withPeer peer r && !r.state.terminal then
      { r with state := .cancelled, blobTicket := none, authorizationSecretHandle := none
               updatedAt := now }
    else r
  | .completeReceiver id' bytes =>
    if id = id' then row.map fun r =>
      if decide (r.role = .receiver) && decide (r.state = .transferring) then
        { r with state := .completed, verifiedBytes := bytes, updatedAt := now }
      else r
    else row
  | .advanceVerifiedBytes id' bytes =>
    if id = id' then row.map fun r =>
      if decide (r.role = .receiver) && decide (r.state = .transferring) &&
          decide (r.verifiedBytes < bytes) then
        { r with verifiedBytes := min r.totalSize (max r.verifiedBytes bytes), updatedAt := now }
      else r
    else row
  | .clearAuthorization id' =>
    if id = id' then row.map fun r => { r with blobTicket := none, authorizationSecretHandle := none }
    else row
  | .transitionTerminal id' dst clear =>
    if id = id' then row.map fun r =>
      if leavesFor dst r.state then
        { r with
          state := dst
          blobTicket := if clear then none else r.blobTicket
          authorizationSecretHandle := if clear then none else r.authorizationSecretHandle
          updatedAt := now }
      else r
    else row
  | _ => row

/-- The accepted-offer intent under `id` after a statement that has succeeded. -/
def Write.onIntent (now : Millis) (id : TransferId) (intent : Option AcceptedOfferIntent) :
    Write → Option AcceptedOfferIntent
  | .persistAcceptedOfferIntent offer =>
    if id = offer.transferId then
      some ((intent.map fun i => { i with acceptedAt := now }).getD (intentOf offer now))
    else intent
  | .persistReceiverAuthorization auth _ => if id = auth.transferId then none else intent
  | .clearAcceptedOfferIntent id' | .transitionTerminal id' _ _ => if id = id' then none else intent
  | .clearAcceptedIntentIfSender id' sender =>
    if id = id' then intent.filter fun i => !decide (i.senderEndpointId = sender) else intent
  | .cancelByPeer peer =>
    intent.filter fun i =>
      !(decide (i.senderEndpointId = peer) || decide (i.receiverEndpointId = peer))
  | _ => intent

/-- Whether a completion entry stands under `id` after a statement that has succeeded. -/
def Write.onCompletion (id : TransferId) (row : Option TargetedTransferRow) (pending : Bool) :
    Write → Bool
  | .completeReceiver id' _ => decide (id = id') || pending
  | .clearPendingCompletion id' | .clearAuthorization id' => !decide (id = id') && pending
  | .transitionTerminal id' _ clear => !(decide (id = id') && clear) && pending
  -- an entry goes with the row it refers to
  | .abandonSenderPreapproval id' =>
    !(decide (id = id') && row.any fun r => decide (r.role = .sender) && r.state.preapproval) && pending
  | _ => pending

/-- Whether a delivery entry stands under `id` after a statement that has succeeded. -/
def Write.onDelivery (id : TransferId) (row : Option TargetedTransferRow) (pending : Bool) :
    Write → Bool
  | .finalizeSenderAuthorization id' _ _ => decide (id = id') || pending
  | .markSenderCompleted id' | .clearPendingAuthorizationDelivery id' | .clearAuthorization id' =>
    !decide (id = id') && pending
  | .transitionTerminal id' _ _ => !decide (id = id') && pending
  | .cancelByPeer peer => !row.any (withPeer peer) && pending
  | .abandonSenderPreapproval id' =>
    !(decide (id = id') && row.any fun r => decide (r.role = .sender) && r.state.preapproval) && pending
  | _ => pending

/-- Whether a release entry stands under `id` after a statement that has succeeded. -/
def Write.onRelease (id : TransferId) (row : Option TargetedTransferRow) (pending : Bool) :
    Write → Bool
  | .markSenderCompleted id' =>
    (decide (id = id') && row.any fun r => decide (r.role = .sender) && r.state.resumable) || pending
  | .clearPendingPayloadRelease id' | .clearAuthorization id' => !decide (id = id') && pending
  | .transitionTerminal id' _ clear => !(decide (id = id') && clear) && pending
  | .abandonSenderPreapproval id' =>
    !(decide (id = id') && row.any fun r => decide (r.role = .sender) && r.state.preapproval) && pending
  | _ => pending

/-- The statements that write no outbox. -/
def Write.plain : Write → Bool
  | .insert _ | .setState .. | .updateState .. | .persistAcceptedOfferIntent _ => true
  | .persistReceiverAuthorization .. | .clearAcceptedOfferIntent _ => true
  | .clearAcceptedIntentIfSender .. | .advanceVerifiedBytes .. => true
  | _ => false

theorem except_map_ok {ε α β : Type} {e : Except ε α} {f : α → β} {b : β} (h : e.map f = .ok b) :
    ∃ a, e = .ok a ∧ f a = b := by
  cases e with
  | error _ => cases h
  | ok a => exact ⟨a,rfl,Except.ok.inj h⟩

theorem except_bind_ok {ε α β : Type} {e : Except ε α} {f : α → Except ε β} {b : β}
    (h : (e >>= f) = .ok b) : ∃ a, e = .ok a ∧ f a = .ok b := by
  cases e with
  | error _ => cases h
  | ok a => exact ⟨a,rfl,h⟩

/-! When the checked statements succeed. -/

section Succeeds

variable {s t : Store} {id : TransferId} {src dst : TargetedTransferState} {now : Millis}
  {changed : Bool}

/-- A statement restricted to one row of the table found that row. -/
theorem affected_row {q : TargetedTransferRow → Bool}
    (h : s.transfers.affects (fun r => decide (r.id = id) && q r) = true) :
    ∃ r, s.getRow id = some r ∧ q r = true := by
  rw [Table.affects_key] at h
  obtain ⟨r,found,holds⟩ := Option.any_eq_true _ _ |>.mp h
  exact ⟨r,found,holds⟩

theorem updateState_ok (h : s.updateState id src dst now = .ok t) :
    (∃ r, s.getRow id = some r ∧ r.state = src) ∧
    t = { s with
      transfers := s.transfers.updateWhere (fun r => r.id = id && decide (r.state = src)) fun r =>
        { r with state := dst, updatedAt := now } } := by
  unfold updateState at h
  dsimp only at h
  split at h
  · rename_i affected
    obtain ⟨r,found,holds⟩ := affected_row affected
    exact ⟨⟨r,found,of_decide_eq_true holds⟩,(Except.ok.inj h).symm⟩
  · cases h

theorem setState_ok (h : s.setState id src dst now = .ok t) :
    src.allowed dst = true ∧ s.updateState id src dst now = .ok t := by
  obtain ⟨_,valid,updated⟩ := except_bind_ok h
  exact ⟨validate_ok.mp valid,updated⟩

theorem insert_ok {new : TargetedTransferRow} (h : s.insert new = .ok t) :
    s.getRow new.id = none ∧
    ∃ transfers, s.transfers.insert new = some transfers ∧ t = { s with transfers } := by
  unfold Store.insert at h
  split at h
  · cases h
  · split at h
    · rename_i transfers inserted
      exact ⟨Table.insert_isSome.mp (by rw [inserted]; rfl),transfers,inserted,(Except.ok.inj h).symm⟩
    · cases h

theorem finalize_ok {blobTicket : Text} {handle : Handle}
    (h : s.finalizeSenderAuthorizationAndEnqueue id blobTicket handle now = .ok t) :
    ∃ r, s.getRow id = some r ∧ r.role = .sender ∧ r.state = .awaitingApproval := by
  unfold finalizeSenderAuthorizationAndEnqueue at h
  dsimp only at h
  split at h
  · rename_i affected
    obtain ⟨r,found,holds⟩ := affected_row affected
    simp only [Bool.and_eq_true,decide_eq_true_eq] at holds
    exact ⟨r,found,holds⟩
  · cases h

/-- Durable consent to every column of the authorization, and no row yet. -/
theorem persistReceiver_ok {auth : TargetedAuthorization} {handle : Handle}
    (h : s.persistReceiverAuthorizationAndConsumeIntent auth handle now = .ok t) :
    s.getRow auth.transferId = none ∧
    (∃ i, s.intents.find auth.transferId = some i ∧ consents auth i = true) ∧
    ∃ transfers, s.transfers.insert (receiverRow auth handle now) = some transfers ∧
      t = { s with transfers, intents := s.intents.delete auth.transferId } := by
  unfold persistReceiverAuthorizationAndConsumeIntent at h
  split at h
  · rename_i affected
    obtain ⟨u,inserted,same⟩ := except_bind_ok h
    obtain ⟨absent,transfers,ins,rfl⟩ := insert_ok inserted
    rw [Table.affects_key] at affected
    obtain ⟨i,found,holds⟩ := Option.any_eq_true _ _ |>.mp affected
    exact ⟨absent,⟨i,found,holds⟩,transfers,ins,(Except.ok.inj same).symm⟩
  · cases h

theorem completeReceiver_ok {bytes : Nat} (h : s.completeReceiverAndEnqueue id bytes now = .ok t) :
    ∃ r, s.getRow id = some r ∧ r.role = .receiver ∧ r.state = .transferring := by
  unfold completeReceiverAndEnqueue at h
  dsimp only at h
  split at h
  · rename_i affected
    obtain ⟨r,found,holds⟩ := affected_row affected
    simp only [Bool.and_eq_true,decide_eq_true_eq] at holds
    exact ⟨r,found,holds⟩
  · cases h

theorem markSenderCompleted_ok (h : s.markSenderCompleted id now = .ok (changed,t)) :
    ∃ r, s.getRow id = some r ∧ r.role = .sender ∧ (r.state.resumable ∨ r.state = .completed) := by
  unfold markSenderCompleted at h
  dsimp only at h
  split at h
  · rename_i affected
    obtain ⟨r,found,holds⟩ := affected_row affected
    simp only [Bool.and_eq_true,decide_eq_true_eq] at holds
    exact ⟨r,found,holds.1,.inl holds.2⟩
  · split at h
    · rename_i affected
      obtain ⟨r,found,holds⟩ := affected_row affected
      simp only [Bool.and_eq_true,decide_eq_true_eq] at holds
      exact ⟨r,found,holds.1,.inr holds.2⟩
    · cases h

theorem transitionTerminal_ok {clear : Bool}
    (h : s.transitionTerminal id dst clear now = .ok (changed,t)) :
    (dst = .cancelled ∨ dst = .deleted) ∧
    changed = (s.getRow id).any (fun r => leavesFor dst r.state) := by
  unfold transitionTerminal at h
  split at h
  · rename_i ends
    refine ⟨ends,?_⟩
    rw [← (Prod.mk.inj (Except.ok.inj h)).1]
    exact Table.affects_key
  · cases h

/-- A row that an update finds in its first state is updated. -/
theorem updateState_succeeds {row : TargetedTransferRow} (here : s.getRow id = some row) (dst : TargetedTransferState) (now : Millis) :
    ∃ next, s.updateState id row.state dst now = .ok next := by
  have affected : s.transfers.affects (fun r => decide (r.id = id) && decide (r.state = row.state)) = true := by
    rw [Table.affects_key,show s.transfers.find id = some row from here]
    simp
  exact ⟨_,if_pos affected⟩

theorem setState_succeeds {row : TargetedTransferRow} {dst : TargetedTransferState}
    (here : s.getRow id = some row) (valid : row.state.allowed dst = true) (now : Millis) :
    ∃ next, s.setState id row.state dst now = .ok next := by
  obtain ⟨next,updated⟩ := updateState_succeeds here dst now
  exact ⟨next,by rw [Store.setState,validate_ok.mpr valid]; exact updated⟩

theorem completeReceiver_succeeds {row : TargetedTransferRow}
    (here : s.getRow id = some row) (role : row.role = .receiver) (state : row.state = .transferring)
    (bytes : Nat) (now : Millis) : ∃ next, s.completeReceiverAndEnqueue id bytes now = .ok next := by
  have affected : s.transfers.affects (fun r => decide (r.id = id) &&
      (decide (r.role = .receiver) && decide (r.state = .transferring))) = true := by
    rw [Table.affects_key,show s.transfers.find id = some row from here]
    simp [role,state]
  exact ⟨_,if_pos affected⟩

/-- What is read to be failed is a live row. -/
theorem readFailed {row : Option TargetedTransferRow} {src : TargetedTransferState}
    (h : Store.setStateFromAnyRead row .failed = .ok (some src)) :
    ∃ r, row = some r ∧ r.state = src ∧ r.state.terminal = false := by
  cases row with
  | none => cases h
  | some r =>
    unfold Store.setStateFromAnyRead at h
    dsimp only at h
    split at h
    · cases h
    · obtain ⟨_,valid,same⟩ := except_bind_ok h
      cases same
      have live := validate_ok.mp valid
      rw [allowed_failed] at live
      exact ⟨r,rfl,rfl,by simpa using live⟩

theorem abandon_flag :
    (s.abandonSenderPreapproval id).1 =
      (s.getRow id).any fun r => decide (r.role = .sender) && r.state.preapproval :=
  Table.affects_key

end Succeeds

/-! Each statement, row by row. -/

section Effects

variable {s t : Store} {now : Millis} {changed : Bool}

/-- An update restricted to one identifier and `q`, as `onRow` says it. -/
theorem updated_row {q : TargetedTransferRow → Bool} {f : TargetedTransferRow → TargetedTransferRow}
    (table : Table TargetedTransferRow.id) (id' id : TransferId) (keeps : ∀ r, (f r).id = r.id) :
    (table.updateWhere (fun r => r.id = id' && q r) f keeps).find id =
      if id = id' then (table.find id).map fun r => if q r then f r else r else table.find id := by
  rw [show (table.updateWhere (fun r => r.id = id' && q r) f keeps).find id = _ from
    Table.find_updateKey table id' q f keeps id]
  split
  · rename_i same
    rw [same]
  · rfl

theorem inserted_row {table table' : Table TargetedTransferRow.id} {new : TargetedTransferRow}
    (h : table.insert new = some table') (id : TransferId) :
    table'.find id = if id = new.id then some new else table.find id :=
  Table.find_insert h id

theorem updateState_row {id' : TransferId} {src dst : TargetedTransferState}
    (h : s.updateState id' src dst now = .ok t) (id : TransferId) :
    t.getRow id = (Write.updateState id' src dst).onRow now id (s.getRow id) := by
  obtain ⟨_,rfl⟩ := updateState_ok h
  exact updated_row s.transfers id' id fun _ => by rfl

/-- A row under `id` after a statement is what `onRow` says. -/
theorem run_getRow {w : Write} (h : w.run s now = .ok (changed,t)) (id : TransferId) :
    t.getRow id = w.onRow now id (s.getRow id) := by
  cases w with
  | insert new =>
    obtain ⟨u,inserted,same⟩ := except_map_ok h
    cases same
    obtain ⟨_,transfers,ins,rfl⟩ := insert_ok inserted
    exact inserted_row ins id
  | abandonSenderPreapproval id' =>
    cases Except.ok.inj h
    show (s.transfers.deleteWhere _).find id = _
    rw [Table.find_deleteWhere,Write.onRow]
    cases found : s.getRow id with
    | none => simp [show s.transfers.find id = none from found]
    | some r =>
      have keyed : r.id = id := Table.find_key found
      rw [show s.transfers.find id = some r from found]
      by_cases same : id = id'
      · simp [keyed,same,Option.filter]
      · simp [keyed,same,Option.filter]
  | setState id' src dst =>
    obtain ⟨u,set,same⟩ := except_map_ok h
    cases same
    exact updateState_row (setState_ok set).2 id
  | updateState id' src dst =>
    obtain ⟨u,set,same⟩ := except_map_ok h
    cases same
    exact updateState_row set id
  | markSenderCompleted id' =>
    obtain ⟨r,found,role,state⟩ := markSenderCompleted_ok h
    simp only [Write.run,markSenderCompleted] at h
    split at h
    · cases h
      exact updated_row s.transfers id' id fun _ => by rfl
    · rename_i unaffected
      split at h
      · cases h
        rw [Write.onRow]
        split
        · rename_i same
          have misses : (decide (r.role = .sender) && r.state.resumable) = false := by
            rw [← Bool.not_eq_true]
            intro holds
            exact unaffected (by rw [Table.affects_key]; simp [show s.transfers.find id' = some r from found,holds])
          rw [same,found,Option.map_some,misses]
          exact found
        · rfl
      · cases h
  | finalizeSenderAuthorization id' blobTicket handle =>
    obtain ⟨u,ok,same⟩ := except_map_ok h
    cases same
    unfold finalizeSenderAuthorizationAndEnqueue at ok
    dsimp only at ok
    split at ok
    · cases ok
      exact updated_row s.transfers id' id fun _ => by rfl
    · cases ok
  | persistReceiverAuthorization auth handle =>
    obtain ⟨u,ok,same⟩ := except_map_ok h
    cases same
    obtain ⟨_,_,transfers,ins,rfl⟩ := persistReceiver_ok ok
    exact inserted_row ins id
  | cancelByPeer peer =>
    cases Except.ok.inj h
    exact Table.find_updateWhere s.transfers _ _ (fun _ => by rfl) id
  | completeReceiver id' bytes =>
    obtain ⟨u,ok,same⟩ := except_map_ok h
    cases same
    unfold completeReceiverAndEnqueue at ok
    dsimp only at ok
    split at ok
    · cases ok
      exact updated_row s.transfers id' id fun _ => by rfl
    · cases ok
  | advanceVerifiedBytes id' bytes =>
    cases Except.ok.inj h
    exact updated_row s.transfers id' id fun _ => by rfl
  | clearAuthorization id' =>
    cases Except.ok.inj h
    have all := Table.find_updateKey s.transfers id' (fun _ => true)
      (fun r => { r with blobTicket := none, authorizationSecretHandle := none }) (fun _ => rfl) id
    simp only [Bool.and_true] at all
    exact all.trans (by rw [Write.onRow]; split <;> simp_all [getRow])
  | transitionTerminal id' dst clear =>
    simp only [Write.run,transitionTerminal] at h
    split at h
    · cases h
      have kept : (s.clearForTerminal id' clear).transfers = s.transfers := by cases clear <;> rfl
      exact (updated_row (s.clearForTerminal id' clear).transfers id' id fun _ => by rfl).trans (by rw [kept]; rfl)
    · cases h
  | persistAcceptedOfferIntent offer =>
    obtain ⟨u,ok,same⟩ := except_map_ok h
    cases same
    unfold persistAcceptedOfferIntent at ok
    dsimp only at ok
    split at ok
    · cases ok; rfl
    · split at ok
      · cases ok; rfl
      · cases ok
  | _ => cases Except.ok.inj h; rfl

/-- The intent under `id` after a statement is what `onIntent` says. -/
theorem run_intent {w : Write} (h : w.run s now = .ok (changed,t)) (id : TransferId) :
    t.intents.find id = w.onIntent now id (s.intents.find id) := by
  cases w with
  | persistAcceptedOfferIntent offer =>
    obtain ⟨u,ok,same⟩ := except_map_ok h
    cases same
    unfold persistAcceptedOfferIntent at ok
    dsimp only at ok
    rw [Write.onIntent]
    split at ok
    · rename_i intents inserted
      cases ok
      have absent : s.intents.find offer.transferId = none :=
        Table.insert_isSome.mp (show (s.intents.insert (intentOf offer now)).isSome from by rw [inserted]; rfl)
      rw [Table.find_insert inserted]
      by_cases here : id = offer.transferId
      · simp [here,absent,intentOf]
      · simp [here,intentOf]
    · split at ok
      · rename_i affected
        cases ok
        rw [Table.affects_key] at affected
        obtain ⟨i,found,agrees⟩ := Option.any_eq_true _ _ |>.mp affected
        refine (Table.find_updateKey s.intents offer.transferId _ _ (fun _ => by rfl) id).trans ?_
        by_cases here : id = offer.transferId
        · simp [here,found,agrees]
        · simp [here]
      · cases ok
  | persistReceiverAuthorization auth handle =>
    obtain ⟨u,ok,same⟩ := except_map_ok h
    cases same
    obtain ⟨_,_,transfers,_,rfl⟩ := persistReceiver_ok ok
    exact Table.find_delete s.intents auth.transferId id
  | clearAcceptedOfferIntent id' =>
    cases Except.ok.inj h
    exact Table.find_delete s.intents id' id
  | clearAcceptedIntentIfSender id' sender =>
    cases Except.ok.inj h
    refine (Table.find_deleteWhere s.intents _ id).trans ?_
    rw [Write.onIntent]
    cases found : s.intents.find id with
    | none => simp
    | some i => by_cases here : id = id' <;> simp [Option.filter,Table.find_key found,here]
  | cancelByPeer peer =>
    cases Except.ok.inj h
    exact Table.find_deleteWhere s.intents _ id
  | transitionTerminal id' dst clear =>
    simp only [Write.run,transitionTerminal] at h
    split at h
    · cases h
      have cleared : (s.clearForTerminal id' clear).intents = s.intents.delete id' := by
        cases clear <;> rfl
      exact (congrArg (·.find id) cleared).trans (Table.find_delete s.intents id' id)
    · cases h
  | insert new =>
    obtain ⟨u,inserted,same⟩ := except_map_ok h
    cases same
    obtain ⟨_,transfers,_,rfl⟩ := insert_ok inserted
    rfl
  | setState id' src dst =>
    obtain ⟨u,set,same⟩ := except_map_ok h
    cases same
    obtain ⟨_,rfl⟩ := updateState_ok (setState_ok set).2
    rfl
  | updateState id' src dst =>
    obtain ⟨u,set,same⟩ := except_map_ok h
    cases same
    obtain ⟨_,rfl⟩ := updateState_ok set
    rfl
  | markSenderCompleted id' =>
    simp only [Write.run,markSenderCompleted] at h
    split at h
    · cases h; rfl
    · split at h <;> cases h
      rfl
  | finalizeSenderAuthorization id' blobTicket handle =>
    obtain ⟨u,ok,same⟩ := except_map_ok h
    cases same
    unfold finalizeSenderAuthorizationAndEnqueue at ok
    dsimp only at ok
    split at ok <;> cases ok
    rfl
  | completeReceiver id' bytes =>
    obtain ⟨u,ok,same⟩ := except_map_ok h
    cases same
    unfold completeReceiverAndEnqueue at ok
    dsimp only at ok
    split at ok <;> cases ok
    rfl
  | _ => cases Except.ok.inj h; rfl

/-! The outbox entries under `id` after a statement. -/

theorem isSome_delete {ρ : Type} {key : ρ → TransferId} (table : Table key) (id' id : TransferId) :
    ((table.delete id').find id).isSome = (!decide (id = id') && (table.find id).isSome) := by
  rw [Table.find_delete]
  by_cases same : id = id' <;> simp [same]

theorem isSome_insertOrIgnore {ρ : Type} {key : ρ → TransferId} (table : Table key) (r : ρ)
    (id : TransferId) :
    ((table.insertOrIgnore r).find id).isSome = (decide (id = key r) || (table.find id).isSome) := by
  rw [Table.find_insertOrIgnore]
  by_cases same : id = key r <;> simp [same]

theorem isSome_deleteWhere {ρ : Type} {key : ρ → TransferId} (table : Table key)
    (gone : TransferId → Bool) (id : TransferId) :
    ((table.deleteWhere fun e => gone (key e)).find id).isSome = (!gone id && (table.find id).isSome) := by
  rw [Table.find_deleteWhere]
  cases found : table.find id with
  | none => simp
  | some e =>
    have keyed := Table.find_key found
    cases h : gone id <;> simp [Option.filter,keyed,h]

theorem isSome_updateWhere {ρ : Type} {key : ρ → TransferId} (table : Table key) (p : ρ → Bool)
    (f : ρ → ρ) (keeps : ∀ r, key (f r) = key r) (id : TransferId) :
    ((table.updateWhere p f keeps).find id).isSome = (table.find id).isSome := by
  rw [Table.find_updateWhere,Option.isSome_map]

/-- The rows of one identifier that a statement restricted to another one selects. -/
theorem affects_same {q : TargetedTransferRow → Bool} (id' id : TransferId) :
    (s.transfers.affects fun r => decide (r.id = id) && (decide (r.id = id') && q r)) =
      (decide (id = id') && (s.getRow id).any q) := by
  rw [Table.affects_key]
  cases found : s.transfers.find id with
  | none => simp [getRow,found]
  | some r =>
    have keyed : r.id = id := Table.find_key found
    simp [getRow,found,keyed]

/-- An outbox after the rows of one identifier that meet `q` are deleted. -/
theorem isSome_deleted {ρ : Type} {key : ρ → TransferId} (table : Table key)
    (q : TargetedTransferRow → Bool) (id' id : TransferId) :
    ((table.deleteWhere fun e => s.transfers.affects fun r =>
        decide (r.id = key e) && (decide (r.id = id') && q r)).find id).isSome =
      (!(decide (id = id') && (s.getRow id).any q) && (table.find id).isSome) := by
  rw [← affects_same]
  exact isSome_deleteWhere table
    (fun id => s.transfers.affects fun r => decide (r.id = id) && (decide (r.id = id') && q r)) id

theorem run_plain {w : Write} (plain : w.plain = true) (h : w.run s now = .ok (changed,t)) :
    t.authorizationDelivery = s.authorizationDelivery ∧ t.completion = s.completion ∧
      t.payloadRelease = s.payloadRelease := by
  cases w with
  | insert new =>
    obtain ⟨u,inserted,same⟩ := except_map_ok h
    cases same
    obtain ⟨_,transfers,_,rfl⟩ := insert_ok inserted
    exact ⟨rfl,rfl,rfl⟩
  | setState id' src dst =>
    obtain ⟨u,set,same⟩ := except_map_ok h
    cases same
    obtain ⟨_,rfl⟩ := updateState_ok (setState_ok set).2
    exact ⟨rfl,rfl,rfl⟩
  | updateState id' src dst =>
    obtain ⟨u,set,same⟩ := except_map_ok h
    cases same
    obtain ⟨_,rfl⟩ := updateState_ok set
    exact ⟨rfl,rfl,rfl⟩
  | persistAcceptedOfferIntent offer =>
    obtain ⟨u,ok,same⟩ := except_map_ok h
    cases same
    unfold persistAcceptedOfferIntent at ok
    dsimp only at ok
    split at ok
    · cases ok
      exact ⟨rfl,rfl,rfl⟩
    · split at ok <;> cases ok
      exact ⟨rfl,rfl,rfl⟩
  | persistReceiverAuthorization auth handle =>
    obtain ⟨u,ok,same⟩ := except_map_ok h
    cases same
    obtain ⟨_,_,transfers,_,rfl⟩ := persistReceiver_ok ok
    exact ⟨rfl,rfl,rfl⟩
  | clearAcceptedOfferIntent | clearAcceptedIntentIfSender | advanceVerifiedBytes =>
    cases Except.ok.inj h
    exact ⟨rfl,rfl,rfl⟩
  | _ => cases plain

/-- The delivery entry under `id` after a statement is what `onDelivery` says. -/
theorem run_delivery {w : Write} (h : w.run s now = .ok (changed,t)) (id : TransferId) :
    (t.authorizationDelivery.find id).isSome =
      w.onDelivery id (s.getRow id) (s.authorizationDelivery.find id).isSome := by
  cases w with
  | abandonSenderPreapproval id' =>
    cases Except.ok.inj h
    exact isSome_deleted s.authorizationDelivery _ id' id
  | markSenderCompleted id' =>
    simp only [Write.run,markSenderCompleted] at h
    split at h
    · cases h
      exact isSome_delete s.authorizationDelivery id' id
    · split at h <;> cases h
      exact isSome_delete s.authorizationDelivery id' id
  | finalizeSenderAuthorization id' blobTicket handle =>
    obtain ⟨u,ok,same⟩ := except_map_ok h
    cases same
    unfold finalizeSenderAuthorizationAndEnqueue at ok
    dsimp only at ok
    split at ok <;> cases ok
    refine (isSome_insertOrIgnore (s.authorizationDelivery.delete id') _ id).trans ?_
    rw [isSome_delete,Write.onDelivery]
    by_cases here : id = id' <;> simp [here]
  | cancelByPeer peer =>
    cases Except.ok.inj h
    refine (isSome_deleteWhere s.authorizationDelivery
      (fun id => s.transfers.affects fun r => r.id = id && withPeer peer r) id).trans ?_
    rw [Table.affects_key]
    rfl
  | clearPendingAuthorizationDelivery id' | clearAuthorization id' =>
    cases Except.ok.inj h
    exact isSome_delete s.authorizationDelivery id' id
  | deferPendingAuthorizationDelivery id' next =>
    cases Except.ok.inj h
    exact isSome_updateWhere s.authorizationDelivery _ _ (fun _ => by rfl) id
  | completeReceiver id' bytes =>
    obtain ⟨u,ok,same⟩ := except_map_ok h
    cases same
    unfold completeReceiverAndEnqueue at ok
    dsimp only at ok
    split at ok <;> cases ok
    rfl
  | clearPendingCompletion | deferPendingCompletion | clearPendingPayloadRelease =>
    cases Except.ok.inj h
    rfl
  | transitionTerminal id' dst clear =>
    simp only [Write.run,transitionTerminal] at h
    split at h <;> cases h
    cases clear <;> exact isSome_delete s.authorizationDelivery id' id
  | _ =>
    rw [(run_plain rfl h).1]
    rfl

/-- The completion entry under `id` after a statement is what `onCompletion` says. -/
theorem run_completion {w : Write} (h : w.run s now = .ok (changed,t)) (id : TransferId) :
    (t.completion.find id).isSome = w.onCompletion id (s.getRow id) (s.completion.find id).isSome := by
  cases w with
  | abandonSenderPreapproval id' =>
    cases Except.ok.inj h
    exact isSome_deleted s.completion _ id' id
  | markSenderCompleted id' =>
    simp only [Write.run,markSenderCompleted] at h
    split at h
    · cases h; rfl
    · split at h <;> cases h
      rfl
  | finalizeSenderAuthorization id' blobTicket handle =>
    obtain ⟨u,ok,same⟩ := except_map_ok h
    cases same
    unfold finalizeSenderAuthorizationAndEnqueue at ok
    dsimp only at ok
    split at ok <;> cases ok
    rfl
  | completeReceiver id' bytes =>
    obtain ⟨u,ok,same⟩ := except_map_ok h
    cases same
    unfold completeReceiverAndEnqueue at ok
    dsimp only at ok
    split at ok <;> cases ok
    exact isSome_insertOrIgnore s.completion _ id
  | clearPendingCompletion id' | clearAuthorization id' =>
    cases Except.ok.inj h
    exact isSome_delete s.completion id' id
  | deferPendingCompletion id' next =>
    cases Except.ok.inj h
    exact isSome_updateWhere s.completion _ _ (fun _ => by rfl) id
  | cancelByPeer | clearPendingAuthorizationDelivery | deferPendingAuthorizationDelivery
  | clearPendingPayloadRelease =>
    cases Except.ok.inj h
    rfl
  | transitionTerminal id' dst clear =>
    simp only [Write.run,transitionTerminal] at h
    split at h <;> cases h
    cases clear with
    | false => simp [Write.onCompletion,clearForTerminal]
    | true =>
      refine (isSome_delete s.completion id' id).trans ?_
      simp [Write.onCompletion]
  | _ =>
    rw [(run_plain rfl h).2.1]
    rfl

/-- The release entry under `id` after a statement is what `onRelease` says. -/
theorem run_release {w : Write} (h : w.run s now = .ok (changed,t)) (id : TransferId) :
    (t.payloadRelease.find id).isSome = w.onRelease id (s.getRow id) (s.payloadRelease.find id).isSome := by
  cases w with
  | abandonSenderPreapproval id' =>
    cases Except.ok.inj h
    exact isSome_deleted s.payloadRelease _ id' id
  | markSenderCompleted id' =>
    simp only [Write.run,markSenderCompleted] at h
    rw [Write.onRelease]
    split at h
    · rename_i affected
      cases h
      obtain ⟨r,found,sends⟩ := affected_row affected
      refine (isSome_insertOrIgnore s.payloadRelease _ id).trans ?_
      by_cases here : id = id'
      · subst here
        simp [found,sends]
      · simp [here]
    · rename_i unaffected
      split at h <;> cases h
      have misses : (s.getRow id').any (fun r => decide (r.role = .sender) && r.state.resumable) = false := by
        rw [← Bool.not_eq_true]
        exact fun holds => unaffected (by rw [Table.affects_key]; exact holds)
      by_cases here : id = id'
      · subst here
        simp [misses]
      · simp [here]
  | finalizeSenderAuthorization id' blobTicket handle =>
    obtain ⟨u,ok,same⟩ := except_map_ok h
    cases same
    unfold finalizeSenderAuthorizationAndEnqueue at ok
    dsimp only at ok
    split at ok <;> cases ok
    rfl
  | completeReceiver id' bytes =>
    obtain ⟨u,ok,same⟩ := except_map_ok h
    cases same
    unfold completeReceiverAndEnqueue at ok
    dsimp only at ok
    split at ok <;> cases ok
    rfl
  | clearPendingPayloadRelease id' | clearAuthorization id' =>
    cases Except.ok.inj h
    exact isSome_delete s.payloadRelease id' id
  | cancelByPeer | clearPendingAuthorizationDelivery | deferPendingAuthorizationDelivery
  | clearPendingCompletion | deferPendingCompletion =>
    cases Except.ok.inj h
    rfl
  | transitionTerminal id' dst clear =>
    simp only [Write.run,transitionTerminal] at h
    split at h <;> cases h
    cases clear with
    | false => simp [Write.onRelease,clearForTerminal]
    | true =>
      refine (isSome_delete s.payloadRelease id' id).trans ?_
      simp [Write.onRelease]
  | _ =>
    rw [(run_plain rfl h).2.2]
    rfl

end Effects

/-- Only a statement changes the targeted tables. -/
theorem store_kept {l : Local} {d e : Device} {o : Op} {c : Choice} {a : Ans o}
    (performed : d.exec l c o = some (a,e)) :
    (∃ w, o = .write w) ∨ e.store = d.store := by
  by_cases read : Device.reads o = true
  · exact .inr (by rw [Device.exec_reads read performed])
  · cases o <;> try exact absurd rfl read
    case write w => exact .inl ⟨w,rfl⟩
    all_goals
      right
      simp only [Device.exec] at performed
      repeat' first
        | (cases performed; done)
        | (cases performed; rfl)
        | split at performed

/-- A receiver's row is never taken out of the table, nor given another role. -/
theorem receiver_stays {s t : Store} {w : Write} {now : Millis} {changed : Bool}
    (h : w.run s now = .ok (changed,t)) {id : TransferId} {r : TargetedTransferRow}
    (here : s.getRow id = some r) (role : r.role = .receiver) :
    ∃ r', t.getRow id = some r' ∧ r'.role = .receiver := by
  have after := run_getRow h id
  rw [here] at after
  cases w with
  | insert new =>
    obtain ⟨u,inserted,same⟩ := except_map_ok h
    cases same
    obtain ⟨absent,_⟩ := insert_ok inserted
    by_cases same : id = new.id
    · subst same
      rw [absent] at here
      cases here
    · exact ⟨r,after.trans (if_neg same),role⟩
  | abandonSenderPreapproval id' =>
    refine ⟨r,after.trans ?_,role⟩
    simp only [Write.onRow]
    split
    · simp [role]
    · rfl
  | persistReceiverAuthorization auth handle =>
    simp only [Write.onRow] at after
    split at after
    · exact ⟨_,after,rfl⟩
    · exact ⟨r,after,role⟩
  | setState | updateState | markSenderCompleted | finalizeSenderAuthorization | completeReceiver
    | advanceVerifiedBytes | clearAuthorization | transitionTerminal =>
    simp only [Write.onRow,Option.map_some] at after
    split at after
    · refine ⟨_,after,?_⟩
      first
        | exact role
        | (split <;> exact role)
    · exact ⟨r,after,role⟩
  | cancelByPeer =>
    simp only [Write.onRow,Option.map_some] at after
    refine ⟨_,after,?_⟩
    split <;> exact role
  | _ => exact ⟨r,after,role⟩

end Vnidrop.Targeted
