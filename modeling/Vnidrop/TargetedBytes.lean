import Vnidrop.TargetedOutboxRuns

/-! What a row keeps for as long as it exists: the columns that say which transfer it is
about, and the bytes already verified. -/
namespace Vnidrop.Targeted.Outbox

open Tables Programs Runs TargetedTransferState

/-- If there is a row before and after, it is about the same transfer, and no fewer bytes
are verified. -/
def Steady (before after : Option TargetedTransferRow) : Prop :=
  ∀ r r', before = some r → after = some r' → identity r' = identity r ∧ r.verifiedBytes ≤ r'.verifiedBytes

theorem Steady.refl (row : Option TargetedTransferRow) : Steady row row := by
  intro r r' here there
  cases here.symm.trans there
  exact ⟨rfl,Nat.le_refl _⟩

theorem Steady.of_eq {before after : Option TargetedTransferRow} (same : after = before) :
    Steady before after := same ▸ .refl before

section Statements

variable {now : Millis} {id : TransferId} {r r' : TargetedTransferRow}

/-- The statements that put a row where there is none. -/
def adds (id : TransferId) : Write → Bool
  | .insert new => id = new.id
  | .persistReceiverAuthorization auth _ => id = auth.transferId
  | _ => false

/-- A statement on a row that exists changes neither the transfer it is about nor, short of
its completion, takes verified bytes back. -/
theorem onRow_kept {w : Write} (there : w.onRow now id (some r) = some r') (old : adds id w = false)
    (bytes : r.verifiedBytes ≤ r.totalSize) :
    identity r' = identity r ∧ (r'.state = .completed ∨ r.verifiedBytes ≤ r'.verifiedBytes) := by
  have kept (same : r = r') : identity r' = identity r ∧
      (r'.state = .completed ∨ r.verifiedBytes ≤ r'.verifiedBytes) := by
    subst same
    exact ⟨rfl,.inr (Nat.le_refl _)⟩
  cases w with
  | insert new =>
    have other : id ≠ new.id := of_decide_eq_false old
    simp only [Write.onRow,other,if_false] at there
    exact kept (Option.some.inj there)
  | persistReceiverAuthorization auth handle =>
    have other : id ≠ auth.transferId := of_decide_eq_false old
    simp only [Write.onRow,other,if_false] at there
    exact kept (Option.some.inj there)
  | abandonSenderPreapproval id' =>
    simp only [Write.onRow] at there
    split at there
    · simp only [Option.filter] at there
      split at there
      · exact kept (Option.some.inj there)
      · cases there
    · exact kept (Option.some.inj there)
  | advanceVerifiedBytes id' bytes' =>
    simp only [Write.onRow,Option.map_some] at there
    split at there
    · cases there
      split
      · exact ⟨rfl,.inr (Nat.le_min.mpr ⟨bytes,Nat.le_max_left ..⟩)⟩
      · exact ⟨rfl,.inr (Nat.le_refl _)⟩
    · exact kept (Option.some.inj there)
  | completeReceiver id' bytes' =>
    simp only [Write.onRow,Option.map_some] at there
    split at there
    · cases there
      split
      · exact ⟨rfl,.inl rfl⟩
      · exact ⟨rfl,.inr (Nat.le_refl _)⟩
    · exact kept (Option.some.inj there)
  | markSenderCompleted id' =>
    simp only [Write.onRow,Option.map_some] at there
    split at there
    · cases there
      split
      · exact ⟨rfl,.inl rfl⟩
      · exact ⟨rfl,.inr (Nat.le_refl _)⟩
    · exact kept (Option.some.inj there)
  | cancelByPeer peer =>
    simp only [Write.onRow,Option.map_some] at there
    cases there
    split <;> exact ⟨rfl,.inr (Nat.le_refl _)⟩
  | clearAuthorization id' =>
    simp only [Write.onRow,Option.map_some] at there
    split at there <;> cases there <;> exact ⟨rfl,.inr (Nat.le_refl _)⟩
  | setState | updateState | finalizeSenderAuthorization | transitionTerminal =>
    simp only [Write.onRow,Option.map_some] at there
    split at there
    · cases there
      split <;> exact ⟨rfl,.inr (Nat.le_refl _)⟩
    · exact kept (Option.some.inj there)
  | persistAcceptedOfferIntent | clearAcceptedOfferIntent | clearAcceptedIntentIfSender
  | deferPendingAuthorizationDelivery | deferPendingCompletion | clearPendingAuthorizationDelivery
  | clearPendingCompletion | clearPendingPayloadRelease =>
    exact kept (Option.some.inj there)

/-- A statement that adds a row has found none. -/
theorem run_adds {s t : Store} {w : Write} {changed : Bool} (ran : w.run s now = .ok (changed,t))
    (added : adds id w = true) : s.getRow id = none := by
  cases w with
  | insert new =>
    obtain ⟨u,done,_⟩ := except_map_ok ran
    rw [of_decide_eq_true added]
    exact (insert_ok done).1
  | persistReceiverAuthorization auth handle =>
    obtain ⟨u,done,_⟩ := except_map_ok ran
    rw [of_decide_eq_true added]
    exact (persistReceiver_ok done).1
  | _ => cases added

theorem steady_failed (store : Store) (id' : TransferId) :
    Steady (store.getRow id) ((store.failResumableAndClearDelivery id' now).2.getRow id) := by
  unfold Store.failResumableAndClearDelivery
  dsimp only
  split
  · have row := updated_row (q := fun r => r.state.resumable)
      (f := fun r => { r with state := .failed, updatedAt := now }) store.transfers id' id fun _ => rfl
    intro r r' here there
    rw [show store.transfers.find id = some r from here,Option.map_some] at row
    have same := row.symm.trans there
    split at same
    · cases same
      split <;> exact ⟨rfl,Nat.le_refl _⟩
    · cases same
      exact ⟨rfl,Nat.le_refl _⟩
  · exact .refl _

theorem steady_updated (store : Store) (p : TargetedTransferRow → Bool)
    (f : TargetedTransferRow → TargetedTransferRow)
    (same : ∀ r, identity (f r) = identity r ∧ (f r).verifiedBytes = r.verifiedBytes) :
    Steady (store.getRow id) ((store.transfers.updateWhere p f fun r => congrArg Identity.id (same r).1).find id) := by
  have row := Table.find_updateWhere store.transfers p f (fun r => congrArg Identity.id (same r).1) id
  intro r r' here there
  rw [show store.transfers.find id = some r from here,Option.map_some] at row
  cases row.symm.trans there
  split
  · exact ⟨(same r).1,Nat.le_of_eq (same r).2.symm⟩
  · exact ⟨rfl,Nat.le_refl _⟩

end Statements

section Bytes

variable {l : Local} {c d : Conf State RuntimeCall RuntimeOp RuntimeAns} {id : TransferId}

theorem steady_exec {s t : State} {i : Nat} {call : RuntimeCall} {o : RuntimeOp} {e : RuntimeChoice}
    {r : RuntimeAns o} (inv : Inv l s) (inv' : Inv l t) (h : (machine l).exec s i call o e = some (r,t)) :
    Steady (row s id) (row t id) := by
  by_cases is : calm o = true
  · obtain ⟨rt,ran,rfl⟩ := exec_machine h
    exact .of_eq (congrArg (·.getRow id) (exec_calm is ran).1)
  cases o with
  | failResumable id' =>
    obtain ⟨rt,ran,rfl⟩ := exec_machine h
    simp only [Runtime.exec] at ran
    split at ran
    · cases ran
      exact .refl _
    · cases ran
      exact steady_failed _ _
  | targeted o =>
    cases o with
    | drawTransferId =>
      obtain ⟨d,performed,rfl⟩ := exec_targeted h
      simp only [Device.exec] at performed
      split at performed
      · cases performed
      · cases performed
        exact .refl _
    | write w =>
      rcases exec_write h with ⟨_,_,rfl⟩ | ⟨changed,store,wrote,_,rfl⟩
      · exact .refl _
      intro r r' here there
      have old : adds id w = false := by
        by_contra added
        cases (run_adds wrote (by simpa using added)).symm.trans here
      have moved := (run_getRow wrote id).symm.trans there
      rw [show s.state.device.store.getRow id = some r from here] at moved
      obtain ⟨same,done | more⟩ := onRow_kept moved old ((inv.cells id).row r here).bytes
      · refine ⟨same,?_⟩
        rw [((inv'.cells id).row r' there).complete done,
          show r'.totalSize = r.totalSize from congrArg Identity.totalSize same]
        exact ((inv.cells id).row r here).bytes
      · exact ⟨same,more⟩
    | _ => exact absurd rfl is
  | _ => exact absurd rfl is

theorem steady_event (s : Runtime) (e : Event) :
    Steady (s.device.store.getRow id) ((happen s e).device.store.getRow id) := by
  cases e with
  | housekeeping e =>
    cases e with
    | markInterruptedInFlight now =>
      exact steady_updated s.device.store (fun r => r.state = .connecting || r.state = .transferring)
        (fun r => { r with state := .interrupted, updatedAt := now }) fun _ => ⟨rfl,rfl⟩
    | failSenderPreapproval now =>
      exact steady_updated s.device.store Store.senderPreapproval
        (fun r => { r with state := .failed, updatedAt := now }) fun _ => ⟨rfl,rfl⟩
    | resetIdentity now =>
      exact steady_updated s.device.store (fun _ => true) (fun r => { r with
        state := if r.state.terminal then r.state else .cancelled
        blobTicket := none
        authorizationSecretHandle := none
        updatedAt := if !r.state.terminal || r.blobTicket.isSome || r.authorizationSecretHandle.isSome
          then now else r.updatedAt }) fun _ => ⟨rfl,rfl⟩
  | restart => exact .refl _

theorem steady_next (id : TransferId) {a : Label RuntimeCall RuntimeChoice Event} (inv : Inv l c.shared)
    (inv' : Inv l d.shared) (h : (machine l).next c a = some d) :
    Steady (row c.shared id) (row d.shared id) := by
  rcases next_cases h with ⟨call,rfl,_,rfl⟩ | ⟨i,choice,call,op,k,r,s,rfl,_,performed,rfl⟩ |
    ⟨e,s,rfl,moved,rfl⟩
  · exact .refl _
  · exact steady_exec inv inv' performed
  · cases moved
    exact steady_event _ _

/-- The steps that the row is still there before. -/
def Present (l : Local) (id : TransferId) (c : Conf State RuntimeCall RuntimeOp RuntimeAns)
    (a : Label RuntimeCall RuntimeChoice Event) : Prop := (guard l).holds c a ∧ (row c.shared id).isSome

/-- However a run goes on from a reached state, restarts included: while there is a row it
stays about the same transfer, its verified bytes only grow, up to the size of the transfer,
which they are when it is completed. -/
theorem bytes_grow {labels : List (Label RuntimeCall RuntimeChoice Event)}
    (reach : Reach (machine l).system (guard l).holds c)
    (meets : (machine l).system.Meets (Present l id) c labels)
    (ran : (machine l).system.run c labels = some d) {r r' : TargetedTransferRow}
    (here : row c.shared id = some r) (there : row d.shared id = some r') :
    identity r' = identity r ∧ r.verifiedBytes ≤ r'.verifiedBytes ∧ r'.verifiedBytes ≤ r'.totalSize ∧
      (r'.state = .completed → r'.verifiedBytes = r'.totalSize) := by
  induction labels generalizing c r with
  | nil =>
    cases ran
    have ok := ((reach_secured reach).inv.cells id).row r here
    cases here.symm.trans there
    exact ⟨rfl,Nat.le_refl _,ok.bytes,ok.complete⟩
  | cons a labels ih =>
    simp only [System.run,Option.bind_eq_some_iff] at ran
    obtain ⟨e,stepped,ran⟩ := ran
    have reach' := reach.advance a meets.1.1 stepped
    have steady := steady_next id (reach_secured reach).inv (reach_secured reach').inv stepped
    cases middle : row e.shared id with
    | none =>
      cases labels with
      | nil =>
        cases ran
        cases middle.symm.trans there
      | cons b labels =>
        have present := (meets.2 e stepped).1.2
        rw [middle] at present
        cases present
    | some r₁ =>
      obtain ⟨same,more⟩ := steady r r₁ here middle
      obtain ⟨same',more',rest⟩ := ih reach' (meets.2 e stepped) ran middle
      exact ⟨same'.trans same,Nat.le_trans more more',rest⟩

end Bytes

namespace Sample

/-- Device 2 reports that it has the transfer. -/
def completing : List (Label RuntimeCall RuntimeChoice Event) :=
  .fork (.targeted (.completed 2 ⟨7,1,some ⟨7,7,1,2,3,3,1,1,1,5,4,7⟩⟩)) ::
    List.replicate 4 (proceed 2 true .stored)

def completed : Conf State RuntimeCall RuntimeOp RuntimeAns :=
  ((machine Targeted.Sample.sender).system.run delivered completing).getD start

end Sample

instance (l : Local) (id : TransferId) (c : Conf State RuntimeCall RuntimeOp RuntimeAns)
    (a : Label RuntimeCall RuntimeChoice Event) : Decidable (Present l id c a) :=
  inferInstanceAs (Decidable (_ ∧ _))

/-- The report takes the verified bytes of transfer 7 from 0 to 1, its size. -/
theorem bytes_reported : ∃ r r', row Sample.delivered.shared 7 = some r ∧
    row Sample.completed.shared 7 = some r' ∧ r.verifiedBytes = 0 ∧ r'.verifiedBytes = 1 ∧
    identity r' = identity r ∧ r'.verifiedBytes = r'.totalSize :=
  have present : (machine Targeted.Sample.sender).system.Meets (Present Targeted.Sample.sender 7)
    Sample.delivered Sample.completing := by decide
  have grown := bytes_grow Sample.delivered_reached present
    (show _ = some Sample.completed from rfl) rfl rfl
  ⟨_,_,rfl,rfl,rfl,rfl,grown.1,grown.2.2.2 rfl⟩

end Vnidrop.Targeted.Outbox
