import Vnidrop.TargetedCalls

/-! Which kinds of operations the targeted-transfer calls can come to. A property that a
kind keeps is kept by every program without the other kinds. -/
namespace Vnidrop.Targeted

open Programs

inductive Kind where
  | ask
  | getRow
  | insert
  | abandonSenderPreapproval
  | setState
  | updateState
  | markSenderCompleted
  | finalizeSenderAuthorization
  | persistAcceptedOfferIntent
  | persistReceiverAuthorization
  | clearAcceptedOfferIntent
  | clearAcceptedIntentIfSender
  | cancelByPeer
  | completeReceiver
  | advanceVerifiedBytes
  | clearPendingAuthorizationDelivery
  | deferPendingAuthorizationDelivery
  | clearPendingCompletion
  | deferPendingCompletion
  | clearPendingPayloadRelease
  | clearAuthorization
  | transitionTerminal
  | listing
  | protect
  | load
  | remove
  | generateSecret
  | drawTransferId
  | registered
  | setTag
  | deleteTag
  | registerShareHashes
  | unregisterTransferHashes
  | setMode
  | approveEndpoint
  | removeMode
  | removeSessions
  | activate
  | deactivate
  | settled
  | examine
  | enqueue
  | openDecision
  | subscribe
  | awaitDecision
  | getPending
  | dropPending
  | dropDecision
  | dropAuth
  | decisionOf
  | sendDecision
  | openAuth
  | subscribeAuth
  | awaitAuth
  | leaveAuth
  | sendAuthorization
  | settle
  | download
  | now
  | send
  | await
  | answer
  | stopped
  deriving DecidableEq, Repr

def Write.kind : Write → Kind
  | .insert _ => .insert
  | .abandonSenderPreapproval _ => .abandonSenderPreapproval
  | .setState .. => .setState
  | .updateState .. => .updateState
  | .markSenderCompleted _ => .markSenderCompleted
  | .finalizeSenderAuthorization .. => .finalizeSenderAuthorization
  | .persistAcceptedOfferIntent _ => .persistAcceptedOfferIntent
  | .persistReceiverAuthorization .. => .persistReceiverAuthorization
  | .clearAcceptedOfferIntent _ => .clearAcceptedOfferIntent
  | .clearAcceptedIntentIfSender .. => .clearAcceptedIntentIfSender
  | .cancelByPeer _ => .cancelByPeer
  | .completeReceiver .. => .completeReceiver
  | .advanceVerifiedBytes .. => .advanceVerifiedBytes
  | .clearPendingAuthorizationDelivery _ => .clearPendingAuthorizationDelivery
  | .deferPendingAuthorizationDelivery .. => .deferPendingAuthorizationDelivery
  | .clearPendingCompletion _ => .clearPendingCompletion
  | .deferPendingCompletion .. => .deferPendingCompletion
  | .clearPendingPayloadRelease _ => .clearPendingPayloadRelease
  | .clearAuthorization _ => .clearAuthorization
  | .transitionTerminal .. => .transitionTerminal

def Op.kind : Op → Kind
  | .ask _ => .ask
  | .getRow _ => .getRow
  | .write w => w.kind
  | .pendingCompletion | .pendingAuthorizationDelivery => .listing
  | .completedSenderRows | .idsForPeer _ | .pendingFrom _ => .listing
  | .protect _ => .protect
  | .load _ => .load
  | .remove _ => .remove
  | .generateSecret => .generateSecret
  | .drawTransferId => .drawTransferId
  | .registered _ => .registered
  | .setTag .. => .setTag
  | .deleteTag _ => .deleteTag
  | .registerShareHashes .. => .registerShareHashes
  | .unregisterTransferHashes _ => .unregisterTransferHashes
  | .setMode _ => .setMode
  | .approveEndpoint .. => .approveEndpoint
  | .removeMode _ => .removeMode
  | .removeSessions _ => .removeSessions
  | .activate _ => .activate
  | .deactivate _ => .deactivate
  | .settled _ => .settled
  | .examine _ => .examine
  | .enqueue _ => .enqueue
  | .openDecision _ => .openDecision
  | .subscribe _ => .subscribe
  | .awaitDecision _ => .awaitDecision
  | .getPending _ => .getPending
  | .dropPending _ => .dropPending
  | .dropDecision _ => .dropDecision
  | .dropAuth _ => .dropAuth
  | .decisionOf _ => .decisionOf
  | .sendDecision .. => .sendDecision
  | .openAuth _ => .openAuth
  | .subscribeAuth _ => .subscribeAuth
  | .awaitAuth _ => .awaitAuth
  | .leaveAuth _ => .leaveAuth
  | .sendAuthorization .. => .sendAuthorization
  | .settle .. => .settle
  | .download => .download
  | .now => .now
  | .send .. => .send
  | .await .. => .await
  | .answer .. => .answer
  | .stopped .. => .stopped

abbrev Uses {α : Type} (kinds : List Kind) (p : Task α) : Prop :=
  p.All fun o => kinds.contains o.kind = true

/-- The program comes to no operation of these kinds. -/
abbrev Avoids {α : Type} (kinds : List Kind) (p : Task α) : Prop :=
  p.All fun o => kinds.contains o.kind = false

section Uses

variable {α : Type} {l : Local} {id : TransferId} {peer : EndpointId}

theorem Uses.all {kinds : List Kind} {p : Task α} {ok : Op → Prop} (uses : Uses kinds p)
    (fine : ∀ o, kinds.contains o.kind = true → ok o) : p.All ok := by
  induction p with
  | ret a => trivial
  | step o k ih => exact ⟨fine o uses.1,fun r => ih r (uses.2 r)⟩

theorem Uses.mono {few many : List Kind} {p : Task α} (uses : Uses few p)
    (subset : ∀ k ∈ few, k ∈ many) : Uses many p :=
  uses.all fun _ used => List.contains_iff_mem.mpr (subset _ (List.contains_iff_mem.mp used))

theorem Uses.avoids {kinds others : List Kind} {p : Task α} (uses : Uses kinds p)
    (apart : (kinds.all fun k => !others.contains k) = true) : Avoids others p :=
  uses.all fun _ used => Bool.not_eq_true' _ ▸
    List.all_eq_true.mp apart _ (List.contains_iff_mem.mp used)

theorem uses_op {kinds : List Kind} {o : Op} (used : kinds.contains o.kind = true) :
    Uses kinds (op o) := Prog.all_perform used

/-! Provider and secrets. -/

abbrev tears : List Kind := [.unregisterTransferHashes,.removeMode,.removeSessions,.deleteTag]

theorem tryTeardown_uses (protocolId : Nat) : Uses tears (tryTeardownTargetedPayload protocolId id) :=
  Prog.all_bind (uses_op rfl) fun _ => Prog.all_bind (uses_op rfl) fun _ =>
    Prog.all_bind (uses_op rfl) fun _ => uses_op rfl

theorem teardown_uses (protocolId : Nat) : Uses tears (teardownTargetedPayload protocolId id) :=
  Prog.all_bind (tryTeardown_uses protocolId) fun _ => trivial

abbrev releases : List Kind := [.remove,.clearAuthorization]

theorem releaseSecret_uses (row : TargetedTransferRow) : Uses releases (releaseSecret row) := by
  cases held : row.authorizationSecretHandle with
  | none =>
    unfold releaseSecret
    rw [held]
    trivial
  | some handle =>
    rw [releaseSecret_held held]
    refine Prog.all_bind (uses_op rfl) fun removed => ?_
    cases removed with
    | false => trivial
    | true =>
      refine Prog.all_bind (uses_op rfl) fun answer => ?_
      cases answer <;> trivial

abbrev cleans : List Kind := .deactivate :: tears ++ releases

theorem cleanup_uses (row : TargetedTransferRow) : Uses cleans (cleanup row) := by
  refine Prog.all_bind (uses_op rfl) fun _ => Prog.all_bind (uses_op rfl) fun _ =>
    Prog.all_bind (uses_op rfl) fun _ => Prog.all_bind (uses_op rfl) fun _ => ?_
  by_cases sends : row.role = .sender
  · rw [if_pos sends]
    refine Prog.all_bind (uses_op rfl) fun deleted => ?_
    cases deleted with
    | false => trivial
    | true => exact (releaseSecret_uses row).mono (by decide)
  · rw [if_neg sends]
    exact (releaseSecret_uses row).mono (by decide)

theorem loadAuthorization_uses (row : TargetedTransferRow) : Uses [.load] (loadAuthorization l row) := by
  unfold loadAuthorization
  split
  · refine Prog.all_bind (uses_op rfl) fun material => ?_
    cases material <;> trivial
  · trivial

theorem request_uses (r : Request) : Uses [.send,.await] (request peer r) :=
  Prog.all_bind (uses_op rfl) fun _ => uses_op rfl

/-! The inbox. -/

abbrev discards : List Kind := [.dropPending,.dropDecision,.dropAuth]

theorem discard_uses : Uses discards (discard id) :=
  Prog.all_bind (uses_op rfl) fun _ => Prog.all_bind (uses_op rfl) fun _ => uses_op rfl

theorem discardEach_uses (ids : List TransferId) : Uses discards (discardEach ids) := by
  induction ids with
  | nil => trivial
  | cons id ids ih => exact Prog.all_bind discard_uses fun _ => ih

abbrev waitsForDecision : List Kind := .subscribe :: .awaitDecision :: discards

theorem waitExistingDecision_uses : Uses waitsForDecision (waitExistingDecision id) := by
  refine Prog.all_bind (uses_op rfl) fun found => ?_
  cases found with
  | error decision => trivial
  | ok channel =>
    refine Prog.all_bind (uses_op rfl) fun seen => ?_
    rcases seen with (_ | _) | _ | _
    · exact Prog.all_bind (discard_uses.mono (by decide)) fun _ => trivial
    · trivial
    · exact Prog.all_bind (discard_uses.mono (by decide)) fun _ => trivial
    · exact Prog.all_bind (discard_uses.mono (by decide)) fun _ => trivial

abbrev submits : List Kind :=
  .ask :: .settled :: .examine :: .enqueue :: .openDecision :: waitsForDecision

theorem submit_uses (offer : PendingTargetedOffer) : Uses submits (submit offer) := by
  unfold submit
  repeat' first
    | exact trivial
    | exact uses_op rfl
    | exact waitExistingDecision_uses.mono (by decide)
    | refine Prog.all_bind ?_ fun _ => ?_
    | split

abbrev accepts : List Kind := [.decisionOf,.openAuth,.sendDecision,.leaveAuth,.dropAuth]

theorem acceptLive_uses : Uses accepts (acceptLive id) := by
  unfold acceptLive
  repeat' first
    | exact trivial
    | exact uses_op rfl
    | refine Prog.all_bind ?_ fun _ => ?_
    | split

abbrev waitsForAuthorization : List Kind :=
  [.settled,.subscribeAuth,.awaitAuth,.dropPending,.dropAuth,.settle,.leaveAuth]

theorem waitForAuthorization_uses : Uses waitsForAuthorization (waitForAuthorization id) := by
  unfold waitForAuthorization
  repeat' first
    | exact trivial
    | exact uses_op rfl
    | refine Prog.all_bind ?_ fun _ => ?_
    | split

abbrev responds : List Kind := .getPending :: .dropDecision :: accepts ++ waitsForAuthorization

theorem respond_uses (accepted : Bool) : Uses responds (respond id accepted) := by
  unfold respond
  repeat' first
    | exact trivial
    | exact uses_op rfl
    | exact acceptLive_uses.mono (by decide)
    | exact waitForAuthorization_uses.mono (by decide)
    | exact discard_uses.mono (by decide)
    | refine Prog.all_bind ?_ fun _ => ?_
    | split

theorem deliverAuthorization_uses (auth : TargetedAuthorization) :
    Uses [.settled,.sendAuthorization] (deliverAuthorization id auth) := by
  refine Prog.all_bind (uses_op rfl) fun settled => ?_
  split
  · trivial
  · exact uses_op rfl

/-! Handlers. -/

theorem promptOffer_uses (remote : EndpointId) (offer : SubmitTargetedOffer) :
    Uses (.now :: submits) (promptOffer l remote offer) := by
  unfold promptOffer
  repeat' first
    | exact trivial
    | exact uses_op rfl
    | exact (submit_uses _).mono (by decide)
    | refine Prog.all_bind ?_ fun _ => ?_
    | split

theorem handleOffer_uses (remote : EndpointId) (offer : SubmitTargetedOffer) :
    Uses (.getRow :: .now :: submits) (handleOffer l remote offer) := by
  unfold handleOffer
  repeat' first
    | exact trivial
    | exact uses_op rfl
    | exact (promptOffer_uses _ _).mono (by decide)
    | refine Prog.all_bind ?_ fun _ => ?_
    | split

abbrev stores : List Kind := [.getRow,.load,.ask,.protect,.persistReceiverAuthorization,.remove]

theorem persistReceiver_uses (auth : TargetedAuthorization) : Uses stores (persistReceiver auth) := by
  unfold persistReceiver redeliverReceiver storeReceiver write
  repeat' first
    | exact trivial
    | exact uses_op rfl
    | refine Prog.all_bind ?_ fun _ => ?_
    | split

theorem handleAuthorization_uses (remote : EndpointId) (delivery : DeliverTargetedAuthorization) :
    Uses (.settled :: .sendAuthorization :: stores) (handleAuthorization l remote delivery) := by
  unfold handleAuthorization
  repeat' first
    | exact trivial
    | exact uses_op rfl
    | exact (persistReceiver_uses _).mono (by decide)
    | exact (deliverAuthorization_uses _).mono (by decide)
    | refine Prog.all_bind ?_ fun _ => ?_
    | split

abbrev terminates : List Kind := .transitionTerminal :: cleans

theorem cancelRow_uses (row : TargetedTransferRow) : Uses terminates (cancelRow row) := by
  unfold cancelRow write
  repeat' first
    | exact trivial
    | exact uses_op rfl
    | exact (cleanup_uses _).mono (by decide)
    | refine Prog.all_bind ?_ fun _ => ?_
    | split

theorem cancelFromPeer_uses (remote : EndpointId) :
    Uses (.getRow :: .clearAcceptedIntentIfSender :: terminates) (cancelFromPeer remote id) := by
  unfold cancelFromPeer write
  repeat' first
    | exact trivial
    | exact uses_op rfl
    | exact (cancelRow_uses _).mono (by decide)
    | refine Prog.all_bind ?_ fun _ => ?_
    | split

theorem cancelPending_uses (remote : EndpointId) (pending : PendingTargetedOffer) :
    Uses (.clearAcceptedOfferIntent :: discards) (cancelPending remote pending id) := by
  unfold cancelPending write
  repeat' first
    | exact trivial
    | exact uses_op rfl
    | exact discard_uses.mono (by decide)
    | refine Prog.all_bind ?_ fun _ => ?_
    | split

theorem handleCompletion_uses (remote : EndpointId) (completion : CompleteTargetedTransfer) :
    Uses [.ask,.getRow,.markSenderCompleted] (handleCompletion l remote completion) := by
  unfold handleCompletion write
  repeat' first
    | exact trivial
    | exact uses_op rfl
    | refine Prog.all_bind ?_ fun _ => ?_
    | split

/-! Calls of the local user. -/

theorem alreadySettled_uses : Uses [.settled,.getRow,.load] (alreadySettled l id) := by
  unfold alreadySettled
  repeat' first
    | exact trivial
    | exact uses_op rfl
    | exact (loadAuthorization_uses _).mono (by decide)
    | refine Prog.all_bind ?_ fun _ => ?_
    | split

theorem acceptOffer_uses : Uses [.getPending,.persistAcceptedOfferIntent] (acceptOffer id) := by
  unfold acceptOffer write
  repeat' first
    | exact trivial
    | exact uses_op rfl
    | refine Prog.all_bind ?_ fun _ => ?_
    | split

theorem respondOutcome_uses (outcome : Except RespondError (Option TargetedAuthorization)) :
    Uses [.getRow,.clearAcceptedOfferIntent] (respondOutcome id outcome) := by
  unfold respondOutcome write
  repeat' first
    | exact trivial
    | exact uses_op rfl
    | refine Prog.all_bind ?_ fun _ => ?_
    | split

abbrev decides : List Kind :=
  .getRow :: .load :: .persistAcceptedOfferIntent :: .clearAcceptedOfferIntent :: responds

theorem respondToTargetedOffer_uses (accepted : Bool) :
    Uses decides (respondToTargetedOffer l id accepted) := by
  unfold respondToTargetedOffer
  repeat' first
    | exact trivial
    | exact alreadySettled_uses.mono (by decide)
    | exact acceptOffer_uses.mono (by decide)
    | exact (respond_uses _).mono (by decide)
    | exact (respondOutcome_uses _).mono (by decide)
    | refine Prog.all_bind ?_ fun _ => ?_
    | split

theorem terminateLocal_uses (state : TargetedTransferState) :
    Uses (.getRow :: .clearAcceptedOfferIntent :: terminates ++ discards) (terminateLocal id state) := by
  unfold terminateLocal write
  repeat' first
    | exact trivial
    | exact uses_op rfl
    | exact discard_uses.mono (by decide)
    | exact (cleanup_uses _).mono (by decide)
    | refine Prog.all_bind ?_ fun _ => ?_
    | split

abbrev notifies : List Kind := [.ask,.send,.await]

theorem notifyCancel_uses (terminal : Option TargetedTransferState) :
    Uses notifies (notifyCancel peer id terminal) := by
  refine Prog.all_bind (uses_op rfl) fun reachable => ?_
  cases reachable with
  | false => trivial
  | true => exact Prog.all_bind ((request_uses _).mono (by decide)) fun _ => trivial

theorem rowsOf_uses (ids : List TransferId) : Uses [.getRow] (rowsOf ids) := by
  induction ids with
  | nil => trivial
  | cons id ids ih =>
    refine Prog.all_bind (uses_op rfl) fun answer => ?_
    cases answer with
    | error e => trivial
    | ok row =>
      refine Prog.all_bind ih fun rest => ?_
      cases rest <;> trivial

theorem cleanupEach_uses (rows : List TargetedTransferRow) : Uses cleans (cleanupEach rows) := by
  induction rows with
  | nil => trivial
  | cons row rows ih =>
    refine Prog.all_bind (cleanup_uses row) fun cleaned => ?_
    cases cleaned with
    | false => trivial
    | true => exact ih

/-! Sending. -/

theorem registerSender_uses (row : TargetedTransferRow) :
    Uses [.insert,.setState] (registerSender row) := by
  unfold registerSender write
  repeat' first
    | exact trivial
    | exact uses_op rfl
    | refine Prog.all_bind ?_ fun _ => ?_
    | split

theorem setStateFromAny_uses (dst : TargetedTransferState) :
    Uses [.getRow,.updateState] (setStateFromAny id dst) := by
  unfold setStateFromAny write
  repeat' first
    | exact trivial
    | exact uses_op rfl
    | refine Prog.all_bind ?_ fun _ => ?_
    | split

theorem abandonOffer_uses (src dst : TargetedTransferState) :
    Uses (.setState :: tears) (abandonOffer l id src dst) :=
  Prog.all_bind (uses_op rfl) fun _ => (teardown_uses _).mono (by decide)

theorem abandonApproval_uses : Uses (.getRow :: .updateState :: tears) (abandonApproval l id) :=
  Prog.all_bind ((setStateFromAny_uses _).mono (by decide)) fun _ => (teardown_uses _).mono (by decide)

theorem protectSender_uses (auth : TargetedAuthorization) :
    Uses [.protect,.finalizeSenderAuthorization,.remove] (protectSender auth) := by
  unfold protectSender write
  repeat' first
    | exact trivial
    | exact uses_op rfl
    | refine Prog.all_bind ?_ fun _ => ?_
    | split

/-! Receiving. -/

theorem loadReceiverAuthorization_uses : Uses [.getRow,.load] (loadReceiverAuthorization l id) := by
  unfold loadReceiverAuthorization
  repeat' first
    | exact trivial
    | exact uses_op rfl
    | exact (loadAuthorization_uses _).mono (by decide)
    | refine Prog.all_bind ?_ fun _ => ?_
    | split

theorem advanceEach_uses (progress : List Nat) :
    Uses [.advanceVerifiedBytes] (advanceEach id progress) := by
  induction progress with
  | nil => trivial
  | cons bytes rest ih =>
    refine Prog.all_bind (uses_op rfl) fun answer => ?_
    cases answer with
    | ok _ => exact ih
    | error e => trivial

theorem receivePayload_uses : Uses [.download,.advanceVerifiedBytes] (receiveTargetedPayload id) :=
  Prog.all_bind (uses_op rfl) fun _ =>
    Prog.all_bind ((advanceEach_uses _).mono (by decide)) fun _ => trivial

theorem acknowledgeCompletion_uses (auth : TargetedAuthorization) :
    Uses notifies (acknowledgeCompletion auth) := by
  refine Prog.all_bind (uses_op rfl) fun reachable => ?_
  cases reachable with
  | false => trivial
  | true => exact Prog.all_bind ((request_uses _).mono (by decide)) fun _ => trivial

/-! Background reconciliation. -/

theorem retryCompletion_uses : Uses
    (.listing :: .load :: .clearPendingCompletion :: .deferPendingCompletion :: .now :: notifies)
    (retryCompletion l) := by
  unfold retryCompletion deferCompletion write
  repeat' first
    | exact trivial
    | exact uses_op rfl
    | exact (loadAuthorization_uses _).mono (by decide)
    | exact (acknowledgeCompletion_uses _).mono (by decide)
    | refine Prog.all_bind ?_ fun _ => ?_
    | split

theorem releaseEach_uses (rows : List TargetedTransferRow) :
    Uses (.clearPendingPayloadRelease :: tears) (releaseEach rows) := by
  induction rows with
  | nil => trivial
  | cons row rows ih =>
    refine Prog.all_bind ((tryTeardown_uses _).mono (by decide)) fun torn => ?_
    cases torn with
    | false => exact ih
    | true => exact Prog.all_bind (uses_op rfl) fun _ => ih

theorem releaseCompletedPayloads_uses :
    Uses (.listing :: .clearPendingPayloadRelease :: tears) releaseCompletedPayloads :=
  Prog.all_bind (uses_op rfl) fun rows => (releaseEach_uses rows).mono (by decide)

end Uses

end Vnidrop.Targeted
