import Vnidrop.TargetedOutbox

/-! What the calls know when they come to a statement on the targeted tables, and what
follows for the rows and the outboxes in every run. -/
namespace Vnidrop.Targeted.Outbox

open Tables Programs Runs TargetedTransferState

section Knowledge

variable {l : Local} {s t : State} {i : Nat} {id : TransferId} {r : TargetedTransferRow}

/-- A transfer that this device receives, or that has ended. -/
def Over (id : TransferId) (s : State) : Prop :=
  ∃ r, row s id = some r ∧ (r.role = .receiver ∨ r.state.terminal = true)

/-- The row that was read is still there. -/
def Stands (r : TargetedTransferRow) (s : State) : Prop :=
  ∃ r', row s r.id = some r' ∧ identity r' = identity r ∧ lasting r' = true ∧
    (r.state.terminal = true → r'.state.terminal = true)

theorem lasting_over (finished : r.role = .receiver ∨ r.state.terminal = true) : lasting r = true := by
  rcases finished with receives | ended
  · simp [lasting,receives]
  · refine lasting_late ?_
    by_contra early
    rw [preapproval_live (by simpa using early)] at ended
    cases ended

theorem Over.later (finished : Over id s) (kept : Kept i s t) : Over id t := by
  obtain ⟨r,here,finished⟩ := finished
  obtain ⟨r',there,same,_,ended,_⟩ := (kept.follows id).lasts r here (lasting_over finished)
  refine ⟨r',there,finished.imp (fun receives => ?_) ended⟩
  rw [← receives]
  exact congrArg Identity.role same

theorem Over.unapproved (finished : Over id s) : Unapproved (row s id) := by
  obtain ⟨r,here,finished⟩ := finished
  intro r' here' sends approved
  cases here.symm.trans here'
  rcases finished with receives | ended
  · cases receives.symm.trans sends
  · rw [approved] at ended
    cases ended

theorem Stands.later (stands : Stands r s) (kept : Kept i s t) : Stands r t := by
  obtain ⟨r',here,same,last,ended⟩ := stands
  obtain ⟨r'',there,same',last',ended',_⟩ := (kept.follows r.id).lasts r' here last
  exact ⟨r'',there,same'.trans same,last',fun h => ended' (ended h)⟩

theorem stands_lasting (here : row s id = some r) (last : lasting r = true) : Stands r s :=
  ⟨r,(congrArg (row s) (Table.find_key here)).trans here,rfl,last,fun h => h⟩

theorem stands_held (inv : Inv l s) (here : row s id = some r)
    (held : r.authorizationSecretHandle ≠ none) : Stands r s :=
  stands_lasting here (((inv.cells id).row r here).held held).1

theorem Stands.over_of (stands : Stands r s) (finished : r.role = .receiver ∨ r.state.terminal = true) :
    Over r.id s := by
  obtain ⟨r',here,same,_,ended⟩ := stands
  refine ⟨r',here,finished.imp (fun receives => ?_) ended⟩
  rw [← receives]
  exact congrArg Identity.role same

/-- What was read still has its identity. -/
theorem Stands.found (stands : Stands r s) {r' : TargetedTransferRow} (here : row s r.id = some r') :
    identity r' = identity r := by
  obtain ⟨r'',there,same,_⟩ := stands
  cases there.symm.trans here
  exact same

theorem row_after {call : RuntimeCall} {c : RuntimeChoice} {w : Write} {changed : Bool}
    (h : (machine l).exec s i call (.targeted (.write w)) c = some (.ok changed,t)) (id : TransferId) :
    row t id = w.onRow c.now id (row s id) := by
  rcases exec_write h with ⟨_,error,_⟩ | ⟨_,store,wrote,_,rfl⟩
  · cases error
  · exact run_getRow wrote id

/-- A terminal statement that has succeeded leaves no live row. -/
theorem terminal_after {call : RuntimeCall} {c : RuntimeChoice} {dst : TargetedTransferState}
    {clear changed : Bool}
    (h : (machine l).exec s i call (.targeted (.write (.transitionTerminal id dst clear))) c =
      some (.ok changed,t)) (here : row t id = some r) : r.state.terminal = true := by
  rcases exec_write h with ⟨_,same,_⟩ | ⟨_,store,wrote,_,rfl⟩
  · cases same
  have ends := (transitionTerminal_ok wrote).1
  have after : some r = _ := here.symm.trans (run_getRow wrote id)
  simp only [Write.onRow,if_true] at after
  obtain ⟨r₀,_,same⟩ := Option.map_eq_some_iff.mp after.symm
  split at same
  · subst same
    rcases ends with rfl | rfl <;> rfl
  · rename_i stays
    subst same
    exact leavesFor_ended ends (by simpa using stays)

/-- A row that has been abandoned was one that need not last. -/
theorem abandon_early {call : RuntimeCall} {c : RuntimeChoice}
    (h : (machine l).exec s i call (.targeted (.write (.abandonSenderPreapproval id))) c =
      some (.ok true,t)) (here : row s id = some r) : lasting r = false := by
  rcases exec_write h with ⟨_,error,_⟩ | ⟨_,store,wrote,same,_⟩
  · cases error
  cases same
  have flag : (s.state.device.store.abandonSenderPreapproval id).1 = _ := abandon_flag
  have done : (s.state.device.store.abandonSenderPreapproval id).1 = true :=
    congrArg Prod.fst (Except.ok.inj wrote)
  rw [done,show s.state.device.store.getRow id = some r from here,Option.any_some] at flag
  obtain ⟨sends,early⟩ := Bool.and_eq_true_iff.mp flag.symm
  unfold lasting
  simp [of_decide_eq_true sends,early]

end Knowledge

section Calls

variable {l : Local} {s t u : State} {i : Nat} {call : RuntimeCall} {id : TransferId}
  {peer : EndpointId} {row : TargetedTransferRow}

/-! Ending a transfer. -/

theorem does_release (finished : row.authorizationSecretHandle ≠ none → Over row.id s) :
    Does l i call (releaseSecret row) (fun _ => Kept i s) s := by
  cases held : row.authorizationSecretHandle with
  | none =>
    unfold releaseSecret
    rw [held]
    exact Kept.refl i s
  | some handle =>
    have finished := finished (by simp [held])
    rw [releaseSecret_held held]
    refine does_op rfl fun t c removed u _ kept kept' _ _ => ?_
    have kept := kept.trans kept'
    cases removed with
    | false => exact kept
    | true =>
      refine does_write rfl (fun v _ since => ((finished.later kept).later since).unapproved)
        fun v _ answer w _ since since' _ => ?_
      have kept := (kept.trans since).trans since'
      cases answer <;> exact kept

theorem does_cleanup (finished : row.authorizationSecretHandle ≠ none → Over row.id s) :
    Does l i call (cleanup row) (fun _ => Kept i s) s := by
  have ending (t : State) (kept : Kept i s t) :
      Does l i call (releaseSecret row) (fun _ => Kept i s) t :=
    safe_mono (fun _ _ since => kept.trans since) (does_release fun held => (finished held).later kept)
  refine does_op rfl fun _ _ _ t₁ _ a a' _ _ => does_op rfl fun _ _ _ t₂ _ b b' _ _ =>
    does_op rfl fun _ _ _ t₃ _ c c' _ _ => does_op rfl fun _ _ _ t₄ _ d d' _ _ => ?_
  have kept := (((a.trans a').trans (b.trans b')).trans (c.trans c')).trans (d.trans d')
  by_cases sends : row.role = .sender
  · rw [if_pos sends]
    refine does_op rfl fun _ _ deleted t₅ _ e e' _ _ => ?_
    have kept := kept.trans (e.trans e')
    cases deleted with
    | false => exact kept
    | true => exact ending t₅ kept
  · rw [if_neg sends]
    exact ending t₄ kept

/-- A row that has been read is ended, and then cleaned up. -/
theorem does_endRow {α : Type} {dst : TargetedTransferState} {clear : Bool}
    {f : Except VnidropError Bool → Task α} (fine : dst = .deleted → clear = true)
    (stands : row.authorizationSecretHandle ≠ none → Stands row s)
    (error : ∀ e t, Kept i s t → Does l i call (f (.error e)) (fun _ => Kept i s) t)
    (ended : ∀ changed t, Kept i s t → (row.authorizationSecretHandle ≠ none → Over row.id t) →
      Does l i call (f (.ok changed)) (fun _ => Kept i s) t) :
    Does l i call (write (.transitionTerminal row.id dst clear) >>= f) (fun _ => Kept i s) s := by
  refine does_write rfl (fun _ _ _ => fine) fun t c answer u _ kept kept' performed => ?_
  have kept := kept.trans kept'
  cases answer with
  | error e => exact error e u kept
  | ok changed =>
    refine ended changed u kept fun held => ?_
    obtain ⟨r,here,_⟩ := (stands held).later kept
    exact ⟨r,here,.inr (terminal_after performed here)⟩

theorem does_cancelRow (stands : row.authorizationSecretHandle ≠ none → Stands row s) :
    Does l i call (cancelRow row) (fun _ => Kept i s) s := by
  unfold cancelRow
  split
  · rename_i cancelled
    exact does_cleanup fun held => (stands held).over_of (.inr (by rw [cancelled]; rfl))
  · split
    · exact Kept.refl i s
    · refine does_endRow nofun stands (fun e t kept => kept) fun changed t kept finished => ?_
      cases changed with
      | true => exact safe_mono (fun _ _ since => kept.trans since) (does_cleanup finished)
      | false => exact kept

theorem does_cancelFromPeer (remote : EndpointId) :
    Does l i call (cancelFromPeer remote id) (fun _ => Kept i s) s := by
  refine does_getRow (fun t e kept => kept) fun t inv kept => ?_
  cases read : Outbox.row t id with
  | none =>
    refine does_write rfl (fun _ _ _ => trivial) fun u _ answer v _ since since' _ => ?_
    have kept := (kept.trans since).trans since'
    cases answer <;> exact kept
  | some row =>
    change Does l i call (if isPeer row remote then cancelRow row else _) _ _
    split
    · exact safe_mono (fun _ _ since => kept.trans since) (does_cancelRow fun held => stands_held inv read held)
    · exact kept

theorem does_handleCancel (remote : EndpointId) (cancel : CancelTargetedOffer) :
    Does l i call (handleCancel remote cancel) (fun _ => Kept i s) s := by
  refine does_op rfl fun _ _ pending t _ kept kept' _ _ => ?_
  have kept := kept.trans kept'
  cases pending with
  | some pending =>
    exact does_bind (safe_mono (fun _ _ since => kept.trans since)
      (does_free ((cancelPending_uses _ _).avoids rfl)))
  | none =>
    change Does l i call (if _ then cancelFromPeer remote cancel.transferId >>= _ else _) _ _
    split
    · exact does_bind (safe_mono (fun _ _ since => kept.trans since) (does_cancelFromPeer remote))
    · exact kept

theorem does_terminateLocal {state : TargetedTransferState} (ends : state.terminal = true) :
    Does l i call (terminateLocal id state) (fun _ => Kept i s) s := by
  have close (row : TargetedTransferRow) (flag : Bool) (t : State)
      (finished : row.authorizationSecretHandle ≠ none → Over row.id t) : Does l i call (do
        discard id
        if ← cleanup row then return .ok (some (row,flag)) else return .error Device.unavailable)
      (fun (_ : Except VnidropError (Option (TargetedTransferRow × Bool))) => Kept i t) t := by
    refine does_then (does_free (discard_uses.avoids rfl)) fun _ u since => ?_
    refine does_then (does_cleanup fun held => (finished held).later since) fun cleaned v since' => ?_
    have kept := since.trans since'
    cases cleaned <;> exact kept
  refine does_getRow (fun t e kept => kept) fun t inv kept => ?_
  cases read : Outbox.row t id with
  | none =>
    refine does_then (does_free (discard_uses.avoids rfl)) fun _ u since => ?_
    refine does_write rfl (fun _ _ _ => trivial) fun _ _ answer v _ a a' _ => ?_
    have kept := ((kept.trans since).trans a).trans a'
    cases answer <;> exact kept
  | some row =>
    have stands := stands_held (r := row) inv read
    change Does l i call (if row.state = state then (if _ then _ else _) else _) _ _
    split
    · rename_i same
      split
      · exact does_bind (safe_mono (fun _ _ since => kept.trans since) (does_free (discard_uses.avoids rfl)))
      · refine safe_mono (fun _ _ since => kept.trans since) (close row false t fun held => ?_)
        exact (stands held).over_of (.inr (by rw [same]; exact ends))
    · have keyed : row.id = id := Table.find_key read
      subst keyed
      refine safe_mono (fun _ _ since => kept.trans since) (does_endRow (fun _ => rfl) stands
        (fun e u kept => kept) fun changed u since finished => ?_)
      exact safe_mono (fun _ _ since' => since.trans since') (close row changed u finished)

/-! The transfers of a peer. -/

/-- No sender row of another peer can come to stand under the identifier. -/
def Claimed (peer : EndpointId) (id : TransferId) (s : State) : Prop :=
  (∃ r, Outbox.row s id = some r ∧ r.role = .receiver) ∨
  (id ∈ s.history.used ∧ ∀ r, Outbox.row s id = some r → r.role = .sender → Store.withPeer peer r = true)

theorem withPeer_congr {r r' : TargetedTransferRow} (same : identity r' = identity r) :
    Store.withPeer peer r' = Store.withPeer peer r := by
  unfold Store.withPeer
  rw [show r'.senderEndpointId = r.senderEndpointId from congrArg Identity.senderEndpointId same,
    show r'.receiverEndpointId = r.receiverEndpointId from congrArg Identity.receiverEndpointId same]

theorem Claimed.later (claimed : Claimed peer id s) (kept : Kept i s t) : Claimed peer id t := by
  rcases claimed with ⟨r,here,receives⟩ | ⟨used,peers⟩
  · obtain ⟨r',there,same,_⟩ := (kept.follows id).lasts r here (lasting_over (.inl receives))
    exact .inl ⟨r',there,(congrArg Identity.role same).trans receives⟩
  · refine .inr ⟨kept.used id used,fun r' there sends => ?_⟩
    obtain ⟨r,here,same,_⟩ := (kept.follows id).claimed used r' there sends
    rw [withPeer_congr same]
    exact peers r here ((congrArg Identity.role same).symm.trans sends)

theorem claimed_listed (inv : Inv l s) (listed : id ∈ s.state.device.store.idsForPeer peer) :
    Claimed peer id s := by
  obtain ⟨r,member,rfl⟩ := List.mem_map.mp listed
  obtain ⟨member,ours⟩ := List.mem_filter.mp member
  have here : Outbox.row s r.id = some r := Table.find_of_mem member
  cases role : r.role with
  | receiver => exact .inl ⟨r,here,role⟩
  | sender =>
    refine .inr ⟨((inv.cells r.id).row r here).used role,fun r' here' _ => ?_⟩
    cases here.symm.trans here'
    exact ours

/-- A row that has been read is one this device receives, or one of the peer. -/
def Due (peer : EndpointId) (s : State) (row : TargetedTransferRow) : Prop :=
  row.authorizationSecretHandle ≠ none →
    Stands row s ∧ (row.role = .receiver ∨ Store.withPeer peer row = true)

theorem Due.later (due : Due peer s row) (kept : Kept i s t) : Due peer t row :=
  fun held => ⟨(due held).1.later kept,(due held).2⟩

theorem Claimed.due (claimed : Claimed peer id s) (inv : Inv l s) (here : Outbox.row s id = some row) :
    Due peer s row := by
  intro held
  refine ⟨stands_held inv here held,?_⟩
  rcases claimed with ⟨r,found,receives⟩ | ⟨_,peers⟩
  · cases here.symm.trans found
    exact .inl receives
  · cases role : row.role with
    | receiver => exact .inl rfl
    | sender => exact .inr (peers row here role)

theorem Due.over_of {c : RuntimeChoice} {changed : Bool} (due : Due peer s row)
    (h : (machine l).exec s i call (.targeted (.write (.cancelByPeer peer))) c = some (.ok changed,t))
    (kept : Kept i s t) (held : row.authorizationSecretHandle ≠ none) : Over row.id t := by
  obtain ⟨stands,receives | ours⟩ := due held
  · exact (stands.later kept).over_of (.inl receives)
  obtain ⟨r,here,same,_⟩ := stands
  have after := row_after h row.id
  rw [here,Write.onRow,Option.map_some,withPeer_congr same,ours,Bool.true_and] at after
  cases ended : r.state.terminal with
  | true => exact ⟨r,after.trans (by simp [ended]),.inr ended⟩
  | false => exact ⟨_,after.trans (by simp [ended]; rfl),.inr rfl⟩

theorem does_rowsOf {ids : List TransferId} (claimed : ∀ id ∈ ids, Claimed peer id s) :
    Does l i call (rowsOf ids) (fun found t => Kept i s t ∧
      ∀ rows, found = .ok rows → ∀ row ∈ rows, Due peer t row) s := by
  induction ids generalizing s with
  | nil => exact ⟨.refl i s,fun rows same row member => by cases same; cases member⟩
  | cons id ids ih =>
    refine does_getRow (fun t e kept => ⟨kept,nofun⟩) fun t inv kept => ?_
    have claimed₁ := (claimed id List.mem_cons_self).later kept
    refine does_bind (safe_mono (fun found u since => ?_)
      (ih fun id' member => (claimed id' (List.mem_cons_of_mem _ member)).later kept))
    obtain ⟨since,due⟩ := since
    cases found with
    | error e => exact ⟨kept.trans since,nofun⟩
    | ok rows =>
      refine ⟨kept.trans since,fun all same row member => ?_⟩
      cases same
      rcases List.mem_append.mp member with first | rest
      · exact (claimed₁.due inv (by simpa using first)).later since
      · exact due rows rfl row rest

theorem does_cleanupAll {rows : List TargetedTransferRow}
    (finished : ∀ row ∈ rows, row.authorizationSecretHandle ≠ none → Over row.id s) :
    Does l i call (cleanupAll rows) (fun _ => Kept i s) s := by
  induction rows generalizing s with
  | nil => exact Kept.refl i s
  | cons row rows ih =>
    refine does_then (does_cleanup (finished row List.mem_cons_self)) fun cleaned t kept => ?_
    cases cleaned with
    | false => exact kept
    | true =>
      refine safe_mono (fun _ _ since => kept.trans since) (ih fun row' member held => ?_)
      exact (finished row' (List.mem_cons_of_mem _ member) held).later kept

theorem does_cleanupEach {rows : List TargetedTransferRow}
    (finished : ∀ row ∈ rows, row.authorizationSecretHandle ≠ none → Over row.id s) :
    Does l i call (cleanupEach rows) (fun _ => Kept i s) s := by
  induction rows generalizing s with
  | nil => exact Kept.refl i s
  | cons row rows ih =>
    refine does_then (does_cleanup (finished row List.mem_cons_self)) fun cleaned t kept => ?_
    cases cleaned with
    | false => exact kept
    | true =>
      refine safe_mono (fun _ _ since => kept.trans since) (ih fun row' member held => ?_)
      exact (finished row' (List.mem_cons_of_mem _ member) held).later kept

/-- What a forgotten peer's transfers go through; `k` cleans the rows up that were read. -/
theorem does_endPeer {α : Type} {a : α} {k : List TargetedTransferRow → Task α}
    (clean : ∀ rows t, (∀ row ∈ rows, row.authorizationSecretHandle ≠ none → Over row.id t) →
      Does l i call (k rows) (fun _ => Kept i t) t) :
    Does l i call (do
      let pending ← op (.pendingFrom peer)
      discardEach pending
      match ← op (.idsForPeer peer) with
      | .error _ => return a
      | .ok ids =>
        match ← rowsOf ids with
        | .error _ => return a
        | .ok rows =>
          match ← write (.cancelByPeer peer) with
          | .error _ => return a
          | .ok _ => k rows) (fun _ => Kept i s) s := by
  refine does_op rfl fun _ _ pending t _ kept kept' _ _ => ?_
  have kept := kept.trans kept'
  refine does_bind (safe_mono (fun _ t₁ a => ?_) (does_free ((discardEach_uses _).avoids rfl)))
  refine does_op rfl fun t₂ _ answer t₃ inv₂ b b' _ performed => ?_
  have kept₃ := (kept.trans a).trans (b.trans b')
  cases answer with
  | error e => exact kept₃
  | ok ids =>
    obtain ⟨d,ran,_⟩ := exec_targeted performed
    have listed := Device.exec_idsForPeer ran
    subst listed
    refine does_bind (safe_mono (fun found t₄ since => ?_)
      (does_rowsOf fun id listed => (claimed_listed inv₂ listed).later b'))
    obtain ⟨since,due⟩ := since
    have kept₄ := kept₃.trans since
    cases found with
    | error e => exact kept₄
    | ok rows =>
      refine does_write rfl (fun _ _ _ => trivial) fun t₅ _ answer t₆ _ x x' ended => ?_
      have kept₆ := (kept₄.trans x).trans x'
      cases answer with
      | error e => exact kept₆
      | ok changed => exact safe_mono (fun _ _ last => kept₆.trans last) (clean rows t₆
          fun row member => ((due rows rfl row member).later x).over_of ended x')

theorem does_terminatePeer : Does l i call (terminatePeer peer) (fun _ => Kept i s) s :=
  does_endPeer fun _ _ finished => does_cleanupEach finished

theorem does_cancelForPeer :
    Does l i call (cancelTargetedTransfersForPeer peer) (fun _ => Kept i s) s :=
  does_endPeer fun _ _ finished => does_cleanupAll finished

/-! A preparation that is stopped. -/

theorem does_stopPreparation : Does l i call (stopPreparation id) (fun _ => Kept i s) s := by
  refine does_getRow (fun t e kept => kept) fun t inv kept => ?_
  cases read : Outbox.row t id with
  | none => exact kept
  | some row =>
    change Does l i call (if row.state.terminal then _ else _) _ _
    split
    · exact kept
    refine safe_mono (fun _ _ since => kept.trans since) ?_
    refine does_write rfl (fun _ _ _ => trivial) fun t₁ _ answer t₂ _ a a' performed => ?_
    have kept₂ := a.trans a'
    rcases answer with e | _ | _
    · exact kept₂
    · refine does_getRow (fun u e since => kept₂.trans since) fun u inv' since => ?_
      have kept₃ := kept₂.trans since
      cases again : Outbox.row u id with
      | none => exact kept₃
      | some current =>
        change Does l i call (if current.state.terminal then _ else _) _ _
        split
        · exact kept₃
        have keyed : current.id = id := Table.find_key again
        subst keyed
        refine safe_mono (fun _ _ since => kept₃.trans since)
          (does_endRow (fun _ => rfl) (stands_held inv' again) (fun e v kept => kept) fun changed v kept finished => ?_)
        refine does_then (safe_mono (fun _ _ h => h) (does_cleanup finished)) fun cleaned w last => ?_
        cases cleaned <;> exact kept.trans last
    · -- a row that can be abandoned names no secret
      refine does_then (does_cleanup fun held => ?_) fun cleaned v last => ?_
      · have keyed : row.id = id := Table.find_key read
        obtain ⟨r,here,_,last,_⟩ := (stands_held inv read held).later a
        rw [keyed] at here
        cases last.symm.trans (abandon_early performed here)
      · cases cleaned <;> exact kept₂.trans last

theorem does_notify (terminal : Option TargetedTransferState) :
    Does l i call (notifyCancel peer id terminal) (fun _ => Kept i s) s :=
  does_free ((notifyCancel_uses _).avoids rfl)

theorem does_stop : Does l i call (stop id) (fun _ => Kept i s) s := by
  refine does_op rfl fun _ _ _ t₀ _ x x' _ _ => ?_
  refine safe_mono (fun _ _ since => (x.trans x').trans since) ?_
  refine does_getRow (fun t e kept => kept) fun t _ kept => ?_
  refine does_bind (safe_mono (fun outcome u since => ?_) does_stopPreparation)
  have kept := kept.trans since
  have told (peer : EndpointId) (terminal : Option TargetedTransferState)
      (outcome : TargetedPreparationStopOutcome) : Does l i call (do
        notifyCancel peer id terminal
        op (.stopped id outcome)) (fun _ => Kept i t₀) u := by
    refine does_then (does_notify terminal) fun _ v since => ?_
    exact safe_mono (fun _ _ last => (kept.trans since).trans last)
      (does_free (p := op (.stopped id outcome)) (Prog.all_perform rfl))
  have quiet (outcome : TargetedPreparationStopOutcome) :
      Does l i call (op (.stopped id outcome)) (fun _ => Kept i t₀) u :=
    safe_mono (fun _ _ last => kept.trans last) (does_free (Prog.all_perform rfl))
  rcases outcome with e | outcome
  · exact kept
  rcases Outbox.row t id with _ | row
  · exact quiet outcome
  · cases outcome with
    | transferAbandoned => exact told row.receiverEndpointId none .transferAbandoned
    | transferCancelled => exact told row.receiverEndpointId (some .cancelled) .transferCancelled
    | alreadyTerminal => exact quiet .alreadyTerminal

end Calls

/-! Sending. -/

section Send

variable {l : Local} {s t : State} {i : Nat} {id : TransferId} {p : Payload}

/-- An identifier this thread has drawn, and no row of which has been inserted. -/
def Mine (i : Nat) (id : TransferId) (s : State) : Prop :=
  s.history.owner id = some i ∧ id ∉ s.history.used

/-- The row this thread has inserted has not been approved: nobody else can approve it. -/
structure Own (i : Nat) (id : TransferId) (p : Payload) (s : State) : Prop where
  owner : s.history.owner id = some i
  used : id ∈ s.history.used
  unapproved : Unapproved (row s id)
  receiver : ∀ r, row s id = some r → r.role = .sender → r.receiverEndpointId = p.receiverEndpointId

theorem Mine.later (mine : Mine i id s) (kept : Kept i s t) : Mine i id t :=
  ⟨kept.owner id i mine.1,kept.unused id mine.1 mine.2⟩

theorem Own.later (own : Own i id p s) (kept : Kept i s t) : Own i id p t where
  owner := kept.owner id i own.owner
  used := kept.used id own.used
  unapproved := (kept.follows id).own own.owner own.unapproved
  receiver r' there sends := by
    obtain ⟨r,here,same,_⟩ := (kept.follows id).claimed own.used r' there sends
    have receiver := own.receiver r here ((congrArg Identity.role same).symm.trans sends)
    exact (congrArg Identity.receiverEndpointId same).trans receiver

/-- The row of the send after its insertion. -/
theorem own_inserted {c : RuntimeChoice} {call : RuntimeCall} {now : Millis} {changed : Bool}
    (mine : Mine i id s) (h : (machine l).exec s i call
      (.targeted (.write (.insert (senderRow l p id now)))) c = some (.ok changed,t)) : Own i id p t := by
  have after : row t id = some (senderRow l p id now) := (row_after h id).trans (if_pos rfl)
  rcases exec_write h with ⟨_,error,_⟩ | ⟨_,store,_,_,rfl⟩
  · cases error
  refine ⟨mine.1,List.mem_cons_self,fun r here _ approved => ?_,fun r here _ => ?_⟩
  · cases after.symm.trans here
    cases approved
  · cases after.symm.trans here
    rfl

/-- A send, as far as it matters to itself. -/
abbrev Sends (l : Local) (i : Nat) (p : Payload) {α : Type} (q : Task α) (post : α → State → Prop)
    (s : State) : Prop := Does l i (.targeted (.send p)) q post s

theorem does_registerSender (now : Millis) (mine : Mine i id s) :
    Sends l i p (registerSender (senderRow l p id now)) (fun ok t => ok = true → Own i id p t) s := by
  intro t _ inv kept c r u _ performed
  have mine := mine.later kept
  obtain ⟨inv',kept'⟩ := step_write inv (show Fits l t i (.insert (senderRow l p id now)) from
    ⟨rfl,rfl,rfl,rfl,mine.1,mine.2⟩) performed
  refine ⟨⟨inv',fun j other => kept' j (.inl other)⟩,?_⟩
  cases r with
  | error e => exact nofun
  | ok changed =>
    have own := own_inserted mine performed
    refine does_write rfl (fun _ _ _ => ⟨rfl,nofun,nofun,nofun,nofun⟩) fun _ _ answer v _ since since' _ => ?_
    cases answer with
    | error e => exact nofun
    | ok _ => exact fun _ => (own.later since).later since'

theorem does_draw {β : Type} {call : RuntimeCall} {f : TransferId → Task β} {post : β → State → Prop}
    (rest : ∀ id u, Mine i id u → Does l i call (f id) post u) :
    Does l i call (op .drawTransferId >>= f) post s := by
  intro t _ inv _ c id u _ performed
  obtain ⟨⟨inv',kept⟩,owner,unused⟩ := step_draw inv performed
  exact ⟨⟨inv',fun j _ => kept j⟩,rest id u ⟨owner,unused⟩⟩

theorem does_teardown {call : RuntimeCall} (protocolId : Nat) :
    Does l i call (teardownTargetedPayload protocolId id) (fun _ => Kept i s) s :=
  does_free ((teardown_uses protocolId).avoids rfl)

theorem does_prepare : Sends l i p (prepareTargetedTransfer l p)
    (fun found t => ∀ id, found = some id → Own i id p t) s := by
  refine does_op rfl fun _ _ saved t₁ _ _ _ _ _ => ?_
  cases saved with
  | false => exact nofun
  | true =>
    refine does_draw fun id t₂ mine => ?_
    refine does_op rfl fun _ _ tagged t₃ _ a a' _ _ => ?_
    have mine := (mine.later a).later a'
    cases tagged with
    | false => exact nofun
    | true =>
      refine does_op rfl fun _ _ _ t₄ _ b b' _ _ => does_op rfl fun _ _ _ t₅ _ c c' _ _ =>
        does_op rfl fun _ _ stopped t₆ _ d d' _ _ => ?_
      have mine := (((((mine.later b).later b').later c).later c').later d).later d'
      cases stopped with
      | true => exact does_then (does_teardown _) fun _ _ _ => nofun
      | false =>
        refine does_op rfl fun _ _ now t₇ _ e e' _ _ => ?_
        refine does_bind (safe_mono (fun ok t₈ own => ?_)
          (does_registerSender now ((mine.later e).later e')))
        cases ok with
        | false => exact does_then (does_teardown _) fun _ _ _ => nofun
        | true =>
          refine does_getRow (fun _ _ _ => nofun) fun t₉ _ kept => ?_
          cases row t₉ id with
          | none => exact nofun
          | some row =>
            intro id' same
            cases same
            exact (own rfl).later kept

theorem does_abandonOffer {call : RuntimeCall} {src dst : TargetedTransferState}
    (fine : src.allowed dst = true ∧ dst ≠ .approved ∧ dst ≠ .completed ∧ dst ≠ .deleted)
    (early : src ≠ .approved) : Does l i call (abandonOffer l id src dst) (fun _ => Kept i s) s := by
  refine does_write rfl (fun _ _ _ => ⟨fine.1,fine.2.1,fine.2.2.1,fine.2.2.2,fun same => absurd same early⟩)
    fun _ _ _ u _ a a' _ => ?_
  exact safe_mono (fun _ _ since => (a.trans a').trans since) (does_teardown _)

/-- A change of state from whatever was read; a row that has been approved is not touched
unless the caller knows it is none of this device's. -/
theorem does_setStateFromAny {call : RuntimeCall} {dst : TargetedTransferState}
    (fine : dst ≠ .approved ∧ dst ≠ .completed ∧ dst ≠ .deleted)
    (early : ∀ t, Kept i s t → TargetedTransferState.approved.allowed dst = true → Unapproved (row t id)) :
    Does l i call (setStateFromAny id dst) (fun _ => Kept i s) s := by
  refine does_getRow (fun t e kept => kept) fun t _ kept => ?_
  cases outcome : Store.setStateFromAnyRead (row t id) dst with
  | error e =>
    simp only [outcome]
    exact kept
  | ok src =>
    cases src with
    | none =>
      simp only [outcome]
      exact kept
    | some src =>
      have step : src.allowed dst = true := by
        cases read : row t id with
        | none =>
          rw [read] at outcome
          cases outcome
        | some r =>
          rw [read] at outcome
          unfold Store.setStateFromAnyRead at outcome
          dsimp only at outcome
          split at outcome
          · cases outcome
          · obtain ⟨_,valid,same⟩ := except_bind_ok outcome
            cases same
            exact validate_ok.mp valid
      simp only [outcome]
      refine does_write rfl (fun u _ since => ⟨step,fine.1,fine.2.1,fine.2.2,fun same => ?_⟩)
        fun _ _ answer v _ since since' _ => ?_
      · subst same
        exact early u (kept.trans since) step
      · cases answer <;> exact (kept.trans since).trans since'

theorem does_abandonApproval {call : RuntimeCall} (own : Own i id p s) :
    Does l i call (abandonApproval l id) (fun _ => Kept i s) s := by
  refine does_then (does_setStateFromAny ⟨nofun,nofun,nofun⟩ fun t kept _ => (own.later kept).unapproved)
    fun _ _ kept => ?_
  exact safe_mono (fun _ _ since => kept.trans since) (does_teardown _)

theorem does_protectSender {auth : TargetedAuthorization} (own : Own i auth.transferId p s)
    (apart : p.receiverEndpointId ≠ l.endpointId) :
    Sends l i p (protectSender auth) (fun ok t => ok = false → Own i auth.transferId p t) s := by
  refine does_op rfl fun _ _ kept₀ t _ a a' _ _ => ?_
  have own := (own.later a).later a'
  cases kept₀ with
  | none => exact fun _ => own
  | some handle =>
    intro t₁ _ inv kept c r u _ performed
    have own := own.later kept
    obtain ⟨inv',kept'⟩ := step_write inv (show Fits l t₁ i (.finalizeSenderAuthorization auth.transferId
      auth.blobTicket handle) from ⟨own.owner,fun r here sends same => apart ((own.receiver r here sends).symm.trans same)⟩) performed
    refine ⟨⟨inv',fun j other => kept' j (.inl other)⟩,?_⟩
    cases r with
    | ok changed => exact nofun
    | error e =>
      rcases exec_write performed with ⟨_,_,rfl⟩ | ⟨_,_,_,error,_⟩
      · exact does_op rfl fun _ _ _ _ _ b b' _ _ _ => (own.later b).later b'
      · cases error

theorem does_approve (own : Own i id p s) (apart : p.receiverEndpointId ≠ l.endpointId) :
    Sends l i p (approve l p id) (fun _ _ => True) s := by
  refine does_op rfl fun _ _ _ t₁ _ a a' _ _ => does_op rfl fun _ _ issued t₂ _ b b' _ _ => ?_
  have own := (((own.later a).later a').later b).later b'
  cases issued with
  | false => exact safe_mono (fun _ _ _ => trivial) (does_abandonApproval own)
  | true =>
    refine does_op rfl fun _ _ secret t₃ _ c c' _ _ => ?_
    have own : Own i (authorizationOf l p id secret).transferId p t₃ := (own.later c).later c'
    refine does_bind (safe_mono (fun ok t₄ own => ?_) (does_protectSender own apart))
    cases ok with
    | true => trivial
    | false => exact safe_mono (fun _ _ _ => trivial) (does_abandonApproval (own rfl))

theorem does_negotiate (own : Own i id p s) (apart : p.receiverEndpointId ≠ l.endpointId) :
    Sends l i p (negotiate l p id) (fun _ _ => True) s := by
  refine does_then (does_free ((request_uses _).avoids rfl)) fun response t kept => ?_
  have failed (dst : TargetedTransferState) (fine : TargetedTransferState.awaitingApproval.allowed dst = true ∧
      dst ≠ .approved ∧ dst ≠ .completed ∧ dst ≠ .deleted) :
      Sends l i p (abandonOffer l id .awaitingApproval dst) (fun _ _ => True) t :=
    safe_mono (fun _ _ _ => trivial) (does_abandonOffer fine nofun)
  rcases response with _ | (_ | _ | _) | _ | _ | _ | _
  case some.offer.accepted => exact does_approve (own.later kept) apart
  case some.offer.declined => exact failed .declined ⟨rfl,nofun,nofun,nofun⟩
  all_goals exact failed .failed ⟨rfl,nofun,nofun,nofun⟩

theorem does_continue (own : Own i id p s) :
    Sends l i p (continueTargetedTransfer l p id) (fun _ _ => True) s := by
  have failed (t : State) : Sends l i p (abandonOffer l id .offering .failed) (fun _ _ => True) t :=
    safe_mono (fun _ _ _ => trivial) (does_abandonOffer ⟨rfl,nofun,nofun,nofun⟩ nofun)
  refine does_op rfl fun t c reachable t₁ _ a a' ok performed => ?_
  cases reachable with
  | false => exact failed t₁
  | true =>
    have apart : p.receiverEndpointId ≠ l.endpointId := by
      obtain ⟨d,ran,_⟩ := exec_targeted performed
      exact ok (Prod.mk.inj (Option.some.inj ran)).1
    refine does_op rfl fun _ _ challenged t₂ _ b b' _ _ => ?_
    cases challenged with
    | false => exact failed t₂
    | true =>
      refine does_op rfl fun _ _ proved t₃ _ c c' _ _ => ?_
      cases proved with
      | false => exact failed t₃
      | true =>
        refine does_write rfl (fun _ _ _ => ⟨rfl,nofun,nofun,nofun,nofun⟩) fun _ _ answer t₄ _ d d' _ => ?_
        cases answer with
        | ok _ =>
          have kept := ((a.trans a').trans (b.trans b')).trans ((c.trans c').trans (d.trans d'))
          exact does_negotiate (own.later kept) apart
        | error _ => exact safe_mono (fun _ _ _ => trivial) (does_teardown _)

theorem does_send : Sends l i p (Targeted.send l p) (fun _ _ => True) s := by
  refine does_bind (safe_mono (fun found t own => ?_) does_prepare)
  cases found with
  | none => trivial
  | some id => exact does_op rfl fun _ _ _ u _ a a' _ _ => does_continue (((own id rfl).later a).later a')

end Send

/-! Receiving, and the delivery of authorizations. -/

section Receive

variable {l : Local} {s t : State} {i : Nat} {call : RuntimeCall} {id : TransferId}
  {row : TargetedTransferRow}

def Received (id : TransferId) (s : State) : Prop :=
  ∃ r, Outbox.row s id = some r ∧ r.role = .receiver

theorem Received.later (received : Received id s) (kept : Kept i s t) : Received id t := by
  obtain ⟨r,here,receives⟩ := received
  obtain ⟨r',there,same,_⟩ := (kept.follows id).lasts r here (lasting_over (.inl receives))
  exact ⟨r',there,(congrArg Identity.role same).trans receives⟩

theorem Received.unapproved (received : Received id s) : Unapproved (Outbox.row s id) := by
  obtain ⟨r,here,receives⟩ := received
  exact Over.unapproved ⟨r,here,.inl receives⟩

theorem does_loadAuthorization : Does l i call (loadAuthorization l row) (fun found t => Kept i s t ∧
    ∀ auth, found = .ok (some auth) → row.authorizationSecretHandle ≠ none ∧
      ∃ blobTicket material, auth = reconstructAuthorization l.protocolVersion row blobTicket material) s := by
  unfold loadAuthorization
  split
  · rename_i handle blobTicket held _
    refine does_op rfl fun _ _ found t _ kept kept' _ _ => ?_
    have kept := kept.trans kept'
    cases found with
    | none => exact ⟨kept,nofun⟩
    | some material =>
      refine ⟨kept,fun auth same => ?_⟩
      cases same
      exact ⟨by simp [held],blobTicket,material,rfl⟩
  · exact ⟨.refl i s,nofun⟩

/-- Whoever loads an authorization that is made out to this device receives the transfer. -/
theorem does_loadReceiver : Does l i call (loadReceiverAuthorization l id) (fun found t => Kept i s t ∧
    ∀ auth, found = some auth → auth.transferId = id ∧ Received id t) s := by
  refine does_getRow (fun t e kept => ⟨kept,nofun⟩) fun t inv kept => ?_
  cases read : Outbox.row t id with
  | none => exact ⟨kept,nofun⟩
  | some row =>
    refine does_bind (safe_mono (fun found u loaded => ?_) does_loadAuthorization)
    obtain ⟨since,loaded⟩ := loaded
    have kept := kept.trans since
    cases found with
    | error e => exact ⟨kept,nofun⟩
    | ok found =>
      refine ⟨kept,fun auth same => ?_⟩
      obtain ⟨same,ours⟩ := Option.filter_eq_some_iff.mp same
      subst same
      obtain ⟨held,blobTicket,material,rfl⟩ := loaded auth rfl
      refine ⟨show row.id = id from Table.find_key read,?_⟩
      have receives : row.role = .receiver := by
        cases role : row.role with
        | receiver => rfl
        | sender => exact absurd (of_decide_eq_true ours) ((((inv.cells id).row row read).held held).2 role)
      exact Received.later ⟨row,read,receives⟩ since

theorem does_beginReceive (received : Received id s) :
    Does l i call (beginReceive id) (fun _ => Kept i s) s := by
  refine does_getRow (fun t e kept => kept) fun t _ kept => ?_
  cases read : Outbox.row t id with
  | none => exact kept
  | some row =>
    change Does l i call (if row.state = .approved ∨ row.state = .interrupted then _ else _) _ _
    split
    · rename_i starts
      refine does_write rfl (fun u _ since => ⟨?_,nofun,nofun,nofun,fun _ =>
        ((received.later kept).later since).unapproved⟩) fun _ _ answer u _ a a' _ => ?_
      · rcases starts with same | same <;> (rw [same]; rfl)
      · have kept := (kept.trans a).trans a'
        cases answer with
        | error e => exact kept
        | ok _ =>
          refine does_write rfl (fun _ _ _ => ⟨rfl,nofun,nofun,nofun,nofun⟩) fun _ _ answer v _ b b' _ => ?_
          have kept := (kept.trans b).trans b'
          cases answer <;> exact kept
    · exact kept

/-- The row that is completed is the row whose size was read. -/
theorem does_completeReceive {auth : TargetedAuthorization} (received : Received auth.transferId s) :
    Does l i call (completeReceive auth) (fun _ => Kept i s) s := by
  refine does_getRow (fun t e kept => kept) fun t _ kept => ?_
  obtain ⟨row,read,receives⟩ := received.later kept
  have keyed : row.id = auth.transferId := Table.find_key read
  have stands : Stands row t := stands_lasting read (lasting_over (.inl receives))
  rw [read]
  refine does_write rfl (fun u _ since r here _ => ?_) fun _ _ answer u _ a a' _ => ?_
  · have same := (stands.later since).found (keyed.symm ▸ here)
    exact congrArg Identity.totalSize same
  · have kept := (kept.trans a).trans a'
    cases answer with
    | error e => exact kept
    | ok _ =>
      refine does_then (safe_mono (fun _ _ since => since)
        (does_free ((acknowledgeCompletion_uses auth).avoids rfl))) fun acknowledged v since => ?_
      have kept := kept.trans since
      cases acknowledged with
      | false => exact kept
      | true => exact does_write rfl (fun _ _ _ => trivial) fun _ _ _ _ _ b b' _ => (kept.trans b).trans b'

theorem does_interruptReceive : Does l i call (interruptReceive id) (fun _ => Kept i s) s := by
  refine does_getRow (fun t e kept => kept) fun t _ kept => ?_
  cases Outbox.row t id with
  | none => exact kept
  | some row =>
    change Does l i call (if row.state = .connecting ∨ row.state = .transferring then _ else _) _ _
    split
    · exact does_bind (safe_mono (fun _ _ since => kept.trans since)
        (does_setStateFromAny ⟨nofun,nofun,nofun⟩ nofun))
    · exact kept

theorem does_runReceive {auth : TargetedAuthorization} (received : Received auth.transferId s) :
    Does l i call (runTargetedReceive l auth) (fun _ => Kept i s) s := by
  refine does_op rfl fun _ _ activated t _ kept kept' _ _ => ?_
  have kept := kept.trans kept'
  cases activated with
  | false => exact kept
  | true =>
    have received := received.later kept
    refine safe_mono (fun _ _ since => kept.trans since) (does_then ?_ fun _ u since => ?_)
    · refine does_then (does_beginReceive received) fun begun u a => ?_
      cases begun with
      | false => exact a
      | true =>
        cases parsed : l.ticketHash auth.blobTicket with
        | none =>
          dsimp only
          exact a
        | some hash =>
          dsimp only
          refine does_then (safe_mono (fun _ _ since => since)
            (does_free (receivePayload_uses.avoids rfl))) fun got v b => ?_
          have since := a.trans b
          cases got with
          | true =>
            have received := received.later since
            exact safe_mono (fun _ _ last => since.trans last) (does_completeReceive received)
          | false => exact safe_mono (fun _ _ last => since.trans last) does_interruptReceive
    · exact does_op rfl fun _ _ _ _ _ b b' _ _ => (since.trans b).trans b'

theorem does_receive : Does l i call (receiveTargetedTransfer l id) (fun _ => Kept i s) s := by
  refine does_bind (safe_mono (fun found t loaded => ?_) does_loadReceiver)
  obtain ⟨kept,loaded⟩ := loaded
  cases found with
  | none => exact kept
  | some auth =>
    obtain ⟨same,received⟩ := loaded auth rfl
    exact safe_mono (fun _ _ since => kept.trans since) (does_runReceive (same ▸ received))

theorem does_resume : Does l i call (resumeTargetedTransfer l id) (fun _ => Kept i s) s := by
  refine does_getRow (fun t e kept => kept) fun t _ kept => ?_
  cases Outbox.row t id with
  | none => exact kept
  | some row =>
    change Does l i call (if row.state.resumable then _ else _) _ _
    split
    · exact safe_mono (fun _ _ since => kept.trans since) does_receive
    · exact kept

theorem does_deliverStored : Does l i call (deliverStored l row) (fun ok t => Kept i s t ∧
    (ok = true → Answered l t.history row)) s := by
  refine does_bind (safe_mono (fun found t loaded => ?_) does_loadAuthorization)
  obtain ⟨kept,loaded⟩ := loaded
  rcases found with e | _ | auth
  · exact ⟨kept,nofun⟩
  · exact ⟨kept,nofun⟩
  · obtain ⟨_,blobTicket,material,rfl⟩ := loaded auth rfl
    refine does_op rfl fun _ _ reachable u _ a a' _ _ => ?_
    have kept := (kept.trans a).trans a'
    cases reachable with
    | false => exact ⟨kept,nofun⟩
    | true =>
      refine does_op rfl fun _ _ _ v _ b b' _ _ => does_op rfl fun v' _ response w _ c c' _ performed => ?_
      refine ⟨(kept.trans (b.trans b')).trans (c.trans c'),fun ok => ?_⟩
      obtain ⟨d,_,rfl⟩ := exec_targeted performed
      cases of_decide_eq_true ok
      exact ⟨blobTicket,material,List.mem_cons_self⟩

theorem does_retryDelivery : Does l i call (retryAuthorizationDelivery l) (fun _ => Kept i s) s := by
  refine does_op rfl fun t c listed u _ kept kept' _ performed => ?_
  cases listed with
  | none => exact kept.trans kept'
  | some row =>
    obtain ⟨d,ran,_⟩ := exec_targeted performed
    have listed : some row = t.state.device.store.pendingAuthorizationDelivery c.number c.now :=
      (Prod.mk.inj (Option.some.inj ran)).1.symm
    obtain ⟨read,due⟩ := Option.filter_eq_some_iff.mp listed.symm
    have last : lasting row = true := lasting_late (by
      simp only [Bool.and_eq_true,decide_eq_true_eq] at due
      rw [due.1.2]
      rfl)
    have stands : Stands row u := (stands_lasting (s := t) read last).later kept'
    have kept := kept.trans kept'
    refine does_bind (safe_mono (fun ok v delivered => ?_) does_deliverStored)
    obtain ⟨since,answered⟩ := delivered
    have kept := kept.trans since
    cases ok with
    | true =>
      refine does_write rfl (fun w _ since' r here _ => ?_) fun _ _ _ _ _ a a' _ => (kept.trans a).trans a'
      exact ((answered rfl).mono since'.answered).congr (((stands.later since).later since').found here)
    | false =>
      refine does_op rfl fun _ _ now w _ a a' _ _ => ?_
      exact does_write rfl (fun _ _ _ => trivial) fun _ _ _ _ _ b b' _ =>
        ((kept.trans (a.trans a')).trans b).trans b'

end Receive

/-! The runtime. -/

section Restore

variable {α β : Type} {l : Local} {s t : State} {i : Nat} {call : RuntimeCall}

theorem safe_calm {o : RuntimeOp} {f : RuntimeAns o → RuntimeTask β} {post : β → State → Prop}
    (is : calm o = true) (rest : ∀ t c r u, Inv l t → Kept i s t → Kept i t u →
      (machine l).exec t i call o c = some (r,u) → Safely l i call (f r) post u) :
    Safely l i call (perform o >>= f) post s := by
  intro t _ inv kept c r u _ performed
  obtain ⟨inv',kept'⟩ := step_calm is inv performed
  exact ⟨⟨inv',fun j _ => kept' j⟩,rest t c r u inv kept (kept' i) performed⟩

theorem safe_all {p : RuntimeTask α} (all : p.All (calm · = true)) :
    Safely l i call p (fun _ => Kept i s) s := by
  refine safe_quiet ?_ s
  induction p with
  | ret a => trivial
  | step o k ih =>
    exact ⟨fun t _ inv c r u _ performed => step_calm all.1 inv performed,fun r => ih r (all.2 r)⟩

theorem safe_then {p : RuntimeTask α} {f : α → RuntimeTask β} {post : β → State → Prop}
    (first : Safely l i call p (fun _ => Kept i s) s)
    (rest : ∀ a t, Kept i s t → Safely l i call (f a) post t) : Safely l i call (p >>= f) post s :=
  safe_bind (safe_mono (fun a t kept => rest a t kept) first)

theorem safe_clearUnsaved (intents : List (TransferId × EndpointId)) :
    Safely l i call (clearUnsavedIntents intents) (fun _ => Kept i s) s := by
  induction intents generalizing s with
  | nil => exact Kept.refl i s
  | cons intent intents ih =>
    refine safe_then (does_free (p := op (.ask .relationshipSaved)) (Prog.all_perform rfl)) fun saved t kept => ?_
    cases saved with
    | true => exact safe_mono (fun _ _ since => kept.trans since) ih
    | false =>
      refine safe_then (does_free (p := write (.clearAcceptedIntentIfSender ..)) (Prog.all_perform rfl))
        fun answer u since => ?_
      cases answer with
      | ok _ => exact safe_mono (fun _ _ last => (kept.trans since).trans last) ih
      | error e => exact kept.trans since

theorem revokedPeer_calm (peer : EndpointId) : (revokedPeer peer).All (calm · = true) := by
  refine Prog.all_bind (Prog.all_perform rfl) fun blocked => ?_
  rcases blocked with e | _ | _
  · trivial
  · exact Prog.all_bind (all_within (Prog.all_perform rfl)) fun _ => trivial
  · trivial

theorem safe_cancelRevoked (revoked : List EndpointId) (rows : List TargetedTransferRow) :
    Safely l i call (cancelRevokedPeers revoked rows) (fun _ => Kept i s) s := by
  induction rows generalizing revoked s with
  | nil => exact Kept.refl i s
  | cons row rows ih =>
    refine safe_then (safe_all (revokedPeer_calm _)) fun answer t kept => ?_
    rcases answer with _ | _ | _
    · exact kept
    · exact safe_mono (fun _ _ since => kept.trans since) (ih revoked)
    · change Safely l i call (if peerOf row ∈ revoked then _ else _) _ _
      split
      · exact safe_mono (fun _ _ since => kept.trans since) (ih revoked)
      · refine safe_then does_cancelForPeer fun done u since => ?_
        cases done with
        | false => exact kept.trans since
        | true => exact safe_mono (fun _ _ last => (kept.trans since).trans last) (ih _)

theorem safe_revokedAuthorization (row : TargetedTransferRow) :
    Safely l i call (revokedAuthorization row) (fun answer t => Kept i s t ∧
      (answer = some true → row.role = .receiver ∨ row.state.terminal = true)) s := by
  refine safe_calm rfl fun _ _ blocked t _ kept kept' _ => ?_
  have kept := kept.trans kept'
  cases blocked with
  | error e => exact ⟨kept,nofun⟩
  | ok blocked =>
    change Safely l i call (if row.state = .cancelled ∨ row.state = .deleted ∨ row.state = .failed then _
      else if row.role = .receiver then (if blocked then _ else _) else _) _ _
    split
    · rename_i ended
      refine ⟨kept,fun _ => .inr ?_⟩
      rcases ended with same | same | same <;> (rw [same]; rfl)
    · split
      · rename_i receives
        split
        · exact ⟨kept,fun _ => .inl receives⟩
        · exact safe_bind (safe_mono (fun _ _ since => ⟨kept.trans since,fun _ => .inl receives⟩)
            (does_free (p := op (.ask .relationshipSaved)) (Prog.all_perform rfl)))
      · exact ⟨kept,nofun⟩

theorem safe_releaseRevoked {rows : List TargetedTransferRow}
    (stands : ∀ row ∈ rows, Stands row s) :
    Safely l i call (releaseRevoked rows) (fun _ => Kept i s) s := by
  induction rows generalizing s with
  | nil => exact Kept.refl i s
  | cons row rows ih =>
    refine safe_bind (safe_mono (fun answer t revoked => ?_) (safe_revokedAuthorization row))
    obtain ⟨kept,finished⟩ := revoked
    have stands (row') (member : row' ∈ row :: rows) : Stands row' t := (stands row' member).later kept
    have rest (u : State) (since : Kept i t u) : Safely l i call (releaseRevoked rows) (fun _ => Kept i s) u :=
      safe_mono (fun _ _ last => (kept.trans since).trans last)
        (ih fun row' member => (stands row' (List.mem_cons_of_mem _ member)).later since)
    rcases answer with _ | _ | _
    · exact kept
    · exact rest t (.refl i t)
    · refine safe_then (does_release fun _ => (stands row List.mem_cons_self).over_of (finished rfl))
        fun released u since => ?_
      cases released with
      | false => exact kept.trans since
      | true => exact rest u since

theorem safe_restorePayload (row : TargetedTransferRow) :
    Safely l i call (restorePayload row) (fun _ => Kept i s) s := by
  refine safe_calm rfl fun _ _ members t _ kept kept' _ => ?_
  have kept := kept.trans kept'
  cases members with
  | none => exact kept
  | some members =>
    refine safe_then (does_free (p := op (.setTag row.id row.contentHash)) (Prog.all_perform rfl))
      fun tagged u since => ?_
    cases tagged <;> exact kept.trans since

theorem safe_restoreEach (kept₀ : List TransferId) (rows : List TargetedTransferRow) :
    Safely l i call (restoreEach kept₀ rows) (fun _ => Kept i s) s := by
  induction rows generalizing kept₀ s with
  | nil => exact Kept.refl i s
  | cons row rows ih =>
    refine safe_then (safe_all (revokedPeer_calm _)) fun revoked t kept => ?_
    rcases revoked with _ | _ | _
    · exact kept
    · refine safe_then (safe_restorePayload row) fun hashes u since => ?_
      have kept := kept.trans since
      cases hashes with
      | none =>
        intro v _ inv since c failed w _ performed
        obtain ⟨inv',kept'⟩ := step_fail inv performed
        refine ⟨⟨inv',fun j _ => kept' j⟩,?_⟩
        change Safely l i call (within (teardownTargetedPayload row.protocolTransferId row.id) >>=
          fun _ => restoreEach kept₀ rows) _ _
        refine safe_then (does_teardown _) fun _ x last => ?_
        exact safe_mono (fun _ _ ends => (((kept.trans since).trans (kept' i)).trans last).trans ends) (ih kept₀)
      | some hashes =>
        refine safe_then (does_free (p := grantRestored row hashes) ?_) fun _ v last => ?_
        · exact Prog.all_bind (Prog.all_perform rfl) fun _ => Prog.all_bind (Prog.all_perform rfl)
            fun _ => Prog.all_perform rfl
        · exact safe_mono (fun _ _ ends => (kept.trans last).trans ends) (ih _)
    · refine safe_bind (p := within (write (.transitionTerminal row.id .cancelled false)))
        (safe_mono (fun answer u since => ?_) (?_ : Does l i call (write
          (.transitionTerminal row.id .cancelled false) >>= fun r => return r) (fun _ => Kept i t) t))
      · have kept := kept.trans since
        cases answer with
        | error e => exact kept
        | ok _ =>
          refine safe_then (does_teardown _) fun _ v last => ?_
          exact safe_mono (fun _ _ ends => (kept.trans last).trans ends) (ih kept₀)
      · exact does_write rfl (fun _ _ _ => nofun) fun _ _ _ _ _ a a' _ => a.trans a'

theorem safe_restore : Safely l i call restoreTargetedTransferAccess (fun _ => Kept i s) s := by
  refine safe_calm rfl fun _ _ intents t _ kept kept' _ => ?_
  have kept := kept.trans kept'
  cases intents with
  | error e => exact kept
  | ok intents =>
    refine safe_then (safe_clearUnsaved intents) fun cleared t₁ a => ?_
    have kept := kept.trans a
    cases cleared with
    | false => exact kept
    | true =>
      refine safe_calm rfl fun _ _ rows t₂ _ b b' _ => ?_
      have kept := (kept.trans b).trans b'
      cases rows with
      | error e => exact kept
      | ok rows =>
        refine safe_then (safe_cancelRevoked [] rows) fun done t₃ c => ?_
        have kept := kept.trans c
        cases done with
        | false => exact kept
        | true =>
          refine safe_calm rfl fun t₄ choice held t₅ inv d d' performed => ?_
          have kept := (kept.trans d).trans d'
          cases held with
          | error e => exact kept
          | ok held =>
            obtain ⟨rt,ran,_⟩ := exec_machine performed
            have listed : Runtime.answerOr choice
                (t₄.state.rowsWhere (·.authorizationSecretHandle.isSome)) = .ok held :=
              (Prod.mk.inj (Option.some.inj ran)).1
            refine safe_then (safe_releaseRevoked fun row member => ?_) fun released t₆ e => ?_
            · unfold Runtime.answerOr at listed
              split at listed
              · cases listed
              · cases listed
                obtain ⟨member,held⟩ := List.mem_filter.mp member
                have here : Outbox.row t₄ row.id = some row := Table.find_of_mem member
                exact (stands_held inv here (Option.isSome_iff_ne_none.mp held)).later d'
            · have kept := kept.trans e
              cases released with
              | false => exact kept
              | true =>
                refine safe_calm rfl fun _ _ rows t₇ _ f f' _ => ?_
                have kept := (kept.trans f).trans f'
                cases rows with
                | error e => exact kept
                | ok rows =>
                  refine safe_then (safe_restoreEach [] rows) fun tagged t₈ g => ?_
                  have kept := kept.trans g
                  cases tagged with
                  | none => exact kept
                  | some tags => exact safe_calm rfl fun _ _ _ _ _ h h' _ => (kept.trans h).trans h'

theorem safe_forget (peer : EndpointId) :
    Safely l i call (forgetSavedDevice peer) (fun _ => Kept i s) s := by
  have revokes : (revokeRelationship peer).All (calm · = true) := by
    refine Prog.all_bind (Prog.all_perform rfl) fun found => ?_
    rcases found with e | generation
    · trivial
    · refine Prog.all_bind (?_ : (endRelationship peer generation).All _) fun ended => ?_
      · cases generation with
        | none => trivial
        | some generation =>
          refine Prog.all_bind (Prog.all_perform rfl) fun done => ?_
          cases done
          · trivial
          · exact Prog.all_perform rfl
      · cases ended with
        | false => trivial
        | true =>
          refine Prog.all_bind (Prog.all_perform rfl) fun removed => ?_
          cases removed <;> trivial
  refine safe_then (safe_all revokes) fun generation t kept => ?_
  cases generation with
  | none => exact kept
  | some generation =>
    refine safe_then does_cancelForPeer fun done u since => ?_
    have kept := kept.trans since
    cases done with
    | false => exact kept
    | true =>
      cases generation with
      | none => exact kept
      | some generation => exact safe_calm rfl fun _ _ _ _ _ a a' _ => (kept.trans a).trans a'

theorem revoke_calm (peer : EndpointId) (generation : Nat) :
    (handleRemoteRevoke peer generation).All (calm · = true) := by
  unfold handleRemoteRevoke staleNotice
  repeat' first
    | exact trivial
    | exact Prog.all_perform rfl
    | refine Prog.all_bind ?_ fun _ => ?_
    | split

theorem does_call (call : Call) :
    Does l i (.targeted call) (call.body l) (fun _ _ => True) s := by
  have answer (t : State) (peer : EndpointId) (r : Request) (response : Response) :
      Does l i (.targeted call) (op (.answer peer r response)) (fun _ _ => True) t :=
    safe_mono (fun _ _ _ => trivial) (does_free (Prog.all_perform rfl))
  have loose {p : Task Unit} (h : Does l i (.targeted call) p (fun _ => Kept i s) s) :
      Does l i (.targeted call) p (fun _ _ => True) s := safe_mono (fun _ _ _ => trivial) h
  cases call with
  | offered remote offer =>
    exact does_then (does_free ((handleOffer_uses _ _).avoids rfl)) fun _ t _ => answer t _ _ _
  | authorized remote delivery =>
    exact does_then (does_free ((handleAuthorization_uses _ _).avoids rfl)) fun _ t _ => answer t _ _ _
  | cancelled remote message => exact does_then (does_handleCancel remote message) fun _ t _ => answer t _ _ _
  | completed remote completion =>
    exact does_then (does_free ((handleCompletion_uses _ _).avoids rfl)) fun _ t _ => answer t _ _ _
  | respond id accepted =>
    exact does_then (does_free ((respondToTargetedOffer_uses accepted).avoids rfl)) fun _ _ _ => trivial
  | cancel id =>
    refine does_then (does_terminateLocal rfl) fun outcome t _ => ?_
    rcases outcome with e | _ | ⟨row,changed⟩
    · trivial
    · trivial
    · change Does l i (.targeted (.cancel id)) (if row.state = .deleted then _ else _) _ _
      split
      · trivial
      · exact safe_mono (fun _ _ _ => trivial) (does_notify _)
  | delete id =>
    refine does_then (does_terminateLocal rfl) fun outcome t _ => ?_
    rcases outcome with e | _ | ⟨row,_ | _⟩
    · trivial
    · trivial
    · trivial
    · exact safe_mono (fun _ _ _ => trivial) (does_notify _)
  | receive id => exact loose does_receive
  | resume id => exact loose does_resume
  | send payload => exact does_send
  | stop id => exact loose does_stop
  | terminatePeer peer => exact loose does_terminatePeer
  | retryCompletion => exact loose (does_free (retryCompletion_uses.avoids rfl))
  | retryAuthorizationDelivery => exact loose does_retryDelivery
  | releaseCompletedPayloads => exact loose (does_free (releaseCompletedPayloads_uses.avoids rfl))

theorem safe_call : Safely l i call (call.body l) (fun _ _ => True) s := by
  have dropped {α : Type} {p : RuntimeTask α} (h : Safely l i call p (fun _ => Kept i s) s) :
      Safely l i call (dropping p) (fun _ _ => True) s := safe_then h fun _ _ _ => trivial
  cases call with
  | targeted call => exact does_call call
  | restore => exact safe_mono (fun _ _ _ => trivial) safe_restore
  | forget peer => exact dropped (safe_forget peer)
  | block peer =>
    refine dropped (safe_calm rfl fun _ _ blocked t _ kept kept' _ => ?_)
    cases blocked with
    | false => exact kept.trans kept'
    | true => exact safe_mono (fun _ _ since => (kept.trans kept').trans since) (safe_forget peer)
  | unblock peer => exact dropped (safe_all (Prog.all_perform rfl))
  | revoked peer generation => exact dropped (safe_all (revoke_calm peer generation))

end Restore

/-! Every run. -/

section Reached

variable {l : Local} {c d : Conf State RuntimeCall RuntimeOp RuntimeAns}

theorem Inv.new {rt : Runtime} (new : rt.device = .new) : Inv l ⟨rt,.new⟩ := by
  refine ⟨fun id => ?_,nofun,nofun⟩
  dsimp only
  rw [new]
  exact ⟨nofun,nofun,nofun,nofun,nofun⟩

theorem reach_secured (reach : Reach (machine l).system (guard l).holds c) :
    Secured (machine l) (guard l) (terms l) (fun _ _ _ => True) c := by
  refine Programs.reach_secured (fun _ _ => trivial) ?_ (fun _ _ _ _ _ _ => safe_call)
    (fun _ _ _ _ _ _ => trivial) (fun _ _ _ _ inv _ happens => step_event inv happens) reach
  rintro ⟨rt,h⟩ ⟨new,rfl⟩
  exact .new new

/-- In every run, restarts included, the outboxes speak about rows they are meant for; and a
sender row that is approved, and whose authorization is not waiting to be delivered, has
had it answered `Stored` by its receiver. -/
theorem outboxes_sound (reach : Reach (machine l).system (guard l).holds c) (id : TransferId) :
    ((c.shared.state.device.store.authorizationDelivery.find id).isSome →
      ∃ r, row c.shared id = some r ∧ r.role = .sender ∧ r.state = .approved) ∧
    (∀ r, row c.shared id = some r → r.role = .sender → r.state = .approved →
      (c.shared.state.device.store.authorizationDelivery.find id).isSome ∨ Answered l c.shared.history r) ∧
    ((c.shared.state.device.store.completion.find id).isSome →
      ∃ r, row c.shared id = some r ∧ r.role = .receiver ∧ r.state = .completed) ∧
    ((c.shared.state.device.store.payloadRelease.find id).isSome →
      ∃ r, row c.shared id = some r ∧ r.role = .sender ∧ r.state = .completed) := by
  have ok := (reach_secured reach).inv.cells id
  refine ⟨ok.delivery,fun r here sends approved => ?_,ok.completion,ok.release⟩
  cases pending : (c.shared.state.device.store.authorizationDelivery.find id).isSome with
  | true => exact .inl rfl
  | false => exact .inr (ok.delivered r here sends approved pending)

end Reached

/-! Transfer 7 to device 2 is approved, the process restarts, and its authorization is
delivered. -/

namespace Sample

def start : Conf State RuntimeCall RuntimeOp RuntimeAns := ⟨⟨⟨.new,[],fun _ => none,[]⟩,.new⟩,[]⟩

def proceed (i : Nat) (flag : Bool) (response : Response) : Label RuntimeCall RuntimeChoice Event :=
  .act i ⟨⟨0,false,flag,7,some response,⟨[],false⟩⟩,[]⟩

def approving : List (Label RuntimeCall RuntimeChoice Event) :=
  .fork (.targeted (.send ⟨2,3,[],4,5,1,1⟩)) :: List.replicate 5 (proceed 0 true (.offer .accepted)) ++
    List.replicate 6 (proceed 0 false (.offer .accepted)) ++
    List.replicate 11 (proceed 0 true (.offer .accepted))

def delivering : List (Label RuntimeCall RuntimeChoice Event) :=
  .env .restart :: .fork (.targeted .retryAuthorizationDelivery) ::
    List.replicate 6 (proceed 1 true .stored)

def delivered : Conf State RuntimeCall RuntimeOp RuntimeAns :=
  ((machine Targeted.Sample.sender).system.run start (approving ++ delivering)).getD start

theorem start_new : (machine Targeted.Sample.sender).system.init start := ⟨⟨rfl,rfl⟩,rfl⟩

end Sample

instance (l : Local) (s : State) (call : RuntimeCall) : Decidable ((guard l).starts s call) :=
  .isTrue trivial

instance (l : Local) (s : State) (call : RuntimeCall) (op : RuntimeOp) (c : RuntimeChoice) :
    Decidable ((guard l).steps s call op c) := by
  dsimp only [guard]
  split <;> infer_instance

instance (l : Local) (s : State) (e : Event) : Decidable ((guard l).events s e) :=
  .isTrue trivial

theorem Sample.delivered_reached :
    Reach (machine Targeted.Sample.sender).system (guard Targeted.Sample.sender).holds delivered :=
  (Reach.start _ start_new).run (by decide)
    (show (machine Targeted.Sample.sender).system.run _ (approving ++ delivering) = some _ from rfl)

/-- The entry is gone: the receiver has answered. -/
theorem outboxes_delivered :
    ∃ r, row Sample.delivered.shared 7 = some r ∧ r.role = .sender ∧ r.state = .approved ∧
      Answered Targeted.Sample.sender Sample.delivered.shared.history r :=
  ⟨_,rfl,rfl,rfl,((outboxes_sound Sample.delivered_reached 7).2.1 _ rfl rfl rfl).resolve_left (by decide)⟩

end Vnidrop.Targeted.Outbox
