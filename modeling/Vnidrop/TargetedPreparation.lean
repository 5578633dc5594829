import Vnidrop.TargetedCourse

/-! A preparation that is approved while it is being stopped. The send that owns a
transfer and the stops that reach it run operation by operation; one of them wins, and
what the other has already done for the transfer is undone. -/
namespace Vnidrop.Targeted.Preparation

open Tables Access Programs Runs TargetedTransferState

section Send

variable {l : Local} {i : Nat} {id : TransferId} {k : Course} {s t u : State} {p : Payload}

/-- A read of the row, as a thread that relies on the others sees it. -/
theorem safe_getRow {α : Type} {call : Call} {f : Except VnidropError (Option TargetedTransferRow) → Task α}
    {post : α → State → Prop}
    (error : ∀ t e, (terms l).rely i s t → Safely l i call (f (.error e)) post t)
    (found : ∀ t, (terms l).inv t → (terms l).rely i s t →
      Safely l i call (f (.ok (t.state.store.getRow id))) post t) :
    Safely l i call (Targeted.op (.getRow id) >>= f) post s := by
  refine safe_read (fun _ _ _ _ h => ?_) fun t inv rely c answer _ performed => ?_
  · obtain ⟨d,ran,rfl⟩ := exec_machine h
    rw [Device.exec_reads rfl ran]
    rfl
  cases answer with
  | error e => exact error t e rely
  | ok row =>
    obtain ⟨d,ran,_⟩ := exec_machine performed
    rw [← Device.exec_getRow ran]
    exact found t inv rely

/-- No secret has been protected for the transfer. -/
theorem Mine.unprotected (mine : Mine i id k s) (none : k.secret = none) : ¬Remains l s id .secret := by
  rintro ⟨k₀,handle,course,secret,_⟩
  cases course.symm.trans mine.course
  rw [none] at secret
  cases secret

/-- A program that only looks, takes away, or moves an early row. -/
theorem safe_aside {α : Type} {q : Task α} {post : α → State → Prop}
    (quiet : q.All (Quiet (machine l) guard (terms l) i (.send p)))
    (h : ∀ a u, (terms l).rely i s u → post a u) : Safely l i (.send p) q post s :=
  safe_mono (fun a u rely => h a u rely) (safe_quiet quiet s)

theorem quiet_write {w : Write} (is : early w = true) :
    (write w).All (Quiet (machine l) guard (terms l) i (.send p)) :=
  Prog.all_perform (quiet_early is)

theorem safe_abandonOffer {src dst : TargetedTransferState}
    (is : early (.setState id src dst) = true) (mine : Mine i id k s)
    (secret : k.secret = none) :
    Safely l i (.send p) (abandonOffer l id src dst) (fun _ => Finished i (.send p)) s := by
  refine safe_bind (safe_aside (quiet_write is) fun _ u rely => ?_)
  have there := mine.later rely
  exact safe_teardown there (there.unprotected secret)

/-- The owner's row that has not been approved leaves for failed only from an early state. -/
theorem safe_failOwn (mine : Mine i id k s) :
    Safely l i (.send p) (setStateFromAny id .failed) (fun _ => (terms l).rely i s) s := by
  refine safe_getRow (fun t e rely => rely) fun t inv rely => ?_
  cases outcome : Store.setStateFromAnyRead (t.state.store.getRow id) .failed with
  | error e =>
    simp only [outcome]
    exact rely
  | ok src =>
    cases src with
    | none =>
      simp only [outcome]
      exact rely
    | some src =>
      obtain ⟨r,read,state,live⟩ := readFailed outcome
      have pre : r.state.preapproval = true := by
        by_contra settled
        have approved := ((inv.each id).live r k read (mine.later rely).course
          (by simpa using settled) live).1
        rw [mine.approved] at approved
        cases approved
      simp only [outcome]
      refine safe_aside (Prog.all_bind (quiet_write ?_) fun answer => ?_) fun _ u since =>
        (terms l).trans i rely since
      · rw [← state,early,pre]
        rfl
      · cases answer <;> exact Prog.all_pure _ _

theorem safe_abandonApproval (mine : Mine i id k s) (secret : ¬Remains l s id .secret) :
    Safely l i (.send p) (abandonApproval l id) (fun _ => Finished i (.send p)) s := by
  refine safe_bind (safe_mono (fun _ u rely => ?_) (safe_failOwn mine))
  exact safe_teardown (mine.later rely)
    fun left => secret ((rely id).shrinks k mine.course (.inl mine.owner) .secret left)

theorem remove_clears {call : Call} {handle : Handle} {c : Choice} {r : Bool} (ok : c.fails = false)
    (secret : k.secret = some handle) (course : s.history.course id = some k)
    (h : (machine l).exec s i call (.remove handle) c = some (r,u)) : ¬Remains l u id .secret := by
  obtain ⟨d,ran,rfl⟩ := exec_machine h
  simp only [Device.exec,ok,Bool.false_eq_true,if_false] at ran
  cases ran
  rintro ⟨k₀,handle₀,course₀,secret₀,held⟩
  cases course₀.symm.trans course
  cases secret₀.symm.trans secret
  exact held (Function.update_self ..)

theorem safe_protectSender {auth : TargetedAuthorization} (mine : Mine i auth.transferId k s)
    (secret : k.secret = none) :
    Safely l i (.send p) (protectSender auth) (fun ok u => if ok then Finished i (.send p) u
      else ∃ k', Mine i auth.transferId k' u ∧ ¬Remains l u auth.transferId .secret) s := by
  refine safe_perform fun t _ inv rely c answer u _ performed => ?_
  obtain ⟨steps,after⟩ := protect_step inv (mine.later rely) performed
  refine ⟨steps,?_⟩
  cases answer with
  | none => exact ⟨k,after,after.unprotected secret⟩
  | some handle =>
    refine safe_perform fun t₁ _ inv₁ rely₁ c₁ answer₁ u₁ _ performed₁ => ?_
    obtain ⟨steps₁,after₁⟩ := finalize_step (p := p) inv₁ (after.later rely₁) rfl performed₁
    refine ⟨steps₁,?_⟩
    cases answer₁ with
    | ok changed => exact after₁
    | error e =>
      refine safe_mild rfl fun t₂ c₂ removed u₂ rely₂ rely₃ ok₂ performed₂ => ?_
      have before := after₁.later rely₂
      exact ⟨_,before.later rely₃,remove_clears ok₂ rfl before.course performed₂⟩

theorem safe_approve (mine : Mine i id k s) (secret : k.secret = none) :
    Safely l i (.send p) (approve l p id) (fun _ => Finished i (.send p)) s := by
  refine safe_perform fun t _ inv rely c _ u _ performed => ?_
  obtain ⟨steps,mine₁⟩ := provide_step (by simp [provides]) inv (mine.later rely) performed
  refine ⟨steps,safe_mild rfl fun _ _ issued u₂ rely₂ rely₃ _ _ => ?_⟩
  have mine₂ := (mine₁.later rely₂).later rely₃
  cases issued with
  | false => exact safe_abandonApproval mine₂ (mine₂.unprotected secret)
  | true =>
    refine safe_mild rfl fun _ _ material u₃ rely₄ rely₅ _ _ => ?_
    have mine₃ := (mine₂.later rely₄).later rely₅
    refine safe_bind (safe_mono (fun ok u₄ ended => ?_) (safe_protectSender mine₃ secret))
    cases ok with
    | true => exact ended
    | false =>
      obtain ⟨k',mine₄,cleared⟩ := ended
      exact safe_abandonApproval mine₄ cleared

theorem safe_negotiate (mine : Mine i id k s) (secret : k.secret = none) :
    Safely l i (.send p) (negotiate l p id) (fun _ => Finished i (.send p)) s := by
  refine safe_bind (safe_mild rfl fun _ _ _ u rely₁ rely₂ _ _ => ?_)
  refine safe_mild rfl fun _ _ response u' rely₃ rely₄ _ _ => ?_
  have there := (((mine.later rely₁).later rely₂).later rely₃).later rely₄
  rcases response with _ | response
  · exact safe_abandonOffer rfl there secret
  · rcases response with (_ | _ | _) | _ | _ | _ | _
    · exact safe_approve there secret
    all_goals exact safe_abandonOffer rfl there secret

theorem safe_continue (mine : Mine i id k s) (secret : k.secret = none) :
    Safely l i (.send p) (continueTargetedTransfer l p id) (fun _ => Finished i (.send p)) s := by
  refine safe_mild rfl fun _ _ reachable u₁ rely₁ rely₁' _ _ => ?_
  have mine₁ := (mine.later rely₁).later rely₁'
  cases reachable with
  | false => exact safe_abandonOffer rfl mine₁ secret
  | true =>
    refine safe_mild rfl fun _ _ challenged u₂ rely₂ rely₂' _ _ => ?_
    have mine₂ := (mine₁.later rely₂).later rely₂'
    cases challenged with
    | false => exact safe_abandonOffer rfl mine₂ secret
    | true =>
      refine safe_mild rfl fun _ _ proved u₃ rely₃ rely₃' _ _ => ?_
      have mine₃ := (mine₂.later rely₃).later rely₃'
      cases proved with
      | false => exact safe_abandonOffer rfl mine₃ secret
      | true =>
        refine safe_bind (safe_aside (quiet_write rfl) fun answer u₄ rely₄ => ?_)
        have mine₄ := mine₃.later rely₄
        cases answer with
        | ok _ => exact safe_negotiate mine₄ secret
        | error _ => exact safe_teardown mine₄ (mine₄.unprotected secret)

/-- The teardown leaves nothing to be done, whatever the call goes on to answer. -/
theorem safe_tornNone (mine : Mine i id k s) (secret : k.secret = none)
    {post : Option TransferId → State → Prop} (h : ∀ u, Finished i (.send p) u → post none u) :
    Safely l i (.send p) (do
      teardownTargetedPayload (l.allocateProtocolTransferId id) id
      return none) post s :=
  safe_bind (safe_mono (fun _ u ended => h u ended) (safe_teardown mine (mine.unprotected secret)))

theorem safe_registerSender (row : TargetedTransferRow) (mine : Mine i row.id k s)
    (absent : k.inserted = false)
    (role : identity row = (.sender,l.allocateProtocolTransferId row.id)) (state : row.state.preapproval = true)
    (bare : row.authorizationSecretHandle = none) :
    Safely l i (.send p) (registerSender row) (fun ok u => ∃ k', Mine i row.id k' u ∧
      k'.secret = k.secret ∧ k'.registered = k.registered ∧ (ok = true → k'.inserted = true)) s := by
  refine safe_perform fun t _ inv rely c answer u _ performed => ?_
  obtain ⟨steps,after⟩ := insert_step inv (mine.later rely) absent role state bare performed
  refine ⟨steps,?_⟩
  cases answer with
  | error e => exact ⟨k,after,rfl,rfl,nofun⟩
  | ok changed =>
    refine safe_bind (safe_aside (quiet_write rfl) fun answer u₂ rely₂ => ?_)
    cases answer with
    | error e => exact ⟨_,after.later rely₂,rfl,rfl,nofun⟩
    | ok _ => exact ⟨_,after.later rely₂,rfl,rfl,fun _ => rfl⟩

theorem safe_prepare (idle : ∀ id k, s.history.course id = some k → k.owner ≠ i) :
    Safely l i (.send p) (prepareTargetedTransfer l p) (fun result u => match result with
      | none => Finished i (.send p) u
      | some id => ∃ k, Mine i id k u ∧ k.secret = none ∧ k.inserted = true) s := by
  have stays : ∀ u, (terms l).rely i s u → ∀ id k, u.history.course id = some k → k.owner ≠ i := by
    intro u rely id k there mine
    exact idle id k (((rely id).own k mine).mpr there) mine
  refine safe_mild rfl fun _ _ saved u₁ rely₁ rely₁' _ _ => ?_
  have idle₁ := stays u₁ ((terms l).trans i rely₁ rely₁')
  cases saved with
  | false => exact fun id k there mine => absurd mine (idle₁ id k there)
  | true =>
    refine safe_perform fun t _ inv rely c id u _ performed => ?_
    have idle₂ := stays t ((terms l).trans i ((terms l).trans i rely₁ rely₁') rely)
    obtain ⟨steps,mine⟩ := draw_step inv idle₂ performed
    refine ⟨steps,safe_perform fun t₂ _ inv₂ rely₂ c₂ tagged u₂ _ performed₂ => ?_⟩
    obtain ⟨steps₂,mine₂⟩ := provide_step (by simp [provides]) inv₂ (mine.later rely₂) performed₂
    refine ⟨steps₂,?_⟩
    cases tagged with
    | false => exact mine₂.unregistered (p := p) rfl
    | true =>
      refine safe_perform fun t₃ _ inv₃ rely₃ c₃ _ u₃ _ performed₃ => ?_
      obtain ⟨steps₃,mine₃⟩ := provide_step (by simp [provides]) inv₃ (mine₂.later rely₃) performed₃
      refine ⟨steps₃,safe_perform fun t₄ _ inv₄ rely₄ c₄ _ u₄ _ performed₄ => ?_⟩
      obtain ⟨steps₄,mine₄⟩ := provide_step (by simp [provides]) inv₄ (mine₃.later rely₄) performed₄
      refine ⟨steps₄,safe_mild rfl fun _ _ stopped u₅ rely₅ rely₅' _ _ => ?_⟩
      have mine₅ := (mine₄.later rely₅).later rely₅'
      cases stopped with
      | true => exact safe_tornNone mine₅ rfl fun _ ended => ended
      | false =>
        refine safe_mild rfl fun _ _ now u₆ rely₆ rely₆' _ _ => ?_
        have mine₆ := (mine₅.later rely₆).later rely₆'
        refine safe_bind (safe_mono (fun ok u₇ after => ?_)
          (safe_registerSender (senderRow l p id now) mine₆ rfl rfl rfl rfl))
        obtain ⟨k,mine₇,secret,unregistered,inserted⟩ := after
        cases ok with
        | false => exact safe_tornNone mine₇ secret fun _ ended => ended
        | true =>
          refine safe_mild rfl fun _ _ answer u₈ rely₈ rely₈' _ _ => ?_
          have mine₈ := (mine₇.later rely₈).later rely₈'
          cases answer with
          | error _ => exact mine₈.unregistered (p := p) unregistered
          | ok row =>
            cases row with
            | none => exact mine₈.unregistered (p := p) unregistered
            | some row => exact ⟨k,mine₈,secret,inserted rfl⟩

theorem safe_send (idle : ∀ id k, s.history.course id = some k → k.owner ≠ i) :
    Safely l i (.send p) (Targeted.send l p) (fun _ => Finished i (.send p)) s := by
  refine safe_bind (safe_mono (fun result u after => ?_) (safe_prepare idle))
  cases result with
  | none => exact after
  | some id =>
    obtain ⟨k,mine,secret,inserted⟩ := after
    refine safe_perform fun t _ inv rely c _ u₁ _ performed => ?_
    obtain ⟨steps,mine₁⟩ := registered_step inv (mine.later rely) inserted performed
    exact ⟨steps,safe_continue mine₁ secret⟩

end Send

/-! The stop. -/

section Stop

variable {l : Local} {i : Nat} {id : TransferId} {k : Course} {s t u : State}

def everything : List Trace := [.secret,.tag,.sessions,.mode,.hashes]

theorem mem_everything (x : Trace) : x ∈ everything := by
  cases x <;> decide

theorem deleteTag_clears {call : Call} {c : Choice} {r : Bool} (stop : mild call (.deleteTag id) = true)
    (ok : c.fails = false) (h : (machine l).exec s i call (.deleteTag id) c = some (r,u)) :
    r = true ∧ ¬Remains l u id .tag := by
  obtain ⟨d,ran,rfl⟩ := exec_machine h
  rw [mild_record stop]
  simp only [Device.exec,ok,Bool.false_eq_true,if_false] at ran
  cases ran
  exact ⟨rfl,fun there => there (Function.update_self ..)⟩

theorem remove_succeeds {call : Call} {handle : Handle} {c : Choice} {r : Bool} (ok : c.fails = false)
    (h : (machine l).exec s i call (.remove handle) c = some (r,u)) : r = true := by
  obtain ⟨d,ran,rfl⟩ := exec_machine h
  simp only [Device.exec,ok,Bool.false_eq_true,if_false] at ran
  cases ran
  rfl

theorem clear_succeeds {call : Call} {c : Choice} {r : Except VnidropError Bool} (ok : c.fails = false)
    (h : (machine l).exec s i call (.write (.clearAuthorization id)) c = some (r,u)) :
    ∃ changed, r = .ok changed := by
  obtain ⟨d,ran,rfl⟩ := exec_machine h
  simp only [Device.exec,ok,Bool.false_eq_true,if_false,Write.run] at ran
  cases ran
  exact ⟨true,rfl⟩

/-- The cleanup of a row without a secret; what it takes away has no say in the invariant. -/
theorem safe_cleanup_bare {row : TargetedTransferRow} (none : row.authorizationSecretHandle = none) :
    Safely l i (.stop id) (cleanup row) (fun ok u => ok = true ∧ (terms l).rely i s u) s := by
  have released : releaseSecret row = return true := by rw [releaseSecret,none]
  refine safe_mild rfl fun _ _ _ u₁ rely₁ since₁ _ _ => ?_
  refine safe_mild rfl fun _ _ _ u₂ rely₂ since₂ _ _ => ?_
  refine safe_mild rfl fun _ _ _ u₃ rely₃ since₃ _ _ => ?_
  refine safe_mild rfl fun _ _ _ u₄ rely₄ since₄ _ _ => ?_
  have far : (terms l).rely i s u₄ := (terms l).trans i (((terms l).trans i ((terms l).trans i
    ((terms l).trans i rely₁ since₁) ((terms l).trans i rely₂ since₂))
    ((terms l).trans i rely₃ since₃))) ((terms l).trans i rely₄ since₄)
  split
  · refine safe_mild rfl fun _ _ deleted u₅ rely₅ since₅ ok performed => ?_
    rw [(deleteTag_clears rfl ok performed).1,if_pos rfl,released]
    exact ⟨rfl,(terms l).trans i far ((terms l).trans i rely₅ since₅)⟩
  · rw [released]
    exact ⟨rfl,far⟩

/-- The cleanup of an approved row that has ended takes away all that it left. -/
theorem safe_cleanup_ended {row : TargetedTransferRow} {handle : Handle} (bare : Bare l i id k [] s)
    (keyed : row.id = id) (same : identity row = (.sender,l.allocateProtocolTransferId id))
    (held : row.authorizationSecretHandle = some handle) (secret : k.secret = some handle)
    (ended : ∃ r, s.state.store.getRow id = some r ∧ r.state.preapproval = false ∧
      r.state.terminal = true) :
    Safely l i (.stop id) (cleanup row)
      (fun ok u => ok = true ∧ (terms l).rely i s u ∧ Bare l i id k everything u) s := by
  obtain ⟨role,digest⟩ := Prod.mk.inj same
  have released := releaseSecret_held held
  unfold cleanup
  rw [role,digest,keyed,released,keyed]
  refine safe_mild rfl fun _ _ _ u₁ rely₁ since₁ _ _ => ?_
  have bare₁ := (bare.later rely₁).later since₁
  refine safe_clear bare₁ rfl (fun _ _ _ _ _ _ => unregister_clears) fun _ _ _ u₂ since₂ _ _ bare₂ => ?_
  refine safe_clear bare₂ rfl (fun _ _ _ _ _ _ => removeMode_clears) fun _ _ _ u₃ since₃ _ _ bare₃ => ?_
  refine safe_clear bare₃ rfl (fun _ _ _ _ _ _ => removeSessions_clears) fun _ _ _ u₄ since₄ _ _ bare₄ => ?_
  simp only [if_true]
  refine safe_clear bare₄ rfl (fun _ _ _ _ _ ok h => (deleteTag_clears rfl ok h).2)
    fun _ _ deleted u₅ since₅ ok₅ performed₅ bare₅ => ?_
  rw [(deleteTag_clears rfl ok₅ performed₅).1,if_pos rfl]
  refine safe_clear bare₅ rfl (fun _ _ _ _ course ok h => remove_clears ok secret course h)
    fun _ _ removed u₆ since₆ ok₆ performed₆ bare₆ => ?_
  rw [remove_succeeds ok₆ performed₆,if_pos rfl]
  have far : (terms l).rely i s u₆ := (terms l).trans i ((terms l).trans i ((terms l).trans i
    ((terms l).trans i ((terms l).trans i ((terms l).trans i rely₁ since₁) since₂) since₃) since₄)
    since₅) since₆
  refine safe_perform fun t _ inv rely c answer u ok performed => ?_
  obtain ⟨r,found,past,terminal⟩ := ended
  obtain ⟨r',there,_,kept⟩ := ((terms l).trans i far rely id).settled r found past
  obtain ⟨inv',relied⟩ := clear_step inv ⟨r',there,by rw [kept terminal]; exact terminal⟩ performed
  obtain ⟨changed,rfl⟩ := clear_succeeds ok performed
  exact ⟨⟨inv',fun j _ => relied j⟩,rfl,(terms l).trans i ((terms l).trans i far rely) (relied i),
    (bare₆.later rely).later (relied i)⟩

/-- The answer a stop is about to give, and what it still has to its name. -/
structure Ready (l : Local) (i : Nat) (id : TransferId) (outcome : TargetedPreparationStopOutcome)
    (s : State) : Prop where
  registered : id ∈ s.state.registered
  bears : (view l s id).bears i outcome
  only : ∀ id', (i,id') ∈ s.history.removing → id' = id
  bare : (i,id) ∉ s.history.removing ∨ ∃ k, Bare l i id k everything s

theorem bears_later {outcome : TargetedPreparationStopOutcome} (rely : (terms l).rely i s t)
    (bears : (view l s id).bears i outcome) : (view l t id).bears i outcome := by
  have late : ∀ {r : TargetedTransferRow}, r.state.terminal = true → r.state.preapproval = false := by
    intro r terminal
    by_contra early
    rw [preapproval_live (by simpa using early)] at terminal
    cases terminal
  cases outcome with
  | transferAbandoned => exact (rely id).gone bears
  | transferCancelled =>
    obtain ⟨r,found,state⟩ := bears
    have terminal : r.state.terminal = true := by rw [state]; rfl
    obtain ⟨r',there,_,kept⟩ := (rely id).settled r found (late terminal)
    exact ⟨r',there,(kept terminal).trans state⟩
  | alreadyTerminal =>
    obtain ⟨⟨r,found,terminal⟩,unmoved⟩ := bears
    obtain ⟨r',there,_,kept⟩ := (rely id).settled r found (late terminal)
    exact ⟨⟨r',there,by rw [kept terminal]; exact terminal⟩,fun moved => unmoved ((rely id).ended.mpr moved)⟩

theorem Ready.later {outcome : TargetedPreparationStopOutcome} (ready : Ready l i id outcome s)
    (rely : (terms l).rely i s t) : Ready l i id outcome t where
  registered := (rely id).registered ready.registered
  bears := bears_later rely ready.bears
  only id' there := ready.only id' ((rely id').removing.mpr there)
  bare := by
    rcases ready.bare with idle | ⟨k,bare⟩
    · exact .inl fun there => idle ((rely id).removing.mpr there)
    · exact .inr ⟨k,bare.later rely⟩

/-- What a stop knows from its start on. -/
structure Waiting (i : Nat) (id : TransferId) (s : State) : Prop where
  registered : id ∈ s.state.registered
  idle : ∀ id', (i,id') ∉ s.history.removing
  unmoved : (i,id) ∉ s.history.ended

theorem Waiting.later (w : Waiting i id s) (rely : (terms l).rely i s t) : Waiting i id t where
  registered := (rely id).registered w.registered
  idle id' there := w.idle id' ((rely id').removing.mpr there)
  unmoved there := w.unmoved ((rely id).ended.mpr there)

theorem Waiting.ready {outcome : TargetedPreparationStopOutcome} (w : Waiting i id s)
    (bears : (view l s id).bears i outcome) : Ready l i id outcome s :=
  ⟨w.registered,bears,fun id' there => absurd there (w.idle id'),.inl (w.idle id)⟩

theorem Waiting.gone (w : Waiting i id s) (inv : Inv l s) (absent : s.state.store.getRow id = none) :
    (view l s id).gone := by
  obtain ⟨k,course,inserted,_⟩ := (inv.each id).registered w.registered
  exact ⟨absent,k,course,inserted⟩

/-- The terminal half of `stop_preparation`, on a row that has been read settled. -/
theorem safe_stopCurrent {current : TargetedTransferRow} (w : Waiting i id s) (inv : Inv l s)
    (found : s.state.store.getRow id = some current) (late : current.state.preapproval = false)
    (live : current.state.terminal = false) :
    Safely l i (.stop id) (do
      match ← write (.transitionTerminal id .cancelled true) with
      | .error e => return .error e
      | .ok changed =>
        if ← cleanup current then
          return .ok (if changed then .transferCancelled else .alreadyTerminal)
        else return .error Device.unavailable :
          Task (Except VnidropError TargetedPreparationStopOutcome))
      (fun outcome u => match outcome with
        | .error _ => Finished i (.stop id) u
        | .ok outcome => Ready l i id outcome u) s := by
  obtain ⟨same,k,course,_⟩ := (inv.each id).row current found
  obtain ⟨approved,held,handle⟩ := (inv.each id).live current k found course late live
  obtain ⟨secret,kept⟩ := Option.ne_none_iff_exists'.mp held
  have bare : Bare l i id k [] s := ⟨course,.inr approved,by simp⟩
  refine safe_perform fun t _ inv₁ rely c answer u _ performed => ?_
  obtain ⟨r,there,past,_⟩ := (rely id).settled current found late
  have w₁ := w.later rely
  obtain ⟨steps,after⟩ := terminal_step inv₁ ⟨r,there,past⟩ performed
  refine ⟨steps,?_⟩
  cases answer with
  | error e =>
    cases after
    exact w₁.idle
  | ok changed =>
    obtain ⟨registered,removing,courses,unmoved,r',here,terminal,cancelled⟩ := after
    have bare₁ : Bare l i id k [] u :=
      ⟨by rw [courses]; exact (bare.later rely).course,.inr approved,by simp⟩
    have late' : r'.state.preapproval = false := by
      by_contra early
      rw [preapproval_live (by simpa using early)] at terminal
      cases terminal
    refine safe_bind (safe_mono (fun ok u₂ ended => ?_) (safe_cleanup_ended bare₁ (Table.find_key found) same
      (handle.trans kept) kept ⟨r',here,late',terminal⟩))
    obtain ⟨rfl,rely₂,bare₂⟩ := ended
    rw [if_pos rfl]
    have bears : (view l u id).bears i (if changed then .transferCancelled else .alreadyTerminal) := by
      cases changed with
      | true => exact ⟨r',here,cancelled rfl⟩
      | false => exact ⟨⟨r',here,terminal⟩,fun moved => w₁.unmoved ((unmoved rfl).mp moved)⟩
    have known : id ∈ u.state.registered := registered ▸ w₁.registered
    refine ⟨(rely₂ id).registered known,bears_later rely₂ bears,fun id' busy => ?_,.inr ⟨k,bare₂⟩⟩
    have old := (rely₂ id').removing.mpr busy
    change (i,id') ∈ u.history.removing at old
    rw [removing] at old
    rcases List.mem_cons.mp old with same | past
    · exact (Prod.mk.inj same).2
    · exact absurd past (w₁.idle id')

theorem safe_stopPreparation (w : Waiting i id s) :
    Safely l i (.stop id) (stopPreparation id) (fun outcome u => match outcome with
      | .error _ => Finished i (.stop id) u
      | .ok outcome => Ready l i id outcome u) s := by
  refine safe_getRow (fun t e rely => (w.later rely).idle) fun t inv rely => ?_
  have w₁ := w.later rely
  cases found : t.state.store.getRow id with
  | none => exact w₁.ready (w₁.gone inv found)
  | some row =>
    cases ended : row.state.terminal with
    | true =>
      simp only [ended,if_true]
      exact w₁.ready ⟨⟨row,found,ended⟩,w₁.unmoved⟩
    | false =>
      simp only [ended,Bool.false_eq_true,if_false]
      refine safe_perform fun t₂ _ inv₂ rely₂ c₂ answer u₂ _ performed₂ => ?_
      have w₂ := w₁.later rely₂
      obtain ⟨steps,removing,registered,after⟩ := abandon_step inv₂ performed₂
      refine ⟨steps,?_⟩
      rcases answer with e | _ | _
      · cases after
        exact w₂.idle
      · -- nothing was abandoned, so the row is settled or absent from now on
        obtain ⟨settled,relied⟩ := after
        refine safe_getRow (fun t₃ e rely₃ => ((w₂.later relied).later rely₃).idle) fun t₃ inv₃ rely₃ => ?_
        have w₃ := (w₂.later relied).later rely₃
        cases found₃ : t₃.state.store.getRow id with
        | none => exact w₃.ready (w₃.gone inv₃ found₃)
        | some current =>
          cases ended₃ : current.state.terminal with
          | true =>
            simp only [ended₃,if_true]
            exact w₃.ready ⟨⟨current,found₃,ended₃⟩,w₃.unmoved⟩
          | false =>
            simp only [ended₃,Bool.false_eq_true,if_false]
            refine safe_stopCurrent w₃ inv₃ found₃ ?_ ended₃
            have far := (terms l).trans i relied rely₃
            cases before : t₂.state.store.getRow id with
            | none =>
              have gone := (far id).gone (w₂.gone inv₂ before)
              exact absurd (gone.1.symm.trans found₃) nofun
            | some r₂ =>
              obtain ⟨r₃,there,past,_⟩ := (far id).settled r₂ before (settled r₂ before)
              cases there.symm.trans found₃
              exact past
      · -- the row that was read was early too, and holds no secret
        obtain ⟨⟨r₂,before,early⟩,gone⟩ := after
        have read : row.state.preapproval = true := by
          by_contra settled
          obtain ⟨r',there,past,_⟩ := (rely₂ id).settled row found (by simpa using settled)
          cases there.symm.trans before
          rw [early] at past
          cases past
        obtain ⟨_,k,course,_⟩ := (inv.each id).row row found
        have handle := ((inv.each id).early row k found course read).2
        have ready : Ready l i id .transferAbandoned u₂ :=
          ⟨registered ▸ w₂.registered,gone,fun id' there => absurd (removing ▸ there) (w₂.idle id'),
            .inl fun there => w₂.idle id (removing ▸ there)⟩
        refine safe_bind (safe_mono (fun ok u₃ after => ?_) (safe_cleanup_bare handle))
        obtain ⟨rfl,rely₃⟩ := after
        exact ready.later rely₃

theorem safe_stopped {outcome : TargetedPreparationStopOutcome} (ready : Ready l i id outcome s) :
    Safely l i (.stop id) (Targeted.op (.stopped id outcome)) (fun _ => Finished i (.stop id)) s := by
  refine safe_perform fun t _ inv rely c _ u _ performed => ?_
  have there := ready.later rely
  refine stopped_step inv there.registered there.bears (fun busy x left => ?_) there.only performed
  rcases there.bare with idle | ⟨k,bare⟩
  · exact idle busy
  · exact bare.cleared x (mem_everything x) left

theorem quiet_notify (peer : EndpointId) (terminal : Option TargetedTransferState) :
    (notifyCancel peer id terminal).All (Quiet (machine l) guard (terms l) i (.stop id)) := by
  refine Prog.all_bind (Prog.all_perform (quiet_mild rfl)) fun reachable => ?_
  cases reachable with
  | false => exact Prog.all_pure _ _
  | true =>
    refine Prog.all_bind (Prog.all_bind (Prog.all_perform (quiet_mild rfl)) fun _ =>
      Prog.all_perform (quiet_mild rfl)) fun _ => Prog.all_pure _ _

theorem safe_stop (w : Waiting i id s) :
    Safely l i (.stop id) (Targeted.stop id) (fun _ => Finished i (.stop id)) s := by
  refine safe_mild rfl fun _ _ _ u₁ rely₁ since₁ _ _ => ?_
  have w₁ := (w.later rely₁).later since₁
  refine safe_getRow (fun t e rely => (w₁.later rely).idle) fun t _ rely => ?_
  have w₂ := w₁.later rely
  generalize t.state.store.getRow id = row
  refine safe_bind (safe_mono (fun outcome u₂ after => ?_) (safe_stopPreparation w₂))
  cases outcome with
  | error e => exact after
  | ok outcome =>
    have told : ∀ peer terminal, Safely l i (.stop id) (do
        notifyCancel peer id terminal
        Targeted.op (.stopped id outcome)) (fun _ => Finished i (.stop id)) u₂ := by
      intro peer terminal
      refine safe_bind (safe_mono (fun _ u₃ rely₃ => ?_) (safe_quiet (quiet_notify peer terminal) u₂))
      exact safe_stopped (after.later rely₃)
    cases row with
    | none => exact safe_stopped after
    | some row =>
      cases outcome with
      | transferAbandoned => exact told row.receiverEndpointId none
      | transferCancelled => exact told row.receiverEndpointId (some .cancelled)
      | alreadyTerminal => exact safe_stopped after

end Stop

/-! Runs. -/

section Runs

variable {l : Local} {c d : Conf State Call Op Ans}

/-- The threads the history names: sends own, and stops remove. -/
structure Named (c : Conf State Call Op Ans) : Prop where
  owner : ∀ id k, c.shared.history.course id = some k →
    ∃ t p, c.threads[k.owner]? = some t ∧ t.call = .send p
  removing : ∀ j id, (j,id) ∈ c.shared.history.removing →
    ∃ t, c.threads[j]? = some t ∧ t.call = .stop id
  ended : ∀ j id, (j,id) ∈ c.shared.history.ended → ∃ t, c.threads[j]? = some t

theorem change_names {h : History} {id : TransferId} {f : Course → Course} (keeps : ∀ k, (f k).owner = k.owner)
    (id' : TransferId) (k : Course) (there : (h.change id f).course id' = some k) :
    ∃ k', h.course id' = some k' ∧ k'.owner = k.owner := by
  by_cases here : id' = id
  · rw [here] at there ⊢
    have there := (Function.update_self ..).symm.trans there
    obtain ⟨k',old,rfl⟩ := Option.map_eq_some_iff.mp there
    exact ⟨k',old,(keeps k').symm⟩
  · exact ⟨k,(Function.update_of_ne here _ _).symm.trans there,rfl⟩

/-- What one operation of thread `i` adds to the names in the history. -/
structure Names (h h' : History) (i : Nat) (call : Call) : Prop where
  owner : ∀ id k, h'.course id = some k →
    (∃ k', h.course id = some k' ∧ k'.owner = k.owner) ∨ k.owner = i ∧ ∃ p, call = .send p
  removing : ∀ j id, (j,id) ∈ h'.removing → (j,id) ∈ h.removing ∨ j = i ∧ call = .stop id
  ended : ∀ j id, (j,id) ∈ h'.ended → (j,id) ∈ h.ended ∨ j = i
  answers : ∀ x, x ∈ h.answers → x ∈ h'.answers

theorem Names.refl (h : History) (i : Nat) (call : Call) : Names h h i call :=
  ⟨fun _ k there => .inl ⟨k,there,rfl⟩,fun _ _ => .inl,fun _ _ => .inl,fun _ h => h⟩

theorem Names.change {h : History} {i : Nat} {call : Call} {id : TransferId} {f : Course → Course}
    (keeps : ∀ k, (f k).owner = k.owner) : Names h (h.change id f) i call :=
  ⟨fun id' k there => .inl (change_names keeps id' k there),fun _ _ => .inl,fun _ _ => .inl,fun _ h => h⟩

theorem Names.finish {h : History} {i : Nat} {call : Call} {id : TransferId} {changed : Bool} :
    Names h (h.finish i id changed) i call where
  owner _ k there := .inl ⟨k,there,rfl⟩
  removing _ _ := .inl
  ended _ _ there := (finish_ended.mp there).imp_right fun h => h.2.1
  answers _ h := h

theorem record_names (h : History) (s : Device) (i : Nat) (call : Call) (op : Op) (r : Ans op) :
    Names h (record h s i call op r) i call := by
  have same := Names.refl h i call
  cases op
  case drawTransferId =>
    cases call
    case send p =>
      refine ⟨fun id k there => ?_,fun _ _ => .inl,fun _ _ => .inl,fun _ h => h⟩
      change (h.draw i r).course id = some k at there
      rw [draw_course] at there
      split at there
      · cases there
        exact .inr ⟨rfl,p,rfl⟩
      · exact .inl ⟨k,there,rfl⟩
    all_goals exact same
  case registered => exact .change fun _ => rfl
  case protect =>
    cases r with
    | none => exact same
    | some handle => exact .change fun _ => rfl
  case deleteTag =>
    cases r with
    | false => exact same
    | true => cases call <;> first | exact same | exact .change fun _ => rfl
  case stopped id outcome =>
    refine ⟨fun _ k there => .inl ⟨k,there,rfl⟩,fun _ _ there => .inl (List.mem_of_mem_filter there),
      fun _ _ => .inl,fun _ there => List.mem_cons_of_mem _ there⟩
  case write w =>
    rcases r with e | changed
    · cases w <;> exact same
    cases w
    case insert => exact .change fun _ => rfl
    case finalizeSenderAuthorization => exact .change fun _ => rfl
    case abandonSenderPreapproval => exact .finish
    case transitionTerminal id dst clear =>
      have finished : Names h (h.finish i id changed) i call := .finish
      rw [record]
      split
      · rename_i stop
        refine ⟨finished.owner,fun j id' there => ?_,finished.ended,finished.answers⟩
        rcases List.mem_cons.mp there with here | old
        · obtain ⟨rfl,rfl⟩ := Prod.mk.inj here
          exact .inr ⟨rfl,stop⟩
        · exact .inl old
      · exact finished
    all_goals exact same
  all_goals exact same

/-- What a step does to the history, and to the threads that are there. -/
theorem next_names {a : Label Call Choice Housekeeping} (h : (machine l).next c a = some d) :
    ((∃ i t, c.threads[i]? = some t ∧ Names c.shared.history d.shared.history i t.call) ∨
      d.shared.history = c.shared.history) ∧
    ∀ (i : Nat) (t : Thread Call Op Ans), c.threads[i]? = some t →
      ∃ t', d.threads[i]? = some t' ∧ t'.call = t.call := by
  rcases next_cases h with ⟨call,rfl,_,rfl⟩ | ⟨i,choice,call,op,k,r,s,rfl,here,performed,rfl⟩ |
    ⟨e,s,rfl,moved,rfl⟩
  · refine ⟨.inr rfl,fun i t there => ⟨t,?_,rfl⟩⟩
    rw [List.getElem?_append_left (List.getElem?_eq_some_iff.mp there).1]
    exact there
  · obtain ⟨dev,_,rfl⟩ := exec_machine performed
    refine ⟨.inl ⟨i,_,here,record_names c.shared.history c.shared.state i call op r⟩,fun j t there => ?_⟩
    by_cases same : i = j
    · subst same
      cases there.symm.trans here
      exact ⟨⟨call,k r⟩,List.getElem?_set_self (List.getElem?_eq_some_iff.mp here).1,rfl⟩
    · exact ⟨t,by rw [List.getElem?_set_ne same]; exact there,rfl⟩
  · cases moved
    exact ⟨.inr rfl,fun i t there => ⟨t,there,rfl⟩⟩

theorem reach_named (reach : Reach (machine l).system guard.holds c) : Named c := by
  induction reach with
  | start c h =>
    obtain ⟨⟨_,first⟩,_⟩ := h
    refine ⟨fun id k there => ?_,fun j id there => ?_,fun j id there => ?_⟩ <;>
      (rw [first] at there; cases there)
  | @advance c d a past _ h ih =>
    obtain ⟨history,threads⟩ := next_names h
    rcases history with ⟨i,t,here,names⟩ | same
    · obtain ⟨t',there',call⟩ := threads i t here
      refine ⟨fun id k there => ?_,fun j id there => ?_,fun j id there => ?_⟩
      · rcases names.owner id k there with ⟨k',old,owner⟩ | ⟨owner,p,send⟩
        · obtain ⟨t₀,p,found,send⟩ := ih.owner id k' old
          obtain ⟨t₁,found₁,same⟩ := threads _ t₀ found
          exact ⟨t₁,p,owner ▸ found₁,same.trans send⟩
        · exact ⟨t',p,owner ▸ there',call.trans send⟩
      · rcases names.removing j id there with old | ⟨rfl,stop⟩
        · obtain ⟨t₀,found,stop⟩ := ih.removing j id old
          obtain ⟨t₁,found₁,same⟩ := threads _ t₀ found
          exact ⟨t₁,found₁,same.trans stop⟩
        · exact ⟨t',there',call.trans stop⟩
      · rcases names.ended j id there with old | rfl
        · obtain ⟨t₀,found⟩ := ih.ended j id old
          obtain ⟨t₁,found₁,_⟩ := threads _ t₀ found
          exact ⟨t₁,found₁⟩
        · exact ⟨t',there'⟩
    · refine ⟨fun id k there => ?_,fun j id there => ?_,fun j id there => ?_⟩ <;> rw [same] at there
      · obtain ⟨t₀,p,found,send⟩ := ih.owner id k there
        obtain ⟨t₁,found₁,kept⟩ := threads _ t₀ found
        exact ⟨t₁,p,found₁,kept.trans send⟩
      · obtain ⟨t₀,found,stop⟩ := ih.removing j id there
        obtain ⟨t₁,found₁,kept⟩ := threads _ t₀ found
        exact ⟨t₁,found₁,kept.trans stop⟩
      · obtain ⟨t₀,found⟩ := ih.ended j id there
        obtain ⟨t₁,found₁,_⟩ := threads _ t₀ found
        exact ⟨t₁,found₁⟩

theorem Inv.start (l : Local) : Inv l ⟨.new,⟨fun _ => none,[],[],[]⟩⟩ where
  apart := ⟨fun _ => by simp [Device.new],by simp [Device.new],by simp⟩
  each _ := {
    registered := by simp [view,Device.new]
    row := fun _ there => by cases there
    early := fun _ _ there => by cases there
    live := fun _ _ there => by cases there
    approved := fun _ there => by cases there
    torn := fun _ there => by cases there
    removed := fun _ there => by cases there
    answered := fun _ _ there => by cases there
    told := fun _ _ there => by cases there }

/-- Every reached state meets the invariant, and every finished call has left what it leaves. -/
theorem reach_secured (reach : Reach (machine l).system guard.holds c) :
    Secured (machine l) guard (terms l) Finished c := by
  refine Programs.reach_secured (fun _ _ => trivial) (fun s h => ?_) (fun c call past inv admitted ok => ?_)
    (fun i call _ t rely h => (finished_stable rely h : Finished i call t)) (fun _ _ _ _ _ ok _ => False.elim ok) reach
  · obtain ⟨device,history⟩ := h
    obtain ⟨state,past⟩ := s
    cases device
    cases history
    exact .start l
  · have named := reach_named past
    have fresh : ∀ j, (∃ t, c.threads[j]? = some t) → j ≠ c.threads.length := by
      rintro j ⟨t,there⟩ rfl
      simp at there
    cases call
    case send p =>
      refine safe_send fun id k there mine => ?_
      obtain ⟨t,_,found,_⟩ := named.owner id k there
      exact fresh _ ⟨t,found⟩ mine
    case stop id =>
      refine safe_stop ⟨of_decide_eq_true admitted,fun id' busy => ?_,fun moved => ?_⟩
      · obtain ⟨t,found,_⟩ := named.removing _ id' busy
        exact fresh _ ⟨t,found⟩ rfl
      · exact fresh _ (named.ended _ id moved) rfl
    all_goals exact False.elim ok

theorem run_answers {labels : List (Label Call Choice Housekeeping)}
    (h : (machine l).system.run c labels = some d) :
    ∀ x ∈ c.shared.history.answers, x ∈ d.shared.history.answers := by
  refine run_related (R := fun c d : Conf State Call Op Ans =>
    ∀ x ∈ c.shared.history.answers, x ∈ d.shared.history.answers) (fun _ _ h => h)
    (fun _ _ _ first second x h => second x (first x h)) (fun c a d h => ?_) h
  rcases (next_names h).1 with ⟨_,_,_,names⟩ | same
  · exact names.answers
  · rw [same]
    exact fun _ h => h

/-- Stops and sends have finished with the transfer: the stops of it, and the send that drew it. -/
def Done (c : Conf State Call Op Ans) (id : TransferId) : Prop :=
  ∀ (i : Nat) (t : Thread Call Op Ans), c.threads[i]? = some t →
    (t.call = .stop id ∨ ∃ k, c.shared.history.course id = some k ∧ k.owner = i) → t.rest.finished = true

theorem secured_finished {i : Nat} {t : Thread Call Op Ans}
    (secured : Secured (machine l) guard (terms l) Finished c) (there : c.threads[i]? = some t)
    (finished : t.rest.finished = true) : Finished i t.call c.shared := by
  have safe := secured.threads i t there
  cases rest : t.rest with
  | ret a =>
    rw [rest] at safe
    exact safe
  | step op k =>
    rw [rest] at finished
    cases finished

/-- A row that is gone or has ended has nothing left once all calls on it have finished. -/
theorem nothing_remains (reach : Reach (machine l).system guard.holds c) {id : TransferId}
    (ended : ∀ r, c.shared.state.store.getRow id = some r → r.state.terminal = true)
    (registered : id ∈ c.shared.state.registered) (done : Done c id) (x : Trace) :
    ¬Remains l c.shared id x := by
  intro left
  have secured := reach_secured reach
  have named := reach_named reach
  have holds := secured.inv.each id
  obtain ⟨k,course,_,flagged⟩ := holds.registered registered
  obtain ⟨t,p,found,send⟩ := named.owner id k course
  have finished := secured_finished secured found (done k.owner t found (.inr ⟨k,course,rfl⟩))
  rw [send] at finished
  have approved : k.approved = true :=
    (finished id k course rfl flagged).resolve_right fun torn => holds.torn k course torn x left
  rcases holds.removed k course approved x left with ⟨r,here,live⟩ | ⟨j,busy⟩
  · rw [ended r here] at live
    cases live
  · obtain ⟨t,found,stop⟩ := named.removing j id busy
    have finished := secured_finished secured found (done j t found (.inl stop))
    rw [stop] at finished
    exact finished id busy

/-- A stop that answers has abandoned or cancelled the transfer for good, or came too late. -/
theorem approve_or_abandon {labels : List (Label Call Choice Housekeeping)}
    (past : Reach (machine l).system guard.holds c)
    (meets : (machine l).system.Meets guard.holds c labels)
    (run : (machine l).system.run c labels = some d) {j : Nat} {id : TransferId}
    {outcome : TargetedPreparationStopOutcome} (answer : (j,id,outcome) ∈ c.shared.history.answers) :
    match outcome with
    | .transferAbandoned => d.shared.state.store.getRow id = none ∧
        (Done d id → ∀ x, ¬Remains l d.shared id x)
    | .transferCancelled =>
        (∃ r, d.shared.state.store.getRow id = some r ∧ r.state = .cancelled) ∧
        (Done d id → ∀ x, ¬Remains l d.shared id x)
    -- and it is not this stop that has ended the row
    | .alreadyTerminal =>
        (∃ r, c.shared.state.store.getRow id = some r ∧ r.state.terminal = true) ∧
        (j,id) ∉ c.shared.history.ended := by
  have reach := past.run meets run
  have later := (reach_secured reach).inv.each id
  have kept := run_answers run _ answer
  have registered := later.told j outcome kept
  cases outcome with
  | transferAbandoned =>
    have gone : d.shared.state.store.getRow id = none := (later.answered j _ kept).1
    refine ⟨gone,fun done => nothing_remains reach (fun r there => ?_) registered done⟩
    exact absurd (gone.symm.trans there) nofun
  | transferCancelled =>
    obtain ⟨r,there,state⟩ : ∃ r, d.shared.state.store.getRow id = some r ∧ r.state = .cancelled :=
      later.answered j _ kept
    refine ⟨⟨r,there,state⟩,fun done => nothing_remains reach (fun r' there' => ?_) registered done⟩
    cases there.symm.trans there'
    rw [state]
    rfl
  | alreadyTerminal => exact ((reach_secured past).inv.each id).answered j _ answer

private def sender : Local := ⟨1,1,10,100,8,id,fun _ => none⟩

private def proceed (i : Nat) (flag : Bool) : Label Call Choice Housekeeping :=
  .act i ⟨0,false,flag,7,none,⟨[],false⟩⟩

/-- A send registers its transfer, and a stop of it answers. -/
private def answered : List (Label Call Choice Housekeeping) :=
  .fork (.send ⟨2,3,[],4,5,1,1⟩) :: List.replicate 5 (proceed 0 true) ++
    List.replicate 6 (proceed 0 false) ++ .fork (.stop 7) :: List.replicate 11 (proceed 1 false)

/-- The send finds its row gone, and takes down what it has provided. -/
private def undone : List (Label Call Choice Housekeeping) := List.replicate 6 (proceed 0 false)

private def fresh : Conf State Call Op Ans := ⟨⟨.new,⟨fun _ => none,[],[],[]⟩⟩,[]⟩

private def answeredConf : Conf State Call Op Ans :=
  ((machine sender).system.run fresh answered).getD fresh

private def undoneConf : Conf State Call Op Ans :=
  ((machine sender).system.run answeredConf undone).getD fresh

instance (s : State) (call : Call) : Decidable (guard.starts s call) := by
  cases call <;> (dsimp only [guard]; infer_instance)

instance (s : State) (call : Call) (op : Op) (c : Choice) : Decidable (guard.steps s call op c) := by
  dsimp only [guard]
  split <;> infer_instance

instance (s : State) (e : Housekeeping) : Decidable (guard.events s e) :=
  inferInstanceAs (Decidable False)

private theorem undone_done : Done undoneConf 7 := by
  intro i t there _
  match i, there with
  | 0, there => cases there; rfl
  | 1, there => cases there; rfl
  | i + 2, there => exact absurd there (by simp [show undoneConf.threads.length ≤ i + 2 from Nat.le_add_left 2 i])

theorem abandoned_before_its_offer :
    undoneConf.shared.state.store.getRow 7 = none ∧ ∀ x, ¬Remains sender undoneConf.shared 7 x := by
  have start : Reach (machine sender).system guard.holds fresh := .start _ ⟨⟨rfl,rfl⟩,rfl⟩
  have past : Reach (machine sender).system guard.holds answeredConf := start.run (by decide)
    (show (machine sender).system.run _ answered = some answeredConf from rfl)
  have meets : (machine sender).system.Meets guard.holds answeredConf undone := by decide
  have answer : (1,7,TargetedPreparationStopOutcome.transferAbandoned) ∈
      answeredConf.shared.history.answers := by decide
  have both := approve_or_abandon past meets
    (show (machine sender).system.run _ undone = some undoneConf from rfl) answer
  exact ⟨both.1,both.2 undone_done⟩

end Runs

end Vnidrop.Targeted.Preparation
