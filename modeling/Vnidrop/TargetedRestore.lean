import Vnidrop.TargetedRows
import Vnidrop.TargetedRuntime

/-! Restoring provider access at start-up while the peers are already served. Access is
granted from a listing; a transfer that ends meanwhile stays closed if nobody has taken its
access down before the grant. -/
namespace Vnidrop.Targeted.Restore

open Tables Access Programs Runs TargetedTransferState

/-- The two ways a transfer is reachable. -/
inductive Opening where
  | hashes
  | sessions
  deriving DecidableEq, Repr

/-- The restore that has begun and whether it has listed the transfers; the protocol
identifiers it has listed and nobody has closed since; the transfers a call has ended and
not closed yet. -/
structure History where
  restorer : Option Nat
  granting : Bool
  due : Opening → List Nat
  owed : Opening → List (Nat × Nat)

namespace History

def new : History := ⟨none,false,fun _ => [],fun _ => []⟩

def close (h : History) (i : Nat) (x : Opening) (p : Nat) : History :=
  { h with
    due := Function.update h.due x ((h.due x).filter (· ≠ p))
    owed := Function.update h.owed x ((h.owed x).filter (· ≠ (i,p))) }

def finish (h : History) (i : Nat) (row : Option TargetedTransferRow) : History :=
  match row with
  | none => h
  | some row => { h with owed := fun x => (i,row.protocolTransferId) :: h.owed x }

end History

def record (h : History) (s : Runtime) (i : Nat) (_ : RuntimeCall) :
    (op : RuntimeOp) → RuntimeAns op → History
  | .acceptedIntentSenders, _ => { h with restorer := some i }
  | .resumableSenderRows, .ok rows =>
    { h with granting := true, due := fun _ => rows.map (·.protocolTransferId) }
  | .targeted (.unregisterTransferHashes p), _ => h.close i .hashes p
  | .targeted (.removeSessions p), _ => h.close i .sessions p
  | .targeted (.write (.transitionTerminal id _ _)), .ok true =>
    h.finish i (s.device.store.getRow id)
  | .failResumable id, true => h.finish i (s.device.store.getRow id)
  | _, _ => h

/-- Cancelled, Failed, Declined or Deleted. -/
def closes (state : TargetedTransferState) : Bool := state.terminal && state != .completed

def Reaches (s : Device) : Opening → Nat → Prop
  | .hashes, p => ∃ h, p ∈ s.hashes h
  | .sessions, p => ∃ e, s.policy.sessions p e ≠ none

/-- Whatever is stored at start-up: the provider does not know the stored sends yet, and
their protocol identifiers are unique. -/
structure Stored (s : Runtime) : Prop where
  closed : ∀ id r, s.device.store.getRow id = some r → r.role = .sender →
    ∀ x, ¬Reaches s.device x r.protocolTransferId
  unique : ∀ id id' r r', s.device.store.getRow id = some r → s.device.store.getRow id' = some r' →
    r.role = .sender → r'.role = .sender → r.protocolTransferId = r'.protocolTransferId → id = id'

abbrev State := Observed Runtime History

def machine (l : Local) : Machine State RuntimeCall RuntimeOp RuntimeAns RuntimeChoice Housekeeping :=
  (runtime l Stored).observe .new record fun h _ _ => h

/-- The restore, messages of the peers and local cancels. -/
def races : RuntimeCall → Bool
  | .restore | .revoked .. => true
  | .targeted (.offered ..) | .targeted (.authorized ..) | .targeted (.cancelled ..) => true
  | .targeted (.completed ..) | .targeted (.cancel _) | .targeted (.delete _) => true
  | _ => false

/-- There is one restore, and what it grants has not been taken down since it was listed. -/
def guard : Guard State RuntimeCall RuntimeOp RuntimeChoice Housekeeping where
  starts _ call := races call = true
  steps s _ op _ := match op with
    | .acceptedIntentSenders => s.history.restorer = none
    | .targeted (.registerShareHashes p _) => p ∈ s.history.due .hashes
    | .targeted (.approveEndpoint p _) => p ∈ s.history.due .sessions
    | _ => True
  events _ _ := False

structure Inv (s : State) : Prop where
  unique : ∀ id id' r r', s.state.device.store.getRow id = some r →
    s.state.device.store.getRow id' = some r' → r.role = .sender → r'.role = .sender →
    r.protocolTransferId = r'.protocolTransferId → id = id'
  /-- A closed transfer is reachable, or can become so, only while somebody is going to take
  it down. -/
  guarded : ∀ id r x, s.state.device.store.getRow id = some r → r.role = .sender →
    closes r.state = true →
    Reaches s.state.device x r.protocolTransferId ∨ r.protocolTransferId ∈ s.history.due x →
    ∃ j, (j,r.protocolTransferId) ∈ s.history.owed x
  quiet : s.history.granting = false → (∀ x, s.history.due x = []) ∧
    ∀ id r x, s.state.device.store.getRow id = some r → r.role = .sender →
      ¬Reaches s.state.device x r.protocolTransferId
  fresh : s.history.restorer = none → s.history.granting = false

/-- What thread `i` relies on. -/
structure Kept (i : Nat) (s t : State) : Prop where
  rows : ∀ id r, s.state.device.store.getRow id = some r → ∃ r',
    t.state.device.store.getRow id = some r' ∧ r'.protocolTransferId = r.protocolTransferId
  owed : ∀ x p, (i,p) ∈ t.history.owed x ↔ (i,p) ∈ s.history.owed x
  restorer : s.history.restorer = some i → t.history.restorer = some i ∧
    t.history.granting = s.history.granting

theorem Kept.refl (i : Nat) (s : State) : Kept i s s :=
  ⟨fun _ r here => ⟨r,here,rfl⟩,fun _ _ => Iff.rfl,fun mine => ⟨mine,rfl⟩⟩

theorem Kept.trans {i : Nat} {s t u : State} (f : Kept i s t) (g : Kept i t u) : Kept i s u where
  rows id r here := by
    obtain ⟨r',there,same⟩ := f.rows id r here
    obtain ⟨r'',later,same'⟩ := g.rows id r' there
    exact ⟨r'',later,same'.trans same⟩
  owed x p := (g.owed x p).trans (f.owed x p)
  restorer mine := by
    obtain ⟨still,granting⟩ := f.restorer mine
    obtain ⟨last,granting'⟩ := g.restorer still
    exact ⟨last,granting'.trans granting⟩

def terms : Terms State where
  known _ := True
  inv := Inv
  rely := Kept
  refl := Kept.refl
  trans i := Kept.trans (i := i)

abbrev Safely (l : Local) (i : Nat) (call : RuntimeCall) {α : Type} (p : RuntimeTask α)
    (post : α → State → Prop) (s : State) : Prop := Safe (machine l) guard terms i call p post s

/-- The thread owes nothing. -/
def Idle (i : Nat) (s : State) : Prop := ∀ x p, (i,p) ∉ s.history.owed x

/-! What the operations do. -/

/-- No transfer is opened, and no send is closed. -/
structure Steady (s t : Device) : Prop where
  rows : ∀ id r, s.store.getRow id = some r → ∃ r', t.store.getRow id = some r' ∧
    r'.protocolTransferId = r.protocolTransferId
  back : ∀ id r', t.store.getRow id = some r' → r'.role = .sender → ∃ r, s.store.getRow id = some r ∧
    r.role = .sender ∧ r.protocolTransferId = r'.protocolTransferId ∧
    (closes r'.state = true → closes r.state = true)
  reaches : ∀ x p, Reaches t x p → Reaches s x p

theorem Steady.refl (s : Device) : Steady s s :=
  ⟨fun _ r here => ⟨r,here,rfl⟩,fun _ r' here sends => ⟨r',here,sends,rfl,id⟩,fun _ _ h => h⟩

theorem Steady.of_eq {s t : Device} (store : t.store = s.store) (hashes : t.hashes = s.hashes)
    (sessions : t.policy.sessions = s.policy.sessions) : Steady s t where
  rows id r here := ⟨r,by rw [store]; exact here,rfl⟩
  back id r' here sends := ⟨r',by rw [← store]; exact here,sends,rfl,fun h => h⟩
  reaches x p reached := by
    cases x with
    | hashes => exact reached.imp fun h owned => hashes ▸ owned
    | sessions => exact reached.imp fun e held => sessions ▸ held

section Inv

variable {s : State} {rt : Runtime} {i : Nat}

theorem Inv.steady (inv : Inv s) (steady : Steady s.state.device rt.device) :
    Inv ⟨rt,s.history⟩ where
  unique id id' r r' here here' sends sends' same := by
    obtain ⟨r₀,was,role,protocol,_⟩ := steady.back id r here sends
    obtain ⟨r₁,was',role',protocol',_⟩ := steady.back id' r' here' sends'
    exact inv.unique id id' r₀ r₁ was was' role role' (protocol.trans (same.trans protocol'.symm))
  guarded id r x here sends closed reached := by
    obtain ⟨r₀,was,role,protocol,before⟩ := steady.back id r here sends
    rw [← protocol] at reached ⊢
    exact inv.guarded id r₀ x was role (before closed) (reached.imp_left (steady.reaches x _))
  quiet early := by
    obtain ⟨due,unreached⟩ := inv.quiet early
    refine ⟨due,fun id r x here sends reached => ?_⟩
    obtain ⟨r₀,was,role,protocol,_⟩ := steady.back id r here sends
    rw [← protocol] at reached
    exact unreached id r₀ x was role (steady.reaches x _ reached)
  fresh := inv.fresh

theorem Kept.steady (steady : Steady s.state.device rt.device) (j : Nat) : Kept j s ⟨rt,s.history⟩ :=
  ⟨steady.rows,fun _ _ => Iff.rfl,fun mine => ⟨mine,rfl⟩⟩

theorem mem_due {h : History} {x y : Opening} {p q : Nat} (due : q ∈ (h.close i x p).due y) :
    q ∈ h.due y ∧ ¬(y = x ∧ q = p) := by
  by_cases same : y = x
  · subst same
    simp only [History.close,Function.update_self,List.mem_filter,decide_eq_true_eq] at due
    exact ⟨due.1,fun both => due.2 both.2⟩
  · simp only [History.close,Function.update_of_ne same] at due
    exact ⟨due,fun both => same both.1⟩

theorem mem_owed {h : History} {x y : Opening} {p q j : Nat} :
    (j,q) ∈ (h.close i x p).owed y ↔ (j,q) ∈ h.owed y ∧ ¬(y = x ∧ j = i ∧ q = p) := by
  by_cases same : y = x
  · subst same
    simp [History.close,imp_iff_not_or]
  · simp [History.close,same]

/-- A step that closes one opening of a protocol identifier. -/
theorem Inv.close {x : Opening} {p : Nat} (inv : Inv s)
    (store : rt.device.store = s.state.device.store)
    (reaches : ∀ y q, Reaches rt.device y q → Reaches s.state.device y q ∧ ¬(y = x ∧ q = p)) :
    Inv ⟨rt,s.history.close i x p⟩ where
  unique id id' r r' here here' := by
    rw [store] at here here'
    exact inv.unique id id' r r' here here'
  guarded id r y here sends closed reached := by
    rw [store] at here
    have before : (Reaches s.state.device y r.protocolTransferId ∨
        r.protocolTransferId ∈ s.history.due y) ∧ ¬(y = x ∧ r.protocolTransferId = p) := by
      rcases reached with reached | due
      · exact (reaches y _ reached).imp_left .inl
      · exact (mem_due due).imp_left .inr
    obtain ⟨j,owed⟩ := inv.guarded id r y here sends closed before.1
    exact ⟨j,mem_owed.mpr ⟨owed,fun all => before.2 ⟨all.1,all.2.2⟩⟩⟩
  quiet early := by
    obtain ⟨due,unreached⟩ := inv.quiet early
    refine ⟨fun y => List.eq_nil_iff_forall_not_mem.mpr fun q member => ?_,
      fun id r y here sends reached => ?_⟩
    · have before := (mem_due member).1
      rw [due y] at before
      cases before
    · rw [store] at here
      exact unreached id r y here sends (reaches y _ reached).1
  fresh := inv.fresh

theorem Kept.close {x : Opening} {p : Nat} (store : rt.device.store = s.state.device.store)
    {j : Nat} (other : j ≠ i) : Kept j s ⟨rt,s.history.close i x p⟩ where
  rows id r here := ⟨r,by rw [store]; exact here,rfl⟩
  owed y q := mem_owed.trans (and_iff_left fun all => other all.2.1)
  restorer mine := ⟨mine,rfl⟩

/-- A grant of something that is due. -/
theorem Inv.grant {x : Opening} {p : Nat} (inv : Inv s)
    (store : rt.device.store = s.state.device.store)
    (reaches : ∀ y q, Reaches rt.device y q → Reaches s.state.device y q ∨ (y = x ∧ q = p))
    (due : p ∈ s.history.due x) : Inv ⟨rt,s.history⟩ where
  unique id id' r r' here here' := by
    rw [store] at here here'
    exact inv.unique id id' r r' here here'
  guarded id r y here sends closed reached := by
    rw [store] at here
    refine inv.guarded id r y here sends closed (reached.elim (fun reached => ?_) .inr)
    refine (reaches y _ reached).imp_right ?_
    rintro ⟨rfl,same⟩
    exact same ▸ due
  quiet early := by
    rw [(inv.quiet early).1 x] at due
    cases due
  fresh := inv.fresh

theorem Kept.grant (store : rt.device.store = s.state.device.store) (j : Nat) :
    Kept j s ⟨rt,s.history⟩ where
  rows id r here := ⟨r,by rw [store]; exact here,rfl⟩
  owed _ _ := Iff.rfl
  restorer mine := ⟨mine,rfl⟩

/-- The end of one transfer, by a call that from now on owes its closing. -/
structure Ends (s t : Device) (id : TransferId) (r : TargetedTransferRow) : Prop where
  was : s.store.getRow id = some r
  now : ∃ r', t.store.getRow id = some r' ∧ r'.protocolTransferId = r.protocolTransferId ∧
    r'.role = r.role
  others : ∀ id', id' ≠ id → t.store.getRow id' = s.store.getRow id'
  hashes : t.hashes = s.hashes
  policy : t.policy = s.policy

theorem Ends.reaches {s t : Device} {id : TransferId} {r : TargetedTransferRow} (h : Ends s t id r)
    {x : Opening} {p : Nat} : Reaches t x p ↔ Reaches s x p := by
  cases x <;> simp only [Reaches,h.hashes,h.policy]

/-- The row before, of any row after. -/
theorem Ends.back {s t : Device} {id : TransferId} {r : TargetedTransferRow} (h : Ends s t id r)
    {id' : TransferId} {r' : TargetedTransferRow} (there : t.store.getRow id' = some r') :
    ∃ r₀, s.store.getRow id' = some r₀ ∧ r₀.protocolTransferId = r'.protocolTransferId ∧
      r₀.role = r'.role ∧ (id' ≠ id → r' = r₀) := by
  by_cases same : id' = id
  · subst same
    obtain ⟨now,here,protocol,role⟩ := h.now
    cases there.symm.trans here
    exact ⟨r,h.was,protocol.symm,role.symm,fun other => absurd rfl other⟩
  · exact ⟨r',(h.others id' same).symm.trans there,rfl,rfl,fun _ => rfl⟩

theorem Ends.rows {s t : Device} {id : TransferId} {r : TargetedTransferRow} (h : Ends s t id r)
    {id' : TransferId} {r₀ : TargetedTransferRow} (here : s.store.getRow id' = some r₀) :
    ∃ r', t.store.getRow id' = some r' ∧ r'.protocolTransferId = r₀.protocolTransferId := by
  by_cases this : id' = id
  · subst this
    obtain ⟨now,there,protocol,_⟩ := h.now
    cases here.symm.trans h.was
    exact ⟨now,there,protocol⟩
  · exact ⟨r₀,(h.others id' this).trans here,rfl⟩

theorem Inv.finish {id : TransferId} {r : TargetedTransferRow} (inv : Inv s)
    (ends : Ends s.state.device rt.device id r) : Inv ⟨rt,s.history.finish i (some r)⟩ where
  unique id id' r r' here here' sends sends' same := by
    obtain ⟨r₀,was,protocol,role,_⟩ := ends.back here
    obtain ⟨r₁,was',protocol',role',_⟩ := ends.back here'
    exact inv.unique id id' r₀ r₁ was was' (role.trans sends) (role'.trans sends')
      (protocol.trans (same.trans protocol'.symm))
  guarded id' r' x here sends closed reached := by
    obtain ⟨r₀,was,protocol,role,same⟩ := ends.back here
    by_cases this : id' = id
    · subst this
      cases was.symm.trans ends.was
      exact ⟨i,by rw [← protocol]; exact List.mem_cons_self⟩
    · cases same this
      obtain ⟨j,owed⟩ := inv.guarded id' r' x was sends closed
        (reached.imp_left ends.reaches.mp)
      exact ⟨j,List.mem_cons_of_mem _ owed⟩
  quiet early := by
    obtain ⟨due,unreached⟩ := inv.quiet early
    refine ⟨due,fun id' r' x here sends reached => ?_⟩
    obtain ⟨r₀,was,protocol,role,_⟩ := ends.back here
    rw [← protocol] at reached
    exact unreached id' r₀ x was (role.trans sends) (ends.reaches.mp reached)
  fresh := inv.fresh

theorem Kept.finish {id : TransferId} {r : TargetedTransferRow}
    (ends : Ends s.state.device rt.device id r) {j : Nat} (other : j ≠ i) :
    Kept j s ⟨rt,s.history.finish i (some r)⟩ where
  rows _ _ here := ends.rows here
  owed x q := by simp [History.finish,other]
  restorer mine := ⟨mine,rfl⟩

end Inv

/-- Rows that change in place, without being closed. -/
theorem Steady.map {s : Device} {store : Store}
    (f : TransferId → TargetedTransferRow → TargetedTransferRow)
    (rows : ∀ id, store.getRow id = (s.store.getRow id).map (f id))
    (keeps : ∀ id r, (f id r).protocolTransferId = r.protocolTransferId ∧ (f id r).role = r.role ∧
      (closes (f id r).state = true → closes r.state = true)) : Steady s { s with store } where
  rows id r here := ⟨f id r,by rw [show _ = _ from rows id,here]; rfl,(keeps id r).1⟩
  back id r' here sends := by
    rw [show _ = _ from rows id] at here
    obtain ⟨r,was,rfl⟩ := Option.map_eq_some_iff.mp here
    exact ⟨r,was,(keeps id r).2.1 ▸ sends,(keeps id r).1.symm,(keeps id r).2.2⟩
  reaches _ _ reached := reached

def mildWrite : Write → Bool
  | .clearAcceptedOfferIntent _ | .clearAcceptedIntentIfSender .. => true
  | .persistReceiverAuthorization .. | .markSenderCompleted _ | .clearAuthorization _ => true
  | _ => false

theorem write_steady {s : Device} {store : Store} {w : Write} {now : Millis} {changed : Bool}
    (is : mildWrite w = true) (ran : w.run s.store now = .ok (changed,store)) :
    Steady s { s with store } := by
  cases w with
  | clearAcceptedOfferIntent id' =>
    exact .map (fun _ r => r) (fun id => by rw [run_getRow ran id]; simp [Write.onRow])
      fun _ _ => ⟨rfl,rfl,fun h => h⟩
  | clearAcceptedIntentIfSender id' sender =>
    exact .map (fun _ r => r) (fun id => by rw [run_getRow ran id]; simp [Write.onRow])
      fun _ _ => ⟨rfl,rfl,fun h => h⟩
  | markSenderCompleted id' =>
    refine .map (fun id r => if id = id' ∧ decide (r.role = .sender) && r.state.resumable then
        { r with state := .completed, verifiedBytes := r.totalSize, updatedAt := now } else r)
      (fun id => ?_) fun id r => ?_
    · rw [run_getRow ran id,Write.onRow]
      by_cases here : id = id' <;> simp [here]
    · split
      · refine ⟨rfl,rfl,fun closed => ?_⟩
        cases closed
      · exact ⟨rfl,rfl,fun h => h⟩
  | clearAuthorization id' =>
    refine .map (fun id r => if id = id' then
      { r with blobTicket := none, authorizationSecretHandle := none } else r)
      (fun id => ?_) fun id r => ?_
    · rw [run_getRow ran id,Write.onRow]
      by_cases here : id = id' <;> simp [here]
    · split <;> exact ⟨rfl,rfl,fun h => h⟩
  | persistReceiverAuthorization auth handle =>
    obtain ⟨_,persisted,same⟩ := except_map_ok ran
    cases same
    have absent := (persistReceiver_ok persisted).1
    have rows (id : TransferId) := run_getRow ran id
    refine ⟨fun id r here => ⟨r,?_,rfl⟩,fun id r' here sends => ⟨r',?_,sends,rfl,fun h => h⟩,
      fun _ _ h => h⟩
    · rw [show _ = _ from rows id,Write.onRow,if_neg]
      · exact here
      · rintro rfl
        rw [here] at absent
        cases absent
    · rw [show _ = _ from rows id,Write.onRow] at here
      split at here
      · cases here
        cases sends
      · exact here
  | _ => cases is

def mild : RuntimeOp → Bool
  | .acceptedIntentSenders | .resumableSenderRows | .failResumable _ => false
  | .targeted (.registerShareHashes ..) | .targeted (.approveEndpoint ..) => false
  | .targeted (.unregisterTransferHashes _) | .targeted (.removeSessions _) => false
  | .targeted (.write w) => mildWrite w
  | _ => true

theorem mild_steady {l : Local} {s t : Runtime} {c : RuntimeChoice} {op : RuntimeOp}
    {r : RuntimeAns op} (is : mild op = true) (h : s.exec l c op = some (r,t)) :
    Steady s.device t.device := by
  cases op with
  | targeted op =>
    obtain ⟨⟨r',d⟩,ran,same⟩ := Option.map_eq_some_iff.mp h
    cases same
    change Steady s.device d
    cases op with
    | write w =>
      rcases Device.exec_write ran with ⟨_,rfl⟩ | ⟨_,_,wrote,_,rfl⟩
      · exact .refl _
      · exact write_steady is wrote
    | _ =>
      simp only [Device.exec] at ran
      repeat' split at ran
      all_goals first
        | (cases is; done)
        | (cases ran; done)
        | (cases ran; exact .of_eq rfl rfl rfl)
        | (obtain ⟨_,_,same⟩ := Option.map_eq_some_iff.mp ran
           cases same
           exact .of_eq rfl rfl rfl)
  | _ =>
    simp only [Runtime.exec,Runtime.attempt] at h
    repeat' split at h
    all_goals first
      | (cases is; done)
      | (cases h; exact .of_eq rfl rfl rfl)

theorem mild_record {op : RuntimeOp} (is : mild op = true) (h : History) (s : Runtime) (i : Nat)
    (call : RuntimeCall) (r : RuntimeAns op) : record h s i call op r = h := by
  cases op with
  | targeted op =>
    cases op with
    | write w => cases w <;> first | (cases is; done) | rfl
    | _ => first | (cases is; done) | rfl
  | _ => first | (cases is; done) | rfl

/-! The rules of the single operations. -/

section Rules

variable {l : Local} {s t u : State} {i : Nat} {call : RuntimeCall} {c : RuntimeChoice}
  {op : RuntimeOp} {r : RuntimeAns op}

theorem exec_machine (h : (machine l).exec s i call op c = some (r,u)) :
    ∃ rt, s.state.exec l c op = some (r,rt) ∧ u = ⟨rt,record s.history s.state i call op r⟩ :=
  observe_exec h

theorem mild_step (is : mild op = true) (inv : Inv s)
    (h : (machine l).exec s i call op c = some (r,u)) : Inv u ∧ ∀ j, Kept j s u := by
  obtain ⟨rt,ran,rfl⟩ := exec_machine h
  have steady := mild_steady is ran
  rw [mild_record is]
  exact ⟨inv.steady steady,Kept.steady steady⟩

theorem quiet_mild (is : mild op = true) : Quiet (machine l) guard terms i call op :=
  fun _ _ inv _ _ _ _ performed => mild_step is inv performed

theorem safe_aside {α : Type} {p : RuntimeTask α} (all : p.All (mild · = true)) :
    Safely l i call p (fun _ => Kept i s) s := by
  refine safe_quiet ?_ s
  induction p with
  | ret a => exact trivial
  | step op k ih => exact ⟨quiet_mild all.1,fun r => ih r (all.2 r)⟩

theorem Idle.later (idle : Idle i s) (kept : Kept i s t) : Idle i t :=
  fun x p owed => idle x p ((kept.owed x p).mp owed)

/-- What closes one opening of a transfer. -/
def closing : RuntimeOp → Option (Opening × Nat)
  | .targeted (.unregisterTransferHashes p) => some (.hashes,p)
  | .targeted (.removeSessions p) => some (.sessions,p)
  | _ => none

theorem close_step {x : Opening} {p : Nat} (is : closing op = some (x,p)) (inv : Inv s)
    (h : (machine l).exec s i call op c = some (r,u)) :
    (Inv u ∧ ∀ j, j ≠ i → Kept j s u) ∧ u.state.device.store = s.state.device.store ∧
      u.history = s.history.close i x p := by
  obtain ⟨rt,ran,rfl⟩ := exec_machine h
  have facts : rt.device.store = s.state.device.store ∧
      (∀ y q, Reaches rt.device y q → Reaches s.state.device y q ∧ ¬(y = x ∧ q = p)) ∧
      record s.history s.state i call op r = s.history.close i x p := by
    cases op with
    | targeted op =>
      cases op with
      | unregisterTransferHashes p =>
        cases is
        cases ran
        refine ⟨rfl,fun y q reached => ?_,rfl⟩
        cases y with
        | hashes =>
          obtain ⟨h,owned⟩ := reached
          obtain ⟨before,other⟩ := List.mem_filter.mp owned
          exact ⟨⟨h,before⟩,fun same => by simp [same.2] at other⟩
        | sessions => exact ⟨reached,nofun⟩
      | removeSessions p =>
        cases is
        cases ran
        refine ⟨rfl,fun y q reached => ?_,rfl⟩
        cases y with
        | hashes => exact ⟨reached,nofun⟩
        | sessions =>
          obtain ⟨e,held⟩ := reached
          change (s.state.device.policy.removeSessions p).sessions q e ≠ none at held
          by_cases same : q = p
          · exact absurd (by simp [same]) held
          · exact ⟨⟨e,by simpa [same] using held⟩,fun both => same both.2⟩
      | _ => cases is
    | _ => cases is
  obtain ⟨store,reaches,recorded⟩ := facts
  rw [recorded]
  exact ⟨⟨inv.close store reaches,fun j other => Kept.close store other⟩,store,rfl⟩

/-- A step that ends one transfer, or nothing. -/
structure Finishes (i : Nat) (id : TransferId) (ended : Prop) (s u : State) : Prop where
  inv : Inv u
  others : ∀ j, j ≠ i → Kept j s u
  same : ¬ended → Kept i s u
  rows : ∀ id r, s.state.device.store.getRow id = some r → ∃ r',
    u.state.device.store.getRow id = some r' ∧ r'.protocolTransferId = r.protocolTransferId
  owes : ∀ row, s.state.device.store.getRow id = some row → ∀ x q, (i,q) ∈ u.history.owed x →
    (i,q) ∈ s.history.owed x ∨ q = row.protocolTransferId

theorem finishes_steady {rt : Runtime} {id : TransferId} {ended : Prop} (inv : Inv s)
    (steady : Steady s.state.device rt.device) : Finishes i id ended s ⟨rt,s.history⟩ :=
  ⟨inv.steady steady,fun j _ => Kept.steady steady j,fun _ => Kept.steady steady i,steady.rows,
    fun _ _ _ _ owed => .inl owed⟩

theorem finishes_ends {rt : Runtime} {id : TransferId} {row : TargetedTransferRow} {ended : Prop}
    (is : ended) (inv : Inv s) (ends : Ends s.state.device rt.device id row) :
    Finishes i id ended s ⟨rt,s.history.finish i (some row)⟩ where
  inv := inv.finish ends
  others _ other := Kept.finish ends other
  same not := absurd is not
  rows _ _ here := ends.rows here
  owes row' here x q owed := by
    cases here.symm.trans ends.was
    rcases List.mem_cons.mp owed with new | old
    · exact .inr (Prod.mk.inj new).2
    · exact .inl old

/-- Rows that only one identifier may end. -/
theorem ends_of_rows {d : Device} {store : Store} {id : TransferId} {row : TargetedTransferRow}
    {f : TargetedTransferRow → TargetedTransferRow} (was : d.store.getRow id = some row)
    (rows : ∀ id', store.getRow id' = if id' = id then (d.store.getRow id').map f else d.store.getRow id')
    (keeps : (f row).protocolTransferId = row.protocolTransferId ∧ (f row).role = row.role) :
    Ends d { d with store } id row where
  was := was
  now := ⟨f row,by rw [show _ = _ from rows id,if_pos rfl,was]; rfl,keeps⟩
  others id' other := by rw [show _ = _ from rows id',if_neg other]
  hashes := rfl
  policy := rfl

theorem transition_step {id : TransferId} {dst : TargetedTransferState} {clear : Bool}
    {r : Except VnidropError Bool} (inv : Inv s)
    (h : (machine l).exec s i call (.targeted (.write (.transitionTerminal id dst clear))) c =
      some (r,u)) : Finishes i id (r = .ok true) s u := by
  obtain ⟨rt,ran,rfl⟩ := exec_machine h
  obtain ⟨⟨r',d⟩,wrote,same⟩ := Option.map_eq_some_iff.mp ran
  cases same
  rcases Device.exec_write wrote with ⟨⟨e,rfl⟩,rfl⟩ | ⟨changed,store,run,rfl,rfl⟩
  · exact finishes_steady inv (.refl _)
  · have rows (id' : TransferId) := run_getRow run id'
    simp only [Write.onRow] at rows
    obtain ⟨_,flag⟩ := transitionTerminal_ok run
    cases changed with
    | false =>
      refine finishes_steady inv (.map (fun _ r => r) (fun id' => ?_) fun _ _ => ⟨rfl,rfl,fun h => h⟩)
      rw [rows id']
      by_cases here : id' = id
      · subst here
        cases found : s.state.device.store.getRow id' with
        | none => simp
        | some row =>
          rw [found] at flag
          have stays : Store.leavesFor dst row.state = false := flag.symm
          simp [stays]
      · simp [here]
    | true =>
      cases found : s.state.device.store.getRow id with
      | none =>
        rw [found] at flag
        cases flag
      | some row =>
        have recorded : record s.history s.state i call
            (.targeted (.write (.transitionTerminal id dst clear))) (.ok true) =
            s.history.finish i (some row) := by
          rw [← found]
          rfl
        rw [recorded]
        exact finishes_ends rfl inv (ends_of_rows found rows (by split <;> exact ⟨rfl,rfl⟩))

theorem fail_step {id : TransferId} {r : Bool} (inv : Inv s)
    (h : (machine l).exec s i call (.failResumable id) c = some (r,u)) : Finishes i id (r = true) s u := by
  obtain ⟨rt,ran,rfl⟩ := exec_machine h
  simp only [Runtime.exec] at ran
  split at ran
  · cases ran
    exact finishes_steady inv (.refl _)
  · unfold Store.failResumableAndClearDelivery at ran
    dsimp only at ran
    split at ran
    · rename_i affected
      cases ran
      obtain ⟨row,found,_⟩ := affected_row affected
      have recorded : record s.history s.state i call (.failResumable id) true =
          s.history.finish i (some row) := by
        rw [← found]
        rfl
      rw [recorded]
      refine finishes_ends rfl inv (ends_of_rows (f := fun r =>
        if r.state.resumable then { r with state := .failed, updatedAt := c.now } else r)
        found (fun id' => ?_) ?_)
      · exact updated_row (q := fun r => r.state.resumable)
          (f := fun r => { r with state := .failed, updatedAt := c.now })
          s.state.device.store.transfers id id' fun _ => rfl
      · split <;> exact ⟨rfl,rfl⟩
    · cases ran
      exact finishes_steady inv (.refl _)

end Rules

/-! The programs. -/

section Calls

variable {l : Local} {s t u : State} {i : Nat} {call : RuntimeCall}

/-- The row under `id` has this protocol identifier. -/
def Named (id : TransferId) (p : Nat) (s : State) : Prop :=
  ∃ r, s.state.device.store.getRow id = some r ∧ r.protocolTransferId = p

theorem Named.later {id : TransferId} {p : Nat} (named : Named id p s) (kept : Kept i s t) :
    Named id p t := by
  obtain ⟨r,here,same⟩ := named
  obtain ⟨r',there,same'⟩ := kept.rows id r here
  exact ⟨r',there,same'.trans same⟩

/-- What the thread still has to close is of this protocol identifier. -/
def Owes (i : Nat) (p : Nat) (s : State) : Prop := ∀ x q, (i,q) ∈ s.history.owed x → q = p

theorem Idle.owes (idle : Idle i s) (p : Nat) : Owes i p s :=
  fun x q owed => absurd owed (idle x q)

theorem Owes.later {p : Nat} (owes : Owes i p s) (kept : Kept i s t) : Owes i p t :=
  fun x q owed => owes x q ((kept.owed x q).mp owed)

/-- The thread is a restore that has not listed the transfers. -/
def Early (i : Nat) (s : State) : Prop := s.history.restorer = some i ∧ s.history.granting = false

theorem Early.later (early : Early i s) (kept : Kept i s t) : Early i t :=
  ⟨(kept.restorer early.1).1,(kept.restorer early.1).2.trans early.2⟩

/-- The thread has closed everything it has ended. -/
structure Cleared (i : Nat) (s t : State) : Prop where
  idle : Idle i t
  early : Early i s → Early i t
  names : ∀ id p, Named id p s → Named id p t

theorem Cleared.later (cleared : Cleared i s t) (kept : Kept i t u) : Cleared i s u :=
  ⟨cleared.idle.later kept,fun early => (cleared.early early).later kept,
    fun id p named => (cleared.names id p named).later kept⟩

theorem Cleared.after (kept : Kept i s t) (cleared : Cleared i t u) : Cleared i s u :=
  ⟨cleared.idle,fun early => cleared.early (early.later kept),
    fun id p named => cleared.names id p (named.later kept)⟩

/-- What a cleanup and a teardown have in common, and the rest of either. -/
def closeTransfer {α : Type} (p : Nat) (rest : RuntimeTask α) : RuntimeTask α := do
  perform (.targeted (.unregisterTransferHashes p))
  perform (.targeted (.removeMode p))
  perform (.targeted (.removeSessions p))
  rest

theorem safe_closeTransfer {α : Type} {p : Nat} {rest : RuntimeTask α}
    (all : rest.All (mild · = true)) (owes : Owes i p s) :
    Safely l i call (closeTransfer p rest) (fun _ => Cleared i s) s := by
  unfold closeTransfer
  refine safe_perform fun t _ inv since c r u _ performed => ?_
  obtain ⟨both,store,closed⟩ := close_step rfl inv performed
  refine ⟨both,?_⟩
  refine safe_perform fun v _ inv' between c r w ok performed' => ?_
  have aside := mild_step (by rfl) inv' performed'
  refine ⟨⟨aside.1,fun j _ => aside.2 j⟩,?_⟩
  refine safe_perform fun x _ inv'' between' c r y _ performed'' => ?_
  obtain ⟨both',store',closed'⟩ := close_step rfl inv'' performed''
  refine ⟨both',safe_mono (fun _ z later => ?_) (safe_aside all)⟩
  have middle : Kept i u x := between.trans ((aside.2 i).trans between')
  constructor
  · intro o q owed
    have here := (later.owed o q).mp owed
    rw [closed'] at here
    obtain ⟨before,other⟩ := mem_owed.mp here
    have there := (middle.owed o q).mp before
    rw [closed] at there
    obtain ⟨first,other'⟩ := mem_owed.mp there
    obtain rfl := owes o q ((since.owed o q).mp first)
    cases o with
    | hashes => exact other' ⟨rfl,rfl,rfl⟩
    | sessions => exact other ⟨rfl,rfl,rfl⟩
  · intro early
    have first := early.later since
    have second : Early i u := ⟨by rw [closed]; exact first.1,by rw [closed]; exact first.2⟩
    have third := second.later middle
    have fourth : Early i y := ⟨by rw [closed']; exact third.1,by rw [closed']; exact third.2⟩
    exact fourth.later later
  · intro id q named
    have first := named.later since
    have second : Named id q u := by rwa [Named,store]
    have third := second.later middle
    have fourth : Named id q y := by rwa [Named,store']
    exact fourth.later later

theorem mild_releaseSecret (row : TargetedTransferRow) :
    (within (releaseSecret row)).All (mild · = true) := by
  refine all_within ?_
  unfold releaseSecret
  split
  · exact trivial
  · refine ⟨rfl,fun removed => ?_⟩
    cases removed with
    | false => exact trivial
    | true =>
      refine ⟨rfl,fun cleared => ?_⟩
      cases cleared <;> exact trivial

/-- A cleanup, once the provider has forgotten the transfer. -/
def releasePayload (row : TargetedTransferRow) : Task Bool := do
  if row.role = .sender then
    if ← op (.deleteTag row.id) then releaseSecret row else return false
  else releaseSecret row

theorem within_cleanup (row : TargetedTransferRow) : within (cleanup row) =
    Prog.perform (.targeted (.deactivate row.id)) >>= fun _ =>
      closeTransfer row.protocolTransferId (within (releasePayload row)) := rfl

theorem mild_releasePayload (row : TargetedTransferRow) :
    (within (releasePayload row)).All (mild · = true) := by
  by_cases sends : row.role = .sender
  · have is : releasePayload row = (do
        if ← op (.deleteTag row.id) then releaseSecret row else return false) := if_pos sends
    rw [is]
    refine ⟨rfl,fun deleted => ?_⟩
    cases deleted with
    | false => exact trivial
    | true => exact mild_releaseSecret row
  · have is : releasePayload row = releaseSecret row := if_neg sends
    rw [is]
    exact mild_releaseSecret row

theorem safe_cleanup {row : TargetedTransferRow} (owes : Owes i row.protocolTransferId s) :
    Safely l i call (within (cleanup row)) (fun _ => Cleared i s) s := by
  rw [within_cleanup]
  refine safe_perform fun t _ inv since c r u ok performed => ?_
  have aside := mild_step (by rfl) inv performed
  refine ⟨⟨aside.1,fun j _ => aside.2 j⟩,?_⟩
  have kept := since.trans (aside.2 i)
  exact safe_mono (fun _ v => Cleared.after kept)
    (safe_closeTransfer (mild_releasePayload row) (owes.later kept))

theorem safe_teardown {id : TransferId} {p : Nat} (owes : Owes i p s) :
    Safely l i call (within (teardownTargetedPayload p id)) (fun _ => Cleared i s) s :=
  safe_closeTransfer ⟨rfl,fun _ => trivial⟩ owes

theorem Finishes.idle {id : TransferId} {ended : Prop} (finishes : Finishes i id ended s u)
    (idle : Idle i s) (not : ¬ended) : Idle i u := idle.later (finishes.same not)

/-- A snapshot of the row is enough to close what it was ended for. -/
theorem Finishes.owed {id : TransferId} {ended : Prop} {row : TargetedTransferRow}
    (finishes : Finishes i id ended t u) (idle : Idle i t)
    (named : Named id row.protocolTransferId t) : Owes i row.protocolTransferId u := by
  obtain ⟨now,here,same⟩ := named
  intro x q owed
  rcases finishes.owes now here x q owed with before | rfl
  · exact absurd before (idle x q)
  · exact same

theorem Finishes.names {id : TransferId} {ended : Prop} (finishes : Finishes i id ended s u)
    {id' : TransferId} {p : Nat} (named : Named id' p s) : Named id' p u := by
  obtain ⟨r,here,same⟩ := named
  obtain ⟨r',there,same'⟩ := finishes.rows id' r here
  exact ⟨r',there,same'.trans same⟩

theorem safe_cancelRow {row : TargetedTransferRow} (idle : Idle i s)
    (snapshot : s.state.device.store.getRow row.id = some row) :
    Safely l i call (within (cancelRow row)) (fun _ => Idle i) s := by
  unfold cancelRow
  split
  · exact safe_mono (fun _ _ cleared => cleared.idle) (safe_cleanup (idle.owes _))
  · split
    · exact idle
    · refine safe_perform (f := fun _ => within _) fun t _ inv kept c r u _ performed => ?_
      have finishes := transition_step inv performed
      refine ⟨⟨finishes.inv,finishes.others⟩,?_⟩
      rcases r with e | _ | _
      · exact finishes.idle (idle.later kept) nofun
      · exact finishes.idle (idle.later kept) nofun
      · exact safe_mono (fun _ _ cleared => cleared.idle)
          (safe_cleanup (finishes.owed (idle.later kept) (Named.later ⟨row,snapshot,rfl⟩ kept)))

theorem getRow_read {id : TransferId} {c : RuntimeChoice}
    {r : Except VnidropError (Option TargetedTransferRow)}
    (h : (machine l).exec s i call (.targeted (.getRow id)) c = some (r,u)) :
    u = s ∧ ∀ row, r = .ok row → s.state.device.store.getRow id = row := by
  obtain ⟨rt,ran,rfl⟩ := exec_machine h
  have mapped : ((s.state.device.exec l c.toChoice (.getRow id)).map fun (r,d) =>
      (r,s.state.setDevice d)) = some (r,rt) := ran
  obtain ⟨⟨r',d⟩,read,same⟩ := Option.map_eq_some_iff.mp mapped
  cases same
  obtain rfl := Device.exec_reads (by rfl) read
  refine ⟨rfl,fun row is => ?_⟩
  subst is
  exact Device.exec_getRow read

/-- A program that opens and ends nothing. -/
abbrev Mild {α : Type} (p : Task α) : Prop := p.All fun o => mild (.targeted o) = true

theorem safe_mild {α : Type} {p : Task α} (all : Mild p) (idle : Idle i s) :
    Safely l i call (within p) (fun _ => Idle i) s :=
  safe_mono (fun _ _ kept => idle.later kept) (safe_aside (all_within all))

theorem mild_discard (id : TransferId) : Mild (discard id) :=
  ⟨rfl,fun _ => ⟨rfl,fun _ => ⟨rfl,fun _ => trivial⟩⟩⟩

theorem mild_notifyCancel (peer : EndpointId) (id : TransferId)
    (terminal : Option TargetedTransferState) : Mild (notifyCancel peer id terminal) := by
  refine ⟨rfl,fun reachable => ?_⟩
  cases reachable with
  | false => exact trivial
  | true => exact ⟨rfl,fun _ => ⟨rfl,fun _ => trivial⟩⟩

theorem mild_handleOffer (remote : EndpointId) (offer : SubmitTargetedOffer) :
    Mild (handleOffer l remote offer) := by
  repeat' first
    | exact trivial
    | exact Prog.all_perform (by rfl)
    | refine Prog.all_bind ?_ fun _ => ?_
    | split

theorem mild_redeliverReceiver (row : TargetedTransferRow) (auth : TargetedAuthorization) :
    Mild (redeliverReceiver row auth) := by
  unfold redeliverReceiver
  repeat' first
    | exact trivial
    | exact Prog.all_perform (by rfl)
    | refine Prog.all_bind ?_ fun _ => ?_
    | split

theorem mild_handleAuthorization (remote : EndpointId) (delivery : DeliverTargetedAuthorization) :
    Mild (handleAuthorization l remote delivery) := by
  repeat' first
    | exact trivial
    | exact Prog.all_perform (by rfl)
    | exact mild_redeliverReceiver _ _
    | refine Prog.all_bind ?_ fun _ => ?_
    | split

theorem mild_handleCompletion (remote : EndpointId) (completion : CompleteTargetedTransfer) :
    Mild (handleCompletion l remote completion) := by
  repeat' first
    | exact trivial
    | exact Prog.all_perform (by rfl)
    | refine Prog.all_bind ?_ fun _ => ?_
    | split

theorem safe_cancelFromPeer {remote : EndpointId} {id : TransferId} (idle : Idle i s) :
    Safely l i call (within (cancelFromPeer remote id)) (fun _ => Idle i) s := by
  refine safe_perform (f := fun _ => within _) fun t _ inv kept c r u _ performed => ?_
  obtain ⟨rfl,found⟩ := getRow_read performed
  refine ⟨⟨inv,fun j _ => Kept.refl j u⟩,?_⟩
  have idle := idle.later kept
  rcases r with e | _ | row
  · exact idle
  · refine safe_mild ⟨rfl,fun cleared => ?_⟩ idle
    cases cleared <;> exact trivial
  · have here := found _ rfl
    change Safely l i call (within (if isPeer row remote then cancelRow row else _)) _ _
    split
    · exact safe_cancelRow idle (Table.find_key here ▸ here)
    · exact idle

theorem mild_cancelPending (remote : EndpointId) (pending : PendingTargetedOffer) (id : TransferId) :
    Mild (cancelPending remote pending id) := by
  unfold cancelPending
  repeat' first
    | exact trivial
    | exact Prog.all_perform (by rfl)
    | refine Prog.all_bind ?_ fun _ => ?_
    | split

theorem safe_handleCancel {remote : EndpointId} {message : CancelTargetedOffer} (idle : Idle i s) :
    Safely l i call (within (handleCancel remote message)) (fun _ => Idle i) s := by
  refine safe_perform (f := fun _ => within _) fun t known inv kept c r u ok performed => ?_
  have aside := mild_step (by rfl) inv performed
  refine ⟨⟨aside.1,fun j _ => aside.2 j⟩,?_⟩
  have idle := idle.later (kept.trans (aside.2 i))
  cases r with
  | some pending =>
    refine safe_mild (p := cancelPending remote pending message.transferId >>= _) ?_ idle
    exact Prog.all_bind (mild_cancelPending remote pending _) fun _ => trivial
  | none =>
    change Safely l i call (within (if _ then cancelFromPeer remote message.transferId >>= _ else _)) _ _
    split
    · rw [within_bind]
      exact safe_bind (safe_mono (fun done v idle => idle) (safe_cancelFromPeer idle))
    · exact idle

theorem safe_terminateLocal {id : TransferId} {state : TargetedTransferState} (idle : Idle i s) :
    Safely l i call (within (terminateLocal id state)) (fun _ => Idle i) s := by
  refine safe_perform (f := fun _ => within _) fun t _ inv kept c r u _ performed => ?_
  obtain ⟨rfl,found⟩ := getRow_read performed
  refine ⟨⟨inv,fun j _ => Kept.refl j u⟩,?_⟩
  have idle := idle.later kept
  have cleaned (row : TargetedTransferRow) (changed : Bool) {v : State}
      (owes : Owes i row.protocolTransferId v) : Safely l i call (within (do
        discard id
        if ← cleanup row then return .ok (some (row,changed)) else return .error Device.unavailable))
        (fun (_ : Except VnidropError (Option (TargetedTransferRow × Bool))) => Idle i) v := by
    rw [within_bind]
    refine safe_bind (safe_mono (fun _ w kept => ?_) (safe_aside (all_within (mild_discard id))))
    rw [within_bind]
    refine safe_bind (safe_mono (fun cleared x done => ?_) (safe_cleanup (owes.later kept)))
    cases cleared <;> exact done.idle
  rcases r with e | _ | row
  · exact idle
  · refine safe_mild (p := discard id >>= _) (Prog.all_bind (mild_discard id) fun _ => ?_) idle
    refine ⟨rfl,fun cleared => ?_⟩
    cases cleared <;> exact trivial
  · have here := found _ rfl
    change Safely l i call (within (if _ then (if _ then _ else _) else _)) _ _
    split
    · split
      · exact safe_mild (Prog.all_bind (mild_discard id) fun _ => trivial) idle
      · exact cleaned row false (idle.owes _)
    · refine safe_perform (f := fun _ => within _) fun t _ inv kept c r v _ performed => ?_
      have finishes := transition_step inv performed
      refine ⟨⟨finishes.inv,finishes.others⟩,?_⟩
      rcases r with e | changed
      · exact finishes.idle (idle.later kept) nofun
      · exact cleaned row changed (finishes.owed (idle.later kept) (Named.later ⟨row,here,rfl⟩ kept))

theorem mild_clearUnsavedIntents (intents : List (TransferId × EndpointId)) :
    (clearUnsavedIntents intents).All (mild · = true) := by
  induction intents with
  | nil => exact trivial
  | cons intent intents ih =>
    refine ⟨rfl,fun saved => ?_⟩
    cases saved with
    | true => exact ih
    | false =>
      refine ⟨rfl,fun cleared => ?_⟩
      cases cleared with
      | error e => exact trivial
      | ok _ => exact ih

theorem mild_revokedPeer (peer : EndpointId) : (revokedPeer peer).All (mild · = true) := by
  refine ⟨rfl,fun blocked => ?_⟩
  rcases blocked with e | _ | _
  · exact trivial
  · exact ⟨rfl,fun _ => trivial⟩
  · exact trivial

theorem mild_discardEach (ids : List TransferId) : Mild (discardEach ids) := by
  induction ids with
  | nil => exact trivial
  | cons id ids ih => exact Prog.all_bind (mild_discard id) fun _ => ih

theorem mild_rowsOf (ids : List TransferId) : Mild (rowsOf ids) := by
  induction ids with
  | nil => exact trivial
  | cons id ids ih =>
    refine ⟨rfl,fun found => ?_⟩
    cases found with
    | error e => exact trivial
    | ok row =>
      change Mild (rowsOf ids >>= _)
      refine Prog.all_bind ih fun rows => ?_
      cases rows <;> exact trivial

theorem mild_releaseRevoked (rows : List TargetedTransferRow) :
    (releaseRevoked rows).All (mild · = true) := by
  induction rows with
  | nil => exact trivial
  | cons row rows ih =>
    refine Prog.all_bind ?_ fun revoked => ?_
    · repeat' first
        | exact trivial
        | exact Prog.all_perform (by rfl)
        | refine Prog.all_bind ?_ fun _ => ?_
        | split
    · rcases revoked with _ | _ | _
      · exact trivial
      · exact ih
      · refine Prog.all_bind (mild_releaseSecret row) fun released => ?_
        cases released with
        | false => exact trivial
        | true => exact ih

/-- Before the listing, with nothing to close. -/
structure Opens (i : Nat) (s : State) : Prop where
  idle : Idle i s
  early : Early i s

theorem Opens.later (opens : Opens i s) (kept : Kept i s t) : Opens i t :=
  ⟨opens.idle.later kept,opens.early.later kept⟩

/-- While nothing is reachable, transfers can end without being closed. -/
theorem cancelByPeer_step {peer : EndpointId} {c : RuntimeChoice} {r : Except VnidropError Bool}
    (inv : Inv s) (early : Early i s)
    (h : (machine l).exec s i call (.targeted (.write (.cancelByPeer peer))) c = some (r,u)) :
    Inv u ∧ ∀ j, Kept j s u := by
  obtain ⟨rt,ran,rfl⟩ := exec_machine h
  obtain ⟨⟨r',d⟩,wrote,same⟩ := Option.map_eq_some_iff.mp ran
  cases same
  have recorded : record s.history s.state i call (.targeted (.write (.cancelByPeer peer))) r =
      s.history := rfl
  rw [recorded]
  rcases Device.exec_write wrote with ⟨_,rfl⟩ | ⟨changed,store,run,rfl,rfl⟩
  · exact ⟨inv.steady (.refl _),Kept.steady (.refl _)⟩
  · have rows (id : TransferId) := run_getRow run id
    simp only [Write.onRow] at rows
    obtain ⟨due,unreached⟩ := inv.quiet early.2
    have back {id : TransferId} {r : TargetedTransferRow} (here : store.getRow id = some r) :
        ∃ r₀, s.state.device.store.getRow id = some r₀ ∧ r₀.role = r.role ∧
          r₀.protocolTransferId = r.protocolTransferId := by
      rw [rows id] at here
      obtain ⟨r₀,was,rfl⟩ := Option.map_eq_some_iff.mp here
      exact ⟨r₀,was,by split <;> rfl,by split <;> rfl⟩
    have closed (id : TransferId) (r : TargetedTransferRow) (x : Opening)
        (here : store.getRow id = some r) (sends : r.role = .sender) :
        ¬Reaches s.state.device x r.protocolTransferId := by
      obtain ⟨r₀,was,role,protocol⟩ := back here
      rw [← protocol]
      exact unreached id r₀ x was (role.trans sends)
    refine ⟨⟨fun id id' r r' here here' sends sends' same => ?_,fun id r x here sends _ reached => ?_,
      fun _ => ⟨due,closed⟩,inv.fresh⟩,fun j => ⟨fun id r here => ?_,fun _ _ => Iff.rfl,
      fun mine => ⟨mine,rfl⟩⟩⟩
    · obtain ⟨r₀,was,role,protocol⟩ := back here
      obtain ⟨r₁,was',role',protocol'⟩ := back here'
      exact inv.unique id id' r₀ r₁ was was' (role.trans sends) (role'.trans sends')
        (protocol.trans (same.trans protocol'.symm))
    · rcases reached with reached | listed
      · exact absurd reached (closed id r x here sends)
      · rw [due x] at listed
        cases listed
    · change ∃ r', store.getRow id = some r' ∧ r'.protocolTransferId = r.protocolTransferId
      rw [rows id,here,Option.map_some]
      refine ⟨_,rfl,?_⟩
      split <;> rfl

theorem safe_cleanupAll {rows : List TargetedTransferRow} (opens : Opens i s) :
    Safely l i call (within (cleanupAll rows)) (fun _ => Opens i) s := by
  induction rows generalizing s with
  | nil => exact opens
  | cons row rows ih =>
    change Safely l i call (within (cleanup row >>= _)) _ _
    rw [within_bind]
    refine safe_bind (safe_mono (fun done t cleared => ?_) (safe_cleanup (opens.idle.owes _)))
    have opens : Opens i t := ⟨cleared.idle,cleared.early opens.early⟩
    cases done with
    | false => exact opens
    | true => exact ih opens

theorem safe_cancelForPeer {peer : EndpointId} (opens : Opens i s) :
    Safely l i call (within (cancelTargetedTransfersForPeer peer)) (fun _ => Opens i) s := by
  unfold cancelTargetedTransfersForPeer
  rw [within_bind]
  refine safe_bind (safe_mono (fun pending t kept => ?_)
    (safe_aside (all_within (Prog.all_perform (by rfl)))))
  replace opens := opens.later kept
  rw [within_bind]
  refine safe_bind (safe_mono (fun _ t kept => ?_) (safe_aside (all_within (mild_discardEach _))))
  replace opens := opens.later kept
  rw [within_bind]
  refine safe_bind (safe_mono (fun ids t kept => ?_)
    (safe_aside (all_within (Prog.all_perform (by rfl)))))
  replace opens := opens.later kept
  cases ids with
  | error e => exact opens
  | ok ids =>
    change Safely l i call (within (rowsOf ids >>= _)) _ _
    rw [within_bind]
    refine safe_bind (safe_mono (fun found t kept => ?_) (safe_aside (all_within (mild_rowsOf ids))))
    replace opens := opens.later kept
    cases found with
    | error e => exact opens
    | ok rows =>
      refine safe_perform (f := fun _ => within _) fun v _ inv kept c r w _ performed => ?_
      replace opens := opens.later kept
      obtain ⟨after,others⟩ := cancelByPeer_step inv opens.early performed
      refine ⟨⟨after,fun j _ => others j⟩,?_⟩
      replace opens := opens.later (others i)
      cases r with
      | error e => exact opens
      | ok changed => exact safe_cleanupAll opens

theorem safe_cancelRevokedPeers {revoked : List EndpointId} {rows : List TargetedTransferRow}
    (opens : Opens i s) :
    Safely l i call (cancelRevokedPeers revoked rows) (fun _ => Opens i) s := by
  induction rows generalizing revoked s with
  | nil => exact opens
  | cons row rows ih =>
    change Safely l i call (revokedPeer (peerOf row) >>= _) _ _
    refine safe_bind (safe_mono (fun found t kept => ?_) (safe_aside (mild_revokedPeer _)))
    replace opens := opens.later kept
    rcases found with _ | _ | _
    · exact opens
    · exact ih opens
    · change Safely l i call (if _ then _ else within (cancelTargetedTransfersForPeer _) >>= _) _ _
      split
      · exact ih opens
      · refine safe_bind (safe_mono (fun done t opens => ?_) (safe_cancelForPeer opens))
        cases done with
        | false => exact opens
        | true => exact ih opens

theorem listing_step {c : RuntimeChoice} {r : Except VnidropError (List TargetedTransferRow)}
    (inv : Inv s) (early : Early i s)
    (h : (machine l).exec s i call .resumableSenderRows c = some (r,u)) :
    (Inv u ∧ ∀ j, j ≠ i → Kept j s u) ∧ u.history.owed = s.history.owed ∧
      ∀ rows, r = .ok rows → ∀ row ∈ rows, Named row.id row.protocolTransferId u := by
  obtain ⟨rt,ran,rfl⟩ := exec_machine h
  have same : rt = s.state := (Prod.mk.inj (Option.some.inj ran)).2.symm
  have answer : (if c.fails then Except.error Device.unavailable else .ok
      (s.state.rowsWhere fun r => r.role = .sender && r.state.resumable)) = r :=
    (Prod.mk.inj (Option.some.inj ran)).1
  subst same
  split at answer
  · subst answer
    exact ⟨⟨inv,fun j _ => Kept.refl j _⟩,rfl,nofun⟩
  · subst answer
    have listed {row : TargetedTransferRow} (member : row ∈ s.state.rowsWhere fun r =>
        r.role = .sender && r.state.resumable) : s.state.device.store.getRow row.id = some row ∧
        row.role = .sender ∧ row.state.resumable = true := by
      obtain ⟨inside,holds⟩ := List.mem_filter.mp member
      simp only [Bool.and_eq_true,decide_eq_true_eq] at holds
      exact ⟨Table.find_of_mem inside,holds⟩
    refine ⟨⟨⟨inv.unique,fun id r x here sends closed reached => ?_,nofun,fun none => ?_⟩,
      fun j other => ?_⟩,rfl,fun rows is row member => ?_⟩
    · rcases reached with reached | due
      · exact absurd reached ((inv.quiet early.2).2 id r x here sends)
      · obtain ⟨row,member,same⟩ := List.mem_map.mp due
        obtain ⟨there,sends',resumable⟩ := listed member
        obtain rfl := inv.unique id row.id r row here there sends sends' same.symm
        cases here.symm.trans there
        exfalso
        revert closed resumable
        cases r.state <;> decide
    · change s.history.restorer = Option.none at none
      rw [early.1] at none
      cases none
    · refine ⟨fun id r here => ⟨r,here,rfl⟩,fun _ _ => Iff.rfl,fun mine => ?_⟩
      exact absurd (Option.some.inj (mine.symm.trans early.1)) other
    · cases is
      exact ⟨row,(listed member).1,rfl⟩

theorem mild_restorePayload (row : TargetedTransferRow) :
    (restorePayload row).All (mild · = true) := by
  refine ⟨rfl,fun members => ?_⟩
  cases members with
  | none => exact trivial
  | some members =>
    refine ⟨rfl,fun tagged => ?_⟩
    cases tagged <;> exact trivial

/-- The hashes or the session of a transfer are granted while they are due. -/
theorem grant_step {p : Nat} {c : RuntimeChoice} {o : Op} {r : Ans o}
    (is : (∃ hashes, o = .registerShareHashes p hashes) ∨ ∃ e, o = .approveEndpoint p e) (inv : Inv s)
    (ok : guard.steps s call (.targeted o) c)
    (h : (machine l).exec s i call (.targeted o) c = some (r,u)) : Inv u ∧ ∀ j, Kept j s u := by
  obtain ⟨rt,ran,rfl⟩ := exec_machine h
  rcases is with ⟨hashes,rfl⟩ | ⟨e,rfl⟩
  · cases ran
    refine ⟨inv.grant (x := .hashes) rfl (fun y q reached => ?_) ok,Kept.grant rfl⟩
    cases y with
    | sessions => exact .inl reached
    | hashes =>
      obtain ⟨h,owned⟩ := reached
      change q ∈ (if h ∈ hashes ∧ p ∉ s.state.device.hashes h then
        p :: s.state.device.hashes h else s.state.device.hashes h) at owned
      split at owned
      · rcases List.mem_cons.mp owned with rfl | before
        · exact .inr ⟨rfl,rfl⟩
        · exact .inl ⟨h,before⟩
      · exact .inl ⟨h,owned⟩
  · cases ran
    refine ⟨inv.grant (x := .sessions) rfl (fun y q reached => ?_) ok,Kept.grant rfl⟩
    cases y with
    | hashes => exact .inl reached
    | sessions =>
      obtain ⟨e',held⟩ := reached
      change (s.state.device.policy.setSession p e (some ⟨none⟩)).sessions q e' ≠ none at held
      by_cases same : q = p
      · exact .inr ⟨rfl,same⟩
      · rw [AccessPolicy.setSession_other _ _ _ same] at held
        exact .inl ⟨e',held⟩

theorem safe_grantRestored {row : TargetedTransferRow} {hashes : List Text} :
    Safely l i call (within (grantRestored row hashes)) (fun _ => Kept i s) s := by
  intro t _ inv kept c r u ok performed
  have first := grant_step (.inl ⟨_,rfl⟩) inv ok performed
  refine ⟨⟨first.1,fun j _ => first.2 j⟩,?_⟩
  intro v known inv kept' c r w ok performed
  have aside := mild_step (by rfl) inv performed
  refine ⟨⟨aside.1,fun j _ => aside.2 j⟩,?_⟩
  intro x _ inv kept'' c r y ok performed
  have last := grant_step (.inr ⟨_,rfl⟩) inv ok performed
  refine ⟨⟨last.1,fun j _ => last.2 j⟩,?_⟩
  exact kept.trans ((first.2 i).trans (kept'.trans ((aside.2 i).trans (kept''.trans (last.2 i)))))

/-- The rows are the listing; they may have changed since, but not their names. -/
theorem safe_restoreEach {kept : List TransferId} {rows : List TargetedTransferRow} (idle : Idle i s)
    (named : ∀ row ∈ rows, Named row.id row.protocolTransferId s) :
    Safely l i call (restoreEach kept rows) (fun _ => Idle i) s := by
  induction rows generalizing kept s with
  | nil => exact idle
  | cons row rows ih =>
    obtain ⟨here,others⟩ := List.forall_mem_cons.mp named
    have rest {v : State} (idle : Idle i v) (names : ∀ id p, Named id p s → Named id p v)
        (kept : List TransferId) : Safely l i call (restoreEach kept rows) (fun _ => Idle i) v :=
      ih idle fun row member => names _ _ (others row member)
    have closed {v : State} (owes : Owes i row.protocolTransferId v)
        (names : ∀ id p, Named id p s → Named id p v) : Safely l i call (do
          within (teardownTargetedPayload row.protocolTransferId row.id)
          restoreEach kept rows) (fun _ => Idle i) v :=
      safe_bind (safe_mono (fun _ w cleared => rest cleared.idle
        (fun id p named => cleared.names id p (names id p named)) kept) (safe_teardown owes))
    change Safely l i call (revokedPeer row.receiverEndpointId >>= _) _ _
    refine safe_bind (safe_mono (fun revoked t since => ?_) (safe_aside (mild_revokedPeer _)))
    have names (id : TransferId) (p : Nat) (named : Named id p s) : Named id p t := named.later since
    replace idle := idle.later since
    rcases revoked with _ | _ | _
    · exact idle
    · change Safely l i call (restorePayload row >>= _) _ _
      refine safe_bind (safe_mono (fun restored u since => ?_) (safe_aside (mild_restorePayload row)))
      replace names (id : TransferId) (p : Nat) (named : Named id p s) : Named id p u :=
        (names id p named).later since
      replace idle := idle.later since
      cases restored with
      | some hashes =>
        change Safely l i call (within (grantRestored row hashes) >>= _) _ _
        refine safe_bind (safe_mono (fun _ v since => ?_) safe_grantRestored)
        exact rest (idle.later since) (fun id p named => (names id p named).later since) _
      | none =>
        refine safe_perform fun v _ inv since c r w _ performed => ?_
        have finishes := fail_step inv performed
        refine ⟨⟨finishes.inv,finishes.others⟩,closed (finishes.owed (idle.later since)
          ((names _ _ here).later since)) fun id p named => finishes.names ((names id p named).later since)⟩
    · refine safe_perform (f := fun _ => _) fun v _ inv since c r w _ performed => ?_
      have finishes := transition_step inv performed
      refine ⟨⟨finishes.inv,finishes.others⟩,?_⟩
      cases r with
      | error e => exact finishes.idle (idle.later since) nofun
      | ok changed =>
        exact closed (finishes.owed (idle.later since) ((names _ _ here).later since))
          fun id p named => finishes.names ((names id p named).later since)

theorem safe_restoreListed (opens : Opens i s) :
    Safely l i call restoreListed (fun _ => Idle i) s := by
  refine safe_perform fun t _ inv kept c r u _ performed => ?_
  obtain ⟨both,owed,named⟩ := listing_step inv (opens.early.later kept) performed
  refine ⟨both,?_⟩
  have idle : Idle i u := fun x p => by
    rw [owed]
    exact opens.idle.later kept x p
  cases r with
  | error e => exact idle
  | ok rows =>
    change Safely l i call (restoreEach [] rows >>= _) _ _
    refine safe_bind (safe_mono (fun kept v idle => ?_) (safe_restoreEach idle (named rows rfl)))
    cases kept with
    | none => exact idle
    | some kept =>
      exact safe_mono (fun _ _ since => idle.later since) (safe_aside ⟨rfl,fun _ => trivial⟩)

theorem safe_restore (idle : Idle i s) :
    Safely l i call restoreTargetedTransferAccess (fun _ => Idle i) s := by
  refine safe_perform fun t _ inv kept c r u first performed => ?_
  obtain ⟨rt,ran,rfl⟩ := exec_machine performed
  have same : rt = t.state := (Prod.mk.inj (Option.some.inj ran)).2.symm
  subst same
  have fresh : t.history.restorer = none := first
  refine ⟨⟨⟨inv.unique,inv.guarded,inv.quiet,nofun⟩,fun j other => ⟨fun id r here => ⟨r,here,rfl⟩,
    fun _ _ => Iff.rfl,fun mine => absurd (fresh.symm.trans mine) nofun⟩⟩,?_⟩
  replace idle : Idle i t := idle.later kept
  have opens : Opens i ⟨t.state,record t.history t.state i call .acceptedIntentSenders r⟩ :=
    ⟨idle,rfl,inv.fresh fresh⟩
  cases r with
  | error e => exact opens.idle
  | ok intents =>
    change Safely l i call (clearUnsavedIntents intents >>= _) _ _
    refine safe_bind (safe_mono (fun cleared t since => ?_)
      (safe_aside (mild_clearUnsavedIntents intents)))
    replace opens := opens.later since
    cases cleared with
    | false => exact opens.idle
    | true =>
      change Safely l i call (perform .resumableRows >>= _) _ _
      refine safe_bind (safe_mono (fun rows t since => ?_) (safe_aside (Prog.all_perform (by rfl))))
      replace opens := opens.later since
      cases rows with
      | error e => exact opens.idle
      | ok rows =>
        change Safely l i call (cancelRevokedPeers [] rows >>= _) _ _
        refine safe_bind (safe_mono (fun cancelled t opens => ?_) (safe_cancelRevokedPeers opens))
        cases cancelled with
        | false => exact opens.idle
        | true =>
          change Safely l i call (perform .authorizationRows >>= _) _ _
          refine safe_bind (safe_mono (fun held t since => ?_)
            (safe_aside (Prog.all_perform (by rfl))))
          replace opens := opens.later since
          cases held with
          | error e => exact opens.idle
          | ok held =>
            change Safely l i call (releaseRevoked held >>= _) _ _
            refine safe_bind (safe_mono (fun released t since => ?_)
              (safe_aside (mild_releaseRevoked held)))
            replace opens := opens.later since
            cases released with
            | false => exact opens.idle
            | true => exact safe_restoreListed opens

theorem safe_call (ok : guard.starts s call) (idle : Idle i s) :
    Safely l i call (call.body l) (fun _ => Idle i) s := by
  cases call with
  | restore => exact safe_restore idle
  | revoked peer generation =>
    refine safe_mono (fun _ _ since => idle.later since)
      (safe_aside (p := handleRemoteRevoke peer generation >>= fun _ => pure ()) ?_)
    unfold handleRemoteRevoke staleNotice
    repeat' first
      | exact trivial
      | exact Prog.all_perform (by rfl)
      | refine Prog.all_bind ?_ fun _ => ?_
      | split
  | forget | block | unblock => cases ok
  | targeted call =>
    cases call with
    | offered remote offer =>
      exact safe_mild (Prog.all_bind (mild_handleOffer remote offer) fun _ =>
        Prog.all_perform (by rfl)) idle
    | authorized remote delivery =>
      exact safe_mild (Prog.all_bind (mild_handleAuthorization remote delivery) fun _ =>
        Prog.all_perform (by rfl)) idle
    | completed remote completion =>
      exact safe_mild (Prog.all_bind (mild_handleCompletion remote completion) fun _ =>
        Prog.all_perform (by rfl)) idle
    | cancelled remote message =>
      change Safely l i _ (within (handleCancel remote message >>= _)) _ _
      rw [within_bind]
      refine safe_bind (safe_mono (fun _ _ idle => ?_) (safe_handleCancel idle))
      exact safe_mild (Prog.all_perform (by rfl)) idle
    | cancel id =>
      change Safely l i _ (within (terminateLocal id .cancelled >>= _)) _ _
      rw [within_bind]
      refine safe_bind (safe_mono (fun ended _ idle => safe_mild ?_ idle) (safe_terminateLocal idle))
      split
      · split
        · exact trivial
        · exact mild_notifyCancel _ _ _
      · exact trivial
    | delete id =>
      change Safely l i _ (within (terminateLocal id .deleted >>= _)) _ _
      rw [within_bind]
      refine safe_bind (safe_mono (fun ended _ idle => safe_mild ?_ idle) (safe_terminateLocal idle))
      split
      · exact mild_notifyCancel _ _ _
      · exact trivial
    | _ => cases ok

end Calls

section Runs

variable {l : Local}

theorem record_owed {h : History} {s : Runtime} {i : Nat} (call : RuntimeCall) {op : RuntimeOp}
    {r : RuntimeAns op} {x : Opening} {j p : Nat} (owed : (j,p) ∈ (record h s i call op r).owed x) :
    (j,p) ∈ h.owed x ∨ j = i := by
  unfold record at owed
  split at owed
  case h_3 | h_4 => exact .inl (mem_owed.mp owed).1
  case h_5 | h_6 =>
    unfold History.finish at owed
    split at owed
    · exact .inl owed
    · exact (List.mem_cons.mp owed).symm.imp_right fun new => (Prod.mk.inj new).1
  all_goals exact .inl owed

/-- Only calls that have started owe anything. -/
theorem owed_below {c : Conf State RuntimeCall RuntimeOp RuntimeAns}
    (reach : Reach (machine l).system guard.holds c) :
    ∀ x j p, (j,p) ∈ c.shared.history.owed x → j < c.threads.length := by
  induction reach with
  | start c h =>
    intro x j p owed
    rw [h.1.2] at owed
    cases owed
  | @advance c d a _ meets h ih =>
    intro x j p owed
    rcases next_cases h with ⟨call,rfl,_,rfl⟩ | ⟨i,choice,call,op,k,r,s,rfl,here,performed,rfl⟩ |
      ⟨e,s,rfl,moved,rfl⟩
    · rw [List.length_append]
      exact Nat.lt_add_right 1 (ih x j p owed)
    · obtain ⟨rt,_,rfl⟩ := exec_machine performed
      rw [List.length_set]
      rcases record_owed call owed with before | rfl
      · exact ih x j p before
      · exact (List.getElem?_eq_some_iff.mp here).1
    · exact meets.elim

theorem reach_idle {c : Conf State RuntimeCall RuntimeOp RuntimeAns}
    (reach : Reach (machine l).system guard.holds c) :
    Secured (machine l) guard terms (fun i _ => Idle i) c := by
  refine reach_secured ?_ ?_ ?_ ?_ ?_ reach
  · exact fun _ _ => trivial
  · intro s start
    obtain ⟨stored,first⟩ := start
    refine ⟨stored.unique,fun id r x here sends _ reached => ?_,fun _ => ⟨fun x => ?_,?_⟩,fun _ => ?_⟩
    · rw [first] at reached
      exact absurd reached (not_or.mpr ⟨stored.closed id r here sends x,List.not_mem_nil⟩)
    · rw [first]
      rfl
    · exact fun id r x here sends => stored.closed id r here sends x
    · rw [first]
      rfl
  · intro c call past _ _ ok
    exact safe_call ok fun x p owed => absurd (owed_below past x _ p owed) (Nat.lt_irrefl _)
  · exact fun _ _ _ _ kept idle => Idle.later idle kept
  · intro s e t _ _ never
    exact never.elim

/-- Once the restore and what raced with it have finished, no closed send is reachable. -/
theorem restore_keeps_closed {c : Conf State RuntimeCall RuntimeOp RuntimeAns}
    (reach : Reach (machine l).system guard.holds c)
    (finished : ∀ t ∈ c.threads, t.rest.finished = true) {id : TransferId} {row : TargetedTransferRow}
    (found : c.shared.state.device.store.getRow id = some row) (sends : row.role = .sender)
    (closed : closes row.state = true) (x : Opening) :
    ¬Reaches c.shared.state.device x row.protocolTransferId := by
  intro reached
  have secured := reach_idle reach
  obtain ⟨j,owed⟩ := secured.inv.guarded id row x found sends closed (.inl reached)
  have below := owed_below reach x j _ owed
  have there := List.getElem?_eq_getElem below
  have idle := secured.threads j _ there
  have stopped := finished _ (List.getElem_mem below)
  cases rest : (c.threads[j]).rest with
  | step op k =>
    rw [rest] at stopped
    cases stopped
  | ret a =>
    rw [rest] at idle
    exact idle x _ owed

end Runs

/-! Transfer 7 to device 2 is stored as approved when the process starts, and its receiver
cancels it. -/

private def stored : Runtime where
  device := { Device.new with
    store := Sample.approved.store
    custody := Sample.approved.custody
    handles := Sample.approved.handles }
  blocked := []
  relationships _ := none
  tombstones := []

private def start : Conf State RuntimeCall RuntimeOp RuntimeAns := ⟨⟨stored,.new⟩,[]⟩

private def proceed (i : Nat) : Label RuntimeCall RuntimeChoice Housekeeping :=
  .act i ⟨⟨0,false,true,0,none,⟨[],false⟩⟩,[]⟩

private def cancelling : Label RuntimeCall RuntimeChoice Housekeeping :=
  .fork (.targeted (.cancelled 2 ⟨7,some .cancelled⟩))

/-- The cancel runs after so many operations of the restore. -/
private def cancelledAfter (n : Nat) : List (Label RuntimeCall RuntimeChoice Housekeeping) :=
  .fork .restore :: List.replicate n (proceed 0) ++ cancelling :: List.replicate 11 (proceed 1) ++
    List.replicate (15 - n) (proceed 0)

private def cancelledConf (n : Nat) : Conf State RuntimeCall RuntimeOp RuntimeAns :=
  ((machine Sample.sender).system.run start (cancelledAfter n)).getD start

private theorem start_stored : (machine Sample.sender).system.init start := by
  have only {id : TransferId} {r : TargetedTransferRow} (here : stored.device.store.getRow id = some r) :
      id = 7 := by
    obtain rfl := Table.find_key here
    have member := Table.find_mem here
    rw [show stored.device.store.transfers.rows = [_] from rfl,List.mem_singleton] at member
    rw [member]
    rfl
  refine ⟨⟨⟨fun id r _ _ x reached => ?_,fun id id' r r' here here' _ _ _ => ?_⟩,rfl⟩,rfl⟩
  · cases x with
    | hashes => exact List.not_mem_nil reached.choose_spec
    | sessions => exact reached.choose_spec rfl
  · exact (only here).trans (only here').symm

/-- The cancel arrives between the listing of the restore and its grant. -/
theorem cancelled_send_restored :
    (machine Sample.sender).system.init start ∧
    (machine Sample.sender).system.run start (cancelledAfter 8) = some (cancelledConf 8) ∧
    (∀ t ∈ (cancelledConf 8).threads, t.rest.finished = true) ∧
    ∃ row, (cancelledConf 8).shared.state.device.store.getRow 7 = some row ∧
      row.role = .sender ∧ row.state = .cancelled ∧
      row.protocolTransferId ∈ (cancelledConf 8).shared.state.device.hashes 3 ∧
      (cancelledConf 8).shared.state.device.policy.sessions row.protocolTransferId 2 ≠ none :=
  ⟨start_stored,rfl,by decide,_,rfl,rfl,rfl,by decide,by decide⟩

instance (s : State) (call : RuntimeCall) : Decidable (guard.starts s call) :=
  inferInstanceAs (Decidable (races call = true))

instance (s : State) (call : RuntimeCall) (op : RuntimeOp) (c : RuntimeChoice) :
    Decidable (guard.steps s call op c) := by
  dsimp only [guard]
  split <;> infer_instance

instance (s : State) (e : Housekeeping) : Decidable (guard.events s e) :=
  inferInstanceAs (Decidable False)

/-- The cancel arrives after the grant. -/
theorem cancelled_send_closed :
    ∃ row, (cancelledConf 15).shared.state.device.store.getRow 7 = some row ∧
      row.state = .cancelled ∧
      ∀ x, ¬Reaches (cancelledConf 15).shared.state.device x row.protocolTransferId := by
  have reach : Reach (machine Sample.sender).system guard.holds (cancelledConf 15) :=
    (Reach.start _ start_stored).run (by decide)
      (show (machine Sample.sender).system.run _ (cancelledAfter 15) = some _ from rfl)
  exact ⟨_,rfl,rfl,restore_keeps_closed reach (by decide)
    (show (cancelledConf 15).shared.state.device.store.getRow 7 = some _ from rfl) rfl rfl⟩

end Vnidrop.Targeted.Restore
