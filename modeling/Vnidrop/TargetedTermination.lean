import Vnidrop.TargetedRows
import Vnidrop.TargetedRuntime

/-! What the end of a relationship leaves of the transfers with the peer. -/
namespace Vnidrop.Targeted.Termination

open Tables Programs Sample TargetedTransferState

/-- The ways a relationship ends on this device. -/
inductive Ending where
  | forget
  | block
  | notice (generation : Nat)
  deriving DecidableEq, Repr

/-- The operation; `false` is an error. -/
def Ending.run (peer : EndpointId) : Ending → RuntimeTask Bool
  | .forget => forgetSavedDevice peer
  | .block => blockDevice peer
  | .notice generation => handleRemoteRevoke peer generation

/-- The operation goes on to the targeted transfers with the peer. -/
def Ending.cancels : Ending → Bool
  | .forget | .block => true
  | .notice _ => false

/-- Nothing that a transfer needs is left. -/
structure Closed (s : Device) (row : TargetedTransferRow) : Prop where
  terminal : row.state.terminal = true
  hashes : ∀ h, row.protocolTransferId ∉ s.hashes h
  sessions : ∀ e, s.policy.sessions row.protocolTransferId e = none
  handle : row.authorizationSecretHandle = none

/-- Every targeted transfer with the peer is closed. -/
def Ended (s : Device) (peer : EndpointId) : Prop :=
  ∀ id row, s.store.getRow id = some row → Store.withPeer peer row = true → Closed s row

/-- What is asked of an operation that ends the relationship with the peer. -/
def Revokes (l : Local) (s : Runtime) (peer : EndpointId) (way : Ending) : Prop :=
  ∀ t, Alone (Runtime.exec l) (way.run peer) s true t → s.relationships peer ≠ none →
    t.relationships peer = none → Ended t.device peer

/-- An operation that touches neither the rows nor the provider. -/
structure Aside (s t : Device) : Prop where
  store : t.store = s.store
  hashes : t.hashes = s.hashes
  policy : t.policy = s.policy

def aside : Op → Bool
  | .write _ | .registerShareHashes .. | .unregisterTransferHashes _ | .setMode _ => false
  | .approveEndpoint .. | .removeMode _ | .removeSessions _ => false
  | _ => true

theorem exec_aside {l : Local} {s t : Device} {c : Choice} {op : Op} {r : Ans op}
    (is : aside op = true) (h : s.exec l c op = some (r,t)) : Aside s t := by
  by_cases read : Device.reads op = true
  · exact Device.exec_reads read h ▸ ⟨rfl,rfl,rfl⟩
  · cases op
    all_goals first
      | (cases is; done)
      | (exact absurd rfl read)
      | (simp only [Device.exec] at h
         repeat' split at h
         all_goals first | (cases h; done) | (cases h; exact ⟨rfl,rfl,rfl⟩))

section Cleanup

variable {l : Local} {s t : Device} {row : TargetedTransferRow}

/-- What a cleanup does to the provider and to the rows. -/
structure Cleaned (row : TargetedTransferRow) (s t : Device) : Prop where
  hashes : ∀ h x, x ∈ t.hashes h ↔ x ∈ s.hashes h ∧ x ≠ row.protocolTransferId
  sessions : ∀ x e, t.policy.sessions x e =
    if x = row.protocolTransferId then none else s.policy.sessions x e
  rows : ∀ id, t.store.getRow id = (s.store.getRow id).map fun r =>
    if id = row.id ∧ row.authorizationSecretHandle.isSome then
      { r with blobTicket := none, authorizationSecretHandle := none }
    else r

/-- The release of the secret, after the provider has forgotten the transfer. -/
theorem releaseSecret_cleaned {u : Device} (forgotten : ∀ h x,
      x ∈ u.hashes h ↔ x ∈ s.hashes h ∧ x ≠ row.protocolTransferId)
    (sessions : ∀ x e, u.policy.sessions x e =
      if x = row.protocolTransferId then none else s.policy.sessions x e)
    (store : u.store = s.store) (run : Alone (Device.exec l) (releaseSecret row) u true t) :
    Cleaned row s t := by
  cases held : row.authorizationSecretHandle with
  | none =>
    unfold releaseSecret at run
    rw [held] at run
    obtain ⟨_,rfl⟩ := run
    refine ⟨forgotten,sessions,fun id => ?_⟩
    rw [store,held]
    simp
  | some handle =>
    rw [releaseSecret_held held] at run
    obtain ⟨_,removed,v,removing,run⟩ := alone_perform.mp run
    have apart := exec_aside (by rfl) removing
    cases removed with
    | false => cases run.1
    | true =>
      obtain ⟨_,cleared,w,wrote,rest⟩ := alone_perform.mp run
      rcases Device.exec_write wrote with ⟨⟨e,rfl⟩,rfl⟩ | ⟨changed,store',ran,rfl,rfl⟩
      · cases rest.1
      · obtain ⟨_,rfl⟩ := rest
        refine ⟨fun h x => ?_,fun x e => ?_,fun id => ?_⟩
        · rw [← forgotten h x,← apart.hashes]
        · rw [← sessions x e,← apart.policy]
        · rw [show _ = _ from run_getRow ran id,apart.store,store,Write.onRow,held]
          by_cases same : id = row.id <;> simp [same]

theorem cleanup_cleaned (run : Alone (Device.exec l) (cleanup row) s true t) : Cleaned row s t := by
  obtain ⟨_,_,s₁,deactivated,run⟩ := alone_perform.mp run
  cases deactivated
  obtain ⟨_,_,s₂,unregistered,run⟩ := alone_perform.mp run
  cases unregistered
  obtain ⟨_,_,s₃,removed,run⟩ := alone_perform.mp run
  cases removed
  obtain ⟨_,_,s₄,emptied,run⟩ := alone_perform.mp run
  cases emptied
  have forgotten (h : Text) (x : Nat) : x ∈ ((s.setActive row.id false).unregisterTransferHashes
      row.protocolTransferId).hashes h ↔ x ∈ s.hashes h ∧ x ≠ row.protocolTransferId := by
    simp [Device.unregisterTransferHashes,Device.setActive]
  have sessions (x : Nat) (e : EndpointId) :
      ((s.policy.removeMode row.protocolTransferId).removeSessions row.protocolTransferId).sessions x e =
        if x = row.protocolTransferId then none else s.policy.sessions x e := by
    by_cases same : x = row.protocolTransferId <;> simp [same]
  change Alone _ (if row.role = .sender then _ else _) _ true t at run
  by_cases sends : row.role = .sender
  · rw [if_pos sends] at run
    obtain ⟨_,deleted,v,deleting,rest⟩ := alone_perform.mp run
    have apart := exec_aside (by rfl) deleting
    cases deleted with
    | false => cases rest.1
    | true =>
      refine releaseSecret_cleaned (fun h x => ?_) (fun x e => ?_) apart.store rest
      · rw [apart.hashes]
        exact forgotten h x
      · rw [apart.policy]
        exact sessions x e
  · rw [if_neg sends] at run
    refine releaseSecret_cleaned (fun h x => ?_) (fun x e => ?_) ?_ run
    · exact forgotten h x
    · exact sessions x e
    · rfl

/-- What is left of the transfers after the cleanups of several rows. -/
structure AllCleaned (rows : List TargetedTransferRow) (s t : Device) : Prop where
  hashes : ∀ h x, x ∈ t.hashes h → x ∈ s.hashes h ∧ ∀ row ∈ rows, x ≠ row.protocolTransferId
  sessions : ∀ x e, t.policy.sessions x e ≠ none →
    s.policy.sessions x e ≠ none ∧ ∀ row ∈ rows, x ≠ row.protocolTransferId
  rows : ∀ id r', t.store.getRow id = some r' → ∃ r, s.store.getRow id = some r ∧
    r'.state = r.state ∧ r'.protocolTransferId = r.protocolTransferId ∧
    r'.senderEndpointId = r.senderEndpointId ∧ r'.receiverEndpointId = r.receiverEndpointId ∧
    (r'.authorizationSecretHandle ≠ none → r'.authorizationSecretHandle = r.authorizationSecretHandle ∧
      ∀ row ∈ rows, row.id = id → row.authorizationSecretHandle = none)

theorem cleanupAll_cleaned {rows : List TargetedTransferRow}
    (run : Alone (Device.exec l) (cleanupAll rows) s true t) : AllCleaned rows s t := by
  induction rows generalizing s with
  | nil =>
    obtain ⟨_,rfl⟩ := run
    exact ⟨fun _ _ h => ⟨h,List.forall_mem_nil _⟩,fun _ _ h => ⟨h,List.forall_mem_nil _⟩,
      fun id r' here => ⟨r',here,rfl,rfl,rfl,rfl,fun _ => ⟨rfl,List.forall_mem_nil _⟩⟩⟩
  | cons row rows ih =>
    obtain ⟨cleaned,u,first,rest⟩ := alone_bind.mp run
    cases cleaned with
    | false => cases rest.1
    | true =>
      have here := cleanup_cleaned first
      have later := ih rest
      refine ⟨fun h x owned => ?_,fun x e held => ?_,fun id r' found => ?_⟩
      · obtain ⟨kept,others⟩ := later.hashes h x owned
        obtain ⟨before,other⟩ := (here.hashes h x).mp kept
        exact ⟨before,List.forall_mem_cons.mpr ⟨other,others⟩⟩
      · obtain ⟨kept,others⟩ := later.sessions x e held
        rw [here.sessions x e] at kept
        split at kept
        · exact absurd rfl kept
        · rename_i other
          exact ⟨kept,List.forall_mem_cons.mpr ⟨other,others⟩⟩
      · obtain ⟨r₁,found₁,state,protocolId,sender,receiver,handle⟩ := later.rows id r' found
        rw [here.rows id] at found₁
        obtain ⟨r,found₀,rfl⟩ := Option.map_eq_some_iff.mp found₁
        by_cases cleared : id = row.id ∧ row.authorizationSecretHandle.isSome
        · rw [if_pos cleared] at state protocolId sender receiver handle
          exact ⟨r,found₀,state,protocolId,sender,receiver,
            fun held => absurd (handle held).1 held⟩
        · rw [if_neg cleared] at state protocolId sender receiver handle
          refine ⟨r,found₀,state,protocolId,sender,receiver,fun held => ⟨(handle held).1,?_⟩⟩
          refine List.forall_mem_cons.mpr ⟨fun same => ?_,(handle held).2⟩
          by_contra some
          exact cleared ⟨same.symm,Option.isSome_iff_ne_none.mpr some⟩

/-- The rows are read one by one, each as it stands. -/
theorem rowsOf_alone {ids : List TransferId} {r : Except VnidropError (List TargetedTransferRow)}
    (run : Alone (Device.exec l) (rowsOf ids) s r t) :
    t = s ∧ ∀ rows, r = .ok rows → rows = ids.filterMap s.store.getRow := by
  induction ids generalizing s r t with
  | nil =>
    obtain ⟨rfl,rfl⟩ := run
    exact ⟨rfl,fun rows same => (Except.ok.inj same).symm⟩
  | cons id ids ih =>
    obtain ⟨_,found,u,read,run⟩ := alone_perform.mp run
    obtain rfl := Device.exec_reads (by rfl) read
    cases found with
    | error e =>
      obtain ⟨rfl,rfl⟩ := run
      exact ⟨rfl,nofun⟩
    | ok row =>
      have here : u.store.getRow id = row := Device.exec_getRow read
      obtain ⟨later,v,first,rest⟩ := alone_bind.mp run
      obtain ⟨rfl,rows⟩ := ih first
      cases later with
      | error e =>
        obtain ⟨rfl,rfl⟩ := rest
        exact ⟨rfl,nofun⟩
      | ok tail =>
        obtain ⟨rfl,rfl⟩ := rest
        refine ⟨rfl,fun all same => ?_⟩
        cases same
        rw [rows tail rfl,List.filterMap_cons,here]
        cases row <;> rfl

/-- A row as `cancel_by_peer` leaves it. -/
theorem cancelled_row {store : Store} {peer : EndpointId} {changed : Bool} {now : Millis}
    (ran : (Write.cancelByPeer peer).run s.store now = .ok (changed,store)) {id : TransferId}
    {r : TargetedTransferRow} (found : store.getRow id = some r)
    (shared : Store.withPeer peer r = true) : ∃ r₀, s.store.getRow id = some r₀ ∧
      Store.withPeer peer r₀ = true ∧ r.protocolTransferId = r₀.protocolTransferId ∧
      r.state.terminal = true ∧ (r₀.authorizationSecretHandle = none →
        r.authorizationSecretHandle = none) := by
  rw [run_getRow ran id] at found
  obtain ⟨r₀,found₀,rfl⟩ := Option.map_eq_some_iff.mp found
  by_cases live : (Store.withPeer peer r₀ && !r₀.state.terminal) = true
  · rw [if_pos live] at shared ⊢
    exact ⟨r₀,found₀,shared,rfl,rfl,fun _ => rfl⟩
  · rw [if_neg live] at shared ⊢
    rw [shared,Bool.true_and,Bool.not_eq_true',Bool.not_eq_false] at live
    exact ⟨r₀,found₀,shared,rfl,live,fun bare => bare⟩

/-- The sweep over the transfers with a peer leaves none of them open. -/
theorem cancel_ends {peer : EndpointId}
    (run : Alone (Device.exec l) (cancelTargetedTransfersForPeer peer) s true t) : Ended t peer := by
  unfold cancelTargetedTransfersForPeer at run
  obtain ⟨_,pending,s₁,listed,run⟩ := alone_perform.mp run
  obtain rfl := (Device.exec_reads (by rfl) listed).symm
  obtain ⟨_,s₂,discarded,run⟩ := alone_bind.mp run
  obtain ⟨_,ids,s₃,selected,run⟩ := alone_perform.mp run
  obtain rfl := (Device.exec_reads (by rfl) selected).symm
  cases ids with
  | error e => cases run.1
  | ok ids =>
    obtain ⟨found,s₄,read,run⟩ := alone_bind.mp run
    obtain ⟨same,rows⟩ := rowsOf_alone read
    obtain rfl := same.symm
    cases found with
    | error e => cases run.1
    | ok found =>
      obtain ⟨_,written,s₅,wrote,rest⟩ := alone_perform.mp run
      rcases Device.exec_write wrote with ⟨⟨e,rfl⟩,rfl⟩ | ⟨changed,store,ran,rfl,rfl⟩
      · cases rest.1
      · cases Device.exec_idsForPeer selected
        have cleaned := cleanupAll_cleaned rest
        intro id r' here shared
        obtain ⟨r₁,found₁,state,protocolId,sender,receiver,handle⟩ := cleaned.rows id r' here
        have with₁ : Store.withPeer peer r₁ = true := by
          rw [← shared,Store.withPeer,Store.withPeer,sender,receiver]
        obtain ⟨r₀,found₀,with₀,same,terminal,bare⟩ := cancelled_row ran found₁ with₁
        have member : r₀ ∈ found := by
          rw [rows found rfl]
          refine List.mem_filterMap.mpr ⟨id,List.mem_map.mpr ⟨r₀,?_,Table.find_key found₀⟩,found₀⟩
          exact List.mem_filter.mpr ⟨Table.find_mem found₀,with₀⟩
        have protocol : r'.protocolTransferId = r₀.protocolTransferId := protocolId.trans same
        refine ⟨state ▸ terminal,fun h owned => ?_,fun e => ?_,?_⟩
        · exact (cleaned.hashes h _ owned).2 r₀ member protocol
        · by_contra held
          exact (cleaned.sessions _ e held).2 r₀ member protocol
        · by_contra held
          obtain ⟨kept,others⟩ := handle held
          exact held (kept.trans (bare (others r₀ member (Table.find_key found₀))))

end Cleanup

section Endings

variable {l : Local} {s t : Runtime} {peer : EndpointId}

/-- An operation of the relationship store and its notice leave the transfers alone. -/
def relational : RuntimeOp → Bool
  | .findRelationship _ | .findTombstone .. | .insertTombstone .. => true
  | .deleteRelationship _ | .removeEligibility _ | .notifyRevoke .. => true
  | _ => false

theorem exec_relational {c : RuntimeChoice} {op : RuntimeOp} {r : RuntimeAns op}
    (is : relational op = true) (h : s.exec l c op = some (r,t)) : t.device = s.device := by
  cases op
  all_goals first
    | (cases is; done)
    | (simp only [Runtime.exec,Runtime.attempt] at h
       split at h <;> (cases h; rfl))
    | (cases h; rfl)

theorem alone_relational {α : Type} {p : RuntimeTask α} {a : α} (all : p.All (relational · = true))
    (run : Alone (Runtime.exec l) p s a t) : t.device = s.device :=
  alone_related (R := fun s t => t.device = s.device) (fun _ => rfl)
    (fun s t u (f : t.device = s.device) (g : u.device = t.device) => g.trans f)
    (fun _ is _ _ _ _ h => exec_relational is h) all run

theorem relational_notice (generation : Nat) :
    (handleRemoteRevoke peer generation).All (relational · = true) := by
  refine ⟨rfl,fun row => ?_⟩
  rcases row with e | ⟨_ | current⟩
  · exact trivial
  · exact trivial
  · change Prog.All _ (staleNotice peer generation current >>= _)
    refine Prog.all_bind ?_ fun stale => ?_
    · unfold staleNotice
      split
      · exact ⟨rfl,fun _ => trivial⟩
      · exact trivial
    · cases stale with
      | false => exact ⟨rfl,fun _ => ⟨rfl,fun _ => ⟨rfl,fun _ => trivial⟩⟩⟩
      | true => exact trivial

theorem forget_ends (run : Alone (Runtime.exec l) (forgetSavedDevice peer) s true t) :
    Ended t.device peer := by
  unfold forgetSavedDevice at run
  obtain ⟨revoked,u,_,run⟩ := alone_bind.mp run
  cases revoked with
  | none => cases run.1
  | some generation =>
    obtain ⟨cancelled,v,swept,run⟩ := alone_bind.mp run
    obtain ⟨d,ran,rfl⟩ := alone_within.mp swept
    cases cancelled with
    | false => cases run.1
    | true =>
      obtain ⟨_,w,notified,rest⟩ := alone_bind.mp run
      have kept : w.device = d := by
        refine alone_relational ?_ notified
        cases generation with
        | none => exact trivial
        | some generation => exact ⟨rfl,fun _ => trivial⟩
      obtain ⟨_,rfl⟩ := rest
      rw [kept]
      exact cancel_ends ran

theorem block_ends (run : Alone (Runtime.exec l) (blockDevice peer) s true t) :
    Ended t.device peer := by
  unfold blockDevice at run
  obtain ⟨_,denied,u,_,rest⟩ := alone_perform.mp run
  cases denied with
  | false => cases rest.1
  | true => exact forget_ends rest

private def answering (fails : Bool) : RuntimeChoice := ⟨⟨0,fails,false,0,none,⟨[],false⟩⟩,[]⟩

/-- A notice can end the relationship, unless there is none. -/
theorem notice_ends (generation : Nat) (related : s.relationships peer ≠ none) :
    ∃ t, Alone (Runtime.exec l) (handleRemoteRevoke peer generation) s true t ∧
      t.device = s.device ∧ t.relationships peer = none := by
  obtain ⟨current,row⟩ := Option.ne_none_iff_exists'.mp related
  have found : s.exec l (answering false) (.findRelationship peer) = some (.ok (some current),s) := by
    rw [← row]
    rfl
  have fresh : Alone (Runtime.exec l) (staleNotice peer generation current) s false s := by
    unfold staleNotice
    split
    · exact ⟨answering true,false,s,rfl,rfl,rfl⟩
    · exact ⟨rfl,rfl⟩
  refine ⟨{ s with
    tombstones := (peer,current) :: s.tombstones
    relationships := Function.update s.relationships peer none },?_,rfl,Function.update_self ..⟩
  refine ⟨answering false,_,s,found,?_⟩
  change Alone _ (staleNotice peer generation current >>= _) s true _
  refine alone_bind.mpr ⟨false,s,fresh,?_⟩
  exact ⟨answering false,true,_,rfl,answering false,true,_,rfl,answering false,true,_,rfl,rfl,rfl⟩

/-- Ending a relationship by forgetting or blocking closes every transfer with the peer; a
notice closes none of them. -/
theorem ending_revokes_iff {way : Ending} : Revokes l s peer way ↔
    way.cancels = true ∨ s.relationships peer = none ∨ Ended s.device peer := by
  constructor
  · intro revokes
    by_cases cancels : way.cancels = true
    · exact .inl cancels
    · by_cases related : s.relationships peer = none
      · exact .inr (.inl related)
      · cases way with
        | forget | block => exact absurd rfl cancels
        | notice generation =>
          obtain ⟨t,run,same,gone⟩ := notice_ends (l := l) generation related
          exact .inr (.inr (same ▸ revokes t run related gone))
  · intro closed t run related _
    cases way with
    | forget => exact forget_ends run
    | block => exact block_ends run
    | notice generation =>
      have same := alone_relational (relational_notice generation) run
      rcases closed with cancels | unrelated | ended
      · cases cancels
      · exact absurd unrelated related
      · exact same ▸ ended

end Endings

/-- Device 2 is saved, and its notice arrives once a transfer to it is approved. -/
private def noticed : Runtime := ⟨approved,[],fun peer => if peer = 2 then some 1 else none,[]⟩

theorem notice_keeps_transfer_open :
    (device sender (· = .new)).system.run ⟨.new,[]⟩ approving = some approvedConf ∧
    noticed.device = approvedConf.shared ∧ ¬Revokes sender noticed 2 (.notice 1) := by
  refine ⟨approved_reached,rfl,fun revokes => ?_⟩
  obtain ⟨t,run,same,gone⟩ := notice_ends (l := sender) 1 (show noticed.relationships 2 ≠ none from nofun)
  have ended := revokes t run nofun gone
  rw [same] at ended
  have closed := ended 7 _ (show approved.store.getRow 7 = some _ from rfl) rfl
  exact closed.hashes 3 (List.mem_singleton_self 7)

end Vnidrop.Targeted.Termination
