import Vnidrop.TargetedCompletion

/-! Redelivery of an authorization to a receiver that has stored it. The row keeps the bound
fields and custody keeps the secret; both together give the authorization back. -/
namespace Vnidrop.Targeted.Redelivery

open Programs Completion

/-- `DeliverTargetedAuthorization` as it travels. -/
structure DeliveryMessage where
  transferId : TransferId
  authorization : Option AuthorizationToken
  deriving DecidableEq, Repr

def DeliveryMessage.decoded (h : KeyedHash) (m : DeliveryMessage) : DeliverTargetedAuthorization :=
  ⟨m.transferId,decode h m.authorization⟩

/-- The handler on a message from the wire. -/
def deliver (l : Local) (h : KeyedHash) (remote : EndpointId) (m : DeliveryMessage) : Task Response :=
  handleAuthorization l remote (m.decoded h)

/-- The same message, delivered again and again. -/
def deliverTimes (l : Local) (h : KeyedHash) (remote : EndpointId) (m : DeliveryMessage) : Nat → Task Unit
  | 0 => pure ()
  | n + 1 => do
    let _ ← deliver l h remote m
    deliverTimes l h remote m n

/-- `load` with the digest it computes. -/
def load (l : Local) (h : KeyedHash) (row : TargetedTransferRow) :
    Task (Except VnidropError (Option AuthorizationToken)) := do
  match ← loadAuthorization l row with
  | .error e => return .error e
  | .ok none => return .ok none
  | .ok (some auth) =>
    match computeMac h auth with
    | some mac => return .ok (some ⟨auth,some mac⟩)
    | none => return .error (.invalidInput "invalid authorization secret")

/-- The token that the row and its secret stand for. -/
def stands (l : Local) (h : KeyedHash) (s : Device) (row : TargetedTransferRow) : Option AuthorizationToken :=
  (storedAuthorization l s row).bind fun auth => (computeMac h auth).map fun mac => ⟨auth,some mac⟩

/-- Neither the tables nor the secrets have changed. -/
def Unchanged (s t : Device) : Prop := t.store = s.store ∧ t.custody = s.custody

/-- What is asked of the deliveries of one message. -/
structure Redelivers (l : Local) (h : KeyedHash) (remote : EndpointId) (m : DeliveryMessage) : Prop where
  /-- Once stored, further deliveries of the message change nothing. -/
  idempotent : ∀ s t n u, Alone (Device.exec l) (deliver l h remote m) s .stored t →
    Alone (Device.exec l) (deliverTimes l h remote m n) t () u → Unchanged t u
  /-- A delivery that is not stored leaves the tables, and the secrets there are. -/
  refused : ∀ s r t, Alone (Device.exec l) (deliver l h remote m) s r t → r ≠ .stored →
    t.store = s.store ∧ ∀ handle ∈ s.handles, t.custody handle = s.custody handle
  /-- Where there is a row, every token but its own is rejected. -/
  exact_ : ∀ s row r t, s.store.getRow m.transferId = some row →
    (∀ token, m.authorization = some token → stands l h s row ≠ some token) →
    Alone (Device.exec l) (deliver l h remote m) s r t → r = .rejected ∧ Unchanged s t
  /-- What is loaded afterwards is what was delivered. -/
  loads : ∀ s t, Alone (Device.exec l) (deliver l h remote m) s .stored t →
    ∃ row token, t.store.getRow m.transferId = some row ∧ m.authorization = some token ∧
      Alone (Device.exec l) (load l h row) t (.ok (some token)) t ∧
      ∀ found u, Alone (Device.exec l) (load l h row) t (.ok found) u → found = some token

section Deliveries

variable {l : Local} {h : KeyedHash} {remote : EndpointId} {m : DeliveryMessage} {s t u : Device}
  {auth : TargetedAuthorization} {row : TargetedTransferRow} {r : Response}

/-- A token decodes when its digest is the one of its fields. -/
theorem decode_some {presented : Option AuthorizationToken} (decoded : decode h presented = some auth) :
    ∃ mac, computeMac h auth = some mac ∧ presented = some ⟨auth,some mac⟩ := by
  cases presented with
  | none => cases decoded
  | some token =>
    cases computed : computeMac h token.authorization with
    | none =>
      simp only [decode,verifyIntegrity,computed] at decoded
      cases decoded
    | some mac =>
      by_cases same : token.mac = some mac
      · simp only [decode,verifyIntegrity,computed,same,decide_true,if_true] at decoded
        cases decoded
        refine ⟨mac,computed,?_⟩
        cases token
        cases same
        rfl
      · simp [decode,verifyIntegrity,computed,same] at decoded

theorem deliverAuthorization_frame {b : Bool} {id : TransferId}
    (run : Alone (Device.exec l) (deliverAuthorization id auth) s b t) : Unchanged s t := by
  obtain ⟨_,settled,v,looked,rest⟩ := alone_perform.mp run
  obtain rfl := Device.exec_reads (by rfl) looked
  split at rest
  · obtain ⟨_,rfl⟩ := alone_pure.mp rest
    exact ⟨rfl,rfl⟩
  · obtain ⟨_,sent,w,told,_,rfl⟩ := rest
    cases Option.some.inj told
    exact ⟨rfl,rfl⟩

/-- With a row present the handler only reads, and accepts only what the row stands for. -/
theorem persist_present {result : Except VnidropError Bool}
    (here : s.store.getRow auth.transferId = some row)
    (run : Alone (Device.exec l) (persistReceiver auth) s result t) : t = s ∧
      ∀ b, result = .ok b → auth.protocolVersion = l.protocolVersion →
        storedAuthorization l s row = some auth := by
  obtain ⟨_,found,v,read,run⟩ := alone_perform.mp run
  obtain rfl := Device.exec_reads (by rfl) read
  cases found with
  | error e =>
    obtain ⟨rfl,rfl⟩ := alone_pure.mp run
    exact ⟨rfl,fun b eq => by cases eq⟩
  | ok found =>
    have same : some row = found := here.symm.trans (Device.exec_getRow read)
    subst same
    change Alone _ (redeliverReceiver row auth) v result t at run
    unfold redeliverReceiver at run
    split at run
    · obtain ⟨rfl,rfl⟩ := alone_pure.mp run
      exact ⟨rfl,fun b eq => by cases eq⟩
    · rename_i handle held
      split at run
      · rename_i exact_
        obtain ⟨c,material,w,loaded,run⟩ := alone_perform.mp run
        obtain rfl := Device.exec_reads (by rfl) loaded
        cases material with
        | none =>
          obtain ⟨rfl,rfl⟩ := alone_pure.mp run
          exact ⟨rfl,fun b eq => by cases eq⟩
        | some material =>
          dsimp only at run
          split at run
          · rename_i rebuilt
            obtain ⟨rfl,rfl⟩ := alone_pure.mp run
            refine ⟨rfl,fun b _ version => ?_⟩
            have kept : w.custody handle = some material := by
              have answer : (if c.fails then none else w.custody handle) = some material :=
                (Prod.mk.inj (Option.some.inj loaded)).1
              split at answer
              · cases answer
              · exact answer
            have ticket : row.blobTicket = some auth.blobTicket := by
              simp only [exactRow,Bool.and_eq_true,decide_eq_true_eq] at exact_
              exact exact_.2
            unfold storedAuthorization storedSecret
            rw [ticket,held,Option.bind_some,kept,← version]
            exact congrArg some rebuilt
          · obtain ⟨rfl,rfl⟩ := alone_pure.mp run
            exact ⟨rfl,fun b eq => by cases eq⟩
      · obtain ⟨rfl,rfl⟩ := alone_pure.mp run
        exact ⟨rfl,fun b eq => by cases eq⟩

theorem keep_other (handle : Handle) (material : Option Text) (k : Handle) (other : k ≠ handle) :
    (s.keep handle material).custody k = s.custody k := Function.update_of_ne other ..

/-- Without a row an authorization is stored whole, or nothing but its secret is left behind. -/
theorem persist_absent {result : Except VnidropError Bool}
    (here : s.store.getRow auth.transferId = none)
    (run : Alone (Device.exec l) (persistReceiver auth) s result t) :
    ((∃ e, result = .error e) ∧ t.store = s.store ∧ ∀ handle ∈ s.handles, t.custody handle = s.custody handle) ∨
    ∃ handle now, result = .ok true ∧ t.custody handle = some auth.authSecret ∧
      t.store.getRow auth.transferId = some (Store.receiverRow auth handle now) := by
  obtain ⟨_,found,v,read,run⟩ := alone_perform.mp run
  obtain rfl := Device.exec_reads (by rfl) read
  cases found with
  | error e =>
    obtain ⟨rfl,rfl⟩ := alone_pure.mp run
    exact .inl ⟨⟨_,rfl⟩,rfl,fun _ _ => rfl⟩
  | ok found =>
    have same : none = found := here.symm.trans (Device.exec_getRow read)
    subst same
    change Alone _ (storeReceiver auth) v result t at run
    obtain ⟨_,collision,w,asked,run⟩ := alone_perform.mp run
    obtain rfl := Device.exec_reads (by rfl) asked
    cases collision with
    | true =>
      obtain ⟨rfl,rfl⟩ := alone_pure.mp run
      exact .inl ⟨⟨_,rfl⟩,rfl,fun _ _ => rfl⟩
    | false =>
      obtain ⟨c,protected_,x,done,run⟩ := alone_perform.mp run
      simp only [Device.exec] at done
      split at done
      · cases done
        obtain ⟨rfl,rfl⟩ := alone_pure.mp run
        exact .inl ⟨⟨_,rfl⟩,rfl,fun _ _ => rfl⟩
      · split at done
        · cases done
        · rename_i fresh
          cases done
          obtain ⟨c',_,y,wrote,run⟩ := alone_perform.mp run
          rcases Device.exec_write wrote with ⟨⟨e,rfl⟩,rfl⟩ | ⟨changed,store,ran,rfl,rfl⟩
          · -- the secret is removed again, unless that fails too
            obtain ⟨_,removed,z,gone,run⟩ := alone_perform.mp run
            obtain ⟨rfl,rfl⟩ := alone_pure.mp run
            refine .inl ⟨⟨_,rfl⟩,?_⟩
            have other (k : Handle) (member : k ∈ w.handles) : k ≠ c.number :=
              fun eq => fresh (eq ▸ member)
            simp only [Device.exec] at gone
            split at gone
            · cases gone
              exact ⟨rfl,fun k member => keep_other _ _ k (other k member)⟩
            · cases gone
              refine ⟨rfl,fun k member => ?_⟩
              rw [keep_other _ _ k (other k member)]
              exact keep_other _ _ k (other k member)
          · obtain ⟨rfl,rfl⟩ := alone_pure.mp run
            refine .inr ⟨c.number,c'.now,?_,Function.update_self ..,?_⟩
            · obtain ⟨_,_,same⟩ := except_map_ok ran
              cases same
              rfl
            · obtain ⟨u',stored,same⟩ := except_map_ok ran
              cases same
              obtain ⟨_,_,transfers,inserted,rfl⟩ := Targeted.persistReceiver_ok stored
              exact (Tables.Table.find_insert inserted auth.transferId).trans (if_pos rfl)

/-- What one delivery does. -/
theorem deliver_cases (run : Alone (Device.exec l) (deliver l h remote m) s r t) :
    (r = .rejected ∧ t.store = s.store ∧ (∀ handle ∈ s.handles, t.custody handle = s.custody handle) ∧
      ∀ row, s.store.getRow m.transferId = some row → t.custody = s.custody) ∨
    ∃ auth, r = .stored ∧ decode h m.authorization = some auth ∧ auth.transferId = m.transferId ∧
      auth.protocolVersion = l.protocolVersion ∧
      ((∃ row, s.store.getRow m.transferId = some row ∧ storedAuthorization l s row = some auth ∧ Unchanged s t) ∨
      (s.store.getRow m.transferId = none ∧
        ∃ handle now, t.custody handle = some auth.authSecret ∧
          t.store.getRow m.transferId = some (Store.receiverRow auth handle now))) := by
  have refused {u : Device} (ended : Alone (Device.exec l) (pure Response.rejected) u r t) :
      r = .rejected ∧ t = u := ⟨ended.1.symm,ended.2.symm⟩
  obtain ⟨_,saved,v,asked,run⟩ := alone_perform.mp run
  obtain rfl := Device.exec_reads (by rfl) asked
  have left (ended : Alone (Device.exec l) (pure Response.rejected) v r t) :
      (r = .rejected ∧ t.store = v.store ∧ (∀ handle ∈ v.handles, t.custody handle = v.custody handle) ∧
        ∀ row, v.store.getRow m.transferId = some row → t.custody = v.custody) := by
    obtain ⟨rfl,rfl⟩ := refused ended
    exact ⟨rfl,rfl,fun _ _ => rfl,fun _ _ => rfl⟩
  cases saved with
  | false => exact .inl (left run)
  | true =>
    cases decoded : decode h m.authorization with
    | none =>
      simp only [DeliveryMessage.decoded,decoded] at run
      exact .inl (left run)
    | some auth =>
      simp only [DeliveryMessage.decoded,decoded] at run
      change Alone _ (if deliverable l remote m.transferId auth = true then _ else _) v r t at run
      by_cases passes : deliverable l remote m.transferId auth = true
      · rw [if_pos passes] at run
        simp only [deliverable,Bool.and_eq_true,decide_eq_true_eq] at passes
        obtain ⟨⟨⟨⟨_,id⟩,version⟩,_⟩,_⟩ := passes
        obtain ⟨result,w,persisted,run⟩ := alone_bind.mp run
        cases present : v.store.getRow auth.transferId with
        | some row =>
          obtain ⟨rfl,holds⟩ := persist_present present persisted
          cases result with
          | error e => exact .inl (left run)
          | ok b =>
            obtain ⟨_,x,told,run⟩ := alone_bind.mp run
            obtain ⟨rfl,rfl⟩ := alone_pure.mp run
            exact .inr ⟨auth,rfl,rfl,id,version,
              .inl ⟨row,id ▸ present,holds b rfl version,deliverAuthorization_frame told⟩⟩
        | none =>
          rcases persist_absent present persisted with ⟨⟨e,rfl⟩,store,custody⟩ | ⟨handle,now,rfl,kept,stored⟩
          · obtain ⟨rfl,rfl⟩ := refused run
            refine .inl ⟨rfl,store,custody,fun row here => ?_⟩
            rw [← id,present] at here
            cases here
          · obtain ⟨_,x,told,run⟩ := alone_bind.mp run
            obtain ⟨rfl,rfl⟩ := alone_pure.mp run
            obtain ⟨sameStore,sameCustody⟩ := deliverAuthorization_frame told
            exact .inr ⟨auth,rfl,rfl,id,version,
              .inr ⟨id ▸ present,handle,now,by rw [sameCustody,kept],by rw [sameStore,← id,stored]⟩⟩
      · rw [if_neg passes] at run
        exact .inl (left run)

/-- After a delivery that is stored, the row stands for the token delivered. -/
theorem delivered_stands (run : Alone (Device.exec l) (deliver l h remote m) s .stored t) :
    ∃ row auth mac, t.store.getRow m.transferId = some row ∧ computeMac h auth = some mac ∧
      m.authorization = some ⟨auth,some mac⟩ ∧ storedAuthorization l t row = some auth := by
  rcases deliver_cases run with ⟨impossible,_⟩ | ⟨auth,_,decoded,id,version,stored⟩
  · cases impossible
  · obtain ⟨mac,computed,presented⟩ := decode_some decoded
    rcases stored with ⟨row,here,stands,store,custody⟩ | ⟨_,handle,now,kept,here⟩
    · refine ⟨row,auth,mac,store ▸ here,computed,presented,?_⟩
      unfold storedAuthorization storedSecret at stands ⊢
      rw [custody]
      exact stands
    · refine ⟨_,auth,mac,here,computed,presented,?_⟩
      unfold storedAuthorization storedSecret
      simp only [Store.receiverRow,Option.bind_some,kept,Option.map_some]
      -- every bound field is a column of the row
      rw [← version]
      cases auth
      rfl

theorem delivered_again {row : TargetedTransferRow} (here : s.store.getRow m.transferId = some row)
    (run : Alone (Device.exec l) (deliver l h remote m) s r t) : Unchanged s t := by
  rcases deliver_cases run with ⟨_,store,_,custody⟩ | ⟨_,_,_,_,_,⟨_,_,_,same⟩ | ⟨absent,_⟩⟩
  · exact ⟨store,custody row here⟩
  · exact same
  · rw [here] at absent
    cases absent

theorem deliverTimes_unchanged {n : Nat} {row : TargetedTransferRow} (here : s.store.getRow m.transferId = some row)
    (run : Alone (Device.exec l) (deliverTimes l h remote m n) s () u) : Unchanged s u := by
  induction n generalizing s with
  | zero =>
    obtain ⟨_,rfl⟩ := alone_pure.mp run
    exact ⟨rfl,rfl⟩
  | succ n ih =>
    obtain ⟨r,t,first,rest⟩ := alone_bind.mp run
    obtain ⟨store,custody⟩ := delivered_again here first
    obtain ⟨store',custody'⟩ := ih (store ▸ here) rest
    exact ⟨store'.trans store,custody'.trans custody⟩

/-- Loading gives the token a row stands for, or an error of the custody. -/
theorem load_stands {mac : Text} (computed : computeMac h auth = some mac)
    (stored : storedAuthorization l s row = some auth) :
    Alone (Device.exec l) (load l h row) s (.ok (some ⟨auth,some mac⟩)) s ∧
    ∀ found u, Alone (Device.exec l) (load l h row) s (.ok found) u → found = some ⟨auth,some mac⟩ := by
  unfold storedAuthorization storedSecret at stored
  split at stored
  · cases stored
  · rename_i blobTicket ticket
    obtain ⟨material,kept,rebuilt⟩ := Option.map_eq_some_iff.mp stored
    obtain ⟨handle,held,there⟩ := Option.bind_eq_some_iff.mp kept
    unfold load
    rw [loadAuthorization_held held ticket]
    constructor
    · refine ⟨⟨0,false,true,0,none,⟨[],false⟩⟩,some material,s,?_,?_⟩
      · simp only [Device.exec,Bool.false_eq_true,if_false,there]
      · change Alone _ (match computeMac h (reconstructAuthorization _ row blobTicket material) with
          | some mac => _
          | none => _) s _ s
        rw [rebuilt,computed]
        exact ⟨rfl,rfl⟩
    · intro found u run
      obtain ⟨c,answer,v,read,run⟩ := run
      cases answer with
      | none =>
        obtain ⟨impossible,_⟩ := run
        cases impossible
      | some material' =>
        have same : material' = material := by
          have given : (if c.fails then none else s.custody handle) = some material' :=
            (Prod.mk.inj (Option.some.inj read)).1
          split at given
          · cases given
          · rw [there] at given
            exact (Option.some.inj given).symm
        change Alone _ (match computeMac h (reconstructAuthorization _ row blobTicket material') with
          | some mac => _
          | none => _) v _ u at run
        rw [same,rebuilt,computed] at run
        exact (Except.ok.inj run.1).symm

end Deliveries

/-- Redelivery is idempotent and exact. -/
theorem redelivery_exact (l : Local) (h : KeyedHash) (remote : EndpointId) (m : DeliveryMessage) :
    Redelivers l h remote m := by
  constructor
  · intro s t n u stored again
    obtain ⟨row,_,_,here,_⟩ := delivered_stands stored
    exact deliverTimes_unchanged here again
  · intro s r t run rejected
    rcases deliver_cases run with ⟨_,store,custody,_⟩ | ⟨_,stored,_⟩
    · exact ⟨store,custody⟩
    · exact absurd stored rejected
  · intro s row r t here differs run
    refine ⟨?_,delivered_again here run⟩
    rcases deliver_cases run with ⟨rejected,_⟩ | ⟨auth,_,decoded,_,_,⟨row',here',stored,_⟩ | ⟨absent,_⟩⟩
    · exact rejected
    · obtain ⟨mac,computed,presented⟩ := decode_some decoded
      rw [here] at here'
      cases here'
      refine absurd ?_ (differs _ presented)
      unfold stands
      rw [stored,Option.bind_some,computed]
      rfl
    · rw [here] at absent
      cases absent
  · intro s t stored
    obtain ⟨row,auth,mac,here,computed,presented,holds⟩ := delivered_stands stored
    obtain ⟨loaded,only⟩ := load_stands computed holds
    exact ⟨row,⟨auth,some mac⟩,here,presented,loaded,only⟩

private def receiver : Local := ⟨2,1,10,100,8,id,some⟩

private def keyedByTransfer : KeyedHash := ⟨some,fun key d => key + d.transferId⟩

private def consented : Device :=
  { Device.new with
    store := { Device.new.store with
      intents := ⟨[⟨7,1,2,3,3,5,1,1,1,0⟩],List.nodup_singleton _⟩ } }

/-- With durable consent to the offer the authorization is stored. -/
example : (play (Device.exec receiver) (fun n => ⟨0,false,n = 0,9,none,⟨[],false⟩⟩)
    (deliver receiver keyedByTransfer 1 ⟨7,some ⟨⟨7,7,1,2,3,3,1,1,1,5,3,7⟩,some 14⟩⟩) consented 0).map
      (·.1) = some .stored := rfl

end Vnidrop.Targeted.Redelivery
