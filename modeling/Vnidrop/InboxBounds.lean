import Vnidrop.InboxCalls

/-! The pending offers of the inbox as the map they are kept in, with keys of their own: what
bounds it at every release of its lock, and that it is the table of offers by transfer id. -/
namespace Vnidrop.OfferInbox

open Tables Programs Runs Targeted

/-- `HashMap<String, PendingTargetedOfferRecord>`. -/
abbrev Pending := Table fun e : TransferId × PendingTargetedOffer => e.1

namespace Pending

def get (p : Pending) (id : TransferId) : Option PendingTargetedOffer := (p.find id).map (·.2)

def insert (p : Pending) (id : TransferId) (offer : PendingTargetedOffer) : Pending :=
  p.upsert (id,offer) fun e => (e.1,offer)

/-- Per-sender refusal before the global bound. -/
def room (p : Pending) (maxPending : Nat) (offer : PendingTargetedOffer) : Admission :=
  if p.affects fun e => e.2.senderEndpointId = offer.senderEndpointId then
    .refuse "offer-already-pending"
  else if maxPending ≤ p.rows.length then .refuse "too-many-pending-offers"
  else .enter

def examine (p : Pending) (maxPending : Nat) (offer : PendingTargetedOffer) : Admission :=
  match p.get offer.transferId with
  | some existing =>
    if offersEquivalent existing offer then .join else .refuse "immutable-transfer-mismatch"
  | none => p.room maxPending offer

def enqueue (p : Pending) (maxPending : Nat) (offer : PendingTargetedOffer) : Admission × Pending :=
  match p.get offer.transferId with
  | some _ => (.join,p)
  | none =>
    match p.room maxPending offer with
    | .enter => (.enter,p.insert offer.transferId offer)
    | other => (other,p)

/-- The ids of `discard_from`, which are read from the offers. -/
def pendingFrom (p : Pending) (endpoint : EndpointId) : List TransferId :=
  (p.rows.filter fun e => e.2.senderEndpointId = endpoint).map fun e => e.2.transferId

end Pending

/-- The map of pending offers, and beside it everything else of the inbox. -/
structure Live where
  pending : Pending
  others : State

def Live.exec (l : Settings) (s : Live) (c : Choice) : (o : Op) → Option (Ans o × Live)
  | .examine offer => some (s.pending.examine l.maxPending offer,s)
  | .enqueue offer =>
    let (admission,pending) := s.pending.enqueue l.maxPending offer
    some (admission,{ s with pending })
  | .getPending id => some (s.pending.get id,s)
  | .pendingFrom endpoint => some (s.pending.pendingFrom endpoint,s)
  | .dropPending id => some ((),{ s with pending := s.pending.delete id })
  | o => (s.others.exec l c o).map fun r => (r.1,{ s with others := r.2 })

/-- The calls of the inbox, and the two halves of an acceptance that are also called apart. -/
inductive LiveCall where
  | inbox (call : Call)
  | acceptLive (id : TransferId)
  | waitForAuthorization (id : TransferId)
  deriving DecidableEq

def LiveCall.body : LiveCall → Task Unit
  | .inbox call => call.body
  | .acceptLive id => do
    let _ ← OfferInbox.acceptLive id
    return ()
  | .waitForAuthorization id => do
    let _ ← OfferInbox.waitForAuthorization id
    return ()

def live (l : Settings) : Machine Live LiveCall Op Ans Choice Empty where
  init s := s = ⟨.empty,.new⟩
  admits _ _ := true
  body := LiveCall.body
  exec s _ _ o c := s.exec l c o
  env _ e := nomatch e

/-- Every entry is under the id of its offer. -/
def Keyed (p : Pending) : Prop := ∀ e ∈ p.rows, e.2.transferId = e.1

structure Bounded (maxPending : Nat) (p : Pending) : Prop where
  size : p.rows.length ≤ maxPending
  senders : (p.rows.map fun e => e.2.senderEndpointId).Nodup
  keyed : Keyed p

section Bounds

variable {l : Settings} {s t : Live} {p q : Pending} {c : Choice} {o : Op} {maxPending : Nat}
  {offer : PendingTargetedOffer}

/-- An operation that is not about the pending offers. -/
def Beside : Op → Prop
  | .examine _ | .enqueue _ | .getPending _ | .pendingFrom _ | .dropPending _ => False
  | _ => True

theorem exec_beside (beside : Beside o) :
    s.exec l c o = (s.others.exec l c o).map fun r => (r.1,{ s with others := r.2 }) := by
  cases o with
  | examine | enqueue | getPending | pendingFrom | dropPending => exact beside.elim
  | _ => rfl

theorem beside_pending {a : Ans o} (beside : Beside o) (h : s.exec l c o = some (a,t)) :
    t.pending = s.pending := by
  rw [exec_beside beside] at h
  obtain ⟨r,_,eq⟩ := Option.map_eq_some_iff.mp h
  cases eq
  rfl

/-- What an operation can do to the map: nothing, drop an id, or add an offer that there is
room for. -/
theorem exec_pending {a : Ans o} (h : s.exec l c o = some (a,t)) : t.pending = s.pending ∨
    (∃ id, t.pending = s.pending.delete id) ∨
    ∃ offer, s.pending.get offer.transferId = none ∧ s.pending.room l.maxPending offer = .enter ∧
      t.pending = s.pending.insert offer.transferId offer := by
  cases o with
  | enqueue offer =>
    cases Option.some.inj h
    simp only
    split
    · exact .inl rfl
    · rename_i absent
      split
      · rename_i room
        exact .inr (.inr ⟨offer,absent,room,rfl⟩)
      · exact .inl rfl
  | dropPending id =>
    cases Option.some.inj h
    exact .inr (.inl ⟨id,rfl⟩)
  | examine | getPending | pendingFrom =>
    cases Option.some.inj h
    exact .inl rfl
  | _ => exact .inl (beside_pending (by trivial) h)

/-- There is room for an offer of a sender who has none, below the bound. -/
theorem room_enter (h : p.room maxPending offer = .enter) :
    offer.senderEndpointId ∉ p.rows.map (fun e => e.2.senderEndpointId) ∧ p.rows.length < maxPending := by
  unfold Pending.room at h
  split at h
  · cases h
  · rename_i alone
    split at h
    · cases h
    · rename_i below
      refine ⟨fun there => alone ?_,Nat.lt_of_not_le below⟩
      obtain ⟨e,member,same⟩ := List.mem_map.mp there
      exact List.any_eq_true.mpr ⟨e,member,by simpa using same⟩

theorem insert_rows (absent : p.get offer.transferId = none) :
    (p.insert offer.transferId offer).rows = p.rows ++ [(offer.transferId,offer)] := by
  have missing : p.find offer.transferId = none := Option.map_eq_none_iff.mp absent
  have fresh := Table.insert_isSome (t := p) (r := (offer.transferId,offer)) |>.mpr missing
  obtain ⟨q,inserted⟩ := Option.isSome_iff_exists.mp fresh
  unfold Pending.insert Table.upsert
  rw [inserted,Option.getD_some]
  unfold Table.insert at inserted
  split at inserted
  · cases inserted
  · cases inserted
    rfl

theorem delete_sublist (id : TransferId) : (p.delete id).rows.Sublist p.rows := List.filter_sublist

theorem bounded_delete (bounded : Bounded maxPending p) (id : TransferId) :
    Bounded maxPending (p.delete id) where
  size := Nat.le_trans (delete_sublist id).length_le bounded.size
  senders := bounded.senders.sublist ((delete_sublist id).map _)
  keyed e there := bounded.keyed e ((delete_sublist id).subset there)

theorem bounded_insert (bounded : Bounded maxPending p) (absent : p.get offer.transferId = none)
    (room : p.room maxPending offer = .enter) : Bounded maxPending (p.insert offer.transferId offer) := by
  obtain ⟨alone,below⟩ := room_enter room
  have rows := insert_rows absent
  refine ⟨?_,?_,fun e there => ?_⟩
  · rw [rows,List.length_append,List.length_singleton]
    exact below
  · rw [rows,List.map_append,List.map_singleton,List.nodup_append]
    refine ⟨bounded.senders,List.nodup_singleton _,fun a old b new same => ?_⟩
    rw [List.mem_singleton.mp new] at same
    exact alone (same ▸ old)
  · rw [rows] at there
    rcases List.mem_append.mp there with old | new
    · exact bounded.keyed e old
    · rw [List.mem_singleton.mp new]

theorem exec_bounded {a : Ans o} (bounded : Bounded l.maxPending s.pending)
    (h : s.exec l c o = some (a,t)) : Bounded l.maxPending t.pending := by
  rcases exec_pending h with same | ⟨id,dropped⟩ | ⟨offer,absent,room,entered⟩
  · exact same ▸ bounded
  · exact dropped ▸ bounded_delete bounded id
  · exact entered ▸ bounded_insert bounded absent room

/-- Between any two operations of any calls the pending offers are bounded. -/
theorem pending_bounded {c : Conf Live LiveCall Op Ans} (reach : Reach (live l).system Always c) :
    Bounded l.maxPending c.shared.pending := by
  refine reach.invariant (fun c => Bounded l.maxPending c.shared.pending) ?_ ?_
  · rintro c ⟨empty,_⟩
    rw [show c.shared = ⟨.empty,.new⟩ from empty]
    exact ⟨Nat.zero_le _,List.nodup_nil,fun e there => by cases there⟩
  · intro c a d bounded _ stepped
    rcases next_cases stepped with ⟨call,_,_,rfl⟩ | ⟨i,choice,call,o,k,r,s,_,_,performed,rfl⟩ | ⟨e,_⟩
    · exact bounded
    · exact exec_bounded bounded performed
    · exact e.elim

end Bounds

namespace Live.Sample

def settings : Settings := ⟨1,600⟩

def offer (id sender : Nat) : PendingTargetedOffer := ⟨id,sender,9,20,21,22,1,5,2,0⟩

/-- Two offers see an empty map, the first one enters and is discarded, and the second follows. -/
def labels : List (Label LiveCall Choice Empty) :=
  [.fork (.inbox (.submit (offer 1 4))),.fork (.inbox (.submit (offer 2 5))),
    .fork (.inbox (.discard 1))] ++
  [0,0,0,1,1,1,0,2,1].map fun i => .act i ⟨0,false⟩

def start : Conf Live LiveCall Op Ans := ⟨⟨.empty,.new⟩,[]⟩

def final : Conf Live LiveCall Op Ans := ((live settings).system.run start labels).getD start

end Live.Sample

open Live.Sample in
theorem raced_bounded : (live settings).system.run start labels = some final ∧
    final.shared.pending.rows = [(2,offer 2 5)] ∧ Bounded 1 final.shared.pending := by
  have ran : (live settings).system.run start labels = some final := rfl
  have initial : (live settings).system.init start := ⟨rfl,rfl⟩
  exact ⟨ran,rfl,pending_bounded (.of_run initial ran)⟩

/-! With every entry under its own id, the map is the table of offers by transfer id. -/

section Refinement

variable {l : Settings} {s t : Live} {p : Pending} {c : Choice} {o : Op} {maxPending : Nat}
  {offer : PendingTargetedOffer}

/-- The offers of the map. -/
def Pending.offers (p : Pending) (keyed : Keyed p) : Table PendingTargetedOffer.transferId where
  rows := p.rows.map (·.2)
  unique := by
    have same : (p.rows.map (·.2)).map PendingTargetedOffer.transferId = p.rows.map fun e => e.1 := by
      rw [List.map_map]
      exact List.map_congr_left keyed
    rw [same]
    exact p.unique

def State.withPending (s : State) (pending : Table PendingTargetedOffer.transferId) : State :=
  { s with inbox := { s.inbox with pending } }

def Live.state (s : Live) (keyed : Keyed s.pending) : State := s.others.withPending (s.pending.offers keyed)

theorem find_offers (keyed : Keyed p) (id : TransferId) : (p.offers keyed).find id = p.get id := by
  have general (rows : List (TransferId × PendingTargetedOffer)) (keyed : ∀ e ∈ rows, e.2.transferId = e.1) :
      (rows.map (·.2)).find? (fun offer => offer.transferId = id) =
        (rows.find? fun e => e.1 = id).map (·.2) := by
    induction rows with
    | nil => rfl
    | cons e rows ih =>
      have here := keyed e List.mem_cons_self
      by_cases same : e.1 = id
      · simp [here,same]
      · simpa [here,same] using ih fun e there => keyed e (List.mem_cons_of_mem _ there)
  exact general p.rows keyed

theorem offers_room (keyed : Keyed p) (b : Inbox) :
    ({ b with pending := p.offers keyed } : Inbox).room maxPending offer = p.room maxPending offer := by
  have any : (p.offers keyed).affects (fun e => e.senderEndpointId = offer.senderEndpointId) =
      p.affects fun e => e.2.senderEndpointId = offer.senderEndpointId := List.any_map
  have length : (p.offers keyed).rows.length = p.rows.length := List.length_map _
  simp only [Inbox.room,Pending.room,any,length]

theorem offers_delete (keyed : Keyed p) (id : TransferId) (still : Keyed (p.delete id)) :
    Pending.offers (p.delete id) still = (p.offers keyed).delete id := by
  apply Table.ext_rows
  show (p.rows.filter _).map (·.2) = (p.rows.map (·.2)).filter _
  rw [List.filter_map]
  apply congrArg (List.map _)
  apply List.filter_congr
  intro e member
  simp [keyed e member]

theorem offers_insert (keyed : Keyed p) (absent : p.get offer.transferId = none)
    (still : Keyed (p.insert offer.transferId offer)) :
    (p.insert offer.transferId offer).offers still = (p.offers keyed).insertOrIgnore offer := by
  have missing : (p.offers keyed).find offer.transferId = none := (find_offers keyed _).trans absent
  obtain ⟨q,inserted⟩ := Option.isSome_iff_exists.mp (Table.insert_isSome.mpr missing)
  apply Table.ext_rows
  show (p.insert offer.transferId offer).rows.map (·.2) = _
  rw [insert_rows absent,Table.insertOrIgnore,inserted,Option.getD_some]
  unfold Table.insert at inserted
  split at inserted
  · cases inserted
  · cases inserted
    exact List.map_append

/-- Such an operation neither reads nor writes them. -/
theorem exec_withPending (pending : Table PendingTargetedOffer.transferId) (s : State) (beside : Beside o) :
    (s.withPending pending).exec l c o = (s.exec l c o).map fun r => (r.1,r.2.withPending pending) := by
  cases o with
  | examine | enqueue | getPending | pendingFrom | dropPending => exact beside.elim
  | isCooling | clearStrikes | recordDecline | settled | openDecision | dropAuth | decisionOf | openAuth
    | settle | leave => rfl
  | subscribe id =>
    have same : (s.withPending pending).inbox.subscribe id = s.inbox.subscribe id := rfl
    simp only [State.exec,same]
    split <;> rfl
  | awaitDecision channel | awaitAuth channel =>
    simp only [State.exec,Option.map_map]
    rfl
  | dropDecision id =>
    simp only [State.exec,Inbox.dropDecision,State.withPending]
    split <;> rfl
  | sendDecision channel decision =>
    have same : (s.withPending pending).inbox.listeners channel = s.inbox.listeners channel := rfl
    by_cases gone : s.inbox.listeners channel = 0
    · simp only [State.exec,same,if_pos gone]
      rfl
    · simp only [State.exec,same,if_neg gone]
      rfl
  | subscribeAuth id =>
    have same : (s.withPending pending).inbox.auths id = s.inbox.auths id := rfl
    cases waiting : s.inbox.auths id with
    | none =>
      simp only [State.exec,same,waiting]
      rfl
    | some channel =>
      simp only [State.exec,same,waiting]
      rfl
  | sendAuthorization id auth =>
    have same : (s.withPending pending).inbox.auths id = s.inbox.auths id := rfl
    cases waiting : s.inbox.auths id with
    | none =>
      simp only [State.exec,Inbox.sendAuthorization,same,waiting]
      rfl
    | some channel =>
      have listening : (s.withPending pending).inbox.listeners channel = s.inbox.listeners channel := rfl
      by_cases gone : s.inbox.listeners channel = 0
      · simp only [State.exec,Inbox.sendAuthorization,same,waiting,listening,if_pos gone]
        rfl
      · simp only [State.exec,Inbox.sendAuthorization,same,waiting,listening,if_neg gone]
        rfl

/-- Each critical section on the map is the one on the table. -/
theorem exec_refines {a : Ans o} (bounded : Bounded l.maxPending s.pending) (h : s.exec l c o = some (a,t)) :
    ∃ still : Keyed t.pending, (s.state bounded.keyed).exec l c o = some (a,t.state still) := by
  have still := (exec_bounded bounded h).keyed
  refine ⟨still,?_⟩
  have keyed := bounded.keyed
  by_cases beside : Beside o
  · rw [exec_beside beside] at h
    obtain ⟨r,performed,eq⟩ := Option.map_eq_some_iff.mp h
    cases eq
    exact (exec_withPending _ _ beside).trans (by rw [performed]; rfl)
  · cases o with
    | getPending id =>
      cases Option.some.inj h
      exact congrArg (fun found => some (found,_)) (find_offers keyed id)
    | examine offer =>
      cases Option.some.inj h
      have same : (s.state keyed).inbox.examine l.maxPending offer = s.pending.examine l.maxPending offer := by
        have found : (s.state keyed).inbox.getPending offer.transferId = s.pending.get offer.transferId :=
          find_offers keyed _
        have room : (s.state keyed).inbox.room l.maxPending offer = s.pending.room l.maxPending offer :=
          offers_room keyed _
        cases here : s.pending.get offer.transferId with
        | none | some _ => simp only [Inbox.examine,Pending.examine,found,room,here]
      exact congrArg (fun admission => some (admission,_)) same
    | enqueue offer =>
      have found : (s.state keyed).inbox.getPending offer.transferId = s.pending.get offer.transferId :=
        find_offers keyed _
      have room : (s.state keyed).inbox.room l.maxPending offer = s.pending.room l.maxPending offer :=
        offers_room keyed _
      cases held : s.pending.get offer.transferId with
      | some existing =>
        simp only [Live.exec,Pending.enqueue,held] at h
        cases h
        simp only [State.exec,Inbox.enqueue,found,held]
        rfl
      | none =>
        cases admits : s.pending.room l.maxPending offer with
        | enter =>
          simp only [Live.exec,Pending.enqueue,held,admits] at h
          cases h
          simp only [State.exec,Inbox.enqueue,found,held,room,admits]
          have entered := offers_insert keyed held still
          show some (_,State.withPending _ _) = some (_,State.withPending _ _)
          rw [entered]
          rfl
        | join | refuse =>
          simp only [Live.exec,Pending.enqueue,held,admits] at h
          cases h
          simp only [State.exec,Inbox.enqueue,found,held,room,admits]
          rfl
    | pendingFrom endpoint =>
      cases Option.some.inj h
      have same : ((s.pending.offers keyed).rows.filter fun e => e.senderEndpointId = endpoint).map
          (·.transferId) = s.pending.pendingFrom endpoint := by
        show ((s.pending.rows.map (·.2)).filter _).map _ = _
        rw [List.filter_map,List.map_map]
        rfl
      exact congrArg (fun ids => some (ids,_)) same
    | dropPending id =>
      cases Option.some.inj h
      have dropped := offers_delete keyed id still
      show some ((),State.withPending _ _) = some ((),State.withPending _ _)
      rw [dropped]
      rfl
    | _ => exact absurd trivial beside

/-- The calls are those of the machine on the table. -/
def Shared (_ : Conf Live LiveCall Op Ans) : Label LiveCall Choice Empty → Prop
  | .fork call => ∃ inner, call = .inbox inner
  | _ => True

def LiveCall.inner : LiveCall → Call
  | .inbox call => call
  | .acceptLive id | .waitForAuthorization id => .respond id true

/-- The thread with the call it is of. -/
def inner (t : Thread LiveCall Op Ans) : Thread Call Op Ans := ⟨t.call.inner,t.rest⟩

/-- What is reached on the map is reached on the table of its offers. -/
theorem live_refines {c : Conf Live LiveCall Op Ans} (reach : Reach (live l).system Shared c) :
    ∃ keyed : Keyed c.shared.pending,
      Reach (calls l).system Always ⟨c.shared.state keyed,c.threads.map inner⟩ := by
  induction reach with
  | start c h =>
    obtain ⟨⟨pending,others⟩,threads⟩ := c
    obtain ⟨empty,none⟩ := h
    cases empty
    cases none
    exact ⟨fun e there => (by cases there),.start _ ⟨rfl,rfl⟩⟩
  | @advance c d a past shared stepped ih =>
    obtain ⟨keyed,reached⟩ := ih
    have bounded := pending_bounded (past.mono fun _ _ _ => trivial)
    rcases next_cases stepped with ⟨call,rfl,_,rfl⟩ | ⟨i,choice,call,o,k,r,s,rfl,here,performed,rfl⟩ | ⟨e,_⟩
    · obtain ⟨call,rfl⟩ := shared
      refine ⟨keyed,.advance (.fork call) reached trivial ?_⟩
      simp [Machine.system,Machine.next,calls,live,LiveCall.body,inner,LiveCall.inner]
    · obtain ⟨still,refined⟩ := exec_refines bounded performed
      refine ⟨still,.advance (.act i choice) reached trivial ?_⟩
      have there : (c.threads.map inner)[i]? = some ⟨call.inner,.step o k⟩ := by
        rw [List.getElem?_map,here]
        rfl
      have moved : (calls l).exec (c.shared.state keyed) i call.inner o choice = some (r,s.state still) :=
        refined
      simp only [Machine.system,Machine.next,there,moved,List.map_set]
      rfl
    · exact e.elim

end Refinement

end Vnidrop.OfferInbox
