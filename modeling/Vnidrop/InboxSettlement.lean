import Vnidrop.TargetedOps
import Vnidrop.TargetedRows
import Mathlib

/-! Whether an offer whose authorization has been stored leaves the pending map. It is taken
out by the accept call that reads the authorization, and by no other part of the delivery. -/
namespace Vnidrop.Targeted.Settlement

open Programs Runs Tables TargetedTransferState

def accepts (id : TransferId) (call : Call) : Bool :=
  match call with
  | .respond id' accepted => id' = id && accepted
  | _ => false

abbrev Listening := List (Nat × Channel)

def Listening.without (l : Listening) (e : Nat × Channel) : Listening := l.filter (· ≠ e)

/-- Thread `i` is no longer listening for the transfer. -/
def Listening.leave (l : Listening) (i : Nat) (id : TransferId) : Listening :=
  l.filter fun e => !(decide (e.1 = i) && decide (e.2.transferId = id))

/-- The transfers whose authorization has been handed to the inbox; the accept calls that have
opened a channel and are to subscribe, and those that have subscribed. -/
structure History where
  told : List TransferId
  opening : Listening
  waiting : Listening

/-- What an accept call of `id` leaves in the history. -/
def accepting (h : History) (i : Nat) (id : TransferId) : (o : Op) → Ans o → History
  | .openAuth _, channel =>
    if channel.transferId = id then { h with opening := (i,channel) :: h.opening } else h
  | .dropAuth _, _ => { h with opening := h.opening.leave i id }
  | .settled _, some (.accepted (some _)) => { h with opening := h.opening.leave i id }
  | .subscribeAuth _, none => { h with opening := h.opening.leave i id }
  | .subscribeAuth _, some channel =>
    if channel.transferId = id then
      { h with opening := h.opening.leave i id, waiting := (i,channel) :: h.waiting }
    else { h with opening := h.opening.leave i id }
  | .awaitAuth channel, .closed | .awaitAuth channel, .elapsed =>
    { h with waiting := h.waiting.without (i,channel) }
  | .dropPending _, _ => { h with waiting := h.waiting.leave i id }
  | _, _ => h

def record (h : History) (_ : Device) (i : Nat) (call : Call) (o : Op) (a : Ans o) : History :=
  match call, o with
  | .respond id true, o => accepting h i id o a
  | .authorized _ _, .sendAuthorization id _ => { h with told := id :: h.told }
  | _, _ => h

abbrev Seen := Observed Device History

/-- A process starts with an empty inbox, and has answered nothing. -/
def Restarted (s : Device) : Prop := s.inbox = .new ∧ s.answers = []

def machine (l : Local) : Machine Seen Call Op Ans Choice Housekeeping :=
  (device l Restarted).observe ⟨[],[],[]⟩ record fun h _ _ => h

def pending (s : Seen) (id : TransferId) : Bool := (s.state.inbox.getPending id).isSome

/-- A subscribed accept call has the authorization before it. -/
def reading (s : Seen) (id : TransferId) : Bool :=
  s.history.waiting.any fun e => e.2.transferId = id && (s.state.inbox.delivered e.2).isSome

/-- The registered channel has a receiver, and an accept call that is going to read it. -/
def listening (s : Seen) (id : TransferId) : Bool :=
  (s.state.inbox.auths id).any fun channel => s.state.inbox.listeners channel ≠ 0 &&
    (s.history.opening ++ s.history.waiting).any (·.2 = channel)

/-- An authorization is handed over for a pending offer only while an accept call listens for
it; until one has subscribed, no other call replaces or removes the channel; and an offer
enters the map only while its transfer has no row. -/
def permits (l : Local) (s : Seen) (o : Op) : Bool :=
  match o with
  | .sendAuthorization id _ => !pending s id || listening s id
  | .openAuth id | .dropAuth id => !(decide (id ∈ s.history.told) && pending s id) || reading s id
  | .enqueue offer =>
    (s.state.store.getRow offer.transferId).isNone ||
      decide ((s.state.inbox.enqueue l.maxPending offer).1 ≠ .enter)
  | _ => true

def minds (l : Local) (s : Seen) (_ : Nat) (_ : Call) (o : Op) (_ : Choice) : Prop :=
  permits l s o = true


/-- The transfer has a receiver's row. -/
def Stored (s : Device) (id : TransferId) : Prop :=
  ∃ row, s.store.getRow id = some row ∧ row.role = .receiver

/-- An accept call is going to read the authorization and to take the offer out. -/
def Due (s : Seen) (id : TransferId) : Prop :=
  (∃ i channel, (i,channel) ∈ s.history.waiting ∧ channel.transferId = id ∧
    (s.state.inbox.delivered channel).isSome = true) ∨
  ∃ i channel, (i,channel) ∈ s.history.opening ∧ s.state.inbox.auths id = some channel ∧
    (s.state.inbox.delivered channel).isSome = true

structure Inv (s : Seen) : Prop where
  stored : ∀ id, id ∈ s.history.told → Stored s.state id
  delivered : ∀ channel, (s.state.inbox.delivered channel).isSome = true →
    channel.transferId ∈ s.history.told
  settled : ∀ id, (Inbox.settledAuthorization (s.state.inbox.settled id)).isSome = true →
    id ∈ s.history.told ∧ pending s id = false
  own : ∀ id channel, s.state.inbox.auths id = some channel → channel.transferId = id
  due : ∀ id, id ∈ s.history.told → pending s id = true → Due s id
  answered : ∀ peer delivery, (peer,.deliverAuthorization delivery,.stored) ∈ s.state.answers →
    delivery.transferId ∈ s.history.told

/-- What the others leave to thread `i`. -/
structure Kept (i : Nat) (s t : Seen) : Prop where
  opening : ∀ channel, (i,channel) ∈ t.history.opening ↔ (i,channel) ∈ s.history.opening
  waiting : ∀ channel, (i,channel) ∈ t.history.waiting ↔ (i,channel) ∈ s.history.waiting
  told : ∀ id, id ∈ s.history.told → id ∈ t.history.told
  stored : ∀ id, Stored s.state id → Stored t.state id
  clear : ∀ id, id ∈ s.history.told → pending s id = false → pending t id = false

theorem Kept.refl (i : Nat) (s : Seen) : Kept i s s :=
  ⟨fun _ => Iff.rfl,fun _ => Iff.rfl,fun _ h => h,fun _ h => h,fun _ _ h => h⟩

theorem Kept.trans {i : Nat} {s t u : Seen} (first : Kept i s t) (second : Kept i t u) : Kept i s u where
  opening channel := (second.opening channel).trans (first.opening channel)
  waiting channel := (second.waiting channel).trans (first.waiting channel)
  told id there := second.told id (first.told id there)
  stored id there := second.stored id (first.stored id there)
  clear id there settled := second.clear id (first.told id there) (first.clear id there settled)

def terms : Terms Seen where
  known _ := True
  inv := Inv
  rely := Kept
  refl := Kept.refl
  trans _ := Kept.trans

section Steps

variable {s t u : Seen} {i j k : Nat} {id : TransferId} {channel : Channel}

theorem mem_leave {l : Listening} {e : Nat × Channel} :
    e ∈ l.leave i id ↔ e ∈ l ∧ ¬(e.1 = i ∧ e.2.transferId = id) := by
  unfold Listening.leave
  rw [List.mem_filter]
  refine and_congr_right fun _ => ?_
  simp only [Bool.not_eq_true',← Bool.not_eq_true,Bool.and_eq_true,decide_eq_true_eq]

theorem mem_without {l : Listening} {e e' : Nat × Channel} : e ∈ l.without e' ↔ e ∈ l ∧ e ≠ e' := by
  unfold Listening.without
  simp

theorem mem_leave_of_ne {l : Listening} (other : j ≠ i) : (j,channel) ∈ l.leave i id ↔ (j,channel) ∈ l :=
  mem_leave.trans (and_iff_left fun same => other same.1)

theorem reading_iff : reading s id = true ↔ ∃ i channel, (i,channel) ∈ s.history.waiting ∧
    channel.transferId = id ∧ (s.state.inbox.delivered channel).isSome = true := by
  unfold reading
  rw [List.any_eq_true]
  constructor
  · rintro ⟨⟨i,channel⟩,there,both⟩
    simp only [Bool.and_eq_true,decide_eq_true_eq] at both
    exact ⟨i,channel,there,both.1,both.2⟩
  · rintro ⟨i,channel,there,own,delivered⟩
    exact ⟨(i,channel),there,by simp [own,delivered]⟩

/-- A step that delivers nothing, settles no acceptance and brings no transfer that has been
told of back into the map. -/
structure Calm (s t : Seen) : Prop where
  stored : ∀ id, Stored s.state id → Stored t.state id
  told : t.history.told = s.history.told
  clear : ∀ id, id ∈ s.history.told → pending t id = true → pending s id = true
  delivered : t.state.inbox.delivered = s.state.inbox.delivered
  settled : ∀ id, (Inbox.settledAuthorization (t.state.inbox.settled id)).isSome = true →
    (Inbox.settledAuthorization (s.state.inbox.settled id)).isSome = true
  own : ∀ id channel, t.state.inbox.auths id = some channel →
    s.state.inbox.auths id = some channel ∨ channel.transferId = id
  due : ∀ id, id ∈ s.history.told → pending t id = true → Due s id → Due t id
  answers : ∀ peer delivery, (peer,.deliverAuthorization delivery,.stored) ∈ t.state.answers →
    (peer,.deliverAuthorization delivery,.stored) ∈ s.state.answers

theorem Calm.clears (calm : Calm s t) (told : id ∈ s.history.told) (clear : pending s id = false) :
    pending t id = false := by
  rw [← Bool.not_eq_true]
  intro back
  rw [calm.clear id told back] at clear
  cases clear

theorem Calm.inv (calm : Calm s t) (inv : Inv s) : Inv t where
  stored _ told := calm.stored _ (inv.stored _ (calm.told ▸ told))
  delivered channel there := by
    rw [calm.told]
    rw [calm.delivered] at there
    exact inv.delivered channel there
  settled id there := by
    obtain ⟨told,clear⟩ := inv.settled id (calm.settled id there)
    exact ⟨calm.told ▸ told,calm.clears told clear⟩
  own id channel there := (calm.own id channel there).elim (inv.own id channel) (·)
  due id told here := by
    rw [calm.told] at told
    exact calm.due id told here (inv.due id told (calm.clear id told here))
  answered peer delivery there := by
    rw [calm.told]
    exact inv.answered peer delivery (calm.answers peer delivery there)

theorem Calm.kept (calm : Calm s t)
    (opening : ∀ channel, (i,channel) ∈ t.history.opening ↔ (i,channel) ∈ s.history.opening)
    (waiting : ∀ channel, (i,channel) ∈ t.history.waiting ↔ (i,channel) ∈ s.history.waiting) :
    Kept i s t where
  opening := opening
  waiting := waiting
  told _ there := calm.told ▸ there
  stored := calm.stored
  clear _ told clear := calm.clears told clear

/-- What is due stays so while the inbox is as it was and the listeners of the transfer stay. -/
theorem due_of_same (inv : Inv s) (due : Due s id) (delivered : t.state.inbox.delivered = s.state.inbox.delivered)
    (auths : t.state.inbox.auths id = s.state.inbox.auths id)
    (opening : ∀ e ∈ s.history.opening, e.2.transferId = id → e ∈ t.history.opening)
    (waiting : ∀ e ∈ s.history.waiting, e.2.transferId = id → e ∈ t.history.waiting) : Due t id := by
  unfold Due
  rw [delivered,auths]
  rcases due with ⟨i,channel,there,own,sent⟩ | ⟨i,channel,there,registered,sent⟩
  · exact .inl ⟨i,channel,waiting _ there own,own,sent⟩
  · exact .inr ⟨i,channel,opening _ there (inv.own id channel registered),registered,sent⟩

end Steps

/-! What an operation does to the inbox. -/

section Operations

variable {l : Local} {d e : Device} {c : Choice} {o : Op} {a : Ans o}

/-- The operations that write the pending map, the registered channels, what these hold, the
settled results or the answers. -/
def touches : Op → Bool
  | .enqueue _ | .dropPending _ | .dropAuth _ | .openAuth _ | .sendAuthorization .. | .settle .. |
    .answer .. => true
  | _ => false

/-- The parts of the inbox that matter here. -/
structure SameInbox (d e : Device) : Prop where
  pending : e.inbox.pending = d.inbox.pending
  auths : e.inbox.auths = d.inbox.auths
  delivered : e.inbox.delivered = d.inbox.delivered
  settled : e.inbox.settled = d.inbox.settled
  answers : e.answers = d.answers

theorem same_inbox (aside : touches o = false) (h : d.exec l c o = some (a,e)) : SameInbox d e := by
  by_cases read : Device.reads o = true
  · rw [Device.exec_reads read h]
    exact ⟨rfl,rfl,rfl,rfl,rfl⟩
  · cases o <;> try exact absurd rfl read
    all_goals try cases aside
    all_goals
      simp only [Device.exec,Device.setInbox,Inbox.dropDecision] at h
      repeat' first
        | (cases h; done)
        | (cases h; exact ⟨rfl,rfl,rfl,rfl,rfl⟩)
        | split at h

theorem stored_exec {id : TransferId} (h : d.exec l c o = some (a,e)) (here : Stored d id) : Stored e id := by
  obtain ⟨row,found,role⟩ := here
  rcases store_kept h with ⟨w,rfl⟩ | same
  · rcases Device.exec_write h with ⟨_,rfl⟩ | ⟨changed,store,ran,_,rfl⟩
    · exact ⟨row,found,role⟩
    · exact receiver_stays ran found role
  · exact ⟨row,same ▸ found,role⟩

end Operations


section Calm

variable {l : Local} {s u : Seen} {i j : Nat} {call : Call} {c : Choice} {o : Op} {a : Ans o} {e : Device}
  {h : History} {id : TransferId}

abbrev Does (l : Local) (i : Nat) (call : Call) {α : Type} (p : Task α) (post : α → Seen → Prop)
    (s : Seen) : Prop := Safe ((machine l).restrict (minds l)) free terms i call p post s

/-- What an operation does, and that it was permitted. -/
theorem performed (ran : ((machine l).restrict (minds l)).exec s i call o c = some (a,u)) :
    permits l s o = true ∧ ∃ e, s.state.exec l c o = some (a,e) ∧
      u = ⟨e,record s.history s.state i call o a⟩ := by
  obtain ⟨permitted,ran⟩ := restrict_exec.mp ran
  exact ⟨permitted,observe_exec ran⟩

theorem calm_aside (aside : touches o = false) (ran : s.state.exec l c o = some (a,e))
    (told : h.told = s.history.told)
    (due : ∀ id, id ∈ s.history.told → pending s id = true → Due s id → Due ⟨e,h⟩ id) : Calm s ⟨e,h⟩ := by
  obtain ⟨entries,auths,delivered,settled,answers⟩ := same_inbox aside ran
  have same (id : TransferId) : pending ⟨e,h⟩ id = pending s id := by
    unfold pending Inbox.getPending
    rw [entries]
  exact {
    stored := fun _ => stored_exec ran
    told := told
    clear := fun id _ here => (same id).symm.trans here
    delivered := delivered
    settled := fun id there => by
      rw [settled] at there
      exact there
    own := fun id channel there => .inl (by
      rw [auths] at there
      exact there)
    due := fun id told here => due id told ((same id).symm.trans here)
    answers := fun peer delivery there => by
      rw [answers] at there
      exact there }

theorem pending_drop (id' : TransferId) :
    pending ⟨s.state.setInbox (s.state.inbox.dropPending id),h⟩ id' = (!decide (id' = id) && pending s id') := by
  unfold pending Device.setInbox Inbox.dropPending Inbox.getPending
  by_cases same : id' = id
  · subst same
    simp
  · rw [Table.find_delete_other _ same]
    simp [same]

theorem calm_dropPending (told : h.told = s.history.told)
    (opening : ∀ e ∈ s.history.opening, e.2.transferId ≠ id → e ∈ h.opening)
    (waiting : ∀ e ∈ s.history.waiting, e.2.transferId ≠ id → e ∈ h.waiting) (inv : Inv s) :
    Calm s ⟨s.state.setInbox (s.state.inbox.dropPending id),h⟩ where
  stored _ here := here
  told := told
  clear id' _ here := by
    rw [pending_drop] at here
    simp only [Bool.and_eq_true] at here
    exact here.2
  delivered := rfl
  settled _ there := there
  own _ _ there := .inl there
  due id' _ here due := by
    rw [pending_drop] at here
    simp only [Bool.and_eq_true,Bool.not_eq_true',decide_eq_false_iff_not] at here
    refine due_of_same inv due rfl rfl (fun e there own => ?_) (fun e there own => ?_)
    · exact opening e there fun same => here.1 (own.symm.trans same)
    · exact waiting e there fun same => here.1 (own.symm.trans same)
  answers _ _ there := there

/-- Where the channel of a transfer is replaced or removed, an accept call has subscribed. -/
theorem read_of_permitted (permitted : (!(decide (id ∈ s.history.told) && pending s id) || reading s id) = true)
    (told : id ∈ s.history.told) (here : pending s id = true) : reading s id = true := by
  simpa [told,here] using permitted

theorem calm_dropAuth (told : h.told = s.history.told)
    (opening : ∀ e ∈ s.history.opening, e.2.transferId ≠ id → e ∈ h.opening)
    (waiting : h.waiting = s.history.waiting) (permitted : permits l s (.dropAuth id) = true)
    (inv : Inv s) : Calm s ⟨s.state.setInbox (s.state.inbox.dropAuth id),h⟩ where
  stored _ here := here
  told := told
  clear _ _ here := here
  delivered := rfl
  settled _ there := there
  own id' channel there := by
    left
    have there : Function.update s.state.inbox.auths id none id' = some channel := there
    rw [Function.update_apply] at there
    split at there
    · cases there
    · exact there
  due id' told here due := by
    by_cases same : id' = id
    · subst same
      left
      rw [show (⟨_,h⟩ : Seen).history.waiting = s.history.waiting from waiting]
      exact reading_iff.mp (read_of_permitted permitted told here)
    · refine due_of_same inv due rfl (Function.update_of_ne same _ _) (fun e there own => ?_) (fun e there _ => ?_)
      · exact opening e there fun eq => same (own.symm.trans eq)
      · exact waiting ▸ there
  answers _ _ there := there

theorem calm_enqueue {offer : PendingTargetedOffer} {a : Admission}
    (ran : s.state.exec l c (.enqueue offer) = some (a,e))
    (permitted : permits l s (.enqueue offer) = true) (inv : Inv s) : Calm s ⟨e,s.history⟩ := by
  simp only [Device.exec] at ran
  cases ran
  rcases Inbox.enqueue_cases s.state.inbox l.maxPending offer with ⟨same,_⟩ | ⟨absent,entered⟩
  · rw [same]
    exact ⟨fun _ here => here,rfl,fun _ _ here => here,rfl,fun _ there => there,fun _ _ there => .inl there,
      fun _ _ _ due => due,fun _ _ there => there⟩
  · rw [entered]
    -- a transfer that has been told of has a row, so its offer is not admitted
    have other (id : TransferId) (told : id ∈ s.history.told) : id ≠ offer.transferId := by
      rintro rfl
      obtain ⟨row,found,_⟩ := inv.stored _ told
      have none : (s.state.store.getRow offer.transferId).isNone = true := by
        simpa [permits,entered] using permitted
      rw [found] at none
      cases none
    refine ⟨fun _ here => here,rfl,fun id told here => ?_,rfl,fun _ there => there,fun _ _ there => .inl there,
      fun _ _ _ due => due,fun _ _ there => there⟩
    unfold pending Inbox.getPending at here ⊢
    rw [show (Device.setInbox _ _).inbox.pending = s.state.inbox.pending.insertOrIgnore offer from rfl,
      Table.find_insertOrIgnore,if_neg (other id told)] at here
    exact here

theorem calm_settle {result : SettledOfferResult}
    (declined : Inbox.settledAuthorization (some result) = none) :
    Calm s ⟨s.state.setInbox (s.state.inbox.settle id result),s.history⟩ := by
  refine ⟨fun _ here => here,rfl,fun _ _ here => here,rfl,fun id' there => ?_,fun _ _ there => .inl there,
    fun _ _ _ due => due,fun _ _ there => there⟩
  have there : (Inbox.settledAuthorization (Function.update s.state.inbox.settled id (some result) id')).isSome =
    true := there
  rw [Function.update_apply] at there
  split at there
  · rw [declined] at there
    cases there
  · exact there

theorem calm_answer {peer : EndpointId} {request : Request} {response : Response}
    (other : ∀ delivery, request = .deliverAuthorization delivery → response ≠ .stored) :
    Calm s ⟨{ s.state with answers := (peer,request,response) :: s.state.answers },s.history⟩ := by
  refine ⟨fun _ here => here,rfl,fun _ _ here => here,rfl,fun _ there => there,fun _ _ there => .inl there,
    fun _ _ _ due => due,fun peer' delivery there => ?_⟩
  rcases List.mem_cons.mp there with eq | old
  · cases eq
    exact absurd rfl (other delivery rfl)
  · exact old

/-- The operations that are calm whatever the history records of them. -/
def calm : Op → Bool
  | .openAuth _ | .sendAuthorization .. => false
  | .settle _ result => (Inbox.settledAuthorization (some result)).isNone
  | .answer _ (.deliverAuthorization _) response => decide (response ≠ .stored)
  | _ => true

theorem quiet_calm (still : calm o = true) (unrecorded : ∀ h d a, record h d i call o a = h) :
    Quiet ((machine l).restrict (minds l)) free terms i call o := by
  intro s _ inv c a u _ done
  obtain ⟨permitted,e,ran,rfl⟩ := performed done
  rw [unrecorded]
  suffices calm : Calm s ⟨e,s.history⟩ from
    ⟨calm.inv inv,fun j => calm.kept (fun _ => Iff.rfl) fun _ => Iff.rfl⟩
  by_cases aside : touches o = false
  · exact calm_aside aside ran rfl fun id _ _ due => by
      have same := same_inbox aside ran
      exact due_of_same inv due same.delivered (congrFun same.auths id) (fun _ there _ => there)
        fun _ there _ => there
  · cases o <;> try exact absurd rfl aside
    case enqueue offer => exact calm_enqueue ran permitted inv
    case dropPending id =>
      cases Option.some.inj ran
      exact calm_dropPending rfl (fun _ there _ => there) (fun _ there _ => there) inv
    case dropAuth id =>
      cases Option.some.inj ran
      exact calm_dropAuth rfl (fun _ there _ => there) rfl permitted inv
    case openAuth => cases still
    case sendAuthorization => cases still
    case settle id result =>
      cases Option.some.inj ran
      exact calm_settle (Option.isNone_iff_eq_none.mp still)
    case answer peer request response =>
      cases Option.some.inj ran
      refine calm_answer fun delivery eq => ?_
      subst eq
      exact of_decide_eq_true still

end Calm


section Rules

variable {l : Local} {s : Seen} {i : Nat} {call : Call} {o : Op} {α : Type} {p : Task α} {f : Ans o → Task α}
  {post : α → Seen → Prop}

/-- A calm operation, with what its answer tells. -/
theorem does_calm (still : calm o = true) (unrecorded : ∀ h d a, record h d i call o a = h)
    (rest : ∀ t e c a, Inv t → Kept i s t → t.state.exec l c o = some (a,e) → Kept i t ⟨e,t.history⟩ →
      Does l i call (f a) post ⟨e,t.history⟩) : Does l i call (op o >>= f) post s := by
  intro t _ inv kept c a u _ done
  have quiet := quiet_calm still unrecorded t trivial inv c a u trivial done
  obtain ⟨_,e,ran,rfl⟩ := performed done
  refine ⟨⟨quiet.1,fun j _ => quiet.2 j⟩,?_⟩
  have mine := quiet.2 i
  rw [unrecorded] at mine ⊢
  exact rest t e c a inv kept ran mine

/-- A program of calm operations. -/
theorem does_quiet (all : p.All fun o => calm o = true ∧ ∀ h d a, record h d i call o a = h) :
    Does l i call p (fun _ => Kept i s) s :=
  safe_quiet (Prog.all_mono (fun _ both => quiet_calm both.1 both.2) all) s

end Rules

/-! The delivery of an authorization. -/

section Deliveries

variable {l : Local} {s : Seen} {i : Nat} {remote : EndpointId} {delivery : DeliverTargetedAuthorization}
  {auth : TargetedAuthorization} {id : TransferId}

/-- What handing an authorization to the inbox leaves to it. -/
theorem send_cases (b : Inbox) (id : TransferId) (auth : TargetedAuthorization) :
    (∃ channel, b.auths id = some channel ∧ b.listeners channel ≠ 0 ∧ b.sendAuthorization id auth =
      (true,{ b with delivered := Function.update b.delivered channel (some auth) })) ∨
    ((∀ channel, b.auths id = some channel → b.listeners channel = 0) ∧
      b.sendAuthorization id auth = (false,b)) := by
  unfold Inbox.sendAuthorization
  split
  · rename_i channel registered
    split
    · rename_i none
      refine .inr ⟨fun channel' there => ?_,rfl⟩
      cases registered.symm.trans there
      exact none
    · rename_i heard
      exact .inl ⟨channel,registered,heard,rfl⟩
  · rename_i absent
    refine .inr ⟨fun channel there => ?_,rfl⟩
    cases absent.symm.trans there

theorem does_send (stored : Stored s.state id) :
    Does l i (.authorized remote delivery) (op (.sendAuthorization id auth))
      (fun _ u => id ∈ u.history.told) s := by
  intro t _ inv kept c sent u _ done
  obtain ⟨permitted,e,ran,rfl⟩ := performed done
  have stored := kept.stored id stored
  simp only [Device.exec] at ran
  rcases send_cases t.state.inbox id auth with ⟨channel,registered,heard,eq⟩ | ⟨unheard,eq⟩
  · rw [eq] at ran
    cases ran
    have own : channel.transferId = id := inv.own id channel registered
    have sent (channel' : Channel) (there : (t.state.inbox.delivered channel').isSome = true) :
        (Function.update t.state.inbox.delivered channel (some auth) channel').isSome = true := by
      rw [Function.update_apply]
      split
      · rfl
      · exact there
    refine ⟨⟨⟨fun id' told => ?_,fun channel' there => ?_,fun id' there => ?_,inv.own,
      fun id' told here => ?_,fun peer delivery there => List.mem_cons_of_mem _ (inv.answered peer delivery there)⟩,
      fun j _ => ⟨fun _ => Iff.rfl,fun _ => Iff.rfl,fun _ there => List.mem_cons_of_mem _ there,
        fun _ here => here,fun _ _ here => here⟩⟩,List.mem_cons_self⟩
    · rcases List.mem_cons.mp told with rfl | told
      · exact stored
      · exact inv.stored id' told
    · have there : (Function.update t.state.inbox.delivered channel (some auth) channel').isSome = true := there
      rw [Function.update_apply] at there
      split at there
      · rename_i same
        subst same
        exact own ▸ List.mem_cons_self
      · exact List.mem_cons_of_mem _ (inv.delivered channel' there)
    · obtain ⟨told,clear⟩ := inv.settled id' there
      exact ⟨List.mem_cons_of_mem _ told,clear⟩
    · by_cases same : id' = id
      · subst same
        have listens : listening t id' = true := by
          have both : (!pending t id' || listening t id') = true := permitted
          rw [show pending t id' = true from here] at both
          exact both
        unfold listening at listens
        rw [registered] at listens
        simp only [Option.any_some,Bool.and_eq_true,List.any_eq_true,decide_eq_true_eq] at listens
        obtain ⟨_,⟨j,channel'⟩,there,same⟩ := listens
        have same : channel' = channel := same
        subst same
        have now : (Function.update t.state.inbox.delivered channel' (some auth) channel').isSome = true := by
          rw [Function.update_self]
          rfl
        rcases List.mem_append.mp there with opening | waiting
        · exact .inr ⟨j,channel',opening,registered,now⟩
        · exact .inl ⟨j,channel',waiting,own,now⟩
      · rcases List.mem_cons.mp told with eq | told
        · exact absurd eq same
        · rcases inv.due id' told here with ⟨j,channel',there,mine,old⟩ | ⟨j,channel',there,mine,old⟩
          · exact .inl ⟨j,channel',there,mine,sent channel' old⟩
          · exact .inr ⟨j,channel',there,mine,sent channel' old⟩
  · rw [eq] at ran
    cases ran
    refine ⟨⟨⟨fun id' told => ?_,fun channel' there => List.mem_cons_of_mem _ (inv.delivered channel' there),
      fun id' there => ?_,inv.own,fun id' told here => ?_,
      fun peer delivery there => List.mem_cons_of_mem _ (inv.answered peer delivery there)⟩,
      fun j _ => ⟨fun _ => Iff.rfl,fun _ => Iff.rfl,fun _ there => List.mem_cons_of_mem _ there,
        fun _ here => here,fun _ _ here => here⟩⟩,List.mem_cons_self⟩
    · rcases List.mem_cons.mp told with rfl | told
      · exact stored
      · exact inv.stored id' told
    · obtain ⟨told,clear⟩ := inv.settled id' there
      exact ⟨List.mem_cons_of_mem _ told,clear⟩
    · rcases List.mem_cons.mp told with rfl | told
      · have both : (!pending t id' || listening t id') = true := permitted
        rw [show pending t id' = true from here] at both
        unfold listening at both
        cases registered : t.state.inbox.auths id' with
        | none =>
          rw [registered] at both
          cases both
        | some channel =>
          rw [registered] at both
          simp [unheard channel registered] at both
      · exact inv.due id' told here

theorem does_redeliver {row : TargetedTransferRow} (found : Stored s.state auth.transferId ∨ row.role ≠ .receiver) :
    Does l i (.authorized remote delivery) (redeliverReceiver row auth)
      (fun r u => ∀ b, r = .ok b → Stored u.state auth.transferId) s := by
  unfold redeliverReceiver
  split
  · exact fun _ => nofun
  · split
    · rename_i exact
      have stored : Stored s.state auth.transferId := by
        refine found.resolve_right fun other => other ?_
        grind [exactRow]
      refine does_calm rfl (fun _ _ _ => rfl) fun t e c a _ kept _ after => ?_
      have stored := after.stored _ (kept.stored _ stored)
      split
      · exact fun _ => nofun
      · split
        · exact fun _ _ => stored
        · exact fun _ => nofun
    · exact fun _ => nofun

theorem does_store : Does l i (.authorized remote delivery) (storeReceiver auth)
    (fun r u => ∀ b, r = .ok b → Stored u.state auth.transferId) s := by
  refine does_calm rfl (fun _ _ _ => rfl) fun t e c a _ _ _ _ => ?_
  split
  · exact fun _ => nofun
  · refine does_calm rfl (fun _ _ _ => rfl) fun t e c a _ _ _ _ => ?_
    split
    · exact fun _ => nofun
    · refine does_calm rfl (fun _ _ _ => rfl) fun t e c a _ _ ran _ => ?_
      split
      · rcases Device.exec_write ran with ⟨⟨_,failed⟩,_⟩ | ⟨changed,store,wrote,_,rfl⟩
        · cases failed
        · refine fun _ _ => ⟨_,(run_getRow wrote auth.transferId).trans (if_pos rfl),rfl⟩
      · refine does_calm rfl (fun _ _ _ => rfl) fun t e c a _ _ _ _ => ?_
        exact fun _ => nofun

theorem does_persist : Does l i (.authorized remote delivery) (persistReceiver auth)
    (fun r u => ∀ b, r = .ok b → Stored u.state auth.transferId) s := by
  refine does_calm rfl (fun _ _ _ => rfl) fun t e c a _ _ ran after => ?_
  have same := Device.exec_reads rfl ran
  subst same
  have answer := congrArg Prod.fst (Option.some.inj ran)
  dsimp only at answer
  split
  · exact fun _ => nofun
  · rename_i row
    refine does_redeliver ?_
    by_cases role : row.role = .receiver
    · refine .inl ⟨row,?_,role⟩
      split at answer
      · cases answer
      · exact Except.ok.inj answer
    · exact .inr role
  · exact does_store

theorem does_deliver (stored : Stored s.state id) :
    Does l i (.authorized remote delivery) (deliverAuthorization id auth)
      (fun _ u => id ∈ u.history.told) s := by
  refine does_calm rfl (fun _ _ _ => rfl) fun t e c a inv kept ran after => ?_
  have same := Device.exec_reads rfl ran
  subst same
  have answer := congrArg Prod.fst (Option.some.inj ran)
  dsimp only at answer
  split
  · rename_i existing settled
    exact (inv.settled id (by rw [show t.state.inbox.settled id = a from answer,settled]; rfl)).1
  · exact does_send (after.stored _ (kept.stored id stored))

end Deliveries


section Handler

variable {l : Local} {s : Seen} {i : Nat} {remote : EndpointId} {delivery : DeliverTargetedAuthorization}

theorem does_handle : Does l i (.authorized remote delivery) (handleAuthorization l remote delivery)
    (fun r u => r = .stored → delivery.transferId ∈ u.history.told) s := by
  unfold handleAuthorization
  refine does_calm rfl (fun _ _ _ => rfl) fun t e c a _ _ _ _ => ?_
  split
  · split
    · exact nofun
    · rename_i auth decoded
      split
      · rename_i fits
        have own : auth.transferId = delivery.transferId := by grind [deliverable]
        refine safe_bind (safe_mono (fun r u stored => ?_) does_persist)
        split
        · exact nofun
        · refine safe_bind (safe_mono (fun _ v told => ?_) (does_deliver (own ▸ stored _ rfl)))
          exact fun _ => told
      · exact nofun
  · exact nofun

theorem does_answer {response : Response} (told : response = .stored → delivery.transferId ∈ s.history.told) :
    Does l i (.authorized remote delivery) (op (.answer remote (.deliverAuthorization delivery) response))
      (fun _ _ => True) s := by
  by_cases stored : response = .stored
  · subst stored
    intro t _ inv kept c a u _ done
    obtain ⟨_,e,ran,rfl⟩ := performed done
    cases Option.some.inj ran
    have told := kept.told _ (told rfl)
    refine ⟨⟨⟨inv.stored,inv.delivered,inv.settled,inv.own,inv.due,fun peer delivery' there => ?_⟩,
      fun j _ => ⟨fun _ => Iff.rfl,fun _ => Iff.rfl,fun _ there => there,fun _ here => here,
        fun _ _ here => here⟩⟩,trivial⟩
    rcases List.mem_cons.mp there with eq | old
    · cases eq
      exact told
    · exact inv.answered peer delivery' old
  · exact safe_mono (fun _ _ _ => trivial) (does_quiet (Prog.all_perform
      ⟨decide_eq_true stored,fun _ _ _ => rfl⟩))

theorem does_authorized : Does l i (.authorized remote delivery) (Call.body l (.authorized remote delivery))
    (fun _ _ => True) s :=
  safe_bind (safe_mono (fun _ _ told => does_answer told) does_handle)

end Handler

/-! The accept call. -/

section Accepts

variable {l : Local} {s : Seen} {i : Nat} {id : TransferId} {channel : Channel}

/-- The thread listens for the transfer nowhere. -/
def Free (i : Nat) (id : TransferId) (s : Seen) : Prop :=
  ∀ channel, channel.transferId = id →
    (i,channel) ∉ s.history.opening ∧ (i,channel) ∉ s.history.waiting

/-- It has not subscribed. -/
def Unread (i : Nat) (id : TransferId) (s : Seen) : Prop :=
  ∀ channel, channel.transferId = id → (i,channel) ∉ s.history.waiting

/-- It listens to this channel only, as one that has subscribed. -/
def Reads (i : Nat) (channel : Channel) (s : Seen) : Prop :=
  ∀ channel', channel'.transferId = channel.transferId →
    (i,channel') ∉ s.history.opening ∧ ((i,channel') ∈ s.history.waiting → channel' = channel)

theorem Free.later {t : Seen} (free : Free i id s) (kept : Kept i s t) : Free i id t := fun channel own =>
  ⟨fun there => (free channel own).1 ((kept.opening channel).mp there),
   fun there => (free channel own).2 ((kept.waiting channel).mp there)⟩

theorem Unread.later {t : Seen} (unread : Unread i id s) (kept : Kept i s t) : Unread i id t :=
  fun channel own there => unread channel own ((kept.waiting channel).mp there)

theorem Reads.later {t : Seen} (reads : Reads i channel s) (kept : Kept i s t) : Reads i channel t :=
  fun channel' own => ⟨fun there => (reads channel' own).1 ((kept.opening channel').mp there),
    fun there => (reads channel' own).2 ((kept.waiting channel').mp there)⟩

theorem Free.unread (free : Free i id s) : Unread i id s := fun channel own => (free channel own).2

/-- What an accept call leaves in the history is its own. -/
theorem kept_accepting {o : Op} {h : History} {a : Ans o} {e : Device} {j : Nat}
    (eq : record s.history s.state i (.respond id true) o a = h) (calm : Calm s ⟨e,h⟩) (other : j ≠ i) :
    Kept j s ⟨e,h⟩ := by
  subst eq
  refine calm.kept (fun channel => ?_) fun channel => ?_
  · show (j,channel) ∈ (accepting s.history i id o a).opening ↔ _
    unfold accepting
    split <;> first
      | exact Iff.rfl
      | exact mem_leave_of_ne other
      | (split <;> first
          | exact Iff.rfl
          | exact mem_leave_of_ne other
          | exact List.mem_cons.trans (or_iff_right fun same => other (congrArg Prod.fst same)))
  · show (j,channel) ∈ (accepting s.history i id o a).waiting ↔ _
    unfold accepting
    split <;> first
      | exact Iff.rfl
      | exact mem_leave_of_ne other
      | exact mem_without.trans (and_iff_left fun same => other (congrArg Prod.fst same))
      | (split <;> first
          | exact Iff.rfl
          | exact List.mem_cons.trans (or_iff_right fun same => other (congrArg Prod.fst same)))

theorem free_of_leave {h : History} {e : Device} (opening : h.opening = s.history.opening.leave i id)
    (waiting : h.waiting = s.history.waiting) (unread : Unread i id s) : Free i id ⟨e,h⟩ := by
  intro channel own
  constructor
  · intro there
    rw [show (⟨e,h⟩ : Seen).history.opening = _ from opening] at there
    exact (mem_leave.mp there).2 ⟨rfl,own⟩
  · intro there
    rw [show (⟨e,h⟩ : Seen).history.waiting = _ from waiting] at there
    exact unread channel own there

/-- The look at the settled result; an accepted one ends what the call was listening for. -/
theorem does_settled {α : Type} {f : Option SettledOfferResult → Task α} {post : α → Seen → Prop}
    (unread : Unread i id s)
    (found : ∀ t a auth, Inbox.settledAuthorization a = some auth → Free i id t →
      Does l i (.respond id true) (f a) post t)
    (absent : ∀ t a, Inbox.settledAuthorization a = none → Kept i s t →
      Does l i (.respond id true) (f a) post t) :
    Does l i (.respond id true) (op (.settled id) >>= f) post s := by
  intro t _ inv kept c a u _ done
  obtain ⟨_,e,ran,rfl⟩ := performed done
  have same := Device.exec_reads rfl ran
  subst same
  have answer : t.state.inbox.settled id = a := congrArg Prod.fst (Option.some.inj ran)
  cases accepted : Inbox.settledAuthorization a with
  | none =>
    have eq : record t.history t.state i (.respond id true) (.settled id) a = t.history := by
      rcases a with _ | ⟨_ | _⟩ | _
      · rfl
      · rfl
      · cases accepted
      · rfl
    rw [eq]
    exact ⟨⟨inv,fun j _ => Kept.refl j _⟩,absent t a accepted kept⟩
  | some auth =>
    have eq : record t.history t.state i (.respond id true) (.settled id) a =
        { t.history with opening := t.history.opening.leave i id } := by
      rcases a with _ | ⟨_ | _⟩ | _
      · cases accepted
      · cases accepted
      · rfl
      · cases accepted
    have calm : Calm t ⟨t.state,{ t.history with opening := t.history.opening.leave i id }⟩ :=
      calm_aside rfl ran rfl fun id' told here due => by
        refine due_of_same inv due rfl rfl (fun e there own => mem_leave.mpr ⟨there,fun both => ?_⟩)
          fun _ there _ => there
        -- a settled acceptance is not pending
        have clear := (inv.settled id (by rw [answer,accepted]; rfl)).2
        rw [← both.2,own,here] at clear
        cases clear
    have others (j : Nat) (other : j ≠ i) := kept_accepting eq calm other
    have free : Free i id ⟨t.state,{ t.history with opening := t.history.opening.leave i id }⟩ :=
      free_of_leave rfl rfl (unread.later kept)
    rw [eq]
    exact ⟨⟨calm.inv inv,others⟩,found _ a auth accepted free⟩

theorem does_openAuth {α : Type} {f : Channel → Task α} {post : α → Seen → Prop} (free : Free i id s)
    (rest : ∀ t channel, channel.transferId = id → Unread i id t → Does l i (.respond id true) (f channel) post t) :
    Does l i (.respond id true) (op (.openAuth id) >>= f) post s := by
  intro t _ inv kept c channel u _ done
  obtain ⟨permitted,e,ran,rfl⟩ := performed done
  obtain ⟨opened,rfl⟩ := Prod.mk.inj (Option.some.inj ran)
  have own : channel.transferId = id := opened ▸ rfl
  have eq : record t.history t.state i (.respond id true) (.openAuth id) channel =
      { t.history with opening := (i,channel) :: t.history.opening } := if_pos own
  have calm : Calm t ⟨t.state.setInbox (t.state.inbox.openAuth id).2,
      { t.history with opening := (i,channel) :: t.history.opening }⟩ := by
    refine ⟨fun _ here => here,rfl,fun _ _ here => here,rfl,fun _ there => there,fun id' channel' there => ?_,
      fun id' told here due => ?_,fun _ _ there => there⟩
    · have there : Function.update t.state.inbox.auths id (some ⟨id,t.state.inbox.opened⟩) id' = some channel' :=
        there
      rw [Function.update_apply] at there
      split at there
      · rename_i same
        cases there
        exact .inr same.symm
      · exact .inl there
    · by_cases same : id' = id
      · subst same
        exact .inl (reading_iff.mp (read_of_permitted permitted told here))
      · exact due_of_same inv due rfl (Function.update_of_ne same _ _)
          (fun _ there _ => List.mem_cons_of_mem _ there) fun _ there _ => there
  have others (j : Nat) (other : j ≠ i) := kept_accepting eq calm other
  have unread : Unread i id ⟨t.state.setInbox (t.state.inbox.openAuth id).2,
      { t.history with opening := (i,channel) :: t.history.opening }⟩ := (free.later kept).unread
  rw [eq]
  exact ⟨⟨calm.inv inv,others⟩,rest _ channel own unread⟩

theorem does_dropAuth {α : Type} {f : Unit → Task α} {post : α → Seen → Prop} (unread : Unread i id s)
    (rest : ∀ t, Free i id t → (∀ id, id ∈ s.history.told → id ∈ t.history.told) →
      (∀ id, id ∈ s.history.told → pending s id = false → pending t id = false) →
      Does l i (.respond id true) (f ()) post t) :
    Does l i (.respond id true) (op (.dropAuth id) >>= f) post s := by
  intro t _ inv kept c a u _ done
  obtain ⟨permitted,e,ran,rfl⟩ := performed done
  cases Option.some.inj ran
  have calm : Calm t ⟨t.state.setInbox (t.state.inbox.dropAuth id),
      record t.history t.state i (.respond id true) (.dropAuth id) ()⟩ :=
    calm_dropAuth rfl (fun e there other => mem_leave.mpr ⟨there,fun both => other both.2⟩) rfl permitted inv
  have others (j : Nat) (other : j ≠ i) := kept_accepting rfl calm other
  exact ⟨⟨calm.inv inv,others⟩,
    rest _ (free_of_leave rfl rfl (unread.later kept)) (fun id told => kept.told id told)
      fun id told clear => kept.clear id told clear⟩

end Accepts


section Waits

variable {l : Local} {s : Seen} {i : Nat} {id : TransferId} {channel : Channel}

/-- Who has subscribed reads the channel that is registered. -/
theorem does_subscribe {α : Type} {f : Option Channel → Task α} {post : α → Seen → Prop} (unread : Unread i id s)
    (absent : ∀ t, Free i id t → Does l i (.respond id true) (f none) post t)
    (found : ∀ t channel, channel.transferId = id → Reads i channel t →
      Does l i (.respond id true) (f (some channel)) post t) :
    Does l i (.respond id true) (op (.subscribeAuth id) >>= f) post s := by
  intro t _ inv kept c a u _ done
  obtain ⟨_,e,ran,rfl⟩ := performed done
  have unread := unread.later kept
  have same := same_inbox rfl ran
  have exec := ran
  simp only [Device.exec] at ran
  split at ran
  · rename_i channel registered
    obtain ⟨rfl,_⟩ := Prod.mk.inj (Option.some.inj ran)
    have own : channel.transferId = id := inv.own id channel registered
    have eq : record t.history t.state i (.respond id true) (.subscribeAuth id) (some channel) =
        { t.history with
          opening := t.history.opening.leave i id
          waiting := (i,channel) :: t.history.waiting } := if_pos own
    have calm : Calm t ⟨e,{ t.history with
        opening := t.history.opening.leave i id
        waiting := (i,channel) :: t.history.waiting }⟩ := by
      refine calm_aside rfl exec rfl fun id' _ _ due => ?_
      unfold Due
      rw [same.delivered,same.auths]
      rcases due with ⟨j,channel',there,mine,sent⟩ | ⟨j,channel',there,mine,sent⟩
      · exact .inl ⟨j,channel',List.mem_cons_of_mem _ there,mine,sent⟩
      · by_cases here : j = i ∧ channel'.transferId = id
        · obtain ⟨rfl,other⟩ := here
          -- the channel it had opened is the one that is registered
          have eq : id' = id := (inv.own id' channel' mine).symm.trans other
          subst eq
          cases registered.symm.trans mine
          exact .inl ⟨j,channel,List.mem_cons_self,own,sent⟩
        · exact .inr ⟨j,channel',mem_leave.mpr ⟨there,here⟩,mine,sent⟩
    have others (j : Nat) (other : j ≠ i) := kept_accepting eq calm other
    have reads : Reads i channel ⟨e,{ t.history with
        opening := t.history.opening.leave i id
        waiting := (i,channel) :: t.history.waiting }⟩ := by
      intro channel' mine
      refine ⟨fun there => (mem_leave.mp there).2 ⟨rfl,mine.trans own⟩,fun there => ?_⟩
      rcases List.mem_cons.mp there with eq | old
      · exact congrArg Prod.snd eq
      · exact absurd old (unread channel' (mine.trans own))
    rw [eq]
    exact ⟨⟨calm.inv inv,others⟩,found _ channel own reads⟩
  · rename_i none
    obtain ⟨rfl,rfl⟩ := Prod.mk.inj (Option.some.inj ran)
    have calm : Calm t ⟨t.state,{ t.history with opening := t.history.opening.leave i id }⟩ := by
      refine ⟨fun _ here => here,rfl,fun _ _ here => here,rfl,fun _ there => there,fun _ _ there => .inl there,
        fun id' _ _ due => ?_,fun _ _ there => there⟩
      rcases due with reading | ⟨j,channel',there,mine,sent⟩
      · exact .inl reading
      · refine .inr ⟨j,channel',mem_leave.mpr ⟨there,fun both => ?_⟩,mine,sent⟩
        have eq : id' = id := (inv.own id' channel' mine).symm.trans both.2
        subst eq
        cases none.symm.trans mine
    have others (j : Nat) (other : j ≠ i) :=
      kept_accepting (o := .subscribeAuth id) (a := Option.none) rfl calm other
    exact ⟨⟨calm.inv inv,others⟩,absent _ (free_of_leave rfl rfl unread)⟩

theorem free_of_reads {h : History} {e : Device} (reads : Reads i channel s)
    (opening : h.opening = s.history.opening)
    (waiting : h.waiting = s.history.waiting.without (i,channel)) : Free i channel.transferId ⟨e,h⟩ := by
  intro channel' own
  constructor
  · intro there
    rw [show (⟨e,h⟩ : Seen).history.opening = _ from opening] at there
    exact (reads channel' own).1 there
  · intro there
    rw [show (⟨e,h⟩ : Seen).history.waiting = _ from waiting] at there
    obtain ⟨there,other⟩ := mem_without.mp there
    exact other (congrArg (Prod.mk i) ((reads channel' own).2 there))

/-- A call whose wait ends without the authorization has not been told. -/
theorem does_await {α : Type} {f : Waited TargetedAuthorization → Task α} {post : α → Seen → Prop}
    (own : channel.transferId = id) (reads : Reads i channel s)
    (told : ∀ t auth, id ∈ t.history.told → Reads i channel t →
      Does l i (.respond id true) (f (.value auth)) post t)
    (gone : ∀ t a, (∀ auth, a ≠ .value auth) → Free i id t → Does l i (.respond id true) (f a) post t) :
    Does l i (.respond id true) (op (.awaitAuth channel) >>= f) post s := by
  intro t _ inv kept c a u _ done
  obtain ⟨_,e,ran,rfl⟩ := performed done
  have reads := reads.later kept
  have same := Device.exec_reads rfl ran
  subst same
  obtain ⟨seen,waited,eq⟩ := Option.map_eq_some_iff.mp ran
  cases eq
  cases delivered : t.state.inbox.delivered channel with
  | some auth =>
    rw [delivered] at waited
    cases waited
    refine ⟨⟨inv,fun j _ => Kept.refl j _⟩,told t auth ?_ reads⟩
    exact own ▸ inv.delivered channel (by rw [delivered]; rfl)
  | none =>
    have eq : record t.history t.state i (.respond id true) (.awaitAuth channel) a =
        { t.history with waiting := t.history.waiting.without (i,channel) } := by
      rw [delivered] at waited
      unfold Device.waited at waited
      dsimp only at waited
      split at waited
      · cases waited
        rfl
      · split at waited
        · cases waited
        · cases waited
          rfl
    have other (auth : TargetedAuthorization) : a ≠ .value auth := by
      rintro rfl
      rw [delivered] at waited
      unfold Device.waited at waited
      dsimp only at waited
      split at waited
      · cases waited
      · split at waited <;> cases waited
    have calm : Calm t ⟨t.state,{ t.history with waiting := t.history.waiting.without (i,channel) }⟩ := by
      refine ⟨fun _ here => here,rfl,fun _ _ here => here,rfl,fun _ there => there,fun _ _ there => .inl there,
        fun id' _ _ due => ?_,fun _ _ there => there⟩
      rcases due with ⟨j,channel',there,mine,sent⟩ | due
      · refine .inl ⟨j,channel',mem_without.mpr ⟨there,fun same => ?_⟩,mine,sent⟩
        cases same
        rw [delivered] at sent
        cases sent
      · exact .inr due
    have others (j : Nat) (different : j ≠ i) := kept_accepting eq calm different
    have free : Free i id ⟨t.state,{ t.history with waiting := t.history.waiting.without (i,channel) }⟩ :=
      own ▸ free_of_reads reads rfl rfl
    rw [eq]
    exact ⟨⟨calm.inv inv,others⟩,gone _ a other free⟩

theorem does_takeOut {α : Type} {f : Unit → Task α} {post : α → Seen → Prop}
    (own : channel.transferId = id) (told : id ∈ s.history.told) (reads : Reads i channel s)
    (rest : ∀ t, Free i id t → id ∈ t.history.told → pending t id = false →
      Does l i (.respond id true) (f ()) post t) :
    Does l i (.respond id true) (op (.dropPending id) >>= f) post s := by
  intro t _ inv kept c a u _ done
  obtain ⟨_,e,ran,rfl⟩ := performed done
  have reads := reads.later kept
  cases Option.some.inj ran
  have calm : Calm t ⟨t.state.setInbox (t.state.inbox.dropPending id),
      record t.history t.state i (.respond id true) (.dropPending id) ()⟩ :=
    calm_dropPending rfl (fun _ there _ => there)
      (fun e there other => mem_leave.mpr ⟨there,fun both => other both.2⟩) inv
  have others (j : Nat) (other : j ≠ i) := kept_accepting rfl calm other
  have free : Free i id ⟨t.state.setInbox (t.state.inbox.dropPending id),
      record t.history t.state i (.respond id true) (.dropPending id) ()⟩ := fun channel' mine =>
    ⟨fun there => (reads channel' (mine.trans own.symm)).1 there,fun there => (mem_leave.mp there).2 ⟨rfl,mine⟩⟩
  refine ⟨⟨calm.inv inv,others⟩,rest _ free (kept.told id told) ?_⟩
  rw [pending_drop]
  simp

theorem does_settle {α : Type} {f : Unit → Task α} {post : α → Seen → Prop} {result : SettledOfferResult}
    (free : Free i id s) (told : id ∈ s.history.told) (clear : pending s id = false)
    (rest : ∀ t, Free i id t → Does l i (.respond id true) (f ()) post t) :
    Does l i (.respond id true) (op (.settle id result) >>= f) post s := by
  intro t _ inv kept c a u _ done
  obtain ⟨_,e,ran,rfl⟩ := performed done
  cases Option.some.inj ran
  have clear := kept.clear id told clear
  have told := kept.told id told
  have after (j : Nat) : Kept j t ⟨t.state.setInbox (t.state.inbox.settle id result),
      record t.history t.state i (.respond id true) (.settle id result) ()⟩ :=
    ⟨fun _ => Iff.rfl,fun _ => Iff.rfl,fun _ there => there,fun _ here => here,fun _ _ here => here⟩
  refine ⟨⟨⟨inv.stored,inv.delivered,fun id' there => ?_,inv.own,inv.due,inv.answered⟩,fun j _ => after j⟩,
    rest _ ((free.later kept).later (after i))⟩
  have there : (Inbox.settledAuthorization (Function.update t.state.inbox.settled id (some result) id')).isSome =
    true := there
  rw [Function.update_apply] at there
  split at there
  · rename_i same
    subst same
    exact ⟨told,clear⟩
  · exact inv.settled id' there

end Waits


section Responds

variable {l : Local} {s : Seen} {i : Nat} {id : TransferId}

theorem does_load {row : TargetedTransferRow} (free : Free i id s) :
    Does l i (.respond id true) (loadAuthorization l row) (fun _ u => Free i id u) s := by
  unfold loadAuthorization
  split
  · refine does_calm rfl (fun _ _ _ => rfl) fun t e c a _ kept _ after => ?_
    have free := (free.later kept).later after
    split <;> exact free
  · exact free

theorem does_alreadySettled (free : Free i id s) :
    Does l i (.respond id true) (alreadySettled l id) (fun _ u => Free i id u) s := by
  refine does_settled free.unread (fun t a auth accepted free => ?_) fun t a _ kept => ?_
  · cases a with
    | none => cases accepted
    | some result => exact free
  · have free := free.later kept
    cases a with
    | some result => exact free
    | none =>
      refine does_calm rfl (fun _ _ _ => rfl) fun t' e c a _ kept _ after => ?_
      have free := (free.later kept).later after
      split
      · refine safe_bind (safe_mono (fun r u free => ?_) (does_load free))
        split <;> exact free
      · exact free

theorem does_acceptOffer (free : Free i id s) :
    Does l i (.respond id true) (acceptOffer id) (fun _ u => Free i id u) s := by
  refine does_calm rfl (fun _ _ _ => rfl) fun t e c a _ kept _ after => ?_
  have free := (free.later kept).later after
  split
  · exact free
  · refine does_calm rfl (fun _ _ _ => rfl) fun t e c a _ kept _ after => ?_
    have free := (free.later kept).later after
    split <;> exact free

theorem does_acceptLive (free : Free i id s) :
    Does l i (.respond id true) (acceptLive id) (fun r u =>
      match r with
      | .ok _ => Unread i id u
      | .error _ => Free i id u) s := by
  refine does_calm rfl (fun _ _ _ => rfl) fun t e c a _ kept _ after => ?_
  have free := (free.later kept).later after
  split
  · exact free
  · refine does_openAuth free fun t channel _ unread => ?_
    refine does_calm rfl (fun _ _ _ => rfl) fun t e c sent _ kept _ after => ?_
    have unread := (unread.later kept).later after
    split
    · refine does_calm rfl (fun _ _ _ => rfl) fun t e c a _ kept _ after => ?_
      exact (unread.later kept).later after
    · refine does_dropAuth unread fun t free _ _ => ?_
      refine does_calm rfl (fun _ _ _ => rfl) fun t e c a _ kept _ after => ?_
      exact (free.later kept).later after

theorem does_wait (unread : Unread i id s) :
    Does l i (.respond id true) (waitForAuthorization id) (fun _ u => Free i id u) s := by
  refine does_settled unread (fun t a auth accepted free => ?_) fun t a absent kept => ?_
  · rw [accepted]
    exact free
  · rw [absent]
    refine does_subscribe (unread.later kept) (fun t free => free) fun t channel own reads => ?_
    refine does_await own reads (fun t auth told reads => ?_) fun t a other free => ?_
    · refine does_takeOut own told reads fun t free told clear => ?_
      refine does_dropAuth free.unread fun t free more clears => ?_
      refine does_settle free (more id told) (clears id told clear) fun t free => ?_
      refine does_calm rfl (fun _ _ _ => rfl) fun t e c a _ kept _ after => ?_
      exact (free.later kept).later after
    · have leave : Does l i (.respond id true) (do
          op (.dropAuth id)
          op (.leaveAuth channel)
          return (.error .authorizationTimeout : Except RespondError (Option TargetedAuthorization)))
          (fun _ u => Free i id u) t := by
        refine does_dropAuth free.unread fun t free _ _ => ?_
        refine does_calm rfl (fun _ _ _ => rfl) fun t e c a _ kept _ after => ?_
        exact (free.later kept).later after
      cases a with
      | value auth => exact absurd rfl (other auth)
      | closed => exact leave
      | elapsed => exact leave

theorem does_respond (free : Free i id s) :
    Does l i (.respond id true) (respond id true) (fun _ u => Free i id u) s := by
  refine does_settled free.unread (fun t a auth accepted free => ?_) fun t a absent kept => ?_
  · rw [accepted]
    exact free
  · rw [absent]
    have free := free.later kept
    refine does_calm rfl (fun _ _ _ => rfl) fun t e c a _ kept _ after => ?_
    have free := (free.later kept).later after
    split
    · exact free
    · refine safe_bind (safe_mono (fun r u left => ?_) (does_acceptLive free))
      cases r with
      | error e => exact left
      | ok _ => exact does_wait left

theorem does_outcome {outcome : Except RespondError (Option TargetedAuthorization)} (free : Free i id s) :
    Does l i (.respond id true) (respondOutcome id outcome) (fun _ u => Free i id u) s := by
  unfold respondOutcome
  split
  · refine does_calm rfl (fun _ _ _ => rfl) fun t e c a _ kept _ after => ?_
    have free := (free.later kept).later after
    split
    · exact free
    · split <;> exact free
  · refine does_calm rfl (fun _ _ _ => rfl) fun t e c a _ kept _ after => ?_
    have free := (free.later kept).later after
    split <;> exact free
  · exact free
  · exact free
  · exact free

theorem does_accept (free : Free i id s) :
    Does l i (.respond id true) (respondToTargetedOffer l id true) (fun _ u => Free i id u) s := by
  refine safe_bind (safe_mono (fun r u free => ?_) (does_alreadySettled free))
  split
  · exact free
  · exact free
  · refine safe_bind (safe_mono (fun r v free => ?_) (does_acceptOffer free))
    split
    · exact free
    · exact safe_bind (safe_mono (fun _ _ free => does_outcome free) (does_respond free))

end Responds

/-! The other calls. -/

section Others

variable {l : Local} {id : TransferId}

/-- What the other calls do not come to. -/
abbrev listens : List Kind := [.openAuth,.sendAuthorization,.settle,.answer]

def bystander : Call → Bool
  | .respond _ true | .authorized .. => false
  | _ => true

theorem calm_of_avoids {α : Type} {p : Task α} (avoids : Avoids listens p) : p.All (calm · = true) := by
  refine Prog.all_mono (fun o avoided => ?_) avoids
  cases o with
  | openAuth | sendAuthorization | settle | answer => cases avoided
  | _ => rfl

theorem calm_decline : (respondToTargetedOffer l id false).All (calm · = true) := by
  refine Prog.all_bind (calm_of_avoids (alreadySettled_uses.avoids rfl)) fun r => ?_
  split
  · trivial
  · trivial
  · refine Prog.all_bind ?_ fun outcome => calm_of_avoids ((respondOutcome_uses outcome).avoids rfl)
    unfold respond
    repeat' first
      | exact trivial
      | exact Prog.all_perform rfl
      | exact calm_of_avoids (discard_uses.avoids rfl)
      | refine Prog.all_bind ?_ fun _ => ?_
      | split

theorem avoids_receive : Avoids listens (receiveTargetedTransfer l id) := by
  refine Prog.all_bind (loadReceiverAuthorization_uses.avoids rfl) fun found => ?_
  split
  · unfold runTargetedReceive runRegisteredReceive beginReceive completeReceive interruptReceive write
    repeat' first
      | exact trivial
      | exact Prog.all_perform rfl
      | exact receivePayload_uses.avoids rfl
      | exact (acknowledgeCompletion_uses _).avoids rfl
      | exact (setStateFromAny_uses _).avoids rfl
      | refine Prog.all_bind ?_ fun _ => ?_
      | split
  · trivial

theorem avoids_send {p : Payload} : Avoids listens (Targeted.send l p) := by
  unfold Targeted.send prepareTargetedTransfer continueTargetedTransfer negotiate approve write
  repeat' first
    | exact trivial
    | exact Prog.all_perform rfl
    | exact (registerSender_uses _).avoids rfl
    | exact (teardown_uses _).avoids rfl
    | exact (abandonOffer_uses _ _).avoids rfl
    | exact abandonApproval_uses.avoids rfl
    | exact (protectSender_uses _).avoids rfl
    | exact (request_uses _).avoids rfl
    | refine Prog.all_bind ?_ fun _ => ?_
    | split

theorem avoids_stop : Avoids listens (Targeted.stop id) := by
  unfold Targeted.stop stopPreparation write
  repeat' first
    | exact trivial
    | exact Prog.all_perform rfl
    | exact (notifyCancel_uses _).avoids rfl
    | exact (cleanup_uses _).avoids rfl
    | refine Prog.all_bind ?_ fun _ => ?_
    | split

theorem calm_call {call : Call} (other : bystander call = true) : (call.body l).All (calm · = true) := by
  cases call with
  | authorized => cases other
  | respond id accepted =>
    cases accepted with
    | true => cases other
    | false => exact Prog.all_bind calm_decline fun _ => trivial
  | offered =>
    exact Prog.all_bind (calm_of_avoids ((handleOffer_uses _ _).avoids rfl)) fun _ => Prog.all_perform rfl
  | completed =>
    exact Prog.all_bind (calm_of_avoids ((handleCompletion_uses _ _).avoids rfl)) fun _ => Prog.all_perform rfl
  | cancelled =>
    refine Prog.all_bind (calm_of_avoids ?_) fun _ => Prog.all_perform rfl
    unfold handleCancel
    repeat' first
      | exact trivial
      | exact Prog.all_perform rfl
      | exact (cancelPending_uses _ _).avoids rfl
      | exact (cancelFromPeer_uses _).avoids rfl
      | refine Prog.all_bind ?_ fun _ => ?_
      | split
  | cancel | delete =>
    refine calm_of_avoids (Prog.all_bind ((terminateLocal_uses _).avoids rfl) fun outcome => ?_)
    repeat' first
      | exact trivial
      | exact (notifyCancel_uses _).avoids rfl
      | split
  | receive => exact calm_of_avoids avoids_receive
  | resume =>
    refine calm_of_avoids (Prog.all_bind (Prog.all_perform rfl) fun found => ?_)
    repeat' first
      | exact trivial
      | exact avoids_receive
      | split
  | send => exact calm_of_avoids avoids_send
  | stop => exact calm_of_avoids avoids_stop
  | terminatePeer =>
    apply calm_of_avoids
    simp only [Call.body]
    unfold terminatePeer write
    repeat' first
      | exact trivial
      | exact Prog.all_perform rfl
      | exact (discardEach_uses _).avoids rfl
      | exact (rowsOf_uses _).avoids rfl
      | exact (cleanupEach_uses _).avoids rfl
      | refine Prog.all_bind ?_ fun _ => ?_
      | split
  | retryCompletion => exact calm_of_avoids (retryCompletion_uses.avoids rfl)
  | retryAuthorizationDelivery =>
    apply calm_of_avoids
    simp only [Call.body]
    unfold retryAuthorizationDelivery deliverStored write
    repeat' first
      | exact trivial
      | exact Prog.all_perform rfl
      | exact (loadAuthorization_uses _).avoids rfl
      | exact (request_uses _).avoids rfl
      | refine Prog.all_bind ?_ fun _ => ?_
      | split
  | releaseCompletedPayloads => exact calm_of_avoids (releaseCompletedPayloads_uses.avoids rfl)

theorem record_bystander {h : History} {d : Device} {i : Nat} {call : Call} {o : Op} {a : Ans o}
    (other : bystander call = true) : record h d i call o a = h := by
  cases call with
  | respond id accepted =>
    cases accepted with
    | true => cases other
    | false => rfl
  | authorized => cases other
  | _ => rfl

end Others


/-! Every run. -/

section Reached

variable {l : Local} {c : Conf Seen Call Op Ans} {i : Nat} {id : TransferId} {channel : Channel}

/-- The thread listens to the channel, subscribed or about to. -/
def Listens (h : History) (i : Nat) (channel : Channel) : Prop :=
  (i,channel) ∈ h.opening ∨ (i,channel) ∈ h.waiting

theorem accepting_listens {h : History} {j : Nat} {o : Op} {a : Ans o}
    (there : Listens (accepting h j id o a) i channel) :
    Listens h i channel ∨ (i = j ∧ channel.transferId = id) := by
  unfold Listens accepting at there
  split at there
  · split at there
    · rename_i own
      rcases there with there | there
      · rcases List.mem_cons.mp there with eq | old
        · cases eq
          exact .inr ⟨rfl,own⟩
        · exact .inl (.inl old)
      · exact .inl (.inr there)
    · exact .inl there
  · exact .inl (there.imp_left fun there => (mem_leave.mp there).1)
  · exact .inl (there.imp_left fun there => (mem_leave.mp there).1)
  · exact .inl (there.imp_left fun there => (mem_leave.mp there).1)
  · split at there
    · rename_i own
      rcases there with there | there
      · exact .inl (.inl (mem_leave.mp there).1)
      · rcases List.mem_cons.mp there with eq | old
        · cases eq
          exact .inr ⟨rfl,own⟩
        · exact .inl (.inr old)
    · exact .inl (there.imp_left fun there => (mem_leave.mp there).1)
  · exact .inl (there.imp_right fun there => (mem_without.mp there).1)
  · exact .inl (there.imp_right fun there => (mem_without.mp there).1)
  · exact .inl (there.imp_right fun there => (mem_leave.mp there).1)
  · exact .inl there

theorem record_listens {h : History} {d : Device} {j : Nat} {call : Call} {o : Op} {a : Ans o}
    (there : Listens (record h d j call o a) i channel) :
    Listens h i channel ∨ (i = j ∧ accepts channel.transferId call = true) := by
  by_cases other : bystander call = true
  · rw [record_bystander other] at there
    exact .inl there
  · cases call with
    | respond id accepted =>
      cases accepted with
      | true =>
        refine (accepting_listens there).imp_right fun mine => ⟨mine.1,?_⟩
        simp [accepts,mine.2]
      | false => exact absurd rfl other
    | authorized remote delivery =>
      left
      cases o with
      | sendAuthorization => exact there
      | _ => exact there
    | _ => exact absurd rfl other

/-- Who listens for a transfer is one of its accept calls. -/
theorem listener_thread (reach : Reach ((machine l).restrict (minds l)).system free.holds c) :
    ∀ i channel, Listens c.shared.history i channel →
      ∃ call rest, c.threads[i]? = some ⟨call,rest⟩ ∧ accepts channel.transferId call = true := by
  refine reach.invariant (fun c => ∀ i channel, Listens c.shared.history i channel →
    ∃ call rest, c.threads[i]? = some ⟨call,rest⟩ ∧ accepts channel.transferId call = true)
    (fun s start i channel there => ?_) fun s a u ih _ h => ?_
  · unfold Listens at there
    rw [start.1.2] at there
    rcases there with there | there <;> cases there
  · rcases next_cases h with ⟨call,rfl,_,rfl⟩ | ⟨j,choice,call,o,k,r,u,rfl,here,ran,rfl⟩ | ⟨e,u,rfl,moved,rfl⟩
    · intro i channel there
      obtain ⟨call,rest,thread,accepted⟩ := ih i channel there
      exact ⟨call,rest,(List.getElem?_append_left (List.getElem?_eq_some_iff.mp thread).1).trans thread,accepted⟩
    · intro i channel there
      obtain ⟨_,e,_,rfl⟩ := performed ran
      have bound : j < s.threads.length := (List.getElem?_eq_some_iff.mp here).1
      rcases record_listens (d := s.shared.state) there with old | ⟨rfl,accepted⟩
      · obtain ⟨call',rest,thread,accepted⟩ := ih i channel old
        by_cases same : i = j
        · subst same
          cases thread.symm.trans here
          exact ⟨call,k r,List.getElem?_set_self bound,accepted⟩
        · exact ⟨call',rest,(List.getElem?_set_ne (Ne.symm same)).trans thread,accepted⟩
      · exact ⟨call,k r,List.getElem?_set_self bound,accepted⟩
    · cases Option.some.inj moved
      exact ih

theorem env_calm {s : Seen} (e : Housekeeping) : Calm s ⟨s.state.housekeep e,s.history⟩ := by
  have stored (id : TransferId) (here : Stored s.state id) : Stored (s.state.housekeep e) id := by
    obtain ⟨row,found,role⟩ := here
    cases e with
    | markInterruptedInFlight now | failSenderPreapproval now =>
      refine ⟨_,(Table.find_updateWhere _ _ _ (fun _ => by rfl) id).trans (congrArg _ found),?_⟩
      dsimp only
      split <;> exact role
    | resetIdentity now =>
      exact ⟨_,(Table.find_updateWhere _ _ _ (fun _ => by rfl) id).trans (congrArg _ found),role⟩
  cases e <;> exact ⟨stored,rfl,fun _ _ here => here,rfl,fun _ there => there,fun _ _ there => .inl there,
    fun _ _ _ due => due,fun _ _ there => there⟩

/-- Every accept call that has returned listens no more. -/
theorem secured (reach : Reach ((machine l).restrict (minds l)).system free.holds c) :
    Secured ((machine l).restrict (minds l)) free terms
      (fun i call s => ∀ id, accepts id call = true → Free i id s) c := by
  refine reach_secured (fun _ _ => trivial) (fun s fresh => ?_) (fun d call past inv _ _ => ?_)
    (fun i call s t kept free id mine => (free id mine).later kept)
    (fun s e t _ inv _ moved => ?_) reach
  · obtain ⟨⟨inbox,answers⟩,history⟩ := fresh
    refine ⟨fun id told => ?_,fun channel there => ?_,fun id there => ?_,fun id channel there => ?_,
      fun id told _ => ?_,fun peer delivery there => ?_⟩
    · rw [history] at told
      cases told
    · rw [inbox] at there
      cases there
    · rw [inbox] at there
      cases there
    · rw [inbox] at there
      cases there
    · rw [history] at told
      cases told
    · rw [answers] at there
      cases there
  · by_cases other : bystander call = true
    · refine safe_mono (fun _ t _ id mine => ?_) (does_quiet (Prog.all_mono
        (fun o still => ⟨still,fun _ _ _ => record_bystander other⟩) (calm_call (l := l) other)))
      cases call with
      | respond id' accepted =>
        cases accepted with
        | true => cases other
        | false => simp [accepts] at mine
      | _ => cases mine
    · cases call with
      | respond id accepted =>
        cases accepted with
        | false => exact absurd rfl other
        | true =>
          -- a thread that has not started listens nowhere
          have free : Free d.threads.length id d.shared := by
            intro channel _
            have fresh : ¬Listens d.shared.history d.threads.length channel := by
              intro there
              obtain ⟨_,_,thread,_⟩ := listener_thread past _ channel there
              exact absurd (List.getElem?_eq_some_iff.mp thread).1 (Nat.lt_irrefl _)
            exact not_or.mp fresh
          refine safe_bind (safe_mono (fun _ t free => ?_) (does_accept free))
          intro id' mine
          obtain rfl : id = id' := by simpa [accepts] using mine
          exact free
      | authorized remote delivery => exact safe_mono (fun _ _ _ _ => nofun) does_authorized
      | _ => exact absurd rfl other
  · cases Option.some.inj moved
    exact ⟨(env_calm e).inv inv,fun j => (env_calm e).kept (fun _ => Iff.rfl) fun _ => Iff.rfl⟩

/-- Once an authorization has been answered with `Stored` and every accept call of the transfer
has returned, no entry of the pending map is the transfer's. -/
theorem stored_not_pending (reach : Reach (machine l).system (Watched (minds l)) c) {remote : EndpointId}
    {delivery : DeliverTargetedAuthorization}
    (stored : (remote,.deliverAuthorization delivery,.stored) ∈ c.shared.state.answers)
    (returned : ∀ t ∈ c.threads, accepts delivery.transferId t.call = true → t.rest.finished = true) :
    ∀ p ∈ c.shared.state.inbox.pending.rows, p.transferId ≠ delivery.transferId := by
  have reach := reach_watched reach
  have secured := secured reach
  have told := secured.inv.answered remote delivery stored
  rintro p there same
  have here : pending c.shared delivery.transferId = true := by
    unfold pending Inbox.getPending
    rw [← same,Table.find_of_mem there]
    rfl
  have listens : ∃ i channel, Listens c.shared.history i channel ∧ channel.transferId = delivery.transferId := by
    rcases secured.inv.due _ told here with ⟨i,channel,there,own,_⟩ | ⟨i,channel,there,registered,_⟩
    · exact ⟨i,channel,.inr there,own⟩
    · exact ⟨i,channel,.inl there,secured.inv.own _ channel registered⟩
  obtain ⟨i,channel,listens,own⟩ := listens
  obtain ⟨call,rest,thread,mine⟩ := listener_thread reach i channel listens
  rw [own] at mine
  have ended := returned _ (List.mem_of_getElem? thread) mine
  have safe := secured.threads i _ thread
  cases rest with
  | step => cases ended
  | ret a => exact (not_or.mpr ((show Free i delivery.transferId c.shared from safe _ mine) channel own)) listens

end Reached

/-! Device 1 offers transfer 7 to device 2, whose user accepts it. -/
namespace Sample

def receiver : Local := ⟨2,1,10,100,8,id,some⟩

def offer (id : TransferId) : SubmitTargetedOffer := ⟨1,id,1,2,3,3,5,1,1⟩

def auth : TargetedAuthorization := ⟨7,7,1,2,3,3,1,1,1,5,3,4⟩

def start : Conf Seen Call Op Ans := ⟨⟨Device.new,⟨[],[],[]⟩⟩,[]⟩

/-- The checks are answered by the flag, which also says whether a wait times out. -/
def act (i : Nat) (flag : Bool) : Label Call Choice Housekeeping := .act i ⟨0,false,flag,9,none,⟨[],false⟩⟩

/-- An offer passes the checks, and takes so many steps from there on. -/
def offering (i : Nat) (id : TransferId) (steps : Nat) : List (Label Call Choice Housekeeping) :=
  .fork (.offered 1 (offer id)) :: act i false :: List.replicate 5 (act i true) ++
    List.replicate steps (act i false)

/-- The accept call has subscribed. -/
def accepting : List (Label Call Choice Housekeeping) :=
  .fork (.respond 7 true) :: List.replicate 12 (act 1 false)

def authorizing : List (Label Call Choice Housekeeping) :=
  .fork (.authorized 1 ⟨7,some auth⟩) :: act 2 true :: List.replicate 7 (act 2 false)

/-- The authorization comes while the accept call waits. -/
def inTime : List (Label Call Choice Housekeeping) :=
  offering 0 7 5 ++ accepting ++ authorizing ++ List.replicate 6 (act 1 false)

/-- The accept call has given up when the authorization comes; another offer follows. -/
def late : List (Label Call Choice Housekeeping) :=
  offering 0 7 5 ++ accepting ++ act 1 true :: List.replicate 2 (act 1 false) ++ authorizing ++
    offering 3 8 4

def reached (labels : List (Label Call Choice Housekeeping)) : Conf Seen Call Op Ans :=
  ((machine receiver).system.run start labels).getD start

theorem start_restarted : (machine receiver).system.init start := ⟨⟨⟨rfl,rfl⟩,rfl⟩,rfl⟩

instance (l : Local) (c : Conf Seen Call Op Ans) :
    DecidablePred (Watched (γ := Housekeeping) (minds l) c) :=
  have (s : Seen) (i : Nat) (call : Call) (o : Op) (c : Choice) : Decidable (minds l s i call o c) :=
    instDecidableEqBool (permits l s o) true
  inferInstance

end Sample

open Targeted.Settlement.Sample

/-- Told while it waits, the accept call takes the offer out. -/
theorem in_time_taken_out :
    ((reached inTime).shared.state.inbox.pending.rows.all fun p => decide (p.transferId ≠ 7)) = true := by
  have reach : Reach (machine receiver).system (Watched (minds receiver)) (reached inTime) :=
    (Reach.start start start_restarted).run (by decide)
      (show (machine receiver).system.run _ inTime = some _ from rfl)
  have stored : ((1,.deliverAuthorization ⟨7,some auth⟩,.stored) : EndpointId × Request × Response) ∈
      (reached inTime).shared.state.answers := by decide
  exact List.all_eq_true.mpr fun p there => decide_eq_true (stored_not_pending reach stored (by decide) p there)

/-- The accept call has timed out before the authorization is stored: all that was called has
returned, the offer is in the map, and another offer of its sender is refused for it. -/
theorem late_still_pending : ∃ c, (machine receiver).system.init start ∧
    (machine receiver).system.run start late = some c ∧
    (∀ t ∈ c.threads, t.call ≠ .offered 1 (offer 7) → t.rest.finished = true) ∧
    (1,.deliverAuthorization ⟨7,some auth⟩,.stored) ∈ c.shared.state.answers ∧
    (c.shared.state.inbox.pending.rows.any fun p => p.transferId = 7) = true ∧
    (1,.submitOffer (offer 8),.offer (.refused "offer-already-pending")) ∈ c.shared.state.answers :=
  ⟨reached late,start_restarted,rfl,by decide,by decide,by decide,by decide⟩

end Vnidrop.Targeted.Settlement
