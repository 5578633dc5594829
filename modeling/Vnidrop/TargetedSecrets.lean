import Vnidrop.TargetedRows
import Vnidrop.TargetedCalls

/-! The secrets of authorizations while transfers are approved and ended at the same time.
A secret is written before the row that names it, and a call that ends the transfer
releases what the row named when the call read it. -/
namespace Vnidrop.Targeted.Secrets

open Tables Programs Runs Sample TargetedTransferState

/-- The calls that end transfers. -/
def ends : Call → Bool
  | .cancel _ | .delete _ | .cancelled .. | .terminatePeer _ => true
  | _ => false

/-- The calls that end transfers, those that approve them, and the consent in between. -/
def races : Call → Bool
  | .send _ | .offered .. | .respond .. | .authorized .. => true
  | call => ends call

/-- The rows a statement ends. -/
def ending : Write → TargetedTransferRow → Bool
  | .transitionTerminal id dst _, r => r.id = id && Store.leavesFor dst r.state
  | .cancelByPeer peer, r => Store.withPeer peer r && !r.state.terminal
  | _, _ => false

/-- The handle a call that ends transfers has last read in a row; the call that has drawn an
identifier; the secrets written and in no row yet; the secrets written at all; the secrets
whose rows a call has ended, and which it has not released. -/
structure History where
  seen : Nat → TransferId → Option Handle
  owner : TransferId → Option Nat
  minting : List (Nat × TransferId × Handle)
  minted : List (TransferId × Handle)
  owed : List (Nat × TransferId × Handle)

namespace History

/-- Secrets from before belong to the transfers whose rows name them. -/
def new (start : Device) : History where
  seen _ _ := none
  owner _ := none
  minting := []
  minted := start.store.transfers.rows.filterMap fun r => r.authorizationSecretHandle.map (r.id,·)
  owed := []

def see (h : History) (i : Nat) (id : TransferId) (handle : Option Handle) : History :=
  { h with seen := Function.update h.seen i (Function.update (h.seen i) id handle) }

def mint (h : History) (i : Nat) (id : TransferId) (handle : Handle) : History :=
  { h with minting := (i,id,handle) :: h.minting, minted := (id,handle) :: h.minted }

/-- The secret is in a row now, or gone. -/
def settle (h : History) (i : Nat) (handle : Handle) : History :=
  { h with minting := h.minting.filter fun m => !(decide (m.1 = i) && decide (m.2.2 = handle)) }

def finish (h : History) (i : Nat) (store : Store) (w : Write) : History :=
  { h with owed := ((store.transfers.rows.filter (ending w)).filterMap fun r =>
      r.authorizationSecretHandle.map (i,r.id,·)) ++ h.owed }

/-- The row names no secret any more; what is out of custody is released. -/
def release (h : History) (i : Nat) (custody : Handle → Option Text) (id : TransferId) : History :=
  { h with owed := h.owed.filter fun o =>
      !(decide (o.1 = i) && decide (o.2.1 = id) && (custody o.2.2).isNone) }

end History

def record (h : History) (s : Device) (i : Nat) (call : Call) : (op : Op) → Ans op → History
  | .getRow id, .ok (some row) => if ends call then h.see i id row.authorizationSecretHandle else h
  | .drawTransferId, id => { h with owner := Function.update h.owner id (some i) }
  | .protect auth, some handle => h.mint i auth.transferId handle
  | .remove handle, _ => h.settle i handle
  | .write (.finalizeSenderAuthorization _ _ handle), .ok _ => h.settle i handle
  | .write (.persistReceiverAuthorization _ handle), .ok _ => h.settle i handle
  | .write (.clearAuthorization id), .ok _ => h.release i s.custody id
  | .write (.transitionTerminal id dst clear), .ok _ =>
    h.finish i s.store (.transitionTerminal id dst clear)
  | .write (.cancelByPeer peer), .ok _ => h.finish i s.store (.cancelByPeer peer)
  | _, _ => h

/-- What is stored when nobody is at work: closed transfers have left no secret, and every
secret is the one a live transfer names. -/
structure Tidy (s : Device) : Prop where
  paired : ∀ id r, s.store.getRow id = some r →
    (r.authorizationSecretHandle = none ↔ r.blobTicket = none)
  early : ∀ id r, s.store.getRow id = some r → r.state.preapproval = true →
    r.authorizationSecretHandle = none
  closed : ∀ id r, s.store.getRow id = some r → r.state.terminal = true →
    r.authorizationSecretHandle = none
  given : ∀ id r h, s.store.getRow id = some r → r.authorizationSecretHandle = some h → h ∈ s.handles
  alone : ∀ id id' r r' h, s.store.getRow id = some r → s.store.getRow id' = some r' →
    r.authorizationSecretHandle = some h → r'.authorizationSecretHandle = some h → id = id'
  covered : ∀ h, s.custody h ≠ none → ∃ id r, s.store.getRow id = some r ∧
    r.authorizationSecretHandle = some h ∧ r.state.terminal = false

abbrev State := Observed Device History

/-- The device from a given start. -/
def machine (l : Local) (start : Device) : Machine State Call Op Ans Choice Housekeeping :=
  (device l (· = start)).observe (.new start) record fun h _ _ => h

def guard : Guard State Call Op Choice Housekeeping where
  starts _ call := races call = true
  steps _ _ _ _ := True
  events _ _ := False

/-- What a cleanup cannot do without. -/
def needed (call : Call) : Op → Bool
  | .remove _ | .write (.clearAuthorization _) => true
  | .deleteTag _ => ends call
  | _ => false

def endedBy : Op → TargetedTransferRow → Bool
  | .write w, r => ending w r
  | _, _ => false

/-- Removals, and the rest of a cleanup, go through; a statement ends a row only while it
names the secret that the call has read in it, or none. -/
def minds (s : State) (i : Nat) (call : Call) (op : Op) (c : Choice) : Prop :=
  (needed call op = true → c.fails = false) ∧
  (c.fails = false → ∀ r ∈ s.state.store.transfers.rows, endedBy op r = true →
    r.authorizationSecretHandle = none ∨ s.history.seen i r.id = r.authorizationSecretHandle)

/-- The condition of the runs below. -/
def Minds (c : Conf State Call Op Ans) (a : Label Call Choice Housekeeping) : Prop :=
  guard.holds c a ∧ Watched minds c a

structure Inv (s : State) : Prop where
  paired : ∀ id r, s.state.store.getRow id = some r →
    (r.authorizationSecretHandle = none ↔ r.blobTicket = none)
  early : ∀ id r, s.state.store.getRow id = some r → r.state.preapproval = true →
    r.authorizationSecretHandle = none
  /-- What a closed row names is going to be released. -/
  closed : ∀ id r h, s.state.store.getRow id = some r → r.state.terminal = true →
    r.authorizationSecretHandle = some h → ∃ i, (i,id,h) ∈ s.history.owed
  /-- Every secret is named by a live row, or somebody still has it in hand. -/
  covered : ∀ h, s.state.custody h ≠ none → (∃ i id, (i,id,h) ∈ s.history.minting) ∨
    (∃ id r, s.state.store.getRow id = some r ∧ r.authorizationSecretHandle = some h ∧
      r.state.terminal = false) ∨ ∃ i id, (i,id,h) ∈ s.history.owed
  minted : ∀ id r h, s.state.store.getRow id = some r → r.authorizationSecretHandle = some h →
    (id,h) ∈ s.history.minted
  given : ∀ id h, (id,h) ∈ s.history.minted → h ∈ s.state.handles
  alone : ∀ id id' h, (id,h) ∈ s.history.minted → (id',h) ∈ s.history.minted → id = id'
  drawn : ∀ id i, s.history.owner id = some i → id ∈ s.state.drawn

/-- The transfer is over for good. -/
def Ended (id : TransferId) (s : State) : Prop :=
  ∃ r, s.state.store.getRow id = some r ∧ r.state.terminal = true

/-- A transfer of this device that has not been approved. -/
def Pending (id : TransferId) (s : State) : Prop :=
  ∃ r, s.state.store.getRow id = some r ∧ r.role = .sender ∧
    (r.state.preapproval = true ∨ r.state.terminal = true)

/-- What thread `i` can tell later, whoever has moved. -/
structure Since (i : Nat) (s t : State) : Prop where
  handles : ∀ h ∈ s.state.handles, h ∈ t.state.handles
  minted : ∀ m ∈ s.history.minted, m ∈ t.history.minted
  gone : ∀ h ∈ s.state.handles, s.state.custody h = none → t.state.custody h = none
  ended : ∀ id, Ended id s → Ended id t
  present : ∀ id r, s.state.store.getRow id = some r → ∃ r', t.state.store.getRow id = some r' ∧
    ∀ peer, Store.withPeer peer r' = Store.withPeer peer r
  minting : ∀ id h, (i,id,h) ∈ t.history.minting → (i,id,h) ∈ s.history.minting

/-- What thread `i` relies on. -/
structure Kept (i : Nat) (s t : State) : Prop extends Since i s t where
  owed : ∀ id h, (i,id,h) ∈ t.history.owed → (i,id,h) ∈ s.history.owed
  seen : t.history.seen i = s.history.seen i
  owner : ∀ id, s.history.owner id = some i →
    t.history.owner id = some i ∧ (Pending id s → Pending id t)

theorem Since.refl (i : Nat) (s : State) : Since i s s :=
  ⟨fun _ h => h,fun _ h => h,fun _ _ h => h,fun _ h => h,fun _ r h => ⟨r,h,fun _ => rfl⟩,fun _ _ h => h⟩

theorem Since.of_state {i : Nat} {s t : State} (same : t.state = s.state)
    (minted : ∀ m ∈ s.history.minted, m ∈ t.history.minted)
    (minting : ∀ id h, (i,id,h) ∈ t.history.minting → (i,id,h) ∈ s.history.minting) : Since i s t := by
  obtain ⟨d,h⟩ := s
  obtain ⟨d',h'⟩ := t
  cases same
  exact ⟨fun _ h => h,minted,fun _ _ h => h,fun _ h => h,fun _ r h => ⟨r,h,fun _ => rfl⟩,minting⟩

theorem Since.trans {i : Nat} {s t u : State} (f : Since i s t) (g : Since i t u) : Since i s u where
  handles h given := g.handles h (f.handles h given)
  minted m given := g.minted m (f.minted m given)
  gone h given lost := g.gone h (f.handles h given) (f.gone h given lost)
  ended id ended := g.ended id (f.ended id ended)
  present id r here := by
    obtain ⟨r',there,same⟩ := f.present id r here
    obtain ⟨r'',later,same'⟩ := g.present id r' there
    exact ⟨r'',later,fun peer => (same' peer).trans (same peer)⟩
  minting id h minting := f.minting id h (g.minting id h minting)

theorem Kept.refl (i : Nat) (s : State) : Kept i s s :=
  ⟨.refl i s,fun _ _ h => h,rfl,fun _ mine => ⟨mine,fun h => h⟩⟩

theorem Kept.trans {i : Nat} {s t u : State} (f : Kept i s t) (g : Kept i t u) : Kept i s u where
  toSince := f.toSince.trans g.toSince
  owed id h owed := f.owed id h (g.owed id h owed)
  seen := g.seen.trans f.seen
  owner id mine := by
    obtain ⟨still,pending⟩ := f.owner id mine
    obtain ⟨last,pending'⟩ := g.owner id still
    exact ⟨last,fun h => pending' (pending h)⟩

def terms : Terms State where
  known _ := True
  inv := Inv
  rely := Kept
  refl := Kept.refl
  trans i := Kept.trans (i := i)

noncomputable abbrev limited (l : Local) (start : Device) :
    Machine State Call Op Ans Choice Housekeeping := (machine l start).restrict minds

abbrev Safely (l : Local) (start : Device) (i : Nat) (call : Call) {α : Type} (p : Task α)
    (post : α → State → Prop) (s : State) : Prop :=
  Safe (limited l start) guard terms i call p post s

/-- The thread has nothing in hand. -/
structure Idle (i : Nat) (s : State) : Prop where
  minting : ∀ id h, (i,id,h) ∉ s.history.minting
  owed : ∀ id h, (i,id,h) ∉ s.history.owed

/-! Operations that touch no secret. -/

/-- The row names what it named, and is not ended unless it named nothing. -/
structure Alike (r r' : TargetedTransferRow) : Prop where
  handle : r'.authorizationSecretHandle = r.authorizationSecretHandle
  ticket : r'.blobTicket = r.blobTicket
  role : r'.role = r.role
  peers : ∀ peer, Store.withPeer peer r' = Store.withPeer peer r
  state : r'.state = r.state ∨
    (r.state.preapproval = true ∧ (r'.state.preapproval = true ∨ r'.state.terminal = true))

structure Steady (s t : Device) : Prop where
  custody : t.custody = s.custody
  handles : t.handles = s.handles
  drawn : t.drawn = s.drawn
  rows : ∀ id r, s.store.getRow id = some r → ∃ r', t.store.getRow id = some r' ∧ Alike r r'
  fresh : ∀ id r', s.store.getRow id = none → t.store.getRow id = some r' →
    r'.authorizationSecretHandle = none ∧ r'.blobTicket = none

theorem Alike.refl (r : TargetedTransferRow) : Alike r r := ⟨rfl,rfl,rfl,fun _ => rfl,.inl rfl⟩

theorem Alike.terminal {r r' : TargetedTransferRow} (alike : Alike r r')
    (ended : r.state.terminal = true) : r'.state.terminal = true := by
  rcases alike.state with same | ⟨early,_⟩
  · rw [same]
    exact ended
  · rw [preapproval_live early] at ended
    cases ended

/-- Of a row that names a secret, the state is as it was. -/
theorem Alike.state_eq {r r' : TargetedTransferRow} {h : Handle} (alike : Alike r r')
    (early : r.state.preapproval = true → r.authorizationSecretHandle = none)
    (named : r'.authorizationSecretHandle = some h) : r'.state = r.state := by
  rcases alike.state with same | ⟨pre,_⟩
  · exact same
  · rw [alike.handle,early pre] at named
    cases named

theorem Steady.refl (s : Device) : Steady s s :=
  ⟨rfl,rfl,rfl,fun _ r here => ⟨r,here,.refl r⟩,fun _ _ none here => absurd (none.symm.trans here) nofun⟩

theorem Steady.of_eq {s t : Device} (store : t.store = s.store) (custody : t.custody = s.custody)
    (handles : t.handles = s.handles) (drawn : t.drawn = s.drawn) : Steady s t :=
  ⟨custody,handles,drawn,fun _ r here => ⟨r,by rw [store]; exact here,.refl r⟩,
    fun _ _ none here => by rw [store,none] at here; cases here⟩

section Steady

variable {s : State} {d : Device}

/-- Any row after such an operation: it names nothing, or what it named. -/
theorem Steady.back {t : Device} (steady : Steady s.state t) {id : TransferId}
    {r' : TargetedTransferRow} (here : t.store.getRow id = some r') :
    (∃ r, s.state.store.getRow id = some r ∧ Alike r r') ∨
      (r'.authorizationSecretHandle = none ∧ r'.blobTicket = none) := by
  cases was : s.state.store.getRow id with
  | none => exact .inr (steady.fresh id r' was here)
  | some r =>
    obtain ⟨r₁,there,alike⟩ := steady.rows id r was
    cases here.symm.trans there
    exact .inl ⟨r,rfl,alike⟩

theorem Inv.steady (inv : Inv s) (steady : Steady s.state d) : Inv ⟨d,s.history⟩ where
  paired id r' here := by
    rcases steady.back here with ⟨r,was,alike⟩ | ⟨handle,ticket⟩
    · rw [alike.handle,alike.ticket]
      exact inv.paired id r was
    · exact ⟨fun _ => ticket,fun _ => handle⟩
  early id r' here pre := by
    rcases steady.back here with ⟨r,was,alike⟩ | ⟨handle,_⟩
    · rw [alike.handle]
      rcases alike.state with same | ⟨early,_⟩
      · exact inv.early id r was (same ▸ pre)
      · exact inv.early id r was early
    · exact handle
  closed id r' h here ended named := by
    rcases steady.back here with ⟨r,was,alike⟩ | ⟨handle,_⟩
    · rw [alike.state_eq (inv.early id r was) named] at ended
      exact inv.closed id r h was ended (alike.handle ▸ named)
    · rw [handle] at named
      cases named
  covered h held := by
    rw [steady.custody] at held
    refine (inv.covered h held).imp_right (Or.imp_left ?_)
    rintro ⟨id,r,was,named,live⟩
    obtain ⟨r',here,alike⟩ := steady.rows id r was
    have same := alike.state_eq (inv.early id r was) (alike.handle.trans named)
    exact ⟨id,r',here,alike.handle.trans named,same ▸ live⟩
  minted id r' h here named := by
    rcases steady.back here with ⟨r,was,alike⟩ | ⟨handle,_⟩
    · exact inv.minted id r h was (alike.handle ▸ named)
    · rw [handle] at named
      cases named
  given id h minted := by
    rw [steady.handles]
    exact inv.given id h minted
  alone := inv.alone
  drawn id i owner := by
    rw [steady.drawn]
    exact inv.drawn id i owner

theorem Since.steady (steady : Steady s.state d) (i : Nat) : Since i s ⟨d,s.history⟩ where
  handles h given := by
    rw [steady.handles]
    exact given
  minted _ minted := minted
  gone h _ lost := by
    rw [steady.custody]
    exact lost
  ended id ended := by
    obtain ⟨r,was,terminal⟩ := ended
    obtain ⟨r',here,alike⟩ := steady.rows id r was
    exact ⟨r',here,alike.terminal terminal⟩
  present id r was := by
    obtain ⟨r',here,alike⟩ := steady.rows id r was
    exact ⟨r',here,alike.peers⟩
  minting _ _ minting := minting

theorem Kept.steady (steady : Steady s.state d) (i : Nat) : Kept i s ⟨d,s.history⟩ where
  toSince := .steady steady i
  owed _ _ owed := owed
  seen := rfl
  owner id mine := by
    refine ⟨mine,fun pending => ?_⟩
    obtain ⟨r,was,sends,state⟩ := pending
    obtain ⟨r',here,alike⟩ := steady.rows id r was
    refine ⟨r',here,alike.role.trans sends,?_⟩
    rcases alike.state with same | ⟨_,later⟩
    · rw [same]
      exact state
    · exact later

end Steady

/-- Rows that change in place. -/
theorem Steady.map {s : Device} {store : Store}
    (f : TransferId → TargetedTransferRow → TargetedTransferRow)
    (rows : ∀ id, store.getRow id = (s.store.getRow id).map (f id)) (alike : ∀ id r, Alike r (f id r)) :
    Steady s { s with store } where
  custody := rfl
  handles := rfl
  drawn := rfl
  rows id r here := ⟨f id r,by rw [show _ = _ from rows id,here]; rfl,alike id r⟩
  fresh id r' none here := by
    rw [show _ = _ from rows id,none] at here
    cases here

def mildWrite : Write → Bool
  | .clearAcceptedOfferIntent _ | .clearAcceptedIntentIfSender .. => true
  | .persistAcceptedOfferIntent _ => true
  | .insert row => row.authorizationSecretHandle.isNone && row.blobTicket.isNone
  | .setState _ src dst | .updateState _ src dst =>
    src.preapproval && (dst.preapproval || dst.terminal)
  | _ => false

theorem write_steady {s : Device} {store : Store} {w : Write} {now : Millis} {changed : Bool}
    (is : mildWrite w = true) (ran : w.run s.store now = .ok (changed,store)) :
    Steady s { s with store } := by
  have rows (id : TransferId) := run_getRow ran id
  cases w with
  | clearAcceptedOfferIntent _ | clearAcceptedIntentIfSender _ _ | persistAcceptedOfferIntent _ =>
    exact .map (fun _ r => r) (fun id => by rw [rows id]; simp [Write.onRow]) fun _ r => .refl r
  | setState id' src dst | updateState id' src dst =>
    simp only [mildWrite,Bool.and_eq_true,Bool.or_eq_true] at is
    refine .map (fun id r => if id = id' ∧ r.state = src then { r with state := dst, updatedAt := now } else r)
      (fun id => ?_) fun id r => ?_
    · rw [rows id,Write.onRow]
      by_cases here : id = id' <;> simp [here]
    · split
      · rename_i moved
        exact ⟨rfl,rfl,rfl,fun _ => rfl,.inr ⟨moved.2 ▸ is.1,is.2⟩⟩
      · exact .refl r
  | insert new =>
    simp only [mildWrite,Bool.and_eq_true,Option.isNone_iff_eq_none] at is
    obtain ⟨_,inserted,same⟩ := except_map_ok ran
    cases same
    have absent := (insert_ok inserted).1
    refine ⟨rfl,rfl,rfl,fun id r here => ⟨r,?_,.refl r⟩,fun id r' none here => ?_⟩
    · rw [show _ = _ from rows id,Write.onRow,if_neg]
      · exact here
      · rintro rfl
        rw [here] at absent
        cases absent
    · rw [show _ = _ from rows id,Write.onRow] at here
      split at here
      · cases here
        exact is
      · rw [none] at here
        cases here
  | _ => cases is

def mild (call : Call) : Op → Bool
  | .getRow _ => !ends call
  | .write w => mildWrite w
  | .drawTransferId | .protect _ | .remove _ => false
  | _ => true

theorem mild_steady {l : Local} {call : Call} {s t : Device} {c : Choice} {op : Op} {r : Ans op}
    (is : mild call op = true) (h : s.exec l c op = some (r,t)) : Steady s t := by
  by_cases read : Device.reads op = true
  · exact Device.exec_reads read h ▸ .refl s
  · cases op with
    | write w =>
      rcases Device.exec_write h with ⟨_,rfl⟩ | ⟨_,_,wrote,_,rfl⟩
      · exact .refl _
      · exact write_steady is wrote
    | _ =>
      simp only [Device.exec] at h
      repeat' split at h
      all_goals first
        | (cases is; done)
        | (exact absurd rfl read)
        | (cases h; done)
        | (cases h; exact .of_eq rfl rfl rfl rfl)

theorem mild_record {call : Call} {op : Op} (is : mild call op = true) (h : History) (s : Device)
    (i : Nat) (r : Ans op) : record h s i call op r = h := by
  cases op with
  | getRow id =>
    have not : ends call = false := by simpa [mild] using is
    rcases r with e | _ | row
    · rfl
    · rfl
    · simp [record,not]
  | write w => cases w <;> first | (cases is; done) | rfl
  | _ => first | (cases is; done) | rfl

section Rules

variable {l : Local} {start : Device} {s t u : State} {i : Nat} {call : Call} {c : Choice}

theorem exec_limited {op : Op} {r : Ans op} (h : (limited l start).exec s i call op c = some (r,u)) :
    minds s i call op c ∧ ∃ d, s.state.exec l c op = some (r,d) ∧
      u = ⟨d,record s.history s.state i call op r⟩ := by
  obtain ⟨minded,performed⟩ := restrict_exec.mp h
  exact ⟨minded,observe_exec performed⟩

theorem mild_step {op : Op} {r : Ans op} (is : mild call op = true) (inv : Inv s)
    (h : (limited l start).exec s i call op c = some (r,u)) : Inv u ∧ ∀ j, Kept j s u := by
  obtain ⟨_,d,ran,rfl⟩ := exec_limited h
  have steady := mild_steady is ran
  rw [mild_record is]
  exact ⟨inv.steady steady,Kept.steady steady⟩

theorem quiet_mild {op : Op} (is : mild call op = true) :
    Quiet (limited l start) guard terms i call op :=
  fun _ _ inv _ _ _ _ performed => mild_step is inv performed

theorem safe_aside {α : Type} {p : Task α} (all : p.All (mild call · = true)) :
    Safely l start i call p (fun _ => Kept i s) s := by
  refine safe_quiet ?_ s
  induction p with
  | ret a => exact trivial
  | step op k ih => exact ⟨quiet_mild all.1,fun r => ih r (all.2 r)⟩

/-- A program that ends with nothing in hand, if it has started so. -/
theorem Idle.later (idle : Idle i s) (kept : Kept i s t) : Idle i t :=
  ⟨fun id h minting => idle.minting id h (kept.minting id h minting),
    fun id h owed => idle.owed id h (kept.owed id h owed)⟩

theorem safe_mild {α : Type} {p : Task α} (all : p.All (mild call · = true)) (idle : Idle i s) :
    Safely l start i call p (fun _ => Idle i) s :=
  safe_mono (fun _ _ kept => idle.later kept) (safe_aside all)

/-- A call that ends transfers remembers what it reads. -/
theorem read_step {id : TransferId} {r : Except VnidropError (Option TargetedTransferRow)}
    (is : ends call = true) (inv : Inv s)
    (h : (limited l start).exec s i call (.getRow id) c = some (r,u)) :
    (Inv u ∧ ∀ j, j ≠ i → Kept j s u) ∧ (Since i s u ∧ u.history.owed = s.history.owed) ∧
    (∀ row, r = .ok (some row) → u.state.store.getRow id = some row ∧
      (∀ handle, row.authorizationSecretHandle = some handle → handle ∈ u.state.handles) ∧
      u.history.seen i = Function.update (s.history.seen i) id row.authorizationSecretHandle) ∧
    ((∀ row, r ≠ .ok (some row)) → u.history.seen i = s.history.seen i) := by
  obtain ⟨_,d,ran,rfl⟩ := exec_limited h
  obtain rfl := Device.exec_reads (by rfl) ran
  rcases r with e | _ | row
  · exact ⟨⟨inv,fun j _ => .refl j _⟩,⟨.refl i _,rfl⟩,nofun,fun _ => rfl⟩
  · exact ⟨⟨inv,fun j _ => .refl j _⟩,⟨.refl i _,rfl⟩,nofun,fun _ => rfl⟩
  · have recorded : record s.history s.state i call (.getRow id) (.ok (some row)) =
        s.history.see i id row.authorizationSecretHandle := if_pos is
    rw [recorded]
    have since (j : Nat) : Since j s ⟨s.state,s.history.see i id row.authorizationSecretHandle⟩ :=
      .of_state rfl (fun _ h => h) fun _ _ h => h
    refine ⟨⟨⟨inv.paired,inv.early,inv.closed,inv.covered,inv.minted,inv.given,inv.alone,inv.drawn⟩,
      fun j other => ⟨since j,fun _ _ h => h,?_,fun _ mine => ⟨mine,fun h => h⟩⟩⟩,⟨since i,rfl⟩,
      fun row' same => ?_,fun none => absurd rfl (none row)⟩
    · exact Function.update_of_ne other ..
    · cases same
      have here := Device.exec_getRow ran
      refine ⟨here,fun handle named => ?_,Function.update_self ..⟩
      exact inv.given id handle (inv.minted id row handle here named)

/-- What a statement leaves of the rows it ends. -/
structure Finishes (i : Nat) (w : Write) (s : State) (d : Device) : Prop where
  custody : d.custody = s.state.custody
  handles : d.handles = s.state.handles
  drawn : d.drawn = s.state.drawn
  absent : ∀ id, s.state.store.getRow id = none → d.store.getRow id = none
  rows : ∀ id r, s.state.store.getRow id = some r → ∃ r', d.store.getRow id = some r' ∧
    (r'.role = r.role ∧ ∀ peer, Store.withPeer peer r' = Store.withPeer peer r) ∧
    (ending w r = false → r' = r) ∧
    (ending w r = true → r'.state.terminal = true ∧
      ((r'.authorizationSecretHandle = none ∧ r'.blobTicket = none) ∨
       (r'.authorizationSecretHandle = r.authorizationSecretHandle ∧ r'.blobTicket = r.blobTicket)))

theorem mem_finish {h : History} {store : Store} {w : Write} {j : Nat} {id : TransferId}
    {handle : Handle} : (j,id,handle) ∈ (h.finish i store w).owed ↔ (j,id,handle) ∈ h.owed ∨
      (j = i ∧ ∃ r, store.getRow id = some r ∧ ending w r = true ∧
        r.authorizationSecretHandle = some handle) := by
  simp only [History.finish,List.mem_append,List.mem_filterMap,List.mem_filter,Option.map_eq_some_iff,
    Prod.mk.injEq]
  constructor
  · rintro (⟨r,⟨member,ended⟩,_,named,rfl,rfl,rfl⟩ | before)
    · exact .inr ⟨rfl,r,Table.find_of_mem member,ended,named⟩
    · exact .inl before
  · rintro (before | ⟨rfl,r,here,ended,named⟩)
    · exact .inr before
    · exact .inl ⟨r,⟨Table.find_mem here,ended⟩,handle,named,rfl,Table.find_key here,rfl⟩

theorem Finishes.back {w : Write} {d : Device} (finishes : Finishes i w s d) {id : TransferId}
    {r' : TargetedTransferRow} (here : d.store.getRow id = some r') :
    ∃ r, s.state.store.getRow id = some r ∧ (ending w r = false → r' = r) ∧
      (ending w r = true → r'.state.terminal = true ∧
        ((r'.authorizationSecretHandle = none ∧ r'.blobTicket = none) ∨
         (r'.authorizationSecretHandle = r.authorizationSecretHandle ∧ r'.blobTicket = r.blobTicket))) := by
  cases was : s.state.store.getRow id with
  | none => exact absurd (here.symm.trans (finishes.absent id was)) nofun
  | some r =>
    obtain ⟨r₁,there,_,stays,ends⟩ := finishes.rows id r was
    cases here.symm.trans there
    exact ⟨r,rfl,stays,ends⟩

theorem Inv.finish {w : Write} {d : Device} (inv : Inv s) (finishes : Finishes i w s d) :
    Inv ⟨d,s.history.finish i s.state.store w⟩ where
  paired id r' here := by
    obtain ⟨r,was,stays,ends⟩ := finishes.back here
    cases ended : ending w r with
    | false => exact stays ended ▸ inv.paired id r was
    | true =>
      rcases (ends ended).2 with ⟨handle,ticket⟩ | ⟨handle,ticket⟩
      · exact ⟨fun _ => ticket,fun _ => handle⟩
      · rw [handle,ticket]
        exact inv.paired id r was
  early id r' here pre := by
    obtain ⟨r,was,stays,ends⟩ := finishes.back here
    cases ended : ending w r with
    | false => exact stays ended ▸ inv.early id r was (stays ended ▸ pre)
    | true =>
      have terminal := (ends ended).1
      rw [preapproval_live pre] at terminal
      cases terminal
  closed id r' h here terminal named := by
    obtain ⟨r,was,stays,ends⟩ := finishes.back here
    cases ended : ending w r with
    | false =>
      cases stays ended
      obtain ⟨j,owed⟩ := inv.closed id _ h was terminal named
      exact ⟨j,mem_finish.mpr (.inl owed)⟩
    | true =>
      rcases (ends ended).2 with ⟨handle,_⟩ | ⟨handle,_⟩
      · rw [handle] at named
        cases named
      · exact ⟨i,mem_finish.mpr (.inr ⟨rfl,r,was,ended,handle ▸ named⟩)⟩
  covered h held := by
    rw [finishes.custody] at held
    rcases inv.covered h held with minting | ⟨id,r,was,named,live⟩ | ⟨j,id,owed⟩
    · exact .inl minting
    · cases ended : ending w r with
      | false =>
        obtain ⟨r',here,_,stays,_⟩ := finishes.rows id r was
        cases stays ended
        exact .inr (.inl ⟨id,r,here,named,live⟩)
      | true => exact .inr (.inr ⟨i,id,mem_finish.mpr (.inr ⟨rfl,r,was,ended,named⟩)⟩)
    · exact .inr (.inr ⟨j,id,mem_finish.mpr (.inl owed)⟩)
  minted id r' h here named := by
    obtain ⟨r,was,stays,ends⟩ := finishes.back here
    cases ended : ending w r with
    | false => exact inv.minted id r h was (stays ended ▸ named)
    | true =>
      rcases (ends ended).2 with ⟨handle,_⟩ | ⟨handle,_⟩
      · rw [handle] at named
        cases named
      · exact inv.minted id r h was (handle ▸ named)
  given id h minted := by
    rw [finishes.handles]
    exact inv.given id h minted
  alone := inv.alone
  drawn id i owner := by
    rw [finishes.drawn]
    exact inv.drawn id i owner

theorem Since.finish {w : Write} {d : Device} (finishes : Finishes i w s d) (j : Nat) :
    Since j s ⟨d,s.history.finish i s.state.store w⟩ where
  handles h given := by
    rw [finishes.handles]
    exact given
  minted _ minted := minted
  gone h _ lost := by
    rw [finishes.custody]
    exact lost
  ended id ended := by
    obtain ⟨r,was,terminal⟩ := ended
    obtain ⟨r',here,_,stays,ends⟩ := finishes.rows id r was
    cases ended : ending w r with
    | false => exact ⟨r',here,stays ended ▸ terminal⟩
    | true => exact ⟨r',here,(ends ended).1⟩
  present id r was := by
    obtain ⟨r',here,same,_⟩ := finishes.rows id r was
    exact ⟨r',here,same.2⟩
  minting _ _ minting := minting

theorem Kept.finish {w : Write} {d : Device} (finishes : Finishes i w s d) {j : Nat} (other : j ≠ i) :
    Kept j s ⟨d,s.history.finish i s.state.store w⟩ where
  toSince := .finish finishes j
  owed id h owed := (mem_finish.mp owed).resolve_right fun new => other new.1
  seen := rfl
  owner id mine := by
    refine ⟨mine,fun pending => ?_⟩
    obtain ⟨r,was,sends,state⟩ := pending
    obtain ⟨r',here,same,stays,ends⟩ := finishes.rows id r was
    refine ⟨r',here,same.1.trans sends,?_⟩
    cases ended : ending w r with
    | false => exact stays ended ▸ state
    | true => exact .inr (ends ended).1

/-- What either of the statements that end rows does. -/
theorem finishes_transition {id : TransferId} {dst : TargetedTransferState} {clear changed : Bool}
    {now : Millis} {store : Store}
    (run : (Write.transitionTerminal id dst clear).run s.state.store now = .ok (changed,store)) :
    Finishes i (.transitionTerminal id dst clear) s { s.state with store } := by
  have rows (id' : TransferId) := run_getRow run id'
  have target := (transitionTerminal_ok run).1
  simp only [Write.onRow] at rows
  refine ⟨rfl,rfl,rfl,fun id' none => ?_,fun id' r was => ?_⟩
  · rw [show _ = _ from rows id',none]
    simp
  · have key := Table.find_key was
    change ∃ r', store.getRow id' = some r' ∧ _
    rw [rows id',was]
    by_cases here : id' = id
    · cases leaves : Store.leavesFor dst r.state with
      | false =>
        refine ⟨r,by simp [here,leaves],⟨rfl,fun _ => rfl⟩,fun _ => rfl,fun ended => ?_⟩
        simp [ending,leaves] at ended
      | true =>
        rw [if_pos here,Option.map_some,if_pos leaves]
        refine ⟨_,rfl,⟨rfl,fun _ => rfl⟩,fun not => ?_,fun _ => ⟨?_,?_⟩⟩
        · simp [ending,leaves,key,here] at not
        · rcases target with rfl | rfl <;> rfl
        · cases clear with
          | true => exact .inl ⟨rfl,rfl⟩
          | false => exact .inr ⟨rfl,rfl⟩
    · refine ⟨r,by simp [here],⟨rfl,fun _ => rfl⟩,fun _ => rfl,fun ended => ?_⟩
      simp [ending,key,here] at ended

theorem finishes_cancelByPeer {peer : EndpointId} {changed : Bool} {now : Millis} {store : Store}
    (run : (Write.cancelByPeer peer).run s.state.store now = .ok (changed,store)) :
    Finishes i (.cancelByPeer peer) s { s.state with store } := by
  have rows (id' : TransferId) := run_getRow run id'
  simp only [Write.onRow] at rows
  refine ⟨rfl,rfl,rfl,fun id' none => ?_,fun id' r was => ?_⟩
  · rw [show _ = _ from rows id',none]
    rfl
  · change ∃ r', store.getRow id' = some r' ∧ _
    rw [rows id',was,Option.map_some]
    cases ended : (Store.withPeer peer r && !r.state.terminal) with
    | false =>
      refine ⟨r,rfl,⟨rfl,fun _ => rfl⟩,fun _ => rfl,fun is => ?_⟩
      rw [show ending (.cancelByPeer peer) r = false from ended] at is
      cases is
    | true =>
      refine ⟨_,rfl,⟨rfl,fun _ => rfl⟩,fun not => ?_,fun _ => ⟨rfl,.inl ⟨rfl,rfl⟩⟩⟩
      rw [show ending (.cancelByPeer peer) r = true from ended] at not
      cases not

/-- The step of a statement that ends rows: the thread owes what it has seen there. -/
structure EndStep (i : Nat) (w : Write) (ran : Prop) (s u : State) : Prop where
  inv : Inv u
  others : ∀ j, j ≠ i → Kept j s u
  since : Since i s u
  seen : u.history.seen i = s.history.seen i
  owed : ∀ id h, (i,id,h) ∈ u.history.owed → (i,id,h) ∈ s.history.owed ∨
    (s.history.seen i id = some h ∧ ∃ r, s.state.store.getRow id = some r ∧ ending w r = true)
  failed : ¬ran → Kept i s u
  finishes : ran → Finishes i w s u.state

theorem end_step {w : Write} {r : Except VnidropError Bool}
    (is : (∃ id dst clear, w = .transitionTerminal id dst clear) ∨ ∃ peer, w = .cancelByPeer peer)
    (inv : Inv s) (h : (limited l start).exec s i call (.write w) c = some (r,u)) :
    EndStep i w (∃ changed, r = .ok changed) s u := by
  obtain ⟨minded,d,ran,rfl⟩ := exec_limited h
  have reading : c.fails = false → ∀ r ∈ s.state.store.transfers.rows, ending w r = true →
      r.authorizationSecretHandle = none ∨ s.history.seen i r.id = r.authorizationSecretHandle := by
    exact minded.2
  rcases Device.exec_write ran with ⟨⟨e,rfl⟩,rfl⟩ | ⟨changed,store,run,rfl,rfl⟩
  · have recorded : record s.history s.state i call (.write w) (.error e) = s.history := by
      rcases is with ⟨id,dst,clear,rfl⟩ | ⟨peer,rfl⟩ <;> rfl
    rw [recorded]
    exact ⟨inv,fun j _ => .refl j s,.refl i s,rfl,fun _ _ owed => .inl owed,fun _ => .refl i s,
      fun ran => absurd ran.choose_spec nofun⟩
  · have recorded : record s.history s.state i call (.write w) (.ok changed) =
        s.history.finish i s.state.store w := by
      rcases is with ⟨id,dst,clear,rfl⟩ | ⟨peer,rfl⟩ <;> rfl
    have finishes : Finishes i w s { s.state with store } := by
      rcases is with ⟨id,dst,clear,rfl⟩ | ⟨peer,rfl⟩
      · exact finishes_transition run
      · exact finishes_cancelByPeer run
    have went : c.fails = false := by
      cases fails : c.fails with
      | false => rfl
      | true => simp [Device.exec,fails] at ran
    rw [recorded]
    refine ⟨inv.finish finishes,fun j other => .finish finishes other,.finish finishes i,rfl,
      fun id h owed => ?_,fun not => absurd ⟨changed,rfl⟩ not,fun _ => finishes⟩
    refine (mem_finish.mp owed).imp_right ?_
    rintro ⟨_,r,here,ended,named⟩
    rcases reading went r (Table.find_mem here) ended with none | same
    · rw [none] at named
      cases named
    · exact ⟨by rw [← Table.find_key here,same,named],r,here,ended⟩

/-- The handle leaves custody, and no thread has it in hand any more. -/
theorem remove_step {handle : Handle} {r : Bool} (inv : Inv s)
    (h : (limited l start).exec s i call (.remove handle) c = some (r,u)) :
    Inv u ∧ (∀ j, j ≠ i → Kept j s u) ∧ Since i s u ∧ r = true ∧ u.state.custody handle = none ∧
      u.state.store = s.state.store ∧ u.history = s.history.settle i handle := by
  obtain ⟨minded,d,ran,rfl⟩ := exec_limited h
  have went : c.fails = false := minded.1 rfl
  simp only [Device.exec,went,Bool.false_eq_true,if_false] at ran
  cases ran
  have custody (h : Handle) : (s.state.keep handle none).custody h =
      if h = handle then none else s.state.custody h := Function.update_apply ..
  have since (j : Nat) : Since j s ⟨s.state.keep handle none,s.history.settle i handle⟩ := by
    refine ⟨fun _ h => h,fun _ h => h,fun h _ lost => ?_,fun _ h => h,fun _ r h => ⟨r,h,fun _ => rfl⟩,
      fun id h minting => ?_⟩
    · change (s.state.keep handle none).custody h = none
      rw [custody,lost]
      split <;> rfl
    · exact List.mem_of_mem_filter minting
  refine ⟨⟨inv.paired,inv.early,inv.closed,fun h held => ?_,inv.minted,inv.given,inv.alone,inv.drawn⟩,
    fun j other => ⟨since j,fun _ _ h => h,rfl,fun _ mine => ⟨mine,fun h => h⟩⟩,since i,rfl,?_,rfl,rfl⟩
  · change (s.state.keep handle none).custody h ≠ none at held
    rw [custody] at held
    split at held
    · exact absurd rfl held
    · rename_i other
      refine (inv.covered h held).imp_left ?_
      rintro ⟨j,id,minting⟩
      refine ⟨j,id,List.mem_filter.mpr ⟨minting,?_⟩⟩
      simp [other]
  · change (s.state.keep handle none).custody handle = none
    rw [custody,if_pos rfl]

theorem mem_release {h : History} {custody : Handle → Option Text} {id id' : TransferId} {j : Nat}
    {handle : Handle} : (j,id',handle) ∈ (h.release i custody id).owed ↔
      (j,id',handle) ∈ h.owed ∧ ¬(j = i ∧ id' = id ∧ custody handle = none) := by
  simp only [History.release,List.mem_filter,Bool.not_eq_true',Bool.and_eq_false_iff,
    decide_eq_false_iff_not,Option.isNone_eq_false_iff,Option.isSome_iff_ne_none]
  tauto

/-- A row that is over names no secret any more. -/
theorem clear_step {id : TransferId} {r : Except VnidropError Bool} (inv : Inv s) (ended : Ended id s)
    (h : (limited l start).exec s i call (.write (.clearAuthorization id)) c = some (r,u)) :
    Inv u ∧ (∀ j, j ≠ i → Kept j s u) ∧ Since i s u ∧ r = .ok true ∧
      u.history = s.history.release i s.state.custody id := by
  obtain ⟨minded,d,ran,rfl⟩ := exec_limited h
  have went : c.fails = false := minded.1 rfl
  rcases Device.exec_write ran with ⟨⟨e,rfl⟩,rfl⟩ | ⟨changed,store,run,rfl,rfl⟩
  · simp [Device.exec,went,Write.run] at ran
  · have done : changed = true := (Prod.mk.inj (Except.ok.inj run)).1.symm
    subst done
    have rows (id' : TransferId) : store.getRow id' = (s.state.store.getRow id').map fun r =>
        if id' = id then { r with blobTicket := none, authorizationSecretHandle := none } else r := by
      rw [run_getRow run id',Write.onRow]
      by_cases here : id' = id <;> simp [here]
    have recorded : record s.history s.state i call (.write (.clearAuthorization id)) (.ok true) =
        s.history.release i s.state.custody id := rfl
    have back {id' : TransferId} {r' : TargetedTransferRow} (here : store.getRow id' = some r') :
        ∃ r, s.state.store.getRow id' = some r ∧ r'.state = r.state ∧
          ((r'.authorizationSecretHandle = none ∧ r'.blobTicket = none) ∨ (id' ≠ id ∧ r' = r)) := by
      rw [rows id'] at here
      obtain ⟨r,was,rfl⟩ := Option.map_eq_some_iff.mp here
      by_cases same : id' = id
      · rw [if_pos same]
        exact ⟨r,was,rfl,.inl ⟨rfl,rfl⟩⟩
      · rw [if_neg same]
        exact ⟨r,was,rfl,.inr ⟨same,rfl⟩⟩
    have forth {id' : TransferId} {r : TargetedTransferRow} (was : s.state.store.getRow id' = some r) :
        ∃ r', store.getRow id' = some r' ∧ r'.state = r.state ∧ (r'.role = r.role ∧
          ∀ peer, Store.withPeer peer r' = Store.withPeer peer r) ∧ (id' ≠ id → r' = r) := by
      rw [rows id',was,Option.map_some]
      by_cases same : id' = id
      · rw [if_pos same]
        exact ⟨_,rfl,rfl,⟨rfl,fun _ => rfl⟩,absurd same⟩
      · rw [if_neg same]
        exact ⟨r,rfl,rfl,⟨rfl,fun _ => rfl⟩,fun _ => rfl⟩
    have since (j : Nat) : Since j s ⟨{ s.state with store },s.history.release i s.state.custody id⟩ := by
      refine ⟨fun _ h => h,fun _ h => h,fun _ _ h => h,fun id' ended => ?_,fun id' r was => ?_,
        fun _ _ h => h⟩
      · obtain ⟨r,was,terminal⟩ := ended
        obtain ⟨r',here,state,_⟩ := forth was
        exact ⟨r',here,state ▸ terminal⟩
      · obtain ⟨r',here,_,same,_⟩ := forth was
        exact ⟨r',here,same.2⟩
    rw [recorded]
    refine ⟨⟨fun id' r' here => ?_,fun id' r' here pre => ?_,fun id' r' h here terminal named => ?_,
      fun h held => ?_,fun id' r' h here named => ?_,inv.given,inv.alone,inv.drawn⟩,
      fun j other => ⟨since j,fun id' h owed => (mem_release.mp owed).1,rfl,fun id' mine => ?_⟩,
      since i,rfl,rfl⟩
    · obtain ⟨r,was,_,⟨handle,ticket⟩ | ⟨_,rfl⟩⟩ := back here
      · exact ⟨fun _ => ticket,fun _ => handle⟩
      · exact inv.paired id' r' was
    · obtain ⟨r,was,_,⟨handle,_⟩ | ⟨_,rfl⟩⟩ := back here
      · exact handle
      · exact inv.early id' r' was pre
    · obtain ⟨r,was,_,⟨handle,_⟩ | ⟨other,rfl⟩⟩ := back here
      · rw [handle] at named
        cases named
      · obtain ⟨j,owed⟩ := inv.closed id' r' h was terminal named
        exact ⟨j,mem_release.mpr ⟨owed,fun all => other all.2.1⟩⟩
    · rcases inv.covered h held with minting | ⟨id',r,was,named,live⟩ | ⟨j,id',owed⟩
      · exact .inl minting
      · have other : id' ≠ id := by
          rintro rfl
          obtain ⟨r₀,there,terminal⟩ := ended
          cases was.symm.trans there
          rw [live] at terminal
          cases terminal
        obtain ⟨r',here,_,_,same⟩ := forth was
        cases same other
        exact .inr (.inl ⟨id',r,here,named,live⟩)
      · exact .inr (.inr ⟨j,id',mem_release.mpr ⟨owed,fun all => held all.2.2⟩⟩)
    · obtain ⟨r,was,_,⟨handle,_⟩ | ⟨_,rfl⟩⟩ := back here
      · rw [handle] at named
        cases named
      · exact inv.minted id' r' h was named
    · refine ⟨mine,fun pending => ?_⟩
      obtain ⟨r,was,sends,state⟩ := pending
      obtain ⟨r',here,same,still,_⟩ := forth was
      exact ⟨r',here,still.1.trans sends,same ▸ state⟩

theorem mem_settle {h : History} {j : Nat} {id : TransferId} {handle handle' : Handle} :
    (j,id,handle') ∈ (h.settle i handle).minting ↔
      (j,id,handle') ∈ h.minting ∧ ¬(j = i ∧ handle' = handle) := by
  simp only [History.settle,List.mem_filter,Bool.not_eq_true',Bool.and_eq_false_iff,
    decide_eq_false_iff_not]
  tauto

/-- A secret is written, under a name that nobody has used. -/
theorem protect_step {auth : TargetedAuthorization} {r : Option Handle} (inv : Inv s)
    (h : (limited l start).exec s i call (.protect auth) c = some (r,u)) :
    Inv u ∧ (∀ j, j ≠ i → Kept j s u) ∧ (r = none → Kept i s u) ∧
    ∀ handle, r = some handle → (auth.transferId,handle) ∈ u.history.minted ∧
      (∀ id, u.history.owner id = s.history.owner id) ∧ u.state.store = s.state.store ∧
      (∀ id h, (i,id,h) ∈ u.history.minting → (i,id,h) ∈ s.history.minting ∨ h = handle) ∧
      u.history.owed = s.history.owed := by
  obtain ⟨_,d,ran,rfl⟩ := exec_limited h
  simp only [Device.exec] at ran
  split at ran
  · cases ran
    exact ⟨inv,fun j _ => .refl j _,fun _ => .refl i _,
      fun _ same => absurd same.symm (Option.some_ne_none _)⟩
  · split at ran
    · cases ran
    · rename_i fresh
      cases ran
      have recorded : record s.history s.state i call (.protect auth) (some c.number) =
          s.history.mint i auth.transferId c.number := rfl
      rw [recorded]
      have custody {h : Handle} (other : h ≠ c.number) :
          (s.state.keep c.number auth.authSecret).custody h = s.state.custody h :=
        Function.update_of_ne other ..
      have since {j : Nat} (other : j ≠ i) : Since j s
          ⟨{ s.state.keep c.number auth.authSecret with handles := c.number :: s.state.handles },
            s.history.mint i auth.transferId c.number⟩ := by
        refine ⟨fun _ h => List.mem_cons_of_mem _ h,fun _ h => List.mem_cons_of_mem _ h,
          fun h given lost => ?_,fun _ h => h,fun _ r h => ⟨r,h,fun _ => rfl⟩,fun id h minting => ?_⟩
        · change (s.state.keep c.number auth.authSecret).custody h = none
          rw [custody (fun same => fresh (same ▸ given))]
          exact lost
        · rcases List.mem_cons.mp minting with new | old
          · exact absurd (Prod.mk.inj new).1 other
          · exact old
      refine ⟨⟨inv.paired,inv.early,inv.closed,fun h held => ?_,fun id r h here named => ?_,
        fun id h minted => ?_,fun id id' h minted minted' => ?_,inv.drawn⟩,
        fun j other => ⟨since other,fun _ _ h => h,rfl,fun _ mine => ⟨mine,fun h => h⟩⟩,
        fun none => absurd none (Option.some_ne_none _),fun handle same => ?_⟩
      · by_cases same : h = c.number
        · subst same
          exact .inl ⟨i,auth.transferId,List.mem_cons_self⟩
        · change (s.state.keep c.number auth.authSecret).custody h ≠ none at held
          rw [custody same] at held
          refine (inv.covered h held).imp_left ?_
          rintro ⟨j,id,minting⟩
          exact ⟨j,id,List.mem_cons_of_mem _ minting⟩
      · exact List.mem_cons_of_mem _ (inv.minted id r h here named)
      · rcases List.mem_cons.mp minted with new | old
        · rw [(Prod.mk.inj new).2]
          exact List.mem_cons_self
        · exact List.mem_cons_of_mem _ (inv.given id h old)
      · rcases List.mem_cons.mp minted with new | old <;> rcases List.mem_cons.mp minted' with new' | old'
        · exact (Prod.mk.inj new).1.trans (Prod.mk.inj new').1.symm
        · rw [(Prod.mk.inj new).2] at old'
          exact absurd (inv.given id' _ old') fresh
        · rw [(Prod.mk.inj new').2] at old
          exact absurd (inv.given id _ old) fresh
        · exact inv.alone id id' h old old'
      · cases same
        refine ⟨List.mem_cons_self,fun _ => rfl,rfl,fun id h minting => ?_,rfl⟩
        rcases List.mem_cons.mp minting with new | old
        · exact .inr (Prod.mk.inj (Prod.mk.inj new).2).2
        · exact .inl old

/-- A row takes the secret over, one that has just been inserted or was waiting for it. -/
structure Stores (id : TransferId) (handle : Handle) (s : State) (d : Device) : Prop where
  custody : d.custody = s.state.custody
  handles : d.handles = s.state.handles
  drawn : d.drawn = s.state.drawn
  was : ∀ r, s.state.store.getRow id = some r → r.state.preapproval = true
  now : ∃ r, d.store.getRow id = some r ∧ r.authorizationSecretHandle = some handle ∧
    r.blobTicket ≠ none ∧ r.state = .approved ∧ ∀ r₀, s.state.store.getRow id = some r₀ →
      ∀ peer, Store.withPeer peer r = Store.withPeer peer r₀
  others : ∀ id', id' ≠ id → d.store.getRow id' = s.state.store.getRow id'

theorem stores_step {id : TransferId} {handle : Handle} {d : Device} (inv : Inv s)
    (stores : Stores id handle s d) (minted : (id,handle) ∈ s.history.minted)
    (mine : ∀ j, s.history.owner id = some j → Pending id s → j = i) :
    Inv ⟨d,s.history.settle i handle⟩ ∧ (∀ j, j ≠ i → Kept j s ⟨d,s.history.settle i handle⟩) ∧
      (∀ id' h, (i,id',h) ∈ (s.history.settle i handle).minting →
        (i,id',h) ∈ s.history.minting ∧ h ≠ handle) := by
  obtain ⟨now,here,named,ticket,state,peers⟩ := stores.now
  have since (j : Nat) : Since j s ⟨d,s.history.settle i handle⟩ := by
    refine ⟨fun h given => ?_,fun _ h => h,fun h _ lost => ?_,fun id' ended => ?_,fun id' r was => ?_,
      fun id' h minting => (mem_settle.mp minting).1⟩
    · rw [stores.handles]
      exact given
    · rw [stores.custody]
      exact lost
    · obtain ⟨r,was,terminal⟩ := ended
      by_cases same : id' = id
      · subst same
        have early := preapproval_live (stores.was r was)
        rw [terminal] at early
        cases early
      · exact ⟨r,(stores.others id' same).trans was,terminal⟩
    · by_cases same : id' = id
      · subst same
        exact ⟨now,here,peers r was⟩
      · exact ⟨r,(stores.others id' same).trans was,fun _ => rfl⟩
  refine ⟨⟨fun id' r there => ?_,fun id' r there pre => ?_,fun id' r h there terminal held => ?_,
    fun h held => ?_,fun id' r h there names => ?_,fun id' h minted => ?_,inv.alone,fun id' j owner => ?_⟩,
    fun j other => ⟨since j,fun _ _ h => h,rfl,fun id' owner => ⟨owner,fun pending => ?_⟩⟩,
    fun id' h minting => ?_⟩
  · by_cases same : id' = id
    · subst same
      cases there.symm.trans here
      rw [named]
      exact ⟨nofun,fun none => absurd none ticket⟩
    · exact inv.paired id' r ((stores.others id' same).symm.trans there)
  · by_cases same : id' = id
    · subst same
      cases there.symm.trans here
      rw [state] at pre
      cases pre
    · exact inv.early id' r ((stores.others id' same).symm.trans there) pre
  · by_cases same : id' = id
    · subst same
      cases there.symm.trans here
      rw [state] at terminal
      cases terminal
    · exact inv.closed id' r h ((stores.others id' same).symm.trans there) terminal held
  · rw [stores.custody] at held
    by_cases same : h = handle
    · subst same
      exact .inr (.inl ⟨id,now,here,named,by rw [state]; rfl⟩)
    · rcases inv.covered h held with ⟨j,id',minting⟩ | ⟨id',r,was,names,live⟩ | owed
      · exact .inl ⟨j,id',mem_settle.mpr ⟨minting,fun all => same all.2⟩⟩
      · have other : id' ≠ id := by
          rintro rfl
          rw [inv.early id' r was (stores.was r was)] at names
          cases names
        exact .inr (.inl ⟨id',r,(stores.others id' other).trans was,names,live⟩)
      · exact .inr (.inr owed)
  · by_cases same : id' = id
    · subst same
      cases there.symm.trans here
      cases named.symm.trans names
      exact minted
    · exact inv.minted id' r h ((stores.others id' same).symm.trans there) names
  · rw [stores.handles]
    exact inv.given id' h minted
  · rw [stores.drawn]
    exact inv.drawn id' j owner
  · have apart : id' ≠ id := by
      rintro rfl
      exact other (mine j owner pending)
    obtain ⟨r,was,rest⟩ := pending
    exact ⟨r,(stores.others id' apart).trans was,rest⟩
  · obtain ⟨before,not⟩ := mem_settle.mp minting
    exact ⟨before,fun same => not ⟨rfl,same⟩⟩

/-- A drawn identifier belongs to the thread that has drawn it. -/
theorem draw_step {id : TransferId} (inv : Inv s)
    (h : (limited l start).exec s i call .drawTransferId c = some (id,u)) :
    Inv u ∧ (∀ j, j ≠ i → Kept j s u) ∧ u.history.owner id = some i ∧
      u.history.minting = s.history.minting ∧ u.history.owed = s.history.owed := by
  obtain ⟨_,d,ran,rfl⟩ := exec_limited h
  simp only [Device.exec] at ran
  split at ran
  · cases ran
  · rename_i fresh
    cases ran
    have unused : c.number ∉ s.state.drawn :=
      fun drawn => fresh (.inl (List.mem_map_of_mem drawn))
    refine ⟨⟨inv.paired,inv.early,inv.closed,inv.covered,inv.minted,inv.given,inv.alone,
      fun id j owner => ?_⟩,fun j other => ⟨⟨fun _ h => h,fun _ h => h,fun _ _ h => h,fun _ h => h,
        fun _ r h => ⟨r,h,fun _ => rfl⟩,fun _ _ h => h⟩,fun _ _ h => h,rfl,fun id mine => ⟨?_,fun h => h⟩⟩,
      Function.update_self ..,rfl,rfl⟩
    · by_cases same : id = c.number
      · rw [same]
        exact List.mem_cons_self
      · refine List.mem_cons_of_mem _ (inv.drawn id j ?_)
        rw [← owner]
        exact (Function.update_of_ne same ..).symm
    · have apart : id ≠ c.number := by
        rintro rfl
        exact unused (inv.drawn _ j mine)
      exact (Function.update_of_ne apart ..).trans mine

end Rules

/-! The calls that end transfers. -/

section Ending

variable {l : Local} {start : Device} {s t u : State} {i : Nat} {call : Call}

/-- After the release of what a row was seen to name. -/
structure Cleaned (i : Nat) (row : TargetedTransferRow) (s u : State) : Prop where
  since : Since i s u
  seen : u.history.seen i = s.history.seen i
  owed : ∀ id h, (i,id,h) ∈ u.history.owed →
    (i,id,h) ∈ s.history.owed ∧ ¬(id = row.id ∧ row.authorizationSecretHandle = some h)

theorem Cleaned.after {row : TargetedTransferRow} (kept : Kept i s t) (cleaned : Cleaned i row t u) :
    Cleaned i row s u where
  since := kept.toSince.trans cleaned.since
  seen := cleaned.seen.trans kept.seen
  owed id h owed := (cleaned.owed id h owed).imp_left (kept.owed id h)

theorem safe_releaseSecret {row : TargetedTransferRow} (ended : Ended row.id s)
    (given : ∀ h, row.authorizationSecretHandle = some h → h ∈ s.state.handles) :
    Safely l start i call (releaseSecret row) (fun done u => done = true ∧ Cleaned i row s u) s := by
  cases held : row.authorizationSecretHandle with
  | none =>
    unfold releaseSecret
    rw [held]
    exact ⟨rfl,.refl i s,rfl,fun id h owed => ⟨owed,fun same => by
      rw [held] at same
      cases same.2⟩⟩
  | some handle =>
    rw [releaseSecret_held held]
    refine safe_perform fun t _ inv kept c r u _ performed => ?_
    obtain ⟨after,others,since,rfl,lost,_,settled⟩ := remove_step inv performed
    refine ⟨⟨after,others⟩,?_⟩
    have known : handle ∈ u.state.handles := since.handles _ (kept.handles _ (given handle held))
    refine safe_perform fun v _ inv' kept' c r w _ performed' => ?_
    have ended' : Ended row.id v := kept'.ended _ (since.ended _ (kept.ended _ ended))
    obtain ⟨after',others',since',rfl,released⟩ := clear_step inv' ended' performed'
    refine ⟨⟨after',others'⟩,rfl,?_,?_,fun id h owed => ?_⟩
    · exact kept.toSince.trans (since.trans (kept'.toSince.trans since'))
    · rw [released]
      refine kept'.seen.trans ?_
      rw [settled]
      exact kept.seen
    · rw [released] at owed
      obtain ⟨before,not⟩ := mem_release.mp owed
      have first := kept'.owed id h before
      rw [settled] at first
      refine ⟨kept.owed id h first,fun same => not ⟨rfl,same.1,?_⟩⟩
      cases held.symm.trans same.2
      exact kept'.gone handle known lost

/-- What precedes the release in a cleanup. -/
def takeDown (row : TargetedTransferRow) : Task Unit := do
  op (.deactivate row.id)
  op (.unregisterTransferHashes row.protocolTransferId)
  op (.removeMode row.protocolTransferId)
  op (.removeSessions row.protocolTransferId)

theorem cleanup_eq (row : TargetedTransferRow) : cleanup row = (takeDown row >>= fun _ =>
    if row.role = .sender then do
      if ← op (.deleteTag row.id) then releaseSecret row else return false
    else releaseSecret row) := rfl

theorem safe_cleanup {row : TargetedTransferRow} (is : ends call = true) (ended : Ended row.id s)
    (given : ∀ h, row.authorizationSecretHandle = some h → h ∈ s.state.handles) :
    Safely l start i call (cleanup row) (fun done u => done = true ∧ Cleaned i row s u) s := by
  rw [cleanup_eq]
  refine safe_bind (safe_mono (fun _ t kept => ?_) (safe_aside (p := takeDown row)
    ⟨rfl,fun _ => ⟨rfl,fun _ => ⟨rfl,fun _ => ⟨rfl,fun _ => trivial⟩⟩⟩⟩))
  split
  · refine safe_perform fun u _ inv kept' c r v _ performed => ?_
    obtain ⟨after,steps⟩ := mild_step (by rfl) inv performed
    refine ⟨⟨after,fun j _ => steps j⟩,?_⟩
    have deleted : r = true := by
      obtain ⟨minded,d,ran,_⟩ := exec_limited performed
      have went : c.fails = false := minded.1 is
      simp only [Device.exec,went,Bool.false_eq_true,if_false] at ran
      cases ran
      rfl
    subst deleted
    have all := kept.trans (kept'.trans (steps i))
    exact safe_mono (fun _ _ both => both.imp_right (Cleaned.after all))
      (safe_releaseSecret (all.ended _ ended) fun h named => all.handles h (given h named))
  · exact safe_mono (fun _ _ both => both.imp_right (Cleaned.after kept))
      (safe_releaseSecret (kept.ended _ ended) fun h named => kept.handles h (given h named))

/-- A row that the statement meets is over afterwards. -/
theorem ended_transition {id : TransferId} {dst : TargetedTransferState} {clear : Bool} {d : Device}
    (target : dst = .cancelled ∨ dst = .deleted)
    (finishes : Finishes i (.transitionTerminal id dst clear) s d) {h : History}
    {r : TargetedTransferRow} (was : s.state.store.getRow id = some r) : Ended id ⟨d,h⟩ := by
  obtain ⟨r',here,_,stays,ends⟩ := finishes.rows id r was
  refine ⟨r',here,?_⟩
  cases ended : ending (.transitionTerminal id dst clear) r with
  | true => exact (ends ended).1
  | false =>
    cases stays ended
    have stays : Store.leavesFor dst r.state = false := by simpa [ending,Table.find_key was] using ended
    revert stays
    rcases target with rfl | rfl <;> cases r.state <;> decide

/-- The thread has read the row, and remembers what it names. -/
structure Read (i : Nat) (row : TargetedTransferRow) (s : State) : Prop where
  present : ∃ r, s.state.store.getRow row.id = some r
  given : ∀ h, row.authorizationSecretHandle = some h → h ∈ s.state.handles
  seen : s.history.seen i row.id = row.authorizationSecretHandle

theorem Read.later {row : TargetedTransferRow} (read : Read i row s) (kept : Kept i s t) :
    Read i row t where
  present := by
    obtain ⟨r,here⟩ := read.present
    exact (kept.present row.id r here).imp fun _ both => both.1
  given h named := kept.handles h (read.given h named)
  seen := by
    rw [kept.seen]
    exact read.seen

/-- What the thread owes is what this row was seen to name. -/
structure Owes (i : Nat) (row : TargetedTransferRow) (s : State) : Prop where
  minting : ∀ id h, (i,id,h) ∉ s.history.minting
  owed : ∀ id h, (i,id,h) ∈ s.history.owed → id = row.id ∧ row.authorizationSecretHandle = some h

theorem Owes.later {row : TargetedTransferRow} (owes : Owes i row s) (kept : Kept i s t) :
    Owes i row t :=
  ⟨fun id h minting => owes.minting id h (kept.minting id h minting),
    fun id h owed => owes.owed id h (kept.owed id h owed)⟩

theorem Idle.owes (idle : Idle i s) (row : TargetedTransferRow) : Owes i row s :=
  ⟨idle.minting,fun id h owed => absurd owed (idle.owed id h)⟩

theorem safe_close {row : TargetedTransferRow} (is : ends call = true) (ended : Ended row.id s)
    (given : ∀ h, row.authorizationSecretHandle = some h → h ∈ s.state.handles) (owes : Owes i row s) :
    Safely l start i call (cleanup row) (fun done u => done = true ∧ Idle i u) s := by
  refine safe_mono (fun done u both => ⟨both.1,fun id h minting => ?_,fun id h owed => ?_⟩)
    (safe_cleanup is ended given)
  · exact owes.minting id h (both.2.since.minting id h minting)
  · obtain ⟨before,not⟩ := both.2.owed id h owed
    exact not (owes.owed id h before)

theorem safe_read {α : Type} {id : TransferId}
    {f : Except VnidropError (Option TargetedTransferRow) → Task α} {post : α → State → Prop}
    (is : ends call = true) (idle : Idle i s)
    (nothing : ∀ r u, (∀ row, r ≠ .ok (some row)) → Idle i u → Safely l start i call (f r) post u)
    (found : ∀ row u, row.id = id → Read i row u → Idle i u → u.state.store.getRow id = some row →
      Safely l start i call (f (.ok (some row))) post u) :
    Safely l start i call (op (.getRow id) >>= f) post s := by
  refine safe_perform fun t _ inv kept c r u _ performed => ?_
  obtain ⟨steps,⟨since,owed⟩,row,_⟩ := read_step is inv performed
  refine ⟨steps,?_⟩
  replace idle := idle.later kept
  have still : Idle i u := ⟨fun id h minting => idle.minting id h (since.minting id h minting),
    fun id h => by rw [owed]; exact idle.owed id h⟩
  rcases r with e | _ | row'
  · exact nothing _ u nofun still
  · exact nothing _ u nofun still
  · obtain ⟨here,given,seen⟩ := row row' rfl
    have key := Table.find_key here
    subst key
    refine found row' u rfl ⟨⟨row',here⟩,given,?_⟩ still here
    rw [seen]
    exact Function.update_self ..

/-- The end of a row that was read; what is left to do is its cleanup. -/
theorem safe_transition {α : Type} {row : TargetedTransferRow} {dst : TargetedTransferState}
    {clear : Bool} {f : Except VnidropError Bool → Task α} {post : α → State → Prop}
    (target : dst = .cancelled ∨ dst = .deleted) (idle : Idle i s) (read : Read i row s)
    (failed : ∀ e u, Idle i u → Safely l start i call (f (.error e)) post u)
    (done : ∀ changed u, Ended row.id u → Read i row u → Owes i row u → (changed = false → Idle i u) →
      Safely l start i call (f (.ok changed)) post u) :
    Safely l start i call (op (.write (.transitionTerminal row.id dst clear)) >>= f) post s := by
  refine safe_perform fun t _ inv kept c r u _ performed => ?_
  have step := end_step (.inl ⟨_,_,_,rfl⟩) inv performed
  refine ⟨⟨step.inv,step.others⟩,?_⟩
  replace idle := idle.later kept
  replace read := read.later kept
  cases r with
  | error e => exact failed e u (idle.later (step.failed fun ran => absurd ran.choose_spec nofun))
  | ok changed =>
    have finishes := step.finishes ⟨changed,rfl⟩
    obtain ⟨r,here⟩ := read.present
    have minting (id : TransferId) (h : Handle) : (i,id,h) ∉ u.history.minting :=
      fun minting => idle.minting id h (step.since.minting id h minting)
    have owed (id : TransferId) (h : Handle) (owed : (i,id,h) ∈ u.history.owed) : id = row.id ∧
        row.authorizationSecretHandle = some h ∧ ∃ r, t.state.store.getRow row.id = some r ∧
          Store.leavesFor dst r.state = true := by
      rcases step.owed id h owed with before | ⟨seen,r₀,there,ended⟩
      · exact absurd before (idle.owed id h)
      · simp only [ending,Bool.and_eq_true,decide_eq_true_eq] at ended
        obtain rfl : id = row.id := (Table.find_key there).symm.trans ended.1
        exact ⟨rfl,read.seen.symm.trans seen,r₀,there,ended.2⟩
    refine done changed u (ended_transition target finishes here) ⟨?_,?_,?_⟩
      ⟨minting,fun id h o => ⟨(owed id h o).1,(owed id h o).2.1⟩⟩ fun unchanged => ⟨minting,fun id h o => ?_⟩
    · exact (step.since.present row.id r here).imp fun _ both => both.1
    · exact fun h named => step.since.handles h (read.given h named)
    · rw [step.seen]
      exact read.seen
    · obtain ⟨_,_,r₀,there,leaves⟩ := owed id h o
      obtain ⟨_,d,ran,_⟩ := exec_limited performed
      rcases Device.exec_write ran with ⟨⟨e,same⟩,_⟩ | ⟨_,_,run,same,_⟩
      · cases same
      · cases same
        have flag := (transitionTerminal_ok run).2
        rw [there,Option.any_some,leaves,unchanged] at flag
        cases flag

theorem safe_cancelRow {row : TargetedTransferRow} (is : ends call = true) (idle : Idle i s)
    (read : Read i row s) (here : s.state.store.getRow row.id = some row) :
    Safely l start i call (cancelRow row) (fun _ => Idle i) s := by
  unfold cancelRow
  split
  · rename_i cancelled
    have ended : Ended row.id s := ⟨row,here,by rw [cancelled]; rfl⟩
    exact safe_mono (fun _ _ both => both.2) (safe_close is ended read.given (idle.owes row))
  · split
    · exact idle
    · refine safe_transition (.inl rfl) idle read (fun _ _ idle => idle) fun changed u ended read owes same => ?_
      cases changed with
      | false => exact same rfl
      | true => exact safe_mono (fun _ _ both => both.2) (safe_close is ended read.given owes)

theorem mild_discard (id : TransferId) : (discard id).All (mild call · = true) :=
  ⟨rfl,fun _ => ⟨rfl,fun _ => ⟨rfl,fun _ => trivial⟩⟩⟩

theorem safe_cancelFromPeer {remote : EndpointId} {id : TransferId} (is : ends call = true)
    (idle : Idle i s) : Safely l start i call (cancelFromPeer remote id) (fun _ => Idle i) s := by
  refine safe_read is idle (fun r u none idle => ?_) fun row u key read idle here => ?_
  · rcases r with e | _ | row
    · exact idle
    · refine safe_mild ⟨rfl,fun cleared => ?_⟩ idle
      cases cleared <;> exact trivial
    · exact absurd rfl (none row)
  · subst key
    change Safely l start i call (if isPeer row remote then cancelRow row else _) _ _
    split
    · exact safe_cancelRow is idle read here
    · exact idle

theorem safe_handleCancel {remote : EndpointId} {message : CancelTargetedOffer}
    (is : ends call = true) (idle : Idle i s) :
    Safely l start i call (handleCancel remote message) (fun _ => Idle i) s := by
  refine safe_bind (safe_mono (fun pending t kept => ?_) (safe_aside (Prog.all_perform (by rfl))))
  replace idle := idle.later kept
  cases pending with
  | some pending =>
    refine safe_mild (p := cancelPending remote pending message.transferId >>= _)
      (Prog.all_bind ?_ fun _ => trivial) idle
    unfold cancelPending
    repeat' first
      | exact trivial
      | exact Prog.all_perform (by rfl)
      | refine Prog.all_bind ?_ fun _ => ?_
      | split
  | none =>
    change Safely l start i call (if _ then cancelFromPeer remote message.transferId >>= _ else _) _ _
    split
    · exact safe_bind (safe_mono (fun _ _ idle => idle) (safe_cancelFromPeer is idle))
    · exact idle

theorem safe_terminateLocal {id : TransferId} {state : TargetedTransferState} (is : ends call = true)
    (target : state = .cancelled ∨ state = .deleted) (idle : Idle i s) :
    Safely l start i call (terminateLocal id state) (fun _ => Idle i) s := by
  have cleaned (row : TargetedTransferRow) (changed : Bool) {v : State} (ended : Ended row.id v)
      (read : Read i row v) (owes : Owes i row v) : Safely l start i call (do
        discard id
        if ← cleanup row then return .ok (some (row,changed)) else return .error Device.unavailable)
        (fun (_ : Except VnidropError (Option (TargetedTransferRow × Bool))) => Idle i) v := by
    refine safe_bind (safe_mono (fun _ w kept => ?_) (safe_aside (mild_discard id)))
    refine safe_bind (safe_mono (fun done x both => ?_) (safe_close is (kept.ended _ ended)
      (read.later kept).given (owes.later kept)))
    cases done <;> exact both.2
  refine safe_read is idle (fun r u none idle => ?_) fun row u key read idle here => ?_
  · rcases r with e | _ | row
    · exact idle
    · refine safe_mild (p := discard id >>= _) (Prog.all_bind (mild_discard id) fun _ => ?_) idle
      refine ⟨rfl,fun cleared => ?_⟩
      cases cleared <;> exact trivial
    · exact absurd rfl (none row)
  · subst key
    change Safely l start i call (if _ then (if _ then _ else _) else _) _ _
    split
    · rename_i same
      have ended : Ended row.id u := ⟨row,here,by rw [same]; rcases target with rfl | rfl <;> rfl⟩
      split
      · exact safe_mild (Prog.all_bind (mild_discard _) fun _ => trivial) idle
      · exact cleaned row false ended read (idle.owes row)
    · exact safe_transition target idle read (fun _ _ idle => idle)
        fun changed v ended read owes _ => cleaned row changed ended read owes

/-- The row under `id` is one with the peer. -/
def With (peer : EndpointId) (id : TransferId) (s : State) : Prop :=
  ∃ r, s.state.store.getRow id = some r ∧ Store.withPeer peer r = true

theorem With.later {peer : EndpointId} {id : TransferId} (shared : With peer id s)
    (since : Since i s t) : With peer id t := by
  obtain ⟨r,here,same⟩ := shared
  obtain ⟨r',there,peers⟩ := since.present id r here
  exact ⟨r',there,(peers peer).trans same⟩

/-- A snapshot of a row with the peer. -/
structure Listed (peer : EndpointId) (row : TargetedTransferRow) (s : State) : Prop where
  shared : With peer row.id s
  given : ∀ h, row.authorizationSecretHandle = some h → h ∈ s.state.handles

theorem Listed.later {peer : EndpointId} {row : TargetedTransferRow} (listed : Listed peer row s)
    (since : Since i s t) : Listed peer row t :=
  ⟨listed.shared.later since,fun h named => since.handles h (listed.given h named)⟩

/-- What the reads of a sweep tell. -/
structure Swept (i : Nat) (peer : EndpointId) (rows : List TargetedTransferRow) (s u : State) : Prop where
  listed : ∀ row ∈ rows, Listed peer row u
  seen : ∀ id h, u.history.seen i id = some h →
    s.history.seen i id = some h ∨ ∃ row ∈ rows, row.id = id ∧ row.authorizationSecretHandle = some h

theorem safe_rowsOf {peer : EndpointId} {ids : List TransferId} (is : ends call = true)
    (idle : Idle i s) (shared : ∀ id ∈ ids, With peer id s) :
    Safely l start i call (rowsOf ids)
      (fun r u => Idle i u ∧ Since i s u ∧ ∀ rows, r = .ok rows → Swept i peer rows s u) s := by
  induction ids generalizing s with
  | nil =>
    refine ⟨idle,.refl i s,fun rows same => ?_⟩
    cases same
    exact ⟨nofun,fun _ _ seen => .inl seen⟩
  | cons id ids ih =>
    refine safe_perform fun t _ inv kept c r u _ performed => ?_
    obtain ⟨steps,⟨since,owed⟩,row,other⟩ := read_step is inv performed
    refine ⟨steps,?_⟩
    have still : Idle i u :=
      ⟨fun id h minting => (idle.later kept).minting id h (since.minting id h minting),
        fun id h => by rw [owed]; exact (idle.later kept).owed id h⟩
    obtain ⟨here,others⟩ := List.forall_mem_cons.mp shared
    have first := kept.toSince.trans since
    have later : ∀ id ∈ ids, With peer id u := fun id member => (others id member).later first
    cases r with
    | error e => exact ⟨still,first,nofun⟩
    | ok row' =>
      change Safely l start i call (rowsOf ids >>= _) _ _
      refine safe_bind (safe_mono (fun found v after => ?_) (ih still later))
      obtain ⟨idle,since',tail⟩ := after
      cases found with
      | error e => exact ⟨idle,first.trans since',nofun⟩
      | ok rows =>
        refine ⟨idle,first.trans since',fun all same => ?_⟩
        cases same
        replace tail := tail rows rfl
        cases row' with
        | none =>
          refine ⟨tail.listed,fun id h seen => (tail.seen id h seen).imp_left fun before => ?_⟩
          rw [other nofun,kept.seen] at before
          exact before
        | some row' =>
          obtain ⟨found,given,seen⟩ := row row' rfl
          have key := Table.find_key found
          have mine : Listed peer row' v := by
            refine Listed.later (s := u) ⟨?_,given⟩ since'
            rw [key]
            exact here.later first
          refine ⟨List.forall_mem_cons.mpr ⟨mine,tail.listed⟩,fun id' h now => ?_⟩
          rcases tail.seen id' h now with before | ⟨row'',member,rest⟩
          · rw [seen,Function.update_apply] at before
            split at before
            · rename_i same
              exact .inr ⟨row',List.mem_cons_self,key.trans same.symm,before⟩
            · rw [kept.seen] at before
              exact .inl before
          · exact .inr ⟨row'',List.mem_cons_of_mem _ member,rest⟩

/-- What the thread owes is what these rows were seen to name. -/
structure OwesAll (i : Nat) (rows : List TargetedTransferRow) (s : State) : Prop where
  minting : ∀ id h, (i,id,h) ∉ s.history.minting
  owed : ∀ id h, (i,id,h) ∈ s.history.owed →
    ∃ row ∈ rows, row.id = id ∧ row.authorizationSecretHandle = some h

theorem safe_cleanupEach {rows : List TargetedTransferRow} (is : ends call = true)
    (ended : ∀ row ∈ rows, Ended row.id s)
    (given : ∀ row ∈ rows, ∀ h, row.authorizationSecretHandle = some h → h ∈ s.state.handles)
    (owes : OwesAll i rows s) : Safely l start i call (cleanupEach rows) (fun _ => Idle i) s := by
  induction rows generalizing s with
  | nil =>
    refine ⟨owes.minting,fun id h owed => ?_⟩
    obtain ⟨_,none,_⟩ := owes.owed id h owed
    cases none
  | cons row rows ih =>
    obtain ⟨first,others⟩ := List.forall_mem_cons.mp ended
    obtain ⟨known,known'⟩ := List.forall_mem_cons.mp given
    refine safe_bind (safe_mono (fun done u both => ?_) (safe_cleanup is first known))
    obtain ⟨rfl,cleaned⟩ := both
    refine ih (fun row' member => cleaned.since.ended _ (others row' member))
      (fun row' member h named => cleaned.since.handles h (known' row' member h named))
      ⟨fun id h minting => owes.minting id h (cleaned.since.minting id h minting),fun id h owed => ?_⟩
    obtain ⟨before,not⟩ := cleaned.owed id h owed
    obtain ⟨row',member,same,named⟩ := owes.owed id h before
    rcases List.mem_cons.mp member with rfl | member
    · exact absurd ⟨same.symm,named⟩ not
    · exact ⟨row',member,same,named⟩

theorem mild_discardEach (ids : List TransferId) : (discardEach ids).All (mild call · = true) := by
  induction ids with
  | nil => exact trivial
  | cons id ids ih => exact Prog.all_bind (mild_discard id) fun _ => ih

theorem safe_terminatePeer {peer : EndpointId} (is : ends call = true) (idle : Idle i s)
    (fresh : ∀ id, s.history.seen i id = none) :
    Safely l start i call (terminatePeer peer) (fun _ => Idle i) s := by
  refine safe_bind (safe_mono (fun pending t kept => ?_) (safe_aside (Prog.all_perform (by rfl))))
  replace idle := idle.later kept
  refine safe_bind (safe_mono (fun _ t' kept' => ?_) (safe_aside (mild_discardEach pending)))
  replace idle := idle.later kept'
  refine safe_perform fun u _ inv kept'' c r v _ performed => ?_
  obtain ⟨after,steps⟩ := mild_step (by rfl) inv performed
  refine ⟨⟨after,fun j _ => steps j⟩,?_⟩
  replace idle := idle.later (kept''.trans (steps i))
  have unseen (id : TransferId) : v.history.seen i id = none := by
    rw [(kept.trans (kept'.trans (kept''.trans (steps i)))).seen]
    exact fresh id
  obtain ⟨_,_,ran,rfl⟩ := exec_limited performed
  obtain rfl := Device.exec_reads (by rfl) ran
  cases r with
  | error e => exact idle
  | ok ids =>
    have shared : ∀ id ∈ ids, With peer id u := by
      intro id member
      rw [Device.exec_idsForPeer ran] at member
      obtain ⟨r,selected,rfl⟩ := List.mem_map.mp member
      obtain ⟨inside,shared⟩ := List.mem_filter.mp selected
      exact ⟨r,Table.find_of_mem inside,shared⟩
    change Safely l start i call (rowsOf ids >>= _) _ _
    refine safe_bind (safe_mono (fun found w after => ?_) (safe_rowsOf is idle shared))
    obtain ⟨idle,_,swept⟩ := after
    cases found with
    | error e => exact idle
    | ok rows =>
      replace swept := swept rows rfl
      refine safe_perform fun x _ inv kept c r y _ performed => ?_
      have step := end_step (.inr ⟨_,rfl⟩) inv performed
      refine ⟨⟨step.inv,step.others⟩,?_⟩
      replace idle := idle.later kept
      cases r with
      | error e => exact idle.later (step.failed fun ran => absurd ran.choose_spec nofun)
      | ok changed =>
        have finishes := step.finishes ⟨changed,rfl⟩
        refine safe_cleanupEach is (fun row member => ?_) (fun row member h named => ?_)
          ⟨fun id h minting => idle.minting id h (step.since.minting id h minting),fun id h owed => ?_⟩
        · obtain ⟨r,here,shared⟩ := (swept.listed row member).shared.later kept.toSince
          obtain ⟨r',there,_,stays,ends⟩ := finishes.rows row.id r here
          refine ⟨r',there,?_⟩
          cases ended : ending (.cancelByPeer peer) r with
          | true => exact (ends ended).1
          | false =>
            cases stays ended
            simpa [ending,shared] using ended
        · exact step.since.handles h (kept.handles h ((swept.listed row member).given h named))
        · rcases step.owed id h owed with before | ⟨seen,_⟩
          · exact absurd before (idle.owed id h)
          · rw [kept.seen] at seen
            rcases swept.seen id h seen with before | named
            · rw [unseen id] at before
              cases before
            · exact named

end Ending

/-! The calls that approve transfers. -/

section Approving

variable {l : Local} {start : Device} {s t u : State} {i : Nat} {call : Call}

/-- The thread has written one secret, which no row has taken over yet. -/
structure Holds (i : Nat) (id : TransferId) (handle : Handle) (s : State) : Prop where
  minting : ∀ id' h, (i,id',h) ∈ s.history.minting → h = handle
  owed : ∀ id' h, (i,id',h) ∉ s.history.owed
  minted : (id,handle) ∈ s.history.minted

theorem Holds.later {id : TransferId} {handle : Handle} (holds : Holds i id handle s)
    (kept : Kept i s t) : Holds i id handle t :=
  ⟨fun id' h minting => holds.minting id' h (kept.minting id' h minting),
    fun id' h owed => holds.owed id' h (kept.owed id' h owed),kept.minted _ holds.minted⟩

/-- The secret is settled, in a row or out of custody. -/
theorem Holds.settled {id : TransferId} {handle : Handle} (holds : Holds i id handle s)
    (settled : u.history = s.history.settle i handle) : Idle i u := by
  constructor
  · intro id' h minting
    rw [settled] at minting
    obtain ⟨before,not⟩ := mem_settle.mp minting
    exact not ⟨rfl,holds.minting id' h before⟩
  · intro id' h owed
    rw [settled] at owed
    exact holds.owed id' h owed

theorem Idle.holds {id : TransferId} {handle : Handle} (idle : Idle i s)
    (minting : ∀ id' h, (i,id',h) ∈ u.history.minting → (i,id',h) ∈ s.history.minting ∨ h = handle)
    (owed : u.history.owed = s.history.owed) (minted : (id,handle) ∈ u.history.minted) :
    Holds i id handle u :=
  ⟨fun id' h now => (minting id' h now).resolve_left (idle.minting id' h),
    fun id' h now => idle.owed id' h (owed ▸ now),minted⟩

theorem stores_persist {auth : TargetedAuthorization} {handle : Handle} {changed : Bool}
    {now : Millis} {store : Store}
    (run : (Write.persistReceiverAuthorization auth handle).run s.state.store now = .ok (changed,store)) :
    s.state.store.getRow auth.transferId = none ∧
      Stores auth.transferId handle s { s.state with store } := by
  have rows (id : TransferId) := run_getRow run id
  simp only [Write.onRow] at rows
  obtain ⟨_,persisted,same⟩ := except_map_ok run
  cases same
  have absent := (persistReceiver_ok persisted).1
  refine ⟨absent,rfl,rfl,rfl,fun r was => ?_,⟨Store.receiverRow auth handle now,?_,rfl,Option.some_ne_none _,rfl,fun r was => ?_⟩,
    fun id other => ?_⟩
  · rw [absent] at was
    cases was
  · exact (rows auth.transferId).trans (if_pos rfl)
  · rw [absent] at was
    cases was
  · exact (rows id).trans (if_neg other)

theorem stores_finalize {id : TransferId} {ticket : Text} {handle : Handle} {changed : Bool}
    {now : Millis} {store : Store}
    (run : (Write.finalizeSenderAuthorization id ticket handle).run s.state.store now =
      .ok (changed,store)) : Stores id handle s { s.state with store } := by
  have rows (id' : TransferId) := run_getRow run id'
  simp only [Write.onRow] at rows
  obtain ⟨_,finalized,same⟩ := except_map_ok run
  cases same
  obtain ⟨r,here,sends,state⟩ := finalize_ok finalized
  refine ⟨rfl,rfl,rfl,fun r' was => ?_,?_,fun id' other => ?_⟩
  · cases was.symm.trans here
    rw [state]
    rfl
  · change ∃ r', store.getRow id = some r' ∧ _
    rw [rows id,if_pos rfl,here,Option.map_some,if_pos (by simp [sends,state])]
    refine ⟨_,rfl,rfl,Option.some_ne_none _,rfl,fun r₀ was peer => ?_⟩
    cases was
    rfl
  · exact (rows id').trans (if_neg other)

/-- The step of a statement that puts the secret into a row. -/
structure StoreStep (i : Nat) (r : Except VnidropError Bool) (handle : Handle) (s u : State) : Prop where
  error : ∀ e, r = .error e → Inv u ∧ ∀ j, Kept j s u
  ok : ∀ changed, r = .ok changed → (Inv u ∧ ∀ j, j ≠ i → Kept j s u) ∧
    u.history = s.history.settle i handle

theorem persist_step {c : Choice} {auth : TargetedAuthorization} {handle : Handle}
    {r : Except VnidropError Bool} (inv : Inv s) (minted : (auth.transferId,handle) ∈ s.history.minted)
    (h : (limited l start).exec s i call (.write (.persistReceiverAuthorization auth handle)) c =
      some (r,u)) : StoreStep i r handle s u := by
  obtain ⟨_,d,ran,rfl⟩ := exec_limited h
  rcases Device.exec_write ran with ⟨⟨e,rfl⟩,rfl⟩ | ⟨changed,store,run,rfl,rfl⟩
  · exact ⟨fun _ _ => ⟨inv,fun j => .refl j s⟩,nofun⟩
  · obtain ⟨absent,stores⟩ := stores_persist run
    have steps := stores_step (i := i) inv stores minted fun j _ pending => by
      obtain ⟨r,here,_⟩ := pending
      rw [absent] at here
      cases here
    exact ⟨nofun,fun _ _ => ⟨⟨steps.1,steps.2.1⟩,rfl⟩⟩

theorem finalize_step {c : Choice} {id : TransferId} {ticket : Text} {handle : Handle}
    {r : Except VnidropError Bool} (inv : Inv s) (minted : (id,handle) ∈ s.history.minted)
    (mine : s.history.owner id = some i)
    (h : (limited l start).exec s i call (.write (.finalizeSenderAuthorization id ticket handle)) c =
      some (r,u)) : StoreStep i r handle s u := by
  obtain ⟨_,d,ran,rfl⟩ := exec_limited h
  rcases Device.exec_write ran with ⟨⟨e,rfl⟩,rfl⟩ | ⟨changed,store,run,rfl,rfl⟩
  · exact ⟨fun _ _ => ⟨inv,fun j => .refl j s⟩,nofun⟩
  · have steps := stores_step (i := i) inv (stores_finalize run) minted fun j owner _ =>
      (Option.some.inj (mine.symm.trans owner)).symm
    exact ⟨nofun,fun _ _ => ⟨⟨steps.1,steps.2.1⟩,rfl⟩⟩

theorem mild_redeliverReceiver (row : TargetedTransferRow) (auth : TargetedAuthorization) :
    (redeliverReceiver row auth).All (mild call · = true) := by
  unfold redeliverReceiver
  repeat' first
    | exact trivial
    | exact Prog.all_perform (by rfl)
    | refine Prog.all_bind ?_ fun _ => ?_
    | split

theorem safe_storeReceiver {auth : TargetedAuthorization} (idle : Idle i s) :
    Safely l start i call (storeReceiver auth) (fun _ => Idle i) s := by
  refine safe_bind (safe_mono (fun collides t kept => ?_) (safe_aside (Prog.all_perform (by rfl))))
  replace idle := idle.later kept
  cases collides with
  | true => exact idle
  | false =>
    refine safe_perform fun v _ inv kept c r w _ performed => ?_
    obtain ⟨after,others,none,some⟩ := protect_step inv performed
    refine ⟨⟨after,others⟩,?_⟩
    replace idle := idle.later kept
    cases r with
    | none => exact idle.later (none rfl)
    | some handle =>
      obtain ⟨minted,_,_,minting,owed⟩ := some handle rfl
      have holds := idle.holds minting owed minted
      refine safe_perform fun x _ inv kept c r y _ performed => ?_
      have step := persist_step inv (kept.minted _ holds.minted) performed
      cases r with
      | ok created =>
        obtain ⟨both,settled⟩ := step.ok created rfl
        exact ⟨both,(holds.later kept).settled settled⟩
      | error e =>
        obtain ⟨after,steps⟩ := step.error e rfl
        refine ⟨⟨after,fun j _ => steps j⟩,?_⟩
        replace holds := holds.later (kept.trans (steps i))
        refine safe_perform fun z _ inv kept c r w _ performed => ?_
        obtain ⟨after,others,_,_,_,_,settled⟩ := remove_step inv performed
        exact ⟨⟨after,others⟩,(holds.later kept).settled settled⟩

theorem safe_persistReceiver {auth : TargetedAuthorization} (is : ends call = false) (idle : Idle i s) :
    Safely l start i call (persistReceiver auth) (fun _ => Idle i) s := by
  refine safe_bind (safe_mono (fun row t kept => ?_)
    (safe_aside (Prog.all_perform (by rw [mild,is]; rfl))))
  replace idle := idle.later kept
  rcases row with e | _ | row
  · exact idle
  · exact safe_storeReceiver idle
  · exact safe_mild (mild_redeliverReceiver row auth) idle

theorem safe_handleAuthorization {remote : EndpointId} {delivery : DeliverTargetedAuthorization}
    (is : ends call = false) (idle : Idle i s) :
    Safely l start i call (handleAuthorization l remote delivery) (fun _ => Idle i) s := by
  refine safe_bind (safe_mono (fun saved t kept => ?_) (safe_aside (Prog.all_perform (by rfl))))
  replace idle := idle.later kept
  cases saved with
  | false => exact idle
  | true =>
    obtain ⟨id,authorization⟩ := delivery
    cases authorization with
    | none => exact idle
    | some auth =>
      change Safely l start i call (if deliverable l remote id auth then persistReceiver auth >>= _
        else _) _ _
      split
      · refine safe_bind (safe_mono (fun created t idle => ?_) (safe_persistReceiver is idle))
        cases created with
        | error e => exact idle
        | ok created =>
          refine safe_mild (p := deliverAuthorization id auth >>= _) (Prog.all_bind ?_ fun _ => trivial) idle
          repeat' first
            | exact trivial
            | exact Prog.all_perform (by rfl)
            | refine Prog.all_bind ?_ fun _ => ?_
            | split
      · exact idle

/-- The transfer is this thread's, and not approved. -/
structure Mine (i : Nat) (id : TransferId) (s : State) : Prop where
  owner : s.history.owner id = some i
  pending : Pending id s

theorem Mine.later {id : TransferId} (mine : Mine i id s) (kept : Kept i s t) : Mine i id t :=
  ⟨(kept.owner id mine.owner).1,(kept.owner id mine.owner).2 mine.pending⟩

/-- Nothing in hand, and a transfer that can still fail. -/
structure Sends (i : Nat) (id : TransferId) (s : State) : Prop where
  idle : Idle i s
  mine : Mine i id s

theorem Sends.later {id : TransferId} (sends : Sends i id s) (kept : Kept i s t) : Sends i id t :=
  ⟨sends.idle.later kept,sends.mine.later kept⟩

theorem mild_teardown (protocolId : Nat) (id : TransferId) :
    (teardownTargetedPayload protocolId id).All (mild call · = true) :=
  ⟨rfl,fun _ => ⟨rfl,fun _ => ⟨rfl,fun _ => ⟨rfl,fun _ => trivial⟩⟩⟩⟩

/-- A transfer that is not approved fails without leaving a secret. -/
theorem safe_failPending {id : TransferId} (is : ends call = false) (sends : Sends i id s) :
    Safely l start i call (setStateFromAny id .failed) (fun _ => Idle i) s := by
  refine safe_perform fun t _ inv kept c r u _ performed => ?_
  obtain ⟨after,steps⟩ := mild_step (by rw [mild,is]; rfl) inv performed
  refine ⟨⟨after,fun j _ => steps j⟩,?_⟩
  replace sends := sends.later kept
  have idle := sends.idle.later (steps i)
  cases r with
  | error e => exact idle
  | ok row =>
    obtain ⟨_,d,ran,_⟩ := exec_limited performed
    cases outcome : Store.setStateFromAnyRead row .failed with
    | error e =>
      simp only [outcome]
      exact idle
    | ok src =>
      cases src with
      | none =>
        simp only [outcome]
        exact idle
      | some src =>
        obtain ⟨r,rfl,rfl,live⟩ := readFailed outcome
        obtain ⟨r',here,_,state⟩ := sends.mine.pending
        cases (Device.exec_getRow ran).symm.trans here
        have early : r.state.preapproval = true :=
          state.resolve_right fun terminal => by rw [terminal] at live; cases live
        simp only [outcome]
        refine safe_mild (p := write (.updateState id r.state .failed) >>= _)
          (Prog.all_bind (Prog.all_perform ?_) fun answer => ?_) idle
        · simp [mild,mildWrite,early,terminal]
        · cases answer <;> exact trivial

theorem safe_abandonApproval {id : TransferId} (is : ends call = false) (sends : Sends i id s) :
    Safely l start i call (abandonApproval l id) (fun _ => Idle i) s :=
  safe_bind (safe_mono (fun _ _ idle => safe_mild (mild_teardown _ id) idle) (safe_failPending is sends))

theorem safe_protectSender (auth : TargetedAuthorization) (sends : Sends i auth.transferId s) :
    Safely l start i call (protectSender auth)
      (fun ok u => Idle i u ∧ (ok = false → Sends i auth.transferId u)) s := by
  refine safe_perform fun t _ inv kept c r u _ performed => ?_
  obtain ⟨after,others,none,some⟩ := protect_step inv performed
  refine ⟨⟨after,others⟩,?_⟩
  replace sends := sends.later kept
  cases r with
  | none =>
    have still := sends.later (none rfl)
    exact ⟨still.idle,fun _ => still⟩
  | some handle =>
    obtain ⟨minted,owner,store,minting,owed⟩ := some handle rfl
    have holds := sends.idle.holds minting owed minted
    have mine : Mine i auth.transferId u :=
      ⟨(owner _).trans sends.mine.owner,by rw [Pending,store]; exact sends.mine.pending⟩
    refine safe_perform fun v _ inv kept c r w _ performed => ?_
    have step := finalize_step inv (kept.minted _ holds.minted) (mine.later kept).owner performed
    cases r with
    | ok changed =>
      obtain ⟨both,settled⟩ := step.ok changed rfl
      exact ⟨both,(holds.later kept).settled settled,nofun⟩
    | error e =>
      obtain ⟨after,steps⟩ := step.error e rfl
      refine ⟨⟨after,fun j _ => steps j⟩,?_⟩
      replace holds := holds.later (kept.trans (steps i))
      replace mine := mine.later (kept.trans (steps i))
      refine safe_perform fun x _ inv kept c r y _ performed => ?_
      obtain ⟨after,others,_,_,_,store,settled⟩ := remove_step inv performed
      replace mine := mine.later kept
      have idle := (holds.later kept).settled settled
      refine ⟨⟨after,others⟩,idle,fun _ => ⟨idle,by rw [settled]; exact mine.owner,?_⟩⟩
      rw [Pending,store]
      exact mine.pending

theorem safe_approve {p : Payload} {id : TransferId} (is : ends call = false) (sends : Sends i id s) :
    Safely l start i call (approve l p id) (fun _ => Idle i) s := by
  refine safe_bind (safe_mono (fun _ t kept => ?_) (safe_aside (Prog.all_perform (by rfl))))
  replace sends := sends.later kept
  refine safe_bind (safe_mono (fun issued t kept => ?_) (safe_aside (Prog.all_perform (by rfl))))
  replace sends := sends.later kept
  cases issued with
  | false => exact safe_abandonApproval is sends
  | true =>
    refine safe_bind (safe_mono (fun secret t kept => ?_) (safe_aside (Prog.all_perform (by rfl))))
    replace sends := sends.later kept
    refine safe_bind (safe_mono (fun stored t both => ?_)
      (safe_protectSender (authorizationOf l p id secret) sends))
    cases stored with
    | true => exact both.1
    | false => exact safe_abandonApproval is (both.2 rfl)

theorem mild_abandonOffer {id : TransferId} {src dst : TargetedTransferState}
    (is : mildWrite (.setState id src dst) = true) : (abandonOffer l id src dst).All (mild call · = true) :=
  Prog.all_bind (Prog.all_perform is) fun _ => mild_teardown _ id

theorem safe_negotiate {p : Payload} {id : TransferId} (is : ends call = false) (sends : Sends i id s) :
    Safely l start i call (negotiate l p id) (fun _ => Idle i) s := by
  refine safe_bind (safe_mono (fun response t kept => ?_)
    (safe_aside (Prog.all_bind (Prog.all_perform (by rfl)) fun _ => Prog.all_perform (by rfl))))
  replace sends := sends.later kept
  rcases response with _ | (_ | _ | _) | _ | _ | _ | _
  case some.offer.accepted => exact safe_approve is sends
  all_goals exact safe_mild (mild_abandonOffer (by rfl)) sends.idle

theorem safe_continue {p : Payload} {id : TransferId} (is : ends call = false) (sends : Sends i id s) :
    Safely l start i call (continueTargetedTransfer l p id) (fun _ => Idle i) s := by
  refine safe_bind (safe_mono (fun reachable t kept => ?_) (safe_aside (Prog.all_perform (by rfl))))
  replace sends := sends.later kept
  cases reachable with
  | false => exact safe_mild (mild_abandonOffer (by rfl)) sends.idle
  | true =>
    refine safe_bind (safe_mono (fun answered t kept => ?_) (safe_aside (Prog.all_perform (by rfl))))
    replace sends := sends.later kept
    cases answered with
    | false => exact safe_mild (mild_abandonOffer (by rfl)) sends.idle
    | true =>
      refine safe_bind (safe_mono (fun proved t kept => ?_) (safe_aside (Prog.all_perform (by rfl))))
      replace sends := sends.later kept
      cases proved with
      | false => exact safe_mild (mild_abandonOffer (by rfl)) sends.idle
      | true =>
        refine safe_bind (safe_mono (fun offered t kept => ?_) (safe_aside (Prog.all_perform (by rfl))))
        replace sends := sends.later kept
        cases offered with
        | error e => exact safe_mild (mild_teardown _ id) sends.idle
        | ok changed => exact safe_negotiate is sends

/-- A thread that has drawn an identifier, and has nothing in hand. -/
structure Drew (i : Nat) (id : TransferId) (s : State) : Prop where
  idle : Idle i s
  owner : s.history.owner id = some i

theorem Drew.later {id : TransferId} (drew : Drew i id s) (kept : Kept i s t) : Drew i id t :=
  ⟨drew.idle.later kept,(kept.owner id drew.owner).1⟩

theorem safe_registerSender (row : TargetedTransferRow)
    (bare : row.authorizationSecretHandle = none ∧ row.blobTicket = none) (sends : row.role = .sender)
    (early : row.state.preapproval = true) (drew : Drew i row.id s) :
    Safely l start i call (registerSender row)
      (fun ok u => Idle i u ∧ (ok = true → Mine i row.id u)) s := by
  refine safe_perform fun t _ inv kept c r u _ performed => ?_
  have is : mild call (.write (.insert row)) = true := by simp [mild,mildWrite,bare.1,bare.2]
  obtain ⟨after,steps⟩ := mild_step is inv performed
  refine ⟨⟨after,fun j _ => steps j⟩,?_⟩
  replace drew := drew.later (kept.trans (steps i))
  cases r with
  | error e => exact ⟨drew.idle,nofun⟩
  | ok inserted =>
    have mine : Mine i row.id u := by
      refine ⟨drew.owner,?_⟩
      obtain ⟨_,d,ran,rfl⟩ := exec_limited performed
      rcases Device.exec_write ran with ⟨⟨e,same⟩,_⟩ | ⟨_,store,run,_,rfl⟩
      · cases same
      · refine ⟨row,?_,sends,.inl early⟩
        exact (run_getRow run row.id).trans (if_pos rfl)
    refine safe_bind (safe_mono (fun moved v kept => ?_) (safe_aside (Prog.all_perform (by rfl))))
    cases moved with
    | error e => exact ⟨drew.idle.later kept,nofun⟩
    | ok changed => exact ⟨drew.idle.later kept,fun _ => mine.later kept⟩

theorem safe_prepare {p : Payload} (is : ends call = false) (idle : Idle i s) :
    Safely l start i call (prepareTargetedTransfer l p)
      (fun r u => Idle i u ∧ ∀ id, r = some id → Mine i id u) s := by
  refine safe_bind (safe_mono (fun saved t kept => ?_) (safe_aside (Prog.all_perform (by rfl))))
  replace idle := idle.later kept
  cases saved with
  | false => exact ⟨idle,nofun⟩
  | true =>
    refine safe_perform fun v _ inv kept c id u _ performed => ?_
    obtain ⟨after,others,owner,minting,owed⟩ := draw_step inv performed
    refine ⟨⟨after,others⟩,?_⟩
    replace idle := idle.later kept
    have drew : Drew i id u :=
      ⟨⟨fun id' h => by rw [minting]; exact idle.minting id' h,
        fun id' h => by rw [owed]; exact idle.owed id' h⟩,owner⟩
    refine safe_bind (safe_mono (fun tagged t kept => ?_) (safe_aside (Prog.all_perform (by rfl))))
    replace drew := drew.later kept
    cases tagged with
    | false => exact ⟨drew.idle,nofun⟩
    | true =>
      refine safe_bind (safe_mono (fun _ t kept => ?_) (safe_aside (Prog.all_perform (by rfl))))
      replace drew := drew.later kept
      refine safe_bind (safe_mono (fun _ t kept => ?_) (safe_aside (Prog.all_perform (by rfl))))
      replace drew := drew.later kept
      refine safe_bind (safe_mono (fun stopped t kept => ?_) (safe_aside (Prog.all_perform (by rfl))))
      replace drew := drew.later kept
      cases stopped with
      | true =>
        refine safe_bind (safe_mono (fun _ t kept => ?_) (safe_aside (mild_teardown _ id)))
        exact ⟨drew.idle.later kept,nofun⟩
      | false =>
        refine safe_bind (safe_mono (fun now t kept => ?_) (safe_aside (Prog.all_perform (by rfl))))
        replace drew := drew.later kept
        refine safe_bind (safe_mono (fun registered t both => ?_)
          (safe_registerSender (senderRow l p id now) ⟨rfl,rfl⟩ rfl rfl drew))
        obtain ⟨idle,mine⟩ := both
        cases registered with
        | false =>
          refine safe_bind (safe_mono (fun _ t kept => ?_) (safe_aside (mild_teardown _ id)))
          exact ⟨idle.later kept,nofun⟩
        | true =>
          refine safe_bind (safe_mono (fun row t kept => ?_)
            (safe_aside (Prog.all_perform (by rw [mild,is]; rfl))))
          have mine := (mine rfl).later kept
          rcases row with e | _ | row
          · exact ⟨idle.later kept,nofun⟩
          · exact ⟨idle.later kept,nofun⟩
          · refine ⟨idle.later kept,fun id' same => ?_⟩
            cases same
            exact mine

theorem safe_send {p : Payload} (is : ends call = false) (idle : Idle i s) :
    Safely l start i call (send l p) (fun _ => Idle i) s := by
  refine safe_bind (safe_mono (fun prepared t both => ?_) (safe_prepare is idle))
  obtain ⟨idle,mine⟩ := both
  cases prepared with
  | none => exact idle
  | some id =>
    refine safe_bind (safe_mono (fun _ t kept => ?_) (safe_aside (Prog.all_perform (by rfl))))
    exact safe_continue is (Sends.later ⟨idle,mine id rfl⟩ kept)

theorem mild_handleOffer (is : ends call = false) (remote : EndpointId) (offer : SubmitTargetedOffer) :
    (handleOffer l remote offer).All (mild call · = true) := by
  repeat' first
    | exact trivial
    | exact Prog.all_perform (by rfl)
    | exact Prog.all_perform (by rw [mild,is]; rfl)
    | refine Prog.all_bind ?_ fun _ => ?_
    | split

theorem mild_loadAuthorization (row : TargetedTransferRow) :
    (loadAuthorization l row).All (mild call · = true) := by
  unfold loadAuthorization
  repeat' first
    | exact trivial
    | exact Prog.all_perform (by rfl)
    | refine Prog.all_bind ?_ fun _ => ?_
    | split

theorem mild_respondOutcome (is : ends call = false) (id : TransferId)
    (outcome : Except RespondError (Option TargetedAuthorization)) :
    (respondOutcome id outcome).All (mild call · = true) := by
  unfold respondOutcome
  repeat' first
    | exact trivial
    | exact Prog.all_perform (by rfl)
    | exact Prog.all_perform (by rw [mild,is]; rfl)
    | refine Prog.all_bind ?_ fun _ => ?_
    | split

theorem mild_respond (is : ends call = false) (id : TransferId) (accepted : Bool) :
    (respondToTargetedOffer l id accepted).All (mild call · = true) := by
  repeat' first
    | exact trivial
    | exact Prog.all_perform (by rfl)
    | exact Prog.all_perform (by rw [mild,is]; rfl)
    | exact mild_loadAuthorization _
    | exact mild_respondOutcome is _ _
    | refine Prog.all_bind ?_ fun _ => ?_
    | split

end Approving

/-! All calls, and their runs. -/

section Runs

variable {l : Local} {start : Device} {s : State} {i : Nat} {call : Call}

theorem safe_call (ok : guard.starts s call) (idle : Idle i s)
    (fresh : ∀ id, s.history.seen i id = none) :
    Safely l start i call (call.body l) (fun _ => Idle i) s := by
  cases call with
  | send payload => exact safe_send rfl idle
  | offered remote offer =>
    exact safe_mild (Prog.all_bind (mild_handleOffer rfl remote offer) fun _ =>
      Prog.all_perform (by rfl)) idle
  | respond id accepted => exact safe_mild (Prog.all_bind (mild_respond rfl id accepted) fun _ => trivial) idle
  | authorized remote delivery =>
    refine safe_bind (safe_mono (fun _ _ idle => ?_) (safe_handleAuthorization rfl idle))
    exact safe_mild (Prog.all_perform (by rfl)) idle
  | cancelled remote message =>
    refine safe_bind (safe_mono (fun _ _ idle => ?_) (safe_handleCancel rfl idle))
    exact safe_mild (Prog.all_perform (by rfl)) idle
  | cancel id =>
    refine safe_bind (safe_mono (fun _ _ idle => safe_mild ?_ idle) (safe_terminateLocal rfl (.inl rfl) idle))
    repeat' first
      | exact trivial
      | exact Prog.all_perform (by rfl)
      | refine Prog.all_bind ?_ fun _ => ?_
      | split
  | delete id =>
    refine safe_bind (safe_mono (fun _ _ idle => safe_mild ?_ idle) (safe_terminateLocal rfl (.inr rfl) idle))
    repeat' first
      | exact trivial
      | exact Prog.all_perform (by rfl)
      | refine Prog.all_bind ?_ fun _ => ?_
      | split
  | terminatePeer peer => exact safe_terminatePeer rfl idle fresh
  | _ => cases ok

/-- A thread's operations are recorded under its own index. -/
structure Apart (i : Nat) (h h' : History) : Prop where
  minting : ∀ j id handle, j ≠ i → (j,id,handle) ∈ h'.minting → (j,id,handle) ∈ h.minting
  owed : ∀ j id handle, j ≠ i → (j,id,handle) ∈ h'.owed → (j,id,handle) ∈ h.owed
  seen : ∀ j, j ≠ i → h'.seen j = h.seen j

theorem record_apart (h : History) (d : Device) (i : Nat) (call : Call) (op : Op) (r : Ans op) :
    Apart i h (record h d i call op r) := by
  have settles (handle : Handle) : Apart i h (h.settle i handle) :=
    ⟨fun _ _ _ _ minting => (mem_settle.mp minting).1,fun _ _ _ _ owed => owed,fun _ _ => rfl⟩
  have finishes (store : Store) (w : Write) : Apart i h (h.finish i store w) :=
    ⟨fun _ _ _ _ minting => minting,
      fun _ _ _ other owed => (mem_finish.mp owed).resolve_right fun new => other new.1,fun _ _ => rfl⟩
  unfold record
  split
  · split
    · exact ⟨fun _ _ _ _ h => h,fun _ _ _ _ h => h,fun _ other => Function.update_of_ne other ..⟩
    · exact ⟨fun _ _ _ _ h => h,fun _ _ _ _ h => h,fun _ _ => rfl⟩
  · exact ⟨fun _ _ _ _ h => h,fun _ _ _ _ h => h,fun _ _ => rfl⟩
  · refine ⟨fun j id handle other minting => ?_,fun _ _ _ _ h => h,fun _ _ => rfl⟩
    exact (List.mem_cons.mp minting).resolve_left fun new => other (Prod.mk.inj new).1
  · exact settles _
  · exact settles _
  · exact settles _
  · exact ⟨fun _ _ _ _ h => h,fun _ _ _ _ owed => (mem_release.mp owed).1,fun _ _ => rfl⟩
  · exact finishes _ _
  · exact finishes _ _
  · exact ⟨fun _ _ _ _ h => h,fun _ _ _ _ h => h,fun _ _ => rfl⟩

/-- A call that has not started has nothing in hand, and has seen nothing. -/
theorem fresh_above {c : Conf State Call Op Ans}
    (reach : Reach (limited l start).system guard.holds c) :
    ∀ j, c.threads.length ≤ j → Idle j c.shared ∧ ∀ id, c.shared.history.seen j id = none := by
  induction reach with
  | start c h =>
    intro j _
    have first : c.shared.history = .new start := h.1.2
    refine ⟨⟨fun id h => ?_,fun id h => ?_⟩,fun id => ?_⟩ <;> rw [first]
    · exact List.not_mem_nil
    · exact List.not_mem_nil
    · rfl
  | @advance c d a _ meets h ih =>
    intro j above
    rcases next_cases h with ⟨call,rfl,_,rfl⟩ | ⟨i,choice,call,op,k,r,s,rfl,here,performed,rfl⟩ |
      ⟨e,s,rfl,moved,rfl⟩
    · rw [List.length_append] at above
      exact ih j (Nat.le_of_add_right_le above)
    · obtain ⟨_,d,_,rfl⟩ := exec_limited performed
      rw [List.length_set] at above
      have below := (List.getElem?_eq_some_iff.mp here).1
      have other : j ≠ i := by omega
      obtain ⟨idle,unseen⟩ := ih j above
      have apart := record_apart c.shared.history c.shared.state i call op r
      refine ⟨⟨fun id h minting => idle.minting id h (apart.minting j id h other minting),
        fun id h owed => idle.owed id h (apart.owed j id h other owed)⟩,fun id => ?_⟩
      exact (congrFun (apart.seen j other) id).trans (unseen id)
    · exact meets.elim

theorem Tidy.inv (tidy : Tidy start) : Inv ⟨start,.new start⟩ := by
  have minted {id : TransferId} {h : Handle} (minted : (id,h) ∈ (History.new start).minted) :
      ∃ r, start.store.getRow id = some r ∧ r.authorizationSecretHandle = some h := by
    obtain ⟨r,inside,named⟩ := List.mem_filterMap.mp minted
    obtain ⟨h',held,same⟩ := Option.map_eq_some_iff.mp named
    cases same
    exact ⟨r,Table.find_of_mem inside,held⟩
  refine ⟨tidy.paired,tidy.early,fun id r h here ended named => ?_,fun h held => ?_,
    fun id r h here named => ?_,fun id h m => ?_,fun id id' h m m' => ?_,nofun⟩
  · rw [tidy.closed id r here ended] at named
    cases named
  · exact .inr (.inl (tidy.covered h held))
  · refine List.mem_filterMap.mpr ⟨r,Table.find_mem here,?_⟩
    rw [named,Table.find_key here]
    rfl
  · obtain ⟨r,here,named⟩ := minted m
    exact tidy.given id r h here named
  · obtain ⟨r,here,named⟩ := minted m
    obtain ⟨r',here',named'⟩ := minted m'
    exact tidy.alone id id' r r' h here here' named named'

theorem reach_idle {c : Conf State Call Op Ans} (tidy : Tidy start)
    (reach : Reach (limited l start).system guard.holds c) :
    Secured (limited l start) guard terms (fun i _ => Idle i) c := by
  refine reach_secured ?_ ?_ ?_ ?_ ?_ reach
  · exact fun _ _ => trivial
  · rintro ⟨d,h⟩ ⟨same,first⟩
    change d = start at same
    change h = .new start at first
    subst same first
    exact tidy.inv
  · intro c call past _ _ ok
    have fresh := fresh_above past _ (Nat.le_refl _)
    exact safe_call ok fresh.1 fresh.2
  · exact fun _ _ _ _ kept idle => Idle.later idle kept
  · intro s e t _ _ never
    exact never.elim

/-- Once all calls have finished, a transfer that is over names no secret, and none of its
secrets is left. -/
theorem secrets_end {c : Conf State Call Op Ans} (tidy : Tidy start)
    (reach : Reach (machine l start).system Minds c)
    (finished : ∀ t ∈ c.threads, t.rest.finished = true) {id : TransferId} {row : TargetedTransferRow}
    (found : c.shared.state.store.getRow id = some row) (ended : row.state.terminal = true) :
    row.authorizationSecretHandle = none ∧ row.blobTicket = none ∧
      ∀ h, (id,h) ∈ c.shared.history.minted → c.shared.state.custody h = none := by
  have limits := reach_restrict reach
  have secured := reach_idle tidy limits
  have idle (j : Nat) : Idle j c.shared := by
    by_cases below : j < c.threads.length
    · have safe := secured.threads j _ (List.getElem?_eq_getElem below)
      have stopped := finished _ (List.getElem_mem below)
      cases rest : (c.threads[j]).rest with
      | step op k =>
        rw [rest] at stopped
        cases stopped
      | ret a =>
        rw [rest] at safe
        exact safe
    · exact (fresh_above limits j (Nat.le_of_not_lt below)).1
  have bare : row.authorizationSecretHandle = none := by
    cases named : row.authorizationSecretHandle with
    | none => rfl
    | some h =>
      obtain ⟨j,owed⟩ := secured.inv.closed id row h found ended named
      exact absurd owed ((idle j).owed id h)
  refine ⟨bare,(secured.inv.paired id row found).mp bare,fun h minted => ?_⟩
  by_contra held
  rcases secured.inv.covered h held with ⟨j,id',minting⟩ | ⟨id',r,here,named,live⟩ | ⟨j,id',owed⟩
  · exact (idle j).minting id' h minting
  · have same := secured.inv.alone id' id h (secured.inv.minted id' r h here named) minted
    subst same
    cases found.symm.trans here
    rw [ended] at live
    cases live
  · exact (idle j).owed id' h owed

end Runs

/-! Device 1 is being answered by device 2 while its user cancels. -/

private def fresh : Conf State Call Op Ans := ⟨⟨.new,.new .new⟩,[]⟩

private def act (i : Nat) (flag : Bool) : Label Call Choice Housekeeping :=
  .act i ⟨0,false,flag,7,some (.offer .accepted),⟨[],false⟩⟩

/-- The cancel reads the row after `n` operations of the send, and does its other `k` once the
send has finished. -/
private def cancelledAfter (n k : Nat) : List (Label Call Choice Housekeeping) :=
  .fork (.send ⟨2,3,[],4,5,1,1⟩) ::
    (List.replicate 5 (act 0 true) ++ List.replicate 6 (act 0 false) ++ List.replicate 11 (act 0 true)).take n ++
    .fork (.cancel 7) :: act 1 false :: List.replicate (22 - n) (act 0 true) ++
    List.replicate k (act 1 false)

private def cancelledConf (n k : Nat) : Conf State Call Op Ans :=
  ((machine sender .new).system.run fresh (cancelledAfter n k)).getD fresh

theorem Tidy.new : Tidy .new := by
  have none {id : TransferId} {r : TargetedTransferRow} : Device.new.store.getRow id ≠ some r := nofun
  exact ⟨fun _ _ here => absurd here none,fun _ _ here => absurd here none,
    fun _ _ here => absurd here none,fun _ _ _ here => absurd here none,
    fun _ _ _ _ _ here => absurd here none,fun _ held => absurd rfl held⟩

/-- The cancel has read the row before the secret is in it. -/
theorem cancelled_secret_stays :
    Tidy .new ∧ (machine sender .new).system.run fresh (cancelledAfter 20 10) =
      some (cancelledConf 20 10) ∧
    (∀ t ∈ (cancelledConf 20 10).threads, t.rest.finished = true) ∧
    ∃ row, (cancelledConf 20 10).shared.state.store.getRow 7 = some row ∧ row.state = .cancelled ∧
      (7,7) ∈ (cancelledConf 20 10).shared.history.minted ∧
      (cancelledConf 20 10).shared.state.custody 7 ≠ none :=
  ⟨.new,rfl,by decide,_,rfl,rfl,by decide,nofun⟩

instance (s : State) (call : Call) : Decidable (guard.starts s call) :=
  inferInstanceAs (Decidable (races call = true))

instance (s : State) (call : Call) (op : Op) (c : Choice) : Decidable (guard.steps s call op c) :=
  inferInstanceAs (Decidable True)

instance (s : State) (e : Housekeeping) : Decidable (guard.events s e) :=
  inferInstanceAs (Decidable False)

instance (s : State) (i : Nat) (call : Call) (op : Op) (c : Choice) : Decidable (minds s i call op c) := by
  unfold minds
  infer_instance

instance (c : Conf State Call Op Ans) : DecidablePred (Minds c) := fun a =>
  inferInstanceAs (Decidable (guard.holds c a ∧ Watched minds c a))

/-- The cancel reads the approved row. -/
theorem cancelled_secret_gone :
    ∃ row, (cancelledConf 22 12).shared.state.store.getRow 7 = some row ∧
      row.authorizationSecretHandle = none ∧ row.blobTicket = none ∧
      ∀ h, (7,h) ∈ (cancelledConf 22 12).shared.history.minted →
        (cancelledConf 22 12).shared.state.custody h = none := by
  have start : Reach (machine sender .new).system Minds fresh := .start _ ⟨⟨rfl,rfl⟩,rfl⟩
  have reach : Reach (machine sender .new).system Minds (cancelledConf 22 12) :=
    start.run (by decide) (show (machine sender .new).system.run _ (cancelledAfter 22 12) = some _ from rfl)
  exact ⟨_,rfl,secrets_end .new reach (by decide)
    (show (cancelledConf 22 12).shared.state.store.getRow 7 = some _ from rfl) rfl⟩

end Vnidrop.Targeted.Secrets
