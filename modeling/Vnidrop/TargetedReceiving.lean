import Vnidrop.TargetedOps
import Vnidrop.TargetedRows

/-! Whether a receive that has moved its row into flight ever leaves it there. The row is
moved twice before anything is received; the recovery branch follows the download only. -/
namespace Vnidrop.Targeted.Receiving

open Programs Runs Tables TargetedTransferState

def inFlight (state : TargetedTransferState) : Bool := state = .connecting || state = .transferring

def receives (id : TransferId) : Call → Bool
  | .receive id' | .resume id' => id' = id
  | _ => false

def isReceive : Call → Bool
  | .receive _ | .resume _ => true
  | _ => false

/-- The thread that has last moved a row into flight; the ticket of the row a receive has
read, and the ticket it has set out with. -/
structure History where
  owner : TransferId → Option (Nat × Call)
  read : Nat → Option Text
  ticket : Nat → Option Text

def record (h : History) (_ : Device) (i : Nat) (call : Call) : (o : Op) → Ans o → History
  | .write (.setState id _ dst), .ok _ =>
    if inFlight dst then { h with owner := Function.update h.owner id (some (i,call)) } else h
  | .getRow _, .ok (some row) =>
    if isReceive call then { h with read := Function.update h.read i row.blobTicket } else h
  | .activate _, _ => { h with ticket := Function.update h.ticket i (h.read i) }
  | _, _ => h

abbrev Seen := Observed Device History

/-- A process starts with no row in flight: `mark_interrupted_in_flight` has run. -/
def Restarted (s : Device) : Prop :=
  ∀ id row, s.store.getRow id = some row → inFlight row.state = false ∧
    (row.role = .receiver → row.state.preapproval = false)

def machine (l : Local) : Machine Seen Call Op Ans Choice Housekeeping :=
  (device l Restarted).observe ⟨fun _ => none,fun _ => none,fun _ => none⟩ record fun h _ _ => h

/-- The state of a row in flight that thread `i` has moved there. -/
def flight (s : Seen) (i : Nat) (id : TransferId) : Option TargetedTransferState :=
  if (s.history.owner id).any (·.1 = i) then
    ((s.state.store.getRow id).map (·.state)).filter inFlight
  else none

/-- While its row is in flight, a receive is able to read it, to move it on, to complete it and
to interrupt it; the row it completes is a receiver's; and a row that has moved on has a
ticket that can be parsed. -/
def permits (l : Local) (s : Seen) (i : Nat) (o : Op) (c : Choice) : Bool :=
  match o with
  | .getRow id => (flight s i id).isNone || !c.fails
  | .write (.setState id .connecting .transferring) =>
    ((flight s i id).isNone || !c.fails) &&
    (c.fails || (s.state.store.getRow id).all (·.state ≠ .connecting) ||
      (s.history.ticket i).any fun t => (l.ticketHash t).isSome)
  | .write (.completeReceiver id _) =>
    (flight s i id).isNone || (!c.fails && (s.state.store.getRow id).all (·.role = .receiver))
  | .write (.updateState id _ .interrupted) => (flight s i id).isNone || !c.fails
  | _ => true

def minds (l : Local) (s : Seen) (i : Nat) (_ : Call) (o : Op) (c : Choice) : Prop :=
  permits l s i o c = true

/-- A row in flight has been moved there by a receive of its transfer. -/
structure Inv (s : Seen) : Prop where
  owned : ∀ id row, s.state.store.getRow id = some row → inFlight row.state = true →
    ∃ i call, s.history.owner id = some (i,call) ∧ receives id call = true
  received : ∀ id row, s.state.store.getRow id = some row → row.role = .receiver →
    row.state.preapproval = false

/-- What the others do not do: move a row on behalf of thread `i`, or read for it. -/
structure Kept (i : Nat) (s t : Seen) : Prop where
  flight : ∀ id state, flight t i id = some state → flight s i id = some state
  read : t.history.read i = s.history.read i
  ticket : t.history.ticket i = s.history.ticket i

theorem Kept.refl (i : Nat) (s : Seen) : Kept i s s := ⟨fun _ _ here => here,rfl,rfl⟩

theorem Kept.trans {i : Nat} {s t u : Seen} (first : Kept i s t) (second : Kept i t u) : Kept i s u where
  flight id state there := first.flight id state (second.flight id state there)
  read := second.read.trans first.read
  ticket := second.ticket.trans first.ticket

def terms : Terms Seen where
  known _ := True
  inv := Inv
  rely := Kept
  refl := Kept.refl
  trans _ := Kept.trans

section Rows

variable {s t u : Seen} {i : Nat} {id : TransferId} {state : TargetedTransferState}

theorem flight_some : flight s i id = some state ↔ (∃ call, s.history.owner id = some (i,call)) ∧
    inFlight state = true ∧ ∃ row, s.state.store.getRow id = some row ∧ row.state = state := by
  unfold flight
  split
  · rename_i mine
    rw [Option.any_eq_true] at mine
    obtain ⟨⟨j,call⟩,owner,same⟩ := mine
    have same : j = i := of_decide_eq_true same
    subst same
    rw [Option.filter_eq_some_iff,Option.map_eq_some_iff]
    constructor
    · rintro ⟨there,flies⟩
      exact ⟨⟨call,owner⟩,flies,there⟩
    · rintro ⟨_,flies,there⟩
      exact ⟨there,flies⟩
  · rename_i other
    constructor
    · exact nofun
    · rintro ⟨⟨call,owner⟩,_⟩
      exact absurd (by simp [owner]) other

/-- What a row in flight, or a receiver's row before its approval, comes from. -/
structure Descends (before : Option TargetedTransferRow) (r : TargetedTransferRow) : Prop where
  flies : inFlight r.state = true → ∃ r', before = some r' ∧ r'.state = r.state
  early : r.role = .receiver → r.state.preapproval = true →
    ∃ r', before = some r' ∧ r'.role = .receiver ∧ r'.state.preapproval = true

theorem descends_same {before : Option TargetedTransferRow} {r r' : TargetedTransferRow}
    (here : before = some r') (role : r'.role = r.role) (state : r'.state = r.state) : Descends before r where
  flies _ := ⟨r',here,state⟩
  early receiver early := ⟨r',here,role.trans receiver,state ▸ early⟩

theorem descends_settled {before : Option TargetedTransferRow} {r : TargetedTransferRow}
    (still : inFlight r.state = false) (decided : r.state.preapproval = false) : Descends before r where
  flies flies := by rw [still] at flies; cases flies
  early _ early := by rw [decided] at early; cases early

theorem kept_of_rows (history : t.history = s.history)
    (rows : ∀ id row, t.state.store.getRow id = some row → Descends (s.state.store.getRow id) row) :
    Kept i s t where
  flight id state there := by
    rw [flight_some] at there ⊢
    obtain ⟨owner,flies,row,here,rfl⟩ := there
    exact ⟨history ▸ owner,flies,(rows id row here).flies flies⟩
  read := by rw [history]
  ticket := by rw [history]

theorem inv_of_rows (inv : Inv s) (history : t.history = s.history)
    (rows : ∀ id row, t.state.store.getRow id = some row → Descends (s.state.store.getRow id) row) :
    Inv t where
  owned id row here flies := by
    obtain ⟨r,there,same⟩ := (rows id row here).flies flies
    rw [history]
    exact inv.owned id r there (same ▸ flies)
  received id row here receiver := by
    rw [← Bool.not_eq_true]
    intro early
    obtain ⟨r,there,role,before⟩ := (rows id row here).early receiver early
    rw [inv.received id r there role] at before
    cases before

end Rows

/-! The other operations. -/

/-- The operations that move no row into flight, and tell a receive nothing. -/
def quiet (call : Call) : Op → Bool
  | .write (.insert row) => !inFlight row.state && (row.role = .sender)
  | .write (.setState _ src dst) => !inFlight dst && (!dst.preapproval || src.preapproval)
  | .write (.updateState _ _ dst) => !inFlight dst && !dst.preapproval
  | .activate _ => false
  | .getRow _ => !isReceive call
  | _ => true

section Quiet

variable {l : Local} {s u : Seen} {i : Nat} {call : Call} {now : Millis} {id : TransferId}
  {row : Option TargetedTransferRow} {r : TargetedTransferRow}

theorem leaves_settled {dst state : TargetedTransferState} (leaves : Store.leavesFor dst state = true) :
    inFlight dst = false ∧ dst.preapproval = false := by
  cases dst <;> first | exact ⟨rfl,rfl⟩ | (simp [Store.leavesFor] at leaves)

theorem onRow_descends {w : Write} (calm : quiet call (.write w) = true)
    (here : w.onRow now id row = some r) : Descends row r := by
  have same (old : row = some r) : Descends row r := descends_same old rfl rfl
  cases w with
  | insert new =>
    simp only [Write.onRow] at here
    split at here
    · cases here
      simp only [quiet,Bool.and_eq_true,Bool.not_eq_true',decide_eq_true_eq] at calm
      refine ⟨fun flies => ?_,fun receiver => ?_⟩
      · rw [calm.1] at flies
        cases flies
      · rw [calm.2] at receiver
        cases receiver
    · exact same here
  | abandonSenderPreapproval id' =>
    simp only [Write.onRow] at here
    split at here
    · exact same (Option.filter_eq_some_iff.mp here).1
    · exact same here
  | setState id' src dst =>
    simp only [quiet,Bool.and_eq_true,Bool.not_eq_true',Bool.or_eq_true] at calm
    simp only [Write.onRow] at here
    split at here
    · obtain ⟨r',old,rfl⟩ := Option.map_eq_some_iff.mp here
      split
      · rename_i leaves
        refine ⟨fun flies => ?_,fun receiver early => ⟨r',old,receiver,?_⟩⟩
        · rw [calm.1] at flies
          cases flies
        · rw [of_decide_eq_true leaves]
          exact calm.2.resolve_left (by simp [show dst.preapproval = true from early])
      · exact descends_same old rfl rfl
    · exact same here
  | updateState id' src dst =>
    simp only [quiet,Bool.and_eq_true,Bool.not_eq_true'] at calm
    simp only [Write.onRow] at here
    split at here
    · obtain ⟨r',old,rfl⟩ := Option.map_eq_some_iff.mp here
      split
      · exact descends_settled calm.1 calm.2
      · exact descends_same old rfl rfl
    · exact same here
  | persistReceiverAuthorization auth handle =>
    simp only [Write.onRow] at here
    split at here
    · cases here
      exact descends_settled rfl rfl
    · exact same here
  | markSenderCompleted id' | finalizeSenderAuthorization id' _ _ | completeReceiver id' _ =>
    simp only [Write.onRow] at here
    split at here
    · obtain ⟨r',old,rfl⟩ := Option.map_eq_some_iff.mp here
      split
      · exact descends_settled rfl rfl
      · exact descends_same old rfl rfl
    · exact same here
  | cancelByPeer peer =>
    obtain ⟨r',old,rfl⟩ := Option.map_eq_some_iff.mp here
    split
    · exact descends_settled rfl rfl
    · exact descends_same old rfl rfl
  | advanceVerifiedBytes id' bytes =>
    simp only [Write.onRow] at here
    split at here
    · obtain ⟨r',old,rfl⟩ := Option.map_eq_some_iff.mp here
      split <;> exact descends_same old rfl rfl
    · exact same here
  | clearAuthorization id' =>
    simp only [Write.onRow] at here
    split at here
    · obtain ⟨r',old,rfl⟩ := Option.map_eq_some_iff.mp here
      exact descends_same old rfl rfl
    · exact same here
  | transitionTerminal id' dst clear =>
    simp only [Write.onRow] at here
    split at here
    · obtain ⟨r',old,rfl⟩ := Option.map_eq_some_iff.mp here
      split
      · rename_i leaves
        exact descends_settled (leaves_settled leaves).1 (leaves_settled leaves).2
      · exact descends_same old rfl rfl
    · exact same here
  | _ => exact same here

theorem record_quiet {h : History} {d : Device} {o : Op} {a : Ans o} (calm : quiet call o = true) :
    record h d i call o a = h := by
  cases o with
  | write w =>
    cases w with
    | setState id src dst =>
      simp only [quiet,Bool.and_eq_true,Bool.not_eq_true'] at calm
      cases a with
      | error e => rfl
      | ok b => simp only [record,calm.1]; rfl
    | _ => cases a <;> rfl
  | getRow id =>
    simp only [quiet,Bool.not_eq_true'] at calm
    rcases a with e | _ | row
    · rfl
    · rfl
    · simp only [record,calm]; rfl
  | activate id => cases calm
  | _ => rfl

abbrev Does (l : Local) (i : Nat) (call : Call) {α : Type} (p : Task α) (post : α → Seen → Prop)
    (s : Seen) : Prop := Safe ((machine l).restrict (minds l)) free terms i call p post s

/-- What an operation does, and that it was permitted. -/
theorem performed {o : Op} {c : Choice} {a : Ans o}
    (h : ((machine l).restrict (minds l)).exec s i call o c = some (a,u)) :
    permits l s i o c = true ∧ ∃ e, s.state.exec l c o = some (a,e) ∧
      u = ⟨e,record s.history s.state i call o a⟩ := by
  obtain ⟨permitted,h⟩ := restrict_exec.mp h
  exact ⟨permitted,observe_exec h⟩

theorem quiet_quiet {o : Op} (calm : quiet call o = true) :
    Quiet ((machine l).restrict (minds l)) free terms i call o := by
  intro t _ inv c a u _ h
  obtain ⟨_,e,ran,rfl⟩ := performed h
  have history := record_quiet (h := t.history) (d := t.state) (i := i) (a := a) calm
  have rows (id : TransferId) (row : TargetedTransferRow) (here : e.store.getRow id = some row) :
      Descends (t.state.store.getRow id) row := by
    rcases store_kept ran with ⟨w,rfl⟩ | same
    · rcases Device.exec_write ran with ⟨_,rfl⟩ | ⟨changed,store,wrote,_,rfl⟩
      · exact descends_same here rfl rfl
      · exact onRow_descends calm ((run_getRow wrote id).symm.trans here)
    · exact descends_same (same ▸ here) rfl rfl
  exact ⟨inv_of_rows inv history rows,fun j => kept_of_rows history rows⟩

end Quiet

/-! The receive. -/

section Receive

variable {l : Local} {s t u : Seen} {i : Nat} {call : Call} {id : TransferId} {c : Choice}

def Idle (i : Nat) (id : TransferId) (s : Seen) : Prop := flight s i id = none

theorem Idle.later (idle : Idle i id s) (kept : Kept i s t) : Idle i id t := by
  unfold Idle at idle ⊢
  rw [Option.eq_none_iff_forall_not_mem] at idle ⊢
  exact fun state there => idle state (kept.flight id state there)

/-- Thread `i` can have its row in flight in this state only. -/
def At (state : TargetedTransferState) (i : Nat) (id : TransferId) (s : Seen) : Prop :=
  ∀ state', flight s i id = some state' → state' = state

theorem At.later {state : TargetedTransferState} (here : At state i id s) (kept : Kept i s t) :
    At state i id t := fun state' there => here state' (kept.flight id state' there)

theorem Idle.at (idle : Idle i id s) (state : TargetedTransferState) : At state i id s :=
  fun state' there => by rw [Idle.eq_1,there] at idle; cases idle

/-- Without the row, or with a row that is not in flight, nothing is in flight. -/
theorem idle_of_row (still : ∀ row, s.state.store.getRow id = some row → inFlight row.state = false) :
    Idle i id s := by
  unfold Idle
  rw [Option.eq_none_iff_forall_not_mem]
  intro state there
  obtain ⟨_,flies,row,here,rfl⟩ := flight_some.mp there
  rw [still row here] at flies
  cases flies

/-- A row that stands in another state than the one it can be in flight in. -/
theorem At.idle {state : TargetedTransferState} (here : At state i id s)
    (apart : ∀ row, s.state.store.getRow id = some row → row.state ≠ state) : Idle i id s := by
  unfold Idle
  rw [Option.eq_none_iff_forall_not_mem]
  intro state' there
  obtain ⟨_,_,row,found,rfl⟩ := flight_some.mp there
  exact apart row found (here _ there)

/-- Reading a row tells the reader its ticket. -/
structure Reads (i : Nat) (s t : Seen) : Prop where
  flight : ∀ id, flight t i id = flight s i id
  ticket : t.history.ticket i = s.history.ticket i

theorem does_getRow {α : Type} {f : Except VnidropError (Option TargetedTransferRow) → Task α}
    {post : α → Seen → Prop} (receive : isReceive call = true)
    (error : ∀ t e, Kept i s t → Idle i id t → Does l i call (f (.error e)) post t)
    (found : ∀ t u, Kept i s t → Reads i t u →
      (∀ row, t.state.store.getRow id = some row → u.history.read i = row.blobTicket) → u.state = t.state →
      Does l i call (f (.ok (t.state.store.getRow id))) post u) :
    Does l i call (op (.getRow id) >>= f) post s := by
  intro t _ inv kept c a u _ h
  obtain ⟨permitted,e,ran,rfl⟩ := performed h
  obtain rfl := Device.exec_reads rfl ran
  have calm : record t.history t.state i call (.getRow id) a = t.history ∨
      ∃ ticket, record t.history t.state i call (.getRow id) a =
        { t.history with read := Function.update t.history.read i ticket } := by
    rcases a with e | _ | row
    · exact .inl rfl
    · exact .inl rfl
    · exact .inr ⟨row.blobTicket,by simp only [record,receive,if_true]⟩
  have owner : (record t.history t.state i call (.getRow id) a).owner = t.history.owner := by
    rcases calm with same | ⟨_,same⟩ <;> rw [same]
  have tickets : (record t.history t.state i call (.getRow id) a).ticket = t.history.ticket := by
    rcases calm with same | ⟨_,same⟩ <;> rw [same]
  have flights (j : Nat) (id' : TransferId) :
      flight ⟨t.state,record t.history t.state i call (.getRow id) a⟩ j id' = flight t j id' := by
    unfold flight
    rw [owner]
  refine ⟨⟨⟨fun id' row here flies => ?_,inv.received⟩,fun j other => ⟨fun id' state there => ?_,?_,?_⟩⟩,?_⟩
  · rw [owner]
    exact inv.owned id' row here flies
  · rw [flights] at there
    exact there
  · rcases calm with same | ⟨_,same⟩
    · rw [same]
    · rw [same]
      exact Function.update_of_ne other ..
  · rw [tickets]
  · cases a with
    | error e =>
      refine error _ e kept ?_
      simp only [permits,Bool.or_eq_true,Option.isNone_iff_eq_none,Bool.not_eq_true'] at permitted
      refine (flights i id).trans (permitted.resolve_right fun fine => ?_)
      simp [Device.exec,fine] at ran
    | ok row =>
      have same := Device.exec_getRow ran
      subst same
      refine found t _ kept ⟨flights i,congrFun tickets i⟩ (fun row here => ?_) rfl
      simp only [record,here,receive,if_true]
      exact Function.update_self ..

theorem does_move {α : Type} {src dst : TargetedTransferState}
    {f : Except VnidropError Bool → Task α} {post : α → Seen → Prop} (flies : inFlight dst = true)
    (valid : src.allowed dst = true) (mine : receives id call = true)
    (error : ∀ t c e, Kept i s t → permits l t i (.write (.setState id src dst)) c = true →
      (c.fails = false → ∀ row, t.state.store.getRow id = some row → row.state ≠ src) →
      Does l i call (f (.error e)) post t)
    (moved : ∀ t u c changed, Kept i s t → permits l t i (.write (.setState id src dst)) c = true →
      c.fails = false → (∃ row, t.state.store.getRow id = some row ∧ row.state = src) → At dst i id u →
      u.history.ticket i = t.history.ticket i → Does l i call (f (.ok changed)) post u) :
    Does l i call (write (.setState id src dst) >>= f) post s := by
  intro t _ inv kept c a u _ h
  obtain ⟨permitted,e,ran,rfl⟩ := performed h
  rcases Device.exec_write ran with ⟨⟨e,rfl⟩,rfl⟩ | ⟨changed,store,wrote,rfl,rfl⟩
  · refine ⟨⟨inv,fun j _ => Kept.refl j t⟩,error t c e kept permitted fun fine row here same => ?_⟩
    subst same
    obtain ⟨next,set⟩ := setState_succeeds here valid c.now
    simp [Device.exec,fine,Write.run,set,Except.map] at ran
  · have fine : c.fails = false := by
      rw [← Bool.not_eq_true]
      intro fails
      simp [Device.exec,fails] at ran
    obtain ⟨next,set,_⟩ := except_map_ok wrote
    obtain ⟨row,here,state⟩ := (updateState_ok (setState_ok set).2).1
    have after := run_getRow wrote
    simp only [Write.onRow] at after
    have owner (id' : TransferId) : (record t.history t.state i call (.write (.setState id src dst))
        (.ok changed)).owner id' = if id' = id then some (i,call) else t.history.owner id' := by
      simp only [record,flies,if_true]
      exact Function.update_apply ..
    have others (id' : TransferId) (other : id' ≠ id) : store.getRow id' = t.state.store.getRow id' := by
      rw [after,if_neg other]
    have there : store.getRow id = some { row with state := dst, updatedAt := c.now } := by
      rw [after,if_pos rfl,here,Option.map_some,if_pos (decide_eq_true state)]
    refine ⟨⟨⟨fun id' row' here' flies' => ?_,fun id' row' here' => ?_⟩,fun j other => ⟨fun id' state' there' => ?_,?_,?_⟩⟩,
      moved t _ c changed kept permitted fine ⟨row,here,state⟩ ?_ ?_⟩
    · rw [owner]
      split
      · rename_i same
        exact ⟨i,call,rfl,same ▸ mine⟩
      · rename_i other
        exact inv.owned id' row' ((others id' other).symm.trans here') flies'
    · by_cases same : id' = id
      · subst same
        cases there.symm.trans here'
        intro _
        cases dst <;> first | rfl | cases flies
      · exact inv.received id' row' ((others id' same).symm.trans here')
    · rw [flight_some] at there' ⊢
      obtain ⟨⟨call',owned⟩,flies',row',here',rfl⟩ := there'
      rw [owner] at owned
      split at owned
      · cases owned
        exact absurd rfl other
      · rename_i apart
        exact ⟨⟨call',owned⟩,flies',row',(others id' apart).symm.trans here',rfl⟩
    · simp only [record,flies,if_true]
    · simp only [record,flies,if_true]
    · intro state' there'
      obtain ⟨_,_,row',here',rfl⟩ := flight_some.mp there'
      cases there.symm.trans here'
      rfl
    · simp only [record,flies,if_true]

theorem does_bind {α β : Type} {p : Task α} {f : α → Task β} {post : β → Seen → Prop}
    (h : Does l i call p (fun a t => Does l i call (f a) post t) s) : Does l i call (p >>= f) post s :=
  safe_bind h

theorem does_op {α : Type} {o : Op} {f : Ans o → Task α} {post : α → Seen → Prop}
    (calm : quiet call o = true)
    (rest : ∀ t u c a, Kept i s t → Kept i t u → permits l t i o c = true →
      t.state.exec l c o = some (a,u.state) → Does l i call (f a) post u) :
    Does l i call (op o >>= f) post s := by
  intro t known inv kept c a u ok h
  obtain ⟨inv',since⟩ := quiet_quiet calm t known inv c a u ok h
  obtain ⟨permitted,e,ran,rfl⟩ := performed h
  exact ⟨⟨inv',fun j _ => since j⟩,rest t _ c a kept (since i) permitted ran⟩

theorem does_quiet {α : Type} {p : Task α} (calm : p.All (quiet call · = true)) :
    Does l i call p (fun _ => Kept i s) s := by
  exact safe_quiet (Prog.all_mono (fun _ calm => quiet_quiet calm) calm) s

abbrev moving : List Kind := [.insert,.setState,.updateState,.activate]

/-- Kinds that neither move a row nor read one are quiet in every call. -/
theorem quiet_of_avoids {α : Type} {p : Task α} (avoids : Avoids (.getRow :: moving) p) :
    p.All (quiet call · = true) := by
  refine Prog.all_mono (fun o avoided => ?_) avoids
  cases o with
  | write w =>
    cases w with
    | insert | setState | updateState => cases avoided
    | _ => rfl
  | getRow | activate => cases avoided
  | _ => rfl

theorem does_load (receive : isReceive call = true) (idle : Idle i id s) :
    Does l i call (loadReceiverAuthorization l id) (fun found t => Idle i id t ∧
      ∀ auth, found = some auth → auth.transferId = id ∧ t.history.read i = some auth.blobTicket) s := by
  refine does_getRow receive (fun t e kept idle => ⟨idle,nofun⟩) fun t u kept reads ticket same => ?_
  have idle : Idle i id u := (reads.flight id).trans (idle.later kept)
  cases here : t.state.store.getRow id with
  | none => exact ⟨idle,nofun⟩
  | some row =>
    have keyed : row.id = id := Table.find_key here
    refine does_bind ?_
    unfold loadAuthorization
    split
    · rename_i handle blobTicket _ held
      refine does_op rfl fun v w c found kept since _ _ => ?_
      have idle := (idle.later kept).later since
      cases found with
      | none => exact ⟨idle,nofun⟩
      | some material =>
        refine ⟨idle,fun auth found => ?_⟩
        cases (Option.filter_eq_some_iff.mp found).1
        refine ⟨keyed,?_⟩
        rw [since.read,kept.read,ticket row here,held]
        rfl
    · exact ⟨idle,nofun⟩

/-- The ticket is parsed once the row has moved. -/
theorem does_begin {blobTicket : Text} (receive : isReceive call = true) (mine : receives id call = true)
    (idle : Idle i id s) (set : s.history.ticket i = some blobTicket) :
    Does l i call (beginReceive id) (fun begun t => At .transferring i id t ∧
      (begun = false ∨ l.ticketHash blobTicket = none → Idle i id t)) s := by
  have settled {t : Seen} (idle : Idle i id t) : At .transferring i id t ∧ ∀ p : Prop, p → Idle i id t :=
    ⟨idle.at _,fun _ _ => idle⟩
  refine does_getRow receive (fun t e kept idle => ⟨(settled idle).1,(settled idle).2 _⟩)
    fun t u kept reads _ same => ?_
  have idle : Idle i id u := (reads.flight id).trans (idle.later kept)
  cases here : t.state.store.getRow id with
  | none => exact ⟨(settled idle).1,(settled idle).2 _⟩
  | some row =>
    change Does l i call (if row.state = .approved ∨ row.state = .interrupted then _ else _) _ _
    split
    · rename_i starts
      have valid : row.state.allowed .connecting = true := by
        rcases starts with from_ | from_ <;> (rw [from_]; rfl)
      refine does_move rfl valid mine (fun v c e kept _ _ => ?_) fun v w c changed kept' _ _ _ moved ticket => ?_
      · exact ⟨(settled (idle.later kept)).1,(settled (idle.later kept)).2 _⟩
      · refine does_move rfl rfl mine (fun x c e kept permitted found => ?_)
          fun x y c changed kept'' permitted fine found moved' ticket' => ?_
        · -- with the row in its own hands the store does not fail, and finds the row connecting
          have idle : Idle i id x := by
            simp only [permits,Bool.and_eq_true,Bool.or_eq_true,Option.isNone_iff_eq_none,
              Bool.not_eq_true'] at permitted
            exact permitted.1.elim (·) fun fine => (moved.later kept).idle (found fine)
          exact ⟨(settled idle).1,(settled idle).2 _⟩
        · refine ⟨moved',fun unparsed => ?_⟩
          rcases unparsed with begun | unparsed
          · cases begun
          · -- the row was connecting, so the ticket is one that parses
            obtain ⟨row',there,connecting⟩ := found
            have known : x.history.ticket i = some blobTicket := by
              rw [kept''.ticket,ticket,kept'.ticket,reads.ticket,kept.ticket,set]
            simp [permits,fine,there,connecting,known,unparsed] at permitted
    · exact ⟨(settled idle).1,(settled idle).2 _⟩

theorem does_complete {auth : TargetedAuthorization} (receive : isReceive call = true)
    (here : At .transferring i auth.transferId s) :
    Does l i call (completeReceive auth) (fun _ => Idle i auth.transferId) s := by
  refine does_getRow receive (fun t e kept idle => idle) fun t u kept reads _ same => ?_
  have moving : At .transferring i auth.transferId u := fun state there =>
    here.later kept state ((reads.flight _).symm.trans there)
  cases found : t.state.store.getRow auth.transferId with
  | none =>
    exact idle_of_row fun row there => by rw [same,found] at there; cases there
  | some row =>
    refine does_op rfl fun v w c a kept since permitted ran => ?_
    have idle : Idle i auth.transferId w := by
      rcases Device.exec_write ran with ⟨⟨e,rfl⟩,_⟩ | ⟨changed,store,wrote,_,after⟩
      · refine Idle.later ?_ since
        simp only [permits,Bool.or_eq_true,Bool.and_eq_true,Option.isNone_iff_eq_none,
          Bool.not_eq_true'] at permitted
        refine permitted.elim (·) fun able => (moving.later kept).idle fun row' there transferring => ?_
        have role : row'.role = .receiver := by simpa [there] using able.2
        obtain ⟨next,completed⟩ := completeReceiver_succeeds there role transferring row.totalSize c.now
        simp [Device.exec,able.1,Write.run,completed,Except.map] at ran
      · refine idle_of_row fun row' there => ?_
        obtain ⟨next,completed,_⟩ := except_map_ok wrote
        obtain ⟨r,before,role,transferring⟩ := completeReceiver_ok completed
        have now := run_getRow wrote auth.transferId
        rw [after] at there
        simp [Write.onRow,before,role,transferring] at now
        cases now.symm.trans there
        rfl
    cases a with
    | error e => exact idle
    | ok changed =>
      refine does_bind (safe_mono (fun acknowledged x kept => ?_)
        (does_quiet (quiet_of_avoids ((acknowledgeCompletion_uses auth).avoids rfl))))
      cases acknowledged with
      | false => exact idle.later kept
      | true => exact does_op rfl fun y z c a kept' since' _ _ =>
          ((idle.later kept).later kept').later since'

/-- The recovery moves the row that it holds out of flight. -/
theorem does_recover (receive : isReceive call = true) (here : At .transferring i id s) :
    Does l i call (setStateFromAny id .interrupted) (fun _ => Idle i id) s := by
  refine does_getRow receive (fun t e kept idle => idle) fun t u kept reads _ same => ?_
  have moving : At .transferring i id u := fun state there =>
    here.later kept state ((reads.flight _).symm.trans there)
  cases found : t.state.store.getRow id with
  | none => exact idle_of_row fun row there => by rw [same,found] at there; cases there
  | some row =>
    by_cases transferring : row.state = .transferring
    · have read : Store.setStateFromAnyRead (some row) .interrupted = .ok (some .transferring) := by
        simp only [Store.setStateFromAnyRead,transferring]
        rfl
      dsimp only
      rw [read]
      refine does_op rfl fun v w c a kept since permitted ran => ?_
      have idle : Idle i id w := by
        rcases Device.exec_write ran with ⟨⟨e,rfl⟩,_⟩ | ⟨changed,store,wrote,_,after⟩
        · refine Idle.later ?_ since
          simp only [permits,Bool.or_eq_true,Option.isNone_iff_eq_none,Bool.not_eq_true'] at permitted
          refine permitted.elim (·) fun fine => (moving.later kept).idle fun row' there still => ?_
          obtain ⟨next,updated⟩ := updateState_succeeds there .interrupted c.now
          rw [still] at updated
          simp [Device.exec,fine,Write.run,updated,Except.map] at ran
        · refine idle_of_row fun row' there => ?_
          obtain ⟨next,updated,_⟩ := except_map_ok wrote
          obtain ⟨r,before,state⟩ := (updateState_ok updated).1
          have now := run_getRow wrote id
          rw [after] at there
          simp [Write.onRow,before,state] at now
          cases now.symm.trans there
          rfl
      cases a <;> exact idle
    · have idle : Idle i id u := moving.idle fun row' there => by
        rw [same,found] at there
        cases there
        exact transferring
      dsimp only
      split
      · exact idle
      · exact idle
      · refine does_op rfl fun v w c a kept since _ _ => ?_
        have idle := (idle.later kept).later since
        cases a <;> exact idle

theorem does_interrupt (receive : isReceive call = true) (here : At .transferring i id s) :
    Does l i call (interruptReceive id) (fun _ => Idle i id) s := by
  refine does_getRow receive (fun t e kept idle => idle) fun t u kept reads _ same => ?_
  have moving : At .transferring i id u := fun state there =>
    here.later kept state ((reads.flight _).symm.trans there)
  cases found : t.state.store.getRow id with
  | none => exact idle_of_row fun row there => by rw [same,found] at there; cases there
  | some row =>
    change Does l i call (if row.state = .connecting ∨ row.state = .transferring then _ else _) _ _
    split
    · exact does_bind (safe_mono (fun _ _ idle => idle) (does_recover receive moving))
    · rename_i still
      refine idle_of_row fun row' there => ?_
      rw [same,found] at there
      cases there
      simpa [inFlight] using still

theorem does_activate {α : Type} {f : Bool → Task α} {post : α → Seen → Prop}
    (rest : ∀ t u activated, Kept i s t → (∀ id, flight u i id = flight t i id) →
      u.history.ticket i = t.history.read i → Does l i call (f activated) post u) :
    Does l i call (op (.activate id) >>= f) post s := by
  intro t _ inv kept c a u _ h
  obtain ⟨_,e,ran,rfl⟩ := performed h
  have store : e.store = t.state.store := by
    simp only [Device.exec] at ran
    split at ran <;> cases ran <;> rfl
  have flights (j : Nat) (id' : TransferId) :
      flight ⟨e,record t.history t.state i call (.activate id) a⟩ j id' = flight t j id' := by
    simp only [flight,record,store]
  refine ⟨⟨⟨fun id' row here flies => ?_,fun id' row here => ?_⟩,fun j other => ⟨fun id' state there => ?_,rfl,?_⟩⟩,
    rest t _ a kept (flights i) (Function.update_self ..)⟩
  · exact inv.owned id' row (store ▸ here) flies
  · exact inv.received id' row (store ▸ here)
  · rw [flights] at there
    exact there
  · exact Function.update_of_ne other ..

/-- However a receive ends, it has nothing in flight. -/
theorem does_runReceive {auth : TargetedAuthorization} (receive : isReceive call = true)
    (mine : receives auth.transferId call = true) (idle : Idle i auth.transferId s)
    (ticket : s.history.read i = some auth.blobTicket) :
    Does l i call (runTargetedReceive l auth) (fun _ => Idle i auth.transferId) s := by
  refine does_activate fun t u activated kept flights set => ?_
  have idle : Idle i auth.transferId u := (flights _).trans (idle.later kept)
  cases activated with
  | false => exact idle
  | true =>
    have run : Does l i call (runRegisteredReceive l auth) (fun _ => Idle i auth.transferId) u := by
      have carried : u.history.ticket i = some auth.blobTicket := by rw [set,kept.read,ticket]
      refine does_bind (safe_mono (fun begun v moved => ?_) (does_begin receive mine idle carried))
      cases begun with
      | false => exact moved.2 (.inl rfl)
      | true =>
        cases parsed : l.ticketHash auth.blobTicket with
        | none =>
          exact moved.2 (.inr parsed)
        | some hash =>
          refine does_bind (safe_mono (fun got w kept => ?_)
            (does_quiet (quiet_of_avoids (receivePayload_uses.avoids rfl))))
          cases got with
          | true => exact does_complete receive (moved.1.later kept)
          | false => exact does_interrupt receive (moved.1.later kept)
    refine does_bind (safe_mono (fun _ v idle => ?_) run)
    exact does_op rfl fun _ _ _ _ kept since _ _ => (idle.later kept).later since

theorem does_receive (receive : isReceive call = true) (mine : receives id call = true)
    (idle : Idle i id s) :
    Does l i call (receiveTargetedTransfer l id) (fun _ => Idle i id) s := by
  refine does_bind (safe_mono (fun found t loaded => ?_) (does_load receive idle))
  obtain ⟨idle,loaded⟩ := loaded
  cases found with
  | none => exact idle
  | some auth =>
    obtain ⟨rfl,ticket⟩ := loaded auth rfl
    exact does_runReceive receive mine idle ticket

theorem does_resume (receive : isReceive call = true) (mine : receives id call = true)
    (idle : Idle i id s) :
    Does l i call (resumeTargetedTransfer l id) (fun _ => Idle i id) s := by
  refine does_getRow receive (fun t e kept idle => idle) fun t u kept reads _ same => ?_
  have idle : Idle i id u := (reads.flight id).trans (idle.later kept)
  cases t.state.store.getRow id with
  | none => exact idle
  | some row =>
    change Does l i call (if row.state.resumable then _ else _) _ _
    split
    · exact does_receive receive mine idle
    · exact idle

end Receive

/-! The other calls. -/

section Others

variable {l : Local} {call : Call} {id : TransferId}

theorem quiet_of_listens {α : Type} {p : Task α} (other : isReceive call = false)
    (avoids : Avoids moving p) : p.All (quiet call · = true) := by
  refine Prog.all_mono (fun o avoided => ?_) avoids
  cases o with
  | write w =>
    cases w with
    | insert | setState | updateState => cases avoided
    | _ => rfl
  | getRow => simp [quiet,other]
  | activate => cases avoided
  | _ => rfl

theorem quiet_op {o : Op} (calm : quiet call o = true) : (op o).All (quiet call · = true) :=
  Prog.all_perform calm

theorem quiet_setStateFromAny {dst : TargetedTransferState} (other : isReceive call = false)
    (still : inFlight dst = false) (decided : dst.preapproval = false) :
    (setStateFromAny id dst).All (quiet call · = true) := by
  have moves (src : TargetedTransferState) :
      quiet call (.write (.updateState id src dst)) = true := by simp [quiet,still,decided]
  refine Prog.all_bind (quiet_op (by simp [quiet,other])) fun answer => ?_
  repeat' first
    | exact trivial
    | exact quiet_op (moves _)
    | refine Prog.all_bind ?_ fun _ => ?_
    | split

theorem quiet_prepare {p : Payload} (other : isReceive call = false) :
    (prepareTargetedTransfer l p).All (quiet call · = true) := by
  unfold prepareTargetedTransfer registerSender write
  repeat' first
    | exact trivial
    | exact quiet_op rfl
    | exact quiet_op (by simp [quiet,other])
    | exact quiet_of_listens other ((teardown_uses _).avoids rfl)
    | refine Prog.all_bind ?_ fun _ => ?_
    | split

theorem quiet_abandonOffer (other : isReceive call = false) {src dst : TargetedTransferState}
    (still : inFlight dst = false) (decided : dst.preapproval = false) :
    (abandonOffer l id src dst).All (quiet call · = true) :=
  Prog.all_bind (quiet_op (by simp [quiet,still,decided])) fun _ =>
    quiet_of_listens other ((teardown_uses _).avoids rfl)

theorem quiet_approve {p : Payload} (other : isReceive call = false) :
    (approve l p id).All (quiet call · = true) := by
  unfold approve abandonApproval
  repeat' first
    | exact trivial
    | exact quiet_op rfl
    | exact quiet_setStateFromAny other rfl rfl
    | exact quiet_of_listens other ((teardown_uses _).avoids rfl)
    | exact quiet_of_listens other ((protectSender_uses _).avoids rfl)
    | refine Prog.all_bind ?_ fun _ => ?_
    | split

theorem quiet_continue {p : Payload} (other : isReceive call = false) :
    (continueTargetedTransfer l p id).All (quiet call · = true) := by
  unfold continueTargetedTransfer negotiate write
  repeat' first
    | exact trivial
    | exact quiet_op rfl
    | exact quiet_approve other
    | exact quiet_abandonOffer other rfl rfl
    | exact quiet_of_listens other ((teardown_uses _).avoids rfl)
    | exact quiet_of_listens other ((request_uses _).avoids rfl)
    | refine Prog.all_bind ?_ fun _ => ?_
    | split

theorem quiet_send {p : Payload} (other : isReceive call = false) :
    (Targeted.send l p).All (quiet call · = true) := by
  refine Prog.all_bind (quiet_prepare other) fun found => ?_
  cases found with
  | none => trivial
  | some id => exact Prog.all_bind (quiet_op rfl) fun _ => quiet_continue other

theorem quiet_stop (other : isReceive call = false) :
    (Targeted.stop id).All (quiet call · = true) := by
  unfold Targeted.stop stopPreparation write
  repeat' first
    | exact trivial
    | exact quiet_op rfl
    | exact quiet_op (by simp [quiet,other])
    | exact quiet_of_listens other ((notifyCancel_uses _).avoids rfl)
    | exact quiet_of_listens other ((cleanup_uses _).avoids rfl)
    | refine Prog.all_bind ?_ fun _ => ?_
    | split

theorem quiet_terminateLocal {state : TargetedTransferState} (other : isReceive call = false) :
    (terminateLocal id state).All (quiet call · = true) :=
  quiet_of_listens other ((terminateLocal_uses _).avoids rfl)

theorem quiet_call (other : isReceive call = false) : (call.body l).All (quiet call · = true) := by
  cases call with
  | receive | resume => cases other
  | offered => exact quiet_of_listens other (Prog.all_bind ((handleOffer_uses _ _).avoids rfl) fun _ => Prog.all_perform rfl)
  | authorized => exact quiet_of_listens other (Prog.all_bind ((handleAuthorization_uses _ _).avoids rfl) fun _ => Prog.all_perform rfl)
  | cancelled =>
    refine Prog.all_bind ?_ fun _ => quiet_op rfl
    unfold handleCancel
    repeat' first
      | exact trivial
      | exact quiet_op rfl
      | exact quiet_of_listens rfl ((cancelPending_uses _ _).avoids rfl)
      | exact quiet_of_listens rfl ((cancelFromPeer_uses _).avoids rfl)
      | refine Prog.all_bind ?_ fun _ => ?_
      | split
  | completed => exact quiet_of_listens other (Prog.all_bind ((handleCompletion_uses _ _).avoids rfl) fun _ => Prog.all_perform rfl)
  | respond => exact quiet_of_listens other (Prog.all_bind ((respondToTargetedOffer_uses _).avoids rfl) fun _ => trivial)
  | cancel | delete =>
    refine Prog.all_bind (quiet_terminateLocal rfl) fun outcome => ?_
    repeat' first
      | exact trivial
      | exact quiet_of_listens rfl ((notifyCancel_uses _).avoids rfl)
      | split
  | send => exact quiet_send rfl
  | stop => exact quiet_stop rfl
  | terminatePeer =>
    simp only [Call.body]
    unfold terminatePeer write
    repeat' first
      | exact trivial
      | exact quiet_op rfl
      | exact quiet_of_listens rfl ((discardEach_uses _).avoids rfl)
      | exact quiet_of_listens rfl ((rowsOf_uses _).avoids rfl)
      | exact quiet_of_listens rfl ((cleanupEach_uses _).avoids rfl)
      | refine Prog.all_bind ?_ fun _ => ?_
      | split
  | retryCompletion => exact quiet_of_listens rfl (retryCompletion_uses.avoids rfl)
  | retryAuthorizationDelivery =>
    simp only [Call.body]
    unfold retryAuthorizationDelivery deliverStored write
    repeat' first
      | exact trivial
      | exact quiet_op rfl
      | exact quiet_of_listens rfl ((loadAuthorization_uses _).avoids rfl)
      | exact quiet_of_listens rfl ((request_uses _).avoids rfl)
      | refine Prog.all_bind ?_ fun _ => ?_
      | split
  | releaseCompletedPayloads => exact quiet_of_listens rfl (releaseCompletedPayloads_uses.avoids rfl)

end Others

/-! Every run. -/

section Reached

variable {l : Local} {c : Conf Seen Call Op Ans}

/-- A statement that updates rows wherever they are. -/
theorem updated_descends {store : Store} {p : TargetedTransferRow → Bool}
    {f : TargetedTransferRow → TargetedTransferRow} (keeps : ∀ r, (f r).id = r.id) {id : TransferId}
    {row : TargetedTransferRow} (fine : ∀ r, p r = true → Descends (some r) (f r))
    (here : (store.transfers.updateWhere p f keeps).find id = some row) : Descends (store.getRow id) row := by
  rw [Table.find_updateWhere] at here
  obtain ⟨r,old,rfl⟩ := Option.map_eq_some_iff.mp here
  rw [show store.getRow id = some r from old]
  split
  · exact fine r (by assumption)
  · exact descends_same rfl rfl rfl

theorem env_kept {s : Seen} (inv : Inv s) (e : Housekeeping) :
    Inv ⟨s.state.housekeep e,s.history⟩ ∧ ∀ j, Kept j s ⟨s.state.housekeep e,s.history⟩ := by
  have rows (id : TransferId) (row : TargetedTransferRow)
      (here : (s.state.housekeep e).store.getRow id = some row) : Descends (s.state.store.getRow id) row := by
    cases e with
    | markInterruptedInFlight now | failSenderPreapproval now =>
      exact updated_descends (fun _ => by rfl) (fun r _ => descends_settled rfl rfl) here
    | resetIdentity now =>
      refine updated_descends (fun _ => by rfl) (fun r _ => ?_) here
      by_cases ended : r.state.terminal = true
      · exact descends_same rfl rfl (by simp [ended])
      · exact descends_settled (by simp [ended]; rfl) (by simp [ended]; rfl)
  exact ⟨inv_of_rows inv rfl rows,fun j => kept_of_rows rfl rows⟩

theorem record_owner {h : History} {d : Device} {i j : Nat} {call call' : Call} {o : Op} {a : Ans o}
    {id : TransferId} (owner : (record h d i call o a).owner id = some (j,call')) :
    h.owner id = some (j,call') ∨ (j = i ∧ call' = call) := by
  unfold record at owner
  split at owner
  · split at owner
    · dsimp only at owner
      rw [Function.update_apply] at owner
      split at owner
      · cases owner
        exact .inr ⟨rfl,rfl⟩
      · exact .inl owner
    · exact .inl owner
  · split at owner <;> exact .inl owner
  · exact .inl owner
  · exact .inl owner

/-- An owner is a thread. -/
theorem owner_thread (reach : Reach ((machine l).restrict (minds l)).system free.holds c) :
    ∀ id i call, c.shared.history.owner id = some (i,call) → ∃ rest, c.threads[i]? = some ⟨call,rest⟩ := by
  refine reach.invariant (fun c => ∀ id i call, c.shared.history.owner id = some (i,call) →
    ∃ rest, c.threads[i]? = some ⟨call,rest⟩) (fun s start id i call owner => ?_) fun s a t ih _ h => ?_
  · rw [start.1.2] at owner
    cases owner
  · rcases next_cases h with ⟨call,rfl,_,rfl⟩ | ⟨j,choice,call,o,k,r,u,rfl,here,ran,rfl⟩ | ⟨e,u,rfl,moved,rfl⟩
    · intro id i call' owner
      obtain ⟨rest,there⟩ := ih id i call' owner
      exact ⟨rest,(List.getElem?_append_left (List.getElem?_eq_some_iff.mp there).1).trans there⟩
    · intro id i call' owner
      obtain ⟨_,e,_,rfl⟩ := performed ran
      have bound : j < s.threads.length := (List.getElem?_eq_some_iff.mp here).1
      rcases record_owner (d := s.shared.state) owner with old | ⟨rfl,rfl⟩
      · obtain ⟨rest,there⟩ := ih id i call' old
        by_cases same : i = j
        · subst same
          cases there.symm.trans here
          exact ⟨k r,List.getElem?_set_self bound⟩
        · exact ⟨rest,(List.getElem?_set_ne (Ne.symm same)).trans there⟩
      · exact ⟨k r,List.getElem?_set_self bound⟩
    · cases Option.some.inj moved
      exact ih

/-- Every receive that has returned has nothing in flight. -/
theorem secured (reach : Reach ((machine l).restrict (minds l)).system free.holds c) :
    Secured ((machine l).restrict (minds l)) free terms
      (fun i call s => ∀ id, receives id call = true → Idle i id s) c := by
  refine reach_secured (fun _ _ => trivial) (fun s fresh => ?_) (fun d call past inv _ _ => ?_)
    (fun i call s t kept idle id mine => (idle id mine).later kept)
    (fun s e t _ inv _ moved => ?_) reach
  · obtain ⟨restarted,history⟩ := fresh
    refine ⟨fun id row here flies => ?_,fun id row here => (restarted id row here).2⟩
    rw [(restarted id row here).1] at flies
    cases flies
  · -- a thread that has not started owns no row
    have idle (id : TransferId) : Idle d.threads.length id d.shared := by
      unfold Idle
      rw [Option.eq_none_iff_forall_not_mem]
      intro state there
      obtain ⟨⟨call,owner⟩,_⟩ := flight_some.mp there
      obtain ⟨rest,present⟩ := owner_thread past id _ call owner
      exact absurd (List.getElem?_eq_some_iff.mp present).1 (Nat.lt_irrefl _)
    cases call with
    | receive id =>
      refine safe_mono (fun _ t idle id' mine => ?_) (does_receive rfl (decide_eq_true rfl) (idle id))
      exact of_decide_eq_true mine ▸ idle
    | resume id =>
      refine safe_mono (fun _ t idle id' mine => ?_) (does_resume rfl (decide_eq_true rfl) (idle id))
      exact of_decide_eq_true mine ▸ idle
    | _ => exact safe_mono (fun _ _ _ _ => nofun) (does_quiet (quiet_call (l := l) rfl))
  · cases Option.some.inj moved
    exact env_kept inv e

theorem settled_or {state : TargetedTransferState} (still : inFlight state = false)
    (decided : state.preapproval = false) : state.resumable = true ∨ state.terminal = true := by
  cases state with
  | preparing | offering | awaitingApproval => cases decided
  | connecting | transferring => cases still
  | approved | interrupted => exact .inl rfl
  | _ => exact .inr rfl

/-- A process starts without rows in flight, and a receive meets none of the failures that
would leave one: then, when every receive of a transfer has returned, its row is not in flight,
and a receiver's row can be resumed or is terminal. -/
theorem receive_never_stuck {id : TransferId} {row : TargetedTransferRow}
    (reach : Reach (machine l).system (Watched (minds l)) c)
    (returned : ∀ t ∈ c.threads, receives id t.call = true → t.rest.finished = true)
    (here : c.shared.state.store.getRow id = some row) :
    inFlight row.state = false ∧
      (row.role = .receiver → row.state.resumable = true ∨ row.state.terminal = true) := by
  have reach := reach_watched reach
  have secured := secured reach
  have still : inFlight row.state = false := by
    rw [← Bool.not_eq_true]
    intro flies
    obtain ⟨i,call,owner,mine⟩ := secured.inv.owned id row here flies
    obtain ⟨rest,there⟩ := owner_thread reach id i call owner
    have safe := secured.threads i _ there
    have ended := returned _ (List.mem_of_getElem? there) mine
    cases rest with
    | step => cases ended
    | ret a =>
      have idle : Idle i id c.shared := safe id mine
      unfold Idle at idle
      rw [flight_some.mpr ⟨⟨call,owner⟩,flies,row,here,rfl⟩] at idle
      cases idle
  exact ⟨still,fun receiver => settled_or still (secured.inv.received id row here receiver)⟩

end Reached

/-! Device 2 receives transfer 7, whose authorization it holds. -/
namespace Sample

def receiver : Local := ⟨2,1,10,100,8,id,some⟩

def row : TargetedTransferRow := ⟨7,7,1,2,3,3,5,1,1,0,some 3,some 9,.receiver,.approved,0,0⟩

def start : Conf Seen Call Op Ans where
  shared := ⟨{ Device.new with
    store := { Device.new.store with transfers := ⟨[row],List.nodup_singleton _⟩ }
    custody := fun h => if h = 9 then some 4 else none
    handles := [9] },⟨fun _ => none,fun _ => none,fun _ => none⟩⟩
  threads := []

/-- The store may fail; the download succeeds, and the sender cannot be reached afterwards. -/
def proceed (fails : Bool) : Label Call Choice Housekeeping :=
  .act 0 ⟨0,fails,false,0,none,⟨[],true⟩⟩

def fails : Label Call Choice Housekeeping → Bool
  | .act _ c => c.fails
  | _ => false

/-- The row is read, its authorization loaded, and the row read and moved twice; it is
downloaded, read and completed. -/
def receiving (recorded : Bool) : List (Label Call Choice Housekeeping) :=
  .fork (.receive 7) :: List.replicate 8 (proceed false) ++ [proceed !recorded]

def received (labels : List (Label Call Choice Housekeeping)) : Conf Seen Call Op Ans :=
  ((machine receiver).system.run start labels).getD start

theorem start_restarted : (machine receiver).system.init start := by
  refine ⟨⟨fun id r here => ?_,rfl⟩,rfl⟩
  have found := Table.find_mem here
  simp only [start,List.mem_singleton] at found
  subst found
  exact ⟨rfl,fun _ => rfl⟩

instance (l : Local) (c : Conf Seen Call Op Ans) :
    DecidablePred (Watched (γ := Housekeeping) (minds l) c) :=
  have (s : Seen) (i : Nat) (call : Call) (o : Op) (c : Choice) : Decidable (minds l s i call o c) :=
    instDecidableEqBool (permits l s i o c) true
  inferInstance

end Sample

open Targeted.Receiving.Sample

/-- The completion is recorded. -/
theorem receive_completed : ∃ r,
    (received (receiving true ++ [proceed false,proceed false])).shared.state.store.getRow 7 = some r ∧
    inFlight r.state = false ∧ (r.role = .receiver → r.state.resumable = true ∨ r.state.terminal = true) := by
  have reach : Reach (machine receiver).system (Watched (minds receiver))
      (received (receiving true ++ [proceed false,proceed false])) :=
    (Reach.start start start_restarted).run (by decide)
      (show (machine receiver).system.run _ (receiving true ++ [proceed false,proceed false]) = some _ from rfl)
  exact ⟨_,rfl,receive_never_stuck reach (by decide)
    (show (received (receiving true ++ [proceed false,proceed false])).shared.state.store.getRow 7 = some _ from rfl)⟩

/-- The one step that fails is the write of the completion: everything has returned, nothing
is registered, and the row is transferring. -/
theorem receive_stuck : ∃ c r, (machine receiver).system.init start ∧
    (machine receiver).system.run start (receiving false ++ [proceed false]) = some c ∧
    (receiving false ++ [proceed false]).countP fails = 1 ∧
    (∀ t ∈ c.threads, t.rest.finished = true) ∧ c.shared.state.active 7 = false ∧
    c.shared.state.store.getRow 7 = some r ∧ r.state = .transferring :=
  ⟨received (receiving false ++ [proceed false]),_,start_restarted,rfl,by decide,by decide,rfl,rfl,rfl⟩

end Vnidrop.Targeted.Receiving
