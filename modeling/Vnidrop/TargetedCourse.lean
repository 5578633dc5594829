import Vnidrop.TargetedCalls
import Vnidrop.TargetedRows

/-! The course of a transfer from its draw to its approval or teardown: what sends and
stops keep of it, and what each of their operations does to it. -/
namespace Vnidrop.Targeted.Preparation

open Tables Access Programs Runs TargetedTransferState Store

/-- What an approved transfer leaves outside its row. -/
inductive Trace where
  | hashes
  | mode
  | sessions
  | tag
  | secret
  deriving DecidableEq, Repr

/-- How far the send that has drawn an identifier has come with it. -/
structure Course where
  owner : Nat
  inserted : Bool
  registered : Bool
  approved : Bool
  torn : Bool
  secret : Option Handle
  deriving DecidableEq, Repr

/-- Which stops have ended a row, which of them are still removing what belongs to it,
and what the stops have answered. -/
structure History where
  course : TransferId → Option Course
  ended : List (Nat × TransferId)
  removing : List (Nat × TransferId)
  answers : List (Nat × TransferId × TargetedPreparationStopOutcome)

/-- A course that has just begun. -/
def Course.first (i : Nat) : Course := ⟨i,false,false,false,false,none⟩

def History.draw (h : History) (i : Nat) (id : TransferId) : History :=
  { h with course := Function.update h.course id (some (.first i)) }

def History.change (h : History) (id : TransferId) (f : Course → Course) : History :=
  { h with course := Function.update h.course id ((h.course id).map f) }

def History.finish (h : History) (i : Nat) (id : TransferId) (changed : Bool) : History :=
  { h with ended := if changed then (i,id) :: h.ended else h.ended }

def record (h : History) (_ : Device) (i : Nat) (call : Call) : (op : Op) → Ans op → History
  | .drawTransferId, id =>
    match call with
    | .send _ => h.draw i id
    | _ => h
  | .write (.insert row), .ok _ => h.change row.id fun k => { k with inserted := true }
  | .registered id, _ => h.change id fun k => { k with registered := true }
  | .protect auth, some handle => h.change auth.transferId fun k => { k with secret := some handle }
  | .write (.finalizeSenderAuthorization id _ _), .ok _ =>
    h.change id fun k => { k with approved := true }
  | .deleteTag id, true =>
    match call with
    | .send _ => h.change id fun k => { k with torn := true }
    | _ => h
  | .write (.abandonSenderPreapproval id), .ok changed => h.finish i id changed
  | .write (.transitionTerminal id _ _), .ok changed =>
    if call = .stop id then { h.finish i id changed with removing := (i,id) :: h.removing }
    else h.finish i id changed
  | .stopped id outcome, _ =>
    { h with
      removing := h.removing.filter (· ≠ (i,id))
      answers := (i,id,outcome) :: h.answers }
  | _, _ => h

abbrev State := Observed Device History

/-- The sends and stops of a device that starts out empty. -/
def machine (l : Local) : Machine State Call Op Ans Choice Housekeeping :=
  (device l (· = .new)).observe ⟨fun _ => none,[],[],[]⟩ record fun h _ _ => h

/-- Only sends and stops run, and the steps of a cleanup succeed. -/
def guard : Guard State Call Op Choice Housekeeping where
  starts _ call := match call with
    | .send _ | .stop _ => True
    | _ => False
  steps _ _ op c := match op with
    | .deleteTag _ | .remove _ | .write (.clearAuthorization _) => c.fails = false
    | _ => True
  events _ _ := False

/-- What still stands for the transfer. -/
def Remains (l : Local) (s : State) (id : TransferId) : Trace → Prop
  | .hashes => ∃ hash, l.allocateProtocolTransferId id ∈ s.state.hashes hash
  | .mode => s.state.policy.modes (l.allocateProtocolTransferId id) ≠ none
  | .sessions => ∃ e, s.state.policy.sessions (l.allocateProtocolTransferId id) e ≠ none
  | .tag => s.state.tags id ≠ none
  | .secret => ∃ k handle, s.history.course id = some k ∧ k.secret = some handle ∧
      s.state.custody handle ≠ none

/-- All there is about one identifier. -/
structure View where
  row : Option TargetedTransferRow
  course : Option Course
  remains : Trace → Prop
  registered : Prop
  removing : Nat → Prop
  ended : Nat → Prop
  answered : Nat → TargetedPreparationStopOutcome → Prop

def view (l : Local) (s : State) (id : TransferId) : View where
  row := s.state.store.getRow id
  course := s.history.course id
  remains := Remains l s id
  registered := id ∈ s.state.registered
  removing j := (j,id) ∈ s.history.removing
  ended j := (j,id) ∈ s.history.ended
  answered j outcome := (j,id,outcome) ∈ s.history.answers

/-- The row has left the states a stop abandons. -/
def View.settled (v : View) : Prop := ∃ r, v.row = some r ∧ r.state.preapproval = false

def View.live (v : View) : Prop := ∃ r, v.row = some r ∧ r.state.terminal = false

/-- The row has been there and is not any more. -/
def View.gone (v : View) : Prop := v.row = none ∧ ∃ k, v.course = some k ∧ k.inserted = true

/-- The answer of a stop, as the row bears it out. -/
def View.bears (v : View) (j : Nat) : TargetedPreparationStopOutcome → Prop
  | .transferAbandoned => v.gone
  | .transferCancelled => ∃ r, v.row = some r ∧ r.state = .cancelled
  | .alreadyTerminal => (∃ r, v.row = some r ∧ r.state.terminal = true) ∧ ¬v.ended j

/-- What no statement changes in a row. -/
def identity (r : TargetedTransferRow) : TargetedTransferRole × Nat := (r.role,r.protocolTransferId)

/-- What holds in every reachable state of one identifier and its protocol identifier. -/
structure View.Holds (p : Nat) (v : View) : Prop where
  registered : v.registered → ∃ k, v.course = some k ∧ k.inserted = true ∧ k.registered = true
  row : ∀ r, v.row = some r → identity r = (.sender,p) ∧ ∃ k, v.course = some k ∧ k.inserted = true
  early : ∀ r k, v.row = some r → v.course = some k → r.state.preapproval = true →
    k.approved = false ∧ r.authorizationSecretHandle = none
  live : ∀ r k, v.row = some r → v.course = some k → r.state.preapproval = false →
    r.state.terminal = false →
      k.approved = true ∧ k.secret ≠ none ∧ r.authorizationSecretHandle = k.secret
  approved : ∀ k, v.course = some k → k.approved = true → v.settled
  torn : ∀ k, v.course = some k → k.torn = true → ∀ x, ¬v.remains x
  removed : ∀ k, v.course = some k → k.approved = true → ∀ x, v.remains x →
    v.live ∨ ∃ j, v.removing j
  answered : ∀ j outcome, v.answered j outcome → v.bears j outcome
  told : ∀ j outcome, v.answered j outcome → v.registered

/-- What thread `i` relies on the others to keep of one identifier. -/
structure View.Kept (i : Nat) (v w : View) : Prop where
  own : ∀ k, k.owner = i → (v.course = some k ↔ w.course = some k)
  final : ∀ k, v.course = some k → k.approved = true → w.course = some k
  shrinks : ∀ k, v.course = some k → k.owner = i ∨ k.approved = true →
    ∀ x, w.remains x → v.remains x
  gone : v.gone → w.gone
  settled : ∀ r, v.row = some r → r.state.preapproval = false →
    ∃ r', w.row = some r' ∧ r'.state.preapproval = false ∧
      (r.state.terminal = true → r'.state = r.state)
  registered : v.registered → w.registered
  removing : v.removing i ↔ w.removing i
  ended : v.ended i ↔ w.ended i

/-- Nothing about the identifier changes but that less remains of it. -/
structure View.Dims (v w : View) : Prop where
  row : w.row = v.row
  course : w.course = v.course
  remains : ∀ k, v.course = some k → ∀ x, w.remains x → v.remains x
  registered : w.registered ↔ v.registered
  removing : ∀ j, w.removing j ↔ v.removing j
  ended : ∀ j, w.ended j ↔ v.ended j
  answered : ∀ j outcome, w.answered j outcome ↔ v.answered j outcome

theorem View.Kept.refl (i : Nat) (v : View) : v.Kept i v :=
  ⟨fun _ _ => .rfl,fun _ h _ => h,fun _ _ _ _ h => h,id,fun r h early => ⟨r,h,early,fun _ => rfl⟩,
    id,.rfl,.rfl⟩

theorem View.Kept.trans {i : Nat} {u v w : View} (first : u.Kept i v) (second : v.Kept i w) :
    u.Kept i w where
  own k mine := (first.own k mine).trans (second.own k mine)
  final k here approved := second.final k (first.final k here approved) approved
  shrinks k here either x left := by
    have there : v.course = some k := by
      rcases either with mine | approved
      · exact (first.own k mine).mp here
      · exact first.final k here approved
    exact first.shrinks k here either x (second.shrinks k there either x left)
  gone h := second.gone (first.gone h)
  settled r here past := by
    obtain ⟨r',there,past',same⟩ := first.settled r here past
    obtain ⟨r'',last,past'',same'⟩ := second.settled r' there past'
    refine ⟨r'',last,past'',fun terminal => ?_⟩
    rw [same' (by rw [same terminal]; exact terminal),same terminal]
  registered h := second.registered (first.registered h)
  removing := first.removing.trans second.removing
  ended := first.ended.trans second.ended

theorem View.Dims.refl (v : View) : v.Dims v :=
  ⟨rfl,rfl,fun _ _ _ h => h,.rfl,fun _ => .rfl,fun _ => .rfl,fun _ _ => .rfl⟩

theorem View.Dims.kept {v w : View} (h : v.Dims w) (i : Nat) : v.Kept i w where
  own k _ := by rw [h.course]
  final k here _ := by rw [h.course]; exact here
  shrinks k here _ x := h.remains k here x
  gone there := ⟨h.row.trans there.1,by rw [h.course]; exact there.2⟩
  settled r here past := ⟨r,h.row.trans here,past,fun _ => rfl⟩
  registered := h.registered.mpr
  removing := (h.removing i).symm
  ended := (h.ended i).symm

theorem View.Dims.holds {p : Nat} {v w : View} (h : v.Dims w) (past : v.Holds p) : w.Holds p where
  registered here := by rw [h.course]; exact past.registered (h.registered.mp here)
  row r := by rw [h.row,h.course]; exact past.row r
  early r k := by rw [h.row,h.course]; exact past.early r k
  live r k := by rw [h.row,h.course]; exact past.live r k
  approved k := by rw [h.course,View.settled,h.row]; exact past.approved k
  torn k here torn x left := by
    rw [h.course] at here
    exact past.torn k here torn x (h.remains k here x left)
  removed k here approved x left := by
    rw [h.course] at here
    rcases past.removed k here approved x (h.remains k here x left) with ⟨r,row,live⟩ | ⟨j,there⟩
    · exact .inl ⟨r,h.row.trans row,live⟩
    · exact .inr ⟨j,(h.removing j).mpr there⟩
  answered j outcome here := by
    have bears := past.answered j outcome ((h.answered j outcome).mp here)
    cases outcome <;> simpa only [View.bears,View.gone,h.row,h.course,h.ended] using bears
  told j outcome here := h.registered.mpr (past.told j outcome ((h.answered j outcome).mp here))

/-- What holds across identifiers: they have distinct protocol identifiers. -/
structure Apart (l : Local) (s : State) : Prop where
  drawn : ∀ id, s.history.course id ≠ none ↔ id ∈ s.state.drawn
  digests : ∀ id id', id ∈ s.state.drawn → id' ∈ s.state.drawn →
    l.allocateProtocolTransferId id = l.allocateProtocolTransferId id' → id = id'
  secrets : ∀ id k handle, s.history.course id = some k → k.secret = some handle →
    handle ∈ s.state.handles

structure Inv (l : Local) (s : State) : Prop where
  apart : Apart l s
  each : ∀ id, (view l s id).Holds (l.allocateProtocolTransferId id)

def terms (l : Local) : Terms State where
  known _ := True
  inv := Inv l
  rely i s t := ∀ id, (view l s id).Kept i (view l t id)
  refl i _ _ := .refl i _
  trans _ _ _ _ first second id := (first id).trans (second id)

abbrev Safely (l : Local) (i : Nat) (call : Call) {α : Type} (p : Task α) (post : α → State → Prop)
    (s : State) : Prop :=
  Safe (machine l) guard (terms l) i call p post s

theorem exec_machine {l : Local} {s u : State} {i : Nat} {call : Call} {op : Op} {c : Choice}
    {r : Ans op} (h : (machine l).exec s i call op c = some (r,u)) :
    ∃ t, s.state.exec l c op = some (r,t) ∧ u = ⟨t,record s.history s.state i call op r⟩ :=
  observe_exec h

/-! Operations that only take away. -/

/-- Less stands on the device, and the rows are the same. -/
structure Less (s t : Device) : Prop where
  row : ∀ id, t.store.getRow id = s.store.getRow id
  registered : t.registered = s.registered
  drawn : t.drawn = s.drawn
  handles : t.handles = s.handles
  hashes : ∀ hash p, p ∈ t.hashes hash → p ∈ s.hashes hash
  modes : ∀ p, t.policy.modes p ≠ none → s.policy.modes p ≠ none
  sessions : ∀ p e, t.policy.sessions p e ≠ none → s.policy.sessions p e ≠ none
  tags : ∀ id, t.tags id ≠ none → s.tags id ≠ none
  custody : ∀ handle, t.custody handle ≠ none → s.custody handle ≠ none

theorem Less.refl (s : Device) : Less s s :=
  ⟨fun _ => rfl,rfl,rfl,rfl,fun _ _ h => h,fun _ h => h,fun _ _ h => h,fun _ h => h,fun _ h => h⟩

theorem Less.dims {l : Local} {s : State} {t : Device} (h : Less s.state t) (id : TransferId) :
    (view l s id).Dims (view l ⟨t,s.history⟩ id) where
  row := h.row id
  course := rfl
  remains _ _ x left := by
    cases x with
    | hashes => exact left.imp fun hash there => h.hashes hash _ there
    | mode => exact h.modes _ left
    | sessions => exact left.imp fun e there => h.sessions _ e there
    | tag => exact h.tags _ left
    | secret =>
      obtain ⟨k,handle,course,secret,there⟩ := left
      exact ⟨k,handle,course,secret,h.custody _ there⟩
  registered := by rw [view,view,h.registered]
  removing _ := .rfl
  ended _ := .rfl
  answered _ _ := .rfl

theorem Less.apart {l : Local} {s : State} {t : Device} (h : Less s.state t) (past : Apart l s) :
    Apart l ⟨t,s.history⟩ where
  drawn id := by rw [h.drawn]; exact past.drawn id
  digests := by rw [h.drawn]; exact past.digests
  secrets := by rw [h.handles]; exact past.secrets

theorem update_ne_none {α β : Type} [DecidableEq α] {f : α → Option β} {a : α} {x : α}
    (h : Function.update f a none x ≠ none) : f x ≠ none := by
  rw [Function.update_apply] at h
  split at h
  · exact absurd rfl h
  · exact h

/-- The operations of sends and stops that only look, or only take away. -/
def mild (call : Call) : Op → Bool
  | .deactivate _ | .unregisterTransferHashes _ | .removeMode _ | .removeSessions _ => true
  | .remove _ | .send .. => true
  | .deleteTag _ => match call with
    | .send _ => false
    | _ => true
  | .stopped .. => false
  | op => Device.reads op

theorem mild_less {l : Local} {s t : Device} {call : Call} {op : Op} {c : Choice} {r : Ans op}
    (takes : mild call op = true) (h : s.exec l c op = some (r,t)) : Less s t := by
  have kept : Less s s := .refl s
  cases op
  case deactivate | send =>
    cases h
    exact ⟨fun _ => rfl,rfl,rfl,rfl,kept.hashes,kept.modes,kept.sessions,kept.tags,kept.custody⟩
  case unregisterTransferHashes protocolId =>
    cases h
    exact { kept with hashes := fun hash p there => List.mem_of_mem_filter there }
  case removeMode protocolId =>
    cases h
    exact { kept with modes := fun p there => update_ne_none there }
  case removeSessions protocolId =>
    cases h
    refine { kept with sessions := fun p e there => ?_ }
    change Function.update s.policy.sessions protocolId (fun _ => none) p e ≠ none at there
    rw [Function.update_apply] at there
    split at there
    · exact absurd rfl there
    · exact there
  case remove handle =>
    simp only [Device.exec] at h
    split at h <;> cases h
    · exact kept
    · exact { kept with custody := fun other there => update_ne_none there }
  case deleteTag id =>
    simp only [Device.exec] at h
    split at h <;> cases h
    · exact kept
    · exact { kept with tags := fun other there => update_ne_none there }
  all_goals
    have same := Device.exec_reads (by first | exact takes | cases takes) h
    exact same ▸ kept

theorem mild_record {call : Call} {op : Op} (takes : mild call op = true) (h : History) (s : Device)
    (i : Nat) (r : Ans op) : record h s i call op r = h := by
  cases op
  case deleteTag id =>
    cases r with
    | false => rfl
    | true => cases call <;> first | rfl | cases takes
  all_goals first | rfl | cases takes

theorem quiet_mild {l : Local} {i : Nat} {call : Call} {op : Op} (takes : mild call op = true) :
    Quiet (machine l) guard (terms l) i call op := by
  intro s _ inv c r u _ performed
  obtain ⟨t,ran,rfl⟩ := exec_machine performed
  rw [mild_record takes]
  have less := mild_less takes ran
  exact ⟨⟨less.apart inv.apart,fun id => (less.dims id).holds (inv.each id)⟩,
    fun j id => (less.dims id).kept j⟩

/-! Statements on a row. -/

theorem write_cases {l : Local} {s u : State} {i : Nat} {call : Call} {w : Write} {c : Choice}
    {r : Ans (.write w)} (h : (machine l).exec s i call (.write w) c = some (r,u)) :
    ((∃ e, r = .error e) ∧ u = s) ∨
    ∃ changed store, w.run s.state.store c.now = .ok (changed,store) ∧ r = .ok changed ∧
      u = ⟨{ s.state with store },record s.history s.state i call (.write w) (.ok changed)⟩ := by
  obtain ⟨t,ran,rfl⟩ := exec_machine h
  rcases Device.exec_write ran with ⟨⟨e,rfl⟩,rfl⟩ | ⟨changed,store,ok,rfl,rfl⟩
  · refine .inl ⟨⟨e,rfl⟩,?_⟩
    cases w <;> rfl
  · exact .inr ⟨changed,store,ok,rfl,rfl⟩

/-- A row that a stop would abandon stays one, or settles without having been approved. -/
structure View.Early (v w : View) : Prop where
  row : ∃ r r', v.row = some r ∧ w.row = some r' ∧ r.state.preapproval = true ∧ identity r' = identity r ∧
    r'.authorizationSecretHandle = r.authorizationSecretHandle ∧
    (r'.state.preapproval = true ∨ r'.state.terminal = true)
  course : w.course = v.course
  remains : w.remains = v.remains
  registered : w.registered = v.registered
  removing : w.removing = v.removing
  ended : w.ended = v.ended
  answered : w.answered = v.answered

theorem View.Early.kept {v w : View} (h : v.Early w) (i : Nat) : v.Kept i w where
  own k _ := by rw [h.course]
  final k here _ := by rw [h.course]; exact here
  shrinks k _ _ x left := h.remains ▸ left
  gone there := by
    obtain ⟨r,_,row,_⟩ := h.row
    exact absurd (there.1.symm.trans row) nofun
  settled r here past := by
    obtain ⟨r',_,row,_,early,_⟩ := h.row
    cases here.symm.trans row
    rw [early] at past
    cases past
  registered := by rw [h.registered]; exact id
  removing := by rw [h.removing]
  ended := by rw [h.ended]

/-- No stop has answered while its row could still be abandoned. -/
theorem View.Holds.unanswered {p : Nat} {v : View} (h : v.Holds p) {r : TargetedTransferRow} (here : v.row = some r)
    (early : r.state.preapproval = true) (j : Nat) (outcome : TargetedPreparationStopOutcome) :
    ¬v.answered j outcome := by
  intro there
  have bears := h.answered j outcome there
  have live := preapproval_live early
  cases outcome with
  | transferAbandoned => exact absurd (bears.1.symm.trans here) nofun
  | transferCancelled =>
    obtain ⟨r₀,row,state⟩ := bears
    cases row.symm.trans here
    rw [state] at early
    cases early
  | alreadyTerminal =>
    obtain ⟨⟨r₀,row,state⟩,_⟩ := bears
    cases row.symm.trans here
    rw [state] at live
    cases live

theorem View.Early.holds {p : Nat} {v w : View} (h : v.Early w) (past : v.Holds p) : w.Holds p := by
  obtain ⟨r,r',before,after,early,role,handle,state⟩ := h.row
  have unapproved : ∀ k, w.course = some k → k.approved = false := fun k here =>
    (past.early r k before (h.course ▸ here) early).1
  have unanswered := past.unanswered before early
  refine ⟨?_,?_,?_,?_,?_,?_,?_,?_,?_⟩
  · rw [h.registered,h.course]
    exact past.registered
  · intro r₀ here
    cases here.symm.trans after
    rw [role,h.course]
    exact past.row r before
  · intro r₀ k here course _
    cases here.symm.trans after
    rw [handle]
    exact past.early r k before (h.course ▸ course) early
  · intro r₀ k here _ pre live
    cases here.symm.trans after
    rw [pre,live] at state
    simp at state
  · intro k here approved
    rw [unapproved k here] at approved
    cases approved
  · intro k here
    rw [h.remains]
    exact past.torn k (h.course ▸ here)
  · intro k here approved
    rw [unapproved k here] at approved
    cases approved
  all_goals
    intro j outcome here
    exact absurd (h.answered ▸ here) (unanswered j outcome)

/-- The moves of a row before its approval, made under a check of its state. -/
def early : Write → Bool
  | .setState _ src dst | .updateState _ src dst => src.preapproval && (dst.preapproval || dst.terminal)
  | _ => false

theorem early_row {w : Write} (is : early w = true) (now : Millis) (id : TransferId)
    (row : Option TargetedTransferRow) : w.onRow now id row = row ∨
      ∃ r r', row = some r ∧ w.onRow now id row = some r' ∧ r.state.preapproval = true ∧
        identity r' = identity r ∧ r'.authorizationSecretHandle = r.authorizationSecretHandle ∧
        (r'.state.preapproval = true ∨ r'.state.terminal = true) := by
  cases w <;> try cases is
  case setState id' src dst | updateState id' src dst =>
    simp only [early,Bool.and_eq_true,Bool.or_eq_true] at is
    rw [Write.onRow]
    by_cases here : id = id'
    · cases row with
      | none => exact .inl (by simp)
      | some r =>
        by_cases holds : r.state = src
        · refine .inr ⟨r,{ r with state := dst, updatedAt := now },rfl,?_,holds ▸ is.1,rfl,rfl,is.2⟩
          simp [here,holds]
        · exact .inl (by simp [holds])
    · exact .inl (by simp [here])

theorem quiet_early {l : Local} {i : Nat} {call : Call} {w : Write} (is : early w = true) :
    Quiet (machine l) guard (terms l) i call (.write w) := by
  intro s _ inv c r u _ performed
  rcases write_cases performed with ⟨_,rfl⟩ | ⟨changed,store,ran,_,rfl⟩
  · exact ⟨inv,fun j id => .refl j _⟩
  · have same : record s.history s.state i call (.write w) (.ok changed) = s.history := by
      cases w <;> first | rfl | cases is
    rw [same]
    have each : ∀ id, (view l s id).Dims (view l ⟨{ s.state with store },s.history⟩ id) ∨
        (view l s id).Early (view l ⟨{ s.state with store },s.history⟩ id) := by
      intro id
      rcases early_row is c.now id (s.state.store.getRow id) with row | moved
      · exact .inl { View.Dims.refl _ with row := (run_getRow ran id).trans row }
      · rw [← run_getRow ran id] at moved
        exact .inr ⟨moved,rfl,rfl,rfl,rfl,rfl,rfl⟩
    refine ⟨⟨⟨inv.apart.drawn,inv.apart.digests,inv.apart.secrets⟩,fun id => ?_⟩,fun j id => ?_⟩
    · exact (each id).elim (·.holds (inv.each id)) (·.holds (inv.each id))
    · exact (each id).elim (·.kept j) (·.kept j)

/-! The send that owns a transfer. -/

/-- The step of a thread keeps the invariant, and what the others rely on. -/
abbrev Steps (l : Local) (i : Nat) (s u : State) : Prop :=
  Inv l u ∧ ∀ j, j ≠ i → (terms l).rely j s u

/-- Thread `i` is at work on the one transfer it has drawn. -/
structure Mine (i : Nat) (id : TransferId) (k : Course) (s : State) : Prop where
  course : s.history.course id = some k
  owner : k.owner = i
  approved : k.approved = false
  torn : k.torn = false
  only : ∀ id' k', s.history.course id' = some k' → k'.owner = i → id' = id

/-- What a call leaves: a registered transfer is approved or torn down, and a stop is not
removing anything any more. -/
def Finished (i : Nat) : Call → State → Prop
  | .send _, s => ∀ id k, s.history.course id = some k → k.owner = i → k.registered = true →
      k.approved = true ∨ k.torn = true
  | .stop _, s => ∀ id, (i,id) ∉ s.history.removing
  | _, _ => True

theorem finished_stable {l : Local} {i : Nat} {call : Call} {s t : State}
    (rely : (terms l).rely i s t) (h : Finished i call s) : Finished i call t := by
  cases call
  case send => exact fun id k there mine => h id k (((rely id).own k mine).mpr there) mine
  case stop => exact fun id there => h id ((rely id).removing.mpr there)
  all_goals trivial

section Owner

variable {l : Local} {i : Nat} {id : TransferId} {k k' : Course} {s t u : State} {call : Call}
  {c : Choice}

theorem Mine.later (mine : Mine i id k s) (rely : (terms l).rely i s t) : Mine i id k t where
  course := ((rely id).own k mine.owner).mp mine.course
  owner := mine.owner
  approved := mine.approved
  torn := mine.torn
  only id' k' there owner := mine.only id' k' (((rely id').own k' owner).mpr there) owner

theorem Mine.untorn (mine : Mine i id k s) {P : Prop} (torn : k.torn = true) : P := by
  rw [mine.torn] at torn
  cases torn

/-- Nothing has been registered yet, so nothing has to be torn down. -/
theorem Mine.unregistered (mine : Mine i id k s) (h : k.registered = false) {p : Payload} :
    Finished i (.send p) s := by
  intro id' k' there owner registered
  cases mine.only id' k' there owner
  cases there.symm.trans mine.course
  rw [h] at registered
  cases registered

/-- What the owner does to its transfer before the approval. -/
structure View.Own (i : Nat) (k k' : Course) (v w : View) : Prop where
  row : w.row = v.row
  before : v.course = some k
  after : w.course = some k'
  owner : k.owner = i
  unapproved : k.approved = false ∧ k'.approved = false
  inserted : k.inserted = true → k'.inserted = true
  flagged : k.registered = true → k'.registered = true
  registered : v.registered → w.registered
  registers : w.registered → v.registered ∨ k'.registered = true ∧ k'.inserted = true
  torn : k'.torn = true → ∀ x, ¬w.remains x
  removing : w.removing = v.removing
  ended : w.ended = v.ended
  answered : w.answered = v.answered
  owner' : k'.owner = i

theorem View.Own.kept {v w : View} (h : v.Own i k k' w) {j : Nat} (other : j ≠ i) : v.Kept j w where
  own k₀ mine := by
    rw [h.before,h.after]
    have first : some k ≠ some k₀ := fun same => other (by cases same; exact mine.symm.trans h.owner)
    have second : some k' ≠ some k₀ := fun same => other (by cases same; exact mine.symm.trans h.owner')
    exact ⟨fun there => absurd there first,fun there => absurd there second⟩
  final k₀ here approved := by
    cases here.symm.trans h.before
    rw [h.unapproved.1] at approved
    cases approved
  shrinks k₀ here either := by
    cases here.symm.trans h.before
    rcases either with mine | approved
    · exact absurd (mine.symm.trans h.owner) other
    · rw [h.unapproved.1] at approved
      cases approved
  gone there := by
    obtain ⟨row,k₀,here,inserted⟩ := there
    cases here.symm.trans h.before
    exact ⟨h.row.trans row,k',h.after,h.inserted inserted⟩
  settled r here past := ⟨r,h.row.trans here,past,fun _ => rfl⟩
  registered := h.registered
  removing := by rw [h.removing]
  ended := by rw [h.ended]

theorem View.Own.holds {p : Nat} {v w : View} (h : v.Own i k k' w) (past : v.Holds p) : w.Holds p := by
  have inserted : ∀ k₀, v.course = some k₀ → k₀.inserted = true → k'.inserted = true := by
    intro k₀ here
    cases here.symm.trans h.before
    exact h.inserted
  refine ⟨?_,?_,?_,?_,?_,?_,?_,?_,fun j o there => h.registered (past.told j o (h.answered ▸ there))⟩
  · intro there
    rcases h.registers there with old | new
    · obtain ⟨k₀,here,ins,reg⟩ := past.registered old
      cases here.symm.trans h.before
      exact ⟨k',h.after,h.inserted ins,h.flagged reg⟩
    · exact ⟨k',h.after,new.2,new.1⟩
  · intro r here
    rw [h.row] at here
    obtain ⟨role,k₀,course,ins⟩ := past.row r here
    exact ⟨role,k',h.after,inserted k₀ course ins⟩
  · intro r k₀ here course pre
    cases course.symm.trans h.after
    rw [h.row] at here
    exact ⟨h.unapproved.2,(past.early r k here h.before pre).2⟩
  · intro r k₀ here _ pre live
    rw [h.row] at here
    have approved := (past.live r k here h.before pre live).1
    rw [h.unapproved.1] at approved
    cases approved
  · intro k₀ course approved
    cases course.symm.trans h.after
    rw [h.unapproved.2] at approved
    cases approved
  · intro k₀ course
    cases course.symm.trans h.after
    exact h.torn
  · intro k₀ course approved
    cases course.symm.trans h.after
    rw [h.unapproved.2] at approved
    cases approved
  · intro j outcome there
    have bears := past.answered j outcome (h.answered ▸ there)
    cases outcome with
    | transferAbandoned =>
      obtain ⟨row,k₀,course,ins⟩ := bears
      exact ⟨h.row.trans row,k',h.after,inserted k₀ course ins⟩
    | transferCancelled => simpa only [View.bears,h.row] using bears
    | alreadyTerminal => simpa only [View.bears,h.row,h.ended] using bears

/-- A step on one transfer that leaves the others alone. -/
theorem single_step (inv : Inv l s) (holds : (view l u id).Holds (l.allocateProtocolTransferId id))
    (kept : ∀ j, j ≠ i → (view l s id).Kept j (view l u id))
    (others : ∀ id', id' ≠ id → (view l s id').Dims (view l u id')) (apart : Apart l u) :
    Steps l i s u := by
  refine ⟨⟨apart,fun id' => ?_⟩,fun j other id' => ?_⟩
  · by_cases here : id' = id
    · rw [here]
      exact holds
    · exact (others id' here).holds (inv.each id')
  · by_cases here : id' = id
    · rw [here]
      exact kept j other
    · exact (others id' here).kept j

theorem own_step (inv : Inv l s) (own : (view l s id).Own i k k' (view l u id))
    (others : ∀ id', id' ≠ id → (view l s id').Dims (view l u id')) (apart : Apart l u) :
    Steps l i s u :=
  single_step inv (own.holds (inv.each id)) (fun _ => own.kept) others apart

/-- The operations that provide the payload of `id`. -/
def provides (l : Local) (id : TransferId) : Op → Bool
  | .setTag id' _ => id' = id
  | .registerShareHashes p _ | .setMode p | .approveEndpoint p _ => p = l.allocateProtocolTransferId id
  | _ => false

/-- What is provided for one identifier is not provided for another. -/
theorem provides_dims {op : Op} {d : Device} {r : Ans op} (is : provides l id op = true)
    (inv : Inv l s) (drawn : id ∈ s.state.drawn) (ran : s.state.exec l c op = some (r,d))
    {id' : TransferId} (other : id' ≠ id) : (view l s id').Dims (view l ⟨d,s.history⟩ id') := by
  have digest : ∀ k₀, s.history.course id' = some k₀ →
      l.allocateProtocolTransferId id' ≠ l.allocateProtocolTransferId id := by
    intro k₀ here same
    have drawn' := (inv.apart.drawn id').mp (by rw [here]; nofun)
    exact other (inv.apart.digests id' id drawn' drawn same)
  cases op <;> try cases is
  case setTag id₀ hash =>
    cases of_decide_eq_true is
    simp only [Device.exec] at ran
    split at ran <;> cases ran
    · exact .refl _
    · refine { View.Dims.refl _ with remains := fun k₀ here x left => ?_ }
      cases x with
      | tag =>
        change Function.update s.state.tags id (some hash) id' ≠ none at left
        rw [Function.update_of_ne other] at left
        exact left
      | _ => exact left
  case registerShareHashes p hashes =>
    cases of_decide_eq_true is
    cases ran
    refine { View.Dims.refl _ with remains := fun k₀ here x left => ?_ }
    cases x with
    | hashes =>
      obtain ⟨hash,there⟩ := left
      refine ⟨hash,?_⟩
      simp only [Device.registerShareHashes] at there
      split at there
      · exact (List.mem_cons.mp there).resolve_left (digest k₀ here)
      · exact there
    | _ => exact left
  case setMode p =>
    cases of_decide_eq_true is
    cases ran
    refine { View.Dims.refl _ with remains := fun k₀ here x left => ?_ }
    cases x with
    | mode =>
      change Function.update s.state.policy.modes _ _ _ ≠ none at left
      rw [Function.update_of_ne (digest k₀ here)] at left
      exact left
    | _ => exact left
  case approveEndpoint p endpoint =>
    cases of_decide_eq_true is
    cases ran
    refine { View.Dims.refl _ with remains := fun k₀ here x left => ?_ }
    cases x with
    | sessions =>
      obtain ⟨e,there⟩ := left
      refine ⟨e,?_⟩
      change (s.state.policy.setSession _ _ _).sessions _ e ≠ none at there
      rw [AccessPolicy.setSession_other _ _ _ (digest k₀ here)] at there
      exact there
    | _ => exact left

theorem provides_store {op : Op} {d : Device} {r : Ans op} (is : provides l id op = true)
    (ran : s.state.exec l c op = some (r,d)) : d.store = s.state.store ∧
      d.registered = s.state.registered ∧ d.drawn = s.state.drawn ∧ d.handles = s.state.handles := by
  cases op <;> try cases is
  case setTag =>
    simp only [Device.exec] at ran
    split at ran <;> cases ran <;> exact ⟨rfl,rfl,rfl,rfl⟩
  all_goals cases ran; exact ⟨rfl,rfl,rfl,rfl⟩

theorem provide_step {op : Op} {r : Ans op} (is : provides l id op = true) (inv : Inv l s)
    (mine : Mine i id k s) (h : (machine l).exec s i call op c = some (r,u)) :
    Steps l i s u ∧ Mine i id k u := by
  obtain ⟨d,ran,rfl⟩ := exec_machine h
  have silent : record s.history s.state i call op r = s.history := by
    cases op <;> first | rfl | cases is
  rw [silent]
  obtain ⟨store,registered,drawn,handles⟩ := provides_store is ran
  have known := (inv.apart.drawn id).mp (by rw [mine.course]; nofun)
  have own : (view l s id).Own i k k (view l ⟨d,s.history⟩ id) := {
    row := by rw [view,view,store]
    before := mine.course
    after := mine.course
    owner := mine.owner
    unapproved := ⟨mine.approved,mine.approved⟩
    inserted := fun h => h
    flagged := fun h => h
    registered := by rw [view,view,registered]; exact fun h => h
    registers := by rw [view,view,registered]; exact .inl
    torn := mine.untorn
    removing := rfl
    ended := rfl
    answered := rfl
    owner' := mine.owner }
  refine ⟨own_step inv own (fun id' other => provides_dims is inv known ran other) ?_,
    ⟨mine.course,mine.owner,mine.approved,mine.torn,mine.only⟩⟩
  exact ⟨by rw [drawn]; exact inv.apart.drawn,by rw [drawn]; exact inv.apart.digests,
    by rw [handles]; exact inv.apart.secrets⟩

theorem change_course {h : History} (here : h.course id = some k) (f : Course → Course)
    (id' : TransferId) :
    (h.change id f).course id' = if id' = id then some (f k) else h.course id' := by
  rw [History.change,here]
  exact Function.update_apply ..

/-- The course of the owner's transfer after the history has been written. -/
theorem Mine.change (mine : Mine i id k s) (f : Course → Course) {d : Device}
    (owner : (f k).owner = i) (approved : (f k).approved = false) (torn : (f k).torn = false) :
    Mine i id (f k) ⟨d,s.history.change id f⟩ where
  course := by rw [change_course mine.course,if_pos rfl]
  owner := owner
  approved := approved
  torn := torn
  only id' k₀ there owned := by
    rw [change_course mine.course] at there
    split at there
    · assumption
    · exact mine.only id' k₀ there owned

theorem Apart.change (apart : Apart l s) (here : s.history.course id = some k) {f : Course → Course}
    {d : Device} (drawn : d.drawn = s.state.drawn)
    (handles : ∀ handle, handle ∈ s.state.handles → handle ∈ d.handles)
    (secret : ∀ handle, (f k).secret = some handle → handle ∈ d.handles) :
    Apart l ⟨d,s.history.change id f⟩ where
  drawn id' := by
    rw [change_course here,drawn]
    split
    · rename_i same
      rw [same]
      simpa [here] using apart.drawn id
    · exact apart.drawn id'
  digests := by rw [drawn]; exact apart.digests
  secrets id' k₀ handle there held := by
    rw [change_course here] at there
    split at there
    · cases there
      exact secret handle held
    · exact handles handle (apart.secrets id' k₀ handle there held)

/-- Another identifier is left alone by a change of this course. -/
theorem change_dims (here : s.history.course id = some k) {f : Course → Course} {d : Device}
    {id' : TransferId} (other : id' ≠ id) (row : d.store.getRow id' = s.state.store.getRow id')
    (registered : id' ∈ d.registered ↔ id' ∈ s.state.registered)
    (provided : d.hashes = s.state.hashes ∧ d.policy = s.state.policy ∧ ∀ x, x ≠ id → d.tags x = s.state.tags x)
    (custody : ∀ k₀ handle, s.history.course id' = some k₀ → k₀.secret = some handle →
      d.custody handle = s.state.custody handle) :
    (view l s id').Dims (view l ⟨d,s.history.change id f⟩ id') where
  row := row
  course := by
    show (s.history.change id f).course id' = _
    rw [change_course here,if_neg other]
    rfl
  remains k₀ there x left := by
    cases x with
    | hashes => rw [view] at left ⊢; simpa only [Remains,provided.1] using left
    | mode => rw [view] at left ⊢; simpa only [Remains,provided.2.1] using left
    | sessions => rw [view] at left ⊢; simpa only [Remains,provided.2.1] using left
    | tag => rw [view] at left ⊢; simpa only [Remains,provided.2.2 id' other] using left
    | secret =>
      obtain ⟨k₁,handle,course,secret,held⟩ := left
      rw [show (s.history.change id f).course id' = s.history.course id' by
        rw [change_course here,if_neg other]] at course
      rw [custody k₁ handle course secret] at held
      exact ⟨k₁,handle,course,secret,held⟩
  registered := registered
  removing _ := .rfl
  ended _ := .rfl
  answered _ _ := .rfl

/-- A course begins: nothing was known of the identifier. -/
structure View.Drawn (i : Nat) (v w : View) : Prop where
  row : w.row = v.row
  before : v.course = none
  after : w.course = some (.first i)
  registered : w.registered = v.registered
  removing : w.removing = v.removing
  ended : w.ended = v.ended
  answered : w.answered = v.answered

theorem View.Holds.blank {p : Nat} {v : View} (h : v.Holds p) (course : v.course = none) : v.row = none ∧
    ¬v.registered ∧ ∀ j outcome, ¬v.answered j outcome := by
  have unknown : ∀ k, v.course ≠ some k := fun k there => absurd (course.symm.trans there) nofun
  have row : v.row = none := by
    by_contra there
    obtain ⟨r,here⟩ := Option.ne_none_iff_exists'.mp there
    obtain ⟨_,k,known,_⟩ := h.row r here
    exact unknown k known
  have norow : ∀ r, v.row ≠ some r := fun r there => absurd (row.symm.trans there) nofun
  refine ⟨row,fun there => ?_,fun j outcome there => ?_⟩
  · obtain ⟨k,known,_⟩ := h.registered there
    exact unknown k known
  · have bears := h.answered j outcome there
    cases outcome with
    | transferAbandoned =>
      obtain ⟨_,k,known,_⟩ := bears
      exact unknown k known
    | transferCancelled =>
      obtain ⟨r,here,_⟩ := bears
      exact norow r here
    | alreadyTerminal =>
      obtain ⟨⟨r,here,_⟩,_⟩ := bears
      exact norow r here

theorem View.Drawn.kept {p : Nat} {v w : View} (h : v.Drawn i w) (past : v.Holds p) {j : Nat} (other : j ≠ i) :
    v.Kept j w := by
  have blank := past.blank h.before
  refine ⟨fun k mine => ?_,fun k there => ?_,fun k there => ?_,fun there => ?_,fun r there => ?_,?_,?_,?_⟩
  · rw [h.before,h.after]
    refine ⟨nofun,fun there => ?_⟩
    cases there
    exact absurd mine.symm other
  · exact absurd (h.before.symm.trans there) nofun
  · exact absurd (h.before.symm.trans there) nofun
  · obtain ⟨_,k,there,_⟩ := there
    exact absurd (h.before.symm.trans there) nofun
  · exact absurd (blank.1.symm.trans there) nofun
  · rw [h.registered]
    exact fun there => there
  · rw [h.removing]
  · rw [h.ended]

theorem View.Drawn.holds {p : Nat} {v w : View} (h : v.Drawn i w) (past : v.Holds p) : w.Holds p := by
  have blank := past.blank h.before
  have norow : ∀ r, w.row ≠ some r := fun r there =>
    absurd ((h.row.trans blank.1).symm.trans there) nofun
  refine ⟨fun there => ?_,fun r there => ?_,fun r k there => ?_,fun r k there => ?_,fun k there => ?_,
    fun k there => ?_,fun k there => ?_,fun j outcome there => ?_,fun j outcome there => ?_⟩
  · exact absurd (h.registered ▸ there) blank.2.1
  · exact absurd there (norow r)
  · exact absurd there (norow r)
  · exact absurd there (norow r)
  · cases h.after.symm.trans there
    nofun
  · cases h.after.symm.trans there
    nofun
  · cases h.after.symm.trans there
    nofun
  · exact absurd (h.answered ▸ there) (blank.2.2 j outcome)
  · exact absurd (h.answered ▸ there) (blank.2.2 j outcome)

theorem draw_course (h : History) (i : Nat) (id id' : TransferId) :
    (h.draw i id).course id' = if id' = id then some (.first i) else h.course id' :=
  Function.update_apply ..

theorem draw_dims {id' : TransferId} {d : Device} (other : id' ≠ id) (store : d.store = s.state.store)
    (rest : d.registered = s.state.registered ∧ d.hashes = s.state.hashes ∧ d.policy = s.state.policy ∧
      d.tags = s.state.tags ∧ d.custody = s.state.custody) :
    (view l s id').Dims (view l ⟨d,s.history.draw i id⟩ id') := by
  have course : (s.history.draw i id).course id' = s.history.course id' := by
    rw [draw_course,if_neg other]
  refine ⟨by rw [view,view,store],course,fun k there x left => ?_,by rw [view,view,rest.1],
    fun _ => .rfl,fun _ => .rfl,fun _ _ => .rfl⟩
  cases x with
  | hashes => simpa only [view,Remains,rest.2.1] using left
  | mode => simpa only [view,Remains,rest.2.2.1] using left
  | sessions => simpa only [view,Remains,rest.2.2.1] using left
  | tag => simpa only [view,Remains,rest.2.2.2.1] using left
  | secret => simpa only [view,Remains,course,rest.2.2.2.2] using left

theorem draw_step {id : TransferId} {p : Payload} (inv : Inv l s)
    (idle : ∀ id k, s.history.course id = some k → k.owner ≠ i)
    (h : (machine l).exec s i (.send p) .drawTransferId c = some (id,u)) :
    Steps l i s u ∧ Mine i id (.first i) u := by
  obtain ⟨d,ran,rfl⟩ := exec_machine h
  simp only [Device.exec] at ran
  split at ran
  · cases ran
  rename_i fresh
  simp only [not_or,List.mem_map,not_exists,not_and] at fresh
  have both := Prod.mk.inj (Option.some.inj ran)
  rw [both.1] at fresh both
  obtain rfl := both.2
  have undrawn : id ∉ s.state.drawn := fun there => fresh.1 id there rfl
  have blank : s.history.course id = none := by
    by_contra there
    exact undrawn ((inv.apart.drawn id).mp there)
  have drawn : (view l s id).Drawn i
      (view l ⟨{ s.state with drawn := id :: s.state.drawn },s.history.draw i id⟩ id) :=
    ⟨rfl,blank,by rw [view,draw_course,if_pos rfl],rfl,rfl,rfl,rfl⟩
  have others : ∀ id', id' ≠ id → (view l s id').Dims
      (view l ⟨{ s.state with drawn := id :: s.state.drawn },s.history.draw i id⟩ id') :=
    fun id' other => draw_dims other rfl ⟨rfl,rfl,rfl,rfl,rfl⟩
  have apart : Apart l ⟨{ s.state with drawn := id :: s.state.drawn },s.history.draw i id⟩ := by
    refine ⟨fun id' => ?_,fun a b ha hb same => ?_,fun id' k handle there held => ?_⟩
    · rw [draw_course,List.mem_cons]
      split
      · rename_i same
        simp [same]
      · rename_i different
        simpa [different] using inv.apart.drawn id'
    · rcases List.mem_cons.mp ha with first | past <;> rcases List.mem_cons.mp hb with first' | past'
      · rw [first,first']
      · exact absurd (first ▸ same).symm (fresh.1 b past')
      · exact absurd (first' ▸ same) (fresh.1 a past)
      · exact inv.apart.digests a b past past' same
    · rw [draw_course] at there
      split at there
      · cases there
        cases held
      · exact inv.apart.secrets id' k handle there held
  have steps := single_step inv (drawn.holds (inv.each id)) (fun _ => drawn.kept (inv.each id)) others apart
  refine ⟨steps,?_,rfl,rfl,rfl,fun id' k there owner => ?_⟩
  · show (s.history.draw i id).course id = _
    rw [draw_course,if_pos rfl]
  · by_contra other
    change (s.history.draw i id).course id' = _ at there
    rw [draw_course,if_neg other] at there
    exact idle id' k there owner

/-- A change of the course that leaves the row as it is. -/
theorem change_own {f : Course → Course} {d : Device} (mine : Mine i id k s)
    (store : d.store = s.state.store) (owner : (f k).owner = i) (approved : (f k).approved = false)
    (inserted : k.inserted = true → (f k).inserted = true)
    (flagged : k.registered = true → (f k).registered = true)
    (registered : id ∈ s.state.registered → id ∈ d.registered)
    (registers : id ∈ d.registered →
      id ∈ s.state.registered ∨ (f k).registered = true ∧ (f k).inserted = true)
    (torn : (f k).torn = true → ∀ x, ¬Remains l ⟨d,s.history.change id f⟩ id x) :
    (view l s id).Own i k (f k) (view l ⟨d,s.history.change id f⟩ id) where
  row := by rw [view,view,store]
  before := mine.course
  after := by rw [view,change_course mine.course,if_pos rfl]
  owner := mine.owner
  unapproved := ⟨mine.approved,approved⟩
  inserted := inserted
  flagged := flagged
  registered := registered
  registers := registers
  torn := torn
  removing := rfl
  ended := rfl
  answered := rfl
  owner' := owner

theorem registered_step {r : Unit} (inv : Inv l s) (mine : Mine i id k s) (inserted : k.inserted = true)
    (h : (machine l).exec s i call (.registered id) c = some (r,u)) :
    Steps l i s u ∧ Mine i id { k with registered := true } u := by
  obtain ⟨d,ran,rfl⟩ := exec_machine h
  cases ran
  have own := change_own (l := l) (d := { s.state with registered := id :: s.state.registered })
    (f := fun k => { k with registered := true }) mine rfl mine.owner mine.approved (fun h => h)
    (fun _ => rfl) (List.mem_cons_of_mem id) (fun _ => .inr ⟨rfl,inserted⟩)
    mine.untorn
  refine ⟨own_step inv own (fun id' other => ?_) ?_,
    mine.change (fun k => { k with registered := true }) mine.owner mine.approved mine.torn⟩
  · exact change_dims mine.course other rfl (by simp [other]) ⟨rfl,rfl,fun _ _ => rfl⟩
      fun _ _ _ _ => rfl
  · exact inv.apart.change mine.course rfl (fun _ h => h)
      fun handle held => inv.apart.secrets id k handle mine.course held

/-- A protected secret; its handle is new. -/
theorem protect_step {auth : TargetedAuthorization} {r : Option Handle} (inv : Inv l s)
    (mine : Mine i auth.transferId k s)
    (h : (machine l).exec s i call (.protect auth) c = some (r,u)) :
    Steps l i s u ∧ r.elim (Mine i auth.transferId k u) fun handle =>
      Mine i auth.transferId { k with secret := some handle } u := by
  obtain ⟨d,ran,rfl⟩ := exec_machine h
  simp only [Device.exec] at ran
  split at ran
  · cases ran
    exact ⟨⟨inv,fun j _ id => .refl j _⟩,mine⟩
  split at ran
  · cases ran
  rename_i fresh
  cases ran
  have own := change_own (l := l)
    (d := { s.state.keep c.number auth.authSecret with handles := c.number :: s.state.handles })
    (f := fun k => { k with secret := some c.number }) mine rfl mine.owner mine.approved (fun h => h)
    (fun h => h) (fun h => h) .inl mine.untorn
  refine ⟨own_step inv own (fun id' other => ?_) ?_,
    mine.change (fun k => { k with secret := some c.number }) mine.owner mine.approved mine.torn⟩
  · refine change_dims mine.course other rfl .rfl ⟨rfl,rfl,fun _ _ => rfl⟩ fun k₀ handle there held => ?_
    have old := inv.apart.secrets id' k₀ handle there held
    exact Function.update_of_ne (fun same : handle = c.number => fresh (same ▸ old)) _ _
  · refine inv.apart.change mine.course rfl (fun _ h => List.mem_cons_of_mem _ h) fun handle held => ?_
    cases held
    exact List.mem_cons_self

/-- The owner's row comes into being. -/
structure View.Inserted (p : Nat) (i : Nat) (k : Course) (v w : View) : Prop where
  row : ∃ r, w.row = some r ∧ identity r = (.sender,p) ∧ r.state.preapproval = true ∧
    r.authorizationSecretHandle = none
  before : v.course = some k
  after : w.course = some { k with inserted := true }
  owner : k.owner = i
  unapproved : k.approved = false
  untorn : k.torn = false
  absent : k.inserted = false
  registered : w.registered = v.registered
  removing : w.removing = v.removing
  ended : w.ended = v.ended
  answered : w.answered = v.answered

theorem View.Inserted.kept {p : Nat} {v w : View} (h : v.Inserted p i k w) (past : v.Holds p) {j : Nat}
    (other : j ≠ i) : v.Kept j w where
  own k₀ mine := by
    rw [h.before,h.after]
    refine ⟨fun there => ?_,fun there => ?_⟩ <;> cases there <;>
      exact absurd (mine.symm.trans h.owner) other
  final k₀ here approved := by
    cases here.symm.trans h.before
    rw [h.unapproved] at approved
    cases approved
  shrinks k₀ here either := by
    cases here.symm.trans h.before
    rcases either with mine | approved
    · exact absurd (mine.symm.trans h.owner) other
    · rw [h.unapproved] at approved
      cases approved
  gone there := by
    obtain ⟨_,k₀,here,inserted⟩ := there
    cases here.symm.trans h.before
    rw [h.absent] at inserted
    cases inserted
  settled r here _ := by
    obtain ⟨_,k₀,course,inserted⟩ := past.row r here
    cases course.symm.trans h.before
    rw [h.absent] at inserted
    cases inserted
  registered := by rw [h.registered]; exact fun there => there
  removing := by rw [h.removing]
  ended := by rw [h.ended]

theorem View.Inserted.holds {p : Nat} {v w : View} (h : v.Inserted p i k w) (past : v.Holds p) : w.Holds p := by
  obtain ⟨r,after,role,early,handle⟩ := h.row
  have uninserted : ∀ k₀, v.course = some k₀ → k₀.inserted ≠ true := by
    intro k₀ here
    cases here.symm.trans h.before
    simp [h.absent]
  have norow : ∀ r₀, v.row ≠ some r₀ := by
    intro r₀ here
    obtain ⟨_,k₀,course,inserted⟩ := past.row r₀ here
    exact uninserted k₀ course inserted
  refine ⟨?_,?_,?_,?_,?_,?_,?_,?_,
    fun j o there => h.registered ▸ past.told j o (h.answered ▸ there)⟩
  · intro there
    obtain ⟨k₀,course,inserted,_⟩ := past.registered (h.registered ▸ there)
    exact absurd inserted (uninserted k₀ course)
  · intro r₀ here
    cases here.symm.trans after
    exact ⟨role,_,h.after,rfl⟩
  · intro r₀ k₀ here course _
    cases here.symm.trans after
    cases course.symm.trans h.after
    exact ⟨h.unapproved,handle⟩
  · intro r₀ k₀ here _ pre
    cases here.symm.trans after
    rw [early] at pre
    cases pre
  · intro k₀ course approved
    cases course.symm.trans h.after
    exact absurd approved (by simp [h.unapproved])
  · intro k₀ course torn
    cases course.symm.trans h.after
    exact absurd torn (by simp [h.untorn])
  · intro k₀ course approved
    cases course.symm.trans h.after
    exact absurd approved (by simp [h.unapproved])
  · intro j outcome there
    have bears := past.answered j outcome (h.answered ▸ there)
    cases outcome with
    | transferAbandoned =>
      obtain ⟨_,k₀,course,inserted⟩ := bears
      exact absurd inserted (uninserted k₀ course)
    | transferCancelled =>
      obtain ⟨r₀,here,_⟩ := bears
      exact absurd here (norow r₀)
    | alreadyTerminal =>
      obtain ⟨⟨r₀,here,_⟩,_⟩ := bears
      exact absurd here (norow r₀)

/-- The owner's row is approved, with the secret the owner has protected. -/
structure View.Approved (i : Nat) (k : Course) (v w : View) : Prop where
  row : ∃ r r', v.row = some r ∧ r.state.preapproval = true ∧ w.row = some r' ∧ identity r' = identity r ∧
    r'.state = .approved ∧ r'.authorizationSecretHandle = k.secret ∧ k.secret ≠ none
  before : v.course = some k
  after : w.course = some { k with approved := true }
  owner : k.owner = i
  untorn : k.torn = false
  registered : w.registered = v.registered
  removing : w.removing = v.removing
  ended : w.ended = v.ended
  answered : w.answered = v.answered

theorem View.Approved.kept {p : Nat} {v w : View} (h : v.Approved i k w) (past : v.Holds p) {j : Nat}
    (other : j ≠ i) : v.Kept j w := by
  obtain ⟨r,_,before,early,_⟩ := h.row
  have unapproved := (past.early r k before h.before early).1
  refine ⟨fun k₀ mine => ?_,fun k₀ here approved => ?_,fun k₀ here either => ?_,fun there => ?_,
    fun r₀ here pre => ?_,?_,?_,?_⟩
  · rw [h.before,h.after]
    refine ⟨fun there => ?_,fun there => ?_⟩ <;> cases there <;>
      exact absurd (mine.symm.trans h.owner) other
  · cases here.symm.trans h.before
    rw [unapproved] at approved
    cases approved
  · cases here.symm.trans h.before
    rcases either with mine | approved
    · exact absurd (mine.symm.trans h.owner) other
    · rw [unapproved] at approved
      cases approved
  · exact absurd (there.1.symm.trans before) nofun
  · cases here.symm.trans before
    rw [early] at pre
    cases pre
  · rw [h.registered]
    exact fun there => there
  · rw [h.removing]
  · rw [h.ended]

theorem View.Approved.holds {p : Nat} {v w : View} (h : v.Approved i k w) (past : v.Holds p) : w.Holds p := by
  obtain ⟨r,r',before,early,after,role,state,handle,secret⟩ := h.row
  refine ⟨?_,?_,?_,?_,?_,?_,?_,?_,
    fun j o there => h.registered ▸ past.told j o (h.answered ▸ there)⟩
  · intro there
    obtain ⟨k₀,course,flags⟩ := past.registered (h.registered ▸ there)
    cases course.symm.trans h.before
    exact ⟨_,h.after,flags⟩
  · intro r₀ here
    cases here.symm.trans after
    obtain ⟨sender,k₀,course,inserted⟩ := past.row r before
    cases course.symm.trans h.before
    exact ⟨role.trans sender,_,h.after,inserted⟩
  · intro r₀ k₀ here _ pre
    cases here.symm.trans after
    rw [state] at pre
    cases pre
  · intro r₀ k₀ here course _ _
    cases here.symm.trans after
    cases course.symm.trans h.after
    exact ⟨rfl,secret,handle⟩
  · intro _ _ _
    exact ⟨r',after,by rw [state]; rfl⟩
  · intro k₀ course torn
    cases course.symm.trans h.after
    exact absurd torn (by simp [h.untorn])
  · intro _ _ _ _ _
    exact .inl ⟨r',after,by rw [state]; rfl⟩
  · intro j outcome there
    exact absurd (h.answered ▸ there) (past.unanswered before early j outcome)

theorem insert_step {row : TargetedTransferRow} {r : Except VnidropError Bool} (inv : Inv l s)
    (mine : Mine i row.id k s) (absent : k.inserted = false) 
    (role : identity row = (.sender,l.allocateProtocolTransferId row.id))
    (early : row.state.preapproval = true) (bare : row.authorizationSecretHandle = none)
    (h : (machine l).exec s i call (.write (.insert row)) c = some (r,u)) :
    Steps l i s u ∧ match r with
      | .ok _ => Mine i row.id { k with inserted := true } u
      | .error _ => Mine i row.id k u := by
  rcases write_cases h with ⟨⟨e,rfl⟩,rfl⟩ | ⟨changed,store,ran,rfl,rfl⟩
  · exact ⟨⟨inv,fun j _ id => .refl j _⟩,mine⟩
  have rows : ∀ id, store.getRow id = if id = row.id then some row else s.state.store.getRow id :=
    run_getRow ran
  have inserted : (view l s row.id).Inserted (l.allocateProtocolTransferId row.id) i k
    (view l ⟨{ s.state with store },s.history.change row.id fun k => { k with inserted := true }⟩ row.id) :=
    ⟨⟨row,by rw [view,rows,if_pos rfl],role,early,bare⟩,mine.course,
      by rw [view,change_course mine.course,if_pos rfl],mine.owner,mine.approved,mine.torn,absent,rfl,rfl,
      rfl,rfl⟩
  refine ⟨single_step inv (inserted.holds (inv.each row.id)) (fun _ => inserted.kept (inv.each row.id))
    (fun id' other => ?_) ?_,mine.change (fun k => { k with inserted := true }) mine.owner mine.approved mine.torn⟩
  · exact change_dims mine.course other (by rw [rows,if_neg other]) .rfl ⟨rfl,rfl,fun _ _ => rfl⟩
      fun _ _ _ _ => rfl
  · exact inv.apart.change mine.course rfl (fun _ h => h)
      fun handle held => inv.apart.secrets row.id k handle mine.course held

/-- Approval of the owner's row ends its work. -/
theorem finalize_step {blobTicket : Text} {handle : Handle} {r : Except VnidropError Bool} {p : Payload}
    (inv : Inv l s) (mine : Mine i id k s) (secret : k.secret = some handle)
    (h : (machine l).exec s i call (.write (.finalizeSenderAuthorization id blobTicket handle)) c =
      some (r,u)) :
    Steps l i s u ∧ match r with
      | .ok _ => Finished i (.send p) u
      | .error _ => Mine i id k u := by
  rcases write_cases h with ⟨⟨e,rfl⟩,rfl⟩ | ⟨changed,store,ran,rfl,rfl⟩
  · exact ⟨⟨inv,fun j _ id => .refl j _⟩,mine⟩
  have rows := run_getRow ran
  obtain ⟨t,finalized,_⟩ := except_map_ok ran
  obtain ⟨row,found,sender,state⟩ := finalize_ok finalized
  have after : store.getRow id = some { row with
      state := .approved, blobTicket := some blobTicket
      authorizationSecretHandle := some handle, updatedAt := c.now } := by
    rw [rows,found]
    simp [Write.onRow,sender,state]
  have approved : (view l s id).Approved i k (view l ⟨{ s.state with store },
      s.history.change id fun k => { k with approved := true }⟩ id) :=
    ⟨⟨row,_,found,by rw [state]; rfl,after,rfl,rfl,secret.symm,Option.ne_none_iff_exists'.mpr ⟨handle,secret⟩⟩,mine.course,
      by rw [view,change_course mine.course,if_pos rfl],mine.owner,mine.torn,rfl,rfl,rfl,rfl⟩
  refine ⟨single_step inv (approved.holds (inv.each id)) (fun _ => approved.kept (inv.each id))
    (fun id' other => ?_) ?_,fun id' k₀ there owner _ => ?_⟩
  · exact change_dims mine.course other (by rw [rows]; simp [Write.onRow,other]) .rfl
      ⟨rfl,rfl,fun _ _ => rfl⟩ fun _ _ _ _ => rfl
  · exact inv.apart.change mine.course rfl (fun _ h => h)
      fun handle held => inv.apart.secrets id k handle mine.course held
  · change (s.history.change id _).course id' = some k₀ at there
    rw [change_course mine.course] at there
    split at there
    · cases there
      exact .inl rfl
    · rename_i other
      exact absurd (mine.only id' k₀ there owner) other

end Owner

/-! Taking away what a transfer has left. -/

section Removal

variable {l : Local} {i : Nat} {id : TransferId} {k : Course} {s t u : State} {call : Call}
  {c : Choice}

/-- Of a transfer that nobody else provides for, the listed traces are gone. -/
structure Bare (l : Local) (i : Nat) (id : TransferId) (k : Course) (xs : List Trace) (s : State) :
    Prop where
  course : s.history.course id = some k
  mine : k.owner = i ∨ k.approved = true
  cleared : ∀ x ∈ xs, ¬Remains l s id x

theorem Bare.later {xs : List Trace} (bare : Bare l i id k xs s) (rely : (terms l).rely i s t) :
    Bare l i id k xs t where
  course := by
    rcases bare.mine with mine | approved
    · exact ((rely id).own k mine).mp bare.course
    · exact (rely id).final k bare.course approved
  mine := bare.mine
  cleared x listed left := bare.cleared x listed ((rely id).shrinks k bare.course bare.mine x left)

/-- A mild operation, entered and left under what thread `i` relies on. -/
theorem safe_mild {α : Type} {op : Op} {f : Ans op → Task α} {post : α → State → Prop}
    (takes : mild call op = true)
    (h : ∀ t c r u, (terms l).rely i s t → (terms l).rely i t u → guard.steps t call op c →
      (machine l).exec t i call op c = some (r,u) → Safely l i call (f r) post u) :
    Safely l i call (Targeted.op op >>= f) post s := by
  refine safe_perform fun t known inv rely c r u ok performed => ?_
  have quiet := quiet_mild takes t known inv c r u ok performed
  exact ⟨⟨quiet.1,fun j _ => quiet.2 j⟩,h t c r u rely (quiet.2 i) ok performed⟩

/-- A mild operation that clears one more trace. -/
theorem safe_clear {α : Type} {op : Op} {f : Ans op → Task α} {post : α → State → Prop}
    {xs : List Trace} {x : Trace} (bare : Bare l i id k xs s) (takes : mild call op = true)
    (clears : ∀ t c r u, t.history.course id = some k → guard.steps t call op c →
      (machine l).exec t i call op c = some (r,u) → ¬Remains l u id x)
    (h : ∀ t c r u, (terms l).rely i s u → guard.steps t call op c →
      (machine l).exec t i call op c = some (r,u) → Bare l i id k (x :: xs) u →
        Safely l i call (f r) post u) :
    Safely l i call (Targeted.op op >>= f) post s := by
  refine safe_mild takes fun t c r u rely relied ok performed => ?_
  have before := bare.later rely
  have after := before.later relied
  refine h t c r u ((terms l).trans i rely relied) ok performed ⟨after.course,after.mine,fun y listed => ?_⟩
  rcases List.mem_cons.mp listed with rfl | old
  · exact clears t c r u before.course ok performed
  · exact after.cleared y old

theorem unregister_clears {r : Unit}
    (h : (machine l).exec s i call (.unregisterTransferHashes (l.allocateProtocolTransferId id)) c =
      some (r,u)) : ¬Remains l u id .hashes := by
  obtain ⟨d,ran,rfl⟩ := exec_machine h
  cases ran
  rintro ⟨hash,there⟩
  simpa using (List.mem_filter.mp there).2

theorem removeMode_clears {r : Unit}
    (h : (machine l).exec s i call (.removeMode (l.allocateProtocolTransferId id)) c = some (r,u)) :
    ¬Remains l u id .mode := by
  obtain ⟨d,ran,rfl⟩ := exec_machine h
  cases ran
  exact fun there => there (Function.update_self ..)

theorem removeSessions_clears {r : Unit}
    (h : (machine l).exec s i call (.removeSessions (l.allocateProtocolTransferId id)) c = some (r,u)) :
    ¬Remains l u id .sessions := by
  obtain ⟨d,ran,rfl⟩ := exec_machine h
  cases ran
  rintro ⟨e,there⟩
  exact there (congrFun (Function.update_self _ _ s.state.policy.sessions) e)

/-- Without its tag, and with the rest already gone, an unapproved transfer is torn down. -/
theorem torn_step {p : Payload} {r : Bool} (inv : Inv l s) (mine : Mine i id k s)
    (bare : Bare l i id k [.sessions,.mode,.hashes,.secret] s) (ok : c.fails = false)
    (h : (machine l).exec s i (.send p) (.deleteTag id) c = some (r,u)) :
    Steps l i s u ∧ Finished i (.send p) u := by
  obtain ⟨d,ran,rfl⟩ := exec_machine h
  simp only [Device.exec,ok,Bool.false_eq_true,if_false] at ran
  cases ran
  have clear : ∀ x, ¬Remains l ⟨s.state.setTag id none,s.history.change id fun k =>
      { k with torn := true }⟩ id x := by
    intro x left
    cases x with
    | tag => exact left (Function.update_self ..)
    | secret =>
      obtain ⟨k₀,handle,course,secret,held⟩ := left
      change (s.history.change id _).course id = some k₀ at course
      rw [change_course mine.course,if_pos rfl] at course
      cases course
      exact bare.cleared .secret (by simp) ⟨k,handle,mine.course,secret,held⟩
    | hashes => exact bare.cleared .hashes (by simp) left
    | mode => exact bare.cleared .mode (by simp) left
    | sessions => exact bare.cleared .sessions (by simp) left
  have own := change_own (l := l) (d := s.state.setTag id none) (f := fun k => { k with torn := true })
    mine rfl mine.owner mine.approved (fun h => h) (fun h => h) (fun h => h) .inl fun _ => clear
  refine ⟨own_step inv own (fun id' other => ?_) ?_,fun id' k₀ there owner _ => ?_⟩
  · exact change_dims mine.course other rfl .rfl
      ⟨rfl,rfl,fun x different => Function.update_of_ne different _ _⟩ fun _ _ _ _ => rfl
  · exact inv.apart.change mine.course rfl (fun _ h => h)
      fun handle held => inv.apart.secrets id k handle mine.course held
  · change (s.history.change id _).course id' = some k₀ at there
    rw [change_course mine.course] at there
    split at there
    · cases there
      exact .inr rfl
    · rename_i other
      exact absurd (mine.only id' k₀ there owner) other

/-- The owner's teardown of a transfer that has not been approved. -/
theorem safe_teardown {p : Payload} (mine : Mine i id k s) (secret : ¬Remains l s id .secret) :
    Safely l i (.send p) (teardownTargetedPayload (l.allocateProtocolTransferId id) id)
      (fun _ => Finished i (.send p)) s := by
  have start : Bare l i id k [.secret] s :=
    ⟨mine.course,.inl mine.owner,by simpa using secret⟩
  refine safe_clear start rfl (fun _ _ _ _ _ _ => unregister_clears) fun _ _ _ u₁ since₁ _ _ bare₁ => ?_
  refine safe_clear bare₁ rfl (fun _ _ _ _ _ _ => removeMode_clears) fun _ _ _ u₂ since₂ _ _ bare₂ => ?_
  refine safe_clear bare₂ rfl (fun _ _ _ _ _ _ => removeSessions_clears) fun _ _ _ u₃ since₃ _ _ bare₃ => ?_
  have mine₃ := ((mine.later since₁).later since₂).later since₃
  refine safe_perform fun t _ inv rely c r u ok performed => ?_
  exact torn_step inv (mine₃.later rely) (bare₃.later rely) ok performed

end Removal

/-! What a stop does to a transfer. -/

section Stop

variable {l : Local} {i : Nat} {id : TransferId} {k : Course} {s t u : State} {call : Call}
  {c : Choice}

/-- A row is abandoned before its approval. -/
structure View.Abandoned (i : Nat) (v w : View) : Prop where
  before : ∃ r, v.row = some r ∧ r.state.preapproval = true
  after : w.row = none
  course : w.course = v.course
  remains : w.remains = v.remains
  registered : w.registered = v.registered
  removing : w.removing = v.removing
  ended : ∀ j, j ≠ i → (w.ended j ↔ v.ended j)
  answered : w.answered = v.answered

theorem View.Abandoned.kept {v w : View} (h : v.Abandoned i w) {j : Nat} (other : j ≠ i) :
    v.Kept j w := by
  obtain ⟨r,before,early⟩ := h.before
  refine ⟨fun k _ => by rw [h.course],fun k there _ => h.course.trans there,
    fun k _ _ x left => h.remains ▸ left,fun there => ?_,fun r₀ here pre => ?_,?_,?_,?_⟩
  · exact absurd (there.1.symm.trans before) nofun
  · cases here.symm.trans before
    rw [early] at pre
    cases pre
  · rw [h.registered]
    exact fun there => there
  · rw [h.removing]
  · exact (h.ended j other).symm

theorem View.Abandoned.holds {p : Nat} {v w : View} (h : v.Abandoned i w) (past : v.Holds p) : w.Holds p := by
  obtain ⟨r,before,early⟩ := h.before
  have norow : ∀ r₀, w.row ≠ some r₀ := fun r₀ there => absurd (h.after.symm.trans there) nofun
  have unapproved : ∀ k, w.course = some k → k.approved = false := fun k there =>
    (past.early r k before (h.course ▸ there) early).1
  refine ⟨?_,fun r₀ there => absurd there (norow r₀),fun r₀ _ there => absurd there (norow r₀),
    fun r₀ _ there => absurd there (norow r₀),?_,?_,?_,?_,?_⟩
  · rw [h.registered,h.course]
    exact past.registered
  · intro k there approved
    rw [unapproved k there] at approved
    cases approved
  · intro k there
    rw [h.remains]
    exact past.torn k (h.course ▸ there)
  · intro k there approved
    rw [unapproved k there] at approved
    cases approved
  all_goals
    intro j outcome there
    exact absurd (h.answered ▸ there) (past.unanswered before early j outcome)

/-- A settled row ends, or stays in the state it has ended in. -/
structure View.Ended (i : Nat) (v w : View) : Prop where
  row : ∃ r r', v.row = some r ∧ r.state.preapproval = false ∧ w.row = some r' ∧ identity r' = identity r ∧
    r'.state.terminal = true ∧ (r.state.terminal = true → r'.state = r.state)
  course : w.course = v.course
  remains : w.remains = v.remains
  registered : w.registered = v.registered
  removes : ∀ j, v.removing j → w.removing j
  removing : ∀ j, j ≠ i → (w.removing j ↔ v.removing j)
  busy : v.live → w.removing i
  ends : ∀ j, w.ended j → v.ended j ∨ v.live
  ended : ∀ j, j ≠ i → (w.ended j ↔ v.ended j)
  answered : w.answered = v.answered

theorem View.Ended.kept {v w : View} (h : v.Ended i w) {j : Nat}
    (removing : w.removing j ↔ v.removing j) (ended : w.ended j ↔ v.ended j) : v.Kept j w := by
  obtain ⟨r,r',before,past,after,_,terminal,same⟩ := h.row
  refine ⟨fun k _ => by rw [h.course],fun k there _ => h.course.trans there,
    fun k _ _ x left => h.remains ▸ left,fun there => ?_,fun r₀ here _ => ?_,?_,removing.symm,ended.symm⟩
  · exact absurd (there.1.symm.trans before) nofun
  · cases here.symm.trans before
    refine ⟨r',after,?_,same⟩
    by_contra early
    rw [preapproval_live (by simpa using early)] at terminal
    cases terminal
  · rw [h.registered]
    exact fun there => there

theorem View.Ended.holds {p : Nat} {v w : View} (h : v.Ended i w) (past : v.Holds p) : w.Holds p := by
  obtain ⟨r,r',before,settled,after,role,terminal,same⟩ := h.row
  have late : r'.state.preapproval = false := by
    by_contra early
    rw [preapproval_live (by simpa using early)] at terminal
    cases terminal
  refine ⟨?_,?_,?_,?_,?_,?_,?_,?_,
    fun j o there => h.registered ▸ past.told j o (h.answered ▸ there)⟩
  · rw [h.registered,h.course]
    exact past.registered
  · intro r₀ there
    cases there.symm.trans after
    rw [role,h.course]
    exact past.row r before
  · intro r₀ k there _ early
    cases there.symm.trans after
    rw [late] at early
    cases early
  · intro r₀ k there _ _ live
    cases there.symm.trans after
    rw [terminal] at live
    cases live
  · intro _ _ _
    exact ⟨r',after,late⟩
  · intro k there
    rw [h.remains]
    exact past.torn k (h.course ▸ there)
  · intro k there approved x left
    rcases past.removed k (h.course ▸ there) approved x (h.remains ▸ left) with live | ⟨j,busy⟩
    · exact .inr ⟨i,h.busy live⟩
    · exact .inr ⟨j,h.removes j busy⟩
  · intro j outcome there
    have bears := past.answered j outcome (h.answered ▸ there)
    cases outcome with
    | transferAbandoned => exact absurd (bears.1.symm.trans before) nofun
    | transferCancelled =>
      obtain ⟨r₀,here,state⟩ := bears
      cases here.symm.trans before
      exact ⟨r',after,(same (by rw [state]; rfl)).trans state⟩
    | alreadyTerminal =>
      obtain ⟨⟨r₀,here,ended⟩,unmoved⟩ := bears
      cases here.symm.trans before
      refine ⟨⟨r',after,terminal⟩,fun moved => ?_⟩
      rcases h.ends j moved with old | ⟨r₁,here₁,live⟩
      · exact unmoved old
      · cases here₁.symm.trans before
        rw [ended] at live
        cases live

/-- A stop answers, and is not removing any more. -/
structure View.Replied (i : Nat) (outcome : TargetedPreparationStopOutcome) (v w : View) : Prop where
  row : w.row = v.row
  course : w.course = v.course
  remains : w.remains = v.remains
  registered : w.registered = v.registered
  removing : ∀ j, w.removing j ↔ v.removing j ∧ j ≠ i
  ended : w.ended = v.ended
  answered : ∀ j o, w.answered j o ↔ v.answered j o ∨ j = i ∧ o = outcome
  known : v.registered
  bears : v.bears i outcome
  bare : v.removing i → ∀ x, ¬v.remains x

theorem View.Replied.kept {outcome : TargetedPreparationStopOutcome} {v w : View}
    (h : v.Replied i outcome w) {j : Nat} (other : j ≠ i) : v.Kept j w where
  own k _ := by rw [h.course]
  final k there _ := h.course.trans there
  shrinks k _ _ x left := h.remains ▸ left
  gone there := ⟨h.row.trans there.1,by rw [h.course]; exact there.2⟩
  settled r there past := ⟨r,h.row.trans there,past,fun _ => rfl⟩
  registered := by rw [h.registered]; exact fun there => there
  removing := by rw [h.removing]; exact ⟨fun there => ⟨there,other⟩,And.left⟩
  ended := by rw [h.ended]

theorem View.Replied.holds {p : Nat} {outcome : TargetedPreparationStopOutcome} {v w : View}
    (h : v.Replied i outcome w) (past : v.Holds p) : w.Holds p := by
  refine ⟨?_,?_,?_,?_,?_,?_,?_,?_,?_⟩
  · rw [h.registered,h.course]
    exact past.registered
  · rw [h.row,h.course]
    exact past.row
  · rw [h.row,h.course]
    exact past.early
  · rw [h.row,h.course]
    exact past.live
  · rw [h.course,View.settled,h.row]
    exact past.approved
  · rw [h.course,h.remains]
    exact past.torn
  · intro k there approved x left
    rw [h.remains] at left
    rcases past.removed k (h.course ▸ there) approved x left with ⟨r,here,live⟩ | ⟨j,busy⟩
    · exact .inl ⟨r,h.row.trans here,live⟩
    · by_cases mine : j = i
      · exact absurd left (h.bare (mine ▸ busy) x)
      · exact .inr ⟨j,(h.removing j).mpr ⟨busy,mine⟩⟩
  · intro j o there
    have bears : v.bears j o := by
      rcases (h.answered j o).mp there with old | ⟨rfl,rfl⟩
      · exact past.answered j o old
      · exact h.bears
    cases o <;> simpa only [View.bears,View.gone,h.row,h.course,h.ended] using bears
  · intro j o there
    rw [h.registered]
    rcases (h.answered j o).mp there with old | _
    · exact past.told j o old
    · exact h.known

/-- An identifier that a stop's bookkeeping does not name. -/
theorem finish_dims {id' : TransferId} {h : History} {d : Device} (row : d.store.getRow id' = s.state.store.getRow id')
    (rest : d.registered = s.state.registered ∧ d.hashes = s.state.hashes ∧ d.policy = s.state.policy ∧
      d.tags = s.state.tags ∧ d.custody = s.state.custody)
    (course : h.course = s.history.course)
    (removing : ∀ j, (j,id') ∈ h.removing ↔ (j,id') ∈ s.history.removing)
    (ended : ∀ j, (j,id') ∈ h.ended ↔ (j,id') ∈ s.history.ended)
    (answered : ∀ j o, (j,id',o) ∈ h.answers ↔ (j,id',o) ∈ s.history.answers) :
    (view l s id').Dims (view l ⟨d,h⟩ id') where
  row := row
  course := by rw [view,view,course]
  remains k _ x left := by
    cases x with
    | hashes => simpa only [view,Remains,rest.2.1] using left
    | mode => simpa only [view,Remains,rest.2.2.1] using left
    | sessions => simpa only [view,Remains,rest.2.2.1] using left
    | tag => simpa only [view,Remains,rest.2.2.2.1] using left
    | secret => simpa only [view,Remains,course,rest.2.2.2.2] using left
  registered := by rw [view,view,rest.1]
  removing := removing
  ended := ended
  answered := answered

theorem finish_ended {h : History} {changed : Bool} {j : Nat} {id' : TransferId} :
    (j,id') ∈ (h.finish i id changed).ended ↔
      (j,id') ∈ h.ended ∨ changed = true ∧ j = i ∧ id' = id := by
  unfold History.finish
  cases changed
  · simp
  · simp only [if_true,List.mem_cons,Prod.mk.injEq,true_and]
    exact or_comm

/-- A stop abandons a row that is early, and leaves any other as it is. -/
theorem abandon_step {r : Except VnidropError Bool} (inv : Inv l s)
    (h : (machine l).exec s i call (.write (.abandonSenderPreapproval id)) c = some (r,u)) :
    Steps l i s u ∧ u.history.removing = s.history.removing ∧
    u.state.registered = s.state.registered ∧ match r with
      | .error _ => u = s
      | .ok true => (∃ r₀, s.state.store.getRow id = some r₀ ∧ r₀.state.preapproval = true) ∧
          (view l u id).gone
      | .ok false => (∀ r₀, s.state.store.getRow id = some r₀ → r₀.state.preapproval = false) ∧
          (terms l).rely i s u := by
  rcases write_cases h with ⟨⟨e,rfl⟩,rfl⟩ | ⟨changed,store,ran,rfl,rfl⟩
  · exact ⟨⟨inv,fun j _ id => .refl j _⟩,rfl,rfl,rfl⟩
  have rows := run_getRow ran
  have flag : changed = (s.state.store.getRow id).any fun r =>
      decide (r.role = .sender) && r.state.preapproval := by
    rw [← (Prod.mk.inj (Except.ok.inj ran)).1]
    exact abandon_flag
  have others : ∀ id', id' ≠ id → (view l s id').Dims
      (view l ⟨{ s.state with store },s.history.finish i id changed⟩ id') := by
    intro id' other
    refine finish_dims (by rw [rows]; simp [Write.onRow,other]) ⟨rfl,rfl,rfl,rfl,rfl⟩ rfl
      (fun _ => .rfl) (fun j => ?_) fun _ _ => .rfl
    rw [finish_ended]
    simp [other]
  have apart : Apart l ⟨{ s.state with store },s.history.finish i id changed⟩ :=
    ⟨inv.apart.drawn,inv.apart.digests,inv.apart.secrets⟩
  cases changed with
  | true =>
    obtain ⟨r₀,found,holds⟩ := (Option.any_eq_true _ _).mp flag.symm
    have early : r₀.state.preapproval = true := (Bool.and_eq_true _ _ ▸ holds).2
    have after : store.getRow id = none := by
      rw [rows,found]
      simp [Write.onRow,holds,Option.filter]
    have gone : (view l s id).Abandoned i
        (view l ⟨{ s.state with store },s.history.finish i id true⟩ id) :=
      ⟨⟨r₀,found,early⟩,after,rfl,rfl,rfl,rfl,fun j other => by
        show (j,id) ∈ (s.history.finish i id true).ended ↔ _
        rw [finish_ended]
        simp [other,view],rfl⟩
    obtain ⟨_,k,course,inserted⟩ := (inv.each id).row r₀ found
    exact ⟨single_step inv (gone.holds (inv.each id)) (fun _ => gone.kept) others apart,rfl,rfl,
      ⟨r₀,found,early⟩,after,k,course,inserted⟩
  | false =>
    have settled : ∀ r₀, s.state.store.getRow id = some r₀ → r₀.state.preapproval = false := by
      intro r₀ found
      have sender : r₀.role = .sender := (Prod.mk.inj ((inv.each id).row r₀ found).1).1
      rw [found] at flag
      simpa [sender] using flag.symm
    have same : (view l s id).Dims
        (view l ⟨{ s.state with store },s.history.finish i id false⟩ id) := by
      refine finish_dims ?_ ⟨rfl,rfl,rfl,rfl,rfl⟩ rfl (fun _ => .rfl) (fun _ => .rfl) fun _ _ => .rfl
      rw [rows,Write.onRow,if_pos rfl]
      cases found : s.state.store.getRow id with
      | none => rfl
      | some r₀ => simp [Option.filter,settled r₀ found]
    refine ⟨single_step inv (same.holds (inv.each id)) (fun j _ => same.kept j) others apart,rfl,rfl,settled,?_⟩
    intro id'
    by_cases here : id' = id
    · rw [here]
      exact same.kept i
    · exact (others id' here).kept i

/-- A stop ends a settled row. -/
theorem terminal_step {r : Except VnidropError Bool} (inv : Inv l s) (settled : (view l s id).settled)
    (h : (machine l).exec s i (.stop id) (.write (.transitionTerminal id .cancelled true)) c =
      some (r,u)) :
    Steps l i s u ∧ match r with
      | .error _ => u = s
      | .ok changed => u.state.registered = s.state.registered ∧
          u.history.removing = (i,id) :: s.history.removing ∧
          u.history.course = s.history.course ∧
          (changed = false → ((i,id) ∈ u.history.ended ↔ (i,id) ∈ s.history.ended)) ∧
          ∃ r', u.state.store.getRow id = some r' ∧ r'.state.terminal = true ∧
            (changed = true → r'.state = .cancelled) := by
  rcases write_cases h with ⟨⟨e,rfl⟩,rfl⟩ | ⟨changed,store,ran,rfl,written⟩
  · exact ⟨⟨inv,fun j _ id => .refl j _⟩,rfl⟩
  have rows := run_getRow ran
  obtain ⟨r₀,found,past⟩ := settled
  have flag : changed = leavesFor .cancelled r₀.state := by
    rw [(transitionTerminal_ok ran).2,show s.state.store.getRow id = some r₀ from found]
    rfl
  have live : leavesFor .cancelled r₀.state = !r₀.state.terminal := by
    cases r₀.state <;> rfl
  rw [live] at flag
  have after : ∃ r', store.getRow id = some r' ∧ identity r' = identity r₀ ∧ r'.state.terminal = true ∧
      (r₀.state.terminal = true → r'.state = r₀.state) ∧ (changed = true → r'.state = .cancelled) := by
    rw [rows,show s.state.store.getRow id = some r₀ from found]
    cases ended : r₀.state.terminal
    · exact ⟨{ r₀ with
        state := .cancelled, blobTicket := none, authorizationSecretHandle := none, updatedAt := c.now },
        by simp [Write.onRow,live,ended],rfl,rfl,nofun,fun _ => rfl⟩
    · refine ⟨r₀,by simp [Write.onRow,live,ended],rfl,ended,fun _ => rfl,fun moved => ?_⟩
      rw [flag,ended] at moved
      cases moved
  obtain ⟨r',here,role,terminal,same,cancelled⟩ := after
  let next : History := { s.history.finish i id changed with removing := (i,id) :: s.history.removing }
  have recorded : record s.history s.state i (.stop id) (.write (.transitionTerminal id .cancelled true))
      (.ok changed) = next := if_pos rfl
  obtain rfl : u = ⟨{ s.state with store },next⟩ := written.trans (by rw [recorded])
  have ends : (view l s id).Ended i (view l ⟨{ s.state with store },next⟩ id) := by
    refine ⟨⟨r₀,r',found,past,here,role,terminal,same⟩,rfl,rfl,rfl,fun j => List.mem_cons_of_mem _,
      fun j other => ?_,fun _ => List.mem_cons_self,fun j moved => ?_,fun j other => ?_,rfl⟩
    · simp only [view,next,List.mem_cons,Prod.mk.injEq,other,false_and,false_or]
    · rcases finish_ended.mp moved with old | ⟨moved,_⟩
      · exact .inl old
      · exact .inr ⟨r₀,found,by simpa [moved] using flag.symm⟩
    · show (j,id) ∈ (s.history.finish i id changed).ended ↔ _
      rw [finish_ended]
      simp [other,view]
  refine ⟨single_step inv (ends.holds (inv.each id))
    (fun j other => ends.kept (ends.removing j other) (ends.ended j other)) (fun id' other => ?_)
    ⟨inv.apart.drawn,inv.apart.digests,inv.apart.secrets⟩,rfl,rfl,rfl,?_,r',here,terminal,cancelled⟩
  · refine finish_dims (by rw [rows]; simp [Write.onRow,other]) ⟨rfl,rfl,rfl,rfl,rfl⟩ rfl
      (fun j => ?_) (fun j => ?_) fun _ _ => .rfl
    · show (j,id') ∈ (i,id) :: s.history.removing ↔ _
      simp [other]
    show (j,id') ∈ (s.history.finish i id changed).ended ↔ _
    rw [finish_ended]
    simp [other]
  · intro unmoved
    show (i,id) ∈ (s.history.finish i id changed).ended ↔ _
    rw [finish_ended,unmoved]
    simp

/-- Clearing the columns of a row that has ended disturbs nobody. -/
theorem clear_step {r : Except VnidropError Bool} (inv : Inv l s)
    (ended : ∃ r₀, s.state.store.getRow id = some r₀ ∧ r₀.state.terminal = true)
    (h : (machine l).exec s i call (.write (.clearAuthorization id)) c = some (r,u)) :
    Inv l u ∧ ∀ j, (terms l).rely j s u := by
  rcases write_cases h with ⟨_,rfl⟩ | ⟨changed,store,ran,rfl,rfl⟩
  · exact ⟨inv,fun j id => .refl j _⟩
  have rows := run_getRow ran
  obtain ⟨r₀,found,terminal⟩ := ended
  have late : r₀.state.preapproval = false := by
    by_contra early
    rw [preapproval_live (by simpa using early)] at terminal
    cases terminal
  have after : store.getRow id = some { r₀ with blobTicket := none, authorizationSecretHandle := none } := by
    rw [rows,found]
    simp [Write.onRow]
  have idle : (view l s id).live → (view l s id).removing i := by
    rintro ⟨r₁,here,live⟩
    cases here.symm.trans found
    rw [terminal] at live
    cases live
  have cleared : (view l s id).Ended i (view l ⟨{ s.state with store },s.history⟩ id) :=
    ⟨⟨r₀,_,found,late,after,rfl,terminal,fun _ => rfl⟩,rfl,rfl,rfl,fun _ h => h,fun _ _ => .rfl,idle,
      fun _ h => .inl h,fun _ _ => .rfl,rfl⟩
  have others : ∀ id', id' ≠ id → (view l s id').Dims (view l ⟨{ s.state with store },s.history⟩ id') :=
    fun id' other => finish_dims (by rw [rows]; simp [Write.onRow,other]) ⟨rfl,rfl,rfl,rfl,rfl⟩ rfl
      (fun _ => .rfl) (fun _ => .rfl) fun _ _ => .rfl
  refine ⟨(single_step (i := i) inv (cleared.holds (inv.each id)) (fun j _ => cleared.kept .rfl .rfl) others
    ⟨inv.apart.drawn,inv.apart.digests,inv.apart.secrets⟩).1,fun j id' => ?_⟩
  by_cases here : id' = id
  · rw [here]
    exact cleared.kept .rfl .rfl
  · exact (others id' here).kept j

theorem stopped_step {outcome : TargetedPreparationStopOutcome} {r : Unit} (inv : Inv l s)
    (known : id ∈ s.state.registered) (bears : (view l s id).bears i outcome)
    (bare : (i,id) ∈ s.history.removing → ∀ x, ¬Remains l s id x)
    (only : ∀ id', (i,id') ∈ s.history.removing → id' = id)
    (h : (machine l).exec s i call (.stopped id outcome) c = some (r,u)) :
    Steps l i s u ∧ ∀ id', (i,id') ∉ u.history.removing := by
  obtain ⟨d,ran,rfl⟩ := exec_machine h
  cases ran
  let next : History := { s.history with
    removing := s.history.removing.filter (· ≠ (i,id))
    answers := (i,id,outcome) :: s.history.answers }
  have replied : (view l s id).Replied i outcome (view l ⟨s.state,next⟩ id) := by
    refine ⟨rfl,rfl,rfl,rfl,fun j => ?_,rfl,fun j o => ?_,known,bears,bare⟩
    · simp [view,next]
    · simp only [view,next,List.mem_cons,Prod.mk.injEq,true_and]
      exact or_comm
  refine ⟨single_step inv (replied.holds (inv.each id)) (fun _ => replied.kept) (fun id' other => ?_)
    ⟨inv.apart.drawn,inv.apart.digests,inv.apart.secrets⟩,fun id' there => ?_⟩
  · refine finish_dims rfl ⟨rfl,rfl,rfl,rfl,rfl⟩ rfl (fun j => ?_) (fun _ => .rfl) fun j o => ?_
    · show (j,id') ∈ s.history.removing.filter (· ≠ (i,id)) ↔ _
      simp [other]
    · show (j,id',o) ∈ (i,id,outcome) :: s.history.answers ↔ _
      simp [other]
  · obtain ⟨old,different⟩ := List.mem_filter.mp there
    rw [only id' old] at different
    simp at different

end Stop

end Vnidrop.Targeted.Preparation
