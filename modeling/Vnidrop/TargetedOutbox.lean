import Vnidrop.TargetedOps
import Vnidrop.TargetedRows
import Vnidrop.TargetedRuntime

/-! The rows of the targeted store and its three outboxes, over every run of the runtime
and across restarts. A statement acts on each identifier by itself, so the invariant is
about what the store has under one identifier. -/
namespace Vnidrop.Targeted.Outbox

open Tables Programs Runs TargetedTransferState

/-- The columns that say which transfer a row is about. -/
structure Identity where
  id : TransferId
  protocolTransferId : Nat
  role : TargetedTransferRole
  senderEndpointId : EndpointId
  receiverEndpointId : EndpointId
  manifestId : Text
  contentHash : Text
  transferName : Text
  fileCount : Nat
  totalSize : Nat
  deriving DecidableEq

def identity (r : TargetedTransferRow) : Identity where
  id := r.id
  protocolTransferId := r.protocolTransferId
  role := r.role
  senderEndpointId := r.senderEndpointId
  receiverEndpointId := r.receiverEndpointId
  manifestId := r.manifestId
  contentHash := r.contentHash
  transferName := r.transferName
  fileCount := r.fileCount
  totalSize := r.totalSize

/-- The call that has drawn an identifier; the identifiers that sender rows have been
inserted under; the deliveries that a peer has answered `Stored`. -/
structure History where
  owner : TransferId → Option Nat
  used : List TransferId
  answered : List (EndpointId × DeliverTargetedAuthorization)

def History.new : History := ⟨fun _ => none,[],[]⟩

def record (h : History) (_ : Runtime) (i : Nat) (_ : RuntimeCall) :
    (o : RuntimeOp) → RuntimeAns o → History
  | .targeted .drawTransferId, id => { h with owner := Function.update h.owner id (some i) }
  | .targeted (.write (.insert row)), .ok _ => { h with used := row.id :: h.used }
  | .targeted (.await peer (.deliverAuthorization delivery)), some .stored =>
    { h with answered := (peer,delivery) :: h.answered }
  | _, _ => h

abbrev State := Observed Runtime History

inductive Event where
  | housekeeping (e : Housekeeping)
  | restart
  deriving DecidableEq

/-- What the process had in memory is gone. -/
def restarted (d : Device) : Device :=
  { d with inbox := .new, hashes := fun _ => [], policy := .new, active := fun _ => false
           registered := [] }

def happen (s : Runtime) : Event → Runtime
  | .housekeeping e => s.setDevice (s.device.housekeep e)
  | .restart => s.setDevice (restarted s.device)

/-- Calls cut off by a restart stay where they are: a thread need not go on. -/
def machine (l : Local) : Machine State RuntimeCall RuntimeOp RuntimeAns RuntimeChoice Event :=
  let observed := (runtime l (·.device = .new)).observe .new record fun h _ _ => h
  { init := observed.init
    admits := observed.admits
    body := observed.body
    exec := observed.exec
    env := fun s e => some { s with state := happen s.state e } }

/-- A device does not reach itself. -/
def guard (l : Local) : Guard State RuntimeCall RuntimeOp RuntimeChoice Event where
  starts _ _ := True
  steps _ call o c := match call, o with
    | .targeted (.send p), .targeted (.ask .peerReachable) =>
      c.flag = true → p.receiverEndpointId ≠ l.endpointId
    | _, _ => True
  events _ _ := True

/-- What the store has under one identifier: the row, and whether each outbox has an entry. -/
structure Cell where
  row : Option TargetedTransferRow
  delivery : Bool
  completion : Bool
  release : Bool

def cell (s : Store) (id : TransferId) : Cell where
  row := s.getRow id
  delivery := (s.authorizationDelivery.find id).isSome
  completion := (s.completion.find id).isSome
  release := (s.payloadRelease.find id).isSome

/-- The row can no longer be deleted. -/
def lasting (r : TargetedTransferRow) : Bool := r.role = .receiver || !r.state.preapproval

/-- The receiver has answered a delivery of the credential of this transfer with `Stored`. -/
def Answered (l : Local) (h : History) (r : TargetedTransferRow) : Prop :=
  ∃ blobTicket material, (r.receiverEndpointId,⟨r.id,some
    (reconstructAuthorization l.protocolVersion r blobTicket material)⟩) ∈ h.answered

structure RowOk (l : Local) (h : History) (r : TargetedTransferRow) : Prop where
  bytes : r.verifiedBytes ≤ r.totalSize
  complete : r.state = .completed → r.verifiedBytes = r.totalSize
  held : r.authorizationSecretHandle ≠ none →
    lasting r = true ∧ (r.role = .sender → r.receiverEndpointId ≠ l.endpointId)
  used : r.role = .sender → r.id ∈ h.used

structure CellOk (l : Local) (h : History) (c : Cell) : Prop where
  row : ∀ r, c.row = some r → RowOk l h r
  delivery : c.delivery = true → ∃ r, c.row = some r ∧ r.role = .sender ∧ r.state = .approved
  completion : c.completion = true → ∃ r, c.row = some r ∧ r.role = .receiver ∧ r.state = .completed
  release : c.release = true → ∃ r, c.row = some r ∧ r.role = .sender ∧ r.state = .completed
  delivered : ∀ r, c.row = some r → r.role = .sender → r.state = .approved → c.delivery = false →
    Answered l h r

def Unapproved (row : Option TargetedTransferRow) : Prop :=
  ∀ r, row = some r → r.role = .sender → r.state ≠ .approved

/-- What thread `j` can tell of a row later, whoever has moved. -/
structure Follows (j : Nat) (id : TransferId) (h : History) (c c' : Cell) : Prop where
  lasts : ∀ r, c.row = some r → lasting r = true → ∃ r', c'.row = some r' ∧
    identity r' = identity r ∧ lasting r' = true ∧
    (r.state.terminal = true → r'.state.terminal = true) ∧ r.verifiedBytes ≤ r'.verifiedBytes
  claimed : id ∈ h.used → ∀ r', c'.row = some r' → r'.role = .sender →
    ∃ r, c.row = some r ∧ identity r' = identity r ∧ r.verifiedBytes ≤ r'.verifiedBytes
  own : h.owner id = some j → Unapproved c.row → Unapproved c'.row

structure Inv (l : Local) (s : State) : Prop where
  cells : ∀ id, CellOk l s.history (cell s.state.device.store id)
  drawn : ∀ id i, s.history.owner id = some i → id ∈ s.state.device.drawn
  owned : ∀ id ∈ s.history.used, ∃ i, s.history.owner id = some i

structure Kept (j : Nat) (s t : State) : Prop where
  follows : ∀ id, Follows j id s.history (cell s.state.device.store id) (cell t.state.device.store id)
  used : ∀ id ∈ s.history.used, id ∈ t.history.used
  answered : ∀ x ∈ s.history.answered, x ∈ t.history.answered
  owner : ∀ id i, s.history.owner id = some i → t.history.owner id = some i
  unused : ∀ id, s.history.owner id = some j → id ∉ s.history.used → id ∉ t.history.used

section Cells

variable {l : Local} {h : History} {j : Nat} {id : TransferId} {c c' c'' : Cell}

theorem Follows.refl (j : Nat) (id : TransferId) (h : History) (c : Cell) : Follows j id h c c :=
  ⟨fun r here last => ⟨r,here,rfl,last,fun h => h,Nat.le_refl _⟩,
    fun _ r here _ => ⟨r,here,rfl,Nat.le_refl _⟩,fun _ h => h⟩

theorem Follows.trans {h' : History} (used : id ∈ h.used → id ∈ h'.used)
    (owner : h.owner id = some j → h'.owner id = some j) (f : Follows j id h c c')
    (g : Follows j id h' c' c'') : Follows j id h c c'' where
  lasts r here last := by
    obtain ⟨r₁,here₁,same₁,last₁,ended₁,more₁⟩ := f.lasts r here last
    obtain ⟨r₂,here₂,same₂,last₂,ended₂,more₂⟩ := g.lasts r₁ here₁ last₁
    exact ⟨r₂,here₂,same₂.trans same₁,last₂,fun ended => ended₂ (ended₁ ended),Nat.le_trans more₁ more₂⟩
  claimed claimed r₂ here₂ sends := by
    obtain ⟨r₁,here₁,same₂,more₂⟩ := g.claimed (used claimed) r₂ here₂ sends
    have role : r₁.role = .sender := by
      rw [← sends]
      exact (congrArg Identity.role same₂).symm
    obtain ⟨r,here,same₁,more₁⟩ := f.claimed claimed r₁ here₁ role
    exact ⟨r,here,same₂.trans same₁,Nat.le_trans more₁ more₂⟩
  own mine unapproved := g.own (owner mine) (f.own mine unapproved)

theorem Kept.refl (j : Nat) (s : State) : Kept j s s :=
  ⟨fun id => .refl j id _ _,fun _ h => h,fun _ h => h,fun _ _ h => h,fun _ _ h => h⟩

theorem Kept.trans {s t u : State} (f : Kept j s t) (g : Kept j t u) : Kept j s u where
  follows id := (f.follows id).trans (f.used id) (f.owner id j) (g.follows id)
  used id h := g.used id (f.used id h)
  answered x h := g.answered x (f.answered x h)
  owner id i h := g.owner id i (f.owner id i h)
  unused id mine unused := g.unused id (f.owner id j mine) (f.unused id mine unused)

def terms (l : Local) : Terms State where
  known _ := True
  inv := Inv l
  rely := Kept
  refl := Kept.refl
  trans _ := Kept.trans

theorem reconstruct_congr {r r' : TargetedTransferRow} (same : identity r' = identity r) (n : Nat)
    (blobTicket material : Text) :
    reconstructAuthorization n r' blobTicket material = reconstructAuthorization n r blobTicket material := by
  obtain ⟨id,protocolId,_,sender,receiver,manifest,content,name,count,total⟩ :=
    (Identity.mk.injEq ..).mp same
  simp [reconstructAuthorization,id,protocolId,sender,receiver,manifest,content,name,count,total]

theorem Answered.congr {r r' : TargetedTransferRow} (same : identity r' = identity r)
    (answered : Answered l h r) : Answered l h r' := by
  obtain ⟨blobTicket,material,there⟩ := answered
  refine ⟨blobTicket,material,?_⟩
  rw [reconstruct_congr same,show r'.id = r.id from congrArg Identity.id same,
    show r'.receiverEndpointId = r.receiverEndpointId from congrArg Identity.receiverEndpointId same]
  exact there

theorem Answered.mono {h' : History} {r : TargetedTransferRow} (answered : Answered l h r)
    (more : ∀ x ∈ h.answered, x ∈ h'.answered) : Answered l h' r := by
  obtain ⟨blobTicket,material,there⟩ := answered
  exact ⟨blobTicket,material,more _ there⟩

theorem CellOk.mono {h' : History} (ok : CellOk l h c) (used : ∀ id ∈ h.used, id ∈ h'.used)
    (more : ∀ x ∈ h.answered, x ∈ h'.answered) : CellOk l h' c where
  row r here := { ok.row r here with used := fun sends => used _ ((ok.row r here).used sends) }
  delivery := ok.delivery
  completion := ok.completion
  release := ok.release
  delivered r here sends approved none := (ok.delivered r here sends approved none).mono more

/-- Without a row there is no entry. -/
theorem CellOk.bare (ok : CellOk l h c) (absent : c.row = none) :
    c.delivery = false ∧ c.completion = false ∧ c.release = false := by
  refine ⟨?_,?_,?_⟩
  · by_contra there
    obtain ⟨r,here,_⟩ := ok.delivery (by simpa using there)
    cases absent.symm.trans here
  · by_contra there
    obtain ⟨r,here,_⟩ := ok.completion (by simpa using there)
    cases absent.symm.trans here
  · by_contra there
    obtain ⟨r,here,_⟩ := ok.release (by simpa using there)
    cases absent.symm.trans here

/-- A step under one identifier keeps the invariant and what the threads can tell. -/
def Stays (l : Local) (j : Nat) (id : TransferId) (h h' : History) (c c' : Cell) : Prop :=
  CellOk l h' c' ∧ Follows j id h c c'

variable {h' : History}

/-- The row stays; an entry may go, the delivery entry only once it is answered. -/
theorem stays_row (ok : CellOk l h' c) (row : c'.row = c.row) (completion : c'.completion = true → c.completion = true)
    (release : c'.release = true → c.release = true) (delivery : c'.delivery = true → c.delivery = true)
    (settled : c'.delivery = c.delivery ∨
      ∀ r, c.row = some r → r.role = .sender → r.state = .approved → Answered l h' r) :
    Stays l j id h h' c c' := by
  refine ⟨⟨?_,?_,?_,?_,?_⟩,?_⟩
  · rw [row]
    exact ok.row
  · rw [row]
    exact fun there => ok.delivery (delivery there)
  · rw [row]
    exact fun there => ok.completion (completion there)
  · rw [row]
    exact fun there => ok.release (release there)
  · rw [row]
    intro r here sends approved none
    rcases settled with same | answered
    · exact ok.delivered r here sends approved (same ▸ none)
    · exact answered r here sends approved
  · exact ⟨fun r here last => ⟨r,row.trans here,rfl,last,fun h => h,Nat.le_refl _⟩,
      fun _ r here _ => ⟨r,row.symm.trans here,rfl,Nat.le_refl _⟩,
      fun _ unapproved => by rw [row]; exact unapproved⟩

/-- The row is another one of the same transfer. -/
theorem stays_moved {r : TargetedTransferRow} (r' : TargetedTransferRow) (here : c.row = some r)
    (there : c'.row = some r') (same : identity r' = identity r) (more : r.verifiedBytes ≤ r'.verifiedBytes) (ok : RowOk l h' r')
    (lasts : lasting r = true → lasting r' = true)
    (ended : r.state.terminal = true → r'.state.terminal = true)
    (own : h.owner id = some j → r.role = .sender → r'.state = .approved → r.state = .approved)
    (delivery : c'.delivery = true → r'.role = .sender ∧ r'.state = .approved)
    (completion : c'.completion = true → r'.role = .receiver ∧ r'.state = .completed)
    (release : c'.release = true → r'.role = .sender ∧ r'.state = .completed)
    (delivered : r'.role = .sender → r'.state = .approved → c'.delivery = false → Answered l h' r') :
    Stays l j id h h' c c' := by
  have role : r'.role = r.role := congrArg Identity.role same
  refine ⟨⟨fun r₁ h₁ => ?_,fun h₁ => ⟨r',there,delivery h₁⟩,fun h₁ => ⟨r',there,completion h₁⟩,
    fun h₁ => ⟨r',there,release h₁⟩,fun r₁ h₁ => ?_⟩,⟨fun r₁ h₁ last => ?_,fun _ r₁ h₁ _ => ?_,fun mine unapproved r₁ h₁ sends approved => ?_⟩⟩
  · cases there.symm.trans h₁
    exact ok
  · cases there.symm.trans h₁
    exact delivered
  · cases here.symm.trans h₁
    exact ⟨r',there,same,lasts last,ended,more⟩
  · cases there.symm.trans h₁
    exact ⟨r,here,same,more⟩
  · cases there.symm.trans h₁
    exact unapproved r here (role ▸ sends) (own mine (role ▸ sends) approved)

/-- A row that no outbox speaks about, before or after. -/
theorem stays_fresh {r' : TargetedTransferRow} (absent : c.row = none) (there : c'.row = some r')
    (ok : RowOk l h' r') (free : r'.role = .sender → id ∉ h.used ∧ r'.state ≠ .approved)
    (delivery : c'.delivery = false) (completion : c'.completion = false) (release : c'.release = false) :
    Stays l j id h h' c c' := by
  refine ⟨⟨fun r h₁ => ?_,fun h₁ => ?_,fun h₁ => ?_,fun h₁ => ?_,fun r h₁ sends approved _ => ?_⟩,
    ⟨fun r h₁ _ => ?_,fun used r h₁ sends => ?_,fun _ _ r h₁ sends => ?_⟩⟩
  · cases there.symm.trans h₁
    exact ok
  · cases delivery.symm.trans h₁
  · cases completion.symm.trans h₁
  · cases release.symm.trans h₁
  · cases there.symm.trans h₁
    exact absurd approved (free sends).2
  · cases absent.symm.trans h₁
  · cases there.symm.trans h₁
    exact absurd used (free sends).1
  · cases there.symm.trans h₁
    exact (free sends).2

/-- A row that goes is one that need not last. -/
theorem stays_gone {r : TargetedTransferRow} (here : c.row = some r) (early : lasting r = false)
    (there : c'.row = none) (delivery : c'.delivery = false) (completion : c'.completion = false)
    (release : c'.release = false) : Stays l j id h h' c c' := by
  refine ⟨⟨fun r h₁ => ?_,fun h₁ => ?_,fun h₁ => ?_,fun h₁ => ?_,fun r h₁ => ?_⟩,
    ⟨fun r h₁ last => ?_,fun _ r h₁ => ?_,fun _ _ r h₁ => ?_⟩⟩
  · cases there.symm.trans h₁
  · cases delivery.symm.trans h₁
  · cases completion.symm.trans h₁
  · cases release.symm.trans h₁
  · cases there.symm.trans h₁
  · cases here.symm.trans h₁
    cases early.symm.trans last
  · cases there.symm.trans h₁
  · cases there.symm.trans h₁

theorem stays_same (ok : CellOk l h' c) (row : c'.row = c.row) (delivery : c'.delivery = c.delivery)
    (completion : c'.completion = c.completion) (release : c'.release = c.release) :
    Stays l j id h h' c c' :=
  stays_row ok row (by rw [completion]; exact fun h => h) (by rw [release]; exact fun h => h)
    (by rw [delivery]; exact fun h => h) (.inl delivery)

end Cells

abbrev row (s : State) (id : TransferId) : Option TargetedTransferRow := s.state.device.store.getRow id

/-- What the caller of a statement has to know. -/
def Fits (l : Local) (s : State) (i : Nat) : Write → Prop
  | .insert new => new.role = .sender ∧ new.state = .preparing ∧ new.verifiedBytes = 0 ∧
    new.authorizationSecretHandle = none ∧ s.history.owner new.id = some i ∧ new.id ∉ s.history.used
  | .setState id src dst | .updateState id src dst =>
    src.allowed dst = true ∧ dst ≠ .approved ∧ dst ≠ .completed ∧ dst ≠ .deleted ∧
      (src = .approved → Unapproved (row s id))
  | .finalizeSenderAuthorization id _ _ => s.history.owner id = some i ∧
    ∀ r, row s id = some r → r.role = .sender → r.receiverEndpointId ≠ l.endpointId
  | .completeReceiver id bytes => ∀ r, row s id = some r → r.role = .receiver → r.totalSize = bytes
  | .clearPendingAuthorizationDelivery id => ∀ r, row s id = some r → r.role = .sender →
    Answered l s.history r
  | .clearAuthorization id => Unapproved (row s id)
  | .transitionTerminal _ dst clear => dst = .deleted → clear = true
  | _ => True

section Writes

theorem allowed_lasts {src dst : TargetedTransferState} (step : src.allowed dst = true)
    (late : src.preapproval = false) : dst.preapproval = false := by
  cases src <;> cases dst <;> simp_all [allowed,preapproval]

theorem lasting_moved {r r' : TargetedTransferRow} (role : r'.role = r.role)
    (late : r.state.preapproval = false → r'.state.preapproval = false) (last : lasting r = true) :
    lasting r' = true := by
  unfold lasting at *
  rw [role]
  simp only [Bool.or_eq_true,decide_eq_true_eq,Bool.not_eq_true'] at *
  exact last.imp_right late

theorem lasting_late {r : TargetedTransferRow} (late : r.state.preapproval = false) :
    lasting r = true := by
  unfold lasting
  simp [late]

variable {l : Local} {s : State} {i j : Nat} {id : TransferId} {now : Millis} {h' : History}

/-- A change of state that keeps the rest of the row. -/
theorem RowOk.restate {h : History} {r r' : TargetedTransferRow} (ok : RowOk l h r)
    (same : identity r' = identity r) (bytes : r'.verifiedBytes = r.verifiedBytes)
    (handle : r'.authorizationSecretHandle = none ∨
      r'.authorizationSecretHandle = r.authorizationSecretHandle)
    (late : r.state.preapproval = false → r'.state.preapproval = false)
    (complete : r'.state = .completed → r.state = .completed) : RowOk l h r' := by
  have role : r'.role = r.role := congrArg Identity.role same
  have size : r'.totalSize = r.totalSize := congrArg Identity.totalSize same
  refine ⟨?_,fun done => ?_,fun held => ?_,fun sends => ?_⟩
  · rw [bytes,size]
    exact ok.bytes
  · rw [bytes,size]
    exact ok.complete (complete done)
  · rcases handle with none | kept
    · exact absurd none held
    · rw [kept] at held
      obtain ⟨last,apart⟩ := ok.held held
      refine ⟨lasting_moved role late last,fun sends => ?_⟩
      rw [show r'.receiverEndpointId = r.receiverEndpointId from
        congrArg Identity.receiverEndpointId same]
      exact apart (role ▸ sends)
  · rw [show r'.id = r.id from congrArg Identity.id same]
    exact ok.used (role ▸ sends)

variable {c c' : Cell}

/-- A row that leaves its state for one that no outbox speaks about. -/
theorem stays_left {r : TargetedTransferRow} (r' : TargetedTransferRow) (ok : CellOk l h' c)
    (here : c.row = some r) (there : c'.row = some r') (same : identity r' = identity r)
    (bytes : r'.verifiedBytes = r.verifiedBytes)
    (handle : r'.authorizationSecretHandle = none ∨
      r'.authorizationSecretHandle = r.authorizationSecretHandle)
    (late : r.state.preapproval = false → r'.state.preapproval = false)
    (ended : r.state.terminal = true → r'.state.terminal = true)
    (apart : r'.state ≠ .approved ∧ r'.state ≠ .completed)
    (delivery : c'.delivery = true → c.delivery = true ∧ (r.role = .sender → r.state ≠ .approved))
    (completion : c'.completion = true → c.completion = true ∧ r.state ≠ .completed)
    (release : c'.release = true → c.release = true ∧ r.state ≠ .completed) :
    Stays l j id s.history h' c c' := by
  have role : r'.role = r.role := congrArg Identity.role same
  refine stays_moved _ here there same (Nat.le_of_eq bytes.symm) ((ok.row r here).restate same bytes handle late
    fun done => absurd done apart.2) (lasting_moved role late) ended
    (fun _ _ approved => absurd approved apart.1) (fun pending => ?_) (fun pending => ?_)
    (fun pending => ?_) fun _ approved => absurd approved apart.1
  · obtain ⟨was,never⟩ := delivery pending
    obtain ⟨r₁,here₁,sends,approved⟩ := ok.delivery was
    cases here.symm.trans here₁
    exact absurd approved (never sends)
  · obtain ⟨was,never⟩ := completion pending
    obtain ⟨r₁,here₁,_,done⟩ := ok.completion was
    cases here.symm.trans here₁
    exact absurd done never
  · obtain ⟨was,never⟩ := release pending
    obtain ⟨r₁,here₁,_,done⟩ := ok.release was
    cases here.symm.trans here₁
    exact absurd done never

/-- What a statement leaves under an identifier. -/
structure Leaves (now : Millis) (id : TransferId) (w : Write) (c c' : Cell) : Prop where
  row : c'.row = w.onRow now id c.row
  delivery : c'.delivery = w.onDelivery id c.row c.delivery
  completion : c'.completion = w.onCompletion id c.row c.completion
  release : c'.release = w.onRelease id c.row c.release

theorem leaves_run {w : Write} {t : Store} {changed : Bool}
    (ran : w.run s.state.device.store now = .ok (changed,t)) (id : TransferId) :
    Leaves now id w (cell s.state.device.store id) (cell t id) :=
  ⟨run_getRow ran id,run_delivery ran id,run_completion ran id,run_release ran id⟩

theorem stays_insert {new : TargetedTransferRow} (ok : CellOk l h' c)
    (leaves : Leaves now id (.insert new) c c') (absent : id = new.id → c.row = none)
    (fits : Fits l s i (.insert new)) (used : new.id ∈ h'.used) : Stays l j id s.history h' c c' := by
  obtain ⟨row,delivery,completion,release⟩ := leaves
  obtain ⟨_,state,bytes,bare,_,unused⟩ := fits
  by_cases same : id = new.id
  · obtain ⟨noDelivery,noCompletion,noRelease⟩ := ok.bare (absent same)
    refine stays_fresh (absent same) (row.trans (if_pos same)) ⟨?_,fun done => ?_,fun held => ?_,fun _ => used⟩
      (fun _ => ⟨same ▸ unused,by simp [state]⟩) (delivery.trans noDelivery)
      (completion.trans noCompletion) (release.trans noRelease)
    · omega
    · cases state.symm.trans done
    · exact absurd bare held
  · exact stays_same ok (row.trans (if_neg same)) delivery completion release

theorem stays_abandon {id' : TransferId} (ok : CellOk l h' c)
    (leaves : Leaves now id (.abandonSenderPreapproval id') c c') : Stays l j id s.history h' c c' := by
  obtain ⟨row,delivery,completion,release⟩ := leaves
  simp only [Write.onRow,Write.onDelivery,Write.onCompletion,Write.onRelease] at row delivery completion release
  by_cases same : id = id'
  · cases here : c.row with
    | none =>
      rw [here] at row delivery completion release
      exact stays_same ok (by simpa [same,here] using row) (by simpa using delivery)
        (by simpa using completion) (by simpa using release)
    | some r =>
      rw [here] at row delivery completion release
      by_cases early : (decide (r.role = .sender) && r.state.preapproval) = true
      · refine stays_gone here ?_ (by simpa [same,early,Option.filter] using row)
          (by simpa [same,early] using delivery) (by simpa [same,early] using completion)
          (by simpa [same,early] using release)
        simp only [Bool.and_eq_true,decide_eq_true_eq] at early
        simp [lasting,early.1,early.2]
      · simp only [Bool.not_eq_true] at early
        exact stays_same ok (by simpa [same,early,here,Option.filter] using row)
          (by simpa [early] using delivery) (by simpa [early] using completion)
          (by simpa [early] using release)
  · exact stays_same ok (by simpa [same] using row) (by simpa [same] using delivery)
      (by simpa [same] using completion) (by simpa [same] using release)

theorem stays_setState {id' : TransferId} {src dst : TargetedTransferState} (ok : CellOk l h' c)
    (leaves : Leaves now id (.updateState id' src dst) c c') (here : c.row = row s id)
    (fits : Fits l s i (.updateState id' src dst)) : Stays l j id s.history h' c c' := by
  obtain ⟨row,delivery,completion,release⟩ := leaves
  obtain ⟨step,unapproved,incomplete,undeleted,before⟩ := fits
  simp only [Write.onRow] at row
  by_cases same : id = id'
  · cases found : c.row with
    | none => exact stays_same ok (by simp [row,found]) delivery completion release
    | some r =>
      by_cases state : r.state = src
      · have live : r.state.terminal = true → False := fun ended =>
          undeleted (allowed_of_terminal (state ▸ ended) step).1
        refine stays_left { r with state := dst, updatedAt := now } ok found
          (by simp [row,found,same,state]) rfl rfl (.inr rfl) (fun late => allowed_lasts step (state ▸ late))
          (fun ended => (live ended).elim) ⟨unapproved,incomplete⟩
          (fun pending => ⟨delivery.symm.trans pending,fun sends approved => ?_⟩)
          (fun pending => ⟨completion.symm.trans pending,fun done => live (by rw [done]; rfl)⟩)
          (fun pending => ⟨release.symm.trans pending,fun done => live (by rw [done]; rfl)⟩)
        exact before (state.symm.trans approved) r (same ▸ here ▸ found) sends approved
      · exact stays_same ok (by simp [row,found,state]) delivery completion release
  · exact stays_same ok (by simp [row,same]) delivery completion release

theorem stays_completedSender {id' : TransferId} (ok : CellOk l h' c)
    (leaves : Leaves now id (.markSenderCompleted id') c c')
    (marked : id = id' → ∃ r, c.row = some r ∧ r.role = .sender ∧ (r.state.resumable ∨ r.state = .completed)) :
    Stays l j id s.history h' c c' := by
  obtain ⟨row,delivery,completion,release⟩ := leaves
  simp only [Write.onRow,Write.onDelivery,Write.onCompletion,Write.onRelease] at row delivery completion release
  by_cases same : id = id'
  · obtain ⟨r,found,sends,state⟩ := marked same
    rw [found] at row release
    by_cases resumes : r.state.resumable = true
    · have old := ok.row r found
      refine stays_moved
        { r with state := .completed, verifiedBytes := r.totalSize, updatedAt := now } found
        (by simpa [same,sends,resumes] using row) rfl old.bytes
        ⟨Nat.le_refl _,fun _ => rfl,fun held => ⟨lasting_late rfl,(old.held held).2⟩,old.used⟩
        (fun _ => lasting_late rfl) (fun _ => rfl) (fun _ _ approved => by cases approved)
        (fun pending => ?_) (fun pending => ?_) (fun _ => ⟨sends,rfl⟩) (fun _ approved => by cases approved)
      · simp [same] at delivery
        cases delivery.symm.trans pending
      · obtain ⟨r₁,here₁,receives,_⟩ := ok.completion (completion.symm.trans pending)
        cases found.symm.trans here₁
        cases sends.symm.trans receives
    · have done : r.state = .completed := state.resolve_left resumes
      simp only [Bool.not_eq_true] at resumes
      refine stays_row ok (by simpa [same,sends,resumes,found] using row) (fun h => completion.symm.trans h)
        (fun h => by simpa [same,sends,resumes,h] using release) (fun h => ?_) (.inr fun r₁ here₁ _ approved => ?_)
      · simp [same] at delivery
        cases delivery.symm.trans h
      · cases found.symm.trans here₁
        cases done.symm.trans approved
  · exact stays_same ok (by simpa [same] using row) (by simpa [same] using delivery) completion
      (by simpa [same] using release)

theorem stays_finalized {id' : TransferId} {blobTicket : Text} {handle : Handle} (ok : CellOk l h' c)
    (leaves : Leaves now id (.finalizeSenderAuthorization id' blobTicket handle) c c')
    (here : c.row = row s id)
    (waits : id = id' → ∃ r, c.row = some r ∧ r.role = .sender ∧ r.state = .awaitingApproval)
    (fits : Fits l s i (.finalizeSenderAuthorization id' blobTicket handle)) (other : j ≠ i) :
    Stays l j id s.history h' c c' := by
  obtain ⟨row,delivery,completion,release⟩ := leaves
  obtain ⟨mine,apart⟩ := fits
  simp only [Write.onRow,Write.onDelivery] at row delivery
  by_cases same : id = id'
  · obtain ⟨r,found,sends,state⟩ := waits same
    rw [found] at row
    have old := ok.row r found
    refine stays_moved { r with
        state := .approved, blobTicket := some blobTicket, authorizationSecretHandle := some handle
        updatedAt := now } found
      (by simpa [same,sends,state] using row) rfl (Nat.le_refl _)
      ⟨old.bytes,fun done => (by cases done),fun _ => ⟨lasting_late rfl,apart r (same ▸ here ▸ found)⟩,old.used⟩
      (fun _ => lasting_late rfl) (fun ended => ?_) (fun owned => ?_) (fun _ => ⟨sends,rfl⟩)
      (fun pending => ?_) (fun pending => ?_) (fun _ _ none => ?_)
    · rw [state] at ended
      cases ended
    · cases (same ▸ owned).symm.trans mine
      exact absurd rfl other
    · obtain ⟨r₁,here₁,_,done⟩ := ok.completion (completion.symm.trans pending)
      cases found.symm.trans here₁
      cases state.symm.trans done
    · obtain ⟨r₁,here₁,_,done⟩ := ok.release (release.symm.trans pending)
      cases found.symm.trans here₁
      cases state.symm.trans done
    · simp [same] at delivery
      cases none.symm.trans delivery
  · exact stays_same ok (by simpa [same] using row) (by simpa [same] using delivery) completion release

theorem stays_received {auth : TargetedAuthorization} {handle : Handle} (ok : CellOk l h' c)
    (leaves : Leaves now id (.persistReceiverAuthorization auth handle) c c')
    (absent : id = auth.transferId → c.row = none) : Stays l j id s.history h' c c' := by
  obtain ⟨row,delivery,completion,release⟩ := leaves
  by_cases same : id = auth.transferId
  · obtain ⟨noDelivery,noCompletion,noRelease⟩ := ok.bare (absent same)
    exact stays_fresh (absent same) (row.trans (if_pos same))
      ⟨Nat.zero_le _,fun done => (by cases done),fun _ => ⟨lasting_late rfl,fun sends => (by cases sends)⟩,
        fun sends => (by cases sends)⟩ (fun sends => by cases sends)
      (delivery.trans noDelivery) (completion.trans noCompletion) (release.trans noRelease)
  · exact stays_same ok (row.trans (if_neg same)) delivery completion release

theorem stays_cancelled {peer : EndpointId} (ok : CellOk l h' c)
    (leaves : Leaves now id (.cancelByPeer peer) c c') : Stays l j id s.history h' c c' := by
  obtain ⟨row,delivery,completion,release⟩ := leaves
  simp only [Write.onRow,Write.onDelivery] at row delivery
  cases found : c.row with
  | none =>
    rw [found] at row delivery
    exact stays_same ok (row.trans found.symm) (by simpa using delivery) completion release
  | some r =>
    rw [found] at row delivery
    cases ours : Store.withPeer peer r with
    | false =>
      exact stays_same ok (by simpa [ours,found] using row) (by simpa [ours] using delivery) completion release
    | true =>
      have gone : c'.delivery = false := by simpa [ours] using delivery
      by_cases ended : r.state.terminal = true
      · refine stays_row ok (by simpa [ours,ended,found] using row) (fun h => completion.symm.trans h)
          (fun h => release.symm.trans h) (fun h => by cases gone.symm.trans h) (.inr fun r₁ here₁ _ approved => ?_)
        cases found.symm.trans here₁
        rw [approved] at ended
        cases ended
      · refine stays_left { r with
            state := .cancelled, blobTicket := none, authorizationSecretHandle := none, updatedAt := now } ok found
          (by simpa [ours,ended] using row) rfl rfl (.inl rfl) (fun _ => rfl) (fun _ => rfl) ⟨by simp,by simp⟩
          (fun h => by cases gone.symm.trans h)
          (fun h => ⟨completion.symm.trans h,fun done => ended (by rw [done]; rfl)⟩)
          (fun h => ⟨release.symm.trans h,fun done => ended (by rw [done]; rfl)⟩)

theorem stays_completedReceiver {id' : TransferId} {bytes : Nat} (ok : CellOk l h' c)
    (leaves : Leaves now id (.completeReceiver id' bytes) c c') (here : c.row = row s id)
    (runs : id = id' → ∃ r, c.row = some r ∧ r.role = .receiver ∧ r.state = .transferring)
    (fits : Fits l s i (.completeReceiver id' bytes)) : Stays l j id s.history h' c c' := by
  obtain ⟨row,delivery,completion,release⟩ := leaves
  simp only [Write.onRow] at row
  by_cases same : id = id'
  · obtain ⟨r,found,receives,state⟩ := runs same
    rw [found] at row
    have old := ok.row r found
    have size : r.totalSize = bytes := fits r (same ▸ here ▸ found) receives
    refine stays_moved
      { r with state := .completed, verifiedBytes := bytes, updatedAt := now } found
      (by simpa [same,receives,state] using row) rfl (Nat.le_trans old.bytes (Nat.le_of_eq size))
      ⟨Nat.le_of_eq size.symm,fun _ => size.symm,fun held => ⟨lasting_late rfl,(old.held held).2⟩,old.used⟩
      (fun _ => lasting_late rfl) (fun _ => rfl) (fun _ _ approved => by cases approved)
      (fun pending => ?_) (fun _ => ⟨receives,rfl⟩) (fun pending => ?_) (fun _ approved => by cases approved)
    · obtain ⟨r₁,here₁,sends,_⟩ := ok.delivery (delivery.symm.trans pending)
      cases found.symm.trans here₁
      cases receives.symm.trans sends
    · obtain ⟨r₁,here₁,sends,_⟩ := ok.release (release.symm.trans pending)
      cases found.symm.trans here₁
      cases receives.symm.trans sends
  · exact stays_same ok (by simpa [same] using row) delivery
      (completion.trans (by simp [Write.onCompletion,same])) release

theorem stays_advanced {id' : TransferId} {bytes : Nat} (ok : CellOk l h' c)
    (leaves : Leaves now id (.advanceVerifiedBytes id' bytes) c c') : Stays l j id s.history h' c c' := by
  obtain ⟨row,delivery,completion,release⟩ := leaves
  simp only [Write.onRow] at row
  by_cases same : id = id'
  · cases found : c.row with
    | none => exact stays_same ok (by simp [row,found]) delivery completion release
    | some r =>
      rw [found] at row
      by_cases runs : (decide (r.role = .receiver) && decide (r.state = .transferring) &&
          decide (r.verifiedBytes < bytes)) = true
      · have old := ok.row r found
        simp only [Bool.and_eq_true,decide_eq_true_eq] at runs
        obtain ⟨⟨receives,state⟩,more⟩ := runs
        refine stays_moved { r with
            verifiedBytes := min r.totalSize (max r.verifiedBytes bytes), updatedAt := now } found
          (by simpa [same,receives,state,more] using row) rfl
          (Nat.le_min.mpr ⟨old.bytes,Nat.le_max_left ..⟩)
          ⟨Nat.min_le_left .., fun done => ?_,old.held,old.used⟩ (fun last => last) (fun ended => ended)
          (fun _ _ approved => approved) (fun pending => ?_) (fun pending => ?_) (fun pending => ?_)
          (fun sends => ?_)
        · cases state.symm.trans done
        · obtain ⟨r₁,here₁,sends,_⟩ := ok.delivery (delivery.symm.trans pending)
          cases found.symm.trans here₁
          cases receives.symm.trans sends
        · obtain ⟨r₁,here₁,both⟩ := ok.completion (completion.symm.trans pending)
          cases found.symm.trans here₁
          exact both
        · obtain ⟨r₁,here₁,sends,_⟩ := ok.release (release.symm.trans pending)
          cases found.symm.trans here₁
          cases receives.symm.trans sends
        · cases receives.symm.trans sends
      · simp only [Bool.not_eq_true] at runs
        simp only [if_pos same,Option.map_some,runs,Bool.false_eq_true,if_false] at row
        exact stays_same ok (row.trans found.symm) delivery completion release
  · exact stays_same ok (by simp [row,same]) delivery completion release

theorem stays_cleared {id' : TransferId} (ok : CellOk l h' c)
    (leaves : Leaves now id (.clearAuthorization id') c c') (here : c.row = row s id)
    (fits : Fits l s i (.clearAuthorization id')) : Stays l j id s.history h' c c' := by
  obtain ⟨row,delivery,completion,release⟩ := leaves
  simp only [Write.onRow,Write.onDelivery,Write.onCompletion,Write.onRelease] at row delivery completion release
  by_cases same : id = id'
  · have none₁ : c'.delivery = false := by simpa [same] using delivery
    have none₂ : c'.completion = false := by simpa [same] using completion
    have none₃ : c'.release = false := by simpa [same] using release
    cases found : c.row with
    | none =>
      exact stays_row ok (by simp [row,found]) (fun h => by cases none₂.symm.trans h)
        (fun h => by cases none₃.symm.trans h) (fun h => by cases none₁.symm.trans h)
        (.inr fun r₁ here₁ => by cases found.symm.trans here₁)
    | some r =>
      refine stays_moved { r with blobTicket := none, authorizationSecretHandle := none } found
        (by simp [row,found,same]) rfl (Nat.le_refl _)
        ((ok.row r found).restate rfl rfl (.inl rfl) (fun h => h) fun h => h)
        (fun last => last) (fun ended => ended) (fun _ _ approved => approved)
        (fun h => by cases none₁.symm.trans h) (fun h => by cases none₂.symm.trans h)
        (fun h => by cases none₃.symm.trans h) fun sends approved _ => ?_
      exact absurd approved (fits r (same ▸ here ▸ found) sends)
  · exact stays_same ok (by simp [row,same]) (by simpa [same] using delivery)
      (by simpa [same] using completion) (by simpa [same] using release)

theorem leavesFor_ended {dst state : TargetedTransferState} (ends : dst = .cancelled ∨ dst = .deleted)
    (stays : Store.leavesFor dst state = false) : state.terminal = true := by
  rcases ends with rfl | rfl <;> cases state <;> simp_all [Store.leavesFor,terminal]

theorem leavesFor_cancelled {state : TargetedTransferState}
    (goes : Store.leavesFor .cancelled state = true) : state.terminal = false := by
  cases state <;> simp_all [Store.leavesFor,terminal]

theorem stays_ended {id' : TransferId} {dst : TargetedTransferState} {clear : Bool} (ok : CellOk l h' c)
    (leaves : Leaves now id (.transitionTerminal id' dst clear) c c')
    (ends : dst = .cancelled ∨ dst = .deleted) (fits : Fits l s i (.transitionTerminal id' dst clear)) :
    Stays l j id s.history h' c c' := by
  obtain ⟨row,delivery,completion,release⟩ := leaves
  simp only [Write.onRow,Write.onDelivery,Write.onCompletion,Write.onRelease] at row delivery completion release
  by_cases same : id = id'
  · have none₁ : c'.delivery = false := by simpa [same] using delivery
    have fewer₂ : c'.completion = true → c.completion = true ∧ clear = false := fun h => by
      simpa [same,h,and_comm] using completion.symm
    have fewer₃ : c'.release = true → c.release = true ∧ clear = false := fun h => by
      simpa [same,h,and_comm] using release.symm
    cases found : c.row with
    | none =>
      exact stays_row ok (by simp [row,found]) (fun h => (fewer₂ h).1) (fun h => (fewer₃ h).1)
        (fun h => by cases none₁.symm.trans h) (.inr fun r₁ here₁ => by cases found.symm.trans here₁)
    | some r =>
      cases goes : Store.leavesFor dst r.state with
      | false =>
        refine stays_row ok (by simp [row,found,same,goes]) (fun h => (fewer₂ h).1)
          (fun h => (fewer₃ h).1) (fun h => by cases none₁.symm.trans h)
          (.inr fun r₁ here₁ _ approved => ?_)
        cases found.symm.trans here₁
        have ended := leavesFor_ended ends goes
        rw [approved] at ended
        cases ended
      | true =>
        have unfinished : clear = false → r.state ≠ .completed := fun unclear done => by
          have cancels : dst = .cancelled := ends.resolve_right fun deletes => by
            cases (fits deletes).symm.trans unclear
          have live := leavesFor_cancelled (cancels ▸ goes)
          rw [done] at live
          cases live
        refine stays_left { r with
            state := dst
            blobTicket := if clear then none else r.blobTicket
            authorizationSecretHandle := if clear then none else r.authorizationSecretHandle
            updatedAt := now } ok found
          (by simp [row,found,same,goes]) rfl rfl ?_ ?_ ?_ ?_ (fun h => by cases none₁.symm.trans h)
          (fun h => ⟨(fewer₂ h).1,unfinished (fewer₂ h).2⟩) (fun h => ⟨(fewer₃ h).1,unfinished (fewer₃ h).2⟩)
        · cases clear
          · exact .inr rfl
          · exact .inl rfl
        · rcases ends with rfl | rfl <;> exact fun _ => rfl
        · rcases ends with rfl | rfl <;> exact fun _ => rfl
        · rcases ends with rfl | rfl <;> exact ⟨by simp,by simp⟩
  · exact stays_same ok (by simp [row,same]) (by simpa [same] using delivery)
      (by simpa [same] using completion) (by simpa [same] using release)

/-- Each statement, under each identifier. -/
theorem stays_write {t : Store} {changed : Bool} {w : Write}
    (ran : w.run s.state.device.store now = .ok (changed,t)) (fits : Fits l s i w)
    (ok : CellOk l h' (cell s.state.device.store id))
    (inserted : ∀ new, w = .insert new → new.id ∈ h'.used)
    (more : ∀ x ∈ s.history.answered, x ∈ h'.answered)
    (other : j ≠ i ∨ w.kind ≠ .finalizeSenderAuthorization) :
    Stays l j id s.history h' (cell s.state.device.store id) (cell t id) := by
  have leaves := leaves_run ran id
  cases w with
  | insert new =>
    obtain ⟨u,done,same⟩ := except_map_ok ran
    refine stays_insert ok leaves (fun same => ?_) fits (inserted new rfl)
    rw [same]
    exact (insert_ok done).1
  | abandonSenderPreapproval id' => exact stays_abandon ok leaves
  | setState id' src dst => exact stays_setState (i := i) ok ⟨leaves.1,leaves.2,leaves.3,leaves.4⟩ rfl fits
  | updateState id' src dst => exact stays_setState ok leaves rfl fits
  | markSenderCompleted id' =>
    exact stays_completedSender ok leaves fun same => same ▸ markSenderCompleted_ok ran
  | finalizeSenderAuthorization id' blobTicket handle =>
    obtain ⟨u,done,_⟩ := except_map_ok ran
    exact stays_finalized ok leaves rfl (fun same => same ▸ finalize_ok done) fits
      (other.resolve_right fun differs => differs rfl)
  | persistReceiverAuthorization auth handle =>
    obtain ⟨u,done,_⟩ := except_map_ok ran
    exact stays_received ok leaves fun same => same ▸ (persistReceiver_ok done).1
  | cancelByPeer peer => exact stays_cancelled ok leaves
  | completeReceiver id' bytes =>
    obtain ⟨u,done,_⟩ := except_map_ok ran
    exact stays_completedReceiver ok leaves rfl (fun same => same ▸ completeReceiver_ok done) fits
  | advanceVerifiedBytes id' bytes => exact stays_advanced ok leaves
  | clearAuthorization id' => exact stays_cleared ok leaves rfl fits
  | transitionTerminal id' dst clear => exact stays_ended ok leaves (transitionTerminal_ok ran).1 fits
  | clearPendingAuthorizationDelivery id' =>
    refine stays_row ok leaves.row (fun h => leaves.completion.symm.trans h)
      (fun h => leaves.release.symm.trans h) (fun h => ?_) ?_
    · have pending := leaves.delivery.symm.trans h
      simp only [Write.onDelivery,Bool.and_eq_true] at pending
      exact pending.2
    · by_cases same : id = id'
      · exact .inr fun r here sends _ => (fits r (same ▸ here) sends).mono more
      · exact .inl (leaves.delivery.trans (by simp [Write.onDelivery,same]))
  | clearPendingCompletion id' =>
    refine stays_row ok leaves.row (fun h => ?_) (fun h => leaves.release.symm.trans h)
      (fun h => leaves.delivery.symm.trans h) (.inl leaves.delivery)
    have pending := leaves.completion.symm.trans h
    simp only [Write.onCompletion,Bool.and_eq_true] at pending
    exact pending.2
  | clearPendingPayloadRelease id' =>
    refine stays_row ok leaves.row (fun h => leaves.completion.symm.trans h) (fun h => ?_)
      (fun h => leaves.delivery.symm.trans h) (.inl leaves.delivery)
    have pending := leaves.release.symm.trans h
    simp only [Write.onRelease,Bool.and_eq_true] at pending
    exact pending.2
  | persistAcceptedOfferIntent | clearAcceptedOfferIntent | clearAcceptedIntentIfSender
  | deferPendingAuthorizationDelivery | deferPendingCompletion =>
    exact stays_same ok leaves.row leaves.delivery leaves.completion leaves.release

end Writes

/-! The operations of the runtime. -/

/-- Neither a statement on the tables nor a new identifier. -/
def calm : RuntimeOp → Bool
  | .targeted (.write _) | .targeted .drawTransferId | .failResumable _ => false
  | _ => true

theorem exec_calm {l : Local} {s t : Runtime} {c : RuntimeChoice} {o : RuntimeOp} {r : RuntimeAns o}
    (is : calm o = true) (h : s.exec l c o = some (r,t)) :
    t.device.store = s.device.store ∧ t.device.drawn = s.device.drawn := by
  cases o with
  | targeted o =>
    obtain ⟨⟨r',d⟩,ran,same⟩ := Option.map_eq_some_iff.mp h
    cases same
    change d.store = s.device.store ∧ d.drawn = s.device.drawn
    cases o with
    | write | drawTransferId => cases is
    | _ =>
      simp only [Device.exec] at ran
      repeat' split at ran
      all_goals first
        | (cases ran; done)
        | (cases ran; exact ⟨rfl,rfl⟩)
        | (obtain ⟨_,_,same⟩ := Option.map_eq_some_iff.mp ran
           cases same
           exact ⟨rfl,rfl⟩)
  | failResumable => cases is
  | _ =>
    simp only [Runtime.exec,Runtime.attempt] at h
    repeat' split at h
    all_goals (cases h; exact ⟨rfl,rfl⟩)

section Steps

variable {l : Local} {s t : State} {i j : Nat} {call : RuntimeCall} {c : RuntimeChoice}
  {o : RuntimeOp} {r : RuntimeAns o}

theorem exec_machine (h : (machine l).exec s i call o c = some (r,t)) :
    ∃ rt, s.state.exec l c o = some (r,rt) ∧ t = ⟨rt,record s.history s.state i call o r⟩ := by
  have observed : ((runtime l (·.device = .new)).observe .new record fun h _ _ => h).exec s i call o c =
    some (r,t) := h
  exact observe_exec observed

theorem exec_targeted {o : Op} {r : Ans o} (h : (machine l).exec s i call (.targeted o) c = some (r,t)) :
    ∃ d, s.state.device.exec l c.toChoice o = some (r,d) ∧
      t = ⟨s.state.setDevice d,record s.history s.state i call (.targeted o) r⟩ := by
  obtain ⟨rt,ran,rfl⟩ := exec_machine h
  obtain ⟨⟨r',d⟩,performed,same⟩ := Option.map_eq_some_iff.mp
    (show (s.state.device.exec l c.toChoice o).map _ = _ from ran)
  cases same
  exact ⟨d,performed,rfl⟩

/-- What a calm operation adds to the history. -/
structure Notes (h h' : History) : Prop where
  owner : h'.owner = h.owner
  used : h'.used = h.used
  answered : ∀ x ∈ h.answered, x ∈ h'.answered

theorem record_calm (i : Nat) (call : RuntimeCall) (is : calm o = true) (h : History) (rt : Runtime) (r : RuntimeAns o) :
    Notes h (record h rt i call o r) := by
  unfold record
  split
  · cases is
  · cases is
  · exact ⟨rfl,rfl,fun x there => List.mem_cons_of_mem _ there⟩
  · exact ⟨rfl,rfl,fun x there => there⟩

/-- The tables stay as they are. -/
theorem Inv.calm {rt : Runtime} {h' : History} (inv : Inv l s) (store : rt.device.store = s.state.device.store)
    (drawn : rt.device.drawn = s.state.device.drawn) (notes : Notes s.history h') : Inv l ⟨rt,h'⟩ where
  cells id := by
    dsimp only
    rw [store]
    exact (inv.cells id).mono (fun id used => by rw [notes.used]; exact used) notes.answered
  drawn id i owner := by
    dsimp only at owner ⊢
    rw [drawn]
    exact inv.drawn id i (notes.owner ▸ owner)
  owned id used := by
    dsimp only at used ⊢
    rw [notes.owner]
    exact inv.owned id (notes.used ▸ used)

theorem Kept.calm {rt : Runtime} {h' : History} (store : rt.device.store = s.state.device.store)
    (notes : Notes s.history h') (j : Nat) : Kept j s ⟨rt,h'⟩ where
  follows id := by
    dsimp only
    rw [store]
    exact .refl j id _ _
  used id used := by
    dsimp only
    rw [notes.used]
    exact used
  answered := notes.answered
  owner id i owner := by
    dsimp only
    rw [notes.owner]
    exact owner
  unused id _ unused := by
    dsimp only
    rw [notes.used]
    exact unused

theorem step_calm (is : Outbox.calm o = true) (inv : Inv l s)
    (h : (machine l).exec s i call o c = some (r,t)) : Inv l t ∧ ∀ j, Kept j s t := by
  obtain ⟨rt,ran,rfl⟩ := exec_machine h
  obtain ⟨store,drawn⟩ := exec_calm is ran
  have notes := record_calm i call is s.history s.state r
  exact ⟨inv.calm store drawn notes,.calm store notes⟩

/-- The statements that only the call that has drawn the identifier runs. -/
def owners : List Kind := [.insert,.finalizeSenderAuthorization]

theorem exec_write {w : Write} {r : Except VnidropError Bool}
    (h : (machine l).exec s i call (.targeted (.write w)) c = some (r,t)) :
    (∃ e, r = .error e ∧ t = s) ∨ ∃ changed store, w.run s.state.device.store c.now = .ok (changed,store) ∧
      r = .ok changed ∧ t = ⟨s.state.setDevice { s.state.device with store },
        record s.history s.state i call (.targeted (.write w)) (.ok changed)⟩ := by
  obtain ⟨d,performed,rfl⟩ := exec_targeted h
  rcases Device.exec_write performed with ⟨⟨e,rfl⟩,rfl⟩ | ⟨changed,store,wrote,rfl,rfl⟩
  · refine .inl ⟨e,rfl,?_⟩
    cases w <;> rfl
  · exact .inr ⟨changed,store,wrote,rfl,rfl⟩

/-- What a statement adds to the history. -/
structure Wrote (w : Write) (h h' : History) : Prop where
  owner : h'.owner = h.owner
  answered : h'.answered = h.answered
  used : ∀ id, id ∈ h'.used ↔ id ∈ h.used ∨ ∃ new, w = .insert new ∧ id = new.id

theorem record_write (i : Nat) (call : RuntimeCall) (w : Write) (changed : Bool) (h : History) (rt : Runtime) :
    Wrote w h (record h rt i call (.targeted (.write w)) (.ok changed)) := by
  cases w with
  | insert new =>
    refine ⟨rfl,rfl,fun id => List.mem_cons.trans ?_⟩
    rw [or_comm]
    refine or_congr_right ⟨fun same => ⟨new,rfl,same⟩,?_⟩
    rintro ⟨_,same,this⟩
    cases same
    exact this
  | _ => exact ⟨rfl,rfl,fun id => ⟨.inl,fun h => h.resolve_right fun ⟨_,same,_⟩ => by cases same⟩⟩

theorem step_write {w : Write} {r : Except VnidropError Bool} (inv : Inv l s) (fits : Fits l s i w)
    (h : (machine l).exec s i call (.targeted (.write w)) c = some (r,t)) :
    Inv l t ∧ ∀ j, j ≠ i ∨ owners.contains w.kind = false → Kept j s t := by
  rcases exec_write h with ⟨_,_,rfl⟩ | ⟨changed,store,wrote,_,rfl⟩
  · exact ⟨inv,fun j _ => .refl j t⟩
  have notes := record_write i call w changed s.history s.state
  generalize record s.history s.state i call (.targeted (.write w)) (.ok changed) = h' at notes
  have used (id : TransferId) (before : id ∈ s.history.used) : id ∈ h'.used := (notes.used id).mpr (.inl before)
  have answered (x) (before : x ∈ s.history.answered) : x ∈ h'.answered := by
    rw [notes.answered]
    exact before
  have stays (j : Nat) (other : j ≠ i ∨ owners.contains w.kind = false) (id : TransferId) :
      Stays l j id s.history h' (cell s.state.device.store id) (cell store id) := by
    refine stays_write wrote fits ((inv.cells id).mono used answered)
      (fun new is => (notes.used _).mpr (.inr ⟨new,is,rfl⟩)) answered (other.imp_right fun apart same => ?_)
    rw [same] at apart
    cases apart
  refine ⟨⟨fun id => (stays (i + 1) (.inl (by omega)) id).1,fun id j own => ?_,fun id later => ?_⟩,
    fun j other => ⟨fun id => (stays j other id).2,used,answered,fun id k own => ?_,fun id mine free later => ?_⟩⟩
  · exact inv.drawn id j (notes.owner ▸ own)
  · rcases (notes.used id).mp later with before | ⟨new,rfl,rfl⟩
    · exact (inv.owned id before).imp fun k own => notes.owner ▸ own
    · exact ⟨i,notes.owner ▸ fits.2.2.2.2.1⟩
  · exact notes.owner ▸ own
  · rcases (notes.used id).mp later with before | ⟨new,rfl,rfl⟩
    · exact free before
    · rcases other with other | apart
      · cases mine.symm.trans fits.2.2.2.2.1
        exact other rfl
      · cases apart

/-- A store whose cells have stayed, with a history that has not changed. -/
theorem step_cells {d : Device} (inv : Inv l s) (drawn : d.drawn = s.state.device.drawn)
    (stays : ∀ j id, Stays l j id s.history s.history (cell s.state.device.store id) (cell d.store id)) :
    Inv l ⟨s.state.setDevice d,s.history⟩ ∧ ∀ j, Kept j s ⟨s.state.setDevice d,s.history⟩ := by
  refine ⟨⟨fun id => (stays 0 id).1,fun id i own => ?_,inv.owned⟩,
    fun j => ⟨fun id => (stays j id).2,fun _ h => h,fun _ h => h,fun _ _ h => h,fun _ _ h => h⟩⟩
  change id ∈ d.drawn
  rw [drawn]
  exact inv.drawn id i own

theorem step_draw {id : TransferId} (inv : Inv l s)
    (h : (machine l).exec s i call (.targeted .drawTransferId) c = some (id,t)) :
    (Inv l t ∧ ∀ j, Kept j s t) ∧ t.history.owner id = some i ∧ id ∉ t.history.used := by
  obtain ⟨d,performed,rfl⟩ := exec_targeted h
  simp only [Device.exec] at performed
  split at performed
  · cases performed
  · rename_i fresh
    cases performed
    have new : c.number ∉ s.state.device.drawn := fun drawn => fresh (.inl (List.mem_map.mpr ⟨_,drawn,rfl⟩))
    have unowned (k : Nat) (own : s.history.owner c.number = some k) : False := new (inv.drawn _ k own)
    have owner (id : TransferId) (k : Nat) (own : s.history.owner id = some k) :
        Function.update s.history.owner c.number (some i) id = some k := by
      rw [Function.update_of_ne fun same : id = c.number => unowned k (same ▸ own)]
      exact own
    refine ⟨⟨⟨fun id => (inv.cells id).mono (fun _ h => h) fun _ h => h,fun id k own => ?_,fun id used => ?_⟩,
      fun j => ⟨fun id => .refl j id _ _,fun _ h => h,fun _ h => h,owner,fun _ _ h => h⟩⟩,
      Function.update_self ..,fun used => ?_⟩
    · by_cases same : id = c.number
      · exact same ▸ List.mem_cons_self
      · exact List.mem_cons_of_mem _ (inv.drawn id k ((Function.update_of_ne same ..).symm.trans own))
    · obtain ⟨k,own⟩ := inv.owned id used
      exact ⟨k,owner id k own⟩
    · obtain ⟨k,own⟩ := inv.owned _ used
      exact unowned k own

theorem stays_failed {store : Store} {id id' : TransferId} {now : Millis} {h h' : History}
    (ok : CellOk l h' (cell store id)) :
    Stays l j id h h' (cell store id) (cell (store.failResumableAndClearDelivery id' now).2 id) := by
  unfold Store.failResumableAndClearDelivery
  dsimp only
  split
  · have row := updated_row (q := fun r => r.state.resumable)
      (f := fun r => { r with state := .failed, updatedAt := now }) store.transfers id' id fun _ => rfl
    have delivery := isSome_delete store.authorizationDelivery id' id
    by_cases same : id = id'
    · have none₁ : ((store.authorizationDelivery.delete id').find id).isSome = false := by
        simp [same]
      rw [if_pos same] at row
      cases found : store.getRow id with
      | none =>
        rw [show store.transfers.find id = none from found] at row
        exact stays_row ok (row.trans found.symm) (fun h => h) (fun h => h)
          (fun h => by cases none₁.symm.trans h) (.inr fun r here => by cases found.symm.trans here)
      | some r =>
        rw [show store.transfers.find id = some r from found,Option.map_some] at row
        by_cases resumes : r.state.resumable = true
        · rw [if_pos resumes] at row
          have live := resumable_live resumes
          refine stays_left _ (s := ⟨⟨.new,[],fun _ => none,[]⟩,h⟩) ok found row rfl rfl (.inr rfl) (fun _ => rfl)
            (fun ended => rfl) ⟨by simp,by simp⟩ (fun h => by cases none₁.symm.trans h)
            (fun h => ⟨h,fun done => ?_⟩) (fun h => ⟨h,fun done => ?_⟩)
          · rw [done] at live
            cases live
          · rw [done] at live
            cases live
        · rw [if_neg resumes] at row
          refine stays_row ok (row.trans found.symm) (fun h => h) (fun h => h)
            (fun h => by cases none₁.symm.trans h) (.inr fun r₁ here₁ _ approved => ?_)
          cases found.symm.trans here₁
          rw [approved] at resumes
          exact absurd rfl resumes
    · rw [if_neg same] at row
      exact stays_same ok row (delivery.trans (by simp [same,cell])) rfl rfl
  · exact stays_same ok rfl rfl rfl rfl

theorem step_fail {id : TransferId} {r : Bool} (inv : Inv l s)
    (h : (machine l).exec s i call (.failResumable id) c = some (r,t)) :
    Inv l t ∧ ∀ j, Kept j s t := by
  obtain ⟨rt,ran,rfl⟩ := exec_machine h
  simp only [Runtime.exec] at ran
  split at ran
  · cases ran
    exact ⟨inv,fun j => .refl j _⟩
  · cases ran
    exact step_cells inv rfl fun j id => stays_failed (inv.cells id)

/-- The housekeeping statements, under each identifier. -/
theorem stays_housekept {d : Device} {e : Housekeeping} {id : TransferId} {h h' : History}
    (ok : CellOk l h' (cell d.store id)) :
    Stays l j id h h' (cell d.store id) (cell (d.housekeep e).store id) := by
  cases e with
  | markInterruptedInFlight now =>
    have row := Table.find_updateWhere d.store.transfers
      (fun r => r.state = .connecting || r.state = .transferring)
      (fun r => { r with state := .interrupted, updatedAt := now }) (fun _ => rfl) id
    cases found : d.store.getRow id with
    | none =>
      rw [show d.store.transfers.find id = none from found] at row
      exact stays_same ok (row.trans found.symm) rfl rfl rfl
    | some r =>
      rw [show d.store.transfers.find id = some r from found,Option.map_some] at row
      split at row
      · rename_i runs
        simp only [Bool.or_eq_true,decide_eq_true_eq] at runs
        refine stays_left _ (s := ⟨⟨.new,[],fun _ => none,[]⟩,h⟩) ok found row rfl rfl (.inr rfl) (fun _ => rfl)
          (fun ended => ?_) ⟨by simp,by simp⟩ (fun h => ⟨h,fun _ same => ?_⟩) (fun h => ⟨h,fun same => ?_⟩)
          (fun h => ⟨h,fun same => ?_⟩)
        · rcases runs with same | same <;> (rw [same] at ended; cases ended)
        all_goals rcases runs with other | other <;> cases same.symm.trans other
      · exact stays_same ok (row.trans found.symm) rfl rfl rfl
  | failSenderPreapproval now =>
    have row := Table.find_updateWhere d.store.transfers Store.senderPreapproval
      (fun r => { r with state := .failed, updatedAt := now }) (fun _ => rfl) id
    cases found : d.store.getRow id with
    | none =>
      rw [show d.store.transfers.find id = none from found] at row
      exact stays_same ok (row.trans found.symm) rfl rfl rfl
    | some r =>
      rw [show d.store.transfers.find id = some r from found,Option.map_some] at row
      split at row
      · rename_i early
        simp only [Store.senderPreapproval,Bool.and_eq_true] at early
        have early := early.2
        refine stays_left _ (s := ⟨⟨.new,[],fun _ => none,[]⟩,h⟩) ok found row rfl rfl (.inr rfl) (fun _ => rfl)
          (fun _ => rfl) ⟨by simp,by simp⟩ (fun h => ⟨h,fun _ same => ?_⟩) (fun h => ⟨h,fun same => ?_⟩)
          (fun h => ⟨h,fun same => ?_⟩)
        all_goals rw [same] at early; cases early
      · exact stays_same ok (row.trans found.symm) rfl rfl rfl
  | resetIdentity now =>
    have row := Table.find_updateWhere d.store.transfers (fun _ => true) (fun r => { r with
      state := if r.state.terminal then r.state else .cancelled
      blobTicket := none
      authorizationSecretHandle := none
      updatedAt := if !r.state.terminal || r.blobTicket.isSome || r.authorizationSecretHandle.isSome
        then now else r.updatedAt }) (fun _ => rfl) id
    cases found : d.store.getRow id with
    | none =>
      rw [show d.store.transfers.find id = none from found] at row
      exact stays_row ok (row.trans found.symm) (fun h => by cases h) (fun h => by cases h) (fun h => by cases h)
        (.inr fun r here => by cases found.symm.trans here)
    | some r =>
      rw [show d.store.transfers.find id = some r from found,Option.map_some,if_pos rfl] at row
      have ends : ∀ x, (if r.state.terminal then r.state else .cancelled) = x → x = .cancelled ∨
          (x = r.state ∧ r.state.terminal = true) := by
        rintro _ rfl
        split
        · rename_i ended
          exact .inr ⟨rfl,ended⟩
        · exact .inl rfl
      refine stays_moved _ found row rfl (Nat.le_refl _) ((ok.row r found).restate rfl rfl (.inl rfl) (fun late => ?_) fun done => ?_)
        (lasting_moved (r := r) rfl fun late => ?_) (fun ended => ?_) (fun _ _ approved => ?_)
        (fun h => by cases h) (fun h => by cases h) (fun h => by cases h)
        (fun _ approved _ => ?_)
      · rcases ends _ rfl with same | ⟨same,_⟩ <;> dsimp only <;> rw [same]
        · rfl
        · exact late
      · rcases ends _ done with same | ⟨same,_⟩
        · cases same
        · exact same.symm
      · rcases ends _ rfl with same | ⟨same,_⟩ <;> dsimp only <;> rw [same]
        · rfl
        · exact late
      · dsimp only
        rw [if_pos ended]
        exact ended
      · rcases ends _ approved with same | ⟨same,_⟩
        · cases same
        · exact same.symm
      · rcases ends _ approved with same | ⟨same,ended⟩
        · cases same
        · rw [← same] at ended
          cases ended

theorem step_event {e : Event} (inv : Inv l s) (h : (machine l).env s e = some t) :
    Inv l t ∧ ∀ j, Kept j s t := by
  cases e with
  | housekeeping e =>
    cases h
    refine step_cells inv ?_ fun j id => stays_housekept (inv.cells id)
    cases e <;> rfl
  | restart =>
    cases h
    exact step_cells inv rfl fun j id => stays_same (inv.cells id) rfl rfl rfl rfl

end Steps

/-! The calls. -/

abbrev Safely (l : Local) (i : Nat) (call : RuntimeCall) {α : Type} (p : RuntimeTask α)
    (post : α → State → Prop) (s : State) : Prop := Safe (machine l) (guard l) (terms l) i call p post s

/-- The same of a program of the targeted domain. -/
abbrev Does (l : Local) (i : Nat) (call : RuntimeCall) {α : Type} (p : Task α)
    (post : α → State → Prop) (s : State) : Prop := Safely l i call (within p) post s

/-- The statements whose caller has to know something. -/
abbrev needy : List Kind := [.insert,.setState,.updateState,.finalizeSenderAuthorization,
  .completeReceiver,.clearPendingAuthorizationDelivery,.clearAuthorization,.transitionTerminal]

section Rules

variable {α β : Type} {l : Local} {s t u : State} {i j : Nat} {call : RuntimeCall} {id : TransferId}

theorem does_bind {p : Task α} {f : α → Task β} {post : β → State → Prop}
    (h : Does l i call p (fun a t => Does l i call (f a) post t) s) :
    Does l i call (p >>= f) post s := by
  change Safely l i call (within (p >>= f)) post s
  rw [within_bind]
  exact safe_bind h

/-- What a program does first, when only what others may rely on matters. -/
theorem does_then {p : Task α} {f : α → Task β} {post : β → State → Prop}
    (first : Does l i call p (fun _ => Kept i s) s)
    (rest : ∀ a t, Kept i s t → Does l i call (f a) post t) : Does l i call (p >>= f) post s :=
  does_bind (safe_mono (fun a t kept => rest a t kept) first)

theorem fits_free {w : Write} (free : needy.contains w.kind = false) : Fits l s i w := by
  cases w <;> first | (cases free; done) | trivial

theorem step_free {o : Op} {c : RuntimeChoice} {r : Ans o} (free : needy.contains o.kind = false)
    (inv : Inv l s) (h : (machine l).exec s i call (.targeted o) c = some (r,t)) :
    Inv l t ∧ ∀ j, Kept j s t := by
  cases o with
  | write w =>
    obtain ⟨inv',kept⟩ := step_write inv (fits_free free) h
    refine ⟨inv',fun j => kept j (.inr ?_)⟩
    cases w <;> first | (cases free; done) | rfl
  | drawTransferId => exact (step_draw inv h).1
  | _ => exact step_calm rfl inv h

theorem does_free {p : Task α} (avoids : Avoids needy p) : Does l i call p (fun _ => Kept i s) s := by
  refine safe_quiet (all_within ?_) s
  induction p with
  | ret a => trivial
  | step o k ih =>
    exact ⟨fun t _ inv c r u _ performed => step_free avoids.1 inv performed,fun r => ih r (avoids.2 r)⟩

theorem does_op {o : Op} {f : Ans o → Task β} {post : β → State → Prop}
    (free : needy.contains o.kind = false)
    (rest : ∀ t c r u, Inv l t → Kept i s t → Kept i t u → (guard l).steps t call (.targeted o) c →
      (machine l).exec t i call (.targeted o) c = some (r,u) → Does l i call (f r) post u) :
    Does l i call (op o >>= f) post s := by
  intro t _ inv kept c r u ok performed
  obtain ⟨inv',kept'⟩ := step_free free inv performed
  exact ⟨⟨inv',fun j _ => kept' j⟩,rest t c r u inv kept (kept' i) ok performed⟩

theorem does_write {w : Write} {f : Except VnidropError Bool → Task β} {post : β → State → Prop}
    (fine : owners.contains w.kind = false) (fits : ∀ t, Inv l t → Kept i s t → Fits l t i w)
    (rest : ∀ t c r u, Inv l t → Kept i s t → Kept i t u →
      (machine l).exec t i call (.targeted (.write w)) c = some (r,u) → Does l i call (f r) post u) :
    Does l i call (write w >>= f) post s := by
  intro t _ inv kept c r u _ performed
  obtain ⟨inv',kept'⟩ := step_write inv (fits t inv kept) performed
  exact ⟨⟨inv',fun j other => kept' j (.inl other)⟩,rest t c r u inv kept (kept' i (.inr fine)) performed⟩

theorem does_getRow {f : Except VnidropError (Option TargetedTransferRow) → Task β}
    {post : β → State → Prop}
    (error : ∀ t e, Kept i s t → Does l i call (f (.error e)) post t)
    (found : ∀ t, Inv l t → Kept i s t → Does l i call (f (.ok (row t id))) post t) :
    Does l i call (op (.getRow id) >>= f) post s := by
  intro t _ inv kept c r u _ performed
  obtain ⟨d,read,rfl⟩ := exec_targeted performed
  cases Device.exec_reads rfl read
  refine ⟨⟨inv,fun j _ => .refl j t⟩,?_⟩
  cases r with
  | error e => exact error t e kept
  | ok row =>
    cases Device.exec_getRow read
    exact found t inv kept

end Rules

end Vnidrop.Targeted.Outbox
