import Mathlib.Data.Finset.Card
import Vnidrop.AccessPolicy
import Vnidrop.Programs
import Vnidrop.ReceiverRequests

/-! Approval of receivers: the task of an access request, the responses of the owner and
the timeout. They meet at an in-memory waiter, the durable request and the access session. -/
namespace Vnidrop.Approval

open Access Invitation Programs Runs Tables

structure RequestTransfer where
  transferId : TransferId
  transferHash : String
  transferName : String
  receiverName : Option String
  receiverDeviceName : Option String
  appVersion : String
  deriving DecidableEq, Repr

inductive HandshakeResponse where
  | approved (requestId : Nat) (token : Text) (expiresAt : Millis) (senderName : Option String)
  | denied (reason : String)
  deriving DecidableEq, Repr

structure ApprovalDecision where
  requestId : Nat
  accepted : Bool
  reason : Option String
  deriving DecidableEq, Repr

/-- The channel to a waiting request, from its registration to what the request found in it. -/
inductive Oneshot where
  | absent
  | waiting
  | sent (decision : ApprovalDecision)
  | dropped
  | received (decision : ApprovalDecision)
  | abandoned
  deriving DecidableEq, Repr

/-- A send to a receiver that has gone fails, and is ignored. -/
def Oneshot.send (c : Oneshot) (decision : ApprovalDecision) : Oneshot :=
  if c = .waiting then .sent decision else c

def Oneshot.dropSender (c : Oneshot) : Oneshot := if c = .waiting then .dropped else c

/-- A send in status `sharing`. -/
structure Share where
  contentHash : String
  senderName : Option String
  deriving DecidableEq, Repr

structure Settings where
  maxPending : Nat
  maxMetadataBytes : Nat
  receiptTokenHash : Text → Text

structure ApprovalService where
  requests : ReceiverRequests
  shares : TransferId → Option Share
  blocked : EndpointId → Bool
  accessPolicy : AccessPolicy
  pending : Finset Nat
  channels : Nat → Oneshot
  /-- The UUIDs drawn for requests. -/
  issued : Nat → Bool

def approvalTtlMs : Millis := 10 * 60 * 1000

inductive Op where
  | isBlocked (endpoint : EndpointId)
  | sendExists (id : TransferId) (hash : String)
  | decide (id : TransferId) (endpoint : EndpointId)
  | newRequestId
  | newToken
  | nowMs
  | registerWaiter (id : Nat)
  | removeWaiter (id : Nat)
  | takeWaiter (id : Nat)
  | insertReceiverRequest (r : ReceiverRequestInsert)
  | updateReceiverRequestStatus (id : Nat) (status : ReceiverRequestStatus) (reason : Option String)
  | setReceiverReceiptToken (id : Nat) (tokenHash : Text)
  | awaitDecision (id : Nat)
  | approveEndpointUntil (id : TransferId) (endpoint : EndpointId) (expiresAt : Option Millis)
  | sendSenderName (id : TransferId) (hash : String)
  | sendDecision (decision : ApprovalDecision)
  | dropSender (id : Nat)
  | answer (response : HandshakeResponse)
  | result (id : Nat) (accepted : Bool) (result : Except VnidropError Unit)

/-- How `timeout(APPROVAL_WAIT_TIMEOUT, rx)` ends. -/
inductive Wait where
  | decided (decision : ApprovalDecision)
  | closed
  | elapsed
  deriving DecidableEq, Repr

abbrev Ans : Op → Type
  | .isBlocked _ => Bool
  | .sendExists .. => Except VnidropError Bool
  | .decide .. => AccessDecision
  | .newRequestId => Nat
  | .newToken => Text
  | .nowMs => Millis
  | .registerWaiter _ | .takeWaiter _ => Bool
  | .insertReceiverRequest _ | .updateReceiverRequestStatus .. => Except VnidropError Unit
  | .setReceiverReceiptToken .. => Except VnidropError Unit
  | .awaitDecision _ => Wait
  | .sendSenderName .. => Option String
  | _ => Unit

/-- The surroundings at a step: the clock, a failure of the store, whether the timeout has
elapsed, and a UUID. -/
structure Choice where
  now : Millis
  fails : Bool
  elapsed : Bool
  uuid : Nat
  deriving DecidableEq, Repr

namespace ApprovalService

def setChannel (s : ApprovalService) (id : Nat) (c : Oneshot) : ApprovalService :=
  { s with channels := Function.update s.channels id c }

/-- A statement on the requests, unless the store fails. -/
def execute (s : ApprovalService) (fails : Bool) (r : Except VnidropError ReceiverRequests) :
    Except VnidropError Unit × ApprovalService :=
  if fails then (.error (.repository "store failure"),s)
  else match r with
    | .ok requests => (.ok (),{ s with requests })
    | .error e => (.error e,s)

def sendExists (s : ApprovalService) (id : TransferId) (hash : String) : Except VnidropError Bool := do
  let _ ← toDbId id
  return (s.shares id).any fun share => share.contentHash = hash

def sendSenderName (s : ApprovalService) (id : TransferId) (hash : String) :
    Except VnidropError (Option String) := do
  let _ ← toDbId id
  return ((s.shares id).filter fun share => share.contentHash = hash).bind (·.senderName)

def exec (settings : Settings) (s : ApprovalService) (c : Choice) :
    (op : Op) → Option (Ans op × ApprovalService)
  -- `is_blocked(..).unwrap_or(true)`
  | .isBlocked endpoint => some (c.fails || s.blocked endpoint,s)
  | .sendExists id hash =>
    some (if c.fails then .error (.repository "store failure") else s.sendExists id hash,s)
  | .decide id endpoint =>
    let (decision,accessPolicy) := s.accessPolicy.decide id (some endpoint) c.now
    some (decision,{ s with accessPolicy })
  | .newRequestId =>
    if s.issued c.uuid then none
    else some (c.uuid,{ s with issued := Function.update s.issued c.uuid true })
  | .newToken => some (c.uuid,s)
  | .nowMs => some (c.now,s)
  | .registerWaiter id =>
    if settings.maxPending ≤ s.pending.card then some (false,s)
    else some (true,{ s.setChannel id .waiting with pending := insert id s.pending })
  | .removeWaiter id =>
    if id ∈ s.pending then
      some ((),{ s.setChannel id (s.channels id).dropSender with pending := s.pending.erase id })
    else some ((),s)
  | .takeWaiter id => some (id ∈ s.pending,{ s with pending := s.pending.erase id })
  | .insertReceiverRequest r =>
    some (s.execute c.fails (s.requests.insertReceiverRequest r c.now))
  | .updateReceiverRequestStatus id status reason =>
    some (s.execute c.fails (s.requests.updateReceiverRequestStatus id status reason c.now))
  | .setReceiverReceiptToken id tokenHash =>
    some (s.execute c.fails (s.requests.setReceiverReceiptToken id tokenHash))
  | .awaitDecision id =>
    match s.channels id with
    | .sent decision => some (.decided decision,s.setChannel id (.received decision))
    | .dropped => some (.closed,s)
    | .waiting => if c.elapsed then some (.elapsed,s.setChannel id .abandoned) else none
    | _ => none
  | .approveEndpointUntil id endpoint expiresAt =>
    some ((),{ s with accessPolicy := s.accessPolicy.approveEndpointUntil id endpoint expiresAt })
  | .sendSenderName id hash =>
    some (if c.fails then none else ((s.sendSenderName id hash).toOption).join,s)
  | .sendDecision decision =>
    some ((),s.setChannel decision.requestId ((s.channels decision.requestId).send decision))
  | .dropSender id => some ((),s.setChannel id (s.channels id).dropSender)
  | .answer _ => some ((),s)
  | .result .. => some ((),s)

end ApprovalService

abbrev Task (α : Type) := Prog Op Ans α

def op (o : Op) : Task (Ans o) := Prog.perform o

/-- Every refusal of a receiver. -/
def deny (reason : String) : Task Unit := op (.answer (.denied reason))

def requestRow (remote : EndpointId) (request : RequestTransfer) (id : Nat) : ReceiverRequestInsert where
  id := id
  transferId := request.transferId
  remoteEndpointId := remote
  transferName := request.transferName
  receiverName := request.receiverName
  receiverDeviceName := request.receiverDeviceName
  appVersion := request.appVersion

section Calls

variable (settings : Settings)

/-- The tail of every approval. -/
def approve (request : RequestTransfer) (id : Nat) (token : Text) (expiresAt : Millis) : Task Unit := do
  let senderName ← op (.sendSenderName request.transferId request.transferHash)
  op (.answer (.approved id token expiresAt senderName))

def allowWithoutSenderDecision (remote : EndpointId) (request : RequestTransfer) : Task Unit := do
  let id ← op .newRequestId
  match ← op (.insertReceiverRequest (requestRow remote request id)) with
  | .error _ => deny "repository-error"
  | .ok () =>
    match ← op (.updateReceiverRequestStatus id .accepted none) with
    | .error _ => deny "repository-error"
    | .ok () =>
      let token ← op .newToken
      match ← op (.setReceiverReceiptToken id (settings.receiptTokenHash token)) with
      | .error _ => deny "repository-error"
      | .ok () =>
        let now ← op .nowMs
        approve request id token (now + approvalTtlMs)

/-- The owner accepted. -/
def grant (remote : EndpointId) (request : RequestTransfer) (decision : ApprovalDecision) : Task Unit := do
  let token ← op .newToken
  let now ← op .nowMs
  op (.approveEndpointUntil request.transferId remote (some (now + approvalTtlMs)))
  match ← op (.setReceiverReceiptToken decision.requestId (settings.receiptTokenHash token)) with
  | .error _ => op (.answer (.denied "repository-error"))
  | .ok () => approve request decision.requestId token (now + approvalTtlMs)

def expire (id : Nat) : Task Unit := do
  op (.removeWaiter id)
  let _ ← op (.updateReceiverRequestStatus id .expired (some "approval timed out"))
  deny "approval-timeout"

def waitForSenderDecision (remote : EndpointId) (request : RequestTransfer) : Task Unit := do
  let id ← op .newRequestId
  if ← op (.registerWaiter id) then
    match ← op (.insertReceiverRequest (requestRow remote request id)) with
    | .error _ =>
      op (.removeWaiter id)
      deny "repository-error"
    | .ok () =>
      match ← op (.awaitDecision id) with
      | .decided decision =>
        if decision.accepted then grant settings remote request decision
        else deny (decision.reason.getD "sender-refused")
      | .closed => expire id
      | .elapsed => expire id
  else deny "too-many-pending-approvals"

def metadataTooLarge (request : RequestTransfer) : Bool :=
  [request.transferHash,request.transferName,request.receiverName.getD "",
    request.receiverDeviceName.getD "",request.appVersion].any
      fun value => settings.maxMetadataBytes < value.utf8ByteSize

def requestTransfer (remote : EndpointId) (request : RequestTransfer) : Task Unit := do
  if ← op (.isBlocked remote) then deny "not-accepted"
  else if metadataTooLarge settings request then deny "metadata-too-large"
  else
    match ← op (.sendExists request.transferId request.transferHash) with
    | .ok true =>
      match ← op (.decide request.transferId remote) with
      | .allow => allowWithoutSenderDecision settings remote request
      | .deny _ => waitForSenderDecision settings remote request
    | .ok false => deny "unknown-transfer"
    | .error _ => deny "repository-error"

end Calls

def respond (id : Nat) (accepted : Bool) (reason : Option String) : Task Unit := do
  let sender ← op (.takeWaiter id)
  match ← op (.updateReceiverRequestStatus id (if accepted then .accepted else .refused) reason) with
  | .error e =>
    if sender then op (.dropSender id)
    op (.result id accepted (.error e))
  | .ok () =>
    if sender then op (.sendDecision ⟨id,accepted,reason⟩)
    op (.result id accepted (.ok ()))

inductive Call where
  | requestTransfer (remote : EndpointId) (request : RequestTransfer)
  | respond (id : Nat) (accepted : Bool) (reason : Option String)
  deriving DecidableEq, Repr

def Call.body (settings : Settings) : Call → Task Unit
  | .requestTransfer remote request => Approval.requestTransfer settings remote request
  | .respond id accepted reason => Approval.respond id accepted reason

/-- What the rest of the process does meanwhile to the shares, the access policy and the
blocked devices. -/
inductive Env where
  | setShare (id : TransferId) (share : Option Share)
  | setBlocked (endpoint : EndpointId) (blocked : Bool)
  | setMode (id : TransferId) (mode : TransferAccessMode)
  | removeMode (id : TransferId)
  | removeSessions (id : TransferId)
  | approveEndpoint (id : TransferId) (endpoint : EndpointId) (expiresAt : Option Millis)
  deriving DecidableEq, Repr

def ApprovalService.stepEnv (s : ApprovalService) : Env → ApprovalService
  | .setShare id share => { s with shares := Function.update s.shares id share }
  | .setBlocked endpoint blocked => { s with blocked := Function.update s.blocked endpoint blocked }
  | .setMode id mode => { s with accessPolicy := s.accessPolicy.setMode id mode }
  | .removeMode id => { s with accessPolicy := s.accessPolicy.removeMode id }
  | .removeSessions id => { s with accessPolicy := s.accessPolicy.removeSessions id }
  | .approveEndpoint id endpoint expiresAt =>
    { s with accessPolicy := s.accessPolicy.approveEndpointUntil id endpoint expiresAt }

/-- A process that has just started: no waiter, and whatever is stored. -/
structure Started (s : ApprovalService) : Prop where
  pending : s.pending = ∅
  channels : ∀ id, s.channels id = .absent
  issued : ∀ id r, s.requests.find id = some r → s.issued id = true

def service (settings : Settings) : Machine ApprovalService Call Op Ans Choice Env where
  init := Started
  admits _ _ := true
  body := Call.body settings
  exec s _ _ op c := s.exec settings c op
  env s e := some (s.stepEnv e)

/-- The request id each call drew, the response that took each waiter, the request that last
granted each session, the answers to receivers, and the requests whose acceptance a response
has reported as a success. -/
structure History where
  requestOf : Nat → Option Nat
  holder : Nat → Option Nat
  granted : TransferId → EndpointId → Option Nat
  answers : Nat → Option HandshakeResponse
  acceptances : Nat → Bool

def History.new : History :=
  ⟨fun _ => none,fun _ => none,fun _ _ => none,fun _ => none,fun _ => false⟩

def History.grant (h : History) (id : TransferId) (endpoint : EndpointId) (i : Option Nat) : History :=
  { h with granted := Function.update h.granted id (Function.update (h.granted id) endpoint i) }

def record (h : History) (_ : ApprovalService) (i : Nat) (_ : Call) : (op : Op) → Ans op → History
  | .newRequestId, id => { h with requestOf := Function.update h.requestOf i (some id) }
  | .takeWaiter id, true => { h with holder := Function.update h.holder id (some i) }
  | .approveEndpointUntil id endpoint _, _ => h.grant id endpoint (some i)
  | .answer response, _ => { h with answers := Function.update h.answers i (some response) }
  | .result id true (.ok _), _ => { h with acceptances := Function.update h.acceptances id true }
  | _, _ => h

def observeEnv (h : History) (_ : ApprovalService) : Env → History
  | .approveEndpoint id endpoint _ => h.grant id endpoint none
  | _ => h

abbrev State := Observed ApprovalService History

def machine (settings : Settings) : Machine State Call Op Ans Choice Env :=
  (service settings).observe .new record observeEnv

/-- The token hash on the request of call `i`, if that request is accepted. -/
def recordedHash (s : State) (i : Nat) : Option Text :=
  (s.history.requestOf i).bind fun id => (s.state.requests.find id).bind fun r =>
    if r.status = .accepted then r.receiptTokenHash else none

/-- The hash of the token the receiver is given. -/
def HandshakeResponse.tokenHash (settings : Settings) : HandshakeResponse → Option Text
  | .approved _ token _ _ => some (settings.receiptTokenHash token)
  | .denied _ => none

/-- What the receivers are told agrees with the durable requests, with what the responses
reported to the owner, and with the sessions. -/
structure Agreement (settings : Settings) (s : State) : Prop where
  recorded : ∀ i response, s.history.answers i = some response →
    recordedHash s i = response.tokenHash settings
  named : ∀ i id token expiresAt senderName,
    s.history.answers i = some (.approved id token expiresAt senderName) →
    s.history.requestOf i = some id
  accepted : ∀ i id reason, s.history.acceptances id = true → s.history.requestOf i = some id →
    s.history.answers i ≠ some (.denied reason)
  denied : ∀ i reason id endpoint, s.history.answers i = some (.denied reason) →
    s.state.accessPolicy.sessions id endpoint ≠ none → s.history.granted id endpoint ≠ some i

def Call.responds : Call → Bool
  | .respond .. => true
  | .requestTransfer .. => false

/-- The request is in that status. -/
def stands (s : State) (id : Nat) (status : ReceiverRequestStatus) : Bool :=
  (s.state.requests.find id).any fun r => r.status = status

/-- The side condition: a response makes a request accepted only if it has taken the waiter
and the request still waits; the wait does not time out on an accepted request; and the store
does not fail to attach the token of a request that waited. -/
def minds (s : State) (i : Nat) (call : Call) (op : Op) (c : Choice) : Prop :=
  match op with
  | .updateReceiverRequestStatus id status _ =>
    status = .accepted → call.responds = true → c.fails = false → stands s id .requested = true →
      s.history.holder id = some i ∧ s.state.channels id = .waiting
  | .awaitDecision id => s.state.channels id = .waiting → stands s id .accepted = false
  | .setReceiverReceiptToken id _ => s.state.channels id ≠ .absent → c.fails = false
  | _ => True

abbrev Minds : Conf State Call Op Ans → Label Call Choice Env → Prop := Watched minds

/-! One request, as all calls see it. -/

structure View where
  row : Option (ReceiverRequestStatus × Option Text)
  channel : Oneshot
  issued : Bool
  pending : Bool
  holder : Option Nat
  acceptance : Bool

def view (s : State) (id : Nat) : View where
  row := (s.state.requests.find id).map fun r => (r.status,r.receiptTokenHash)
  channel := s.state.channels id
  issued := s.state.issued id
  pending := id ∈ s.state.pending
  holder := s.history.holder id
  acceptance := s.history.acceptances id

/-- The decision that is in the channel or has been taken out of it. -/
def Oneshot.spoken : Oneshot → Option ApprovalDecision
  | .sent d | .received d => some d
  | _ => none

/-- No acceptance will come out of the channel. -/
def Oneshot.closed : Oneshot → Bool
  | .absent | .dropped | .abandoned => true
  | .received d => !d.accepted
  | .waiting | .sent _ => false

structure Sound (id : Nat) (v : View) : Prop where
  fresh : v.issued = false → v.row = none ∧ v.channel = .absent
  absent : v.channel = .absent → v.pending = false ∧ v.holder = none
  taken : v.holder ≠ none → v.pending = false
  spoken : ∀ d, v.channel.spoken = some d → d.requestId = id ∧
    ∃ h, v.row = some (if d.accepted then .accepted else .refused,h)
  acceptance : v.acceptance = true → ∃ d, v.channel.spoken = some d ∧ d.accepted = true

/-- A request nobody can accept any more, and that has no token. -/
structure Barred (v : View) : Prop where
  shut : v.row = none ∨ v.channel.closed = true
  bare : ∀ status h, v.row = some (status,h) → h = none

theorem Barred.unaccepted {id : Nat} {v : View} (barred : Barred v) (sound : Sound id v) :
    v.acceptance = false := by
  by_contra accepted
  obtain ⟨d,spoken,yes⟩ := sound.acceptance (Bool.eq_true_of_not_eq_false accepted)
  obtain ⟨_,h,row⟩ := sound.spoken d spoken
  rcases barred.shut with none | closed
  · rw [none] at row
    cases row
  · cases channel : v.channel with
    | received d' =>
      rw [channel] at spoken closed
      cases spoken
      simp [Oneshot.closed,yes] at closed
    | sent d' =>
      rw [channel] at closed
      cases closed
    | _ =>
      rw [channel] at spoken
      cases spoken

/-- What call `j` relies on of a request; `own` says that it drew the request. -/
structure Turn (own : Prop) (j : Nat) (v w : View) : Prop where
  issued : v.issued = true → w.issued = true
  none : own → v.row = none → w.row = none
  token : own → ∀ status h, v.row = some (status,h) → ∃ status', w.row = some (status',h)
  settled : ∀ status h, v.row = some (status,h) → status ≠ .requested → ∃ h', w.row = some (status,h')
  channel : own → v.channel ≠ .waiting → w.channel = v.channel
  spoken : ∀ d, v.channel.spoken = some d → w.channel.spoken = some d
  holder : w.holder = some j ↔ v.holder = some j
  waiting : v.holder = some j → ∀ h, v.row = some (.accepted,h) → v.channel = .waiting → w.channel = .waiting

namespace Turn

variable {own own' : Prop} {j : Nat} {v w x : View}

theorem refl (own : Prop) (j : Nat) (v : View) : Turn own j v v :=
  ⟨id,fun _ h => h,fun _ status _ h => ⟨status,h⟩,fun _ h there _ => ⟨h,there⟩,fun _ _ => rfl,
    fun _ h => h,Iff.rfl,fun _ _ _ h => h⟩

theorem trans (first : Turn own j v w) (second : Turn own' j w x) (owns : own → own') :
    Turn own j v x where
  issued h := second.issued (first.issued h)
  none mine absent := second.none (owns mine) (first.none mine absent)
  token mine status h row := by
    obtain ⟨status',row'⟩ := first.token mine status h row
    exact second.token (owns mine) status' h row'
  settled status h row done := by
    obtain ⟨h',row'⟩ := first.settled status h row done
    exact second.settled status h' row' done
  channel mine still := by
    have same := first.channel mine still
    exact (second.channel (owns mine) (same ▸ still)).trans same
  spoken d said := second.spoken d (first.spoken d said)
  holder := second.holder.trans first.holder
  waiting mine h row waits := by
    obtain ⟨h',row'⟩ := first.settled _ h row (by simp)
    exact second.waiting (first.holder.mpr mine) h' row' (first.waiting mine h row waits)

theorem barred (turn : Turn own j v w) (mine : own) (h : Barred v) : Barred w where
  shut := by
    refine h.shut.imp (turn.none mine) fun closed => ?_
    rw [turn.channel mine]
    · exact closed
    · intro waits
      rw [waits] at closed
      cases closed
  bare status k row := by
    cases before : v.row with
    | none =>
      rw [turn.none mine before] at row
      cases row
    | some old =>
      obtain ⟨status',row'⟩ := turn.token mine old.1 old.2 before
      rw [row'] at row
      cases row
      exact h.bare old.1 old.2 before

/-- An accepted request of this call stays accepted, with its token. -/
theorem accepted (turn : Turn own j v w) (mine : own) {h : Option Text}
    (row : v.row = some (.accepted,h)) : w.row = some (.accepted,h) := by
  obtain ⟨status,row'⟩ := turn.token mine _ _ row
  obtain ⟨h',row''⟩ := turn.settled _ _ row (by simp)
  rw [row'] at row'' ⊢
  cases row''
  rfl

end Turn

/-- What call `i` relies on. -/
structure Kept (i : Nat) (s t : State) : Prop where
  requestOf : t.history.requestOf i = s.history.requestOf i
  answers : t.history.answers i = s.history.answers i
  granted : ∀ id endpoint, t.history.granted id endpoint = some i →
    s.history.granted id endpoint = some i
  turn : ∀ id, Turn (s.history.requestOf i = some id) i (view s id) (view t id)

theorem Kept.refl (i : Nat) (s : State) : Kept i s s :=
  ⟨rfl,rfl,fun _ _ h => h,fun id => .refl _ _ (view s id)⟩

theorem Kept.trans {i : Nat} {s t u : State} (f : Kept i s t) (g : Kept i t u) : Kept i s u where
  requestOf := g.requestOf.trans f.requestOf
  answers := g.answers.trans f.answers
  granted id endpoint h := f.granted id endpoint (g.granted id endpoint h)
  turn id := (f.turn id).trans (g.turn id) f.requestOf.trans

section Inv

variable (settings : Settings)

/-- What an answer says about the request it answers, from then on. -/
def Settled (s : State) (i : Nat) : HandshakeResponse → Prop
  | .approved id token _ _ => s.history.requestOf i = some id ∧
    (view s id).row = some (.accepted,some (settings.receiptTokenHash token))
  | .denied _ => (∀ x endpoint, s.history.granted x endpoint ≠ some i) ∧
    ∀ id, s.history.requestOf i = some id → Barred (view s id)

structure Inv (s : State) : Prop where
  sound : ∀ id, Sound id (view s id)
  issued : ∀ i id, s.history.requestOf i = some id → (view s id).issued = true
  once : ∀ i j id, s.history.requestOf i = some id → s.history.requestOf j = some id → i = j
  answered : ∀ i response, s.history.answers i = some response → Settled settings s i response

variable {settings} {s t : State} {i : Nat}

theorem Settled.later {response : HandshakeResponse} (kept : Kept i s t)
    (h : Settled settings s i response) : Settled settings t i response := by
  cases response with
  | approved id token _ _ =>
    exact ⟨kept.requestOf.trans h.1,(kept.turn id).accepted h.1 h.2⟩
  | denied _ =>
    refine ⟨fun x endpoint granted => h.1 x endpoint (kept.granted x endpoint granted),fun id drew => ?_⟩
    have before := kept.requestOf.symm.trans drew
    exact (kept.turn id).barred before (h.2 id before)

theorem Inv.agreement (inv : Inv settings s) : Agreement settings s where
  recorded i response answered := by
    have settled := inv.answered i response answered
    cases response with
    | approved id token _ _ =>
      obtain ⟨drew,row⟩ := settled
      obtain ⟨r,found,same⟩ := Option.map_eq_some_iff.mp row
      obtain ⟨accepted,hash⟩ := Prod.mk.inj same
      simp [recordedHash,drew,found,accepted,hash,HandshakeResponse.tokenHash]
    | denied _ =>
      show recordedHash s i = none
      unfold recordedHash
      rw [Option.bind_eq_none_iff]
      intro id drew
      rw [Option.bind_eq_none_iff]
      intro r found
      have bare := (settled.2 id drew).bare r.status r.receiptTokenHash (by
        show (s.state.requests.find id).map _ = _
        rw [found]
        rfl)
      simp [bare]
  named i id token expiresAt senderName answered := (inv.answered i _ answered).1
  accepted i id reason success drew answered := by
    have barred := (inv.answered i _ answered).2 id drew
    have unaccepted := barred.unaccepted (inv.sound id)
    exact Bool.false_ne_true (unaccepted.symm.trans success)
  denied i reason id endpoint answered _ := (inv.answered i _ answered).1 id endpoint

/-- A step of call `i`. -/
theorem Inv.advance (inv : Inv settings s) (sound : ∀ id, Sound id (view t id))
    (issued : ∀ id, t.history.requestOf i = some id → (view t id).issued = true)
    (once : ∀ j id, j ≠ i → t.history.requestOf i = some id → t.history.requestOf j ≠ some id)
    (kept : ∀ j, j ≠ i → Kept j s t)
    (mine : ∀ response, t.history.answers i = some response → Settled settings t i response) :
    Inv settings t where
  sound := sound
  issued j id drew := by
    by_cases same : j = i
    · subst same
      exact issued id drew
    · exact ((kept j same).turn id).issued (inv.issued j id ((kept j same).requestOf.symm.trans drew))
  once j k id drew drew' := by
    by_cases first : j = i
    · subst first
      by_contra different
      exact once k id (Ne.symm different) drew drew'
    · by_cases second : k = i
      · subst second
        exact absurd drew (once j id first drew')
      · exact inv.once j k id ((kept j first).requestOf.symm.trans drew)
          ((kept k second).requestOf.symm.trans drew')
  answered j response answered := by
    by_cases same : j = i
    · subst same
      exact mine response answered
    · exact (inv.answered j response ((kept j same).answers.symm.trans answered)).later (kept j same)

/-- A step of call `i` on one request that draws no id, grants nothing and answers nobody. -/
theorem Inv.turn (id : Nat) (inv : Inv settings s) (silent : s.history.answers i = none)
    (requestOf : t.history.requestOf = s.history.requestOf)
    (answers : t.history.answers = s.history.answers)
    (granted : t.history.granted = s.history.granted)
    (others : ∀ x, x ≠ id → view t x = view s x) (sound : Sound id (view t id))
    (turn : ∀ j, j ≠ i → Turn (s.history.requestOf j = some id) j (view s id) (view t id))
    (issued : (view t id).issued = (view s id).issued) :
    Inv settings t ∧ ∀ j, j ≠ i → Kept j s t := by
  have kept : ∀ j, j ≠ i → Kept j s t := fun j other =>
    ⟨by rw [requestOf],by rw [answers],fun _ _ h => granted ▸ h,fun x => by
      by_cases here : x = id
      · subst here
        exact turn j other
      · rw [others x here]
        exact .refl _ _ _⟩
  refine ⟨inv.advance (fun x => ?_) (fun x drew => ?_) (fun j x other drew drew' => ?_) kept
    fun response answered => ?_,kept⟩
  · by_cases here : x = id
    · subst here
      exact sound
    · rw [others x here]
      exact inv.sound x
  · rw [requestOf] at drew
    by_cases here : x = id
    · subst here
      exact issued.trans (inv.issued i x drew)
    · rw [others x here]
      exact inv.issued i x drew
  · rw [requestOf] at drew drew'
    exact other (inv.once j i x drew' drew)
  · rw [answers,silent] at answered
    cases answered

end Inv

abbrev guard : Guard State Call Op Choice Env := free

def terms (settings : Settings) : Terms State where
  known _ := True
  inv := Inv settings
  rely := Kept
  refl := Kept.refl
  trans i := Kept.trans (i := i)

/-- The machine all of whose operations meet the side condition. -/
noncomputable abbrev minded (settings : Settings) : Machine State Call Op Ans Choice Env :=
  (machine settings).restrict minds

abbrev Safely (settings : Settings) (i : Nat) (call : Call) {α : Type} (p : Task α)
    (post : α → State → Prop) (s : State) : Prop :=
  Safe (minded settings) guard (terms settings) i call p post s

section Steps

variable {settings : Settings} {s t : State} {i : Nat} {call : Call} {c : Choice}

theorem exec_minded {o : Op} {r : Ans o} (h : (minded settings).exec s i call o c = some (r,t)) :
    minds s i call o c ∧ ∃ d, s.state.exec settings c o = some (r,d) ∧
      t = ⟨d,record s.history s.state i call o r⟩ := by
  obtain ⟨minded,performed⟩ := restrict_exec.mp h
  exact ⟨minded,observe_exec performed⟩

/-- An operation that leaves the requests, their waiters and the history alone. -/
def mild : Op → Bool
  | .isBlocked _ | .sendExists .. | .decide .. | .newToken | .nowMs | .sendSenderName .. => true
  | _ => false

theorem mild_same {o : Op} {r : Ans o} (is : mild o = true)
    (h : (minded settings).exec s i call o c = some (r,t)) :
    t.history = s.history ∧ ∀ id, view t id = view s id := by
  obtain ⟨_,d,performed,rfl⟩ := exec_minded h
  cases o <;> first
    | (cases performed; exact ⟨rfl,fun _ => rfl⟩)
    | cases is

theorem Kept.same (history : t.history = s.history) (views : ∀ id, view t id = view s id) (j : Nat) :
    Kept j s t :=
  ⟨by rw [history],by rw [history],fun _ _ h => history ▸ h,fun id => by rw [views]; exact .refl _ _ _⟩

theorem Inv.same (inv : Inv settings s) (history : t.history = s.history)
    (views : ∀ id, view t id = view s id) : Inv settings t where
  sound id := by
    rw [views]
    exact inv.sound id
  issued j id drew := by
    rw [views]
    exact inv.issued j id (history ▸ drew)
  once j k id drew drew' := inv.once j k id (history ▸ drew) (history ▸ drew')
  answered j response answered :=
    (inv.answered j response (history ▸ answered)).later (.same history views j)

theorem quiet_mild {o : Op} (is : mild o = true) :
    Quiet (minded settings) guard (terms settings) i call o := by
  intro s _ inv c r t _ performed
  obtain ⟨history,views⟩ := mild_same is performed
  exact ⟨inv.same history views,.same history views⟩

theorem safe_aside {α : Type} {p : Task α} (all : p.All fun o => mild o = true) (s : State) :
    Safely settings i call p (fun _ => Kept i s) s := by
  refine safe_quiet ?_ s
  induction p with
  | ret a => trivial
  | step o k ih => exact ⟨quiet_mild all.1,fun r => ih r (all.2 r)⟩

/-- Call `i` has drawn `id`; it has granted nothing and answered nobody. -/
structure Asks (i id : Nat) (s : State) : Prop where
  drew : s.history.requestOf i = some id
  silent : s.history.answers i = none
  ungranted : ∀ x endpoint, s.history.granted x endpoint ≠ some i

theorem Asks.later {id : Nat} (asks : Asks i id s) (kept : Kept i s t) : Asks i id t :=
  ⟨kept.requestOf.trans asks.drew,kept.answers.trans asks.silent,
    fun x endpoint granted => asks.ungranted x endpoint (kept.granted x endpoint granted)⟩

theorem Asks.others {id j : Nat} (asks : Asks i id s) (inv : Inv settings s) (other : j ≠ i) :
    s.history.requestOf j ≠ some id := fun drew => other (inv.once j i id drew asks.drew)

/-- The call has drawn no id yet. -/
structure New (i : Nat) (s : State) : Prop where
  undrawn : s.history.requestOf i = none
  silent : s.history.answers i = none
  ungranted : ∀ x endpoint, s.history.granted x endpoint ≠ some i

theorem New.later (new : New i s) (kept : Kept i s t) : New i t :=
  ⟨kept.requestOf.trans new.undrawn,kept.answers.trans new.silent,
    fun x endpoint granted => new.ungranted x endpoint (kept.granted x endpoint granted)⟩

theorem draw_effect {id : Nat} (h : (minded settings).exec s i call .newRequestId c = some (id,t)) :
    s.state.issued id = false ∧
    t.history = { s.history with requestOf := Function.update s.history.requestOf i (some id) } ∧
    ∀ x, view t x = { view s x with issued := x = id || (view s x).issued } := by
  obtain ⟨_,d,performed,rfl⟩ := exec_minded h
  simp only [ApprovalService.exec] at performed
  split at performed
  · cases performed
  rename_i unissued
  cases performed
  refine ⟨Bool.eq_false_iff.mpr unissued,rfl,fun x => ?_⟩
  by_cases here : x = c.uuid <;> simp [view,record,here]

theorem draw_step {id : Nat} (inv : Inv settings s) (new : New i s)
    (h : (minded settings).exec s i call .newRequestId c = some (id,t)) :
    (Inv settings t ∧ ∀ j, j ≠ i → Kept j s t) ∧ Asks i id t ∧ (view t id).row = none ∧
      (view t id).channel = .absent := by
  obtain ⟨unissued,history,views⟩ := draw_effect h
  have drew : t.history.requestOf i = some id := by
    rw [history]
    exact Function.update_self ..
  have undrawn : ∀ j, s.history.requestOf j ≠ some id := fun j drew => by
    have issued : s.state.issued id = true := inv.issued j id drew
    rw [unissued] at issued
    cases issued
  have kept : ∀ j, j ≠ i → Kept j s t := fun j other =>
    ⟨by rw [history]; exact Function.update_of_ne other _ _,by rw [history],
      fun _ _ h => by rw [history] at h; exact h,fun x => by
      rw [views]
      refine ⟨fun was => ?_,fun _ h => h,fun _ status _ h => ⟨status,h⟩,fun _ h there _ => ⟨h,there⟩,
        fun _ _ => rfl,fun _ h => h,Iff.rfl,fun _ _ _ h => h⟩
      simp [was]⟩
  refine ⟨⟨inv.advance (fun x => ?_) (fun x drew' => ?_) (fun j x other drew' before => ?_) kept
    fun response answered => ?_,kept⟩,⟨drew,by rw [history]; exact new.silent,
    by rw [history]; exact new.ungranted⟩,?_⟩
  · rw [views]
    have sound := inv.sound x
    refine ⟨fun unissued => sound.fresh ?_,sound.absent,sound.taken,sound.spoken,sound.acceptance⟩
    exact (Bool.or_eq_false_iff.mp unissued).2
  · cases drew.symm.trans drew'
    rw [views]
    simp
  · cases drew.symm.trans drew'
    exact undrawn j ((kept j other).requestOf.symm.trans before)
  · rw [history] at answered
    cases new.silent.symm.trans answered
  · rw [views]
    exact (inv.sound id).fresh unissued

theorem register_effect {id : Nat} {registered : Bool}
    (h : (minded settings).exec s i call (.registerWaiter id) c = some (registered,t)) :
    t.history = s.history ∧ (registered = false → ∀ x, view t x = view s x) ∧
    (registered = true → ∀ x, view t x =
      if x = id then { view s x with channel := .waiting, pending := true } else view s x) := by
  obtain ⟨_,d,performed,rfl⟩ := exec_minded h
  simp only [ApprovalService.exec] at performed
  split at performed
  · cases performed
    exact ⟨rfl,fun _ _ => rfl,nofun⟩
  · cases performed
    refine ⟨rfl,nofun,fun _ x => ?_⟩
    by_cases here : x = id <;> simp [view,record,ApprovalService.setChannel,here]

theorem register_step {id : Nat} {registered : Bool} (inv : Inv settings s) (asks : Asks i id s)
    (channel : (view s id).channel = .absent)
    (h : (minded settings).exec s i call (.registerWaiter id) c = some (registered,t)) :
    (Inv settings t ∧ ∀ j, j ≠ i → Kept j s t) ∧ Asks i id t ∧ (view t id).row = (view s id).row ∧
      (registered = false → (view t id).channel = .absent) := by
  obtain ⟨history,full,room⟩ := register_effect h
  have asks' : Asks i id t :=
    ⟨by rw [history]; exact asks.drew,by rw [history]; exact asks.silent,
      by rw [history]; exact asks.ungranted⟩
  cases registered with
  | false =>
    have views := full rfl
    exact ⟨⟨inv.same history views,fun j _ => .same history views j⟩,asks',by rw [views],
      fun _ => by rw [views]; exact channel⟩
  | true =>
    have views := room rfl
    have here : view t id = { view s id with channel := .waiting, pending := true } := by
      rw [views,if_pos rfl]
    have sound := inv.sound id
    have holder := (sound.absent channel).2
    refine ⟨inv.turn id asks.silent (by rw [history]) (by rw [history]) (by rw [history])
      (fun x other => by rw [views,if_neg other]) ?_ (fun j other => ?_) (by rw [here]),asks',
      by rw [here],nofun⟩
    · rw [here]
      refine ⟨fun unissued => ?_,nofun,fun held => absurd holder held,nofun,fun accepted => ?_⟩
      · have issued := inv.issued i id asks.drew
        rw [unissued] at issued
        cases issued
      · obtain ⟨d,spoken,_⟩ := sound.acceptance accepted
        rw [channel] at spoken
        cases spoken
    · rw [here]
      refine ⟨fun h => h,fun _ h => h,fun _ status _ h => ⟨status,h⟩,fun _ h there _ => ⟨h,there⟩,
        fun mine => absurd mine (asks.others inv other),fun d spoken => ?_,Iff.rfl,
        fun _ _ _ _ => rfl⟩
      rw [channel] at spoken
      cases spoken

theorem execute_cases {a d : ApprovalService} {fails : Bool}
    {outcome : Except VnidropError ReceiverRequests} {r : Except VnidropError Unit}
    (h : a.execute fails outcome = (r,d)) :
    ((∃ e, r = .error e) ∧ d = a ∧ (fails = true ∨ ∀ u, outcome ≠ .ok u)) ∨
    (r = .ok () ∧ fails = false ∧ ∃ u, outcome = .ok u ∧ d = { a with requests := u }) := by
  unfold ApprovalService.execute at h
  split at h
  · rename_i failed
    cases h
    exact .inl ⟨⟨_,rfl⟩,rfl,.inl failed⟩
  · rename_i stored
    split at h
    · cases h
      exact .inr ⟨rfl,Bool.eq_false_iff.mpr stored,_,rfl,rfl⟩
    · cases h
      exact .inl ⟨⟨_,rfl⟩,rfl,.inr nofun⟩

/-- What the statements on the requests do: nothing, or one new state of one row. -/
structure Rewrites (s t : State) (id : Nat) (row : ReceiverRequestStatus × Option Text) : Prop where
  history : t.history = s.history
  here : view t id = { view s id with row := some row }
  others : ∀ x, x ≠ id → view t x = view s x

theorem Rewrites.of_find {requests : ReceiverRequests} {id : Nat} {r : ReceiverRequest} {h : History}
    (history : h = s.history)
    (find : ∀ x, requests.find x = if x = id then some r else s.state.requests.find x) :
    Rewrites s ⟨{ s.state with requests },h⟩ id (r.status,r.receiptTokenHash) := by
  subst history
  refine ⟨rfl,?_,fun x other => ?_⟩
  · simp [view,find]
  · simp [view,find,other]

theorem insert_effect {r : ReceiverRequestInsert} {outcome : Except VnidropError Unit}
    (h : (minded settings).exec s i call (.insertReceiverRequest r) c = some (outcome,t)) :
    ((∃ e, outcome = .error e) ∧ t = s) ∨
    (outcome = .ok () ∧ (view s r.id).row = none ∧ Rewrites s t r.id (.requested,none)) := by
  obtain ⟨_,d,performed,rfl⟩ := exec_minded h
  rcases execute_cases (Option.some.inj performed) with ⟨failed,rfl,_⟩ | ⟨rfl,_,u,inserted,rfl⟩
  · exact .inl ⟨failed,rfl⟩
  · obtain ⟨absent,find⟩ := ReceiverRequests.insert_ok inserted
    exact .inr ⟨rfl,by simp [view,absent],.of_find rfl find⟩

theorem update_effect {id : Nat} {status : ReceiverRequestStatus} {reason : Option String}
    {outcome : Except VnidropError Unit}
    (h : (minded settings).exec s i call (.updateReceiverRequestStatus id status reason) c =
      some (outcome,t)) :
    ((∃ e, outcome = .error e) ∧ t = s) ∨
    (outcome = .ok () ∧ c.fails = false ∧ stands s id .requested = true ∧
      ∃ token, (view s id).row = some (.requested,token) ∧ Rewrites s t id (status,token)) := by
  obtain ⟨_,d,performed,rfl⟩ := exec_minded h
  rcases execute_cases (Option.some.inj performed) with ⟨failed,rfl,_⟩ | ⟨rfl,fine,u,updated,rfl⟩
  · exact .inl ⟨failed,rfl⟩
  · obtain ⟨r,found,waits,find⟩ := ReceiverRequests.update_ok updated
    exact .inr ⟨rfl,fine,by simp [stands,found,waits],r.receiptTokenHash,by simp [view,found,waits],
      .of_find rfl find⟩

theorem token_effect {id : Nat} {tokenHash : Text} {outcome : Except VnidropError Unit}
    (h : (minded settings).exec s i call (.setReceiverReceiptToken id tokenHash) c = some (outcome,t)) :
    ((∃ e, outcome = .error e) ∧ t = s ∧
      (c.fails = true ∨ ∀ token, (view s id).row ≠ some (.accepted,token))) ∨
    (outcome = .ok () ∧ (∃ token, (view s id).row = some (.accepted,token)) ∧
      Rewrites s t id (.accepted,some tokenHash)) := by
  obtain ⟨_,d,performed,rfl⟩ := exec_minded h
  rcases execute_cases (Option.some.inj performed) with ⟨failed,rfl,why⟩ | ⟨rfl,_,u,attached,rfl⟩
  · refine .inl ⟨failed,rfl,why.imp_right fun refused token row => ?_⟩
    obtain ⟨r,found,same⟩ := Option.map_eq_some_iff.mp row
    obtain ⟨u,attached⟩ := ReceiverRequests.setToken_accepted tokenHash found (Prod.mk.inj same).1
    exact refused u attached
  · obtain ⟨r,found,accepted,find⟩ := ReceiverRequests.setToken_ok attached
    refine .inr ⟨rfl,⟨r.receiptTokenHash,by simp [view,found,accepted]⟩,?_⟩
    rw [← accepted]
    exact .of_find rfl find

/-- A statement on the requests that respects what the others rely on. -/
theorem Inv.rewrite {id : Nat} {row : ReceiverRequestStatus × Option Text} (inv : Inv settings s)
    (silent : s.history.answers i = none) (rewrites : Rewrites s t id row)
    (issued : (view s id).issued = true)
    (unsettled : ∀ status h, (view s id).row = some (status,h) → status ≠ .requested → row.1 = status)
    (own : ∀ j, j ≠ i → s.history.requestOf j = some id → ∃ status, (view s id).row = some (status,row.2)) :
    Inv settings t ∧ ∀ j, j ≠ i → Kept j s t := by
  obtain ⟨history,here,others⟩ := rewrites
  have sound := inv.sound id
  refine inv.turn id silent (by rw [history]) (by rw [history]) (by rw [history]) others ?_
    (fun j other => ?_) (by rw [here])
  · rw [here]
    refine ⟨fun unissued => ?_,sound.absent,sound.taken,fun d spoken => ?_,sound.acceptance⟩
    · cases issued.symm.trans unissued
    · obtain ⟨named,h,was⟩ := sound.spoken d spoken
      refine ⟨named,row.2,?_⟩
      have kept := unsettled _ h was (by split <;> simp)
      show some row = _
      rw [← kept]
  · rw [here]
    refine ⟨fun h => h,fun mine absent => ?_,fun mine status h was => ?_,fun status h was done => ?_,
      fun _ _ => rfl,fun _ h => h,Iff.rfl,fun _ _ _ h => h⟩
    · obtain ⟨status,was⟩ := own j other mine
      rw [absent] at was
      cases was
    · obtain ⟨status',was'⟩ := own j other mine
      cases was.symm.trans was'
      exact ⟨row.1,rfl⟩
    · have same := unsettled status h was done
      subst same
      exact ⟨row.2,rfl⟩

theorem insert_step {r : ReceiverRequestInsert} {outcome : Except VnidropError Unit}
    (inv : Inv settings s) (asks : Asks i r.id s)
    (h : (minded settings).exec s i call (.insertReceiverRequest r) c = some (outcome,t)) :
    (Inv settings t ∧ ∀ j, j ≠ i → Kept j s t) ∧ Asks i r.id t ∧
      (view t r.id).channel = (view s r.id).channel ∧
      (outcome = .ok () → (view t r.id).row = some (.requested,none)) ∧
      (∀ e, outcome = .error e → t = s) := by
  rcases insert_effect h with ⟨⟨e,rfl⟩,rfl⟩ | ⟨rfl,absent,rewrites⟩
  · exact ⟨⟨inv,fun j _ => .refl j t⟩,asks,rfl,nofun,fun _ _ => rfl⟩
  · refine ⟨inv.rewrite asks.silent rewrites (inv.issued i r.id asks.drew)
      (fun status h was => ?_) fun j other mine => absurd mine (asks.others inv other),?_,
      by rw [rewrites.here],fun _ => by rw [rewrites.here],nofun⟩
    · rw [absent] at was
      cases was
    · have history := rewrites.history
      exact ⟨by rw [history]; exact asks.drew,by rw [history]; exact asks.silent,
        by rw [history]; exact asks.ungranted⟩

theorem Sound.issued {id : Nat} {v : View} {row : ReceiverRequestStatus × Option Text}
    (sound : Sound id v) (here : v.row = some row) : v.issued = true := by
  by_contra unissued
  rw [(sound.fresh (Bool.eq_false_iff.mpr unissued)).1] at here
  cases here

theorem Rewrites.asks {id x : Nat} {row : ReceiverRequestStatus × Option Text}
    (rewrites : Rewrites s t x row) (asks : Asks i id s) : Asks i id t := by
  have history := rewrites.history
  exact ⟨by rw [history]; exact asks.drew,by rw [history]; exact asks.silent,
    by rw [history]; exact asks.ungranted⟩

theorem update_step {id : Nat} {status : ReceiverRequestStatus} {reason : Option String}
    {outcome : Except VnidropError Unit} (inv : Inv settings s) (silent : s.history.answers i = none)
    (h : (minded settings).exec s i call (.updateReceiverRequestStatus id status reason) c =
      some (outcome,t)) :
    (Inv settings t ∧ ∀ j, j ≠ i → Kept j s t) ∧
    (((∃ e, outcome = .error e) ∧ t = s) ∨
      (outcome = .ok () ∧ c.fails = false ∧ stands s id .requested = true ∧
        ∃ token, (view s id).row = some (.requested,token) ∧ Rewrites s t id (status,token))) := by
  have effect := update_effect h
  refine ⟨?_,effect⟩
  rcases effect with ⟨_,rfl⟩ | ⟨_,_,_,token,was,rewrites⟩
  · exact ⟨inv,fun j _ => .refl j t⟩
  · refine inv.rewrite silent rewrites ((inv.sound id).issued was) (fun status' h row done => ?_)
      fun j _ _ => ⟨_,was⟩
    cases was.symm.trans row
    exact absurd rfl done

theorem token_step {id : Nat} {tokenHash : Text} {outcome : Except VnidropError Unit}
    (inv : Inv settings s) (drew : s.history.requestOf i = some id) (silent : s.history.answers i = none)
    (h : (minded settings).exec s i call (.setReceiverReceiptToken id tokenHash) c = some (outcome,t)) :
    (Inv settings t ∧ ∀ j, j ≠ i → Kept j s t) ∧
    (((∃ e, outcome = .error e) ∧ t = s ∧
        (c.fails = true ∨ ∀ token, (view s id).row ≠ some (.accepted,token))) ∨
      (outcome = .ok () ∧ Rewrites s t id (.accepted,some tokenHash))) := by
  have effect := token_effect h
  refine ⟨?_,effect.imp_right fun both => ⟨both.1,both.2.2⟩⟩
  rcases effect with ⟨_,rfl,_⟩ | ⟨_,⟨token,was⟩,rewrites⟩
  · exact ⟨inv,fun j _ => .refl j t⟩
  · refine inv.rewrite silent rewrites ((inv.sound id).issued was) (fun status' h row done => ?_)
      fun j other mine => absurd (inv.once j i id mine drew) other
    cases was.symm.trans row
    rfl

theorem take_step {id : Nat} {taken : Bool} (inv : Inv settings s) (silent : s.history.answers i = none)
    (h : (minded settings).exec s i call (.takeWaiter id) c = some (taken,t)) :
    (Inv settings t ∧ ∀ j, j ≠ i → Kept j s t) ∧ t.history.answers i = none ∧
      (taken = true → t.history.holder id = some i) := by
  obtain ⟨_,d,performed,rfl⟩ := exec_minded h
  cases performed
  by_cases waits : id ∈ s.state.pending
  · have pending : (view s id).pending = true := by simpa [view] using waits
    have sound := inv.sound id
    have unheld : (view s id).holder = none := by
      by_contra held
      rw [sound.taken held] at pending
      cases pending
    have history : record s.history s.state i call (.takeWaiter id) (decide (id ∈ s.state.pending)) =
        { s.history with holder := Function.update s.history.holder id (some i) } := by
      simp [record,waits]
    rw [history]
    have here : view ⟨{ s.state with pending := s.state.pending.erase id },
        { s.history with holder := Function.update s.history.holder id (some i) }⟩ id =
        { view s id with pending := false, holder := some i } := by
      simp [view]
    refine ⟨inv.turn id silent rfl rfl rfl (fun x other => ?_) ?_ (fun j other => ?_) (by rw [here]),
      silent,fun _ => Function.update_self ..⟩
    · simp [view,other]
    · rw [here]
      refine ⟨sound.fresh,fun absent => ?_,fun _ => rfl,sound.spoken,sound.acceptance⟩
      rw [(sound.absent absent).1] at pending
      cases pending
    · rw [here]
      refine ⟨fun h => h,fun _ h => h,fun _ status _ h => ⟨status,h⟩,fun _ h there _ => ⟨h,there⟩,
        fun _ _ => rfl,fun _ h => h,⟨fun held => ?_,fun held => ?_⟩,fun _ _ _ h => h⟩
      · exact absurd (Option.some.inj held).symm other
      · cases unheld.symm.trans held
  · have history : record s.history s.state i call (.takeWaiter id) (decide (id ∈ s.state.pending)) =
        s.history := by
      simp [record,waits]
    rw [history,Finset.erase_eq_of_notMem waits]
    refine ⟨⟨inv,fun j _ => .refl j s⟩,silent,fun taken => absurd (of_decide_eq_true taken) waits⟩

theorem setChannel_here (s : State) (id : Nat) (channel : Oneshot) :
    view ⟨s.state.setChannel id channel,s.history⟩ id = { view s id with channel := channel } := by
  simp only [view,ApprovalService.setChannel,Function.update_self]
  rfl

theorem setChannel_other (s : State) {id x : Nat} (channel : Oneshot) (other : x ≠ id) :
    view ⟨s.state.setChannel id channel,s.history⟩ x = view s x := by
  simp only [view,ApprovalService.setChannel,Function.update_of_ne other]
  rfl

/-- A step on the channel of one request. -/
theorem Inv.speak (id : Nat) (channel : Oneshot) (pending : Bool) (inv : Inv settings s)
    (silent : s.history.answers i = none) (history : t.history = s.history)
    (here : view t id = { view s id with channel := channel, pending := pending })
    (waits : pending = true → (view s id).pending = true)
    (others : ∀ x, x ≠ id → view t x = view s x)
    (present : (view s id).channel ≠ .absent) (stays : channel ≠ .absent)
    (spoken : ∀ d, channel.spoken = some d → d.requestId = id ∧
      ∃ h, (view s id).row = some (if d.accepted then .accepted else .refused,h))
    (keeps : ∀ d, (view s id).channel.spoken = some d → channel.spoken = some d)
    (own : ∀ j, j ≠ i → s.history.requestOf j = some id → (view s id).channel ≠ .waiting →
      channel = (view s id).channel)
    (held : ∀ j, j ≠ i → s.history.holder id = some j → ∀ h, (view s id).row = some (.accepted,h) →
      (view s id).channel = .waiting → channel = .waiting) :
    Inv settings t ∧ ∀ j, j ≠ i → Kept j s t := by
  have sound := inv.sound id
  refine inv.turn id silent (by rw [history]) (by rw [history]) (by rw [history]) others ?_
    (fun j other => ?_) (by rw [here])
  · rw [here]
    refine ⟨fun unissued => absurd (sound.fresh unissued).2 present,fun absent => absurd absent stays,
      fun held => ?_,spoken,fun accepted => ?_⟩
    · by_contra still
      have before := waits (Bool.eq_true_of_not_eq_false still)
      rw [sound.taken held] at before
      cases before
    · obtain ⟨d,said,yes⟩ := sound.acceptance accepted
      exact ⟨d,keeps d said,yes⟩
  · rw [here]
    exact ⟨fun h => h,fun _ h => h,fun _ status _ h => ⟨status,h⟩,fun _ h there _ => ⟨h,there⟩,
      own j other,keeps,Iff.rfl,held j other⟩

theorem dropSender_spoken (channel : Oneshot) : channel.dropSender.spoken = channel.spoken := by
  unfold Oneshot.dropSender
  split
  · rename_i waits
    rw [waits]
    rfl
  · rfl

theorem dropSender_quiet {channel : Oneshot} (h : channel ≠ .waiting) : channel.dropSender = channel :=
  if_neg h

theorem dropSender_absent {channel : Oneshot} (h : channel ≠ .absent) : channel.dropSender ≠ .absent := by
  unfold Oneshot.dropSender
  split
  · simp
  · exact h

/-- The end of a sender that was never used: by its holder, or by the request that finds it
still registered. -/
theorem Inv.drop (id : Nat) (pending : Bool) (inv : Inv settings s)
    (silent : s.history.answers i = none) (history : t.history = s.history)
    (here : view t id = { view s id with channel := (view s id).channel.dropSender, pending := pending })
    (waits : pending = true → (view s id).pending = true)
    (others : ∀ x, x ≠ id → view t x = view s x) (present : (view s id).channel ≠ .absent)
    (alone : ∀ j, j ≠ i → s.history.holder id ≠ some j) :
    Inv settings t ∧ ∀ j, j ≠ i → Kept j s t :=
  inv.speak id _ pending silent history here waits others present (dropSender_absent present)
    (fun d spoken => (inv.sound id).spoken d ((dropSender_spoken _).symm.trans spoken))
    (fun _ spoken => (dropSender_spoken _).trans spoken)
    (fun _ _ _ still => dropSender_quiet still) (fun j other held => absurd held (alone j other))

theorem remove_step {id : Nat} (inv : Inv settings s) (asks : Asks i id s) {r : Unit}
    (h : (minded settings).exec s i call (.removeWaiter id) c = some (r,t)) :
    (Inv settings t ∧ ∀ j, j ≠ i → Kept j s t) ∧ Asks i id t ∧ (view t id).row = (view s id).row ∧
      ((view s id).channel ≠ .waiting → (view t id).channel = (view s id).channel) := by
  obtain ⟨_,d,performed,rfl⟩ := exec_minded h
  simp only [ApprovalService.exec] at performed
  split at performed
  · rename_i waits
    cases performed
    have pending : (view s id).pending = true := by simpa [view] using waits
    have sound := inv.sound id
    refine ⟨inv.drop id false asks.silent rfl ?_ (absurd · Bool.false_ne_true) (fun x other => ?_) (fun absent => ?_)
      fun j other held => ?_,⟨asks.drew,asks.silent,asks.ungranted⟩,rfl,fun still => ?_⟩
    · simp [view,record,ApprovalService.setChannel]
    · simp [view,record,ApprovalService.setChannel,other]
    · rw [(sound.absent absent).1] at pending
      cases pending
    · rw [sound.taken (Option.ne_none_iff_exists'.mpr ⟨j,held⟩)] at pending
      cases pending
    · exact (Function.update_self ..).trans (dropSender_quiet still)
  · cases performed
    exact ⟨⟨inv,fun j _ => .refl j s⟩,asks,rfl,fun _ => rfl⟩

theorem drop_step {id : Nat} (inv : Inv settings s) (silent : s.history.answers i = none)
    (holds : s.history.holder id = some i) {r : Unit}
    (h : (minded settings).exec s i call (.dropSender id) c = some (r,t)) :
    (Inv settings t ∧ ∀ j, j ≠ i → Kept j s t) ∧ t.history = s.history := by
  obtain ⟨_,d,performed,rfl⟩ := exec_minded h
  cases performed
  have sound := inv.sound id
  refine ⟨inv.drop id _ silent rfl ?_ (fun h => h) (fun x other => ?_) (fun absent => ?_)
    fun j other held => ?_,rfl⟩
  · exact setChannel_here s id _
  · exact setChannel_other s _ other
  · cases (sound.absent absent).2.symm.trans holds
  · exact other (Option.some.inj (held.symm.trans holds))

theorem send_step {d : ApprovalDecision} (inv : Inv settings s) (silent : s.history.answers i = none)
    (holds : s.history.holder d.requestId = some i) {token : Option Text}
    (row : (view s d.requestId).row = some (if d.accepted then .accepted else .refused,token)) {r : Unit}
    (h : (minded settings).exec s i call (.sendDecision d) c = some (r,t)) :
    (Inv settings t ∧ ∀ j, j ≠ i → Kept j s t) ∧ t.history = s.history ∧
      ((view s d.requestId).channel = .waiting → (view t d.requestId).channel = .sent d) := by
  obtain ⟨_,u,performed,rfl⟩ := exec_minded h
  cases performed
  have sound := inv.sound d.requestId
  refine ⟨inv.speak d.requestId ((view s d.requestId).channel.send d) _ silent rfl ?_ (fun h => h)
    (fun x other => ?_) (fun absent => ?_) (fun absent => ?_)
    (fun d' spoken => ?_) (fun d' spoken => ?_) (fun j other _ still => if_neg still)
    (fun j other held => ?_),rfl,fun waits => ?_⟩
  · exact setChannel_here s d.requestId _
  · exact setChannel_other s _ other
  · cases (sound.absent absent).2.symm.trans holds
  · unfold Oneshot.send at absent
    split at absent
    · cases absent
    · cases (sound.absent absent).2.symm.trans holds
  · unfold Oneshot.send at spoken
    split at spoken
    · cases spoken
      exact ⟨rfl,token,row⟩
    · exact sound.spoken d' spoken
  · unfold Oneshot.send
    split
    · rename_i waits
      rw [waits] at spoken
      cases spoken
    · exact spoken
  · exact absurd (Option.some.inj (held.symm.trans holds)) other
  · exact (Function.update_self ..).trans (if_pos waits)

theorem await_step {id : Nat} {r : Wait} (inv : Inv settings s) (asks : Asks i id s)
    (h : (minded settings).exec s i call (.awaitDecision id) c = some (r,t)) :
    (Inv settings t ∧ ∀ j, j ≠ i → Kept j s t) ∧ Asks i id t ∧ (view t id).row = (view s id).row ∧
      ((∃ d, r = .decided d ∧ (view t id).channel = .received d ∧ d.requestId = id ∧
          ∃ token, (view t id).row = some (if d.accepted then .accepted else .refused,token)) ∨
        ((r = .closed ∨ r = .elapsed) ∧ (view t id).channel.closed = true)) := by
  obtain ⟨minded,u,performed,rfl⟩ := exec_minded h
  have sound := inv.sound id
  simp only [ApprovalService.exec] at performed
  split at performed
  · rename_i d sent
    cases performed
    have spoken : (view s id).channel.spoken = some d := by
      show (s.state.channels id).spoken = _
      rw [sent]
      rfl
    obtain ⟨named,token,row⟩ := sound.spoken d spoken
    refine ⟨inv.speak id (.received d) _ asks.silent rfl (setChannel_here s id _) (fun h => h)
      (fun x other => setChannel_other s _ other) (fun absent => ?_) (by simp) (fun d' said => ?_)
      (fun d' said => ?_) (fun j other mine => absurd mine (asks.others inv other))
      (fun j other _ _ _ waits => ?_),⟨asks.drew,asks.silent,asks.ungranted⟩,rfl,
      .inl ⟨d,rfl,Function.update_self ..,named,token,row⟩⟩
    · cases sent.symm.trans absent
    · cases said
      exact ⟨named,token,row⟩
    · exact spoken.symm.trans said
    · cases sent.symm.trans waits
  · rename_i dropped
    cases performed
    refine ⟨⟨inv,fun j _ => .refl j s⟩,asks,rfl,.inr ⟨.inl rfl,?_⟩⟩
    show (s.state.channels id).closed = true
    rw [dropped]
    rfl
  · rename_i waits
    split at performed
    · cases performed
      have unaccepted := minded waits
      refine ⟨inv.speak id .abandoned _ asks.silent rfl (setChannel_here s id _) (fun h => h)
        (fun x other => setChannel_other s _ other) (fun absent => ?_) (by simp) nofun
        (fun d' said => ?_) (fun j other mine => absurd mine (asks.others inv other))
        (fun j other _ token row _ => ?_),⟨asks.drew,asks.silent,asks.ungranted⟩,rfl,.inr ⟨.inr rfl,?_⟩⟩
      · cases waits.symm.trans absent
      · rw [show (view s id).channel = .waiting from waits] at said
        cases said
      · obtain ⟨r,found,same⟩ := Option.map_eq_some_iff.mp row
        simp [stands,found,(Prod.mk.inj same).1] at unaccepted
      · show (Function.update s.state.channels id .abandoned id).closed = true
        rw [Function.update_self]
        rfl
    · cases performed
  · cases performed

theorem approve_step {id x : Nat} {endpoint : EndpointId} {expiresAt : Option Millis} {r : Unit}
    (inv : Inv settings s) (asks : Asks i id s)
    (h : (minded settings).exec s i call (.approveEndpointUntil x endpoint expiresAt) c = some (r,t)) :
    (Inv settings t ∧ ∀ j, j ≠ i → Kept j s t) ∧ t.history.requestOf = s.history.requestOf ∧
      t.history.answers = s.history.answers ∧ ∀ y, view t y = view s y := by
  obtain ⟨_,u,performed,rfl⟩ := exec_minded h
  cases performed
  have kept : ∀ j, j ≠ i → Kept j s
      ⟨{ s.state with accessPolicy := s.state.accessPolicy.approveEndpointUntil x endpoint expiresAt },
        s.history.grant x endpoint (some i)⟩ := fun j other =>
    ⟨rfl,rfl,fun y e granted => by
      simp only [History.grant,Function.update_apply] at granted
      split at granted
      · rename_i same
        subst same
        rw [Function.update_apply] at granted
        split at granted
        · exact absurd (Option.some.inj granted).symm other
        · exact granted
      · exact granted,fun y => .refl _ _ _⟩
  refine ⟨⟨inv.advance (fun y => inv.sound y) (fun y drew => inv.issued i y drew)
    (fun j y other drew drew' => other (inv.once j i y drew' drew)) kept fun response answered => ?_,kept⟩,
    rfl,rfl,fun _ => rfl⟩
  cases asks.silent.symm.trans answered

theorem answer_step {response : HandshakeResponse} {r : Unit} (inv : Inv settings s)
    (settled : Settled settings s i response)
    (h : (minded settings).exec s i call (.answer response) c = some (r,t)) :
    Inv settings t ∧ ∀ j, j ≠ i → Kept j s t := by
  obtain ⟨_,u,performed,rfl⟩ := exec_minded h
  cases performed
  have kept : ∀ j, j ≠ i → Kept j s ⟨s.state,record s.history s.state i call (.answer response) ()⟩ :=
    fun j other => ⟨rfl,Function.update_of_ne other _ _,fun _ _ h => h,fun y => .refl _ _ _⟩
  refine ⟨inv.advance (fun y => inv.sound y) (fun y drew => inv.issued i y drew)
    (fun j y other drew drew' => other (inv.once j i y drew' drew)) kept fun response' answered => ?_,kept⟩
  cases (Function.update_self ..).symm.trans answered
  cases response with
  | approved | denied => exact settled

theorem result_step {id : Nat} {accepted : Bool} {outcome : Except VnidropError Unit} {r : Unit}
    (inv : Inv settings s) (silent : s.history.answers i = none)
    (said : outcome = .ok () → accepted = true →
      ∃ d, (view s id).channel.spoken = some d ∧ d.accepted = true)
    (h : (minded settings).exec s i call (.result id accepted outcome) c = some (r,t)) :
    Inv settings t ∧ ∀ j, j ≠ i → Kept j s t := by
  obtain ⟨_,u,performed,rfl⟩ := exec_minded h
  cases performed
  cases outcome with
  | error e =>
    have same : record s.history s.state i call (.result id accepted (.error e)) () = s.history := by
      cases accepted <;> rfl
    rw [same]
    exact ⟨inv,fun j _ => .refl j s⟩
  | ok _ =>
    cases accepted with
    | false => exact ⟨inv,fun j _ => .refl j s⟩
    | true =>
      have here : view ⟨s.state,record s.history s.state i call (.result id true (.ok ())) ()⟩ id =
          { view s id with acceptance := true } := by
        simp [view,record]
      refine inv.turn id silent rfl rfl rfl (fun x other => ?_) ?_ (fun j _ => ?_) (by rw [here])
      · simp [view,record,other]
      · rw [here]
        have sound := inv.sound id
        exact ⟨sound.fresh,sound.absent,sound.taken,sound.spoken,fun _ => said rfl rfl⟩
      · rw [here]
        exact ⟨fun h => h,fun _ h => h,fun _ status _ h => ⟨status,h⟩,fun _ h there _ => ⟨h,there⟩,
          fun _ _ => rfl,fun _ h => h,Iff.rfl,fun _ _ _ h => h⟩

end Steps

/-! The calls. -/

section Calls

variable {settings : Settings} {s t : State} {i : Nat} {call : Call}

abbrev Done : Unit → State → Prop := fun _ _ => True

theorem safe_answer {response : HandshakeResponse}
    (settled : Settled settings s i response) :
    Safely settings i call (op (.answer response)) Done s :=
  fun _ _ inv kept _ _ _ _ performed => ⟨answer_step inv (settled.later kept) performed,trivial⟩

theorem safe_deny {id : Nat} (reason : String) (asks : Asks i id s) (barred : Barred (view s id)) :
    Safely settings i call (deny reason) Done s := by
  refine safe_answer ⟨asks.ungranted,fun id' drew => ?_⟩
  cases asks.drew.symm.trans drew
  exact barred

theorem safe_deny_new (reason : String) (new : New i s) :
    Safely settings i call (deny reason) Done s := by
  refine safe_answer ⟨new.ungranted,fun id' drew => ?_⟩
  cases new.undrawn.symm.trans drew

theorem safe_approve {request : RequestTransfer} {id : Nat} {token : Text} {expiresAt : Millis}
    (drew : s.history.requestOf i = some id)
    (row : (view s id).row = some (.accepted,some (settings.receiptTokenHash token))) :
    Safely settings i call (approve request id token expiresAt) Done s := by
  refine safe_bind (safe_mono (fun name t kept => ?_) (safe_aside (Prog.all_perform (by rfl)) s))
  have settled : Settled settings s i (.approved id token expiresAt name) := ⟨drew,row⟩
  exact safe_answer (settled.later kept)

theorem safe_expire {id : Nat} (asks : Asks i id s) (barred : Barred (view s id)) :
    Safely settings i call (expire id) Done s := by
  refine safe_perform fun t _ inv kept c _ u _ performed => ?_
  replace asks := asks.later kept
  replace barred := (kept.turn id).barred (asks.drew ▸ kept.requestOf.symm) barred
  obtain ⟨both,asks',row,channel⟩ := remove_step inv asks performed
  have barred' : Barred (view u id) := by
    refine ⟨barred.shut.imp (fun none => row.trans none) fun closed => ?_,fun status h here =>
      barred.bare status h (row.symm.trans here)⟩
    rw [channel]
    · exact closed
    · intro waits
      rw [waits] at closed
      cases closed
  refine ⟨both,?_⟩
  refine safe_perform fun v _ inv kept c outcome w _ performed => ?_
  replace asks := asks'.later kept
  replace barred := (kept.turn id).barred asks'.drew barred'
  obtain ⟨both,effect⟩ := update_step inv asks.silent performed
  refine ⟨both,?_⟩
  rcases effect with ⟨_,rfl⟩ | ⟨_,_,_,token,was,rewrites⟩
  · exact safe_deny _ asks barred
  · refine safe_deny _ (rewrites.asks asks) ?_
    rw [rewrites.here]
    refine ⟨.inr (barred.shut.resolve_left fun none => ?_),fun status h row => ?_⟩
    · rw [none] at was
      cases was
    · cases row
      exact barred.bare _ _ was

/-- A row of the call's own request that has no token yet. -/
def Fresh (v : View) : Prop := ∃ status, v.row = some (status,none)

theorem Fresh.later {id : Nat} (fresh : Fresh (view s id)) (drew : s.history.requestOf i = some id)
    (kept : Kept i s t) : Fresh (view t id) := by
  obtain ⟨status,row⟩ := fresh
  exact (kept.turn id).token drew status none row

theorem Fresh.barred {v : View} (fresh : Fresh v) (closed : v.channel.closed = true) : Barred v := by
  refine ⟨.inr closed,fun status h row => ?_⟩
  obtain ⟨_,was⟩ := fresh
  cases was.symm.trans row
  rfl

theorem barred_of_none {v : View} (none : v.row = none) : Barred v := by
  refine ⟨.inl none,fun status h row => ?_⟩
  rw [none] at row
  cases row

theorem safe_grant {remote : EndpointId} {request : RequestTransfer} {d : ApprovalDecision}
    (asks : Asks i d.requestId s) (row : (view s d.requestId).row = some (.accepted,none))
    (channel : (view s d.requestId).channel = .received d) :
    Safely settings i call (grant settings remote request d) Done s := by
  refine safe_bind (safe_mono (fun token t kept => ?_) (safe_aside (Prog.all_perform (by rfl)) s))
  refine safe_bind (safe_mono (fun now u kept' => ?_) (safe_aside (Prog.all_perform (by rfl)) t))
  replace kept := kept.trans kept'
  refine safe_perform fun v _ inv kept' c _ w _ performed => ?_
  replace kept := kept.trans kept'
  have turn := kept.turn d.requestId
  obtain ⟨both,requestOf,answers,views⟩ := approve_step inv (asks.later kept) performed
  refine ⟨both,?_⟩
  have drew : w.history.requestOf i = some d.requestId := by
    rw [requestOf]
    exact (asks.later kept).drew
  have silent : w.history.answers i = none := by
    rw [answers]
    exact (asks.later kept).silent
  replace row : (view w d.requestId).row = some (.accepted,none) := by
    rw [views]
    exact turn.accepted asks.drew row
  replace channel : (view w d.requestId).channel = .received d := by
    rw [views]
    exact (turn.channel asks.drew (by simp [channel])).trans channel
  refine safe_perform fun x _ inv kept c outcome y _ performed => ?_
  have minded := (exec_minded performed).1
  obtain ⟨both,effect⟩ := token_step inv (kept.requestOf.trans drew) (kept.answers.trans silent) performed
  refine ⟨both,?_⟩
  have accepted := (kept.turn d.requestId).accepted drew row
  rcases effect with ⟨⟨e,rfl⟩,rfl,why⟩ | ⟨rfl,rewrites⟩
  · -- the store does not fail here, and the request is accepted
    have received : (view y d.requestId).channel = .received d :=
      ((kept.turn d.requestId).channel drew (by simp [channel])).trans channel
    have fine := minded fun absent => by
      rw [show y.state.channels d.requestId = .received d from received] at absent
      cases absent
    rcases why with fails | refused
    · cases fine.symm.trans fails
    · exact absurd accepted (refused none)
  · refine safe_approve ?_ ?_
    · rw [rewrites.history]
      exact kept.requestOf.trans drew
    · rw [rewrites.here]

theorem safe_allow (remote : EndpointId) (request : RequestTransfer) (new : New i s) :
    Safely settings i call (allowWithoutSenderDecision settings remote request) Done s := by
  refine safe_perform fun t _ inv kept c id u _ performed => ?_
  obtain ⟨both,asks,row,channel⟩ := draw_step inv (new.later kept) performed
  refine ⟨both,?_⟩
  refine safe_perform fun v _ inv kept c outcome w _ performed => ?_
  have turn := kept.turn id
  replace row := turn.none asks.drew row
  replace channel := (turn.channel asks.drew (by simp [channel])).trans channel
  obtain ⟨both,asks,channel',inserted,failed⟩ := insert_step inv (asks.later kept) performed
  replace asks : Asks i id w := asks
  refine ⟨both,?_⟩
  cases outcome with
  | error e =>
    cases failed e rfl
    exact safe_deny _ asks (barred_of_none row)
  | ok _ =>
    have fresh : Fresh (view w id) := ⟨_,inserted rfl⟩
    replace channel : (view w id).channel = .absent := channel'.trans channel
    refine safe_perform fun x _ inv kept c outcome y _ performed => ?_
    have turn := kept.turn id
    replace channel := (turn.channel asks.drew (by simp [channel])).trans channel
    replace fresh := fresh.later asks.drew kept
    replace asks := asks.later kept
    obtain ⟨both,effect⟩ := update_step inv asks.silent performed
    refine ⟨both,?_⟩
    rcases effect with ⟨⟨e,rfl⟩,rfl⟩ | ⟨rfl,_,_,token,was,rewrites⟩
    · exact safe_deny _ asks (fresh.barred (by rw [channel]; rfl))
    · replace asks := rewrites.asks asks
      obtain ⟨_,bare⟩ := fresh
      cases was.symm.trans bare
      have row : (view y id).row = some (.accepted,none) := by rw [rewrites.here]
      replace channel : (view y id).channel = .absent := by
        rw [rewrites.here]
        exact channel
      refine safe_bind (safe_mono (fun token z kept => ?_) (safe_aside (Prog.all_perform (by rfl)) y))
      refine safe_perform fun a _ inv kept' c outcome b _ performed => ?_
      replace kept := kept.trans kept'
      have turn := kept.turn id
      replace row := turn.accepted asks.drew row
      replace channel := (turn.channel asks.drew (by simp [channel])).trans channel
      replace asks := asks.later kept
      obtain ⟨both,effect⟩ := token_step inv asks.drew asks.silent performed
      refine ⟨both,?_⟩
      rcases effect with ⟨⟨e,rfl⟩,rfl,_⟩ | ⟨rfl,rewrites⟩
      · have fresh : Fresh (view b id) := ⟨_,row⟩
        exact safe_deny _ asks (fresh.barred (by rw [channel]; rfl))
      · refine safe_bind (safe_mono (fun now d kept => ?_) (safe_aside (Prog.all_perform (by rfl)) b))
        replace asks := rewrites.asks asks
        exact safe_approve (kept.requestOf.trans asks.drew)
          ((kept.turn id).accepted asks.drew (by rw [rewrites.here]))

theorem safe_wait (remote : EndpointId) (request : RequestTransfer) (new : New i s) :
    Safely settings i call (waitForSenderDecision settings remote request) Done s := by
  refine safe_perform fun t _ inv kept c id u _ performed => ?_
  obtain ⟨both,asks,row,channel⟩ := draw_step inv (new.later kept) performed
  refine ⟨both,?_⟩
  refine safe_perform fun v _ inv kept c registered w _ performed => ?_
  have turn := kept.turn id
  replace row := turn.none asks.drew row
  replace channel := (turn.channel asks.drew (by simp [channel])).trans channel
  obtain ⟨both,asks,row',_⟩ := register_step inv (asks.later kept) channel performed
  refine ⟨both,?_⟩
  replace row := row'.trans row
  cases registered with
  | false => exact safe_deny _ asks (barred_of_none row)
  | true =>
    refine safe_perform fun v _ inv kept c outcome w _ performed => ?_
    replace row := (kept.turn id).none asks.drew row
    obtain ⟨both,asks,_,inserted,failed⟩ := insert_step inv (asks.later kept) performed
    replace asks : Asks i id w := asks
    refine ⟨both,?_⟩
    cases outcome with
    | error e =>
      cases failed e rfl
      refine safe_perform fun x _ inv kept c _ y _ performed => ?_
      replace row := (kept.turn id).none asks.drew row
      obtain ⟨both,asks,row',_⟩ := remove_step inv (asks.later kept) performed
      exact ⟨both,safe_deny _ asks (barred_of_none (row'.trans row))⟩
    | ok _ =>
      have fresh : Fresh (view w id) := ⟨_,inserted rfl⟩
      refine safe_perform fun x _ inv kept c r y _ performed => ?_
      replace fresh := fresh.later asks.drew kept
      obtain ⟨both,asks,row,outcome⟩ := await_step inv (asks.later kept) performed
      refine ⟨both,?_⟩
      obtain ⟨status,bare⟩ := fresh
      replace fresh : Fresh (view y id) := ⟨status,row.trans bare⟩
      rcases outcome with ⟨d,rfl,received,rfl,token,decided⟩ | ⟨rfl | rfl,closed⟩
      · cases (row.symm.trans decided).symm.trans bare
        change Safely settings i call (if d.accepted then _ else _) Done y
        split
        · rename_i yes
          rw [if_pos yes] at decided
          exact safe_grant asks decided received
        · rename_i no
          refine safe_deny _ asks (fresh.barred ?_)
          rw [received]
          simpa [Oneshot.closed] using no
      · exact safe_expire asks (fresh.barred closed)
      · exact safe_expire asks (fresh.barred closed)

theorem safe_requestTransfer (remote : EndpointId) (request : RequestTransfer) (new : New i s) :
    Safely settings i call (requestTransfer settings remote request) Done s := by
  refine safe_bind (safe_mono (fun blocked t kept => ?_) (safe_aside (Prog.all_perform (by rfl)) s))
  replace new := new.later kept
  split
  · exact safe_deny_new _ new
  split
  · exact safe_deny_new _ new
  refine safe_bind (safe_mono (fun found u kept => ?_) (safe_aside (Prog.all_perform (by rfl)) t))
  replace new := new.later kept
  split
  · refine safe_bind (safe_mono (fun decision v kept => ?_) (safe_aside (Prog.all_perform (by rfl)) u))
    replace new := new.later kept
    split
    · exact safe_allow remote request new
    · exact safe_wait remote request new
  · exact safe_deny_new _ new
  · exact safe_deny_new _ new

theorem safe_result {id : Nat} {accepted : Bool} {outcome : Except VnidropError Unit}
    (silent : s.history.answers i = none)
    (said : outcome = .ok () → accepted = true →
      ∃ d, (view s id).channel.spoken = some d ∧ d.accepted = true) :
    Safely settings i call (op (.result id accepted outcome)) Done s := by
  intro t _ inv kept c r u _ performed
  refine ⟨result_step inv (kept.answers.trans silent) (fun ok yes => ?_) performed,trivial⟩
  obtain ⟨d,spoken,accepted⟩ := said ok yes
  exact ⟨d,(kept.turn id).spoken d spoken,accepted⟩

theorem safe_respond {id : Nat} {accepted : Bool} {reason : Option String}
    (is : call.responds = true) (silent : s.history.answers i = none)
    (empty : ∀ x, s.history.holder x ≠ some i) :
    Safely settings i call (respond id accepted reason) Done s := by
  refine safe_perform fun t _ inv kept c taken u _ performed => ?_
  have unheld : t.history.holder id ≠ some i := fun held =>
    empty id ((kept.turn id).holder.mp held)
  obtain ⟨both,silent,holds⟩ := take_step inv (kept.answers.trans silent) performed
  have untaken : taken = false → u.history.holder id ≠ some i := by
    rintro rfl
    obtain ⟨_,d,_,rfl⟩ := exec_minded performed
    exact unheld
  refine ⟨both,?_⟩
  refine safe_perform fun v _ inv kept c outcome w _ performed => ?_
  have minded := (exec_minded performed).1
  replace silent := kept.answers.trans silent
  have holder := (kept.turn id).holder
  obtain ⟨both,effect⟩ := update_step inv silent performed
  refine ⟨both,?_⟩
  rcases effect with ⟨⟨e,rfl⟩,rfl⟩ | ⟨rfl,fine,stood,token,_,rewrites⟩
  · cases taken with
    | false => exact safe_result silent nofun
    | true =>
      refine safe_perform fun x _ inv kept c _ y _ performed => ?_
      have holds' := (kept.turn id).holder.mpr (holder.mpr (holds rfl))
      obtain ⟨both,history⟩ := drop_step inv (kept.answers.trans silent) holds' performed
      exact ⟨both,safe_result (by rw [history]; exact kept.answers.trans silent) nofun⟩
  · have history := rewrites.history
    replace silent : w.history.answers i = none := by
      rw [history]
      exact silent
    have right : accepted = true → v.history.holder id = some i ∧ v.state.channels id = .waiting := by
      rintro rfl
      exact minded rfl is fine stood
    cases taken with
    | false =>
      refine safe_result silent fun _ yes => ?_
      exact absurd (holder.mp (right yes).1) (untaken rfl)
    | true =>
      refine safe_perform fun x _ inv kept' c _ y _ performed => ?_
      have turn := kept'.turn id
      have held : w.history.holder id = some i := by
        rw [history]
        exact holder.mpr (holds rfl)
      have held' := turn.holder.mpr held
      obtain ⟨token',row⟩ := turn.settled (if accepted then .accepted else .refused) token
        (by rw [rewrites.here]) (by split <;> simp)
      obtain ⟨both,history',sent⟩ := send_step (d := ⟨id,accepted,reason⟩) inv
        (kept'.answers.trans silent) held' row performed
      refine ⟨both,safe_result (by rw [history']; exact kept'.answers.trans silent) fun _ yes => ?_⟩
      have waits : (view x id).channel = .waiting := by
        refine turn.waiting held token ?_ ?_
        · rw [rewrites.here,yes]
          rfl
        · rw [rewrites.here]
          exact (right yes).2
      refine ⟨⟨id,accepted,reason⟩,?_,yes⟩
      rw [show (view y id).channel = _ from sent waits]
      rfl

end Calls

section Runs

variable {settings : Settings}

theorem safe_call {s : State} {i : Nat} {call : Call} (new : New i s)
    (empty : ∀ x, s.history.holder x ≠ some i) :
    Safely settings i call (call.body settings) Done s := by
  cases call with
  | requestTransfer remote request => exact safe_requestTransfer remote request new
  | respond id accepted reason => exact safe_respond rfl new.silent empty

/-- The history knows only calls that have started. -/
structure Below (n : Nat) (h : History) : Prop where
  requestOf : ∀ i, n ≤ i → h.requestOf i = none
  answers : ∀ i, n ≤ i → h.answers i = none
  granted : ∀ i x endpoint, n ≤ i → h.granted x endpoint ≠ some i
  holder : ∀ i id, n ≤ i → h.holder id ≠ some i

theorem Below.grant {n x : Nat} {h : History} {endpoint : EndpointId} {i : Option Nat}
    (below : Below n h) (small : ∀ j, i = some j → j < n) : Below n (h.grant x endpoint i) where
  requestOf := below.requestOf
  answers := below.answers
  granted j y e late granted := by
    simp only [History.grant,Function.update_apply] at granted
    split at granted
    · rw [Function.update_apply] at granted
      split at granted
      · exact absurd (small j granted) (by omega)
      · exact below.granted j _ e late granted
    · exact below.granted j y e late granted
  holder := below.holder

theorem Below.record {n i : Nat} {h : History} (below : Below n h) (started : i < n)
    (a : ApprovalService) (call : Call) (o : Op) (r : Ans o) : Below n (Approval.record h a i call o r) := by
  unfold Approval.record
  split
  · refine ⟨fun j late => ?_,below.answers,below.granted,below.holder⟩
    have other : j ≠ i := by omega
    exact (Function.update_of_ne other _ _).trans (below.requestOf j late)
  · refine ⟨below.requestOf,below.answers,below.granted,fun j id late held => ?_⟩
    dsimp only at held
    rw [Function.update_apply] at held
    split at held
    · cases held
      omega
    · exact below.holder j id late held
  · exact below.grant fun j same => by cases same; exact started
  · refine ⟨below.requestOf,fun j late => ?_,below.granted,below.holder⟩
    have other : j ≠ i := by omega
    exact (Function.update_of_ne other _ _).trans (below.answers j late)
  · exact ⟨below.requestOf,below.answers,below.granted,below.holder⟩
  · exact below

theorem Below.succ {n : Nat} {h : History} (below : Below n h) : Below (n + 1) h :=
  ⟨fun i late => below.requestOf i (by omega),fun i late => below.answers i (by omega),
    fun i x e late => below.granted i x e (by omega),fun i id late => below.holder i id (by omega)⟩

theorem reach_below {c : Conf State Call Op Ans} (reach : Reach (minded settings).system guard.holds c) :
    Below c.threads.length c.shared.history := by
  induction reach with
  | start c h =>
    rw [h.1.2]
    exact ⟨fun _ _ => rfl,fun _ _ => rfl,fun _ _ _ _ => nofun,fun _ _ _ => nofun⟩
  | @advance c d a _ _ h ih =>
    rcases next_cases h with ⟨call,rfl,_,rfl⟩ | ⟨i,choice,call,op,k,r,s,rfl,here,performed,rfl⟩ |
      ⟨e,s,rfl,moved,rfl⟩
    · rw [List.length_append]
      exact ih.succ
    · obtain ⟨_,t,_,rfl⟩ := exec_minded performed
      rw [List.length_set]
      exact ih.record (List.getElem?_eq_some_iff.mp here).1 c.shared.state call op r
    · cases moved
      cases e with
      | approveEndpoint => exact ih.grant nofun
      | _ => exact ih

theorem env_kept {s t : State} {e : Env} (inv : Inv settings s)
    (h : (minded settings).env s e = some t) : Inv settings t ∧ ∀ j, Kept j s t := by
  cases h
  cases e with
  | approveEndpoint x endpoint expiresAt =>
    have kept : ∀ j, Kept j s ⟨s.state.stepEnv (.approveEndpoint x endpoint expiresAt),
        s.history.grant x endpoint none⟩ := fun j =>
      ⟨rfl,rfl,fun y e granted => by
        simp only [History.grant,Function.update_apply] at granted
        split at granted
        · rename_i same
          subst same
          rw [Function.update_apply] at granted
          split at granted
          · cases granted
          · exact granted
        · exact granted,fun y => .refl _ _ _⟩
    exact ⟨⟨inv.sound,inv.issued,inv.once,fun i r answered => (inv.answered i r answered).later (kept i)⟩,
      kept⟩
  | _ => exact ⟨inv.same rfl fun _ => rfl,.same rfl fun _ => rfl⟩

theorem started_inv {a : ApprovalService} (started : Started a) : Inv settings ⟨a,.new⟩ where
  sound id := by
    refine ⟨fun unissued => ⟨?_,started.channels id⟩,fun _ => ⟨?_,rfl⟩,fun held => absurd rfl held,
      fun d spoken => ?_,nofun⟩
    · cases found : a.requests.find id with
      | none => simp [view,found]
      | some r =>
        have issued := started.issued id r found
        cases issued.symm.trans unissued
    · simp [view,started.pending]
    · rw [show (view ⟨a,.new⟩ id).channel = .absent from started.channels id] at spoken
      cases spoken
  issued := nofun
  once := nofun
  answered := nofun

/-- In every run whose steps meet the side condition, the receivers, the durable requests,
the owner and the sessions agree. -/
theorem approval_agreement {c : Conf State Call Op Ans} (reach : Reach (machine settings).system Minds c) :
    Agreement settings c.shared := by
  have minded' : Reach (minded settings).system guard.holds c := by
    refine reach_restrict (reach.mono fun d a meets => ⟨?_,meets⟩)
    cases a with
    | act i choice =>
      intro t _
      split <;> trivial
    | _ => trivial
  have secured : Secured (minded settings) guard (terms settings) (fun _ _ _ => True) c :=
    reach_secured (fun _ _ => trivial) ?_ ?_ (fun _ _ _ _ _ _ => trivial) ?_ minded'
  · exact secured.inv.agreement
  · rintro ⟨a,h⟩ ⟨started,rfl⟩
    exact started_inv started
  · intro c call past _ _ _
    have below := reach_below past
    exact safe_call ⟨below.requestOf _ (Nat.le_refl _),below.answers _ (Nat.le_refl _),
      fun x e => below.granted _ x e (Nat.le_refl _)⟩ fun x => below.holder _ x (Nat.le_refl _)
  · intro s e t _ inv _ moved
    exact env_kept inv moved

end Runs

/-! Device 2 asks for transfer 7, and the owner accepts. -/

namespace Sample

def settings : Settings := ⟨8,1024,fun token => token + 1000⟩

def stored : ApprovalService where
  requests := .empty
  shares := Function.update (fun _ => none) 7 (some ⟨"hash",none⟩)
  blocked _ := false
  accessPolicy := AccessPolicy.new.setMode 7 .approvalRequired
  pending := ∅
  channels _ := .absent
  issued _ := false

def start : Conf State Call Op Ans := ⟨⟨stored,.new⟩,[]⟩

def asks : Label Call Choice Env := .fork (.requestTransfer 2 ⟨7,"hash","photos",none,none,"1"⟩)

def accepts : Label Call Choice Env := .fork (.respond 1 true none)

def act (i : Nat) : Label Call Choice Env := .act i ⟨0,false,false,1⟩

/-- The request is stored and waits. -/
def waits : List (Label Call Choice Env) := asks :: List.replicate 6 (act 0)

theorem started : (machine settings).system.init start := ⟨⟨⟨rfl,fun _ => rfl,nofun⟩,rfl⟩,rfl⟩

/-- The response is sent, taken, and its token attached unless the store fails. -/
def attached (fails : Bool) : List (Label Call Choice Env) :=
  waits ++ accepts :: List.replicate 4 (act 1) ++ List.replicate 4 (act 0) ++
    .act 0 ⟨0,fails,false,1⟩ :: List.replicate (if fails then 1 else 2) (act 0)

/-- The wait times out between the write of the response and its delivery. -/
def timedOut : List (Label Call Choice Env) :=
  waits ++ accepts :: List.replicate 2 (act 1) ++ .act 0 ⟨0,false,true,1⟩ ::
    List.replicate 3 (act 0) ++ List.replicate 2 (act 1)

def after (labels : List (Label Call Choice Env)) : Conf State Call Op Ans :=
  ((machine settings).system.run start labels).getD start

end Sample

instance (s : State) (i : Nat) (call : Call) (o : Op) (c : Choice) : Decidable (minds s i call o c) := by
  dsimp only [minds]
  split <;> infer_instance

open Sample in
/-- The receiver of an accepted request is told that it timed out; and a receiver that is
told of an error keeps a session. -/
theorem approval_disagreement :
    (machine settings).system.init start ∧
    ((machine settings).system.run start timedOut = some (after timedOut) ∧
      (after timedOut).shared.history.requestOf 0 = some 1 ∧
      (after timedOut).shared.history.acceptances 1 = true ∧
      (after timedOut).shared.history.answers 0 = some (.denied "approval-timeout")) ∧
    (machine settings).system.run start (attached true) = some (after (attached true)) ∧
      (after (attached true)).shared.history.answers 0 = some (.denied "repository-error") ∧
      (after (attached true)).shared.state.accessPolicy.sessions 7 2 = some ⟨some approvalTtlMs⟩ ∧
      (after (attached true)).shared.history.granted 7 2 = some 0 :=
  ⟨started,⟨rfl,rfl,rfl,rfl⟩,rfl,rfl,rfl,rfl⟩

open Sample in
/-- The owner accepts in time and the store works. -/
theorem approval_agreement_accepted :
    (after (attached false)).shared.history.answers 0 =
      some (.approved 1 1 approvalTtlMs none) ∧
    recordedHash (after (attached false)).shared 0 = some 1001 := by
  have reach : Reach (machine settings).system Minds (after (attached false)) :=
    (Reach.start _ started).run (by decide)
      (show (machine settings).system.run _ (attached false) = some _ from rfl)
  exact ⟨rfl,(approval_agreement reach).recorded 0 (.approved 1 1 approvalTtlMs none) rfl⟩

end Vnidrop.Approval
