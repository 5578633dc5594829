import Vnidrop.TargetedRows
import Vnidrop.TargetedCalls

/-! Which completion reports a sender believes: the authorization token with its digest,
and what the handler compares it with. -/
namespace Vnidrop.Targeted.Completion

open Programs Sample TargetedTransferState

/-- The fields of an authorization that its digest is taken of. -/
structure TargetedAuthorizationDraft where
  transferId : TransferId
  protocolTransferId : Nat
  senderEndpointId : EndpointId
  receiverEndpointId : EndpointId
  manifestId : Text
  contentHash : Text
  fileCount : Nat
  totalSize : Nat
  protocolVersion : Nat
  transferName : Text
  blobTicket : Text
  deriving DecidableEq, Repr

def draft (auth : TargetedAuthorization) : TargetedAuthorizationDraft where
  transferId := auth.transferId
  protocolTransferId := auth.protocolTransferId
  senderEndpointId := auth.senderEndpointId
  receiverEndpointId := auth.receiverEndpointId
  manifestId := auth.manifestId
  contentHash := auth.contentHash
  fileCount := auth.fileCount
  totalSize := auth.totalSize
  protocolVersion := auth.protocolVersion
  transferName := auth.transferName
  blobTicket := auth.blobTicket

/-- The keyed hash: the key a secret's text encodes, when it is one, and the hash under it. -/
structure KeyedHash where
  secretBytes : Text → Option Text
  hash : Text → TargetedAuthorizationDraft → Text

/-- The payload of a token; `mac` is `none` when its text is not hexadecimal. -/
structure AuthorizationToken where
  authorization : TargetedAuthorization
  mac : Option Text
  deriving DecidableEq, Repr

def computeMac (h : KeyedHash) (auth : TargetedAuthorization) : Option Text :=
  (h.secretBytes auth.authSecret).map fun key => h.hash key (draft auth)

def verifyIntegrity (h : KeyedHash) (token : AuthorizationToken) : Bool :=
  match computeMac h token.authorization with
  | none => false
  | some expected => token.mac = some expected

/-- `TargetedAuthorization::decode`; `none` is a text that is not a token. -/
def decode (h : KeyedHash) : Option AuthorizationToken → Option TargetedAuthorization
  | none => none
  | some token => if verifyIntegrity h token then some token.authorization else none

/-- `CompleteTargetedTransfer` as it travels. -/
structure CompletionMessage where
  transferId : TransferId
  verifiedBytes : Nat
  authorization : Option AuthorizationToken
  deriving DecidableEq, Repr

def CompletionMessage.decoded (h : KeyedHash) (m : CompletionMessage) : CompleteTargetedTransfer :=
  ⟨m.transferId,m.verifiedBytes,decode h m.authorization⟩

/-- The handler on a message from the wire. -/
def handle (l : Local) (h : KeyedHash) (remote : EndpointId) (m : CompletionMessage) :
    Task Response :=
  handleCompletion l remote (m.decoded h)

/-- The secret custody keeps under the handle of a row. -/
def storedSecret (s : Device) (row : TargetedTransferRow) : Option Text :=
  row.authorizationSecretHandle.bind s.custody

/-- The authorization this device stored when it approved the transfer of the row. -/
def storedAuthorization (l : Local) (s : Device) (row : TargetedTransferRow) :
    Option TargetedAuthorization :=
  match row.blobTicket with
  | none => none
  | some blobTicket =>
    (storedSecret s row).map (reconstructAuthorization l.protocolVersion row blobTicket)

/-- Between the two states the row of the transfer moves to Completed. -/
def Completes (s t : Device) (id : TransferId) : Prop :=
  ∃ row row', s.store.getRow id = some row ∧ row.state ≠ .completed ∧
    t.store.getRow id = some row' ∧ row'.state = .completed

/-- The presented token passes every comparison the handler makes with the row. -/
def Passes (l : Local) (h : KeyedHash) (remote : EndpointId) (s : Device) (m : CompletionMessage)
    (row : TargetedTransferRow) (auth : TargetedAuthorization) : Prop :=
  s.store.getRow m.transferId = some row ∧ decode h m.authorization = some auth ∧
    completes l remote row auth m.verifiedBytes = true

section Handler

variable {l : Local} {h : KeyedHash} {remote : EndpointId} {s t : Device} {m : CompletionMessage}
  {r : Response} {row : TargetedTransferRow} {auth : TargetedAuthorization}

/-- What the handler can do to a device, and its answer. -/
theorem handle_ends (run : Alone (Device.exec l) (handle l h remote m) s r t) :
    (t = s ∧ (r = .rejected ∨
      r = .recorded ∧ ∃ row auth, Passes l h remote s m row auth ∧ row.state = .completed)) ∨
    (r = .recorded ∧ ∃ row auth now changed store, Passes l h remote s m row auth ∧
      row.state.terminal = false ∧
      s.store.markSenderCompleted m.transferId now = .ok (changed,store) ∧
      t = { s with store }) := by
  have refused {u : Device} (ended : Alone (Device.exec l) (pure Response.rejected) u r t) :
      t = u ∧ r = .rejected := ⟨ended.2.symm,ended.1.symm⟩
  obtain ⟨_,saved,u,asked,run⟩ := alone_perform.mp run
  obtain rfl := Device.exec_reads (by rfl) asked
  cases saved with
  | false => exact .inl ((refused run).imp id .inl)
  | true =>
    obtain ⟨_,found,v,read,run⟩ := alone_perform.mp run
    obtain rfl := Device.exec_reads (by rfl) read
    cases found with
    | error e => exact .inl ((refused run).imp id .inl)
    | ok found =>
      have here : v.store.getRow m.transferId = found := Device.exec_getRow read
      cases found with
      | none => exact .inl ((refused run).imp id .inl)
      | some row =>
        cases presented : decode h m.authorization with
        | none =>
          simp only [CompletionMessage.decoded,presented] at run
          exact .inl ((refused run).imp id .inl)
        | some auth =>
          simp only [CompletionMessage.decoded,presented] at run
          change Alone _ (if completes l remote row auth m.verifiedBytes = true then _ else _) v r t at run
          by_cases passed : completes l remote row auth m.verifiedBytes = true
          · rw [if_pos passed] at run
            have passes : Passes l h remote v m row auth := ⟨here,presented,passed⟩
            by_cases completed : row.state = .completed
            · rw [if_pos completed] at run
              exact .inl ⟨run.2.symm,.inr ⟨run.1.symm,row,auth,passes,completed⟩⟩
            · rw [if_neg completed] at run
              by_cases ended : row.state.terminal = true
              · rw [if_pos ended] at run
                exact .inl ((refused run).imp id .inl)
              · rw [if_neg ended] at run
                obtain ⟨_,marked,w,wrote,rest⟩ := alone_perform.mp run
                rcases Device.exec_write wrote with ⟨⟨e,rfl⟩,rfl⟩ | ⟨changed,store,ran,rfl,rfl⟩
                · exact .inl ((refused rest).imp id .inl)
                · exact .inr ⟨rest.1.symm,row,auth,_,changed,store,passes,
                    Bool.eq_false_iff.mpr ended,ran,rest.2.symm⟩
          · rw [if_neg passed] at run
            exact .inl ((refused run).imp id .inl)

/-- A statement that is not refused, at some time. -/
private def granted : Choice := ⟨0,false,true,0,none,⟨[],false⟩⟩

theorem mark_resumable (here : s.store.getRow m.transferId = some row) (role : row.role = .sender)
    (live : row.state.resumable = true) : ∃ store,
    (Write.markSenderCompleted m.transferId).run s.store 0 = .ok (true,store) ∧
    store.getRow m.transferId =
      some { row with state := .completed, verifiedBytes := row.totalSize, updatedAt := 0 } := by
  have affected : s.store.transfers.affects (fun r => r.id = m.transferId &&
      (r.role = .sender && r.state.resumable)) = true := by
    rw [Tables.Table.affects_key,show s.store.transfers.find m.transferId = some row from here]
    simp [role,live]
  obtain ⟨store,marked⟩ : ∃ store,
      (Write.markSenderCompleted m.transferId).run s.store 0 = .ok (true,store) :=
    ⟨_,if_pos affected⟩
  refine ⟨store,marked,?_⟩
  rw [run_getRow marked,Write.onRow,if_pos rfl,here]
  simp [role,live]

/-- A report that passes the comparisons is recorded, whatever its secret. -/
theorem handle_records (passes : Passes l h remote s m row auth)
    (open_ : row.state.resumable = true ∨ row.state = .completed) :
    ∃ t, Alone (Device.exec l) (handle l h remote m) s .recorded t ∧
      (row.state.resumable = true → Completes s t m.transferId) := by
  obtain ⟨here,presented,passed⟩ := passes
  have role : row.role = .sender := by
    simp only [completes,Bool.and_eq_true,decide_eq_true_eq] at passed
    exact passed.1.1.1.1.1.1.1.1.1.1.1.1.1
  have reads : s.exec l granted (.getRow (m.decoded h).transferId) = some (.ok (some row),s) := by
    simp only [Device.exec,granted,Bool.false_eq_true,if_false]
    rw [show s.store.getRow (m.decoded h).transferId = some row from here]
  rcases open_ with live | completed
  · obtain ⟨store,marked,moved⟩ := mark_resumable here role live
    have unfinished : row.state ≠ .completed := by
      intro completed
      rw [completed] at live
      cases live
    refine ⟨{ s with store },⟨granted,true,s,rfl,granted,.ok (some row),s,reads,?_⟩,
      fun _ => ⟨row,_,here,unfinished,moved,rfl⟩⟩
    simp only [CompletionMessage.decoded,presented]
    show Alone _ (if completes l remote row auth m.verifiedBytes = true then _ else _) s _ _
    rw [if_pos passed,if_neg unfinished,if_neg (by simp [resumable_live live])]
    refine ⟨granted,.ok true,{ s with store },?_,rfl,rfl⟩
    simp only [Device.exec,granted,Bool.false_eq_true,if_false,marked]
  · refine ⟨s,⟨granted,true,s,rfl,granted,.ok (some row),s,reads,?_⟩,fun live => ?_⟩
    · simp only [CompletionMessage.decoded,presented]
      show Alone _ (if completes l remote row auth m.verifiedBytes = true then _ else _) s _ _
      rw [if_pos passed,if_pos completed]
      exact ⟨rfl,rfl⟩
    · rw [completed] at live
      cases live

/-- What is asked of the handler on one message: it completes the row only on the stored
authorization, and refuses one that differs from it in the secret alone. -/
structure Authentic (l : Local) (h : KeyedHash) (remote : EndpointId) (s : Device)
    (m : CompletionMessage) : Prop where
  moves : ∀ r t, Alone (Device.exec l) (handle l h remote m) s r t →
    Completes s t m.transferId → ∃ row auth, s.store.getRow m.transferId = some row ∧
      decode h m.authorization = some auth ∧ storedAuthorization l s row = some auth
  refuses : ∀ row stored auth, s.store.getRow m.transferId = some row → row.role = .sender →
    storedAuthorization l s row = some stored → decode h m.authorization = some auth →
    draft auth = draft stored → auth.authSecret ≠ stored.authSecret →
    ∀ r t, Alone (Device.exec l) (handle l h remote m) s r t → r = .rejected

/-- A token that passes the comparisons carries the stored secret, for a row of this device,
while the row can still be completed; afterwards, unless that secret is gone. -/
def SecretAgrees (l : Local) (h : KeyedHash) (remote : EndpointId) (s : Device)
    (m : CompletionMessage) : Prop :=
  ∀ row auth, Passes l h remote s m row auth →
    (row.state.resumable = true →
      storedSecret s row = some auth.authSecret ∧ row.senderEndpointId = l.endpointId) ∧
    (row.state = .completed → ∀ secret, storedSecret s row = some secret →
      row.senderEndpointId = l.endpointId → auth.authSecret = secret)

theorem passes_fields (passes : Passes l h remote s m row auth) :
    row.role = .sender ∧ row.blobTicket = some auth.blobTicket ∧
    auth = { reconstructAuthorization l.protocolVersion row auth.blobTicket auth.authSecret with
      senderEndpointId := l.endpointId } := by
  have passed := passes.2.2
  simp only [completes,Bool.and_eq_true,decide_eq_true_eq] at passed
  cases auth
  simp_all [reconstructAuthorization]

/-- The comparisons leave the secret, and whose row it is, as the only differences. -/
theorem passes_eq (passes : Passes l h remote s m row auth) (secret : Text) :
    reconstructAuthorization l.protocolVersion row auth.blobTicket secret = auth ↔
      secret = auth.authSecret ∧ row.senderEndpointId = l.endpointId := by
  rw [(passes_fields passes).2.2]
  simp [reconstructAuthorization,and_comm]

theorem passes_draft (passes : Passes l h remote s m row auth) (secret : Text) :
    draft auth = draft (reconstructAuthorization l.protocolVersion row auth.blobTicket secret) ↔
      row.senderEndpointId = l.endpointId := by
  rw [(passes_fields passes).2.2]
  simp [reconstructAuthorization,draft,eq_comm]

theorem passes_stored (passes : Passes l h remote s m row auth) :
    storedAuthorization l s row = (storedSecret s row).map
      (reconstructAuthorization l.protocolVersion row auth.blobTicket) := by
  unfold storedAuthorization
  rw [(passes_fields passes).2.1]

/-- The handler never looks at the stored secret, so it keeps the promise exactly on the
messages that agree with it anyway. -/
theorem completion_authentic_iff :
    Authentic l h remote s m ↔ SecretAgrees l h remote s m := by
  constructor
  · intro authentic row auth passes
    constructor
    · intro live
      obtain ⟨t,run,moved⟩ := handle_records passes (.inl live)
      obtain ⟨row',auth',here,presented,stored⟩ := authentic.moves _ t run (moved live)
      cases here.symm.trans passes.1
      cases presented.symm.trans passes.2.1
      rw [passes_stored passes] at stored
      obtain ⟨secret,kept,same⟩ := Option.map_eq_some_iff.mp stored
      obtain ⟨rfl,mine⟩ := (passes_eq passes secret).mp same
      exact ⟨kept,mine⟩
    · intro completed secret kept mine
      obtain ⟨t,run,_⟩ := handle_records passes (.inr completed)
      by_contra differs
      have stored := passes_stored passes
      rw [kept,Option.map_some] at stored
      have refused := authentic.refuses row _ auth passes.1 (passes_fields passes).1 stored
        passes.2.1 ((passes_draft passes secret).mpr mine) differs _ t run
      cases refused
  · intro agrees
    refine ⟨fun r t run moved => ?_,fun row stored auth here _ kept presented same differs r t run => ?_⟩
    · obtain ⟨row,row',here,unfinished,there,finished⟩ := moved
      rcases handle_ends run with ⟨rfl,_⟩ | ⟨_,row₁,auth,_,_,store,passes,live,marked,rfl⟩
      · cases here.symm.trans there
        exact absurd finished unfinished
      · obtain ⟨r₁,here₁,_,state⟩ := markSenderCompleted_ok marked
        cases here₁.symm.trans passes.1
        cases here.symm.trans passes.1
        have live := state.resolve_right unfinished
        obtain ⟨secret,mine⟩ := (agrees _ _ passes).1 live
        refine ⟨_,auth,here,passes.2.1,?_⟩
        rw [passes_stored passes,secret,Option.map_some]
        exact congrArg some ((passes_eq passes _).mpr ⟨rfl,mine⟩)
    · have stored_secret {row₁ : TargetedTransferRow} {auth₁ : TargetedAuthorization}
          (passes : Passes l h remote s m row₁ auth₁) : row₁ = row ∧ auth₁ = auth ∧
          storedSecret s row = some stored.authSecret ∧ row.senderEndpointId = l.endpointId := by
        cases here.symm.trans passes.1
        cases presented.symm.trans passes.2.1
        rw [passes_stored passes] at kept
        obtain ⟨secret,held,rfl⟩ := Option.map_eq_some_iff.mp kept
        exact ⟨rfl,rfl,held,(passes_draft passes secret).mp same⟩
      rcases handle_ends run with ⟨_,refused | ⟨_,row₁,auth₁,passes,completed⟩⟩ |
        ⟨_,row₁,auth₁,_,_,_,passes,live,marked,_⟩
      · exact refused
      · obtain ⟨rfl,rfl,held,mine⟩ := stored_secret passes
        exact absurd ((agrees _ _ passes).2 completed _ held mine) differs
      · obtain ⟨rfl,rfl,held,_⟩ := stored_secret passes
        obtain ⟨r₁,here₁,_,state⟩ := markSenderCompleted_ok marked
        cases here₁.symm.trans passes.1
        rcases state with resumable | completed
        · have agreed := ((agrees _ _ passes).1 resumable).1
          exact absurd (Option.some.inj (agreed.symm.trans held)) differs
        · rw [completed] at live
          cases live

end Handler

private def keyed : KeyedHash := ⟨some,fun key d => key + d.transferId⟩

private def delivered : TargetedAuthorization := ⟨7,7,1,2,3,3,1,1,1,5,4,7⟩

/-- The delivered authorization with another secret, and a digest under that secret. -/
private def forged : CompletionMessage := ⟨7,1,some ⟨{ delivered with authSecret := 8 },some 15⟩⟩

theorem forged_secret_completes :
    (device sender (· = .new)).system.run ⟨.new,[]⟩ approving = some approvedConf ∧
    (approved.store.getRow 7).bind (storedAuthorization sender approved) = some delivered ∧
    ¬Authentic sender keyed 2 approved forged := by
  refine ⟨approved_reached,rfl,fun authentic => ?_⟩
  obtain ⟨t,run,moved⟩ := handle_records
    (show Passes sender keyed 2 approved forged _ _ from ⟨rfl,rfl,rfl⟩) (.inl rfl)
  obtain ⟨row,auth,here,presented,stored⟩ := authentic.moves _ t run (moved rfl)
  cases here
  cases presented
  cases stored

end Vnidrop.Targeted.Completion
