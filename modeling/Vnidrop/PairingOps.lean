import Vnidrop.PairingCalls

/-! Which kinds of operations the calls of the saved-device domain can come to. A property
that a kind keeps is kept by every program without the other kinds. -/
namespace Vnidrop.Pairing

open Programs

inductive Kind where
  | findRow
  | upsert
  | setPendingGeneration
  | setIssuedGrant
  | setHeldGrant
  | setAcks
  | setState
  | beginGrantRotation
  | refreshAuthenticatedPeer
  | deleteRow
  | countActiveSlots
  | generationFloor
  | insertTombstone
  | findTombstone
  | listExpiredPendingPeers
  | eligibilitiesFor
  | expiredEligibilities
  | findBySession
  | insertEligibility
  | deleteEligibility
  | completeReceiverDelivery
  | protect
  | load
  | remove
  | isBlocked
  | blockEndpoint
  | unblockEndpoint
  | lockPeer
  | unlockPeer
  | generate
  | nowMs
  | cancelTargetedTransfers
  | peerAddr
  | send
  | await
  | answer
  | returned
  | verification
  | taken
  deriving DecidableEq, Repr

def RelationshipWrite.kind : RelationshipWrite → Kind
  | .upsert _ => .upsert
  | .setPendingGeneration .. => .setPendingGeneration
  | .setIssuedGrant .. => .setIssuedGrant
  | .setHeldGrant .. => .setHeldGrant
  | .setAcks .. => .setAcks
  | .setState _ => .setState
  | .beginGrantRotation _ => .beginGrantRotation
  | .refreshAuthenticatedPeer .. => .refreshAuthenticatedPeer
  | .delete => .deleteRow

def Op.kind : Op → Kind
  | .findRow _ => .findRow
  | .writeRow _ w => w.kind
  | .countActiveSlots => .countActiveSlots
  | .generationFloor _ => .generationFloor
  | .insertTombstone .. => .insertTombstone
  | .findTombstone .. => .findTombstone
  | .listExpiredPendingPeers _ => .listExpiredPendingPeers
  | .eligibilitiesFor _ => .eligibilitiesFor
  | .expiredEligibilities _ => .expiredEligibilities
  | .findBySession _ => .findBySession
  | .insertEligibility _ => .insertEligibility
  | .deleteEligibility _ => .deleteEligibility
  | .completeReceiverDelivery .. => .completeReceiverDelivery
  | .protect _ => .protect
  | .load _ => .load
  | .remove _ => .remove
  | .isBlocked _ => .isBlocked
  | .blockEndpoint _ => .blockEndpoint
  | .unblockEndpoint _ => .unblockEndpoint
  | .lockPeer _ => .lockPeer
  | .unlockPeer _ => .unlockPeer
  | .generate => .generate
  | .nowMs => .nowMs
  | .cancelTargetedTransfers _ => .cancelTargetedTransfers
  | .peerAddr _ => .peerAddr
  | .send .. => .send
  | .awaitRequest _ | .awaitConsent _ | .awaitAck _ => .await
  | .answer .. => .answer
  | .returned _ => .returned
  | .verification .. => .verification
  | .taken _ => .taken

/-- What an observed operation is. -/
theorem domain_exec {η : Type} {l : Local} {stored : Device → Prop} {first : η}
    {record : η → Device → Nat → Call → (op : Op) → Ans op → η} {witness : η → Device → Empty → η}
    {s t : Observed Device η} {i : Nat} {call : Call} {o : Op} {c : Choice} {r : Ans o}
    (h : ((domain l stored).observe first record witness).exec s i call o c = some (r,t)) :
    ∃ d, s.state.exec l i c o = some (r,d) ∧ t = ⟨d,record s.history s.state i call o r⟩ :=
  observe_exec h

/-! What the operations do to the relationships. -/

section Rows

variable {l : Local} {s t : Device} {i : Nat} {c : Choice} {peer : EndpointId}

theorem exec_writeRow {w : RelationshipWrite} {r : Except VnidropError Bool}
    (h : s.exec l i c (.writeRow peer w) = some (r,t)) :
    (c.fails = true ∧ r = .error Device.unavailable ∧ t = s) ∨
    (c.fails = false ∧ r = .ok (s.relationships.write peer c.now w).1 ∧
      t = { s with relationships := (s.relationships.write peer c.now w).2 }) := by
  change Device.attempt s c _ _ = _ at h
  unfold Device.attempt at h
  split at h
  · rename_i failed
    cases h
    exact .inl ⟨failed,rfl,rfl⟩
  · rename_i fine
    cases h
    exact .inr ⟨Bool.eq_false_iff.mpr fine,rfl,rfl⟩

/-- Only statements on the rows change them. -/
theorem exec_relationships {o : Op} {r : Ans o} (h : s.exec l i c o = some (r,t))
    (reads : ∀ peer w, o ≠ .writeRow peer w) : t.relationships = s.relationships := by
  cases o with
  | writeRow peer w => exact absurd rfl (reads peer w)
  | _ =>
    simp only [Device.exec,Device.read,Device.attempt] at h
    repeat' split at h
    all_goals first
      | (cases h; done)
      | (cases h; rfl)

theorem exec_insertTombstone {row : RelationshipRow} {r : Except VnidropError Unit}
    (h : s.exec l i c (.insertTombstone peer row) = some (r,t)) :
    (r = .error Device.unavailable ∧ t = s) ∨
    (r = .ok () ∧ t = s.insertTombstone peer row.generation) := by
  change Device.attempt s c _ _ = _ at h
  unfold Device.attempt at h
  split at h <;> cases h
  · exact .inl ⟨rfl,rfl⟩
  · exact .inr ⟨rfl,rfl⟩

theorem exec_tombstones {o : Op} {r : Ans o} (h : s.exec l i c o = some (r,t))
    (other : ∀ peer row, o ≠ .insertTombstone peer row) : t.tombstones = s.tombstones := by
  cases o with
  | insertTombstone peer row => exact absurd rfl (other peer row)
  | _ =>
    simp only [Device.exec,Device.read,Device.attempt] at h
    repeat' split at h
    all_goals first
      | (cases h; done)
      | (cases h; rfl)

theorem exec_locks {o : Op} {r : Ans o} (h : s.exec l i c o = some (r,t))
    (other : ∀ peer, o ≠ .lockPeer peer ∧ o ≠ .unlockPeer peer) : t.locks = s.locks := by
  cases o with
  | lockPeer peer => exact absurd rfl (other peer).1
  | unlockPeer peer => exact absurd rfl (other peer).2
  | _ =>
    simp only [Device.exec,Device.read,Device.attempt] at h
    repeat' split at h
    all_goals first
      | (cases h; done)
      | (cases h; rfl)

theorem exec_findRow {r : Except VnidropError (Option RelationshipRow)}
    (h : s.exec l i c (.findRow peer) = some (r,t)) :
    t = s ∧ ∀ row, r = .ok row → row = (s.relationships.find peer).map (·.row) := by
  change Device.read s c _ = _ at h
  unfold Device.read at h
  cases h
  refine ⟨rfl,fun row fine => ?_⟩
  split at fine <;> cases fine
  rfl

theorem exec_load {handle : Handle} {secret : Text}
    (h : s.exec l i c (.load handle) = some (.ok secret,t)) :
    c.fails = false ∧ s.custody handle = some secret := by
  simp only [Device.exec] at h
  split at h
  · rename_i material held
    unfold Device.read at h
    split at h
    · cases h
    · rename_i fine
      cases h
      exact ⟨Bool.eq_false_iff.mpr fine,held⟩
  · cases h

end Rows

abbrev Uses {α : Type} (kinds : List Kind) (p : Task α) : Prop :=
  p.All fun o => kinds.contains o.kind = true

/-- The program comes to no operation of these kinds. -/
abbrev Avoids {α : Type} (kinds : List Kind) (p : Task α) : Prop :=
  p.All fun o => kinds.contains o.kind = false

section Uses

variable {α : Type} {l : Local} {peer : EndpointId}

theorem Uses.all {kinds : List Kind} {p : Task α} {ok : Op → Prop} (uses : Uses kinds p)
    (fine : ∀ o, kinds.contains o.kind = true → ok o) : p.All ok := by
  induction p with
  | ret a => trivial
  | step o k ih => exact ⟨fine o uses.1,fun r => ih r (uses.2 r)⟩

theorem Uses.mono {few many : List Kind} {p : Task α} (uses : Uses few p)
    (subset : ∀ k ∈ few, k ∈ many) : Uses many p :=
  uses.all fun _ used => List.contains_iff_mem.mpr (subset _ (List.contains_iff_mem.mp used))

theorem Uses.avoids {kinds others : List Kind} {p : Task α} (uses : Uses kinds p)
    (apart : (kinds.all fun k => !others.contains k) = true) : Avoids others p :=
  uses.all fun _ used => Bool.not_eq_true' _ ▸
    List.all_eq_true.mp apart _ (List.contains_iff_mem.mp used)

/-! Eligibility. -/

abbrev dropsEligibility : List Kind := [.nowMs,.expiredEligibilities,.eligibilitiesFor,.findBySession,
  .remove,.deleteEligibility]

theorem deleteEntry_uses (entry : PairingEligibilityRecord) :
    Uses dropsEligibility (deleteEntry l entry) := by
  unfold deleteEntry
  split
  · exact Prog.all_bind (Prog.all_perform (by rfl)) fun _ => Prog.all_perform (by rfl)
  · exact Prog.all_perform (by rfl)

theorem deleteEntries_uses (entries : List PairingEligibilityRecord) :
    Uses dropsEligibility (deleteEntries l entries) := by
  induction entries with
  | nil => trivial
  | cons entry entries ih => exact Prog.all_andThen (deleteEntry_uses entry) fun _ => ih

theorem expireDue_uses : Uses dropsEligibility (expireDue l) :=
  Prog.all_bind (Prog.all_perform (by rfl)) fun _ =>
    Prog.all_andThen (Prog.all_perform (by rfl)) deleteEntries_uses

theorem removeForPeer_uses : Uses dropsEligibility (removeForPeer l peer) :=
  Prog.all_andThen (Prog.all_perform (by rfl)) deleteEntries_uses

theorem consumeSession_uses (sessionId : SessionId) :
    Uses dropsEligibility (consumeSession l peer sessionId) := by
  refine Prog.all_andThen (Prog.all_perform (by rfl)) fun found => ?_
  cases found with
  | none => trivial
  | some entry =>
    change Uses _ (if entry.peerEndpointId = peer then _ else _)
    split
    · exact deleteEntry_uses entry
    · trivial

theorem consumeFor_uses (sessionId : Option SessionId) :
    Uses dropsEligibility (consumeFor l peer sessionId) := by
  cases sessionId with
  | none => trivial
  | some sessionId => exact Prog.all_bind (consumeSession_uses sessionId) fun _ => trivial

abbrev activates : List Kind :=
  .refreshAuthenticatedPeer :: .protect :: .insertEligibility :: dropsEligibility

theorem activate_uses (name : Option String) (sessionId : SessionId) (token : Text) :
    Uses activates (activateAfterCompletedTransfer l peer name sessionId token) := by
  unfold activateAfterCompletedTransfer insertEntry write
  repeat' first
    | exact trivial
    | exact Prog.all_perform (by rfl)
    | exact removeForPeer_uses.mono (by decide)
    | refine Prog.all_bind ?_ fun _ => ?_
    | refine Prog.all_andThen ?_ fun _ => ?_
    | dsimp only
    | split

theorem completeDelivery_uses (receipt : DeliveryReceipt) :
    Uses (.completeReceiverDelivery :: activates) (completeDelivery l peer receipt) := by
  refine Prog.all_bind (Prog.all_perform (by rfl)) fun answer => ?_
  cases answer with
  | ok name => exact Prog.all_bind ((activate_uses ..).mono (by decide)) fun _ => trivial
  | error e => trivial

theorem takeEntry_uses (entry : PairingEligibilityRecord) :
    Uses (.load :: .taken :: dropsEligibility) (takeEntry l entry) := by
  unfold takeEntry
  repeat' first
    | exact trivial
    | exact Prog.all_perform (by rfl)
    | exact (deleteEntry_uses entry).mono (by decide)
    | refine Prog.all_bind ?_ fun _ => ?_
    | refine Prog.all_andThen ?_ fun _ => ?_
    | dsimp only
    | split

theorem takeEligibility_uses : Uses (.load :: .taken :: dropsEligibility) (takeEligibility l peer) := by
  refine Prog.all_andThen (expireDue_uses.mono (by decide)) fun _ =>
    Prog.all_andThen (Prog.all_perform (by rfl)) fun entries => ?_
  cases entries with
  | nil => trivial
  | cons entry entries => exact takeEntry_uses entry

theorem validate_uses (sessionId : SessionId) (capability : Text) :
    Uses (.load :: dropsEligibility) (validatePresentedCapability l peer sessionId capability) := by
  unfold validatePresentedCapability
  repeat' first
    | exact trivial
    | exact Prog.all_perform (by rfl)
    | exact expireDue_uses.mono (by decide)
    | refine Prog.all_bind ?_ fun _ => ?_
    | refine Prog.all_andThen ?_ fun _ => ?_
    | dsimp only
    | split

/-! Relationships. -/

theorem removeAll_uses (handles : List Handle) : Uses [.remove] (removeAll handles) := by
  induction handles with
  | nil => trivial
  | cons handle handles ih => exact Prog.all_bind (Prog.all_perform (by rfl)) fun _ => ih

theorem clearGrantSecrets_uses (row : RelationshipRow) : Uses [.remove] (clearGrantSecrets l row) := by
  unfold clearGrantSecrets
  split
  · exact removeAll_uses _
  · trivial

theorem deleteRelationship_uses : Uses [.findRow,.remove,.deleteRow] (deleteRelationship l peer) := by
  unfold deleteRelationship write
  repeat' first
    | exact trivial
    | exact Prog.all_perform (by rfl)
    | exact (clearGrantSecrets_uses _).mono (by decide)
    | refine Prog.all_bind ?_ fun _ => ?_
    | dsimp only
    | split

theorem deleteEach_uses (peers : List EndpointId) :
    Uses [.findRow,.remove,.deleteRow] (deleteEach l peers) := by
  induction peers with
  | nil => trivial
  | cons peer peers ih => exact Prog.all_andThen deleteRelationship_uses fun _ => ih

theorem expirePending_uses :
    Uses [.nowMs,.listExpiredPendingPeers,.findRow,.remove,.deleteRow] (expirePending l) :=
  Prog.all_bind (Prog.all_perform (by rfl)) fun _ =>
    Prog.all_andThen (Prog.all_perform (by rfl)) fun peers => (deleteEach_uses peers).mono (by decide)

theorem canCreate_uses : Uses [.findRow,.countActiveSlots] (canCreateNewRelationship l peer) := by
  refine Prog.all_andThen (Prog.all_perform (by rfl)) fun row => ?_
  split
  · trivial
  · exact Prog.all_andThen (Prog.all_perform (by rfl)) fun _ => trivial

theorem nextGeneration_uses : Uses [.generationFloor] (nextGeneration peer) := by
  refine Prog.all_andThen (Prog.all_perform (by rfl)) fun floor => ?_
  split <;> trivial

theorem adopt_uses (sessionId : SessionId) (generation : Nat) :
    Uses [.findRow,.setPendingGeneration] (adoptPendingGeneration peer sessionId generation) := by
  unfold adoptPendingGeneration invalid fail write
  repeat' first
    | exact trivial
    | exact Prog.all_perform (by rfl)
    | refine Prog.all_andThen ?_ fun _ => ?_
    | dsimp only
    | split

theorem mint_uses (generation protocolVersion : Nat) : Uses [.generate,.protect,.setIssuedGrant]
    (mintAndStoreIssuedGrant l peer generation protocolVersion) := by
  unfold mintAndStoreIssuedGrant custodyRequired fail write
  repeat' first
    | exact trivial
    | exact Prog.all_perform (by rfl)
    | refine Prog.all_bind ?_ fun _ => ?_
    | refine Prog.all_andThen ?_ fun _ => ?_
    | dsimp only
    | split

theorem storeHeldGrant_uses (grant : WireGrant) :
    Uses [.protect,.setHeldGrant] (storeHeldGrant l peer grant) := by
  unfold storeHeldGrant custodyRequired invalid fail write
  repeat' first
    | exact trivial
    | exact Prog.all_perform (by rfl)
    | refine Prog.all_andThen ?_ fun _ => ?_
    | dsimp only
    | split

theorem prove_uses (challenge : Text) (generation protocolVersion : Nat) :
    Uses [.findRow,.load] (proveHeldPossession l peer challenge generation protocolVersion) := by
  unfold proveHeldPossession custodyRequired invalid fail
  repeat' first
    | exact trivial
    | exact Prog.all_perform (by rfl)
    | refine Prog.all_andThen ?_ fun _ => ?_
    | dsimp only
    | split

theorem rejectReplayed_uses (generation : Nat) :
    Uses [.findTombstone,.findRow] (rejectReplayedGeneration peer generation) := by
  unfold rejectReplayedGeneration
  repeat' first
    | exact trivial
    | exact Prog.all_perform (by rfl)
    | refine Prog.all_bind ?_ fun _ => ?_
    | dsimp only
    | split

theorem compareProof_uses (challenge : Text) (proof : WireProof) (generation protocolVersion : Nat) :
    Uses [.findRow,.load] (compareProof l peer challenge proof generation protocolVersion) := by
  unfold compareProof custodyRequired invalid fail
  repeat' first
    | exact trivial
    | exact Prog.all_perform (by rfl)
    | refine Prog.all_andThen ?_ fun _ => ?_
    | dsimp only
    | split

abbrev verifies : List Kind := [.findTombstone,.findRow,.load,.verification]

theorem checkPossession_uses (challenge : Text) (proof : WireProof) (generation protocolVersion : Nat) :
    Uses [.findTombstone,.findRow,.load]
      (checkPossession l peer challenge proof generation protocolVersion) := by
  refine Prog.all_bind ((rejectReplayed_uses generation).mono (by decide)) fun rejection => ?_
  cases rejection with
  | some rejection => trivial
  | none => exact (compareProof_uses ..).mono (by decide)

theorem verifyIssued_uses (challenge : Text) (proof : WireProof) (generation protocolVersion : Nat) :
    Uses verifies (verifyIssuedPossession l peer challenge proof generation protocolVersion) := by
  refine Prog.all_bind ((checkPossession_uses ..).mono (by decide)) fun outcome => ?_
  cases outcome <;> exact Prog.all_bind (Prog.all_perform (by rfl)) fun _ => trivial

/-! The exchange. -/

abbrev exchanges : List Kind := [.generate,.protect,.setIssuedGrant,.setHeldGrant,.setAcks,.setState,
  .peerAddr,.send,.await] ++ verifies

theorem finishConsent_uses (challenge : Text) (generation protocolVersion : Nat)
    (response : Option PairingConsentResponse) :
    Uses exchanges (finishConsent l peer challenge generation protocolVersion response) := by
  unfold finishConsent activateSaved invalid fail write
  repeat' first
    | exact trivial
    | exact Prog.all_perform (by rfl)
    | exact (verifyIssued_uses ..).mono (by decide)
    | exact (storeHeldGrant_uses _).mono (by decide)
    | exact (prove_uses ..).mono (by decide)
    | refine Prog.all_bind ?_ fun _ => ?_
    | refine Prog.all_andThen ?_ fun _ => ?_
    | dsimp only
    | split

theorem mintForMerge_uses (generation protocolVersion : Nat) :
    Uses (.findRow :: [.generate,.protect,.setIssuedGrant])
      (mintForMerge l peer generation protocolVersion) := by
  unfold mintForMerge
  repeat' first
    | exact trivial
    | exact Prog.all_perform (by rfl)
    | exact (mint_uses ..).mono (by decide)
    | refine Prog.all_bind ?_ fun _ => ?_
    | refine Prog.all_andThen ?_ fun _ => ?_
    | dsimp only
    | split

abbrev locks : List Kind := [.lockPeer,.unlockPeer]

theorem merge_uses (generation protocolVersion : Nat) :
    Uses (locks ++ exchanges) (completeSimultaneousMerge l peer generation protocolVersion) := by
  unfold completeSimultaneousMerge
  repeat' first
    | exact trivial
    | exact Prog.all_perform (by rfl)
    | exact (mintForMerge_uses ..).mono (by decide)
    | exact (finishConsent_uses ..).mono (by decide)
    | refine Prog.all_bind ?_ fun _ => ?_
    | refine Prog.all_andThen ?_ fun _ => ?_
    | dsimp only
    | split

theorem finishRequest_uses (taken : TakenEligibility) (response : Option PairingRequestResponse) :
    Uses (.setPendingGeneration :: locks ++ exchanges) (finishRequest l peer taken response) := by
  unfold finishRequest activateSaved write
  repeat' first
    | exact trivial
    | exact Prog.all_perform (by rfl)
    | exact (adopt_uses ..).mono (by decide)
    | exact (merge_uses ..).mono (by decide)
    | refine Prog.all_andThen ?_ fun _ => ?_
    | dsimp only
    | split

theorem notify_uses (row : RelationshipRow) : Uses [.peerAddr,.send] (notifyRemoteRevoke peer row) := by
  unfold notifyRemoteRevoke
  repeat' first
    | exact trivial
    | exact Prog.all_perform (by rfl)
    | refine Prog.all_bind ?_ fun _ => ?_
    | dsimp only
    | split

theorem staleNotice_uses (row : RelationshipRow) (generation : Nat) :
    Uses [.findTombstone] (staleNotice peer row generation) := by
  unfold staleNotice
  repeat' first
    | exact trivial
    | exact Prog.all_perform (by rfl)
    | refine Prog.all_bind ?_ fun _ => ?_
    | dsimp only
    | split

end Uses

end Vnidrop.Pairing
