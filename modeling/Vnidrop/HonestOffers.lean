import Vnidrop.IdentityCooldown
import Vnidrop.ImportedReceivable
import Vnidrop.PairingCalls
import Vnidrop.TargetedDevice

/-! The offer of a prepared transfer, and what its receiver makes of it: `handle_offer` up to
the prompt. -/
namespace Vnidrop.Offers

open Excepts Imports Paths Pairing Programs

inductive CoreRelayMode where
  | automatic
  | strictCustom
  | customWithDirectFallback
  | localOnly
  deriving DecidableEq

/-- Relay addresses, by number: their text, which parses to them. -/
structure RelayUrls where
  text : Nat → Str
  parse : Str → Option Nat
  parse_text : ∀ url, parse (text url) = some url

/-- The addresses are compared as sets. -/
def relayProfilesCompatible (localMode : CoreRelayMode) (localUrls : List Nat)
    (remoteMode : CoreRelayMode) (remoteUrls : List Nat) : Bool :=
  match localMode, remoteMode with
  | .automatic, .automatic | .localOnly, .localOnly | .localOnly, .automatic | .automatic, .localOnly =>
    localUrls.isEmpty && remoteUrls.isEmpty
  | .strictCustom, .strictCustom | .strictCustom, .customWithDirectFallback
  | .customWithDirectFallback, .strictCustom | .customWithDirectFallback, .customWithDirectFallback =>
    !localUrls.isEmpty && localUrls.all (remoteUrls.contains ·) && remoteUrls.all (localUrls.contains ·)
  | _, _ => false

/-- `CoreLimits::validate_metadata_text`. -/
def validateMetadataText (limits : CoreLimits) (field : String) (value : Option Str) : Except String Unit :=
  match value with
  | some value =>
    if limits.maxMetadataBytes < utf8Len value then
      .error (field ++ " is " ++ toString (utf8Len value) ++ " bytes, limit is " ++
        toString limits.maxMetadataBytes)
    else .ok ()
  | none => .ok ()

/-! The sender. -/

structure SubmitTargetedOffer where
  proof : WireProof
  generation : Nat
  relationshipProtocolVersion : Nat
  protocolVersion : Nat
  transferId : Str
  senderEndpointId : EndpointId
  receiverEndpointId : EndpointId
  manifestId : Str
  contentHash : Str
  transferName : Str
  fileCount : Nat
  totalSize : Nat
  relayMode : CoreRelayMode
  relayUrls : List Str

/-- What the devices agree on or are configured with. -/
structure Config where
  endpointId : EndpointId
  targetedTransferProtocolVersion : Nat
  limits : CoreLimits
  relayMode : CoreRelayMode
  customRelayUrls : List Nat

/-- The checks of `prepare_targeted_transfer` before the import. -/
def prepareChecks (limits : CoreLimits) (sources : List ShareSource) (transferName : Option Str) :
    Except VnidropError Unit :=
  if sources.isEmpty then .error (.invalidInput "at least one source is required")
  else if limits.maxSources < sources.length then
    .error (.invalidInput ("source count " ++ toString sources.length ++ " exceeds limit " ++
      toString limits.maxSources))
  else (validateMetadataText limits "transfer name" transferName).mapError .invalidInput

/-- The sources are accepted, and make this collection. -/
structure Prepared (fs : Filesystem) (limits : CoreLimits) (sources : List ShareSource)
    (transferName : Option Str) (c : TransferImport) : Prop where
  checks : prepareChecks limits sources transferName = .ok ()
  imported : Imported fs limits sources c

def payloadName (transferName : Option Str) (c : TransferImport) : Str :=
  (transferName.bind nonEmpty).getD c.defaultName

def proveSavedPossession (l : Pairing.Local) (peer : EndpointId) (challenge : Text) :
    Pairing.Task (Outcome (WireProof × Nat × Nat)) :=
  Prog.andThen (Pairing.op (.findRow peer)) fun row =>
    match row with
    | none => fail (.permission "no saved relationship with peer")
    | some row =>
      if row.state ≠ .saved then fail (.permission "peer is not a saved device")
      else (proveHeldPossession l peer challenge row.generation row.minimumProtocolVersion).andThen
        fun proof => return .ok (proof,row.generation,row.minimumProtocolVersion)

/-- The offer of `continue_targeted_transfer`. -/
def offerOf (urls : RelayUrls) (config : Config) (receiver : EndpointId) (transferId manifestId : Str)
    (transferName : Option Str) (c : TransferImport) (proof : WireProof × Nat × Nat) :
    SubmitTargetedOffer where
  proof := proof.1
  generation := proof.2.1
  relationshipProtocolVersion := proof.2.2
  protocolVersion := config.targetedTransferProtocolVersion
  transferId := transferId
  senderEndpointId := config.endpointId
  receiverEndpointId := receiver
  manifestId := manifestId
  contentHash := manifestId
  transferName := payloadName transferName c
  fileCount := c.fileCount
  totalSize := c.totalSize
  relayMode := config.relayMode
  relayUrls := config.customRelayUrls.map urls.text

/-! The receiver. -/

structure PendingTargetedOffer where
  transferId : Str
  senderEndpointId : EndpointId
  receiverEndpointId : EndpointId
  manifestId : Str
  contentHash : Str
  transferName : Str
  fileCount : Nat
  totalSize : Nat
  protocolVersion : Nat
  receivedAt : Millis
  deriving DecidableEq

inductive SettledOfferResult where
  | accepted (authorization : Option Text)
  | declined (reason : String)
  deriving DecidableEq

/-- The columns of a stored transfer that an offer is compared with. -/
structure StoredTransfer where
  manifestId : Str
  contentHash : Str
  fileCount : Nat
  totalSize : Nat
  senderEndpointId : EndpointId
  receiverEndpointId : EndpointId
  state : Targeted.TargetedTransferState
  deriving DecidableEq

structure Receiver extends Config where
  cooldown : IdentityCooldown
  pending : List PendingTargetedOffer
  settled : Str → Option SettledOfferResult
  rows : Str → Option StoredTransfer

/-- The offer is answered, or it waits: for the local user if it is a new one, else for the
decision on the offer that is already pending. -/
inductive Intake where
  | answered (response : Targeted.WireOfferResponse)
  | prompted
  | joined
  deriving DecidableEq

abbrev Outcome := Intake × Receiver

def refused (r : Receiver) (reason : String) : Outcome := (.answered (.refused reason),r)

def malformed (r : Receiver) (now : Millis) (remote : EndpointId) (reason : String) : Outcome :=
  (.answered (.refused reason),{ r with
    cooldown := r.cooldown.recordMalformed (asI64 r.limits.identityCooldownMs)
      (r.limits.malformedStrikeLimit % 4294967296) now remote })

def exceedsManifestLimits (limits : CoreLimits) (offer : SubmitTargetedOffer) : Bool :=
  offer.fileCount = 0 || limits.maxCollectionFiles < offer.fileCount ||
  offer.totalSize = 0 || limits.maxTotalBytes < offer.totalSize ||
  offer.transferId.isEmpty || offer.manifestId.isEmpty || offer.contentHash.isEmpty

def existingRowResponse (existing : StoredTransfer) (offer : SubmitTargetedOffer) :
    Targeted.WireOfferResponse :=
  if existing.manifestId ≠ offer.manifestId ∨ existing.contentHash ≠ offer.contentHash ∨
      existing.fileCount ≠ offer.fileCount ∨ existing.totalSize ≠ offer.totalSize ∨
      existing.senderEndpointId ≠ offer.senderEndpointId ∨
      existing.receiverEndpointId ≠ offer.receiverEndpointId then
    .refused "immutable-transfer-mismatch"
  else match existing.state with
    | .approved | .connecting | .transferring | .interrupted | .completed => .accepted
    | .declined => .declined "receiver-declined"
    | .cancelled => .declined "cancelled"
    | .failed | .deleted => .refused ("transfer-" ++ existing.state.asStr)
    | .preparing | .offering | .awaitingApproval => .accepted

/-- The checks of `handle_offer` before the proof is verified. -/
def screen (urls : RelayUrls) (r : Receiver) (now : Millis) (remote : EndpointId)
    (offer : SubmitTargetedOffer) : Except Outcome Unit :=
  if r.cooldown.isCooling now remote then .error (refused r "identity-cooldown")
  else if offer.protocolVersion ≠ r.targetedTransferProtocolVersion then
    .error (malformed r now remote "protocol-incompatible")
  else if offer.receiverEndpointId ≠ r.endpointId then .error (malformed r now remote "receiver-mismatch")
  else if offer.senderEndpointId ≠ remote then .error (malformed r now remote "sender-mismatch")
  else if exceedsManifestLimits r.limits offer then .error (malformed r now remote "manifest-limits")
  else
    match validateMetadataText r.limits "transfer name" (some offer.transferName) with
    | .error reason => .error (malformed r now remote reason)
    | .ok _ =>
      match r.rows offer.transferId with
      | some existing => .error (.answered (existingRowResponse existing offer),r)
      | none =>
        match offer.relayUrls.mapM urls.parse with
        | none => .error (refused r "relay-policy-incompatible")
        | some remoteUrls =>
          if relayProfilesCompatible r.relayMode r.customRelayUrls offer.relayMode remoteUrls then .ok ()
          else .error (refused r "relay-policy-incompatible")

def settledToDecision : SettledOfferResult → Targeted.WireOfferResponse
  | .accepted _ => .accepted
  | .declined reason => .declined reason

def offersEquivalent (left right : PendingTargetedOffer) : Bool :=
  left.transferId = right.transferId && left.senderEndpointId = right.senderEndpointId &&
  left.receiverEndpointId = right.receiverEndpointId && left.manifestId = right.manifestId &&
  left.contentHash = right.contentHash && left.transferName = right.transferName &&
  left.fileCount = right.fileCount && left.totalSize = right.totalSize &&
  left.protocolVersion = right.protocolVersion

/-- `submit` up to the wait for a decision. -/
def submit (r : Receiver) (now : Millis) (offer : PendingTargetedOffer) : Outcome :=
  if r.cooldown.isCooling now offer.senderEndpointId then refused r "identity-cooldown"
  else
    match r.settled offer.transferId with
    | some settled => (.answered (settledToDecision settled),r)
    | none =>
      match r.pending.find? fun o => o.transferId = offer.transferId with
      | some existing =>
        if offersEquivalent existing offer then (.joined,r)
        else refused r "immutable-transfer-mismatch"
      | none =>
        if r.pending.any fun o => o.senderEndpointId = offer.senderEndpointId then
          refused r "offer-already-pending"
        else if r.limits.maxPendingOffers ≤ r.pending.length then refused r "too-many-pending-offers"
        else (.prompted,{ r with
          pending := offer :: r.pending
          cooldown := r.cooldown.clearStrikes offer.senderEndpointId })

def pendingOf (r : Receiver) (remote : EndpointId) (offer : SubmitTargetedOffer) (now : Millis) :
    PendingTargetedOffer where
  transferId := offer.transferId
  senderEndpointId := remote
  receiverEndpointId := r.endpointId
  manifestId := offer.manifestId
  contentHash := offer.contentHash
  transferName := offer.transferName
  fileCount := offer.fileCount
  totalSize := offer.totalSize
  protocolVersion := offer.protocolVersion
  receivedAt := now

def unproven : VnidropError → String
  | .protocolIncompatible _ => "protocol-incompatible"
  | _ => "unauthenticated"

/-- What `is_cooling` leaves. -/
def Receiver.look (r : Receiver) (now : Millis) : Receiver := { r with cooldown := r.cooldown.prune now }

def handleOffer (l : Pairing.Local) (urls : RelayUrls) (r : Receiver) (now : Millis) (remote : EndpointId)
    (challenge : Text) (offer : SubmitTargetedOffer) : Pairing.Task Outcome :=
  match screen urls (r.look now) now remote offer with
  | .error outcome => return outcome
  | .ok _ => do
    match ← verifySavedPossession l remote challenge offer.proof offer.generation
      offer.relationshipProtocolVersion with
    | .error e => return malformed (r.look now) now remote (unproven e)
    | .ok _ => return submit (r.look now) now (pendingOf r remote offer now)

/-! Two devices that have saved each other. -/

/-- An operation that does not fail. -/
def working (l : Pairing.Local) (d : Pairing.Device) (c : Pairing.Choice) (o : Pairing.Op) :
    Option (Pairing.Ans o × Pairing.Device) :=
  if c.fails then none else d.exec l 0 c o

/-- The rows of the two devices, at one generation and one protocol version: the grant that
the sender holds is the one that the receiver has issued. -/
structure SavedPair (sender receiver : Pairing.Local) (ds dr : Pairing.Device) (held issued : Relationship)
    (grant secret : Text) (heldAt issuedAt : Handle) : Prop where
  heldRow : ds.relationships.find receiver.endpointId = some held
  issuedRow : dr.relationships.find sender.endpointId = some issued
  saved : held.state = .saved ∧ issued.state = .saved
  generation : held.row.generation = issued.row.generation
  version : held.minimumProtocolVersion = issued.minimumProtocolVersion
  grants : held.heldGrantId = some grant ∧ issued.issuedGrantId = some grant
  handles : held.heldGrantHandle = some heldAt ∧ issued.issuedGrantHandle = some issuedAt
  secrets : ds.custody heldAt = some secret ∧ dr.custody issuedAt = some secret
  live : asI64 issued.row.generation ∉ dr.tombstones sender.endpointId
  custody : sender.hasCustody = true ∧ receiver.hasCustody = true
  mac : receiver.relationshipMac = sender.relationshipMac
  decodes : sender.decodesGrantId grant = true ∧ receiver.decodesGrantId grant = true ∧
    ∀ s c i h n v, receiver.decodesMac (sender.relationshipMac s c i h n v) = true

section Proofs

variable {α β : Type} {l : Pairing.Local} {d e : Pairing.Device} {a : α} {peer : EndpointId}

/-- What works without changing anything. -/
theorem alone_reads {o : Pairing.Op} {v : Pairing.Ans o} {f : Pairing.Ans o → Pairing.Task α}
    (reads : ∀ c, c.fails = false → d.exec l 0 c o = some (v,d)) :
    Alone (working l) (Pairing.op o >>= f) d a e ↔ Alone (working l) (f v) d a e := by
  rw [show Pairing.op o = Prog.perform o from rfl,alone_perform]
  constructor
  · rintro ⟨c,r,u,performed,rest⟩
    unfold working at performed
    split at performed
    · cases performed
    · rename_i works
      rw [reads c (by simpa using works)] at performed
      cases performed
      exact rest
  · intro rest
    refine ⟨⟨0,false,0,none,none,none⟩,v,d,?_,rest⟩
    unfold working
    rw [if_neg (by simp)]
    exact reads _ rfl

theorem alone_findRow {f : Option RelationshipRow → Pairing.Task (Pairing.Outcome β)}
    {b : Pairing.Outcome β} : Alone (working l) (Prog.andThen (Pairing.op (.findRow peer)) f) d b e ↔
      Alone (working l) (f ((d.relationships.find peer).map (·.row))) d b e :=
  alone_reads (o := .findRow peer) (v := .ok _) fun c works => by simp [Device.exec,Device.read,works]

theorem alone_load {handle : Handle} {secret : Text} {f : Text → Pairing.Task (Pairing.Outcome β)}
    {b : Pairing.Outcome β} (kept : d.custody handle = some secret) :
    Alone (working l) (Prog.andThen (Pairing.op (.load handle)) f) d b e ↔
      Alone (working l) (f secret) d b e :=
  alone_reads (o := .load handle) (v := .ok secret) fun c works => by
    simp [Device.exec,Device.read,works,kept]

theorem alone_verification {challenge : Text} {generation : Nat} {success : Bool}
    {f : Unit → Pairing.Task α} :
    Alone (working l) (Pairing.op (.verification peer challenge generation success) >>= f) d a e ↔
      Alone (working l) (f ()) d a e :=
  alone_reads (o := .verification peer challenge generation success) (v := ()) fun _ _ => rfl

variable {sender receiver : Pairing.Local} {ds dr : Pairing.Device} {held issued : Relationship}
  {grant secret challenge : Text} {heldAt issuedAt : Handle}

/-- What the sender proves with. -/
def proofOf (sender receiver : Pairing.Local) (held : Relationship) (grant secret challenge : Text) :
    WireProof × Nat × Nat :=
  (⟨grant,sender.relationshipMac secret challenge receiver.endpointId sender.endpointId
    held.row.generation held.minimumProtocolVersion,challenge⟩,
    held.row.generation,held.minimumProtocolVersion)

theorem prove_held (pair : SavedPair sender receiver ds dr held issued grant secret heldAt issuedAt)
    {r : Pairing.Outcome WireProof} :
    Alone (working sender) (proveHeldPossession sender receiver.endpointId challenge held.row.generation
      held.minimumProtocolVersion) ds r e ↔
      r = .ok (proofOf sender receiver held grant secret challenge).1 ∧ e = ds := by
  unfold proveHeldPossession
  rw [if_neg (by simp [pair.custody.1]),alone_findRow,pair.heldRow]
  have handle : held.row.heldGrantHandle = some heldAt := pair.handles.1
  have id : held.row.heldGrantId = some grant := pair.grants.1
  simp only [Option.map_some,handle,id,pair.decodes.1,Bool.not_true,Bool.false_eq_true,if_false]
  rw [alone_load pair.secrets.1]
  exact alone_pure.trans (and_congr eq_comm eq_comm)

theorem prove_saved (pair : SavedPair sender receiver ds dr held issued grant secret heldAt issuedAt)
    {r : Pairing.Outcome (WireProof × Nat × Nat)} :
    Alone (working sender) (proveSavedPossession sender receiver.endpointId challenge) ds r e ↔
      r = .ok (proofOf sender receiver held grant secret challenge) ∧ e = ds := by
  unfold proveSavedPossession
  rw [alone_findRow,pair.heldRow]
  have saved : held.row.state = .saved := pair.saved.1
  simp only [Option.map_some,saved,ne_eq,not_true_eq_false,if_false]
  unfold Prog.andThen
  rw [alone_bind]
  constructor
  · rintro ⟨proof,u,first,rest⟩
    obtain ⟨rfl,rfl⟩ := (prove_held pair).mp first
    exact ⟨rest.1.symm,rest.2.symm⟩
  · rintro ⟨rfl,rfl⟩
    exact ⟨_,_,(prove_held pair).mpr ⟨rfl,rfl⟩,rfl,rfl⟩

theorem not_replayed (pair : SavedPair sender receiver ds dr held issued grant secret heldAt issuedAt)
    {r : Option GrantRejection} :
    Alone (working receiver) (rejectReplayedGeneration sender.endpointId issued.row.generation) dr r e ↔
      r = none ∧ e = dr := by
  unfold rejectReplayedGeneration
  refine (alone_reads (o := .findTombstone sender.endpointId issued.row.generation) (v := .ok false)
    fun c works => by simp [Device.exec,Device.read,works,pair.live]).trans ?_
  refine (alone_reads (o := .findRow sender.endpointId) (v := .ok (some issued.row))
    fun c works => by simp [Device.exec,Device.read,works,pair.issuedRow]).trans ?_
  have saved : issued.row.state = .saved := pair.saved.2
  simp only [saved,decide_true,Bool.or_true,Bool.and_self,if_true]
  exact alone_pure.trans (and_congr eq_comm eq_comm)

theorem compares (pair : SavedPair sender receiver ds dr held issued grant secret heldAt issuedAt)
    {r : Pairing.Outcome Unit} :
    Alone (working receiver) (compareProof receiver sender.endpointId challenge
      (proofOf sender receiver held grant secret challenge).1 issued.row.generation
      issued.minimumProtocolVersion) dr r e ↔ r = .ok () ∧ e = dr := by
  unfold compareProof
  rw [if_neg (by simp [pair.custody.2]),alone_findRow,pair.issuedRow]
  have handle : issued.row.issuedGrantHandle = some issuedAt := pair.handles.2
  have id : issued.row.issuedGrantId = some grant := pair.grants.2
  simp only [Option.map_some,handle,id,proofOf,ne_eq,not_true_eq_false,if_false]
  rw [alone_load pair.secrets.2]
  simp only [pair.decodes.2.1,pair.decodes.2.2,pair.mac,pair.generation,pair.version,Bool.not_true,
    Bool.false_eq_true,if_false,not_true_eq_false]
  exact alone_pure.trans (and_congr eq_comm eq_comm)

theorem verify_saved (pair : SavedPair sender receiver ds dr held issued grant secret heldAt issuedAt)
    {r : Pairing.Outcome Unit} :
    Alone (working receiver) (verifySavedPossession receiver sender.endpointId challenge
      (proofOf sender receiver held grant secret challenge).1 held.row.generation
      held.minimumProtocolVersion) dr r e ↔ r = .ok () ∧ e = dr := by
  unfold verifySavedPossession
  rw [alone_findRow,pair.issuedRow,pair.generation,pair.version]
  have saved : issued.row.state = .saved := pair.saved.2
  have floor : ¬issued.minimumProtocolVersion < issued.row.minimumProtocolVersion := Nat.lt_irrefl _
  simp only [Option.map_some,saved,ne_eq,not_true_eq_false,if_false,floor]
  unfold verifyIssuedPossession checkPossession
  rw [alone_bind]
  constructor
  · rintro ⟨checked,u,first,rest⟩
    obtain ⟨rejection,v,replayed,compared⟩ := alone_bind.mp first
    obtain ⟨rfl,rfl⟩ := (not_replayed pair).mp replayed
    obtain ⟨rfl,rfl⟩ := (compares pair).mp compared
    have ended := alone_verification.mp rest
    exact ⟨ended.1.symm,ended.2.symm⟩
  · rintro ⟨rfl,rfl⟩
    refine ⟨.ok (),_,alone_bind.mpr ⟨none,_,(not_replayed pair).mpr ⟨rfl,rfl⟩,
      (compares pair).mpr ⟨rfl,rfl⟩⟩,alone_verification.mpr ⟨rfl,rfl⟩⟩

end Proofs

/-! The offer of a prepared transfer. -/

section Honest

/-- The receiver has the limits, the protocol version and a compatible relay profile of the
sender, and nothing that concerns the sender or the new transfer. -/
structure Awaits (config : Config) (r : Receiver) (now : Millis) (transferId manifestId : Str) : Prop where
  limits : r.limits = config.limits
  version : r.targetedTransferProtocolVersion = config.targetedTransferProtocolVersion
  relays : relayProfilesCompatible r.relayMode r.customRelayUrls config.relayMode
    config.customRelayUrls = true
  rested : r.cooldown.isCooling now config.endpointId = false
  pending : r.pending = []
  settled : r.settled transferId = none
  rows : r.rows transferId = none
  texts : transferId ≠ [] ∧ manifestId ≠ []

variable {fs : Filesystem} {sources : List ShareSource} {transferName : Option Str} {c : TransferImport}
  {config : Config} {r : Receiver} {now : Millis} {transferId manifestId : Str} {urls : RelayUrls}

theorem utf8Len_sublist {s t : Str} (h : s.Sublist t) : utf8Len s ≤ utf8Len t := by
  unfold utf8Len
  induction h with
  | slnil => exact Nat.le_refl _
  | cons _ _ ih =>
    rw [List.map_cons,List.sum_cons]
    omega
  | cons_cons _ _ ih =>
    rw [List.map_cons,List.map_cons,List.sum_cons,List.sum_cons]
    omega

theorem trim_shorter (s : Str) : utf8Len (Imports.trim s) ≤ utf8Len s := by
  refine utf8Len_sublist ?_
  unfold Imports.trim
  refine List.Sublist.trans ?_ (List.dropWhile_sublist isWhitespace)
  have inner := (List.dropWhile_sublist (l := (s.dropWhile isWhitespace).reverse) isWhitespace).reverse
  rwa [List.reverse_reverse] at inner

theorem parse_texts (relays : List Nat) : (relays.map urls.text).mapM urls.parse = some relays := by
  induction relays with
  | nil => rfl
  | cons url relays ih =>
    rw [List.map_cons,List.mapM_cons,urls.parse_text,ih]
    rfl

/-- The files that are sent have some bytes, and the name they are sent under fits in
`max_metadata_bytes` also if it is the name of the first file or directory. -/
def Announceable (fs : Filesystem) (limits : CoreLimits) (sources : List ShareSource)
    (transferName : Option Str) : Prop :=
  ((allPlaced fs sources).map (·.2)).sum ≠ 0 ∧
  (transferName.bind nonEmpty = none →
    utf8Len ((((allPlaced fs sources).head?).bind (·.1.head?)).getD Imports.transferName) ≤
      limits.maxMetadataBytes)

theorem name_fits (prepared : Prepared fs config.limits sources transferName c) :
    utf8Len (payloadName transferName c) ≤ config.limits.maxMetadataBytes ↔
      (transferName.bind nonEmpty = none →
        utf8Len ((((allPlaced fs sources).head?).bind (·.1.head?)).getD Imports.transferName) ≤
          config.limits.maxMetadataBytes) := by
  have holds := imported_holds prepared.imported
  unfold payloadName
  cases given : transferName.bind nonEmpty with
  | none =>
    rw [Option.getD_none,holds.name]
    exact ⟨fun fits _ => fits,fun fits => fits rfl⟩
  | some name =>
    refine ⟨fun _ => nofun,fun _ => ?_⟩
    obtain ⟨text,rfl,same⟩ := Option.bind_eq_some_iff.mp given
    have checked := prepared.checks
    unfold prepareChecks validateMetadataText at checked
    have short : utf8Len text ≤ config.limits.maxMetadataBytes := by
      split at checked
      · cases checked
      · split at checked
        · cases checked
        · dsimp only at checked
          split at checked
          · cases checked
          · omega
    unfold nonEmpty at same
    split at same
    · cases same
    · cases same
      exact Nat.le_trans (trim_shorter text) short

variable {receiver : EndpointId} {proof : WireProof × Nat × Nat}

/-- An offer that a check stops does not reach the user. -/
theorem screen_answers {remote : EndpointId} {offer : SubmitTargetedOffer} {out : Outcome}
    (stopped : screen urls r now remote offer = .error out) : out.1 ≠ .prompted := by
  unfold screen refused malformed at stopped
  -- every check answers, and the last branch lets the offer pass
  repeat' split at stopped
  all_goals cases stopped
  all_goals simp

/-- Of all the checks of the receiver only two are left to fail. -/
theorem screen_honest (urls : RelayUrls) (proof : WireProof × Nat × Nat)
    (prepared : Prepared fs config.limits sources transferName c)
    (awaits : Awaits config r now transferId manifestId) (here : receiver = r.endpointId) :
    screen urls r now config.endpointId (offerOf urls config receiver transferId manifestId transferName c proof) =
      .ok () ↔ Announceable fs config.limits sources transferName := by
  have holds := imported_holds prepared.imported
  unfold Announceable
  rw [← name_fits prepared,← holds.total]
  have texts : transferId.isEmpty = false ∧ manifestId.isEmpty = false := by
    simpa using awaits.texts
  unfold screen offerOf
  simp only [awaits.rested,awaits.version,here,ne_eq,not_true_eq_false,if_false,Bool.false_eq_true]
  have limited : exceedsManifestLimits r.limits (offerOf urls config r.endpointId transferId manifestId
      transferName c proof) = decide (c.totalSize = 0) := by
    have few := holds.files
    have bound := holds.bound
    unfold exceedsManifestLimits offerOf
    simp only [awaits.limits,texts.1,texts.2,Bool.or_false]
    rw [decide_eq_false (p := c.fileCount = 0) (by omega),
      decide_eq_false (p := config.limits.maxCollectionFiles < c.fileCount) (by omega),
      decide_eq_false (p := config.limits.maxTotalBytes < c.totalSize) (by omega)]
    simp
  unfold offerOf at limited
  rw [limited]
  by_cases none : c.totalSize = 0
  · simp [none]
  · simp only [none,decide_false,Bool.false_eq_true,if_false,not_false_eq_true,true_and]
    unfold validateMetadataText
    rw [awaits.limits]
    by_cases long : config.limits.maxMetadataBytes < utf8Len (payloadName transferName c)
    · simp only [long,if_true]
      exact ⟨nofun,fun fits => by omega⟩
    · simp only [long,if_false,awaits.rows,parse_texts,awaits.relays,if_true,true_iff]
      omega

theorem submit_honest {remote : EndpointId} {offer : PendingTargetedOffer} (sent : offer.senderEndpointId = remote)
    (rested : r.cooldown.isCooling now remote = false) (pending : r.pending = [])
    (settled : r.settled offer.transferId = none) :
    submit r now offer = (.prompted,{ r with
      pending := [offer], cooldown := r.cooldown.clearStrikes remote }) := by
  have room := r.limits.offers_positive
  unfold submit
  rw [sent,rested,settled,pending]
  simp [Nat.ne_of_gt room]

theorem Awaits.prune (awaits : Awaits config r now transferId manifestId) :
    Awaits config (r.look now) now transferId manifestId :=
  { awaits with rested := (r.cooldown.prune_isCooling now _).trans awaits.rested }

/-- The handler ends with a prompt for the local user, and without a strike. -/
structure Prompts (l : Pairing.Local) (urls : RelayUrls) (r : Receiver) (now : Millis) (remote : EndpointId)
    (challenge : Text) (offer : SubmitTargetedOffer) (d : Pairing.Device) : Prop where
  ends : ∃ out e, Alone (working l) (handleOffer l urls r now remote challenge offer) d out e
  prompts : ∀ out e, Alone (working l) (handleOffer l urls r now remote challenge offer) d out e →
    out.1 = .prompted ∧ out.2.pending = [pendingOf r remote offer now] ∧
    out.2.cooldown = (r.cooldown.prune now).clearStrikes remote

variable {sender receiver : Pairing.Local} {ds dr ds' : Pairing.Device} {held issued : Relationship}
  {grant secret challenge : Text} {heldAt issuedAt : Handle}

/-- The offer of a saved device reaches the local user of the receiver exactly if there are
bytes to be sent, and the name that they are sent under fits in `max_metadata_bytes`. -/
theorem honest_offer_prompts_iff
    (pair : SavedPair sender receiver ds dr held issued grant secret heldAt issuedAt)
    (prepared : Prepared fs config.limits sources transferName c)
    (awaits : Awaits config r now transferId manifestId) (sends : config.endpointId = sender.endpointId)
    (receives : r.endpointId = receiver.endpointId)
    (proved : Alone (working sender) (proveSavedPossession sender receiver.endpointId challenge) ds
      (.ok proof) ds') :
    Prompts receiver urls r now sender.endpointId challenge
      (offerOf urls config receiver.endpointId transferId manifestId transferName c proof) dr ↔
      Announceable fs config.limits sources transferName := by
  obtain ⟨same,_⟩ := (prove_saved pair).mp proved
  cases same
  have screened := screen_honest urls (proofOf sender receiver held grant secret challenge) prepared
    awaits.prune receives.symm
  rw [sends] at screened
  rw [← screened]
  constructor
  · intro prompts
    cases screen : screen urls (r.look now) now sender.endpointId (offerOf urls config receiver.endpointId
        transferId manifestId transferName c (proofOf sender receiver held grant secret challenge)) with
    | ok => rfl
    | error out =>
      refine absurd (prompts.prompts out dr ?_).1 (screen_answers screen)
      unfold handleOffer
      rw [screen]
      exact ⟨rfl,rfl⟩
  · intro passes
    have name : (pendingOf r sender.endpointId (offerOf urls config receiver.endpointId transferId manifestId
        transferName c (proofOf sender receiver held grant secret challenge)) now).senderEndpointId =
        sender.endpointId := rfl
    have submitted := submit_honest (r := r.look now) name (sends ▸ awaits.prune.rested) awaits.pending
      awaits.settled
    have handled {out : Outcome} {e : Pairing.Device} : Alone (working receiver) (handleOffer receiver urls r now
        sender.endpointId challenge (offerOf urls config receiver.endpointId transferId manifestId
          transferName c (proofOf sender receiver held grant secret challenge))) dr out e ↔
        out = submit (r.look now) now (pendingOf r sender.endpointId (offerOf urls config receiver.endpointId
          transferId manifestId transferName c (proofOf sender receiver held grant secret challenge)) now) ∧
          e = dr := by
      unfold handleOffer
      rw [passes]
      refine alone_bind.trans ⟨?_,?_⟩
      · rintro ⟨verified,u,first,rest⟩
        obtain ⟨rfl,rfl⟩ := (verify_saved pair).mp first
        exact ⟨rest.1.symm,rest.2.symm⟩
      · rintro ⟨rfl,rfl⟩
        exact ⟨.ok (),_,(verify_saved pair).mpr ⟨rfl,rfl⟩,rfl,rfl⟩
    refine ⟨⟨_,_,handled.mpr ⟨rfl,rfl⟩⟩,fun out e ended => ?_⟩
    obtain ⟨rfl,rfl⟩ := handled.mp ended
    rw [submitted]
    exact ⟨rfl,rfl,rfl⟩

end Honest

namespace Sample

open Pairing.Sample

/-- A file of this size at every path. -/
def fs (size : Nat) : Filesystem where
  node _ := some (.file size)
  descriptor _ := none
  wellFormed _ _ found := Option.some.inj found ▸ trivial

def source : ShareSource := ⟨.path,['x'],some ['a'],false⟩

def collection (size : Nat) : TransferImport := ⟨[(['a'],size)],size,1,['a']⟩

theorem prepared {size : Nat} (small : size ≤ 1) :
    Prepared (fs size) Imports.Sample.limits [source] none (collection size) := by
  have name : defaultCollectionName [⟨.path (some (.file size)),['a']⟩] = ['a'] := by
    have split : (['a'] : Str).splitOn '/' = [['a']] := by decide
    simp [defaultCollectionName,split,Option.filter]
  obtain rfl | rfl : size = 0 ∨ size = 1 := by omega
  all_goals
    refine ⟨rfl,[⟨.path (some (.file _)),['a']⟩],_,rfl,.refl _,bind_ok.mpr ⟨[(['a'],_)],rfl,?_⟩⟩
    rw [List.mergeSort_singleton,name]
    rfl

def urls : RelayUrls := ⟨fun url => List.replicate url 'a',fun s => some s.length,by simp⟩

def config : Config := ⟨1,1,Imports.Sample.limits,.automatic,[]⟩

def receiver : Receiver where
  toConfig := { config with endpointId := 2 }
  cooldown := .new
  pending := []
  settled _ := none
  rows _ := none

def row (remote : EndpointId) : Relationship where
  remoteEndpointId := remote
  state := .saved
  generation := 1
  minimumProtocolVersion := 1
  sessionId := none
  remoteDisplayName := none
  lastAuthenticatedAt := none
  issuedGrantHandle := some 5
  heldGrantHandle := some 5
  issuedGrantId := some 6
  heldGrantId := some 6
  peerAck := true
  localAck := true
  createdAt := 0
  updatedAt := 0

def paired (remote : EndpointId) : Pairing.Device :=
  { Device.new with relationships := ⟨[row remote],List.nodup_singleton _⟩, custody := fun _ => some 9 }

theorem pair : SavedPair device { device with endpointId := 2 } (paired 2) (paired 1) (row 2) (row 1) 6 9 5 5 :=
  ⟨rfl,rfl,⟨rfl,rfl⟩,rfl,rfl,⟨rfl,rfl⟩,⟨rfl,rfl⟩,⟨rfl,rfl⟩,by simp [paired,Device.new],⟨rfl,rfl⟩,rfl,
    ⟨rfl,rfl,fun _ _ _ _ _ _ => rfl⟩⟩

theorem awaits : Awaits config receiver 0 ['t'] ['m'] :=
  ⟨rfl,rfl,rfl,rfl,rfl,rfl,rfl,by simp⟩

def proof : WireProof × Nat × Nat := proofOf device { device with endpointId := 2 } (row 2) 6 9 3

theorem proves : Alone (working device) (proveSavedPossession device 2 3) (paired 2) (.ok proof) (paired 2) :=
  (prove_saved pair).mpr ⟨rfl,rfl⟩

/-- A file of this size for the paired device. -/
def offer (size : Nat) : SubmitTargetedOffer := offerOf urls config 2 ['t'] ['m'] none (collection size) proof

end Sample

open Sample Pairing.Sample

/-- The offer of an empty file is answered with a refusal, and counts as a strike. -/
theorem empty_file_strikes :
    Prepared (fs 0) config.limits [source] none (collection 0) ∧
    SavedPair device { device with endpointId := 2 } (paired 2) (paired 1) (row 2) (row 1) 6 9 5 5 ∧
    Awaits config receiver 0 ['t'] ['m'] ∧
    Alone (working device) (proveSavedPossession device 2 3) (paired 2) (.ok proof) (paired 2) ∧
    Alone (working { device with endpointId := 2 }) (handleOffer { device with endpointId := 2 } urls receiver 0
      1 3 (offer 0)) (paired 1) (malformed (receiver.look 0) 0 1 "manifest-limits") (paired 1) ∧
    (malformed (receiver.look 0) 0 1 "manifest-limits").2.cooldown.strikes 1 = 1 ∧
    ¬Prompts { device with endpointId := 2 } urls receiver 0 1 3 (offer 0) (paired 1) := by
  have handled : Alone (working { device with endpointId := 2 }) (handleOffer { device with endpointId := 2 } urls
      receiver 0 1 3 (offer 0)) (paired 1) (malformed (receiver.look 0) 0 1 "manifest-limits") (paired 1) := ⟨rfl,rfl⟩
  refine ⟨prepared (by decide),pair,awaits,proves,handled,by decide,fun prompts => ?_⟩
  have prompted := (prompts.prompts _ _ handled).1
  cases prompted

/-- The offer of a file of one byte reaches the user. -/
theorem byte_prompts : Prompts { device with endpointId := 2 } urls receiver 0 1 3 (offer 1) (paired 1) :=
  (honest_offer_prompts_iff pair (prepared (by decide)) awaits rfl rfl proves).mpr
    ⟨by decide,fun _ => by decide⟩

end Vnidrop.Offers
