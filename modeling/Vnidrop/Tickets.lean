import Vnidrop.NetworkConfig
import Vnidrop.OutputPaths

/-! The ticket of a share: `share_files` writes it and `parse_transfer_ticket_with_limits` reads
it, and they do not check the same things. -/
namespace Vnidrop.Tickets

open Excepts Imports Paths Network
open Offers (validateMetadataText payloadName)

abbrev Bytes := List UInt8

structure TicketLimits extends Imports.CoreLimits where
  maxTicketBytes : Nat

structure TransferMetadata where
  version : Nat
  transferId : Nat
  transferName : Str
  senderName : Option Str
  createdAt : Int
  contentHash : Str
  fileCount : Nat
  totalSize : Nat
  deriving DecidableEq

structure VnidropTicket where
  version : Nat
  blobTicket : Str
  relayUrls : List Str
  metadata : TransferMetadata
  deriving DecidableEq

inductive BlobFormat where
  | raw
  | hashSeq
  deriving DecidableEq

structure BlobTicket (Addr Hash : Type) where
  addr : Addr
  hash : Hash
  format : BlobFormat

/-- The libraries: addresses and tickets of the network, the serializer, and the encoding. -/
structure Library (Addr Hash RelayUrl : Type) extends Urls RelayUrl where
  withRelayUrl : Addr → RelayUrl → Addr
  hashText : Hash → Str
  blobText : BlobTicket Addr Hash → Str
  blobParse : Str → Option (BlobTicket Addr Hash)
  toVec : VnidropTicket → Option Bytes
  fromSlice : Bytes → Option VnidropTicket
  base64 : Bytes → Str
  unbase64 : Str → Option Bytes

def vnidropTicketPrefix : Str := ['v','n','d','1',':']

def vnidropTicketVersion : Nat := 1

section Codec

variable {Addr Hash RelayUrl : Type} (lib : Library Addr Hash RelayUrl)

/-- `VnidropTicket::new_with_relay_urls`. -/
def VnidropTicket.newWithRelayUrls (blobTicket : BlobTicket Addr Hash) (metadata : TransferMetadata)
    (relayUrls : List RelayUrl) : VnidropTicket where
  version := vnidropTicketVersion
  blobTicket := lib.blobText blobTicket
  relayUrls := relayUrls.map lib.toStr
  metadata := metadata

def VnidropTicket.encode (ticket : VnidropTicket) : Option Str :=
  (lib.toVec ticket).map fun bytes => vnidropTicketPrefix ++ lib.base64 bytes

/-- Whitespace is stripped, wherever it is. -/
def normalizeTicketInput (value : Str) : Str := value.filter fun c => !isWhitespace c

def VnidropTicket.decode (value : Str) : Except String VnidropTicket :=
  match vnidropTicketPrefix.isPrefixOf? (normalizeTicketInput value) with
  | none => .error "not a VniDrop ticket"
  | some encoded =>
    match lib.unbase64 encoded with
    | none => .error "invalid VniDrop ticket encoding"
    | some bytes =>
      match lib.fromSlice bytes with
      | none => .error "invalid VniDrop ticket payload"
      | some ticket => .ok ticket

structure ParsedTransferTicket (Addr Hash RelayUrl : Type) where
  blobTicket : BlobTicket Addr Hash
  metadata : TransferMetadata
  advertisedCustomRelayUrls : List RelayUrl

/-- The checks of the envelope and its metadata. -/
def checkMetadata (limits : TicketLimits) (ticket : VnidropTicket) : Except String Unit :=
  let metadata := ticket.metadata
  if ticket.version ≠ vnidropTicketVersion then
    .error ("unsupported VniDrop ticket version " ++ toString ticket.version)
  else if metadata.version ≠ vnidropTicketVersion then
    .error ("unsupported VniDrop metadata version " ++ toString metadata.version)
  else if metadata.transferId = 0 then .error "VniDrop ticket metadata is missing a valid transfer id"
  else if trim metadata.transferName = [] then .error "VniDrop ticket metadata is missing a transfer name"
  else do
    validateMetadataText limits.toCoreLimits "transfer name" (some metadata.transferName)
    validateMetadataText limits.toCoreLimits "sender name" metadata.senderName

variable [DecidableEq RelayUrl]

/-- The relay addresses of an envelope; an empty list is not validated. -/
def advertisedRelayUrls (ticket : VnidropTicket) : Except String (List RelayUrl) :=
  if ticket.relayUrls = [] then .ok []
  else (CoreNetworkConfig.validatedRelayUrls lib.toUrls ⟨.strictCustom,ticket.relayUrls⟩).mapError
    fun _ => "invalid relay URLs inside VniDrop ticket"

def parseTransferTicketWithLimits (value : Str) (limits : TicketLimits) :
    Except String (ParsedTransferTicket Addr Hash RelayUrl) :=
  if limits.maxTicketBytes < utf8Len value then
    .error ("ticket is " ++ toString (utf8Len value) ++ " bytes, limit is " ++ toString limits.maxTicketBytes)
  else
    let normalized := normalizeTicketInput value
    if ¬vnidropTicketPrefix.isPrefixOf normalized then
      .error "not a VniDrop ticket; expected a vnd1: invitation"
    else do
      let ticket ← VnidropTicket.decode lib normalized
      checkMetadata limits ticket
      match lib.blobParse ticket.blobTicket with
      | none => .error "invalid BlobTicket inside VniDrop ticket"
      | some blobTicket =>
        if ticket.metadata.contentHash ≠ lib.hashText blobTicket.hash then
          .error "VniDrop ticket metadata hash does not match BlobTicket hash"
        else do
          let urls ← advertisedRelayUrls lib ticket
          return {
            blobTicket := { blobTicket with addr := urls.foldl lib.withRelayUrl blobTicket.addr }
            metadata := ticket.metadata
            advertisedCustomRelayUrls := urls }

end Codec

/-! `share_files`. -/

structure ShareMetadataInput where
  transferId : Nat
  transferName : Option Str
  senderName : Option Str

/-- What a share meets: the files and the order in which they are read, the hash of a stored
collection, the address and the clock of the device, and which calls of the stores succeed. -/
structure Surroundings (Addr Hash : Type) where
  fs : Filesystem
  order : List ImportSourceFile → List ImportSourceFile
  order_perm : ∀ files, (order files).Perm files
  rootHash : List (Str × Nat) → Hash
  addr : Addr
  now : Int
  permit : Bool
  /-- Whether a targeted transfer has the id, where the store answers. -/
  containsProtocolId : Option Bool
  insertTransfer : Bool
  transferLocalId : Bool
  setTag : Bool
  completeShareImport : Bool
  cancelled : Bool

inductive ShareError where
  | internal
  | invalidInput (text : String)
  | repository
  | transfer
  | importing (e : ImportError)
  | encoding
  | cancelled

structure ShareResult where
  transferId : Nat
  ticket : Str
  hash : Str
  transferName : Str
  fileCount : Nat
  totalSize : Nat
  deriving DecidableEq

/-- The result, and the sender name that is stored with the share. -/
structure Shared where
  result : ShareResult
  senderName : Option Str
  deriving DecidableEq

section Share

variable {Addr Hash RelayUrl : Type} (lib : Library Addr Hash RelayUrl) (limits : TicketLimits)
  (s : Surroundings Addr Hash) (customRelayUrls : List RelayUrl)

/-- `TransferMetadata::new`. -/
def TransferMetadata.new (transferId : Nat) (transferName : Str) (senderName : Option Str) (now : Int)
    (contentHash : Hash) (fileCount totalSize : Nat) : TransferMetadata where
  version := 1
  transferId := transferId
  transferName := transferName
  senderName := senderName.bind nonEmpty
  createdAt := now
  contentHash := lib.hashText contentHash
  fileCount := fileCount
  totalSize := totalSize

def importOf (sources : List ShareSource) : Except ImportError TransferImport := do
  let files ← collectImportFilesWithLimits s.fs limits.toCoreLimits sources
  importSources limits.toCoreLimits files (s.order files)

def blobTicketOf (c : TransferImport) : BlobTicket Addr Hash := ⟨s.addr,s.rootHash c.entries,.hashSeq⟩

/-- The envelope of a share of the collection. -/
def envelopeOf (m : ShareMetadataInput) (c : TransferImport) : VnidropTicket :=
  VnidropTicket.newWithRelayUrls lib (blobTicketOf s c)
    (TransferMetadata.new lib m.transferId (payloadName m.transferName c) m.senderName s.now (s.rootHash c.entries)
      c.fileCount c.totalSize) customRelayUrls

def shareFilesInner (sources : List ShareSource) (m : ShareMetadataInput) : Except ShareError Shared := do
  let c ← (importOf limits s sources).mapError .importing
  let envelope := envelopeOf lib s customRelayUrls m c
  match envelope.encode lib with
  | none => .error .encoding
  | some ticket =>
    if ¬s.transferLocalId then .error .repository
    else if ¬s.setTag then .error .transfer
    else if ¬s.completeShareImport then .error .repository
    else return {
      result := ⟨m.transferId,ticket,lib.hashText (s.rootHash c.entries),payloadName m.transferName c,c.fileCount,
        c.totalSize⟩
      senderName := envelope.metadata.senderName }

def shareFiles (sources : List ShareSource) (m : ShareMetadataInput) : Except ShareError Shared :=
  if ¬s.permit then .error .internal
  else if sources = [] then .error (.invalidInput "at least one source is required")
  else if limits.maxSources < sources.length then
    .error (.invalidInput ("source count " ++ toString sources.length ++ " exceeds limit " ++
      toString limits.maxSources))
  else do
    (validateMetadataText limits.toCoreLimits "transfer name" m.transferName).mapError .invalidInput
    (validateMetadataText limits.toCoreLimits "sender name" m.senderName).mapError .invalidInput
    match s.containsProtocolId with
    | none => .error .repository
    | some true => .error (.invalidInput "transfer id is already reserved by a targeted transfer")
    | some false =>
      if ¬s.insertTransfer then .error .repository
      else if s.cancelled then .error .cancelled
      else shareFilesInner lib limits s customRelayUrls sources m

end Share

/-- `t` is `s` with whitespace put in. -/
inductive Spaced : Str → Str → Prop
  | nil : Spaced [] []
  | keep (c : Char) {s t : Str} (rest : Spaced s t) : Spaced (c :: s) (c :: t)
  | space (c : Char) {s t : Str} (white : isWhitespace c = true) (rest : Spaced s t) : Spaced s (c :: t)

section Property

variable {Addr Hash RelayUrl : Type} [DecidableEq RelayUrl] (lib : Library Addr Hash RelayUrl) (limits : TicketLimits)
  (s : Surroundings Addr Hash) (customRelayUrls : List RelayUrl)

/-- The ticket of the share is read as what has been shared, however it is broken into lines. -/
structure RoundTrip (shared : Shared) : Prop where
  parses : ∃ parsed, parseTransferTicketWithLimits lib shared.result.ticket limits = .ok parsed ∧
    parsed.metadata.transferId = shared.result.transferId ∧
    parsed.metadata.transferName = shared.result.transferName ∧
    parsed.metadata.senderName = shared.senderName ∧
    parsed.metadata.fileCount = shared.result.fileCount ∧
    parsed.metadata.totalSize = shared.result.totalSize ∧
    parsed.metadata.contentHash = shared.result.hash ∧
    lib.hashText parsed.blobTicket.hash = shared.result.hash ∧
    parsed.advertisedCustomRelayUrls = customRelayUrls
  spaced : ∀ value, Spaced shared.result.ticket value → utf8Len value ≤ limits.maxTicketBytes →
    parseTransferTicketWithLimits lib value limits = parseTransferTicketWithLimits lib shared.result.ticket limits

/-- The libraries read what they have written of this share. -/
structure Faithful (m : ShareMetadataInput) (c : TransferImport) : Prop where
  json : ∀ bytes, lib.toVec (envelopeOf lib s customRelayUrls m c) = some bytes →
    lib.fromSlice bytes = some (envelopeOf lib s customRelayUrls m c)
  base64 : ∀ bytes, lib.toVec (envelopeOf lib s customRelayUrls m c) = some bytes →
    lib.unbase64 (lib.base64 bytes) = some bytes ∧ ∀ c ∈ lib.base64 bytes, isWhitespace c = false
  /-- A blob ticket need not keep all of the address. -/
  blob : ∃ b, lib.blobParse (lib.blobText (blobTicketOf s c)) = some b ∧ b.hash = s.rootHash c.entries
  urls : ∀ url ∈ customRelayUrls, Prints lib.toUrls url

/-- What the parser checks and the creator does not. -/
structure Parsable (sources : List ShareSource) (m : ShareMetadataInput) (c : TransferImport) : Prop where
  id : m.transferId ≠ 0
  /-- Without a name of the caller's, the share has that of its first file or directory. -/
  name : m.transferName.bind nonEmpty = none →
    let name := (((allPlaced s.fs sources).head?).bind (·.1.head?)).getD transferName
    trim name ≠ [] ∧ utf8Len name ≤ limits.maxMetadataBytes
  size : ∀ ticket, (envelopeOf lib s customRelayUrls m c).encode lib = some ticket →
    utf8Len ticket ≤ limits.maxTicketBytes
  relays : ∀ url ∈ customRelayUrls, utf8Len (lib.toStr url) ≤ maxRelayUrlBytes

end Property

section Whitespace

variable {s t : Str}

theorem spaced_normalize (spaced : Spaced s t) : normalizeTicketInput t = normalizeTicketInput s := by
  unfold normalizeTicketInput
  induction spaced with
  | nil => rfl
  | keep c _ ih => rw [List.filter_cons,List.filter_cons,ih]
  | space c white _ ih => rw [List.filter_cons_of_neg (by simp [white]),ih]

theorem spaced_sublist (spaced : Spaced s t) : s.Sublist t := by
  induction spaced with
  | nil => exact .slnil
  | keep c _ ih => exact ih.cons_cons c
  | space c _ _ ih => exact ih.cons c

/-- A text without whitespace is left as it is. -/
theorem normalize_solid (solid : ∀ c ∈ s, isWhitespace c = false) : normalizeTicketInput s = s :=
  List.filter_eq_self.mpr fun c there => by simp [solid c there]

theorem normalize_idem (s : Str) : normalizeTicketInput (normalizeTicketInput s) = normalizeTicketInput s :=
  normalize_solid fun c there => by simpa using (List.mem_filter.mp there).2

theorem prefix_solid : ∀ c ∈ vnidropTicketPrefix, isWhitespace c = false := by
  intro c there
  simp only [vnidropTicketPrefix,List.mem_cons,List.not_mem_nil,or_false] at there
  rcases there with rfl | rfl | rfl | rfl | rfl <;> decide

/-- A trimmed text is not blank. -/
theorem nonEmpty_solid {name : Str} (h : nonEmpty s = some name) : trim name ≠ [] ∧ utf8Len name ≤ utf8Len s := by
  unfold nonEmpty at h
  split at h
  · cases h
  · rename_i solid
    cases h
    refine ⟨fun blank => ?_,Offers.trim_shorter s⟩
    -- the last character of what is left is not whitespace
    have kept : ((s.dropWhile isWhitespace).reverse.dropWhile isWhitespace) ≠ [] :=
      fun none => solid (List.reverse_eq_nil_iff.mpr none)
    have last := List.head_dropWhile_not isWhitespace kept
    rw [OutputPaths.trim_nil_iff.mp blank _ (List.mem_reverse.mpr (List.head_mem kept))] at last
    cases last

end Whitespace

section Parsing

variable {Addr Hash RelayUrl : Type} {lib : Library Addr Hash RelayUrl} {limits : TicketLimits} {value : Str}
  {ticket : VnidropTicket} {field : String} {text : Option Str}

theorem validateMetadataText_ok {core : Imports.CoreLimits} :
    validateMetadataText core field text = .ok () ↔ ∀ value, text = some value → utf8Len value ≤ core.maxMetadataBytes := by
  unfold validateMetadataText
  cases text with
  | none => exact ⟨fun _ _ none => (by cases none),fun _ => rfl⟩
  | some value =>
    dsimp only
    split
    · rename_i long
      exact ⟨fun refused => (by cases refused),fun fits => absurd (fits value rfl) (Nat.not_le_of_lt long)⟩
    · rename_i fits
      exact ⟨fun _ _ same => Option.some.inj same ▸ Nat.le_of_not_lt fits,fun _ => rfl⟩

/-- An envelope that is accepted is of this version, and has an id and a name. -/
structure Sound (limits : TicketLimits) (ticket : VnidropTicket) : Prop where
  version : ticket.version = vnidropTicketVersion
  metadataVersion : ticket.metadata.version = vnidropTicketVersion
  id : ticket.metadata.transferId ≠ 0
  name : trim ticket.metadata.transferName ≠ []
  nameSize : utf8Len ticket.metadata.transferName ≤ limits.maxMetadataBytes
  senderSize : ∀ name, ticket.metadata.senderName = some name → utf8Len name ≤ limits.maxMetadataBytes

theorem checkMetadata_iff : checkMetadata limits ticket = .ok () ↔ Sound limits ticket := by
  unfold checkMetadata
  dsimp only
  constructor
  · intro checked
    split_ifs at checked with version metadataVersion id name
    obtain ⟨_,named,sent⟩ := bind_ok.mp checked
    exact ⟨not_not.mp version,not_not.mp metadataVersion,id,name,validateMetadataText_ok.mp named _ rfl,
      validateMetadataText_ok.mp sent⟩
  · rintro ⟨version,metadataVersion,id,name,nameSize,senderSize⟩
    rw [if_neg (not_not_intro version),if_neg (not_not_intro metadataVersion),if_neg id,if_neg name,bind_ok]
    exact ⟨(),validateMetadataText_ok.mpr fun _ same => Option.some.inj same ▸ nameSize,
      validateMetadataText_ok.mpr senderSize⟩

theorem encode_some {text : Str} : ticket.encode lib = some text ↔
    ∃ bytes, lib.toVec ticket = some bytes ∧ vnidropTicketPrefix ++ lib.base64 bytes = text := by
  simp [VnidropTicket.encode,Option.map_eq_some_iff]

/-- What has been encoded is decoded, if the libraries read what they write. -/
theorem decode_encoded {bytes : Bytes} (json : lib.fromSlice bytes = some ticket)
    (base64 : lib.unbase64 (lib.base64 bytes) = some bytes) (solid : ∀ c ∈ lib.base64 bytes, isWhitespace c = false) :
    VnidropTicket.decode lib (vnidropTicketPrefix ++ lib.base64 bytes) = .ok ticket := by
  have whole : ∀ c ∈ vnidropTicketPrefix ++ lib.base64 bytes, isWhitespace c = false := by
    intro c there
    exact (List.mem_append.mp there).elim (prefix_solid c) (solid c)
  unfold VnidropTicket.decode
  rw [normalize_solid whole]
  have stripped : vnidropTicketPrefix.isPrefixOf? (vnidropTicketPrefix ++ lib.base64 bytes) = some (lib.base64 bytes) := by
    simp [vnidropTicketPrefix,List.isPrefixOf?]
  rw [stripped]
  dsimp only
  rw [base64]
  dsimp only
  rw [json]

/-- An envelope that has been decoded is sound, and what it says of the blob and the relays is right. -/
structure Accepted (lib : Library Addr Hash RelayUrl) (limits : TicketLimits) (ticket : VnidropTicket)
    (parsed : ParsedTransferTicket Addr Hash RelayUrl) [DecidableEq RelayUrl] : Prop where
  sound : Sound limits ticket
  blob : ∃ b, lib.blobParse ticket.blobTicket = some b ∧ ticket.metadata.contentHash = lib.hashText b.hash ∧
    parsed.blobTicket = { b with addr := parsed.advertisedCustomRelayUrls.foldl lib.withRelayUrl b.addr }
  metadata : parsed.metadata = ticket.metadata
  relays : advertisedRelayUrls lib ticket = .ok parsed.advertisedCustomRelayUrls

variable [DecidableEq RelayUrl] {parsed : ParsedTransferTicket Addr Hash RelayUrl}

theorem parse_ok : parseTransferTicketWithLimits lib value limits = .ok parsed ↔
    utf8Len value ≤ limits.maxTicketBytes ∧
    vnidropTicketPrefix.isPrefixOf (normalizeTicketInput value) = true ∧
    ∃ ticket, VnidropTicket.decode lib (normalizeTicketInput value) = .ok ticket ∧ Accepted lib limits ticket parsed := by
  unfold parseTransferTicketWithLimits
  dsimp only
  constructor
  · intro accepted
    split at accepted
    · cases accepted
    · rename_i size
      split at accepted
      · cases accepted
      · rename_i marked
        obtain ⟨ticket,decoded,accepted⟩ := bind_ok.mp accepted
        obtain ⟨_,checked,accepted⟩ := bind_ok.mp accepted
        refine ⟨Nat.le_of_not_lt size,by simpa using marked,ticket,decoded,?_⟩
        split at accepted
        · cases accepted
        · rename_i b read
          split at accepted
          · cases accepted
          · rename_i hash
            obtain ⟨urls,relays,same⟩ := bind_ok.mp accepted
            cases same
            exact ⟨checkMetadata_iff.mp checked,⟨b,read,not_not.mp hash,rfl⟩,rfl,relays⟩
  · rintro ⟨size,marked,ticket,decoded,sound,⟨b,read,hash,made⟩,metadata,relays⟩
    rw [if_neg (Nat.not_lt_of_le size),if_neg (not_not_intro marked),bind_ok]
    refine ⟨ticket,decoded,bind_ok.mpr ⟨(),checkMetadata_iff.mpr sound,?_⟩⟩
    rw [read]
    dsimp only
    rw [if_neg (not_not_intro hash),relays]
    obtain ⟨blobTicket,metadata',advertised⟩ := parsed
    dsimp only at made metadata
    subst made metadata
    rfl

/-- Whitespace is of no account while the text stays short enough. -/
theorem parse_spaced {text : Str} (spaced : Spaced text value) (short : utf8Len value ≤ limits.maxTicketBytes) :
    parseTransferTicketWithLimits lib value limits = parseTransferTicketWithLimits lib text limits := by
  have shorter := Nat.le_trans (Offers.utf8Len_sublist (spaced_sublist spaced)) short
  unfold parseTransferTicketWithLimits
  rw [if_neg (Nat.not_lt_of_le short),if_neg (Nat.not_lt_of_le shorter),spaced_normalize spaced]

end Parsing

section Sharing

variable {Addr Hash RelayUrl : Type} {lib : Library Addr Hash RelayUrl} {limits : TicketLimits}
  {s : Surroundings Addr Hash} {urls : List RelayUrl} {sources : List ShareSource} {m : ShareMetadataInput}
  {c : TransferImport} {shared : Shared}

theorem importOf_imported (imported : importOf limits s sources = .ok c) :
    Imported s.fs limits.toCoreLimits sources c := by
  obtain ⟨files,collected,made⟩ := bind_ok.mp imported
  exact ⟨files,s.order files,collected,s.order_perm files,made⟩

/-- A share that completes has had its names checked, and has written its envelope. -/
structure Completed (lib : Library Addr Hash RelayUrl) (limits : TicketLimits) (s : Surroundings Addr Hash)
    (urls : List RelayUrl) (m : ShareMetadataInput) (c : TransferImport) (shared : Shared) : Prop where
  transferName : ∀ name, m.transferName = some name → utf8Len name ≤ limits.maxMetadataBytes
  senderName : ∀ name, m.senderName = some name → utf8Len name ≤ limits.maxMetadataBytes
  ticket : (envelopeOf lib s urls m c).encode lib = some shared.result.ticket
  transferId : shared.result.transferId = m.transferId
  hash : shared.result.hash = lib.hashText (s.rootHash c.entries)
  name : shared.result.transferName = payloadName m.transferName c
  fileCount : shared.result.fileCount = c.fileCount
  totalSize : shared.result.totalSize = c.totalSize
  sender : shared.senderName = m.senderName.bind nonEmpty

theorem shared_completed (done : shareFiles lib limits s urls sources m = .ok shared)
    (imported : importOf limits s sources = .ok c) : Completed lib limits s urls m c shared := by
  unfold shareFiles at done
  split at done
  · cases done
  split at done
  · cases done
  split at done
  · cases done
  obtain ⟨_,named,done⟩ := bind_ok.mp done
  obtain ⟨_,sent,done⟩ := bind_ok.mp done
  have named := validateMetadataText_ok.mp (mapError_ok.mp named)
  have sent := validateMetadataText_ok.mp (mapError_ok.mp sent)
  split at done
  · cases done
  · cases done
  · split_ifs at done with inserted cancelled
    obtain ⟨c',imported',done⟩ := bind_ok.mp done
    cases (mapError_ok.mp imported').symm.trans imported
    dsimp only at done
    split at done
    · cases done
    · rename_i ticket encoded
      split_ifs at done with localId tag completed
      cases done
      exact ⟨named,sent,encoded,rfl,rfl,rfl,rfl,rfl,rfl⟩

theorem payloadName_given {name : Str} (given : m.transferName.bind nonEmpty = some name) :
    payloadName m.transferName c = name := by
  unfold payloadName
  rw [given]
  rfl

/-- The name of the share passes the checks of the parser, or is that of the first file. -/
theorem name_iff (completed : Completed lib limits s urls m c shared) (imported : importOf limits s sources = .ok c) :
    (trim (payloadName m.transferName c) ≠ [] ∧ utf8Len (payloadName m.transferName c) ≤ limits.maxMetadataBytes) ↔
      (m.transferName.bind nonEmpty = none →
        let name := (((allPlaced s.fs sources).head?).bind (·.1.head?)).getD transferName
        trim name ≠ [] ∧ utf8Len name ≤ limits.maxMetadataBytes) := by
  have holds := imported_holds (importOf_imported imported)
  cases given : m.transferName.bind nonEmpty with
  | none =>
    have default : payloadName m.transferName c = (((allPlaced s.fs sources).head?).bind (·.1.head?)).getD transferName := by
      unfold payloadName
      rw [given,Option.getD_none,holds.name]
    rw [default]
    exact ⟨fun checked _ => checked,fun checked => checked rfl⟩
  | some name =>
    rw [payloadName_given given]
    refine ⟨fun _ none => (by cases none),fun _ => ?_⟩
    obtain ⟨whole,caller,trimmed⟩ := Option.bind_eq_some_iff.mp given
    obtain ⟨solid,shorter⟩ := nonEmpty_solid trimmed
    exact ⟨solid,Nat.le_trans shorter (completed.transferName whole caller)⟩

variable [DecidableEq RelayUrl]

theorem relays_iff {configured : CoreNetworkConfig} (valid : configured.validatedRelayUrls lib.toUrls = .ok urls)
    (prints : ∀ url ∈ urls, Prints lib.toUrls url) {us : List RelayUrl} :
    advertisedRelayUrls lib (envelopeOf lib s urls m c) = .ok us ↔
      us = urls ∧ ∀ url ∈ urls, utf8Len (lib.toStr url) ≤ maxRelayUrlBytes := by
  have written : (envelopeOf lib s urls m c).relayUrls = urls.map lib.toStr := rfl
  unfold advertisedRelayUrls
  rw [written]
  by_cases empty : urls = []
  · subst empty
    simp [eq_comm]
  · rw [if_neg fun none => empty (List.map_eq_nil_iff.mp none),mapError_ok]
    exact printed_accepted_iff valid prints empty

omit [DecidableEq RelayUrl] in
/-- The ticket of a share is decoded to what has been encoded. -/
theorem shared_decoded (completed : Completed lib limits s urls m c shared) (faithful : Faithful lib s urls m c) :
    normalizeTicketInput shared.result.ticket = shared.result.ticket ∧
      vnidropTicketPrefix.isPrefixOf shared.result.ticket = true ∧
      VnidropTicket.decode lib shared.result.ticket = .ok (envelopeOf lib s urls m c) := by
  obtain ⟨bytes,written,text⟩ := encode_some.mp completed.ticket
  obtain ⟨unbase64,solid⟩ := faithful.base64 bytes written
  rw [← text]
  refine ⟨normalize_solid fun c there => ?_,?_,decode_encoded (faithful.json bytes written) unbase64 solid⟩
  · exact (List.mem_append.mp there).elim (prefix_solid c) (solid c)
  · rw [List.isPrefixOf_iff_prefix]
    exact List.prefix_append _ _

/-- What a parse of the ticket accepts is the envelope. -/
theorem shared_accepted (completed : Completed lib limits s urls m c shared) (faithful : Faithful lib s urls m c)
    {parsed : ParsedTransferTicket Addr Hash RelayUrl} :
    parseTransferTicketWithLimits lib shared.result.ticket limits = .ok parsed ↔
      utf8Len shared.result.ticket ≤ limits.maxTicketBytes ∧ Accepted lib limits (envelopeOf lib s urls m c) parsed := by
  obtain ⟨whole,marked,decoded⟩ := shared_decoded completed faithful
  rw [parse_ok,whole]
  constructor
  · rintro ⟨size,_,ticket,again,accepted⟩
    cases again.symm.trans decoded
    exact ⟨size,accepted⟩
  · rintro ⟨size,accepted⟩
    exact ⟨size,marked,_,decoded,accepted⟩

/-- A completed share has a ticket that is read back exactly when the parser's checks hold. -/
theorem round_trip_iff {configured : CoreNetworkConfig} (valid : configured.validatedRelayUrls lib.toUrls = .ok urls)
    (done : shareFiles lib limits s urls sources m = .ok shared) (imported : importOf limits s sources = .ok c)
    (faithful : Faithful lib s urls m c) :
    RoundTrip lib limits urls shared ↔ Parsable lib limits s urls sources m c := by
  have completed := shared_completed done imported
  have names := name_iff completed imported
  constructor
  · rintro ⟨⟨parsed,accepted,_⟩,_⟩
    obtain ⟨size,accepted⟩ := (shared_accepted completed faithful).mp accepted
    refine ⟨accepted.sound.id,names.mp ⟨accepted.sound.name,accepted.sound.nameSize⟩,fun ticket encoded => ?_,?_⟩
    · cases encoded.symm.trans completed.ticket
      exact size
    · exact ((relays_iff valid faithful.urls).mp accepted.relays).2
  · intro parsable
    obtain ⟨name,nameSize⟩ := names.mpr parsable.name
    have sender (name : Str) (sent : m.senderName.bind nonEmpty = some name) : utf8Len name ≤ limits.maxMetadataBytes := by
      obtain ⟨whole,caller,trimmed⟩ := Option.bind_eq_some_iff.mp sent
      exact Nat.le_trans (nonEmpty_solid trimmed).2 (completed.senderName whole caller)
    obtain ⟨b,read,hash⟩ := faithful.blob
    have parses : parseTransferTicketWithLimits lib shared.result.ticket limits = .ok
        { blobTicket := { b with addr := urls.foldl lib.withRelayUrl b.addr }
          metadata := (envelopeOf lib s urls m c).metadata
          advertisedCustomRelayUrls := urls } := by
      rw [shared_accepted completed faithful]
      refine ⟨parsable.size _ completed.ticket,⟨rfl,rfl,parsable.id,name,nameSize,sender⟩,
        ⟨b,read,?_,rfl⟩,rfl,(relays_iff valid faithful.urls).mpr ⟨rfl,parsable.relays⟩⟩
      rw [hash]
      rfl
    refine ⟨⟨_,parses,completed.transferId.symm,completed.name.symm,completed.sender.symm,completed.fileCount.symm,
      completed.totalSize.symm,completed.hash.symm,?_,rfl⟩,fun value spaced short => parse_spaced spaced short⟩
    rw [completed.hash,hash]

end Sharing

namespace Sample

/-- Unpadded base64 with the alphabet for URLs. -/
def sextet (n : Nat) : Char :=
  if n < 26 then Char.ofNat (65 + n)
  else if n < 52 then Char.ofNat (71 + n)
  else if n < 62 then Char.ofNat (n - 4)
  else if n = 62 then '-' else '_'

def base64 : Bytes → Str
  | a :: b :: c :: rest =>
    let n := 65536 * a.toNat + 256 * b.toNat + c.toNat
    sextet (n / 262144) :: sextet (n / 4096 % 64) :: sextet (n / 64 % 64) :: sextet (n % 64) :: base64 rest
  | [a,b] =>
    let n := 65536 * a.toNat + 256 * b.toNat
    [sextet (n / 262144),sextet (n / 4096 % 64),sextet (n / 64 % 64)]
  | [a] => [sextet (a.toNat / 4),sextet (a.toNat % 4 * 16)]
  | [] => []

def relay : Str := "https://relay.example/".toList

def hash : Str := "0f".toList

def blob : Str := "blobab".toList

/-- The envelope of a share under this id, of a file of one byte. -/
def ticket (id : Nat) : VnidropTicket := ⟨1,blob,[relay],⟨1,id,['a'],none,0,hash,1,1⟩⟩

/-- Its JSON text. -/
def json (id : Nat) : Bytes :=
  ("\x7b\"version\":1,\"blob_ticket\":\"blobab\",\"relay_urls\":[\"https://relay.example/\"],\"metadata\":\x7b" ++
    "\"version\":1,\"transfer_id\":" ++ toString id ++ ",\"transfer_name\":\"a\",\"sender_name\":null," ++
    "\"created_at\":0,\"content_hash\":\"0f\",\"file_count\":1,\"total_size\":1\x7d\x7d").toList.flatMap
    String.utf8EncodeChar

/-- The libraries, as far as this share uses them. -/
def lib (id : Nat) : Library Unit Unit Unit where
  fromStr s := if s = relay ∨ s ++ ['/'] = relay then some () else none
  toStr _ := relay
  scheme _ := "https".toList
  hostStr _ := some "relay.example".toList
  port _ := none
  username _ := []
  password _ := none
  query _ := none
  fragment _ := none
  path _ := ['/']
  withRelayUrl _ _ := ()
  hashText _ := hash
  blobText _ := blob
  blobParse s := if s = blob then some ⟨(),(),.hashSeq⟩ else none
  toVec t := if t = ticket id then some (json id) else none
  fromSlice bytes := if bytes = json id then some (ticket id) else none
  base64 := base64
  unbase64 s := if s = base64 (json id) then some (json id) else none

def limits : TicketLimits := ⟨Imports.Sample.limits,262144⟩

def surroundings : Surroundings Unit Unit where
  fs := Offers.Sample.fs 1
  order files := files
  order_perm := List.Perm.refl
  rootHash _ := ()
  addr := ()
  now := 0
  permit := true
  containsProtocolId := some false
  insertTransfer := true
  transferLocalId := true
  setTag := true
  completeShareImport := true
  cancelled := false

def configured : CoreNetworkConfig := ⟨.strictCustom,["https://relay.example".toList]⟩

def input (id : Nat) : ShareMetadataInput := ⟨id,none,some [' ']⟩

def shared (id : Nat) : Shared := ⟨⟨id,vnidropTicketPrefix ++ base64 (json id),hash,['a'],1,1⟩,none⟩

theorem configured_valid (id : Nat) : configured.validatedRelayUrls (lib id).toUrls = .ok [()] := rfl

theorem imported : importOf limits surroundings [Offers.Sample.source] = .ok (Offers.Sample.collection 1) := by
  have name : defaultCollectionName [⟨.path (some (.file 1)),['a']⟩] = ['a'] := by
    have split : (['a'] : Str).splitOn '/' = [['a']] := by decide
    simp [defaultCollectionName,split,Option.filter]
  refine bind_ok.mpr ⟨[⟨.path (some (.file 1)),['a']⟩],rfl,bind_ok.mpr ⟨[(['a'],1)],rfl,?_⟩⟩
  rw [List.mergeSort_singleton,name]
  rfl

theorem envelope (id : Nat) : envelopeOf (lib id) surroundings [()] (input id) (Offers.Sample.collection 1) = ticket id := rfl

theorem written (id : Nat) : (lib id).toVec (ticket id) = some (json id) := if_pos rfl

theorem sextet_solid (n : Nat) : isWhitespace (sextet n) = false := by
  by_cases small : n < 63
  · have each : ∀ n < 63, isWhitespace (sextet n) = false := by decide
    exact each n small
  · have last : sextet n = if n = 62 then '-' else '_' := by
      unfold sextet
      rw [if_neg (by omega),if_neg (by omega),if_neg (by omega)]
    rw [last]
    split <;> decide

theorem base64_solid (bytes : Bytes) : ∀ c ∈ base64 bytes, isWhitespace c = false := by
  induction bytes using base64.induct with
  | case1 a b c rest ih =>
    intro c there
    simp only [base64,List.mem_cons] at there
    rcases there with rfl | rfl | rfl | rfl | later
    · exact sextet_solid _
    · exact sextet_solid _
    · exact sextet_solid _
    · exact sextet_solid _
    · exact ih c later
  | case2 a b =>
    intro c there
    simp only [base64,List.mem_cons,List.not_mem_nil,or_false] at there
    rcases there with rfl | rfl | rfl <;> exact sextet_solid _
  | case3 a =>
    intro c there
    simp only [base64,List.mem_cons,List.not_mem_nil,or_false] at there
    rcases there with rfl | rfl <;> exact sextet_solid _
  | case4 =>
    intro c there
    cases there

theorem read (id : Nat) : (lib id).fromSlice (json id) = some (ticket id) := by
  simp [lib]

theorem alphabet (id : Nat) : (lib id).base64 = base64 := rfl

theorem decoded (id : Nat) : (lib id).unbase64 ((lib id).base64 (json id)) = some (json id) := by
  simp [lib]

theorem relay_plain : relay ≠ [] ∧ (∀ c ∈ relay, isWhitespace c = false ∧ isControl c = false) ∧ '@' ∉ relay := by
  refine ⟨by decide,?_,by decide⟩
  have each : (relay.all fun c => !isWhitespace c && !isControl c) = true := rfl
  simpa [List.all_eq_true] using each

theorem faithful (id : Nat) : Faithful (lib id) surroundings [()] (input id) (Offers.Sample.collection 1) where
  json bytes same := by
    rw [envelope,written] at same
    rw [← Option.some.inj same,envelope,read]
  base64 bytes same := by
    rw [envelope,written] at same
    rw [← Option.some.inj same]
    refine ⟨decoded id,?_⟩
    rw [alphabet]
    exact base64_solid (json id)
  blob := ⟨_,rfl,rfl⟩
  urls _ _ := ⟨rfl,relay_plain.1,relay_plain.2.1,fun _ => relay_plain.2.2⟩

theorem done (id : Nat) :
    shareFiles (lib id) limits surroundings [()] [Offers.Sample.source] (input id) = .ok (shared id) := by
  have inner : shareFilesInner (lib id) limits surroundings [()] [Offers.Sample.source] (input id) = .ok (shared id) := by
    have encoded : (ticket id).encode (lib id) = some (vnidropTicketPrefix ++ base64 (json id)) :=
      encode_some.mpr ⟨json id,written id,by rw [alphabet]⟩
    refine bind_ok.mpr ⟨Offers.Sample.collection 1,mapError_ok.mpr imported,?_⟩
    dsimp only
    rw [envelope,encoded]
    rfl
  unfold shareFiles
  rw [if_neg (by decide),if_neg (by decide),if_neg (by decide)]
  exact bind_ok.mpr ⟨(),rfl,bind_ok.mpr ⟨(),rfl,inner⟩⟩

theorem length_base64 (bytes : Bytes) : (base64 bytes).length ≤ 2 * bytes.length := by
  induction bytes using base64.induct with
  | case1 a b c rest ih =>
    simp only [base64,List.length_cons]
    omega
  | case2 a b => simp [base64]
  | case3 a => simp [base64]
  | case4 => simp [base64]

theorem utf8Len_le (s : Str) : utf8Len s ≤ 4 * s.length := by
  induction s with
  | nil => simp [utf8Len]
  | cons c s ih =>
    have four := c.utf8Size_le_four
    simp only [utf8Len,List.map_cons,List.sum_cons,List.length_cons] at ih ⊢
    omega

theorem length_json : (json 5).length ≤ 1000 := by
  have bytes (s : Str) : (s.flatMap String.utf8EncodeChar).length = utf8Len s := by
    simp [List.length_flatMap,utf8Len]
  rw [json,bytes]
  refine Nat.le_trans (utf8Len_le _) ?_
  simp only [String.toList_append,List.length_append]
  decide

theorem short : utf8Len (vnidropTicketPrefix ++ base64 (json 5)) ≤ 262144 := by
  have bytes := length_json
  have text := length_base64 (json 5)
  have label : vnidropTicketPrefix.length ≤ 100 := by decide
  refine Nat.le_trans (utf8Len_le _) ?_
  rw [List.length_append]
  omega

end Sample

open Sample in
/-- The creator takes the id 0, and the parser does not. -/
theorem zero_id_rejected : configured.validatedRelayUrls (lib 0).toUrls = .ok [()] ∧
    shareFiles (lib 0) limits surroundings [()] [Offers.Sample.source] (input 0) = .ok (shared 0) ∧
    importOf limits surroundings [Offers.Sample.source] = .ok (Offers.Sample.collection 1) ∧
    Faithful (lib 0) surroundings [()] (input 0) (Offers.Sample.collection 1) ∧
    ¬RoundTrip (lib 0) limits [()] (shared 0) := by
  refine ⟨configured_valid 0,done 0,imported,faithful 0,?_⟩
  rintro ⟨⟨parsed,accepted,_⟩,_⟩
  have completed := shared_completed (done 0) imported
  exact ((shared_accepted completed (faithful 0)).mp accepted).2.sound.id rfl

open Sample in
theorem shared_round_trip : RoundTrip (lib 5) limits [()] (shared 5) := by
  have name := (imported_holds (importOf_imported imported)).name
  refine (round_trip_iff (configured_valid 5) (done 5) imported (faithful 5)).mpr ⟨by decide,fun _ => ?_,?_,?_⟩
  · dsimp only
    rw [← name]
    exact ⟨by decide,by decide⟩
  · intro ticket encoded
    cases encoded.symm.trans (shared_completed (done 5) imported).ticket
    exact short
  · intro _ _
    show utf8Len relay ≤ maxRelayUrlBytes
    decide

end Vnidrop.Tickets
