import Vnidrop.SelfDelimiting
import Vnidrop.Utf8
import Vnidrop.Paths
import Vnidrop.Values

/-! What the keyed hashes read: the MAC of an authorization, the MAC of a relationship grant, and
the capability that two sides of a session derive. -/
namespace Vnidrop.Transcripts

open SelfDelimiting
open Paths (Str)
open Utf8 (encode)

/-- A string in memory: it has at most `isize::MAX` bytes. -/
abbrev Field := {s : Str // (encode s).length ≤ 9223372036854775807}

abbrev Digest := Vector UInt8 32

def AUTH_CONTEXT : List UInt8 := encode "vnidrop-targeted-auth-v1".toList

def RELATIONSHIP_GRANT_CONTEXT : List UInt8 := encode "vnidrop-relationship-grant-v1".toList

def CAPABILITY_CONTEXT : Str := "vnidrop-pairing-eligibility-v1".toList

/-- The fields that an authorization binds. -/
structure TargetedAuthorizationDraft where
  transferId : Field
  protocolTransferId : UInt64
  senderEndpointId : Field
  receiverEndpointId : Field
  manifestId : Field
  contentHash : Field
  fileCount : UInt64
  totalSize : UInt64
  protocolVersion : UInt16
  transferName : Field
  blobTicket : Field

structure TargetedAuthorization extends TargetedAuthorizationDraft where
  authSecret : Field
  mac : Field

/-- `HEXLOWER.decode`. -/
def hexDecode : List UInt8 → Option (List UInt8)
  | [] => some []
  | [_] => none
  | high :: low :: rest => do
    let h ← digit high
    let l ← digit low
    let bytes ← hexDecode rest
    return UInt8.ofNat (16 * h + l) :: bytes
where
  digit (b : UInt8) : Option Nat :=
    if 48 ≤ b.toNat ∧ b.toNat ≤ 57 then some (b.toNat - 48)
    else if 97 ≤ b.toNat ∧ b.toNat ≤ 102 then some (b.toNat - 87)
    else none

/-- A field behind its length. -/
def field (s : Field) : List UInt8 := leBytes 8 (encode s.1).length ++ encode s.1

namespace TargetedAuthorization

/-- What `compute_mac` feeds to the hash. -/
def transcript (a : TargetedAuthorizationDraft) : List UInt8 :=
  AUTH_CONTEXT ++
    [a.transferId,a.senderEndpointId,a.receiverEndpointId,a.manifestId,a.contentHash,a.transferName,a.blobTicket].flatMap
      field ++
    leBytes 8 a.protocolTransferId.toNat ++ leBytes 8 a.fileCount.toNat ++ leBytes 8 a.totalSize.toNat ++
    leBytes 2 a.protocolVersion.toNat

def computeMac (keyed : Digest → List UInt8 → Digest) (a : TargetedAuthorization) : Except VnidropError Digest :=
  match hexDecode (encode a.authSecret.1) with
  | none => .error (.invalidInput "invalid authorization secret")
  | some secret =>
    if length : secret.length = 32 then .ok (keyed ⟨secret.toArray,by simpa using length⟩ (transcript a.toTargetedAuthorizationDraft))
    else .error (.invalidInput "invalid authorization secret length")

end TargetedAuthorization

/-- What `relationship_mac` feeds to the hash. -/
def relationshipTranscript (challenge : Digest) (issuer holder : Field) (generation : UInt64) (protocolVersion : UInt16) :
    List UInt8 :=
  RELATIONSHIP_GRANT_CONTEXT ++ challenge.toList ++ field issuer ++ field holder ++ leBytes 8 generation.toNat ++
    leBytes 2 protocolVersion.toNat

def relationshipMac (keyed : Digest → List UInt8 → Digest) (secret challenge : Digest) (issuer holder : Field)
    (generation : UInt64) (protocolVersion : UInt16) : Digest :=
  keyed secret (relationshipTranscript challenge issuer holder generation protocolVersion)

/-- `sort_unstable` of the two endpoints, which compares their bytes. -/
def sorted (a b : Field) : Field × Field := if encode b.1 < encode a.1 then (b,a) else (a,b)

/-- What `derive_capability` feeds to the hash. -/
def capabilityPreimage (approvalToken localEndpointId peerEndpointId sessionId : Field) (protocolVersion : UInt16) :
    List UInt8 :=
  let endpoints := sorted localEndpointId peerEndpointId
  encode approvalToken.1 ++ [0] ++ encode endpoints.1.1 ++ [0] ++ encode endpoints.2.1 ++ [0] ++ encode sessionId.1 ++ [0] ++
    leBytes 2 protocolVersion.toNat

def deriveCapability (derive : Str → List UInt8 → Digest) (approvalToken localEndpointId peerEndpointId sessionId : Field)
    (protocolVersion : UInt16) : Digest :=
  derive CAPABILITY_CONTEXT
    (capabilityPreimage approvalToken localEndpointId peerEndpointId sessionId protocolVersion)

/-- The text has no NUL. -/
def NulFree (s : Field) : Prop := Char.ofNat 0 ∉ s.1

abbrev NulFreeField := {s : Field // NulFree s}

/-! What each of them can be told from. -/
section

variable {a b : TargetedAuthorizationDraft} {s t : Field}

theorem encode_injective : Function.Injective fun s : Field => encode s.1 :=
  fun _ _ same => Subtype.ext (Utf8.encode_inj.mp same)

theorem field_code : Delimited field :=
  framed encode_injective fun s => Nat.lt_of_le_of_lt s.2 (by norm_num)

theorem transcript_injective (same : TargetedAuthorization.transcript a = TargetedAuthorization.transcript b) : a = b := by
  have numbers := u64_code.pair (u64_code.pair (u64_code.pair u16_code))
  let texts (d : TargetedAuthorizationDraft) : List.Vector Field 7 :=
    ⟨[d.transferId,d.senderEndpointId,d.receiverEndpointId,d.manifestId,d.contentHash,d.transferName,d.blobTicket],rfl⟩
  unfold TargetedAuthorization.transcript at same
  simp only [List.append_assoc] at same
  replace same := List.append_cancel_left same
  obtain ⟨fields,rest⟩ := field_code.vector 7 (texts a) (texts b) _ _ same
  have rests : (a.protocolTransferId,a.fileCount,a.totalSize,a.protocolVersion) =
      (b.protocolTransferId,b.fileCount,b.totalSize,b.protocolVersion) := numbers.injective rest
  have lists := congrArg List.Vector.toList fields
  cases a
  cases b
  simp only [texts,List.Vector.toList_mk,List.cons.injEq,Prod.mk.injEq] at lists rests
  simp [lists,rests]

theorem relationshipTranscript_injective {challenge challenge' : Digest} {issuer issuer' holder holder' : Field}
    {generation generation' : UInt64} {protocolVersion protocolVersion' : UInt16}
    (same : relationshipTranscript challenge issuer holder generation protocolVersion =
      relationshipTranscript challenge' issuer' holder' generation' protocolVersion') :
    challenge = challenge' ∧ issuer = issuer' ∧ holder = holder' ∧ generation = generation' ∧
      protocolVersion = protocolVersion' := by
  have challenges : Delimited fun c : Digest => c.toList :=
    of_length (fun _ _ => Vector.toList_inj.mp) fun c => c.length_toList
  have code := challenges.pair (field_code.pair (field_code.pair (u64_code.pair u16_code)))
  unfold relationshipTranscript at same
  simp only [List.append_assoc] at same
  have parts : (challenge,issuer,holder,generation,protocolVersion) =
      (challenge',issuer',holder',generation',protocolVersion') := code.injective (List.append_cancel_left same)
  simpa only [Prod.mk.injEq] using parts

theorem zero_not_mem (free : NulFree s) : (0 : UInt8) ∉ encode s.1 := by
  intro inside
  obtain ⟨before,after,split⟩ := List.append_of_mem inside
  have part : [Char.ofNat 0] <:+: (encode s.1).map Utf8.asChar :=
    ⟨before.map Utf8.asChar,after.map Utf8.asChar,by rw [split,List.map_append,List.map_cons,List.append_assoc]; rfl⟩
  have ascii : ∀ c ∈ [Char.ofNat 0], Utf8.Ascii c := List.forall_mem_singleton.mpr (show 0 < 128 by decide)
  exact free ((Utf8.infix_of_bytes ascii part).subset List.mem_cons_self)

/-- A field without a NUL, and the NUL after it. -/
theorem nul_code : Delimited fun s : NulFreeField => encode s.1.1 ++ [0] :=
  terminated (encode_injective.comp Subtype.val_injective) fun s => zero_not_mem s.2

theorem sorted_comm (s t : Field) : sorted s t = sorted t s := by
  unfold sorted
  by_cases below : encode t.1 < encode s.1
  · rw [if_pos below,if_neg (List.lt_asymm below)]
  · rw [if_neg below]
    by_cases above : encode s.1 < encode t.1
    · rw [if_pos above]
    · rw [if_neg above]
      have same : s = t := encode_injective (List.le_antisymm below above)
      rw [same]

theorem sorted_pair (s t : Field) : s((sorted s t).1,(sorted s t).2) = s(s,t) := by
  unfold sorted
  split
  · exact Sym2.eq_swap
  · rfl

theorem sorted_free (free : NulFree s) (free' : NulFree t) : NulFree (sorted s t).1 ∧ NulFree (sorted s t).2 := by
  unfold sorted
  split
  · exact ⟨free',free⟩
  · exact ⟨free,free'⟩

theorem capabilityPreimage_injective {token token' here here' peer peer' session session' : Field}
    {protocolVersion protocolVersion' : UInt16}
    (free : ∀ s ∈ [token,token',here,here',peer,peer',session,session'], NulFree s)
    (same : capabilityPreimage token here peer session protocolVersion =
      capabilityPreimage token' here' peer' session' protocolVersion') :
    token = token' ∧ session = session' ∧ protocolVersion = protocolVersion' ∧ s(here,peer) = s(here',peer') := by
  simp only [List.forall_mem_cons] at free
  obtain ⟨tokenFree,tokenFree',hereFree,hereFree',peerFree,peerFree',sessionFree,sessionFree',-⟩ := free
  obtain ⟨lowFree,highFree⟩ := sorted_free hereFree peerFree
  obtain ⟨lowFree',highFree'⟩ := sorted_free hereFree' peerFree'
  have code := nul_code.pair (nul_code.pair (nul_code.pair (nul_code.pair u16_code)))
  unfold capabilityPreimage at same
  simp only [List.append_assoc] at same
  have parts : ((⟨token,tokenFree⟩,⟨_,lowFree⟩,⟨_,highFree⟩,⟨session,sessionFree⟩,protocolVersion) :
      NulFreeField × NulFreeField × NulFreeField × NulFreeField × UInt16) =
      (⟨token',tokenFree'⟩,⟨_,lowFree'⟩,⟨_,highFree'⟩,⟨session',sessionFree'⟩,protocolVersion') :=
    code.injective (by simpa only [List.append_assoc] using same)
  simp only [Prod.mk.injEq,Subtype.mk.injEq] at parts
  obtain ⟨tokens,lows,highs,sessions,versions⟩ := parts
  exact ⟨tokens,sessions,versions,by rw [← sorted_pair here,← sorted_pair here',lows,highs]⟩

theorem capabilityPreimage_comm (token here peer session : Field) (protocolVersion : UInt16) :
    capabilityPreimage token here peer session protocolVersion =
      capabilityPreimage token peer here session protocolVersion := by
  rw [capabilityPreimage,sorted_comm here peer]
  rfl

/-- The hashes are of the same bytes for the same fields only, and both sides of a session derive one capability. -/
theorem transcripts_exact :
    (∀ a b, TargetedAuthorization.transcript a = TargetedAuthorization.transcript b → a = b) ∧
    (∀ challenge challenge' issuer issuer' holder holder' generation generation' protocolVersion protocolVersion',
      relationshipTranscript challenge issuer holder generation protocolVersion =
        relationshipTranscript challenge' issuer' holder' generation' protocolVersion' →
      challenge = challenge' ∧ issuer = issuer' ∧ holder = holder' ∧ generation = generation' ∧
        protocolVersion = protocolVersion') ∧
    (∀ token token' here here' peer peer' session session' protocolVersion protocolVersion',
      (∀ s ∈ [token,token',here,here',peer,peer',session,session'], NulFree s) →
      capabilityPreimage token here peer session protocolVersion =
        capabilityPreimage token' here' peer' session' protocolVersion' →
      token = token' ∧ session = session' ∧ protocolVersion = protocolVersion' ∧ s(here,peer) = s(here',peer')) ∧
    ∀ derive token here peer session protocolVersion,
      capabilityPreimage token here peer session protocolVersion =
        capabilityPreimage token peer here session protocolVersion ∧
      deriveCapability derive token here peer session protocolVersion =
        deriveCapability derive token peer here session protocolVersion :=
  ⟨fun _ _ => transcript_injective,
    fun _ _ _ _ _ _ _ _ _ _ => relationshipTranscript_injective,
    fun _ _ _ _ _ _ _ _ _ _ => capabilityPreimage_injective,
    fun _ token here peer session protocolVersion =>
      have both := capabilityPreimage_comm token here peer session protocolVersion
      ⟨both,by rw [deriveCapability,both]; rfl⟩⟩

end

end Vnidrop.Transcripts
