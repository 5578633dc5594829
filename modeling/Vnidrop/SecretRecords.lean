import Vnidrop.ByteNumbers
import Vnidrop.Paths
import Vnidrop.SecretCustody
import Vnidrop.Utf8

/-! The files in which the secret stores of two platforms keep what the system has sealed. -/
namespace Vnidrop.SecretRecords

open ByteNumbers SelfDelimiting
open Paths (Str)
open SecretCustody (SecureSecretStoreError)
open Utf8 (encode decode?)

/-- `try_from` of a length to an unsigned number of so many bytes. -/
def lengthOf (error : SecureSecretStoreError) (width : Nat) (bytes : List UInt8) : Except SecureSecretStoreError Nat :=
  if bytes.length < 256 ^ width then .ok bytes.length else .error error

theorem lengthOf_ok {error : SecureSecretStoreError} {width n : Nat} {bytes : List UInt8} :
    lengthOf error width bytes = .ok n ↔ bytes.length < 256 ^ width ∧ n = bytes.length := by
  unfold lengthOf
  split <;> simp_all [eq_comm]

/-! Android. -/

def RECORD_MAGIC : List UInt8 := encode "VNDASK01".toList

def RECORD_STAGED : UInt8 := 0

def RECORD_SEALED : UInt8 := 1

structure AndroidSealedValue where
  nonce : List UInt8
  ciphertext : List UInt8
  deriving DecidableEq, Repr

/-- What `parse_record` reads. -/
structure Record where
  handle : Str
  state : UInt8
  nonce : List UInt8
  ciphertext : List UInt8
  deriving DecidableEq, Repr

def payload (state : UInt8) (sealed : Option AndroidSealedValue) : Except SecureSecretStoreError AndroidSealedValue :=
  match sealed with
  | none => if state = RECORD_STAGED then .ok ⟨[],[]⟩ else .error .corrupted
  | some value => if state = RECORD_SEALED then .ok value else .error .corrupted

def encodeRecord (handle : Str) (state : UInt8) (sealed : Option AndroidSealedValue) :
    Except SecureSecretStoreError (List UInt8) := do
  let handleBytes := encode handle
  let handleLen ← lengthOf .corrupted 2 handleBytes
  let value ← payload state sealed
  let nonceLen ← lengthOf .corrupted 2 value.nonce
  let ciphertextLen ← lengthOf .corrupted 4 value.ciphertext
  return RECORD_MAGIC ++ state :: beBytes 2 handleLen ++ beBytes 2 nonceLen ++ beBytes 4 ciphertextLen ++
    handleBytes ++ value.nonce ++ value.ciphertext

def parseRecord (bytes : List UInt8) : Except SecureSecretStoreError Record :=
  if bytes.take 8 ≠ RECORD_MAGIC then .error .corrupted
  else match bytes.drop 8 with
    | state :: h₀ :: h₁ :: n₀ :: n₁ :: c₀ :: c₁ :: c₂ :: c₃ :: body =>
      if state ≠ RECORD_STAGED ∧ state ≠ RECORD_SEALED then .error .corrupted
      else
        let handleLen := beNat [h₀,h₁]
        let nonceLen := beNat [n₀,n₁]
        let ciphertextLen := beNat [c₀,c₁,c₂,c₃]
        if body.length ≠ handleLen + nonceLen + ciphertextLen then .error .corrupted
        else match decode? (body.take handleLen) with
          | some handle => .ok ⟨handle,state,(body.drop handleLen).take nonceLen,body.drop (handleLen + nonceLen)⟩
          | none => .error .corrupted
    | _ => .error .corrupted

def decodeRecord (bytes : List UInt8) (expectedHandle : Str) : Except SecureSecretStoreError AndroidSealedValue := do
  let record ← parseRecord bytes
  if record.handle ≠ expectedHandle ∨ record.state ≠ RECORD_SEALED then .error .corrupted
  else if record.nonce = [] ∨ record.ciphertext = [] then .error .corrupted
  else return ⟨record.nonce,record.ciphertext⟩

def decodeHandleFromRecord (bytes : List UInt8) : Except SecureSecretStoreError Str := do
  let record ← parseRecord bytes
  return record.handle

/-- The bytes of a record. -/
def Record.frame (r : Record) : List UInt8 :=
  RECORD_MAGIC ++ r.state :: beBytes 2 (encode r.handle).length ++ beBytes 2 r.nonce.length ++
    beBytes 4 r.ciphertext.length ++ encode r.handle ++ r.nonce ++ r.ciphertext

/-- A record that has a state and whose lengths can be written. -/
structure Record.Fits (r : Record) : Prop where
  state : r.state = RECORD_STAGED ∨ r.state = RECORD_SEALED
  handle : (encode r.handle).length < 256 ^ 2
  nonce : r.nonce.length < 256 ^ 2
  ciphertext : r.ciphertext.length < 256 ^ 4

theorem length_RECORD_MAGIC : RECORD_MAGIC.length = 8 := by decide

theorem beBytes_two {n : Nat} (small : n < 256 ^ 2) : ∃ a b, beBytes 2 n = [a,b] ∧ beNat [a,b] = n := by
  obtain ⟨a,b,same⟩ := List.length_eq_two.mp (length_beBytes 2 n)
  exact ⟨a,b,same,same ▸ beNat_beBytes small⟩

theorem beBytes_four {n : Nat} (small : n < 256 ^ 4) : ∃ a b c d, beBytes 4 n = [a,b,c,d] ∧ beNat [a,b,c,d] = n := by
  match same : beBytes 4 n,length_beBytes 4 n with
  | [a,b,c,d],_ => exact ⟨a,b,c,d,rfl,same ▸ beNat_beBytes small⟩

/-- What is accepted is exactly what records are written as. -/
theorem parseRecord_ok {bytes : List UInt8} {r : Record} : parseRecord bytes = .ok r ↔ r.Fits ∧ bytes = r.frame := by
  constructor
  · intro parsed
    unfold parseRecord at parsed
    split at parsed
    · cases parsed
    rename_i magic
    split at parsed
    · rename_i state h₀ h₁ n₀ n₁ c₀ c₁ c₂ c₃ body rest
      split at parsed
      · cases parsed
      rename_i known
      simp only at parsed
      split at parsed
      · cases parsed
      rename_i length
      split at parsed
      · rename_i handle read
        cases parsed
        have text : encode handle = body.take (beNat [h₀,h₁]) := (Utf8.decode?_eq_some.mp read).symm
        have handleLen : (encode handle).length = beNat [h₀,h₁] := by
          rw [text,List.length_take]
          omega
        have nonceLen : ((body.drop (beNat [h₀,h₁])).take (beNat [n₀,n₁])).length = beNat [n₀,n₁] := by
          rw [List.length_take,List.length_drop]
          omega
        have ciphertextLen : (body.drop (beNat [h₀,h₁] + beNat [n₀,n₁])).length = beNat [c₀,c₁,c₂,c₃] := by
          rw [List.length_drop]
          omega
        refine ⟨⟨by tauto,?_,?_,?_⟩,?_⟩
        · exact handleLen.trans_lt (beNat_lt [h₀,h₁])
        · exact nonceLen.trans_lt (beNat_lt [n₀,n₁])
        · exact ciphertextLen.trans_lt (beNat_lt [c₀,c₁,c₂,c₃])
        · have header : bytes = RECORD_MAGIC ++ bytes.drop 8 := by
            rw [← not_not.mp magic,List.take_append_drop]
          have parts : encode handle ++ (body.drop (beNat [h₀,h₁])).take (beNat [n₀,n₁]) ++
              body.drop (beNat [h₀,h₁] + beNat [n₀,n₁]) = body := by
            rw [text,List.append_assoc,← List.drop_drop,List.take_append_drop,List.take_append_drop]
          have lens := And.intro (beBytes_beNat [h₀,h₁]) (And.intro (beBytes_beNat [n₀,n₁]) (beBytes_beNat [c₀,c₁,c₂,c₃]))
          simp only [List.length_cons,List.length_nil,Nat.zero_add,Nat.reduceAdd] at lens
          rw [header,rest]
          simp only [Record.frame,handleLen,nonceLen,ciphertextLen,lens]
          simpa using parts.symm
      · cases parsed
    · cases parsed
  · rintro ⟨fits,rfl⟩
    obtain ⟨h₀,h₁,handleBytes,handleLen⟩ := beBytes_two fits.handle
    obtain ⟨n₀,n₁,nonceBytes,nonceLen⟩ := beBytes_two fits.nonce
    obtain ⟨c₀,c₁,c₂,c₃,ciphertextBytes,ciphertextLen⟩ := beBytes_four fits.ciphertext
    have header : r.frame = RECORD_MAGIC ++ r.state :: h₀ :: h₁ :: n₀ :: n₁ :: c₀ :: c₁ :: c₂ :: c₃ ::
        (encode r.handle ++ (r.nonce ++ r.ciphertext)) := by
      simp [Record.frame,handleBytes,nonceBytes,ciphertextBytes]
    have magic : r.frame.take 8 = RECORD_MAGIC := by
      rw [header,← length_RECORD_MAGIC,List.take_left]
    have rest := congrArg (List.drop 8) header
    rw [← length_RECORD_MAGIC,List.drop_left,length_RECORD_MAGIC] at rest
    have known : ¬(r.state ≠ RECORD_STAGED ∧ r.state ≠ RECORD_SEALED) := by
      have := fits.state
      tauto
    have read : decode? ((encode r.handle ++ (r.nonce ++ r.ciphertext)).take (encode r.handle).length) = some r.handle := by
      rw [List.take_left,Utf8.decode?_encode]
    simp only [parseRecord,magic,ne_eq,not_true_eq_false,if_false,rest,handleLen,nonceLen,ciphertextLen,read]
    rw [if_neg known,if_neg (by simp [Nat.add_assoc])]
    simp [← List.drop_drop]

theorem payload_ok {state : UInt8} {sealed : Option AndroidSealedValue} {value : AndroidSealedValue}
    (h : payload state sealed = .ok value) : state = RECORD_STAGED ∧ sealed = none ∧ value = ⟨[],[]⟩ ∨
      state = RECORD_SEALED ∧ sealed = some value := by
  cases sealed <;> simp only [payload] at h <;> split at h <;> cases h <;> simp_all

theorem encodeRecord_ok {handle : Str} {state : UInt8} {sealed : Option AndroidSealedValue} {bytes : List UInt8} :
    encodeRecord handle state sealed = .ok bytes ↔ ∃ value, payload state sealed = .ok value ∧
      (⟨handle,state,value.nonce,value.ciphertext⟩ : Record).Fits ∧
      bytes = (⟨handle,state,value.nonce,value.ciphertext⟩ : Record).frame := by
  constructor
  · intro written
    obtain ⟨n,short,written⟩ := Excepts.bind_ok.mp written
    obtain ⟨value,held,written⟩ := Excepts.bind_ok.mp written
    obtain ⟨m,nonce,written⟩ := Excepts.bind_ok.mp written
    obtain ⟨k,ciphertext,written⟩ := Excepts.bind_ok.mp written
    obtain ⟨handleFits,rfl⟩ := lengthOf_ok.mp short
    obtain ⟨nonceFits,rfl⟩ := lengthOf_ok.mp nonce
    obtain ⟨ciphertextFits,rfl⟩ := lengthOf_ok.mp ciphertext
    have known : state = RECORD_STAGED ∨ state = RECORD_SEALED := (payload_ok held).imp And.left And.left
    exact ⟨value,held,⟨known,handleFits,nonceFits,ciphertextFits⟩,(Except.ok.inj written).symm⟩
  · rintro ⟨value,held,fits,rfl⟩
    exact Excepts.bind_ok.mpr ⟨_,lengthOf_ok.mpr ⟨fits.handle,rfl⟩,Excepts.bind_ok.mpr ⟨value,held,
      Excepts.bind_ok.mpr ⟨_,lengthOf_ok.mpr ⟨fits.nonce,rfl⟩,
        Excepts.bind_ok.mpr ⟨_,lengthOf_ok.mpr ⟨fits.ciphertext,rfl⟩,rfl⟩⟩⟩⟩

theorem parseRecord_encodeRecord {handle : Str} {state : UInt8} {sealed : Option AndroidSealedValue} {bytes : List UInt8}
    (h : encodeRecord handle state sealed = .ok bytes) :
    ∃ value, payload state sealed = .ok value ∧ parseRecord bytes = .ok ⟨handle,state,value.nonce,value.ciphertext⟩ := by
  obtain ⟨value,held,fits,same⟩ := encodeRecord_ok.mp h
  exact ⟨value,held,parseRecord_ok.mpr ⟨fits,same⟩⟩

theorem decodeRecord_ok {handle : Str} {value : AndroidSealedValue} {bytes : List UInt8} :
    decodeRecord bytes handle = .ok value ↔
      encodeRecord handle RECORD_SEALED (some value) = .ok bytes ∧ value.nonce ≠ [] ∧ value.ciphertext ≠ [] := by
  constructor
  · intro read
    obtain ⟨r,parsed,read⟩ := Excepts.bind_ok.mp read
    split at read
    · cases read
    rename_i own
    split at read
    · cases read
    rename_i full
    cases read
    push Not at own full
    obtain ⟨fits,rfl⟩ := parseRecord_ok.mp parsed
    obtain ⟨rfl,sealed⟩ := own
    refine ⟨encodeRecord_ok.mpr ⟨⟨r.nonce,r.ciphertext⟩,by simp [payload],?_,?_⟩,full⟩
    · exact ⟨.inr rfl,fits.handle,fits.nonce,fits.ciphertext⟩
    · simp only [Record.frame,sealed]
  · rintro ⟨written,nonce,ciphertext⟩
    obtain ⟨held,same,parsed⟩ := parseRecord_encodeRecord written
    cases same
    simp [decodeRecord,parsed,nonce,ciphertext,bind,Except.bind,pure,Except.pure]

theorem decodeHandle_encodeRecord {handle : Str} {bytes : List UInt8} {state : UInt8} {sealed : Option AndroidSealedValue}
    (written : encodeRecord handle state sealed = .ok bytes) : decodeHandleFromRecord bytes = .ok handle := by
  obtain ⟨value,-,parsed⟩ := parseRecord_encodeRecord written
  simp [decodeHandleFromRecord,parsed,bind,Except.bind,pure,Except.pure]

/-- `decode_record` accepts exactly what `put` writes for the handle, and every record that is
written names its handle. -/
theorem record_exact {handle : Str} {bytes : List UInt8} :
    (∀ value, decodeRecord bytes handle = .ok value ↔
      encodeRecord handle RECORD_SEALED (some value) = .ok bytes ∧ value.nonce ≠ [] ∧ value.ciphertext ≠ []) ∧
    ∀ state sealed, encodeRecord handle state sealed = .ok bytes → decodeHandleFromRecord bytes = .ok handle :=
  ⟨fun _ => decodeRecord_ok,fun _ _ written => decodeHandle_encodeRecord written⟩

/-! Windows. -/

def ENVELOPE_MAGIC : List UInt8 := encode "VNIDPAPI".toList

def ENVELOPE_VERSION : UInt8 := 1

def MAX_ENVELOPE_BYTES : Nat := 64 * 1024

def PROTECTED_PAYLOAD_MAGIC : List UInt8 := encode "VNIDROP-SECRET-V1".toList

def encodeEnvelope (handle : Str) (ciphertext : List UInt8) : Except SecureSecretStoreError (List UInt8) := do
  let handleBytes := encode handle
  let handleLen ← lengthOf .unavailable 2 handleBytes
  let ciphertextLen ← lengthOf .unavailable 4 ciphertext
  if ENVELOPE_MAGIC.length + 1 + 2 + 4 + handleBytes.length + ciphertext.length > MAX_ENVELOPE_BYTES then .error .unavailable
  else return ENVELOPE_MAGIC ++ ENVELOPE_VERSION :: leBytes 2 handleLen ++ leBytes 4 ciphertextLen ++ handleBytes ++ ciphertext

def decodeEnvelopeParts (envelope : List UInt8) : Except SecureSecretStoreError (Str × List UInt8) :=
  if envelope.length > MAX_ENVELOPE_BYTES ∨ envelope.take 8 ≠ ENVELOPE_MAGIC then .error .corrupted
  else match envelope.drop 8 with
    | version :: h₀ :: h₁ :: c₀ :: c₁ :: c₂ :: c₃ :: body =>
      if version ≠ ENVELOPE_VERSION then .error .corrupted
      else
        let handleLen := leNat [h₀,h₁]
        let ciphertextLen := leNat [c₀,c₁,c₂,c₃]
        if handleLen = 0 ∨ ciphertextLen = 0 ∨ handleLen + ciphertextLen ≠ body.length then .error .corrupted
        else match decode? (body.take handleLen) with
          | some handle => .ok (handle,body.drop handleLen)
          | none => .error .corrupted
    | _ => .error .corrupted

def decodeEnvelope (envelope : List UInt8) (expectedHandle : Str) : Except SecureSecretStoreError (List UInt8) := do
  let (handle,ciphertext) ← decodeEnvelopeParts envelope
  if handle ≠ expectedHandle then .error .corrupted
  else return ciphertext

section Payload

variable (blake3 : List UInt8 → Vector UInt8 32)

def encodeProtectedPayload (plaintext : List UInt8) : Except SecureSecretStoreError (List UInt8) := do
  let length ← lengthOf .unavailable 4 plaintext
  let payload := PROTECTED_PAYLOAD_MAGIC ++ leBytes 4 length ++ plaintext
  return payload ++ (blake3 payload).toList

def decodeProtectedPayload (payload : List UInt8) : Except SecureSecretStoreError (List UInt8) :=
  let headerEnd := PROTECTED_PAYLOAD_MAGIC.length + 4
  if payload.length < headerEnd + 32 ∨ payload.take PROTECTED_PAYLOAD_MAGIC.length ≠ PROTECTED_PAYLOAD_MAGIC then
    .error .corrupted
  else
    let length := leNat ((payload.drop PROTECTED_PAYLOAD_MAGIC.length).take 4)
    let materialEnd := headerEnd + length
    if materialEnd + 32 ≠ payload.length then .error .corrupted
    else if (blake3 (payload.take materialEnd)).toList ≠ payload.drop materialEnd then .error .corrupted
    else .ok ((payload.take materialEnd).drop headerEnd)

end Payload

/-- The bytes of an envelope. -/
def envelopeFrame (handle : Str) (ciphertext : List UInt8) : List UInt8 :=
  ENVELOPE_MAGIC ++ ENVELOPE_VERSION :: leBytes 2 (encode handle).length ++ leBytes 4 ciphertext.length ++ encode handle ++
    ciphertext

theorem length_ENVELOPE_MAGIC : ENVELOPE_MAGIC.length = 8 := by decide

theorem length_PROTECTED_PAYLOAD_MAGIC : PROTECTED_PAYLOAD_MAGIC.length = 17 := by decide

theorem length_envelopeFrame (handle : Str) (ciphertext : List UInt8) :
    (envelopeFrame handle ciphertext).length = 15 + (encode handle).length + ciphertext.length := by
  simp [envelopeFrame,length_ENVELOPE_MAGIC]
  omega

theorem encodeEnvelope_ok {handle : Str} {ciphertext bytes : List UInt8} :
    encodeEnvelope handle ciphertext = .ok bytes ↔
      bytes = envelopeFrame handle ciphertext ∧ bytes.length ≤ MAX_ENVELOPE_BYTES := by
  constructor
  · intro written
    obtain ⟨n,short,written⟩ := Excepts.bind_ok.mp written
    obtain ⟨m,long,written⟩ := Excepts.bind_ok.mp written
    obtain ⟨-,rfl⟩ := lengthOf_ok.mp short
    obtain ⟨-,rfl⟩ := lengthOf_ok.mp long
    split at written
    · cases written
    rename_i fits
    cases written
    refine ⟨rfl,?_⟩
    have := length_envelopeFrame handle ciphertext
    simp only [length_ENVELOPE_MAGIC] at fits
    rw [envelopeFrame] at this
    omega
  · rintro ⟨rfl,fits⟩
    rw [length_envelopeFrame] at fits
    have short : (encode handle).length < 256 ^ 2 := by
      unfold MAX_ENVELOPE_BYTES at fits
      omega
    have long : ciphertext.length < 256 ^ 4 := by
      unfold MAX_ENVELOPE_BYTES at fits
      omega
    refine Excepts.bind_ok.mpr ⟨_,lengthOf_ok.mpr ⟨short,rfl⟩,Excepts.bind_ok.mpr ⟨_,lengthOf_ok.mpr ⟨long,rfl⟩,?_⟩⟩
    rw [if_neg (by rw [length_ENVELOPE_MAGIC]; omega)]
    rfl

theorem leBytes_two {n : Nat} (small : n < 256 ^ 2) : ∃ a b, leBytes 2 n = [a,b] ∧ leNat [a,b] = n := by
  obtain ⟨a,b,same⟩ := List.length_eq_two.mp (length_leBytes 2 n)
  exact ⟨a,b,same,same ▸ leNat_leBytes small⟩

theorem leBytes_four {n : Nat} (small : n < 256 ^ 4) : ∃ a b c d, leBytes 4 n = [a,b,c,d] ∧ leNat [a,b,c,d] = n := by
  match same : leBytes 4 n,length_leBytes 4 n with
  | [a,b,c,d],_ => exact ⟨a,b,c,d,rfl,same ▸ leNat_leBytes small⟩

theorem encode_eq_nil {s : Str} : encode s = [] ↔ s = [] := by
  rw [← Utf8.encode_nil,Utf8.encode_inj]

theorem decodeEnvelopeParts_ok {envelope ciphertext : List UInt8} {handle : Str} :
    decodeEnvelopeParts envelope = .ok (handle,ciphertext) ↔
      envelope = envelopeFrame handle ciphertext ∧ envelope.length ≤ MAX_ENVELOPE_BYTES ∧ handle ≠ [] ∧ ciphertext ≠ [] := by
  constructor
  · intro parsed
    unfold decodeEnvelopeParts at parsed
    split at parsed
    · cases parsed
    rename_i outer
    push Not at outer
    split at parsed
    · rename_i version h₀ h₁ c₀ c₁ c₂ c₃ body rest
      split at parsed
      · cases parsed
      rename_i known
      simp only at parsed
      split at parsed
      · cases parsed
      rename_i lengths
      push Not at known lengths
      split at parsed
      · rename_i handle' read
        cases parsed
        have text : encode handle = body.take (leNat [h₀,h₁]) := (Utf8.decode?_eq_some.mp read).symm
        have handleLen : (encode handle).length = leNat [h₀,h₁] := by
          rw [text,List.length_take]
          omega
        have ciphertextLen : (body.drop (leNat [h₀,h₁])).length = leNat [c₀,c₁,c₂,c₃] := by
          rw [List.length_drop]
          omega
        refine ⟨?_,outer.1,fun empty => lengths.1 ?_,fun empty => lengths.2.1 ?_⟩
        · have header : envelope = ENVELOPE_MAGIC ++ envelope.drop 8 := by
            rw [← outer.2,List.take_append_drop]
          have parts : encode handle ++ body.drop (leNat [h₀,h₁]) = body := by
            rw [text,List.take_append_drop]
          have lens := And.intro (leBytes_leNat [h₀,h₁]) (leBytes_leNat [c₀,c₁,c₂,c₃])
          simp only [List.length_cons,List.length_nil,Nat.zero_add,Nat.reduceAdd] at lens
          rw [header,rest,known]
          simp only [envelopeFrame,handleLen,ciphertextLen,lens]
          simpa using parts.symm
        · rw [← handleLen,empty]
          rfl
        · rw [← ciphertextLen,empty]
          rfl
      · cases parsed
    · cases parsed
  · rintro ⟨rfl,fits,handleFull,ciphertextFull⟩
    have total := length_envelopeFrame handle ciphertext
    have most : MAX_ENVELOPE_BYTES = 65536 := rfl
    obtain ⟨h₀,h₁,handleBytes,handleLen⟩ := leBytes_two (n := (encode handle).length) (by omega)
    obtain ⟨c₀,c₁,c₂,c₃,ciphertextBytes,ciphertextLen⟩ := leBytes_four (n := ciphertext.length) (by omega)
    have header : envelopeFrame handle ciphertext =
        ENVELOPE_MAGIC ++ ENVELOPE_VERSION :: h₀ :: h₁ :: c₀ :: c₁ :: c₂ :: c₃ :: (encode handle ++ ciphertext) := by
      simp [envelopeFrame,handleBytes,ciphertextBytes]
    have magic : (envelopeFrame handle ciphertext).take 8 = ENVELOPE_MAGIC := by
      rw [header,← length_ENVELOPE_MAGIC,List.take_left]
    have rest := congrArg (List.drop 8) header
    rw [← length_ENVELOPE_MAGIC,List.drop_left,length_ENVELOPE_MAGIC] at rest
    have read : decode? ((encode handle ++ ciphertext).take (encode handle).length) = some handle := by
      rw [List.take_left,Utf8.decode?_encode]
    unfold decodeEnvelopeParts
    rw [if_neg (by rw [magic]; simpa using fits)]
    simp only [rest,ne_eq,not_true_eq_false,if_false,handleLen,ciphertextLen,read]
    rw [if_neg (by simp [encode_eq_nil,handleFull,ciphertextFull]),List.drop_left]

/-- `decode_envelope` accepts exactly what `put` writes for the handle. -/
theorem envelope_exact {handle : Str} {ciphertext bytes : List UInt8} :
    decodeEnvelope bytes handle = .ok ciphertext ↔
      encodeEnvelope handle ciphertext = .ok bytes ∧ handle ≠ [] ∧ ciphertext ≠ [] := by
  rw [encodeEnvelope_ok]
  constructor
  · intro read
    obtain ⟨⟨named,held⟩,parsed,read⟩ := Excepts.bind_ok.mp read
    dsimp only at read
    split at read
    · cases read
    rename_i own
    cases read
    obtain rfl := not_not.mp own
    obtain ⟨same,fits,full⟩ := decodeEnvelopeParts_ok.mp parsed
    exact ⟨⟨same,fits⟩,full⟩
  · rintro ⟨⟨same,fits⟩,full⟩
    refine Excepts.bind_ok.mpr ⟨_,decodeEnvelopeParts_ok.mpr ⟨same,fits,full⟩,?_⟩
    exact if_neg (by simp)

/-- What DPAPI gives back is accepted exactly if it is what was given to it for that material. -/
theorem payload_exact {blake3 : List UInt8 → Vector UInt8 32} {payload plaintext : List UInt8} :
    decodeProtectedPayload blake3 payload = .ok plaintext ↔ encodeProtectedPayload blake3 plaintext = .ok payload := by
  constructor
  · intro read
    unfold decodeProtectedPayload at read
    simp only [length_PROTECTED_PAYLOAD_MAGIC,Nat.reduceAdd] at read
    split at read
    · cases read
    rename_i outer
    split at read
    · cases read
    rename_i total
    split at read
    · cases read
    rename_i digest
    cases read
    push Not at outer
    obtain digest := not_not.mp digest
    generalize lengthBytes : (payload.drop 17).take 4 = field at total digest ⊢
    have four : field.length = 4 := by
      rw [← lengthBytes,List.length_take,List.length_drop]
      omega
    have header : payload.take 21 = PROTECTED_PAYLOAD_MAGIC ++ field := by
      rw [← outer.2,← lengthBytes,← List.take_add]
    have plain : ((payload.take (21 + leNat field)).drop 21).length = leNat field := by
      rw [List.length_drop,List.length_take]
      omega
    have whole : payload.take (21 + leNat field) =
        PROTECTED_PAYLOAD_MAGIC ++ leBytes 4 (leNat field) ++ (payload.take (21 + leNat field)).drop 21 := by
      rw [← four,leBytes_leNat,← header]
      have part : payload.take 21 = (payload.take (21 + leNat field)).take 21 := by
        rw [List.take_take]
        congr 1
        omega
      rw [part,List.take_append_drop]
    refine Excepts.bind_ok.mpr ⟨_,lengthOf_ok.mpr ⟨?_,rfl⟩,?_⟩
    · rw [plain,← four]
      exact leNat_lt field
    · rw [plain,← whole]
      dsimp only
      rw [digest,List.take_append_drop]
      rfl
  · intro written
    obtain ⟨n,short,written⟩ := Excepts.bind_ok.mp written
    obtain ⟨small,rfl⟩ := lengthOf_ok.mp short
    cases written
    obtain ⟨a,b,c,d,field,length⟩ := leBytes_four small
    generalize head : PROTECTED_PAYLOAD_MAGIC ++ [a,b,c,d] = header
    have headerLen : header.length = 21 := by
      rw [← head,List.length_append,length_PROTECTED_PAYLOAD_MAGIC]
      rfl
    rw [field,head]
    have bodyLen : (header ++ plaintext).length = 21 + plaintext.length := by rw [List.length_append,headerLen]
    have magic : (header ++ plaintext ++ (blake3 (header ++ plaintext)).toList).take 17 = PROTECTED_PAYLOAD_MAGIC := by
      rw [← head,List.append_assoc,List.append_assoc,← length_PROTECTED_PAYLOAD_MAGIC,List.take_left]
    have lengthBytes : ((header ++ plaintext ++ (blake3 (header ++ plaintext)).toList).drop 17).take 4 = [a,b,c,d] := by
      rw [← head,List.append_assoc,List.append_assoc,← length_PROTECTED_PAYLOAD_MAGIC,List.drop_left]
      rfl
    have body : (header ++ plaintext ++ (blake3 (header ++ plaintext)).toList).take (21 + plaintext.length) =
        header ++ plaintext := by
      rw [← bodyLen,List.take_left]
    have digest : (header ++ plaintext ++ (blake3 (header ++ plaintext)).toList).drop (21 + plaintext.length) =
        (blake3 (header ++ plaintext)).toList := by
      rw [← bodyLen,List.drop_left]
    have total : (header ++ plaintext ++ (blake3 (header ++ plaintext)).toList).length = 21 + plaintext.length + 32 := by
      rw [List.length_append,bodyLen,Vector.length_toList]
    have plain : (header ++ plaintext).drop 21 = plaintext := by rw [← headerLen,List.drop_left]
    simp only [decodeProtectedPayload,length_PROTECTED_PAYLOAD_MAGIC,Nat.reduceAdd,magic,lengthBytes,length,body,digest,total,
      plain]
    rw [if_neg (by simp),if_neg (by simp),if_neg (by simp)]

end Vnidrop.SecretRecords
