import Vnidrop.Disks
import Vnidrop.Programs
import Vnidrop.RedactedJson
import Vnidrop.SecretRecords

/-! The secret store on Android. A secret is sealed under a key that Keystore keeps and the
ciphertext goes into a record of its own, in a directory that all profiles share; a profile sees the
handles in its scope only. A process may end between any two operations, and so may the power. -/
namespace Vnidrop.AndroidSecrets

open Disks Programs Runs SecretRecords
open Paths (Str)
open RedactedJson (hexLower)
open SecretCustody (SecretMaterial SecureSecretStoreError)
open Utf8 (encode)

abbrev Digest := Vector UInt8 32

/-- A file of the directory, by the digest in its name: a record, or one that is being written. -/
structure FileName where
  digest : Digest
  temporary : Bool
  deriving DecidableEq

def RECORD_EXTENSION : String := "vns"

/-- `Path::extension`, of `….vns` and of `….vns.tmp`. -/
def FileName.extension (n : FileName) : String := if n.temporary then "tmp" else RECORD_EXTENSION

/-- AES-GCM: what is sealed under a key opens under it. -/
structure Cipher where
  encrypt : Nat → List UInt8 → List UInt8 → List UInt8
  decrypt : Nat → List UInt8 → List UInt8 → Option (List UInt8)
  opens : ∀ key nonce plaintext, decrypt key nonce (encrypt key nonce plaintext) = some plaintext

/-- The directory, the keys of Keystore under the digests in their aliases, the number of keys that
have been generated, the thread that holds the mutation lock of a profile's store, and the threads of
the process. -/
structure Device where
  disk : Disk FileName (List UInt8)
  keys : Digest → Option Nat
  generated : Nat
  locked : Str → Option Nat
  live : List Nat

inductive Op where
  | enter
  | lock (appDataDir : Str)
  | unlock (appDataDir : Str)
  | metadata (handle : Str)
  | writeTemporary (handle : Str) (bytes : List UInt8)
  | syncTemporary (handle : Str)
  | rename (handle : Str)
  | syncDirectory
  | keystoreSeal (handle : Str) (plaintext : List UInt8)
  | keystoreOpen (handle : Str) (value : AndroidSealedValue)
  | keystoreDelete (handle : Str)
  | removeFile (handle : Str)
  | readRecord (handle : Str)
  | readDir
  | readFile (name : FileName)
  /-- The call has its result. -/
  | concludePut (result : Except SecureSecretStoreError Unit)
  | concludeGet (result : Except SecureSecretStoreError SecretMaterial)
  | concludeDelete (result : Except SecureSecretStoreError Unit)
  | concludeList (result : Except SecureSecretStoreError (List Str))

abbrev Ans : Op → Type
  | .lock _ | .writeTemporary .. | .syncTemporary _ | .rename _ | .syncDirectory | .keystoreDelete _ | .removeFile _ =>
    Except SecureSecretStoreError Unit
  | .metadata _ => Except SecureSecretStoreError Bool
  | .keystoreSeal .. => Except SecureSecretStoreError AndroidSealedValue
  | .keystoreOpen .. | .readRecord _ | .readFile _ => Except SecureSecretStoreError (List UInt8)
  | .readDir => Except SecureSecretStoreError (List FileName)
  | .enter | .unlock _ | .concludePut _ | .concludeGet _ | .concludeDelete _ | .concludeList _ => Unit

/-- How an operation fails of itself. -/
inductive Outage where
  | locked
  | unavailable
  deriving DecidableEq, Repr

def Outage.error : Outage → SecureSecretStoreError
  | .locked => .locked
  | .unavailable => .unavailable

/-- Whether an operation fails, and takes effect all the same; what a write that fails leaves in the
file; the nonce that Keystore draws. -/
structure Choice where
  outage : Option Outage
  effect : Bool
  bytes : List UInt8
  nonce : List UInt8
  deriving DecidableEq

abbrev Task (α : Type) := Prog Op Ans α

def op (o : Op) : Task (Ans o) := Prog.perform o

def discard {α : Type} (p : Task α) : Task Unit := do
  let _ ← p
  return ()

/-- The lock is free again when the call has its result. -/
def whileLocked {α : Type} (appDataDir : Str) (p : Task (Except SecureSecretStoreError α))
    (conclude : Except SecureSecretStoreError α → Task Unit) : Task (Except SecureSecretStoreError α) := do
  match ← op (.lock appDataDir) with
  | .error e => do
    conclude (.error e)
    return .error e
  | .ok () => do
    let result ← p
    conclude result
    op (.unlock appDataDir)
    return result

def writeRecord (handle : Str) (state : UInt8) (sealed : Option AndroidSealedValue) :
    Task (Except SecureSecretStoreError Unit) :=
  match encodeRecord handle state sealed with
  | .error e => return .error e
  | .ok bytes =>
    Prog.andThen (op (.writeTemporary handle bytes)) fun _ =>
    Prog.andThen (op (.syncTemporary handle)) fun _ =>
    Prog.andThen (op (.rename handle)) fun _ =>
    op .syncDirectory

def put (handle : Str) (material : SecretMaterial) : Task (Except SecureSecretStoreError Unit) :=
  Prog.andThen (op (.metadata handle)) fun recordExists =>
  Prog.andThen (if recordExists then return .ok () else writeRecord handle RECORD_STAGED none) fun _ =>
  Prog.andThen (op (.keystoreSeal handle material.bytes)) fun sealed =>
  if sealed.nonce = [] ∨ sealed.ciphertext = [] then return .error .corrupted
  else writeRecord handle RECORD_SEALED (some sealed)

def get (handle : Str) : Task (Except SecureSecretStoreError SecretMaterial) :=
  Prog.andThen (op (.readRecord handle)) fun bytes =>
  match decodeRecord bytes handle with
  | .error e => return .error e
  | .ok sealed =>
    Prog.andThen (op (.keystoreOpen handle sealed)) fun plaintext =>
    return (SecretMaterial.new plaintext).mapError fun _ => .corrupted

/-- The record goes after the key. -/
def removeRecord (handle : Str) : Task (Except SecureSecretStoreError Unit) := do
  match ← op (.removeFile handle) with
  | .ok () => op .syncDirectory
  | .error .missing => return .ok ()
  | .error e => return .error e

def delete (handle : Str) : Task (Except SecureSecretStoreError Unit) := do
  match ← op (.keystoreDelete handle) with
  | .ok () | .error .missing => removeRecord handle
  | .error e => return .error e

def readEach : List FileName → Task (Except SecureSecretStoreError (List Str))
  | [] => return .ok []
  | name :: names =>
    if name.extension ≠ RECORD_EXTENSION then readEach names
    else
      Prog.andThen (op (.readFile name)) fun bytes =>
      match decodeHandleFromRecord bytes with
      | .error e => return .error e
      | .ok handle => Prog.andThen (readEach names) fun handles => return .ok (handle :: handles)

def listHandles : Task (Except SecureSecretStoreError (List Str)) :=
  Prog.andThen (op .readDir) fun names =>
  Prog.andThen (readEach names) fun handles =>
  return .ok (handles.mergeSort fun a b => encode a ≤ encode b)

/-! The scope of a profile. -/

section Scope

variable (blake3 : List UInt8 → Digest)

/-- What handles are given under. -/
def namespaced : Str := "vnidrop/v1/".toList

/-- What the handles of a profile are kept under. -/
def scope (appDataDir : Str) : Str :=
  "vnidrop/v1/scope-".toList ++ hexLower (blake3 (encode appDataDir)).toList ++ ['/']

def physicalHandle (appDataDir handle : Str) : Except SecureSecretStoreError Str :=
  match namespaced.isPrefixOf? handle with
  | some suffix => .ok (scope blake3 appDataDir ++ suffix)
  | none => .error .corrupted

def logicalHandle (appDataDir handle : Str) : Option Str :=
  ((scope blake3 appDataDir).isPrefixOf? handle).map (namespaced ++ ·)

inductive Call where
  | put (appDataDir handle : Str) (material : SecretMaterial)
  | get (appDataDir handle : Str)
  | delete (appDataDir handle : Str)
  | list (appDataDir : Str)

/-- A call on the handle of a profile, which a handle of another form does not reach. -/
def onPhysical {α : Type} (appDataDir handle : Str) (p : Str → Task (Except SecureSecretStoreError α)) : Task Unit :=
  match physicalHandle blake3 appDataDir handle with
  | .error _ => return ()
  | .ok physical => do
    op .enter
    discard (p physical)

def Call.body : Call → Task Unit
  | .put appDataDir handle material => onPhysical blake3 appDataDir handle fun physical =>
    whileLocked appDataDir (AndroidSecrets.put physical material) fun r => discard (op (.concludePut r))
  | .get appDataDir handle => onPhysical blake3 appDataDir handle fun physical => do
    let result ← AndroidSecrets.get physical
    op (.concludeGet result)
    return result
  | .delete appDataDir handle => onPhysical blake3 appDataDir handle fun physical =>
    whileLocked appDataDir (AndroidSecrets.delete physical) fun r => discard (op (.concludeDelete r))
  | .list appDataDir => do
    op .enter
    let result ← listHandles
    op (.concludeList (result.map fun handles => handles.filterMap (logicalHandle blake3 appDataDir)))

def Call.appDataDir : Call → Str
  | .put appDataDir .. | .get appDataDir _ | .delete appDataDir _ | .list appDataDir => appDataDir

/-- The record that a call is about. -/
def Call.physical : Call → Option Str
  | .put appDataDir handle _ | .get appDataDir handle | .delete appDataDir handle =>
    (physicalHandle blake3 appDataDir handle).toOption
  | .list _ => none

def Call.mutates : Call → Bool
  | .put .. | .delete .. => true
  | .get .. | .list _ => false

def digest (handle : Str) : Digest := blake3 (encode handle)

def recordPath (handle : Str) : FileName := ⟨digest blake3 handle,false⟩

def temporaryPath (handle : Str) : FileName := ⟨digest blake3 handle,true⟩

end Scope

section Exec

variable (blake3 : List UInt8 → Digest) (cipher : Cipher)

namespace Device

/-- The key of a handle, generated if there is none. -/
def keyed (s : Device) (handle : Str) : Nat × Device :=
  match s.keys (digest blake3 handle) with
  | some key => (key,s)
  | none => (s.generated,
    { s with keys := Function.update s.keys (digest blake3 handle) (some s.generated), generated := s.generated + 1 })

def keyless (s : Device) (handle : Str) : Device :=
  { s with keys := Function.update s.keys (digest blake3 handle) none }

/-- An operation that changes the device in one step, or fails. -/
def attempt {α : Type} (s : Device) (c : Choice) (a : α) (t : Device) :
    Option (Except SecureSecretStoreError α × Device) :=
  match c.outage with
  | some outage => some (.error outage.error,if c.effect then t else s)
  | none => some (.ok a,t)

def read (s : Device) (c : Choice) (name : FileName) : Option (Except SecureSecretStoreError (List UInt8) × Device) :=
  match c.outage, (s.disk.slot name).seen with
  | some outage, _ => some (.error outage.error,s)
  | none, none => some (.error .missing,s)
  | none, some bytes => some (.ok bytes,s)

def perform (s : Device) (i : Nat) (c : Choice) : (o : Op) → Option (Ans o × Device)
  | .enter => some ((),{ s with live := i :: s.live })
  | .lock dir =>
    match c.outage with
    | some _ => some (.error .unavailable,s)
    | none => if s.locked dir = none then some (.ok (),{ s with locked := Function.update s.locked dir (some i) }) else none
  | .unlock dir => some ((),{ s with locked := Function.update s.locked dir none })
  | .metadata handle => attempt s c (s.disk.slot (recordPath blake3 handle)).seen.isSome s
  | .writeTemporary handle bytes =>
    match c.outage with
    | some outage => some (.error outage.error,
        if c.effect then { s with disk := s.disk.write (temporaryPath blake3 handle) c.bytes } else s)
    | none => some (.ok (),{ s with disk := s.disk.write (temporaryPath blake3 handle) bytes })
  | .syncTemporary handle => attempt s c () { s with disk := s.disk.syncFile (temporaryPath blake3 handle) }
  | .rename handle =>
    attempt s c () { s with disk := s.disk.rename (temporaryPath blake3 handle) (recordPath blake3 handle) }
  | .syncDirectory => attempt s c () { s with disk := s.disk.syncDirectory }
  | .keystoreSeal handle plaintext =>
    let (key,t) := s.keyed blake3 handle
    attempt s c ⟨c.nonce,cipher.encrypt key c.nonce plaintext⟩ t
  | .keystoreOpen handle value =>
    match c.outage, s.keys (digest blake3 handle) with
    | some outage, _ => some (.error outage.error,s)
    | none, none => some (.error .missing,s)
    | none, some key =>
      match cipher.decrypt key value.nonce value.ciphertext with
      | some plaintext => some (.ok plaintext,s)
      | none => some (.error .corrupted,s)
  | .keystoreDelete handle =>
    match c.outage, s.keys (digest blake3 handle) with
    | none, none => some (if c.effect then .error .missing else .ok (),s)
    | _, _ => attempt s c () (s.keyless blake3 handle)
  | .removeFile handle =>
    match c.outage, (s.disk.slot (recordPath blake3 handle)).seen with
    | none, none => some (.error .missing,s)
    | _, _ => attempt s c () { s with disk := s.disk.remove (recordPath blake3 handle) }
  | .readRecord handle => s.read c (recordPath blake3 handle)
  | .readDir => attempt s c s.disk.list s
  | .readFile name => s.read c name
  | .concludePut _ | .concludeGet _ | .concludeDelete _ | .concludeList _ => some ((),s)

end Device

def Op.enters : Op → Bool
  | .enter => true
  | _ => false

def exec (s : Device) (i : Nat) (_ : Call) (o : Op) (c : Choice) : Option (Ans o × Device) :=
  if o.enters || i ∈ s.live then s.perform blake3 cipher i c o else none

/-- The process ends, or the power does. -/
inductive Event where
  | stop
  | cut (found : FileName → Option (List UInt8))

def env (s : Device) : Event → Option Device
  | .stop => some { s with locked := fun _ => none, live := [] }
  | .cut found =>
    if s.disk.Left found then some { s with disk := s.disk.cut found, locked := fun _ => none, live := [] } else none

def store : Programs.Machine Device Call Op Ans Choice Event where
  init s := s.disk = .empty ∧ s.keys = (fun _ => none) ∧ s.locked = (fun _ => none) ∧ s.live = []
  admits _ _ := true
  body := Call.body blake3
  exec := exec blake3 cipher
  env := env

end Exec

/-- The mutations under way and the records they are about; what the last mutation of a record that
no other overlapped has left, if that was completed; the reads under way and what their
record has held since they began; the threads that an operation has failed for; the keys there were when a
thread last listed the directory; the answers of reads that no mutation overlapped, with what the
record held and whether an operation failed; and the lists that were answered, with the profile
and the keys there were. -/
structure History where
  under : List (Nat × Str)
  settled : Str → Option (Option SecretMaterial)
  watch : List (Nat × Str × Option SecretMaterial)
  faulted : List Nat
  snapshot : Nat → Digest → Option Nat
  answers : List (Option SecretMaterial × Except SecureSecretStoreError SecretMaterial × Bool)
  listings : List (Str × (Digest → Option Nat) × List Str)

namespace History

def new : History := ⟨[],fun _ => none,[],[],fun _ _ => none,[],[]⟩

def begin (h : History) (i : Nat) (handle : Str) (mutates : Bool) : History :=
  if mutates then
    { h with
      under := (i,handle) :: h.under
      settled := Function.update h.settled handle none
      watch := h.watch.filter (·.2.1 ≠ handle) }
  else
    { h with
      watch := ((h.settled handle).map fun held => (i,handle,held)).toList ++ h.watch.filter (·.1 ≠ i) }

/-- The mutation has this result, and leaves the record so if it is a success. -/
def conclude (h : History) (i : Nat) (handle : Str) (held : Option SecretMaterial)
    (result : Except SecureSecretStoreError Unit) : History :=
  let under := h.under.filter (· ≠ (i,handle))
  { h with
    under
    settled := if result = .ok () ∧ ∀ e ∈ under, e.2 ≠ handle then Function.update h.settled handle (some held)
      else h.settled }

def faults {α : Type} : Except SecureSecretStoreError α → Bool
  | .error .locked | .error .unavailable => true
  | _ => false

def fault (h : History) (i : Nat) (faulty : Bool) : History := { h with faulted := if faulty then i :: h.faulted else h.faulted }

variable (blake3 : List UInt8 → Digest)

def record (h : History) (s : Device) (i : Nat) (call : Call) : (o : Op) → Ans o → History
  | .enter, _ =>
    match call.physical blake3 with
    | some handle => h.begin i handle call.mutates
    | none => h
  | .concludePut result, _ =>
    match call, call.physical blake3 with
    | .put _ _ material, some handle => h.conclude i handle (some material) result
    | _, _ => h
  | .concludeDelete result, _ =>
    match call.physical blake3 with
    | some handle => h.conclude i handle none result
    | none => h
  | .concludeGet result, _ =>
    { h with
      answers := (h.watch.filter (·.1 = i)).map (fun e => (e.2.2,result,decide (i ∈ h.faulted))) ++ h.answers
      watch := h.watch.filter (·.1 ≠ i) }
  | .readDir, .ok _ => { h with snapshot := Function.update h.snapshot i s.keys }
  | .concludeList (.ok handles), _ =>
    match call with
    | .list dir => { h with listings := (dir,h.snapshot i,handles) :: h.listings }
    | _ => h
  | .readRecord _, r => h.fault i (faults r)
  | .keystoreOpen .., r => h.fault i (faults r)
  | _, _ => h

/-- No call survives the end of its process. -/
def witness (h : History) (_ : Device) (_ : Event) : History := { h with under := [], watch := [] }

end History

abbrev Seen := Observed Device History

section Machine

variable (blake3 : List UInt8 → Digest) (cipher : Cipher)

def machine : Programs.Machine Seen Call Op Ans Choice Event :=
  (store blake3 cipher).observe .new (History.record blake3) History.witness

/-- The power is not cut; or it is, and a put builds on no record that is not on the disk yet; or anything. -/
inductive Mode where
  | powered
  | synced
  | any
  deriving DecidableEq, Repr

/-- The calls are those of these profiles, on these handles. -/
def guard (mode : Mode) (dirs handles : Set Str) : Guard Seen Call Op Choice Event where
  starts _ call := (∀ handle ∈ call.physical blake3, handle ∈ handles) ∧ call.appDataDir ∈ dirs
  steps s _ o _ := match o with
    | .metadata handle =>
      mode = .synced → (s.state.disk.slot (recordPath blake3 handle)).seen ≠ none →
        ¬(s.state.disk.slot (recordPath blake3 handle)).May none
    | _ => True
  events _ e := match e with
    | .cut _ => mode ≠ .powered
    | .stop => True

/-- The digests tell the handles apart, and the scopes the profiles. -/
structure Apart (dirs handles : Set Str) : Prop where
  digests : Set.InjOn (digest blake3) handles
  scopes : Set.InjOn (scope blake3) dirs

/-- Whatever a power cut leaves, the record of the handle holds the material. -/
def Holds (s : Device) (handle : Str) (material : SecretMaterial) : Prop :=
  ∃ key, s.keys (digest blake3 handle) = some key ∧
    (s.disk.slot (recordPath blake3 handle)).others ≠ none ∧
    ∀ file, (s.disk.slot (recordPath blake3 handle)).May file → ∃ bytes value, file = some bytes ∧
      decodeRecord bytes handle = .ok value ∧ cipher.decrypt key value.nonce value.ciphertext = some material.bytes

/-- What the record of the handle was left with is still what it holds; where it was deleted its key is gone. -/
def Kept (s : Device) (handle : Str) : Option SecretMaterial → Prop
  | some material => Holds blake3 cipher s handle material
  | none => s.keys (digest blake3 handle) = none

/-- The answer of a read of a record that holds this. -/
def Right (held : Option SecretMaterial) (answer : Except SecureSecretStoreError SecretMaterial) (faulted : Bool) : Prop :=
  match held with
  | some material => answer = .ok material ∨ faulted = true
  | none => ∀ material, answer ≠ .ok material

/-- There is a record in the file, also after a power cut where that matters. -/
def Backed (mode : Mode) (s : Slot (List UInt8)) : Prop :=
  mode ≠ .any → s.seen ≠ none ∧ (mode = .synced → ¬s.May none)

end Machine

end Vnidrop.AndroidSecrets
