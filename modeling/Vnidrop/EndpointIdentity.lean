import Vnidrop.Programs
import Vnidrop.SecretCustody

/-! The start of a protected core: custody is reconciled, and the identity of the endpoint is loaded,
taken over from the file of an earlier version, or made. Metadata, credential store and file are
written one after the other, and a process may end between any two of its operations. -/
namespace Vnidrop.EndpointIdentity

open Programs Runs Tables SecretCustody

instance : DecidableEq SecretMaterial := fun a b =>
  decidable_of_iff (a.bytes = b.bytes) ⟨fun h => by cases a; cases b; cases h; rfl,fun h => by rw [h]⟩

/-- The classes of `VnidropError` that a start returns; a constraint fails by what is stored. -/
inductive Failure where
  | custody (e : CustodyError)
  | repository
  | constraint
  | filesystem
  | invalidInput (reason : String)
  deriving DecidableEq

/-- What a profile has on disk, the handles that were generated, the threads of the process, and
the lock of the profile, with whether its holder has come up. -/
structure Profile where
  custody : Custody
  legacy : Option Text
  drawn : List Handle
  live : List Nat
  holder : Option Nat
  running : Bool

inductive Op where
  | enter
  | lock
  | list
  | stage (handle : Handle) (kind : SecretKind) (expectedIdentity : Option Text)
  | setState (handle : Handle) (state : SecretMetadataState)
  | find (handle : Handle)
  | findActiveKind (kind : SecretKind)
  | containsKind (kind : SecretKind)
  | waitForActive
  | put (handle : Handle) (material : SecretMaterial)
  | get (handle : Handle)
  | delete (handle : Handle)
  | listHandles
  | generateHandle (kind : SecretKind)
  | generateKey
  | readLegacy
  | legacyExists
  | removeLegacy
  | resetMetadata
  | conclude (result : Except Failure SecretMaterial)

abbrev Ans : Op → Type
  | .enter | .conclude _ => Unit
  | .lock => Bool
  | .list => Except Failure (List SecretMetadata)
  | .stage .. | .setState .. | .removeLegacy => Except Failure Unit
  | .find _ | .findActiveKind _ => Except Failure (Option SecretMetadata)
  | .containsKind _ | .legacyExists => Except Failure Bool
  | .waitForActive => Except Failure Handle
  | .put .. | .delete _ => Except SecureSecretStoreError Unit
  | .get _ => Except SecureSecretStoreError SecretMaterial
  | .listHandles => Except SecureSecretStoreError (List Handle)
  | .generateHandle _ => Handle
  | .generateKey => SecretMaterial
  | .readLegacy => Except Failure (Option Text)
  | .resetMetadata => Except Failure (List Handle)

/-- Whether the credential store, the database or the file fails, and whether a write that is
reported as failed was made all the same. -/
structure Choice where
  outage : Option Bool
  effect : Bool
  handle : Handle
  key : SecretMaterial
  now : Millis

def outageError (locked : Bool) : SecureSecretStoreError := if locked then .locked else .unavailable

abbrev Task (α : Type) := Prog Op Ans α

def op (o : Op) : Task (Ans o) := Prog.perform o

section Stored

/-- `protected_secret_one_endpoint_identity`, a unique index over a part of the rows. -/
def indexed (t : Table SecretRef.handle) : Bool :=
  (t.rows.filter fun row => row.kind = "endpoint-identity" && row.state != "disabled").length ≤ 1

def put (c : Custody) (handle : Handle) (material : SecretMaterial) : Custody :=
  { c with store := (c.store.delete handle).insertOrIgnore ⟨handle,.bytes material.bytes⟩ }

def stage (c : Custody) (handle : Handle) (kind : SecretKind) (expectedIdentity : Option Text) (now : Millis) :
    Except Failure Custody :=
  match c.metadata.insert ⟨handle,kind.asStr,SecretMetadataState.staged.asStr,expectedIdentity,now,now⟩ with
  | none => .error .constraint
  | some metadata => if indexed metadata then .ok { c with metadata } else .error .constraint

def setState (c : Custody) (handle : Handle) (state : SecretMetadataState) (now : Millis) : Except Failure Custody :=
  if indexed (c.setState handle state now).metadata then .ok (c.setState handle state now) else .error .constraint

def metadataOf (row : SecretRef) : Except Failure SecretMetadata := (rowToMetadata row).mapError .custody

def find (c : Custody) (handle : Handle) : Except Failure (Option SecretMetadata) :=
  match c.metadata.find handle with
  | none => .ok none
  | some row => (metadataOf row).map some

/-- `ORDER BY created_at ASC LIMIT 1`. -/
def findActiveKind (c : Custody) (kind : SecretKind) : Except Failure (Option SecretMetadata) :=
  let active := c.metadata.rows.filter fun row => row.kind = kind.asStr && row.state = "active"
  match (active.mergeSort fun a b => a.createdAt ≤ b.createdAt).head? with
  | none => .ok none
  | some row => (metadataOf row).map some

def containsKind (c : Custody) (kind : SecretKind) : Bool := c.metadata.affects fun row => row.kind = kind.asStr

end Stored

def Profile.write (s : Profile) {ε : Type} : Except ε Custody → Except ε Unit × Profile
  | .ok custody => (.ok (),{ s with custody })
  | .error e => (.error e,s)

section Exec

-- the kind that a handle bears in its text, and whether opening a profile locks it
variable (kindOf : Handle → SecretKind) (exclusive : Bool)

/-- Waiting ends with a row that is active, or after a second without one. -/
def perform (s : Profile) (i : Nat) : (o : Op) → Choice → Option (Ans o × Profile)
  | .enter, _ => some ((),{ s with live := i :: s.live })
  | .lock, _ => if exclusive && s.holder.isSome then some (false,s) else some (true,{ s with holder := some i })
  | .list, c => some (if c.outage.isSome then .error .repository else s.custody.list.mapError .custody,s)
  | .stage handle kind expectedIdentity, c =>
    some (if c.outage.isSome then (.error .repository,s)
      else s.write (stage s.custody handle kind expectedIdentity c.now))
  | .setState handle state, c =>
    some (if c.outage.isSome then (.error .repository,s) else s.write (setState s.custody handle state c.now))
  | .find handle, c => some (if c.outage.isSome then .error .repository else find s.custody handle,s)
  | .findActiveKind kind, c =>
    some (if c.outage.isSome then .error .repository else findActiveKind s.custody kind,s)
  | .containsKind kind, c => some (if c.outage.isSome then .error .repository else .ok (containsKind s.custody kind),s)
  | .waitForActive, c =>
    some (if c.outage.isSome then .error .repository else
      match findActiveKind s.custody .endpointIdentity with
      | .ok (some active) => .ok active.handle
      | .ok none => .error (.custody (.secureStorageUnavailable "timed out waiting for protected endpoint identity"))
      | .error e => .error e,s)
  | .put handle material, c =>
    match c.outage with
    | some locked =>
      some (.error (outageError locked),if c.effect then { s with custody := put s.custody handle material } else s)
    | none => some (.ok (),{ s with custody := put s.custody handle material })
  | .get handle, c =>
    some (match c.outage with
      | some locked => .error (outageError locked)
      | none => s.custody.get handle,s)
  | .delete handle, c =>
    match c.outage with
    | some locked => some (.error (outageError locked),if c.effect then (s.write (s.custody.delete handle)).2 else s)
    | none => some (s.write (s.custody.delete handle))
  | .listHandles, c =>
    some (match c.outage with
      | some locked => .error (outageError locked)
      | none => .ok s.custody.listHandles,s)
  | .generateHandle kind, c =>
    if kindOf c.handle = kind ∧ c.handle ∉ s.drawn ∧ s.custody.metadata.find c.handle = none then
      some (c.handle,{ s with drawn := c.handle :: s.drawn })
    else none
  | .generateKey, c => some (c.key,s)
  | .readLegacy, c => some (if c.outage.isSome then .error .filesystem else .ok s.legacy,s)
  | .legacyExists, c => some (if c.outage.isSome then .error .filesystem else .ok s.legacy.isSome,s)
  | .removeLegacy, c =>
    if c.outage.isSome then some (.error .filesystem,if c.effect then { s with legacy := none } else s)
    else some (.ok (),{ s with legacy := none })
  | .resetMetadata, c =>
    if c.outage.isSome then some (.error .repository,s)
    else some (.ok ((s.custody.metadata.rows.map SecretRef.handle).mergeSort fun a b => a ≤ b),
      { s with custody := { s.custody with metadata := .empty } })
  | .conclude (.ok _), _ => some ((),{ s with running := true })
  | .conclude (.error _), _ => some ((),{ s with holder := none })

end Exec

section Functions

variable {α : Type}

def storeOp (m : Task (Except SecureSecretStoreError α)) : Task (Except Failure α) := do
  return (← m).mapError fun e => .custody (mapStoreError e)

def storePut (handle : Handle) (material : SecretMaterial) : Task (Except Failure Unit) :=
  storeOp (op (.put handle material))

def storeGet (handle : Handle) : Task (Except Failure SecretMaterial) := storeOp (op (.get handle))

def storeDelete (handle : Handle) : Task (Except Failure Unit) := storeOp (op (.delete handle))

def storeListHandles : Task (Except Failure (List Handle)) := storeOp (op .listHandles)

def deleteIfPresent (handle : Handle) : Task (Except Failure Unit) := do
  match ← op (.delete handle) with
  | .ok () | .error .missing => return .ok ()
  | .error e => return .error (.custody (mapStoreError e))

variable (endpointId : SecretMaterial → Text)

def validate (kind : SecretKind) (material : SecretMaterial) (expectedIdentity : Option Text) : Except Failure Unit :=
  (validateMaterial endpointId kind material expectedIdentity).mapError .custody

def protect (kind : SecretKind) (material : SecretMaterial) (expectedIdentity : Option Text) :
    Task (Except Failure Handle) :=
  Prog.andThen (pure (validate endpointId kind material expectedIdentity)) fun _ => do
    let handle ← op (.generateHandle kind)
    (storePut handle material).andThen fun _ => (storeGet handle).andThen fun stored =>
      if stored ≠ material then
        return .error (.custody (.secureStorageCorrupted "credential store did not preserve protected material"))
      else Prog.andThen (pure (validate endpointId kind stored expectedIdentity)) fun _ => do
        match ← op (.stage handle kind expectedIdentity) with
        | .error e => (deleteIfPresent handle).andThen fun _ => return .error e
        | .ok () => Prog.andThen (op (.setState handle .active)) fun _ => return .ok handle

def load (handle : Handle) : Task (Except Failure SecretMaterial) :=
  Prog.andThen (op (.find handle)) fun
    | none => return .error (.custody (.secureStorageMissing "protected secret metadata is missing"))
    | some metadata =>
      if metadata.state ≠ .active then
        return .error (.custody (.secureStorageUnavailable "protected secret is not active"))
      else (storeGet handle).andThen fun material =>
        Prog.andThen (pure (validate endpointId metadata.kind material metadata.expectedIdentity)) fun _ =>
          return .ok material

/-- Removes protected material and disables its metadata. -/
def remove (handle : Handle) : Task (Except Failure Unit) :=
  Prog.andThen (op (.find handle)) fun found => match found with
    | some _ => Prog.andThen (op (.setState handle .disabled)) fun _ => deleteIfPresent handle
    | none => deleteIfPresent handle

def removeOrphaned (referenced : List Handle) : List SecretMetadata → Nat → Task (Except Failure Nat)
  | [], removed => return .ok removed
  | entry :: entries, removed =>
    if entry.kind = .targetedAuthorization ∧ entry.state = .active ∧ entry.handle ∉ referenced then
      (remove entry.handle).andThen fun _ => removeOrphaned referenced entries (removed + 1)
    else removeOrphaned referenced entries removed

def removeOrphanedTargetedAuthorizations (referenced : List Handle) : Task (Except Failure Nat) :=
  Prog.andThen (op .list) fun entries => removeOrphaned referenced entries 0

/-- A secret that cannot be used is disabled first and deleted second. -/
def retire (entry : SecretMetadata) (summary : ReconciliationSummary) : Task (Except Failure ReconciliationSummary) :=
  Prog.andThen (op (.setState entry.handle .disabled)) fun _ => (deleteIfPresent entry.handle).andThen fun _ =>
    return .ok { summary with disabled := summary.disabled + 1 }

/-- One pass of the loop over the metadata. -/
def reconcileEntry (entry : SecretMetadata) (summary : ReconciliationSummary) :
    Task (Except Failure ReconciliationSummary) :=
  if entry.state = .disabled then (deleteIfPresent entry.handle).andThen fun _ => return .ok summary
  else do
    match ← op (.get entry.handle) with
    | .ok material =>
      if isValid endpointId entry.kind material entry.expectedIdentity = false then
        if entry.kind = .endpointIdentity then
          return .error (.custody (.secureStorageCorrupted "protected endpoint identity is corrupted"))
        else retire entry summary
      else if entry.state = .staged then
        Prog.andThen (op (.setState entry.handle .active)) fun _ =>
          return .ok { summary with stagedActivated := summary.stagedActivated + 1 }
      else return .ok summary
    | .error error =>
      if (error = .missing ∨ error = .corrupted) ∧ entry.kind ≠ .endpointIdentity then retire entry summary
      else return .error (.custody (mapStoreError error))

def reconcileEntries : List SecretMetadata → ReconciliationSummary → Task (Except Failure ReconciliationSummary)
  | [], summary => return .ok summary
  | entry :: entries, summary =>
    (reconcileEntry endpointId entry summary).andThen fun summary => reconcileEntries entries summary

def deleteOrphans (known : List Handle) :
    List Handle → ReconciliationSummary → Task (Except Failure ReconciliationSummary)
  | [], summary => return .ok summary
  | handle :: handles, summary =>
    if handle ∈ known then deleteOrphans known handles summary
    else (storeDelete handle).andThen fun _ =>
      deleteOrphans known handles { summary with orphansDeleted := summary.orphansDeleted + 1 }

def reconcile : Task (Except Failure ReconciliationSummary) :=
  Prog.andThen (op .list) fun metadata => storeListHandles.andThen fun storedHandles =>
    (reconcileEntries endpointId metadata .default).andThen fun summary =>
      deleteOrphans (metadata.map SecretMetadata.handle) storedHandles summary

-- `HEXLOWER.decode` on the text of the file, without the white space around it
variable (decode : Text → Option (List UInt8))

def legacyKey : Option Text → Except Failure SecretMaterial
  | none => .error (.custody (.secureStorageMissing "no protected or legacy endpoint identity exists"))
  | some encoded =>
    match decode encoded with
    | none => .error (.custody (.secureStorageCorrupted "legacy endpoint key encoding is invalid"))
    | some bytes => (SecretMaterial.new bytes).mapError .custody

def readLegacyEndpointIdentity : Task (Except Failure SecretMaterial) :=
  Prog.andThen (op .readLegacy) fun content => return legacyKey decode content

def migrateLegacyEndpointIdentity : Task (Except Failure Handle) :=
  Prog.andThen (op (.findActiveKind .endpointIdentity)) fun
    | some active => (load endpointId active.handle).andThen fun protected_ => do
      match ← readLegacyEndpointIdentity decode with
      | .ok legacy =>
        if endpointId legacy ≠ endpointId protected_ then
          return .error (.custody (.secureStorageCorrupted "legacy endpoint key does not match protected identity"))
        else Prog.andThen (op .removeLegacy) fun _ => return .ok active.handle
      | .error (.custody (.secureStorageMissing _)) => return .ok active.handle
      | .error e => return .error e
    | none => (readLegacyEndpointIdentity decode).andThen fun legacy =>
      (protect endpointId .endpointIdentity legacy (some (endpointId legacy))).andThen fun handle =>
        Prog.andThen (op .removeLegacy) fun _ => return .ok handle

def initializeEndpointIdentity : Task (Except Failure SecretMaterial) :=
  Prog.andThen (op (.findActiveKind .endpointIdentity)) fun
    | some _ => (migrateLegacyEndpointIdentity endpointId decode).andThen fun handle => load endpointId handle
    | none => Prog.andThen (op (.containsKind .endpointIdentity)) fun
      | true => do
        match ← op .waitForActive with
        | .ok handle => load endpointId handle
        | .error _ => return .error (.custody (.secureStorageUnavailable "protected endpoint identity is disabled"))
      | false => Prog.andThen (op .legacyExists) fun
        | true => (migrateLegacyEndpointIdentity endpointId decode).andThen fun handle => load endpointId handle
        | false => do
          let material ← op .generateKey
          match ← protect endpointId .endpointIdentity material (some (endpointId material)) with
          | .ok handle => load endpointId handle
          | .error e =>
            match ← op .waitForActive with
            | .ok handle => load endpointId handle
            | .error _ => return .error e

def startEndpointIdentity : Task (Except Failure SecretMaterial) :=
  (reconcile endpointId).andThen fun _ => initializeEndpointIdentity endpointId decode

/-- The loop of `require_unrecoverable_endpoint_identity`. -/
def requireUnreadable : List SecretMetadata → Task (Except Failure Unit)
  | [] => return .ok ()
  | endpoint :: endpoints => do
    match ← op (.get endpoint.handle) with
    | .ok material =>
      if isValid endpointId .endpointIdentity material endpoint.expectedIdentity then
        return .error (.invalidInput "protected endpoint identity is still available")
      else requireUnreadable endpoints
    | .error error =>
      if error = .missing ∨ error = .corrupted then requireUnreadable endpoints
      else return .error (.custody (mapStoreError error))

def requireUnrecoverableEndpointIdentity : Task (Except Failure Unit) :=
  Prog.andThen (op .list) fun entries => requireUnreadable endpointId
    (entries.filter fun entry => entry.kind = .endpointIdentity && entry.state ≠ .disabled)

def deleteResetHandles : List Handle → Task (Except Failure Unit)
  | [] => return .ok ()
  | handle :: handles => (deleteIfPresent handle).andThen fun _ => deleteResetHandles handles

end Functions

/-- A start, an explicit reset with the start that follows it, and what a running core does with
the secrets of its relationships and transfers. -/
inductive Call where
  | start
  | reset
  | protect (kind : SecretKind) (material : SecretMaterial)
  | remove (handle : Handle)
  | removeOrphaned (referenced : List Handle)

def Call.ofCore : Call → Bool
  | .start | .reset => false
  | _ => true

def Call.isStart : Call → Bool
  | .start => true
  | _ => false

inductive Event where
  | stop
  | disturb (store : Table StoredSecret.handle)

section Machine

variable (endpointId : SecretMaterial → Text) (decode : Text → Option (List UInt8)) (kindOf : Handle → SecretKind)
  (exclusive : Bool)

/-- `lock_profile`, and what is done under it. -/
def locked (m : Task (Except Failure SecretMaterial)) : Task Unit := do
  if ← op .lock then op (.conclude (← m))

def Call.body : Call → Task Unit
  | .start => do
    op .enter
    locked (startEndpointIdentity endpointId decode)
  | .reset => do
    op .enter
    locked ((requireUnrecoverableEndpointIdentity endpointId).andThen fun _ =>
      Prog.andThen (op .resetMetadata) fun handles => (deleteResetHandles handles).andThen fun _ =>
        startEndpointIdentity endpointId decode)
  | .protect kind material => do
    op .enter
    let _ ← EndpointIdentity.protect endpointId kind material none
  | .remove handle => do
    op .enter
    let _ ← EndpointIdentity.remove handle
  | .removeOrphaned referenced => do
    op .enter
    let _ ← removeOrphanedTargetedAuthorizations referenced

/-- The secrets that the other domains protect and remove are their own. -/
def Call.admitted : Call → Bool
  | .protect kind _ => kind ≠ .endpointIdentity
  | .remove handle => kindOf handle ≠ .endpointIdentity
  | _ => true

def Op.enters : Op → Bool
  | .enter => true
  | _ => false

/-- A thread ends with its process; a core has threads while it runs. -/
def exec (s : Profile) (i : Nat) (call : Call) (o : Op) (c : Choice) : Option (Ans o × Profile) :=
  if (o.enters || i ∈ s.live) && (!call.ofCore || s.running) then perform kindOf exclusive s i o c else none

def env (s : Profile) : Event → Option Profile
  | .stop => some { s with live := [], holder := none, running := false }
  | .disturb store => some { s with custody := { s.custody with store } }

def profile (initial : Profile → Prop) : Machine Profile Call Op Ans Choice Event where
  init := initial
  admits _ call := call.admitted kindOf
  body := Call.body endpointId decode
  exec := exec kindOf exclusive
  env := env

/-- The identities that were handed out, the starts that were refused, and the threads for which
something went wrong: an operation failed, or the store was changed from outside. -/
structure History where
  handed : List Text
  refused : List Nat
  faulted : List Nat

def History.new : History := ⟨[],[],[]⟩

def storeFault {α : Type} : Except SecureSecretStoreError α → Bool
  | .error .locked | .error .unavailable => true
  | _ => false

def faults : (o : Op) → Ans o → Bool
  | .list, .error .repository | .stage .., .error .repository | .setState .., .error .repository
  | .find _, .error .repository | .findActiveKind _, .error .repository | .containsKind _, .error .repository
  | .waitForActive, .error .repository | .resetMetadata, .error .repository => true
  | .removeLegacy, .error .filesystem | .readLegacy, .error .filesystem | .legacyExists, .error .filesystem => true
  | .put .., r => storeFault r
  | .get _, r => storeFault r
  | .delete _, r => storeFault r
  | .listHandles, r => storeFault r
  | _, _ => false

def History.record (h : History) (i : Nat) (call : Call) : (o : Op) → Ans o → History
  | .conclude (.ok material), _ => { h with handed := endpointId material :: h.handed }
  | .conclude (.error _), _ => { h with refused := if call.isStart then i :: h.refused else h.refused }
  | o, r => { h with faulted := if faults o r then i :: h.faulted else h.faulted }

def History.witness (h : History) (s : Profile) : Event → History
  | .disturb _ => { h with faulted := s.live ++ h.faulted }
  | .stop => h

def machine (initial : Profile → Prop) : Machine (Observed Profile History) Call Op Ans Choice Event :=
  (profile endpointId decode kindOf exclusive initial).observe .new
    (fun h _ i call o r => h.record endpointId i call o r) History.witness

end Machine

end Vnidrop.EndpointIdentity
