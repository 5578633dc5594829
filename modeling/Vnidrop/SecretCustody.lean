import Vnidrop.Excepts
import Vnidrop.Tables
import Vnidrop.Values
import Mathlib

/-! Reconciliation of the secret metadata with the credential store. The two are written one
after the other, so either may be ahead of the other when a process starts. -/
namespace Vnidrop.SecretCustody

open Excepts Tables

inductive SecretKind where
  | endpointIdentity
  | relationshipGrant
  | pairingEligibility
  | targetedAuthorization
  deriving DecidableEq, Repr

inductive SecretMetadataState where
  | staged
  | active
  | disabled
  deriving DecidableEq, Repr

inductive SecureSecretStoreError where
  | locked
  | missing
  | corrupted
  | unavailable
  deriving DecidableEq, Repr

/-- The classes of `VnidropError` that custody returns. -/
inductive CustodyError where
  | secureStorageLocked (reason : String)
  | secureStorageMissing (reason : String)
  | secureStorageCorrupted (reason : String)
  | secureStorageUnavailable (reason : String)
  deriving DecidableEq, Repr

def SecretKind.asStr : SecretKind → String
  | .endpointIdentity => "endpoint-identity"
  | .relationshipGrant => "relationship-grant"
  | .pairingEligibility => "pairing-eligibility"
  | .targetedAuthorization => "targeted-authorization"

def SecretKind.parse (value : String) : Except CustodyError SecretKind :=
  if value = "endpoint-identity" then .ok .endpointIdentity
  else if value = "relationship-grant" then .ok .relationshipGrant
  else if value = "pairing-eligibility" then .ok .pairingEligibility
  else if value = "targeted-authorization" then .ok .targetedAuthorization
  else .error (.secureStorageCorrupted "protected secret has an unknown kind")

def SecretMetadataState.asStr : SecretMetadataState → String
  | .staged => "staged"
  | .active => "active"
  | .disabled => "disabled"

def SecretMetadataState.parse (value : String) : Except CustodyError SecretMetadataState :=
  if value = "staged" then .ok .staged
  else if value = "active" then .ok .active
  else if value = "disabled" then .ok .disabled
  else .error (.secureStorageCorrupted "protected secret has an unknown metadata state")

/-- Key material: 32 bytes that are not all zero. -/
structure SecretMaterial where
  bytes : List UInt8
  valid : bytes.length = 32 ∧ ¬∀ byte ∈ bytes, byte = 0

def SecretMaterial.new (bytes : List UInt8) : Except CustodyError SecretMaterial :=
  if valid : bytes.length = 32 ∧ ¬∀ byte ∈ bytes, byte = 0 then .ok ⟨bytes,valid⟩
  else .error (.secureStorageCorrupted "protected secret has invalid key material")

/-- A row of `protected_secret_refs`; `kind` and `state` are text columns. -/
structure SecretRef where
  handle : Handle
  kind : String
  state : String
  expectedIdentity : Option Text
  createdAt : Millis
  updatedAt : Millis
  deriving DecidableEq, Repr

structure SecretMetadata where
  handle : Handle
  kind : SecretKind
  state : SecretMetadataState
  expectedIdentity : Option Text
  deriving DecidableEq, Repr

/-- An entry of the credential store: its bytes, or how reading them fails. -/
inductive Content where
  | bytes (bytes : List UInt8)
  | unreadable (error : SecureSecretStoreError)
  deriving DecidableEq, Repr

structure StoredSecret where
  handle : Handle
  content : Content
  deriving DecidableEq, Repr

structure Custody where
  metadata : Table SecretRef.handle
  store : Table StoredSecret.handle
  deriving DecidableEq

structure ReconciliationSummary where
  orphansDeleted : Nat
  stagedActivated : Nat
  disabled : Nat
  deriving DecidableEq, Repr

def ReconciliationSummary.default : ReconciliationSummary := ⟨0,0,0⟩

def mapStoreError : SecureSecretStoreError → CustodyError
  | .locked => .secureStorageLocked "credential store is locked"
  | .missing => .secureStorageMissing "credential is missing"
  | .corrupted => .secureStorageCorrupted "credential is corrupted"
  | .unavailable => .secureStorageUnavailable "credential store is unavailable"

def rowToMetadata (row : SecretRef) : Except CustodyError SecretMetadata := do
  let kind ← SecretKind.parse row.kind
  let state ← SecretMetadataState.parse row.state
  return ⟨row.handle,kind,state,row.expectedIdentity⟩

namespace Custody

/-- `get` of the credential store, which rejects bytes that are no key material. -/
def get (c : Custody) (handle : Handle) : Except SecureSecretStoreError SecretMaterial :=
  match c.store.find handle with
  | none => .error .missing
  | some ⟨_,.unreadable error⟩ => .error error
  | some ⟨_,.bytes bytes⟩ =>
    match SecretMaterial.new bytes with
    | .ok material => .ok material
    | .error _ => .error .corrupted

def delete (c : Custody) (handle : Handle) : Except SecureSecretStoreError Custody :=
  match c.store.find handle with
  | none => .error .missing
  | some _ => .ok { c with store := c.store.delete handle }

def deleteIfPresent (c : Custody) (handle : Handle) : Except CustodyError Custody :=
  match c.delete handle with
  | .ok c => .ok c
  | .error .missing => .ok c
  | .error error => .error (mapStoreError error)

def storeDelete (c : Custody) (handle : Handle) : Except CustodyError Custody :=
  match c.delete handle with
  | .ok c => .ok c
  | .error error => .error (mapStoreError error)

def setState (c : Custody) (handle : Handle) (state : SecretMetadataState) (now : Millis) : Custody :=
  { c with
    metadata := c.metadata.updateWhere (fun row => row.handle = handle)
      fun row => { row with state := state.asStr, updatedAt := now } }

/-- `SELECT … ORDER BY handle`. -/
def list (c : Custody) : Except CustodyError (List SecretMetadata) :=
  (c.metadata.rows.mergeSort fun a b => a.handle ≤ b.handle).mapM rowToMetadata

def listHandles (c : Custody) : List Handle := c.store.rows.map StoredSecret.handle

end Custody

section Reconcile

-- the endpoint id of a key, and the clock when the row of a handle is written
variable (endpointId : SecretMaterial → Text) (now : Handle → Millis)

def validateMaterial (kind : SecretKind) (material : SecretMaterial) (expectedIdentity : Option Text) :
    Except CustodyError Unit :=
  if kind = .endpointIdentity then
    match expectedIdentity with
    | none => .error (.secureStorageCorrupted "endpoint identity metadata lacks its expected endpoint id")
    | some expected =>
      if endpointId material = expected then .ok ()
      else .error (.secureStorageCorrupted "protected endpoint identity does not match its endpoint id")
  else .ok ()

def isValid (kind : SecretKind) (material : SecretMaterial) (expectedIdentity : Option Text) : Bool :=
  match validateMaterial endpointId kind material expectedIdentity with
  | .ok () => true
  | .error _ => false

def Custody.load (c : Custody) (handle : Handle) : Except CustodyError SecretMaterial :=
  match c.metadata.find handle with
  | none => .error (.secureStorageMissing "protected secret metadata is missing")
  | some row => do
    let metadata ← rowToMetadata row
    if metadata.state ≠ .active then
      .error (.secureStorageUnavailable "protected secret is not active")
    else
      match c.get handle with
      | .error error => .error (mapStoreError error)
      | .ok material => do
        validateMaterial endpointId metadata.kind material metadata.expectedIdentity
        return material

/-- A secret that cannot be used is disabled first and deleted second. -/
def retire (entry : SecretMetadata) (c : Custody) (summary : ReconciliationSummary) :
    Except CustodyError (Custody × ReconciliationSummary) := do
  let c ← (c.setState entry.handle .disabled (now entry.handle)).deleteIfPresent entry.handle
  return (c,{ summary with disabled := summary.disabled + 1 })

/-- One pass of the loop over the metadata. -/
def reconcileEntry (entry : SecretMetadata) (c : Custody) (summary : ReconciliationSummary) :
    Except CustodyError (Custody × ReconciliationSummary) :=
  if entry.state = .disabled then do
    let c ← c.deleteIfPresent entry.handle
    return (c,summary)
  else
    match c.get entry.handle with
    | .ok material =>
      if isValid endpointId entry.kind material entry.expectedIdentity = false then
        if entry.kind = .endpointIdentity then
          .error (.secureStorageCorrupted "protected endpoint identity is corrupted")
        else retire now entry c summary
      else if entry.state = .staged then
        .ok (c.setState entry.handle .active (now entry.handle),
          { summary with stagedActivated := summary.stagedActivated + 1 })
      else .ok (c,summary)
    | .error .missing =>
      if entry.kind = .endpointIdentity then .error (mapStoreError .missing)
      else retire now entry c summary
    | .error .corrupted =>
      if entry.kind = .endpointIdentity then .error (mapStoreError .corrupted)
      else retire now entry c summary
    | .error error => .error (mapStoreError error)

def reconcileEntries : List SecretMetadata → Custody → ReconciliationSummary →
    Except CustodyError (Custody × ReconciliationSummary)
  | [], c, summary => .ok (c,summary)
  | entry :: entries, c, summary => do
    let (c,summary) ← reconcileEntry endpointId now entry c summary
    reconcileEntries entries c summary

def deleteOrphans (known : List Handle) : List Handle → Custody → ReconciliationSummary →
    Except CustodyError (Custody × ReconciliationSummary)
  | [], c, summary => .ok (c,summary)
  | handle :: handles, c, summary =>
    if handle ∈ known then deleteOrphans known handles c summary
    else do
      let c ← c.storeDelete handle
      deleteOrphans known handles c { summary with orphansDeleted := summary.orphansDeleted + 1 }

def reconcile (c : Custody) : Except CustodyError (Custody × ReconciliationSummary) := do
  let metadata ← c.list
  let storedHandles := c.listHandles
  let knownHandles := metadata.map SecretMetadata.handle
  let (c,summary) ← reconcileEntries endpointId now metadata c .default
  deleteOrphans knownHandles storedHandles c summary

end Reconcile

section Writes

variable {c d : Custody} {handle : Handle} {state : SecretMetadataState} {at_ : Millis}

@[simp] theorem setState_store : (c.setState handle state at_).store = c.store := rfl

theorem find_setState (k : Handle) : (c.setState handle state at_).metadata.find k =
    if k = handle then (c.metadata.find handle).map fun row =>
      { row with state := state.asStr, updatedAt := at_ }
    else c.metadata.find k := by
  unfold Custody.setState
  rw [Table.find_updateWhere]
  by_cases same : k = handle
  · subst same
    rw [if_pos rfl]
    cases found : c.metadata.find k with
    | none => rfl
    | some row => simp [Table.find_key found]
  · rw [if_neg same]
    cases found : c.metadata.find k with
    | none => rfl
    | some row => simp [Table.find_key found,same]

theorem delete_cases (c : Custody) (handle : Handle) :
    (c.store.find handle = none ∧ c.delete handle = .error .missing) ∨
    (c.store.find handle ≠ none ∧ c.delete handle = .ok { c with store := c.store.delete handle }) := by
  unfold Custody.delete
  cases found : c.store.find handle with
  | none => exact .inl ⟨rfl,rfl⟩
  | some entry => exact .inr ⟨by simp,rfl⟩

/-- Deleting succeeds, and leaves nothing under that handle. -/
theorem deleteIfPresent_ok (h : c.deleteIfPresent handle = .ok d) : d.metadata = c.metadata ∧
    ∀ k, d.store.find k = if k = handle then none else c.store.find k := by
  unfold Custody.deleteIfPresent at h
  rcases delete_cases c handle with ⟨absent,eq⟩ | ⟨_,eq⟩
  · rw [eq] at h
    cases h
    refine ⟨rfl,fun k => ?_⟩
    split
    · rename_i same
      exact same ▸ absent
    · rfl
  · rw [eq] at h
    cases h
    exact ⟨rfl,Table.find_delete _ _⟩

theorem deleteIfPresent_absent (absent : c.store.find handle = none) : c.deleteIfPresent handle = .ok c := by
  unfold Custody.deleteIfPresent Custody.delete
  rw [absent]

theorem storeDelete_ok (h : c.storeDelete handle = .ok d) : d.metadata = c.metadata ∧
    ∀ k, d.store.find k = if k = handle then none else c.store.find k := by
  unfold Custody.storeDelete at h
  rcases delete_cases c handle with ⟨_,eq⟩ | ⟨_,eq⟩
  · rw [eq] at h
    cases h
  · rw [eq] at h
    cases h
    exact ⟨rfl,Table.find_delete _ _⟩

theorem get_congr (same : d.store.find handle = c.store.find handle) : d.get handle = c.get handle := by
  unfold Custody.get
  rw [same]

theorem get_stored {material : SecretMaterial} (h : c.get handle = .ok material) :
    c.store.find handle ≠ none := by
  unfold Custody.get at h
  intro absent
  rw [absent] at h
  cases h

theorem kind_parse {value : String} {kind : SecretKind} : SecretKind.parse value = .ok kind ↔ value = kind.asStr := by
  unfold SecretKind.parse
  constructor
  · intro h
    split at h
    · cases h; assumption
    · split at h
      · cases h; assumption
      · split at h
        · cases h; assumption
        · split at h
          · cases h; assumption
          · cases h
  · rintro rfl
    cases kind <;> rfl

theorem state_parse {value : String} {state : SecretMetadataState} :
    SecretMetadataState.parse value = .ok state ↔ value = state.asStr := by
  unfold SecretMetadataState.parse
  constructor
  · intro h
    split at h
    · cases h; assumption
    · split at h
      · cases h; assumption
      · split at h
        · cases h; assumption
        · cases h
  · rintro rfl
    cases state <;> rfl

theorem rowToMetadata_ok {row : SecretRef} {entry : SecretMetadata} : rowToMetadata row = .ok entry ↔
    row.kind = entry.kind.asStr ∧ row.state = entry.state.asStr ∧ entry.handle = row.handle ∧
      entry.expectedIdentity = row.expectedIdentity := by
  unfold rowToMetadata
  rw [bind_ok]
  constructor
  · rintro ⟨kind,parsed,rest⟩
    obtain ⟨state,parsed',same⟩ := bind_ok.mp rest
    cases same
    exact ⟨kind_parse.mp parsed,state_parse.mp parsed',rfl,rfl⟩
  · rintro ⟨kind,state,handle,identity⟩
    refine ⟨entry.kind,kind_parse.mpr kind,bind_ok.mpr ⟨entry.state,state_parse.mpr state,?_⟩⟩
    cases entry
    cases handle
    cases identity
    rfl

end Writes

section Loops

variable {endpointId : SecretMaterial → Text} {now : Handle → Millis} {c d : Custody}
  {entry : SecretMetadata} {summary summary' : ReconciliationSummary}

/-- The store holds material for the entry that is valid for its kind. -/
def Usable (endpointId : SecretMaterial → Text) (entry : SecretMetadata) (c : Custody) : Prop :=
  ∃ material, c.get entry.handle = .ok material ∧
    isValid endpointId entry.kind material entry.expectedIdentity = true

/-- The row of an entry is active and usable, or disabled and without material. -/
def Settled (endpointId : SecretMaterial → Text) (entry : SecretMetadata) (c : Custody) : Prop :=
  ∃ row, c.metadata.find entry.handle = some row ∧ row.kind = entry.kind.asStr ∧
    row.expectedIdentity = entry.expectedIdentity ∧
    ((row.state = SecretMetadataState.active.asStr ∧ Usable endpointId entry c) ∨
    (row.state = SecretMetadataState.disabled.asStr ∧ c.store.find entry.handle = none ∧
      (entry.kind = .endpointIdentity → entry.state = .disabled)))

/-- Both have the same row and the same secret under a handle. -/
def Same (k : Handle) (c d : Custody) : Prop :=
  d.metadata.find k = c.metadata.find k ∧ d.store.find k = c.store.find k

theorem Settled.same (settled : Settled endpointId entry c) (same : Same entry.handle c d) :
    Settled endpointId entry d := by
  obtain ⟨row,found,kind,identity,fate⟩ := settled
  refine ⟨row,same.1.trans found,kind,identity,?_⟩
  rcases fate with ⟨active,material,got,valid⟩ | ⟨disabled,absent,never⟩
  · exact .inl ⟨active,material,(get_congr same.2).trans got,valid⟩
  · exact .inr ⟨disabled,same.2.trans absent,never⟩

theorem retire_ok {row : SecretRef} (h : retire now entry c summary = .ok (d,summary'))
    (found : c.metadata.find entry.handle = some row) (kind : row.kind = entry.kind.asStr)
    (identity : row.expectedIdentity = entry.expectedIdentity) (ordinary : entry.kind ≠ .endpointIdentity) :
    Settled endpointId entry d ∧ ∀ k, k ≠ entry.handle → Same k c d := by
  obtain ⟨d',deleted,same⟩ := bind_ok.mp h
  cases same
  obtain ⟨metadata,store⟩ := deleteIfPresent_ok deleted
  constructor
  · refine ⟨{ row with state := SecretMetadataState.disabled.asStr, updatedAt := now entry.handle },
      ?_,kind,identity,.inr ⟨rfl,?_,fun special => absurd special ordinary⟩⟩
    · rw [metadata,find_setState,if_pos rfl,found]
      rfl
    · rw [store,if_pos rfl]
  · intro k other
    constructor
    · rw [metadata,find_setState,if_neg other]
    · rw [store,if_neg other]
      rfl

/-- One pass settles its own entry and leaves every other handle alone. -/
theorem reconcileEntry_ok {row : SecretRef}
    (h : reconcileEntry endpointId now entry c summary = .ok (d,summary'))
    (found : c.metadata.find entry.handle = some row) (parsed : rowToMetadata row = .ok entry) :
    Settled endpointId entry d ∧ ∀ k, k ≠ entry.handle → Same k c d := by
  obtain ⟨kind,state,_,identity⟩ := rowToMetadata_ok.mp parsed
  unfold reconcileEntry at h
  split at h
  · -- a disabled row keeps its state
    rename_i disabled
    obtain ⟨d',deleted,same⟩ := bind_ok.mp h
    cases same
    obtain ⟨metadata,store⟩ := deleteIfPresent_ok deleted
    constructor
    · refine ⟨row,metadata ▸ found,kind,identity.symm,.inr ⟨disabled ▸ state,?_,fun _ => disabled⟩⟩
      rw [store,if_pos rfl]
    · intro k other
      exact ⟨by rw [metadata],by rw [store,if_neg other]⟩
  · rename_i enabled
    split at h
    · rename_i material got
      split at h
      · split at h
        · cases h
        · rename_i ordinary
          exact retire_ok h found kind identity.symm ordinary
      · rename_i valid
        have valid : isValid endpointId entry.kind material entry.expectedIdentity = true := by simpa using valid
        split at h
        · cases h
          constructor
          · refine ⟨{ row with state := SecretMetadataState.active.asStr, updatedAt := now entry.handle },
              ?_,kind,identity.symm,.inl ⟨rfl,material,got,valid⟩⟩
            rw [find_setState,if_pos rfl,found]
            rfl
          · intro k other
            exact ⟨by rw [find_setState,if_neg other],rfl⟩
        · rename_i unstaged
          cases h
          have active : entry.state = .active := by
            cases mode : entry.state with
            | staged => exact absurd mode unstaged
            | active => rfl
            | disabled => exact absurd mode enabled
          exact ⟨⟨row,found,kind,identity.symm,.inl ⟨active ▸ state,material,got,valid⟩⟩,fun k _ => ⟨rfl,rfl⟩⟩
    · split at h
      · cases h
      · rename_i ordinary
        exact retire_ok h found kind identity.symm ordinary
    · split at h
      · cases h
      · rename_i ordinary
        exact retire_ok h found kind identity.symm ordinary
    · cases h

/-- The loop settles every entry: no pass touches the row of another. -/
theorem reconcileEntries_ok {entries : List SecretMetadata}
    (h : reconcileEntries endpointId now entries c summary = .ok (d,summary'))
    (listed : ∀ entry ∈ entries, ∃ row, c.metadata.find entry.handle = some row ∧ rowToMetadata row = .ok entry)
    (distinct : (entries.map SecretMetadata.handle).Nodup) :
    (∀ entry ∈ entries, Settled endpointId entry d) ∧
      ∀ k, k ∉ entries.map SecretMetadata.handle → Same k c d := by
  induction entries generalizing c summary with
  | nil =>
    cases h
    exact ⟨by simp,fun k _ => ⟨rfl,rfl⟩⟩
  | cons entry entries ih =>
    obtain ⟨⟨c',summary₁⟩,first,rest⟩ := bind_ok.mp h
    obtain ⟨row,found,parsed⟩ := listed entry List.mem_cons_self
    obtain ⟨settled,same⟩ := reconcileEntry_ok first found parsed
    rw [List.map_cons,List.nodup_cons] at distinct
    have listed' : ∀ e ∈ entries, ∃ row, c'.metadata.find e.handle = some row ∧ rowToMetadata row = .ok e := by
      intro e member
      have other : e.handle ≠ entry.handle := fun eq =>
        distinct.1 (eq ▸ List.mem_map_of_mem (f := SecretMetadata.handle) member)
      obtain ⟨row,found,parsed⟩ := listed e (List.mem_cons_of_mem _ member)
      exact ⟨row,(same e.handle other).1.trans found,parsed⟩
    obtain ⟨others,same'⟩ := ih rest listed' distinct.2
    constructor
    · intro e member
      rcases List.mem_cons.mp member with rfl | later
      · exact settled.same (same' e.handle distinct.1)
      · exact others e later
    · intro k absent
      rw [List.map_cons,List.mem_cons,not_or] at absent
      have before := same k absent.1
      have after := same' k absent.2
      exact ⟨after.1.trans before.1,after.2.trans before.2⟩

theorem deleteOrphans_ok {known handles : List Handle}
    (h : deleteOrphans known handles c summary = .ok (d,summary')) : d.metadata = c.metadata ∧
      ∀ k, d.store.find k = if k ∈ handles ∧ k ∉ known then none else c.store.find k := by
  induction handles generalizing c summary with
  | nil =>
    cases h
    exact ⟨rfl,fun k => by simp⟩
  | cons handle handles ih =>
    unfold deleteOrphans at h
    split at h
    · rename_i here
      obtain ⟨metadata,store⟩ := ih h
      refine ⟨metadata,fun k => ?_⟩
      rw [store]
      by_cases same : k = handle
      · subst same
        simp [here]
      · simp [same]
    · rename_i orphan
      obtain ⟨c',deleted,rest⟩ := bind_ok.mp h
      obtain ⟨metadata,store⟩ := ih rest
      obtain ⟨metadata',store'⟩ := storeDelete_ok deleted
      refine ⟨metadata.trans metadata',fun k => ?_⟩
      rw [store,store']
      by_cases same : k = handle
      · subst same
        simp [orphan]
      · simp [same]

/-- Nothing is an orphan when every stored handle is known. -/
theorem deleteOrphans_known {known handles : List Handle} (all : ∀ handle ∈ handles, handle ∈ known) :
    deleteOrphans known handles c summary = .ok (c,summary) := by
  induction handles with
  | nil => rfl
  | cons handle handles ih =>
    unfold deleteOrphans
    rw [if_pos (all handle List.mem_cons_self)]
    exact ih fun h member => all h (List.mem_cons_of_mem _ member)

/-- A row that is as it should be. -/
def Sound (endpointId : SecretMaterial → Text) (entry : SecretMetadata) (c : Custody) : Prop :=
  (entry.state = .active ∧ Usable endpointId entry c) ∨
    (entry.state = .disabled ∧ c.store.find entry.handle = none)

theorem reconcileEntries_sound {entries : List SecretMetadata}
    (sound : ∀ entry ∈ entries, Sound endpointId entry c) :
    reconcileEntries endpointId now entries c summary = .ok (c,summary) := by
  induction entries with
  | nil => rfl
  | cons entry entries ih =>
    have first : reconcileEntry endpointId now entry c summary = .ok (c,summary) := by
      unfold reconcileEntry
      rcases sound entry List.mem_cons_self with ⟨active,material,got,valid⟩ | ⟨disabled,absent⟩
      · rw [if_neg (by simp [active]),got]
        dsimp only
        rw [if_neg (by simp [valid]),if_neg (by simp [active])]
      · rw [if_pos disabled,deleteIfPresent_absent absent]
        rfl
    unfold reconcileEntries
    rw [first]
    exact ih fun e member => sound e (List.mem_cons_of_mem _ member)

end Loops

section Passes

variable {endpointId : SecretMaterial → Text} {now : Handle → Millis} {c d : Custody}
  {summary : ReconciliationSummary} {entries : List SecretMetadata}

theorem mem_listHandles {handle : Handle} : handle ∈ c.listHandles ↔ c.store.find handle ≠ none := by
  rw [Custody.listHandles,List.mem_map,ne_eq,Table.find_eq_none]
  constructor
  · rintro ⟨entry,member,same⟩ none
    exact none entry member same
  · intro some
    by_contra absent
    exact some fun entry member same => absent ⟨entry,member,same⟩

theorem forall₂_mem_left {α β : Type} {R : α → β → Prop} {l : List α} {m : List β} {a : α}
    (h : List.Forall₂ R l m) (member : a ∈ l) : ∃ b ∈ m, R a b := by
  induction h with
  | nil => cases member
  | cons first _ ih =>
    rcases List.mem_cons.mp member with rfl | later
    · exact ⟨_,List.mem_cons_self,first⟩
    · obtain ⟨b,there,related⟩ := ih later
      exact ⟨b,List.mem_cons_of_mem _ there,related⟩

/-- The listing has every row once, each of them read. -/
theorem list_ok (h : c.list = .ok entries) :
    (∀ entry ∈ entries, ∃ row, c.metadata.find entry.handle = some row ∧ rowToMetadata row = .ok entry) ∧
    (∀ row ∈ c.metadata.rows, ∃ entry ∈ entries, rowToMetadata row = .ok entry) ∧
    (entries.map SecretMetadata.handle).Nodup := by
  have read := mapM_ok.mp h
  have sorted := List.mergeSort_perm c.metadata.rows fun a b => a.handle ≤ b.handle
  refine ⟨?_,?_,?_⟩
  · intro entry member
    obtain ⟨row,there,parsed⟩ := forall₂_mem_left read.flip member
    refine ⟨row,?_,parsed⟩
    rw [(rowToMetadata_ok.mp parsed).2.2.1]
    exact Table.find_of_mem (sorted.mem_iff.mp there)
  · intro row member
    exact forall₂_mem_left read (sorted.mem_iff.mpr member)
  · have handles : entries.map SecretMetadata.handle =
        (c.metadata.rows.mergeSort fun a b => a.handle ≤ b.handle).map SecretRef.handle := by
      clear h
      generalize (c.metadata.rows.mergeSort fun a b => a.handle ≤ b.handle) = rows at read
      induction read with
      | nil => rfl
      | cons first _ ih =>
        rw [List.map_cons,List.map_cons,(rowToMetadata_ok.mp first).2.2.1]
        exact congrArg _ ih
    rw [handles]
    exact (sorted.map SecretRef.handle).nodup_iff.mpr c.metadata.unique

/-- Rows that can be read are listed. -/
theorem list_of_rows (readable : ∀ row ∈ c.metadata.rows, ∃ entry, rowToMetadata row = .ok entry) :
    ∃ entries, c.list = .ok entries := by
  unfold Custody.list
  have sorted := List.mergeSort_perm c.metadata.rows fun a b => a.handle ≤ b.handle
  have each : ∀ row ∈ c.metadata.rows.mergeSort fun a b => a.handle ≤ b.handle,
      ∃ entry, rowToMetadata row = .ok entry := fun row member => readable row (sorted.mem_iff.mp member)
  clear sorted
  generalize (c.metadata.rows.mergeSort fun a b => a.handle ≤ b.handle) = rows at each
  induction rows with
  | nil => exact ⟨[],rfl⟩
  | cons row rows ih =>
    obtain ⟨entry,parsed⟩ := each row List.mem_cons_self
    obtain ⟨entries,rest⟩ := ih fun r member => each r (List.mem_cons_of_mem _ member)
    exact ⟨entry :: entries,mapM_ok.mpr (.cons parsed (mapM_ok.mp rest))⟩

/-- What a pass leaves: every row settled, and nothing stored beside them. -/
theorem reconcile_ok (h : reconcile endpointId now c = .ok (d,summary)) :
    (∀ row ∈ c.metadata.rows, ∃ entry, rowToMetadata row = .ok entry ∧ Settled endpointId entry d) ∧
    (∀ k, c.metadata.find k = none → d.metadata.find k = none ∧ d.store.find k = none) := by
  obtain ⟨entries,listed,rest⟩ := bind_ok.mp h
  obtain ⟨⟨c',summary'⟩,looped,swept⟩ := bind_ok.mp rest
  obtain ⟨found,every,distinct⟩ := list_ok listed
  obtain ⟨settled,same⟩ := reconcileEntries_ok looped found distinct
  obtain ⟨metadata,store⟩ := deleteOrphans_ok swept
  constructor
  · intro row member
    obtain ⟨entry,there,parsed⟩ := every row member
    refine ⟨entry,parsed,(settled entry there).same ⟨by rw [metadata],?_⟩⟩
    rw [store,if_neg fun both => both.2 (List.mem_map_of_mem there)]
  · intro k absent
    have unknown : k ∉ entries.map SecretMetadata.handle := by
      intro known
      obtain ⟨entry,there,rfl⟩ := List.mem_map.mp known
      obtain ⟨row,present,_⟩ := found entry there
      rw [absent] at present
      cases present
    obtain ⟨row,secret⟩ := same k unknown
    refine ⟨by rw [metadata,row,absent],?_⟩
    rw [store]
    split
    · rfl
    · rename_i kept
      rw [secret]
      by_contra stored
      exact kept ⟨mem_listHandles.mpr stored,unknown⟩

/-- Each row after a pass stands for one before it. -/
theorem reconcile_rows (h : reconcile endpointId now c = .ok (d,summary)) {row : SecretRef}
    (member : row ∈ d.metadata.rows) : ∃ entry : SecretMetadata, entry.handle = row.handle ∧
      row.kind = entry.kind.asStr ∧ row.expectedIdentity = entry.expectedIdentity ∧
      ((row.state = SecretMetadataState.active.asStr ∧ Usable endpointId entry d) ∨
      (row.state = SecretMetadataState.disabled.asStr ∧ d.store.find entry.handle = none)) := by
  obtain ⟨settled,others⟩ := reconcile_ok h
  have here := Table.find_of_mem member
  cases before : c.metadata.find row.handle with
  | none =>
    rw [(others row.handle before).1] at here
    cases here
  | some old =>
    obtain ⟨entry,parsed,done⟩ := settled old (Table.find_mem before)
    have handle : entry.handle = row.handle :=
      (rowToMetadata_ok.mp parsed).2.2.1.trans (Table.find_key before)
    obtain ⟨new,found,kind,identity,fate⟩ := done
    rw [handle,here] at found
    cases found
    refine ⟨entry,handle,kind,identity,?_⟩
    rcases fate with active | ⟨disabled,absent,_⟩
    · exact .inl active
    · exact .inr ⟨disabled,absent⟩

/-- The metadata and the store agree. -/
structure Reconciled (endpointId : SecretMaterial → Text) (before after : Custody) : Prop where
  stored : ∀ handle, handle ∈ after.listHandles ↔
    ∃ row ∈ after.metadata.rows, row.handle = handle ∧ row.state = "active"
  usable : ∀ row ∈ after.metadata.rows, row.state = "active" →
    ∃ material, after.load endpointId row.handle = .ok material
  states : ∀ row ∈ after.metadata.rows, row.state = "active" ∨ row.state = "disabled"
  disabled : ∀ row ∈ after.metadata.rows, row.state = "disabled" → row.handle ∉ after.listHandles
  identity : ∀ row ∈ before.metadata.rows, row.kind = "endpoint-identity" → row.state ≠ "disabled" →
    ∃ row' ∈ after.metadata.rows, row'.handle = row.handle ∧ row'.kind = row.kind ∧ row'.state = "active"

theorem isValid_iff {kind : SecretKind} {material : SecretMaterial} {expected : Option Text} :
    isValid endpointId kind material expected = true ↔
      validateMaterial endpointId kind material expected = .ok () := by
  unfold isValid
  cases validateMaterial endpointId kind material expected with
  | ok u => exact iff_of_true rfl rfl
  | error e => simp

theorem load_usable {row : SecretRef} {entry : SecretMetadata} (member : row ∈ d.metadata.rows)
    (handle : entry.handle = row.handle) (kind : row.kind = entry.kind.asStr)
    (identity : row.expectedIdentity = entry.expectedIdentity)
    (active : row.state = SecretMetadataState.active.asStr) (usable : Usable endpointId entry d) :
    ∃ material, d.load endpointId row.handle = .ok material := by
  obtain ⟨material,got,valid⟩ := usable
  have parsed : rowToMetadata row = .ok ⟨row.handle,entry.kind,.active,row.expectedIdentity⟩ :=
    rowToMetadata_ok.mpr ⟨kind,active,rfl,rfl⟩
  refine ⟨material,?_⟩
  unfold Custody.load
  rw [Table.find_of_mem member]
  refine bind_ok.mpr ⟨_,parsed,?_⟩
  rw [if_neg (by simp),← handle,got,identity]
  exact bind_ok.mpr ⟨(),isValid_iff.mp valid,rfl⟩

theorem stored_iff (h : reconcile endpointId now c = .ok (d,summary)) (handle : Handle) :
    handle ∈ d.listHandles ↔ ∃ row ∈ d.metadata.rows, row.handle = handle ∧ row.state = "active" := by
  rw [mem_listHandles]
  constructor
  · intro stored
    cases found : d.metadata.find handle with
    | none =>
      obtain ⟨settled,others⟩ := reconcile_ok h
      cases before : c.metadata.find handle with
      | none => exact absurd (others handle before).2 stored
      | some old =>
        obtain ⟨entry,parsed,row,present,_⟩ := settled old (Table.find_mem before)
        rw [(rowToMetadata_ok.mp parsed).2.2.1,Table.find_key before,found] at present
        cases present
    | some row =>
      obtain ⟨entry,handled,_,_,fate⟩ := reconcile_rows h (Table.find_mem found)
      rcases fate with ⟨active,_⟩ | ⟨_,absent⟩
      · exact ⟨row,Table.find_mem found,Table.find_key found,active⟩
      · rw [handled,Table.find_key found] at absent
        exact absurd absent stored
  · rintro ⟨row,member,rfl,active⟩
    obtain ⟨entry,handled,_,_,fate⟩ := reconcile_rows h member
    rcases fate with ⟨_,material,got,_⟩ | ⟨disabled,_⟩
    · exact handled ▸ get_stored got
    · rw [active] at disabled
      exact absurd disabled (by decide)

/-- After a pass that succeeds a second one finds nothing to do. -/
theorem reconcile_again (h : reconcile endpointId now c = .ok (d,summary)) (now' : Handle → Millis) :
    reconcile endpointId now' d = .ok (d,.default) := by
  have readable : ∀ row ∈ d.metadata.rows, ∃ entry, rowToMetadata row = .ok entry := by
    intro row member
    obtain ⟨entry,_,kind,_,fate⟩ := reconcile_rows h member
    rcases fate with ⟨active,_⟩ | ⟨disabled,_⟩
    · exact ⟨⟨row.handle,entry.kind,.active,row.expectedIdentity⟩,rowToMetadata_ok.mpr ⟨kind,active,rfl,rfl⟩⟩
    · exact ⟨⟨row.handle,entry.kind,.disabled,row.expectedIdentity⟩,
        rowToMetadata_ok.mpr ⟨kind,disabled,rfl,rfl⟩⟩
  obtain ⟨entries,listed⟩ := list_of_rows readable
  obtain ⟨found,every,_⟩ := list_ok listed
  have sound : ∀ entry ∈ entries, Sound endpointId entry d := by
    intro entry member
    obtain ⟨row,present,parsed⟩ := found entry member
    obtain ⟨kind,state,handle,identity⟩ := rowToMetadata_ok.mp parsed
    obtain ⟨entry',handle',kind',identity',fate⟩ := reconcile_rows h (Table.find_mem present)
    have sameHandle : entry.handle = entry'.handle := handle.trans handle'.symm
    rcases fate with ⟨active,material,got,valid⟩ | ⟨disabled,absent⟩
    · refine .inl ⟨?_,material,?_,?_⟩
      · exact Except.ok.inj ((state_parse.mpr state).symm.trans (state_parse.mpr active))
      · rw [sameHandle]
        exact got
      · have sameKind : entry.kind = entry'.kind :=
          Except.ok.inj ((kind_parse.mpr kind).symm.trans (kind_parse.mpr kind'))
        rw [sameKind,identity,identity']
        exact valid
    · refine .inr ⟨?_,?_⟩
      · exact Except.ok.inj ((state_parse.mpr state).symm.trans (state_parse.mpr disabled))
      · rw [sameHandle]
        exact absent
  have known : ∀ handle ∈ d.listHandles, handle ∈ entries.map SecretMetadata.handle := by
    intro handle stored
    obtain ⟨row,member,rfl,_⟩ := (stored_iff h handle).mp stored
    obtain ⟨entry,there,parsed⟩ := every row member
    exact List.mem_map.mpr ⟨entry,there,(rowToMetadata_ok.mp parsed).2.2.1⟩
  refine bind_ok.mpr ⟨entries,listed,bind_ok.mpr ⟨(d,.default),reconcileEntries_sound sound,?_⟩⟩
  exact deleteOrphans_known known

/-- A reconciliation that succeeds leaves metadata and store in agreement, and a second one
changes nothing. -/
theorem reconcile_agrees (h : reconcile endpointId now c = .ok (d,summary)) :
    Reconciled endpointId c d ∧ ∀ now', reconcile endpointId now' d = .ok (d,.default) := by
  refine ⟨⟨stored_iff h,?_,?_,?_,?_⟩,reconcile_again h⟩
  · intro row member active
    obtain ⟨entry,handle,kind,identity,fate⟩ := reconcile_rows h member
    rcases fate with ⟨active,usable⟩ | ⟨disabled,_⟩
    · exact load_usable member handle kind identity active usable
    · rw [active] at disabled
      exact absurd disabled (by decide)
  · intro row member
    obtain ⟨_,_,_,_,fate⟩ := reconcile_rows h member
    rcases fate with ⟨active,_⟩ | ⟨disabled,_⟩
    · exact .inl active
    · exact .inr disabled
  · intro row member disabled stored
    obtain ⟨entry,handle,_,_,fate⟩ := reconcile_rows h member
    rcases fate with ⟨active,_⟩ | ⟨_,absent⟩
    · rw [disabled] at active
      exact absurd active (by decide)
    · exact mem_listHandles.mp stored (handle ▸ absent)
  · intro row member kind enabled
    obtain ⟨entry,parsed,new,found,kind',_,fate⟩ := (reconcile_ok h).1 row member
    obtain ⟨kindOf,state,handle,_⟩ := rowToMetadata_ok.mp parsed
    have special : entry.kind = .endpointIdentity := by
      refine Except.ok.inj ((kind_parse.mpr kindOf).symm.trans ?_)
      rw [kind]
      rfl
    refine ⟨new,Table.find_mem found,(Table.find_key found).trans handle,kind'.trans kindOf.symm,?_⟩
    rcases fate with ⟨active,_⟩ | ⟨_,_,was⟩
    · exact active
    · exact absurd (state.trans (congrArg SecretMetadataState.asStr (was special))) enabled

end Passes

namespace Sample

def key (n : UInt8) : List UInt8 := List.replicate 32 n

/-- What a crash may leave: a staged secret, one that is gone, a disabled one still stored, and
one that no row knows. -/
def crashed : Custody where
  metadata := ⟨[⟨1,"endpoint-identity","active",some 7,0,0⟩,⟨2,"relationship-grant","staged",none,0,0⟩,
    ⟨3,"targeted-authorization","active",none,0,0⟩,⟨4,"pairing-eligibility","disabled",none,0,0⟩],by decide⟩
  store := ⟨[⟨1,.bytes (key 1)⟩,⟨2,.bytes (key 2)⟩,⟨4,.bytes (key 4)⟩,⟨5,.bytes (key 5)⟩],by decide⟩

def repaired : Custody where
  metadata := ⟨[⟨1,"endpoint-identity","active",some 7,0,0⟩,⟨2,"relationship-grant","active",none,0,9⟩,
    ⟨3,"targeted-authorization","disabled",none,0,9⟩,⟨4,"pairing-eligibility","disabled",none,0,0⟩],by decide⟩
  store := ⟨[⟨1,.bytes (key 1)⟩,⟨2,.bytes (key 2)⟩],by decide⟩

theorem crashed_list : crashed.list = .ok [⟨1,.endpointIdentity,.active,some 7⟩,
    ⟨2,.relationshipGrant,.staged,none⟩,⟨3,.targetedAuthorization,.active,none⟩,
    ⟨4,.pairingEligibility,.disabled,none⟩] := by
  unfold Custody.list
  rw [List.mergeSort_of_pairwise (by decide)]
  rfl

theorem crashed_reconciles :
    reconcile (fun _ => 7) (fun _ => 9) crashed = .ok (repaired,⟨1,1,1⟩) := by
  unfold reconcile
  rw [crashed_list]
  rfl

end Sample

open SecretCustody.Sample in
/-- What a crash has left is repaired. -/
theorem crash_repaired : Reconciled (fun _ => 7) crashed repaired ∧
    ∀ now', reconcile (fun _ => 7) now' repaired = .ok (repaired,.default) :=
  reconcile_agrees crashed_reconciles

end Vnidrop.SecretCustody
