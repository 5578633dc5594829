import Vnidrop.PairingStore
import Vnidrop.ReceiverLifecycle
import Vnidrop.SecretCustody
import Vnidrop.TargetedStore
import Vnidrop.TransferHistory

/-! `reset_identity_bound_state` over the whole database, and the custody of the secrets whose
handles it hands out. -/
namespace Vnidrop.IdentityReset

open Tables Runs
open Invitation (PendingDeliveryReceipt)
open ReceiverLifecycle (Requests StoredRequest)
open SecretCustody (Custody CustodyError ReconciliationSummary SecretKind SecretMaterial
  SecretMetadataState SecretRef Content StoredSecret reconcile)

/-- A row of `relationship_generation_tombstones`. -/
structure Tombstone where
  remoteEndpointId : EndpointId
  generation : Int
  issuedGrantId : Option Text
  heldGrantId : Option Text
  revokedAt : Millis
  deriving DecidableEq, Repr

def Tombstone.key (t : Tombstone) : EndpointId × Int := (t.remoteEndpointId,t.generation)

/-- The tables that are bound to the endpoint identity. -/
structure Database where
  transfers : Receives.Transfers
  requests : Requests
  receipts : Table PendingDeliveryReceipt.requestId
  targeted : Targeted.Store
  eligibilities : Pairing.Eligibilities
  relationships : Pairing.Relationships
  tombstones : Table Tombstone.key
  secrets : Table SecretRef.handle

/-- `WHERE status IN ('requested', 'accepted')`. -/
def pendingRequest (r : StoredRequest) : Bool := r.status = .requested || r.status = .accepted

def resetRequest (now : Millis) (r : StoredRequest) : StoredRequest :=
  { r with
    status := if r.status = .requested then .expired else .failed
    reason := some "device identity reset"
    respondedAt := r.respondedAt <|> some now }

/-- `SELECT handle FROM protected_secret_refs ORDER BY handle`. -/
def handles (d : Database) : List Handle :=
  (d.secrets.rows.map SecretRef.handle).insertionSort (· ≤ ·)

/-- The handles of the secrets and the database, once the transaction has committed. -/
def resetIdentityBoundState (d : Database) (now : Millis) : List Handle × Database :=
  (handles d,{
    transfers := d.transfers.resetIdentityBoundState now
    requests := d.requests.updateWhere pendingRequest (resetRequest now) fun _ => rfl
    receipts := .empty
    targeted := d.targeted.resetIdentityBoundState now
    eligibilities := .empty
    relationships := .empty
    tombstones := .empty
    secrets := .empty })

def deleteResetHandles : List Handle → Custody → Except CustodyError Custody
  | [], c => .ok c
  | handle :: handles, c => do
    let c ← c.deleteIfPresent handle
    deleteResetHandles handles c

/-! What custody does until a reconciliation: it protects secrets under fresh handles, and
activates, disables and removes them. -/

/-- The custody, and the handles generated since the reset. -/
structure Later where
  custody : Custody
  drawn : List Handle

inductive Event where
  | storePut (handle : Handle) (content : Content)
  | stage (handle : Handle) (kind : SecretKind) (expectedIdentity : Option Text) (now : Millis)
  | setState (handle : Handle) (state : SecretMetadataState) (now : Millis)
  | deleteIfPresent (handle : Handle)

/-- One write; a handle is generated once, and only a generated handle is staged. -/
def Later.step (spent : List Handle) (s : Later) : Event → Option Later
  | .storePut handle content =>
    if handle ∈ spent ∨ handle ∈ s.drawn then none
    else some ⟨{ s.custody with store := s.custody.store.insertOrIgnore ⟨handle,content⟩ },handle :: s.drawn⟩
  | .stage handle kind expectedIdentity now =>
    if handle ∈ s.drawn then
      (s.custody.metadata.insert ⟨handle,kind.asStr,"staged",expectedIdentity,now,now⟩).map fun metadata =>
        { s with custody := { s.custody with metadata } }
    else none
  | .setState handle state now => some { s with custody := s.custody.setState handle state now }
  | .deleteIfPresent handle => (s.custody.deleteIfPresent handle).toOption.map fun custody => { s with custody }

def later (spent : List Handle) (c : Custody) : System Later Event where
  init s := s = ⟨c,[]⟩
  step := Later.step spent

/-- The requests move as their lifecycle allows. -/
def RequestMoved (r r' : StoredRequest) : Prop :=
  r'.status = r.status ∨ ReceiverLifecycle.Moves r.status r'.status

/-- The handles that were generated before the reset: of a reference, or of a stored secret. -/
def spent (d : Database) (store : Table StoredSecret.handle) : List Handle :=
  handles d ++ store.rows.map StoredSecret.handle

/-- What a reset at `now` makes of the database. -/
structure Reset (d : Database) (now : Millis) : Prop where
  transfers : ∀ id row, (resetIdentityBoundState d now).2.transfers.find id = some row →
    ∃ old, d.transfers.find id = some old ∧ Receives.Transfers.live row = false ∧
      (Receives.Transfers.live old = false → row = old) ∧
      (row.status = old.status ∨ old.status.canTransitionTo row.status = true)
  requests : ∀ id row, (resetIdentityBoundState d now).2.requests.find id = some row →
    ∃ old, d.requests.find id = some old ∧ pendingRequest row = false ∧
      (pendingRequest old = false → row = old) ∧ RequestMoved old row
  targeted : ∀ id row, (resetIdentityBoundState d now).2.targeted.getRow id = some row →
    ∃ old, d.targeted.getRow id = some old ∧ row.state.terminal = true ∧
      row.blobTicket = none ∧ row.authorizationSecretHandle = none ∧
      (old.state.terminal = true → row.state = old.state) ∧
      (row.state = old.state ∨ old.state.validateTransitionTo row.state = .ok ())
  /-- No row of the histories is lost. -/
  kept : (∀ id, d.transfers.find id ≠ none → (resetIdentityBoundState d now).2.transfers.find id ≠ none) ∧
    (∀ id, d.requests.find id ≠ none → (resetIdentityBoundState d now).2.requests.find id ≠ none) ∧
    ∀ id, d.targeted.getRow id ≠ none → (resetIdentityBoundState d now).2.targeted.getRow id ≠ none
  cleared : let after := (resetIdentityBoundState d now).2
    after.receipts.rows = [] ∧ after.targeted.intents.rows = [] ∧
    after.targeted.authorizationDelivery.rows = [] ∧ after.targeted.completion.rows = [] ∧
    after.targeted.payloadRelease.rows = [] ∧ after.relationships.rows = [] ∧
    after.tombstones.rows = [] ∧ after.eligibilities.rows = [] ∧ after.secrets.rows = []
  again : ∀ now', resetIdentityBoundState (resetIdentityBoundState d now).2 now' =
    ([],(resetIdentityBoundState d now).2)
  /-- Whatever part of the handles has been deleted, a reconciliation removes every secret that
  was stored under a handle of before. -/
  forgotten : ∀ (store : Table StoredSecret.handle) n c s endpointId clock e summary,
    deleteResetHandles ((resetIdentityBoundState d now).1.take n)
      ⟨(resetIdentityBoundState d now).2.secrets,store⟩ = .ok c →
    Reach (later (spent d store) c) Always s →
    reconcile endpointId clock s.custody = .ok (e,summary) →
    ∀ handle ∈ spent d store, handle ∉ e.listHandles

section Rows

variable {d : Database} {now : Millis} {t : Receives.Transfers} {r : StoredRequest}
  {row : Targeted.TargetedTransferRow}

theorem live_iff {row : Receives.Transfer} : Receives.Transfers.live row = true ↔
    row.status = .sharing ∨ row.status = .importing ∨ row.status = .receiving := by
  simp [Receives.Transfers.live]

theorem find_resetTransfers (id : TransferId) : (t.resetIdentityBoundState now).find id =
    (t.find id).map fun row => if Receives.Transfers.live row then { row with
      status := if row.status = .sharing then .stopped else .cancelled, ticket := none, updatedAt := now }
    else row :=
  t.find_updateWhere _ _ _ id

theorem reset_not_live {row : Receives.Transfer} {status : TransferStatus}
    (ended : row.status = if status = .sharing then .stopped else .cancelled) :
    Receives.Transfers.live row = false := by
  simp only [Receives.Transfers.live,ended]
  split <;> rfl

theorem resetRequest_settled : pendingRequest (resetRequest now r) = false := by
  simp only [pendingRequest,resetRequest]
  split <;> rfl

theorem resetRequest_moved (pending : pendingRequest r = true) : RequestMoved r (resetRequest now r) := by
  simp only [pendingRequest,Bool.or_eq_true,decide_eq_true_eq] at pending
  refine .inr ?_
  rcases pending with is | is
  · simp only [resetRequest,is]
    exact .expire
  · simp only [resetRequest,is]
    exact .fail

/-- The update of a targeted row. -/
def resetRow (now : Millis) (r : Targeted.TargetedTransferRow) : Targeted.TargetedTransferRow :=
  { r with
    state := if r.state.terminal then r.state else .cancelled
    blobTicket := none
    authorizationSecretHandle := none
    updatedAt := if !r.state.terminal || r.blobTicket.isSome || r.authorizationSecretHandle.isSome
      then now else r.updatedAt }

theorem find_resetTargeted {s : Targeted.Store} (id : TransferId) :
    (s.resetIdentityBoundState now).getRow id = (s.getRow id).map (resetRow now) :=
  s.transfers.find_updateWhere (fun _ => true) (resetRow now) (fun _ => rfl) id

theorem resetRow_terminal : (resetRow now row).state.terminal = true := by
  simp only [resetRow]
  split
  · assumption
  · rfl

/-- A row that has been reset is not written again. -/
theorem resetRow_again (now' : Millis) : resetRow now' (resetRow now row) = resetRow now row := by
  have terminal : (resetRow now row).state.terminal = true := resetRow_terminal
  unfold resetRow at terminal ⊢
  simp only [terminal]
  rfl

end Rows

section Tables

variable {ρ κ : Type} {key : ρ → κ} {t : Table key}

theorem mem_updateWhere {p : ρ → Bool} {f : ρ → ρ} {keeps : ∀ r, key (f r) = key r} {r : ρ}
    (there : r ∈ (t.updateWhere p f keeps).rows) : ∃ old ∈ t.rows, r = if p old then f old else old := by
  obtain ⟨old,member,eq⟩ := List.mem_map.mp there
  exact ⟨old,member,eq.symm⟩

/-- An update whose rows no longer meet its condition changes nothing the second time. -/
theorem updateWhere_twice {p : ρ → Bool} {f g : ρ → ρ} {keeps : ∀ r, key (f r) = key r}
    {keeps' : ∀ r, key (g r) = key r} (settles : ∀ r, p r = true → p (f r) = false) :
    (t.updateWhere p f keeps).updateWhere p g keeps' = t.updateWhere p f keeps := by
  apply Table.updateWhere_eq_self
  apply Bool.eq_false_iff.mpr
  intro some
  obtain ⟨r,there,met⟩ := List.any_eq_true.mp some
  obtain ⟨old,_,rfl⟩ := mem_updateWhere there
  split at met
  · rename_i selected
    rw [settles old selected] at met
    cases met
  · contradiction

end Tables

section Custodies

variable {c e : Custody} {l : List Handle} {s t : Later} {before : List Handle}

theorem deleteResetHandles_metadata (h : deleteResetHandles l c = .ok e) : e.metadata = c.metadata := by
  induction l generalizing c with
  | nil =>
    cases h
    rfl
  | cons handle l ih =>
    obtain ⟨d,deleted,rest⟩ := Excepts.bind_ok.mp h
    exact (ih rest).trans (SecretCustody.deleteIfPresent_ok deleted).1

/-- Every reference is under a handle that was generated since. -/
structure Fresh (before : List Handle) (s : Later) : Prop where
  drawn : ∀ handle ∈ s.drawn, handle ∉ before
  refs : ∀ handle, s.custody.metadata.find handle ≠ none → handle ∈ s.drawn

theorem step_fresh {a : Event} (fresh : Fresh before s) (h : s.step before a = some t) : Fresh before t := by
  cases a with
  | storePut handle content =>
    simp only [Later.step] at h
    split at h
    · cases h
    · rename_i new
      cases h
      refine ⟨fun k drawn => ?_,fun k there => List.mem_cons_of_mem _ (fresh.refs k there)⟩
      rcases List.mem_cons.mp drawn with rfl | old
      · exact fun spent => new (.inl spent)
      · exact fresh.drawn k old
  | stage handle kind identity now =>
    simp only [Later.step] at h
    split at h
    · rename_i drawn
      obtain ⟨metadata,staged,eq⟩ := Option.map_eq_some_iff.mp h
      cases eq
      refine ⟨fresh.drawn,fun k there => ?_⟩
      by_cases same : k = handle
      · exact same ▸ drawn
      · refine fresh.refs k fun absent => there ?_
        have other := Table.find_insert staged k
        rw [if_neg same] at other
        exact other.trans absent
    · cases h
  | setState handle state now =>
    cases h
    refine ⟨fresh.drawn,fun k there => fresh.refs k fun absent => there ?_⟩
    show (s.custody.setState handle state now).metadata.find k = none
    rw [SecretCustody.find_setState]
    split
    · rename_i same
      rw [← same,absent]
      rfl
    · exact absent
  | deleteIfPresent handle =>
    simp only [Later.step] at h
    cases deleted : s.custody.deleteIfPresent handle with
    | error e =>
      rw [deleted] at h
      cases h
    | ok custody =>
      rw [deleted] at h
      cases h
      have same := (SecretCustody.deleteIfPresent_ok deleted).1
      exact ⟨fresh.drawn,fun k there => fresh.refs k fun absent => there (same ▸ absent)⟩

theorem later_fresh (empty : c.metadata = .empty) (reach : Reach (later before c) Always s) : Fresh before s := by
  refine reach.invariant (Fresh before) ?_ fun s a t fresh _ stepped => step_fresh fresh stepped
  rintro s rfl
  refine ⟨fun handle drawn => (by cases drawn),fun handle there => ?_⟩
  rw [empty] at there
  exact absurd rfl there

end Custodies

/-- A reset leaves nothing that is bound to the identity, and loses no history. -/
theorem identity_reset (d : Database) (now : Millis) : Reset d now := by
  constructor
  case transfers =>
    intro id row found
    obtain ⟨old,there,eq⟩ := Option.map_eq_some_iff.mp ((find_resetTransfers id).symm.trans found)
    refine ⟨old,there,?_⟩
    split at eq
    · rename_i open'
      subst eq
      refine ⟨reset_not_live rfl,fun ended => ?_,.inr (Receives.Transfers.ends_live (live_iff.mp open'))⟩
      rw [ended] at open'
      cases open'
    · rename_i ended
      subst eq
      exact ⟨Bool.eq_false_iff.mpr ended,fun _ => rfl,.inl rfl⟩
  case requests =>
    intro id row found
    have after := d.requests.find_updateWhere pendingRequest (resetRequest now) (fun _ => rfl) id
    obtain ⟨old,there,eq⟩ := Option.map_eq_some_iff.mp (after.symm.trans found)
    refine ⟨old,there,?_⟩
    split at eq
    · rename_i pending
      subst eq
      refine ⟨resetRequest_settled,fun settled => ?_,resetRequest_moved pending⟩
      rw [settled] at pending
      cases pending
    · rename_i settled
      subst eq
      exact ⟨Bool.eq_false_iff.mpr settled,fun _ => rfl,.inl rfl⟩
  case targeted =>
    intro id row found
    obtain ⟨old,there,rfl⟩ := Option.map_eq_some_iff.mp ((find_resetTargeted id).symm.trans found)
    refine ⟨old,there,resetRow_terminal,rfl,rfl,fun terminal => if_pos terminal,?_⟩
    by_cases terminal : old.state.terminal = true
    · exact .inl (if_pos terminal)
    · refine .inr (Targeted.TargetedTransferState.validate_ok.mpr ?_)
      rw [show (resetRow now old).state = .cancelled from if_neg terminal,
        Targeted.TargetedTransferState.allowed_cancelled]
      simpa using terminal
  case kept =>
    refine ⟨fun id there gone => there ?_,fun id there gone => there ?_,fun id there gone => there ?_⟩
    · exact Option.map_eq_none_iff.mp ((find_resetTransfers id).symm.trans gone)
    · have after := d.requests.find_updateWhere pendingRequest (resetRequest now) (fun _ => rfl) id
      exact Option.map_eq_none_iff.mp (after.symm.trans gone)
    · exact Option.map_eq_none_iff.mp ((find_resetTargeted id).symm.trans gone)
  case cleared => exact ⟨rfl,rfl,rfl,rfl,rfl,rfl,rfl,rfl,rfl⟩
  case again =>
    intro now'
    have transfers : (d.transfers.resetIdentityBoundState now).resetIdentityBoundState now' =
        d.transfers.resetIdentityBoundState now := by
      refine updateWhere_twice fun row _ => ?_
      exact reset_not_live rfl
    have requests : (d.requests.updateWhere pendingRequest (resetRequest now) fun _ => rfl).updateWhere
        pendingRequest (resetRequest now') (fun _ => rfl) =
        d.requests.updateWhere pendingRequest (resetRequest now) fun _ => rfl :=
      updateWhere_twice fun _ _ => resetRequest_settled
    have rows : ((d.targeted.resetIdentityBoundState now).resetIdentityBoundState now').transfers =
        (d.targeted.resetIdentityBoundState now).transfers := by
      apply Table.ext_rows
      show (d.targeted.transfers.rows.map (resetRow now)).map (resetRow now') = d.targeted.transfers.rows.map _
      rw [List.map_map]
      exact List.map_congr_left fun r _ => resetRow_again now'
    have targeted : (d.targeted.resetIdentityBoundState now).resetIdentityBoundState now' =
        d.targeted.resetIdentityBoundState now :=
      congrArg (fun transfers => (⟨transfers,.empty,.empty,.empty,.empty⟩ : Targeted.Store)) rows
    simp only [resetIdentityBoundState,transfers,requests,targeted]
    rfl
  case forgotten =>
    intro store n c s endpointId clock e summary deleted reach reconciled handle old stored
    have empty : c.metadata = .empty := deleteResetHandles_metadata deleted
    have fresh := later_fresh empty reach
    have absent : s.custody.metadata.find handle = none := by
      by_contra there
      exact fresh.drawn handle (fresh.refs handle there) old
    exact SecretCustody.mem_listHandles.mp stored ((SecretCustody.reconcile_ok reconciled).2 handle absent).2

end Vnidrop.IdentityReset
