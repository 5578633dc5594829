import Mathlib.Logic.Function.Basic
import Vnidrop.Values

/-! Access modes and approval sessions of the blob provider, and the decision a
request meets. Each function is one critical section of the source. -/
namespace Vnidrop.Access

inductive TransferAccessMode where
  | publicMode
  | approvalRequired
  deriving DecidableEq, Repr

/-- A session without an expiry lasts until the transfer is removed. -/
structure ApprovalSession where
  expiresAt : Option Millis
  deriving DecidableEq, Repr

def ApprovalSession.isValid (s : ApprovalSession) (now : Millis) : Bool :=
  match s.expiresAt with
  | none => true
  | some expiresAt => now ≤ expiresAt

inductive AccessDecision where
  | allow
  | deny (reason : String)
  deriving DecidableEq, Repr

structure AccessPolicy where
  modes : TransferId → Option TransferAccessMode
  sessions : TransferId → EndpointId → Option ApprovalSession

namespace AccessPolicy

def new : AccessPolicy := ⟨fun _ => none,fun _ _ => none⟩

def setMode (p : AccessPolicy) (id : TransferId) (mode : TransferAccessMode) : AccessPolicy :=
  { p with modes := Function.update p.modes id (some mode) }

/-- The first write of `remove_transfer`. -/
def removeMode (p : AccessPolicy) (id : TransferId) : AccessPolicy :=
  { p with modes := Function.update p.modes id none }

/-- The second write of `remove_transfer`, which drops every session of the transfer. -/
def removeSessions (p : AccessPolicy) (id : TransferId) : AccessPolicy :=
  { p with sessions := Function.update p.sessions id fun _ => none }

def setSession (p : AccessPolicy) (id : TransferId) (endpoint : EndpointId)
    (session : Option ApprovalSession) : AccessPolicy :=
  { p with
    sessions := Function.update p.sessions id (Function.update (p.sessions id) endpoint session) }

def approveEndpointUntil (p : AccessPolicy) (id : TransferId) (endpoint : EndpointId)
    (expiresAt : Option Millis) : AccessPolicy :=
  p.setSession id endpoint (some ⟨expiresAt⟩)

/-- Default deny; a session found expired is dropped on the way. -/
def decide (p : AccessPolicy) (id : TransferId) (endpoint : Option EndpointId) (now : Millis) :
    AccessDecision × AccessPolicy :=
  match p.modes id with
  | none => (.deny "unknown-transfer",p)
  | some .publicMode => (.allow,p)
  | some .approvalRequired =>
    match endpoint with
    | none => (.deny "missing-endpoint-id",p)
    | some endpoint =>
      match p.sessions id endpoint with
      | some session =>
        if session.isValid now then (.allow,p)
        else (.deny "approval-expired",p.setSession id endpoint none)
      | none => (.deny "approval-required",p)

/-- The transfer is public, or the endpoint holds an unexpired session for it. -/
def Grants (p : AccessPolicy) (id : TransferId) (endpoint : Option EndpointId) (now : Millis) :
    Prop :=
  p.modes id = some .publicMode ∨
  p.modes id = some .approvalRequired ∧ ∃ e session, endpoint = some e ∧
    p.sessions id e = some session ∧ session.isValid now = true

theorem decide_allow {p : AccessPolicy} {id : TransferId} {endpoint : Option EndpointId}
    {now : Millis} : (p.decide id endpoint now).1 = .allow ↔ p.Grants id endpoint now := by
  unfold decide Grants
  cases p.modes id with
  | none => simp
  | some mode =>
    cases mode with
    | publicMode => simp
    | approvalRequired =>
      cases endpoint with
      | none => simp
      | some e =>
        cases held : p.sessions id e with
        | none => simp [held]
        | some session => cases valid : session.isValid now <;> simp [held,valid]

theorem grants_mode {p : AccessPolicy} {id : TransferId} {endpoint : Option EndpointId}
    {now : Millis} (h : p.Grants id endpoint now) : p.modes id ≠ none := by
  rcases h with mode | ⟨mode,_⟩ <;> simp [mode]

/-- A decision changes nothing but an expired session of the transfer it is about. -/
theorem decide_policy (p : AccessPolicy) (id : TransferId) (endpoint : Option EndpointId)
    (now : Millis) : (p.decide id endpoint now).2 = p ∨
      ∃ e, (p.decide id endpoint now).2 = p.setSession id e none := by
  unfold decide
  split
  · exact .inl rfl
  · exact .inl rfl
  · split
    · exact .inl rfl
    · rename_i e
      split
      · split
        · exact .inl rfl
        · exact .inr ⟨e,rfl⟩
      · exact .inl rfl

@[simp] theorem setMode_modes (p : AccessPolicy) (id : TransferId) (mode : TransferAccessMode) :
    (p.setMode id mode).modes = Function.update p.modes id (some mode) := rfl

@[simp] theorem setMode_sessions (p : AccessPolicy) (id : TransferId) (mode : TransferAccessMode) :
    (p.setMode id mode).sessions = p.sessions := rfl

@[simp] theorem removeMode_modes (p : AccessPolicy) (id : TransferId) :
    (p.removeMode id).modes = Function.update p.modes id none := rfl

@[simp] theorem removeMode_sessions (p : AccessPolicy) (id : TransferId) :
    (p.removeMode id).sessions = p.sessions := rfl

@[simp] theorem removeSessions_modes (p : AccessPolicy) (id : TransferId) :
    (p.removeSessions id).modes = p.modes := rfl

@[simp] theorem removeSessions_sessions (p : AccessPolicy) (id : TransferId) :
    (p.removeSessions id).sessions = Function.update p.sessions id fun _ => none := rfl

@[simp] theorem setSession_modes (p : AccessPolicy) (id : TransferId) (e : EndpointId)
    (session : Option ApprovalSession) : (p.setSession id e session).modes = p.modes := rfl

theorem setSession_self (p : AccessPolicy) (id : TransferId) (e e' : EndpointId)
    (session : Option ApprovalSession) : (p.setSession id e session).sessions id e' =
      if e' = e then session else p.sessions id e' := by
  simp [setSession,Function.update_apply]

theorem setSession_other (p : AccessPolicy) {id other : TransferId} (e : EndpointId)
    (session : Option ApprovalSession) (h : other ≠ id) :
    (p.setSession id e session).sessions other = p.sessions other := by
  simp [setSession,h]

end AccessPolicy

end Vnidrop.Access
