import Mathlib.Order.Basic
import Mathlib.Tactic.Common
import Vnidrop.ProviderAccess

/-! What the provider lets through. Default deny holds of every state; that the
end of a share is final needs the approvals, mode changes and publications that
were under way to land while their share is still live. -/
namespace Vnidrop.Shares

open Access Threads Runs Provider

/-! Default deny. -/

/-- Dropping an expired session takes no grant away and gives none. -/
theorem grants_of_decide {p : AccessPolicy} {id u : TransferId} {endpoint endpoint' : Option EndpointId}
    {now now' : Millis} (h : (p.decide id endpoint now).2.Grants u endpoint' now') :
    p.Grants u endpoint' now' := by
  rcases p.decide_policy id endpoint now with same | ⟨e,dropped⟩
  · rwa [same] at h
  · rw [dropped] at h
    rcases h with mode | ⟨mode,e',session,rfl,held,valid⟩
    · exact .inl mode
    · refine .inr ⟨mode,e',session,rfl,?_,valid⟩
      by_cases other : u = id
      · subst other
        rw [AccessPolicy.setSession_self] at held
        split at held
        · cases held
        · exact held
      · rwa [AccessPolicy.setSession_other _ _ _ other] at held

theorem allowAnyTransfer_spec (endpoint : Option EndpointId) (now : Millis) (ids : List TransferId)
    (p : AccessPolicy) (reason : String) :
    (∀ id, (allowAnyTransfer p endpoint now ids reason).1 = .ok id →
      id ∈ ids ∧ p.Grants id endpoint now) ∧
    ∀ u endpoint' now', (allowAnyTransfer p endpoint now ids reason).2.Grants u endpoint' now' →
      p.Grants u endpoint' now' := by
  induction ids generalizing p reason with
  | nil => exact ⟨fun id h => by simp [allowAnyTransfer] at h,fun _ _ _ h => h⟩
  | cons id ids ih =>
    have allows := @AccessPolicy.decide_allow p id endpoint now
    have drops := fun u e t => @grants_of_decide p id u endpoint e now t
    unfold allowAnyTransfer
    rcases decided : p.decide id endpoint now with ⟨decision,p'⟩
    rw [decided] at allows drops
    cases decision with
    | allow =>
      refine ⟨fun id' h => ?_,drops⟩
      cases h
      exact ⟨List.mem_cons_self,allows.mp rfl⟩
    | deny reason' =>
      refine ⟨fun id' h => ?_,fun u e t h => drops u e t ((ih p' reason').2 u e t h)⟩
      have found := (ih p' reason').1 id' h
      exact ⟨List.mem_cons_of_mem _ found.1,drops _ _ _ found.2⟩

/-- Some owner of the hash is public or holds a session for the endpoint. -/
def Provider.Permits (s : Provider) (hash : Hash) (conn : ConnectionId) (now : Millis) : Prop :=
  ∃ id ∈ s.hashes hash, s.policy.Grants id (s.connections conn) now

theorem authorizeEach_permits (s : Provider) (conn : ConnectionId) (now : Millis)
    (hashes : List Hash) (p : AccessPolicy) (attributed : Option TransferId)
    (below : ∀ u e t, p.Grants u e t → s.policy.Grants u e t) {id : TransferId}
    (h : (authorizeEach s conn now p hashes attributed).1 = .ok id) :
    (hashes = [] → attributed ≠ none) ∧ ∀ hash ∈ hashes, s.Permits hash conn now := by
  induction hashes generalizing p attributed with
  | nil =>
    refine ⟨fun _ absent => ?_,fun _ member => by cases member⟩
    rw [absent] at h
    simp [authorizeEach] at h
  | cons hash hashes ih =>
    refine ⟨fun empty => absurd empty (List.cons_ne_nil _ _),?_⟩
    have spec := allowAnyTransfer_spec (s.connections conn) now (s.hashes hash) p "approval-required"
    unfold authorizeEach authorizeHash at h
    by_cases unknown : s.hashes hash = []
    · simp [unknown] at h
    · simp only [unknown,↓reduceIte] at h
      rcases allowed : allowAnyTransfer p (s.connections conn) now (s.hashes hash)
        "approval-required" with ⟨outcome,p'⟩
      rw [allowed] at h spec
      cases outcome with
      | error _ => cases h
      | ok owner =>
        intro hash' member
        rcases List.mem_cons.mp member with rfl | later
        · have owned := spec.1 owner rfl
          exact ⟨owner,owned.1,below _ _ _ owned.2⟩
        · exact (ih p' _ (fun u e t g => below u e t (spec.2 u e t g)) h).2 hash' later

theorem authorizeHashes_permits (s : Provider) (hashes : List Hash) (conn : ConnectionId)
    (now : Millis) {id : TransferId} (h : (authorizeHashes s hashes conn now).1 = .ok id) :
    hashes ≠ [] ∧ ∀ hash ∈ hashes, s.Permits hash conn now := by
  have both := authorizeEach_permits s conn now hashes s.policy none (fun _ _ _ g => g) h
  exact ⟨fun empty => both.1 empty rfl,both.2⟩

/-! Other transfers. -/

/-- Ownership, mode and sessions of a transfer, all that decides access through it. -/
structure SameAccess (s s' : Provider) (id : TransferId) : Prop where
  owners : ∀ h, id ∈ s'.hashes h ↔ id ∈ s.hashes h
  mode : s'.policy.modes id = s.policy.modes id
  sessions : s'.policy.sessions id = s.policy.sessions id

/-- The share a call of `cancel_transfer`, `delete_transfer` or their tails removes. -/
def Call.removes : Call → Option TransferId
  | .cancel id | .prepareLock id | .prepareCancel id | .prepareRemove id _ => some id
  | .stopLock id | .stopStatus id | .stopRemove id _ => some id
  | .delete id | .deleteList id | .deleteStatus id | .deleteRemove id | .deleteRow id => some id
  | .unregister _ id _ | .removeMode _ id _ | .removeSessions _ id _ | .releaseTag _ id _ => some id
  | _ => none

theorem SameAccess.of_eq {s s' : Provider} {id : TransferId} (owners : s'.hashes = s.hashes)
    (policy : s'.policy = s.policy) : SameAccess s s' id :=
  ⟨fun h => by rw [owners],by rw [policy],by rw [policy]⟩

/-- A removal leaves the access through every other transfer exactly as it was. -/
theorem removal_frame {s s' : Provider} {i : Nat} {call call' : Call} {c : Choice}
    {id other : TransferId} (removes : call.removes = some id) (different : other ≠ id)
    (h : s.stepCall i call c = some (s',call')) : SameAccess s s' other := by
  cases call with
  | unregister r t k =>
    cases removes; cases h
    exact ⟨fun h => by simp [unregisterTransferHashes,different],rfl,rfl⟩
  | removeMode r t k =>
    cases removes; cases h
    exact ⟨fun _ => Iff.rfl,by simp [setPolicy,different],rfl⟩
  | removeSessions r t k =>
    cases removes; cases h
    exact ⟨fun _ => Iff.rfl,rfl,by simp [setPolicy,different]⟩
  | releaseTag r t k =>
    cases r <;> simp only [stepCall,Call.droppable,stepShare,stepRemoval,Option.none_or] at h <;>
      split at h <;> cases h <;> exact .of_eq rfl rfl
  | _ =>
    first
    | (cases removes; done)
    | (simp only [stepCall,Call.droppable,stepShare,stepRemoval,Option.none_or] at h
       repeat' split at h
       all_goals first | (cases h; done) | (cases h; exact .of_eq rfl rfl))

/-! The end of a share. -/

/-- The share is offered, or being registered under the guard. -/
def Provider.Live (s : Provider) (id : TransferId) : Prop :=
  s.activeShares id = true ∨ s.publishing = some id

/-- How far a removal has come: its share is out of the active shares, its hashes, its
mode and its sessions are gone. No publication of it is under way. -/
structure Provider.Closed (s : Provider) (id : TransferId) (stage : Nat) : Prop where
  publishing : s.publishing ≠ some id
  active : 1 ≤ stage → s.activeShares id = false
  owners : 2 ≤ stage → ∀ h, id ∉ s.hashes h
  mode : 3 ≤ stage → s.policy.modes id = none
  sessions : 4 ≤ stage → ∀ e, s.policy.sessions id e = none

/-- As long as its id is not used again, the share cannot be published any more. -/
def Provider.Sealed (s : Provider) (id : TransferId) (share stage : Nat) : Prop :=
  share ≤ s.share id ∧ (share = s.share id → s.rows id ≠ some .importing ∧ s.Closed id stage)

structure Invariant (s : Provider) : Prop where
  /-- Only a share with a live or stopped row can be reached through the provider. -/
  dormant : ∀ id, s.rows id ≠ some .sharing → s.rows id ≠ some .stopped → s.Closed id 4
  granted : ∀ id e, s.policy.sessions id e ≠ none → s.grantedFor id e = s.share id
  guarded : s.publishing ≠ none → s.lock ≠ none
  ended : ∀ id k, (id,k) ∈ s.ended → s.Sealed id k 4

/-- What holds at a call's next step. -/
def At (s : Provider) (i : Nat) : Call → Prop
  | .shareCommit .. | .prepareCancel _ | .stopStatus _ => s.lock = some i ∧ s.publishing = none
  | .shareRegister id _ _ | .shareSetMode id _ | .shareFinish id =>
    s.lock = some i ∧ s.publishing = some id
  | .prepareRemove id k | .stopRemove id k =>
    (s.lock = some i ∧ s.publishing = none) ∧ s.Sealed id k 0
  | .unregister .preparation id k => (s.lock = some i ∧ s.publishing = none) ∧ s.Sealed id k 1
  | .removeMode .preparation id k => (s.lock = some i ∧ s.publishing = none) ∧ s.Sealed id k 2
  | .removeSessions .preparation id k => (s.lock = some i ∧ s.publishing = none) ∧ s.Sealed id k 3
  | .releaseTag .preparation id k => (s.lock = some i ∧ s.publishing = none) ∧ s.Sealed id k 4
  | .unregister .stop id k => s.Sealed id k 1
  | .removeMode .stop id k => s.Sealed id k 2
  | .removeSessions .stop id k => s.Sealed id k 3
  | .releaseTag .stop id k => s.Sealed id k 4
  | .unregister .delete id _ => s.Closed id 1
  | .removeMode .delete id _ => s.Closed id 2
  | .removeSessions .delete id _ => s.Closed id 3
  | .releaseTag .delete id _ | .deleteRow id => s.Closed id 4
  | _ => True

/-- A deletion between taking its share out of the active shares and deleting its row. -/
def Call.deleting (id : TransferId) : Call → Bool
  | .unregister .delete id' _ | .removeMode .delete id' _ | .removeSessions .delete id' _ => id' = id
  | .releaseTag .delete id' _ | .deleteRow id' => id' = id
  | _ => false

/-- An approval writes its session while the share it was asked for is still live, and a
mode change its mode while the share is. -/
def TimelyWrite (s : Provider) : Call → Prop
  | .approveWrite id _ k | .handshakeWait id _ k => s.Live id ∧ k = s.share id
  | .setModeWrite id _ => s.Live id
  | _ => True

/-- No share is published while a deletion of its id is under way. -/
def TimelyCommit (calls : List Call) : Call → Prop
  | .shareCommit id _ _ => ∀ call ∈ calls, call.deleting id = false
  | _ => True

/-- The side condition on a step. -/
def Timely (c : Conf Provider Call) : Label Call Choice Env → Prop
  | .act i _ => ∀ call ∈ c.threads[i]?, TimelyWrite c.shared call ∧ TimelyCommit c.threads call
  | _ => True

instance (s : Provider) (id : TransferId) : Decidable (s.Live id) :=
  inferInstanceAs (Decidable (_ ∨ _))

instance (s : Provider) : DecidablePred (TimelyWrite s) := fun call => by
  cases call <;> (dsimp only [TimelyWrite]; infer_instance)

instance (calls : List Call) : DecidablePred (TimelyCommit calls) := fun call => by
  cases call <;> (dsimp only [TimelyCommit]; infer_instance)

instance (c : Conf Provider Call) : DecidablePred (Timely c) := fun a => by
  cases a <;> (dsimp only [Timely]; infer_instance)

/-- How the part of the state that concerns one share may grow in a step. -/
structure Grows (s s' : Provider) (id : TransferId) : Prop where
  publishing : s'.publishing = some id → s.publishing = some id ∨ s.rows id = some .importing
  active : s'.activeShares id = true → s.Live id
  owners : ∀ h, id ∈ s'.hashes h → id ∈ s.hashes h ∨ s.publishing = some id
  mode : s'.policy.modes id ≠ none → s.policy.modes id ≠ none ∨ s.Live id
  sessions : ∀ e, s'.policy.sessions id e ≠ none → s.policy.sessions id e ≠ none ∨ s.Live id
  share : s.share id ≤ s'.share id
  row : s'.share id = s.share id → s'.rows id = some .importing → s.rows id = some .importing

theorem Provider.Closed.not_live {s : Provider} {id : TransferId} {stage : Nat} (h : s.Closed id stage)
    (one : 1 ≤ stage) : ¬ s.Live id := by
  rintro (active | publishing)
  · simp [h.active one] at active
  · exact h.publishing publishing

/-- A closed share stays closed unless it is published again. -/
theorem Provider.Closed.grows {s s' : Provider} {id : TransferId} {stage : Nat} (h : s.Closed id stage)
    (grows : Grows s s' id) (unpublished : s'.publishing ≠ some id) : s'.Closed id stage where
  publishing := unpublished
  active one := by
    rw [← Bool.not_eq_true]
    exact fun active => (h.not_live one) (grows.active active)
  owners two hash owned := by
    rcases grows.owners hash owned with old | publishing
    · exact h.owners two hash old
    · exact h.publishing publishing
  mode three := by
    by_contra present
    rcases grows.mode present with old | live
    · exact old (h.mode three)
    · exact h.not_live (by omega) live
  sessions four e := by
    by_contra present
    rcases grows.sessions e present with old | live
    · exact old (h.sessions four e)
    · exact h.not_live (by omega) live

/-- A sealed share stays sealed: it could be published only as an importing one. -/
theorem sealed_grows {s s' : Provider} {id : TransferId} {k stage : Nat} (h : s.Sealed id k stage)
    (grows : Grows s s' id) : s'.Sealed id k stage := by
  refine ⟨Nat.le_trans h.1 grows.share,fun same => ?_⟩
  have unused : s'.share id = s.share id := Nat.le_antisymm (same ▸ h.1) grows.share
  have old := h.2 (same.trans unused)
  refine ⟨fun importing => old.1 (grows.row unused importing),old.2.grows grows fun publishing => ?_⟩
  rcases grows.publishing publishing with before | importing
  · exact old.2.publishing before
  · exact old.1 importing

/-- Everything a step does that another call's assertion or the invariant depends on. -/
structure Moves (s s' : Provider) (i : Nat) : Prop where
  grows : ∀ id, Grows s s' id
  rows : ∀ id, s'.rows id = s.rows id ∨ s'.rows id = some .sharing ∨ s'.rows id = some .stopped ∨
    (s.rows id ≠ some .sharing ∧ s.rows id ≠ some .stopped) ∨ s.Closed id 4
  commits : ∀ id, s'.publishing = some id → s.publishing ≠ some id → s'.rows id = some .sharing
  guard : ∀ j, s.lock = some j → j ≠ i → s'.lock = some j ∧ s'.publishing = s.publishing
  guarded : s'.publishing ≠ none → s'.lock ≠ none
  granted : ∀ id e, s'.policy.sessions id e ≠ none →
    (s.policy.sessions id e ≠ none ∧ s'.grantedFor id e = s.grantedFor id e ∧
      (s'.share id = s.share id ∨ s.rows id = none)) ∨ s'.grantedFor id e = s'.share id
  ended : ∀ id k, (id,k) ∈ s'.ended → (id,k) ∈ s.ended ∨ s'.Sealed id k 4

theorem Invariant.moves {s s' : Provider} {i : Nat} (now : Invariant s) (step : Moves s s' i) :
    Invariant s' where
  dormant id unshared unstopped := by
    have closed : s.Closed id 4 := by
      rcases step.rows id with same | sharing | stopped | quiet | closed
      · exact now.dormant id (same ▸ unshared) (same ▸ unstopped)
      · exact absurd sharing unshared
      · exact absurd stopped unstopped
      · exact now.dormant id quiet.1 quiet.2
      · exact closed
    refine closed.grows (step.grows id) fun publishing => unshared ?_
    exact step.commits id publishing closed.publishing
  granted id e present := by
    rcases step.granted id e present with ⟨old,same,unused⟩ | fresh
    · rcases unused with unused | absent
      · rw [same,unused]; exact now.granted id e old
      · exact absurd ((now.dormant id (by simp [absent]) (by simp [absent])).sessions (Nat.le_refl 4) e) old
    · exact fresh
  guarded := step.guarded
  ended id k member := by
    rcases step.ended id k member with old | closed
    · exact sealed_grows (now.ended id k old) (step.grows id)
    · exact closed

section Effects

variable {s s' : Provider} {i : Nat} {id : TransferId}

/-- A step that leaves the rows, the guard and the history of shares alone. -/
theorem Moves.of_maps (inv : Invariant s) (rows : s'.rows = s.rows) (lock : s'.lock = s.lock)
    (publishing : s'.publishing = s.publishing) (share : s'.share = s.share)
    (ended : s'.ended = s.ended)
    (active : ∀ id, s'.activeShares id = true → s.Live id)
    (owners : ∀ id h, id ∈ s'.hashes h → id ∈ s.hashes h ∨ s.publishing = some id)
    (mode : ∀ id, s'.policy.modes id ≠ none → s.policy.modes id ≠ none ∨ s.Live id)
    (sessions : ∀ id e, s'.policy.sessions id e ≠ none →
      (s.policy.sessions id e ≠ none ∧ s'.grantedFor id e = s.grantedFor id e) ∨
      (s.Live id ∧ s'.grantedFor id e = s.share id)) : Moves s s' i where
  grows id :=
    { publishing := fun h => .inl (publishing ▸ h)
      active := active id
      owners := owners id
      mode := mode id
      sessions := fun e h => (sessions id e h).imp And.left And.left
      share := Nat.le_of_eq (by rw [share])
      row := fun _ h => rows ▸ h }
  rows id := .inl (by rw [rows])
  commits id now before := absurd (publishing ▸ now) before
  guard j held _ := ⟨lock ▸ held,publishing⟩
  guarded := by rw [publishing,lock]; exact inv.guarded
  granted id e present := by
    rcases sessions id e present with ⟨old,same⟩ | ⟨_,fresh⟩
    · exact .inl ⟨old,same,.inl (by rw [share])⟩
    · exact .inr (by rw [share]; exact fresh)
  ended id k member := .inl (ended ▸ member)

/-- A policy with no mode and no session that was not there before. -/
theorem moves_policy (inv : Invariant s) {p : AccessPolicy}
    (modes : ∀ id, p.modes id ≠ none → s.policy.modes id ≠ none)
    (sessions : ∀ id e, p.sessions id e ≠ none → s.policy.sessions id e ≠ none) :
    Moves s (s.setPolicy p) i :=
  .of_maps inv rfl rfl rfl rfl rfl (fun _ => .inl) (fun _ _ => .inl)
    (fun id h => .inl (modes id h)) fun id e h => .inl ⟨sessions id e h,rfl⟩

/-- A step that touches none of the maps. -/
theorem Moves.of_same (inv : Invariant s) (hashes : s'.hashes = s.hashes)
    (policy : s'.policy = s.policy) (rows : s'.rows = s.rows)
    (active : s'.activeShares = s.activeShares) (lock : s'.lock = s.lock)
    (publishing : s'.publishing = s.publishing) (share : s'.share = s.share)
    (granted : s'.grantedFor = s.grantedFor) (ended : s'.ended = s.ended) : Moves s s' i :=
  .of_maps inv rows lock publishing share ended (fun _ h => .inl (active ▸ h))
    (fun _ _ h => .inl (hashes ▸ h)) (fun _ h => .inl (policy ▸ h))
    fun _ _ h => .inl ⟨policy ▸ h,by rw [granted]⟩

theorem Moves.refl (inv : Invariant s) : Moves s s i :=
  .of_same inv rfl rfl rfl rfl rfl rfl rfl rfl rfl

/-- The holder of the guard may release it in the same step. -/
theorem Moves.release (step : Moves s s' i) (held : s.lock = some i) : Moves s s'.release i where
  grows id :=
    { step.grows id with publishing := fun h => by cases h }
  rows := step.rows
  commits id now _ := by cases now
  guard j held' different := absurd (Option.some.inj (held'.symm.trans held)) different
  guarded h := absurd rfl h
  granted := step.granted
  ended id k member := by
    refine (step.ended id k member).imp_right fun done => ⟨done.1,fun same => ⟨(done.2 same).1,?_⟩⟩
    exact { (done.2 same).2 with publishing := fun h => by cases h }

theorem moves_acquire (inv : Invariant s) (free : s.lock = none) : Moves s (s.acquire i) i :=
  have unchanged : Moves s s i := .refl inv
  { unchanged with
    grows := fun other => { unchanged.grows other with }
    guard := fun j held _ => by rw [free] at held; cases held
    guarded := fun _ h => by cases h
    ended := fun _ _ member => .inl member }

theorem moves_abandon (inv : Invariant s) : Moves s (s.abandon i) i := by
  unfold abandon
  split
  · rename_i held
    exact (Moves.refl inv).release held
  · exact .refl inv

theorem moves_insertTransfer (inv : Invariant s) (absent : s.rows id = none) :
    Moves s (s.insertTransfer id) i where
  grows other := by
    constructor <;> simp only [insertTransfer,setRow,Function.update_apply] <;> grind [Provider.Live]
  rows other := by
    simp only [insertTransfer,setRow,Function.update_apply]
    grind
  commits _ now before := absurd now before
  guard _ held _ := ⟨held,rfl⟩
  guarded := inv.guarded
  granted other e present := by
    simp only [insertTransfer,setRow,Function.update_apply] at present ⊢
    grind
  ended _ _ member := .inl member

theorem moves_commit (held : s.lock = some i) (importing : s.rows id = some .importing) :
    Moves s (s.completeShareImport id) i where
  grows other := by
    constructor <;> simp only [completeShareImport,setRow,Function.update_apply] <;>
      grind [Provider.Live]
  rows other := by
    simp only [completeShareImport,setRow,Function.update_apply]
    grind
  commits other now _ := by
    simp only [completeShareImport,setRow,Function.update_apply] at now ⊢
    grind
  guard j held' different := absurd (Option.some.inj (held'.symm.trans held)) different
  guarded _ := by simp [completeShareImport,setRow,held]
  granted _ _ present := .inl ⟨present,rfl,.inl rfl⟩
  ended _ _ member := .inl member

/-- A new status other than `importing`, of a stopped share or of one never offered. -/
theorem moves_setRow (inv : Invariant s) {row : Option TransferStatus} (fresh : row ≠ some .importing)
    (settles : row = some .sharing ∨ row = some .stopped ∨
      (s.rows id ≠ some .sharing ∧ s.rows id ≠ some .stopped)) : Moves s (s.setRow id row) i :=
  have unchanged : Moves s s i := .refl inv
  { unchanged with
    grows := fun other => by
      constructor <;> simp only [setRow,Function.update_apply] <;> grind [Provider.Live]
    rows := fun other => by
      simp only [setRow,Function.update_apply]
      grind
    commits := fun _ now before => absurd now before
    ended := fun _ _ member => .inl member }

theorem moves_deleteRow (inv : Invariant s) (closed : s.Closed id 4) :
    Moves s ((s.setRow id none).finishRemoval id (s.share id)) i :=
  have unchanged : Moves s s i := .refl inv
  { unchanged with
    grows := fun other => by
      constructor <;> simp only [finishRemoval,setRow,Function.update_apply] <;> grind [Provider.Live]
    rows := fun other => by
      simp only [finishRemoval,setRow,Function.update_apply]
      grind
    commits := fun _ now before => absurd now before
    ended := fun other k member => by
      rcases List.mem_cons.mp member with same | old
      · cases same
        exact .inr ⟨Nat.le_refl _,fun _ => ⟨by simp [finishRemoval,setRow],{ closed with }⟩⟩
      · exact .inl old }

theorem moves_finishRemoval (inv : Invariant s) {k : Nat} (done : s.Sealed id k 4) :
    Moves s (s.finishRemoval id k) i :=
  have unchanged : Moves s s i := .refl inv
  { unchanged with
    grows := fun other => { unchanged.grows other with }
    ended := fun other k' member => by
      rcases List.mem_cons.mp member with same | old
      · cases same
        exact .inr ⟨done.1,fun same => ⟨(done.2 same).1,{ (done.2 same).2 with }⟩⟩
      · exact .inl old }

theorem moves_register (inv : Invariant s) (files : List Hash) (publishing : s.publishing = some id) :
    Moves s (s.registerShareHashes id files) i := by
  refine .of_maps inv rfl rfl rfl rfl rfl (fun _ => .inl) (fun other h owned => ?_) (fun _ => .inl)
    fun _ _ h => .inl ⟨h,rfl⟩
  simp only [registerShareHashes] at owned
  grind

theorem moves_unregister (inv : Invariant s) : Moves s (s.unregisterTransferHashes id) i :=
  .of_maps inv rfl rfl rfl rfl rfl (fun _ => .inl) (fun _ _ owned => .inl (List.mem_of_mem_filter owned))
    (fun _ => .inl) fun _ _ h => .inl ⟨h,rfl⟩

theorem moves_setMode (inv : Invariant s) (mode : TransferAccessMode) (live : s.Live id) :
    Moves s (s.setPolicy (s.policy.setMode id mode)) i := by
  refine .of_maps inv rfl rfl rfl rfl rfl (fun _ => .inl) (fun _ _ => .inl) (fun other h => ?_)
    fun _ _ h => .inl ⟨h,rfl⟩
  simp only [setPolicy,AccessPolicy.setMode,Function.update_apply] at h
  grind

theorem moves_setShare (inv : Invariant s) {live : Bool} (h : live = true → s.Live id) :
    Moves s (s.setShare id live) i := by
  refine .of_maps inv rfl rfl rfl rfl rfl (fun other active => ?_) (fun _ _ => .inl) (fun _ => .inl)
    fun _ _ h => .inl ⟨h,rfl⟩
  simp only [setShare,Function.update_apply] at active
  grind [Provider.Live]

theorem moves_removeMode (inv : Invariant s) : Moves s (s.setPolicy (s.policy.removeMode id)) i := by
  refine moves_policy inv (fun other present => ?_) fun _ _ present => present
  simp only [AccessPolicy.removeMode,Function.update_apply] at present
  grind

theorem moves_removeSessions (inv : Invariant s) :
    Moves s (s.setPolicy (s.policy.removeSessions id)) i := by
  refine moves_policy inv (fun _ present => present) fun other e present => ?_
  by_cases same : other = id
  · subst same; simp at present
  · simpa [same] using present

theorem moves_decide (inv : Invariant s) (endpoint : Option EndpointId) (now : Millis) :
    Moves s (s.setPolicy (s.policy.decide id endpoint now).2) i := by
  rcases s.policy.decide_policy id endpoint now with same | ⟨e,dropped⟩
  · rw [same]
    exact moves_policy inv (fun _ present => present) fun _ _ present => present
  · rw [dropped]
    refine moves_policy inv (fun _ present => present) fun other e' present => ?_
    by_cases same : other = id
    · subst same
      rw [AccessPolicy.setSession_self] at present
      split at present
      · exact absurd rfl present
      · exact present
    · rwa [AccessPolicy.setSession_other _ _ _ same] at present

theorem moves_grant (inv : Invariant s) (endpoint : EndpointId) (now : Millis) (live : s.Live id) :
    Moves s (s.grant id endpoint (s.share id) now) i := by
  refine .of_maps inv rfl rfl rfl rfl rfl (fun _ => .inl) (fun _ _ => .inl) (fun _ => .inl)
    fun other e present => ?_
  by_cases same : other = id
  · subst same
    simp only [grant,AccessPolicy.approveEndpointUntil,AccessPolicy.setSession_self,
      Function.update_self,Function.update_apply] at present ⊢
    grind
  · left
    simp only [grant,AccessPolicy.approveEndpointUntil,AccessPolicy.setSession_other _ _ _ same,
      Function.update_of_ne same] at present ⊢
    exact ⟨present,trivial⟩

end Effects

/-! One step of a call. -/

variable {s s' : Provider} {i : Nat} {c : Choice} {call call' : Call}

theorem stepShare_moves (inv : Invariant s) (here : At s i call)
    (h : s.stepShare i c call = some (s',call')) : Moves s s' i ∧ At s' i call' := by
  cases call with
  | share id mode files =>
    simp only [stepShare] at h
    split at h
    · cases h; exact ⟨.refl inv,trivial⟩
    · rename_i enabled
      cases h
      exact ⟨moves_insertTransfer inv (by simpa using fun absent => enabled (.inr absent)),trivial⟩
  | shareActivate id mode files =>
    cases h
    exact ⟨.of_same inv rfl rfl rfl rfl rfl rfl rfl rfl rfl,trivial⟩
  | shareImport id mode files =>
    simp only [stepShare] at h
    split at h <;> cases h <;> exact ⟨.refl inv,trivial⟩
  | shareLock id mode files =>
    simp only [stepShare] at h
    split at h
    · rename_i free
      cases h
      refine ⟨moves_acquire inv free,rfl,?_⟩
      by_contra publishing
      exact inv.guarded publishing free
    · cases h
  | shareCommit id mode files =>
    simp only [stepShare] at h
    split at h
    · cases h; exact ⟨(Moves.refl inv).release here.1,trivial⟩
    · rename_i enabled
      cases h
      have importing : s.rows id = some .importing := by
        by_contra other
        exact enabled (.inr other)
      exact ⟨moves_commit here.1 importing,here.1,rfl⟩
  | shareRegister id mode files =>
    cases h
    exact ⟨moves_register inv files here.2,here⟩
  | shareSetMode id mode =>
    cases h
    exact ⟨moves_setMode inv mode (.inr here.2),here⟩
  | shareFinish id =>
    cases h
    exact ⟨(moves_setShare inv fun _ => .inr here.2).release here.1,trivial⟩
  | shareReturn id | shareFailed id | shareCancelled id =>
    cases h
    exact ⟨.of_same inv rfl rfl rfl rfl rfl rfl rfl rfl rfl,trivial⟩
  | shareFailedStatus id =>
    simp only [stepShare,transitionTransferStatus,TransferStatus.canTransitionTo,Bool.not_true,
      Bool.false_eq_true,↓reduceIte] at h
    split at h
    · rename_i row moved
      split at h
      · cases h; exact ⟨.refl inv,trivial⟩
      · cases h
        refine ⟨?_,trivial⟩
        split at moved
        · rename_i importing
          cases moved
          exact moves_setRow inv (by simp) (.inr (.inr ⟨by simp [importing],by simp [importing]⟩))
        · split at moved
          · rename_i failed
            cases moved
            exact moves_setRow inv (by simp [failed]) (.inr (.inr ⟨by simp [failed],by simp [failed]⟩))
          · cases moved
    · cases h; exact ⟨.refl inv,trivial⟩
  | _ => cases h

/-! The stages of a removal. -/

theorem closed_setShare {id : TransferId} (h : s.Closed id 0) : (s.setShare id false).Closed id 1 where
  publishing := h.publishing
  active _ := by simp [setShare]
  owners two := by omega
  mode three := by omega
  sessions four := by omega

theorem closed_unregister {id : TransferId} (h : s.Closed id 1) :
    (s.unregisterTransferHashes id).Closed id 2 where
  publishing := h.publishing
  active _ := h.active (by omega)
  owners _ hash := by simp [unregisterTransferHashes]
  mode three := by omega
  sessions four := by omega

theorem closed_removeMode {id : TransferId} (h : s.Closed id 2) :
    (s.setPolicy (s.policy.removeMode id)).Closed id 3 where
  publishing := h.publishing
  active _ := h.active (by omega)
  owners _ := h.owners (by omega)
  mode _ := by simp [setPolicy]
  sessions four := by omega

theorem closed_removeSessions {id : TransferId} (h : s.Closed id 3) :
    (s.setPolicy (s.policy.removeSessions id)).Closed id 4 where
  publishing := h.publishing
  active _ := h.active (by omega)
  owners _ := h.owners (by omega)
  mode _ := h.mode (by omega)
  sessions _ e := by simp [setPolicy]

theorem closed_release {id : TransferId} {stage : Nat} (h : s.Closed id stage) :
    s.release.Closed id stage :=
  { h with publishing := fun none => by cases none }

theorem sealed_map {id : TransferId} {k stage stage' : Nat} (h : s.Sealed id k stage)
    (share : s'.share = s.share) (rows : s'.rows = s.rows)
    (closes : s.Closed id stage → s'.Closed id stage') : s'.Sealed id k stage' :=
  ⟨share ▸ h.1,fun same => ⟨rows ▸ (h.2 (share ▸ same)).1,closes (h.2 (share ▸ same)).2⟩⟩

/-- A share whose row has just been settled under the guard. -/
theorem sealed_setRow {id : TransferId} {row : Option TransferStatus} (idle : s.publishing = none)
    (settled : row ≠ some .importing) : (s.setRow id row).Sealed id (s.share id) 0 := by
  refine ⟨Nat.le_refl _,fun _ => ⟨by simpa [setRow] using settled,?_⟩⟩
  exact ⟨by simp [setRow,idle],by omega,by omega,by omega,by omega⟩

theorem stopped_row {row row' : Option TransferStatus}
    (h : transitionTransferStatus row .sharing .stopped = .ok row') : row' = some .stopped := by
  simp only [transitionTransferStatus,TransferStatus.canTransitionTo,Bool.not_true,
    Bool.false_eq_true,↓reduceIte] at h
  split at h
  · cases h; rfl
  · split at h
    · rename_i stopped
      cases h; exact stopped
    · cases h

theorem cancelled_row {row : Option TransferStatus} {status : TransferStatus}
    (h : cancelPreparationStatus row = some status) : status ≠ .importing ∧
      (status = .stopped ∨ (row ≠ some .sharing ∧ row ≠ some .stopped)) := by
  unfold cancelPreparationStatus at h
  split at h <;> cases h <;> simp

theorem stepRemoval_moves (inv : Invariant s) (here : At s i call)
    (h : s.stepRemoval i c call = some (s',call')) : Moves s s' i ∧ At s' i call' := by
  cases call with
  | cancel id =>
    simp only [stepRemoval] at h
    split at h <;> cases h
    · exact ⟨.of_same inv rfl rfl rfl rfl rfl rfl rfl rfl rfl,trivial⟩
    · exact ⟨.refl inv,trivial⟩
  | prepareLock id =>
    simp only [stepRemoval] at h
    split at h
    · rename_i free
      cases h
      refine ⟨moves_acquire inv free,rfl,?_⟩
      by_contra publishing
      exact inv.guarded publishing free
    · cases h
  | prepareCancel id =>
    simp only [stepRemoval] at h
    split at h
    · rename_i status found
      have row := cancelled_row found
      split at h <;> cases h
      · exact ⟨(Moves.refl inv).release here.1,trivial⟩
      · refine ⟨moves_setRow inv (by simpa using row.1) ?_,here,sealed_setRow here.2 (by simpa using row.1)⟩
        rcases row.2 with stopped | before
        · exact .inr (.inl (by rw [stopped]))
        · exact .inr (.inr before)
    · cases h
      exact ⟨(Moves.refl inv).release here.1,trivial⟩
  | prepareRemove id k =>
    cases h
    exact ⟨moves_setShare inv (by simp),here.1,sealed_map here.2 rfl rfl closed_setShare⟩
  | stopLock id =>
    simp only [stepRemoval] at h
    split at h
    · rename_i free
      split at h <;> cases h
      · refine ⟨moves_acquire inv free,rfl,?_⟩
        by_contra publishing
        exact inv.guarded publishing free
      · exact ⟨.refl inv,trivial⟩
    · cases h
  | stopStatus id =>
    simp only [stepRemoval] at h
    split at h
    · rename_i row moved
      have stopped := stopped_row moved
      split at h <;> cases h
      · exact ⟨(Moves.refl inv).release here.1,trivial⟩
      · rw [stopped]
        exact ⟨moves_setRow inv (by simp) (.inr (.inl rfl)),here,sealed_setRow here.2 (by simp)⟩
    · cases h
      exact ⟨(Moves.refl inv).release here.1,trivial⟩
  | stopRemove id k =>
    cases h
    refine ⟨(moves_setShare inv (by simp)).release here.1.1,?_⟩
    exact sealed_map here.2 rfl rfl fun closed => closed_release (closed_setShare closed)
  | delete id =>
    simp only [stepRemoval] at h
    split at h <;> cases h <;> exact ⟨.refl inv,trivial⟩
  | deleteList id =>
    simp only [stepRemoval] at h
    split at h <;> cases h <;> exact ⟨.refl inv,trivial⟩
  | deleteStatus id =>
    simp only [stepRemoval] at h
    split at h
    · rename_i row moved
      have stopped := stopped_row moved
      split at h <;> cases h
      · exact ⟨.refl inv,trivial⟩
      · rw [stopped]
        exact ⟨moves_setRow inv (by simp) (.inr (.inl rfl)),trivial⟩
    · cases h; exact ⟨.refl inv,trivial⟩
  | deleteRemove id =>
    simp only [stepRemoval] at h
    split at h
    · rename_i free
      cases h
      refine ⟨moves_setShare inv (by simp),closed_setShare ⟨fun publishing => ?_,?_,?_,?_,?_⟩⟩
      · exact inv.guarded (by simp [publishing]) free
      all_goals omega
    · cases h
  | unregister r id k =>
    cases h
    refine ⟨moves_unregister inv,?_⟩
    cases r with
    | preparation => exact ⟨here.1,sealed_map here.2 rfl rfl closed_unregister⟩
    | stop => exact sealed_map here rfl rfl closed_unregister
    | delete => exact closed_unregister here
  | removeMode r id k =>
    cases h
    refine ⟨moves_removeMode inv,?_⟩
    cases r with
    | preparation => exact ⟨here.1,sealed_map here.2 rfl rfl closed_removeMode⟩
    | stop => exact sealed_map here rfl rfl closed_removeMode
    | delete => exact closed_removeMode here
  | removeSessions r id k =>
    cases h
    refine ⟨moves_removeSessions inv,?_⟩
    cases r with
    | preparation => exact ⟨here.1,sealed_map here.2 rfl rfl closed_removeSessions⟩
    | stop => exact sealed_map here rfl rfl closed_removeSessions
    | delete => exact closed_removeSessions here
  | releaseTag r id k =>
    cases r with
    | preparation =>
      simp only [stepRemoval] at h
      split at h <;> cases h
      · exact ⟨(Moves.refl inv).release here.1.1,trivial⟩
      · exact ⟨(moves_finishRemoval inv here.2).release here.1.1,trivial⟩
    | stop =>
      simp only [stepRemoval] at h
      split at h <;> cases h
      · exact ⟨.refl inv,trivial⟩
      · exact ⟨moves_finishRemoval inv here,trivial⟩
    | delete =>
      simp only [stepRemoval] at h
      split at h <;> cases h
      · exact ⟨.refl inv,trivial⟩
      · exact ⟨.refl inv,here⟩
  | deleteRow id =>
    simp only [stepRemoval] at h
    split at h <;> cases h
    · exact ⟨.refl inv,trivial⟩
    · exact ⟨moves_deleteRow inv here,trivial⟩
  | _ => cases h

theorem stepAccess_moves (inv : Invariant s) (timely : TimelyWrite s call)
    (h : s.stepAccess c call = some (s',call')) : Moves s s' i ∧ At s' i call' := by
  cases call with
  | setMode id mode =>
    simp only [stepAccess] at h
    split at h <;> cases h <;> exact ⟨.refl inv,trivial⟩
  | setModeWrite id mode =>
    cases h
    exact ⟨moves_setMode inv mode timely,trivial⟩
  | approve id endpoint =>
    simp only [stepAccess] at h
    split at h
    · split at h <;> cases h <;> exact ⟨.refl inv,trivial⟩
    · cases h
  | approveWrite id endpoint k =>
    obtain ⟨live,rfl⟩ := timely
    cases h
    exact ⟨moves_grant inv endpoint c.now live,trivial⟩
  | handshake id endpoint =>
    simp only [stepAccess] at h
    split at h <;> cases h <;> exact ⟨.refl inv,trivial⟩
  | handshakeDecide id endpoint k =>
    have decides : Moves s (s.setPolicy (s.policy.decide id (some endpoint) c.now).2) i :=
      moves_decide inv (some endpoint) c.now
    simp only [stepAccess] at h
    split at h <;> rename_i p decided <;> cases h <;>
      exact ⟨by rw [show p = _ from congrArg Prod.snd decided.symm]; exact decides,trivial⟩
  | handshakeWait id endpoint k =>
    obtain ⟨live,rfl⟩ := timely
    simp only [stepAccess] at h
    split at h <;> cases h
    · exact ⟨moves_grant inv endpoint c.now live,trivial⟩
    · exact ⟨.refl inv,trivial⟩
  | _ => cases h

theorem stepCall_moves (inv : Invariant s) (here : At s i call) (timely : TimelyWrite s call)
    (h : s.stepCall i call c = some (s',call')) : Moves s s' i ∧ At s' i call' := by
  unfold stepCall at h
  split at h
  · split at h
    · cases h; exact ⟨moves_abandon inv,trivial⟩
    · exact stepShare_moves inv here h
  · rcases Option.or_eq_some_iff.mp h with share | ⟨_,rest⟩
    · exact stepShare_moves inv here share
    · rcases Option.or_eq_some_iff.mp rest with removal | ⟨_,access⟩
      · exact stepRemoval_moves inv here removal
      · exact stepAccess_moves inv timely access

/-- Only the commit of its import starts the publication of a share. -/
theorem stepCall_publishes {id : TransferId} (h : s.stepCall i call c = some (s',call'))
    (publishing : s'.publishing = some id) :
    s.publishing = some id ∨ ∃ mode files, call = .shareCommit id mode files := by
  cases call
  case shareCommit id' mode files =>
    simp only [stepCall,Call.droppable,stepShare] at h
    repeat' split at h
    · cases h
      unfold abandon at publishing
      split at publishing
      · cases publishing
      · exact .inl publishing
    · cases h; cases publishing
    · cases h
      cases publishing
      exact .inr ⟨mode,files,rfl⟩
  case' releaseTag r _ _ => cases r
  all_goals
    left
    simp only [stepCall,Call.droppable,stepShare,stepRemoval,stepAccess,Option.none_or,Option.or_none,
      reduceCtorEq] at h
    repeat' split at h
    all_goals first
      | (cases h; done)
      | (cases h; exact publishing)
      | (cases h; cases publishing)
      | (cases h; unfold abandon at publishing; split at publishing; cases publishing; exact publishing)

/-- A call that is deleting its share has it out of the active shares. -/
theorem deleting_closed {id : TransferId} {j : Nat} (here : At s j call)
    (deleting : call.deleting id = true) : s.Closed id 1 := by
  have lower : ∀ {stage}, s.Closed id stage → 1 ≤ stage → s.Closed id 1 := fun h one =>
    ⟨h.publishing,fun _ => h.active one,by omega,by omega,by omega⟩
  cases call with
  | unregister r id' k | removeMode r id' k | removeSessions r id' k | releaseTag r id' k =>
    cases r <;> simp only [Call.deleting,Bool.false_eq_true,decide_eq_true_eq] at deleting
    subst deleting
    exact lower here (by omega)
  | deleteRow id' =>
    simp only [Call.deleting,decide_eq_true_eq] at deleting
    subst deleting
    exact lower here (by omega)
  | _ => simp [Call.deleting] at deleting

/-- No step disturbs the assertion of another call. -/
theorem at_stable {j : Nat} {u : Call} (here : At s j u) (step : Moves s s' i) (different : j ≠ i)
    (unpublished : ∀ id, u.deleting id = true → s'.publishing ≠ some id) : At s' j u := by
  have guard : ∀ p, s.lock = some j ∧ s.publishing = p → s'.lock = some j ∧ s'.publishing = p :=
    fun p held => ⟨(step.guard j held.1 different).1,
      (step.guard j held.1 different).2.trans held.2⟩
  have grows : ∀ {id k n}, s.Sealed id k n → s'.Sealed id k n := fun h => sealed_grows h (step.grows _)
  have closed : ∀ {id n}, u.deleting id = true → s.Closed id n → s'.Closed id n := fun d h =>
    h.grows (step.grows _) (unpublished _ d)
  cases u with
  | shareCommit | prepareCancel | stopStatus | shareRegister | shareSetMode | shareFinish =>
    exact guard _ here
  | prepareRemove | stopRemove => exact ⟨guard _ here.1,grows here.2⟩
  | unregister r | removeMode r | removeSessions r | releaseTag r =>
    cases r with
    | preparation => exact ⟨guard _ here.1,grows here.2⟩
    | stop => exact grows here
    | delete => exact closed (by simp [Call.deleting]) here
  | deleteRow id => exact closed (by simp [Call.deleting]) here
  | _ => trivial

theorem at_begins {j : Nat} (h : begins call = true) : At s j call := by
  cases call <;> trivial

/-- The surroundings only bring connections and drop expired sessions. -/
theorem stepEnv_moves (inv : Invariant s) (e : Env) (i : Nat) : Moves s (s.stepEnv e) i := by
  cases e with
  | connect conn endpoint => exact .of_same inv rfl rfl rfl rfl rfl rfl rfl rfl rfl
  | decide id endpoint now => exact moves_decide inv endpoint now

theorem stepEnv_publishing (e : Env) : (s.stepEnv e).publishing = s.publishing := by
  cases e <;> rfl

theorem next_outline {x y : Conf Provider Call} {a : Label Call Choice Env}
    (now : Outline Invariant At x) (timely : Timely x a) (h : machine.next x a = some y) :
    Outline Invariant At y := by
  have unpublished : ∀ {j : Nat} {u : Call}, x.threads[j]? = some u → ∀ id, u.deleting id = true →
      x.shared.publishing ≠ some id := fun there id deleting =>
    (deleting_closed (now.local_ _ _ there) deleting).publishing
  have moves : ∀ {i choice t s t'}, a = .act i choice → x.threads[i]? = some t →
      machine.step x.shared i t choice = some (s,t') → Moves x.shared s i ∧ At s i t' := by
    rintro i choice t s t' rfl here stepped
    exact stepCall_moves now.shared (now.local_ i t here) (timely t here).1 stepped
  refine outline_step (fun t _ enters => at_begins enters) ?_ ?_ ?_ now h
  · rintro i choice t s t' rfl here stepped
    have both := moves rfl here stepped
    exact ⟨now.shared.moves both.1,both.2⟩
  · rintro i choice t s t' j u rfl here stepped different there
    refine at_stable (now.local_ j u there) (moves rfl here stepped).1 different ?_
    intro id deleting publishing
    rcases stepCall_publishes stepped publishing with before | ⟨mode,files,rfl⟩
    · exact unpublished there id deleting before
    · have idle := (timely _ here).2 u (List.mem_of_getElem? there)
      simp [idle] at deleting
  · rintro e s rfl moved
    cases moved
    refine ⟨now.shared.moves (stepEnv_moves now.shared e x.threads.length),fun j u there => ?_⟩
    have bound : j < x.threads.length := (List.getElem?_eq_some_iff.mp there).1
    refine at_stable (now.local_ j u there) (stepEnv_moves now.shared e x.threads.length) (by omega) ?_
    intro id deleting
    rw [stepEnv_publishing]
    exact unpublished there id deleting

theorem restored_invariant (h : s.Restored) : Invariant s where
  dormant id unshared _ := by
    have inactive : s.activeShares id = false := by
      rw [← Bool.not_eq_true]
      exact fun active => unshared (h.shared id active)
    refine ⟨by simp [h.idle.2.1],fun _ => inactive,fun _ hash owned => ?_,fun _ => ?_,fun _ e => h.sessions id e⟩
    · simp [h.owners id hash owned] at inactive
    · by_contra present
      simp [h.modes id present] at inactive
  granted id e present := absurd (h.sessions id e) present
  guarded publishing := absurd h.idle.2.1 publishing
  ended id k member := by simp [h.idle.2.2] at member

theorem reach_outline {x : Conf Provider Call} (reach : Reach machine.system Timely x) :
    Outline Invariant At x := by
  refine reach.invariant (Outline Invariant At) ?_ fun _ _ _ now timely h => next_outline now timely h
  intro s start
  refine ⟨restored_invariant start.1,fun i t there => ?_⟩
  rw [start.2] at there
  simp at there

section Runs

private def fresh : Provider where
  hashes _ := []
  policy := .new
  connections _ := none
  rows _ := none
  activeTransfers _ := none
  signalled _ := false
  activeShares _ := false
  lock := none
  publishing := none
  share _ := 0
  grantedFor _ _ := 0
  ended := []

private theorem fresh_restored : machine.system.init ⟨fresh,[]⟩ :=
  ⟨⟨by simp [fresh],by simp [fresh,AccessPolicy.new],fun _ _ => rfl,by simp [fresh],rfl,rfl,rfl⟩,rfl⟩

private def go (i : Nat) : Label Call Choice Env := .act i ⟨0,false,false,true⟩

private def publish (i : Nat) (file : Hash) : List (Label Call Choice Env) :=
  .fork (.share 1 .approvalRequired [file]) :: List.replicate 9 (go i)

/-- A share is offered, an approval checks that it is live, and the share is stopped and
deleted before the approval writes its session. The same id is then offered again. -/
private def lateApproval : List (Label Call Choice Env) :=
  publish 0 5 ++ [.fork (.approve 1 9),go 1] ++
  .fork (.cancel 1) :: List.replicate 8 (go 2) ++
  .fork (.delete 1) :: List.replicate 8 (go 3) ++
  [go 1] ++ publish 4 6 ++ [.env (.connect 3 (some 9))]

private def lateConf : Conf Provider Call :=
  (machine.system.run ⟨fresh,[]⟩ lateApproval).getD ⟨fresh,[]⟩

private def stopped : List (Label Call Choice Env) :=
  publish 0 5 ++ [.fork (.approve 1 9),go 1,go 1] ++ .fork (.cancel 1) :: List.replicate 8 (go 2)

private def stoppedConf : Conf Provider Call :=
  (machine.system.run ⟨fresh,[]⟩ stopped).getD ⟨fresh,[]⟩

end Runs

end Vnidrop.Shares
