import Vnidrop.ProviderRevocation
import Vnidrop.TargetedRuntime

/-! The deny list and the provider. Invitation shares and targeted transfers share the
provider's maps; a request is decided from these maps alone, so a blocked endpoint is
refused exactly as long as nobody lets it in. -/
namespace Vnidrop.ProviderBlock

open Access Runs Shares Targeted

/-! The maps a decision depends on, and the writes that can widen them. -/

structure AccessMaps where
  hashes : Hash → List TransferId
  policy : AccessPolicy
  blocked : List EndpointId

inductive AccessWrite where
  | register (id : TransferId) (files : List Hash)
  | mode (id : TransferId) (mode : TransferAccessMode)
  | session (id : TransferId) (endpoint : EndpointId)
  | block (endpoint : EndpointId)
  | none
  deriving DecidableEq, Repr

/-- The policy lets the endpoint read whatever the transfer owns. -/
def Entitled (p : AccessPolicy) (id : TransferId) (endpoint : EndpointId) : Prop :=
  p.modes id = some .publicMode ∨
  p.modes id = some .approvalRequired ∧ p.sessions id endpoint ≠ Option.none

namespace AccessMaps

/-- A blocked endpoint is entitled to no transfer that owns a hash. -/
def Denies (a : AccessMaps) : Prop :=
  ∀ e ∈ a.blocked, ∀ id h, id ∈ a.hashes h → ¬Entitled a.policy id e

/-- What lets no blocked endpoint in, of the state before the write. -/
def Careful (a : AccessMaps) : AccessWrite → Prop
  | .register id files => files ≠ [] → ∀ e ∈ a.blocked, ¬Entitled a.policy id e
  | .mode id mode => ∀ e ∈ a.blocked, (∃ h, id ∈ a.hashes h) →
      mode ≠ .publicMode ∧ a.policy.sessions id e = Option.none
  | .session id endpoint => endpoint ∈ a.blocked → (∃ h, id ∈ a.hashes h) →
      a.policy.modes id = Option.none
  | .block endpoint => ∀ id h, id ∈ a.hashes h → ¬Entitled a.policy id endpoint
  | .none => True

/-- What has come of a write: it has opened nothing else, and dropped what it likes. -/
structure After (a : AccessMaps) (w : AccessWrite) (b : AccessMaps) : Prop where
  hashes : ∀ h id, id ∈ b.hashes h →
    id ∈ a.hashes h ∨ ∃ files, w = .register id files ∧ files ≠ []
  modes : ∀ id, b.policy.modes id = Option.none ∨ b.policy.modes id = a.policy.modes id ∨
    ∃ mode, w = .mode id mode ∧ b.policy.modes id = some mode
  sessions : ∀ id e, b.policy.sessions id e ≠ Option.none →
    a.policy.sessions id e ≠ Option.none ∨ w = .session id e
  blocked : ∀ e, e ∈ b.blocked → e ∈ a.blocked ∨ w = .block e

/-- Entitlement comes from the maps before, from the write of a mode, or from that of a session. -/
theorem After.entitled {a b : AccessMaps} {w : AccessWrite} (after : After a w b) {id : TransferId}
    {e : EndpointId} (h : Entitled b.policy id e) :
    Entitled a.policy id e ∨
    (∃ mode, w = .mode id mode ∧
      (mode = .publicMode ∨ a.policy.sessions id e ≠ Option.none)) ∨
    (w = .session id e ∧ a.policy.modes id ≠ Option.none) := by
  have present : b.policy.modes id ≠ Option.none := by
    rcases h with mode | ⟨mode,_⟩ <;> simp [mode]
  rcases (after.modes id).resolve_left present with same | ⟨mode,wrote,now⟩
  · rw [Entitled,same] at h
    rcases h with mode | ⟨mode,held⟩
    · exact .inl (.inl mode)
    · rcases after.sessions id e held with before | wrote
      · exact .inl (.inr ⟨mode,before⟩)
      · exact .inr (.inr ⟨wrote,same ▸ present⟩)
  · refine .inr (.inl ⟨mode,wrote,?_⟩)
    rw [Entitled,now] at h
    rcases h with mode | ⟨_,held⟩
    · exact .inl (Option.some.inj mode)
    · refine .inr ((after.sessions id e held).resolve_right fun other => ?_)
      rw [wrote] at other
      cases other

theorem Denies.after {a b : AccessMaps} {w : AccessWrite} (denies : a.Denies) (careful : a.Careful w)
    (after : After a w b) : b.Denies := by
  intro e denied id h owned entitled
  have before : e ∈ a.blocked ∨ w = .block e := after.blocked e denied
  have owner : (id ∈ a.hashes h) ∨ ∃ files, w = .register id files ∧ files ≠ [] :=
    after.hashes h id owned
  rcases after.entitled entitled with old | ⟨mode,rfl,widens⟩ | ⟨rfl,present⟩
  · rcases owner with owner | ⟨files,rfl,some⟩
    · rcases before with before | rfl
      · exact denies e before id h owner old
      · exact careful id h owner old
    · exact careful some e (before.resolve_right nofun) old
  · have owner := owner.resolve_right (by rintro ⟨_,other,_⟩; cases other)
    have allowed := careful e (before.resolve_right nofun) ⟨h,owner⟩
    exact widens.elim allowed.1 fun held => held allowed.2
  · have owner := owner.resolve_right (by rintro ⟨_,other,_⟩; cases other)
    exact present (careful (before.resolve_right nofun) ⟨h,owner⟩)

end AccessMaps

/-! The node: invitation shares, targeted transfers and the deny list of one process. -/

/-- The maps are the provider's; the device's own copies of them are not used. -/
structure Node where
  provider : Provider
  runtime : Runtime

namespace Node

def maps (n : Node) : AccessMaps := ⟨n.provider.hashes,n.provider.policy,n.runtime.blocked⟩

/-- The runtime as its calls see it. -/
def view (n : Node) : Runtime := n.runtime.setDevice
  { n.runtime.device with hashes := n.provider.hashes, policy := n.provider.policy }

def putRuntime (n : Node) (r : Runtime) : Node where
  provider := { n.provider with hashes := r.device.hashes, policy := r.device.policy }
  runtime := r

def putProvider (n : Node) (p : Provider) : Node := { n with provider := p }

/-- A restored share: its id, its stored mode and its hashes. -/
abbrev Restored := TransferId × TransferAccessMode × List Hash

def restoreShare (p : Provider) (share : Restored) : Provider :=
  let p := p.registerShareHashes share.1 share.2.2
  { p.setPolicy (p.policy.setMode share.1 share.2.1) with
    activeShares := Function.update p.activeShares share.1 true }

/-- The process starts again: the maps are empty but for the stored shares it restores. -/
def restart (n : Node) (shares : List Restored) : Node where
  provider := shares.foldl restoreShare { n.provider with
    hashes := fun _ => [], policy := .new, connections := fun _ => none
    activeTransfers := fun _ => none, signalled := fun _ => false
    activeShares := fun _ => false, lock := none, publishing := none }
  runtime := n.runtime.setDevice { n.runtime.device with inbox := .new, active := fun _ => false }

end Node

/-- A running call of either domain. -/
inductive Work where
  | share (call : Shares.Call)
  | runtime (thread : Programs.Thread RuntimeCall RuntimeOp RuntimeAns)

structure Conf where
  node : Node
  threads : List Work

inductive Label where
  | share (call : Shares.Call)
  | runtime (call : RuntimeCall)
  | actShare (i : Nat) (choice : Shares.Choice)
  | actRuntime (i : Nat) (choice : RuntimeChoice)
  | provider (e : Provider.Env)
  | restart (shares : List Node.Restored)

def next (l : Local) (c : Conf) : Label → Option Conf
  | .share call => if Provider.begins call then some { c with threads := c.threads ++ [.share call] }
    else none
  | .runtime call =>
    if call.admitted c.node.view then
      some { c with threads := c.threads ++ [.runtime ⟨call,call.body l⟩] }
    else none
  | .actShare i choice =>
    match c.threads[i]? with
    | some (.share call) =>
      match c.node.provider.stepCall i call choice with
      | some (p,call') => some ⟨c.node.putProvider p,c.threads.set i (.share call')⟩
      | none => none
    | _ => none
  | .actRuntime i choice =>
    match c.threads[i]? with
    | some (.runtime ⟨call,.step op k⟩) =>
      match c.node.view.exec l choice op with
      | some (r,s) => some ⟨c.node.putRuntime s,c.threads.set i (.runtime ⟨call,k r⟩)⟩
      | none => none
    | _ => none
  | .provider e => some { c with node := c.node.putProvider (c.node.provider.stepEnv e) }
  | .restart shares =>
    if ∀ share ∈ shares, c.node.provider.rows share.1 = some .sharing then
      some ⟨c.node.restart shares,[]⟩
    else none

/-- A process that has not started yet, with whatever it has stored. -/
def system (l : Local) : System Conf Label where
  init c := (∀ h, c.node.provider.hashes h = []) ∧ c.node.provider.policy = .new ∧ c.threads = []
  step := next l

/-! What the steps write. -/

/-- A dropped publication writes nothing. -/
def shareWrite (p : Provider) (i : Nat) (c : Shares.Choice) (call : Shares.Call) : AccessWrite :=
  if (Provider.Call.droppable call).isSome ∧ c.observesCancel ∧ p.signalled i then .none
  else match call with
    | .shareRegister id _ files => .register id files
    | .shareSetMode id mode | .setModeWrite id mode => .mode id mode
    | .approveWrite id e _ => .session id e
    | .handshakeWait id e _ => if c.accepted then .session id e else .none
    | _ => .none

def runtimeWrite : RuntimeOp → AccessWrite
  | .targeted (.registerShareHashes id files) => .register id files
  | .targeted (.setMode id) => .mode id .approvalRequired
  | .targeted (.approveEndpoint id e) => .session id e
  | .blockEndpoint e => .block e
  | _ => .none

/-- The writes that widen access are careful about who is blocked, and a process with a
blocked endpoint restores no public share. -/
def Mindful (c : Conf) : Label → Prop
  | .actShare i choice => ∀ work ∈ c.threads[i]?, match work with
    | .share call => c.node.maps.Careful (shareWrite c.node.provider i choice call)
    | .runtime _ => True
  | .actRuntime i _ => ∀ work ∈ c.threads[i]?, match work with
    | .runtime ⟨_,.step op _⟩ => c.node.maps.Careful (runtimeWrite op)
    | _ => True
  | .restart shares => c.node.runtime.blocked ≠ [] →
    ∀ share ∈ shares, share.2.1 ≠ .publicMode
  | _ => True

/-! Each step does at most its write. -/

namespace AccessMaps

variable {a b : AccessMaps} {w : AccessWrite}

/-- Maps that only lose entries. -/
theorem After.less (hashes : ∀ h id, id ∈ b.hashes h → id ∈ a.hashes h)
    (modes : ∀ id, b.policy.modes id = none ∨ b.policy.modes id = a.policy.modes id)
    (sessions : ∀ id e, b.policy.sessions id e ≠ none → a.policy.sessions id e ≠ none)
    (blocked : ∀ e, e ∈ b.blocked → e ∈ a.blocked) : After a w b where
  hashes h id owned := .inl (hashes h id owned)
  modes id := (modes id).imp_right .inl
  sessions id e held := .inl (sessions id e held)
  blocked e denied := .inl (blocked e denied)

theorem After.same (hashes : b.hashes = a.hashes) (policy : b.policy = a.policy)
    (blocked : b.blocked = a.blocked) : After a w b :=
  .less (fun h _ owned => hashes ▸ owned) (fun _ => .inr (by rw [policy]))
    (fun _ _ held => policy ▸ held) (fun _ denied => blocked ▸ denied)

end AccessMaps

open AccessMaps

section Steps

variable {p p' : Provider} {blocked : List EndpointId} {id : TransferId}

theorem after_register {hashes : Hash → List TransferId} {policy : AccessPolicy} (files : List Hash) :
    After ⟨hashes,policy,blocked⟩ (.register id files)
      ⟨fun h => if h ∈ files ∧ id ∉ hashes h then id :: hashes h else hashes h,policy,blocked⟩ where
  hashes h id' owned := by
    change id' ∈ if h ∈ files ∧ id ∉ hashes h then id :: hashes h else hashes h at owned
    split at owned
    · rename_i added
      rcases List.mem_cons.mp owned with rfl | old
      · exact .inr ⟨files,rfl,List.ne_nil_of_mem added.1⟩
      · exact .inl old
    · exact .inl owned
  modes _ := .inr (.inl rfl)
  sessions _ _ held := .inl held
  blocked _ denied := .inl denied

theorem after_mode {hashes : Hash → List TransferId} {policy : AccessPolicy}
    (mode : TransferAccessMode) : After ⟨hashes,policy,blocked⟩ (.mode id mode)
      ⟨hashes,policy.setMode id mode,blocked⟩ where
  hashes _ _ owned := .inl owned
  modes id' := by
    by_cases same : id' = id
    · subst same
      exact .inr (.inr ⟨mode,rfl,Function.update_self ..⟩)
    · exact .inr (.inl (Function.update_of_ne same ..))
  sessions _ _ held := .inl held
  blocked _ denied := .inl denied

theorem after_session {hashes : Hash → List TransferId} {policy : AccessPolicy} (e : EndpointId)
    (expiresAt : Option Millis) : After ⟨hashes,policy,blocked⟩ (.session id e)
      ⟨hashes,policy.approveEndpointUntil id e expiresAt,blocked⟩ where
  hashes _ _ owned := .inl owned
  modes _ := .inr (.inl rfl)
  sessions id' e' held := by
    by_cases same : id' = id
    · subst same
      by_cases here : e' = e
      · exact .inr (by rw [here])
      · rw [AccessPolicy.approveEndpointUntil,AccessPolicy.setSession_self,if_neg here] at held
        exact .inl held
    · rw [AccessPolicy.approveEndpointUntil,AccessPolicy.setSession_other _ _ _ same] at held
      exact .inl held
  blocked _ denied := .inl denied

theorem after_unregister {hashes : Hash → List TransferId} {policy : AccessPolicy} {w : AccessWrite} :
    After ⟨hashes,policy,blocked⟩ w ⟨fun h => (hashes h).filter (· != id),policy,blocked⟩ :=
  .less (fun _ _ owned => List.mem_of_mem_filter owned) (fun _ => .inr rfl) (fun _ _ held => held)
    (fun _ denied => denied)

theorem after_removeMode {hashes : Hash → List TransferId} {policy : AccessPolicy} {w : AccessWrite} :
    After ⟨hashes,policy,blocked⟩ w ⟨hashes,policy.removeMode id,blocked⟩ := by
  refine .less (fun _ _ owned => owned) (fun id' => ?_) (fun _ _ held => held) (fun _ denied => denied)
  by_cases same : id' = id
  · exact .inl (same ▸ Function.update_self ..)
  · exact .inr (Function.update_of_ne same ..)

theorem after_removeSessions {hashes : Hash → List TransferId} {policy : AccessPolicy}
    {w : AccessWrite} : After ⟨hashes,policy,blocked⟩ w ⟨hashes,policy.removeSessions id,blocked⟩ := by
  refine .less (fun _ _ owned => owned) (fun _ => .inr rfl) (fun id' e held => ?_)
    (fun _ denied => denied)
  by_cases same : id' = id
  · simp [same] at held
  · simpa [same] using held

theorem after_decide {hashes : Hash → List TransferId} {policy : AccessPolicy} {w : AccessWrite}
    (endpoint : Option EndpointId) (now : Millis) :
    After ⟨hashes,policy,blocked⟩ w ⟨hashes,(policy.decide id endpoint now).2,blocked⟩ := by
  rcases policy.decide_policy id endpoint now with same | ⟨e,dropped⟩
  · exact .same rfl same rfl
  · rw [dropped]
    refine .less (fun _ _ owned => owned) (fun _ => .inr rfl) (fun id' e' held => ?_)
      (fun _ denied => denied)
    by_cases same : id' = id
    · subst same
      rw [AccessPolicy.setSession_self] at held
      split at held
      · exact absurd rfl held
      · exact held
    · rwa [AccessPolicy.setSession_other _ _ _ same] at held

theorem abandon_hashes (i : Nat) : (p.abandon i).hashes = p.hashes := by
  unfold Provider.abandon
  split <;> rfl

theorem abandon_policy (i : Nat) : (p.abandon i).policy = p.policy := by
  unfold Provider.abandon
  split <;> rfl

/-- What a step of a share call does to the maps. -/
theorem stepCall_after {i : Nat} {c : Shares.Choice} {call call' : Shares.Call}
    (h : p.stepCall i call c = some (p',call')) :
    After ⟨p.hashes,p.policy,blocked⟩ (shareWrite p i c call) ⟨p'.hashes,p'.policy,blocked⟩ := by
  cases call with
  | unregister r t k => cases h; exact after_unregister
  | removeMode r t k => cases h; exact after_removeMode
  | removeSessions r t k => cases h; exact after_removeSessions
  | setModeWrite id mode => cases h; exact after_mode mode
  | approveWrite id e k => cases h; exact after_session e _
  | handshakeWait id e k =>
    simp only [Provider.stepCall,Provider.Call.droppable,Provider.stepShare,Provider.stepRemoval,
      Provider.stepAccess,Option.none_or] at h
    simp only [shareWrite,Provider.Call.droppable]
    by_cases accepted : c.accepted = true
    · rw [if_pos accepted] at h
      cases h
      simp only [accepted,if_true,Option.isSome_none,Bool.false_eq_true,false_and,if_false]
      exact after_session e _
    · rw [if_neg accepted] at h
      cases h
      exact .same rfl rfl rfl
  | handshakeDecide id e k =>
    simp only [Provider.stepCall,Provider.Call.droppable,Provider.stepShare,Provider.stepRemoval,
      Provider.stepAccess,Option.none_or] at h
    have decided : After ⟨p.hashes,p.policy,blocked⟩ (shareWrite p i c (.handshakeDecide id e k))
        ⟨p.hashes,(p.policy.decide id (some e) c.now).2,blocked⟩ := after_decide (some e) c.now
    split at h
    all_goals
      rename_i same
      cases h
      rw [same] at decided
      exact decided
  | releaseTag r t k =>
    cases r <;> simp only [Provider.stepCall,Provider.Call.droppable,Provider.stepShare,
      Provider.stepRemoval,Option.none_or] at h <;> split at h <;> cases h <;> exact .same rfl rfl rfl
  | _ =>
    simp only [Provider.stepCall,Provider.Call.droppable,Provider.stepShare,Provider.stepRemoval,
      Provider.stepAccess,Option.none_or] at h
    repeat' split at h
    all_goals first
      | (cases h; done)
      | (cases h; exact .same rfl rfl rfl)
      | (cases h; exact .same (abandon_hashes i) (abandon_policy i) rfl)
      | (rename_i kept
         cases h
         simp only [shareWrite,Provider.Call.droppable,Option.isSome_some,true_and,if_neg kept]
         first | exact after_register _ | exact after_mode _)

/-- What an operation of the targeted domain does to the maps. -/
theorem device_after {l : Local} {d d' : Device} {c : Targeted.Choice} {op : Op} {r : Ans op}
    (h : d.exec l c op = some (r,d')) :
    After ⟨d.hashes,d.policy,blocked⟩ (runtimeWrite (.targeted op)) ⟨d'.hashes,d'.policy,blocked⟩ := by
  cases op with
  | registerShareHashes id files =>
    cases h
    exact after_register files
  | setMode id => cases h; exact after_mode .approvalRequired
  | approveEndpoint id e => cases h; exact after_session e none
  | unregisterTransferHashes id => cases h; exact after_unregister
  | removeMode id => cases h; exact after_removeMode
  | removeSessions id => cases h; exact after_removeSessions
  | write w =>
    rcases Device.exec_write h with ⟨_,rfl⟩ | ⟨_,_,_,_,rfl⟩
    · exact .same rfl rfl rfl
    · exact .same rfl rfl rfl
  | _ =>
    simp only [Device.exec] at h
    repeat' split at h
    all_goals first
      | (cases h; done)
      | (cases h; exact .same rfl rfl rfl)
      | (obtain ⟨_,_,same⟩ := Option.map_eq_some_iff.mp h
         cases same
         exact .same rfl rfl rfl)

theorem runtime_after {l : Local} {v s : Runtime} {c : RuntimeChoice} {op : RuntimeOp}
    {r : RuntimeAns op} (h : v.exec l c op = some (r,s)) :
    After ⟨v.device.hashes,v.device.policy,v.blocked⟩ (runtimeWrite op)
      ⟨s.device.hashes,s.device.policy,s.blocked⟩ := by
  cases op with
  | targeted op =>
    obtain ⟨⟨r',d⟩,ran,same⟩ := Option.map_eq_some_iff.mp h
    cases same
    exact device_after ran
  | blockEndpoint e =>
    simp only [Runtime.exec,Runtime.attempt] at h
    split at h
    · cases h; exact .same rfl rfl rfl
    · cases h
      refine ⟨fun _ _ owned => .inl owned,fun _ => .inr (.inl rfl),fun _ _ held => .inl held,?_⟩
      intro e' denied
      exact (List.mem_cons.mp denied).symm.imp_right fun same => by rw [runtimeWrite,same]
  | unblockEndpoint e =>
    simp only [Runtime.exec,Runtime.attempt] at h
    split at h
    · cases h; exact .same rfl rfl rfl
    · cases h
      exact .less (fun _ _ owned => owned) (fun _ => .inr rfl) (fun _ _ held => held)
        (fun _ denied => List.mem_of_mem_filter denied)
  | _ =>
    simp only [Runtime.exec,Runtime.attempt] at h
    repeat' split at h
    all_goals
      cases h
      exact .same rfl rfl rfl

end Steps

/-! Runs. -/

section Runs

variable {l : Local} {c d : Conf}

/-- Restoring shares of approval mode opens no session and no public mode. -/
theorem restored_policy (shares : List Node.Restored)
    (private_ : ∀ share ∈ shares, share.2.1 ≠ .publicMode) {p : Provider}
    (modes : ∀ id, p.policy.modes id ≠ some .publicMode)
    (sessions : ∀ id e, p.policy.sessions id e = none) :
    (∀ id, (shares.foldl Node.restoreShare p).policy.modes id ≠ some .publicMode) ∧
    ∀ id e, (shares.foldl Node.restoreShare p).policy.sessions id e = none := by
  induction shares generalizing p with
  | nil => exact ⟨modes,sessions⟩
  | cons share shares ih =>
    refine ih (fun s member => private_ s (List.mem_cons_of_mem _ member)) (fun id => ?_) sessions
    change Function.update p.policy.modes share.1 (some share.2.1) id ≠ _
    by_cases same : id = share.1
    · subst same
      rw [Function.update_self]
      exact fun public_ => private_ share List.mem_cons_self (Option.some.inj public_)
    · rw [Function.update_of_ne same]
      exact modes id

theorem next_denies (denies : c.node.maps.Denies) {a : Label} (mindful : Mindful c a)
    (h : next l c a = some d) : d.node.maps.Denies := by
  cases a with
  | share call =>
    simp only [next] at h
    split at h <;> cases h
    exact denies
  | runtime call =>
    simp only [next] at h
    split at h <;> cases h
    exact denies
  | actShare i choice =>
    simp only [next] at h
    split at h
    · rename_i call here
      split at h
      · rename_i p call' stepped
        cases h
        exact denies.after (mindful _ here) (stepCall_after stepped)
      · cases h
    · cases h
  | actRuntime i choice =>
    simp only [next] at h
    split at h
    · rename_i call op k here
      split at h
      · rename_i r s ran
        cases h
        exact denies.after (mindful _ here) (runtime_after ran)
      · cases h
    · cases h
  | provider e =>
    cases h
    cases e with
    | connect conn endpoint => exact denies
    | decide id endpoint now => exact denies.after (w := .none) trivial (after_decide endpoint now)
  | restart shares =>
    simp only [next] at h
    split at h <;> cases h
    intro e denied id hash owned entitled
    have some : c.node.runtime.blocked ≠ [] := List.ne_nil_of_mem denied
    have closed := restored_policy shares (mindful some) (p := { c.node.provider with
      hashes := fun _ => [], policy := .new, connections := fun _ => none
      activeTransfers := fun _ => none, signalled := fun _ => false
      activeShares := fun _ => false, lock := none, publishing := none })
      (fun _ => nofun) (fun _ _ => rfl)
    rcases entitled with mode | ⟨_,held⟩
    · exact closed.1 id mode
    · exact held (closed.2 id e)

theorem reach_denies (reach : Reach (system l) Mindful c) : c.node.maps.Denies := by
  refine reach.invariant (fun c => c.node.maps.Denies) (fun c start => ?_)
    (fun c a d denies mindful h => next_denies denies mindful h)
  intro e _ id h owned
  rw [show c.node.maps.hashes h = [] from start.1 h] at owned
  cases owned

end Runs

/-! Device 5 is blocked while share 1 is restored in either mode. -/

private def fresh : Conf where
  node :=
    { provider := ⟨fun _ => [],.new,fun _ => none,fun id => if id = 1 then some .sharing else none,
        fun _ => none,fun _ => false,fun _ => false,none,none,fun _ => 1,fun _ _ => 0,[]⟩
      runtime := ⟨.new,[],fun _ => none,[]⟩ }
  threads := []

private def blocking : List Label :=
  .runtime (.block 5) :: List.replicate 6 (.actRuntime 0 ⟨⟨0,false,false,0,none,⟨[],false⟩⟩,[]⟩) ++
    [.provider (.connect 9 (some 5))]

private def restarted (mode : TransferAccessMode) : Conf :=
  ((system Sample.sender).run fresh [.restart [(1,mode,[7])]]).getD fresh

private def blockedConf (mode : TransferAccessMode) : Conf :=
  ((system Sample.sender).run (restarted mode) blocking).getD fresh

end Vnidrop.ProviderBlock
