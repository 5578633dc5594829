import Vnidrop.Receives

/-! What a receive does to the history of an earlier one with the same transfer id. The row is
found by the number that the sender has chosen, and the artifacts by the row's local id, which
a restart keeps. -/
namespace Vnidrop.Receives

open Tables Programs Invitation

/-- The row is as it was, and so are the artifacts that belong to it. -/
def HistoryKept (row : Transfer) (s s' : Device) : Prop :=
  s'.transfers.find row.transferId = some row ∧
    (s'.artifacts.rows.filter fun a => a.transferLocalId = row.localId) =
      s.artifacts.rows.filter fun a => a.transferLocalId = row.localId

/-- The receive by itself, as thread `i` in given surroundings. -/
def receives (l : CoreLimits) (t : ParsedTransferTicket) (target : ReceiveTarget) (i : Nat)
    (course : Nat → Choice) (s : Device) : Option (Except Stop Unit × Device) :=
  play (fun s c o => s.exec i c t.transferId o) course (receiveToTarget l t target) s 0

section Peers

variable {s u : Device} {id : TransferId} {i : Nat} {l : CoreLimits} {t : ParsedTransferTicket}
  {target : ReceiveTarget} {α : Type}

/-- Both have the same peer at every row. -/
def SamePeers (s u : Device) : Prop :=
  ∀ k, (u.transfers.find k).map Transfer.peerId = (s.transfers.find k).map Transfer.peerId

/-- Only the start of a receive writes the peer of a row. -/
theorem exec_peers {c : Choice} {o : Op} {r : Ans o} (settled : ∀ up, o ≠ .startReceive up)
    (h : s.exec i c id o = some (r,u)) : SamePeers s u := by
  intro k
  rcases exec_wrote h with same | ⟨up,eq,_⟩ | ⟨id',_,_,row,_,found,_,after⟩
  · rw [same]
  · exact absurd eq (settled up)
  · rw [after k]
    by_cases here : k = id'
    · subst here
      rw [if_pos rfl,found]
      rfl
    · rw [if_neg here]

theorem alone_peers {p : Task α} {a : α} (settled : p.All fun o => ∀ up, o ≠ .startReceive up)
    (run : Alone (fun s c o => Device.exec s i c id o) p s a u) : SamePeers s u := by
  apply alone_related (fun s k => rfl) _ _ settled run
  · intro s t u first second k
    exact (second k).trans (first k)
  · intro o quiet s c r u h
    exact exec_peers quiet h

theorem inside_settled {p : Task α} (inside : p.All (Inside id)) :
    p.All fun o => ∀ up, o ≠ .startReceive up := by
  induction p with
  | ret a => trivial
  | step o k ih =>
    refine ⟨?_,fun r => ih r (inside.2 r)⟩
    rintro up rfl
    exact absurd inside.1 (by simp [Inside,stopped])

theorem afterwards_settled (address : Text) (result : Except Stop Unit × Option DeliveryReceipt) :
    (afterwards id address result).All fun o => ∀ up, o ≠ .startReceive up := by
  obtain ⟨stop | _,receipt⟩ := result
  · refine Prog.all_bind ?_ fun _ => ?_
    · cases stop with
      | failed code => exact Prog.all_perform fun up eq => by cases eq
      | cancelled => trivial
    · cases receipt with
      | none => trivial
      | some r => exact Prog.all_perform fun up eq => by cases eq
  · trivial

/-- What follows the start of a receive, to the return of the call. -/
def afterStart (l : CoreLimits) (t : ParsedTransferTicket) (target : ReceiveTarget) :
    Task (Except Stop Unit) := do
  let result ← Prog.andThen (op (.encodeAddress t.address)) fun address => do
    op (.activate t.transferId)
    let result ← receiveInner l t target address
    op (.deactivate t.transferId)
    afterwards t.transferId address result
    return result.1
  op .releaseSlot
  return result

theorem afterStart_settled : (afterStart l t target).All fun o => ∀ up, o ≠ .startReceive up := by
  refine Prog.all_bind (Prog.all_andThen ?_ fun address => ?_) fun _ => ?_
  · exact Prog.all_perform fun up eq => by cases eq
  · refine Prog.all_bind (Prog.all_perform fun up eq => by cases eq) fun _ => ?_
    refine Prog.all_bind (inside_settled (receiveInner_inside address)) fun result => ?_
    refine Prog.all_bind (Prog.all_perform fun up eq => by cases eq) fun _ => ?_
    exact Prog.all_bind (afterwards_settled address result) fun _ => trivial
  · exact Prog.all_bind (Prog.all_perform fun up eq => by cases eq) fun _ => trivial

end Peers

section Histories

variable {s s' : Device} {i : Nat} {l : CoreLimits} {t : ParsedTransferTicket}
  {target : ReceiveTarget} {course : Nat → Choice} {result : Except Stop Unit}

/-- The receive is refused before it has written: its address is not allowed, the statement
of its start fails, or a number of its ticket is too large for the history. -/
def Refused (t : ParsedTransferTicket) (course : Nat → Choice) : Prop :=
  (course 1).fails = true ∨ (course 2).fails = true ∨ ¬Transfers.Storable (upsertOf t)

/-- An operation outside the `select!` is not interrupted. -/
theorem exec_uninterrupted {c : Choice} {id : TransferId} {o : Op} {r : Ans o} {u : Device}
    (outside : stopped o .cancelled = none) (h : s.exec i c id o = some (r,u)) : s.act i c o = some (r,u) := by
  unfold Device.exec at h
  split at h
  · split at h
    · cases h
    · rw [outside] at h
      cases h
  · exact h

/-- A receive that gets past its start, and one that does not. -/
theorem receives_cases (run : receives l t target i course s = some (result,s')) :
    (∃ u, (course 1).fails = false ∧ (course 2).fails = false ∧
      s.transfers.startReceive (upsertOf t) (course 2).fresh (course 2).now = .ok u.transfers ∧
      Alone (fun s c o => Device.exec s i c t.transferId o) (afterStart l t target) u result s') ∨
    (((course 1).fails = true ∨ (course 2).fails = true ∨
      ∃ e, s.transfers.startReceive (upsertOf t) (course 2).fresh (course 2).now = .error e) ∧
      s'.transfers = s.transfers ∧ s'.artifacts = s.artifacts) := by
  -- the permit
  obtain ⟨⟨a,s₁⟩,acquired,run⟩ := Option.bind_eq_some_iff.mp run
  have acquired := exec_uninterrupted rfl acquired
  cases slots : s.slots with
  | zero =>
    simp only [Device.act,slots] at acquired
    cases acquired
  | succ n =>
    simp only [Device.act,slots] at acquired
    cases acquired
    -- the address
    obtain ⟨⟨a,s₂⟩,filtered,run⟩ := Option.bind_eq_some_iff.mp run
    have filtered := exec_uninterrupted rfl filtered
    cases Option.some.inj filtered
    by_cases refused : (course 1).fails = true
    · rw [if_pos refused] at run
      obtain ⟨⟨a,s₃⟩,released,run⟩ := Option.bind_eq_some_iff.mp run
      cases Option.some.inj (exec_uninterrupted rfl released)
      cases run
      exact .inr ⟨.inl refused,rfl,rfl⟩
    · rw [if_neg refused] at run
      -- the start
      obtain ⟨⟨a,s₃⟩,started,run⟩ := Option.bind_eq_some_iff.mp run
      have started := (Option.some.inj (exec_uninterrupted rfl started)).symm
      rcases statement_cases started with eq | ⟨u,works,ok,eq⟩
      · cases eq
        obtain ⟨⟨a,s₄⟩,released,run⟩ := Option.bind_eq_some_iff.mp run
        cases Option.some.inj (exec_uninterrupted rfl released)
        cases run
        refine .inr ⟨.inr ?_,rfl,rfl⟩
        by_cases fails : (course 2).fails = true
        · exact .inl fails
        · refine .inr ?_
          cases result : s.transfers.startReceive (upsertOf t) (course 2).fresh (course 2).now with
          | error e => exact ⟨e,rfl⟩
          | ok transfers =>
            unfold statement at started
            rw [if_neg fails] at started
            simp only [Device.setTransfers,result] at started
            cases started
      · cases eq
        exact .inl ⟨s₃,by simpa using refused,works,setTransfers_ok ok,alone_of_play run⟩

/-- A receive of the id keeps the history of an ended one from another peer exactly when it is
refused. -/
theorem history_kept_iff_refused {row : Transfer} {peer : EndpointId}
    (there : s.transfers.find t.transferId = some row) (ended : Transfers.restarts row = true)
    (sent : row.peerId = some peer) (other : t.sender ≠ peer)
    (run : receives l t target i course s = some (result,s')) :
    HistoryKept row s s' ↔ Refused t course := by
  have keyed : row.transferId = t.transferId := Table.find_key there
  rcases receives_cases run with ⟨u,allowed,works,started,rest⟩ | ⟨refused,transfers,artifacts⟩
  · obtain ⟨fits,_,written⟩ := Transfers.startReceive_ok rfl rfl started
    constructor
    · rintro ⟨kept,_⟩
      have changed := alone_peers afterStart_settled rest t.transferId
      rw [← keyed,kept,keyed,written] at changed
      rw [show (upsertOf t).transferId = t.transferId from rfl,if_pos rfl,there] at changed
      have same : row.peerId = some t.sender := Option.some.inj changed
      rw [sent] at same
      exact absurd (Option.some.inj same).symm other
    · rintro (refused | refused | large)
      · rw [allowed] at refused
        cases refused
      · rw [works] at refused
        cases refused
      · exact absurd fits large
  · constructor
    · intro _
      rcases refused with refused | refused | ⟨e,bad⟩
      · exact .inl refused
      · exact .inr (.inl refused)
      · refine .inr (.inr fun fits => ?_)
        obtain ⟨v,ok⟩ := Transfers.startReceive_restarts rfl rfl fits there ended
        cases ok.symm.trans bad
    · intro _
      refine ⟨?_,by rw [artifacts]⟩
      rw [transfers,keyed]
      exact there

end Histories

namespace Sample

def limits : CoreLimits := ⟨100,1000000,4096⟩

/-- The history of a receive of transfer 7 from peer 1. -/
def past : Transfer :=
  ⟨7,70,7,some 1,.receive,.done,some 11,none,some 12,none,1,3,"approval_required",0,5⟩

/-- The file it published. -/
def published : ReceivedArtifact := ⟨100,70,7,"notes.txt",.filesystemPath,31,3,4⟩

def stored : Device where
  transfers := ⟨[past],List.nodup_singleton _⟩
  artifacts := ⟨[published],List.nodup_singleton _⟩
  receipts := .empty
  active _ := none
  activeShares _ := false
  slots := 1

/-- A ticket of peer 2 that carries the same transfer id. -/
def ticket : ParsedTransferTicket := ⟨7,21,none,22,1,5,2,41⟩

def good : Choice :=
  ⟨9,false,false,"",200,41,⟨1,7,51⟩,none,[0,5],[("notes.txt",23)],⟨.filesystemPath,32,5⟩⟩

def received : Device := ((receives limits ticket (.directory 6) 0 (fun _ => good) stored).map (·.2)).getD stored

def refused : Device :=
  ((receives limits ticket (.directory 6) 0 (fun _ => { good with fails := true }) stored).map (·.2)).getD stored

end Sample

open Receives.Sample in
/-- The row of peer 1 now names peer 2, and its artifact leads to the file of peer 2. -/
theorem history_overwritten :
    stored.transfers.find ticket.transferId = some past ∧ Transfers.restarts past = true ∧
    past.peerId = some 1 ∧ ticket.sender ≠ 1 ∧
    receives limits ticket (.directory 6) 0 (fun _ => good) stored = some (.ok (),received) ∧
    ¬HistoryKept past stored received ∧
    (received.transfers.find 7).map (fun row => (row.localId,row.peerId,row.contentHash)) =
      some (70,some 2,some 22) ∧
    received.artifacts.rows.map (fun a => (a.id,a.transferLocalId,a.locator,a.logicalSize)) =
      [(100,70,32,5)] := by
  refine ⟨rfl,rfl,rfl,by decide,rfl,?_,rfl,rfl⟩
  rintro ⟨kept,_⟩
  exact absurd kept (by decide)

open Receives.Sample in
/-- Both ways, on the receive that overwrites and on one whose address is refused. -/
theorem history_kept_when_refused :
    (HistoryKept past stored received ↔ Refused ticket fun _ => good) ∧
    (HistoryKept past stored refused ↔ Refused ticket fun _ => { good with fails := true }) :=
  ⟨history_kept_iff_refused rfl rfl rfl (by decide)
      (show receives limits ticket (.directory 6) 0 (fun _ => good) stored = some (.ok (),received) from rfl),
    history_kept_iff_refused rfl rfl rfl (by decide)
      (show receives limits ticket (.directory 6) 0 (fun _ => { good with fails := true }) stored =
        some (.error (.failed "network"),refused) from rfl)⟩

end Vnidrop.Receives
