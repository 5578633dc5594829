import Vnidrop.PairingOps

/-! Revoke notices of the peer. A notice for another generation than that of the row is
stale; it is ignored if the store has a tombstone of its generation. -/
namespace Vnidrop.Pairing.Notice

open Programs Runs

/-- The notices that have found a row they concern and hold its lock; those that have gone
on to change something while the row was another. -/
structure History where
  revoking : List (Nat × EndpointId × Nat)
  harmed : List Nat

def History.new : History := ⟨[],[]⟩

def concerns (generation : Nat) (row : RelationshipRow) : Bool :=
  generation = 0 || row.generation = generation

/-- The peer has a row, and the notice does not concern it. -/
def stale (d : Device) (remote : EndpointId) (m : RevokeNotice) : Bool :=
  (d.relationships.find remote).any fun r => !concerns m.generation r.row

/-- What can change a row, a grant or an eligibility. -/
def touches : Op → Bool
  | .writeRow .. | .protect _ | .remove _ | .insertEligibility _ | .deleteEligibility _ => true
  | _ => false

def History.touch (h : History) (i : Nat) (harms : Bool) : History :=
  if harms then { h with harmed := i :: h.harmed } else h

def observe (h : History) (d : Device) (i : Nat) (remote : EndpointId) (m : RevokeNotice) :
    (op : Op) → Ans op → History
  | .findRow peer, .ok (some row) =>
    if concerns m.generation row then
      { h with revoking := (i,peer,m.generation) :: h.revoking }
    else h
  | .unlockPeer _, _ => { h with revoking := h.revoking.filter (·.1 ≠ i) }
  | o, _ => h.touch i (touches o && stale d remote m)

def record (h : History) (d : Device) (i : Nat) (call : Call) (o : Op) (r : Ans o) : History :=
  match call with
  | .revokeNotice remote m => observe h d i remote m o r
  | _ => h

abbrev State := Observed Device History

/-- Whatever is stored when the process starts. -/
def machine (l : Local) : Machine State Call Op Ans Choice Empty :=
  (domain l fun _ => True).observe .new record fun h _ _ => h

def isNotice : Call → Bool
  | .revokeNotice .. => true
  | _ => false

/-- The store has a tombstone of every stale generation that is looked for; and while a
notice that concerns a row is carried out, the row keeps its generation. -/
def guard : Guard State Call Op Choice Empty where
  starts _ _ := True
  steps s call o c := match o with
    | .findTombstone peer generation => isNotice call = true →
      c.fails = false ∧ asI64 generation ∈ s.state.tombstones peer
    | .writeRow peer w => c.fails = true ∨ ∀ x ∈ s.history.revoking, x.2.1 = peer →
      ∀ r ∈ w.onRow peer c.now (s.state.relationships.find peer),
        (s.state.relationships.find peer).map (·.generation) = some r.generation
    | _ => True
  events _ _ := True

structure Inv (s : State) : Prop where
  concerned : ∀ x ∈ s.history.revoking, ∀ r, s.state.relationships.find x.2.1 = some r →
    concerns x.2.2 r.row = true
  harmless : s.history.harmed = []

def Kept (i : Nat) (s t : State) : Prop :=
  ∀ x ∈ s.history.revoking, x.1 = i → x ∈ t.history.revoking

def terms : Terms State where
  known _ := True
  inv := Inv
  rely := Kept
  refl _ _ _ h _ := h
  trans _ _ _ _ f g x h own := g x (f x h own) own

abbrev Safely (l : Local) (i : Nat) (call : Call) {α : Type} (p : Task α) (post : α → State → Prop)
    (s : State) : Prop := Safe (machine l) guard terms i call p post s

section Steps

variable {l : Local} {s t : State} {i j : Nat} {call : Call} {c : Choice} {o : Op} {r : Ans o}

theorem concerns_congr {g : Nat} {r r' : Relationship} (same : r'.generation = r.generation) :
    concerns g r'.row = concerns g r.row := by
  unfold concerns Relationship.row
  rw [same]

/-- A notice changes something only about a row it concerns. -/
def Fits (s : State) (i : Nat) : Call → Op → Prop
  | .revokeNotice remote m, o => touches o = true → (i,remote,m.generation) ∈ s.history.revoking
  | _, _ => True

theorem revoking_after {h : History} {d d' : Device} {x : Nat × EndpointId × Nat}
    (performed : d.exec l i c o = some (r,d')) (there : x ∈ (record h d i call o r).revoking) :
    x ∈ h.revoking ∨ d' = d ∧ ∃ row, d.relationships.find x.2.1 = some row ∧
      concerns x.2.2 row.row = true := by
  unfold record at there
  split at there
  · unfold observe at there
    split at there
    · rename_i peer row
      split at there
      · rename_i concerned
        rcases List.mem_cons.mp there with rfl | before
        · obtain ⟨same,found⟩ := exec_findRow performed
          obtain ⟨stored,here,rfl⟩ := Option.map_eq_some_iff.mp (found _ rfl).symm
          exact .inr ⟨same,stored,here,concerned⟩
        · exact .inl before
      · exact .inl there
    · exact .inl (List.mem_of_mem_filter there)
    · unfold History.touch at there
      split at there <;> exact .inl there
  · exact .inl there

theorem Inv.step (inv : Inv s) (ok : guard.steps s call o c) (fits : Fits s i call o)
    (h : (machine l).exec s i call o c = some (r,t)) : Inv t := by
  obtain ⟨d,performed,rfl⟩ := domain_exec h
  constructor
  · intro x there row here
    dsimp only at there here
    rcases revoking_after performed there with before | ⟨rfl,stored,found,concerned⟩
    · by_cases writes : ∃ peer w, o = .writeRow peer w
      · obtain ⟨peer,w,rfl⟩ := writes
        rcases exec_writeRow performed with ⟨_,_,rfl⟩ | ⟨works,_,rfl⟩
        · exact inv.concerned x before row here
        · rw [Relationships.find_write] at here
          split at here
          · rename_i same
            have keeps := ok.resolve_left fun fails => by
              rw [works] at fails
              cases fails
            obtain ⟨old,was,generation⟩ := Option.map_eq_some_iff.mp (keeps x before same row here)
            rw [concerns_congr generation.symm]
            exact inv.concerned x before old (same ▸ was)
          · exact inv.concerned x before row here
      · rw [exec_relationships performed fun peer w same => writes ⟨peer,w,same⟩] at here
        exact inv.concerned x before row here
    · cases here.symm.trans found
      exact concerned
  · change (record s.history s.state i call o r).harmed = []
    unfold record
    split
    · rename_i remote m
      unfold observe
      split
      · split <;> exact inv.harmless
      · exact inv.harmless
      · unfold History.touch
        split
        · rename_i harms
          obtain ⟨touching,stale⟩ := Bool.and_eq_true_iff.mp harms
          obtain ⟨row,here,other⟩ := (Option.any_eq_true _ _).mp stale
          have concerned := inv.concerned _ (fits touching) row here
          simp [concerned] at other
        · exact inv.harmless
    · exact inv.harmless

theorem Kept.step (h : (machine l).exec s i call o c = some (r,t))
    (apart : j ≠ i ∨ [Kind.unlockPeer].contains o.kind = false) : Kept j s t := by
  obtain ⟨d,performed,rfl⟩ := domain_exec h
  intro x there own
  change x ∈ (record s.history s.state i call o r).revoking
  unfold record
  split
  · unfold observe
    split
    · split
      · exact List.mem_cons_of_mem _ there
      · exact there
    · rcases apart with other | apart
      · refine List.mem_filter.mpr ⟨there,?_⟩
        simp [own,other]
      · cases apart
    · unfold History.touch
      split <;> exact there
  · exact there

end Steps

section Calls

variable {α : Type} {l : Local} {s : State} {i : Nat} {call : Call} {peer : EndpointId}

theorem safe_others {p : Task α} (other : isNotice call = false) :
    Safely l i call p (fun _ _ => True) s := by
  induction p generalizing s with
  | ret a => trivial
  | step o k ih =>
    intro t _ inv _ c r u ok performed
    have fits : Fits t i call o := by
      cases call with
      | revokeNotice => cases other
      | _ => trivial
    exact ⟨⟨inv.step ok fits performed,fun j apart => Kept.step performed (.inl apart)⟩,ih r⟩

/-- What touches nothing. -/
abbrev touching : List Kind := [.upsert,.setPendingGeneration,.setIssuedGrant,.setHeldGrant,.setAcks,
  .setState,.beginGrantRotation,.refreshAuthenticatedPeer,.deleteRow,.protect,.remove,
  .insertEligibility,.deleteEligibility]

variable {m : RevokeNotice}

/-- The notice concerns the row, so it may do what it likes but release the lock. -/
def Revoking (i : Nat) (peer : EndpointId) (m : RevokeNotice) (s : State) : Prop :=
  (i,peer,m.generation) ∈ s.history.revoking

theorem safe_revoking {p : Task α} (apart : Avoids [.unlockPeer] p) (revoking : Revoking i peer m s) :
    Safely l i (.revokeNotice peer m) p (fun _ t => Revoking i peer m t) s := by
  induction p generalizing s with
  | ret a => exact revoking
  | step o k ih =>
    intro t _ inv kept c r u ok performed
    replace revoking : Revoking i peer m t := kept _ revoking rfl
    have fits : Fits t i (.revokeNotice peer m) o := fun _ => revoking
    exact ⟨⟨inv.step ok fits performed,fun j other => Kept.step performed (.inl other)⟩,
      ih r (apart.2 r) (Kept.step performed (.inr apart.1) _ revoking rfl)⟩

/-- An operation that touches nothing. -/
theorem safe_untouching {o : Op} (apart : touches o = false) :
    Safely l i (.revokeNotice peer m) (op o) (fun _ _ => True) s := by
  intro t _ inv _ c r u ok performed
  have fits : Fits t i (.revokeNotice peer m) o := fun touching => by
    rw [apart] at touching
    cases touching
  exact ⟨⟨inv.step ok fits performed,fun j other => Kept.step performed (.inl other)⟩,trivial⟩

/-- A stale notice finds its tombstone. -/
theorem safe_staleNotice {row : RelationshipRow} (other : concerns m.generation row = false) :
    Safely l i (.revokeNotice peer m) (staleNotice peer row m.generation)
      (fun ignored _ => ignored = true) s := by
  have looks : (row.generation ≠ m.generation && m.generation ≠ 0) = true := by
    simp only [concerns,Bool.or_eq_false_iff,decide_eq_false_iff_not] at other
    simp [other.1,other.2]
  unfold staleNotice
  rw [if_pos looks]
  intro t _ inv _ c r u ok performed
  have fits : Fits t i (.revokeNotice peer m) (.findTombstone peer m.generation) := nofun
  refine ⟨⟨inv.step ok fits performed,fun j other => Kept.step performed (.inl other)⟩,?_⟩
  obtain ⟨works,tombstone⟩ := ok rfl
  obtain ⟨d,looks,rfl⟩ := domain_exec performed
  change Device.read t.state c _ = _ at looks
  unfold Device.read at looks
  rw [works] at looks
  cases looks
  exact decide_eq_true tombstone

theorem staleNotice_concerned {row : RelationshipRow} (concerned : concerns m.generation row = true) :
    staleNotice peer row m.generation = (return false : Task Bool) := by
  unfold staleNotice
  simp only [concerns,Bool.or_eq_true,decide_eq_true_eq] at concerned
  rw [if_neg]
  rcases concerned with zero | same
  · simp [zero]
  · simp [same]

theorem safe_revokeNoticed :
    Safely l i (.revokeNotice peer m) (revokeNoticed l peer m.generation) (fun _ _ => True) s := by
  intro t _ inv _ c r u ok performed
  have fits : Fits t i (.revokeNotice peer m) (.findRow peer) := nofun
  refine ⟨⟨inv.step ok fits performed,fun j other => Kept.step performed (.inl other)⟩,?_⟩
  rcases r with e | _ | row
  · trivial
  · trivial
  cases concerned : concerns m.generation row with
  | false =>
    refine safe_bind (p := staleNotice peer row m.generation)
      (safe_mono (fun ignored v same => ?_) (safe_staleNotice concerned))
    rw [if_pos same]
    trivial
  | true =>
    have revoking : Revoking i peer m u := by
      obtain ⟨d,_,rfl⟩ := domain_exec performed
      change _ ∈ (if concerns m.generation row then _ else _ : History).revoking
      rw [if_pos concerned]
      exact List.mem_cons_self
    refine safe_bind (p := staleNotice peer row m.generation) ?_
    rw [staleNotice_concerned concerned]
    change Safely l i (.revokeNotice peer m) (do
      let _ ← op (.insertTombstone peer row)
      let _ ← deleteRelationship l peer
      let _ ← removeForPeer l peer
      return ()) (fun _ _ => True) u
    refine safe_mono (fun _ _ _ => trivial) (safe_revoking ?_ revoking)
    refine Prog.all_bind (Prog.all_perform rfl) fun _ => ?_
    refine Prog.all_bind (deleteRelationship_uses.avoids rfl) fun _ => ?_
    exact Prog.all_bind (removeForPeer_uses.avoids rfl) fun _ => trivial

theorem safe_handleRemoteRevoke :
    Safely l i (.revokeNotice peer m) (handleRemoteRevoke l peer m.generation) (fun _ _ => True) s := by
  refine safe_bind (safe_mono (fun _ t _ => ?_) (safe_untouching rfl))
  exact safe_bind (safe_mono (fun _ u _ => safe_untouching rfl) safe_revokeNoticed)

theorem safe_call : Safely l i call (call.body l) (fun _ _ => True) s := by
  cases call with
  | revokeNotice remote m =>
    exact safe_bind (safe_mono (fun _ t _ => safe_untouching rfl) safe_handleRemoteRevoke)
  | _ => exact safe_others rfl

end Calls

theorem reach_inv {l : Local} {c : Conf State Call Op Ans}
    (reach : Reach (machine l).system guard.holds c) : Inv c.shared := by
  have secured : Secured (machine l) guard terms (fun _ _ _ => True) c :=
    reach_secured (fun _ _ => trivial) ?_ (fun _ _ _ _ _ _ => safe_call)
      (fun _ _ _ _ _ _ => trivial) nofun reach
  · exact secured.inv
  · rintro ⟨d,h⟩ ⟨_,rfl⟩
    exact ⟨nofun,rfl⟩

theorem observe_touching {h : History} {d : Device} {i : Nat} {remote : EndpointId} {m : RevokeNotice}
    {o : Op} {r : Ans o} (touching : touches o = true) :
    observe h d i remote m o r = h.touch i (stale d remote m) := by
  cases o with
  | writeRow | protect | remove | insertEligibility | deleteEligibility => rfl
  | _ => cases touching

/-- What touches nothing leaves the rows, the grants and the eligibilities. -/
theorem exec_untouched {l : Local} {d d' : Device} {i : Nat} {c : Choice} {o : Op} {r : Ans o}
    (h : d.exec l i c o = some (r,d')) (apart : touches o = false) :
    d'.relationships = d.relationships ∧ d'.custody = d.custody ∧ d'.eligibilities = d.eligibilities := by
  cases o with
  | writeRow | protect | remove | insertEligibility | deleteEligibility => cases apart
  | _ =>
    simp only [Device.exec,Device.read,Device.attempt] at h
    repeat' split at h
    all_goals first
      | (cases h; done)
      | (cases h; exact ⟨rfl,rfl,rfl⟩)

/-- In every run whose steps meet the side condition, each step of a notice that does not
concern the row of its peer leaves the row, the grants and the eligibilities as they are. -/
theorem stale_notice_harmless {l : Local} {c d : Conf State Call Op Ans} {i : Nat} {choice : Choice}
    {peer : EndpointId} {m : RevokeNotice} {rest : Task Unit} {row : Relationship}
    (reach : Reach (machine l).system guard.holds c)
    (thread : c.threads[i]? = some ⟨.revokeNotice peer m,rest⟩)
    (here : c.shared.state.relationships.find peer = some row)
    (nonzero : m.generation ≠ 0) (other : row.row.generation ≠ m.generation)
    (mindful : guard.holds c (.act i choice))
    (step : (machine l).next c (.act i choice) = some d) :
    d.shared.state.relationships = c.shared.state.relationships ∧
    d.shared.state.custody = c.shared.state.custody ∧
    d.shared.state.eligibilities = c.shared.state.eligibilities := by
  have harmless := (reach_inv (reach.advance (.act i choice) mindful step)).harmless
  rcases next_cases step with ⟨_,same,_⟩ | ⟨j,choice',call,o,k,r,s,same,there,performed,rfl⟩ |
    ⟨_,_,same,_⟩
  · cases same
  · cases same
    cases there.symm.trans thread
    obtain ⟨x,ran,rfl⟩ := domain_exec performed
    refine exec_untouched ran ?_
    cases touching : touches o with
    | false => rfl
    | true =>
      have stands : stale c.shared.state peer m = true := by
        simp [stale,here,concerns,nonzero,other]
      change (record c.shared.history c.shared.state i (.revokeNotice peer m) o r).harmed = [] at harmless
      simp [record,observe_touching touching,History.touch,stands] at harmless
  · cases same

/-! Device 2 asks to be paired, is declined, and asks again. -/

namespace Sample

open Pairing.Sample

def start : Conf State Call Op Ans := ⟨⟨.new,.new⟩,[]⟩

theorem started {l : Local} : (machine l).system.init start := ⟨⟨⟨trivial,fun _ => rfl⟩,rfl⟩,rfl⟩

/-- A receive from device 2 completes, and device 2 asks to be paired. -/
def asks (i : Nat) (sessionId : SessionId) (generation : Nat) : List (Label Call Choice Empty) :=
  starts (.received 2 none sessionId 1) :: List.replicate 3 (act i) ++ draws i sessionId ::
    List.replicate 2 (act i) ++
  starts (.pairingRequest 2 ⟨sessionId,1 + sessionId,1,generation⟩) :: List.replicate 15 (act (i + 1))

/-- The user declines, and device 2 asks again with the next generation. -/
def again : List (Label Call Choice Empty) :=
  asks 0 7 1 ++ starts (.respondToPairing 2 false) :: List.replicate 12 (act 2) ++ asks 3 8 2

/-- The notice of the first generation arrives. -/
def late : List (Label Call Choice Empty) :=
  again ++ starts (.revokeNotice 2 ⟨1,none⟩) :: List.replicate 6 (act 5)

/-- Device 1 forgets the first generation instead. -/
def forgets : List (Label Call Choice Empty) :=
  asks 0 7 1 ++ starts (.forgetSavedDevice 2) :: List.replicate 11 (act 2) ++ asks 3 8 2 ++
    starts (.revokeNotice 2 ⟨1,none⟩) :: List.replicate 2 (act 5)

def after (labels : List (Label Call Choice Empty)) : Conf State Call Op Ans :=
  ((machine device).system.run start labels).getD start

end Sample

open Pairing.Sample Notice.Sample in
/-- The notice of generation 1 deletes the row of generation 2. -/
theorem stale_notice_harmful :
    (machine device).system.init start ∧
    (machine device).system.run start again = some (after again) ∧
    ((after again).shared.state.relationships.find 2).map (·.generation) = some 2 ∧
    (machine device).system.run start late = some (after late) ∧
    (after late).shared.state.relationships.find 2 = none :=
  ⟨started,rfl,rfl,rfl,rfl⟩

instance (s : State) (call : Call) : Decidable (guard.starts s call) := isTrue trivial

instance (s : State) (e : Empty) : Decidable (guard.events s e) := isTrue trivial

instance (s : State) (call : Call) (o : Op) (c : Choice) : Decidable (guard.steps s call o c) :=
  match o with
  | .findTombstone .. => inferInstanceAs (Decidable (_ → _))
  | .writeRow .. => inferInstanceAs (Decidable (_ ∨ _))
  | .findRow _ | .countActiveSlots | .generationFloor _ | .insertTombstone ..
  | .listExpiredPendingPeers _ | .eligibilitiesFor _ | .expiredEligibilities _ | .findBySession _
  | .insertEligibility _ | .deleteEligibility _ | .completeReceiverDelivery .. | .protect _ | .load _
  | .remove _ | .isBlocked _ | .blockEndpoint _ | .unblockEndpoint _ | .lockPeer _ | .unlockPeer _
  | .generate | .nowMs | .cancelTargetedTransfers _ | .peerAddr _ | .send .. | .awaitRequest _
  | .awaitConsent _ | .awaitAck _ | .answer .. | .returned _ | .verification .. | .taken _ =>
    isTrue trivial

set_option maxRecDepth 2000 in
open Pairing.Sample Notice.Sample in
/-- The notice of the forgotten generation finds its tombstone. -/
theorem stale_notice_harmless_forgotten :
    ((after forgets).shared.state.relationships.find 2).map (·.generation) = some 2 ∧
    (after (forgets ++ [act 5])).shared.state.relationships = (after forgets).shared.state.relationships := by
  have reach : Reach (machine device).system guard.holds (after forgets) :=
    (Reach.start _ started).run (by decide)
      (show (machine device).system.run _ forgets = some _ from rfl)
  exact ⟨rfl,(stale_notice_harmless reach (i := 5) (m := ⟨1,none⟩) rfl rfl (by decide) (by decide)
    (by decide) (show (machine device).next (after forgets) (act 5) = some _ from rfl)).1⟩

end Vnidrop.Pairing.Notice
