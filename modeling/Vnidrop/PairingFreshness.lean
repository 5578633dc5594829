import Vnidrop.PairingOps

/-! Acks of the peer. An ack bears a challenge and a proof over it; the challenge is to be one
that the device has sent out with a grant, and no second ack is to be accepted with it. -/
namespace Vnidrop.Pairing.Freshness

open Programs Runs

/-- A challenge that went out with a grant of the generation. -/
structure Issue where
  peer : EndpointId
  challenge : Text
  generation : Nat
  deriving DecidableEq, Repr

/-- An ack that has saved the relationship: whether its challenge had been issued for its
generation, and whether the row it saved was in that generation. -/
structure Acceptance where
  peer : EndpointId
  challenge : Text
  issued : Bool
  current : Bool
  deriving DecidableEq, Repr

/-- The challenges issued; the handlers of acks with the rows they have found; the acks whose
proof was genuine, until they save the relationship or are answered; those that have saved it. -/
structure History where
  issued : List Issue
  handling : List (Nat × EndpointId × Nat)
  proven : List (Nat × EndpointId × Text)
  accepted : List Acceptance

namespace History

def new : History := ⟨[],[],[],[]⟩

/-- What is known when the process starts; the handlers of before are gone. -/
def restarted (h : History) : History := ⟨h.issued,[],[],h.accepted⟩

def answered (h : History) : Op → History
  | .answer peer (.consent (.completed grant _ challenge)) =>
    { h with issued := ⟨peer,challenge,grant.generation⟩ :: h.issued }
  | _ => h

def finish (h : History) (i : Nat) : History :=
  { h with handling := h.handling.filter (·.1 ≠ i), proven := h.proven.filter (·.1 ≠ i) }

def accept (h : History) (d : Device) (i : Nat) (peer : EndpointId) (m : PairingAck) : History :=
  { h with
    proven := h.proven.erase (i,peer,m.challenge)
    accepted := ⟨peer,m.challenge,⟨peer,m.challenge,m.generation⟩ ∈ h.issued,
      (d.relationships.find peer).all fun r => r.row.generation = m.generation⟩ :: h.accepted }

end History

/-- The proof is that of the challenge, under this secret. -/
def genuine (l : Local) (remote : EndpointId) (m : PairingAck) (secret : Text) : Bool :=
  l.decodesGrantId m.possessionProof.grantId && l.decodesMac m.possessionProof.mac &&
    m.possessionProof.mac =
      l.relationshipMac secret m.challenge l.endpointId remote m.generation m.protocolVersion

def observe (l : Local) (h : History) (d : Device) (i : Nat) (remote : EndpointId) (m : PairingAck) :
    (op : Op) → Ans op → History
  | .findRow peer, .ok (some row) => { h with handling := (i,peer,row.generation) :: h.handling }
  | .load _, .ok secret =>
    if genuine l remote m secret then { h with proven := (i,remote,m.challenge) :: h.proven } else h
  | .writeRow peer (.setState .saved), .ok _ => h.accept d i peer m
  | .answer .., _ => h.finish i
  | _, _ => h

def record (l : Local) (h : History) (d : Device) (i : Nat) (call : Call) (o : Op) (r : Ans o) : History :=
  match call with
  | .pairingAck remote m => observe l h d i remote m o r
  | _ => h.answered o

abbrev State := Observed Device History

/-- Whatever is stored when the process starts. -/
def machine (l : Local) (earlier : History) : Machine State Call Op Ans Choice Empty :=
  (domain l fun _ => True).observe earlier.restarted (record l) fun h _ _ => h

/-- The challenge of the ack has been issued for its generation, and no genuine ack bore it. -/
structure Unused (h : History) (remote : EndpointId) (m : PairingAck) : Prop where
  issued : ⟨remote,m.challenge,m.generation⟩ ∈ h.issued
  proven : ∀ x ∈ h.proven, x.2 ≠ (remote,m.challenge)
  accepted : ∀ a ∈ h.accepted, (a.peer,a.challenge) ≠ (remote,m.challenge)

instance (h : History) (remote : EndpointId) (m : PairingAck) : Decidable (Unused h remote m) :=
  decidable_of_iff (⟨remote,m.challenge,m.generation⟩ ∈ h.issued ∧
    (∀ x ∈ h.proven, x.2 ≠ (remote,m.challenge)) ∧
    ∀ a ∈ h.accepted, (a.peer,a.challenge) ≠ (remote,m.challenge))
    ⟨fun h => ⟨h.1,h.2.1,h.2.2⟩,fun h => ⟨h.issued,h.proven,h.accepted⟩⟩

/-- An ack whose proof is genuine bears an unused challenge. -/
def Bears (l : Local) (h : History) (secret : Text) : Call → Prop
  | .pairingAck remote m => genuine l remote m secret = true → Unused h remote m
  | _ => True

/-- No ack whose proof is genuine under the secret it is compared with bears another
challenge; and while an ack is handled, the row it has found keeps its generation. -/
def guard (l : Local) : Guard State Call Op Choice Empty where
  starts _ _ := True
  steps s call o c := match o with
    | .load handle => c.fails = true ∨ ∀ secret ∈ s.state.custody handle, Bears l s.history secret call
    | .writeRow peer w => c.fails = true ∨ ∀ x ∈ s.history.handling, x.2.1 = peer →
      ∀ r ∈ w.onRow peer c.now (s.state.relationships.find peer),
        (s.state.relationships.find peer).map (·.generation) = some r.generation
    | _ => True
  events _ _ := True

/-- Each accepted ack bore a challenge issued for the generation it saved, and one is accepted
with each. -/
structure Fresh (h : History) : Prop where
  issued : ∀ a ∈ h.accepted, a.issued = true ∧ a.current = true
  once : (h.accepted.map fun a => (a.peer,a.challenge)).Nodup

structure Inv (s : State) : Prop where
  issued : ∀ a ∈ s.history.accepted, a.issued = true ∧ a.current = true
  once : (s.history.proven.map (·.2) ++ s.history.accepted.map fun a => (a.peer,a.challenge)).Nodup
  found : ∀ x ∈ s.history.handling, ∀ r, s.state.relationships.find x.2.1 = some r → r.row.generation = x.2.2

/-- What thread `i` relies on: what has been issued, the rows it has found and its genuine ack. -/
structure Kept (i : Nat) (s t : State) : Prop where
  issued : ∀ x ∈ s.history.issued, x ∈ t.history.issued
  handling : ∀ x ∈ s.history.handling, x.1 = i → x ∈ t.history.handling
  proven : ∀ x ∈ s.history.proven, x.1 = i → x ∈ t.history.proven

theorem Kept.refl (i : Nat) (s : State) : Kept i s s := ⟨fun _ h => h,fun _ h _ => h,fun _ h _ => h⟩

theorem Kept.trans {i : Nat} {s t u : State} (f : Kept i s t) (g : Kept i t u) : Kept i s u where
  issued x h := g.issued x (f.issued x h)
  handling x h own := g.handling x (f.handling x h own) own
  proven x h own := g.proven x (f.proven x h own) own

def terms : Terms State where
  known _ := True
  inv := Inv
  rely := Kept
  refl := Kept.refl
  trans i := Kept.trans (i := i)

abbrev Safely (l : Local) (earlier : History) (i : Nat) (call : Call) {α : Type} (p : Task α)
    (post : α → State → Prop) (s : State) : Prop := Safe (machine l earlier) (guard l) terms i call p post s

/-- Thread `i` has found the row in the generation of the ack, and its proof genuine. -/
structure Proven (i : Nat) (remote : EndpointId) (m : PairingAck) (s : State) : Prop where
  issued : ⟨remote,m.challenge,m.generation⟩ ∈ s.history.issued
  handling : (i,remote,m.generation) ∈ s.history.handling
  proven : (i,remote,m.challenge) ∈ s.history.proven

/-- An ack saves the relationship only after its proof has been found genuine. -/
def Fits (s : State) (i : Nat) : Call → Op → Prop
  | .pairingAck remote m, o => ∀ peer, o = .writeRow peer (.setState .saved) → peer = remote ∧ Proven i remote m s
  | _, _ => True

section Steps

variable {l : Local} {earlier h : History} {s t : State} {d d' : Device} {i j : Nat} {call : Call} {c : Choice}
  {o : Op} {r : Ans o} {remote : EndpointId} {m : PairingAck}

theorem Proven.later (proven : Proven i remote m s) (kept : Kept i s t) : Proven i remote m t :=
  ⟨kept.issued _ proven.issued,kept.handling _ proven.handling rfl,kept.proven _ proven.proven rfl⟩

/-- An answer to a consent may issue a challenge. -/
theorem answered_cases (o : Op) : h.answered o = h ∨
    ∃ issue, h.answered o = { h with issued := issue :: h.issued } := by
  unfold History.answered
  split
  · exact .inr ⟨_,rfl⟩
  · exact .inl rfl

/-- What an operation of an ack does to the history. -/
theorem observe_cases (h : History) (d : Device) (i : Nat) (remote : EndpointId) (m : PairingAck) (o : Op)
    (r : Ans o) : observe l h d i remote m o r = h ∨
    (∃ peer row, (⟨o,r⟩ : Sigma Ans) = ⟨.findRow peer,.ok (some row)⟩ ∧
      observe l h d i remote m o r = { h with handling := (i,peer,row.generation) :: h.handling }) ∨
    (∃ handle secret, (⟨o,r⟩ : Sigma Ans) = ⟨.load handle,.ok secret⟩ ∧ genuine l remote m secret = true ∧
      observe l h d i remote m o r = { h with proven := (i,remote,m.challenge) :: h.proven }) ∨
    (∃ peer, o = .writeRow peer (.setState .saved) ∧ observe l h d i remote m o r = h.accept d i peer m) ∨
    (∃ peer reply, o = .answer peer reply ∧ observe l h d i remote m o r = h.finish i) := by
  unfold observe
  split
  · exact .inr (.inl ⟨_,_,rfl,rfl⟩)
  · split
    · rename_i real
      exact .inr (.inr (.inl ⟨_,_,rfl,real,rfl⟩))
    · exact .inl rfl
  · exact .inr (.inr (.inr (.inl ⟨_,rfl,rfl⟩)))
  · exact .inr (.inr (.inr (.inr ⟨_,_,rfl,rfl⟩)))
  · exact .inl rfl

/-- A handler that has found a row has found it as it stands. -/
theorem handling_after {x : Nat × EndpointId × Nat} (performed : d.exec l i c o = some (r,d'))
    (there : x ∈ (record l h d i call o r).handling) : x ∈ h.handling ∨
      d' = d ∧ ∃ row, d.relationships.find x.2.1 = some row ∧ row.row.generation = x.2.2 := by
  unfold record at there
  split at there
  · rename_i remote m
    obtain same | ⟨peer,row,looked,same⟩ | ⟨_,_,_,_,same⟩ | ⟨_,_,same⟩ | ⟨_,_,_,same⟩ :=
      observe_cases (l := l) h d i remote m o r
    · rw [same] at there
      exact .inl there
    · rw [same] at there
      obtain rfl | before := List.mem_cons.mp there
      · cases looked
        obtain ⟨unchanged,found⟩ := exec_findRow performed
        obtain ⟨stored,here,rfl⟩ := Option.map_eq_some_iff.mp (found _ rfl).symm
        exact .inr ⟨unchanged,stored,here,rfl⟩
      · exact .inl before
    · rw [same] at there
      exact .inl there
    · rw [same] at there
      exact .inl there
    · rw [same] at there
      exact .inl (List.mem_of_mem_filter there)
  · obtain same | ⟨issue,same⟩ := answered_cases (h := h) o
    · rw [same] at there
      exact .inl there
    · rw [same] at there
      exact .inl there

/-- The rows that handlers have found keep their generations. -/
theorem found_after (inv : Inv s) (ok : (guard l).steps s call o c)
    (performed : s.state.exec l i c o = some (r,d')) :
    ∀ x ∈ (record l s.history s.state i call o r).handling, ∀ row, d'.relationships.find x.2.1 = some row →
      row.row.generation = x.2.2 := by
  intro x there row here
  obtain before | ⟨rfl,stored,found,generation⟩ := handling_after performed there
  · by_cases writes : ∃ peer w, o = .writeRow peer w
    · obtain ⟨peer,w,rfl⟩ := writes
      obtain ⟨_,_,rfl⟩ | ⟨works,_,rfl⟩ := exec_writeRow performed
      · exact inv.found x before row here
      · rw [Relationships.find_write] at here
        split at here
        · rename_i same
          have keeps := ok.resolve_left fun fails => by
            rw [works] at fails
            cases fails
          obtain ⟨old,was,generation⟩ := Option.map_eq_some_iff.mp (keeps x before same row here)
          have before := inv.found x before old (same ▸ was)
          unfold Relationship.row at before ⊢
          rw [← generation]
          exact before
        · exact inv.found x before row here
    · rw [exec_relationships performed fun peer w same => writes ⟨peer,w,same⟩] at here
      exact inv.found x before row here
  · cases here.symm.trans found
    exact generation

theorem Inv.step (inv : Inv s) (ok : (guard l).steps s call o c) (fits : Fits s i call o)
    (performed : (machine l earlier).exec s i call o c = some (r,t)) : Inv t := by
  obtain ⟨d,ran,rfl⟩ := domain_exec performed
  have found := found_after inv ok ran
  suffices recorded : (∀ a ∈ (record l s.history s.state i call o r).accepted,
        a.issued = true ∧ a.current = true) ∧
      ((record l s.history s.state i call o r).proven.map (·.2) ++
        (record l s.history s.state i call o r).accepted.map fun a => (a.peer,a.challenge)).Nodup from
    ⟨recorded.1,recorded.2,found⟩
  clear found
  unfold record
  split
  · rename_i remote m
    obtain same | ⟨_,_,_,same⟩ | ⟨handle,secret,loaded,real,same⟩ | ⟨peer,saves,same⟩ | ⟨_,_,_,same⟩ :=
      observe_cases (l := l) s.history s.state i remote m o r
    · rw [same]
      exact ⟨inv.issued,inv.once⟩
    · rw [same]
      exact ⟨inv.issued,inv.once⟩
    · cases loaded
      obtain ⟨works,held⟩ := exec_load ran
      have bears := ok.resolve_left fun fails => by
        rw [works] at fails
        cases fails
      have unused : Unused s.history remote m := bears secret held real
      rw [same]
      refine ⟨inv.issued,List.nodup_cons.mpr ⟨fun used => ?_,inv.once⟩⟩
      obtain earlier | accepted := List.mem_append.mp used
      · obtain ⟨x,listed,taken⟩ := List.mem_map.mp earlier
        exact unused.proven x listed taken
      · obtain ⟨a,listed,taken⟩ := List.mem_map.mp accepted
        exact unused.accepted a listed taken
    · obtain ⟨rfl,proven⟩ : peer = remote ∧ Proven i remote m s := fits peer saves
      rw [same]
      constructor
      · intro a listed
        obtain rfl | before := List.mem_cons.mp listed
        · refine ⟨decide_eq_true proven.issued,?_⟩
          refine (Option.all_eq_true _ _).mpr fun row here => decide_eq_true ?_
          exact inv.found _ proven.handling row here
        · exact inv.issued a before
      · have moved : (s.history.proven.map (·.2)).Perm
            ((peer,m.challenge) :: (s.history.proven.erase (i,peer,m.challenge)).map (·.2)) :=
          (List.perm_cons_erase proven.proven).map (·.2)
        exact (List.perm_middle.trans (moved.symm.append_right _)).nodup_iff.mpr inv.once
    · rw [same]
      refine ⟨inv.issued,inv.once.sublist (List.Sublist.append_right ?_ _)⟩
      exact List.filter_sublist.map _
  · obtain same | ⟨issue,same⟩ := answered_cases (h := s.history) o
    · rw [same]
      exact ⟨inv.issued,inv.once⟩
    · rw [same]
      exact ⟨inv.issued,inv.once⟩

/-- What ends the handling of an ack. -/
abbrev ending : List Kind := [.setState,.answer]

theorem Kept.step (performed : (machine l earlier).exec s i call o c = some (r,t))
    (apart : j ≠ i ∨ ending.contains o.kind = false) : Kept j s t := by
  obtain ⟨d,ran,rfl⟩ := domain_exec performed
  unfold record
  split
  · rename_i remote m
    obtain same | ⟨_,_,_,same⟩ | ⟨_,_,_,_,same⟩ | ⟨peer,rfl,same⟩ | ⟨_,_,rfl,same⟩ :=
      observe_cases (l := l) s.history s.state i remote m o r
    · rw [same]
      exact ⟨fun _ h => h,fun _ h _ => h,fun _ h _ => h⟩
    · rw [same]
      exact ⟨fun _ h => h,fun _ h _ => List.mem_cons_of_mem _ h,fun _ h _ => h⟩
    · rw [same]
      exact ⟨fun _ h => h,fun _ h _ => h,fun _ h _ => List.mem_cons_of_mem _ h⟩
    · have other : j ≠ i := apart.resolve_right fun avoids => by cases avoids
      rw [same]
      refine ⟨fun _ h => h,fun _ h _ => h,fun x h own => (List.mem_erase_of_ne fun is => ?_).mpr h⟩
      rw [is] at own
      exact other own.symm
    · have other : j ≠ i := apart.resolve_right fun avoids => by cases avoids
      rw [same]
      refine ⟨fun _ h => h,fun x h own => List.mem_filter.mpr ⟨h,?_⟩,
        fun x h own => List.mem_filter.mpr ⟨h,?_⟩⟩
      · simp [own,other]
      · simp [own,other]
  · obtain same | ⟨issue,same⟩ := answered_cases (h := s.history) o
    · rw [same]
      exact ⟨fun _ h => h,fun _ h _ => h,fun _ h _ => h⟩
    · rw [same]
      exact ⟨fun _ h => List.mem_cons_of_mem _ h,fun _ h _ => h,fun _ h _ => h⟩

end Steps

section Calls

variable {α : Type} {l : Local} {earlier : History} {s : State} {i : Nat} {call : Call}

def isAck : Call → Bool
  | .pairingAck .. => true
  | _ => false

theorem safe_others {p : Task α} (other : isAck call = false) :
    Safely l earlier i call p (fun _ _ => True) s := by
  induction p generalizing s with
  | ret a => trivial
  | step o k ih =>
    intro t _ inv _ c r u ok performed
    have fits : Fits t i call o := by
      cases call with
      | pairingAck => cases other
      | _ => trivial
    exact ⟨⟨inv.step ok fits performed,fun j apart => Kept.step performed (.inl apart)⟩,ih r⟩

variable {remote : EndpointId} {m : PairingAck}

/-- A step of an ack that does not save the relationship. -/
theorem ack_step {t u : State} {c : Choice} {o : Op} {r : Ans o} (apart : ending.contains o.kind = false)
    (inv : Inv t) (ok : (guard l).steps t (.pairingAck remote m) o c)
    (performed : (machine l earlier).exec t i (.pairingAck remote m) o c = some (r,u)) :
    (Inv u ∧ ∀ j, j ≠ i → Kept j t u) ∧ Kept i t u := by
  have fits : Fits t i (.pairingAck remote m) o := by
    rintro peer rfl
    cases apart
  exact ⟨⟨inv.step ok fits performed,fun j other => Kept.step performed (.inl other)⟩,
    Kept.step performed (.inr apart)⟩

theorem safe_apart {p : Task α} (apart : Avoids ending p) (s : State) :
    Safely l earlier i (.pairingAck remote m) p (fun _ t => Kept i s t) s := by
  suffices from_ : ∀ t, Kept i s t → Safely l earlier i (.pairingAck remote m) p (fun _ t => Kept i s t) t from
    from_ s (.refl i s)
  induction p with
  | ret a => exact fun t kept => kept
  | step o k ih =>
    intro t kept u _ inv later c r v ok performed
    obtain ⟨safe,own⟩ := ack_step apart.1 inv ok performed
    exact ⟨safe,ih r (apart.2 r) v ((kept.trans later).trans own)⟩

/-- The generation of an ack is that of the row. -/
theorem safe_rejectReplayed (generation : Nat) (s : State) :
    Safely l earlier i (.pairingAck remote m) (rejectReplayedGeneration remote generation) (fun rejection t =>
      rejection = none → (i,remote,generation) ∈ t.history.handling) s := by
  refine safe_bind (safe_mono (fun revoked t _ => ?_) (safe_apart (p := op (.findTombstone remote generation))
    (Prog.all_perform rfl) s))
  split
  · exact nofun
  · exact nofun
  intro u _ inv _ c r v ok performed
  obtain ⟨safe,-⟩ := ack_step rfl inv ok performed
  refine ⟨safe,?_⟩
  rcases r with e | _ | row
  · exact nofun
  · exact nofun
  change Safely l earlier i (.pairingAck remote m)
    (if (row.state.pending || row.state = .saved) && row.generation = generation then return none
      else return some .unknown : Task (Option GrantRejection)) _ v
  split
  · rename_i active
    have current := of_decide_eq_true (Bool.and_eq_true_iff.mp active).2
    intro _
    obtain ⟨d,_,rfl⟩ := domain_exec performed
    rw [← current]
    exact List.mem_cons_self
  · exact nofun

theorem safe_compareProof (handling : (i,remote,m.generation) ∈ s.history.handling) :
    Safely l earlier i (.pairingAck remote m)
      (compareProof l remote m.challenge m.possessionProof m.generation m.protocolVersion)
      (fun outcome t => ∀ a, outcome = .ok a → Proven i remote m t) s := by
  unfold compareProof
  split
  · exact fun _ => nofun
  refine safe_andThen (safe_mono (fun found t kept => ⟨fun row _ => ?_,fun _ _ _ => nofun⟩)
    (safe_apart (p := op (.findRow remote)) (Prog.all_perform rfl) s))
  replace handling := kept.handling _ handling rfl
  cases row with
  | none => exact fun _ => nofun
  | some row =>
    dsimp only
    split
    · exact fun _ => nofun
    · exact fun _ => nofun
    rename_i handle expectedId _ _
    split
    · exact fun _ => nofun
    refine safe_andThen fun u _ inv later c r v ok performed => ?_
    obtain ⟨safe,own⟩ := ack_step rfl inv ok performed
    replace handling := (later.trans own).handling _ handling rfl
    refine ⟨safe,fun secret loaded => ?_,fun _ _ _ => nofun⟩
    cases loaded
    split
    · exact fun _ => nofun
    split
    · exact fun _ => nofun
    split
    · exact fun _ => nofun
    rename_i named decoded same
    intro _ _
    have real : genuine l remote m secret = true := by
      simp only [Bool.not_eq_true,Bool.not_eq_false'] at named decoded
      exact Bool.and_eq_true_iff.mpr ⟨Bool.and_eq_true_iff.mpr ⟨named,decoded⟩,decide_eq_true (not_not.mp same)⟩
    obtain ⟨d,ran,rfl⟩ := domain_exec performed
    obtain ⟨works,held⟩ := exec_load ran
    have bears := ok.resolve_left fun fails => by
      rw [works] at fails
      cases fails
    have unused : Unused u.history remote m := bears secret held real
    have recorded : observe l u.history u.state i remote m (.load handle) (.ok secret) =
        { u.history with proven := (i,remote,m.challenge) :: u.history.proven } := if_pos real
    refine ⟨?_,handling,?_⟩
    · change _ ∈ (observe l u.history u.state i remote m (.load handle) (.ok secret)).issued
      rw [recorded]
      exact unused.issued
    · change _ ∈ (observe l u.history u.state i remote m (.load handle) (.ok secret)).proven
      rw [recorded]
      exact List.mem_cons_self

theorem safe_verifyIssued (s : State) :
    Safely l earlier i (.pairingAck remote m)
      (verifyIssuedPossession l remote m.challenge m.possessionProof m.generation m.protocolVersion)
      (fun outcome t => ∀ a, outcome = .ok a → Proven i remote m t) s := by
  have checked : Safely l earlier i (.pairingAck remote m)
      (checkPossession l remote m.challenge m.possessionProof m.generation m.protocolVersion)
      (fun outcome t => ∀ a, outcome = .ok a → Proven i remote m t) s := by
    refine safe_bind (safe_mono (fun rejection t found => ?_) (safe_rejectReplayed m.generation s))
    cases rejection with
    | some rejection => exact fun _ => nofun
    | none => exact safe_compareProof (found rfl)
  refine safe_bind (safe_mono (fun outcome t proven => ?_) checked)
  cases outcome with
  | ok a =>
    refine safe_bind (safe_mono (fun _ u kept => ?_) (safe_apart
      (p := op (.verification remote m.challenge m.generation true)) (Prog.all_perform rfl) t))
    exact fun _ _ => (proven a rfl).later kept
  | error e =>
    exact safe_bind (safe_mono (fun _ _ _ _ => nofun) (safe_apart
      (p := op (.verification remote m.challenge m.generation false)) (Prog.all_perform rfl) t))

theorem safe_acceptAck (s : State) :
    Safely l earlier i (.pairingAck remote m) (acceptAck l remote m) (fun _ _ => True) s := by
  refine safe_andThen (safe_mono (fun _ t proven => ⟨fun a verified => ?_,fun _ _ => trivial⟩)
    (safe_verifyIssued s))
  replace proven := proven a verified
  refine safe_andThen (safe_mono (fun _ u kept => ⟨fun _ _ => ?_,fun _ _ => trivial⟩)
    (safe_apart (p := write remote (.setAcks true true)) (Prog.all_perform rfl) t))
  replace proven := proven.later kept
  refine safe_andThen fun v _ inv kept c r w ok performed => ?_
  have fits : Fits v i (.pairingAck remote m) (.writeRow remote (.setState .saved)) := by
    rintro peer is
    cases is
    exact ⟨rfl,proven.later kept⟩
  exact ⟨⟨inv.step ok fits performed,fun j other => Kept.step performed (.inl other)⟩,
    fun _ _ => trivial,fun _ _ => trivial⟩

theorem safe_handlePairingAck (s : State) :
    Safely l earlier i (.pairingAck remote m) (handlePairingAck l remote m) (fun _ _ => True) s := by
  refine safe_bind (safe_mono (fun blocked t _ => ?_) (safe_apart (p := op (.isBlocked remote))
    (Prog.all_perform rfl) s))
  split
  · trivial
  refine safe_bind (safe_mono (fun found u _ => ?_) (safe_apart (p := op (.findRow remote))
    (Prog.all_perform rfl) t))
  split
  · split
    · trivial
    split
    · trivial
    split
    · trivial
    refine safe_bind (safe_mono (fun outcome v _ => ?_) (safe_acceptAck u))
    cases outcome <;> trivial
  · trivial

theorem safe_call (s : State) : Safely l earlier i call (call.body l) (fun _ _ => True) s := by
  cases call with
  | pairingAck remote m =>
    refine safe_bind (safe_mono (fun response t _ => ?_) (safe_handlePairingAck s))
    intro u _ inv _ c r v ok performed
    have fits : Fits u i (.pairingAck remote m) (.answer remote (.ack response)) := fun _ => nofun
    exact ⟨⟨inv.step ok fits performed,fun j other => Kept.step performed (.inl other)⟩,trivial⟩
  | _ => exact safe_others rfl

end Calls

/-- In every run in which no ack with a genuine proof bears a challenge that is not issued or
is used, and no row changes its generation while an ack is handled that has found it, an ack
is accepted only with a challenge issued for the generation it saves, and one with each. -/
theorem acks_fresh {l : Local} {earlier : History} {c : Conf State Call Op Ans} (sound : Fresh earlier)
    (reach : Reach (machine l earlier).system (guard l).holds c) : Fresh c.shared.history := by
  have secured : Secured (machine l earlier) (guard l) terms (fun _ _ _ => True) c :=
    reach_secured (fun _ _ => trivial) ?_ (fun _ _ _ _ _ _ => safe_call _)
      (fun _ _ _ _ _ _ => trivial) nofun reach
  · have inv : Inv c.shared := secured.inv
    exact ⟨inv.issued,inv.once.sublist (List.sublist_append_right _ _)⟩
  · rintro ⟨d,h⟩ ⟨_,rfl⟩
    exact ⟨sound.issued,sound.once,nofun⟩

/-! Device 1 asks device 2, which consents and is answered with a challenge; its ack follows. -/

namespace Sample

open Pairing.Sample

def start : Conf State Call Op Ans := ⟨⟨.new,History.restarted .new⟩,[]⟩

theorem started {l : Local} : (machine l .new).system.init start := ⟨⟨⟨trivial,fun _ => rfl⟩,rfl⟩,rfl⟩

/-- Device 1 mints secret 3 as grant 4 and issues challenge 6. -/
def completed : List (Label Call Choice Empty) :=
  received 0 ++ starts (.requestPairing 2) :: List.replicate 22 (act 1) ++
  starts (.pairingConsent 2 ⟨true,some ⟨20,21,2,1,1,1⟩,some 22,1,1⟩) :: List.replicate 2 (act 2) ++
    [draws 2 2,act 2,draws 2 3,draws 2 4,draws 2 5,act 2,act 2,act 2,draws 2 6,act 2,act 2]

/-- Device 2 proves that it holds secret 3, over a challenge. -/
def acknowledges (challenge : Text) : List (Label Call Choice Empty) :=
  starts (.pairingAck 2 ⟨⟨4,3 + challenge,challenge⟩,challenge,1,1⟩) :: List.replicate 10 (act 3)

def after (challenge : Text) : Conf State Call Op Ans :=
  ((machine device .new).system.run start (completed ++ acknowledges challenge)).getD start

end Sample

open Pairing.Sample Freshness.Sample in
/-- Challenge 9 has not been issued, and the ack that bears it saves the relationship. -/
theorem unissued_accepted :
    (machine device .new).system.init start ∧
    (machine device .new).system.run start (completed ++ acknowledges 9) = some (after 9) ∧
    ((after 9).shared.state.relationships.find 2).map (·.state) = some .saved ∧
    (after 9).shared.history.issued = [⟨2,6,1⟩] ∧
    (after 9).shared.history.accepted = [⟨2,9,false,true⟩] ∧
    ¬Fresh (after 9).shared.history :=
  ⟨started,rfl,rfl,rfl,rfl,fun fresh => absurd (fresh.issued ⟨2,9,false,true⟩ List.mem_cons_self).1 (by decide)⟩

instance (l : Local) (h : History) (secret : Text) (call : Call) : Decidable (Bears l h secret call) :=
  match call with
  | .pairingAck .. => inferInstanceAs (Decidable (_ → _))
  | .requestPairing _ | .respondToPairing .. | .forgetSavedDevice _ | .blockDevice _ | .unblockDevice _
  | .rotateRelationshipGrant _ | .listDeviceRelationships | .listPairingEligibilities
  | .declinePairingEligibility _ | .received .. | .pairingRequest .. | .pairingConsent ..
  | .revokeNotice .. | .deliveryReceipt .. | .savedPossession .. => isTrue trivial

instance {l : Local} (s : State) (call : Call) : Decidable ((guard l).starts s call) := isTrue trivial

instance {l : Local} (s : State) (e : Empty) : Decidable ((guard l).events s e) := isTrue trivial

instance {l : Local} (s : State) (call : Call) (o : Op) (c : Choice) : Decidable ((guard l).steps s call o c) :=
  match o with
  | .load _ => inferInstanceAs (Decidable (_ ∨ _))
  | .writeRow .. => inferInstanceAs (Decidable (_ ∨ _))
  | .findRow _ | .countActiveSlots | .generationFloor _ | .insertTombstone .. | .findTombstone ..
  | .listExpiredPendingPeers _ | .eligibilitiesFor _ | .expiredEligibilities _ | .findBySession _
  | .insertEligibility _ | .deleteEligibility _ | .completeReceiverDelivery .. | .protect _
  | .remove _ | .isBlocked _ | .blockEndpoint _ | .unblockEndpoint _ | .lockPeer _ | .unlockPeer _
  | .generate | .nowMs | .cancelTargetedTransfers _ | .peerAddr _ | .send .. | .awaitRequest _
  | .awaitConsent _ | .awaitAck _ | .answer .. | .returned _ | .verification .. | .taken _ =>
    isTrue trivial

set_option maxRecDepth 4000 in
open Pairing.Sample Freshness.Sample in
/-- Challenge 6 has been issued for generation 1. -/
theorem issued_accepted :
    (after 6).shared.history.accepted = [⟨2,6,true,true⟩] ∧ Fresh (after 6).shared.history := by
  have new : Fresh .new := ⟨fun _ listed => absurd listed List.not_mem_nil,List.nodup_nil⟩
  have reach : Reach (machine device .new).system (guard device).holds (after 6) :=
    (Reach.start _ started).run (by decide)
      (show (machine device .new).system.run _ (completed ++ acknowledges 6) = some _ from rfl)
  exact ⟨rfl,acks_fresh new reach⟩

end Vnidrop.Pairing.Freshness
