import Vnidrop.PairingOps

/-! Eligibilities. A session is closed when its row is deleted: it is taken, consumed, declined
or expired. It is to be handed out at most once, and to stay closed. -/
namespace Vnidrop.Pairing.SingleUse

open Programs Runs Tables

/-- A session that has been handed out: whether the deletion of the same take has closed it. -/
structure Handed where
  sessionId : SessionId
  first : Bool
  deriving DecidableEq, Repr

/-- A session whose capability has been found valid: whether it had not been closed. -/
structure Validated where
  sessionId : SessionId
  active : Bool
  deriving DecidableEq, Repr

/-- The sessions closed; the rows that takes and validations have read, the secrets that takes
have loaded, and the sessions they have closed, each until the lock is released. -/
structure History where
  closed : List SessionId
  looking : List (Nat × SessionId × Handle)
  holding : List (Nat × SessionId)
  taking : List (Nat × SessionId)
  handed : List Handed
  validated : List Validated

namespace History

def new : History := ⟨[],[],[],[],[],[]⟩

/-- What is known when the process starts; the takes of before are gone. -/
def restarted (h : History) : History := ⟨h.closed,[],[],[],h.handed,h.validated⟩

def look (h : History) (i : Nat) (entry : PairingEligibilityRecord) : History :=
  { h with looking := (i,entry.sessionId,entry.secretHandle) :: h.looking }

/-- The sessions whose secret thread `i` loads under the handle. -/
def loaded (h : History) (i : Nat) (handle : Handle) : List SessionId :=
  (h.looking.filter fun x => x.1 = i && x.2.2 = handle).map (·.2.1)

def hold (h : History) (i : Nat) (handle : Handle) : History :=
  { h with holding := (h.loaded i handle).map (i,·) ++ h.holding }

def validate (h : History) (i : Nat) (handle : Handle) : History :=
  { h with validated := ((h.loaded i handle).map fun sid => ⟨sid,sid ∉ h.closed⟩) ++ h.validated }

def close (h : History) (i : Nat) (sid : SessionId) : History :=
  { h with
    closed := sid :: h.closed
    holding := h.holding.filter (· ≠ (i,sid))
    taking := if (i,sid) ∈ h.holding ∧ sid ∉ h.closed then (i,sid) :: h.taking else h.taking }

def hand (h : History) (i : Nat) (sid : SessionId) : History :=
  { h with taking := h.taking.erase (i,sid), handed := ⟨sid,(i,sid) ∈ h.taking⟩ :: h.handed }

def release (h : History) (i : Nat) : History :=
  { h with
    looking := h.looking.filter (·.1 ≠ i)
    holding := h.holding.filter (·.1 ≠ i)
    taking := h.taking.filter (·.1 ≠ i) }

end History

/-- What `take_eligibility` does. -/
def takes (h : History) (i : Nat) : (op : Op) → Ans op → History
  | .eligibilitiesFor _, .ok (entry :: _) => h.look i entry
  | .load handle, .ok _ => h.hold i handle
  | .taken sid, _ => h.hand i sid
  | _, _ => h

/-- What `validate_presented_capability` does; the capability is the last thing it compares. -/
def validates (h : History) (i : Nat) (capability : Text) : (op : Op) → Ans op → History
  | .findBySession _, .ok (some entry) => h.look i entry
  | .load handle, .ok secret => if secret = capability then h.validate i handle else h
  | _, _ => h

def record (h : History) (_ : Device) (i : Nat) (call : Call) : (op : Op) → Ans op → History
  | .deleteEligibility sid, .ok _ => h.close i sid
  | .unlockPeer _, _ => h.release i
  | o, r =>
    match call with
    | .requestPairing _ => takes h i o r
    | .pairingRequest _ m => validates h i m.capability o r
    | _ => h

abbrev State := Observed Device History

/-- Whatever is stored when the process starts, but the rows of closed sessions. -/
def machine (l : Local) (earlier : History) : Machine State Call Op Ans Choice Empty :=
  (domain l fun d => ∀ sid ∈ earlier.closed, d.eligibilities.find sid = none).observe earlier.restarted
    record fun h _ _ => h

/-- A take that has loaded the secret of a session is the one that closes it; no row is inserted
for a closed session; and when a take or a validation loads the secret of its row, the session
is not closed, or its secret is gone. -/
def guard : Guard State Call Op Choice Empty where
  starts _ _ := True
  steps s _ o c := (∀ x ∈ s.history.holding, x.2 ∉ s.history.closed) ∧ match o with
    | .insertEligibility r => c.fails = true ∨ r.sessionId ∉ s.history.closed
    | .load handle => c.fails = true ∨ s.state.custody handle = none ∨
      ∀ x ∈ s.history.looking, x.2.2 = handle → x.2.1 ∉ s.history.closed
    | _ => True
  events _ _ := True

/-- A session is handed out once, by the take that closes it, and validated before it is closed. -/
structure Single (h : History) : Prop where
  first : ∀ x ∈ h.handed, x.first = true ∧ x.sessionId ∈ h.closed
  once : (h.handed.map (·.sessionId)).Nodup
  validated : ∀ x ∈ h.validated, x.active = true

/-- Also of the takes that have not handed out yet. -/
structure Recorded (h : History) : Prop where
  first : ∀ x ∈ h.handed, x.first = true ∧ x.sessionId ∈ h.closed
  taking : ∀ x ∈ h.taking, x.2 ∈ h.closed
  once : (h.taking.map (·.2) ++ h.handed.map (·.sessionId)).Nodup
  validated : ∀ x ∈ h.validated, x.active = true

structure Inv (s : State) : Prop where
  gone : ∀ sid ∈ s.history.closed, s.state.eligibilities.find sid = none
  recorded : Recorded s.history

/-- What thread `i` relies on: its reading, its secret and its deletion of the row. -/
structure Kept (i : Nat) (s t : State) : Prop where
  looking : ∀ x ∈ s.history.looking, x.1 = i → x ∈ t.history.looking
  holding : ∀ x ∈ s.history.holding, x.1 = i → x ∈ t.history.holding
  taking : ∀ x ∈ s.history.taking, x.1 = i → x ∈ t.history.taking

theorem Kept.refl (i : Nat) (s : State) : Kept i s s := ⟨fun _ h _ => h,fun _ h _ => h,fun _ h _ => h⟩

theorem Kept.trans {i : Nat} {s t u : State} (f : Kept i s t) (g : Kept i t u) : Kept i s u where
  looking x h own := g.looking x (f.looking x h own) own
  holding x h own := g.holding x (f.holding x h own) own
  taking x h own := g.taking x (f.taking x h own) own

def terms : Terms State where
  known _ := True
  inv := Inv
  rely := Kept
  refl := Kept.refl
  trans i := Kept.trans (i := i)

abbrev Safely (l : Local) (earlier : History) (i : Nat) (call : Call) {α : Type} (p : Task α)
    (post : α → State → Prop) (s : State) : Prop := Safe (machine l earlier) guard terms i call p post s

abbrev Fine (l : Local) (earlier : History) (i : Nat) (call : Call) {α : Type} (p : Task α) : Prop :=
  Keeps (machine l earlier) guard terms i call (fun _ => True) p

/-- A take hands out what it has closed. -/
def Fits (s : State) (i : Nat) (call : Call) (o : Op) : Prop :=
  ∀ peer sid, call = .requestPairing peer → o = .taken sid → (i,sid) ∈ s.history.taking

section Steps

variable {l : Local} {earlier h : History} {s t : State} {d d' : Device} {i j : Nat} {call : Call} {c : Choice}
  {o : Op} {r : Ans o}

/-- What an operation does to the history. -/
theorem record_cases (h : History) (d : Device) (i : Nat) (call : Call) (o : Op) (r : Ans o) :
    record h d i call o r = h ∨
    (∃ sid, (⟨o,r⟩ : Sigma Ans) = ⟨.deleteEligibility sid,.ok ()⟩ ∧ record h d i call o r = h.close i sid) ∨
    (∃ peer, o = .unlockPeer peer ∧ record h d i call o r = h.release i) ∨
    (∃ entry, record h d i call o r = h.look i entry) ∨
    (∃ handle secret, (⟨o,r⟩ : Sigma Ans) = ⟨.load handle,.ok secret⟩ ∧
      (record h d i call o r = h.hold i handle ∨ record h d i call o r = h.validate i handle)) ∨
    (∃ peer sid, call = .requestPairing peer ∧ o = .taken sid ∧ record h d i call o r = h.hand i sid) := by
  unfold record
  split
  · exact .inr (.inl ⟨_,rfl,rfl⟩)
  · exact .inr (.inr (.inl ⟨_,rfl,rfl⟩))
  split
  · unfold takes
    split
    · exact .inr (.inr (.inr (.inl ⟨_,rfl⟩)))
    · exact .inr (.inr (.inr (.inr (.inl ⟨_,_,rfl,.inl rfl⟩))))
    · exact .inr (.inr (.inr (.inr (.inr ⟨_,_,rfl,rfl,rfl⟩))))
    · exact .inl rfl
  · unfold validates
    split
    · exact .inr (.inr (.inr (.inl ⟨_,rfl⟩)))
    · split
      · exact .inr (.inr (.inr (.inr (.inl ⟨_,_,rfl,.inr rfl⟩))))
      · exact .inl rfl
    · exact .inl rfl
  · exact .inl rfl

theorem exec_insert {entry : PairingEligibilityRecord} {r : Except VnidropError Unit}
    (performed : d.exec l i c (.insertEligibility entry) = some (r,d')) : d'.eligibilities = d.eligibilities ∨
      c.fails = false ∧ d.eligibilities.insert entry = some d'.eligibilities := by
  simp only [Device.exec] at performed
  split at performed
  · rename_i eligibilities inserted
    unfold Device.attempt at performed
    split at performed
    · cases performed
      exact .inl rfl
    · rename_i fine
      cases performed
      exact .inr ⟨Bool.eq_false_iff.mpr fine,inserted⟩
  · cases performed
    exact .inl rfl

theorem exec_delete {sid : SessionId} {r : Except VnidropError Unit}
    (performed : d.exec l i c (.deleteEligibility sid) = some (r,d')) :
    (∃ e, r = .error e ∧ d'.eligibilities = d.eligibilities) ∨
      r = .ok () ∧ d'.eligibilities = d.eligibilities.delete sid := by
  change Device.attempt d c _ _ = _ at performed
  unfold Device.attempt at performed
  split at performed
  · cases performed
    exact .inl ⟨_,rfl,rfl⟩
  · cases performed
    exact .inr ⟨rfl,rfl⟩

/-- Only their own statements change the eligibilities. -/
theorem exec_eligibilities (performed : d.exec l i c o = some (r,d'))
    (inserts : ∀ entry, o ≠ .insertEligibility entry) (deletes : ∀ sid, o ≠ .deleteEligibility sid) :
    d'.eligibilities = d.eligibilities := by
  cases o with
  | insertEligibility entry => exact absurd rfl (inserts entry)
  | deleteEligibility sid => exact absurd rfl (deletes sid)
  | _ =>
    simp only [Device.exec,Device.read,Device.attempt] at performed
    repeat' split at performed
    all_goals first
      | (cases performed; done)
      | (cases performed; rfl)

/-- A session is closed by the deletion of its row. -/
theorem closed_cases (h : History) (d : Device) (i : Nat) (call : Call) (o : Op) (r : Ans o) :
    (record h d i call o r).closed = h.closed ∨
    ∃ sid, (⟨o,r⟩ : Sigma Ans) = ⟨.deleteEligibility sid,.ok ()⟩ ∧
      (record h d i call o r).closed = sid :: h.closed := by
  obtain same | ⟨sid,deletes,same⟩ | ⟨_,_,same⟩ | ⟨_,same⟩ | ⟨_,_,_,same | same⟩ | ⟨_,_,_,_,same⟩ :=
    record_cases h d i call o r
  · rw [same]
    exact .inl rfl
  · rw [same]
    exact .inr ⟨sid,deletes,rfl⟩
  · rw [same]
    exact .inl rfl
  · rw [same]
    exact .inl rfl
  · rw [same]
    exact .inl rfl
  · rw [same]
    exact .inl rfl
  · rw [same]
    exact .inl rfl

theorem closed_after {sid : SessionId} (there : sid ∈ (record h d i call o r).closed) :
    sid ∈ h.closed ∨ (⟨o,r⟩ : Sigma Ans) = ⟨.deleteEligibility sid,.ok ()⟩ := by
  obtain same | ⟨other,deletes,same⟩ := closed_cases h d i call o r
  · rw [same] at there
    exact .inl there
  · rw [same] at there
    obtain rfl | before := List.mem_cons.mp there
    · exact .inr deletes
    · exact .inl before

/-- The rows of closed sessions stay away. -/
theorem gone_after (inv : Inv s) (ok : guard.steps s call o c)
    (performed : s.state.exec l i c o = some (r,d')) :
    ∀ sid ∈ (record s.history s.state i call o r).closed, d'.eligibilities.find sid = none := by
  intro sid there
  obtain before | deletes := closed_after there
  · have absent := inv.gone sid before
    by_cases inserting : ∃ entry, o = .insertEligibility entry
    · obtain ⟨entry,rfl⟩ := inserting
      obtain same | ⟨works,inserted⟩ := exec_insert performed
      · rw [same]
        exact absent
      · have fresh : entry.sessionId ∉ s.history.closed := ok.2.resolve_left fun fails => by
          rw [works] at fails
          cases fails
        have other : sid ≠ entry.sessionId := fun same => fresh (same ▸ before)
        rw [Table.find_insert inserted,if_neg other]
        exact absent
    by_cases deleting : ∃ other, o = .deleteEligibility other
    · obtain ⟨other,rfl⟩ := deleting
      obtain ⟨_,_,same⟩ | ⟨_,same⟩ := exec_delete performed
      · rw [same]
        exact absent
      · rw [same,Table.find_delete]
        split
        · rfl
        · exact absent
    · rw [exec_eligibilities performed (fun entry same => inserting ⟨entry,same⟩)
        fun other same => deleting ⟨other,same⟩]
      exact absent
  · cases deletes
    obtain ⟨_,failed,_⟩ | ⟨_,same⟩ := exec_delete performed
    · cases failed
    · rw [same,Table.find_delete_self]

theorem Recorded.close (recorded : Recorded h) (sid : SessionId) : Recorded (h.close i sid) where
  first x listed := ⟨(recorded.first x listed).1,List.mem_cons_of_mem _ (recorded.first x listed).2⟩
  taking x listed := by
    change x ∈ (if _ then _ else _ : List (Nat × SessionId)) at listed
    split at listed
    · obtain rfl | before := List.mem_cons.mp listed
      · exact List.mem_cons_self
      · exact List.mem_cons_of_mem _ (recorded.taking x before)
    · exact List.mem_cons_of_mem _ (recorded.taking x listed)
  once := by
    change ((if _ then _ else _ : List (Nat × SessionId)).map (·.2) ++ _).Nodup
    split
    · rename_i takes
      refine List.nodup_cons.mpr ⟨fun used => takes.2 ?_,recorded.once⟩
      obtain before | before := List.mem_append.mp used
      · obtain ⟨x,listed,rfl⟩ := List.mem_map.mp before
        exact recorded.taking x listed
      · obtain ⟨x,listed,rfl⟩ := List.mem_map.mp before
        exact (recorded.first x listed).2
    · exact recorded.once
  validated := recorded.validated

theorem Recorded.release (recorded : Recorded h) : Recorded (h.release i) where
  first := recorded.first
  taking x listed := recorded.taking x (List.mem_of_mem_filter listed)
  once := recorded.once.sublist (List.Sublist.append_right (List.filter_sublist.map _) _)
  validated := recorded.validated

theorem Recorded.hand {sid : SessionId} (recorded : Recorded h) (taking : (i,sid) ∈ h.taking) :
    Recorded (h.hand i sid) where
  first x listed := by
    obtain rfl | before := List.mem_cons.mp listed
    · exact ⟨decide_eq_true taking,recorded.taking _ taking⟩
    · exact recorded.first x before
  taking x listed := recorded.taking x (List.mem_of_mem_erase listed)
  once := by
    have moved : (h.taking.map (·.2)).Perm (sid :: (h.taking.erase (i,sid)).map (·.2)) :=
      (List.perm_cons_erase taking).map (·.2)
    exact (List.perm_middle.trans (moved.symm.append_right _)).nodup_iff.mpr recorded.once
  validated := recorded.validated

theorem Recorded.validate {handle : Handle} (recorded : Recorded h)
    (active : ∀ x ∈ h.looking, x.2.2 = handle → x.2.1 ∉ h.closed) : Recorded (h.validate i handle) where
  first := recorded.first
  taking := recorded.taking
  once := recorded.once
  validated x listed := by
    obtain new | before := List.mem_append.mp listed
    · obtain ⟨sid,looked,rfl⟩ := List.mem_map.mp new
      obtain ⟨y,found,rfl⟩ := List.mem_map.mp looked
      obtain ⟨there,own⟩ := List.mem_filter.mp found
      exact decide_eq_true (active y there (of_decide_eq_true (Bool.and_eq_true_iff.mp own).2))
    · exact recorded.validated x before

theorem Inv.step (inv : Inv s) (ok : guard.steps s call o c) (fits : Fits s i call o)
    (performed : (machine l earlier).exec s i call o c = some (r,t)) : Inv t := by
  obtain ⟨d,ran,rfl⟩ := domain_exec performed
  have gone := gone_after inv ok ran
  have before := inv.recorded
  suffices recorded : Recorded (record s.history s.state i call o r) from ⟨gone,recorded⟩
  obtain same | ⟨sid,_,same⟩ | ⟨_,_,same⟩ | ⟨_,same⟩ | ⟨_,_,loads,same | same⟩ | ⟨peer,sid,own,hands,same⟩ :=
    record_cases s.history s.state i call o r
  · rw [same]
    exact before
  · rw [same]
    exact before.close sid
  · rw [same]
    exact before.release
  · rw [same]
    exact ⟨before.first,before.taking,before.once,before.validated⟩
  · rw [same]
    exact ⟨before.first,before.taking,before.once,before.validated⟩
  · cases loads
    obtain ⟨works,held⟩ := exec_load ran
    rw [same]
    obtain fails | none | active := ok.2
    · rw [works] at fails
      cases fails
    · rw [held] at none
      cases none
    · exact before.validate active
  · rw [same]
    exact before.hand (fits peer sid own hands)

/-- What changes the take of a thread. -/
abbrev takingKinds : List Kind := [.deleteEligibility,.taken,.unlockPeer]

theorem Kept.step (performed : (machine l earlier).exec s i call o c = some (r,t))
    (apart : j ≠ i ∨ takingKinds.contains o.kind = false) : Kept j s t := by
  obtain ⟨d,ran,rfl⟩ := domain_exec performed
  obtain same | ⟨sid,deletes,same⟩ | ⟨_,rfl,same⟩ | ⟨_,same⟩ | ⟨_,_,_,same | same⟩ | ⟨_,sid,_,rfl,same⟩ :=
    record_cases s.history s.state i call o r
  · rw [same]
    exact ⟨fun _ h _ => h,fun _ h _ => h,fun _ h _ => h⟩
  · have other : j ≠ i := apart.resolve_right fun avoids => by
      cases deletes
      cases avoids
    rw [same]
    refine ⟨fun _ h _ => h,fun x h own => List.mem_filter.mpr ⟨h,decide_eq_true fun is => ?_⟩,fun x h own => ?_⟩
    · rw [is] at own
      exact other own.symm
    · change x ∈ (if _ then _ else _ : List (Nat × SessionId))
      split
      · exact List.mem_cons_of_mem _ h
      · exact h
  · have other : j ≠ i := apart.resolve_right fun avoids => by cases avoids
    have stays {α : Type} {l : List (Nat × α)} {x : Nat × α} (h : x ∈ l) (own : x.1 = j) :
        x ∈ l.filter (·.1 ≠ i) := List.mem_filter.mpr ⟨h,decide_eq_true (own ▸ other)⟩
    rw [same]
    exact ⟨fun _ => stays,fun _ => stays,fun _ => stays⟩
  · rw [same]
    exact ⟨fun _ h _ => List.mem_cons_of_mem _ h,fun _ h _ => h,fun _ h _ => h⟩
  · rw [same]
    exact ⟨fun _ h _ => h,fun _ h _ => List.mem_append_right _ h,fun _ h _ => h⟩
  · rw [same]
    exact ⟨fun _ h _ => h,fun _ h _ => h,fun _ h _ => h⟩
  · have other : j ≠ i := apart.resolve_right fun avoids => by cases avoids
    rw [same]
    refine ⟨fun _ h _ => h,fun _ h _ => h,fun x h own => (List.mem_erase_of_ne fun is => ?_).mpr h⟩
    rw [is] at own
    exact other own.symm

end Steps

section Calls

variable {α : Type} {l : Local} {earlier : History} {s : State} {i : Nat} {call : Call} {peer : EndpointId}

theorem fine_fitting {p : Task α} (fits : p.All fun o => ∀ t, Fits t i call o) : Fine l earlier i call p := by
  induction p with
  | ret a => exact fun s _ => trivial
  | step o k ih =>
    intro s _ t _ inv _ c r u ok performed
    exact ⟨⟨inv.step ok (fits.1 t) performed,fun _ other => Kept.step performed (.inl other)⟩,
      ih r (fits.2 r) u trivial⟩

/-- What hands nothing out. -/
theorem fine_aside {p : Task α} (apart : Avoids [.taken] p) : Fine l earlier i call p := by
  refine fine_fitting (Prog.all_mono (fun o aside t peer sid _ hands => ?_) apart)
  rw [hands] at aside
  cases aside

theorem fine_op {o : Op} (apart : [Kind.taken].contains o.kind = false) : Fine l earlier i call (op o) :=
  fine_aside (Prog.all_perform apart)

theorem fine_others {p : Task α} (other : ∀ peer, call ≠ .requestPairing peer) : Fine l earlier i call p := by
  refine fine_fitting ?_
  induction p with
  | ret a => trivial
  | step o k ih => exact ⟨fun _ peer _ same => absurd same (other peer),ih⟩

/-- An operation of a take that changes nothing of it. -/
theorem safe_apart {o : Op} (apart : takingKinds.contains o.kind = false) (s : State) :
    Safely l earlier i call (op o) (fun _ t => Kept i s t) s := by
  intro t _ inv later c r u ok performed
  have fits : Fits t i call o := by
    intro _ sid _ hands
    rw [hands] at apart
    cases apart
  exact ⟨⟨inv.step ok fits performed,fun _ other => Kept.step performed (.inl other)⟩,
    later.trans (Kept.step performed (.inr apart))⟩

variable {entry : PairingEligibilityRecord}

/-- The deletion of a take that has loaded the secret closes the session. -/
theorem safe_deleteEntry (holding : (i,entry.sessionId) ∈ s.history.holding) :
    Safely l earlier i call (deleteEntry l entry)
      (fun r t => ∀ a, r = .ok a → (i,entry.sessionId) ∈ t.history.taking) s := by
  have deletes : ∀ t, (i,entry.sessionId) ∈ t.history.holding → Safely l earlier i call
      (op (.deleteEligibility entry.sessionId))
      (fun r u => ∀ a, r = .ok a → (i,entry.sessionId) ∈ u.history.taking) t := by
    intro t holding u _ inv later c r v ok performed
    have fits : Fits u i call (.deleteEligibility entry.sessionId) := fun _ _ _ => nofun
    refine ⟨⟨inv.step ok fits performed,fun _ other => Kept.step performed (.inl other)⟩,?_⟩
    intro a fine
    cases fine
    replace holding := later.holding _ holding rfl
    obtain ⟨d,_,rfl⟩ := domain_exec performed
    change _ ∈ (if _ then _ else _ : List (Nat × SessionId))
    rw [if_pos ⟨holding,ok.1 _ holding⟩]
    exact List.mem_cons_self
  unfold deleteEntry
  split
  · exact safe_bind (safe_mono (fun _ t kept => deletes t (kept.holding _ holding rfl)) (safe_apart rfl s))
  · exact deletes s holding

theorem safe_takeEntry (looking : (i,entry.sessionId,entry.secretHandle) ∈ s.history.looking) :
    Safely l earlier i (.requestPairing peer) (takeEntry l entry) (fun _ _ => True) s := by
  have deleting : Fine l earlier i (.requestPairing peer) (deleteEntry l entry) :=
    fine_aside ((deleteEntry_uses entry).avoids rfl)
  refine safe_bind (safe_mono (fun now t kept => ?_) (safe_apart (o := .nowMs) rfl s))
  replace looking := kept.looking _ looking rfl
  split
  · exact keeps_andThen deleting (fun _ => keeps_pure) t trivial
  split
  · exact keeps_andThen deleting (fun _ => keeps_pure) t trivial
  intro u _ inv later c r v ok performed
  have fits : Fits u i (.requestPairing peer) (.load entry.secretHandle) := fun _ _ _ => nofun
  refine ⟨⟨inv.step ok fits performed,fun _ other => Kept.step performed (.inl other)⟩,?_⟩
  cases r with
  | error e => exact keeps_andThen deleting (fun _ => keeps_pure) v trivial
  | ok capability =>
    replace looking := later.looking _ looking rfl
    have holding : (i,entry.sessionId) ∈ v.history.holding := by
      obtain ⟨d,_,rfl⟩ := domain_exec performed
      refine List.mem_append_left _ (List.mem_map.mpr ⟨entry.sessionId,?_,rfl⟩)
      refine List.mem_map.mpr ⟨_,List.mem_filter.mpr ⟨looking,?_⟩,rfl⟩
      simp
    refine safe_andThen (safe_mono (fun deleted w taking => ⟨fun a done => ?_,fun _ _ => trivial⟩)
      (safe_deleteEntry holding))
    replace taking := taking a done
    intro x _ inv later c r y ok performed
    have fits : Fits x i (.requestPairing peer) (.taken entry.sessionId) := by
      rintro _ _ _ hands
      cases hands
      exact later.taking _ taking rfl
    exact ⟨⟨inv.step ok fits performed,fun _ other => Kept.step performed (.inl other)⟩,trivial⟩

theorem fine_takeEligibility : Fine l earlier i (.requestPairing peer) (takeEligibility l peer) := by
  refine keeps_andThen (fine_aside (expireDue_uses.avoids rfl)) fun _ s _ => ?_
  refine safe_andThen fun t _ inv _ c r u ok performed => ?_
  have fits : Fits t i (.requestPairing peer) (.eligibilitiesFor peer) := fun _ _ _ => nofun
  refine ⟨⟨inv.step ok fits performed,fun _ other => Kept.step performed (.inl other)⟩,?_,fun _ _ => trivial⟩
  intro entries read
  cases entries with
  | nil => trivial
  | cons entry entries =>
    refine safe_takeEntry ?_
    obtain ⟨d,_,rfl⟩ := domain_exec performed
    cases read
    exact List.mem_cons_self

theorem fine_beginPairing : Fine l earlier i (.requestPairing peer) (beginPairing l peer) := by
  refine keeps_andThen (fine_op rfl) fun existing => ?_
  split
  · exact keeps_pure
  refine keeps_andThen (fine_aside (canCreate_uses.avoids rfl)) fun room => ?_
  split
  · exact keeps_pure
  refine keeps_andThen fine_takeEligibility fun taken => ?_
  cases taken with
  | none => exact keeps_pure
  | some taken =>
    refine keeps_andThen (fine_aside (nextGeneration_uses.avoids rfl)) fun generation => ?_
    refine keeps_bind (fine_op rfl) fun now => keeps_andThen (fine_op rfl) fun existing => ?_
    refine keeps_andThen (fine_op rfl) fun _ => ?_
    split <;> exact keeps_pure

theorem fine_requestPairing : Fine l earlier i (.requestPairing peer) (requestPairing l peer) := by
  refine keeps_bind (fine_op rfl) fun blocked => ?_
  split
  · exact keeps_pure
  refine keeps_bind (fine_op rfl) fun _ => keeps_bind fine_beginPairing fun begun => ?_
  refine keeps_bind (fine_op rfl) fun _ => ?_
  cases begun with
  | error e => exact keeps_pure
  | ok begun =>
    cases begun with
    | returns requested => exact keeps_pure
    | merges generation protocolVersion =>
      exact keeps_andThen (fine_aside ((merge_uses _ _).avoids rfl)) fun _ => keeps_pure
    | asks taken generation =>
      refine keeps_andThen (fine_op rfl) fun _ => keeps_bind (fine_op rfl) fun _ => ?_
      exact keeps_bind (fine_op rfl) fun response => fine_aside ((finishRequest_uses _ _).avoids rfl)

theorem fine_call : Fine l earlier i call (call.body l) := by
  cases call with
  | requestPairing peer =>
    refine keeps_bind fine_requestPairing fun r => ?_
    cases r <;> exact fine_op rfl
  | _ => exact fine_others fun _ => nofun

end Calls

section Runs

variable {l : Local} {earlier : History} {c d : Conf State Call Op Ans}

theorem reach_inv (sound : Single earlier) (reach : Reach (machine l earlier).system guard.holds c) :
    Inv c.shared := by
  have secured : Secured (machine l earlier) guard terms (fun _ _ _ => True) c :=
    reach_secured (fun _ _ => trivial) ?_ (fun _ _ _ _ _ _ => fine_call _ trivial)
      (fun _ _ _ _ _ _ => trivial) nofun reach
  · exact secured.inv
  · rintro ⟨d,h⟩ ⟨⟨gone,_⟩,rfl⟩
    exact ⟨gone,sound.first,fun _ listed => absurd listed List.not_mem_nil,sound.once,sound.validated⟩

/-- A closed session stays closed. -/
theorem closed_stays {a : Label Call Choice Empty} (step : (machine l earlier).next c a = some d) :
    ∀ sid ∈ c.shared.history.closed, sid ∈ d.shared.history.closed := by
  intro sid listed
  obtain ⟨_,_,_,rfl⟩ | ⟨i,choice,call,o,k,r,s,_,_,performed,rfl⟩ | ⟨e,_⟩ := next_cases step
  · exact listed
  · obtain ⟨x,_,rfl⟩ := domain_exec performed
    change sid ∈ (record c.shared.history c.shared.state i call o r).closed
    obtain same | ⟨_,_,same⟩ := closed_cases c.shared.history c.shared.state i call o r
    · rw [same]
      exact listed
    · rw [same]
      exact List.mem_cons_of_mem _ listed
  · cases e

end Runs

/-! A receipt for session 7 arrives from device 2, and device 1 asks to be paired. -/

namespace Sample

open Pairing.Sample Invitation

def request : ReceiverRequest where
  id := 7
  transferId := 1
  remoteEndpointId := 2
  transferName := ""
  receiverName := none
  receiverDeviceName := none
  appVersion := ""
  status := .accepted
  reason := none
  requestedAt := 0
  respondedAt := none
  receiptTokenHash := some 5

def start : Conf State Call Op Ans :=
  ⟨⟨{ Device.new with requests := ⟨[request],List.nodup_singleton _⟩ },History.restarted .new⟩,[]⟩

theorem started {l : Local} : (machine l .new).system.init start :=
  ⟨⟨⟨fun _ listed => absurd listed List.not_mem_nil,fun _ => rfl⟩,rfl⟩,rfl⟩

def receipt (i handle : Nat) : List (Label Call Choice Empty) :=
  starts (.deliveryReceipt 2 ⟨7,1,5⟩) :: List.replicate 4 (act i) ++ [draws i handle,act i]

def asks (i steps : Nat) : List (Label Call Choice Empty) :=
  starts (.requestPairing 2) :: List.replicate steps (act i)

def taken : List (Label Call Choice Empty) := receipt 0 1 ++ asks 1 22

/-- The receipt is repeated. -/
def repeated : List (Label Call Choice Empty) := taken ++ receipt 2 2

def after (labels : List (Label Call Choice Empty)) : Conf State Call Op Ans :=
  ((machine device .new).system.run start labels).getD start

end Sample

instance (s : State) (call : Call) : Decidable (guard.starts s call) := isTrue trivial

instance (s : State) (e : Empty) : Decidable (guard.events s e) := isTrue trivial

instance (s : State) (call : Call) (o : Op) (c : Choice) : Decidable (guard.steps s call o c) :=
  match o with
  | .insertEligibility _ => inferInstanceAs (Decidable (_ ∧ (_ ∨ _)))
  | .load _ => inferInstanceAs (Decidable (_ ∧ (_ ∨ _ ∨ _)))
  | .findRow _ | .writeRow .. | .countActiveSlots | .generationFloor _ | .insertTombstone ..
  | .findTombstone .. | .listExpiredPendingPeers _ | .eligibilitiesFor _ | .expiredEligibilities _
  | .findBySession _ | .deleteEligibility _ | .completeReceiverDelivery .. | .protect _
  | .remove _ | .isBlocked _ | .blockEndpoint _ | .unblockEndpoint _ | .lockPeer _ | .unlockPeer _
  | .generate | .nowMs | .cancelTargetedTransfers _ | .peerAddr _ | .send .. | .awaitRequest _
  | .awaitConsent _ | .awaitAck _ | .answer .. | .returned _ | .verification .. | .taken _ =>
    inferInstanceAs (Decidable (_ ∧ True))

end Vnidrop.Pairing.SingleUse
