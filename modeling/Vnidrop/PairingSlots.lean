import Vnidrop.PairingOps

/-! The bound on saved and pending devices. A call counts the slots before it inserts its
row; the lock is that of one peer, so the count is good only until another row comes in. -/
namespace Vnidrop.Pairing.Slots

open Programs Runs

def active (r : Relationship) : Bool := r.state = .saved || r.state.pending

/-- The calls that have counted a free slot and not inserted their row; those since whose
count another row has come in. -/
structure History where
  counted : Nat → Bool
  overtaken : Nat → Bool

def History.new : History := ⟨fun _ => false,fun _ => false⟩

def History.count (h : History) (i : Nat) (free : Bool) : History where
  counted := Function.update h.counted i free
  overtaken := Function.update h.overtaken i false

def History.insert (h : History) (i : Nat) : History where
  counted := Function.update h.counted i false
  overtaken _ := true

def record (l : Local) (h : History) (d : Device) (i : Nat) (_ : Call) : (op : Op) → Ans op → History
  | .countActiveSlots, .ok used => h.count i (used < l.maxSavedDevices)
  | .writeRow peer (.upsert _), .ok _ =>
    if d.relationships.find peer = none then h.insert i else h
  | _, _ => h

abbrev State := Observed Device History

/-- Whatever is stored, within the bound. -/
def machine (l : Local) : Machine State Call Op Ans Choice Empty :=
  (domain l fun d => d.relationships.activeSlots ≤ l.maxSavedDevices).observe .new (record l)
    fun h _ _ => h

/-- Requests from either side. -/
def requests : Call → Bool
  | .requestPairing _ | .pairingRequest .. => true
  | _ => false

def guard : Guard State Call Op Choice Empty where
  starts _ call := requests call = true
  steps _ _ _ _ := True
  events _ _ := True

/-- A row comes in only while the count of its call is good; and no statement meets a row
in a state that nothing writes. -/
def minds (s : State) (i : Nat) (_ : Call) (o : Op) (c : Choice) : Prop :=
  match o with
  | .writeRow peer (.upsert _) => c.fails = true ∨
    (s.state.relationships.find peer = none → s.history.overtaken i = false) ∧
    ∀ r ∈ s.state.relationships.find peer, active r = true
  | .writeRow peer (.setState _) => ∀ r ∈ s.state.relationships.find peer, active r = true
  | _ => True

/-- What is asked of the steps. -/
def Minds (c : Conf State Call Op Ans) (a : Label Call Choice Empty) : Prop :=
  guard.holds c a ∧ Watched minds c a

structure Inv (l : Local) (s : State) : Prop where
  bound : s.state.relationships.activeSlots ≤ l.maxSavedDevices
  room : ∀ i, s.history.counted i = true → s.history.overtaken i = false →
    s.state.relationships.activeSlots < l.maxSavedDevices

/-- What thread `i` relies on: rows stay, and so does what it has counted. -/
structure Kept (i : Nat) (s t : State) : Prop where
  rows : ∀ peer, s.state.relationships.find peer ≠ none → t.state.relationships.find peer ≠ none
  counted : t.history.counted i = s.history.counted i

theorem Kept.refl (i : Nat) (s : State) : Kept i s s := ⟨fun _ h => h,rfl⟩

theorem Kept.trans {i : Nat} {s t u : State} (f : Kept i s t) (g : Kept i t u) : Kept i s u :=
  ⟨fun peer h => g.rows peer (f.rows peer h),g.counted.trans f.counted⟩

def terms (l : Local) : Terms State where
  known _ := True
  inv := Inv l
  rely := Kept
  refl := Kept.refl
  trans i := Kept.trans (i := i)

noncomputable abbrev minded (l : Local) : Machine State Call Op Ans Choice Empty :=
  (machine l).restrict minds

abbrev Safely (l : Local) (i : Nat) (call : Call) {α : Type} (p : Task α) (post : α → State → Prop)
    (s : State) : Prop := Safe (minded l) guard (terms l) i call p post s

/-! The slots after a statement. -/

section Writes

variable {t : Relationships} {peer : EndpointId} {now : Millis} {w : RelationshipWrite}

theorem activeSlots_eq : t.activeSlots = t.rows.countP active := by
  rw [List.countP_eq_length_filter]
  rfl

/-- A statement of this kind can change the state of its row. -/
def takes : RelationshipWrite → Bool
  | .upsert _ | .setState _ => true
  | _ => false

theorem sets_state (keeps : takes w = false) (r : Relationship) : (w.sets now r).state = r.state := by
  cases w with
  | upsert | setState => cases keeps
  | setPendingGeneration =>
    simp only [RelationshipWrite.sets,Relationship.regenerate]
    split <;> rfl
  | _ => rfl

theorem active_congr {r r' : Relationship} (same : r'.state = r.state) : active r' = active r := by
  simp [active,same]

/-- An update takes no slot if the rows it meets have one. -/
theorem update_slots {u : Relationships} (p : Relationship → Bool) (f : Relationship → Relationship)
    (same : u.rows = t.rows.map fun r => if p r then f r else r)
    (keeps : ∀ r ∈ t.rows, p r = true → active (f r) = true → active r = true) :
    u.activeSlots ≤ t.activeSlots := by
  rw [activeSlots_eq,activeSlots_eq,same,List.countP_map]
  apply List.countP_mono_left
  intro r member now
  simp only [Function.comp] at now
  split at now
  · rename_i selected
    exact keeps r member selected now
  · exact now

theorem insert_slots (now : Millis) (e : RelationshipUpsert) (absent : t.find peer = none) :
    (t.write peer now (.upsert e)).2.activeSlots ≤ t.activeSlots + 1 := by
  obtain ⟨u,inserted⟩ := Option.isSome_iff_exists.mp
    (Tables.Table.insert_isSome (r := e.fresh peer).mpr absent)
  have rows : u.rows = t.rows ++ [e.fresh peer] := by
    simp only [Tables.Table.insert] at inserted
    split at inserted
    · cases inserted
    · cases inserted
      rfl
  simp only [Relationships.write,Tables.Table.upsert,inserted,Option.getD_some,activeSlots_eq,rows,
    List.countP_append]
  have single := List.countP_le_length (p := active) (l := [e.fresh peer])
  simpa using single

/-- Every other statement takes no slot. -/
theorem write_slots (now : Millis) (meets : takes w = true → ∀ r, t.find peer = some r → active r = true)
    (stays : ∀ e, w = .upsert e → t.find peer ≠ none) :
    (t.write peer now w).2.activeSlots ≤ t.activeSlots := by
  have selected : ∀ r ∈ t.rows, r.remoteEndpointId = peer → active (w.sets now r) = true →
      active r = true := by
    intro r member here now
    by_cases changes : takes w = true
    · exact meets changes r (here ▸ Tables.Table.find_of_mem member)
    · rwa [active_congr (sets_state (Bool.eq_false_iff.mpr changes) r)] at now
  cases w with
  | upsert e =>
    have present : t.insert (e.fresh peer) = none := by
      cases inserted : t.insert (e.fresh peer) with
      | none => rfl
      | some u =>
        have fits : (t.insert (e.fresh peer)).isSome = true := by rw [inserted]; rfl
        exact absurd (Tables.Table.insert_isSome.mp fits) (stays e rfl)
    refine update_slots (fun r => r.remoteEndpointId = peer) e.merge ?_ fun r member here =>
      selected r member (of_decide_eq_true here)
    simp only [Relationships.write,Tables.Table.upsert,present]
    rfl
  | delete =>
    rw [activeSlots_eq,activeSlots_eq]
    exact List.Sublist.countP_le List.filter_sublist
  | _ =>
    refine update_slots _ _ rfl fun r member here => selected r member ?_
    simp only [Bool.and_eq_true,decide_eq_true_eq] at here
    exact here.1

end Writes

/-! What a step does. -/

section Steps

variable {l : Local} {s t : State} {i j : Nat} {call : Call} {c : Choice} {o : Op} {r : Ans o}

theorem exec_minded (h : (minded l).exec s i call o c = some (r,t)) :
    minds s i call o c ∧ ∃ d, s.state.exec l i c o = some (r,d) ∧
      t = ⟨d,record l s.history s.state i call o r⟩ := by
  obtain ⟨mindful,performed⟩ := restrict_exec.mp h
  exact ⟨mindful,domain_exec performed⟩

/-- A call inserts a row only if it has counted. -/
def Fits (s : State) (i : Nat) : Op → Prop
  | .writeRow peer (.upsert _) => s.state.relationships.find peer = none → s.history.counted i = true
  | _ => True

/-- Every operation but the insertion of a row leaves the slots as they are, or frees some. -/
theorem slots_after {d : Device} (mindful : minds s i call o c)
    (performed : s.state.exec l i c o = some (r,d)) (other : ∀ peer e, o ≠ .writeRow peer (.upsert e)) :
    d.relationships.activeSlots ≤ s.state.relationships.activeSlots := by
  by_cases writes : ∃ peer w, o = .writeRow peer w
  · obtain ⟨peer,w,rfl⟩ := writes
    rcases exec_writeRow performed with ⟨_,_,rfl⟩ | ⟨_,_,rfl⟩
    · exact Nat.le_refl _
    · apply write_slots
      · intro changes row here
        cases w with
        | upsert e => exact absurd rfl (other peer e)
        | setState state => exact mindful row here
        | _ => cases changes
      · rintro e rfl
        exact absurd rfl (other peer e)
  · have same := exec_relationships performed fun peer w same => writes ⟨peer,w,same⟩
    exact Nat.le_of_eq (congrArg _ same)

theorem exec_count {d d' : Device} {r : Except VnidropError Nat}
    (h : d.exec l i c .countActiveSlots = some (r,d')) :
    d' = d ∧ ∀ used, r = .ok used → used = d.relationships.activeSlots := by
  change Device.read d c _ = _ at h
  unfold Device.read at h
  cases h
  refine ⟨rfl,fun used fine => ?_⟩
  split at fine <;> cases fine
  rfl

theorem record_cases {d d' : Device} (h : History) (performed : d.exec l i c o = some (r,d')) :
    record l h d i call o r = h ∨
    (o = .countActiveSlots ∧ d' = d ∧ record l h d i call o r = h.count i (d.relationships.activeSlots < l.maxSavedDevices)) ∨
    ∃ peer e, o = .writeRow peer (.upsert e) ∧ record l h d i call o r = h.insert i := by
  unfold record
  split
  · obtain ⟨same,read⟩ := exec_count performed
    exact .inr (.inl ⟨rfl,same,by rw [read _ rfl]⟩)
  · rename_i peer e _
    split
    · exact .inr (.inr ⟨peer,e,rfl,rfl⟩)
    · exact .inl rfl
  · exact .inl rfl

theorem Inv.step (inv : Inv l s) (fits : Fits s i o)
    (h : (minded l).exec s i call o c = some (r,t)) : Inv l t := by
  obtain ⟨mindful,d,performed,rfl⟩ := exec_minded h
  by_cases inserts : ∃ peer e, o = .writeRow peer (.upsert e)
  · obtain ⟨peer,e,rfl⟩ := inserts
    rcases exec_writeRow performed with ⟨_,rfl,rfl⟩ | ⟨works,rfl,rfl⟩
    · exact inv
    · obtain ⟨timely,meets⟩ := mindful.resolve_left fun fails => by
        rw [works] at fails
        cases fails
      by_cases absent : s.state.relationships.find peer = none
      · have free := inv.room i (fits absent) (timely absent)
        have more := insert_slots c.now e absent
        have history : record l s.history s.state i call (.writeRow peer (.upsert e))
            (.ok (s.state.relationships.write peer c.now (.upsert e)).1) = s.history.insert i :=
          if_pos absent
        constructor
        · dsimp only
          omega
        · intro j _ timely
          rw [history] at timely
          cases timely
      · have history : record l s.history s.state i call (.writeRow peer (.upsert e))
            (.ok (s.state.relationships.write peer c.now (.upsert e)).1) = s.history := if_neg absent
        have same := write_slots c.now (w := .upsert e) (fun _ r here => meets r here)
          fun _ _ => absent
        constructor
        · exact Nat.le_trans same inv.bound
        · intro j counted timely
          rw [history] at counted timely
          exact Nat.lt_of_le_of_lt same (inv.room j counted timely)
  · have fewer := slots_after mindful performed fun peer e same => inserts ⟨peer,e,same⟩
    constructor
    · exact Nat.le_trans fewer inv.bound
    · intro j counted timely
      rcases record_cases s.history performed with same | ⟨rfl,rfl,count⟩ | ⟨peer,e,same,_⟩
      · rw [same] at counted timely
        exact Nat.lt_of_le_of_lt fewer (inv.room j counted timely)
      · rw [count] at counted timely
        by_cases own : j = i
        · simpa [History.count,own] using counted
        · simp only [History.count,Function.update_of_ne own] at counted timely
          exact inv.room j counted timely
      · exact absurd ⟨peer,e,same⟩ inserts

/-- A call that deletes no row leaves the others what they rely on. -/
theorem Kept.step (h : (minded l).exec s i call o c = some (r,t))
    (keeps : ∀ peer, o ≠ .writeRow peer .delete) (apart : j ≠ i ∨
      ([Kind.upsert,.countActiveSlots].contains o.kind = false)) : Kept j s t := by
  obtain ⟨_,d,performed,rfl⟩ := exec_minded h
  constructor
  · intro peer present
    by_cases writes : ∃ peer' w, o = .writeRow peer' w
    · obtain ⟨peer',w,rfl⟩ := writes
      rcases exec_writeRow performed with ⟨_,_,rfl⟩ | ⟨_,_,rfl⟩
      · exact present
      · dsimp only
        rw [Relationships.find_write]
        split
        · rename_i same
          subst same
          obtain ⟨r,here⟩ := Option.ne_none_iff_exists'.mp present
          have stays : w ≠ .delete := fun deletes => keeps peer (by rw [deletes])
          simp [here,RelationshipWrite.onRow,stays]
        · exact present
    · dsimp only
      rw [exec_relationships performed fun peer w same => writes ⟨peer,w,same⟩]
      exact present
  · rcases record_cases s.history performed with same | ⟨rfl,_,count⟩ | ⟨peer,e,rfl,insert⟩
    · rw [same]
    · rcases apart with other | apart
      · rw [count]
        exact Function.update_of_ne other _ _
      · cases apart
    · rcases apart with other | apart
      · rw [insert]
        exact Function.update_of_ne other _ _
      · cases apart

end Steps

section Calls

variable {α : Type} {l : Local} {s : State} {i : Nat} {call : Call} {peer : EndpointId}

abbrev counting : List Kind := [.upsert,.countActiveSlots,.deleteRow]

theorem quiet_op {o : Op} (apart : counting.contains o.kind = false) :
    Quiet (minded l) guard (terms l) i call o := by
  intro t _ inv c r u _ performed
  have fits : Fits t i o := by
    cases o with
    | writeRow peer w => cases w <;> first | exact trivial | cases apart
    | _ => trivial
  have keeps : ∀ peer, o ≠ .writeRow peer .delete := by
    rintro peer rfl
    cases apart
  have still : [Kind.upsert,.countActiveSlots].contains o.kind = false := by
    simp only [List.contains_cons,Bool.or_eq_false_iff] at apart ⊢
    exact ⟨apart.1,apart.2.1,rfl⟩
  exact ⟨inv.step fits performed,fun j => Kept.step performed keeps (.inr still)⟩

theorem safe_aside {p : Task α} (apart : Avoids counting p) (s : State) :
    Safely l i call p (fun _ t => Kept i s t) s := by
  refine safe_quiet ?_ s
  induction p with
  | ret a => trivial
  | step o k ih => exact ⟨quiet_op apart.1,fun r => ih r (apart.2 r)⟩

abbrev Plain (l : Local) (i : Nat) (call : Call) (p : Task α) : Prop :=
  Keeps (minded l) guard (terms l) i call (fun _ => True) p

theorem plain_aside {p : Task α} (apart : Avoids counting p) : Plain l i call p :=
  fun s _ => safe_mono (fun _ _ _ => trivial) (safe_aside apart s)

/-- The call may insert the row of the peer: it is there, or the call has counted. -/
def Ready (i : Nat) (peer : EndpointId) (s : State) : Prop :=
  s.state.relationships.find peer = none → s.history.counted i = true

theorem Kept.ready {s t : State} (kept : Kept i s t) (ready : Ready i peer s) : Ready i peer t := by
  intro absent
  rw [kept.counted]
  apply ready
  by_contra present
  exact kept.rows peer present absent

theorem safe_count : Safely l i call (op .countActiveSlots) (fun used t =>
    ∀ n, used = .ok n → n < l.maxSavedDevices → t.history.counted i = true) s := by
  intro t _ inv kept c r u _ performed
  have fits : Fits t i .countActiveSlots := trivial
  refine ⟨⟨inv.step fits performed,fun j other => Kept.step performed nofun (.inl other)⟩,?_⟩
  rintro n rfl free
  obtain ⟨_,d,_,rfl⟩ := exec_minded performed
  change Function.update t.history.counted i _ i = true
  simpa using free

theorem safe_canCreate : Safely l i call (canCreateNewRelationship l peer) (fun room t =>
    room = .ok true → Ready i peer t) s := by
  refine safe_andThen fun t _ inv kept c r u ok performed => ?_
  refine ⟨⟨(quiet_op rfl t trivial inv c r u ok performed).1,fun j other =>
    Kept.step performed nofun (.inl other)⟩,?_,fun _ _ => nofun⟩
  rintro found rfl
  split
  · rename_i there
    intro _ absent
    obtain ⟨_,d,read,rfl⟩ := exec_minded performed
    obtain ⟨rfl,same⟩ := exec_findRow read
    rw [same found rfl,absent] at there
    cases there
  · refine safe_andThen (safe_mono (fun used v counted => ⟨fun n fine => ?_,fun _ _ => nofun⟩) safe_count)
    intro free _
    subst fine
    simp only [Except.ok.injEq,decide_eq_true_eq] at free
    exact counted n rfl free

theorem safe_upsert {e : RelationshipUpsert} (ready : Ready i peer s) :
    Safely l i call (write peer (.upsert e)) (fun _ _ => True) s := by
  intro t _ inv kept c r u _ performed
  have fits : Fits t i (.writeRow peer (.upsert e)) := kept.ready ready
  exact ⟨⟨inv.step fits performed,fun j other => Kept.step performed nofun (.inl other)⟩,trivial⟩

theorem plain_beginPairing : Plain l i call (beginPairing l peer) := by
  refine keeps_andThen (plain_aside (Prog.all_perform rfl)) fun existing => ?_
  split
  · exact keeps_pure
  intro s _
  refine safe_andThen (safe_mono (fun room t ready => ⟨fun r fine => ?_,fun _ _ => trivial⟩)
    safe_canCreate)
  split
  · trivial
  rename_i free
  replace ready := ready (by rw [fine]; simpa using free)
  refine safe_andThen (safe_mono (fun taken u kept => ⟨fun found _ => ?_,fun _ _ => trivial⟩)
    (safe_aside (takeEligibility_uses.avoids rfl) t))
  replace ready := kept.ready ready
  cases found with
  | none => trivial
  | some taken =>
    refine safe_andThen (safe_mono (fun next v kept => ⟨fun generation _ => ?_,fun _ _ => trivial⟩)
      (safe_aside (nextGeneration_uses.avoids rfl) u))
    replace ready := kept.ready ready
    refine safe_bind (safe_mono (fun now w kept => ?_) (safe_aside (Prog.all_perform rfl) v))
    replace ready := kept.ready ready
    refine safe_andThen (safe_mono (fun found x kept => ⟨fun existing _ => ?_,fun _ _ => trivial⟩)
      (safe_aside (Prog.all_perform rfl) w))
    refine safe_andThen (safe_mono (fun _ _ _ => ⟨fun _ _ => ?_,fun _ _ => trivial⟩)
      (safe_upsert (kept.ready ready)))
    split <;> trivial

theorem plain_acceptRequest (request : PairingRequest) :
    Plain l i call (acceptRequest l peer request) := by
  unfold acceptRequest
  split
  · exact keeps_pure
  split
  · exact keeps_pure
  refine keeps_bind (plain_aside ((validate_uses _ _).avoids rfl)) fun entry => ?_
  split
  · intro s _
    refine safe_bind (safe_mono (fun room t ready => ?_) safe_canCreate)
    split
    · replace ready := ready rfl
      refine safe_bind (safe_mono (fun next u kept => ?_) (safe_aside (nextGeneration_uses.avoids rfl) t))
      replace ready := kept.ready ready
      split
      · dsimp only
        split
        · trivial
        refine safe_bind (safe_mono (fun now v kept => ?_) (safe_aside (Prog.all_perform rfl) u))
        refine safe_bind (safe_mono (fun _ _ _ => ?_) (safe_upsert (kept.ready ready)))
        split <;> trivial
      · trivial
    · trivial
  · exact keeps_pure

theorem plain_answerRequest (request : PairingRequest) :
    Plain l i call (answerRequest l peer request) := by
  unfold answerRequest joinPending write
  repeat' first
    | exact keeps_pure
    | exact plain_aside (Prog.all_perform rfl)
    | exact plain_acceptRequest request
    | refine keeps_bind ?_ fun _ => ?_
    | dsimp only
    | split

theorem plain_call (request : requests call = true) : Plain l i call (call.body l) := by
  cases call with
  | requestPairing peer =>
    refine keeps_bind ?_ fun r => by cases r <;> exact plain_aside (Prog.all_perform rfl)
    refine keeps_bind (plain_aside (Prog.all_perform rfl)) fun blocked => ?_
    split
    · exact keeps_pure
    refine keeps_bind (plain_aside (Prog.all_perform rfl)) fun _ => ?_
    refine keeps_bind plain_beginPairing fun begun => ?_
    refine keeps_bind (plain_aside (Prog.all_perform rfl)) fun _ => ?_
    split
    · exact keeps_pure
    · exact keeps_pure
    · exact keeps_andThen (plain_aside ((merge_uses _ _).avoids rfl)) fun _ => keeps_pure
    · refine keeps_andThen (plain_aside (Prog.all_perform rfl)) fun _ => ?_
      refine keeps_bind (plain_aside (Prog.all_perform rfl)) fun _ => ?_
      refine keeps_bind (plain_aside (Prog.all_perform rfl)) fun response => ?_
      exact plain_aside ((finishRequest_uses _ _).avoids rfl)
  | pairingRequest remote m =>
    refine keeps_bind ?_ fun _ => plain_aside (Prog.all_perform rfl)
    refine keeps_bind (plain_aside (Prog.all_perform rfl)) fun blocked => ?_
    split
    · exact keeps_pure
    refine keeps_bind (plain_aside (Prog.all_perform rfl)) fun _ => ?_
    refine keeps_bind (plain_answerRequest m) fun answer => ?_
    refine keeps_bind (plain_aside (Prog.all_perform rfl)) fun _ => ?_
    split
    · split
      · exact keeps_bind (plain_aside ((merge_uses _ _).avoids rfl)) fun _ => keeps_pure
      · exact keeps_pure
    · exact keeps_pure
  | _ => cases request

end Calls

/-- In every run of requests whose steps meet the side condition, the bound holds. -/
theorem slots_bounded {l : Local} {c : Conf State Call Op Ans}
    (reach : Reach (machine l).system Minds c) :
    c.shared.state.relationships.activeSlots ≤ l.maxSavedDevices := by
  have secured : Secured (minded l) guard (terms l) (fun _ _ _ => True) c :=
    reach_secured (fun _ _ => trivial) ?_ (fun c call _ _ _ request =>
      plain_call request c.shared trivial) (fun _ _ _ _ _ _ => trivial) nofun (reach_restrict reach)
  · exact secured.inv.bound
  · rintro ⟨d,h⟩ ⟨⟨stored,_⟩,rfl⟩
    exact ⟨stored,nofun⟩

/-! Device 1 has room for one device, and may pair with two. -/

namespace Sample

open Pairing.Sample

def small : Local := { device with maxSavedDevices := 1 }

def eligibility (sessionId : SessionId) (peer : EndpointId) : PairingEligibilityRecord where
  sessionId := sessionId
  peerEndpointId := peer
  remoteDisplayName := none
  protocolVersion := 1
  secretHandle := sessionId
  createdAt := 0
  expiresAt := 100

def eligible : Device :=
  { Device.new with
    eligibilities := ⟨[eligibility 7 2,eligibility 8 3],by decide⟩, custody := fun _ => some 9 }

def start : Conf State Call Op Ans := ⟨⟨eligible,.new⟩,[]⟩

theorem started : (machine small).system.init start :=
  ⟨⟨⟨Nat.zero_le _,fun _ => rfl⟩,rfl⟩,rfl⟩

/-- Both requests count before either inserts its row. -/
def races : List (Label Call Choice Empty) :=
  starts (.requestPairing 2) :: List.replicate 5 (act 0) ++
    starts (.requestPairing 3) :: List.replicate 17 (act 1) ++ List.replicate 12 (act 0)

/-- One after the other; the second is refused. -/
def waits : List (Label Call Choice Empty) :=
  starts (.requestPairing 2) :: List.replicate 17 (act 0) ++
    starts (.requestPairing 3) :: List.replicate 7 (act 1)

def after (labels : List (Label Call Choice Empty)) : Conf State Call Op Ans :=
  ((machine small).system.run start labels).getD start

end Sample

open Slots.Sample in
/-- Two pending devices where there is room for one. -/
theorem slots_exceeded :
    (machine small).system.init start ∧
    (machine small).system.run start races = some (after races) ∧
    small.maxSavedDevices = 1 ∧
    (after races).shared.state.relationships.activeSlots = 2 :=
  ⟨started,rfl,rfl,rfl⟩

instance (s : State) (call : Call) : Decidable (guard.starts s call) :=
  inferInstanceAs (Decidable (requests call = true))

instance (s : State) (call : Call) (o : Op) (c : Choice) : Decidable (guard.steps s call o c) :=
  isTrue trivial

instance (s : State) (e : Empty) : Decidable (guard.events s e) := isTrue trivial

instance (s : State) (i : Nat) (call : Call) (o : Op) (c : Choice) : Decidable (minds s i call o c) :=
  match o with
  | .writeRow _ (.upsert _) => inferInstanceAs (Decidable (_ ∨ _))
  | .writeRow _ (.setState _) => inferInstanceAs (Decidable (∀ _ ∈ _, _))
  | .writeRow _ (.setPendingGeneration ..) | .writeRow _ (.setIssuedGrant ..)
  | .writeRow _ (.setHeldGrant ..) | .writeRow _ (.setAcks ..) | .writeRow _ (.beginGrantRotation _)
  | .writeRow _ (.refreshAuthenticatedPeer ..) | .writeRow _ .delete
  | .findRow _ | .countActiveSlots | .generationFloor _ | .insertTombstone .. | .findTombstone ..
  | .listExpiredPendingPeers _ | .eligibilitiesFor _ | .expiredEligibilities _ | .findBySession _
  | .insertEligibility _ | .deleteEligibility _ | .completeReceiverDelivery .. | .protect _ | .load _
  | .remove _ | .isBlocked _ | .blockEndpoint _ | .unblockEndpoint _ | .lockPeer _ | .unlockPeer _
  | .generate | .nowMs | .cancelTargetedTransfers _ | .peerAddr _ | .send .. | .awaitRequest _
  | .awaitConsent _ | .awaitAck _ | .answer .. | .returned _ | .verification .. | .taken _ =>
    isTrue trivial

instance (c : Conf State Call Op Ans) : DecidablePred (Minds c) := fun a =>
  inferInstanceAs (Decidable (guard.holds c a ∧ Watched minds c a))

open Slots.Sample in
/-- The second request counts no free slot. -/
theorem slots_bounded_refused :
    (after waits).shared.state.relationships.activeSlots ≤ small.maxSavedDevices := by
  have reach : Reach (machine small).system Minds (after waits) :=
    (Reach.start _ started).run (by decide)
      (show (machine small).system.run _ waits = some _ from rfl)
  exact slots_bounded reach

end Vnidrop.Pairing.Slots
