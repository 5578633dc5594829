import Vnidrop.EndpointIdentity

/-! Starts under the lock of the profile, cut off anywhere. While a start is under way the profile
is as it sees it, so what it does is followed on its view; the identity outlives each of them. -/
namespace Vnidrop.EndpointIdentity

open Programs Runs Tables SecretCustody Excepts

/-- What a start reads and writes, with the identities handed out before it. -/
structure View where
  custody : Custody
  legacy : Option Text
  handed : List Text

section Views

variable (endpointId : SecretMaterial → Text) (decode : Text → Option (List UInt8)) (kindOf : Handle → SecretKind)
  (first : Option Text)

def viewOf (s : Observed Profile History) : View := ⟨s.state.custody,s.state.legacy,s.history.handed⟩

/-- The row stands for an identity. -/
def View.Names (v : View) (handle : Handle) (row : SecretRef) : Prop :=
  v.custody.metadata.find handle = some row ∧ kindOf handle = .endpointIdentity

/-- Material that is valid for its row. -/
def View.Holds (v : View) (handle : Handle) (row : SecretRef) : Prop :=
  ∃ material, v.custody.get handle = .ok material ∧ row.expectedIdentity = some (endpointId material)

/-- One identity at most: its material is there, it is the one that was handed out, and where the
profile began with a file it is that of the file, which is removed after it is recorded. -/
structure View.Good (v : View) : Prop where
  typed : ∀ handle row, v.custody.metadata.find handle = some row →
    row.kind = (kindOf handle).asStr ∧ ∃ state : SecretMetadataState, row.state = state.asStr
  enabled : ∀ handle row, v.Names kindOf handle row → row.state ≠ "disabled"
  whole : ∀ handle row, v.Names kindOf handle row → v.Holds endpointId handle row
  single : ∀ handle row handle' row', v.Names kindOf handle row → v.Names kindOf handle' row' → handle = handle'
  handed : ∀ identity ∈ v.handed, ∃ handle row, v.Names kindOf handle row ∧ row.expectedIdentity = some identity
  kept : ∀ text ∈ first, v.legacy = some text ∨ ∃ handle row, v.Names kindOf handle row
  migrated : ∀ text ∈ first, ∃ material, legacyKey decode (some text) = .ok material ∧
    ∀ handle row, v.Names kindOf handle row → row.expectedIdentity = some (endpointId material)
  legacy : ∀ text ∈ v.legacy, first = some text

structure Inv (s : Observed Profile History) : Prop where
  good : (viewOf s).Good endpointId decode kindOf first
  refused : ∀ i ∈ s.history.refused, i ∈ s.history.faulted
  locked : s.state.running = true → s.state.holder ≠ none

/-- The thread holds the lock, and its core has not come up. -/
structure Own (i : Nat) (s : Observed Profile History) : Prop where
  live : i ∈ s.state.live
  holder : s.state.holder = some i
  starting : s.state.running = false

def Lost (i : Nat) (s : Observed Profile History) : Prop := i ∈ s.history.faulted

/-- The profile is as the view has it, but for secrets that were changed from outside. -/
structure Matches (i : Nat) (v : View) (s : Observed Profile History) : Prop where
  metadata : s.state.custody.metadata = v.custody.metadata
  legacy : s.state.legacy = v.legacy
  handed : s.history.handed = v.handed
  identity : ∀ handle, kindOf handle = .endpointIdentity →
    s.state.custody.store.find handle = v.custody.store.find handle
  store : ¬Lost i s → s.state.custody.store = v.custody.store

/-- What the thread may count on between two of its operations. -/
def rely (i : Nat) (s t : Observed Profile History) : Prop :=
  (Lost i s → Lost i t) ∧
  (i ∈ t.state.live → i ∈ s.state.live ∧ (Own i s → Own i t ∧ Matches kindOf i (viewOf s) t))

theorem Matches.mono {i : Nat} {v : View} {s t : Observed Profile History} (before : Matches kindOf i v s)
    (later : Matches kindOf i (viewOf s) t) (lost : Lost i s → Lost i t) : Matches kindOf i v t where
  metadata := later.metadata.trans before.metadata
  legacy := later.legacy.trans before.legacy
  handed := later.handed.trans before.handed
  identity := fun handle kind => (later.identity handle kind).trans (before.identity handle kind)
  store := fun fine => (later.store fine).trans (before.store fun was => fine (lost was))

theorem Matches.self {i : Nat} {s : Observed Profile History} : Matches kindOf i (viewOf s) s :=
  ⟨rfl,rfl,rfl,fun _ _ => rfl,fun _ => rfl⟩

def terms : Terms (Observed Profile History) where
  known _ := True
  inv := Inv endpointId decode kindOf first
  rely := rely kindOf
  refl _ _ := ⟨id,fun live => ⟨live,fun own => ⟨own,.self kindOf⟩⟩⟩
  trans _ {_ _ _} a b := ⟨b.1 ∘ a.1,fun live => ⟨(a.2 (b.2 live).1).1,fun own =>
    have there := (a.2 (b.2 live).1).2 own
    have here := (b.2 live).2 there.1
    ⟨here.1,there.2.mono kindOf here.2 b.1⟩⟩⟩

/-- The store is not changed under a handle of an identity. -/
def spares : Guard (Observed Profile History) Call Op Choice Event where
  starts _ _ := True
  steps _ _ _ _ := True
  events s
    | .disturb store => ∀ handle, kindOf handle = .endpointIdentity →
        store.find handle = s.state.custody.store.find handle
    | .stop => True

/-- A profile without metadata, and the file of an earlier version where there is one. -/
structure Fresh (s : Profile) : Prop where
  metadata : s.custody.metadata = .empty
  legacy : s.legacy = first
  key : ∀ text ∈ first, ∃ material, legacyKey decode (some text) = .ok material
  live : s.live = []
  holder : s.holder = none
  running : s.running = false

end Views

section Rules

variable {endpointId : SecretMaterial → Text} {decode : Text → Option (List UInt8)} {kindOf : Handle → SecretKind}
  {first : Option Text} {i j : Nat} {call : Call} {s t : Observed Profile History} {v w : View} {α β : Type}

theorem get_same {c d : Custody} {handle : Handle} (same : d.store.find handle = c.store.find handle) :
    d.get handle = c.get handle := get_congr same

/-- Only the secrets of identities count. -/
theorem View.Good.same (good : v.Good endpointId decode kindOf first) (metadata : w.custody.metadata = v.custody.metadata)
    (legacy : w.legacy = v.legacy) (handed : w.handed = v.handed)
    (identity : ∀ handle, kindOf handle = .endpointIdentity → w.custody.store.find handle = v.custody.store.find handle) :
    w.Good endpointId decode kindOf first := by
  have names : ∀ handle row, w.Names kindOf handle row ↔ v.Names kindOf handle row := by
    intro handle row
    unfold View.Names
    rw [metadata]
  constructor
  · rw [metadata]
    exact good.typed
  · exact fun handle row there => good.enabled handle row ((names handle row).mp there)
  · intro handle row there
    obtain ⟨material,got,expected⟩ := good.whole handle row ((names handle row).mp there)
    exact ⟨material,(get_same (identity handle there.2)).trans got,expected⟩
  · exact fun handle row handle' row' a b =>
      good.single handle row handle' row' ((names handle row).mp a) ((names handle' row').mp b)
  · intro id listed
    obtain ⟨handle,row,there,expected⟩ := good.handed id (handed ▸ listed)
    exact ⟨handle,row,(names handle row).mpr there,expected⟩
  · intro text here
    rw [legacy]
    exact (good.kept text here).imp_right fun ⟨handle,row,there⟩ => ⟨handle,row,(names handle row).mpr there⟩
  · intro text here
    obtain ⟨material,key,same⟩ := good.migrated text here
    exact ⟨material,key,fun handle row there => same handle row ((names handle row).mp there)⟩
  · rw [legacy]
    exact good.legacy

theorem Matches.good (fits : Matches kindOf i v s) (good : v.Good endpointId decode kindOf first) :
    (viewOf s).Good endpointId decode kindOf first :=
  good.same fits.metadata fits.legacy fits.handed fits.identity

/-- Recording an operation other than the last. -/
theorem record_plain {o : Op} {r : Ans o} {h : History} (plain : ∀ result, o ≠ .conclude result) :
    h.record endpointId i call o r = { h with faulted := if faults o r then i :: h.faulted else h.faulted } := by
  cases o with
  | conclude result => exact absurd rfl (plain result)
  | _ => rfl

/-- The operations of a start between taking the lock and its end. -/
def Op.plain : Op → Bool
  | .enter | .lock | .conclude _ => false
  | _ => true

theorem perform_frame {p u : Profile} {o : Op} {c : Choice} {r : Ans o} (plain : o.plain = true)
    (ran : perform kindOf true p i o c = some (r,u)) :
    u.live = p.live ∧ u.holder = p.holder ∧ u.running = p.running := by
  have written : ∀ {ε : Type} (e : Except ε Custody), (p.write e).2.live = p.live ∧
      (p.write e).2.holder = p.holder ∧ (p.write e).2.running = p.running := by
    intro ε e
    cases e <;> exact ⟨rfl,rfl,rfl⟩
  cases o with
  | enter | lock | conclude => cases plain
  | stage | setState =>
    simp only [perform,Option.some.injEq] at ran
    split at ran
    · obtain ⟨-,rfl⟩ := Prod.mk.inj ran
      exact ⟨rfl,rfl,rfl⟩
    · have same : _ = u := congrArg Prod.snd ran
      exact same ▸ written _
  | delete =>
    simp only [perform] at ran
    split at ran
    · obtain ⟨-,rfl⟩ := Prod.mk.inj (Option.some.inj ran)
      split
      · exact written _
      · exact ⟨rfl,rfl,rfl⟩
    · have same : _ = u := congrArg Prod.snd (Option.some.inj ran)
      exact same ▸ written _
  | put | removeLegacy =>
    simp only [perform] at ran
    split at ran
    · obtain ⟨-,rfl⟩ := Prod.mk.inj (Option.some.inj ran)
      split <;> exact ⟨rfl,rfl,rfl⟩
    · obtain ⟨-,rfl⟩ := Prod.mk.inj (Option.some.inj ran)
      exact ⟨rfl,rfl,rfl⟩
  | generateHandle | resetMetadata =>
    simp only [perform] at ran
    split at ran <;> cases ran <;> exact ⟨rfl,rfl,rfl⟩
  | _ =>
    obtain ⟨-,rfl⟩ := Prod.mk.inj (Option.some.inj ran)
    exact ⟨rfl,rfl,rfl⟩

section Starts

variable (endpointId decode kindOf first)

/-- Runs that begin with a fresh profile, with a lock that is respected. -/
abbrev starts : Machine (Observed Profile History) Call Op Ans Choice Event :=
  machine endpointId decode kindOf true (Fresh decode first)

/-- Under the lock and with that view the program keeps the profile good. It ends with a view that
`post` admits, or with an error, which is excused or due to what went wrong for the thread. -/
def Does (i : Nat) (call : Call) (excused lost : Prop) (p : Task (Except Failure α)) (v : View)
    (post : α → View → Prop) : Prop :=
  ∀ s, Own i s → Matches kindOf i v s → (lost → Lost i s) →
    Safe (starts endpointId decode kindOf first) (spares kindOf) (terms endpointId decode kindOf first) i call p
      (fun r t => Own i t ∧ (lost → Lost i t) ∧ ∃ w : View, w.Good endpointId decode kindOf first ∧
        Matches kindOf i w t ∧ (∀ a, r = .ok a → post a w) ∧ ∀ e, r = .error e → excused ∨ Lost i t) s

end Starts

variable {excused lost : Prop} {post : β → View → Prop}

theorem does_ok {b : β} (good : v.Good endpointId decode kindOf first) (done : post b v) :
    Does endpointId decode kindOf first i call excused lost (pure (.ok b)) v post :=
  fun _ own fits was => ⟨own,was,v,good,fits,fun _ same => Except.ok.inj same ▸ done,by simp⟩

theorem does_error {e : Failure} (good : v.Good endpointId decode kindOf first) (due : excused ∨ lost) :
    Does endpointId decode kindOf first i call excused lost (pure (.error e)) v post :=
  fun _ own fits was => ⟨own,was,v,good,fits,by simp,fun _ _ => due.imp_right was⟩

theorem does_andThen {p : Task (Except Failure α)} {f : α → Task (Except Failure β)} {mid : α → View → Prop}
    (first_ : Does endpointId decode kindOf first i call excused lost p v mid)
    (rest : ∀ a w, w.Good endpointId decode kindOf first → mid a w →
      Does endpointId decode kindOf first i call excused lost (f a) w post) :
    Does endpointId decode kindOf first i call excused lost (p.andThen f) v post := by
  intro s own fits was
  refine safe_andThen (safe_mono ?_ (first_ s own fits was))
  rintro r t ⟨own,was,w,good,fits,done,due⟩
  exact ⟨fun a same => rest a w good (done a same) t own fits was,
    fun e same => ⟨own,was,w,good,fits,by simp,fun _ _ => due e same⟩⟩

theorem does_mono {p : Task (Except Failure β)} {weaker : β → View → Prop} (implies : ∀ b w, post b w → weaker b w)
    (does : Does endpointId decode kindOf first i call excused lost p v post) :
    Does endpointId decode kindOf first i call excused lost p v weaker := by
  intro s own fits was
  refine safe_mono ?_ (does s own fits was)
  rintro r t ⟨own,was,w,good,fits,done,due⟩
  exact ⟨own,was,w,good,fits,fun b same => implies b w (done b same),due⟩

/-- The state after an operation other than those of the lock. -/
def after (s : Observed Profile History) (i : Nat) (o : Op) (r : Ans o) (u : Profile) : Observed Profile History :=
  ⟨u,{ s.history with faulted := if faults o r then i :: s.history.faulted else s.history.faulted }⟩

theorem lost_after {o : Op} {r : Ans o} {u : Profile} : Lost j (after s i o r u) ↔
    Lost j s ∨ (j = i ∧ faults o r = true) := by
  unfold Lost after
  by_cases bad : faults o r = true
  · simp [bad,or_comm]
  · simp [bad]

/-- The rule of an operation of a start: what it answers, and the view it leaves. -/
theorem does_op {o : Op} {f : Ans o → Task (Except Failure β)} (plain : o.plain = true)
    (h : ∀ t, (lost → Lost i t) → Matches kindOf i v t → ∀ c r u, perform kindOf true t.state i o c = some (r,u) →
      ∃ w, w.Good endpointId decode kindOf first ∧ Matches kindOf i w (after t i o r u) ∧
        Does endpointId decode kindOf first i call excused (Lost i (after t i o r u)) (f r) w post) :
    Does endpointId decode kindOf first i call excused lost (Prog.perform o >>= f) v post := by
  intro s own fits was
  refine safe_perform ?_
  intro t _ inv relied c r u' _ ran
  obtain ⟨u,performed,rfl⟩ := observe_exec ran
  have record : t.history.record endpointId i call o r = (after t i o r u).history :=
    record_plain fun result same => by rw [same] at plain; cases plain
  have enters : o.enters = false := by cases o <;> first | rfl | cases plain
  simp only [profile,exec,enters,Bool.false_or] at performed
  split at performed
  · rename_i enabled
    have live : i ∈ t.state.live := by simpa using (Bool.and_eq_true_iff.mp enabled).1
    obtain ⟨own',fits'⟩ := (relied.2 live).2 own
    have fits' := fits.mono kindOf fits' relied.1
    obtain ⟨w,good,matches_,rest⟩ := h t (fun mine => relied.1 (was mine)) fits' c r u performed
    obtain ⟨sameLive,sameHolder,sameRunning⟩ := perform_frame plain performed
    have own'' : Own i (after t i o r u) :=
      ⟨sameLive ▸ own'.live,sameHolder.trans own'.holder,sameRunning.trans own'.starting⟩
    rw [record]
    refine ⟨⟨⟨matches_.good good,fun j refused => lost_after.mpr (.inl (inv.refused j refused)),?_⟩,?_⟩,?_⟩
    · intro runs
      exact absurd (own''.starting.symm.trans runs) (by decide)
    · intro j other
      refine ⟨fun was => lost_after.mpr (.inl was),fun there => ⟨sameLive ▸ there,fun theirs => ?_⟩⟩
      exact absurd (Option.some.inj (theirs.holder.symm.trans own'.holder)) other
    · refine safe_mono ?_ (rest _ own'' matches_ id)
      rintro b x ⟨own,still,done⟩
      exact ⟨own,fun mine => still (lost_after.mpr (.inl (relied.1 (was mine)))),done⟩
  · cases performed

theorem Matches.read {o : Op} {r : Ans o} (fits : Matches kindOf i v t) : Matches kindOf i v (after t i o r t.state) :=
  ⟨fits.metadata,fits.legacy,fits.handed,fits.identity,fun fine => fits.store fun was => fine (lost_after.mpr (.inl was))⟩

/-- An operation that changes nothing, and answers as the view says unless something goes wrong. -/
theorem does_query {o : Op} {f : Ans o → Task (Except Failure β)} {a : Ans o} (plain : o.plain = true)
    (good : v.Good endpointId decode kindOf first)
    (answers : ∀ t, Matches kindOf i v t → ∀ c r u, perform kindOf true t.state i o c = some (r,u) →
      u = t.state ∧ (r = a ∨ faults o r = true))
    (fine : ∀ l : Prop, (lost → l) → Does endpointId decode kindOf first i call excused l (f a) v post)
    (bad : ∀ r, faults o r = true → Does endpointId decode kindOf first i call excused True (f r) v post) :
    Does endpointId decode kindOf first i call excused lost (Prog.perform o >>= f) v post := by
  refine does_op plain fun t was fits c r u ran => ?_
  obtain ⟨rfl,rfl | wrong⟩ := answers t fits c r u ran
  · exact ⟨v,good,fits.read,fine _ fun mine => lost_after.mpr (.inl (was mine))⟩
  · refine ⟨v,good,fits.read,?_⟩
    rw [eq_true (lost_after.mpr (.inr ⟨rfl,wrong⟩) : Lost i _)]
    exact bad r wrong

theorem list_same {c d : Custody} (same : c.metadata = d.metadata) : c.list = d.list := by
  unfold Custody.list
  rw [same]

theorem find_same {c d : Custody} {handle : Handle} (same : c.metadata = d.metadata) : find c handle = find d handle := by
  unfold find
  rw [same]

theorem findActiveKind_same {c d : Custody} {kind : SecretKind} (same : c.metadata = d.metadata) :
    findActiveKind c kind = findActiveKind d kind := by
  unfold findActiveKind
  rw [same]

theorem View.Good.parsed (good : v.Good endpointId decode kindOf first) {handle : Handle} {row : SecretRef}
    (found : v.custody.metadata.find handle = some row) :
    ∃ entry, rowToMetadata row = .ok entry ∧ entry.handle = handle ∧ entry.kind = kindOf handle ∧
      row.state = entry.state.asStr ∧ entry.expectedIdentity = row.expectedIdentity := by
  obtain ⟨kind,state,named⟩ := good.typed handle row found
  exact ⟨⟨row.handle,kindOf handle,state,row.expectedIdentity⟩,rowToMetadata_ok.mpr ⟨kind,named,rfl,rfl⟩,
    (Table.find_key found : row.handle = handle),rfl,named,rfl⟩

theorem View.Good.listed (good : v.Good endpointId decode kindOf first) : ∃ entries, v.custody.list = .ok entries :=
  list_of_rows fun _ member =>
    have ⟨entry,parsed,_⟩ := good.parsed (Table.find_of_mem member)
    ⟨entry,parsed⟩

theorem does_list {g : List SecretMetadata → Task (Except Failure β)} (good : v.Good endpointId decode kindOf first)
    (h : ∀ entries, v.custody.list = .ok entries → ∀ l : Prop, (lost → l) →
      Does endpointId decode kindOf first i call excused l (g entries) v post) :
    Does endpointId decode kindOf first i call excused lost (Prog.andThen (op .list) g) v post := by
  obtain ⟨entries,listed⟩ := good.listed
  refine does_query (a := .ok entries) rfl good (fun t fits c r u ran => ?_) (h entries listed) fun r wrong => ?_
  · simp only [perform,Option.some.injEq,Prod.mk.injEq] at ran
    obtain ⟨rfl,rfl⟩ := ran
    refine ⟨rfl,?_⟩
    split
    · exact .inr rfl
    · exact .inl (by rw [list_same fits.metadata,listed]; rfl)
  · cases r with
    | ok => cases wrong
    | error e => exact does_error good (.inr trivial)

theorem does_find {g : Option SecretMetadata → Task (Except Failure β)} {handle : Handle} {row : SecretRef}
    (good : v.Good endpointId decode kindOf first) (found : v.custody.metadata.find handle = some row)
    (h : ∀ entry, rowToMetadata row = .ok entry → ∀ l : Prop, (lost → l) →
      Does endpointId decode kindOf first i call excused l (g (some entry)) v post) :
    Does endpointId decode kindOf first i call excused lost (Prog.andThen (op (.find handle)) g) v post := by
  obtain ⟨entry,parsed,_⟩ := good.parsed found
  refine does_query (a := .ok (some entry)) rfl good (fun t fits c r u ran => ?_) (h entry parsed) fun r wrong => ?_
  · simp only [perform,Option.some.injEq,Prod.mk.injEq] at ran
    obtain ⟨rfl,rfl⟩ := ran
    refine ⟨rfl,?_⟩
    split
    · exact .inr rfl
    · refine .inl ?_
      rw [find_same fits.metadata,find,found]
      simp only [metadataOf,parsed]
      rfl
  · cases r with
    | ok => cases wrong
    | error e => exact does_error good (.inr trivial)

/-- The active row of an identity, where there is one. -/
theorem View.Good.active (good : v.Good endpointId decode kindOf first) :
    (findActiveKind v.custody .endpointIdentity = .ok none ∧ ∀ handle row, v.Names kindOf handle row → row.state ≠ "active") ∨
    ∃ entry row, findActiveKind v.custody .endpointIdentity = .ok (some entry) ∧ v.Names kindOf entry.handle row ∧
      row.state = "active" := by
  unfold findActiveKind
  dsimp only
  split
  · rename_i none
    refine .inl ⟨rfl,fun handle row named active => ?_⟩
    have empty := List.eq_nil_of_length_eq_zero ((List.length_mergeSort _).symm.trans
      (congrArg List.length (List.head?_eq_none_iff.mp none)))
    have there : row ∈ v.custody.metadata.rows.filter fun row =>
        row.kind = SecretKind.endpointIdentity.asStr && row.state = "active" := by
      refine List.mem_filter.mpr ⟨Table.find_mem named.1,?_⟩
      rw [(good.typed handle row named.1).1,named.2,active]
      decide
    rw [empty] at there
    cases there
  · rename_i row head
    have there := List.mem_mergeSort.mp (List.mem_of_head? head)
    obtain ⟨member,both⟩ := List.mem_filter.mp there
    have found := Table.find_of_mem member
    obtain ⟨entry,parsed,handle,kind,_⟩ := good.parsed found
    simp only [Bool.and_eq_true,decide_eq_true_eq] at both
    have identity : kindOf row.handle = .endpointIdentity := by
      have same := (good.typed row.handle row found).1.symm.trans both.1
      revert same
      cases kindOf row.handle <;> decide
    refine .inr ⟨entry,row,?_,⟨by rw [handle]; exact found,by rw [handle]; exact identity⟩,both.2⟩
    simp only [metadataOf,parsed]
    rfl

theorem does_findActive {g : Option SecretMetadata → Task (Except Failure β)} {a : Option SecretMetadata}
    (good : v.Good endpointId decode kindOf first) (answer : findActiveKind v.custody .endpointIdentity = .ok a)
    (h : ∀ l : Prop, (lost → l) → Does endpointId decode kindOf first i call excused l (g a) v post) :
    Does endpointId decode kindOf first i call excused lost
      (Prog.andThen (op (.findActiveKind .endpointIdentity)) g) v post := by
  refine does_query (a := .ok a) rfl good (fun t fits c r u ran => ?_) h fun r wrong => ?_
  · simp only [perform,Option.some.injEq,Prod.mk.injEq] at ran
    obtain ⟨rfl,rfl⟩ := ran
    refine ⟨rfl,?_⟩
    split
    · exact .inr rfl
    · exact .inl ((findActiveKind_same fits.metadata).trans answer)
  · cases r with
    | ok => cases wrong
    | error e => exact does_error good (.inr trivial)

theorem storeFault_outage {α : Type} (locked : Bool) : storeFault (.error (outageError locked) : Except _ α) = true := by
  cases locked <;> rfl

theorem perform_get {p u : Profile} {handle : Handle} {c : Choice} {r : Except SecureSecretStoreError SecretMaterial}
    (ran : perform kindOf true p i (.get handle) c = some (r,u)) :
    u = p ∧ (r = p.custody.get handle ∨ storeFault r = true) := by
  simp only [perform,Option.some.injEq,Prod.mk.injEq] at ran
  obtain ⟨rfl,rfl⟩ := ran
  refine ⟨rfl,?_⟩
  split
  · exact .inr (storeFault_outage _)
  · exact .inl rfl

/-- A secret as it is read: under a handle of an identity there is no other answer than the true one
or an outage. -/
theorem does_get {handle : Handle} {f : Except SecureSecretStoreError SecretMaterial → Task (Except Failure β)}
    (good : v.Good endpointId decode kindOf first)
    (h : ∀ r, ∀ l : Prop, (lost → l) →
      (kindOf handle = .endpointIdentity → r = v.custody.get handle ∨ storeFault r = true) → (storeFault r = true → l) →
      Does endpointId decode kindOf first i call excused l (f r) v post) :
    Does endpointId decode kindOf first i call excused lost (Prog.perform (.get handle) >>= f) v post := by
  refine does_op rfl fun t was fits c r u ran => ?_
  obtain ⟨rfl,answer⟩ := perform_get ran
  refine ⟨v,good,fits.read,h r _ (fun mine => lost_after.mpr (.inl (was mine))) (fun identity => ?_) fun fault => ?_⟩
  · exact answer.imp_left fun same => same.trans (get_same (fits.identity handle identity))
  · exact lost_after.mpr (.inr ⟨rfl,fault⟩)

/-! What the writes leave of a good profile. -/

def View.withStore (v : View) (store : Table StoredSecret.handle) : View := { v with custody := { v.custody with store } }

def View.dropped (v : View) (handle : Handle) : View := v.withStore (v.custody.store.delete handle)

def View.stored (v : View) (handle : Handle) (material : SecretMaterial) : View :=
  { v with custody := put v.custody handle material }

def View.marked (v : View) (handle : Handle) (state : SecretMetadataState) (now : Millis) : View :=
  { v with custody := v.custody.setState handle state now }

def View.withMetadata (v : View) (metadata : Table SecretRef.handle) : View :=
  { v with custody := { v.custody with metadata } }

theorem length_le_one {γ : Type} {l : List γ} (nodup : l.Nodup) (same : ∀ a ∈ l, ∀ b ∈ l, a = b) : l.length ≤ 1 := by
  match l with
  | [] => exact Nat.zero_le _
  | [_] => exact Nat.le_refl _
  | a :: b :: rest =>
    exact absurd (same a (by simp) b (by simp)) fun eq => (List.nodup_cons.mp nodup).1 (eq ▸ List.mem_cons_self)

/-- The unique index is no obstacle. -/
theorem View.Good.indexed (good : v.Good endpointId decode kindOf first) : indexed v.custody.metadata = true := by
  unfold EndpointIdentity.indexed
  rw [decide_eq_true_eq]
  refine length_le_one (v.custody.metadata.unique.of_map.filter _) fun a ha b hb => ?_
  have named : ∀ x ∈ v.custody.metadata.rows.filter fun row =>
      row.kind = "endpoint-identity" && row.state != "disabled", v.Names kindOf x.handle x := by
    intro x there
    obtain ⟨member,both⟩ := List.mem_filter.mp there
    have found := Table.find_of_mem member
    refine ⟨found,?_⟩
    have same := (good.typed x.handle x found).1.symm.trans (of_decide_eq_true (Bool.and_eq_true_iff.mp both).1)
    revert same
    cases kindOf x.handle <;> decide
  have same := good.single _ _ _ _ (named a ha) (named b hb)
  have one := (named a ha).1.symm.trans (same ▸ (named b hb).1)
  exact Option.some.inj one

theorem View.Good.withStore (good : v.Good endpointId decode kindOf first) {t : Table StoredSecret.handle}
    (kept : ∀ handle row, v.Names kindOf handle row → t.find handle = v.custody.store.find handle) :
    (v.withStore t).Good endpointId decode kindOf first :=
  { good with
    whole := fun handle row there =>
      have ⟨material,got,expected⟩ := good.whole handle row there
      ⟨material,(get_same (kept handle row there)).trans got,expected⟩ }

theorem View.Good.dropped (good : v.Good endpointId decode kindOf first) {handle : Handle}
    (clean : ∀ row, ¬v.Names kindOf handle row) : (v.dropped handle).Good endpointId decode kindOf first :=
  good.withStore fun _ row there => Table.find_delete_other _ fun same => clean row (same ▸ there)

theorem find_put {c : Custody} {handle k : Handle} {material : SecretMaterial} :
    (put c handle material).store.find k = if k = handle then some ⟨handle,.bytes material.bytes⟩ else c.store.find k := by
  unfold put Table.insertOrIgnore
  cases inserted : (c.store.delete handle).insert ⟨handle,.bytes material.bytes⟩ with
  | none =>
    have present := Table.insert_isSome (t := c.store.delete handle) (r := ⟨handle,.bytes material.bytes⟩)
    simp [inserted] at present
  | some t =>
    rw [Option.getD_some,Table.find_insert inserted]
    split
    · rfl
    · rename_i other
      exact Table.find_delete_other _ other

theorem get_put {c : Custody} {handle : Handle} {material : SecretMaterial} :
    (put c handle material).get handle = .ok material := by
  unfold Custody.get
  rw [find_put,if_pos rfl]
  simp only [SecretMaterial.new,dif_pos material.valid]

theorem View.Good.stored (good : v.Good endpointId decode kindOf first) {handle : Handle} {material : SecretMaterial}
    (clean : ∀ row, ¬v.Names kindOf handle row) : (v.stored handle material).Good endpointId decode kindOf first :=
  good.withStore (t := (put v.custody handle material).store) fun k row there => by
    have other : k ≠ handle := fun same => clean row (same ▸ there)
    exact find_put.trans (if_neg other)

theorem marked_names {handle k : Handle} {state : SecretMetadataState} {now : Millis} {row : SecretRef}
    (there : (v.marked handle state now).Names kindOf k row) : ∃ old, v.Names kindOf k old ∧
      row.expectedIdentity = old.expectedIdentity ∧ (k ≠ handle → row = old) ∧ (k = handle → row.state = state.asStr) := by
  obtain ⟨found,kind⟩ := there
  unfold View.marked at found
  dsimp only at found
  rw [find_setState] at found
  split at found
  · rename_i same
    obtain ⟨old,there,rfl⟩ := Option.map_eq_some_iff.mp found
    exact ⟨old,⟨same ▸ there,kind⟩,rfl,fun other => absurd same other,fun _ => rfl⟩
  · rename_i other
    exact ⟨row,⟨found,kind⟩,rfl,fun _ => rfl,fun same => absurd same other⟩

theorem marked_still {handle k : Handle} {state : SecretMetadataState} {now : Millis} {old : SecretRef}
    (there : v.Names kindOf k old) : ∃ row, (v.marked handle state now).Names kindOf k row ∧
      row.expectedIdentity = old.expectedIdentity ∧ (k = handle → row.state = state.asStr) := by
  unfold View.marked View.Names
  dsimp only
  rw [find_setState]
  split
  · rename_i same
    subst same
    exact ⟨{ old with state := state.asStr, updatedAt := now },⟨by rw [there.1]; rfl,there.2⟩,rfl,fun _ => rfl⟩
  · rename_i other
    exact ⟨old,there,rfl,fun same => absurd same other⟩

theorem View.Good.marked (good : v.Good endpointId decode kindOf first) {handle : Handle} {state : SecretMetadataState}
    {now : Millis} (stays : kindOf handle = .endpointIdentity → state ≠ .disabled) :
    (v.marked handle state now).Good endpointId decode kindOf first where
  typed := by
    intro k row found
    unfold View.marked at found
    dsimp only at found
    rw [find_setState] at found
    split at found
    · rename_i same
      subst same
      obtain ⟨old,there,rfl⟩ := Option.map_eq_some_iff.mp found
      exact ⟨(good.typed k old there).1,state,rfl⟩
    · exact good.typed k row found
  enabled := by
    intro k row there
    obtain ⟨old,was,-,other,own⟩ := marked_names there
    by_cases same : k = handle
    · rw [own same]
      have := stays (same ▸ there.2)
      cases state <;> first | decide | exact absurd rfl this
    · exact other same ▸ good.enabled k old was
  whole := by
    intro k row there
    obtain ⟨old,was,expected,-,-⟩ := marked_names there
    obtain ⟨material,got,same⟩ := good.whole k old was
    exact ⟨material,got,expected.trans same⟩
  single := by
    intro k row k' row' a b
    obtain ⟨old,was,-,-,-⟩ := marked_names a
    obtain ⟨old',was',-,-,-⟩ := marked_names b
    exact good.single k old k' old' was was'
  handed := by
    intro id listed
    obtain ⟨k,old,was,same⟩ := good.handed id listed
    obtain ⟨row,there,expected,-⟩ := marked_still was
    exact ⟨k,row,there,expected.trans same⟩
  kept := by
    intro text here
    refine (good.kept text here).imp_right ?_
    rintro ⟨k,old,was⟩
    obtain ⟨row,there,-,-⟩ := marked_still was
    exact ⟨k,row,there⟩
  migrated := by
    intro text here
    obtain ⟨material,key,same⟩ := good.migrated text here
    refine ⟨material,key,fun k row there => ?_⟩
    obtain ⟨old,was,expected,-,-⟩ := marked_names there
    exact expected.trans (same k old was)
  legacy := good.legacy

/-! The rules of the operations that write. -/

theorem write_ok {ε : Type} {p : Profile} {c : Custody} : p.write (.ok c : Except ε Custody) = (.ok (),{ p with custody := c }) := rfl

theorem Matches.wrote {o : Op} {r : Ans o} {c : Custody} (fits : Matches kindOf i v t)
    (metadata : c.metadata = w.custody.metadata) (legacy : w.legacy = v.legacy) (handed : w.handed = v.handed)
    (identity : ∀ handle, kindOf handle = .endpointIdentity → c.store.find handle = w.custody.store.find handle)
    (store : ¬Lost i t → faults o r = false → c.store = w.custody.store) :
    Matches kindOf i w (after t i o r { t.state with custody := c }) where
  metadata := metadata
  legacy := fits.legacy.trans legacy.symm
  handed := fits.handed.trans handed.symm
  identity := identity
  store := by
    intro fine
    rw [lost_after,not_or] at fine
    exact store fine.1 (by simpa using fine.2)

theorem does_setState {g : Unit → Task (Except Failure β)} {handle : Handle} {state : SecretMetadataState}
    (good : v.Good endpointId decode kindOf first) (stays : kindOf handle = .endpointIdentity → state ≠ .disabled)
    (h : ∀ now, ∀ l : Prop, (lost → l) →
      Does endpointId decode kindOf first i call excused l (g ()) (v.marked handle state now) post) :
    Does endpointId decode kindOf first i call excused lost (Prog.andThen (op (.setState handle state)) g) v post := by
  refine does_op rfl fun t was fits c r u ran => ?_
  simp only [perform,Option.some.injEq] at ran
  split at ran
  · obtain ⟨rfl,rfl⟩ := Prod.mk.inj ran
    exact ⟨v,good,fits.read,does_error good (.inr (lost_after.mpr (.inr ⟨rfl,rfl⟩)))⟩
  · have good' : (v.marked handle state c.now).Good endpointId decode kindOf first := good.marked stays
    have free : indexed (t.state.custody.setState handle state c.now).metadata = true := by
      have same : (t.state.custody.setState handle state c.now).metadata =
          (v.marked handle state c.now).custody.metadata := by
        simp only [View.marked,Custody.setState,fits.metadata]
      rw [same]
      exact good'.indexed
    rw [EndpointIdentity.setState,if_pos free,write_ok] at ran
    obtain ⟨rfl,rfl⟩ := Prod.mk.inj ran
    refine ⟨v.marked handle state c.now,good',fits.wrote ?_ rfl rfl ?_ ?_,h _ _ fun mine => lost_after.mpr (.inl (was mine))⟩
    · simp only [View.marked,Custody.setState,fits.metadata]
    · exact fits.identity
    · exact fun fine _ => fits.store fine

theorem does_delete {handle : Handle} {f : Except SecureSecretStoreError Unit → Task (Except Failure β)}
    (good : v.Good endpointId decode kindOf first) (clean : ∀ row, ¬v.Names kindOf handle row)
    (fine : ∀ r, ∀ l : Prop, (lost → l) → (r = .ok () ∨ r = .error .missing) →
      (l ∨ (v.custody.store.find handle ≠ none → r = .ok ())) →
      Does endpointId decode kindOf first i call excused l (f r) (v.dropped handle) post)
    (bad : ∀ e w, storeFault (.error e : Except _ Unit) = true → w.Good endpointId decode kindOf first →
      Does endpointId decode kindOf first i call excused True (f (.error e)) w post) :
    Does endpointId decode kindOf first i call excused lost (Prog.perform (.delete handle) >>= f) v post := by
  have good' := good.dropped clean
  refine does_op rfl fun t was fits c r u ran => ?_
  have deleted : (t.state.write (t.state.custody.delete handle)).2 =
        { t.state with custody := { t.state.custody with store := t.state.custody.store.delete handle } } ∧
      ((t.state.write (t.state.custody.delete handle)).1 = .ok () ∨
        t.state.custody.store.find handle = none ∧
        (t.state.write (t.state.custody.delete handle)).1 = .error .missing) := by
    rcases delete_cases t.state.custody handle with ⟨absent,eq⟩ | ⟨_,eq⟩
    · rw [eq]
      exact ⟨by simp only [Profile.write,Table.delete_eq_self.mpr absent],.inr ⟨absent,rfl⟩⟩
    · rw [eq]
      exact ⟨rfl,.inl rfl⟩
  have fits' : ∀ r, Matches kindOf i (v.dropped handle) (after t i (.delete handle) r
      { t.state with custody := { t.state.custody with store := t.state.custody.store.delete handle } }) := by
    intro r
    refine fits.wrote fits.metadata rfl rfl (fun k kind => ?_) fun fine _ => ?_
    · show (t.state.custody.store.delete handle).find k = (v.custody.store.delete handle).find k
      rw [Table.find_delete,Table.find_delete,fits.identity k kind]
    · exact congrArg (·.delete handle) (fits.store fine)
  simp only [perform] at ran
  split at ran
  · rename_i locked _
    obtain ⟨rfl,rfl⟩ := Prod.mk.inj (Option.some.inj ran)
    have wrong : Lost i (after t i (.delete handle) (.error (outageError locked))
        (if c.effect then (t.state.write (t.state.custody.delete handle)).2 else t.state)) :=
      lost_after.mpr (.inr ⟨rfl,storeFault_outage locked⟩)
    rw [eq_true wrong]
    split
    · rw [deleted.1]
      exact ⟨_,good',fits' _,bad _ _ (storeFault_outage locked) good'⟩
    · exact ⟨v,good,fits.read,bad _ _ (storeFault_outage locked) good⟩
  · have same := Option.some.inj ran
    have sameU : _ = u := congrArg Prod.snd same
    have sameR : _ = r := congrArg Prod.fst same
    rw [deleted.1] at sameU
    subst sameU
    rw [← sameR]
    refine ⟨_,good',fits' _,fine _ _ (fun mine => lost_after.mpr (.inl (was mine))) (deleted.2.imp_right And.right) ?_⟩
    by_cases mine : Lost i t
    · exact .inl (lost_after.mpr (.inl mine))
    · rw [← fits.store mine]
      exact .inr fun there => deleted.2.resolve_right fun gone => there gone.1

theorem does_put {handle : Handle} {material : SecretMaterial} {g : Unit → Task (Except Failure β)}
    (good : v.Good endpointId decode kindOf first) (clean : ∀ row, ¬v.Names kindOf handle row)
    (h : ∀ l : Prop, (lost → l) →
      Does endpointId decode kindOf first i call excused l (g ()) (v.stored handle material) post) :
    Does endpointId decode kindOf first i call excused lost ((storePut handle material).andThen g) v post := by
  show Does endpointId decode kindOf first i call excused lost (Prog.perform (.put handle material) >>=
    fun r : Except SecureSecretStoreError Unit =>
      Prog.andThen (pure (r.mapError fun e => .custody (mapStoreError e))) g) v post
  have good' : (v.stored handle material).Good endpointId decode kindOf first := good.stored clean
  refine does_op rfl fun t was fits c r u ran => ?_
  have fits' : ∀ r, Matches kindOf i (v.stored handle material) (after t i (.put handle material) r
      { t.state with custody := put t.state.custody handle material }) := by
    intro r
    refine fits.wrote fits.metadata rfl rfl (fun k kind => ?_) fun fine _ => ?_
    · show (put t.state.custody handle material).store.find k = (put v.custody handle material).store.find k
      rw [find_put,find_put,fits.identity k kind]
    · exact congrArg (fun store => (Table.delete store handle).insertOrIgnore ⟨handle,.bytes material.bytes⟩) (fits.store fine)
  simp only [perform] at ran
  split at ran
  · rename_i locked _
    obtain ⟨rfl,rfl⟩ := Prod.mk.inj (Option.some.inj ran)
    have wrong : Lost i (after t i (.put handle material) (.error (outageError locked))
        (if c.effect then { t.state with custody := put t.state.custody handle material } else t.state)) :=
      lost_after.mpr (.inr ⟨rfl,storeFault_outage locked⟩)
    rw [eq_true wrong]
    split
    · exact ⟨_,good',fits' _,does_error good' (.inr trivial)⟩
    · exact ⟨v,good,fits.read,does_error good (.inr trivial)⟩
  · obtain ⟨rfl,rfl⟩ := Prod.mk.inj (Option.some.inj ran)
    exact ⟨_,good',fits' _,h _ fun mine => lost_after.mpr (.inl (was mine))⟩

theorem View.Good.staged (good : v.Good endpointId decode kindOf first) {handle : Handle} {row : SecretRef}
    {material : SecretMaterial} {metadata : Table SecretRef.handle} (none : ∀ k row, ¬v.Names kindOf k row)
    (inserted : v.custody.metadata.insert row = some metadata) (handled : row.handle = handle)
    (kind : kindOf handle = .endpointIdentity) (kindText : row.kind = SecretKind.endpointIdentity.asStr)
    (state : row.state = SecretMetadataState.staged.asStr) (expected : row.expectedIdentity = some (endpointId material))
    (got : v.custody.get handle = .ok material)
    (same : ∀ text ∈ first, ∃ legacy, legacyKey decode (some text) = .ok legacy ∧ endpointId legacy = endpointId material) :
    (v.withMetadata metadata).Good endpointId decode kindOf first := by
  have found : ∀ k x, metadata.find k = some x ↔ (k = handle ∧ x = row) ∨ (k ≠ handle ∧ v.custody.metadata.find k = some x) := by
    intro k x
    rw [Table.find_insert inserted,handled]
    by_cases here : k = handle
    · simp [here,eq_comm]
    · simp [here]
  have alone : ∀ k x, (v.withMetadata metadata).Names kindOf k x ↔ k = handle ∧ x = row := by
    intro k x
    constructor
    · rintro ⟨there,identity⟩
      rcases (found k x).mp there with new | ⟨-,old⟩
      · exact new
      · exact absurd ⟨old,identity⟩ (none k x)
    · rintro ⟨rfl,rfl⟩
      exact ⟨(found _ _).mpr (.inl ⟨rfl,rfl⟩),kind⟩
  constructor
  · intro k x there
    rcases (found k x).mp there with ⟨rfl,rfl⟩ | ⟨-,old⟩
    · exact ⟨kind ▸ kindText,_,state⟩
    · exact good.typed k x old
  · intro k x there
    rw [((alone k x).mp there).2,state]
    decide
  · intro k x there
    obtain ⟨rfl,rfl⟩ := (alone k x).mp there
    exact ⟨material,got,expected⟩
  · exact fun k x k' x' a b => ((alone k x).mp a).1.trans ((alone k' x').mp b).1.symm
  · intro id listed
    obtain ⟨k,x,there,-⟩ := good.handed id listed
    exact absurd there (none k x)
  · exact fun text _ => .inr ⟨handle,row,(alone handle row).mpr ⟨rfl,rfl⟩⟩
  · intro text here
    obtain ⟨legacy,key,agrees⟩ := same text here
    refine ⟨legacy,key,fun k x there => ?_⟩
    rw [((alone k x).mp there).2,expected,agrees]
  · exact good.legacy

theorem does_stage {handle : Handle} {kind : SecretKind} {expected : Option Text}
    {f : Except Failure Unit → Task (Except Failure β)} (good : v.Good endpointId decode kindOf first)
    (fresh : v.custody.metadata.find handle = none)
    (good' : ∀ now metadata,
      v.custody.metadata.insert ⟨handle,kind.asStr,SecretMetadataState.staged.asStr,expected,now,now⟩ = some metadata →
      (v.withMetadata metadata).Good endpointId decode kindOf first)
    (fine : ∀ now metadata,
      v.custody.metadata.insert ⟨handle,kind.asStr,SecretMetadataState.staged.asStr,expected,now,now⟩ = some metadata →
      ∀ l : Prop, (lost → l) →
        Does endpointId decode kindOf first i call excused l (f (.ok ())) (v.withMetadata metadata) post)
    (bad : ∀ e, Does endpointId decode kindOf first i call excused True (f (.error e)) v post) :
    Does endpointId decode kindOf first i call excused lost (Prog.perform (.stage handle kind expected) >>= f) v post := by
  refine does_op rfl fun t was fits c r u ran => ?_
  simp only [perform,Option.some.injEq] at ran
  split at ran
  · obtain ⟨rfl,rfl⟩ := Prod.mk.inj ran
    refine ⟨v,good,fits.read,?_⟩
    rw [eq_true (lost_after.mpr (.inr ⟨rfl,rfl⟩) : Lost i _)]
    exact bad .repository
  · have present := Table.insert_isSome (t := v.custody.metadata)
      (r := ⟨handle,kind.asStr,SecretMetadataState.staged.asStr,expected,c.now,c.now⟩)
    obtain ⟨metadata,inserted⟩ := Option.isSome_iff_exists.mp (present.mpr fresh)
    have staged := good' c.now metadata inserted
    have free : EndpointIdentity.indexed metadata = true := staged.indexed
    rw [EndpointIdentity.stage,fits.metadata,inserted] at ran
    simp only [free,if_true,write_ok] at ran
    obtain ⟨rfl,rfl⟩ := Prod.mk.inj ran
    refine ⟨_,staged,fits.wrote rfl rfl rfl fits.identity fun fine _ => fits.store fine,
      fine c.now metadata inserted _ fun mine => lost_after.mpr (.inl (was mine))⟩

theorem does_generateHandle {kind : SecretKind} {f : Handle → Task (Except Failure β)}
    (good : v.Good endpointId decode kindOf first)
    (h : ∀ handle, kindOf handle = kind → v.custody.metadata.find handle = none → ∀ l : Prop, (lost → l) →
      Does endpointId decode kindOf first i call excused l (f handle) v post) :
    Does endpointId decode kindOf first i call excused lost (Prog.perform (.generateHandle kind) >>= f) v post := by
  refine does_op rfl fun t was fits c r u ran => ?_
  simp only [perform] at ran
  split at ran
  · rename_i drawn
    obtain ⟨rfl,rfl⟩ := Prod.mk.inj (Option.some.inj ran)
    exact ⟨v,good,⟨fits.metadata,fits.legacy,fits.handed,fits.identity,
      fun fine => fits.store fun was => fine (lost_after.mpr (.inl was))⟩,
      h c.handle drawn.1 (fits.metadata ▸ drawn.2.2) _ fun mine => lost_after.mpr (.inl (was mine))⟩
  · cases ran

theorem does_generateKey {f : SecretMaterial → Task (Except Failure β)} (good : v.Good endpointId decode kindOf first)
    (h : ∀ material, ∀ l : Prop, (lost → l) → Does endpointId decode kindOf first i call excused l (f material) v post) :
    Does endpointId decode kindOf first i call excused lost (Prog.perform .generateKey >>= f) v post := by
  refine does_op rfl fun t was fits c r u ran => ?_
  obtain ⟨rfl,rfl⟩ := Prod.mk.inj (Option.some.inj ran)
  exact ⟨v,good,fits.read,h _ _ fun mine => lost_after.mpr (.inl (was mine))⟩

/-- The file is only removed when its key is recorded. -/
theorem View.Good.removed (good : v.Good endpointId decode kindOf first) {handle : Handle} {row : SecretRef}
    (named : v.Names kindOf handle row) : { v with legacy := none }.Good endpointId decode kindOf first :=
  { good with
    kept := fun _ _ => .inr ⟨handle,row,named⟩
    legacy := fun _ none => absurd none (by simp) }

theorem does_removeLegacy {g : Unit → Task (Except Failure β)} {handle : Handle} {row : SecretRef}
    (good : v.Good endpointId decode kindOf first) (named : v.Names kindOf handle row)
    (h : ∀ l : Prop, (lost → l) →
      Does endpointId decode kindOf first i call excused l (g ()) { v with legacy := none } post) :
    Does endpointId decode kindOf first i call excused lost (Prog.andThen (op .removeLegacy) g) v post := by
  have good' := good.removed named
  refine does_op rfl fun t was fits c r u ran => ?_
  have fits' : ∀ r, Matches kindOf i { v with legacy := none } (after t i .removeLegacy r { t.state with legacy := none }) :=
    fun r => ⟨fits.metadata,rfl,fits.handed,fits.identity,fun fine => fits.store fun was => fine (lost_after.mpr (.inl was))⟩
  simp only [perform] at ran
  split at ran
  · obtain ⟨rfl,rfl⟩ := Prod.mk.inj (Option.some.inj ran)
    split
    · exact ⟨_,good',fits' _,does_error good' (.inr (lost_after.mpr (.inr ⟨rfl,rfl⟩)))⟩
    · exact ⟨v,good,fits.read,does_error good (.inr (lost_after.mpr (.inr ⟨rfl,rfl⟩)))⟩
  · obtain ⟨rfl,rfl⟩ := Prod.mk.inj (Option.some.inj ran)
    exact ⟨_,good',fits' _,h _ fun mine => lost_after.mpr (.inl (was mine))⟩

theorem does_readLegacy {f : Except Failure SecretMaterial → Task (Except Failure β)}
    (good : v.Good endpointId decode kindOf first)
    (fine : ∀ l : Prop, (lost → l) →
      Does endpointId decode kindOf first i call excused l (f (legacyKey decode v.legacy)) v post)
    (bad : Does endpointId decode kindOf first i call excused True (f (.error .filesystem)) v post) :
    Does endpointId decode kindOf first i call excused lost (readLegacyEndpointIdentity decode >>= f) v post := by
  refine does_query (o := .readLegacy) (a := .ok v.legacy) rfl good (fun t fits c r u ran => ?_) fine fun r wrong => ?_
  · simp only [perform,Option.some.injEq,Prod.mk.injEq] at ran
    obtain ⟨rfl,rfl⟩ := ran
    refine ⟨rfl,?_⟩
    split
    · exact .inr rfl
    · exact .inl (by rw [fits.legacy])
  · cases r with
    | ok => cases wrong
    | error e =>
      cases e with
      | filesystem => exact bad
      | _ => cases wrong

theorem does_legacyExists {g : Bool → Task (Except Failure β)} (good : v.Good endpointId decode kindOf first)
    (h : ∀ l : Prop, (lost → l) → Does endpointId decode kindOf first i call excused l (g v.legacy.isSome) v post) :
    Does endpointId decode kindOf first i call excused lost (Prog.andThen (op .legacyExists) g) v post := by
  refine does_query (a := .ok v.legacy.isSome) rfl good (fun t fits c r u ran => ?_) h fun r wrong => ?_
  · simp only [perform,Option.some.injEq,Prod.mk.injEq] at ran
    obtain ⟨rfl,rfl⟩ := ran
    refine ⟨rfl,?_⟩
    split
    · exact .inr rfl
    · exact .inl (by rw [fits.legacy])
  · cases r with
    | ok => cases wrong
    | error e => exact does_error good (.inr trivial)

theorem does_containsKind {g : Bool → Task (Except Failure β)} {kind : SecretKind}
    (good : v.Good endpointId decode kindOf first)
    (h : ∀ l : Prop, (lost → l) →
      Does endpointId decode kindOf first i call excused l (g (containsKind v.custody kind)) v post) :
    Does endpointId decode kindOf first i call excused lost (Prog.andThen (op (.containsKind kind)) g) v post := by
  refine does_query (a := .ok (containsKind v.custody kind)) rfl good (fun t fits c r u ran => ?_) h fun r wrong => ?_
  · simp only [perform,Option.some.injEq,Prod.mk.injEq] at ran
    obtain ⟨rfl,rfl⟩ := ran
    refine ⟨rfl,?_⟩
    split
    · exact .inr rfl
    · exact .inl (by rw [containsKind,containsKind,fits.metadata])
  · cases r with
    | ok => cases wrong
    | error e => exact does_error good (.inr trivial)

theorem does_waitForActive {f : Except Failure Handle → Task (Except Failure β)}
    (good : v.Good endpointId decode kindOf first)
    (fine : ∀ handle row, v.Names kindOf handle row → row.state = "active" → ∀ l : Prop, (lost → l) →
      Does endpointId decode kindOf first i call excused l (f (.ok handle)) v post)
    (bad : ∀ e, ∀ l : Prop, (lost → l) → Does endpointId decode kindOf first i call excused l (f (.error e)) v post) :
    Does endpointId decode kindOf first i call excused lost (Prog.perform .waitForActive >>= f) v post := by
  refine does_op rfl fun t was fits c r u ran => ?_
  simp only [perform,Option.some.injEq,Prod.mk.injEq] at ran
  obtain ⟨rfl,rfl⟩ := ran
  refine ⟨v,good,fits.read,?_⟩
  have still : ∀ r, lost → Lost i (after t i .waitForActive r t.state) := fun _ mine => lost_after.mpr (.inl (was mine))
  generalize answer : (if c.outage.isSome = true then Except.error Failure.repository else _) = r
  cases r with
  | error e => exact bad e _ (still _)
  | ok handle =>
    split at answer
    · cases answer
    · rw [findActiveKind_same fits.metadata] at answer
      rcases good.active with ⟨none,-⟩ | ⟨entry,row,some,named,active⟩
      · rw [none] at answer
        cases answer
      · rw [some] at answer
        cases answer
        exact fine entry.handle row named active _ (still _)

theorem does_listHandles {g : List Handle → Task (Except Failure β)} (good : v.Good endpointId decode kindOf first)
    (h : ∀ handles, handles.Nodup → ∀ l : Prop, (lost → l) → (l ∨ handles = v.custody.listHandles) →
      Does endpointId decode kindOf first i call excused l (g handles) v post) :
    Does endpointId decode kindOf first i call excused lost (storeListHandles.andThen g) v post := by
  show Does endpointId decode kindOf first i call excused lost (Prog.perform .listHandles >>=
    fun r : Except SecureSecretStoreError (List Handle) =>
      Prog.andThen (pure (r.mapError fun e => .custody (mapStoreError e))) g) v post
  refine does_op rfl fun t was fits c r u ran => ?_
  simp only [perform,Option.some.injEq,Prod.mk.injEq] at ran
  obtain ⟨same,rfl⟩ := ran
  refine ⟨v,good,fits.read,?_⟩
  split at same
  · rename_i locked _
    subst same
    exact does_error good (.inr (lost_after.mpr (.inr ⟨rfl,storeFault_outage locked⟩)))
  · subst same
    refine h _ t.state.custody.store.unique _ (fun mine => lost_after.mpr (.inl (was mine))) ?_
    by_cases mine : Lost i t
    · exact .inl (lost_after.mpr (.inl mine))
    · exact .inr (congrArg (fun store => store.rows.map StoredSecret.handle) (fits.store mine))

end Rules

end Vnidrop.EndpointIdentity
