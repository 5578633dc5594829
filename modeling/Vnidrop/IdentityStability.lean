import Vnidrop.IdentityStarts

/-! A start from its first operation to its last: what reconciliation leaves of the profile, which
identity is then loaded or recorded, and that only what goes wrong for a start can refuse it. -/
namespace Vnidrop.EndpointIdentity

open Programs Runs Tables SecretCustody Excepts

section Walks

variable {endpointId : SecretMaterial → Text} {decode : Text → Option (List UInt8)} {kindOf : Handle → SecretKind}
  {first : Option Text} {i : Nat} {call : Call} {v w : View} {excused lost : Prop}

theorem does_deleteIfPresent {handle : Handle} (good : v.Good endpointId decode kindOf first)
    (clean : ∀ row, ¬v.Names kindOf handle row) :
    Does endpointId decode kindOf first i call excused lost (deleteIfPresent handle) v
      fun _ w => w = v.dropped handle := by
  have good' := good.dropped clean
  refine does_delete good clean (fun r l _ answer _ => ?_) fun e w wrong good => ?_
  · rcases answer with rfl | rfl <;> exact does_ok good' rfl
  · cases e with
    | locked | unavailable => exact does_error good (.inr trivial)
    | _ => cases wrong

theorem does_storeDelete {handle : Handle} (good : v.Good endpointId decode kindOf first)
    (clean : ∀ row, ¬v.Names kindOf handle row) (there : lost ∨ v.custody.store.find handle ≠ none) :
    Does endpointId decode kindOf first i call excused lost (storeDelete handle) v
      fun _ w => w = v.dropped handle := by
  have good' := good.dropped clean
  refine does_delete (f := fun r => pure (r.mapError fun e => .custody (mapStoreError e))) good clean
    (fun r l still answer found => ?_) fun e w _ good => does_error good (.inr trivial)
  rcases answer with rfl | rfl
  · exact does_ok good' rfl
  · refine does_error good' (.inr ?_)
    rcases there with mine | there
    · exact still mine
    · rcases found with mine | found
      · exact mine
      · cases found there

theorem ordinary_clean {handle : Handle} (ordinary : kindOf handle ≠ .endpointIdentity) (v : View) :
    ∀ row, ¬v.Names kindOf handle row := fun _ named => ordinary named.2

theorem does_retire {entry : SecretMetadata} {summary : ReconciliationSummary}
    (good : v.Good endpointId decode kindOf first) (ordinary : kindOf entry.handle ≠ .endpointIdentity) :
    Does endpointId decode kindOf first i call excused lost (retire entry summary) v
      fun _ w => ∃ now, w = (v.marked entry.handle .disabled now).dropped entry.handle := by
  refine does_setState good (fun identity => absurd identity ordinary) fun now l _ => ?_
  have good' : (v.marked entry.handle .disabled now).Good endpointId decode kindOf first :=
    good.marked fun identity => absurd identity ordinary
  refine does_andThen (does_deleteIfPresent good' (ordinary_clean ordinary _)) fun _ w good'' same => ?_
  exact does_ok good'' ⟨now,same⟩

/-- What a pass over one entry leaves: its own row, active if it stands for an identity, and every
other row and secret as they were. -/
structure Passed (kindOf : Handle → SecretKind) (handle : Handle) (v w : View) : Prop where
  others : ∀ k, k ≠ handle → Same k v.custody w.custody
  present : w.custody.metadata.find handle ≠ none
  active : ∀ row, w.Names kindOf handle row → row.state = "active"

theorem passed_marked {handle : Handle} {state : SecretMetadataState} {now : Millis} {row : SecretRef}
    (found : v.custody.metadata.find handle = some row) (active : kindOf handle = .endpointIdentity → state = .active) :
    Passed kindOf handle v (v.marked handle state now) where
  others k other := ⟨(find_setState k).trans (if_neg other),rfl⟩
  present := by
    have same : (v.marked handle state now).custody.metadata.find handle = _ := find_setState handle
    rw [same,if_pos rfl,found]
    simp
  active x named := by
    obtain ⟨_,_,_,_,own⟩ := marked_names named
    rw [own rfl,active named.2]
    rfl

theorem Passed.dropped {handle : Handle} (passed : Passed kindOf handle v w) : Passed kindOf handle v (w.dropped handle) where
  others k other := ⟨(passed.others k other).1,(Table.find_delete_other _ other).trans (passed.others k other).2⟩
  present := passed.present
  active row named := passed.active row named

theorem does_reconcileEntry {entry : SecretMetadata} {row : SecretRef} {summary : ReconciliationSummary}
    (good : v.Good endpointId decode kindOf first) (found : v.custody.metadata.find entry.handle = some row)
    (parsed : rowToMetadata row = .ok entry) :
    Does endpointId decode kindOf first i call excused lost (reconcileEntry endpointId entry summary) v
      fun _ w => Passed kindOf entry.handle v w := by
  obtain ⟨kind,state,_,expected⟩ := rowToMetadata_ok.mp parsed
  have typed : entry.kind = kindOf entry.handle := by
    have same := kind.symm.trans (good.typed _ row found).1
    revert same
    cases entry.kind <;> cases kindOf entry.handle <;> decide
  have identity (special : kindOf entry.handle = .endpointIdentity) : entry.state ≠ .disabled ∧
      ∃ material, v.custody.get entry.handle = .ok material ∧
        isValid endpointId entry.kind material entry.expectedIdentity = true := by
    have named : v.Names kindOf entry.handle row := ⟨found,special⟩
    refine ⟨fun disabled => good.enabled _ row named (by rw [state,disabled]; rfl),?_⟩
    obtain ⟨material,got,same⟩ := good.whole _ row named
    refine ⟨material,got,?_⟩
    rw [typed,special,expected,same]
    simp [isValid,validateMaterial]
  have retired (ordinary : entry.kind ≠ .endpointIdentity) {l : Prop} :
      Does endpointId decode kindOf first i call excused l (retire entry summary) v
        fun _ w => Passed kindOf entry.handle v w := by
    have ordinary : kindOf entry.handle ≠ .endpointIdentity := typed ▸ ordinary
    refine does_mono ?_ (does_retire good ordinary)
    rintro _ _ ⟨now,rfl⟩
    exact (passed_marked found fun special => absurd special ordinary).dropped
  unfold reconcileEntry
  split
  · rename_i disabled
    have ordinary : kindOf entry.handle ≠ .endpointIdentity := fun special => (identity special).1 disabled
    refine does_andThen (does_deleteIfPresent good (ordinary_clean ordinary _)) fun _ w good' same => ?_
    refine does_ok good' (same ▸ ⟨fun k other => ⟨rfl,Table.find_delete_other _ other⟩,?_,?_⟩)
    · exact fun none => by simp [View.dropped,View.withStore,found] at none
    · exact fun x named => absurd named.2 ordinary
  · rename_i enabled
    have marked : entry.state = .staged → ∀ {l : Prop},
        Does endpointId decode kindOf first i call excused l (Prog.andThen (op (.setState entry.handle .active)) fun _ =>
          return .ok { summary with stagedActivated := summary.stagedActivated + 1 }) v
          fun _ w => Passed kindOf entry.handle v w := by
      intro _ l
      refine does_setState good (by simp) fun now l _ => ?_
      exact does_ok (good.marked (by simp)) (passed_marked found fun _ => rfl)
    have unchanged : entry.state ≠ .staged → Passed kindOf entry.handle v v := by
      intro unstaged
      refine ⟨fun _ _ => ⟨rfl,rfl⟩,by simp [found],fun x named => ?_⟩
      cases Option.some.inj (found.symm.trans named.1)
      cases mode : entry.state with
      | staged => exact absurd mode unstaged
      | active => rw [state,mode]; rfl
      | disabled => exact absurd mode enabled
    refine does_get good fun r l _ truth fault => ?_
    have sound : kindOf entry.handle = .endpointIdentity → storeFault r = true ∨
        ∃ material, r = .ok material ∧ isValid endpointId entry.kind material entry.expectedIdentity = true := by
      intro special
      obtain ⟨_,material,got,valid⟩ := identity special
      rcases truth special with same | wrong
      · exact .inr ⟨material,same.trans got,valid⟩
      · exact .inl wrong
    cases r with
    | ok material =>
      dsimp only
      split
      · rename_i invalid
        split
        · rename_i special
          rcases sound (typed ▸ special) with wrong | ⟨m,same,valid⟩
          · cases wrong
          · cases same
            rw [invalid] at valid
            cases valid
        · rename_i ordinary
          exact retired ordinary
      · split
        · rename_i staged
          exact marked staged
        · rename_i unstaged
          exact does_ok good (unchanged unstaged)
    | error error =>
      dsimp only
      split
      · rename_i gone
        exact retired gone.2
      · rename_i kept
        refine does_error good (.inr (fault ?_))
        cases error with
        | locked | unavailable => rfl
        | _ =>
          have special : entry.kind = .endpointIdentity := by simpa using kept
          rcases sound (typed ▸ special) with wrong | ⟨m,same,_⟩
          · cases wrong
          · cases same

/-- What the entries stand for when the loop comes to them. -/
def Listed (entries : List SecretMetadata) (v : View) : Prop :=
  ∀ entry ∈ entries, ∃ row, v.custody.metadata.find entry.handle = some row ∧ rowToMetadata row = .ok entry

theorem does_reconcileEntries {entries : List SecretMetadata} {summary : ReconciliationSummary}
    (good : v.Good endpointId decode kindOf first) (listed : Listed entries v)
    (distinct : (entries.map SecretMetadata.handle).Nodup)
    (done : ∀ k row, v.Names kindOf k row → k ∉ entries.map SecretMetadata.handle → row.state = "active") :
    Does endpointId decode kindOf first i call excused lost (reconcileEntries endpointId entries summary) v
      fun _ w => (∀ k row, w.Names kindOf k row → row.state = "active") ∧
        (∀ k, k ∉ entries.map SecretMetadata.handle → Same k v.custody w.custody) ∧
        ∀ k ∈ entries.map SecretMetadata.handle, w.custody.metadata.find k ≠ none := by
  induction entries generalizing v summary lost with
  | nil => exact does_ok good ⟨fun k row named => done k row named (by simp),fun _ _ => ⟨rfl,rfl⟩,by simp⟩
  | cons entry entries ih =>
    obtain ⟨row,found,parsed⟩ := listed entry List.mem_cons_self
    rw [List.map_cons,List.nodup_cons] at distinct
    refine does_andThen (does_reconcileEntry good found parsed) fun summary w good' passed => ?_
    have listed' : Listed entries w := by
      intro e member
      have other : e.handle ≠ entry.handle := fun same =>
        distinct.1 (same ▸ List.mem_map_of_mem (f := SecretMetadata.handle) member)
      obtain ⟨row,found,parsed⟩ := listed e (List.mem_cons_of_mem _ member)
      exact ⟨row,(passed.others _ other).1.trans found,parsed⟩
    refine does_mono ?_ (ih good' listed' distinct.2 fun k x named later => ?_)
    · rintro _ u ⟨active,same,present⟩
      refine ⟨active,fun k absent => ?_,fun k member => ?_⟩
      · rw [List.map_cons,List.mem_cons,not_or] at absent
        have before := passed.others k absent.1
        have after := same k absent.2
        exact ⟨after.1.trans before.1,after.2.trans before.2⟩
      · rcases List.mem_cons.mp member with rfl | later
        · rw [(same entry.handle distinct.1).1]
          exact passed.present
        · exact present k later
    · by_cases own : k = entry.handle
      · exact passed.active x (own ▸ named)
      · refine done k x ⟨(passed.others k own).1 ▸ named.1,named.2⟩ ?_
        rw [List.map_cons,List.mem_cons,not_or]
        exact ⟨own,later⟩

theorem does_deleteOrphans {known handles : List Handle} {summary : ReconciliationSummary}
    (good : v.Good endpointId decode kindOf first) (knows : ∀ k row, v.Names kindOf k row → k ∈ known)
    (distinct : handles.Nodup)
    (there : lost ∨ ∀ k ∈ handles, k ∉ known → v.custody.store.find k ≠ none) :
    Does endpointId decode kindOf first i call excused lost (deleteOrphans known handles summary) v
      fun _ w => w.custody.metadata = v.custody.metadata := by
  induction handles generalizing v summary lost with
  | nil => exact does_ok good rfl
  | cons handle handles ih =>
    rw [List.nodup_cons] at distinct
    unfold deleteOrphans
    split
    · exact ih good knows distinct.2 (there.imp_right fun all k member => all k (List.mem_cons_of_mem _ member))
    · rename_i orphan
      have clean : ∀ row, ¬v.Names kindOf handle row := fun row named => orphan (knows handle row named)
      refine does_andThen (does_storeDelete good clean (there.imp_right fun all => all handle List.mem_cons_self orphan))
        fun _ w good' same => ?_
      subst same
      refine ih good' knows distinct.2 (there.imp_right fun all k member unknown => ?_)
      have other : k ≠ handle := fun same => distinct.1 (same ▸ member)
      exact (Table.find_delete_other v.custody.store other) ▸ all k (List.mem_cons_of_mem _ member) unknown

/-- After reconciliation an identity that is recorded is active. -/
theorem does_reconcile (good : v.Good endpointId decode kindOf first) :
    Does endpointId decode kindOf first i call excused lost (reconcile endpointId) v
      fun _ w => ∀ k row, w.Names kindOf k row → row.state = "active" := by
  refine does_list good fun entries read l _ => ?_
  obtain ⟨listed,every,distinct⟩ := list_ok read
  have known : ∀ k row, v.custody.metadata.find k = some row → k ∈ entries.map SecretMetadata.handle := by
    intro k row found
    obtain ⟨entry,member,parsed⟩ := every row (Table.find_mem found)
    refine List.mem_map.mpr ⟨entry,member,?_⟩
    exact (rowToMetadata_ok.mp parsed).2.2.1.trans (Table.find_key found)
  refine does_listHandles good fun handles nodup l' _ stored => ?_
  refine does_andThen (does_reconcileEntries good listed distinct fun k row named unknown =>
    absurd (known k row named.1) unknown) ?_
  rintro summary w good' ⟨active,same,present⟩
  have knows : ∀ k row, w.Names kindOf k row → k ∈ entries.map SecretMetadata.handle := by
    intro k row named
    by_contra unknown
    exact unknown (known k row ((same k unknown).1 ▸ named.1))
  refine does_mono ?_ (does_deleteOrphans good' knows nodup (stored.imp_right ?_))
  · exact fun _ u kept k row named => active k row ⟨kept ▸ named.1,named.2⟩
  · rintro rfl k member unknown
    rw [(same k unknown).2]
    exact mem_listHandles.mp member

/-- The identity as it is loaded. -/
theorem does_load {handle : Handle} {row : SecretRef} (good : v.Good endpointId decode kindOf first)
    (named : v.Names kindOf handle row) (active : row.state = "active") :
    Does endpointId decode kindOf first i call excused lost (load endpointId handle) v
      fun material w => w = v ∧ row.expectedIdentity = some (endpointId material) := by
  refine does_find good named.1 fun entry parsed l _ => ?_
  obtain ⟨kind,state,_,expected⟩ := rowToMetadata_ok.mp parsed
  have enabled : entry.state = .active := by
    have same := state.symm.trans active
    revert same
    cases entry.state <;> decide
  have typed : entry.kind = .endpointIdentity := by
    have same := kind.symm.trans (good.typed _ row named.1).1
    rw [named.2] at same
    revert same
    cases entry.kind <;> decide
  obtain ⟨material,got,same⟩ := good.whole handle row named
  dsimp only
  rw [if_neg (by simp [enabled])]
  refine does_get (f := fun r => Prog.andThen (pure (r.mapError fun e => .custody (mapStoreError e))) fun material =>
    Prog.andThen (pure (validate endpointId entry.kind material entry.expectedIdentity)) fun _ => return .ok material)
    good fun r l' _ truth fault => ?_
  rcases truth named.2 with answer | wrong
  · rw [answer,got]
    have valid : validate endpointId entry.kind material entry.expectedIdentity = .ok () := by
      rw [typed,expected,same]
      simp only [validate,validateMaterial,if_true]
      rfl
    show Does endpointId decode kindOf first i call excused l'
      (Prog.andThen (pure (validate endpointId entry.kind material entry.expectedIdentity)) fun _ =>
        return .ok material) v _
    rw [valid]
    exact does_ok good ⟨rfl,same⟩
  · cases r with
    | ok => cases wrong
    | error e => exact does_error good (.inr (fault wrong))

/-- What recording an identity ends with. -/
def Recorded (endpointId : SecretMaterial → Text) (kindOf : Handle → SecretKind) (material : SecretMaterial)
    (handle : Handle) (w : View) : Prop :=
  ∃ row, w.Names kindOf handle row ∧ row.state = "active" ∧ row.expectedIdentity = some (endpointId material)

theorem does_protect {material : SecretMaterial} (good : v.Good endpointId decode kindOf first)
    (none : ∀ k row, ¬v.Names kindOf k row)
    (same : ∀ text ∈ first, ∃ legacy, legacyKey decode (some text) = .ok legacy ∧ endpointId legacy = endpointId material) :
    Does endpointId decode kindOf first i call excused lost
      (protect endpointId .endpointIdentity material (some (endpointId material))) v
      (Recorded endpointId kindOf material) := by
  have valid : validate endpointId .endpointIdentity material (some (endpointId material)) = .ok () := by
    simp only [validate,validateMaterial,if_true]
    rfl
  unfold protect
  rw [valid]
  refine does_generateHandle good fun handle kind fresh l _ => ?_
  refine does_put good (none handle) fun l _ => ?_
  have good₁ : (v.stored handle material).Good endpointId decode kindOf first := good.stored (none handle)
  have got : (v.stored handle material).custody.get handle = .ok material := get_put
  refine does_get (f := fun r => Prog.andThen (pure (r.mapError fun e => .custody (mapStoreError e))) _)
    good₁ fun r l _ truth fault => ?_
  rcases truth kind with answer | wrong
  · rw [answer,got]
    show Does endpointId decode kindOf first i call excused l (if material ≠ material then _ else _) _ _
    rw [if_neg (by simp),valid]
    refine does_stage good₁ fresh (fun now metadata inserted => ?_) (fun now metadata inserted l _ => ?_) fun e => ?_
    · exact good₁.staged none inserted rfl kind rfl rfl rfl got same
    · have good₂ : ((v.stored handle material).withMetadata metadata).Good endpointId decode kindOf first :=
        good₁.staged none inserted rfl kind rfl rfl rfl got same
      refine does_setState good₂ (by simp) fun now' l _ => does_ok (good₂.marked (by simp)) ?_
      have named : ((v.stored handle material).withMetadata metadata).Names kindOf handle _ :=
        ⟨(Table.find_insert inserted handle).trans (if_pos rfl),kind⟩
      obtain ⟨row,there,expected,state⟩ := marked_still named
      exact ⟨row,there,state rfl,expected⟩
    · exact does_andThen (does_deleteIfPresent good₁ (none handle)) fun _ w good' _ => does_error good' (.inr trivial)
  · cases r with
    | ok => cases wrong
    | error e => exact does_error good₁ (.inr (fault wrong))

theorem does_bind {α β : Type} {p : Task (Except Failure α)} {f : Except Failure α → Task (Except Failure β)}
    {mid : α → View → Prop} {post : β → View → Prop}
    (before : Does endpointId decode kindOf first i call excused lost p v mid)
    (fine : ∀ a w, ∀ l : Prop, (lost → l) → w.Good endpointId decode kindOf first → mid a w →
      Does endpointId decode kindOf first i call excused l (f (.ok a)) w post)
    (bad : ∀ e w, ∀ l : Prop, (lost → l) → w.Good endpointId decode kindOf first → excused ∨ l →
      Does endpointId decode kindOf first i call excused l (f (.error e)) w post) :
    Does endpointId decode kindOf first i call excused lost (p >>= f) v post := by
  intro s own fits was
  refine safe_bind (safe_mono ?_ (before s own fits was))
  rintro r t ⟨own,still,w,good,fits,done,due⟩
  cases r with
  | ok a =>
    refine safe_mono ?_ (fine a w _ still good (done a rfl) t own fits id)
    exact fun _ _ ⟨own,now,rest⟩ => ⟨own,fun mine => now (still mine),rest⟩
  | error e =>
    refine safe_mono ?_ (bad e w _ still good (due e rfl) t own fits id)
    exact fun _ _ ⟨own,now,rest⟩ => ⟨own,fun mine => now (still mine),rest⟩

theorem andThen_ok {α β : Type} {a : α} {f : α → Task (Except Failure β)} :
    Prog.andThen (pure (.ok a)) f = f a := rfl

/-- A recorded identity is loaded and agrees with the file, which is removed; where there is none the
key of the file is recorded. -/
theorem does_migrate (good : v.Good endpointId decode kindOf first)
    (source : (∃ k row, v.Names kindOf k row ∧ row.state = "active") ∨
      (∀ k row, ¬v.Names kindOf k row) ∧ v.legacy ≠ none) :
    Does endpointId decode kindOf first i call excused lost (migrateLegacyEndpointIdentity endpointId decode) v
      fun k w => ∃ row, w.Names kindOf k row ∧ row.state = "active" := by
  rcases good.active with ⟨answer,inactive⟩ | ⟨entry,row,answer,named,active⟩
  · have source := source.resolve_left fun ⟨k,row,named,active⟩ => inactive k row named active
    obtain ⟨text,content⟩ := Option.ne_none_iff_exists'.mp source.2
    have began := good.legacy text content
    obtain ⟨legacy,key,-⟩ := good.migrated text began
    refine does_findActive good answer fun l _ => ?_
    refine does_readLegacy (f := fun r => Prog.andThen (pure r) _) good (fun l _ => ?_) (does_error good (.inr trivial))
    rw [content,key,andThen_ok]
    refine does_andThen (does_protect good source.1 fun text' here => ?_) fun k w good' ⟨row,named,active,_⟩ => ?_
    · exact ⟨legacy,(Option.some.inj (began.symm.trans here)) ▸ key,rfl⟩
    · refine does_removeLegacy good' named fun l _ => ?_
      exact does_ok (good'.removed named) ⟨row,named,active⟩
  · refine does_findActive good answer fun l _ => ?_
    refine does_andThen (does_load good named active) ?_
    rintro material w - ⟨rfl,expected⟩
    refine does_readLegacy good (fun l _ => ?_) (does_error good (.inr trivial))
    cases content : w.legacy with
    | none => exact does_ok good ⟨row,named,active⟩
    | some text =>
      obtain ⟨legacy,key,same⟩ := good.migrated text (good.legacy text content)
      have agrees : endpointId legacy = endpointId material :=
        Option.some.inj ((same _ row named).symm.trans expected)
      rw [key]
      dsimp only
      rw [if_neg (by simp [agrees])]
      refine does_removeLegacy good named fun l _ => ?_
      exact does_ok (good.removed named) ⟨row,named,active⟩

/-- The key is that of a recorded identity. -/
def Backed (endpointId : SecretMaterial → Text) (kindOf : Handle → SecretKind) (material : SecretMaterial)
    (w : View) : Prop :=
  ∃ k row, w.Names kindOf k row ∧ row.expectedIdentity = some (endpointId material)

theorem does_loadBacked {handle : Handle} {row : SecretRef} (good : v.Good endpointId decode kindOf first)
    (named : v.Names kindOf handle row) (active : row.state = "active") :
    Does endpointId decode kindOf first i call excused lost (load endpointId handle) v (Backed endpointId kindOf) := by
  refine does_mono ?_ (does_load good named active)
  rintro material _ ⟨rfl,expected⟩
  exact ⟨handle,row,named,expected⟩

theorem does_initialize (good : v.Good endpointId decode kindOf first)
    (active : ∀ k row, v.Names kindOf k row → row.state = "active") :
    Does endpointId decode kindOf first i call excused lost (initializeEndpointIdentity endpointId decode) v
      (Backed endpointId kindOf) := by
  have migrated (source : (∃ k row, v.Names kindOf k row ∧ row.state = "active") ∨
      (∀ k row, ¬v.Names kindOf k row) ∧ v.legacy ≠ none) {l : Prop} :
      Does endpointId decode kindOf first i call excused l
        ((migrateLegacyEndpointIdentity endpointId decode).andThen fun handle => load endpointId handle) v
        (Backed endpointId kindOf) :=
    does_andThen (does_migrate good source) fun k w good' ⟨row,named,active⟩ => does_loadBacked good' named active
  rcases good.active with ⟨answer,inactive⟩ | ⟨entry,row,answer,named,state⟩
  · have none : ∀ k row, ¬v.Names kindOf k row := fun k row named => inactive k row named (active k row named)
    have empty : containsKind v.custody .endpointIdentity = false := by
      rw [← Bool.not_eq_true,containsKind,Table.affects,List.any_eq_true]
      rintro ⟨row,member,kind⟩
      have found := Table.find_of_mem member
      refine none row.handle row ⟨found,?_⟩
      have same := (good.typed _ row found).1.symm.trans (of_decide_eq_true kind)
      revert same
      cases kindOf row.handle <;> decide
    refine does_findActive good answer fun l _ => does_containsKind good fun l _ => ?_
    rw [empty]
    refine does_legacyExists good fun l _ => ?_
    cases content : v.legacy with
    | some text => exact migrated (.inr ⟨none,by simp [content]⟩)
    | none =>
      refine does_generateKey good fun material l _ => ?_
      refine does_bind (does_protect good none fun text here => ?_) ?_ ?_
      · rcases good.kept text here with there | ⟨k,row,named⟩
        · rw [content] at there
          cases there
        · exact absurd named (none k row)
      · rintro k w l _ good' ⟨row,named,state,_⟩
        exact does_loadBacked good' named state
      · intro e w l _ good' due
        refine does_waitForActive good' (fun k row named state l _ => does_loadBacked good' named state) ?_
        exact fun _ l' still => does_error good' (due.imp_right still)
  · exact does_findActive good answer fun l _ => migrated (.inl ⟨_,row,named,state⟩)

theorem does_start (good : v.Good endpointId decode kindOf first) :
    Does endpointId decode kindOf first i call excused lost (startEndpointIdentity endpointId decode) v
      (Backed endpointId kindOf) :=
  does_andThen (does_reconcile good) fun _ _ good' active => does_initialize good' active

/-- A profile with an identity is not given up. -/
theorem does_requireUnrecoverable (good : v.Good endpointId decode kindOf first) :
    Does endpointId decode kindOf first i call True lost (requireUnrecoverableEndpointIdentity endpointId) v
      fun _ w => ∀ k row, ¬w.Names kindOf k row := by
  refine does_list good fun entries read l _ => ?_
  obtain ⟨listed,every,_⟩ := list_ok read
  cases chosen : entries.filter fun entry => entry.kind = .endpointIdentity && entry.state ≠ .disabled with
  | nil =>
    refine does_ok good fun k row named => ?_
    obtain ⟨entry,member,parsed⟩ := every row (Table.find_mem named.1)
    obtain ⟨kind,state,_,_⟩ := rowToMetadata_ok.mp parsed
    have typed : entry.kind = .endpointIdentity := by
      have same := kind.symm.trans (good.typed k row named.1).1
      rw [named.2] at same
      revert same
      cases entry.kind <;> decide
    have enabled : entry.state ≠ .disabled := fun disabled =>
      good.enabled k row named (by rw [state,disabled]; rfl)
    have there := List.filter_eq_nil_iff.mp chosen entry member
    simp [typed,enabled] at there
  | cons endpoint endpoints =>
    have member : endpoint ∈ entries.filter fun entry => entry.kind = .endpointIdentity && entry.state ≠ .disabled := by
      rw [chosen]
      exact List.mem_cons_self
    obtain ⟨there,both⟩ := List.mem_filter.mp member
    obtain ⟨row,found,parsed⟩ := listed endpoint there
    obtain ⟨kind,_,_,expected⟩ := rowToMetadata_ok.mp parsed
    have special : kindOf endpoint.handle = .endpointIdentity := by
      have typed := of_decide_eq_true (Bool.and_eq_true_iff.mp both).1
      have same := kind.symm.trans (good.typed _ row found).1
      rw [typed] at same
      revert same
      cases kindOf endpoint.handle <;> decide
    obtain ⟨material,got,same⟩ := good.whole _ row ⟨found,special⟩
    refine does_get good fun r l _ truth fault => ?_
    rcases truth special with answer | wrong
    · rw [answer,got]
      have valid : isValid endpointId .endpointIdentity material endpoint.expectedIdentity = true := by
        rw [expected,same]
        simp [isValid,validateMaterial]
      dsimp only
      rw [if_pos valid]
      exact does_error good (.inl trivial)
    · cases r with
      | ok => cases wrong
      | error e =>
        cases e with
        | locked | unavailable => exact does_error good (.inl trivial)
        | _ => cases wrong

theorem does_deleteResetHandles {handles : List Handle} (good : v.Good endpointId decode kindOf first)
    (none : ∀ k row, ¬v.Names kindOf k row) :
    Does endpointId decode kindOf first i call excused lost (deleteResetHandles handles) v
      fun _ _ => True := by
  induction handles generalizing v lost with
  | nil => exact does_ok good trivial
  | cons handle handles ih =>
    refine does_andThen (does_deleteIfPresent good (none handle)) fun _ w good' same => ?_
    subst same
    exact ih good' none

/-- Without an identity the metadata can go. -/
theorem View.Good.emptied (good : v.Good endpointId decode kindOf first) (none : ∀ k row, ¬v.Names kindOf k row) :
    (v.withMetadata .empty).Good endpointId decode kindOf first where
  typed k row found := by cases found
  enabled k row named := by cases named.1
  whole k row named := by cases named.1
  single k row k' row' named := by cases named.1
  handed id listed :=
    have ⟨k,row,named,_⟩ := good.handed id listed
    absurd named (none k row)
  kept text here := .inl ((good.kept text here).resolve_right fun ⟨k,row,named⟩ => none k row named)
  migrated text here :=
    have ⟨material,key,_⟩ := good.migrated text here
    ⟨material,key,fun k row named => by cases named.1⟩
  legacy := good.legacy

theorem does_resetMetadata {β : Type} {post : β → View → Prop} {g : List Handle → Task (Except Failure β)}
    (good : v.Good endpointId decode kindOf first) (none : ∀ k row, ¬v.Names kindOf k row)
    (h : ∀ handles, ∀ l : Prop, (lost → l) →
      Does endpointId decode kindOf first i call excused l (g handles) (v.withMetadata .empty) post) :
    Does endpointId decode kindOf first i call excused lost (Prog.andThen (op .resetMetadata) g) v post := by
  refine does_op rfl fun t was fits c r u ran => ?_
  simp only [perform] at ran
  split at ran
  · obtain ⟨rfl,rfl⟩ := Prod.mk.inj (Option.some.inj ran)
    exact ⟨v,good,fits.read,does_error good (.inr (lost_after.mpr (.inr ⟨rfl,rfl⟩)))⟩
  · obtain ⟨rfl,rfl⟩ := Prod.mk.inj (Option.some.inj ran)
    exact ⟨_,good.emptied none,fits.wrote rfl rfl rfl fits.identity fun fine _ => fits.store fine,
      h _ _ fun mine => lost_after.mpr (.inl (was mine))⟩

theorem does_reset (good : v.Good endpointId decode kindOf first) :
    Does endpointId decode kindOf first i call True lost
      ((requireUnrecoverableEndpointIdentity endpointId).andThen fun _ =>
        Prog.andThen (op .resetMetadata) fun handles => (deleteResetHandles handles).andThen fun _ =>
          startEndpointIdentity endpointId decode) v (Backed endpointId kindOf) := by
  refine does_andThen (does_requireUnrecoverable good) fun _ w good' none => ?_
  refine does_resetMetadata good' none fun handles l _ => ?_
  have bare : ∀ k row, ¬(w.withMetadata .empty).Names kindOf k row := fun k row named => by cases named.1
  exact does_andThen (does_deleteResetHandles (good'.emptied none) bare) fun _ _ good'' _ => does_start good''

end Walks

section Calls

variable {endpointId : SecretMaterial → Text} {decode : Text → Option (List UInt8)} {kindOf : Handle → SecretKind}
  {first : Option Text} {i : Nat} {call : Call} {s t : Observed Profile History} {v : View}

theorem View.Good.handing (good : v.Good endpointId decode kindOf first) {material : SecretMaterial}
    (backed : Backed endpointId kindOf material v) :
    { v with handed := endpointId material :: v.handed }.Good endpointId decode kindOf first :=
  { good with
    handed := by
      intro id listed
      rcases List.mem_cons.mp listed with rfl | old
      · exact backed
      · exact good.handed id old }

/-- The end of what is done under the lock. -/
theorem safe_conclude {r : Except Failure SecretMaterial}
    (own : Own i s) (fits : Matches kindOf i v s)
    (backed : ∀ material, r = .ok material → Backed endpointId kindOf material v)
    (due : ∀ e, r = .error e → call.isStart = false ∨ Lost i s) :
    Safe (starts endpointId decode kindOf first) (spares kindOf) (terms endpointId decode kindOf first) i call
      (op (.conclude r)) (fun _ _ => True) s := by
  intro t _ inv relied c a u' _ ran
  obtain ⟨u,performed,rfl⟩ := observe_exec ran
  simp only [profile,exec,Op.enters,Bool.false_or] at performed
  split at performed
  · rename_i enabled
    have live : i ∈ t.state.live := by simpa using (Bool.and_eq_true_iff.mp enabled).1
    obtain ⟨own',fits'⟩ := (relied.2 live).2 own
    have fits' := fits.mono kindOf fits' relied.1
    have others : ∀ j, j ≠ i → ¬Own j t := fun j other theirs =>
      other (Option.some.inj (theirs.holder.symm.trans own'.holder))
    cases r with
    | ok material =>
      obtain ⟨-,rfl⟩ := Prod.mk.inj (Option.some.inj performed)
      refine ⟨⟨⟨?_,inv.refused,fun _ => by simp [own'.holder]⟩,fun j other => ?_⟩,trivial⟩
      · have backed' : Backed endpointId kindOf material (viewOf t) := by
          obtain ⟨k,row,named,expected⟩ := backed material rfl
          exact ⟨k,row,⟨fits'.metadata ▸ named.1,named.2⟩,expected⟩
        exact inv.good.handing backed'
      · exact ⟨id,fun there => ⟨there,fun theirs => absurd theirs (others j other)⟩⟩
    | error e =>
      obtain ⟨-,rfl⟩ := Prod.mk.inj (Option.some.inj performed)
      refine ⟨⟨⟨inv.good,?_,fun runs => absurd (own'.starting.symm.trans runs) (by decide)⟩,fun j other => ?_⟩,trivial⟩
      · intro j refused
        simp only [History.record] at refused
        split at refused
        · rename_i start
          rcases List.mem_cons.mp refused with rfl | old
          · rcases due e rfl with other | mine
            · rw [start] at other
              cases other
            · exact relied.1 mine
          · exact inv.refused j old
        · exact inv.refused j refused
      · exact ⟨id,fun there => ⟨there,fun theirs => absurd theirs (others j other)⟩⟩
  · cases performed

/-- What a call does when it has the lock. -/
theorem safe_locked {m : Task (Except Failure SecretMaterial)} (core : call.ofCore = false)
    (does : ∀ v : View, v.Good endpointId decode kindOf first →
      Does endpointId decode kindOf first i call (call.isStart = false) False m v (Backed endpointId kindOf)) :
    Safe (starts endpointId decode kindOf first) (spares kindOf) (terms endpointId decode kindOf first) i call
      (do op .enter; locked m) (fun _ _ => True) s := by
  refine safe_perform fun t _ inv _ c r u' _ ran => ?_
  obtain ⟨u,performed,rfl⟩ := observe_exec ran
  simp only [profile,exec,Op.enters,Bool.true_or,Bool.true_and,core,Bool.not_false,if_true,perform] at performed
  obtain ⟨-,rfl⟩ := Prod.mk.inj (Option.some.inj performed)
  refine ⟨⟨⟨inv.good,inv.refused,inv.locked⟩,fun j other => ?_⟩,?_⟩
  · refine ⟨id,fun there => ?_⟩
    have there := (List.mem_cons.mp there).resolve_left other
    exact ⟨there,fun own => ⟨⟨List.mem_cons_of_mem _ own.live,own.holder,own.starting⟩,
      ⟨rfl,rfl,rfl,fun _ _ => rfl,fun _ => rfl⟩⟩⟩
  unfold locked
  refine safe_perform fun t _ inv _ c r u' _ ran => ?_
  obtain ⟨u,performed,rfl⟩ := observe_exec ran
  simp only [profile,exec,Op.enters,Bool.false_or] at performed
  split at performed
  · rename_i enabled
    have live : i ∈ t.state.live := by simpa using (Bool.and_eq_true_iff.mp enabled).1
    simp only [perform,Bool.true_and] at performed
    split at performed
    · obtain ⟨rfl,rfl⟩ := Prod.mk.inj (Option.some.inj performed)
      exact ⟨⟨⟨inv.good,inv.refused,inv.locked⟩,fun j _ => (terms endpointId decode kindOf first).refl j t⟩,
        safe_pure trivial⟩
    · rename_i free
      obtain ⟨rfl,rfl⟩ := Prod.mk.inj (Option.some.inj performed)
      have free : t.state.holder = none := by simpa using free
      have idle : t.state.running = false := by
        rw [← Bool.not_eq_true]
        exact fun runs => inv.locked runs free
      refine ⟨⟨⟨inv.good,inv.refused,fun runs => absurd (idle.symm.trans runs) (by decide)⟩,fun j other => ?_⟩,?_⟩
      · exact ⟨id,fun there => ⟨there,fun theirs => absurd (free.symm.trans theirs.holder) (by simp)⟩⟩
      · have own : Own i ⟨{ t.state with holder := some i },t.history⟩ := ⟨live,rfl,idle⟩
        refine safe_bind (safe_mono ?_ (does _ inv.good _ own ⟨rfl,rfl,rfl,fun _ _ => rfl,fun _ => rfl⟩ False.elim))
        rintro r x ⟨own,-,w,-,fits,backed,due⟩
        exact safe_conclude own fits backed due
  · cases performed

/-- Operations on the secrets of other domains, and those that write nothing. -/
def Op.Ordinary (kindOf : Handle → SecretKind) : Op → Prop
  | .enter | .lock | .conclude _ | .removeLegacy | .resetMetadata => False
  | .stage handle kind _ => kind = kindOf handle ∧ kindOf handle ≠ .endpointIdentity
  | .setState handle _ | .put handle _ | .delete handle => kindOf handle ≠ .endpointIdentity
  | _ => True

theorem View.Good.inserted (good : v.Good endpointId decode kindOf first) {row : SecretRef}
    {metadata : Table SecretRef.handle} (ins : v.custody.metadata.insert row = some metadata)
    (kind : row.kind = (kindOf row.handle).asStr) (state : row.state = SecretMetadataState.staged.asStr)
    (ordinary : kindOf row.handle ≠ .endpointIdentity) :
    (v.withMetadata metadata).Good endpointId decode kindOf first := by
  have found : ∀ k x, metadata.find k = some x ↔
      (k = row.handle ∧ x = row) ∨ (k ≠ row.handle ∧ v.custody.metadata.find k = some x) := by
    intro k x
    rw [Table.find_insert ins]
    by_cases here : k = row.handle
    · simp [here,eq_comm]
    · simp [here]
  have names : ∀ k x, (v.withMetadata metadata).Names kindOf k x ↔ v.Names kindOf k x := by
    intro k x
    constructor
    · rintro ⟨there,identity⟩
      rcases (found k x).mp there with ⟨rfl,-⟩ | ⟨-,old⟩
      · exact absurd identity ordinary
      · exact ⟨old,identity⟩
    · rintro ⟨old,identity⟩
      exact ⟨(found k x).mpr (.inr ⟨fun same => ordinary (same ▸ identity),old⟩),identity⟩
  constructor
  · intro k x there
    rcases (found k x).mp there with ⟨rfl,rfl⟩ | ⟨-,old⟩
    · exact ⟨kind,_,state⟩
    · exact good.typed k x old
  · exact fun k x there => good.enabled k x ((names k x).mp there)
  · exact fun k x there => good.whole k x ((names k x).mp there)
  · exact fun k x k' x' a b => good.single k x k' x' ((names k x).mp a) ((names k' x').mp b)
  · intro id listed
    obtain ⟨k,x,there,expected⟩ := good.handed id listed
    exact ⟨k,x,(names k x).mpr there,expected⟩
  · exact fun text here => (good.kept text here).imp_right fun ⟨k,x,there⟩ => ⟨k,x,(names k x).mpr there⟩
  · intro text here
    obtain ⟨material,key,same⟩ := good.migrated text here
    exact ⟨material,key,fun k x there => same k x ((names k x).mp there)⟩
  · exact good.legacy

theorem ordinary_good {o : Op} {c : Choice} {r : Ans o} {p u : Profile} {handed : List Text}
    (ordinary : o.Ordinary kindOf) (good : (⟨p.custody,p.legacy,handed⟩ : View).Good endpointId decode kindOf first)
    (ran : perform kindOf true p i o c = some (r,u)) :
    (⟨u.custody,u.legacy,handed⟩ : View).Good endpointId decode kindOf first := by
  cases o with
  | enter | lock | conclude | removeLegacy | resetMetadata => cases ordinary
  | stage handle kind expected =>
    simp only [perform,Option.some.injEq] at ran
    split at ran
    · obtain ⟨-,rfl⟩ := Prod.mk.inj ran
      exact good
    · have same : _ = u := congrArg Prod.snd ran
      subst same
      unfold stage
      split
      · exact good
      · rename_i metadata ins
        split
        · exact good.inserted ins (congrArg SecretKind.asStr ordinary.1) rfl ordinary.2
        · exact good
  | setState handle state =>
    simp only [perform,Option.some.injEq] at ran
    split at ran
    · obtain ⟨-,rfl⟩ := Prod.mk.inj ran
      exact good
    · have same : _ = u := congrArg Prod.snd ran
      subst same
      unfold EndpointIdentity.setState
      split
      · exact good.marked fun identity => absurd identity ordinary
      · exact good
  | put handle material =>
    have good' : ((⟨p.custody,p.legacy,handed⟩ : View).stored handle material).Good endpointId decode kindOf first :=
      good.stored (ordinary_clean ordinary _)
    simp only [perform] at ran
    split at ran
    · obtain ⟨-,rfl⟩ := Prod.mk.inj (Option.some.inj ran)
      split
      · exact good'
      · exact good
    · obtain ⟨-,rfl⟩ := Prod.mk.inj (Option.some.inj ran)
      exact good'
  | delete handle =>
    have good' : (⟨(p.write (p.custody.delete handle)).2.custody,(p.write (p.custody.delete handle)).2.legacy,
        handed⟩ : View).Good endpointId decode kindOf first := by
      rcases delete_cases p.custody handle with ⟨_,eq⟩ | ⟨_,eq⟩
      · rw [eq]
        exact good
      · rw [eq]
        exact good.dropped (ordinary_clean ordinary _)
    simp only [perform] at ran
    split at ran
    · obtain ⟨-,rfl⟩ := Prod.mk.inj (Option.some.inj ran)
      split
      · exact good'
      · exact good
    · have same : _ = u := congrArg Prod.snd (Option.some.inj ran)
      exact same ▸ good'
  | generateHandle =>
    simp only [perform] at ran
    split at ran <;> cases ran
    exact good
  | _ =>
    obtain ⟨-,rfl⟩ := Prod.mk.inj (Option.some.inj ran)
    exact good

theorem Op.Ordinary.plain {o : Op} (ordinary : o.Ordinary kindOf) : o.plain = true ∧ o.enters = false := by
  cases o <;> first | exact ⟨rfl,rfl⟩ | cases ordinary

/-- A core that runs leaves the identity alone, and no start is under way. -/
theorem core_quiet {o : Op} (ordinary : o.Ordinary kindOf) (core : call.ofCore = true) :
    Quiet (starts endpointId decode kindOf first) (spares kindOf) (terms endpointId decode kindOf first) i call o := by
  intro t _ inv c r u' _ ran
  obtain ⟨u,performed,rfl⟩ := observe_exec ran
  obtain ⟨plain,enters⟩ := ordinary.plain
  have record : t.history.record endpointId i call o r = (after t i o r u).history :=
    record_plain fun result same => by rw [same] at plain; cases plain
  simp only [profile,exec,enters,Bool.false_or] at performed
  split at performed
  · rename_i enabled
    have runs : t.state.running = true := by simpa [core] using (Bool.and_eq_true_iff.mp enabled).2
    obtain ⟨sameLive,sameHolder,sameRunning⟩ := perform_frame plain performed
    rw [record]
    refine ⟨⟨ordinary_good ordinary inv.good performed,fun j refused => lost_after.mpr (.inl (inv.refused j refused)),?_⟩,?_⟩
    · exact fun _ => (show u.holder ≠ none from sameHolder ▸ inv.locked runs)
    · intro j
      refine ⟨fun was => lost_after.mpr (.inl was),fun there => ⟨sameLive ▸ there,fun theirs => ?_⟩⟩
      exact absurd (theirs.starting.symm.trans runs) (by decide)
  · cases performed

/-- The start of a call of the core. -/
theorem safe_entered {p : Task Unit} (core : call.ofCore = true)
    (rest : ∀ t, Safe (starts endpointId decode kindOf first) (spares kindOf) (terms endpointId decode kindOf first)
      i call p (fun _ _ => True) t) :
    Safe (starts endpointId decode kindOf first) (spares kindOf) (terms endpointId decode kindOf first) i call
      (do op .enter; p) (fun _ _ => True) s := by
  refine safe_perform fun t _ inv _ c r u' _ ran => ?_
  obtain ⟨u,performed,rfl⟩ := observe_exec ran
  simp only [profile,exec,Op.enters,Bool.true_or,Bool.true_and,core,Bool.not_true,Bool.false_or,perform] at performed
  split at performed
  · obtain ⟨-,rfl⟩ := Prod.mk.inj (Option.some.inj performed)
    refine ⟨⟨⟨inv.good,inv.refused,inv.locked⟩,fun j other => ?_⟩,rest _⟩
    refine ⟨id,fun there => ?_⟩
    have there := (List.mem_cons.mp there).resolve_left other
    exact ⟨there,fun own => ⟨⟨List.mem_cons_of_mem _ own.live,own.holder,own.starting⟩,
      ⟨rfl,rfl,rfl,fun _ _ => rfl,fun _ => rfl⟩⟩⟩
  · cases performed

theorem deleteIfPresent_ordinary {handle : Handle} (ordinary : kindOf handle ≠ .endpointIdentity) :
    (deleteIfPresent handle).All (Op.Ordinary kindOf) := by
  refine ⟨ordinary,fun r => ?_⟩
  rcases r with e | ⟨⟩
  · cases e <;> exact trivial
  · exact trivial

theorem remove_ordinary {handle : Handle} (ordinary : kindOf handle ≠ .endpointIdentity) :
    (remove handle).All (Op.Ordinary kindOf) := by
  refine Prog.all_andThen (Prog.all_perform trivial) fun found => ?_
  cases found with
  | none => exact deleteIfPresent_ordinary ordinary
  | some _ =>
    exact Prog.all_andThen (Prog.all_perform ordinary) fun _ => deleteIfPresent_ordinary ordinary

theorem removeOrphaned_ordinary {referenced : List Handle} {entries : List SecretMetadata} {removed : Nat}
    (typed : ∀ entry ∈ entries, entry.kind = kindOf entry.handle) :
    (removeOrphaned referenced entries removed).All (Op.Ordinary kindOf) := by
  induction entries generalizing removed with
  | nil => exact trivial
  | cons entry entries ih =>
    have later : ∀ removed, (removeOrphaned referenced entries removed).All (Op.Ordinary kindOf) :=
      fun _ => ih fun e member => typed e (List.mem_cons_of_mem _ member)
    unfold removeOrphaned
    split
    · rename_i orphan
      have ordinary : kindOf entry.handle ≠ .endpointIdentity := by
        rw [← typed entry List.mem_cons_self,orphan.1]
        decide
      exact Prog.all_andThen (remove_ordinary ordinary) fun _ => later _
    · exact later _

theorem safe_ordinary {α : Type} {p : Task α} (core : call.ofCore = true) (ordinary : p.All (Op.Ordinary kindOf)) :
    Safe (starts endpointId decode kindOf first) (spares kindOf) (terms endpointId decode kindOf first) i call p
      (fun _ _ => True) s :=
  safe_mono (fun _ _ _ => trivial) (safe_quiet (Prog.all_mono (fun _ is => core_quiet is core) ordinary) s)

theorem safe_protect {kind : SecretKind} {material : SecretMaterial} (core : call.ofCore = true)
    (special : kind ≠ .endpointIdentity) :
    Safe (starts endpointId decode kindOf first) (spares kindOf) (terms endpointId decode kindOf first) i call
      (protect endpointId kind material none) (fun _ _ => True) s := by
  have valid : ∀ m, validate endpointId kind m none = .ok () := fun m => by
    simp only [validate,validateMaterial,special,if_false]
    rfl
  unfold protect
  simp only [valid,andThen_ok]
  refine safe_perform fun t known inv _ c handle u' ok ran => ?_
  have quiet := core_quiet (o := .generateHandle kind) (i := i) trivial core t known inv c handle u' ok ran
  refine ⟨⟨quiet.1,fun j _ => quiet.2 j⟩,safe_ordinary core ?_⟩
  have drawn : kindOf handle = kind := by
    obtain ⟨u,performed,rfl⟩ := observe_exec ran
    simp only [profile,exec,perform] at performed
    split at performed
    · split at performed
      · rename_i own
        obtain ⟨rfl,-⟩ := Prod.mk.inj (Option.some.inj performed)
        exact own.1
      · cases performed
    · cases performed
  have ordinary : kindOf handle ≠ .endpointIdentity := drawn ▸ special
  refine Prog.all_andThen (Prog.all_bind (Prog.all_perform ordinary) fun _ => trivial) fun _ => ?_
  refine Prog.all_andThen (Prog.all_bind (Prog.all_perform trivial) fun _ => trivial) fun stored => ?_
  split
  · exact trivial
  · refine Prog.all_bind (Prog.all_perform ⟨drawn.symm,ordinary⟩) fun staged => ?_
    cases staged with
    | error e => exact Prog.all_andThen (deleteIfPresent_ordinary ordinary) fun _ => trivial
    | ok => exact Prog.all_andThen (Prog.all_perform ordinary) fun _ => trivial

theorem safe_removeOrphaned {referenced : List Handle} (core : call.ofCore = true) :
    Safe (starts endpointId decode kindOf first) (spares kindOf) (terms endpointId decode kindOf first) i call
      (removeOrphanedTargetedAuthorizations referenced) (fun _ _ => True) s := by
  refine @safe_perform _ _ _ _ _ _ _ _ _ _ _ _ Op.list _ _ _ fun t known inv _ c read u' ok ran => ?_
  have quiet := core_quiet (o := Op.list) (i := i) trivial core t known inv c read u' ok ran
  refine ⟨⟨quiet.1,fun j _ => quiet.2 j⟩,safe_ordinary core ?_⟩
  cases read with
  | error e => exact trivial
  | ok entries =>
    refine removeOrphaned_ordinary fun entry member => ?_
    obtain ⟨u,performed,rfl⟩ := observe_exec ran
    simp only [profile,exec,perform] at performed
    split at performed
    · obtain ⟨same,-⟩ := Prod.mk.inj (Option.some.inj performed)
      split at same
      · cases same
      · obtain ⟨row,found,parsed⟩ := (list_ok (mapError_ok.mp same)).1 entry member
        have kind := (rowToMetadata_ok.mp parsed).1.symm.trans (inv.good.typed entry.handle row found).1
        revert kind
        cases entry.kind <;> cases kindOf entry.handle <;> decide
    · cases performed

/-- Every call is safe from wherever it starts. -/
theorem safe_call (admitted : call.admitted kindOf = true) :
    Safe (starts endpointId decode kindOf first) (spares kindOf) (terms endpointId decode kindOf first) i call
      (call.body endpointId decode) (fun _ _ => True) s := by
  cases call with
  | start => exact safe_locked rfl fun v good => does_start good
  | reset =>
    refine safe_locked rfl fun v good => ?_
    have all : (Call.reset.isStart = false) = True := eq_true rfl
    rw [all]
    exact does_reset good
  | protect kind material =>
    have special : kind ≠ .endpointIdentity := by simpa [Call.admitted] using admitted
    exact safe_entered rfl fun t => safe_bind (safe_mono (fun _ _ _ => trivial) (safe_protect rfl special))
  | remove handle =>
    have special : kindOf handle ≠ .endpointIdentity := by simpa [Call.admitted] using admitted
    exact safe_entered rfl fun t => safe_bind (safe_mono (fun _ _ _ => trivial)
      (safe_ordinary rfl (remove_ordinary special)))
  | removeOrphaned referenced =>
    exact safe_entered rfl fun t => safe_bind (safe_mono (fun _ _ _ => trivial) (safe_removeOrphaned rfl))

theorem fresh_inv {p : Profile} (fresh : Fresh decode first p) : Inv endpointId decode kindOf first ⟨p,.new⟩ := by
  have bare : ∀ k row, ¬(viewOf ⟨p,.new⟩).Names kindOf k row := by
    intro k row named
    have found : p.custody.metadata.find k = some row := named.1
    rw [fresh.metadata] at found
    cases found
  refine ⟨⟨?_,?_,?_,?_,?_,?_,?_,?_⟩,fun _ none => absurd none List.not_mem_nil,fun runs => ?_⟩
  · intro k row found
    have found : p.custody.metadata.find k = some row := found
    rw [fresh.metadata] at found
    cases found
  · exact fun k row named => absurd named (bare k row)
  · exact fun k row named => absurd named (bare k row)
  · exact fun k row _ _ named => absurd named (bare k row)
  · exact fun _ none => absurd none List.not_mem_nil
  · exact fun text here => .inl (fresh.legacy.trans here)
  · intro text here
    obtain ⟨material,key⟩ := fresh.key text here
    exact ⟨material,key,fun k row named => absurd named (bare k row)⟩
  · exact fun text here => fresh.legacy.symm.trans here
  · exact absurd (fresh.running.symm.trans runs) (by decide)

/-- The process ends, or the store is changed under other handles. -/
theorem event_inv {e : Event} (inv : Inv endpointId decode kindOf first s) (spared : (spares kindOf).events s e)
    (moved : (starts endpointId decode kindOf first).env s e = some t) :
    Inv endpointId decode kindOf first t ∧ ∀ j, (terms endpointId decode kindOf first).rely j s t := by
  cases e with
  | stop =>
    cases moved
    refine ⟨⟨inv.good,inv.refused,fun runs => by cases runs⟩,fun j => ⟨id,fun there => ?_⟩⟩
    cases there
  | disturb store =>
    cases moved
    refine ⟨⟨?_,?_,inv.locked⟩,fun j => ⟨?_,fun there => ⟨there,fun own => ?_⟩⟩⟩
    · exact inv.good.withStore fun k row named => spared k named.2
    · exact fun j refused => List.mem_append_right _ (inv.refused j refused)
    · exact fun was => List.mem_append_right _ was
    · exact ⟨⟨own.live,own.holder,own.starting⟩,
        ⟨rfl,rfl,rfl,spared,fun fine => absurd (List.mem_append_left _ there) fine⟩⟩

end Calls

/-- The identity of a profile is stable. Under the lock of the profile, in every run of starts,
explicit resets and the calls of running cores, whatever operations fail and wherever a process
ends: all identities that are handed out are one, it is that of the file of an earlier version where
there was one, and a start is refused only where an operation of it failed or its store was changed. -/
theorem identity_stable {endpointId : SecretMaterial → Text} {decode : Text → Option (List UInt8)}
    {kindOf : Handle → SecretKind} {first : Option Text} {c : Conf (Observed Profile History) Call Op Ans}
    (reach : Reach (starts endpointId decode kindOf first).system (spares kindOf).holds c) :
    (∀ a ∈ c.shared.history.handed, ∀ b ∈ c.shared.history.handed, a = b) ∧
    (∀ text ∈ first, ∀ a ∈ c.shared.history.handed,
      ∃ material, legacyKey decode (some text) = .ok material ∧ a = endpointId material) ∧
    ∀ i ∈ c.shared.history.refused, i ∈ c.shared.history.faulted := by
  have secured : Secured (starts endpointId decode kindOf first) (spares kindOf)
      (terms endpointId decode kindOf first) (fun _ _ _ => True) c :=
    reach_secured (fun _ _ => trivial) (fun ⟨p,h⟩ init => by cases init.2; exact fresh_inv init.1)
      (fun _ _ _ _ admitted _ => safe_call admitted) (fun _ _ _ _ _ _ => trivial)
      (fun _ _ _ _ inv spared moved => event_inv inv spared moved) reach
  have inv : Inv endpointId decode kindOf first c.shared := secured.inv
  refine ⟨fun a ha b hb => ?_,fun text here a ha => ?_,inv.refused⟩
  · obtain ⟨k,row,named,expected⟩ := inv.good.handed a ha
    obtain ⟨k',row',named',expected'⟩ := inv.good.handed b hb
    obtain rfl := inv.good.single _ _ _ _ named named'
    have same := Option.some.inj (named.1.symm.trans named'.1)
    subst same
    exact Option.some.inj (expected.symm.trans expected')
  · obtain ⟨k,row,named,expected⟩ := inv.good.handed a ha
    obtain ⟨material,key,same⟩ := inv.good.migrated text here
    exact ⟨material,key,Option.some.inj (expected.symm.trans (same k row named))⟩

/-- Nothing in the run changes the store from outside. -/
def undisturbed : Label Call Choice Event → Bool
  | .env (.disturb _) => false
  | _ => true

theorem meets_undisturbed {M : Machine (Observed Profile History) Call Op Ans Choice Event}
    {kindOf : Handle → SecretKind} {labels : List (Label Call Choice Event)} (calm : labels.all undisturbed = true)
    (c : Conf (Observed Profile History) Call Op Ans) : M.system.Meets (spares kindOf).holds c labels := by
  induction labels generalizing c with
  | nil => trivial
  | cons a labels ih =>
    rw [List.all_cons,Bool.and_eq_true] at calm
    refine ⟨?_,fun t _ => ih calm.2 t⟩
    rcases a with call | ⟨i,choice⟩ | e
    · trivial
    · intro t _
      cases t.rest <;> trivial
    · cases e with
      | stop => trivial
      | disturb => cases calm.1

namespace Sample

def keyed (n : UInt8) (positive : n ≠ 0) : SecretMaterial :=
  ⟨List.replicate 32 n,by simp [positive]⟩

def endpointId (material : SecretMaterial) : Text := (material.bytes.headD 0).toNat

def decode (text : Text) : Option (List UInt8) := if text = 5 then some (List.replicate 32 7) else none

def kindOf (handle : Handle) : SecretKind := if handle = 2 then .endpointIdentity else .targetedAuthorization

def upgraded : Profile := ⟨⟨.empty,.empty⟩,some 5,[],[],none,false⟩

def works (handle : Handle) : Choice := ⟨none,false,handle,keyed 9 (by decide),0⟩

/-- The first process ends before the identity is active, the second while it protects another secret. -/
def restarts : List (Label Call Choice Event) :=
  .fork .start :: List.replicate 13 (.act 0 (works 2)) ++ .env .stop ::
    .fork .start :: List.replicate 15 (.act 1 (works 2)) ++
    .fork (.protect .targetedAuthorization (keyed 3 (by decide))) :: List.replicate 3 (.act 2 (works 3)) ++
    .env .stop :: .fork .start :: List.replicate 14 (.act 3 (works 2))

end Sample

open Sample in
theorem restarts_agree : ∃ c, (starts endpointId decode kindOf (some 5)).system.run ⟨⟨upgraded,.new⟩,[]⟩ restarts =
      some c ∧ c.shared.history.handed = [7,7] ∧
    ∀ a ∈ c.shared.history.handed, ∀ b ∈ c.shared.history.handed, a = b := by
  have ran : ((starts endpointId decode kindOf (some 5)).system.run ⟨⟨upgraded,.new⟩,[]⟩ restarts).map
      (fun c => c.shared.history.handed) = some [7,7] := by decide +kernel
  obtain ⟨c,run,handed⟩ := Option.map_eq_some_iff.mp ran
  have fresh : Fresh decode (some 5) upgraded :=
    ⟨rfl,rfl,fun text here => by cases here; exact ⟨keyed 7 (by decide),rfl⟩,rfl,rfl,rfl⟩
  have start : Reach (starts endpointId decode kindOf (some 5)).system (spares kindOf).holds ⟨⟨upgraded,.new⟩,[]⟩ :=
    .start _ ⟨⟨fresh,rfl⟩,rfl⟩
  exact ⟨c,run,handed,(identity_stable (start.run (meets_undisturbed (by decide) _) run)).1⟩

end Vnidrop.EndpointIdentity
