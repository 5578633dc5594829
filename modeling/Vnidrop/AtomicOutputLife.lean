import Vnidrop.AtomicOutput
import Vnidrop.Excepts

/-! A life of an output file is clean unless the re-canonicalisation of its parent fails: the
operations one by one, and from them the invariant of the life. -/
namespace Vnidrop.AtomicOutput

open Paths OutputPaths FileSystems Runs

section Steps

variable {α : Type} {h : Host} {s t u : Fs} {d : Place} {n : OsName} {site : Site} {p : Path}

/-- Nothing is lost but stale part files, and no file is made. -/
structure Quiet (h : Host) (s t : Fs) : Prop where
  kept : Preserves (StalePart h) s t
  made : ∀ d n, ¬Made s t d n

theorem quiet_refl (s : Fs) : Quiet h s s := ⟨preserves_refl s,fun _ _ => made_refl⟩

theorem Quiet.trans (first : Quiet h s t) (second : Quiet h t u) : Quiet h s u where
  kept := first.kept.trans second.kept
  made d n made := made.split.elim (first.made d n) (second.made d n)

theorem sets_quiet {node : Option Node} (sets : Sets d n node s t) (unfiled : ∀ i, node ≠ some (.file i))
    (free : ∀ old, s.node d n = some old → ∃ i, old = .file i ∧ StalePart h n (s.inodes i)) : Quiet h s t where
  kept := sets.preserves free
  made _ _ made := by
    obtain ⟨_,_,i,filed⟩ := sets.made made
    exact unfiled i filed

theorem resolve_kept {exempt : OsName → Inode → Prop} {place : Place} (kept : Preserves exempt s t)
    (leads : h.resolve s p = some place) : h.resolve t p = some place := kept.walk leads

theorem locate_some : h.locate s p = some (d,n) ↔ fileName p = some n ∧ h.resolve s p.dropLast = some d := by
  simp only [Host.locate,Option.bind_eq_bind,Option.bind_eq_some_iff,Option.pure_def,Option.some.injEq,
    Prod.mk.injEq]
  constructor
  · rintro ⟨n',named,d',leads,rfl,rfl⟩
    exact ⟨named,leads⟩
  · rintro ⟨named,leads⟩
    exact ⟨n,named,d,leads,rfl,rfl⟩

theorem locate_concat {parent : Path} : h.locate s (parent ++ [.normal n]) = some (d,n) ↔ h.resolve s parent = some d := by
  rw [locate_some]
  simp [fileName]

theorem existing_ok {β : Type} {o : Option β} {b : β} : existing o = .ok b ↔ o = some b := by
  cases o with
  | none => constructor <;> (intro h; cases h)
  | some b' => constructor <;> (intro h; cases h; rfl)

/-- An operation fails and does nothing, or has the effect it is for. -/
theorem ends_perform {act : Fs → Except Errno (α × Fs)} {post : Except IoError α → Fs → Prop}
    (ok : ∀ a t, act s = .ok (a,t) → post (.ok a) t)
    (error : ∀ e, (h.fails site = some e ∨ ∃ code, act s = .error code) → post (.error e) s) :
    Ends post (perform h site act s) := by
  unfold perform
  cases failing : h.fails site with
  | some e => exact error e (.inl failing)
  | none =>
    cases ran : act s with
    | ok r => exact ok r.1 r.2 ran
    | error code => exact error (.os code) (.inr ⟨code,ran⟩)

theorem fails_some {e : IoError} : h.fails site = some e ↔ h.fault = some (site,e) := by
  unfold Host.fails
  cases h.fault with
  | none => simp
  | some fault =>
    obtain ⟨site',e'⟩ := fault
    by_cases same : site' = site <;> simp [Option.filter,same]

theorem createDirAll_quiet (done rest : Path) : Ends (fun _ t => Quiet h s t) (createDirAll h done rest s) := by
  induction rest generalizing done s with
  | nil => exact quiet_refl s
  | cons c rest ih =>
    refine ends_bind (q := fun _ t => Quiet h s t) (ends_perform (fun a t made => ?_) fun e _ => quiet_refl s) ?_
      fun e t quiet => quiet
    · split at made
      · cases made
        exact quiet_refl s
      · split at made
        · obtain ⟨t',made,same⟩ := Excepts.bind_ok.mp made
          cases same
          obtain ⟨absent,sets⟩ := mkdir_ok made
          exact sets_quiet sets (fun _ filed => by cases filed) fun old there => by rw [absent] at there; cases there
        · cases made
    · intro a t quiet
      exact ends_mono (fun r u after => quiet.trans after) (ih (done ++ [c]))

theorem canonicalize_spec (site : Site) (p : Path) :
    Ends (fun r t => t = s ∧ ∀ place, r = .ok place → p ≠ [] ∧ h.resolve s p = some place)
      (canonicalize h site p s) := by
  refine ends_perform (fun place t answered => ?_) fun e _ => ⟨rfl,fun place same => by cases same⟩
  obtain ⟨place',found,same⟩ := Excepts.bind_ok.mp answered
  cases same
  have leads := existing_ok.mp found
  refine ⟨rfl,fun place same => ?_⟩
  cases same
  split at leads
  · cases leads
  · rename_i nonempty
    exact ⟨nonempty,leads⟩

theorem symlinkMetadata_spec (site : Site) (p : Path) :
    Ends (fun r t => t = s ∧ ∀ e, r = .error e → h.fault = some (site,e) ∨
      ∀ d n, h.locate s p = some (d,n) → s.node d n = none) (symlinkMetadata h site p s) := by
  refine ends_perform (fun node t answered => ?_) fun e why => ⟨rfl,fun e' same => ?_⟩
  · obtain ⟨_,_,found⟩ := Excepts.bind_ok.mp answered
    obtain ⟨_,_,same⟩ := Excepts.bind_ok.mp found
    cases same
    exact ⟨rfl,fun e same => by cases same⟩
  · cases same
    rcases why with failing | ⟨code,absent⟩
    · exact .inl (fails_some.mp failing)
    · refine .inr fun d n located => ?_
      cases there : s.node d n with
      | none => rfl
      | some node => simp [located,existing,there,bind,Except.bind,pure,Except.pure] at absent

/-- A removal takes away the entry, which was no directory. -/
theorem removeFile_spec (site : Site) (p : Path) (located : h.locate s p = some (d,n)) :
    Ends (fun r t => (r = .ok () ∧ Sets d n none s t) ∨
      ∃ e, r = .error e ∧ t = s ∧ (h.fails site = some e ∨ ∀ i, s.node d n ≠ some (.file i)))
      (removeFile h site p s) := by
  refine ends_perform (fun a t removed => .inl ⟨rfl,?_⟩) fun e why => .inr ⟨e,rfl,rfl,?_⟩
  · obtain ⟨⟨d',n'⟩,found,removed⟩ := Excepts.bind_ok.mp removed
    obtain ⟨t',removed,same⟩ := Excepts.bind_ok.mp removed
    cases same
    cases (existing_ok.mp found).symm.trans located
    exact (unlink_ok removed).2
  · rcases why with failing | ⟨code,refused⟩
    · exact .inl failing
    · refine .inr fun i there => ?_
      simp [located,existing,unlink_file there,bind,Except.bind,pure,Except.pure] at refused

/-- Only stale part files are cleaned up. -/
theorem cleanupEntries_quiet (directory : Path) (k : Nat) (names : List OsName) (removed : Nat) :
    Ends (fun _ t => Quiet h s t) (cleanupEntries h directory stalePartAge k names removed s) := by
  induction names generalizing k removed s with
  | nil => exact quiet_refl s
  | cons n rest ih =>
    refine ends_bind (q := fun _ t => t = s) (ends_perform (fun _ t same => ?_) fun _ _ => rfl) ?_ ?_
    · cases same
      rfl
    · rintro _ t rfl
      split
      · exact ih (k + 1) removed
      · rename_i part
        refine ends_bind (q := fun r u => u = t ∧ ∀ node modified, r = .ok (node,modified) →
          ∃ d, h.locate t (directory ++ [.normal n]) = some (d,n) ∧ t.node d n = some node ∧
            ∀ i, node = .file i → modified = (t.inodes i).modified) (ends_perform ?_ ?_) ?_ ?_
        · intro a u read
          obtain ⟨⟨d,n'⟩,found,read⟩ := Excepts.bind_ok.mp read
          obtain ⟨node,there,same⟩ := Excepts.bind_ok.mp read
          cases same
          have located := existing_ok.mp found
          have named : n' = n := by
            have last := (locate_some.mp located).1
            simpa [fileName] using last.symm
          subst named
          refine ⟨rfl,fun node' modified same => ⟨d,located,?_⟩⟩
          cases same
          exact ⟨existing_ok.mp there,fun i file => by rw [file]⟩
        · exact fun e _ => ⟨rfl,fun _ _ same => by cases same⟩
        · rintro ⟨node,modified⟩ u ⟨rfl,read⟩
          obtain ⟨d,located,there,time⟩ := read node modified rfl
          dsimp only
          split
          · rename_i stale
            obtain ⟨old,file⟩ : stalePartAge ≤ age h modified ∧ node.isFile = true := by simpa using stale
            refine ends_bind (q := fun _ v => Quiet h u v)
              (ends_mono ?_ (removeFile_spec (.removeStale k) _ located)) ?_ fun _ _ quiet => quiet
            · rintro r v (⟨_,sets⟩ | ⟨_,_,rfl,_⟩)
              · refine sets_quiet sets (fun _ filed => by cases filed) fun node' there' => ?_
                cases there.symm.trans there'
                cases node with
                | file i => exact ⟨i,rfl,by simpa using part,time i rfl ▸ old⟩
                | directory | symlink _ => cases file
              · exact quiet_refl v
            · exact fun _ v quiet => ends_mono (fun r w after => quiet.trans after) (ih (k + 1) (removed + 1))
          · exact ih (k + 1) removed
        · rintro e u ⟨rfl,_⟩
          exact quiet_refl u
    · rintro e t rfl
      exact quiet_refl t

theorem cleanup_quiet (directory : Path) :
    Ends (fun _ t => Quiet h s t) (cleanupStaleTemporaryFiles h directory stalePartAge s) := by
  refine ends_bind (q := fun _ t => t = s) (ends_perform (fun names t read => ?_) fun _ _ => rfl) ?_ ?_
  · obtain ⟨_,_,same⟩ := Excepts.bind_ok.mp read
    cases same
    rfl
  · rintro names t rfl
    exact cleanupEntries_quiet directory 0 names 0
  · rintro e t rfl
    exact quiet_refl t

theorem locate_sets {d' : Place} {n' : OsName} {node : Option FileSystems.Node} (sets : Sets d' n' node s t)
    (unfiled : ∀ old, s.node d' n' = some old → ∃ i, old = .file i) (located : h.locate s p = some (d,n)) :
    h.locate t p = some (d,n) := by
  obtain ⟨named,leads⟩ := locate_some.mp located
  exact locate_some.mpr ⟨named,sets.walk unfiled leads⟩

theorem locate_append {i now : Nat} {bytes : Bytes} (located : h.locate s p = some (d,n)) :
    h.locate (s.append i bytes now) p = some (d,n) := by
  obtain ⟨named,leads⟩ := locate_some.mp located
  have leads' : (s.append i bytes now).walk h.steps h.cwd p.dropLast = some d :=
    walk_mono (s := s) (t := s.append i bytes now) (fun _ _ there => there) (fun _ _ _ there => there) leads
  exact locate_some.mpr ⟨named,leads'⟩

end Steps

/-- The output has a place and an inode of its own, and what was there before is kept. -/
structure Holding (h : Host) (before : Fs) (outputDir : OsStr) (relativePath : Str) (out : AtomicOutputFile)
    (file : Nat) (written : Bytes) (s : Fs) (d : Place) (n t : OsName) : Prop where
  named : ∃ path, safeOutputPath outputDir relativePath = .ok path ∧ out.target = path.components
  target : h.locate s out.target = some (d,n)
  temporary : h.locate s out.temporary = some (d,t)
  apart : n ≠ t
  kept : Preserves (StalePart h) before s
  fresh : before.next ≤ file
  bytes : (s.inodes file).bytes = written

/-- The file is under its temporary name; the target is free, unless the check of it has failed. -/
structure Writing (h : Host) (before : Fs) (outputDir : OsStr) (relativePath : Str) (out : AtomicOutputFile)
    (file : Nat) (written : Bytes) (s : Fs) (d : Place) (n t : OsName) : Prop
    extends Holding h before outputDir relativePath out file written s d n t where
  there : s.node d t = some (.file file)
  made : ∀ d' n', Made before s d' n' → d' = d ∧ n' = t
  free : (∀ e, h.fault ≠ some (.checkTarget,e)) → s.node d n = none
  uncommitted : out.committed = false

/-- The file is under the name of the target. -/
structure Published (h : Host) (before : Fs) (outputDir : OsStr) (relativePath : Str) (out : AtomicOutputFile)
    (file : Nat) (written : Bytes) (s : Fs) (d : Place) (n t : OsName) : Prop
    extends Holding h before outputDir relativePath out file written s d n t where
  there : s.node d n = some (.file file)
  made : ∀ d' n', Made before s d' n' → d' = d ∧ (n' = n ∨ n' = t)

/-- The file is gone, unless its removal has failed. -/
structure GivenUp (h : Host) (before : Fs) (outputDir : OsStr) (relativePath : Str) (out : AtomicOutputFile)
    (file : Nat) (written : Bytes) (s : Fs) (d : Place) (n t : OsName) : Prop
    extends Holding h before outputDir relativePath out file written s d n t where
  made : ∀ d' n', Made before s d' n' → d' = d ∧ n' = t ∧ ∃ e, h.fault = some (.removeDropped,e)

section Outputs

variable {h : Host} {before s u : Fs} {outputDir : OsStr} {relativePath uuid : Str} {out : AtomicOutputFile}
  {file : Nat} {written : Bytes} {d : Place} {n t : OsName}

theorem partName_longer (name uuid : Str) : OsName.text name ≠ .text (partName name uuid) := by
  intro same
  have lengths := congrArg List.length (OsName.text.inj same)
  simp [partName] at lengths
  omega

/-- The outcome of `openTemporary`. -/
def Opened (h : Host) (before : Fs) (outputDir : OsStr) (relativePath : Str) :
    Except CreateError (AtomicOutputFile × Path × Place × Nat) → Fs → Prop
  | .error _, u => Quiet h before u
  | .ok (out,parent,place,file), u => parent ≠ [] ∧ h.resolve u parent = some place ∧
      ∃ n t, Writing h before outputDir relativePath out file [] u place n t

theorem openNew_spec {p : Path} (located : h.locate s p = some (d,t)) :
    Ends (fun r u => (∀ e, r = .error e → u = s) ∧ ∀ file, r = .ok file → s.node d t = none ∧ file = s.next ∧
      Sets d t (some (.file file)) (s.allot h.now) u)
      (EStateM.adaptExcept CreateError.io (openNew h .openTemporary p) s) := by
  refine ends_adapt (ends_perform (fun file u opened => ⟨fun _ same => (by cases same),fun file' same => ?_⟩)
    fun e _ => ⟨fun _ _ => rfl,fun _ same => (by cases same)⟩)
  cases same
  obtain ⟨⟨d',n'⟩,found,opened⟩ := Excepts.bind_ok.mp opened
  cases (existing_ok.mp found).symm.trans located
  exact openNew_ok opened

/-- The target is the parent and a name. -/
theorem target_split {target parent : Path} {name : Str} (above : parent? target = some parent)
    (named : (fileName target).bind OsName.toStr = some name) : target = parent ++ [.normal (.text name)] := by
  unfold fileName at named
  split at named
  · rename_i last is
    cases last with
    | text s =>
      cases named
      unfold parent? at above
      rw [is] at above
      cases above
      exact (List.dropLast_append_getLast? _ is).symm
    | bytes b => cases named
  · cases named

theorem ends_context {β : Type} (e : CreateError) (o : Option β) :
    Ends (fun r u => u = s ∧ ∀ b, r = .ok b → o = some b) (context e o s) := by
  cases o with
  | some b => exact ⟨rfl,fun _ same => (by cases same; rfl)⟩
  | none => exact ⟨rfl,fun _ same => (by cases same)⟩

theorem ends_ensure (holds : Bool) (e : CreateError) :
    Ends (fun r u => u = s ∧ ∀ b, r = .ok b → holds = true) (ensure holds e s) := by
  cases holds with
  | true => exact ⟨rfl,fun _ _ => rfl⟩
  | false => exact ⟨rfl,fun _ same => (by cases same)⟩

/-- What follows a quiet step. -/
theorem ends_after {α β : Type} {m : Creating α} {f : α → Creating β} {post : Except CreateError β → Fs → Prop}
    {q : Except CreateError α → Fs → Prop} (quiet : Quiet h before s)
    (first : Ends (fun r t => Quiet h s t ∧ q r t) (m s))
    (ok : ∀ a t, Quiet h before t → Quiet h s t → q (.ok a) t → Ends post (f a t))
    (error : ∀ e t, Quiet h before t → post (.error e) t) : Ends post ((m >>= f) s) := by
  refine ends_bind first (fun a t both => ?_) fun e t both => ?_
  · exact ok a t (quiet.trans both.1) both.1 both.2
  · exact error e t (quiet.trans both.1)

/-- A step that leaves everything as it is. -/
theorem ends_same {α : Type} {m : Creating α} {q : Except CreateError α → Fs → Prop}
    (ends : Ends (fun r t => t = s ∧ q r t) (m s)) : Ends (fun r t => Quiet h s t ∧ t = s ∧ q r t) (m s) := by
  refine ends_mono ?_ ends
  rintro r t ⟨rfl,rest⟩
  exact ⟨quiet_refl t,rfl,rest⟩

theorem ends_quiet {α : Type} {m : Io α} (ends : Ends (fun _ t => Quiet h s t) (m s)) :
    Ends (fun _ t => Quiet h s t ∧ True) (EStateM.adaptExcept CreateError.io m s) :=
  ends_adapt (ends_mono (fun _ _ quiet => ⟨quiet,trivial⟩) ends)

theorem ends_canonical (site : Site) (p : Path) :
    Ends (fun r t => Quiet h s t ∧ ∀ place, r = .ok place → p ≠ [] ∧ h.resolve t p = some place)
      (EStateM.adaptExcept CreateError.io (canonicalize h site p) s) := by
  refine ends_adapt (ends_mono ?_ (canonicalize_spec site p))
  rintro r t ⟨rfl,found⟩
  refine ⟨quiet_refl t,fun place same => ?_⟩
  cases r with
  | ok place' =>
    cases same
    exact found place rfl
  | error e => cases same

theorem ends_checked (p : Path) :
    Ends (fun r t => Quiet h s t ∧ ∀ metadata : Except CreateError Node, r = .ok metadata → metadata.isOk = false →
        (∃ e, h.fault = some (.checkTarget,e)) ∨ ∀ d n, h.locate t p = some (d,n) → t.node d n = none)
      (observe (EStateM.adaptExcept CreateError.io (symlinkMetadata h .checkTarget p)) s) := by
  refine ends_observe (ends_adapt (ends_mono ?_ (symlinkMetadata_spec .checkTarget p)))
  rintro r t ⟨rfl,absent⟩
  refine ⟨quiet_refl t,fun metadata same failed => ?_⟩
  cases same
  cases r with
  | ok node => cases failed
  | error e => exact (absent e rfl).imp_left fun failing => ⟨e,failing⟩

/-- The temporary file, as it has been opened. -/
theorem writing_opened {parent : Path} {name : Str} (quiet : Quiet h before s)
    (named : ∃ path, safeOutputPath outputDir relativePath = .ok path ∧ parent ++ [.normal (.text name)] = path.components)
    (leads : h.resolve s parent = some d) (free : s.node d (.text (partName name uuid)) = none)
    (absent : (∃ e, h.fault = some (.checkTarget,e)) ∨ s.node d (.text name) = none)
    (sets : Sets d (.text (partName name uuid)) (some (.file s.next)) (s.allot h.now) u) :
    Writing h before outputDir relativePath
      ⟨parent ++ [.normal (.text name)],parent ++ [.normal (.text (partName name uuid))],false⟩ s.next [] u d
      (.text name) (.text (partName name uuid)) := by
  have unused (old : FileSystems.Node) : (s.allot h.now).node d (.text (partName name uuid)) ≠ some old :=
    fun there => by cases free.symm.trans there
  have allotted : Preserves (StalePart h) s (s.allot h.now) := allot_preserves h.now
  have still : h.resolve u parent = some d :=
    sets.walk (fun old there => absurd there (unused old)) (resolve_kept allotted leads)
  refine ⟨⟨named,locate_concat.mpr still,locate_concat.mpr still,partName_longer name uuid,?_,?_,?_⟩,sets.here,?_,?_,rfl⟩
  · exact (quiet.kept.trans allotted).sets sets fun old there => absurd there (unused old)
  · exact quiet.kept.next
  · rw [sets.inodes]
    show (Function.update s.inodes s.next _ s.next).bytes = []
    rw [Function.update_self]
  · intro d' n' made
    rcases made.split (t := s.allot h.now) with old | new
    · exact absurd old (quiet.made d' n')
    · obtain ⟨here,name,_⟩ := sets.made new
      exact ⟨here,name⟩
  · intro checked
    have missing := absent.resolve_left fun ⟨e,failed⟩ => checked e failed
    rw [sets.others d (.text name) fun same => partName_longer name uuid same.2]
    exact missing

theorem openTemporary_spec :
    Ends (Opened h before outputDir relativePath) (openTemporary h outputDir relativePath uuid before) := by
  have failed (e : CreateError) (u : Fs) (quiet : Quiet h before u) :
      Opened h before outputDir relativePath (.error e) u := quiet
  have accepted : Ends (fun r u => u = before ∧ ∀ path, r = .ok path → safeOutputPath outputDir relativePath = .ok path)
      (accept ((safeOutputPath outputDir relativePath).mapError .path) before) := by
    cases safeOutputPath outputDir relativePath with
    | ok path => exact ⟨rfl,fun _ same => (by cases same; rfl)⟩
    | error e => exact ⟨rfl,fun _ same => (by cases same)⟩
  refine ends_after (quiet_refl before) (ends_same accepted) (fun path _ quiet _ named => ?_) failed
  refine ends_after quiet (ends_same (ends_context _ _)) (fun parent _ quiet _ above => ?_) failed
  refine ends_after quiet (ends_quiet (createDirAll_quiet [] parent)) (fun _ _ quiet _ _ => ?_) failed
  refine ends_after quiet (ends_canonical .canonicalRoot _) (fun root _ quiet _ _ => ?_) failed
  refine ends_after quiet (ends_canonical .canonicalParent parent) (fun place s₁ quiet _ canonical => ?_) failed
  refine ends_after quiet (ends_same (ends_ensure _ _)) (fun _ s₂ quiet inside _ => ?_) failed
  refine ends_after quiet (ends_quiet (cleanup_quiet parent)) (fun _ s₃ quiet cleaned _ => ?_) failed
  obtain ⟨nonempty,leads⟩ := canonical place rfl
  have leads := resolve_kept cleaned.kept (resolve_kept inside.kept leads)
  refine ends_after quiet (ends_checked path.components) (fun metadata s₄ quiet checked absent => ?_) failed
  have leads := resolve_kept checked.kept leads
  refine ends_after quiet (ends_same (ends_ensure _ _)) ?_ failed
  rintro _ s₅ quiet _ ⟨rfl,missing⟩
  refine ends_after quiet (ends_same (ends_context _ _)) ?_ failed
  rintro name s₆ quiet _ ⟨rfl,lastName⟩
  have target : path.components = parent ++ [.normal (.text name)] :=
    target_split (above.2 parent rfl) (lastName name rfl)
  refine ends_bind (openNew_spec (locate_concat.mpr leads)) ?_ fun e u both => both.1 e rfl ▸ quiet
  rintro file u ⟨_,opened⟩
  obtain ⟨free,rfl,sets⟩ := opened file rfl
  have unchecked : (∃ e, h.fault = some (.checkTarget,e)) ∨ s₆.node place (.text name) = none :=
    (absent metadata rfl (by simpa using missing () rfl)).imp_right fun none =>
      none place (.text name) (target ▸ locate_concat.mpr leads)
  have writing := writing_opened quiet ⟨path,named.2 path rfl,target.symm⟩ leads free unchecked sets
  exact ⟨nonempty,locate_concat.mp writing.target,_,_,target ▸ writing⟩

theorem recheck_spec {parent : Path} {place : Place} (nonempty : parent ≠ []) (leads : h.resolve s parent = some place) :
    Ends (fun r u => u = s ∧ (∀ place', r = .ok place' → place' = place) ∧
      ∀ e, r = .error e → ∃ e, h.fault = some (.recheckParent,e))
      (EStateM.adaptExcept CreateError.io (canonicalize h .recheckParent parent) s) := by
  refine ends_adapt (ends_perform (fun place' u answered => ?_) fun e why => ⟨rfl,fun _ same => (by cases same),fun e' same => ?_⟩)
  · obtain ⟨_,found,same⟩ := Excepts.bind_ok.mp answered
    cases same
    rw [if_neg nonempty,leads] at found
    cases found
    exact ⟨rfl,fun _ same => (by cases same; rfl),fun _ same => (by cases same)⟩
  · rcases why with failing | ⟨code,refused⟩
    · exact ⟨e,fails_some.mp failing⟩
    · simp [nonempty,leads,existing,bind,Except.bind,pure,Except.pure] at refused

/-- The outcome of `create`. -/
def Created (h : Host) (before : Fs) (outputDir : OsStr) (relativePath : Str) :
    Except CreateError (AtomicOutputFile × Nat) → Fs → Prop
  | .error _, u => Quiet h before u
  | .ok (out,file), u => ∃ d n t, Writing h before outputDir relativePath out file [] u d n t

theorem create_spec (rechecked : ¬RecheckFails h before outputDir relativePath uuid) :
    Ends (Created h before outputDir relativePath) (create h outputDir relativePath uuid before) := by
  have opened : Ends (Opened h before outputDir relativePath) (openTemporary h outputDir relativePath uuid before) :=
    openTemporary_spec
  unfold create
  cases ran : openTemporary h outputDir relativePath uuid before with
  | error e u =>
    rw [ran] at opened
    rw [bind_failed ran]
    exact opened
  | ok result u =>
    rw [ran] at opened
    obtain ⟨out,parent,place,file⟩ := result
    obtain ⟨nonempty,leads,n,t,writing⟩ := opened
    rw [bind_ran ran]
    refine ends_bind (recheck_spec nonempty leads) ?_ ?_
    · rintro place' _ ⟨rfl,same,_⟩
      rw [same place' rfl,if_neg (not_not_intro rfl)]
      exact ⟨place,n,t,writing⟩
    · rintro e _ ⟨_,_,failed⟩
      exact absurd ⟨failed e rfl,_,u,ran⟩ rechecked

/-- An entry of the output's own is set. -/
theorem Holding.sets {d' : Place} {n' : OsName} {node : Option FileSystems.Node}
    (holding : Holding h before outputDir relativePath out file written s d n t) (sets : Sets d' n' node s u)
    (own : ∀ old, s.node d' n' = some old → ∃ i, old = .file i ∧ before.next ≤ i) :
    Holding h before outputDir relativePath out file written u d n t where
  named := holding.named
  target := locate_sets sets (fun old there => (own old there).imp fun _ => And.left) holding.target
  temporary := locate_sets sets (fun old there => (own old there).imp fun _ => And.left) holding.temporary
  apart := holding.apart
  kept := holding.kept.sets sets own
  fresh := holding.fresh
  bytes := by rw [sets.inodes]; exact holding.bytes

variable (writing : Writing h before outputDir relativePath out file written s d n t)

include writing

/-- The temporary entry is the output's own. -/
theorem temporary_own (old : FileSystems.Node) (there : s.node d t = some old) : ∃ i, old = .file i ∧ before.next ≤ i := by
  cases there.symm.trans writing.there
  exact ⟨file,rfl,writing.fresh⟩

theorem removed_givenUp (sets : Sets d t none s u) : GivenUp h before outputDir relativePath out file written u d n t where
  toHolding := writing.toHolding.sets sets (temporary_own writing)
  made d' n' made := by
    have gone (here : d' = d ∧ n' = t) : False := by
      obtain ⟨i,there,_⟩ := made
      rw [here.1,here.2,sets.here] at there
      cases there
    rcases made.split (t := s) with old | new
    · exact (gone (writing.made d' n' old)).elim
    · obtain ⟨here,name,_⟩ := sets.made new
      exact (gone ⟨here,name⟩).elim

theorem drop_spec : Ends (fun _ u => GivenUp h before outputDir relativePath out file written u d n t) (drop h out s) := by
  unfold drop
  rw [writing.uncommitted]
  refine ends_bind (q := fun _ u => GivenUp h before outputDir relativePath out file written u d n t)
    (ends_observe (ends_mono ?_ (removeFile_spec .removeDropped _ writing.temporary)))
    (fun _ _ given => given) fun _ _ given => given
  · rintro r u (⟨_,sets⟩ | ⟨e,_,rfl,why⟩)
    · exact removed_givenUp writing sets
    · refine ⟨writing.toHolding,fun d' n' made => ?_⟩
      obtain ⟨here,name⟩ := writing.made d' n' made
      rcases why with failing | absent
      · exact ⟨here,name,e,fails_some.mp failing⟩
      · exact absurd writing.there (absent file)

/-- The target is linked to the file where it is free. -/
theorem linked_published (free : s.node d n = none) (sets : Sets d n (some (.file file)) s u) :
    Published h before outputDir relativePath out file written u d n t where
  toHolding := writing.toHolding.sets sets fun old there => by cases free.symm.trans there
  there := sets.here
  made d' n' made := by
    rcases made.split (t := s) with old | new
    · exact (writing.made d' n' old).imp_right .inr
    · obtain ⟨here,name,_⟩ := sets.made new
      exact ⟨here,.inl name⟩

theorem renamed_published {mid : Fs} (free : s.node d n = none) (out' : Sets d t none s mid)
    (sets : Sets d n (some (.file file)) mid u) :
    Published h before outputDir relativePath out file written u d n t where
  toHolding := by
    refine (writing.toHolding.sets out' (temporary_own writing)).sets sets fun old there => ?_
    rw [out'.others d n fun same => writing.apart same.2,free] at there
    cases there
  there := sets.here
  made d' n' made := by
    rcases made.split (t := mid) with old | new
    · rcases old.split (t := s) with old | new
      · exact (writing.made d' n' old).imp_right .inr
      · obtain ⟨_,_,_,none⟩ := out'.made new
        cases none
    · obtain ⟨here,name,_⟩ := sets.made new
      exact ⟨here,.inl name⟩

theorem hardLink_spec :
    Ends (fun r u => (r = .ok () ∧ s.node d n = none ∧ Sets d n (some (.file file)) s u) ∨ ∃ e, r = .error e ∧ u = s)
      (hardLink h out.temporary out.target s) := by
  refine ends_perform (fun a u linked => .inl ⟨rfl,?_⟩) fun e _ => .inr ⟨e,rfl,rfl⟩
  split at linked
  · cases linked
  · obtain ⟨⟨d₁,n₁⟩,found,linked⟩ := Excepts.bind_ok.mp linked
    obtain ⟨⟨d₂,n₂⟩,found',linked⟩ := Excepts.bind_ok.mp linked
    obtain ⟨u',linked,same⟩ := Excepts.bind_ok.mp linked
    cases same
    cases (existing_ok.mp found).symm.trans writing.temporary
    cases (existing_ok.mp found').symm.trans writing.target
    obtain ⟨free,node,there,sets⟩ := link_ok linked
    cases there.symm.trans writing.there
    exact ⟨free,sets⟩

/-- A rename to the target, which is free. -/
theorem rename_published (free : s.node d n = none) (renamed : s.rename d t d n = .ok u) :
    Published h before outputDir relativePath out file written u d n t := by
  obtain ⟨node,mid,there,gone,sets⟩ := rename_ok free renamed
  cases there.symm.trans writing.there
  exact renamed_published writing free gone sets

theorem renameExclusive_spec :
    Ends (fun r u => (r = .ok () ∧ Published h before outputDir relativePath out file written u d n t) ∨
      ∃ e, r = .error e ∧ u = s) (renameExclusive h out.temporary out.target s) := by
  refine ends_perform (fun a u renamed => .inl ⟨rfl,?_⟩) fun e _ => .inr ⟨e,rfl,rfl⟩
  split at renamed
  · cases renamed
  · obtain ⟨⟨d₁,n₁⟩,found,renamed⟩ := Excepts.bind_ok.mp renamed
    obtain ⟨⟨d₂,n₂⟩,found',renamed⟩ := Excepts.bind_ok.mp renamed
    cases (existing_ok.mp found).symm.trans writing.temporary
    cases (existing_ok.mp found').symm.trans writing.target
    dsimp only at renamed
    split at renamed
    · cases renamed
    · rename_i free
      obtain ⟨u',renamed,same⟩ := Excepts.bind_ok.mp renamed
      cases same
      exact rename_published writing (by simpa using free) renamed

/-- At most one of the two checks of the target fails, so the rename finds it free. -/
theorem renameUnlessThere_spec :
    Ends (fun r u => (r = .ok () ∧ Published h before outputDir relativePath out file written u d n t) ∨
      ∃ e, r = .error e ∧ u = s) (renameUnlessThere h out.temporary out.target s) := by
  refine ends_bind (ends_observe (q := fun r u => u = s ∧ ∀ e, r = .ok (.error e) → s.node d n = none)
    (ends_mono ?_ (symlinkMetadata_spec .checkAgain out.target))) ?_ ?_
  · rintro r u ⟨rfl,absent⟩
    refine ⟨rfl,fun e same => ?_⟩
    cases same
    rcases absent e rfl with failing | absent
    · exact writing.free fun e' failed => by cases failing.symm.trans failed
    · exact absent d n writing.target
  · rintro found u ⟨rfl,absent⟩
    cases found with
    | ok node => exact .inr ⟨_,rfl,rfl⟩
    | error e =>
      have free := absent e rfl
      refine ends_perform (fun a u' renamed => .inl ⟨rfl,?_⟩) fun e _ => .inr ⟨e,rfl,rfl⟩
      obtain ⟨⟨d₁,n₁⟩,found,renamed⟩ := Excepts.bind_ok.mp renamed
      obtain ⟨⟨d₂,n₂⟩,found',renamed⟩ := Excepts.bind_ok.mp renamed
      obtain ⟨u',renamed,same⟩ := Excepts.bind_ok.mp renamed
      cases same
      cases (existing_ok.mp found).symm.trans writing.temporary
      cases (existing_ok.mp found').symm.trans writing.target
      exact rename_published writing free renamed
  · rintro e u ⟨rfl,_⟩
    exact .inr ⟨e,rfl,rfl⟩

theorem renameNoReplace_spec :
    Ends (fun r u => (r = .ok () ∧ Published h before outputDir relativePath out file written u d n t) ∨
      ∃ e, r = .error e ∧ u = s) (renameNoReplace h out.temporary out.target s) := by
  unfold renameNoReplace
  split
  · exact renameUnlessThere_spec writing
  · refine ends_bind (ends_observe (q := fun r u => (r = .ok (.ok ()) ∧
      Published h before outputDir relativePath out file written u d n t) ∨ ∃ e, r = .ok (.error e) ∧ u = s)
      (ends_mono ?_ (renameExclusive_spec writing))) ?_ ?_
    · rintro r u (⟨rfl,published⟩ | ⟨e,rfl,same⟩)
      · exact .inl ⟨rfl,published⟩
      · exact .inr ⟨e,rfl,same⟩
    · rintro r u (⟨same,published⟩ | ⟨e,same,rfl⟩)
      · cases same
        exact .inl ⟨rfl,published⟩
      · cases same
        cases e with
        | os code =>
          dsimp only
          split
          · exact renameUnlessThere_spec writing
          · exact .inr ⟨_,rfl,rfl⟩
        | kind kind => exact .inr ⟨_,rfl,rfl⟩
    · rintro e u (⟨same,_⟩ | ⟨_,same,_⟩) <;> cases same

theorem publish_spec :
    Ends (fun r u => (r = .ok () ∧ Published h before outputDir relativePath out file written u d n t) ∨
      ∃ e, r = .error e ∧ u = s) (publishTempAsFinal h out.temporary out.target s) := by
  refine ends_bind (ends_observe (q := fun r u => (r = .ok (.ok ()) ∧ s.node d n = none ∧
    Sets d n (some (.file file)) s u) ∨ ∃ e, r = .ok (.error e) ∧ u = s) (ends_mono ?_ (hardLink_spec writing))) ?_ ?_
  · rintro r u (⟨rfl,linked⟩ | ⟨e,rfl,same⟩)
    · exact .inl ⟨rfl,linked⟩
    · exact .inr ⟨e,rfl,same⟩
  · rintro r u (⟨same,free,sets⟩ | ⟨e,same,rfl⟩)
    · cases same
      have published := linked_published writing free sets
      have still : u.node d t = some (.file file) :=
        (sets.others d t fun same => writing.apart same.2.symm).trans writing.there
      refine ends_bind (ends_observe (q := fun r v => (∀ e, r ≠ .error e) ∧
        Published h before outputDir relativePath out file written v d n t)
        (ends_mono ?_ (removeFile_spec .removeLinked _ published.temporary))) ?_ ?_
      · rintro r v (⟨_,gone⟩ | ⟨e,_,rfl,_⟩)
        · refine ⟨fun e same => (by cases same),?_,?_,fun d' n' made => ?_⟩
          · refine published.toHolding.sets gone fun old there => ?_
            cases there.symm.trans still
            exact ⟨file,rfl,writing.fresh⟩
          · exact (gone.others d n fun same => writing.apart same.2).trans published.there
          · rcases made.split (t := u) with old | new
            · exact published.made d' n' old
            · obtain ⟨_,_,_,none⟩ := gone.made new
              cases none
        · exact ⟨fun e same => (by cases same),published⟩
      · exact fun _ v both => .inl ⟨rfl,both.2⟩
      · exact fun e v both => absurd rfl (both.1 e)
    · cases same
      dsimp only
      split
      · exact renameNoReplace_spec writing
      · exact .inr ⟨e,rfl,rfl⟩
  · rintro e u (⟨same,_⟩ | ⟨_,same,_⟩) <;> cases same

/-- The outcome of `commit`. -/
theorem commit_spec :
    Ends (fun r u => (r = .ok () ∧ Published h before outputDir relativePath out file written u d n t) ∨
      ∃ e, r = .error e ∧ GivenUp h before outputDir relativePath out file written u d n t) (commit h out s) := by
  refine ends_bind (ends_observe (q := fun r u => (r = .ok (.ok ()) ∧
    Published h before outputDir relativePath out file written u d n t) ∨ ∃ e, r = .ok (.error e) ∧ u = s)
    (ends_mono ?_ (publish_spec writing))) ?_ ?_
  · rintro r u (⟨rfl,published⟩ | ⟨e,rfl,same⟩)
    · exact .inl ⟨rfl,published⟩
    · exact .inr ⟨e,rfl,same⟩
  · rintro r u (⟨same,published⟩ | ⟨e,same,rfl⟩)
    · cases same
      exact .inl ⟨rfl,published⟩
    · cases same
      refine ends_bind (drop_spec writing) ?_ ?_
      · exact fun _ v given => .inr ⟨e,rfl,given⟩
      · exact fun e v given => .inr ⟨e,rfl,given⟩
  · rintro e u (⟨same,_⟩ | ⟨_,same,_⟩) <;> cases same

omit writing

/-- What the opened file is given is in its inode, and nowhere else. -/
theorem Holding.append (holding : Holding h before outputDir relativePath out file written s d n t)
    (bytes : Bytes) (now : Nat) :
    Holding h before outputDir relativePath out file (written ++ bytes) (s.append file bytes now) d n t where
  named := holding.named
  target := locate_append holding.target
  temporary := locate_append holding.temporary
  apart := holding.apart
  kept := holding.kept.append holding.fresh bytes now
  fresh := holding.fresh
  bytes := by
    show (Function.update s.inodes file _ file).bytes = _
    rw [Function.update_self,← holding.bytes]

/-- What is known in each stage of a life. -/
def Inv (h : Host) (before : Fs) (outputDir : OsStr) (relativePath : Str) (s : Life) : Prop :=
  match s.stage with
  | .fresh => s.fs = before ∧ s.written = []
  | .failed => Quiet h before s.fs
  | .writing out file => ∃ d n t, Writing h before outputDir relativePath out file s.written s.fs d n t
  | .committed out file => ∃ d n t, Published h before outputDir relativePath out file s.written s.fs d n t
  | .dropped out file => ∃ d n t, GivenUp h before outputDir relativePath out file s.written s.fs d n t

/-- A write takes the bytes, or fails and does nothing. -/
theorem write_spec (k file : Nat) (bytes : Bytes) :
    Ends (fun r u => (r = .ok () ∧ u = s.append file bytes h.now) ∨ ∃ e, r = .error e ∧ u = s)
      (write h k file bytes s) :=
  ends_perform (fun a u written => .inl ⟨rfl,(by cases written; rfl)⟩) fun e _ => .inr ⟨e,rfl,rfl⟩

variable {l l' : Life} {a : Label}

theorem inv_write (inv : Inv h before outputDir relativePath l) (opened : l.stage.file = some file) (bytes : Bytes) :
    Inv h before outputDir relativePath
      { l with fs := l.fs.append file bytes h.now, written := l.written ++ bytes, writes := l.writes + 1 } := by
  obtain ⟨fs,stage,written,writes⟩ := l
  cases stage with
  | fresh | failed => cases opened
  | writing out file' =>
    cases opened
    obtain ⟨d,n,t,writing⟩ := inv
    exact ⟨d,n,t,writing.toHolding.append bytes h.now,writing.there,writing.made,writing.free,writing.uncommitted⟩
  | committed out file' =>
    cases opened
    obtain ⟨d,n,t,published⟩ := inv
    exact ⟨d,n,t,published.toHolding.append bytes h.now,published.there,published.made⟩
  | dropped out file' =>
    cases opened
    obtain ⟨d,n,t,given⟩ := inv
    exact ⟨d,n,t,given.toHolding.append bytes h.now,given.made⟩

/-- The four operations keep the invariant. -/
theorem inv_next (rechecked : ¬RecheckFails h before outputDir relativePath uuid)
    (inv : Inv h before outputDir relativePath l) (step : l.next h outputDir relativePath uuid a = some l') :
    Inv h before outputDir relativePath l' := by
  obtain ⟨fs,stage,written,writes⟩ := l
  cases a with
  | create =>
    cases stage with
    | fresh =>
      obtain ⟨rfl,rfl⟩ := inv
      have created := create_spec rechecked
      simp only [Life.next] at step
      cases ran : create h outputDir relativePath uuid fs with
      | ok result u =>
        rw [ran] at created step
        cases step
        exact created
      | error e u =>
        rw [ran] at created step
        cases step
        exact created
    | failed | writing _ _ | committed _ _ | dropped _ _ => cases step
  | write buf accepted =>
    simp only [Life.next] at step
    split at step
    · cases step
    · rename_i file opened
      have wrote := write_spec (h := h) (s := fs) writes file (buf.take accepted)
      cases ran : write h writes file (buf.take accepted) fs with
      | ok _ u =>
        rw [ran] at wrote step
        cases step
        rcases wrote with ⟨_,rfl⟩ | ⟨_,same,_⟩
        · exact inv_write inv opened _
        · cases same
      | error e u =>
        rw [ran] at wrote step
        cases step
        rcases wrote with ⟨same,_⟩ | ⟨_,_,rfl⟩
        · cases same
        · exact inv
  | commit =>
    cases stage with
    | writing out file =>
      obtain ⟨d,n,t,writing⟩ := inv
      have committed := commit_spec writing
      simp only [Life.next] at step
      cases ran : commit h out fs with
      | ok _ u =>
        rw [ran] at committed step
        cases step
        rcases committed with ⟨_,published⟩ | ⟨_,same,_⟩
        · exact ⟨d,n,t,published⟩
        · cases same
      | error e u =>
        rw [ran] at committed step
        cases step
        rcases committed with ⟨same,_⟩ | ⟨_,_,given⟩
        · cases same
        · exact ⟨d,n,t,given⟩
    | fresh | failed | committed _ _ | dropped _ _ => cases step
  | drop =>
    cases stage with
    | writing out file =>
      obtain ⟨d,n,t,writing⟩ := inv
      cases step
      exact ⟨d,n,t,ends_final (drop_spec writing)⟩
    | fresh | failed | committed _ _ | dropped _ _ => cases step

/-- The file is not one of those there were. -/
theorem Holding.made_file (holding : Holding h before outputDir relativePath out file written s d n t) {n' : OsName}
    (there : s.node d n' = some (.file file)) : Made before s d n' :=
  ⟨file,there,fun old => Nat.not_lt_of_le holding.fresh (Fs.used_node old)⟩

/-- The temporary name is not that of the target. -/
theorem Holding.temporary_entry (holding : Holding h before outputDir relativePath out file written s d n t) :
    h.locate s out.temporary = some (d,t) ∧ h.locate s out.target ≠ some (d,t) := by
  refine ⟨holding.temporary,fun same => ?_⟩
  cases holding.target.symm.trans same
  exact holding.apart rfl

theorem clean_of_inv (inv : Inv h before outputDir relativePath l) : Clean h before outputDir relativePath l := by
  obtain ⟨fs,stage,written,writes⟩ := l
  cases stage with
  | fresh =>
    obtain ⟨rfl,_⟩ := inv
    exact ⟨fun _ same => (by cases same),preserves_refl fs,fun _ _ made => absurd made made_refl,
      fun _ _ same => (by cases same),fun _ given => (by cases given)⟩
  | failed =>
    exact ⟨fun _ same => (by cases same),inv.kept,fun d n made => absurd made (inv.made d n),
      fun _ _ same => (by cases same),fun _ _ => inv.made⟩
  | writing out file =>
    obtain ⟨d,n,t,writing⟩ := inv
    refine ⟨fun _ same => (by cases same; exact writing.named),writing.kept,fun d' n' made => ?_,
      fun _ _ same => (by cases same),fun _ given => (by cases given)⟩
    obtain ⟨rfl,rfl⟩ := writing.made d' n' made
    exact ⟨out,rfl,.inl writing.temporary_entry⟩
  | committed out file =>
    obtain ⟨d,n,t,published⟩ := inv
    refine ⟨fun _ same => (by cases same; exact published.named),published.kept,fun d' n' made => ?_,
      fun _ _ same => ?_,fun _ given => (by cases given)⟩
    · obtain ⟨rfl,rfl | rfl⟩ := published.made d' n' made
      · exact ⟨out,rfl,.inr ⟨published.target,rfl⟩⟩
      · exact ⟨out,rfl,.inl published.temporary_entry⟩
    · cases same
      exact ⟨d,n,file,published.target,published.made_file published.there,published.there,published.bytes⟩
  | dropped out file =>
    obtain ⟨d,n,t,given⟩ := inv
    refine ⟨fun _ same => (by cases same; exact given.named),given.kept,fun d' n' made => ?_,
      fun _ _ same => (by cases same),fun removed _ d' n' made => ?_⟩
    · obtain ⟨rfl,rfl,_⟩ := given.made d' n' made
      exact ⟨out,rfl,.inl given.temporary_entry⟩
    · obtain ⟨_,_,e,failed⟩ := given.made d' n' made
      cases removed _ e failed

/-- A failing re-canonicalisation leaves the temporary file that has just been opened. -/
theorem recheck_leaves (fails : RecheckFails h before outputDir relativePath uuid) :
    ∃ l, Reach (life h before outputDir relativePath uuid) Always l ∧ ¬Clean h before outputDir relativePath l := by
  obtain ⟨⟨e,fault⟩,result,u,ran⟩ := fails
  have opened : Ends (Opened h before outputDir relativePath) (openTemporary h outputDir relativePath uuid before) :=
    openTemporary_spec
  rw [ran] at opened
  obtain ⟨out,parent,place,file⟩ := result
  obtain ⟨_,_,n,t,writing⟩ := opened
  have failed : create h outputDir relativePath uuid before = .error (.io e) u := by
    have refused : canonicalize h .recheckParent parent u = .error e u := by
      unfold canonicalize perform
      rw [fails_some.mpr fault]
    unfold create
    rw [bind_ran ran]
    apply bind_failed
    show EStateM.adaptExcept CreateError.io (canonicalize h .recheckParent parent) u = _
    unfold EStateM.adaptExcept
    rw [refused]
  have start : (life h before outputDir relativePath uuid).init ⟨before,.fresh,[],0⟩ := rfl
  refine ⟨⟨u,.failed,[],0⟩,.advance .create (.start _ start) trivial ?_,fun clean => ?_⟩
  · simp only [life,Life.next,failed]
  · refine clean.residue (fun site e' same => ?_) rfl place t (writing.made_file writing.there)
    cases fault.symm.trans same
    rfl

/-- A life is clean throughout unless the re-canonicalisation of the parent fails. -/
theorem life_clean_iff (h : Host) (before : Fs) (outputDir : OsStr) (relativePath uuid : Str) :
    (∀ l, Reach (life h before outputDir relativePath uuid) Always l → Clean h before outputDir relativePath l) ↔
      ¬RecheckFails h before outputDir relativePath uuid := by
  constructor
  · intro clean fails
    obtain ⟨l,reach,unclean⟩ := recheck_leaves fails
    exact unclean (clean l reach)
  · intro rechecked l reach
    apply clean_of_inv
    refine reach.invariant (Inv h before outputDir relativePath) ?_ fun l a l' inv _ step => ?_
    · rintro l rfl
      exact ⟨rfl,rfl⟩
    · exact inv_next rechecked inv step

end Outputs

end Vnidrop.AtomicOutput
