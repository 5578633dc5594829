import Vnidrop.Excepts
import Vnidrop.ImportedCollections

/-! When a receiver with the limits of the sender can take what the sender has imported. -/
namespace Vnidrop.Imports

open Excepts Paths

/-! Names. -/

section Names

variable {p : Path} {s : Str} {names : List Str}

/-- A name that `path_to_string` lets pass. -/
def Solid (s : Str) : Prop := '/' ∉ s ∧ '\\' ∉ s

theorem part_ok {c : Component} {o : Option Str} :
    part true c = .ok o ↔ ∃ s, c = .normal (.text s) ∧ Solid s ∧ o = some s := by
  unfold part
  constructor
  · intro h
    split at h
    · rename_i s
      split at h
      · rename_i solid
        cases h
        exact ⟨s,rfl,solid,rfl⟩
      · cases h
    all_goals cases h
  · rintro ⟨s,rfl,solid,rfl⟩
    exact if_pos solid

theorem mapM_part {parts : List (Option Str)} : p.mapM (part true) = .ok parts ↔
    ∃ names, p = relative names ∧ (∀ s ∈ names, Solid s) ∧ parts = names.map some := by
  rw [mapM_ok]
  constructor
  · intro h
    induction h with
    | nil => exact ⟨[],rfl,by simp,rfl⟩
    | cons first _ ih =>
      obtain ⟨names,rfl,solid,rfl⟩ := ih
      obtain ⟨s,rfl,here,rfl⟩ := part_ok.mp first
      exact ⟨s :: names,rfl,List.forall_mem_cons.mpr ⟨here,solid⟩,rfl⟩
  · rintro ⟨names,rfl,solid,rfl⟩
    induction names with
    | nil => exact .nil
    | cons s names ih =>
      exact .cons (part_ok.mpr ⟨s,rfl,solid s List.mem_cons_self,rfl⟩)
        (ih fun s there => solid s (List.mem_cons_of_mem _ there))

/-- A relative path passes when it has nothing but names, none of them with a backslash. -/
theorem pathToString_ok : pathToString p true = .ok s ↔
    ∃ names, p = relative names ∧ (∀ s ∈ names, Solid s) ∧ s = join names := by
  unfold pathToString
  have rootless (names : List Str) : Component.rootDir ∉ relative names := by simp [relative]
  rw [bind_ok]
  constructor
  · rintro ⟨parts,mapped,same⟩
    obtain ⟨names,rfl,solid,rfl⟩ := mapM_part.mp mapped
    refine ⟨names,rfl,solid,?_⟩
    cases same
    simp [rootless]
  · rintro ⟨names,rfl,solid,rfl⟩
    refine ⟨names.map some,mapM_part.mpr ⟨names,rfl,solid,rfl⟩,?_⟩
    simp only [rootless,if_false,List.nil_append,List.filterMap_map]
    exact congrArg Except.ok (congrArg join (List.filterMap_some ..))

/-- The names that a collection entry consists of. -/
structure Places (names : List Str) : Prop where
  proper : ∀ s ∈ names, Proper s
  solid : ∀ s ∈ names, Solid s
  nonempty : names ≠ []

theorem Places.path (places : Places names) : components (join names) = relative names :=
  components_join places.proper

/-- What has passed on import passes on export. -/
theorem Places.safe (places : Places names) : safeOutputPath (join names) = .ok (relative names) := by
  have passes : pathToString (components (join names)) true = .ok (join names) :=
    pathToString_ok.mpr ⟨names,places.path,places.solid,rfl⟩
  refine bind_ok.mpr ⟨join names,mapError_ok.mpr passes,?_⟩
  exact congrArg Except.ok places.path

theorem validated_ok {s' : Str} (h : validatedRelativeString s = .ok s') :
    ∃ names, components s = relative names ∧ Places names ∧ s' = join names := by
  obtain ⟨value,passed,rest⟩ := bind_ok.mp h
  obtain ⟨names,same,solid,rfl⟩ := pathToString_ok.mp (mapError_ok.mp passed)
  split at rest
  · cases rest
  · rename_i nonempty
    cases rest
    refine ⟨names,same,⟨components_proper same,solid,?_⟩,rfl⟩
    rintro rfl
    exact nonempty rfl

theorem nonEmpty_ne (h : nonEmpty s = some s') : s' ≠ [] := by
  unfold nonEmpty at h
  split at h
  · cases h
  · rename_i nonempty
    cases h
    exact nonempty

theorem pathDisplayName_ne (source : ShareSource) (path : Str) : pathDisplayName source path ≠ [] := by
  unfold pathDisplayName
  cases given : source.displayName.bind nonEmpty with
  | some name =>
    obtain ⟨text,_,same⟩ := Option.bind_eq_some_iff.mp given
    exact nonEmpty_ne same
  | none =>
    rw [Option.none_or]
    cases last : fileName (components path) with
    | none => exact List.cons_ne_nil _ _
    | some name =>
      unfold fileName at last
      split at last
      · rename_i found
        cases last
        obtain ⟨text,rfl,proper⟩ := normal_proper (List.mem_of_getLast? found)
        exact proper.1
      · cases last

end Names

/-! The files of a directory. -/

section Walks

/-- Neither is the other or an ancestor of it. -/
abbrev Apart {α : Type} (f g : List α × Nat) : Prop := ¬(f.1 <+: g.1 ∨ g.1 <+: f.1)

theorem apart_cons {α : Type} {a : α} {f g : List α × Nat} :
    Apart (a :: f.1,f.2) (a :: g.1,g.2) ↔ Apart f g := by
  simp [List.cons_prefix_cons]

theorem apart_heads {α : Type} {a b : α} {p q : List α} {n m : Nat} (other : a ≠ b) :
    Apart (a :: p,n) (b :: q,m) := by
  simp [List.cons_prefix_cons,other,other.symm]

mutual

theorem walk_named : ∀ node : Node, node.WellFormed → ∀ f ∈ node.walk, ∀ name ∈ f.1, named name
  | .file _, _, f, there, name, member => by
    simp only [Node.walk,List.mem_singleton] at there
    simp [there] at member
  | .special _, _, f, there, _, _ => by simp [Node.walk] at there
  | .dir entries, well, f, there, name, member => entries_named entries well f there name member

theorem entries_named : ∀ entries : Entries, entries.WellFormed → ∀ f ∈ entries.walk,
    ∀ name ∈ f.1, named name
  | .nil, _, f, there, _, _ => by simp [Entries.walk] at there
  | .cons name node rest, well, f, there, member, inside => by
    rcases List.mem_append.mp there with below | other
    · obtain ⟨g,found,rfl⟩ := List.mem_map.mp below
      rcases List.mem_cons.mp inside with rfl | deeper
      · exact well.1
      · exact walk_named node well.2.2.1 g found member deeper
    · exact entries_named rest well.2.2.2 f other member inside

end

theorem entries_head : ∀ entries : Entries, ∀ f ∈ entries.walk, ∃ name ∈ entries.names, ∃ rest, f.1 = name :: rest
  | .nil, f, there => by simp [Entries.walk] at there
  | .cons name node rest, f, there => by
    rcases List.mem_append.mp there with below | other
    · obtain ⟨g,_,rfl⟩ := List.mem_map.mp below
      exact ⟨name,List.mem_cons_self,g.1,rfl⟩
    · obtain ⟨name',member,tail,same⟩ := entries_head rest f other
      exact ⟨name',List.mem_cons_of_mem _ member,tail,same⟩

mutual

/-- A regular file is not below another, and has one path. -/
theorem walk_apart : ∀ node : Node, node.WellFormed → node.walk.Pairwise Apart
  | .file _, _ => List.pairwise_singleton ..
  | .special _, _ => .nil
  | .dir entries, well => entries_apart entries well

theorem entries_apart : ∀ entries : Entries, entries.WellFormed → entries.walk.Pairwise Apart
  | .nil, _ => .nil
  | .cons name node rest, well => by
    refine List.pairwise_append.mpr ⟨?_,entries_apart rest well.2.2.2,fun f below g other => ?_⟩
    · rw [List.pairwise_map]
      exact (walk_apart node well.2.2.1).imp fun apart => apart_cons.mpr apart
    · obtain ⟨f,_,rfl⟩ := List.mem_map.mp below
      obtain ⟨p,m⟩ := g
      obtain ⟨name',member,tail,rfl⟩ := entries_head rest _ other
      exact apart_heads fun same => well.2.1 (same ▸ member)

end

end Walks

/-! Where the files of a source go. -/

def namesOf (s : Str) : List Str := (components s).filterMap fun
  | .normal (.text name) => some name
  | _ => none

def textsOf (names : List OsName) : List Str := names.filterMap OsName.toStr

def placedPath (fs : Filesystem) (source : ShareSource) (path : Str) : List (List Str × Nat) :=
  let root := namesOf (pathDisplayName source path)
  match fs.node path with
  | some (.dir entries) => entries.walk.map fun f => (root ++ textsOf f.1,f.2)
  | some (.file size) => [(root,size)]
  | some (.special bytes) => if source.isDirectory then [] else [(root,bytes)]
  | none => []

/-- The files that a source stands for: the names of the path that each is to have in the
collection, and its size. -/
def placed (fs : Filesystem) (source : ShareSource) : List (List Str × Nat) :=
  match source.kind with
  | .path | .iosSecurityScopedUrl =>
    match platformPath source.value with
    | .ok path => placedPath fs source path
    | .error _ => []
  | .fileDescriptor =>
    ((fs.descriptor source.value).map fun size => (namesOf (descriptorDisplayName source),size)).toList
  | .androidContentUri => []

/-- The file is imported at that place. -/
structure Lays (file : ImportSourceFile) (f : List Str × Nat) : Prop where
  name : file.collectionName = join f.1
  size : file.source.read = some f.2
  places : Places f.1

section Sources

variable {fs : Filesystem} {source : ShareSource} {files : List ImportSourceFile}

theorem namesOf_relative {s : Str} {names : List Str} (h : components s = relative names) : namesOf s = names := by
  unfold namesOf relative at *
  rw [h,List.filterMap_map]
  exact List.filterMap_some ..

theorem relative_append {s : Str} {rel : List OsName} {names : List Str}
    (h : components s ++ rel.map .normal = relative names) :
    names = namesOf s ++ textsOf rel ∧ rel = (textsOf rel).map .text := by
  obtain ⟨front,back,rfl,first,rest⟩ := List.map_eq_append_iff.mp h.symm
  have whole : rel = back.map .text := by
    refine List.map_injective_iff.mpr (fun a b same => Component.normal.inj same) ?_
    rw [← rest,List.map_map]
    rfl
  have texts : textsOf rel = back := by
    unfold textsOf
    rw [whole,List.filterMap_map]
    exact List.filterMap_some ..
  have names : namesOf s = front := namesOf_relative first.symm
  exact ⟨by rw [names,texts],by rw [texts]; exact whole⟩

/-- One file of a directory. -/
theorem lays_below {displayName : Str} {f : List OsName × Nat} {file : ImportSourceFile}
    (nonempty : displayName ≠ []) (named : ∀ name ∈ f.1, named name)
    (h : (do
      let collectionName ← (pathToString (components displayName ++ f.1.map .normal) true).mapError .path
      return (⟨.path (some (.file f.2)),collectionName⟩ : ImportSourceFile) : Except ImportError _) = .ok file) :
    Lays file (namesOf displayName ++ textsOf f.1,f.2) ∧ f.1 = (textsOf f.1).map .text := by
  obtain ⟨collectionName,passed,made⟩ := bind_ok.mp h
  cases made
  obtain ⟨names,path,solid,rfl⟩ := pathToString_ok.mp (mapError_ok.mp passed)
  obtain ⟨rfl,texts⟩ := relative_append path
  refine ⟨⟨rfl,rfl,⟨fun s member => ?_,solid,fun empty => ?_⟩⟩,texts⟩
  · have there : Component.normal (.text s) ∈ components displayName ++ f.1.map .normal := by
      rw [path]
      exact List.mem_map.mpr ⟨s,member,rfl⟩
    rcases List.mem_append.mp there with front | back
    · obtain ⟨t,text,proper⟩ := normal_proper front
      cases text
      exact proper
    · obtain ⟨name,inside,same⟩ := List.mem_map.mp back
      cases same
      exact named _ inside
  · dsimp only at empty
    rw [empty] at path
    exact components_ne_nil nonempty (List.append_eq_nil_iff.mp path).1

theorem lays_single {s collectionName : Str} {source : ImportSource} {size : Nat}
    (validated : validatedRelativeString s = .ok collectionName) (reads : source.read = some size) :
    Lays ⟨source,collectionName⟩ (namesOf s,size) := by
  obtain ⟨names,path,places,rfl⟩ := validated_ok validated
  rw [namesOf_relative path]
  exact ⟨rfl,reads,places⟩

theorem apart_below {root : List Str} {f g : List OsName × Nat} (apart : Apart f g)
    (texts : f.1 = (textsOf f.1).map .text) (texts' : g.1 = (textsOf g.1).map .text) :
    Apart (root ++ textsOf f.1,f.2) (root ++ textsOf g.1,g.2) := by
  unfold Apart
  simp only [List.prefix_append_right_inj]
  refine fun meets => apart ?_
  rw [texts,texts']
  exact meets.imp (fun h => h.map _) fun h => h.map _

theorem collectDir_lays {displayName : Str} {node : Node} (nonempty : displayName ≠ [])
    (well : node.WellFormed) (h : collectDirFiles (some node) displayName = .ok files) :
    List.Forall₂ Lays files (node.walk.map fun f => (namesOf displayName ++ textsOf f.1,f.2)) ∧
    (node.walk.map fun f => (namesOf displayName ++ textsOf f.1,f.2)).Pairwise Apart := by
  have made := mapM_ok.mp h
  have all := walk_named node well
  have laid : List.Forall₂ Lays files (node.walk.map fun f => (namesOf displayName ++ textsOf f.1,f.2)) ∧
      ∀ f ∈ node.walk, f.1 = (textsOf f.1).map .text := by
    clear h
    generalize node.walk = walk at made all
    induction made with
    | nil => exact ⟨.nil,by simp⟩
    | cons first _ ih =>
      obtain ⟨rest,texts⟩ := ih fun f there => all f (List.mem_cons_of_mem _ there)
      obtain ⟨here,text⟩ := lays_below nonempty (all _ List.mem_cons_self) first
      exact ⟨.cons here rest,List.forall_mem_cons.mpr ⟨text,texts⟩⟩
  refine ⟨laid.1,?_⟩
  rw [List.pairwise_map]
  exact (walk_apart node well).imp_of_mem fun f g apart => apart_below apart (laid.2 _ f) (laid.2 _ g)

/-- What is imported of a source goes where the source says, each file to a place of its own. -/
theorem collectSource_lays (h : collectSource fs source = .ok files)
    (present : ∀ file ∈ files, file.source ≠ .path none) :
    List.Forall₂ Lays files (placed fs source) ∧ (placed fs source).Pairwise Apart := by
  have byPath (h : collectPath fs source = .ok files) (place : ∀ path,
      platformPath source.value = .ok path → placed fs source = placedPath fs source path) :
      List.Forall₂ Lays files (placed fs source) ∧ (placed fs source).Pairwise Apart := by
    obtain ⟨path,found,rest⟩ := bind_ok.mp h
    rw [place path found]
    unfold placedPath
    dsimp only at rest ⊢
    cases node : fs.node path with
    | none =>
      rw [node] at rest
      split at rest
      · cases rest
      · obtain ⟨name,_,made⟩ := bind_ok.mp rest
        cases made
        exact absurd rfl (present _ List.mem_cons_self)
    | some n =>
      have well := fs.wellFormed path n node
      rw [node] at rest
      by_cases directory : (source.isDirectory || n.isDir) = true
      · rw [Option.any_some,if_pos directory] at rest
        have laid := collectDir_lays (pathDisplayName_ne source path) well rest
        cases n with
        | file size => simpa [Node.walk,textsOf] using laid
        | special bytes =>
          simp only [Node.isDir,Bool.or_false] at directory
          simpa [Node.walk,directory] using laid
        | dir entries => exact laid
      · rw [Option.any_some,if_neg directory] at rest
        simp only [Bool.or_eq_true,not_or,Bool.not_eq_true] at directory
        obtain ⟨name,validated,made⟩ := bind_ok.mp rest
        cases made
        cases n with
        | file size => exact ⟨.cons (lays_single validated rfl) .nil,List.pairwise_singleton ..⟩
        | special bytes =>
          simp only [directory.1,Bool.false_eq_true,if_false]
          exact ⟨.cons (lays_single validated rfl) .nil,List.pairwise_singleton ..⟩
        | dir entries => cases directory.2
  cases kind : source.kind with
  | path => exact byPath (by simpa [collectSource,kind] using h) fun path found => by simp [placed,kind,found]
  | iosSecurityScopedUrl =>
    exact byPath (by simpa [collectSource,kind] using h) fun path found => by simp [placed,kind,found]
  | fileDescriptor =>
    simp only [collectSource,kind,collectDescriptor] at h
    split at h
    · cases h
    · cases open_ : fs.descriptor source.value with
      | none =>
        rw [open_] at h
        cases h
      | some size =>
        rw [open_] at h
        obtain ⟨name,validated,made⟩ := bind_ok.mp h
        cases made
        simp only [placed,kind,open_]
        exact ⟨.cons (lays_single validated rfl) .nil,List.pairwise_singleton ..⟩
  | androidContentUri =>
    simp only [collectSource,kind] at h
    cases h

variable {limits : CoreLimits} {sources : List ShareSource}

theorem known_each {n m : Nat} (h : files.foldlM (knownTotal limits) n = .ok m) :
    ∀ file ∈ files, file.source ≠ .path none ∧ utf8Len file.collectionName ≤ limits.maxPathBytes := by
  induction files generalizing n with
  | nil => simp
  | cons file files ih =>
    obtain ⟨total,first,rest⟩ := foldlM_cons_ok.mp h
    refine List.forall_mem_cons.mpr ⟨?_,ih rest⟩
    unfold knownTotal at first
    split at first
    · cases first
    · rename_i short
      refine ⟨fun none => ?_,by omega⟩
      rw [none] at first
      cases first

theorem flatten_lays {collected : List (List ImportSourceFile)}
    (made : List.Forall₂ (fun source files => collectSource fs source = .ok files) sources collected)
    (present : ∀ file ∈ collected.flatten, file.source ≠ .path none) :
    List.Forall₂ Lays collected.flatten (sources.flatMap (placed fs)) ∧
    ∀ source ∈ sources, (placed fs source).Pairwise Apart := by
  induction made with
  | nil => exact ⟨.nil,by simp⟩
  | cons first _ ih =>
    rw [List.flatten_cons] at present
    obtain ⟨here,there⟩ := List.forall_mem_append.mp present
    obtain ⟨laid,apart⟩ := collectSource_lays first here
    obtain ⟨rest,others⟩ := ih there
    exact ⟨List.rel_append laid rest,List.forall_mem_cons.mpr ⟨apart,others⟩⟩

/-- What `collect_import_files_with_limits` has checked. -/
structure Collected (fs : Filesystem) (limits : CoreLimits) (sources : List ShareSource)
    (files : List ImportSourceFile) : Prop where
  lays : List.Forall₂ Lays files (sources.flatMap (placed fs))
  apart : ∀ source ∈ sources, (placed fs source).Pairwise Apart
  short : ∀ file ∈ files, utf8Len file.collectionName ≤ limits.maxPathBytes
  count : files.length ≤ limits.maxCollectionFiles
  nonempty : files ≠ []

theorem collect_ok (h : collectImportFilesWithLimits fs limits sources = .ok files) :
    Collected fs limits sources files := by
  unfold collectImportFilesWithLimits at h
  split at h
  · cases h
  · obtain ⟨collected,made,h⟩ := bind_ok.mp h
    dsimp only at h
    split at h
    · cases h
    · rename_i nonempty
      split at h
      · cases h
      · rename_i count
        obtain ⟨total,known,same⟩ := bind_ok.mp h
        cases same
        have each := known_each known
        obtain ⟨lays,apart⟩ := flatten_lays (mapM_ok.mp made) fun file there => (each file there).1
        exact ⟨lays,apart,fun file there => (each file there).2,by omega,by simpa using nonempty⟩

end Sources

/-! Sums that fit. -/

section Sums

variable {sizes : List Nat}

theorem checkedSum_from (sizes : List Nat) (n : Nat) (fits : n < 18446744073709551616) : sizes.foldlM checkedAdd n =
    if n + sizes.sum < 18446744073709551616 then some (n + sizes.sum) else none := by
  induction sizes generalizing n with
  | nil => simp [fits]
  | cons size sizes ih =>
    rw [List.foldlM_cons,List.sum_cons]
    unfold checkedAdd
    by_cases more : n + size < 18446744073709551616
    · rw [if_pos more,Option.bind_eq_bind,Option.bind_some,← Nat.add_assoc]
      exact ih _ more
    · rw [if_neg more,Option.bind_eq_bind,Option.bind_none,if_neg (by omega)]

theorem checkedSum_eq : checkedSum sizes =
    if sizes.sum < 18446744073709551616 then some sizes.sum else none := by
  have sum := checkedSum_from sizes 0 (by omega)
  rwa [Nat.zero_add] at sum

theorem checkedSum_some {n : Nat} (h : checkedSum sizes = some n) : n = sizes.sum := by
  rw [checkedSum_eq] at h
  split at h
  · exact (Option.some.inj h).symm
  · cases h

/-- The receiver takes up to `max_total_bytes`, and one blob more than there are files. -/
theorem foundCollection_ok {limits : CoreLimits} : (∃ found, foundCollection limits sizes = .ok found) ↔
    sizes.length - 1 ≤ limits.maxCollectionFiles ∧ sizes.sum ≤ limits.maxTotalBytes := by
  have fits := limits.total_fits
  unfold foundCollection
  rw [checkedSum_eq]
  by_cases sum : sizes.sum < 18446744073709551616
  · rw [if_pos sum]
    dsimp only
    by_cases count : limits.maxCollectionFiles < sizes.length - 1
    · rw [if_pos count]
      exact ⟨nofun,fun both => by omega⟩
    · rw [if_neg count]
      by_cases total : limits.maxTotalBytes < sizes.sum
      · rw [if_pos total]
        exact ⟨nofun,fun both => by omega⟩
      · rw [if_neg total]
        exact ⟨fun _ => by omega,fun _ => ⟨_,rfl⟩⟩
  · rw [if_neg sum]
    exact ⟨nofun,fun both => by omega⟩

end Sums

/-! The collection. -/

section Entries

variable {fs : Filesystem} {limits : CoreLimits} {sources : List ShareSource} {c : TransferImport}

def entryOf (file : ImportSourceFile) : Str × Nat := (file.collectionName,file.source.read.getD 0)

theorem addStream_ok {file : ImportSourceFile} {entry : Str × Nat} (h : addStream limits file = .ok entry) :
    entry = entryOf file := by
  unfold addStream at h
  unfold entryOf
  split at h
  · cases h
  · rename_i reads
    split at h
    · cases h
    · cases h
      rw [reads]
      rfl

theorem mapM_addStream {files : List ImportSourceFile} {entries : List (Str × Nat)}
    (h : files.mapM (addStream limits) = .ok entries) : entries = files.map entryOf := by
  have made := mapM_ok.mp h
  clear h
  induction made with
  | nil => rfl
  | cons first _ ih => rw [List.map_cons,← ih,addStream_ok first]

theorem lays_entries {files : List ImportSourceFile} {places : List (List Str × Nat)}
    (lays : List.Forall₂ Lays files places) : files.map entryOf = places.map fun f => (join f.1,f.2) := by
  induction lays with
  | nil => rfl
  | cons first _ ih =>
    rw [List.map_cons,List.map_cons,ih]
    unfold entryOf
    rw [first.name,first.size]
    rfl

theorem lays_mem {files : List ImportSourceFile} {places : List (List Str × Nat)} {f : List Str × Nat}
    (lays : List.Forall₂ Lays files places) (there : f ∈ places) : ∃ file ∈ files, Lays file f := by
  induction lays with
  | nil => cases there
  | cons first _ ih =>
    rcases List.mem_cons.mp there with rfl | rest
    · exact ⟨_,List.mem_cons_self,first⟩
    · obtain ⟨file,member,laid⟩ := ih rest
      exact ⟨file,List.mem_cons_of_mem _ member,laid⟩

/-- What is known of a collection that has been imported. -/
structure Holds (fs : Filesystem) (limits : CoreLimits) (sources : List ShareSource) (c : TransferImport) :
    Prop where
  entries : c.entries.Perm ((sources.flatMap (placed fs)).map fun f => (join f.1,f.2))
  places : ∀ f ∈ sources.flatMap (placed fs), Places f.1 ∧ utf8Len (join f.1) ≤ limits.maxPathBytes
  apart : ∀ source ∈ sources, (placed fs source).Pairwise Apart
  total : c.totalSize = ((sources.flatMap (placed fs)).map (·.2)).sum
  bound : c.totalSize ≤ limits.maxTotalBytes
  count : c.fileCount = c.entries.length
  files : 0 < c.fileCount ∧ c.fileCount ≤ limits.maxCollectionFiles
  name : c.defaultName = (((sources.flatMap (placed fs)).head?).bind (·.1.head?)).getD transferName

theorem default_lays {files : List ImportSourceFile} {places : List (List Str × Nat)}
    (lays : List.Forall₂ Lays files places) :
    defaultCollectionName files = ((places.head?).bind (·.1.head?)).getD transferName := by
  cases lays with
  | nil => rfl
  | @cons file f _ _ first _ =>
    obtain ⟨s,rest,names⟩ := List.exists_cons_of_ne_nil first.places.nonempty
    have split : (join f.1).splitOn '/' = f.1 :=
      List.splitOn_intercalate '/' (fun s there => (first.places.proper s there).2.1) first.places.nonempty
    have proper := (first.places.proper s (by rw [names]; exact List.mem_cons_self)).1
    unfold defaultCollectionName
    rw [List.head?_cons,List.head?_cons,Option.bind_some,Option.bind_some,first.name,split,names,
      List.head?_cons]
    simp [Option.filter,proper]

theorem imported_holds (h : Imported fs limits sources c) : Holds fs limits sources c := by
  obtain ⟨files,finished,collected,order,made⟩ := h
  have collected := collect_ok collected
  obtain ⟨imported,added,made⟩ := bind_ok.mp made
  dsimp only at made
  have entries : (imported.mergeSort fun a b => decide (a.1 ≤ b.1)).Perm
      ((sources.flatMap (placed fs)).map fun f => (join f.1,f.2)) := by
    rw [← lays_entries collected.lays]
    refine (List.mergeSort_perm ..).trans ?_
    rw [mapM_addStream added]
    exact order.map _
  split at made
  · cases made
  · rename_i total sum
    split at made
    · cases made
    · rename_i bound
      cases made
      have count := (entries.length_eq.trans (List.length_map ..)).trans collected.lays.length_eq.symm
      refine ⟨entries,fun f there => ?_,collected.apart,?_,Nat.le_of_not_lt bound,rfl,⟨?_,?_⟩,
        default_lays collected.lays⟩
      · obtain ⟨file,member,lays⟩ := lays_mem collected.lays there
        exact ⟨lays.places,lays.name ▸ collected.short file member⟩
      · rw [checkedSum_some sum]
        refine (List.Perm.sum_nat (entries.map fun f : Str × Nat => f.2)).trans ?_
        rw [List.map_map]
        rfl
      · exact count ▸ List.length_pos_of_ne_nil collected.nonempty
      · exact count ▸ collected.count

end Entries

/-! The export. -/

section Exports

variable {limits : CoreLimits} {out : Output} {done : List (List Str)} {names : List Str}
  {places : List (List Str)}

theorem relative_below {p q : List Str} : relative p <+: relative q ↔ p <+: q :=
  List.prefix_map_iff_of_injective fun s t same => by simpa using same

/-- All that has been written belongs to these entries. -/
structure Wrote (done : List (List Str)) (out : Output) : Prop where
  files : ∀ file ∈ out.files, ∃ p ∈ done, file = relative p
  dirs : ∀ dir ∈ out.dirs, ∃ p ∈ done, dir = (relative p).dropLast

theorem create_free (wrote : Wrote done out) (places : Places names)
    (apart : ∀ p ∈ done, ¬(p <+: names ∨ names <+: p)) :
    ∃ out', out.create (join names) = .ok out' ∧ Wrote (names :: done) out' := by
  have target : relative names ≠ [] := fun empty => places.nonempty (List.map_eq_nil_iff.mp empty)
  refine ⟨⟨relative names :: out.files,(relative names).dropLast :: out.dirs⟩,?_,?_,?_⟩
  · refine bind_ok.mpr ⟨_,places.safe,?_⟩
    dsimp only
    rw [if_neg target,if_neg,if_neg]
    · rfl
    · rintro (there | ⟨dir,made,below⟩)
      · obtain ⟨p,old,same⟩ := wrote.files _ there
        exact apart p old (.inr (relative_below.mp (same ▸ List.prefix_rfl)))
      · rcases List.mem_cons.mp made with rfl | before
        · have short := below.length_le
          have long := List.length_pos_of_ne_nil target
          rw [List.length_dropLast] at short
          omega
        · obtain ⟨p,old,rfl⟩ := wrote.dirs dir before
          exact apart p old (.inr (relative_below.mp (below.trans (List.dropLast_prefix _))))
    · rintro ⟨file,there,above⟩
      obtain ⟨p,old,rfl⟩ := wrote.files file there
      exact apart p old (.inl (relative_below.mp (above.trans (List.dropLast_prefix _))))
  · exact List.forall_mem_cons.mpr ⟨⟨names,List.mem_cons_self,rfl⟩,fun file there =>
      (wrote.files file there).imp fun p h => ⟨List.mem_cons_of_mem _ h.1,h.2⟩⟩
  · exact List.forall_mem_cons.mpr ⟨⟨names,List.mem_cons_self,rfl⟩,fun dir there =>
      (wrote.dirs dir there).imp fun p h => ⟨List.mem_cons_of_mem _ h.1,h.2⟩⟩

/-- Entries of which none is another or above it can be written one after the other. -/
theorem export_free (wrote : Wrote done out)
    (each : ∀ p ∈ places, Places p ∧ utf8Len (join p) ≤ limits.maxPathBytes)
    (apart : ∀ p ∈ done, ∀ q ∈ places, ¬(p <+: q ∨ q <+: p))
    (among : places.Pairwise fun p q => ¬(p <+: q ∨ q <+: p)) :
    ∃ out', (places.map join).foldlM (exportBlobToDirectory limits) out = .ok out' := by
  induction places generalizing done out with
  | nil => exact ⟨out,rfl⟩
  | cons p places ih =>
    obtain ⟨here,short⟩ := each p List.mem_cons_self
    obtain ⟨first,rest⟩ := List.pairwise_cons.mp among
    obtain ⟨out₁,created,wrote₁⟩ := create_free wrote here fun q old => apart q old p List.mem_cons_self
    obtain ⟨out',written⟩ := ih wrote₁ (fun q there => each q (List.mem_cons_of_mem _ there))
      (List.forall_mem_cons.mpr ⟨first,fun q old r there => apart q old r (List.mem_cons_of_mem _ there)⟩) rest
    refine ⟨out',foldlM_cons_ok.mpr ⟨out₁,?_,written⟩⟩
    unfold exportBlobToDirectory
    rw [if_neg (by omega)]
    exact created

end Exports

/-! The receiver of the same limits. -/

section Receivable

variable {fs : Filesystem} {limits : CoreLimits} {sources : List ShareSource} {c : TransferImport}
  {metadataSize : Multiset Str → Nat}

def TransferImport.names (c : TransferImport) : List Str := c.entries.map (·.1)

/-- The sizes of the children of the stored collection: the metadata blob, which has the
names, and the files. -/
def TransferImport.sizes (metadataSize : Multiset Str → Nat) (c : TransferImport) : List Nat :=
  metadataSize c.names :: c.entries.map (·.2)

/-- A receiver accepts the collection and exports it into an empty directory. -/
structure Receivable (limits : CoreLimits) (metadataSize : Multiset Str → Nat) (c : TransferImport) :
    Prop where
  found : ∃ found, foundCollection limits (c.sizes metadataSize) = .ok found
  safe : ∀ name ∈ c.names, ∃ path, safeOutputPath name = .ok path
  distinct : c.names.Nodup
  ancestors : ∀ a ∈ c.names, ∀ b ∈ c.names, components a <+: components b → components a = components b
  exports : ∃ out, exportCollection limits c.names = .ok out

/-- The files of all sources. -/
abbrev allPlaced (fs : Filesystem) (sources : List ShareSource) : List (List Str × Nat) :=
  sources.flatMap (placed fs)

/-- No file of one source goes where a file of another goes, or below it. -/
def Separate (fs : Filesystem) (sources : List ShareSource) : Prop :=
  sources.Pairwise fun s s' => ∀ f ∈ placed fs s, ∀ g ∈ placed fs s', Apart f g

/-- The files of all sources and their names fit in `max_total_bytes`. -/
def Fits (fs : Filesystem) (limits : CoreLimits) (metadataSize : Multiset Str → Nat)
    (sources : List ShareSource) : Prop :=
  metadataSize ((allPlaced fs sources).map fun f => join f.1) + ((allPlaced fs sources).map (·.2)).sum ≤
    limits.maxTotalBytes

instance : Std.Symm (fun f g : List Str × Nat => Apart f g) := ⟨fun _ _ apart meets => apart meets.symm⟩

theorem Holds.separate (holds : Holds fs limits sources c) :
    (allPlaced fs sources).Pairwise Apart ↔ Separate fs sources := by
  unfold allPlaced Separate
  rw [List.pairwise_flatMap]
  exact ⟨And.right,fun across => ⟨holds.apart,across⟩⟩

theorem Holds.names_perm (holds : Holds fs limits sources c) :
    c.names.Perm ((allPlaced fs sources).map fun f => join f.1) := by
  have names := holds.entries.map (·.1)
  rwa [List.map_map] at names

theorem Holds.name_of (holds : Holds fs limits sources c) {name : Str} (there : name ∈ c.names) :
    ∃ f ∈ allPlaced fs sources, name = join f.1 := by
  obtain ⟨f,member,same⟩ := List.mem_map.mp (holds.names_perm.mem_iff.mp there)
  exact ⟨f,member,same.symm⟩

theorem Holds.found_iff (holds : Holds fs limits sources c) :
    (∃ found, foundCollection limits (c.sizes metadataSize) = .ok found) ↔
      Fits fs limits metadataSize sources := by
  have few : (c.sizes metadataSize).length - 1 ≤ limits.maxCollectionFiles := by
    have count := holds.files.2
    rw [holds.count] at count
    simpa [TransferImport.sizes] using count
  have sum : (c.sizes metadataSize).sum =
      metadataSize ((allPlaced fs sources).map fun f => join f.1) + ((allPlaced fs sources).map (·.2)).sum := by
    have sizes := List.Perm.sum_nat (holds.entries.map (·.2))
    rw [List.map_map] at sizes
    rw [TransferImport.sizes,List.sum_cons,Multiset.coe_eq_coe.mpr holds.names_perm,sizes]
    rfl
  rw [foundCollection_ok,sum]
  exact ⟨And.right,fun fits => ⟨few,fits⟩⟩

/-- Names that are distinct, none of them above another, are those of separate sources. -/
theorem Holds.separate_of (holds : Holds fs limits sources c) (distinct : c.names.Nodup)
    (ancestors : ∀ a ∈ c.names, ∀ b ∈ c.names, components a <+: components b → components a = components b) :
    Separate fs sources := by
  have nodup := holds.names_perm.nodup_iff.mp distinct
  rw [List.Nodup,List.pairwise_map] at nodup
  refine holds.separate.mp (nodup.imp_of_mem fun {f g} here there differ meets => ?_)
  have member {f : List Str × Nat} (there : f ∈ allPlaced fs sources) : join f.1 ∈ c.names :=
    holds.names_perm.mem_iff.mpr (List.mem_map.mpr ⟨f,there,rfl⟩)
  have above {f g : List Str × Nat} (here : f ∈ allPlaced fs sources) (there : g ∈ allPlaced fs sources)
      (below : f.1 <+: g.1) : f.1 = g.1 := by
    have path := ancestors _ (member here) _ (member there)
    rw [(holds.places f here).1.path,(holds.places g there).1.path,relative_below] at path
    exact List.map_injective_iff.mpr (fun s t h => by simpa using h) (path below)
  rcases meets with below | below
  · exact differ (congrArg join (above here there below))
  · exact differ (congrArg join (above there here below).symm)

theorem Holds.exports_of (holds : Holds fs limits sources c) (separate : Separate fs sources) :
    ∃ out, exportCollection limits c.names = .ok out := by
  have each {f : List Str × Nat} (there : f ∈ allPlaced fs sources) : namesOf (join f.1) = f.1 :=
    namesOf_relative (holds.places f there).1.path
  have whole : (c.names.map namesOf).map join = c.names := by
    rw [List.map_map]
    refine Eq.trans (List.map_congr_left fun name there => ?_) (List.map_id _)
    obtain ⟨f,member,rfl⟩ := holds.name_of there
    exact congrArg join (each member)
  have order : (c.names.map namesOf).Perm ((allPlaced fs sources).map (·.1)) := by
    refine (holds.names_perm.map namesOf).trans ?_
    rw [List.map_map]
    exact List.Perm.of_eq (List.map_congr_left fun f there => each there)
  have among : (c.names.map namesOf).Pairwise fun p q => ¬(p <+: q ∨ q <+: p) := by
    refine (order.pairwise_iff fun apart meets => apart meets.symm).mpr ?_
    rw [List.pairwise_map]
    exact holds.separate.mpr separate
  unfold exportCollection
  rw [← whole]
  refine export_free (show Wrote [] ⟨[],[]⟩ from ⟨by simp,by simp⟩) (fun p there => ?_) (by simp) among
  obtain ⟨f,member,rfl⟩ := List.mem_map.mp (order.mem_iff.mp there)
  exact holds.places f member

/-- A receiver with the limits of the sender can take an imported collection exactly if the
files of different sources do not go to the same place, or one below the other, and the
metadata blob fits in `max_total_bytes` too. -/
theorem import_receivable_iff (imported : Imported fs limits sources c) :
    Receivable limits metadataSize c ↔ Separate fs sources ∧ Fits fs limits metadataSize sources := by
  have holds := imported_holds imported
  constructor
  · intro receivable
    exact ⟨holds.separate_of receivable.distinct receivable.ancestors,holds.found_iff.mp receivable.found⟩
  · rintro ⟨separate,fits⟩
    have apart := holds.separate.mpr separate
    refine ⟨holds.found_iff.mpr fits,fun name there => ?_,?_,fun a here b there below => ?_,
      holds.exports_of separate⟩
    · obtain ⟨f,member,rfl⟩ := holds.name_of there
      exact ⟨_,(holds.places f member).1.safe⟩
    · refine holds.names_perm.nodup_iff.mpr ?_
      rw [List.Nodup,List.pairwise_map]
      refine apart.imp_of_mem fun {f g} here there apart same => apart (.inl ?_)
      have place := join_injective (holds.places f here).1.proper (holds.places g there).1.proper same
      exact place ▸ List.prefix_rfl
    · obtain ⟨f,placed,rfl⟩ := holds.name_of here
      obtain ⟨g,placed',rfl⟩ := holds.name_of there
      by_cases same : f = g
      · rw [same]
      · rw [(holds.places f placed).1.path,(holds.places g placed').1.path,relative_below] at below
        exact absurd (Or.inl below) (List.Pairwise.forall apart placed placed' same)

end Receivable

namespace Sample

def limits : CoreLimits := ⟨128,10000,1000,4096,16384,16,60000,5,by decide,by decide⟩

/-- A file of one byte at every path, and no descriptors. -/
def fs : Filesystem where
  node _ := some (.file 1)
  descriptor _ := none
  wellFormed _ _ found := Option.some.inj found ▸ trivial

def source (value displayName : Char) : ShareSource := ⟨.path,[value],some [displayName],false⟩

def file (name : Char) : ImportSourceFile := ⟨.path (some (.file 1)),[name]⟩

def imports (first second : Char) : TransferImport := ⟨[([first],1),([second],1)],2,2,[first]⟩

theorem imported (first second : Char)
    (collected : collectImportFilesWithLimits fs limits [source 'x' first,source 'y' second] =
      .ok [file first,file second])
    (ordered : decide ([first] ≤ [second]) = true)
    (named : defaultCollectionName [file first,file second] = [first]) :
    Imported fs limits [source 'x' first,source 'y' second] (imports first second) := by
  refine ⟨_,_,collected,.refl _,bind_ok.mpr ⟨[([first],1),([second],1)],rfl,?_⟩⟩
  have sorted : [([first],1),([second],1)].Pairwise fun a b : Str × Nat => decide (a.1 ≤ b.1) = true := by
    simpa using ordered
  rw [List.mergeSort_of_pairwise sorted,named]
  rfl

end Sample

/-- Two files of the same name are imported, and cannot be exported. -/
theorem same_name_unreceivable :
    Imported Sample.fs Sample.limits [Sample.source 'x' 'a',Sample.source 'y' 'a'] (Sample.imports 'a' 'a') ∧
    ∀ metadataSize, ¬Receivable Sample.limits metadataSize (Sample.imports 'a' 'a') :=
  ⟨Sample.imported 'a' 'a' rfl (by decide) (by decide),fun _ receivable => absurd receivable.distinct (by decide)⟩

/-- Two files of different names can be received. -/
theorem two_names_receivable : Receivable Sample.limits (fun _ => 20) (Sample.imports 'a' 'b') :=
  (import_receivable_iff (Sample.imported 'a' 'b' rfl (by decide) (by decide))).mpr
    ⟨by unfold Separate; decide,by unfold Fits; decide⟩

end Vnidrop.Imports
