import Vnidrop.ImportedReceivable
import Vnidrop.ListParts
import Vnidrop.OsPaths

/-! Where the name of a collection entry leads below an output directory, and what a sink of
the caller is told instead. -/
namespace Vnidrop.OutputPaths

open Excepts Imports Paths

/-- `safe_output_path`, with the path of the directory in it. -/
def safeOutputPath (outputDir : OsStr) (relativePath : Str) : Except PathError OsStr := do
  let _ ← pathToString (components relativePath) true
  return outputDir.join (OsStr.ofStr relativePath)

/-- The path has the components of the directory, and at least one name after them. -/
def Beneath (outputDir path : OsStr) : Prop :=
  ∃ names : List Str, names ≠ [] ∧ path.components = outputDir.components ++ relative names

/-- A root, or a way up; paths on Unix have no prefix. -/
def Escapes (relativePath : Str) : Prop :=
  .rootDir ∈ components relativePath ∨ .parentDir ∈ components relativePath

/-- What is accepted lies strictly beneath the directory; what could leave it, and what names
nothing, is rejected. -/
structure Contained (outputDir : OsStr) (relativePath : Str) : Prop where
  beneath : ∀ path, safeOutputPath outputDir relativePath = .ok path → Beneath outputDir path
  rejected : Escapes relativePath ∨ relativePath = [] →
    ∃ error, safeOutputPath outputDir relativePath = .error error

/-- Both validations reject the name, or both accept it for the same names. -/
def Agree (outputDir : OsStr) (name : Str) : Prop :=
  ((∃ error, safeOutputPath outputDir name = .error error) ∧
    ∃ error, validatedRelativeString name = .error error) ∨
  ∃ path value names, safeOutputPath outputDir name = .ok path ∧ validatedRelativeString name = .ok value ∧
    path.components = outputDir.components ++ relative names ∧ components value = relative names

/-- No name, or a single one that is nothing but whitespace. -/
def Blank (name : Str) : Prop := name = [] ∨ ∃ only, components name = relative [only] ∧ trim only = []

section Validation

variable {outputDir path : OsStr} {name : Str} {names : List Str} {c : Component}

theorem relative_injective : Function.Injective relative :=
  List.map_injective_iff.mpr fun s t same => by simpa using same

theorem mem_relative (there : c ∈ relative names) : ∃ s, c = .normal (.text s) := by
  obtain ⟨s,_,same⟩ := List.mem_map.mp there
  exact ⟨s,same.symm⟩

theorem components_nil : components ([] : Str) = [] := rfl

/-- A name passes when it consists of names without a backslash. -/
theorem safeOutputPath_ok : safeOutputPath outputDir name = .ok path ↔
    ∃ names, components name = relative names ∧ (∀ s ∈ names, Solid s) ∧
      path = outputDir.join (OsStr.ofStr name) := by
  unfold safeOutputPath
  rw [bind_ok]
  constructor
  · rintro ⟨text,passed,same⟩
    obtain ⟨names,parts,solid,_⟩ := pathToString_ok.mp passed
    cases same
    exact ⟨names,parts,solid,rfl⟩
  · rintro ⟨names,parts,solid,rfl⟩
    exact ⟨join names,pathToString_ok.mpr ⟨names,parts,solid,rfl⟩,rfl⟩

/-- A path that consists of names does not start with a root or with a dot. -/
theorem start_plain (parts : components name = relative names) : (OsStr.ofStr name).start = [] := by
  have whole : (OsStr.ofStr name).start ++ ((OsStr.ofStr name).splitOn OsStr.separator).filterMap OsStr.segment =
      relative names := (components_ofStr name).trans parts
  have inside (c : Component) (there : c ∈ (OsStr.ofStr name).start) : ∃ s, c = .normal (.text s) :=
    mem_relative (show c ∈ relative names from whole ▸ List.mem_append_left _ there)
  unfold OsStr.start at inside ⊢
  split
  · rename_i root
    obtain ⟨s,same⟩ := inside .rootDir (by simp [root])
    cases same
  · rename_i relative
    split
    · rename_i dotted
      obtain ⟨s,same⟩ := inside .curDir (by simp [relative,dotted])
      cases same
    · rfl

/-- An accepted path is the directory's, with the names after it. -/
theorem accepted_components (parts : components name = relative names) :
    (outputDir.join (OsStr.ofStr name)).components = outputDir.components ++ relative names := by
  rw [components_joined (start_plain parts),components_ofStr,parts]

/-- The path below the directory is the one that the export to a directory works with. -/
theorem safeOutputPath_below {below : Path} (accepted : Imports.safeOutputPath name = .ok below) :
    ∃ path, safeOutputPath outputDir name = .ok path ∧ path.components = outputDir.components ++ below := by
  obtain ⟨text,passed,same⟩ := bind_ok.mp accepted
  obtain ⟨names,parts,solid,_⟩ := pathToString_ok.mp (mapError_ok.mp passed)
  cases same
  refine ⟨_,safeOutputPath_ok.mpr ⟨names,parts,solid,rfl⟩,?_⟩
  rw [accepted_components parts,parts]

theorem error_of_not_ok {ε α : Type} {r : Except ε α} (no : ∀ a, r ≠ .ok a) : ∃ e, r = .error e := by
  cases r with
  | ok a => exact absurd rfl (no a)
  | error e => exact ⟨e,rfl⟩

theorem escapes_rejected (escapes : Escapes name) : ∃ error, safeOutputPath outputDir name = .error error := by
  refine error_of_not_ok fun path accepted => ?_
  obtain ⟨names,parts,_,_⟩ := safeOutputPath_ok.mp accepted
  rcases escapes with root | up
  · obtain ⟨s,same⟩ := mem_relative (parts ▸ root)
    cases same
  · obtain ⟨s,same⟩ := mem_relative (parts ▸ up)
    cases same

theorem accepted_beneath (nonempty : name ≠ []) (accepted : safeOutputPath outputDir name = .ok path) :
    Beneath outputDir path := by
  obtain ⟨names,parts,_,rfl⟩ := safeOutputPath_ok.mp accepted
  refine ⟨names,?_,accepted_components parts⟩
  rintro rfl
  exact components_ne_nil nonempty parts

/-- The empty name leads to the directory itself. -/
theorem empty_accepted (outputDir : OsStr) : ∃ path, safeOutputPath outputDir [] = .ok path ∧ path.components = outputDir.components := by
  refine ⟨_,safeOutputPath_ok.mpr ⟨[],components_nil,by simp,rfl⟩,?_⟩
  have parts : components ([] : Str) = relative [] := components_nil
  rw [accepted_components parts]
  exact List.append_nil _

end Validation

/-- The output stays strictly beneath the directory, the empty name apart. -/
theorem contained_iff (outputDir : OsStr) (relativePath : Str) :
    Contained outputDir relativePath ↔ relativePath ≠ [] := by
  constructor
  · rintro contained rfl
    obtain ⟨path,accepted,_⟩ := empty_accepted outputDir
    obtain ⟨error,rejected⟩ := contained.rejected (.inr rfl)
    rw [accepted] at rejected
    cases rejected
  · intro nonempty
    refine ⟨fun path => accepted_beneath nonempty,fun out => ?_⟩
    rcases out with escapes | empty
    · exact escapes_rejected escapes
    · exact absurd empty nonempty

/-- Nothing is put below the directory by the empty name. -/
theorem empty_not_contained : ¬Contained (OsStr.ofStr ['/','o','u','t']) [] := by
  intro contained
  obtain ⟨error,rejected⟩ := contained.rejected (.inr rfl)
  cases rejected

section Sinks

variable {outputDir : OsStr} {name value s : Str} {names : List Str}

theorem trim_nil_iff : trim s = [] ↔ ∀ c ∈ s, isWhitespace c = true := ListParts.trimmed_nil

/-- A relative path is blank when it has no name, or one blank name. -/
theorem trim_join : trim (join names) = [] ↔ names = [] ∨ ∃ only, names = [only] ∧ trim only = [] := by
  match names with
  | [] => simp [join,trim]
  | [only] => simp [join]
  | first :: second :: rest =>
    simp only [reduceCtorEq,List.cons.injEq,and_false,false_and,exists_false,or_self,iff_false]
    intro blank
    have slash : '/' ∈ join (first :: second :: rest) := by
      simp [join,List.intercalate,List.intersperse]
    exact absurd (trim_nil_iff.mp blank '/' slash) (by decide)

theorem validated_iff : validatedRelativeString name = .ok value ↔
    ∃ names, components name = relative names ∧ (∀ s ∈ names, Solid s) ∧ trim (join names) ≠ [] ∧
      value = join names := by
  unfold validatedRelativeString
  rw [bind_ok]
  constructor
  · rintro ⟨text,passed,rest⟩
    obtain ⟨names,parts,solid,rfl⟩ := pathToString_ok.mp (mapError_ok.mp passed)
    split at rest
    · cases rest
    · rename_i nonblank
      cases rest
      exact ⟨names,parts,solid,nonblank,rfl⟩
  · rintro ⟨names,parts,solid,nonblank,rfl⟩
    exact ⟨join names,mapError_ok.mpr (pathToString_ok.mpr ⟨names,parts,solid,rfl⟩),if_neg nonblank⟩

theorem blank_iff (parts : components name = relative names) : Blank name ↔ trim (join names) = [] := by
  rw [trim_join]
  unfold Blank
  rw [parts]
  refine or_congr ⟨?_,?_⟩ ?_
  · rintro rfl
    exact relative_injective parts.symm
  · rintro rfl
    by_contra nonempty
    exact components_ne_nil nonempty parts
  · simp only [relative_injective.eq_iff]

theorem blank_accepted (outputDir : OsStr) (blank : Blank name) : ∃ path, safeOutputPath outputDir name = .ok path := by
  rcases blank with rfl | ⟨only,parts,white⟩
  · obtain ⟨path,accepted,_⟩ := empty_accepted outputDir
    exact ⟨path,accepted⟩
  · refine ⟨_,safeOutputPath_ok.mpr ⟨[only],parts,?_,rfl⟩⟩
    intro s member
    rw [List.mem_singleton] at member
    subst member
    have solid := trim_nil_iff.mp white
    exact ⟨fun slash => absurd (solid _ slash) (by decide),fun back => absurd (solid _ back) (by decide)⟩

end Sinks

/-- The export to a directory and the exports to a sink accept the same names and take them
for the same path, blank names apart. -/
theorem exports_agree_iff (outputDir : OsStr) (name : Str) : Agree outputDir name ↔ ¬Blank name := by
  constructor
  · rintro (⟨⟨error,rejected⟩,_⟩ | ⟨path,value,names,_,passed,_,_⟩) blank
    · obtain ⟨path,accepted⟩ := blank_accepted outputDir blank
      rw [accepted] at rejected
      cases rejected
    · obtain ⟨names,parts,_,nonblank,_⟩ := validated_iff.mp passed
      exact nonblank ((blank_iff parts).mp blank)
  · intro nonblank
    by_cases accepted : ∃ path, safeOutputPath outputDir name = .ok path
    · obtain ⟨path,accepted⟩ := accepted
      obtain ⟨names,parts,solid,same⟩ := safeOutputPath_ok.mp accepted
      have passed : validatedRelativeString name = .ok (join names) :=
        validated_iff.mpr ⟨names,parts,solid,fun blank => nonblank ((blank_iff parts).mpr blank),rfl⟩
      refine .inr ⟨path,join names,names,accepted,passed,?_,components_join (components_proper parts)⟩
      rw [same,accepted_components parts]
    · refine .inl ⟨error_of_not_ok fun path ok => accepted ⟨path,ok⟩,error_of_not_ok fun value passed => ?_⟩
      obtain ⟨names,parts,solid,_,_⟩ := validated_iff.mp passed
      exact accepted ⟨_,safeOutputPath_ok.mpr ⟨names,parts,solid,rfl⟩⟩

/-- A name of one blank is a file for the directory and an error for a sink. -/
theorem blank_disagrees : ¬Agree (OsStr.ofStr ['/','o','u','t']) [' '] := by
  rintro (⟨⟨error,rejected⟩,_⟩ | ⟨path,value,names,_,passed,_⟩)
  · cases rejected
  · cases passed

end Vnidrop.OutputPaths
