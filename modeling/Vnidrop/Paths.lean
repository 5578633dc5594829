import Mathlib.Data.List.Basic

/-! Unix paths as their components, and relative paths as strings. A string is the list of
its characters. Nothing here refers to a particular program. -/
namespace Vnidrop.Paths

abbrev Str := List Char

/-- The name of a directory entry: text, or bytes that are no UTF-8. -/
inductive OsName where
  | text (s : Str)
  | bytes (b : List UInt8)
  deriving DecidableEq

inductive Component where
  | rootDir
  | curDir
  | parentDir
  | normal (name : OsName)
  deriving DecidableEq

abbrev Path := List Component

/-- A name that a file can have on Unix, as far as paths are concerned. -/
def Proper (s : Str) : Prop := s ≠ [] ∧ '/' ∉ s ∧ s ≠ ['.'] ∧ s ≠ ['.','.']

instance (s : Str) : Decidable (Proper s) := inferInstanceAs (Decidable (_ ∧ _ ∧ _ ∧ _))

def segment : Str → Option Component
  | [] | ['.'] => none
  | ['.','.'] => some .parentDir
  | s => some (.normal (.text s))

/-- `Path::components`: repeated separators and inner dots are left out, a leading dot is not. -/
def components (s : Str) : Path :=
  let segments := s.splitOn '/'
  (if s.head? = some '/' then [.rootDir]
    else if segments.head? = some ['.'] then [.curDir] else []) ++ segments.filterMap segment

/-- `slice::join("/")`. -/
def join (names : List Str) : Str := ['/'].intercalate names

/-- The names as the components of a relative path. -/
def relative (names : List Str) : Path := names.map fun s => .normal (.text s)

/-- `Path::file_name`. -/
def fileName (p : Path) : Option OsName :=
  match p.getLast? with
  | some (.normal name) => some name
  | _ => none

def OsName.toStr : OsName → Option Str
  | .text s => some s
  | .bytes _ => none

/-- One is the other, or an ancestor of it. -/
abbrev Meets (p q : List Str) : Prop := p <+: q ∨ q <+: p

section Lemmas

variable {s : Str} {names names' : List Str}

theorem segment_proper (proper : Proper s) : segment s = some (.normal (.text s)) := by
  unfold segment
  split
  · exact absurd rfl proper.1
  · exact absurd rfl proper.2.2.1
  · exact absurd rfl proper.2.2.2
  · rfl

theorem segment_normal {name : OsName} (h : segment s = some (.normal name)) (solid : '/' ∉ s) :
    name = .text s ∧ Proper s := by
  unfold segment at h
  split at h
  · cases h
  · cases h
  · cases h
  · rename_i nonempty dot dots
    cases h
    exact ⟨rfl,nonempty,solid,dot,dots⟩

theorem mem_splitOn {a : Char} {l : Str} (h : l ∈ s.splitOn a) : a ∉ l := by
  induction s generalizing l with
  | nil =>
    simp only [List.splitOn_nil,List.mem_singleton] at h
    simp [h]
  | cons c s ih =>
    rw [List.splitOn_cons_eq_if_modifyHead] at h
    split at h
    · rcases List.mem_cons.mp h with rfl | old
      · simp
      · exact ih old
    · rename_i other
      cases pieces : s.splitOn a with
      | nil => exact absurd pieces (List.splitOn_ne_nil a s)
      | cons first rest =>
        rw [pieces,List.modifyHead_cons] at h
        rcases List.mem_cons.mp h with rfl | old
        · have tail := ih (l := first) (by rw [pieces]; exact List.mem_cons_self)
          simp only [List.mem_cons,not_or]
          exact ⟨fun same => other (by simp [same]),tail⟩
        · exact ih (by rw [pieces]; exact List.mem_cons_of_mem _ old)

theorem filterMap_segment (proper : ∀ s ∈ names, Proper s) : names.filterMap segment = relative names := by
  induction names with
  | nil => rfl
  | cons s names ih =>
    rw [List.filterMap_cons_some (segment_proper (proper s List.mem_cons_self)),
      ih fun s there => proper s (List.mem_cons_of_mem _ there)]
    rfl

/-- A joined path has the names it is joined from as its components. -/
theorem components_join (proper : ∀ s ∈ names, Proper s) : components (join names) = relative names := by
  cases names with
  | nil => rfl
  | cons first rest =>
    have split : (join (first :: rest)).splitOn '/' = first :: rest :=
      List.splitOn_intercalate '/' (fun s there => (proper s there).2.1) (by simp)
    have start := proper first List.mem_cons_self
    have head : (join (first :: rest)).head? ≠ some '/' := by
      intro slash
      obtain ⟨c,tail,rfl⟩ := List.exists_cons_of_ne_nil start.1
      have same : c = '/' := by
        cases rest <;> simpa [join,List.intercalate,List.intersperse] using slash
      exact start.2.1 (by simp [same])
    unfold components
    rw [split]
    simp only [head,List.head?_cons,Option.some.injEq,start.2.2.1,if_false,List.nil_append]
    exact filterMap_segment proper

theorem join_injective (proper : ∀ s ∈ names, Proper s) (proper' : ∀ s ∈ names', Proper s)
    (same : join names = join names') : names = names' := by
  have equal := congrArg components same
  rw [components_join proper,components_join proper'] at equal
  exact List.map_injective_iff.mpr (fun s t h => by simpa using h) equal

theorem normal_proper {name : OsName} (there : .normal name ∈ components s) :
    ∃ t, name = .text t ∧ Proper t := by
  rcases List.mem_append.mp there with start | inner
  · repeat' split at start
    all_goals simp at start
  · obtain ⟨piece,split,same⟩ := List.mem_filterMap.mp inner
    exact ⟨piece,segment_normal same (mem_splitOn split)⟩

/-- The names in a path that has nothing else. -/
theorem components_proper (h : components s = relative names) : ∀ s ∈ names, Proper s := by
  intro name member
  have there : Component.normal (.text name) ∈ components s := by
    rw [h]
    exact List.mem_map.mpr ⟨name,member,rfl⟩
  obtain ⟨t,text,proper⟩ := normal_proper there
  cases text
  exact proper

theorem components_ne_nil (nonempty : s ≠ []) : components s ≠ [] := by
  obtain ⟨c,rest,rfl⟩ := List.exists_cons_of_ne_nil nonempty
  intro empty
  obtain ⟨start,inner⟩ := List.append_eq_nil_iff.mp empty
  by_cases slash : c = '/'
  · simp [slash] at start
  · obtain ⟨first,pieces,split⟩ := List.exists_cons_of_ne_nil (List.splitOn_ne_nil '/' rest)
    have whole : (c :: rest).splitOn '/' = (c :: first) :: pieces := by
      rw [List.splitOn_cons_eq_if_modifyHead,split]
      simp [slash]
    rw [whole] at start inner
    have dot : c :: first ≠ ['.'] := by
      intro same
      simp [same,slash] at start
    have dots : segment (c :: first) ≠ none := by
      unfold segment
      split
      · rename_i same
        cases same
      · rename_i same
        exact absurd same dot
      · simp
      · simp
    obtain ⟨found,is⟩ := Option.ne_none_iff_exists'.mp dots
    rw [List.filterMap_cons_some is] at inner
    cases inner

end Lemmas

end Vnidrop.Paths
