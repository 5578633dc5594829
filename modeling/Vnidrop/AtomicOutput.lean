import Vnidrop.FileSystems
import Vnidrop.OutputPaths
import Vnidrop.Runs

/-! `AtomicOutputFile`: the output is written under a temporary name beside the target, which it
takes only when it is complete. One operation of a life of the file may fail. -/
namespace Vnidrop.AtomicOutput

open Paths OutputPaths FileSystems Runs
open Imports (PathError)

inductive ErrorKind where
  | alreadyExists
  | permissionDenied
  | unsupported
  | other
  deriving DecidableEq, Repr

/-- `std::io::Error`: a code of the system, or a kind alone. -/
inductive IoError where
  | os (code : Errno)
  | kind (kind : ErrorKind)
  deriving DecidableEq, Repr

inductive CreateError where
  | path (e : PathError)
  | noParent
  | io (e : IoError)
  | escapes
  | notUtf8
  | changed
  deriving DecidableEq

/-- `linux` is Android as well. -/
inductive Platform where
  | linux
  | macos
  | other
  deriving DecidableEq, Repr

/-- The operations of one life; those of a loop are numbered. -/
inductive Site where
  | createDir (k : Nat)
  | canonicalRoot
  | canonicalParent
  | readDir
  | entry (k : Nat)
  | metadata (k : Nat)
  | removeStale (k : Nat)
  | checkTarget
  | openTemporary
  | recheckParent
  | removeSwapped
  | write (k : Nat)
  | hardLink
  | removeLinked
  | renameExclusive
  | checkAgain
  | rename
  | removeDropped
  deriving DecidableEq, Repr

/-- Whether the operation removes a file. -/
def Site.removes : Site → Bool
  | .removeStale _ | .removeSwapped | .removeLinked | .removeDropped => true
  | _ => false

/-- The volume and the platform, and the operation that fails. `hardLinks` and `exclusive` are
what the volume answers where it has no hard links or no exclusive rename. -/
structure Host extends View where
  now : Nat
  platform : Platform
  hardLinks : Option Errno
  exclusive : Option Errno
  fault : Option (Site × IoError)

abbrev Io := EStateM IoError Fs

abbrev Creating := EStateM CreateError Fs

instance : MonadLift Io Creating := ⟨EStateM.adaptExcept .io⟩

/-- In nanoseconds. -/
def stalePartAge : Nat := 24 * 60 * 60 * 10 ^ 9

section Operations

variable {α : Type} (h : Host)

namespace Host

def fails (site : Site) : Option IoError := (h.fault.filter (·.1 = site)).map (·.2)

def resolve (s : Fs) (p : Path) : Option Place := s.walk h.steps h.cwd p

/-- The entry that a path names. -/
def locate (s : Fs) (p : Path) : Option (Place × OsName) := do
  let name ← fileName p
  let place ← h.resolve s p.dropLast
  return (place,name)

end Host

def perform (site : Site) (act : Fs → Except Errno (α × Fs)) : Io α := fun s =>
  match h.fails site with
  | some e => .error e s
  | none =>
    match act s with
    | .ok (a,t) => .ok a t
    | .error e => .error (.os e) s

def existing {β : Type} : Option β → Except Errno β
  | some b => .ok b
  | none => .error .ENOENT

/-- `create_dir_all`, from the first component on. -/
def createDirAll (done : Path) : Path → Io Unit
  | [] => return ()
  | c :: rest => do
    perform h (.createDir done.length) fun s =>
      match h.resolve s (done ++ [c]) with
      | some _ => .ok ((),s)
      | none =>
        match c,h.resolve s done with
        | .normal n,some d => do
          let t ← s.mkdir d n
          return ((),t)
        | _,_ => .error .ENOENT
    createDirAll (done ++ [c]) rest

/-- `canonicalize`, of a directory. -/
def canonicalize (site : Site) (p : Path) : Io Place :=
  perform h site fun s => do
    let place ← existing (if p = [] then none else h.resolve s p)
    return (place,s)

def removeFile (site : Site) (p : Path) : Io Unit :=
  perform h site fun s => do
    let (d,n) ← existing (h.locate s p)
    let t ← s.unlink d n
    return ((),t)

def symlinkMetadata (site : Site) (p : Path) : Io Node :=
  perform h site fun s => do
    let (d,n) ← existing (h.locate s p)
    let node ← existing (s.node d n)
    return (node,s)

/-- The name as bytes. The bytes of an ASCII pattern are never part of a replaced sequence, so
the name matches a pattern when its lossy text does. -/
def nameBytes : OsName → Bytes
  | .text s => s.flatMap String.utf8EncodeChar
  | .bytes b => b

def ascii (s : String) : Bytes := s.toList.flatMap String.utf8EncodeChar

/-- `.*.vnidrop-*.part`. -/
def isPartName (n : OsName) : Bool :=
  (ascii ".").isPrefixOf (nameBytes n) && decide (ascii ".vnidrop-" <:+: nameBytes n) &&
    (ascii ".part").isSuffixOf (nameBytes n)

/-- The age of a file, nothing where its time is missing or to come. -/
def age (modified : Option Nat) : Nat :=
  (modified.bind fun modified => if modified ≤ h.now then some (h.now - modified) else none).getD 0

def cleanupEntries (directory : Path) (minimumAge : Nat) : Nat → List OsName → Nat → Io Nat
  | _, [], removed => return removed
  | k, n :: rest, removed => do
    perform h (.entry k) fun s => .ok ((),s)
    if !isPartName n then cleanupEntries directory minimumAge (k + 1) rest removed
    else do
      let path := directory ++ [.normal n]
      let (node,modified) ← perform h (.metadata k) fun s => do
        let (d,n) ← existing (h.locate s path)
        let node ← existing (s.node d n)
        return ((node,match node with
          | .file i => (s.inodes i).modified
          | .directory | .symlink _ => none),s)
      if minimumAge ≤ age h modified && node.isFile then do
        removeFile h (.removeStale k) path
        cleanupEntries directory minimumAge (k + 1) rest (removed + 1)
      else cleanupEntries directory minimumAge (k + 1) rest removed

def cleanupStaleTemporaryFiles (directory : Path) (minimumAge : Nat) : Io Nat := do
  let names ← perform h .readDir fun s => do
    let d ← existing (h.resolve s directory)
    return (s.list d,s)
  cleanupEntries h directory minimumAge 0 names 0

def openNew (site : Site) (p : Path) : Io Nat :=
  perform h site fun s => do
    let (d,n) ← existing (h.locate s p)
    s.openNew d n h.now

structure AtomicOutputFile where
  target : Path
  temporary : Path
  committed : Bool
  deriving DecidableEq

/-- `Path::parent`. -/
def parent? (p : Path) : Option Path :=
  match p.getLast? with
  | none | some .rootDir => none
  | some _ => some p.dropLast

def partName (finalName uuid : Str) : Str :=
  '.' :: finalName ++ ".vnidrop-".toList ++ uuid ++ ".part".toList

def accept {β : Type} : Except CreateError β → Creating β
  | .ok b => return b
  | .error e => throw e

def context {β : Type} (e : CreateError) : Option β → Creating β
  | some b => return b
  | none => throw e

def ensure (holds : Bool) (e : CreateError) : Creating Unit := if holds then return () else throw e

/-- `AtomicOutputFile::create` up to the opening of the temporary file, whose inode comes last. -/
def openTemporary (outputDir : OsStr) (relativePath uuid : Str) :
    Creating (AtomicOutputFile × Path × Place × Nat) := do
  let path ← accept ((safeOutputPath outputDir relativePath).mapError .path)
  let target := path.components
  let parent ← context .noParent (parent? target)
  createDirAll h [] parent
  let canonicalRoot ← canonicalize h .canonicalRoot outputDir.components
  let canonicalParent ← canonicalize h .canonicalParent parent
  ensure (canonicalRoot.isPrefixOf canonicalParent) .escapes
  let _ ← cleanupStaleTemporaryFiles h parent stalePartAge
  let metadata ← observe (symlinkMetadata h .checkTarget target)
  ensure (!metadata.isOk) (.io (.kind .alreadyExists))
  let finalName ← context .notUtf8 ((fileName target).bind OsName.toStr)
  let temporary := parent ++ [.normal (.text (partName finalName uuid))]
  let file ← openNew h .openTemporary temporary
  return (⟨target,temporary,false⟩,parent,canonicalParent,file)

/-- `AtomicOutputFile::create`. -/
def create (outputDir : OsStr) (relativePath uuid : Str) : Creating (AtomicOutputFile × Nat) := do
  let (out,parent,canonicalParent,file) ← openTemporary h outputDir relativePath uuid
  let canonicalParentAfterOpen ← canonicalize h .recheckParent parent
  if canonicalParentAfterOpen ≠ canonicalParent then do
    let _ ← observe (removeFile h .removeSwapped out.temporary)
    throw .changed
  else return (out,file)

def hardLink (src dst : Path) : Io Unit :=
  perform h .hardLink fun s =>
    match h.hardLinks with
    | some e => .error e
    | none => do
      let (d,n) ← existing (h.locate s src)
      let (d',n') ← existing (h.locate s dst)
      let t ← s.link d n d' n'
      return ((),t)

def kindOf : Errno → ErrorKind
  | .EPERM | .EACCES => .permissionDenied
  | .ENOSYS | .EOPNOTSUPP => .unsupported
  | .EEXIST => .alreadyExists
  | _ => .other

def isHardLinkUnsupported : IoError → Bool
  | .os code => code ∈ [.EPERM,.EACCES,.EOPNOTSUPP,.ENOTSUP,.EXDEV,.EINVAL,.ENOSYS] ||
      kindOf code ∈ [.unsupported,.permissionDenied]
  | .kind kind => kind ∈ [.unsupported,.permissionDenied]

/-- `renameat2` with `RENAME_NOREPLACE`, and `renamex_np` with `RENAME_EXCL`. -/
def renameExclusive (src dst : Path) : Io Unit :=
  perform h .renameExclusive fun s =>
    match h.exclusive with
    | some e => .error e
    | none => do
      let (d,n) ← existing (h.locate s src)
      let (d',n') ← existing (h.locate s dst)
      if (s.node d' n').isSome then .error .EEXIST
      else do
        let t ← s.rename d n d' n'
        return ((),t)

def renameUnlessThere (src dst : Path) : Io Unit := do
  match ← observe (symlinkMetadata h .checkAgain dst) with
  | .ok _ => throw (.kind .alreadyExists)
  | .error _ =>
    perform h .rename fun s => do
      let (d,n) ← existing (h.locate s src)
      let (d',n') ← existing (h.locate s dst)
      let t ← s.rename d n d' n'
      return ((),t)

/-- The codes with which the platform says that it has no exclusive rename. -/
def withoutExclusive : Platform → List Errno
  | .linux => [.ENOSYS,.EINVAL]
  | .macos => [.ENOTSUP]
  | .other => []

def renameNoReplace (src dst : Path) : Io Unit :=
  if h.platform = .other then renameUnlessThere h src dst
  else do
    match ← observe (renameExclusive h src dst) with
    | .ok () => return ()
    | .error (.os e) =>
      if e ∈ withoutExclusive h.platform then renameUnlessThere h src dst else throw (.os e)
    | .error e => throw e

def publishTempAsFinal (temporary target : Path) : Io Unit := do
  match ← observe (hardLink h temporary target) with
  | .ok () => do
    let _ ← observe (removeFile h .removeLinked temporary)
    return ()
  | .error e => if isHardLinkUnsupported e then renameNoReplace h temporary target else throw e

/-- `Drop::drop`. -/
def drop (out : AtomicOutputFile) : Io Unit :=
  if !out.committed then do
    let _ ← observe (removeFile h .removeDropped out.temporary)
    return ()
  else return ()

/-- `AtomicOutputFile::commit`, which drops the file in either case. -/
def commit (out : AtomicOutputFile) : Io Unit := do
  match ← observe (publishTempAsFinal h out.temporary out.target) with
  | .ok () => drop h { out with committed := true }
  | .error e => do
    drop h out
    throw e

/-- A `write` of the opened file, which is at its end. -/
def write (k file : Nat) (bytes : Bytes) : Io Unit :=
  perform h (.write k) fun s => .ok ((),s.append file bytes h.now)

end Operations

inductive Stage where
  | fresh
  | failed
  | writing (out : AtomicOutputFile) (file : Nat)
  | committed (out : AtomicOutputFile) (file : Nat)
  | dropped (out : AtomicOutputFile) (file : Nat)

/-- `written` is what the writes have taken. -/
structure Life where
  fs : Fs
  stage : Stage
  written : Bytes
  writes : Nat

/-- `accepted` is how many of the bytes a write takes. -/
inductive Label where
  | create
  | write (buf : Bytes) (accepted : Nat)
  | commit
  | drop
  deriving DecidableEq

namespace Stage

/-- The opened file, which the caller may keep. -/
def file : Stage → Option Nat
  | .fresh | .failed => none
  | .writing _ file | .committed _ file | .dropped _ file => some file

def output : Stage → Option AtomicOutputFile
  | .fresh | .failed => none
  | .writing out _ | .committed out _ | .dropped out _ => some out

def isCommitted : Stage → Bool
  | .committed .. => true
  | _ => false

/-- `create` has failed, or the file has been dropped without a successful commit. -/
def abandoned : Stage → Bool
  | .failed | .dropped .. => true
  | _ => false

end Stage

def Life.next (h : Host) (outputDir : OsStr) (relativePath uuid : Str) (s : Life) : Label → Option Life
  | .create =>
    match s.stage with
    | .fresh =>
      match create h outputDir relativePath uuid s.fs with
      | .ok (out,file) fs => some { s with fs, stage := .writing out file }
      | .error _ fs => some { s with fs, stage := .failed }
    | _ => none
  | .write buf accepted =>
    match s.stage.file with
    | none => none
    | some file =>
      match write h s.writes file (buf.take accepted) s.fs with
      | .ok _ fs => some { s with fs, written := s.written ++ buf.take accepted, writes := s.writes + 1 }
      | .error _ fs => some { s with fs, writes := s.writes + 1 }
  | .commit =>
    match s.stage with
    | .writing out file =>
      match commit h out s.fs with
      | .ok _ fs => some { s with fs, stage := .committed out file }
      | .error _ fs => some { s with fs, stage := .dropped out file }
    | _ => none
  | .drop =>
    match s.stage with
    | .writing out file => some { s with fs := final (drop h out s.fs), stage := .dropped out file }
    | _ => none

/-- The life of one output file on the file system `before`. -/
def life (h : Host) (before : Fs) (outputDir : OsStr) (relativePath uuid : Str) : System Life Label where
  init s := s = ⟨before,.fresh,[],0⟩
  step := Life.next h outputDir relativePath uuid

/-- A part file of a day ago or more. -/
def StalePart (h : Host) (n : OsName) (inode : Inode) : Prop :=
  isPartName n = true ∧ stalePartAge ≤ age h inode.modified

/-- What a life leaves behind, in any of its states. -/
structure Clean (h : Host) (before : Fs) (outputDir : OsStr) (relativePath : Str) (s : Life) : Prop where
  named : ∀ out, s.stage.output = some out →
    ∃ path, safeOutputPath outputDir relativePath = .ok path ∧ out.target = path.components
  /-- No entry and no inode is lost or changed, but the entries of stale part files. -/
  kept : Preserves (StalePart h) before s.fs
  /-- The only new files are the temporary one and, once it is published, the target. -/
  made : ∀ d n, Made before s.fs d n → ∃ out, s.stage.output = some out ∧
    (h.locate s.fs out.temporary = some (d,n) ∧ h.locate s.fs out.target ≠ some (d,n) ∨
      h.locate s.fs out.target = some (d,n) ∧ s.stage.isCommitted = true)
  complete : ∀ out file, s.stage = .committed out file → ∃ d n i, h.locate s.fs out.target = some (d,n) ∧
    Made before s.fs d n ∧ s.fs.node d n = some (.file i) ∧ (s.fs.inodes i).bytes = s.written
  /-- Where no removal fails, nothing new is left of a file that has been given up. -/
  residue : (∀ site e, h.fault = some (site,e) → site.removes = false) → s.stage.abandoned = true →
    ∀ d n, ¬Made before s.fs d n

/-- The re-canonicalisation of the parent is reached, and fails. -/
def RecheckFails (h : Host) (before : Fs) (outputDir : OsStr) (relativePath uuid : Str) : Prop :=
  (∃ e, h.fault = some (.recheckParent,e)) ∧
    ∃ opened fs, openTemporary h outputDir relativePath uuid before = .ok opened fs

namespace Sample

def host : Host where
  cwd := []
  steps := 40
  now := 0
  platform := .linux
  hardLinks := none
  exclusive := none
  fault := some (.recheckParent,.os (.other 5))

def empty : Fs where
  entries := .empty
  inodes _ := ⟨[],none⟩
  next := 0
  used _ _ _ found := by cases found

def abandoned : Life := ((life host empty (.ofStr ['d']) ['f'] ['u']).run ⟨empty,.fresh,[],0⟩ [.create]).getD
  ⟨empty,.fresh,[],0⟩

end Sample

open Sample in
/-- `create` fails and leaves its temporary file. -/
theorem part_left : ∃ s, Reach (life host empty (.ofStr ['d']) ['f'] ['u']) Always s ∧
    ¬Clean host empty (.ofStr ['d']) ['f'] s ∧ s.stage = .failed ∧
    s.fs.list [.text ['d']] = [.text (partName ['f'] ['u'])] := by
  have ran : (life host empty (.ofStr ['d']) ['f'] ['u']).run ⟨empty,.fresh,[],0⟩ [.create] = some abandoned := rfl
  have made : Made empty abandoned.fs [.text ['d']] (.text (partName ['f'] ['u'])) := ⟨0,rfl,by decide⟩
  refine ⟨abandoned,.of_run rfl ran,fun clean => ?_,rfl,rfl⟩
  exact clean.residue (fun site e same => by cases same; rfl) rfl _ _ made

end Vnidrop.AtomicOutput
