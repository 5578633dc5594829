import Vnidrop.Paths
import Mathlib

/-! What `import_sources` makes of the sources of a share, and what a receiver does with the
collection. -/
namespace Vnidrop.Imports

open Paths

/-- Limits that have passed `CoreLimits::validate`. -/
structure CoreLimits where
  maxSources : Nat
  maxCollectionFiles : Nat
  maxTotalBytes : Nat
  maxPathBytes : Nat
  maxMetadataBytes : Nat
  maxPendingOffers : Nat
  identityCooldownMs : Nat
  malformedStrikeLimit : Nat
  total_fits : maxTotalBytes ≤ 9223372036854775807
  offers_positive : 0 < maxPendingOffers

/-- `str::len`. -/
def utf8Len (s : Str) : Nat := (s.map fun c => c.utf8Size).sum

/-- `char::is_whitespace`. -/
def isWhitespace (c : Char) : Bool :=
  (9 ≤ c.toNat && c.toNat ≤ 13) || (8192 ≤ c.toNat && c.toNat ≤ 8202) ||
    [32,133,160,5760,8232,8233,8239,8287,12288].contains c.toNat

def trim (s : Str) : Str := ((s.dropWhile isWhitespace).reverse.dropWhile isWhitespace).reverse

def nonEmpty (value : Str) : Option Str :=
  if trim value = [] then none else some (trim value)

/-! Paths of sources and of collection entries. -/

inductive PathError where
  | invalidCharacter
  | invalidComponent (component : Str)
  | invalidRoot
  | otherComponent (component : Component)
  deriving DecidableEq

inductive ImportError where
  | tooManySources (count limit : Nat)
  | emptyPath
  | percentEscape
  | notUtf8
  | path (error : PathError)
  | emptyRelativePath
  | descriptorDirectory
  | descriptor
  | contentUri
  | io
  | noFiles
  | tooManyFiles (count limit : Nat)
  | pathTooLong (limit : Nat) (name : Str)
  | sizeOverflow
  | tooLarge (total limit : Nat)
  deriving DecidableEq

/-- One component of `path_to_string`; the root adds no part. -/
def part (mustBeRelative : Bool) : Component → Except PathError (Option Str)
  | .normal (.text s) =>
    if '/' ∉ s ∧ '\\' ∉ s then .ok (some s) else .error (.invalidComponent s)
  | .normal (.bytes _) => .error .invalidCharacter
  | .rootDir => if mustBeRelative then .error .invalidRoot else .ok none
  | other => .error (.otherComponent other)

def pathToString (path : Path) (mustBeRelative : Bool) : Except PathError Str := do
  let parts ← path.mapM (part mustBeRelative)
  return (if .rootDir ∈ path then ['/'] else []) ++ join (parts.filterMap id)

def validatedRelativeString (name : Str) : Except ImportError Str := do
  let value ← (pathToString (components name) true).mapError .path
  if trim value = [] then .error .emptyRelativePath else .ok value

def hexDigit (b : UInt8) : Option Nat :=
  if 48 ≤ b ∧ b ≤ 57 then some (b.toNat - 48)
  else if 65 ≤ b ∧ b ≤ 70 then some (b.toNat - 55)
  else if 97 ≤ b ∧ b ≤ 102 then some (b.toNat - 87)
  else none

/-- `u8::from_str_radix(_, 16)` of two bytes, the first of which may be a plus sign. -/
def hexByte (high low : UInt8) : Option UInt8 := do
  let l ← hexDigit low
  if high = 43 then return UInt8.ofNat l
  else
    let h ← hexDigit high
    return UInt8.ofNat (16 * h + l)

def percentDecodeBytes : List UInt8 → Option (List UInt8)
  | 37 :: high :: low :: rest => do
    let b ← hexByte high low
    let rest ← percentDecodeBytes rest
    return b :: rest
  | b :: rest => if b = 37 then none else do
    let rest ← percentDecodeBytes rest
    return b :: rest
  | [] => some []

def percentDecodeFileUrlPath (value : Str) : Except ImportError Str :=
  match percentDecodeBytes (String.ofList value).toUTF8.toList with
  | none => .error .percentEscape
  | some bytes =>
    match String.fromUTF8? ⟨bytes.toArray⟩ with
    | none => .error .notUtf8
    | some s => .ok s.toList

/-- "file://" -/
def fileScheme : Str := ['f','i','l','e',':','/','/']

def platformPath (value : Str) : Except ImportError Str :=
  if trim value = [] then .error .emptyPath
  else
    match fileScheme.isPrefixOf? value with
    | some withoutScheme => percentDecodeFileUrlPath withoutScheme
    | none => .ok value

/-! The file system. -/

mutual

/-- What a path leads to. In a directory, a link is something special. -/
inductive Node where
  | file (size : Nat)
  | special (bytes : Nat)
  | dir (entries : Entries)

inductive Entries where
  | nil
  | cons (name : OsName) (node : Node) (rest : Entries)

end

def Entries.names : Entries → List OsName
  | .nil => []
  | .cons name _ rest => name :: rest.names

def named : OsName → Prop
  | .text s => Proper s
  | .bytes _ => True

mutual

/-- The entries of a directory have names, and different ones. -/
def Node.WellFormed : Node → Prop
  | .file _ | .special _ => True
  | .dir entries => entries.WellFormed

def Entries.WellFormed : Entries → Prop
  | .nil => True
  | .cons name node rest => named name ∧ name ∉ rest.names ∧ node.WellFormed ∧ rest.WellFormed

end

mutual

/-- The regular files that `WalkDir` yields, by their path below the root. -/
def Node.walk : Node → List (List OsName × Nat)
  | .file size => [([],size)]
  | .special _ => []
  | .dir entries => entries.walk

def Entries.walk : Entries → List (List OsName × Nat)
  | .nil => []
  | .cons name node rest => (node.walk.map fun f => (name :: f.1,f.2)) ++ rest.walk

end

def Node.isDir : Node → Bool
  | .dir _ => true
  | _ => false

/-- `Metadata::len`. -/
def Node.len : Node → Nat
  | .file size => size
  | _ => 0

/-- How many bytes are there to be read. -/
def Node.contents : Node → Option Nat
  | .file size => some size
  | .special bytes => some bytes
  | .dir _ => none

/-- What is at a path, and the size of the regular file behind the number of a descriptor. -/
structure Filesystem where
  node : Str → Option Node
  descriptor : Str → Option Nat
  wellFormed : ∀ path n, node path = some n → n.WellFormed

/-! `collect_import_files_with_limits`. -/

inductive SourceKind where
  | path
  | iosSecurityScopedUrl
  | fileDescriptor
  | androidContentUri
  deriving DecidableEq

structure ShareSource where
  kind : SourceKind
  value : Str
  displayName : Option Str
  isDirectory : Bool
  deriving DecidableEq

inductive ImportSource where
  | path (node : Option Node)
  | fileDescriptor (size : Nat)

structure ImportSourceFile where
  source : ImportSource
  collectionName : Str

/-- "transfer" -/
def transferName : Str := ['t','r','a','n','s','f','e','r']

def pathDisplayName (source : ShareSource) (path : Str) : Str :=
  ((source.displayName.bind nonEmpty).or ((fileName (components path)).bind OsName.toStr)).getD transferName

def descriptorDisplayName (source : ShareSource) : Str :=
  (source.displayName.bind nonEmpty).getD transferName

def collectDirFiles (root : Option Node) (displayName : Str) : Except ImportError (List ImportSourceFile) :=
  match root with
  | none => .error .io
  | some node => node.walk.mapM fun f => do
    let collectionName ← (pathToString (components displayName ++ f.1.map .normal) true).mapError .path
    return ⟨.path (some (.file f.2)),collectionName⟩

def collectPath (fs : Filesystem) (source : ShareSource) : Except ImportError (List ImportSourceFile) := do
  let path ← platformPath source.value
  let displayName := pathDisplayName source path
  if source.isDirectory || (fs.node path).any Node.isDir then collectDirFiles (fs.node path) displayName
  else
    let collectionName ← validatedRelativeString displayName
    return [⟨.path (fs.node path),collectionName⟩]

def collectDescriptor (fs : Filesystem) (source : ShareSource) : Except ImportError (List ImportSourceFile) :=
  if source.isDirectory then .error .descriptorDirectory
  else
    match fs.descriptor source.value with
    | none => .error .descriptor
    | some size => do
      let collectionName ← validatedRelativeString (descriptorDisplayName source)
      return [⟨.fileDescriptor size,collectionName⟩]

def collectSource (fs : Filesystem) (source : ShareSource) : Except ImportError (List ImportSourceFile) :=
  match source.kind with
  | .path | .iosSecurityScopedUrl => collectPath fs source
  | .fileDescriptor => collectDescriptor fs source
  | .androidContentUri => .error .contentUri

/-- `u64::checked_add`. -/
def checkedAdd (a b : Nat) : Option Nat :=
  if a + b < 18446744073709551616 then some (a + b) else none

/-- The loop over the files: their names, and the sizes known before they are read. -/
def knownTotal (limits : CoreLimits) (total : Nat) (file : ImportSourceFile) : Except ImportError Nat :=
  if limits.maxPathBytes < utf8Len file.collectionName then
    .error (.pathTooLong limits.maxPathBytes file.collectionName)
  else
    match file.source with
    | .fileDescriptor _ => .ok total
    | .path none => .error .io
    | .path (some node) =>
      match checkedAdd total node.len with
      | none => .error .sizeOverflow
      | some total =>
        if limits.maxTotalBytes < total then .error (.tooLarge total limits.maxTotalBytes) else .ok total

def collectImportFilesWithLimits (fs : Filesystem) (limits : CoreLimits) (sources : List ShareSource) :
    Except ImportError (List ImportSourceFile) :=
  if limits.maxSources < sources.length then .error (.tooManySources sources.length limits.maxSources)
  else do
    let collected ← sources.mapM (collectSource fs)
    let files := collected.flatten
    if files.isEmpty then .error .noFiles
    else if limits.maxCollectionFiles < files.length then
      .error (.tooManyFiles files.length limits.maxCollectionFiles)
    else
      let _ ← files.foldlM (knownTotal limits) 0
      return files

def defaultCollectionName (files : List ImportSourceFile) : Str :=
  (((files.head?.bind fun file => (file.collectionName.splitOn '/').head?).filter (· ≠ [])).getD transferName)

/-! `import_sources`. -/

structure TransferImport where
  /-- The collection: names and sizes. -/
  entries : List (Str × Nat)
  totalSize : Nat
  fileCount : Nat
  defaultName : Str
  deriving DecidableEq

def ImportSource.read : ImportSource → Option Nat
  | .path node => node.bind Node.contents
  | .fileDescriptor size => some size

def addStream (limits : CoreLimits) (file : ImportSourceFile) : Except ImportError (Str × Nat) :=
  match file.source.read with
  | none => .error .io
  | some size =>
    if limits.maxTotalBytes < size then .error (.tooLarge size limits.maxTotalBytes)
    else .ok (file.collectionName,size)

def checkedSum (sizes : List Nat) : Option Nat := sizes.foldlM checkedAdd 0

/-- `finished` has the files in the order in which they have been read. -/
def importSources (limits : CoreLimits) (files finished : List ImportSourceFile) :
    Except ImportError TransferImport := do
  let imported ← finished.mapM (addStream limits)
  let entries := imported.mergeSort fun a b => decide (a.1 ≤ b.1)
  match checkedSum (entries.map (·.2)) with
  | none => .error .sizeOverflow
  | some totalSize =>
    if limits.maxTotalBytes < totalSize then .error (.tooLarge totalSize limits.maxTotalBytes)
    else return ⟨entries,totalSize,entries.length,defaultCollectionName files⟩

/-- The import of the sources, in some order of reading, makes this collection. -/
def Imported (fs : Filesystem) (limits : CoreLimits) (sources : List ShareSource) (c : TransferImport) : Prop :=
  ∃ files finished, collectImportFilesWithLimits fs limits sources = .ok files ∧
    finished.Perm files ∧ importSources limits files finished = .ok c

/-! The receiver. -/

inductive ReceiveError where
  | sizeOverflow
  | tooManyFiles (count limit : Nat)
  | tooLarge (total limit : Nat)
  | pathTooLong (limit : Nat) (name : Str)
  | path (error : PathError)
  | notADirectory
  | escapes
  | alreadyExists
  deriving DecidableEq

/-- The checks of `receive_inner` on the sizes that the sender reports. -/
def foundCollection (limits : CoreLimits) (sizes : List Nat) : Except ReceiveError (Nat × Nat) :=
  match checkedSum sizes with
  | none => .error .sizeOverflow
  | some totalSize =>
    let totalFiles := sizes.length - 1
    if limits.maxCollectionFiles < totalFiles then
      .error (.tooManyFiles totalFiles limits.maxCollectionFiles)
    else if limits.maxTotalBytes < totalSize then .error (.tooLarge totalSize limits.maxTotalBytes)
    else .ok (totalFiles,totalSize)

/-- What has been written below the output directory: the files, and the directories made
for them. -/
structure Output where
  files : List Path
  dirs : List Path
  deriving DecidableEq

/-- The path below the output directory. -/
def safeOutputPath (relativePath : Str) : Except ReceiveError Path := do
  let _ ← (pathToString (components relativePath) true).mapError .path
  return components relativePath

/-- `AtomicOutputFile::create` and `commit`, where nothing fails but for what is there. -/
def Output.create (out : Output) (relativePath : Str) : Except ReceiveError Output := do
  let target ← safeOutputPath relativePath
  let parent := target.dropLast
  if target = [] then .error .escapes
  -- `create_dir_all`
  else if ∃ file ∈ out.files, file <+: parent then .error .notADirectory
  else if target ∈ out.files ∨ ∃ dir ∈ parent :: out.dirs, target <+: dir then .error .alreadyExists
  else return ⟨target :: out.files,parent :: out.dirs⟩

def exportBlobToDirectory (limits : CoreLimits) (out : Output) (relativePath : Str) :
    Except ReceiveError Output :=
  if limits.maxPathBytes < utf8Len relativePath then
    .error (.pathTooLong limits.maxPathBytes relativePath)
  else out.create relativePath

/-- Into an empty directory. -/
def exportCollection (limits : CoreLimits) (names : List Str) : Except ReceiveError Output :=
  names.foldlM (exportBlobToDirectory limits) ⟨[],[]⟩

end Vnidrop.Imports
