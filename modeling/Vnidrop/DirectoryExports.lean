import Vnidrop.AtomicOutputLife
import Vnidrop.ExportStreams
import Vnidrop.Pipes

/-! `export_blob_to_directory`. The export hands the leaves of the blob to a thread that writes
them, and publishes the file when the thread has ended well. It may be cancelled wherever it
waits; the thread then goes on by itself. -/
namespace Vnidrop.DirectoryExports

open Paths Imports FileSystems AtomicOutput Pipes Exports Runs

/-- What `write_all` can fail with. -/
inductive WriteError where
  | io (e : IoError)
  | writeZero
  deriving DecidableEq

inductive ExportError where
  | pathTooLong
  | create (e : CreateError)
  | outOfOrder
  | stream (message : Str)
  | writerClosed
  | join
  | write (e : WriteError)
  | sync
  | commit (e : IoError)
  | record
  deriving DecidableEq

/-- `cancelled` is the end of a future that is dropped. -/
inductive Stop where
  | failed (e : ExportError)
  | cancelled
  deriving DecidableEq

/-- `io::Result<Option<Bytes>>`. -/
abbrev Packet := Except IoError (Option Bytes)

/-- An export and its host; `tracked` is whether there is a transfer to record the artifact for. -/
structure Job where
  host : Host
  outputDir : OsStr
  relativePath : Str
  uuid : Str
  maxPathBytes : Nat
  totalFiles : Nat
  currentFileIndex : Nat
  tracked : Bool
  items : List ExportRangesItem

def Job.artifact (j : Job) (out : AtomicOutputFile) (exported : Nat) : Artifact Path :=
  ⟨j.relativePath,.filesystemPath,out.target,exported⟩

/-- Where `export_blob_to_directory` is; what it returns, `leave` and `discard` carry while the
sender and the pending file are dropped. -/
inductive Exporter where
  | begin
  | next (rest : List ExportRangesItem) (fileSize exported : Nat)
  | send (bytes : Bytes) (rest : List ExportRangesItem) (fileSize exported : Nat)
  | sendEnd (exported : Nat)
  | join (exported : Nat)
  | sync (exported : Nat)
  | commit (exported : Nat)
  | record (exported : Nat)
  | leave (r : Except Stop Unit)
  | discard (r : Except Stop Unit)
  | done (r : Except Stop Unit)

/-- Where `write_stream_to_blocking_writer` is. -/
inductive Writer where
  | absent
  | receiving
  | writing (rest : Bytes)
  | ended (r : Except WriteError Unit)

structure Export where
  life : Life
  pipe : Pipe Packet 2
  exporter : Exporter
  writer : Writer
  progress : List Progress
  recorded : List (Artifact Path)

/-- `fails` is whether what the export waits for fails, where the rest does not say so; `accepted`
how much of its buffer a write takes; `ran` whether an abandoned statement is still executed. -/
inductive Label where
  | advance (fails : Bool)
  | write (accepted : Nat)
  | cancel (ran : Bool)
  deriving DecidableEq

namespace Export

variable (j : Job) (s : Export)

def fail (e : ExportError) : Export := { s with exporter := .leave (.error (.failed e)) }

/-- The statement that records the artifact, once the file has been committed. -/
def record (exported : Nat) : Export :=
  match s.life.stage with
  | .committed out _ => { s with recorded := s.recorded ++ [j.artifact out exported] }
  | _ => s

/-- Up to the first wait: the file is created and the thread spawned. -/
def start : Export :=
  if j.maxPathBytes < utf8Len j.relativePath then
    { s with exporter := .done (.error (.failed .pathTooLong)) }
  else
    match create j.host j.outputDir j.relativePath j.uuid s.life.fs with
    | .error e fs =>
      { s with life := { s.life with fs, stage := .failed }, exporter := .done (.error (.failed (.create e))) }
    | .ok (out,file) fs =>
      { s with life := { s.life with fs, stage := .writing out file }
               exporter := .next j.items 0 0, writer := .receiving }

/-- An item of the stream, or its end. -/
def take (fileSize exported : Nat) : List ExportRangesItem → Export
  | [] => { s with exporter := .sendEnd exported }
  | .size size :: rest => { s with exporter := .next rest size exported }
  | .data offset bytes :: rest =>
    if offset ≠ exported then s.fail .outOfOrder
    else { s with exporter := .send bytes rest fileSize (exported + bytes.length) }
  | .error message :: _ => s.fail (.stream message)

/-- `pending_file.commit()`. -/
def commit (exported : Nat) : Option Export :=
  match s.life.stage with
  | .writing out file =>
    match AtomicOutput.commit j.host out s.life.fs with
    | .ok _ fs => some
      { s with life := { s.life with fs, stage := .committed out file }
               exporter := if j.tracked then .record exported else .leave (.ok ()) }
    | .error e fs => some ({ s with life := { s.life with fs, stage := .dropped out file } }.fail (.commit e))
  | _ => none

/-- The export goes on to where it waits next. -/
def advance (fails : Bool) : Option Export :=
  match s.exporter with
  | .begin => some (s.start j)
  | .next rest fileSize exported => some (s.take fileSize exported rest)
  | .send bytes rest fileSize exported =>
    match s.pipe.send (.ok (some bytes)) with
    | none => none
    | some (false,_) => some (s.fail .writerClosed)
    | some (true,pipe) => some
      { s with pipe, exporter := .next rest fileSize exported
               progress := s.progress ++
                 [⟨j.totalFiles,j.currentFileIndex,j.relativePath,fileSize,exported⟩] }
  | .sendEnd exported =>
    match s.pipe.send (.ok none) with
    | none => none
    | some (false,_) => some (s.fail .writerClosed)
    | some (true,pipe) => some { s with pipe, exporter := .join exported }
  | .join exported =>
    if fails then some (s.fail .join)
    else
      match s.writer with
      | .ended (.ok ()) => some { s with exporter := .sync exported }
      | .ended (.error e) => some (s.fail (.write e))
      | _ => none
  | .sync exported => if fails then some (s.fail .sync) else some { s with exporter := .commit exported }
  | .commit exported => s.commit j exported
  | .record exported =>
    if fails then some (s.fail .record) else some { s.record j exported with exporter := .leave (.ok ()) }
  | .leave r => some { s with pipe := s.pipe.dropSender, exporter := .discard r }
  | .discard r =>
    match s.life.stage with
    | .writing out file => some
      { s with life := { s.life with fs := final (drop j.host out s.life.fs), stage := .dropped out file }
               exporter := .done r }
    | _ => some { s with exporter := .done r }
  | .done _ => none

/-- The future of the export is dropped where it waits. -/
def cancel (ran : Bool) : Option Export :=
  let stop := Exporter.leave (.error .cancelled)
  match s.exporter with
  | .next .. | .send .. | .sendEnd _ | .join _ | .sync _ => some { s with exporter := stop }
  | .record exported => some { if ran then s.record j exported else s with exporter := stop }
  | _ => none

/-- The thread returns, and drops the receiver. -/
def finish (r : Except WriteError Unit) : Export :=
  { s with writer := .ended r, pipe := s.pipe.dropReceiver }

/-- The thread goes on: it receives, or writes once. The flush of a file does nothing. -/
def write (accepted : Nat) : Option Export :=
  match s.writer with
  | .receiving =>
    match s.pipe.receive with
    | none => none
    | some (none,pipe) => some ({ s with pipe }.finish (.ok ()))
    | some (some (.error e),pipe) => some ({ s with pipe }.finish (.error (.io e)))
    | some (some (.ok none),pipe) => some ({ s with pipe }.finish (.ok ()))
    | some (some (.ok (some bytes)),pipe) => some { s with pipe, writer := .writing bytes }
  | .writing [] => some { s with writer := .receiving }
  | .writing (b :: rest) =>
    match s.life.stage.file with
    | none => none
    | some file =>
      let taken := (b :: rest).take accepted
      match AtomicOutput.write j.host s.life.writes file taken s.life.fs with
      | .error e fs => some ({ s with life := { s.life with fs, writes := s.life.writes + 1 } }.finish (.error (.io e)))
      | .ok _ fs =>
        let s := { s with life :=
          { s.life with fs, written := s.life.written ++ taken, writes := s.life.writes + 1 } }
        if accepted = 0 then some (s.finish (.error .writeZero))
        else some { s with writer := .writing ((b :: rest).drop accepted) }
  | .absent | .ended _ => none

def step : Label → Option Export
  | .advance fails => s.advance j fails
  | .write accepted => s.write j accepted
  | .cancel ran => s.cancel j ran

end Export

/-- An export over the file system `before`. -/
def exporting (j : Job) (before : Fs) : System Export Label where
  init s := s = ⟨⟨before,.fresh,[],0⟩,.opened Packet 2,.begin,.absent,[],[]⟩
  step s := s.step j

/-- What an export leaves behind, in any of its states. -/
structure Exported (j : Job) (before : Fs) (s : Export) : Prop where
  /-- A published file has the whole content, and its name leads below the directory. -/
  published : ∀ out file, s.life.stage = .committed out file → Ordered 0 j.items ∧
    ∃ path d n i, OutputPaths.safeOutputPath j.outputDir j.relativePath = .ok path ∧ out.target = path.components ∧
      j.host.locate s.life.fs out.target = some (d,n) ∧ Made before s.life.fs d n ∧
      s.life.fs.node d n = some (.file i) ∧ (s.life.fs.inodes i).bytes = content j.items
  /-- An export that succeeds has published the file and recorded it. -/
  succeeded : s.exporter = .done (.ok ()) → ∃ out file, s.life.stage = .committed out file ∧
    s.recorded = if j.tracked then [j.artifact out (content j.items).length] else []
  /-- What is recorded has been published. -/
  recorded : ∀ a ∈ s.recorded, ∃ out file, s.life.stage = .committed out file ∧
    a = j.artifact out (content j.items).length

end Vnidrop.DirectoryExports
