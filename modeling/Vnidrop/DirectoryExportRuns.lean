import Vnidrop.DirectoryExports

/-! What an export to a directory leaves, in every order of its steps and those of its thread.
Nothing is lost between the two, so when the thread ends well it has written what the export has
handed over. -/
namespace Vnidrop.DirectoryExports

open Paths Imports FileSystems AtomicOutput Pipes Exports Runs

/-- Where an export can be cancelled. -/
def Exporter.waits : Exporter → Bool
  | .next .. | .send .. | .sendEnd _ | .join _ | .sync _ | .record _ => true
  | _ => false

/-- All that the export itself can do. -/
inductive Advances (j : Job) (s : Export) : Export → Prop where
  | refused (r : ExportError) (at_ : s.exporter = .begin) :
      Advances j s { s with exporter := .done (.error (.failed r)) }
  | uncreated {e : CreateError} {fs : Fs} (at_ : s.exporter = .begin)
      (ran : create j.host j.outputDir j.relativePath j.uuid s.life.fs = .error e fs) :
      Advances j s { s with life := { s.life with fs, stage := .failed }
                            exporter := .done (.error (.failed (.create e))) }
  | created {out : AtomicOutputFile} {file : Nat} {fs : Fs} (at_ : s.exporter = .begin)
      (ran : create j.host j.outputDir j.relativePath j.uuid s.life.fs = .ok (out,file) fs) :
      Advances j s { s with life := { s.life with fs, stage := .writing out file }
                            exporter := .next j.items 0 0, writer := .receiving }
  | exhausted {fileSize exported : Nat} (at_ : s.exporter = .next [] fileSize exported) :
      Advances j s { s with exporter := .sendEnd exported }
  | sized {size fileSize exported : Nat} {rest : List ExportRangesItem}
      (at_ : s.exporter = .next (.size size :: rest) fileSize exported) :
      Advances j s { s with exporter := .next rest size exported }
  | leaf {fileSize exported : Nat} {bytes : Bytes} {rest : List ExportRangesItem}
      (at_ : s.exporter = .next (.data exported bytes :: rest) fileSize exported) :
      Advances j s { s with exporter := .send bytes rest fileSize (exported + bytes.length) }
  | stopped (e : ExportError) (at_ : s.exporter.waits = true) : Advances j s (s.fail e)
  | sent {fileSize exported : Nat} {bytes : Bytes} {rest : List ExportRangesItem} {pipe : Pipe Packet 2}
      (progress : List Progress) (at_ : s.exporter = .send bytes rest fileSize exported)
      (ran : s.pipe.send (.ok (some bytes)) = some (true,pipe)) :
      Advances j s { s with pipe, progress, exporter := .next rest fileSize exported }
  | sentEnd {exported : Nat} {pipe : Pipe Packet 2} (at_ : s.exporter = .sendEnd exported)
      (ran : s.pipe.send (.ok none) = some (true,pipe)) :
      Advances j s { s with pipe, exporter := .join exported }
  | joined {exported : Nat} (at_ : s.exporter = .join exported) (ended : s.writer = .ended (.ok ())) :
      Advances j s { s with exporter := .sync exported }
  | synced {exported : Nat} (at_ : s.exporter = .sync exported) :
      Advances j s { s with exporter := .commit exported }
  | committed {exported file : Nat} {out : AtomicOutputFile} {fs : Fs} (at_ : s.exporter = .commit exported)
      (writing : s.life.stage = .writing out file) (ran : commit j.host out s.life.fs = .ok () fs) :
      Advances j s { s with life := { s.life with fs, stage := .committed out file }
                            exporter := if j.tracked then .record exported else .leave (.ok ()) }
  | uncommitted {exported file : Nat} {out : AtomicOutputFile} {e : IoError} {fs : Fs}
      (at_ : s.exporter = .commit exported) (writing : s.life.stage = .writing out file)
      (ran : commit j.host out s.life.fs = .error e fs) :
      Advances j s ({ s with life := { s.life with fs, stage := .dropped out file } }.fail (.commit e))
  | recorded {exported : Nat} (at_ : s.exporter = .record exported) :
      Advances j s { s.record j exported with exporter := .leave (.ok ()) }
  | left {r : Except Stop Unit} (at_ : s.exporter = .leave r) :
      Advances j s { s with pipe := s.pipe.dropSender, exporter := .discard r }
  | dropped {r : Except Stop Unit} {out : AtomicOutputFile} {file : Nat} (at_ : s.exporter = .discard r)
      (writing : s.life.stage = .writing out file) :
      Advances j s { s with life := { s.life with fs := final (drop j.host out s.life.fs), stage := .dropped out file }
                            exporter := .done r }
  | kept {r : Except Stop Unit} (at_ : s.exporter = .discard r)
      (free : ∀ out file, s.life.stage ≠ .writing out file) : Advances j s { s with exporter := .done r }

/-- All that the thread can do. -/
inductive Writes (j : Job) (s : Export) : Export → Prop where
  | closed (at_ : s.writer = .receiving) (gone : s.pipe.queue = [] ∧ s.pipe.sending = false) :
      Writes j s (s.finish (.ok ()))
  | failed {e : IoError} {pipe : Pipe Packet 2} (at_ : s.writer = .receiving)
      (ran : s.pipe.receive = some (some (.error e),pipe)) : Writes j s ({ s with pipe }.finish (.error (.io e)))
  | ended {pipe : Pipe Packet 2} (at_ : s.writer = .receiving)
      (ran : s.pipe.receive = some (some (.ok none),pipe)) : Writes j s ({ s with pipe }.finish (.ok ()))
  | received {bytes : Bytes} {pipe : Pipe Packet 2} (at_ : s.writer = .receiving)
      (ran : s.pipe.receive = some (some (.ok (some bytes)),pipe)) :
      Writes j s { s with pipe, writer := .writing bytes }
  | written (at_ : s.writer = .writing []) : Writes j s { s with writer := .receiving }
  | refused {rest : Bytes} {accepted file : Nat} {e : IoError} {fs : Fs} (at_ : s.writer = .writing rest)
      (opened : s.life.stage.file = some file)
      (ran : write j.host s.life.writes file (rest.take accepted) s.life.fs = .error e fs) :
      Writes j s ({ s with life := { s.life with fs, writes := s.life.writes + 1 } }.finish (.error (.io e)))
  | nothing {rest : Bytes} {file : Nat} {fs : Fs} (at_ : s.writer = .writing rest)
      (opened : s.life.stage.file = some file)
      (ran : write j.host s.life.writes file (rest.take 0) s.life.fs = .ok () fs) :
      Writes j s ({ s with life :=
        { s.life with fs, written := s.life.written ++ rest.take 0, writes := s.life.writes + 1 } }.finish
          (.error .writeZero))
  | wrote {rest : Bytes} {accepted file : Nat} {fs : Fs} (at_ : s.writer = .writing rest) (some_ : rest ≠ [])
      (moved : accepted ≠ 0) (opened : s.life.stage.file = some file)
      (ran : write j.host s.life.writes file (rest.take accepted) s.life.fs = .ok () fs) :
      Writes j s { s with
        life := { s.life with fs, written := s.life.written ++ rest.take accepted, writes := s.life.writes + 1 }
        writer := .writing (rest.drop accepted) }

variable {j : Job} {before : Fs} {s t : Export} {accepted : Nat} {fails ended : Bool} {handed : Bytes}

theorem advances (step : s.advance j fails = some t) : Advances j s t := by
  unfold Export.advance at step
  split at step
  · rename_i begins
    cases step
    unfold Export.start
    split
    · exact .refused _ begins
    · split
      · rename_i ran
        exact .uncreated begins ran
      · rename_i ran
        exact .created begins ran
  · rename_i rest fileSize exported here
    cases step
    have waits : s.exporter.waits = true := by rw [here]; rfl
    unfold Export.take
    split
    · exact .exhausted here
    · exact .sized here
    · split
      · exact .stopped _ waits
      · rename_i ordered
        rw [not_not] at ordered
        subst ordered
        exact .leaf here
    · exact .stopped _ waits
  · rename_i here
    split at step
    · cases step
    · cases step
      exact .stopped _ (by rw [here]; rfl)
    · rename_i ran
      cases step
      exact .sent _ here ran
  · rename_i here
    split at step
    · cases step
    · cases step
      exact .stopped _ (by rw [here]; rfl)
    · rename_i ran
      cases step
      exact .sentEnd here ran
  · rename_i here
    have waits : s.exporter.waits = true := by rw [here]; rfl
    split at step
    · cases step
      exact .stopped _ waits
    · split at step
      · rename_i ended
        cases step
        exact .joined here ended
      · cases step
        exact .stopped _ waits
      · cases step
  · rename_i here
    split at step
    · cases step
      exact .stopped _ (by rw [here]; rfl)
    · cases step
      exact .synced here
  · rename_i here
    unfold Export.commit at step
    split at step
    · rename_i writing
      split at step
      · rename_i ran
        cases step
        exact .committed here writing ran
      · rename_i ran
        cases step
        exact .uncommitted here writing ran
    · cases step
  · rename_i here
    split at step
    · cases step
      exact .stopped _ (by rw [here]; rfl)
    · cases step
      exact .recorded here
  · rename_i here
    cases step
    exact .left here
  · rename_i here
    split at step
    · rename_i writing
      cases step
      exact .dropped here writing
    · rename_i free
      cases step
      exact .kept here free
  · cases step

theorem writes (step : s.write j accepted = some t) : Writes j s t := by
  unfold Export.write at step
  split at step
  · rename_i here
    split at step
    · cases step
    · rename_i ran
      rcases Pipe.receive_cases ran with ⟨_,same,-⟩ | ⟨-,empty,gone,rfl⟩
      · cases same
      · cases step
        exact .closed here ⟨empty,gone⟩
    · rename_i ran
      cases step
      exact .failed here ran
    · rename_i ran
      cases step
      exact .ended here ran
    · rename_i ran
      cases step
      exact .received here ran
  · rename_i here
    cases step
    exact .written here
  · rename_i b rest here
    split at step
    · cases step
    · rename_i file opened
      dsimp only at step
      split at step
      · rename_i ran
        cases step
        exact .refused here opened ran
      · rename_i ran
        split at step
        · rename_i none_
          subst none_
          cases step
          exact .nothing here opened ran
        · rename_i moved
          cases step
          exact .wrote here (List.cons_ne_nil b rest) moved opened ran
  · cases step
  · cases step

/-- All that a cancellation can do. -/
theorem cancels {ran : Bool} (step : s.cancel j ran = some t) : s.exporter.waits = true ∧
    (t = { s with exporter := .leave (.error .cancelled) } ∨
      ∃ exported, s.exporter = .record exported ∧
        t = { s.record j exported with exporter := .leave (.error .cancelled) }) := by
  unfold Export.cancel at step
  dsimp only at step
  split at step
  case h_6 exported here =>
    refine ⟨by rw [here]; rfl,?_⟩
    cases step
    cases ran with
    | true => exact .inr ⟨exported,here,rfl⟩
    | false => exact .inl rfl
  case h_7 => cases step
  all_goals
    rename_i here
    cases step
    exact ⟨by rw [here]; rfl,.inl rfl⟩

/-! The file of an export lives as its operations allow. -/

@[simp] theorem record_life {exported : Nat} : (s.record j exported).life = s.life := by
  unfold Export.record
  split <;> rfl

@[simp] theorem record_writer {exported : Nat} : (s.record j exported).writer = s.writer := by
  unfold Export.record
  split <;> rfl

theorem advances_life (opens : s.exporter = .begin → s.life.stage = .fresh) (step : Advances j s t) :
    t.life = s.life ∨ ∃ l, s.life.next j.host j.outputDir j.relativePath j.uuid l = some t.life := by
  cases step with
  | uncreated at_ ran => exact .inr ⟨.create,by simp only [Life.next,opens at_,ran]⟩
  | created at_ ran => exact .inr ⟨.create,by simp only [Life.next,opens at_,ran]⟩
  | committed at_ writing ran => exact .inr ⟨.commit,by simp only [Life.next,writing,ran]⟩
  | uncommitted at_ writing ran => exact .inr ⟨.commit,by simp only [Life.next,writing,ran]; rfl⟩
  | dropped at_ writing => exact .inr ⟨.drop,by simp only [Life.next,writing]⟩
  | recorded => exact .inl record_life
  | _ => exact .inl rfl

theorem writes_life (step : Writes j s t) :
    t.life = s.life ∨ ∃ l, s.life.next j.host j.outputDir j.relativePath j.uuid l = some t.life := by
  cases step with
  | @refused rest accepted file e fs at_ opened ran =>
    exact .inr ⟨.write rest accepted,by simp only [Life.next,opened,ran]; rfl⟩
  | @nothing rest file fs at_ opened ran => exact .inr ⟨.write rest 0,by simp only [Life.next,opened,ran]; rfl⟩
  | @wrote rest accepted file fs at_ _ _ opened ran =>
    exact .inr ⟨.write rest accepted,by simp only [Life.next,opened,ran]⟩
  | _ => exact .inl rfl

/-- The thread leaves alone what is the export's. -/
theorem writes_frame (step : Writes j s t) : t.exporter = s.exporter ∧ t.recorded = s.recorded ∧
    t.life.stage = s.life.stage ∧ t.pipe.sending = s.pipe.sending := by
  cases step with
  | failed _ ran | ended _ ran | received _ ran =>
    rcases Pipe.receive_cases ran with ⟨_,_,_,sending,_⟩ | ⟨same,_⟩
    · exact ⟨rfl,rfl,rfl,sending⟩
    · cases same
  | _ => exact ⟨rfl,rfl,rfl,rfl⟩

/-! What the thread writes. -/

/-- What is handed over is written, in hand, or in the channel, the end of it last. -/
structure Queued (written : Bytes) (pipe : Pipe Packet 2) (handed : Bytes) (ended : Bool) (inHand : Bytes) : Prop where
  receiving : pipe.receiving = true
  conserved : ∃ chunks : List Bytes,
    pipe.queue = chunks.map (fun bytes => .ok (some bytes)) ++ (if ended then [.ok none] else []) ∧
      written ++ inHand ++ chunks.flatten = handed

def Flow (written : Bytes) (pipe : Pipe Packet 2) (handed : Bytes) (ended : Bool) : Writer → Prop
  | .absent => False
  | .receiving => Queued written pipe handed ended []
  | .writing rest => Queued written pipe handed ended rest
  | .ended (.ok ()) => ended = true ∧ written = handed
  | .ended (.error _) => True

/-- The thread loses nothing of what it is handed. -/
theorem writes_flow (held : s.pipe.sending = true) (flow : Flow s.life.written s.pipe handed ended s.writer)
    (step : Writes j s t) : Flow t.life.written t.pipe handed ended t.writer := by
  cases step with
  | closed at_ gone =>
    rw [gone.2] at held
    cases held
  | failed => trivial
  | @ended pipe at_ ran =>
    rw [at_] at flow
    obtain ⟨_,chunks,queued,whole⟩ := flow
    rcases Pipe.receive_cases ran with ⟨_,same,taken,-⟩ | ⟨same,-⟩
    · cases same
      rw [queued] at taken
      cases chunks with
      | nil =>
        cases ended with
        | true =>
          simp only [List.append_nil,List.flatten_nil] at whole
          exact ⟨rfl,whole⟩
        | false => cases taken
      | cons bytes chunks => cases taken
    · cases same
  | @received bytes pipe at_ ran =>
    rw [at_] at flow
    obtain ⟨receiving,chunks,queued,whole⟩ := flow
    rcases Pipe.receive_cases ran with ⟨_,same,taken,_,still⟩ | ⟨same,-⟩
    · cases same
      rw [queued] at taken
      cases chunks with
      | nil =>
        cases ended with
        | true | false => cases taken
      | cons first chunks =>
        simp only [List.map_cons,List.cons_append,List.cons.injEq,Except.ok.injEq,Option.some.injEq] at taken
        obtain ⟨rfl,rest⟩ := taken
        exact ⟨still.trans receiving,chunks,rest.symm,by simpa using whole⟩
    · cases same
  | written at_ =>
    rw [at_] at flow
    exact flow
  | refused | nothing => trivial
  | @wrote rest accepted file fs at_ some_ moved opened ran =>
    rw [at_] at flow
    obtain ⟨receiving,chunks,queued,whole⟩ := flow
    refine ⟨receiving,chunks,queued,?_⟩
    rw [← whole]
    simp [List.append_assoc _ (rest.take accepted)]

/-- What is sent is handed over. -/
theorem flow_sent {written bytes : Bytes} {writer : Writer} {pipe next : Pipe Packet 2}
    (flow : Flow written pipe handed false writer) (ran : pipe.send (.ok (some bytes)) = some (true,next)) :
    Flow written next (handed ++ bytes) false writer := by
  rcases Pipe.send_cases ran with ⟨_,_,queue,_,still⟩ | ⟨same,-⟩
  · have more (inHand : Bytes) (now : Queued written pipe handed false inHand) :
        Queued written next (handed ++ bytes) false inHand := by
      obtain ⟨receiving,chunks,queued,whole⟩ := now
      refine ⟨still.trans receiving,chunks ++ [bytes],?_,?_⟩
      · simpa [queued] using queue
      · simp [← whole]
    cases writer with
    | absent => exact flow
    | receiving | writing => exact more _ flow
    | ended r =>
      cases r with
      | ok => cases flow.1
      | error => trivial
  · cases same

/-- The end is sent last. -/
theorem flow_ended {written : Bytes} {writer : Writer} {pipe next : Pipe Packet 2}
    (flow : Flow written pipe handed false writer) (ran : pipe.send (.ok none) = some (true,next)) :
    Flow written next handed true writer := by
  rcases Pipe.send_cases ran with ⟨_,_,queue,_,still⟩ | ⟨same,-⟩
  · have more (inHand : Bytes) (now : Queued written pipe handed false inHand) :
        Queued written next handed true inHand := by
      obtain ⟨receiving,chunks,queued,whole⟩ := now
      exact ⟨still.trans receiving,chunks,by simpa [queued] using queue,whole⟩
    cases writer with
    | absent => exact flow
    | receiving | writing => exact more _ flow
    | ended r =>
      cases r with
      | ok => cases flow.1
      | error => trivial
  · cases same

/-! The course of an export. -/

/-- The leaves taken so far, whose bytes are handed over. -/
structure Taken (j : Job) (rest : List ExportRangesItem) (exported : Nat) (s : Export) (handed : Bytes) (sending : Bytes) :
    Prop where
  sender : s.pipe.sending = true
  stage : ∃ out file, s.life.stage = .writing out file
  unrecorded : s.recorded = []
  leaves : ∃ done, j.items = done ++ rest ∧ Ordered 0 done ∧ exported = (content done).length ∧
    content done = handed ++ sending

/-- The thread has ended well, with the whole content written. -/
structure Complete (j : Job) (exported : Nat) (s : Export) : Prop where
  ended : s.writer = .ended (.ok ())
  ordered : Ordered 0 j.items
  exported : exported = (content j.items).length
  written : s.life.written = content j.items

/-- The export is over but for what it drops. -/
def Over (j : Job) (s : Export) (r : Except Stop Unit) : Prop :=
  (s.life.stage.isCommitted = false ∧ s.recorded = [] ∧ r ≠ .ok ()) ∨
  ∃ out file exported, s.life.stage = .committed out file ∧ Complete j exported s ∧
    (s.recorded = [] ∨ s.recorded = [j.artifact out exported]) ∧
    (r = .ok () → s.recorded = if j.tracked then [j.artifact out exported] else [])

theorem Over.same {r : Except Stop Unit} (now : Over j s r) (stage : t.life.stage = s.life.stage)
    (written : t.life.written = s.life.written) (writer : t.writer = s.writer) (recorded : t.recorded = s.recorded) :
    Over j t r := by
  rcases now with ⟨uncommitted,none_,bad⟩ | ⟨out,file,exported,committed,complete,once,good⟩
  · exact .inl ⟨stage ▸ uncommitted,recorded.trans none_,bad⟩
  · exact .inr ⟨out,file,exported,stage.trans committed,
      ⟨writer.trans complete.ended,complete.ordered,complete.exported,written.trans complete.written⟩,
      recorded ▸ once,fun ok => recorded.trans (good ok)⟩

/-- What is known where the export is. -/
def Course (j : Job) (s : Export) : Prop :=
  match s.exporter with
  | .begin => s.life.stage = .fresh ∧ s.life.written = [] ∧ s.pipe = .opened Packet 2 ∧ s.writer = .absent ∧ s.recorded = []
  | .next rest _ exported => ∃ handed, Taken j rest exported s handed [] ∧
    Flow s.life.written s.pipe handed false s.writer
  | .send bytes rest _ exported => ∃ handed, Taken j rest exported s handed bytes ∧
    Flow s.life.written s.pipe handed false s.writer
  | .sendEnd exported => ∃ handed, Taken j [] exported s handed [] ∧
    Flow s.life.written s.pipe handed false s.writer
  | .join exported => ∃ handed, Taken j [] exported s handed [] ∧
    Flow s.life.written s.pipe handed true s.writer
  | .sync exported | .commit exported =>
    Complete j exported s ∧ s.recorded = [] ∧ ∃ out file, s.life.stage = .writing out file
  | .record exported =>
    Complete j exported s ∧ s.recorded = [] ∧ j.tracked = true ∧ ∃ out file, s.life.stage = .committed out file
  | .leave r | .discard r | .done r => Over j s r

theorem Taken.writes {rest : List ExportRangesItem} {exported : Nat} {sending : Bytes}
    (taken : Taken j rest exported s handed sending) (step : Writes j s t) : Taken j rest exported t handed sending := by
  obtain ⟨_,recorded,stage,sender⟩ := writes_frame step
  exact ⟨sender.trans taken.sender,stage ▸ taken.stage,recorded.trans taken.unrecorded,taken.leaves⟩

/-- A thread that has ended does nothing. -/
theorem ended_rests {r : Except WriteError Unit} (ended : s.writer = .ended r) : ¬Writes j s t := by
  intro step
  cases step <;> simp_all

theorem course_writes (course : Course j s) (step : Writes j s t) : Course j t := by
  obtain ⟨exporter,recorded,stage,-⟩ := writes_frame step
  unfold Course at course ⊢
  rw [exporter]
  cases at_ : s.exporter with
  | begin =>
    rw [at_] at course
    cases step <;> simp_all
  | next | send | sendEnd | join =>
    rw [at_] at course
    obtain ⟨handed,taken,flow⟩ := course
    exact ⟨handed,taken.writes step,writes_flow taken.sender flow step⟩
  | sync | commit | record =>
    rw [at_] at course
    exact absurd step (ended_rests course.1.ended)
  | leave | discard | done =>
    rw [at_] at course
    rcases course with ⟨uncommitted,none_,bad⟩ | ⟨_,_,_,_,complete,_⟩
    · exact .inl ⟨stage ▸ uncommitted,recorded.trans none_,bad⟩
    · exact absurd step (ended_rests complete.ended)

theorem Taken.uncommitted {rest : List ExportRangesItem} {exported : Nat} {sending : Bytes}
    (taken : Taken j rest exported s handed sending) : s.life.stage.isCommitted = false := by
  obtain ⟨out,file,writing⟩ := taken.stage
  rw [writing]
  rfl

/-- Wherever an export waits it can stop, and has recorded nothing. -/
theorem over_of_waits {e : Stop} (course : Course j s) (waits : s.exporter.waits = true) : Over j s (.error e) := by
  unfold Course at course
  cases at_ : s.exporter with
  | begin | commit | leave | discard | done =>
    rw [at_] at waits
    cases waits
  | next | send | sendEnd | join =>
    rw [at_] at course
    obtain ⟨handed,taken,-⟩ := course
    exact .inl ⟨taken.uncommitted,taken.unrecorded,by simp⟩
  | sync =>
    rw [at_] at course
    obtain ⟨-,none_,out,file,writing⟩ := course
    exact .inl ⟨by rw [writing]; rfl,none_,by simp⟩
  | record =>
    rw [at_] at course
    obtain ⟨complete,none_,-,out,file,committed⟩ := course
    exact .inr ⟨out,file,_,committed,complete,.inl none_,by simp⟩

/-- The record of a committed file. -/
theorem over_recorded {exported : Nat} {r : Except Stop Unit} {exporter : Exporter} (course : Course j s)
    (at_ : s.exporter = .record exported) : Over j { s.record j exported with exporter } r := by
  unfold Course at course
  rw [at_] at course
  obtain ⟨complete,none_,tracked,out,file,committed⟩ := course
  have recorded : (s.record j exported).recorded = [j.artifact out exported] := by
    unfold Export.record
    rw [committed]
    simp [none_]
  refine .inr ⟨out,file,exported,?_,⟨?_,complete.ordered,complete.exported,?_⟩,.inr recorded,fun _ => ?_⟩
  · simpa using committed
  · simpa using complete.ended
  · simpa using complete.written
  · rw [if_pos tracked]
    exact recorded

theorem course_advances (course : Course j s) (step : Advances j s t) : Course j t := by
  have here := course
  unfold Course at course
  cases step with
  | refused r at_ =>
    rw [at_] at course
    exact .inl ⟨by simp [course.1,Stage.isCommitted],course.2.2.2.2,by simp⟩
  | uncreated at_ ran =>
    rw [at_] at course
    exact .inl ⟨rfl,course.2.2.2.2,by simp⟩
  | created at_ ran =>
    rw [at_] at course
    obtain ⟨-,empty,opened,-,none_⟩ := course
    refine ⟨[],⟨?_,⟨_,_,rfl⟩,none_,[],rfl,trivial,rfl,rfl⟩,?_,[],?_,?_⟩
    · rw [opened]
      rfl
    · rw [opened]
      rfl
    · rw [opened]
      rfl
    · simpa using empty
  | exhausted at_ =>
    rw [at_] at course
    obtain ⟨handed,taken,flow⟩ := course
    exact ⟨handed,⟨taken.sender,taken.stage,taken.unrecorded,taken.leaves⟩,flow⟩
  | @sized size fileSize exported rest at_ =>
    rw [at_] at course
    obtain ⟨handed,taken,flow⟩ := course
    obtain ⟨done,whole,ordered,length,bytes⟩ := taken.leaves
    refine ⟨handed,⟨taken.sender,taken.stage,taken.unrecorded,done ++ [.size size],?_,?_,?_,?_⟩,flow⟩
    · simpa using whole
    · simpa [Ordered] using ordered
    · simpa [content] using length
    · simpa [content] using bytes
  | @leaf fileSize exported bytes rest at_ =>
    rw [at_] at course
    obtain ⟨handed,taken,flow⟩ := course
    obtain ⟨done,whole,ordered,length,same⟩ := taken.leaves
    refine ⟨handed,⟨taken.sender,taken.stage,taken.unrecorded,done ++ [.data exported bytes],?_,?_,?_,?_⟩,flow⟩
    · simpa using whole
    · simpa [Ordered,length] using ordered
    · simp [content,length]
    · simpa [content] using same
  | stopped e at_ => exact Over.same (over_of_waits here at_) rfl rfl rfl rfl
  | @sent fileSize exported bytes rest pipe progress at_ ran =>
    rw [at_] at course
    obtain ⟨handed,taken,flow⟩ := course
    refine ⟨handed ++ bytes,⟨?_,taken.stage,taken.unrecorded,?_⟩,flow_sent flow ran⟩
    · rcases Pipe.send_cases ran with ⟨-,-,-,sending,-⟩ | ⟨same,-⟩
      · exact sending.trans taken.sender
      · cases same
    · simpa using taken.leaves
  | sentEnd at_ ran =>
    rw [at_] at course
    obtain ⟨handed,taken,flow⟩ := course
    refine ⟨handed,⟨?_,taken.stage,taken.unrecorded,taken.leaves⟩,flow_ended flow ran⟩
    rcases Pipe.send_cases ran with ⟨-,-,-,sending,-⟩ | ⟨same,-⟩
    · exact sending.trans taken.sender
    · cases same
  | joined at_ ended =>
    rw [at_] at course
    obtain ⟨handed,taken,flow⟩ := course
    obtain ⟨done,whole,ordered,length,same⟩ := taken.leaves
    rw [List.append_nil] at whole same
    subst whole
    unfold Flow at flow
    rw [ended] at flow
    exact ⟨⟨ended,ordered,length,flow.2.trans same.symm⟩,taken.unrecorded,taken.stage⟩
  | synced at_ =>
    rw [at_] at course
    obtain ⟨⟨ended,ordered,exported,written⟩,none_,writing⟩ := course
    exact ⟨⟨ended,ordered,exported,written⟩,none_,writing⟩
  | @committed exported file out fs at_ writing ran =>
    rw [at_] at course
    obtain ⟨⟨ended,ordered,length,written⟩,none_,-⟩ := course
    cases tracked : j.tracked with
    | true => exact ⟨⟨ended,ordered,length,written⟩,none_,tracked,out,file,rfl⟩
    | false => exact .inr ⟨out,file,exported,rfl,⟨ended,ordered,length,written⟩,.inl none_,fun _ => by simpa [tracked] using none_⟩
  | uncommitted at_ writing ran =>
    rw [at_] at course
    exact .inl ⟨rfl,course.2.1,by simp⟩
  | recorded at_ => exact over_recorded here at_
  | left at_ =>
    rw [at_] at course
    exact Over.same course rfl rfl rfl rfl
  | dropped at_ writing =>
    rw [at_] at course
    rcases course with ⟨-,none_,bad⟩ | ⟨_,_,_,committed,_⟩
    · exact .inl ⟨rfl,none_,bad⟩
    · cases writing.symm.trans committed
  | kept at_ free =>
    rw [at_] at course
    exact Over.same course rfl rfl rfl rfl

theorem course_step {a : Label} (course : Course j s) (step : s.step j a = some t) : Course j t := by
  cases a with
  | advance fails => exact course_advances course (advances step)
  | write accepted => exact course_writes course (writes step)
  | cancel ran =>
    rcases cancels step with ⟨waits,rfl | ⟨exported,at_,rfl⟩⟩
    · exact Over.same (over_of_waits course waits) rfl rfl rfl rfl
    · exact over_recorded course at_

theorem reach_course (reach : Reach (exporting j before) Always s) : Course j s := by
  refine reach.invariant (Course j) ?_ fun s a t course _ step => course_step course step
  rintro _ rfl
  exact ⟨rfl,rfl,rfl,rfl,rfl⟩

/-- Every run of an export is a life of its output file. -/
theorem reach_life (reach : Reach (exporting j before) Always s) :
    Reach (life j.host before j.outputDir j.relativePath j.uuid) Always s.life := by
  induction reach with
  | start s h =>
    obtain rfl := h
    exact .start _ rfl
  | @advance s t a past _ step ih =>
    have moved : t.life = s.life ∨ ∃ l, s.life.next j.host j.outputDir j.relativePath j.uuid l = some t.life := by
      cases a with
      | advance fails =>
        refine advances_life (fun begins => ?_) (advances step)
        have course := reach_course past
        unfold Course at course
        rw [begins] at course
        exact course.1
      | write accepted => exact writes_life (writes step)
      | cancel ran =>
        rcases cancels step with ⟨-,rfl | ⟨exported,-,rfl⟩⟩
        · exact .inl rfl
        · exact .inl record_life
    rcases moved with same | ⟨l,next⟩
    · exact same ▸ ih
    · exact .advance l ih trivial next

/-- Where the parent cannot be canonicalised again nothing is written. -/
theorem recheck_refuses {h : Host} {outputDir : OsStr} {relativePath uuid : Str}
    (fails : RecheckFails h before outputDir relativePath uuid) :
    ∃ e fs, create h outputDir relativePath uuid before = .error e fs := by
  obtain ⟨⟨e,fault⟩,⟨out,parent,place,file⟩,u,ran⟩ := fails
  have refused : canonicalize h .recheckParent parent u = .error e u := by
    unfold canonicalize perform
    rw [fails_some.mpr fault]
  refine ⟨.io e,u,?_⟩
  unfold create
  rw [bind_ran ran]
  apply bind_failed
  show EStateM.adaptExcept CreateError.io (canonicalize h .recheckParent parent) u = _
  unfold EStateM.adaptExcept
  rw [refused]

/-- A file that is committed is as its invariant says, whatever may fail. -/
theorem inv_of_committed {h : Host} {outputDir : OsStr} {relativePath uuid : Str} {l : Life}
    (reach : Reach (life h before outputDir relativePath uuid) Always l) (committed : l.stage.isCommitted = true) :
    AtomicOutput.Inv h before outputDir relativePath l := by
  by_cases fails : RecheckFails h before outputDir relativePath uuid
  · obtain ⟨e,fs,refused⟩ := recheck_refuses fails
    have closed : (l.stage = .fresh ∧ l.fs = before) ∨ l.stage = .failed := by
      refine reach.invariant (fun l => (l.stage = .fresh ∧ l.fs = before) ∨ l.stage = .failed) ?_ fun l a l' now _ step => ?_
      · rintro _ rfl
        exact .inl ⟨rfl,rfl⟩
      · have next : l.next h outputDir relativePath uuid a = some l' := step
        rcases now with ⟨fresh,rfl⟩ | failed
        · cases a <;> simp [Life.next,fresh,refused,Stage.file] at next
          exact .inr (by rw [← next])
        · cases a <;> simp [Life.next,failed,Stage.file] at next
    rcases closed with ⟨fresh,-⟩ | failed
    · rw [fresh] at committed
      cases committed
    · rw [failed] at committed
      cases committed
  · refine reach.invariant (AtomicOutput.Inv h before outputDir relativePath) ?_ fun l a l' inv _ step => inv_next fails inv step
    rintro l rfl
    exact ⟨rfl,rfl⟩

/-- Only a complete file is committed. -/
theorem complete_of_committed {out : AtomicOutputFile} {file : Nat} (course : Course j s)
    (committed : s.life.stage = .committed out file) : ∃ exported, Complete j exported s ∧
      (s.recorded = [] ∨ s.recorded = [j.artifact out exported]) := by
  unfold Course at course
  cases at_ : s.exporter with
  | begin =>
    rw [at_] at course
    cases committed.symm.trans course.1
  | next | send | sendEnd | join =>
    rw [at_] at course
    obtain ⟨_,⟨-,⟨out',file',writing⟩,-,-⟩,-⟩ := course
    cases committed.symm.trans writing
  | sync | commit =>
    rw [at_] at course
    obtain ⟨-,-,out',file',writing⟩ := course
    cases committed.symm.trans writing
  | record =>
    rw [at_] at course
    exact ⟨_,course.1,.inl course.2.1⟩
  | leave | discard | done =>
    rw [at_] at course
    rcases course with ⟨uncommitted,-⟩ | ⟨out',file',exported,committed',complete,once,-⟩
    · rw [committed] at uncommitted
      cases uncommitted
    · cases committed.symm.trans committed'
      exact ⟨exported,complete,once⟩

theorem unrecorded_of_uncommitted (course : Course j s) (uncommitted : s.life.stage.isCommitted = false) :
    s.recorded = [] := by
  unfold Course at course
  cases at_ : s.exporter with
  | begin =>
    rw [at_] at course
    exact course.2.2.2.2
  | next | send | sendEnd | join =>
    rw [at_] at course
    exact course.choose_spec.1.unrecorded
  | sync | commit | record =>
    rw [at_] at course
    exact course.2.1
  | leave | discard | done =>
    rw [at_] at course
    rcases course with ⟨-,none_,-⟩ | ⟨out,file,exported,committed,-⟩
    · exact none_
    · rw [committed] at uncommitted
      cases uncommitted

/-- What an export publishes and records is the whole content, in every order of steps. -/
theorem export_whole (j : Job) (before : Fs) (s : Export) (reach : Reach (exporting j before) Always s) :
    Exported j before s := by
  have course := reach_course reach
  refine ⟨fun out file committed => ?_,fun done => ?_,fun a listed => ?_⟩
  · obtain ⟨exported,complete,-⟩ := complete_of_committed course committed
    have inv := inv_of_committed (reach_life reach) (by rw [committed]; rfl)
    unfold AtomicOutput.Inv at inv
    rw [committed] at inv
    obtain ⟨d,n,_,publication⟩ := inv
    obtain ⟨path,safe,target⟩ := publication.named
    exact ⟨complete.ordered,path,d,n,file,safe,target,publication.target,publication.made_file publication.there,
      publication.there,publication.bytes.trans complete.written⟩
  · unfold Course at course
    rw [done] at course
    rcases course with ⟨-,-,bad⟩ | ⟨out,file,exported,committed,complete,-,recorded⟩
    · exact absurd rfl bad
    · exact ⟨out,file,committed,complete.exported ▸ recorded rfl⟩
  · cases committed : s.life.stage.isCommitted with
    | false =>
      rw [unrecorded_of_uncommitted course committed] at listed
      cases listed
    | true =>
      obtain ⟨out,file,stage⟩ : ∃ out file, s.life.stage = .committed out file := by
        cases stage : s.life.stage <;> simp_all [Stage.isCommitted]
      obtain ⟨exported,complete,once⟩ := complete_of_committed course stage
      rcases once with none_ | one
      · rw [none_] at listed
        cases listed
      · rw [one] at listed
        obtain rfl := List.mem_singleton.mp listed
        exact ⟨out,file,stage,complete.exported ▸ rfl⟩

end Vnidrop.DirectoryExports
