import Vnidrop.ImportedReceivable
import Vnidrop.TargetedOps
import Vnidrop.TargetedRows

/-! A targeted receive into a directory that is interrupted while it exports, and the resume
into the same directory. The resume repeats the whole export. -/
namespace Vnidrop.Targeted.Resumed

open Paths Imports Programs Excepts Tables

/-! The export. -/

/-- An entry of a collection, with the bytes of its blob. -/
abbrev Entry := Str × List UInt8

/-- What is in the output directory, and the bytes of its files. -/
structure Directory where
  out : Output
  bytes : Path → Option (List UInt8)

namespace Directory

/-- `export_blob_to_directory`, where nothing fails but for what is there. -/
def publish (limits : CoreLimits) (d : Directory) (e : Entry) : Except ReceiveError Directory :=
  match exportBlobToDirectory limits d.out e.1 with
  | .ok out => .ok ⟨out,Function.update d.bytes (components e.1) (some e.2)⟩
  | .error err => .error err

/-- An export that is stopped has made the directory of its file; the temporary file goes
when it is dropped. -/
def begun (d : Directory) (e : Entry) : Directory :=
  { d with out := ⟨d.out.files,(components e.1).dropLast :: d.out.dirs⟩ }

end Directory

/-- What `export_collection_untracked` leaves of the directory, and the error it ends with. -/
def exportCollectionUntracked (limits : CoreLimits) (d : Directory) :
    List Entry → Directory × Option ReceiveError
  | [] => (d,none)
  | e :: rest =>
    match d.publish limits e with
    | .ok d' => exportCollectionUntracked limits d' rest
    | .error err => (d,some err)

inductive PayloadError where
  | remoteSizeOverflow
  | fileCount (found authorized : Nat)
  | payloadSizeOverflow
  | payloadSize (found authorized : Nat)
  | tooManyFiles (found limit : Nat)
  | tooLarge (found limit : Nat)
  | exported (error : ReceiveError)
  deriving DecidableEq

/-- The checks on the sizes that the sender reports: the metadata of the collection first. -/
def checkPayload (limits : CoreLimits) (expectedFileCount expectedPayloadSize : Nat) (sizes : List Nat) :
    Option PayloadError :=
  match checkedSum sizes with
  | none => some .remoteSizeOverflow
  | some remoteSize =>
    if sizes.length - 1 ≠ expectedFileCount then some (.fileCount (sizes.length - 1) expectedFileCount)
    else
      match checkedSum sizes.tail with
      | none => some .payloadSizeOverflow
      | some payloadSize =>
        if payloadSize ≠ expectedPayloadSize then some (.payloadSize payloadSize expectedPayloadSize)
        else if limits.maxCollectionFiles < sizes.length - 1 then
          some (.tooManyFiles (sizes.length - 1) limits.maxCollectionFiles)
        else if limits.maxTotalBytes < remoteSize then some (.tooLarge remoteSize limits.maxTotalBytes)
        else none

/-- A collection as the sender serves it. -/
structure Payload where
  metadataSize : Nat
  entries : List Entry

def Payload.sizes (p : Payload) : List Nat := p.metadataSize :: p.entries.map (·.2.length)

/-- `download_targeted_payload` over a connection that does not fail: the directory it leaves,
and the error it ends with. -/
def downloadTargetedPayload (limits : CoreLimits) (expectedFileCount expectedPayloadSize : Nat)
    (p : Payload) (d : Directory) : Directory × Option PayloadError :=
  match checkPayload limits expectedFileCount expectedPayloadSize p.sizes with
  | some e => (d,some e)
  | none =>
    let (d',error) := exportCollectionUntracked limits d p.entries
    (d',error.map .exported)

/-- Neither a file nor below one, nor a directory. -/
structure Free (out : Output) (p : Path) : Prop where
  files : ∀ f ∈ out.files, ¬f <+: p
  dirs : ∀ d ∈ out.dirs, ¬p <+: d

/-- The name of the entry is a place below the directory, at which nothing is. -/
structure Publishable (limits : CoreLimits) (out : Output) (e : Entry) : Prop where
  short : utf8Len e.1 ≤ limits.maxPathBytes
  safe : safeOutputPath e.1 = .ok (components e.1)
  nonempty : components e.1 ≠ []
  free : Free out (components e.1)

/-- Each entry has a place of its own. -/
structure Exportable (limits : CoreLimits) (out : Output) (entries : List Entry) : Prop where
  each : ∀ e ∈ entries, Publishable limits out e
  apart : entries.Pairwise fun e f =>
    ¬(components e.1 <+: components f.1 ∨ components f.1 <+: components e.1)

section Exports

variable {limits : CoreLimits} {d d' : Directory} {e : Entry} {entries : List Entry} {p q : Path}
  {out : Output}

theorem safe_components {name : Str} (h : safeOutputPath name = .ok p) : p = components name := by
  obtain ⟨_,_,same⟩ := bind_ok.mp h
  exact (Except.ok.inj same).symm

/-- A prefix of a path is the path or ends above it. -/
theorem above_or_same (h : q <+: p) : q <+: p.dropLast ∨ q = p := by
  rcases List.prefix_iff_eq_append.mp h with same
  by_cases rest : p.drop q.length = []
  · right
    rw [rest,List.append_nil] at same
    exact same
  · left
    rw [← same,List.dropLast_append_of_ne_nil rest]
    exact List.prefix_append ..

theorem not_below_self (nonempty : p ≠ []) : ¬p <+: p.dropLast := by
  intro below
  have short := below.length_le
  have long := List.length_pos_of_ne_nil nonempty
  rw [List.length_dropLast] at short
  omega

theorem create_ok {name : Str} {out' : Output} : out.create name = .ok out' ↔
    safeOutputPath name = .ok (components name) ∧ components name ≠ [] ∧ Free out (components name) ∧
      out' = ⟨components name :: out.files,(components name).dropLast :: out.dirs⟩ := by
  unfold Output.create
  rw [bind_ok]
  constructor
  · rintro ⟨target,safe,h⟩
    obtain rfl := safe_components safe
    dsimp only at h
    split at h
    · cases h
    · rename_i nonempty
      split at h
      · cases h
      · rename_i clear
        split at h
        · cases h
        · rename_i absent
          refine ⟨safe,nonempty,⟨fun f there above => ?_,fun dir there below => ?_⟩,(Except.ok.inj h).symm⟩
          · rcases above_or_same above with above | rfl
            · exact clear ⟨f,there,above⟩
            · exact absent (.inl there)
          · exact absent (.inr ⟨dir,List.mem_cons_of_mem _ there,below⟩)
  · rintro ⟨safe,nonempty,free,rfl⟩
    refine ⟨_,safe,?_⟩
    dsimp only
    rw [if_neg nonempty,if_neg,if_neg]
    · rfl
    · rintro (there | ⟨dir,there,below⟩)
      · exact free.files _ there List.prefix_rfl
      · rcases List.mem_cons.mp there with rfl | there
        · exact not_below_self nonempty below
        · exact free.dirs dir there below
    · rintro ⟨f,there,above⟩
      exact free.files f there (above.trans (List.dropLast_prefix _))

theorem publish_ok : d.publish limits e = .ok d' ↔ Publishable limits d.out e ∧
    d' = ⟨⟨components e.1 :: d.out.files,(components e.1).dropLast :: d.out.dirs⟩,
      Function.update d.bytes (components e.1) (some e.2)⟩ := by
  unfold Directory.publish exportBlobToDirectory
  by_cases long : limits.maxPathBytes < utf8Len e.1
  · rw [if_pos long]
    constructor
    · exact nofun
    · rintro ⟨able,_⟩
      exact absurd able.short (Nat.not_le_of_lt long)
  · rw [if_neg long]
    constructor
    · intro h
      split at h
      · rename_i out created
        obtain ⟨safe,nonempty,free,rfl⟩ := create_ok.mp created
        exact ⟨⟨Nat.le_of_not_lt long,safe,nonempty,free⟩,(Except.ok.inj h).symm⟩
      · cases h
    · rintro ⟨able,rfl⟩
      rw [create_ok.mpr ⟨able.safe,able.nonempty,able.free,rfl⟩]

/-- After a file and its directory, what is free are the places that were, apart from it. -/
theorem free_after : Free ⟨p :: out.files,p.dropLast :: out.dirs⟩ q ↔
    Free out q ∧ ¬(p <+: q ∨ q <+: p) := by
  constructor
  · intro free
    refine ⟨⟨fun f there => free.files f (List.mem_cons_of_mem _ there),
      fun dir there => free.dirs dir (List.mem_cons_of_mem _ there)⟩,?_⟩
    rintro (above | below)
    · exact free.files p List.mem_cons_self above
    · rcases above_or_same below with below | rfl
      · exact free.dirs _ List.mem_cons_self below
      · exact free.files q List.mem_cons_self List.prefix_rfl
  · rintro ⟨free,apart⟩
    refine ⟨List.forall_mem_cons.mpr ⟨fun above => apart (.inl above),free.files⟩,
      List.forall_mem_cons.mpr ⟨fun below => apart (.inr (below.trans (List.dropLast_prefix _))),free.dirs⟩⟩

theorem exportable_cons : Exportable limits out (e :: entries) ↔ Publishable limits out e ∧
    Exportable limits ⟨components e.1 :: out.files,(components e.1).dropLast :: out.dirs⟩ entries := by
  constructor
  · rintro ⟨each,apart⟩
    obtain ⟨here,others⟩ := List.forall_mem_cons.mp each
    obtain ⟨first,rest⟩ := List.pairwise_cons.mp apart
    exact ⟨here,fun f there => { others f there with
      free := free_after.mpr ⟨(others f there).free,first f there⟩ },rest⟩
  · rintro ⟨able,each,apart⟩
    have later (f : Entry) (there : f ∈ entries) := free_after.mp (each f there).free
    exact ⟨List.forall_mem_cons.mpr ⟨able,fun f there => { each f there with free := (later f there).1 }⟩,
      List.pairwise_cons.mpr ⟨fun f there => (later f there).2,apart⟩⟩

/-- The export of a collection succeeds exactly when each entry has a free place of its own. -/
theorem export_iff : (exportCollectionUntracked limits d entries).2 = none ↔
    Exportable limits d.out entries := by
  induction entries generalizing d with
  | nil => exact ⟨fun _ => ⟨nofun,.nil⟩,fun _ => rfl⟩
  | cons e entries ih =>
    rw [exportable_cons,exportCollectionUntracked]
    split
    · rename_i d' published
      obtain ⟨able,rfl⟩ := publish_ok.mp published
      exact ih.trans (and_iff_right able).symm
    · rename_i err refused
      constructor
      · exact nofun
      · rintro ⟨able,_⟩
        rw [publish_ok.mpr ⟨able,rfl⟩] at refused
        cases refused

/-- Files are not taken away, and their bytes are not changed elsewhere. -/
theorem export_keeps (entries : List Entry) (d : Directory) :
    (∀ f ∈ d.out.files, f ∈ (exportCollectionUntracked limits d entries).1.out.files) ∧
    ∀ p, (∀ e ∈ entries, components e.1 ≠ p) →
      (exportCollectionUntracked limits d entries).1.bytes p = d.bytes p := by
  induction entries generalizing d with
  | nil => exact ⟨fun _ there => there,fun _ _ => rfl⟩
  | cons e entries ih =>
    rw [exportCollectionUntracked]
    split
    · rename_i d' published
      obtain ⟨able,rfl⟩ := publish_ok.mp published
      obtain ⟨files,bytes⟩ := ih ⟨⟨components e.1 :: d.out.files,(components e.1).dropLast :: d.out.dirs⟩,
        Function.update d.bytes (components e.1) (some e.2)⟩
      refine ⟨fun f there => files f (List.mem_cons_of_mem _ there),fun p others => ?_⟩
      rw [bytes p fun f there => others f (List.mem_cons_of_mem _ there)]
      exact Function.update_of_ne (others e List.mem_cons_self).symm ..
    · exact ⟨fun _ there => there,fun _ _ => rfl⟩

/-- What a successful export has written. -/
theorem export_writes (done : (exportCollectionUntracked limits d entries).2 = none) (there : e ∈ entries) :
    components e.1 ∈ (exportCollectionUntracked limits d entries).1.out.files ∧
    (exportCollectionUntracked limits d entries).1.bytes (components e.1) = some e.2 := by
  induction entries generalizing d with
  | nil => cases there
  | cons f entries ih =>
    have apart := (export_iff.mp done).apart
    rw [exportCollectionUntracked] at done ⊢
    split at done
    · rename_i d' published
      rcases List.mem_cons.mp there with rfl | there
      · obtain ⟨able,rfl⟩ := publish_ok.mp published
        refine ⟨(export_keeps entries _).1 _ List.mem_cons_self,?_⟩
        rw [(export_keeps entries _).2 _ fun f later same =>
          (List.pairwise_cons.mp apart).1 f later (.inl (same ▸ List.prefix_rfl))]
        exact Function.update_self ..
      · exact ih done there
    · cases done

end Exports

/-! The receive. -/

/-- The store and the secret store do not fail; the download ends as given. -/
def smooth (l : Local) (received : Bool) (s : Device) (c : Choice) (o : Op) : Option (Ans o × Device) :=
  if c.fails = true ∨ c.download.succeeded ≠ received then none else s.exec l c o

/-- A receiver's row with its authorization, and no receive that is running. -/
structure Ready (l : Local) (id : TransferId) (s : Device) (row : TargetedTransferRow) : Prop where
  here : s.store.getRow id = some row
  receiver : row.role = .receiver
  addressed : row.receiverEndpointId = l.endpointId
  ticket : ∃ blobTicket hash, row.blobTicket = some blobTicket ∧ l.ticketHash blobTicket = some hash
  secret : ∃ handle material, row.authorizationSecretHandle = some handle ∧ s.custody handle = some material
  idle : s.active id = false

/-- The same transfer in another state. -/
structure Carries (row row' : TargetedTransferRow) (state : TargetedTransferState) : Prop where
  role : row'.role = row.role
  receiverEndpointId : row'.receiverEndpointId = row.receiverEndpointId
  blobTicket : row'.blobTicket = row.blobTicket
  handle : row'.authorizationSecretHandle = row.authorizationSecretHandle
  fileCount : row'.fileCount = row.fileCount
  totalSize : row'.totalSize = row.totalSize
  state : row'.state = state

section Runs

variable {l : Local} {received : Bool} {s t u : Device} {id : TransferId} {row row' : TargetedTransferRow}
  {state : TargetedTransferState} {o : Op} {c : Choice} {a : Ans o}

theorem smooth_exec (h : smooth l received s c o = some (a,t)) :
    c.fails = false ∧ c.download.succeeded = received ∧ s.exec l c o = some (a,t) := by
  unfold smooth at h
  split at h
  · cases h
  · rename_i fine
    simp only [not_or,Bool.not_eq_true,not_not] at fine
    exact ⟨fine.1,fine.2,h⟩

theorem smooth_reads (read : Device.reads o = true) (h : smooth l received s c o = some (a,t)) : t = s :=
  Device.exec_reads read (smooth_exec h).2.2

theorem smooth_getRow {a : Except VnidropError (Option TargetedTransferRow)}
    (h : smooth l received s c (.getRow id) = some (a,t)) : a = .ok (s.store.getRow id) ∧ t = s := by
  obtain ⟨fine,_,ran⟩ := smooth_exec h
  simp only [Device.exec,fine] at ran
  cases ran
  exact ⟨rfl,rfl⟩

theorem smooth_write {w : Write} {a : Except VnidropError Bool}
    (h : smooth l received s c (.write w) = some (a,t)) :
    (∃ e, w.run s.store c.now = .error e ∧ a = .error e ∧ t = s) ∨
    ∃ changed store, w.run s.store c.now = .ok (changed,store) ∧ a = .ok changed ∧ t = { s with store } := by
  obtain ⟨fine,_,ran⟩ := smooth_exec h
  simp only [Device.exec,fine] at ran
  cases wrote : w.run s.store c.now with
  | error e =>
    rw [wrote] at ran
    cases ran
    exact .inl ⟨e,rfl,rfl,rfl⟩
  | ok r =>
    rw [wrote] at ran
    cases ran
    exact .inr ⟨_,_,rfl,rfl,rfl⟩

/-- Every operation of the receive goes on under some choice. -/
def proceeds : Op → Bool
  | .ask _ | .getRow _ | .write _ | .load _ | .activate _ | .deactivate _ => true
  | .download | .send .. | .await .. => true
  | _ => false

theorem proceeds_some (goes : proceeds o = true) (s : Device) :
    ∃ c a t, smooth l received s c o = some (a,t) := by
  refine ⟨⟨0,false,false,0,none,⟨[],received⟩⟩,?_⟩
  have fine (o : Op) : smooth l received s ⟨0,false,false,0,none,⟨[],received⟩⟩ o =
      s.exec l ⟨0,false,false,0,none,⟨[],received⟩⟩ o := if_neg (by simp)
  rw [fine]
  cases o <;> try cases goes
  case write w =>
    simp only [Device.exec]
    cases w.run s.store 0 <;> exact ⟨_,_,rfl⟩
  case activate id =>
    simp only [Device.exec]
    split <;> exact ⟨_,_,rfl⟩
  all_goals exact ⟨_,_,rfl⟩

theorem proceeds_ends {α : Type} {p : Task α} (goes : p.All (proceeds · = true)) (s : Device) :
    ∃ a t, Alone (smooth l received) p s a t := by
  induction p generalizing s with
  | ret a => exact ⟨a,s,rfl,rfl⟩
  | step o k ih =>
    obtain ⟨c,r,u,ran⟩ := proceeds_some goes.1 s
    obtain ⟨a,t,rest⟩ := ih r (goes.2 r) u
    exact ⟨a,t,c,r,u,ran,rest⟩

theorem proceeds_kinds {α : Type} {p : Task α} {kinds : List Kind} (uses : Uses kinds p)
    (among : (kinds.all fun k => [.ask,.load,.advanceVerifiedBytes,.download,.send,.await].contains k) = true) :
    p.All (proceeds · = true) := by
  refine uses.all fun o used => ?_
  have there := List.all_eq_true.mp among _ (List.contains_iff_mem.mp used)
  cases o <;> first | rfl | cases there

theorem proceeds_receive : (receiveTargetedTransfer l id).All (proceeds · = true) := by
  have go {o : Op} (goes : proceeds o = true) : (op o).All (proceeds · = true) := Prog.all_perform goes
  unfold receiveTargetedTransfer loadReceiverAuthorization runTargetedReceive runRegisteredReceive
    beginReceive completeReceive interruptReceive setStateFromAny write
  repeat' first
    | exact trivial
    | exact go rfl
    | exact proceeds_kinds (loadAuthorization_uses _) rfl
    | exact proceeds_kinds receivePayload_uses rfl
    | exact proceeds_kinds (acknowledgeCompletion_uses _) rfl
    | refine Prog.all_bind ?_ fun _ => ?_
    | split

theorem proceeds_resume : (resumeTargetedTransfer l id).All (proceeds · = true) := by
  refine Prog.all_bind (Prog.all_perform rfl) fun answer => ?_
  rcases answer with e | _ | row
  · trivial
  · trivial
  · change Prog.All _ (if row.state.resumable then _ else _)
    split
    · exact proceeds_receive
    · trivial

/-- The transfer of `row` has reached `state`, with its secret where it was. -/
structure Reached (id : TransferId) (row : TargetedTransferRow) (state : TargetedTransferState)
    (custody : Handle → Option Text) (s : Device) : Prop where
  row : ∃ row', s.store.getRow id = some row' ∧ Carries row row' state
  custody : s.custody = custody

section Steps

variable {custody : Handle → Option Text} {w : Write} {dst : TargetedTransferState}
  {a : Except VnidropError Bool}

theorem Reached.refl (here : s.store.getRow id = some row) : Reached id row row.state s.custody s :=
  ⟨⟨row,here,⟨rfl,rfl,rfl,rfl,rfl,rfl,rfl⟩⟩,rfl⟩

/-- A statement that succeeds on such a row leaves the columns that say which transfer it is. -/
theorem reached_write (reached : Reached id row state custody s)
    (succeeds : ∀ row' now, s.store.getRow id = some row' → Carries row row' state →
      ∃ changed store, w.run s.store now = .ok (changed,store))
    (writes : ∀ row' now, Carries row row' state →
      ∃ r, w.onRow now id (some row') = some r ∧ Carries row r dst)
    (h : smooth l received s c (.write w) = some (a,t)) :
    (∃ changed, a = .ok changed) ∧ Reached id row dst custody t := by
  obtain ⟨⟨row',here,carries⟩,kept⟩ := reached
  rcases smooth_write h with ⟨e,failed,_⟩ | ⟨changed,store,wrote,rfl,rfl⟩
  · obtain ⟨_,_,wrote⟩ := succeeds row' c.now here carries
    cases failed.symm.trans wrote
  · obtain ⟨r,after,carries⟩ := writes row' c.now carries
    exact ⟨⟨changed,rfl⟩,⟨r,(run_getRow wrote id).trans (here ▸ after),carries⟩,kept⟩

theorem Carries.to {r : TargetedTransferRow} (carries : Carries row r state) (dst : TargetedTransferState)
    (now : Millis) (bytes : Nat) :
    Carries row { r with state := dst, verifiedBytes := bytes, updatedAt := now } dst :=
  { carries with state := rfl }

theorem reached_move (reached : Reached id row state custody s) (valid : state.allowed dst = true)
    (h : smooth l received s c (.write (.setState id state dst)) = some (a,t)) :
    (∃ changed, a = .ok changed) ∧ Reached id row dst custody t := by
  refine reached_write reached (fun row' now here carries => ?_) (fun row' now carries => ?_) h
  · obtain ⟨next,set⟩ := setState_succeeds here (carries.state ▸ valid) now
    exact ⟨true,next,by rw [Write.run,← carries.state,set]; rfl⟩
  · refine ⟨_,?_,carries.to dst now row'.verifiedBytes⟩
    simp [Write.onRow,carries.state]

theorem reached_interrupt (reached : Reached id row .transferring custody s)
    (h : smooth l received s c (.write (.updateState id .transferring .interrupted)) = some (a,t)) :
    (∃ changed, a = .ok changed) ∧ Reached id row .interrupted custody t := by
  refine reached_write reached (fun row' now here carries => ?_) (fun row' now carries => ?_) h
  · obtain ⟨next,updated⟩ := updateState_succeeds here .interrupted now
    rw [carries.state] at updated
    exact ⟨true,next,by rw [Write.run,updated]; rfl⟩
  · refine ⟨_,?_,carries.to .interrupted now row'.verifiedBytes⟩
    simp [Write.onRow,carries.state]

theorem reached_complete (receiver : row.role = .receiver) (reached : Reached id row .transferring custody s)
    {bytes : Nat} (h : smooth l received s c (.write (.completeReceiver id bytes)) = some (a,t)) :
    (∃ changed, a = .ok changed) ∧ Reached id row .completed custody t := by
  refine reached_write reached (fun row' now here carries => ?_) (fun row' now carries => ?_) h
  · obtain ⟨next,completed⟩ := completeReceiver_succeeds here (carries.role.trans receiver) carries.state bytes now
    exact ⟨true,next,by rw [Write.run,completed]; rfl⟩
  · refine ⟨_,?_,carries.to .completed now bytes⟩
    simp [Write.onRow,carries.state,carries.role.trans receiver]

theorem reached_advance (reached : Reached id row state custody s)
    {bytes : Nat} (h : smooth l received s c (.write (.advanceVerifiedBytes id bytes)) = some (a,t)) :
    (∃ changed, a = .ok changed) ∧ Reached id row state custody t := by
  refine reached_write reached (fun row' now here carries => ⟨_,_,rfl⟩) (fun row' now carries => ?_) h
  simp only [Write.onRow,if_true,Option.map_some]
  split
  · exact ⟨_,rfl,{ carries with state := carries.state }⟩
  · exact ⟨_,rfl,carries⟩

theorem reached_clear (reached : Reached id row state custody s)
    (h : smooth l received s c (.write (.clearPendingCompletion id)) = some (a,t)) :
    (∃ changed, a = .ok changed) ∧ Reached id row state custody t :=
  reached_write reached (fun _ _ _ _ => ⟨_,_,rfl⟩) (fun row' _ carries => ⟨row',rfl,carries⟩) h

end Steps

section Ends

variable {custody : Handle → Option Text} {auth : TargetedAuthorization} {b : Bool}

/-- What asks, sends and waits leaves the tables and the secrets. -/
theorem reached_aside {α : Type} {p : Task α} {r : α} (uses : Uses notifies p)
    (reached : Reached id row state custody s) (run : Alone (smooth l received) p s r t) :
    Reached id row state custody t := by
  refine alone_related (R := fun s t => Reached id row state custody s → Reached id row state custody t)
    (fun _ h => h) (fun _ _ _ f g h => g (f h)) (fun o used s c a u ran reached => ?_) uses run reached
  have done := (smooth_exec ran).2.2
  clear ran
  cases o <;> try cases used
  case ask | await => exact Device.exec_reads rfl done ▸ reached
  case send =>
    cases done
    exact ⟨reached.row,reached.custody⟩
  case write w => cases w <;> cases used

theorem advanceEach_alone {progress : List Nat} (reached : Reached id row state custody s)
    (run : Alone (smooth l received) (advanceEach id progress) s b t) :
    b = true ∧ Reached id row state custody t := by
  induction progress generalizing s with
  | nil =>
    obtain ⟨rfl,rfl⟩ := alone_pure.mp run
    exact ⟨rfl,reached⟩
  | cons bytes progress ih =>
    obtain ⟨_,a,u,wrote,rest⟩ := alone_perform.mp run
    obtain ⟨⟨changed,rfl⟩,reached⟩ := reached_advance reached wrote
    exact ih reached rest

theorem payload_alone (reached : Reached id row state custody s)
    (run : Alone (smooth l received) (receiveTargetedPayload id) s b t) :
    b = received ∧ Reached id row state custody t := by
  obtain ⟨c,download,u,ran,run⟩ := alone_perform.mp run
  obtain ⟨_,succeeded,answered⟩ := smooth_exec ran
  obtain rfl := smooth_reads rfl ran
  cases answered
  obtain ⟨advanced,v,each,run⟩ := alone_bind.mp run
  obtain ⟨rfl,reached⟩ := advanceEach_alone reached each
  obtain ⟨rfl,rfl⟩ := alone_pure.mp run
  exact ⟨by rw [Bool.true_and,succeeded],reached⟩

theorem begin_alone (starts : row.state = .approved ∨ row.state = .interrupted)
    (reached : Reached id row row.state custody s)
    (run : Alone (smooth l received) (beginReceive id) s b t) :
    b = true ∧ Reached id row .transferring custody t := by
  obtain ⟨c,found,u,read,run⟩ := alone_perform.mp run
  obtain ⟨rfl,rfl⟩ := smooth_getRow read
  obtain ⟨row',here,carries⟩ := reached.row
  rw [here] at run
  change Alone _ (if row'.state = .approved ∨ row'.state = .interrupted then _ else _) u b t at run
  rw [carries.state,if_pos starts] at run
  obtain ⟨_,a,v,wrote,run⟩ := alone_perform.mp run
  have valid : row.state.allowed .connecting = true := by
    rcases starts with here | here <;> (rw [here]; rfl)
  obtain ⟨⟨changed,rfl⟩,reached⟩ := reached_move reached valid wrote
  obtain ⟨_,a,w,wrote,run⟩ := alone_perform.mp run
  obtain ⟨⟨changed,rfl⟩,reached⟩ := reached_move reached rfl wrote
  obtain ⟨rfl,rfl⟩ := alone_pure.mp run
  exact ⟨rfl,reached⟩

theorem complete_alone (same : auth.transferId = id) (receiver : row.role = .receiver)
    (reached : Reached id row .transferring custody s)
    (run : Alone (smooth l received) (completeReceive auth) s () t) : Reached id row .completed custody t := by
  subst same
  obtain ⟨c,found,u,read,run⟩ := alone_perform.mp run
  obtain ⟨rfl,rfl⟩ := smooth_getRow read
  obtain ⟨row',here,carries⟩ := reached.row
  rw [here] at run
  obtain ⟨_,a,v,wrote,run⟩ := alone_perform.mp run
  obtain ⟨⟨changed,rfl⟩,reached⟩ := reached_complete receiver reached wrote
  obtain ⟨acknowledged,w,told,run⟩ := alone_bind.mp run
  have reached := reached_aside (acknowledgeCompletion_uses auth) reached told
  cases acknowledged with
  | false =>
    obtain ⟨_,rfl⟩ := alone_pure.mp run
    exact reached
  | true =>
    obtain ⟨_,a,x,wrote,run⟩ := alone_perform.mp run
    obtain ⟨_,rfl⟩ := alone_pure.mp run
    exact (reached_clear reached wrote).2

theorem interrupt_alone (reached : Reached id row .transferring custody s)
    (run : Alone (smooth l received) (interruptReceive id) s () t) : Reached id row .interrupted custody t := by
  obtain ⟨c,found,u,read,run⟩ := alone_perform.mp run
  obtain ⟨rfl,rfl⟩ := smooth_getRow read
  obtain ⟨row',here,carries⟩ := reached.row
  rw [here] at run
  change Alone _ (if row'.state = .connecting ∨ row'.state = .transferring then _ else _) u () t at run
  rw [if_pos (.inr carries.state)] at run
  obtain ⟨r,v,recovered,run⟩ := alone_bind.mp run
  obtain ⟨_,rfl⟩ := alone_pure.mp run
  obtain ⟨c,found,w,read,recovered⟩ := alone_perform.mp recovered
  obtain ⟨rfl,rfl⟩ := smooth_getRow read
  have moves : Store.setStateFromAnyRead (w.store.getRow id) .interrupted = .ok (some .transferring) := by
    rw [here]
    simp only [Store.setStateFromAnyRead,carries.state]
    rfl
  dsimp only at recovered
  rw [moves] at recovered
  obtain ⟨_,a,x,wrote,rest⟩ := alone_perform.mp recovered
  obtain ⟨⟨changed,rfl⟩,reached⟩ := reached_interrupt reached wrote
  obtain ⟨_,rfl⟩ := alone_pure.mp rest
  exact reached

/-- Where a receive of an approved or interrupted transfer ends. -/
theorem receive_ends (ready : Ready l id s row)
    (starts : row.state = .approved ∨ row.state = .interrupted)
    (run : Alone (smooth l received) (receiveTargetedTransfer l id) s () t) :
    ∃ row', Ready l id t row' ∧ Carries row row' (if received then .completed else .interrupted) := by
  obtain rfl : row.id = id := Table.find_key ready.here
  obtain ⟨blobTicket,hash,ticket,parsed⟩ := ready.ticket
  obtain ⟨handle,material,held,kept⟩ := ready.secret
  obtain ⟨found,u,loaded,run⟩ := alone_bind.mp run
  -- the row and its secret are there
  obtain ⟨c,read,v,ran,loaded⟩ := alone_perform.mp loaded
  obtain ⟨rfl,rfl⟩ := smooth_getRow ran
  rw [ready.here] at loaded
  obtain ⟨answer,w,load,loaded⟩ := alone_bind.mp loaded
  rw [loadAuthorization_held held ticket] at load
  obtain ⟨c,secret,x,ran,load⟩ := alone_perform.mp load
  obtain ⟨fine,_,ran⟩ := smooth_exec ran
  simp only [Device.exec,fine,kept] at ran
  cases ran
  obtain ⟨rfl,rfl⟩ := alone_pure.mp load
  obtain ⟨same,rfl⟩ := alone_pure.mp loaded
  have ours : found = some (reconstructAuthorization l.protocolVersion row blobTicket material) :=
    same.symm.trans (Option.filter_some_pos (decide_eq_true ready.addressed))
  subst ours
  -- it is registered, and run
  obtain ⟨c,activated,w,ran,run⟩ := alone_perform.mp run
  have registering := (smooth_exec ran).2.2
  simp only [Device.exec,reconstructAuthorization,ready.idle] at registering
  cases registering
  obtain ⟨_,x,registered,run⟩ := alone_bind.mp run
  have reached : Reached row.id row row.state v.custody (v.setActive row.id true) :=
    ⟨(Reached.refl ready.here).row,rfl⟩
  have ended : Reached row.id row (if received then .completed else .interrupted) v.custody x := by
    obtain ⟨begun,y,began,registered⟩ := alone_bind.mp registered
    obtain ⟨rfl,reached⟩ := begin_alone starts reached began
    rw [if_pos rfl] at registered
    simp only [reconstructAuthorization,parsed] at registered
    obtain ⟨got,z,downloaded,registered⟩ := alone_bind.mp registered
    obtain ⟨rfl,reached⟩ := payload_alone reached downloaded
    cases got with
    | true => exact complete_alone rfl ready.receiver reached registered
    | false => exact interrupt_alone reached registered
  obtain ⟨c,_,y,ran,run⟩ := alone_perform.mp run
  obtain ⟨_,rfl⟩ := alone_pure.mp run
  have unregistering := (smooth_exec ran).2.2
  cases unregistering
  obtain ⟨row',here,carries⟩ := ended.row
  refine ⟨row',⟨here,carries.role.trans ready.receiver,carries.receiverEndpointId.trans ready.addressed,
    ⟨blobTicket,hash,carries.blobTicket.trans ticket,parsed⟩,
    ⟨handle,material,carries.handle.trans held,(congrFun ended.custody handle).trans kept⟩,?_⟩,carries⟩
  exact Function.update_self ..

theorem resume_ends (ready : Ready l id s row)
    (starts : row.state = .approved ∨ row.state = .interrupted)
    (run : Alone (smooth l received) (resumeTargetedTransfer l id) s () t) :
    ∃ row', Ready l id t row' ∧ Carries row row' (if received then .completed else .interrupted) := by
  obtain ⟨c,found,u,read,run⟩ := alone_perform.mp run
  obtain ⟨rfl,rfl⟩ := smooth_getRow read
  rw [ready.here] at run
  change Alone _ (if row.state.resumable then _ else _) u () t at run
  have resumes : row.state.resumable = true := by
    rcases starts with here | here <;> (rw [here]; rfl)
  rw [if_pos resumes] at run
  exact receive_ends ready starts run

end Ends

end Runs

/-! The resume. -/

/-- A receive into `d` has published the first `k` entries, and has perhaps begun with the
next, when it is interrupted: it leaves the device `s` and the directory `d'`. -/
structure Interrupted (l : Local) (limits : CoreLimits) (id : TransferId) (p : Payload) (d : Directory)
    (k : Nat) (s : Device) (d' : Directory) : Prop where
  received : ∃ before row, Ready l id before row ∧ (row.state = .approved ∨ row.state = .interrupted) ∧
    checkPayload limits row.fileCount row.totalSize p.sizes = none ∧
    Alone (smooth l false) (receiveTargetedTransfer l id) before () s
  published : ∃ left, exportCollectionUntracked limits d (p.entries.take k) = (left,none) ∧
    ∃ e, p.entries[k]? = some e ∧ (d' = left ∨ d' = left.begun e)

/-- The resume into `d` ends with the transfer completed, and every file is there. -/
def Completes (l : Local) (limits : CoreLimits) (id : TransferId) (p : Payload) (s : Device)
    (d : Directory) : Prop :=
  ∃ row, s.store.getRow id = some row ∧
    let downloaded := downloadTargetedPayload limits row.fileCount row.totalSize p d
    (∃ t, Alone (smooth l downloaded.2.isNone) (resumeTargetedTransfer l id) s () t) ∧
    ∀ t, Alone (smooth l downloaded.2.isNone) (resumeTargetedTransfer l id) s () t →
      (∃ r, t.store.getRow id = some r ∧ r.state = .completed) ∧
      ∀ e ∈ p.entries, components e.1 ∈ downloaded.1.out.files ∧
        downloaded.1.bytes (components e.1) = some e.2

section Resume

variable {l : Local} {limits : CoreLimits} {id : TransferId} {p : Payload} {d d' : Directory} {k : Nat}
  {s : Device}

/-- The directory of the first entry is in the way of none that keeps apart from it. -/
theorem exportable_begun {out : Output} {entries : List Entry} {e : Entry} (first : entries[0]? = some e) :
    Exportable limits ⟨out.files,(components e.1).dropLast :: out.dirs⟩ entries ↔
      Exportable limits out entries := by
  constructor
  · rintro ⟨each,apart⟩
    exact ⟨fun f there => { each f there with
      free := ⟨(each f there).free.files,fun dir made => (each f there).free.dirs dir (List.mem_cons_of_mem _ made)⟩ },
      apart⟩
  · rintro ⟨each,apart⟩
    refine ⟨fun f there => { each f there with
      free := ⟨(each f there).free.files,List.forall_mem_cons.mpr ⟨fun below => ?_,(each f there).free.dirs⟩⟩ },apart⟩
    cases entries with
    | nil => cases there
    | cons e' entries =>
      cases Option.some.inj first
      rcases List.mem_cons.mp there with rfl | there
      · exact not_below_self (each f List.mem_cons_self).nonempty below
      · exact (List.pairwise_cons.mp apart).1 f there (.inr (below.trans (List.dropLast_prefix _)))

/-- All that the resume meets is the export of the whole collection. -/
theorem completes_exported (was : Interrupted l limits id p d k s d') :
    Completes l limits id p s d' ↔ (exportCollectionUntracked limits d' p.entries).2 = none := by
  obtain ⟨before,row₀,ready₀,starts,checked,run₀⟩ := was.received
  obtain ⟨row,ready,carries⟩ := receive_ends ready₀ starts run₀
  have interrupted : row.state = .approved ∨ row.state = .interrupted := .inr carries.state
  rw [← carries.fileCount,← carries.totalSize] at checked
  have downloaded : downloadTargetedPayload limits row.fileCount row.totalSize p d' =
      ((exportCollectionUntracked limits d' p.entries).1,
        (exportCollectionUntracked limits d' p.entries).2.map .exported) := by
    simp only [downloadTargetedPayload,checked]
  constructor
  · rintro ⟨row',here,⟨t,run⟩,every⟩
    cases ready.here.symm.trans here
    obtain ⟨⟨r,there,completed⟩,_⟩ := every t run
    obtain ⟨r',after,carried⟩ := resume_ends ready interrupted run
    cases after.here.symm.trans there
    rw [downloaded] at carried
    cases error : (exportCollectionUntracked limits d' p.entries).2 with
    | none => rfl
    | some e =>
      have stopped := carried.state
      rw [completed,error] at stopped
      cases stopped
  · intro done
    refine ⟨row,ready.here,?_⟩
    rw [downloaded,done]
    refine ⟨?_,fun t run => ⟨?_,fun e there => export_writes done there⟩⟩
    · obtain ⟨_,t,run⟩ : ∃ a t, Alone (smooth l true) (resumeTargetedTransfer l id) s a t :=
        proceeds_ends proceeds_resume s
      exact ⟨t,run⟩
    · obtain ⟨r,after,carried⟩ := resume_ends ready interrupted run
      exact ⟨r,after.here,carried.state⟩

/-- The resume completes exactly when nothing has been published and every entry has a free
place of its own. -/
theorem resume_completes_iff (was : Interrupted l limits id p d k s d') :
    Completes l limits id p s d' ↔ k = 0 ∧ Exportable limits d.out p.entries := by
  rw [completes_exported was,export_iff]
  obtain ⟨left,published,e,next,shape⟩ := was.published
  have files : d'.out.files = left.out.files := by rcases shape with rfl | rfl <;> rfl
  by_cases none_yet : k = 0
  · subst none_yet
    obtain rfl : d = left := (Prod.mk.inj published).1
    rw [and_iff_right rfl]
    rcases shape with rfl | rfl
    · rfl
    · exact exportable_begun next
  · -- the first entry is there already
    refine ⟨fun able => ?_,fun both => absurd both.1 none_yet⟩
    cases entries : p.entries with
    | nil =>
      rw [entries] at next
      cases next
    | cons first rest =>
      have taken : first ∈ p.entries.take k := by
        rw [entries]
        cases k with
        | zero => exact absurd rfl none_yet
        | succ k => exact List.mem_cons_self
      have there := (export_writes (by rw [published]) taken).1
      rw [published,← files] at there
      exact absurd List.prefix_rfl
        ((able.each first (entries ▸ List.mem_cons_self)).free.files _ there)

end Resume

/-! Two files of one byte, received by device 2. -/
namespace Sample

def limits : CoreLimits := Imports.Sample.limits

def payload : Payload := ⟨20,[(['a'],[1]),(['b'],[2])]⟩

def receiver : Local := ⟨2,1,10,100,8,id,some⟩

def row (state : TargetedTransferState) : TargetedTransferRow :=
  ⟨7,7,1,2,3,3,5,2,2,0,some 3,some 9,.receiver,state,0,0⟩

def before : Device :=
  { Device.new with
    store := { Device.new.store with transfers := ⟨[row .approved],List.nodup_singleton _⟩ }
    custody := fun h => if h = 9 then some 4 else none
    handles := [9] }

/-- The store does not fail, and nobody can be reached. -/
def course (_ : Nat) : Choice := ⟨0,false,false,0,none,⟨[],false⟩⟩

/-- The receive of the approved transfer has been interrupted. -/
def after : Device :=
  ((play (smooth receiver false) course (receiveTargetedTransfer receiver 7) before 0).getD ((),before)).2

/-- The output directory after the first `k` files. -/
def directory (k : Nat) : Directory :=
  (exportCollectionUntracked limits ⟨⟨[],[]⟩,fun _ => none⟩ (payload.entries.take k)).1

theorem ready : Ready receiver 7 before (row .approved) :=
  ⟨rfl,rfl,rfl,⟨3,3,rfl,rfl⟩,⟨9,4,rfl,rfl⟩,rfl⟩

theorem received : Alone (smooth receiver false) (receiveTargetedTransfer receiver 7) before () after := by
  have ends : (play (smooth receiver false) course (receiveTargetedTransfer receiver 7) before 0).isSome := by
    decide +kernel
  obtain ⟨⟨u,d⟩,played⟩ := Option.isSome_iff_exists.mp ends
  rw [after,played]
  exact alone_of_play played

theorem interrupted {k : Nat} {e : Entry} (next : payload.entries[k]? = some e)
    (published : exportCollectionUntracked limits (directory 0) (payload.entries.take k) = (directory k,none)) :
    Interrupted receiver limits 7 payload (directory 0) k after (directory k) :=
  ⟨⟨before,row .approved,ready,.inl rfl,by decide,received⟩,directory k,published,e,next,.inl rfl⟩

theorem exportable : Exportable limits (directory 0).out payload.entries :=
  export_iff.mp (show (exportCollectionUntracked limits (directory 0) payload.entries).2 = none by decide)

end Sample

open Targeted.Resumed.Sample

/-- Nothing was published before. -/
theorem resume_completes_unpublished : Completes receiver limits 7 payload after (directory 0) :=
  (resume_completes_iff (interrupted (k := 0) rfl rfl)).mpr ⟨rfl,exportable⟩

/-- The first of two files was published before: the resume fails on its name. -/
theorem resume_refuses_published : Interrupted receiver limits 7 payload (directory 0) 1 after (directory 1) ∧
    ¬Completes receiver limits 7 payload after (directory 1) := by
  have was : Interrupted receiver limits 7 payload (directory 0) 1 after (directory 1) := interrupted rfl rfl
  exact ⟨was,fun completes => absurd ((completes_exported was).mp completes) (by decide)⟩

end Vnidrop.Targeted.Resumed
