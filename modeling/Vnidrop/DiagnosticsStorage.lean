import Vnidrop.Programs
import Vnidrop.Tables
import Vnidrop.Values
import Mathlib

/-! `storeBug` of the diagnostics service: its logs are uploaded before the row that names them
is inserted, and the attempt that does not insert the row removes what it has uploaded. -/
namespace Vnidrop.Diagnostics

open Tables Programs Runs

abbrev ReportId := Nat

/-- `bugs/${id}/${uuid}/logs.txt`. -/
structure LogsKey where
  id : ReportId
  uuid : Nat
  deriving DecidableEq, Repr

/-- `device` stands for the JSON text of the device. -/
structure NormalizedBugPayload where
  id : ReportId
  installId : Text
  appVersion : Text
  platform : Text
  occurredAt : Millis
  whatHappened : Text
  expected : Text
  steps : Text
  contact : Text
  logs : String
  device : Text
  schemaVersion : Nat
  deriving DecidableEq, Repr

/-- A row of `bugs`. -/
structure Bug where
  id : ReportId
  receivedAt : Millis
  occurredAt : Millis
  installId : Text
  appVersion : Text
  platform : Text
  whatHappened : Text
  expected : Text
  steps : Text
  contact : Text
  logsR2Key : Option LogsKey
  deviceJson : Text
  status : String
  schemaVersion : Nat
  deriving DecidableEq, Repr

/-- An object of the bucket, with its custom metadata. -/
structure Blob where
  key : LogsKey
  body : String
  installId : Text
  deriving DecidableEq, Repr

structure StoreResult where
  id : ReportId
  duplicate : Bool
  stored : Nat
  deriving DecidableEq, Repr

/-- The database, the bucket, and the UUIDs drawn so far. -/
structure Storage where
  bugs : Table Bug.id
  blobs : Table Blob.key
  drawn : Nat
  /-- History: the call that uploaded a key, and the one that inserted a row. -/
  uploader : LogsKey → Option Nat
  inserter : ReportId → Option Nat
  replies : List (Nat × Except Unit StoreResult)

inductive Op where
  | select (id : ReportId)
  | put (id : ReportId) (logs : String) (installId : Text)
  | insert (p : NormalizedBugPayload) (logsKey : Option LogsKey)
  | delete (key : LogsKey)
  | reply (r : Except Unit StoreResult)

abbrev Ans : Op → Type
  | .select _ => Except Unit Bool
  | .put .. => LogsKey
  | .insert .. => Except Unit Nat
  | .delete _ | .reply _ => Unit

/-- How a statement of the database ends: it returns, it throws and has done nothing, or it
throws although it has been committed. -/
inductive Outcome where
  | returned
  | rejected
  | lost
  deriving DecidableEq, Repr

structure Choice where
  now : Millis
  outcome : Outcome
  deriving DecidableEq

abbrev Task (α : Type) := Prog Op Ans α

def op (o : Op) : Task (Ans o) := Prog.perform o

/-- The upload of `storeBug`; an empty text is no logs. -/
def uploadLogs (p : NormalizedBugPayload) : Task (Option LogsKey) :=
  if p.logs = "" then return none
  else do
    let key ← op (.put p.id p.logs p.installId)
    return some key

def deleteAttemptBlob : Option LogsKey → Task Unit
  | some key => op (.delete key)
  | none => return ()

def storeBug (p : NormalizedBugPayload) : Task (Except Unit StoreResult) :=
  Prog.andThen (op (.select p.id)) fun existing =>
    if existing then return .ok ⟨p.id,true,0⟩
    else do
      let logsKey ← uploadLogs p
      match ← op (.insert p logsKey) with
      | .ok changes => do
        let duplicate : Bool := changes = 0
        if duplicate then deleteAttemptBlob logsKey
        return .ok ⟨p.id,duplicate,if duplicate then 0 else 1⟩
      | .error e => do
        deleteAttemptBlob logsKey
        return .error e

def body (p : NormalizedBugPayload) : Task Unit := do
  let result ← storeBug p
  op (.reply result)

def bug (p : NormalizedBugPayload) (logsKey : Option LogsKey) (now : Millis) : Bug where
  id := p.id
  receivedAt := now
  occurredAt := p.occurredAt
  installId := p.installId
  appVersion := p.appVersion
  platform := p.platform
  whatHappened := p.whatHappened
  expected := p.expected
  steps := p.steps
  contact := p.contact
  logsR2Key := logsKey
  deviceJson := p.device
  status := "open"
  schemaVersion := p.schemaVersion

namespace Storage

/-- `INSERT … ON CONFLICT(id) DO NOTHING`, with the number of rows it has added. -/
def insertBug (s : Storage) (i : Nat) (p : NormalizedBugPayload) (logsKey : Option LogsKey) (now : Millis) :
    Nat × Storage :=
  match s.bugs.insert (bug p logsKey now) with
  | some bugs => (1,{ s with bugs, inserter := Function.update s.inserter p.id (some i) })
  | none => (0,s)

/-- One operation of call `i`. A UUID is not drawn twice; the bucket does what it is asked. -/
def exec (s : Storage) (i : Nat) (c : Choice) : (o : Op) → Ans o × Storage
  | .select id =>
    (match c.outcome with
      | .returned => .ok (s.bugs.find id).isSome
      | _ => .error (),s)
  | .put id logs installId =>
    let key : LogsKey := ⟨id,s.drawn⟩
    (key,{ s with
      blobs := s.blobs.insertOrIgnore ⟨key,logs,installId⟩
      drawn := s.drawn + 1
      uploader := Function.update s.uploader key (some i) })
  | .insert p logsKey =>
    match c.outcome with
    | .returned =>
      let (changes,s) := s.insertBug i p logsKey c.now
      (.ok changes,s)
    | .rejected => (.error (),s)
    | .lost => (.error (),(s.insertBug i p logsKey c.now).2)
  | .delete key => ((),{ s with blobs := s.blobs.delete key })
  | .reply r => ((),{ s with replies := s.replies ++ [(i,r)] })

/-- The logs of a stored row. -/
def Named (s : Storage) (key : LogsKey) : Prop :=
  ∃ id row, s.bugs.find id = some row ∧ row.logsR2Key = some key

def Held (s : Storage) (key : LogsKey) : Prop := s.blobs.find key ≠ none

/-- What earlier calls have left: the bucket holds the logs of the rows and nothing else. -/
structure Clean (s : Storage) : Prop where
  exact : ∀ key, s.Held key ↔ s.Named key
  drawn : ∀ key, s.Held key → key.uuid < s.drawn
  uploader : ∀ key, s.uploader key = none
  inserter : ∀ id, s.inserter id = none
  replies : s.replies = []

end Storage

open Storage

def storeBugs : Machine Storage NormalizedBugPayload Op Ans Choice Empty where
  init := Clean
  admits _ _ := true
  body := body
  exec s i _ o c := some (s.exec i c o)
  env _ e := nomatch e

/-- What the stored reports owe their senders. -/
structure Kept (c : Conf Storage NormalizedBugPayload Op Ans) : Prop where
  single : ∀ row ∈ c.shared.bugs.rows, ∀ row' ∈ c.shared.bugs.rows, row.id = row'.id → row = row'
  held : ∀ key, c.shared.Named key → c.shared.Held key
  /-- Once all calls have returned there is no other blob. -/
  swept : (∀ t ∈ c.threads, t.rest.finished = true) → ∀ key, c.shared.Held key → c.shared.Named key
  inserter : ∀ i r, (i,.ok r) ∈ c.shared.replies → (r.stored = 1 ↔ c.shared.inserter r.id = some i)

/-- No statement that adds the row of a call with logs throws after it has been committed. -/
def honest : Guard Storage NormalizedBugPayload Op Choice Empty where
  starts _ _ := True
  steps s _ o c := match o with
    | .insert p (some _) => c.outcome = .lost → s.bugs.find p.id ≠ none
    | _ => True
  events _ _ := True

namespace Sample

def report : NormalizedBugPayload := ⟨1,2,3,4,5,6,7,8,9,"the logs",10,1⟩

def start : Conf Storage NormalizedBugPayload Op Ans :=
  ⟨⟨.empty,.empty,0,fun _ => none,fun _ => none,[]⟩,[]⟩

def good : Choice := ⟨11,.returned⟩

/-- One call, whose insert is committed and throws. -/
def lostReply : List (Label NormalizedBugPayload Choice Empty) :=
  [.fork report,.act 0 good,.act 0 good,.act 0 ⟨11,.lost⟩,.act 0 good,.act 0 good]

def lost : Conf Storage NormalizedBugPayload Op Ans := (storeBugs.system.run start lostReply).getD start

theorem start_clean : storeBugs.system.init start := by
  refine ⟨⟨fun key => ?_,fun key held => absurd rfl held,fun _ => rfl,fun _ => rfl,rfl⟩,rfl⟩
  constructor
  · exact fun held => absurd rfl held
  · rintro ⟨_,_,found,_⟩
    cases found

end Sample

open Sample in
/-- The stored row names logs that its own attempt has removed. -/
theorem committed_logs_removed : ∃ c, Reach storeBugs.system Always c ∧ ¬Kept c ∧
    c.shared.bugs.rows.map (fun row => (row.id,row.logsR2Key)) = [(1,some ⟨1,0⟩)] ∧
    c.shared.blobs.rows = [] ∧ ∀ t ∈ c.threads, t.rest.finished = true := by
  have ran : storeBugs.system.run start lostReply = some lost := rfl
  refine ⟨lost,.of_run start_clean ran,fun kept => ?_,rfl,rfl,by decide⟩
  have named : lost.shared.Named ⟨1,0⟩ := ⟨1,bug report (some ⟨1,0⟩) 11,rfl,rfl⟩
  exact kept.held _ named rfl

/-! What is kept while no such statement throws. -/

/-- The rows have their logs; every other blob is of an attempt, which has drawn its key. -/
structure Consistent (s : Storage) : Prop where
  held : ∀ key, s.Named key → s.Held key
  owned : ∀ key, s.Held key → s.Named key ∨ s.uploader key ≠ none
  drawn : ∀ key, s.Held key ∨ s.uploader key ≠ none → key.uuid < s.drawn
  inserted : ∀ id, s.inserter id ≠ none → s.bugs.find id ≠ none
  replies : ∀ i r, (i,.ok r) ∈ s.replies → (r.stored = 1 ↔ s.inserter r.id = some i)

/-- The uploads, the row and the answer of call `i` are left to it. -/
structure Apart (i : Nat) (s t : Storage) : Prop where
  own : ∀ key, s.uploader key = some i → t.uploader key = some i ∧ (t.Held key ↔ s.Held key) ∧
    (t.Named key ↔ s.Named key)
  mine : ∀ key, t.uploader key = some i → s.uploader key = some i
  inserter : ∀ id, t.inserter id = some i ↔ s.inserter id = some i
  replies : ∀ r, (i,r) ∈ t.replies → (i,r) ∈ s.replies

theorem apart_refl (i : Nat) (s : Storage) : Apart i s s :=
  ⟨fun _ own => ⟨own,Iff.rfl,Iff.rfl⟩,fun _ own => own,fun _ => Iff.rfl,fun _ there => there⟩

theorem apart_trans (i : Nat) {s t u : Storage} (first : Apart i s t) (second : Apart i t u) : Apart i s u where
  own key own := by
    obtain ⟨owned,held,named⟩ := first.own key own
    obtain ⟨owned',held',named'⟩ := second.own key owned
    exact ⟨owned',held'.trans held,named'.trans named⟩
  mine key own := first.mine key (second.mine key own)
  inserter id := (second.inserter id).trans (first.inserter id)
  replies r there := first.replies r (second.replies r there)

def terms : Terms Storage where
  known _ := True
  inv := Consistent
  rely := Apart
  refl := apart_refl
  trans := apart_trans

/-- Call `i` has uploaded the logs of `logsKey`, and neither inserted a row nor answered. -/
structure Attempting (i : Nat) (logsKey : Option LogsKey) (s : Storage) : Prop where
  only : ∀ key, s.uploader key = some i → logsKey = some key
  unnamed : ∀ key, logsKey = some key → s.uploader key = some i ∧ s.Held key ∧ ¬s.Named key
  inserter : ∀ id, s.inserter id ≠ some i
  replies : ∀ r, (i,r) ∉ s.replies

/-- What call `i` has uploaded is the logs of a row, or is gone. -/
def Swept (i : Nat) (s : Storage) : Prop := ∀ key, s.uploader key = some i → s.Held key → s.Named key

/-- Call `i` has only to answer. -/
structure Answering (i : Nat) (r : Except Unit StoreResult) (s : Storage) : Prop where
  swept : Swept i s
  replies : ∀ r, (i,r) ∉ s.replies
  result : ∀ result, r = .ok result → (result.stored = 1 ↔ s.inserter result.id = some i)

section Operations

variable {s t u : Storage} {i j : Nat} {p : NormalizedBugPayload} {logsKey : Option LogsKey} {now : Millis}
  {key : LogsKey} {r : Except Unit StoreResult}

theorem attempting_later (h : Attempting i logsKey s) (apart : Apart i s t) : Attempting i logsKey t where
  only key own := h.only key (apart.mine key own)
  unnamed key is := by
    obtain ⟨own,held,unnamed⟩ := h.unnamed key is
    obtain ⟨own',held',named'⟩ := apart.own key own
    exact ⟨own',held'.mpr held,fun named => unnamed (named'.mp named)⟩
  inserter id is := h.inserter id ((apart.inserter id).mp is)
  replies r there := h.replies r (apart.replies r there)

theorem swept_later (h : Swept i s) (apart : Apart i s t) : Swept i t := by
  intro key own held
  have before := apart.mine key own
  obtain ⟨_,held',named'⟩ := apart.own key before
  exact named'.mpr (h key before (held'.mp held))

theorem answering_later (h : Answering i r s) (apart : Apart i s t) : Answering i r t where
  swept := swept_later h.swept apart
  replies r there := h.replies r (apart.replies r there)
  result result is := (h.result result is).trans (apart.inserter result.id).symm

/-- An insert adds the row of an id that has none, or does nothing. -/
theorem insertBug_cases (s : Storage) (i : Nat) (p : NormalizedBugPayload) (logsKey : Option LogsKey)
    (now : Millis) : (s.bugs.find p.id ≠ none ∧ s.insertBug i p logsKey now = (0,s)) ∨
    ∃ bugs, s.bugs.find p.id = none ∧
      (∀ id, bugs.find id = if id = p.id then some (bug p logsKey now) else s.bugs.find id) ∧
      s.insertBug i p logsKey now =
        (1,{ s with bugs, inserter := Function.update s.inserter p.id (some i) }) := by
  unfold Storage.insertBug
  cases added : s.bugs.insert (bug p logsKey now) with
  | none =>
    refine .inl ⟨fun absent => ?_,rfl⟩
    have inserts : (s.bugs.insert (bug p logsKey now)).isSome := Table.insert_isSome.mpr absent
    rw [added] at inserts
    cases inserts
  | some bugs =>
    exact .inr ⟨bugs,Table.insert_isSome.mp (added ▸ rfl : (s.bugs.insert (bug p logsKey now)).isSome),
      Table.find_insert added,rfl⟩

/-- The rows with one more name its logs as well. -/
theorem named_added {bugs : Table Bug.id} (absent : s.bugs.find p.id = none)
    (added : ∀ id, bugs.find id = if id = p.id then some (bug p logsKey now) else s.bugs.find id)
    (inserter : ReportId → Option Nat) : ({ s with bugs, inserter } : Storage).Named key ↔
      s.Named key ∨ logsKey = some key := by
  constructor
  · rintro ⟨id,row,found,names⟩
    rw [show ({ s with bugs, inserter } : Storage).bugs.find id = _ from added id] at found
    split at found
    · cases found
      exact .inr names
    · exact .inl ⟨id,row,found,names⟩
  · rintro (⟨id,row,found,names⟩ | names)
    · refine ⟨id,row,?_,names⟩
      rw [show ({ s with bugs, inserter } : Storage).bugs.find id = _ from added id]
      split
      · rename_i same
        rw [same,absent] at found
        cases found
      · exact found
    · refine ⟨p.id,bug p logsKey now,?_,names⟩
      exact (added p.id).trans (if_pos rfl)

/-- The bucket after an upload under a new key. -/
theorem held_put {c : Choice} {id : ReportId} {logs : String} {installId : Text} :
    (s.exec i c (.put id logs installId)).2.Held key ↔ s.Held key ∨ key = ⟨id,s.drawn⟩ := by
  have after := Table.find_insertOrIgnore s.blobs (⟨⟨id,s.drawn⟩,logs,installId⟩ : Blob) key
  show (s.blobs.insertOrIgnore _).find key ≠ none ↔ _
  rw [after]
  by_cases same : key = ⟨id,s.drawn⟩
  · simp [same]
  · rw [if_neg same]
    exact ⟨.inl,fun h => h.resolve_right same⟩

theorem put_spec {c : Choice} {id : ReportId} {logs : String} {installId : Text} (inv : Consistent s)
    (h : Attempting i none s) (eq : u = (s.exec i c (.put id logs installId)).2) :
    Consistent u ∧ (∀ j, j ≠ i → Apart j s u) ∧ Attempting i (some ⟨id,s.drawn⟩) u := by
  have held (key : LogsKey) : u.Held key ↔ s.Held key ∨ key = ⟨id,s.drawn⟩ := eq ▸ held_put
  have named (key : LogsKey) : u.Named key ↔ s.Named key := by
    rw [eq]
    exact Iff.rfl
  have uploader (key : LogsKey) : u.uploader key = if key = ⟨id,s.drawn⟩ then some i else s.uploader key := by
    rw [eq]
    exact Function.update_apply _ _ _ _
  have drawn : u.drawn = s.drawn + 1 := by rw [eq]; rfl
  have fresh : ¬(s.Held ⟨id,s.drawn⟩ ∨ s.uploader ⟨id,s.drawn⟩ ≠ none) := fun old =>
    Nat.lt_irrefl _ (inv.drawn _ old)
  refine ⟨?_,fun j other => ?_,?_⟩
  · constructor
    · exact fun key is => (held key).mpr (.inl (inv.held key ((named key).mp is)))
    · intro key is
      rw [uploader,named]
      split
      · exact .inr (by simp)
      · rename_i different
        exact inv.owned key (((held key).mp is).resolve_right different)
    · intro key old
      rw [held,uploader] at old
      rw [drawn]
      split at old
      · rename_i same
        rw [same]
        exact Nat.lt_succ_self _
      · rename_i different
        exact Nat.lt_succ_of_lt (inv.drawn key (old.imp_left fun h => h.resolve_right different))
    · rw [eq]
      exact inv.inserted
    · rw [eq]
      exact inv.replies
  · constructor
    · intro key own
      have different : key ≠ ⟨id,s.drawn⟩ := fun same => fresh (.inr (by rw [← same,own]; simp))
      refine ⟨by rw [uploader,if_neg different]; exact own,?_,named key⟩
      rw [held]
      exact ⟨fun h => h.resolve_right different,.inl⟩
    · intro key own
      rw [uploader] at own
      split at own
      · exact absurd (Option.some.inj own).symm other
      · exact own
    · rw [eq]
      exact fun _ => Iff.rfl
    · rw [eq]
      exact fun _ there => there
  · constructor
    · intro key own
      rw [uploader] at own
      split at own
      · rename_i same
        rw [same]
      · cases h.only key own
    · rintro key is
      cases is
      refine ⟨by rw [uploader,if_pos rfl],(held _).mpr (.inr rfl),fun is => ?_⟩
      exact fresh (.inl (inv.held _ ((named _).mp is)))
    · rw [eq]
      exact h.inserter
    · rw [eq]
      exact h.replies

/-- An insert by an attempt: the row is its own from then on, or nothing has changed. -/
theorem insert_spec (inv : Consistent s) (h : Attempting i logsKey s)
    (eq : u = (s.insertBug i p logsKey now).2) :
    (Consistent u ∧ ∀ j, j ≠ i → Apart j s u) ∧
    (((s.insertBug i p logsKey now).1 = 0 ∧ u = s ∧ s.bugs.find p.id ≠ none) ∨
      ((s.insertBug i p logsKey now).1 = 1 ∧ s.bugs.find p.id = none ∧
        Answering i (.ok ⟨p.id,false,1⟩) u)) := by
  rcases insertBug_cases s i p logsKey now with ⟨present,same⟩ | ⟨bugs,absent,added,same⟩
  · rw [same] at eq ⊢
    cases eq
    exact ⟨⟨inv,fun j _ => apart_refl j _⟩,.inl ⟨rfl,rfl,present⟩⟩
  · rw [same] at eq ⊢
    have named (key : LogsKey) : u.Named key ↔ s.Named key ∨ logsKey = some key := by
      rw [eq]
      exact named_added absent added _
    have held (key : LogsKey) : u.Held key ↔ s.Held key := by rw [eq]; exact Iff.rfl
    have uploader : u.uploader = s.uploader := by rw [eq]
    have drawn : u.drawn = s.drawn := by rw [eq]
    have replies : u.replies = s.replies := by rw [eq]
    have inserter (id : ReportId) : u.inserter id = if id = p.id then some i else s.inserter id := by
      rw [eq]
      exact Function.update_apply _ _ _ _
    have unclaimed : s.inserter p.id = none := by
      by_contra claimed
      exact inv.inserted _ claimed absent
    refine ⟨⟨?_,fun j other => ?_⟩,.inr ⟨rfl,absent,?_⟩⟩
    · constructor
      · intro key is
        rw [held]
        rcases (named key).mp is with old | new
        · exact inv.held key old
        · exact (h.unnamed key new).2.1
      · intro key is
        rw [named,uploader]
        exact (inv.owned key ((held key).mp is)).imp_left .inl
      · intro key
        rw [held,uploader,drawn]
        exact inv.drawn key
      · intro id claimed
        rw [eq]
        show bugs.find id ≠ none
        rw [added]
        split
        · simp
        · rename_i different
          rw [inserter,if_neg different] at claimed
          exact inv.inserted id claimed
      · intro j r there
        rw [replies] at there
        rw [inv.replies j r there,inserter]
        split
        · rename_i same
          have different : some i ≠ some j := fun same => by
            cases same
            exact h.replies _ there
          rw [same,unclaimed]
          exact ⟨fun none => (by cases none),fun same => absurd same different⟩
        · rfl
    · constructor
      · intro key own
        refine ⟨by rw [uploader]; exact own,held key,?_⟩
        rw [named]
        refine ⟨fun is => is.resolve_right fun new => ?_,.inl⟩
        have mine := (h.unnamed key new).1
        exact other (Option.some.inj (own.symm.trans mine))
      · rw [uploader]
        exact fun _ own => own
      · intro id
        rw [inserter]
        split
        · rename_i same
          rw [same,unclaimed]
          exact ⟨fun eq => absurd (Option.some.inj eq).symm other,fun eq => (by cases eq)⟩
        · rfl
      · rw [replies]
        exact fun _ there => there
    · constructor
      · intro key own _
        rw [uploader] at own
        exact (named key).mpr (.inr (h.only key own))
      · rw [replies]
        exact h.replies
      · rintro result is
        cases is
        rw [inserter,if_pos rfl]
        exact ⟨fun _ => rfl,fun _ => rfl⟩

/-- An attempt that has nothing in the bucket may answer that it has stored nothing. -/
theorem attempting_answers (h : Attempting i none s) (nothing : ∀ result, r = .ok result → result.stored = 0) :
    Answering i r s where
  swept key own := by cases h.only key own
  replies := h.replies
  result result is := by
    rw [nothing result is]
    exact ⟨fun one => (by cases one),fun mine => absurd mine (h.inserter _)⟩

theorem delete_spec {c : Choice} (inv : Consistent s) (h : Attempting i (some key) s)
    (nothing : ∀ result, r = .ok result → result.stored = 0) (eq : u = (s.exec i c (.delete key)).2) :
    Consistent u ∧ (∀ j, j ≠ i → Apart j s u) ∧ Answering i r u := by
  obtain ⟨own,_,unnamed⟩ := h.unnamed key rfl
  have held (k : LogsKey) : u.Held k ↔ s.Held k ∧ k ≠ key := by
    rw [eq]
    show (s.blobs.delete key).find k ≠ none ↔ _
    rw [Table.find_delete]
    split
    · rename_i same
      exact ⟨fun gone => absurd rfl gone,fun both => absurd same both.2⟩
    · rename_i different
      exact ⟨fun there => ⟨there,different⟩,And.left⟩
  have named (k : LogsKey) : u.Named k ↔ s.Named k := by rw [eq]; exact Iff.rfl
  have uploader : u.uploader = s.uploader := by rw [eq]; rfl
  refine ⟨?_,fun j other => ?_,?_⟩
  · constructor
    · intro k is
      have was := (named k).mp is
      exact (held k).mpr ⟨inv.held k was,fun same => unnamed (same ▸ was)⟩
    · intro k is
      rw [named,uploader]
      exact inv.owned k ((held k).mp is).1
    · intro k old
      rw [held,uploader] at old
      rw [eq]
      exact inv.drawn k (old.imp_left And.left)
    · rw [eq]
      exact inv.inserted
    · rw [eq]
      exact inv.replies
  · constructor
    · intro k theirs
      refine ⟨by rw [uploader]; exact theirs,?_,named k⟩
      rw [held]
      refine ⟨And.left,fun there => ⟨there,fun same => ?_⟩⟩
      rw [same] at theirs
      exact other (Option.some.inj (theirs.symm.trans own))
    · rw [uploader]
      exact fun _ own => own
    · rw [eq]
      exact fun _ => Iff.rfl
    · rw [eq]
      exact fun _ there => there
  · constructor
    · intro k mine is
      rw [uploader] at mine
      exact absurd (Option.some.inj (h.only k mine)).symm ((held k).mp is).2
    · rw [eq]
      exact h.replies
    · intro result is
      rw [nothing result is,eq]
      exact ⟨fun one => (by cases one),fun mine => absurd mine (h.inserter _)⟩

theorem reply_spec {c : Choice} (inv : Consistent s) (h : Answering i r s)
    (eq : u = (s.exec i c (.reply r)).2) : Consistent u ∧ (∀ j, j ≠ i → Apart j s u) ∧ Swept i u := by
  have replies : u.replies = s.replies ++ [(i,r)] := by rw [eq]; rfl
  refine ⟨?_,fun j other => ?_,?_⟩
  · constructor
    · rw [eq]
      exact inv.held
    · rw [eq]
      exact inv.owned
    · rw [eq]
      exact inv.drawn
    · rw [eq]
      exact inv.inserted
    · intro j result there
      rw [replies] at there
      rcases List.mem_append.mp there with old | new
      · rw [eq]
        exact inv.replies j result old
      · cases List.mem_singleton.mp new
        rw [eq]
        exact h.result result rfl
  · constructor
    · rw [eq]
      exact fun _ own => ⟨own,Iff.rfl,Iff.rfl⟩
    · rw [eq]
      exact fun _ own => own
    · rw [eq]
      exact fun _ => Iff.rfl
    · intro r' there
      rw [replies] at there
      rcases List.mem_append.mp there with old | new
      · exact old
      · cases List.mem_singleton.mp new
        exact absurd rfl other
  · rw [eq]
    exact h.swept

end Operations

section Calls

variable {s t : Storage} {i : Nat} {p : NormalizedBugPayload} {logsKey : Option LogsKey}
  {r : Except Unit StoreResult} {call : NormalizedBugPayload}

theorem exec_eq {u : Storage} {o : Op} {c : Choice} {a : Ans o}
    (h : storeBugs.exec s i call o c = some (a,u)) : a = (s.exec i c o).1 ∧ u = (s.exec i c o).2 := by
  have eq := Option.some.inj h
  exact ⟨(congrArg Prod.fst eq).symm,(congrArg Prod.snd eq).symm⟩

/-- The attempt removes its blob, if it has one, before it answers that it stored nothing. -/
theorem safe_deleteAttemptBlob (h : Attempting i logsKey s)
    (nothing : ∀ result, r = .ok result → result.stored = 0) :
    Safe storeBugs honest terms i call (deleteAttemptBlob logsKey >>= fun _ => pure r)
      (fun r t => Answering i r t) s := by
  cases logsKey with
  | none => exact attempting_answers h nothing
  | some key =>
    refine safe_perform fun t _ inv rely choice _ u _ performed => ?_
    obtain ⟨consistent,apart,answering⟩ :=
      delete_spec inv (attempting_later h rely) nothing (exec_eq performed).2
    exact ⟨⟨consistent,apart⟩,answering⟩

/-- The part of `storeBug` from its insert on. -/
def finish (p : NormalizedBugPayload) (logsKey : Option LogsKey) : Task (Except Unit StoreResult) := do
  match ← op (.insert p logsKey) with
  | .ok changes => do
    let duplicate : Bool := changes = 0
    if duplicate then deleteAttemptBlob logsKey
    return .ok ⟨p.id,duplicate,if duplicate then 0 else 1⟩
  | .error e => do
    deleteAttemptBlob logsKey
    return .error e

theorem safe_finish (h : Attempting i logsKey s) :
    Safe storeBugs honest terms i call (finish p logsKey) (fun r t => Answering i r t) s := by
  refine safe_perform fun t _ inv rely choice r u honestly performed => ?_
  have now := attempting_later h rely
  obtain ⟨answer,after⟩ := exec_eq performed
  obtain ⟨time,outcome⟩ := choice
  cases inserted : t.insertBug i p logsKey time with
  | mk changes v =>
    obtain ⟨kept,fate⟩ := insert_spec inv now (congrArg Prod.snd inserted).symm
    rw [inserted] at fate
    cases outcome with
    | returned =>
      simp only [Storage.exec,inserted] at answer after
      subst answer after
      refine ⟨kept,?_⟩
      rcases fate with ⟨none,same,_⟩ | ⟨one,_,answering⟩
      · cases none
        subst same
        exact safe_deleteAttemptBlob now fun result is => by cases is; rfl
      · cases one
        exact answering
    | rejected =>
      simp only [Storage.exec] at answer after
      subst answer after
      refine ⟨⟨inv,fun j _ => apart_refl j u⟩,?_⟩
      exact safe_deleteAttemptBlob now fun result is => by cases is
    | lost =>
      simp only [Storage.exec,inserted] at answer after
      subst answer after
      refine ⟨kept,?_⟩
      rcases fate with ⟨_,same,_⟩ | ⟨_,absent,answering⟩
      · subst same
        exact safe_deleteAttemptBlob now fun result is => by cases is
      · -- the row was added, so there are no logs to remove
        cases logsKey with
        | none => exact ⟨answering.swept,answering.replies,fun result is => by cases is⟩
        | some key => exact absurd absent (honestly rfl)

theorem safe_storeBug (h : Attempting i none s) :
    Safe storeBugs honest terms i call (storeBug p) (fun r t => Answering i r t) s := by
  refine safe_perform fun t _ inv rely choice r u _ performed => ?_
  have now := attempting_later h rely
  obtain ⟨answer,after⟩ := exec_eq performed
  have same : u = t := after
  subst same
  refine ⟨⟨inv,fun j _ => apart_refl j u⟩,?_⟩
  cases r with
  | error e => exact attempting_answers now fun result is => by cases is
  | ok existing =>
    cases existing with
    | true => exact attempting_answers now fun result is => by cases is; rfl
    | false =>
      show Safe storeBugs honest terms i call (uploadLogs p >>= finish p) _ u
      unfold uploadLogs
      split
      · exact safe_finish now
      · refine safe_perform fun t _ inv rely choice key v _ performed => ?_
        obtain ⟨rfl,after⟩ := exec_eq performed
        obtain ⟨consistent,apart,attempting⟩ := put_spec inv (attempting_later now rely) after
        exact ⟨⟨consistent,apart⟩,safe_finish attempting⟩

theorem safe_body (h : Attempting i none s) :
    Safe storeBugs honest terms i call (body p) (fun _ t => Swept i t) s := by
  refine safe_bind (safe_mono (fun r t answering => ?_) (safe_storeBug h))
  intro u _ inv rely choice a v _ performed
  obtain ⟨consistent,apart,swept⟩ := reply_spec inv (answering_later answering rely) (exec_eq performed).2
  exact ⟨⟨consistent,apart⟩,swept⟩

/-- What is recorded of a call is of one that has started. -/
structure Started (c : Conf Storage NormalizedBugPayload Op Ans) : Prop where
  uploader : ∀ key i, c.shared.uploader key = some i → i < c.threads.length
  inserter : ∀ id i, c.shared.inserter id = some i → i < c.threads.length
  replies : ∀ i r, (i,r) ∈ c.shared.replies → i < c.threads.length

/-- An operation records its own call. -/
theorem exec_records {o : Op} {c : Choice} :
    (∀ key j, (s.exec i c o).2.uploader key = some j → j = i ∨ s.uploader key = some j) ∧
    (∀ id j, (s.exec i c o).2.inserter id = some j → j = i ∨ s.inserter id = some j) ∧
    ∀ j r, (j,r) ∈ (s.exec i c o).2.replies → j = i ∨ (j,r) ∈ s.replies := by
  have same : (∀ key j, s.uploader key = some j → j = i ∨ s.uploader key = some j) ∧
      (∀ id j, s.inserter id = some j → j = i ∨ s.inserter id = some j) ∧
      ∀ j r, (j,r) ∈ s.replies → j = i ∨ (j,r) ∈ s.replies :=
    ⟨fun _ _ => .inr,fun _ _ => .inr,fun _ _ => .inr⟩
  have inserts (p : NormalizedBugPayload) (logsKey : Option LogsKey) (now : Millis) :
      (∀ key j, (s.insertBug i p logsKey now).2.uploader key = some j → j = i ∨ s.uploader key = some j) ∧
      (∀ id j, (s.insertBug i p logsKey now).2.inserter id = some j → j = i ∨ s.inserter id = some j) ∧
      ∀ j r, (j,r) ∈ (s.insertBug i p logsKey now).2.replies → j = i ∨ (j,r) ∈ s.replies := by
    rcases insertBug_cases s i p logsKey now with ⟨_,eq⟩ | ⟨bugs,_,_,eq⟩
    · rw [eq]
      exact same
    · rw [eq]
      refine ⟨same.1,fun id j is => ?_,same.2.2⟩
      change Function.update s.inserter _ _ _ = _ at is
      rw [Function.update_apply] at is
      split at is
      · exact .inl (Option.some.inj is).symm
      · exact .inr is
  cases o with
  | select | delete => exact same
  | put id logs installId =>
    refine ⟨fun key j is => ?_,same.2⟩
    change Function.update s.uploader _ _ _ = _ at is
    rw [Function.update_apply] at is
    split at is
    · exact .inl (Option.some.inj is).symm
    · exact .inr is
  | insert p logsKey =>
    obtain ⟨time,outcome⟩ := c
    cases outcome with
    | returned | lost => exact inserts p logsKey time
    | rejected => exact same
  | reply r =>
    refine ⟨same.1,same.2.1,fun j r' there => ?_⟩
    rcases List.mem_append.mp there with old | new
    · exact .inr old
    · cases List.mem_singleton.mp new
      exact .inl rfl

theorem reach_started {c : Conf Storage NormalizedBugPayload Op Ans}
    (reach : Reach storeBugs.system honest.holds c) : Started c := by
  refine reach.invariant Started ?_ ?_
  · rintro c ⟨clean,_⟩
    constructor
    · intro key i is
      rw [clean.uploader] at is
      cases is
    · intro id i is
      rw [clean.inserter] at is
      cases is
    · intro i r there
      rw [clean.replies] at there
      cases there
  · intro c a d started _ stepped
    rcases next_cases stepped with ⟨call,_,_,rfl⟩ | ⟨i,choice,call,o,k,r,s,_,here,performed,rfl⟩ | ⟨e,_⟩
    · have longer : c.threads.length ≤ (c.threads.concat ⟨call,body call⟩).length := by simp
      rw [List.concat_eq_append] at longer
      exact ⟨fun key i is => Nat.lt_of_lt_of_le (started.uploader key i is) longer,
        fun id i is => Nat.lt_of_lt_of_le (started.inserter id i is) longer,
        fun i r there => Nat.lt_of_lt_of_le (started.replies i r there) longer⟩
    · have running : i < c.threads.length := (List.getElem?_eq_some_iff.mp here).1
      obtain ⟨uploads,inserts,replies⟩ := exec_records (s := c.shared) (i := i) (o := o) (c := choice)
      rw [(exec_eq performed).2]
      constructor
      · intro key j is
        rw [List.length_set]
        exact (uploads key j is).elim (fun same => same ▸ running) (started.uploader key j)
      · intro id j is
        rw [List.length_set]
        exact (inserts id j is).elim (fun same => same ▸ running) (started.inserter id j)
      · intro j r there
        rw [List.length_set]
        exact (replies j r there).elim (fun same => same ▸ running) (started.replies j r)
    · exact e.elim

/-- While no such statement throws, the stored reports keep their logs. -/
theorem reports_keep_logs {c : Conf Storage NormalizedBugPayload Op Ans}
    (reach : Reach storeBugs.system honest.holds c) : Kept c := by
  have secured : Secured storeBugs honest terms (fun i _ s => Swept i s) c := by
    refine reach_secured (fun _ _ => trivial) ?_ ?_ ?_ (fun _ e => e.elim) reach
    · intro s clean
      constructor
      · exact fun key is => (clean.exact key).mpr is
      · exact fun key is => .inl ((clean.exact key).mp is)
      · rintro key (held | uploaded)
        · exact clean.drawn key held
        · exact absurd (clean.uploader key) uploaded
      · exact fun id is => absurd (clean.inserter id) is
      · intro i r there
        rw [clean.replies] at there
        cases there
    · intro c call past _ _ _
      have started := reach_started past
      have attempting : Attempting c.threads.length none c.shared := by
        constructor
        · exact fun key is => absurd (started.uploader key _ is) (Nat.lt_irrefl _)
        · exact fun key is => by cases is
        · exact fun id is => Nat.lt_irrefl _ (started.inserter id _ is)
        · exact fun r there => Nat.lt_irrefl _ (started.replies _ r there)
      exact safe_body attempting
    · exact fun i call s t apart swept => swept_later swept apart
  constructor
  case single => exact fun row there row' there' same => List.inj_on_of_nodup_map c.shared.bugs.unique there there' same
  case held => exact secured.inv.held
  case inserter => exact secured.inv.replies
  case swept =>
    intro finished key held
    rcases secured.inv.owned key held with named | uploaded
    · exact named
    · obtain ⟨i,is⟩ := Option.ne_none_iff_exists'.mp uploaded
      have running := (reach_started reach).uploader key i is
      have there : c.threads[i]? = some c.threads[i] := List.getElem?_eq_getElem running
      have safe := secured.threads i _ there
      have done := finished _ (List.getElem_mem running)
      cases rest : c.threads[i].rest with
      | ret a =>
        rw [rest] at safe
        exact safe key is held
      | step o k =>
        rw [rest] at done
        cases done

end Calls

namespace Sample

/-- Two calls of one report: the insert of the first adds the row, that of the second throws. -/
def racing : List (Label NormalizedBugPayload Choice Empty) :=
  [.fork report,.fork report,.act 0 good,.act 1 good,.act 0 good,.act 1 good,.act 0 good,.act 1 ⟨12,.lost⟩,
    .act 1 good,.act 0 good,.act 1 good]

def raced : Conf Storage NormalizedBugPayload Op Ans := (storeBugs.system.run start racing).getD start

end Sample

instance (s : Storage) (call : NormalizedBugPayload) : Decidable (honest.starts s call) := isTrue trivial

instance (s : Storage) (e : Empty) : Decidable (honest.events s e) := isTrue trivial

instance (s : Storage) (call : NormalizedBugPayload) (o : Op) (c : Choice) : Decidable (honest.steps s call o c) :=
  match o with
  | .insert _ (some _) => inferInstanceAs (Decidable (_ → _))
  | .insert _ none | .select _ | .put .. | .delete _ | .reply _ => isTrue trivial

open Sample in
theorem raced_keep_logs : Kept raced ∧
    raced.shared.bugs.rows.map (fun row => (row.id,row.logsR2Key)) = [(1,some ⟨1,0⟩)] ∧
    raced.shared.blobs.rows.map (·.key) = [⟨1,0⟩] ∧ ∀ t ∈ raced.threads, t.rest.finished = true := by
  have ran : storeBugs.system.run start racing = some raced := rfl
  have reach : Reach storeBugs.system honest.holds raced :=
    (Reach.start start start_clean).run (by decide) ran
  exact ⟨reports_keep_logs reach,rfl,rfl,by decide⟩

end Vnidrop.Diagnostics
