import Vnidrop.AndroidSecrets

/-! What the secret store keeps, across failing operations, the end of processes and power cuts. -/
namespace Vnidrop.AndroidSecrets

open Disks Programs Runs SecretRecords
open Paths (Str)
open SecretCustody (SecretMaterial SecureSecretStoreError)

section Invariants

variable (blake3 : List UInt8 → Digest) (cipher : Cipher) (mode : Mode) (dirs handles : Set Str)

/-- The files and the key under a digest: whatever a power cut leaves is a record of the handle. -/
structure Cell (s : Device) (d : Digest) : Prop where
  known : (s.disk.slot ⟨d,false⟩).others ≠ none
  named : ∀ bytes, (s.disk.slot ⟨d,false⟩).May (some bytes) →
    ∃ x ∈ handles, digest blake3 x = d ∧ decodeHandleFromRecord bytes = .ok x
  backed : s.keys d ≠ none → Backed mode (s.disk.slot ⟨d,false⟩)

structure Inv (s : Seen) : Prop where
  cells : ∀ d, Cell blake3 mode handles s.state d
  under : ∀ e ∈ s.history.under, e.2 ∈ handles ∧ s.history.settled e.2 = none
  watch : ∀ e ∈ s.history.watch, e.2.1 ∈ handles ∧ s.history.settled e.2.1 = some e.2.2
  settled : ∀ x held, s.history.settled x = some held → x ∈ handles ∧ Kept blake3 cipher s.state x held
  answers : ∀ a ∈ s.history.answers, Right a.1 a.2.1 a.2.2
  listings : mode ≠ .any → ∀ l ∈ s.history.listings, ∀ handle x, physicalHandle blake3 l.1 handle = .ok x →
    x ∈ handles → l.2.1 (digest blake3 x) ≠ none → handle ∈ l.2.2

/-- The key and the files of a handle are the same, of which less may be lost. -/
def Same (x : Str) (s t : Device) : Prop :=
  t.keys (digest blake3 x) = s.keys (digest blake3 x) ∧
    ∀ n : FileName, n.digest = digest blake3 x → (s.disk.slot n).Later (t.disk.slot n)

/-- What a thread of the process relies on: its locks stay its own, and while it has the lock of a
profile what it mutates there; and the key of a record that it reads and no one mutates. -/
structure Relied (i : Nat) (s t : Seen) : Prop where
  live : i ∈ s.state.live
  locks : ∀ dir, s.state.locked dir = some i → t.state.locked dir = some i
  under : ∀ x, (i,x) ∈ s.history.under → (i,x) ∈ t.history.under
  own : ∀ dir ∈ dirs, ∀ x, (i,x) ∈ s.history.under → scope blake3 dir <+: x → s.state.locked dir = some i →
    Same blake3 x s.state t.state
  watch : ∀ e ∈ t.history.watch, e.1 = i → e ∈ s.history.watch ∧
    t.state.keys (digest blake3 e.2.1) = s.state.keys (digest blake3 e.2.1)
  faulted : i ∈ s.history.faulted → i ∈ t.history.faulted
  snapshot : t.history.snapshot i = s.history.snapshot i

theorem Same.refl (x : Str) (s : Device) : Same blake3 x s s := ⟨rfl,fun _ _ => .refl _⟩

variable {blake3} in
theorem Same.trans {x : Str} {s t u : Device} (first : Same blake3 x s t) (second : Same blake3 x t u) : Same blake3 x s u :=
  ⟨second.1.trans first.1,fun n own => (first.2 n own).trans (second.2 n own)⟩

theorem Relied.refl {i : Nat} {s : Seen} (live : i ∈ s.state.live) : Relied blake3 dirs i s s where
  live := live
  locks _ h := h
  under _ h := h
  own _ _ x _ _ _ := .refl blake3 x _
  watch _ there _ := ⟨there,rfl⟩
  faulted h := h
  snapshot := rfl

variable {blake3 dirs} in
theorem Relied.trans {i : Nat} {s t u : Seen} (first : Relied blake3 dirs i s t) (second : Relied blake3 dirs i t u) :
    Relied blake3 dirs i s u where
  live := first.live
  locks dir h := second.locks dir (first.locks dir h)
  under x h := second.under x (first.under x h)
  own dir known x h within locked := (first.own dir known x h within locked).trans
    (second.own dir known x (first.under x h) within (first.locks dir locked))
  watch e there mine :=
    have later := second.watch e there mine
    have earlier := first.watch e later.1 mine
    ⟨earlier.1,later.2.trans earlier.2⟩
  faulted h := second.faulted (first.faulted h)
  snapshot := second.snapshot.trans first.snapshot

def terms : Terms Seen where
  known _ := True
  inv := Inv blake3 cipher mode handles
  rely i s t := i ∈ t.state.live → Relied blake3 dirs i s t
  refl _ _ live := .refl blake3 dirs live
  trans _ _ _ _ first second live := (first (second live).live).trans (second live)

abbrev Does (i : Nat) (call : Call) {α : Type} (p : Task α) (post : α → Seen → Prop) (s : Seen) : Prop :=
  Safe (machine blake3 cipher) (guard blake3 mode dirs handles) (terms blake3 cipher mode dirs handles) i call p post s

/-- The thread mutates this record of the profile and has its lock. -/
structure Mine (i : Nat) (dir x : Str) (s : Seen) : Prop where
  live : i ∈ s.state.live
  known : dir ∈ dirs
  under : (i,x) ∈ s.history.under
  within : scope blake3 dir <+: x
  locked : s.state.locked dir = some i

/-- Only the key and the files of one handle are another, and less of the rest may be lost. -/
structure Touch (x : Str) (s t : Device) : Prop where
  keys : ∀ d, d ≠ digest blake3 x → t.keys d = s.keys d
  slots : ∀ n : FileName, n.digest ≠ digest blake3 x → (s.disk.slot n).Later (t.disk.slot n)
  locked : t.locked = s.locked
  live : t.live = s.live

end Invariants

section Steps

variable {blake3 : List UInt8 → Digest} {cipher : Cipher} {mode : Mode} {dirs handles : Set Str} {s t : Seen} {u : Device}
  {i j : Nat} {call : Call} {dir x y : Str} {α : Type}

theorem Mine.later (mine : Mine blake3 dirs i dir x s) (rely : i ∈ t.state.live → Relied blake3 dirs i s t)
    (live : i ∈ t.state.live) : Mine blake3 dirs i dir x t ∧ Same blake3 x s.state t.state :=
  have relied := rely live
  ⟨⟨live,mine.known,relied.under x mine.under,mine.within,relied.locks dir mine.locked⟩,
    relied.own dir mine.known x mine.under mine.within mine.locked⟩

theorem length_hexLower (bytes : List UInt8) : (RedactedJson.hexLower bytes).length = 2 * bytes.length := by
  induction bytes with
  | nil => rfl
  | cons b bytes ih =>
    rw [RedactedJson.hexLower] at ih ⊢
    rw [List.flatMap_cons,List.length_append,ih,List.length_cons,List.length_cons,List.length_nil,List.length_cons]
    omega

theorem length_opening : "vnidrop/v1/scope-".toList.length = 17 := by decide

theorem length_scope (dir : Str) : (scope blake3 dir).length = 82 := by
  unfold scope
  rw [List.length_append,List.length_append,length_hexLower,Vector.length_toList,length_opening,List.length_singleton]

theorem Later.backed {a b : Slot (List UInt8)} (later : a.Later b) (backed : Backed mode a) : Backed mode b := by
  intro which
  obtain ⟨there,lasting⟩ := backed which
  exact ⟨later.seen ▸ there,fun synced lost => lasting synced (later.may lost)⟩

theorem Cell.later {a b : Device} {d : Digest} (cell : Cell blake3 mode handles a d) (keys : b.keys d = a.keys d)
    (slot : (a.disk.slot ⟨d,false⟩).Later (b.disk.slot ⟨d,false⟩)) : Cell blake3 mode handles b d where
  known := slot.known cell.known
  named bytes may := cell.named bytes (slot.may may)
  backed there := Later.backed slot (cell.backed (keys ▸ there))

theorem Holds.later {a b : Device} {material : SecretMaterial} (holds : Holds blake3 cipher a x material)
    (same : Same blake3 x a b) : Holds blake3 cipher b x material := by
  obtain ⟨key,there,known,files⟩ := holds
  have later := same.2 (recordPath blake3 x) rfl
  exact ⟨key,same.1.trans there,later.known known,fun file may => files file (later.may may)⟩

theorem Kept.later {a b : Device} {held : Option SecretMaterial} (kept : Kept blake3 cipher a x held)
    (same : Same blake3 x a b) : Kept blake3 cipher b x held := by
  cases held with
  | none => exact same.1.trans kept
  | some material => exact Holds.later kept same

theorem Touch.same (touch : Touch blake3 x s.state u) (other : digest blake3 y ≠ digest blake3 x) : Same blake3 y s.state u :=
  ⟨touch.keys _ other,fun n own => touch.slots n (own ▸ other)⟩

/-- Two threads that each have the lock of a profile mutate different records. -/
theorem Mine.apart (apart : Apart blake3 dirs handles) (mine : Mine blake3 dirs i dir x s) {dir' : Str}
    (known : dir' ∈ dirs) (within : scope blake3 dir' <+: y) (locked : s.state.locked dir' = some j) (other : j ≠ i) : y ≠ x := by
  rintro rfl
  have same : scope blake3 dir' = scope blake3 dir :=
    (List.prefix_of_prefix_length_le within mine.within (by rw [length_scope,length_scope])).eq_of_length
      (by rw [length_scope,length_scope])
  rw [apart.scopes known mine.known same,mine.locked] at locked
  exact other (Option.some.inj locked).symm

/-- A thread with the lock changes what it mutates, and nothing that others rely on. -/
theorem touch_step (apart : Apart blake3 dirs handles) (inv : Inv blake3 cipher mode handles s)
    (mine : Mine blake3 dirs i dir x s) (touch : Touch blake3 x s.state u)
    (cell : Cell blake3 mode handles u (digest blake3 x)) :
    Inv blake3 cipher mode handles ⟨u,s.history⟩ ∧
      ∀ j, j ≠ i → j ∈ u.live → Relied blake3 dirs j s ⟨u,s.history⟩ := by
  have own := inv.under _ mine.under
  have different : ∀ y ∈ handles, y ≠ x → digest blake3 y ≠ digest blake3 x :=
    fun y there other same => other (apart.digests there own.1 same)
  refine ⟨{ inv with cells := fun d => ?_, settled := fun y held settled => ?_ },fun j other live => ?_⟩
  · by_cases same : d = digest blake3 x
    · exact same ▸ cell
    · exact (inv.cells d).later (touch.keys d same) (touch.slots _ same)
  · obtain ⟨there,kept⟩ := inv.settled y held settled
    have other : y ≠ x := by
      rintro rfl
      simp [own.2] at settled
    exact ⟨there,kept.later (touch.same (different y there other))⟩
  · refine ⟨touch.live ▸ live,fun dir' => ?_,fun _ h => h,fun dir' known y under within locked => ?_,fun e there _ => ⟨there,?_⟩,
      fun h => h,rfl⟩
    · exact fun locked => touch.locked ▸ locked
    · exact touch.same (different y (inv.under _ under).1 (mine.apart apart known within locked other))
    · have watched := inv.watch e there
      have other : e.2.1 ≠ x := by
        intro same
        simp [same,own.2] at watched
      exact touch.keys _ (different _ watched.1 other)

theorem machine_exec {o : Op} {c : Choice} {r : Ans o} {v : Seen}
    (h : (machine blake3 cipher).exec s i call o c = some (r,v)) :
    (o.enters = true ∨ i ∈ s.state.live) ∧ ∃ u, s.state.perform blake3 cipher i c o = some (r,u) ∧
      v = ⟨u,s.history.record blake3 s.state i call o r⟩ := by
  obtain ⟨u,ran,same⟩ := observe_exec h
  simp only [store,exec] at ran
  split at ran
  · rename_i enabled
    exact ⟨by simpa using enabled,u,ran,same⟩
  · cases ran

theorem Touch.mine (touch : Touch blake3 x s.state u) (mine : Mine blake3 dirs i dir x s) :
    Mine blake3 dirs i dir x ⟨u,s.history⟩ where
  live := touch.live ▸ mine.live
  known := mine.known
  under := mine.under
  within := mine.within
  locked := touch.locked ▸ mine.locked

/-- The rule of an operation on the record that the thread mutates. -/
theorem safe_work {o : Op} {post : Ans o → Seen → Prop} (apart : Apart blake3 dirs handles)
    (mine : Mine blake3 dirs i dir x s) (inside : o.enters = false)
    (plain : ∀ h d r, History.record blake3 h d i call o r = h)
    (h : ∀ t, Inv blake3 cipher mode handles t → Mine blake3 dirs i dir x t → Same blake3 x s.state t.state →
      ∀ c r u, (guard blake3 mode dirs handles).steps t call o c → t.state.perform blake3 cipher i c o = some (r,u) →
      Touch blake3 x t.state u ∧ Cell blake3 mode handles u (digest blake3 x) ∧
        (Mine blake3 dirs i dir x ⟨u,t.history⟩ → post r ⟨u,t.history⟩)) :
    Does blake3 cipher mode dirs handles i call (op o) post s := by
  intro t _ inv rely c r v ok ran
  obtain ⟨enabled,u,performed,rfl⟩ := machine_exec ran
  have live : i ∈ t.state.live := enabled.resolve_left (by simp [inside])
  obtain ⟨still,same⟩ := mine.later rely live
  obtain ⟨touch,cell,done⟩ := h t inv still same c r u ok performed
  obtain ⟨inv',others⟩ := touch_step apart inv still touch cell
  rw [plain]
  exact ⟨⟨inv',others⟩,done (touch.mine still)⟩

theorem attempt_cases {s t u : Device} {c : Choice} {a : α} {r : Except SecureSecretStoreError α}
    (h : s.attempt c a t = some (r,u)) : (u = s ∨ u = t) ∧ (∀ b, r = .ok b → b = a ∧ u = t) ∧ r ≠ .error .missing := by
  unfold Device.attempt at h
  split at h
  · rename_i outage _
    obtain ⟨rfl,rfl⟩ := Prod.mk.inj (Option.some.inj h)
    refine ⟨by split <;> simp,nofun,?_⟩
    cases outage <;> simp [Outage.error]
  · obtain ⟨rfl,rfl⟩ := Prod.mk.inj (Option.some.inj h)
    exact ⟨.inr rfl,fun b same => ⟨(Except.ok.inj same).symm,rfl⟩,by simp⟩

theorem Touch.refl (x : Str) (s : Device) : Touch blake3 x s s := ⟨fun _ _ => rfl,fun _ _ => .refl _,rfl,rfl⟩

/-- Another state of the files of one handle. -/
theorem touch_disk {s : Device} {d : Disk FileName (List UInt8)}
    (slots : ∀ n : FileName, n.digest ≠ digest blake3 x → (s.disk.slot n).Later (d.slot n)) :
    Touch blake3 x s { s with disk := d } := ⟨fun _ _ => rfl,slots,rfl,rfl⟩

theorem temporary_ne_record : (⟨d,false⟩ : FileName) ≠ ⟨d',true⟩ := by simp

/-- What becomes of the files that are being written does not matter. -/
theorem touch_temporary {s : Device} {d : Disk FileName (List UInt8)} (cell : Cell blake3 mode handles s (digest blake3 x))
    (slots : ∀ n, n ≠ temporaryPath blake3 x → d.slot n = s.disk.slot n) :
    Touch blake3 x s { s with disk := d } ∧ Cell blake3 mode handles { s with disk := d } (digest blake3 x) := by
  refine ⟨touch_disk fun n other => ?_,cell.later rfl ?_⟩
  · rw [slots n fun same => other (by rw [same,temporaryPath])]
    exact .refl _
  · rw [slots _ (by simp [temporaryPath])]
    exact .refl _

section Work

variable (apart : Apart blake3 dirs handles) (mine : Mine blake3 dirs i dir x s)

include apart mine

theorem safe_write {bytes : List UInt8} :
    Does blake3 cipher mode dirs handles i call
      (op (.writeTemporary x bytes)) (fun r t => Mine blake3 dirs i dir x t ∧
        t.state.keys (digest blake3 x) = s.state.keys (digest blake3 x) ∧
        (r = .ok () → (t.state.disk.slot (temporaryPath blake3 x)).seen = some bytes)) s := by
  refine safe_work apart mine rfl (fun _ _ _ => rfl) fun t inv still same c r u _ ran => ?_
  simp only [Device.perform] at ran
  have written (content : List UInt8) := touch_temporary (inv.cells (digest blake3 x))
    (d := t.state.disk.write (temporaryPath blake3 x) content) fun n other => by simp [other]
  split at ran
  · obtain ⟨rfl,rfl⟩ := Prod.mk.inj (Option.some.inj ran)
    split
    · exact ⟨(written _).1,(written _).2,fun after => ⟨after,same.1,nofun⟩⟩
    · exact ⟨.refl _ _,inv.cells _,fun after => ⟨after,same.1,nofun⟩⟩
  · obtain ⟨rfl,rfl⟩ := Prod.mk.inj (Option.some.inj ran)
    exact ⟨(written _).1,(written _).2,fun after => ⟨after,same.1,fun _ => by simp⟩⟩

theorem safe_sync {bytes : List UInt8} (held : (s.state.disk.slot (temporaryPath blake3 x)).seen = some bytes) :
    Does blake3 cipher mode dirs handles i call
      (op (.syncTemporary x)) (fun r t => Mine blake3 dirs i dir x t ∧
        t.state.keys (digest blake3 x) = s.state.keys (digest blake3 x) ∧
        (r = .ok () → (t.state.disk.slot (temporaryPath blake3 x)).seen = some bytes ∧
          (t.state.disk.slot (temporaryPath blake3 x)).synced = true)) s := by
  refine safe_work apart mine rfl (fun _ _ _ => rfl) fun t inv still same c r u _ ran => ?_
  obtain ⟨which,full,-⟩ := attempt_cases ran
  have synced := touch_temporary (inv.cells (digest blake3 x)) (d := t.state.disk.syncFile (temporaryPath blake3 x))
    fun n other => by simp [other]
  have held' := (same.2 (temporaryPath blake3 x) rfl).seen.trans held
  obtain rfl | rfl := which
  · refine ⟨.refl _ _,inv.cells _,fun after => ⟨after,same.1,fun fine => ?_⟩⟩
    rw [(full () fine).2]
    simp [held']
  · exact ⟨synced.1,synced.2,fun after => ⟨after,same.1,fun _ => by simp [held']⟩⟩

/-- The record is replaced by a file whose content is on the disk already. -/
theorem safe_rename {bytes : List UInt8} (held : (s.state.disk.slot (temporaryPath blake3 x)).seen = some bytes)
    (synced : (s.state.disk.slot (temporaryPath blake3 x)).synced = true) (names : decodeHandleFromRecord bytes = .ok x) :
    Does blake3 cipher mode dirs handles i call
      (op (.rename x)) (fun r t => Mine blake3 dirs i dir x t ∧
        t.state.keys (digest blake3 x) = s.state.keys (digest blake3 x) ∧
        (r = .ok () → (t.state.disk.slot (recordPath blake3 x)).seen = some bytes)) s := by
  refine safe_work apart mine rfl (fun _ _ _ => rfl) fun t inv still same c r u _ ran => ?_
  obtain ⟨which,full,-⟩ := attempt_cases ran
  have later := same.2 (temporaryPath blake3 x) rfl
  have held' := later.seen.trans held
  have synced' := later.synced.trans synced
  have cell := inv.cells (digest blake3 x)
  have slot (n : FileName) := Disk.slot_rename (m := recordPath blake3 x) (k := n) held'
  have record : (t.state.disk.rename (temporaryPath blake3 x) (recordPath blake3 x)).slot (recordPath blake3 x) =
      (t.state.disk.slot (recordPath blake3 x)).place bytes true := by
    rw [slot,if_neg (by simp [recordPath,temporaryPath]),if_pos rfl,synced']
  obtain rfl | rfl := which
  · refine ⟨.refl _ _,cell,fun after => ⟨after,same.1,fun fine => ?_⟩⟩
    rw [(full () fine).2]
    exact congrArg Slot.seen record
  · refine ⟨touch_disk fun n other => ?_,?_,fun after => ⟨after,same.1,fun _ => congrArg Slot.seen record⟩⟩
    · rw [slot,if_neg fun same => other (by rw [same,temporaryPath]),if_neg fun same => other (by rw [same,recordPath])]
      exact .refl _
    · constructor
      · show (Disk.slot _ (recordPath blake3 x)).others ≠ none
        rw [record]
        simpa [Slot.place,recordPath] using cell.known
      · intro content may
        rw [show (⟨digest blake3 x,false⟩ : FileName) = recordPath blake3 x from rfl,record,Slot.may_place] at may
        rcases may with new | old
        · obtain rfl := Option.some.inj new
          exact ⟨x,(inv.under _ still.under).1,rfl,names⟩
        · exact cell.named content old
      · intro keyed which
        obtain ⟨-,lasting⟩ := cell.backed keyed which
        show (Disk.slot _ (recordPath blake3 x)).seen ≠ none ∧ (_ → ¬(Disk.slot _ (recordPath blake3 x)).May none)
        rw [record,Slot.may_place]
        exact ⟨by simp [Slot.place],fun must => by simpa [recordPath] using lasting must⟩

theorem safe_syncDirectory :
    Does blake3 cipher mode dirs handles i call
      (op .syncDirectory) (fun r t => Mine blake3 dirs i dir x t ∧
        t.state.keys (digest blake3 x) = s.state.keys (digest blake3 x) ∧
        (t.state.disk.slot (recordPath blake3 x)).seen = (s.state.disk.slot (recordPath blake3 x)).seen ∧
        (r = .ok () → (t.state.disk.slot (recordPath blake3 x)).others = some [])) s := by
  refine safe_work apart mine rfl (fun _ _ _ => rfl) fun t inv still same c r u _ ran => ?_
  obtain ⟨which,full,-⟩ := attempt_cases ran
  have seen := (same.2 (recordPath blake3 x) rfl).seen
  have cell := inv.cells (digest blake3 x)
  obtain ⟨l,known⟩ := Option.ne_none_iff_exists'.mp cell.known
  have settled : (t.state.disk.syncDirectory.slot (recordPath blake3 x)).others = some [] := by
    show ((t.state.disk.slot ⟨digest blake3 x,false⟩).others.map fun _ => []) = some []
    rw [known,Option.map_some]
  obtain rfl | rfl := which
  · refine ⟨.refl _ _,cell,fun after => ⟨after,same.1,seen,fun fine => ?_⟩⟩
    rw [(full () fine).2]
    exact settled
  · exact ⟨touch_disk fun n _ => .inr rfl,cell.later rfl (.inr rfl),fun after => ⟨after,same.1,seen,fun _ => settled⟩⟩

/-- The record is written, and is on the disk when the call says so. -/
theorem safe_writeRecord {state : UInt8} {sealed : Option AndroidSealedValue} :
    Does blake3 cipher mode dirs handles i call
      (writeRecord x state sealed) (fun r t => Mine blake3 dirs i dir x t ∧
        t.state.keys (digest blake3 x) = s.state.keys (digest blake3 x) ∧
        (r = .ok () → ∃ bytes, encodeRecord x state sealed = .ok bytes ∧
          (t.state.disk.slot (recordPath blake3 x)).seen = some bytes ∧
          (t.state.disk.slot (recordPath blake3 x)).others = some [])) s := by
  unfold writeRecord
  split
  · exact ⟨mine,rfl,nofun⟩
  · rename_i bytes written
    have names := decodeHandle_encodeRecord written
    have first : Does blake3 cipher mode dirs handles i call (op (.writeTemporary x bytes)) _ s := safe_write apart mine
    refine safe_andThen (safe_mono (fun _ t first => ?_) first)
    refine ⟨fun a fine => ?_,fun e failed => ⟨first.1,first.2.1,nofun⟩⟩
    refine safe_andThen (safe_mono (fun _ u second => ?_) (safe_sync apart first.1 (first.2.2 (fine ▸ rfl))))
    have keys := second.2.1.trans first.2.1
    refine ⟨fun a fine => ?_,fun e failed => ⟨second.1,keys,nofun⟩⟩
    have held := second.2.2 (fine ▸ rfl)
    refine safe_andThen (safe_mono (fun _ v third => ?_) (safe_rename apart second.1 held.1 held.2 names))
    have keys := third.2.1.trans keys
    refine ⟨fun a fine => ?_,fun e failed => ⟨third.1,keys,nofun⟩⟩
    have held := third.2.2 (fine ▸ rfl)
    refine safe_mono (fun _ w fourth => ?_) (safe_syncDirectory apart third.1)
    exact ⟨fourth.1,fourth.2.1.trans keys,fun fine => ⟨bytes,written,fourth.2.2.1.trans held,fourth.2.2.2 fine⟩⟩

/-- If a put finds a record, there is one that it may build on. -/
theorem safe_metadata :
    Does blake3 cipher mode dirs handles i call
      (op (.metadata x)) (fun r t => Mine blake3 dirs i dir x t ∧
        (r = .ok true → Backed mode (t.state.disk.slot (recordPath blake3 x)))) s := by
  refine safe_work apart mine rfl (fun _ _ _ => rfl) fun t inv still same c r u ok ran => ?_
  obtain ⟨which,full,-⟩ := attempt_cases ran
  obtain rfl : u = t.state := which.elim id id
  refine ⟨.refl _ _,inv.cells _,fun after => ⟨after,fun found => ?_⟩⟩
  have there : (t.state.disk.slot (recordPath blake3 x)).seen ≠ none := by
    have := (full true found).1
    exact Option.isSome_iff_ne_none.mp this.symm
  exact fun _ => ⟨there,fun synced => ok synced there⟩

theorem safe_keystoreSeal {plaintext : List UInt8} (backed : Backed mode (s.state.disk.slot (recordPath blake3 x))) :
    Does blake3 cipher mode dirs handles i call
      (op (.keystoreSeal x plaintext)) (fun r t => Mine blake3 dirs i dir x t ∧
        ∀ value, r = .ok value → ∃ key, t.state.keys (digest blake3 x) = some key ∧
          value.ciphertext = cipher.encrypt key value.nonce plaintext) s := by
  refine safe_work apart mine rfl (fun _ _ _ => rfl) fun t inv still same c r u _ ran => ?_
  have backed' := Later.backed (same.2 (recordPath blake3 x) rfl) backed
  have cell := inv.cells (digest blake3 x)
  simp only [Device.perform,Device.keyed] at ran
  split at ran
  · rename_i key there
    obtain ⟨which,full,-⟩ := attempt_cases ran
    obtain rfl : u = t.state := which.elim id id
    refine ⟨.refl _ _,cell,fun after => ⟨after,fun value fine => ⟨key,there,?_⟩⟩⟩
    rw [(full value fine).1]
  · rename_i none
    obtain ⟨which,full,-⟩ := attempt_cases ran
    obtain rfl | rfl := which
    · refine ⟨.refl _ _,cell,fun after => ⟨after,fun value fine => ⟨t.state.generated,?_,?_⟩⟩⟩
      · exact (congrArg (fun d : Device => d.keys (digest blake3 x)) (full value fine).2).trans (by simp)
      · rw [(full value fine).1]
    · refine ⟨⟨fun d other => by simp [other],fun _ _ => .refl _,rfl,rfl⟩,
        ⟨cell.known,cell.named,fun _ => backed'⟩,fun after => ⟨after,fun value fine => ⟨t.state.generated,?_,?_⟩⟩⟩
      · simp
      · rw [(full value fine).1]

/-- A put that is a success leaves its material in the record, on the disk. -/
theorem safe_put {material : SecretMaterial} :
    Does blake3 cipher mode dirs handles i call
      (put x material) (fun r t => Mine blake3 dirs i dir x t ∧ (r = .ok () → Holds blake3 cipher t.state x material)) s := by
  refine safe_andThen (safe_mono (fun _ t first => ?_) (safe_metadata apart mine))
  refine ⟨fun found fine => ?_,fun e failed => ⟨first.1,nofun⟩⟩
  have staged : Does blake3 cipher mode dirs handles i call
      (if found then pure (.ok ()) else writeRecord x RECORD_STAGED none)
      (fun r u => Mine blake3 dirs i dir x u ∧ (r = .ok () → Backed mode (u.state.disk.slot (recordPath blake3 x)))) t := by
    cases found with
    | true => exact ⟨first.1,fun _ => first.2 fine⟩
    | false =>
      refine safe_mono (fun _ u written => ⟨written.1,fun fine => ?_⟩) (safe_writeRecord apart first.1)
      obtain ⟨bytes,-,seen,others⟩ := written.2.2 fine
      exact fun _ => ⟨by simp [seen],fun _ lost => by simpa [seen] using lost [] others⟩
  refine safe_andThen (safe_mono (fun _ u second => ?_) staged)
  refine ⟨fun _ fine => ?_,fun e failed => ⟨second.1,nofun⟩⟩
  refine safe_andThen (safe_mono (fun _ v third => ?_) (safe_keystoreSeal apart second.1 (second.2 fine)))
  refine ⟨fun sealed fine => ?_,fun e failed => ⟨third.1,nofun⟩⟩
  obtain ⟨key,there,encrypted⟩ := third.2 sealed fine
  split
  · exact ⟨third.1,nofun⟩
  · rename_i full
    push Not at full
    refine safe_mono (fun _ w fourth => ⟨fourth.1,fun fine => ?_⟩) (safe_writeRecord apart third.1)
    obtain ⟨bytes,written,seen,others⟩ := fourth.2.2 fine
    refine ⟨key,fourth.2.1.trans there,by simp [others],fun file may => ⟨bytes,sealed,?_,?_,?_⟩⟩
    · simpa [seen] using may [] others
    · exact decodeRecord_ok.mpr ⟨written,full⟩
    · rw [encrypted]
      exact cipher.opens ..

theorem safe_keystoreDelete :
    Does blake3 cipher mode dirs handles i call
      (op (.keystoreDelete x)) (fun r t => Mine blake3 dirs i dir x t ∧
        ((r = .ok () ∨ r = .error .missing) → t.state.keys (digest blake3 x) = none)) s := by
  refine safe_work apart mine rfl (fun _ _ _ => rfl) fun t inv still same c r u _ ran => ?_
  have cell := inv.cells (digest blake3 x)
  simp only [Device.perform] at ran
  split at ran
  · rename_i absent
    obtain ⟨rfl,rfl⟩ := Prod.mk.inj (Option.some.inj ran)
    exact ⟨.refl _ _,cell,fun after => ⟨after,fun _ => absent⟩⟩
  · obtain ⟨which,full,other⟩ := attempt_cases ran
    have gone : (t.state.keyless blake3 x).keys (digest blake3 x) = none := Function.update_self ..
    obtain rfl | rfl := which
    · refine ⟨.refl _ _,cell,fun after => ⟨after,fun fine => ?_⟩⟩
      rw [(full () (fine.resolve_right other)).2]
      exact gone
    · exact ⟨⟨fun d other => by simp [Device.keyless,other],fun _ _ => .refl _,rfl,rfl⟩,
        ⟨cell.known,cell.named,fun there => absurd gone there⟩,fun after => ⟨after,fun _ => gone⟩⟩

/-- The record goes when its key is gone. -/
theorem safe_removeFile (gone : s.state.keys (digest blake3 x) = none) :
    Does blake3 cipher mode dirs handles i call
      (op (.removeFile x)) (fun _ t => Mine blake3 dirs i dir x t ∧ t.state.keys (digest blake3 x) = none) s := by
  refine safe_work apart mine rfl (fun _ _ _ => rfl) fun t inv still same c r u _ ran => ?_
  have cell := inv.cells (digest blake3 x)
  have gone' := same.1.trans gone
  simp only [Device.perform] at ran
  split at ran
  · obtain ⟨rfl,rfl⟩ := Prod.mk.inj (Option.some.inj ran)
    exact ⟨.refl _ _,cell,fun after => ⟨after,gone'⟩⟩
  · obtain ⟨which,-,-⟩ := attempt_cases ran
    obtain rfl | rfl := which
    · exact ⟨.refl _ _,cell,fun after => ⟨after,gone'⟩⟩
    · have record : (t.state.disk.remove (recordPath blake3 x)).slot ⟨digest blake3 x,false⟩ =
          (t.state.disk.slot ⟨digest blake3 x,false⟩).clear := by simp [recordPath]
      refine ⟨touch_disk fun n other => ?_,⟨?_,fun bytes may => ?_,fun there => absurd gone' there⟩,fun after => ⟨after,gone'⟩⟩
      · rw [Disk.slot_remove,if_neg fun same => other (by rw [same,recordPath])]
        exact .refl _
      · show (Disk.slot _ (⟨digest blake3 x,false⟩ : FileName)).others ≠ none
        rw [record]
        simpa [Slot.clear] using cell.known
      · rw [record,Slot.may_clear] at may
        exact cell.named bytes (may.resolve_left (by simp))

theorem safe_removeRecord (gone : s.state.keys (digest blake3 x) = none) :
    Does blake3 cipher mode dirs handles i call
      (removeRecord x) (fun r t => Mine blake3 dirs i dir x t ∧ (r = .ok () → t.state.keys (digest blake3 x) = none)) s := by
  refine safe_bind (safe_mono (fun r t removed => ?_) (safe_removeFile apart mine gone))
  split
  · exact safe_mono (fun _ u synced => ⟨synced.1,fun _ => synced.2.1.trans removed.2⟩) (safe_syncDirectory apart removed.1)
  · exact ⟨removed.1,fun _ => removed.2⟩
  · exact ⟨removed.1,fun fine => absurd fine (by simp)⟩

/-- A delete that is a success has destroyed the key. -/
theorem safe_delete :
    Does blake3 cipher mode dirs handles i call
      (delete x) (fun r t => Mine blake3 dirs i dir x t ∧ (r = .ok () → t.state.keys (digest blake3 x) = none)) s := by
  refine safe_bind (safe_mono (fun r t first => ?_) (safe_keystoreDelete apart mine))
  split
  · exact safe_removeRecord apart first.1 (first.2 (.inl rfl))
  · exact safe_removeRecord apart first.1 (first.2 (.inr rfl))
  · exact ⟨first.1,fun fine => absurd fine (by simp)⟩

end Work

/-- The thread mutates this record, or is about to. -/
structure Begun (i : Nat) (x : Str) (s : Seen) : Prop where
  live : i ∈ s.state.live
  under : (i,x) ∈ s.history.under

theorem Begun.later (begun : Begun i x s) (rely : i ∈ t.state.live → Relied blake3 dirs i s t) (live : i ∈ t.state.live) :
    Begun i x t := ⟨live,(rely live).under x begun.under⟩

/-- A mutation begins: from now on nobody knows what the record holds. -/
theorem safe_begin (own : x ∈ handles) (about : call.physical blake3 = some x) (mutates : call.mutates = true) :
    Does blake3 cipher mode dirs handles i call
      (op .enter) (fun _ t => Begun i x t) s := by
  intro t _ inv _ c r v _ ran
  obtain ⟨-,u,performed,rfl⟩ := machine_exec ran
  obtain ⟨-,rfl⟩ := Prod.mk.inj (Option.some.inj performed)
  simp only [History.record,about,History.begin,mutates,if_true]
  have cells (d : Digest) : Cell blake3 mode handles { t.state with live := i :: t.state.live } d :=
    (inv.cells d).later rfl (.refl _)
  refine ⟨⟨{ inv with cells, under := ?_, watch := ?_, settled := ?_ },fun j other live => ?_⟩,
    ⟨List.mem_cons_self,List.mem_cons_self⟩⟩
  · intro e there
    rcases List.mem_cons.mp there with rfl | old
    · exact ⟨own,Function.update_self ..⟩
    · refine ⟨(inv.under e old).1,?_⟩
      by_cases same : e.2 = x
      · rw [same]
        exact Function.update_self ..
      · simpa [same] using (inv.under e old).2
  · intro e there
    obtain ⟨old,other⟩ := List.mem_filter.mp there
    have other : e.2.1 ≠ x := by simpa using other
    simpa [other] using inv.watch e old
  · intro y held settled
    have other : y ≠ x := by
      rintro rfl
      simp at settled
    exact inv.settled y held (by simpa [other] using settled)
  · refine ⟨List.mem_of_ne_of_mem other live,fun _ h => h,fun _ h => List.mem_cons_of_mem _ h,fun _ _ y _ _ _ => .refl _ y _,
      fun e there _ => ⟨(List.mem_filter.mp there).1,rfl⟩,fun h => h,rfl⟩

theorem safe_lock (begun : Begun i x s) (known : dir ∈ dirs) (within : scope blake3 dir <+: x) :
    Does blake3 cipher mode dirs handles i call
      (op (.lock dir)) (fun r t => Begun i x t ∧ (r = .ok () → Mine blake3 dirs i dir x t)) s := by
  intro t _ inv rely c r v _ ran
  obtain ⟨enabled,u,performed,rfl⟩ := machine_exec ran
  have live : i ∈ t.state.live := enabled.resolve_left (by simp [Op.enters])
  have begun' := begun.later rely live
  simp only [Device.perform] at performed
  split at performed
  · obtain ⟨rfl,rfl⟩ := Prod.mk.inj (Option.some.inj performed)
    exact ⟨⟨inv,fun j _ live => .refl blake3 dirs live⟩,begun',nofun⟩
  · split at performed
    · rename_i free
      obtain ⟨rfl,rfl⟩ := Prod.mk.inj (Option.some.inj performed)
      refine ⟨⟨{ inv with cells := fun d => (inv.cells d).later rfl (.refl _) },fun j other live => ?_⟩,⟨begun'.live,begun'.under⟩,
        fun _ => ⟨begun'.live,known,begun'.under,within,Function.update_self ..⟩⟩
      refine ⟨live,fun dir' locked => ?_,fun _ h => h,fun _ _ y _ _ _ => ⟨rfl,fun _ _ => .refl _⟩,
        fun e there _ => ⟨there,rfl⟩,fun h => h,rfl⟩
      have different : dir' ≠ dir := by
        rintro rfl
        rw [free] at locked
        cases locked
      simpa [different] using locked
    · cases performed

theorem safe_unlock (locked : s.state.locked dir = some i) :
    Does blake3 cipher mode dirs handles i call
      (op (.unlock dir)) (fun _ _ => True) s := by
  intro t _ inv rely c r v _ ran
  obtain ⟨enabled,u,performed,rfl⟩ := machine_exec ran
  obtain ⟨-,rfl⟩ := Prod.mk.inj (Option.some.inj performed)
  have locked' := (rely (enabled.resolve_left (by simp [Op.enters]))).locks dir locked
  refine ⟨⟨{ inv with cells := fun d => (inv.cells d).later rfl (.refl _) },fun j other live => ?_⟩,trivial⟩
  refine ⟨live,fun dir' theirs => ?_,fun _ h => h,fun _ _ y _ _ _ => ⟨rfl,fun _ _ => .refl _⟩,
    fun e there _ => ⟨there,rfl⟩,fun h => h,rfl⟩
  have different : dir' ≠ dir := by
    rintro rfl
    rw [locked'] at theirs
    exact other (Option.some.inj theirs).symm
  simpa [different] using theirs

/-- A mutation has its result; a success says what the record holds now. -/
theorem conclude_step {held : Option SecretMaterial} {r : Except SecureSecretStoreError Unit}
    (inv : Inv blake3 cipher mode handles s) (under : (i,x) ∈ s.history.under)
    (kept : r = .ok () → Kept blake3 cipher s.state x held) :
    Inv blake3 cipher mode handles ⟨s.state,s.history.conclude i x held r⟩ ∧
      ∀ j, j ≠ i → j ∈ s.state.live → Relied blake3 dirs j s ⟨s.state,s.history.conclude i x held r⟩ := by
  have own := inv.under _ under
  refine ⟨{ inv with under := ?_, watch := ?_, settled := ?_ },fun j other live => ?_⟩
  · intro e there
    have there' := (List.mem_filter.mp there).1
    refine ⟨(inv.under e there').1,?_⟩
    simp only [History.conclude]
    split
    · rename_i last
      rw [Function.update_of_ne (last.2 e there)]
      exact (inv.under e there').2
    · exact (inv.under e there').2
  · intro e there
    have watched := inv.watch e there
    have other : e.2.1 ≠ x := by
      intro same
      simp [same,own.2] at watched
    simp only [History.conclude]
    split
    · rw [Function.update_of_ne other]
      exact watched
    · exact watched
  · intro y held' settled
    simp only [History.conclude] at settled
    split at settled
    · rename_i last
      by_cases same : y = x
      · subst same
        rw [Function.update_self] at settled
        obtain rfl := Option.some.inj settled
        exact ⟨own.1,kept last.1⟩
      · rw [Function.update_of_ne same] at settled
        exact inv.settled y held' settled
    · exact inv.settled y held' settled
  · refine ⟨live,fun _ h => h,fun y h => List.mem_filter.mpr ⟨h,?_⟩,fun _ _ y _ _ _ => .refl _ y _,
      fun e there _ => ⟨there,rfl⟩,fun h => h,rfl⟩
    simp [other]

theorem safe_conclude {o : Op} {held : Option SecretMaterial} {r : Except SecureSecretStoreError Unit}
    (inside : o.enters = false) (quiet : ∀ t c a u, Device.perform blake3 cipher t i c o = some (a,u) → u = t)
    (records : ∀ h d a, History.record blake3 h d i call o a = h.conclude i x held r) (begun : Begun i x s)
    (kept : ∀ t : Seen, (i ∈ t.state.live → Relied blake3 dirs i s t) → i ∈ t.state.live → r = .ok () →
      Kept blake3 cipher t.state x held) :
    Does blake3 cipher mode dirs handles i call
      (op o) (fun _ t => ∀ dir, s.state.locked dir = some i → t.state.locked dir = some i) s := by
  intro t _ inv rely c a v _ ran
  obtain ⟨enabled,u,performed,rfl⟩ := machine_exec ran
  have live : i ∈ t.state.live := enabled.resolve_left (by simp [inside])
  obtain rfl := quiet _ _ _ _ performed
  rw [records]
  exact ⟨conclude_step inv (begun.later rely live).under (kept t rely live),(rely live).locks⟩

/-- A mutation of one record. -/
theorem safe_whileLocked {held : Option SecretMaterial} {p : Task (Except SecureSecretStoreError Unit)}
    {conclude : Except SecureSecretStoreError Unit → Op} (begun : Begun i x s) (known : dir ∈ dirs)
    (within : scope blake3 dir <+: x) (inside : ∀ r, (conclude r).enters = false)
    (quiet : ∀ r t c a u, Device.perform blake3 cipher t i c (conclude r) = some (a,u) → u = t)
    (records : ∀ r h d a, History.record blake3 h d i call (conclude r) a = h.conclude i x held r)
    (body : ∀ t, Mine blake3 dirs i dir x t →
      Does blake3 cipher mode dirs handles i call p
        (fun r u => Mine blake3 dirs i dir x u ∧ (r = .ok () → Kept blake3 cipher u.state x held)) t) :
    Does blake3 cipher mode dirs handles i call
      (whileLocked dir p fun r => discard (op (conclude r))) (fun _ _ => True) s := by
  refine safe_bind (safe_mono (fun r t locked => ?_) (safe_lock begun known within))
  cases r with
  | error e =>
    have concluded : Does blake3 cipher mode dirs handles i call (op (conclude (.error e))) (fun _ _ => True) t :=
      safe_mono (fun _ _ _ => trivial) (safe_conclude (inside _) (quiet _) (records _) locked.1 nofun)
    exact safe_bind (safe_bind (safe_mono (fun _ _ _ => trivial) concluded))
  | ok =>
    refine safe_bind (safe_mono (fun r u done => ?_) (body t (locked.2 rfl)))
    refine safe_bind (safe_bind (safe_mono (fun _ v free => ?_) (safe_conclude (inside r) (quiet r) (records r)
      ⟨done.1.live,done.1.under⟩ fun w rely live fine => (done.2 fine).later (done.1.later rely live).2)))
    exact safe_bind (safe_mono (fun _ _ _ => trivial) (safe_unlock (free dir done.1.locked)))

/-! Reads. -/

/-- The thread reads this record; if nobody has mutated it since, it is known what it holds. -/
structure Watching (i : Nat) (x : Str) (s : Seen) : Prop where
  live : i ∈ s.state.live
  about : ∀ e ∈ s.history.watch, e.1 = i → e.2.1 = x

theorem Watching.later (watching : Watching i x s) (relied : Relied blake3 dirs i s t) (live : i ∈ t.state.live) :
    Watching i x t := ⟨live,fun e there mine => watching.about e (relied.watch e there mine).1 mine⟩

theorem look_step (i : Nat) (dirs : Set Str) (inv : Inv blake3 cipher mode handles s) (faulty : Bool) :
    Inv blake3 cipher mode handles ⟨s.state,s.history.fault i faulty⟩ ∧
      ∀ j, j ∈ s.state.live → Relied blake3 dirs j s ⟨s.state,s.history.fault i faulty⟩ := by
  refine ⟨{ inv with },fun j live => ⟨live,fun _ h => h,fun _ h => h,fun _ _ y _ _ _ => .refl _ y _,fun e there _ => ⟨there,rfl⟩,
    fun h => ?_,rfl⟩⟩
  simp only [History.fault]
  split
  · exact List.mem_cons_of_mem i h
  · exact h

theorem safe_watch (own : x ∈ handles) (about : call.physical blake3 = some x) (reads : call.mutates = false) :
    Does blake3 cipher mode dirs handles i call (op .enter) (fun _ t => Watching i x t) s := by
  intro t _ inv _ c r v _ ran
  obtain ⟨-,u,performed,rfl⟩ := machine_exec ran
  obtain ⟨-,rfl⟩ := Prod.mk.inj (Option.some.inj performed)
  have cells (d : Digest) : Cell blake3 mode handles { t.state with live := i :: t.state.live } d :=
    (inv.cells d).later rfl (.refl _)
  have cases : ∀ e ∈ (t.history.begin i x false).watch,
      (e.1 = i ∧ e.2.1 = x ∧ t.history.settled x = some e.2.2) ∨ (e.1 ≠ i ∧ e ∈ t.history.watch) := by
    intro e there
    simp only [History.begin,Bool.false_eq_true,if_false] at there
    rcases List.mem_append.mp there with new | old
    · obtain ⟨held,settled,rfl⟩ := Option.map_eq_some_iff.mp (Option.mem_toList.mp new)
      exact .inl ⟨rfl,rfl,settled⟩
    · exact .inr (by simpa [and_comm] using List.mem_filter.mp old)
  simp only [History.record,about,reads]
  refine ⟨⟨{ inv with cells, watch := fun e there => ?_ },fun j other live => ?_⟩,⟨List.mem_cons_self,fun e there mine => ?_⟩⟩
  · rcases cases e there with ⟨-,same,settled⟩ | old
    · rw [same]
      exact ⟨own,settled⟩
    · exact inv.watch e old.2
  · refine ⟨List.mem_of_ne_of_mem other live,fun _ h => h,fun _ h => h,fun _ _ y _ _ _ => .refl _ y _,fun e there mine => ?_,
      fun h => h,rfl⟩
    rcases cases e there with new | old
    · exact absurd (mine.symm.trans new.1) other
    · exact ⟨old.2,rfl⟩
  · rcases cases e there with new | old
    · exact new.2.1
    · exact absurd mine old.1

/-- What was read of a record whose content is known. -/
def Found (blake3 : List UInt8 → Digest) (cipher : Cipher) (i : Nat) (x : Str)
    (r : Except SecureSecretStoreError (List UInt8)) (s : Seen) : Prop :=
  ∀ e ∈ s.history.watch, e.1 = i → match e.2.2 with
    | some material => (∃ bytes key value, r = .ok bytes ∧ s.state.keys (digest blake3 x) = some key ∧
        decodeRecord bytes x = .ok value ∧ cipher.decrypt key value.nonce value.ciphertext = some material.bytes) ∨
      i ∈ s.history.faulted
    | none => s.state.keys (digest blake3 x) = none

def Answered (i : Nat) (r : Except SecureSecretStoreError SecretMaterial) (s : Seen) : Prop :=
  ∀ e ∈ s.history.watch, e.1 = i → Right e.2.2 r (decide (i ∈ s.history.faulted))

theorem Found.later {r : Except SecureSecretStoreError (List UInt8)} (found : Found blake3 cipher i x r s)
    (watching : Watching i x s) (relied : Relied blake3 dirs i s t) : Found blake3 cipher i x r t := by
  intro e there mine
  obtain ⟨before,keys⟩ := relied.watch e there mine
  rw [watching.about e before mine] at keys
  have known := found e before mine
  split at known
  · rw [keys]
    exact known.imp_right relied.faulted
  · exact keys.trans known

theorem Answered.later {r : Except SecureSecretStoreError SecretMaterial} (answered : Answered i r s)
    (relied : Relied blake3 dirs i s t) : Answered i r t := by
  intro e there mine
  have known := answered e (relied.watch e there mine).1 mine
  cases held : e.2.2 with
  | none => simpa only [held,Right] using known
  | some material =>
    simp only [held,Right,decide_eq_true_eq] at known ⊢
    exact known.imp_right relied.faulted

theorem fault_true (h : History) : i ∈ (h.fault i true).faulted := by simp [History.fault]

theorem faults_outage (outage : Outage) : History.faults (.error outage.error : Except _ α) = true := by cases outage <;> rfl

theorem safe_readRecord (watching : Watching i x s) :
    Does blake3 cipher mode dirs handles i call (op (.readRecord x)) (fun r t => Watching i x t ∧ Found blake3 cipher i x r t) s := by
  intro t _ inv rely c r v _ ran
  obtain ⟨enabled,u,performed,rfl⟩ := machine_exec ran
  have live : i ∈ t.state.live := enabled.resolve_left (by simp [Op.enters])
  have watching' := watching.later (rely live) live
  simp only [Device.perform,Device.read] at performed
  have known (e : Nat × Str × Option SecretMaterial) (there : e ∈ t.history.watch) (mine : e.1 = i) :
      Kept blake3 cipher t.state x e.2.2 := by
    have watched := inv.watch e there
    rw [watching'.about e there mine] at watched
    exact (inv.settled x e.2.2 watched.2).2
  have step := look_step i dirs inv
  split at performed
  · rename_i outage _ _
    obtain ⟨rfl,rfl⟩ := Prod.mk.inj (Option.some.inj performed)
    refine ⟨⟨(step _).1,fun j _ => (step _).2 j⟩,⟨watching'.live,watching'.about⟩,fun e there mine => ?_⟩
    have kept := known e there mine
    split
    · exact .inr (by rw [History.record,faults_outage]; exact fault_true _)
    · rename_i none
      rw [none] at kept
      exact kept
  · rename_i absent
    obtain ⟨rfl,rfl⟩ := Prod.mk.inj (Option.some.inj performed)
    refine ⟨⟨(step _).1,fun j _ => (step _).2 j⟩,⟨watching'.live,watching'.about⟩,fun e there mine => ?_⟩
    have kept := known e there mine
    split
    · rename_i material held
      rw [held] at kept
      obtain ⟨key,-,-,files⟩ := kept
      obtain ⟨bytes,-,there,-⟩ := files _ Slot.may_seen
      rw [absent] at there
      cases there
    · rename_i none
      rw [none] at kept
      exact kept
  · rename_i bytes _ present
    obtain ⟨rfl,rfl⟩ := Prod.mk.inj (Option.some.inj performed)
    refine ⟨⟨(step _).1,fun j _ => (step _).2 j⟩,⟨watching'.live,watching'.about⟩,fun e there mine => ?_⟩
    have kept := known e there mine
    split
    · rename_i material held
      rw [held] at kept
      obtain ⟨key,keyed,-,files⟩ := kept
      obtain ⟨bytes',value,there,decoded,opened⟩ := files _ Slot.may_seen
      rw [present] at there
      obtain rfl := Option.some.inj there
      exact .inl ⟨bytes,key,value,rfl,keyed,decoded,opened⟩
    · rename_i none
      rw [none] at kept
      exact kept

theorem new_bytes (material : SecretMaterial) : SecretMaterial.new material.bytes = .ok material := dif_pos material.valid

theorem safe_keystoreOpen {bytes : List UInt8} {value : AndroidSealedValue} (watching : Watching i x s)
    (found : Found blake3 cipher i x (.ok bytes) s) (decoded : decodeRecord bytes x = .ok value) :
    Does blake3 cipher mode dirs handles i call (op (.keystoreOpen x value)) (fun r t => Watching i x t ∧
      ∀ plain, (∀ plaintext, r = .ok plaintext → plain = (SecretMaterial.new plaintext).mapError fun _ => .corrupted) →
        (∀ e, r = .error e → plain = .error e) → Answered i plain t) s := by
  intro t _ inv rely c r v _ ran
  obtain ⟨enabled,u,performed,rfl⟩ := machine_exec ran
  have live : i ∈ t.state.live := enabled.resolve_left (by simp [Op.enters])
  have watching' := watching.later (rely live) live
  have found' := found.later watching (rely live)
  simp only [Device.perform] at performed
  have step := look_step i dirs inv
  have known (e : Nat × Str × Option SecretMaterial) (there : e ∈ t.history.watch) (mine : e.1 = i) :=
    found' e there mine
  split at performed
  · rename_i outage _ _
    obtain ⟨rfl,rfl⟩ := Prod.mk.inj (Option.some.inj performed)
    refine ⟨⟨(step _).1,fun j _ => (step _).2 j⟩,⟨watching'.live,watching'.about⟩,fun plain _ error e there mine => ?_⟩
    rw [error _ rfl,History.record,faults_outage]
    cases e.2.2 with
    | none => exact nofun
    | some material => exact .inr (decide_eq_true (fault_true _))
  · rename_i _ keyless
    obtain ⟨rfl,rfl⟩ := Prod.mk.inj (Option.some.inj performed)
    refine ⟨⟨(step _).1,fun j _ => (step _).2 j⟩,⟨watching'.live,watching'.about⟩,fun plain _ error e there mine => ?_⟩
    have here := known e there mine
    rw [error _ rfl]
    cases held : e.2.2 with
    | none => exact nofun
    | some material =>
      rw [held] at here
      rcases here with ⟨_,key,_,-,keyed,-⟩ | faulted
      · rw [keyless] at keyed
        cases keyed
      · exact .inr (by simpa [History.record,History.fault,History.faults] using faulted)
  · rename_i key _ keyed
    have opens (e : Nat × Str × Option SecretMaterial) (there : e ∈ t.history.watch) (mine : e.1 = i) :
        ∃ material, e.2.2 = some material ∧
          (cipher.decrypt key value.nonce value.ciphertext = some material.bytes ∨ i ∈ t.history.faulted) := by
      have here := known e there mine
      cases held : e.2.2 with
      | none =>
        rw [held,keyed] at here
        cases here
      | some material =>
        refine ⟨material,rfl,?_⟩
        rw [held] at here
        refine here.imp_left fun ⟨bytes',key',value',same,keyed',decoded',opened⟩ => ?_
        obtain rfl := Except.ok.inj same
        obtain rfl := Option.some.inj (keyed.symm.trans keyed')
        obtain rfl := Except.ok.inj (decoded.symm.trans decoded')
        exact opened
    split at performed <;> obtain ⟨rfl,rfl⟩ := Prod.mk.inj (Option.some.inj performed)
    · rename_i plaintext decrypted
      refine ⟨⟨(step _).1,fun j _ => (step _).2 j⟩,⟨watching'.live,watching'.about⟩,fun plain fine _ e there mine => ?_⟩
      obtain ⟨material,held,opened⟩ := opens e there mine
      rw [held,fine _ rfl]
      refine opened.imp (fun opened => ?_) fun faulted => ?_
      · rw [decrypted] at opened
        rw [Option.some.inj opened,new_bytes]
        rfl
      · simpa [History.record,History.fault,History.faults] using faulted
    · rename_i locked
      refine ⟨⟨(step _).1,fun j _ => (step _).2 j⟩,⟨watching'.live,watching'.about⟩,fun plain _ _ e there mine => ?_⟩
      obtain ⟨material,held,opened⟩ := opens e there mine
      rw [held]
      refine .inr ?_
      rw [locked] at opened
      simpa [History.record,History.fault,History.faults] using opened

theorem safe_concludeGet {r : Except SecureSecretStoreError SecretMaterial} (answered : Answered i r s) :
    Does blake3 cipher mode dirs handles i call (op (.concludeGet r)) (fun _ _ => True) s := by
  intro t _ inv rely c a v _ ran
  obtain ⟨enabled,u,performed,rfl⟩ := machine_exec ran
  have live : i ∈ t.state.live := enabled.resolve_left (by simp [Op.enters])
  obtain ⟨-,rfl⟩ := Prod.mk.inj (Option.some.inj performed)
  have answered' := answered.later (rely live)
  refine ⟨⟨{ inv with watch := fun e there => ?_, answers := fun a there => ?_ },fun j other live => ?_⟩,trivial⟩
  · exact inv.watch e (List.mem_filter.mp there).1
  · rcases List.mem_append.mp there with new | old
    · obtain ⟨e,mine,rfl⟩ := List.mem_map.mp new
      obtain ⟨there,mine⟩ := List.mem_filter.mp mine
      exact answered' e there (by simpa using mine)
    · exact inv.answers a old
  · exact ⟨live,fun _ h => h,fun _ h => h,fun _ _ y _ _ _ => .refl _ y _,fun e there _ => ⟨(List.mem_filter.mp there).1,rfl⟩,
      fun h => h,rfl⟩

/-- What a read answers is what the record holds, if no mutation has overlapped it. -/
theorem safe_get (own : x ∈ handles) (about : call.physical blake3 = some x) (reads : call.mutates = false) :
    Does blake3 cipher mode dirs handles i call (do
      op .enter
      discard (do
        let result ← get x
        op (.concludeGet result)
        return result)) (fun _ _ => True) s := by
  refine safe_bind (safe_mono (fun _ t watching => ?_) (safe_watch own about reads))
  have read : Does blake3 cipher mode dirs handles i call (get x) (fun r u => Watching i x u ∧ Answered i r u) t := by
    refine safe_bind (safe_mono (fun r u first => ?_) (safe_readRecord watching))
    have failed (e : SecureSecretStoreError) (unread : ∀ bytes value, r = .ok bytes → decodeRecord bytes x ≠ .ok value) :
        Answered i (.error e) u := by
      intro w there mine
      have here := first.2 w there mine
      cases held : w.2.2 with
      | none => exact nofun
      | some material =>
        rw [held] at here
        rcases here with ⟨bytes,_,value,fine,-,decoded,-⟩ | faulted
        · exact absurd decoded (unread bytes value fine)
        · exact .inr (decide_eq_true faulted)
    cases r with
    | error e => exact ⟨first.1,failed e nofun⟩
    | ok bytes =>
      cases decoded : decodeRecord bytes x with
      | error e =>
        simp only [decoded]
        exact ⟨first.1,failed e fun _ _ same => by cases same; simp [decoded]⟩
      | ok value =>
        simp only [decoded]
        refine safe_bind (safe_mono (fun r v second => ?_) (safe_keystoreOpen first.1 first.2 decoded))
        cases r with
        | error e => exact ⟨second.1,second.2 _ nofun fun _ same => by cases same; rfl⟩
        | ok plaintext => exact ⟨second.1,second.2 _ (fun _ same => by cases same; rfl) nofun⟩
  refine safe_bind (safe_bind (safe_mono (fun r u done => ?_) read))
  exact safe_bind (safe_mono (fun _ _ _ => trivial) (safe_concludeGet done.2))

/-! Lists. -/

theorem safe_readFile {name : FileName} :
    Does blake3 cipher mode dirs handles i call (op (.readFile name)) (fun r t =>
      (i ∈ t.state.live → Relied blake3 dirs i s t) ∧ ∀ bytes, r = .ok bytes → name.temporary = false →
        ∃ x ∈ handles, digest blake3 x = name.digest ∧ decodeHandleFromRecord bytes = .ok x) s := by
  intro t _ inv rely c r v _ ran
  obtain ⟨-,u,performed,rfl⟩ := machine_exec ran
  simp only [Device.perform,Device.read] at performed
  split at performed <;> obtain ⟨rfl,rfl⟩ := Prod.mk.inj (Option.some.inj performed)
  · exact ⟨⟨inv,fun j _ live => .refl blake3 dirs live⟩,rely,nofun⟩
  · exact ⟨⟨inv,fun j _ live => .refl blake3 dirs live⟩,rely,nofun⟩
  · rename_i bytes _ present
    refine ⟨⟨inv,fun j _ live => .refl blake3 dirs live⟩,rely,fun bytes' same final => ?_⟩
    obtain rfl := Except.ok.inj same
    refine (inv.cells name.digest).named bytes ?_
    have seen : (t.state.disk.slot ⟨name.digest,false⟩).seen = some bytes := by
      rw [← final]
      exact present
    exact seen ▸ Slot.may_seen

/-- Every record that is in the directory is in the list. -/
theorem safe_readEach (names : List FileName) :
    Does blake3 cipher mode dirs handles i call (readEach names) (fun r t => (i ∈ t.state.live → Relied blake3 dirs i s t) ∧
      ∀ found, r = .ok found → ∀ d, ⟨d,false⟩ ∈ names → ∃ x ∈ found, x ∈ handles ∧ digest blake3 x = d) s := by
  induction names generalizing s with
  | nil => exact ⟨fun live => .refl blake3 dirs live,fun _ _ _ => nofun⟩
  | cons name names ih =>
    unfold readEach
    split
    · rename_i skipped
      refine safe_mono (fun r t rest => ⟨rest.1,fun found fine d there => ?_⟩) ih
      refine rest.2 found fine d ((List.mem_cons.mp there).resolve_left fun same => skipped ?_)
      rw [← same]
      rfl
    · rename_i whole
      have final : name.temporary = false := by
        by_contra temporary
        exact whole (by simp [FileName.extension,temporary,RECORD_EXTENSION])
      refine safe_bind (safe_mono (fun r t first => ?_) safe_readFile)
      cases r with
      | error e => exact ⟨first.1,nofun⟩
      | ok bytes =>
        obtain ⟨x,own,named,decoded⟩ := first.2 bytes rfl final
        simp only [decoded]
        refine safe_bind (safe_mono (fun r u rest => ?_) ih)
        have since (live : i ∈ u.state.live) : Relied blake3 dirs i s u := (first.1 (rest.1 live).live).trans (rest.1 live)
        cases r with
        | error e => exact ⟨since,nofun⟩
        | ok found =>
          refine ⟨since,fun all fine d there => ?_⟩
          obtain rfl := Except.ok.inj fine
          rcases List.mem_cons.mp there with same | later
          · exact ⟨x,List.mem_cons_self,own,by rw [named,← same]⟩
          · obtain ⟨y,listed,rest⟩ := rest.2 found rfl d later
            exact ⟨y,List.mem_cons_of_mem x listed,rest⟩

theorem logical_physical {handle : Str} (named : physicalHandle blake3 dir handle = .ok x) :
    logicalHandle blake3 dir x = some handle := by
  unfold physicalHandle at named
  split at named
  · rename_i suffix opened
    obtain rfl := Except.ok.inj named
    have whole := List.isPrefixOf?_eq_some_iff_append_eq.mp opened
    rw [logicalHandle,List.isPrefixOf?_eq_some_iff_append_eq.mpr rfl,Option.map_some,whole]
  · cases named

theorem safe_enter (general : call.physical blake3 = none) :
    Does blake3 cipher mode dirs handles i call (op .enter) (fun _ _ => True) s := by
  intro t _ inv _ c r v _ ran
  obtain ⟨-,u,performed,rfl⟩ := machine_exec ran
  obtain ⟨-,rfl⟩ := Prod.mk.inj (Option.some.inj performed)
  simp only [History.record,general]
  refine ⟨⟨{ inv with cells := fun d => (inv.cells d).later rfl (.refl _) },fun j other live => ?_⟩,trivial⟩
  exact ⟨List.mem_of_ne_of_mem other live,fun _ h => h,fun _ h => h,fun _ _ y _ _ _ => ⟨rfl,fun _ _ => .refl _⟩,
    fun e there _ => ⟨there,rfl⟩,fun h => h,rfl⟩

/-- Where there is a key, the directory has a record. -/
theorem safe_readDir :
    Does blake3 cipher mode dirs handles i call (op .readDir) (fun r t => ∀ names, r = .ok names → mode ≠ .any →
      ∀ d, t.history.snapshot i d ≠ none → ⟨d,false⟩ ∈ names) s := by
  intro t _ inv rely c r v _ ran
  obtain ⟨-,u,performed,rfl⟩ := machine_exec ran
  obtain ⟨which,full,-⟩ := attempt_cases performed
  obtain rfl : u = t.state := which.elim id id
  cases r with
  | error e => exact ⟨⟨inv,fun j _ live => .refl blake3 dirs live⟩,nofun⟩
  | ok names =>
    refine ⟨⟨{ inv with },fun j other live => ?_⟩,fun found fine which d there => ?_⟩
    · refine ⟨live,fun _ h => h,fun _ h => h,fun _ _ y _ _ _ => .refl _ y _,fun e there _ => ⟨there,rfl⟩,fun h => h,?_⟩
      exact Function.update_of_ne other ..
    · obtain rfl := Except.ok.inj fine
      have keyed : t.state.keys d ≠ none := by simpa [History.record] using there
      rw [(full names rfl).1,Disk.mem_list]
      exact ((inv.cells d).backed keyed which).1

/-- What a list that is answered has. -/
def Complete (blake3 : List UInt8 → Digest) (mode : Mode) (handles : Set Str) (i : Nat)
    (r : Except SecureSecretStoreError (List Str)) (s : Seen) : Prop :=
  i ∈ s.state.live → mode ≠ .any → ∀ found, r = .ok found → ∀ d, s.history.snapshot i d ≠ none →
    ∃ x ∈ found, x ∈ handles ∧ digest blake3 x = d

theorem safe_listHandles :
    Does blake3 cipher mode dirs handles i call listHandles (Complete blake3 mode handles i) s := by
  refine safe_andThen (safe_mono (fun r t first => ⟨fun names read => ?_,fun e failed _ _ => nofun⟩) safe_readDir)
  refine safe_andThen (safe_mono (fun r u second => ⟨fun found same live which all fine d there => ?_,fun e failed _ _ => nofun⟩)
    (safe_readEach names))
  obtain rfl := Except.ok.inj fine
  rw [(second.1 live).snapshot] at there
  obtain ⟨x,listed,rest⟩ := second.2 found same d (first names read which d there)
  exact ⟨x,List.mem_mergeSort.mpr listed,rest⟩

theorem safe_concludeList {r : Except SecureSecretStoreError (List Str)} (apart : Apart blake3 dirs handles)
    (complete : Complete blake3 mode handles i r s) :
    Does blake3 cipher mode dirs handles i (.list dir)
      (op (.concludeList (r.map fun found => found.filterMap (logicalHandle blake3 dir)))) (fun _ _ => True) s := by
  intro t _ inv rely c a v _ ran
  obtain ⟨enabled,u,performed,rfl⟩ := machine_exec ran
  obtain ⟨-,rfl⟩ := Prod.mk.inj (Option.some.inj performed)
  have relied := rely (enabled.resolve_left (by simp [Op.enters]))
  cases r with
  | error e => exact ⟨⟨inv,fun j _ live => .refl blake3 dirs live⟩,trivial⟩
  | ok found =>
    refine ⟨⟨{ inv with listings := fun which l there handle x named own keyed => ?_ },fun j other live => ?_⟩,trivial⟩
    · rcases List.mem_cons.mp there with rfl | old
      · rw [relied.snapshot] at keyed
        obtain ⟨y,listed,known,same⟩ := complete relied.live which found rfl _ keyed
        obtain rfl := apart.digests known own same
        exact List.mem_filterMap.mpr ⟨y,listed,logical_physical named⟩
      · exact inv.listings which l old handle x named own keyed
    · exact ⟨live,fun _ h => h,fun _ h => h,fun _ _ y _ _ _ => .refl _ y _,fun e there _ => ⟨there,rfl⟩,fun h => h,rfl⟩

theorem safe_list (apart : Apart blake3 dirs handles) :
    Does blake3 cipher mode dirs handles i (.list dir) (Call.body blake3 (.list dir)) (fun _ _ => True) s :=
  safe_bind (safe_mono (fun _ _ _ => safe_bind (safe_mono (fun _ _ complete => safe_concludeList apart complete) safe_listHandles))
    (safe_enter rfl))

/-! Calls, and what happens to the process. -/

theorem scope_opens {handle : Str} (named : physicalHandle blake3 dir handle = .ok x) : scope blake3 dir <+: x := by
  unfold physicalHandle at named
  split at named
  · rename_i suffix _
    exact ⟨suffix,Except.ok.inj named⟩
  · cases named

theorem safe_onPhysical {handle : Str} {p : Str → Task (Except SecureSecretStoreError α)}
    (body : ∀ x, physicalHandle blake3 dir handle = .ok x → Does blake3 cipher mode dirs handles i call
      (do op .enter; discard (p x)) (fun _ _ => True) s) :
    Does blake3 cipher mode dirs handles i call (onPhysical blake3 dir handle p) (fun _ _ => True) s := by
  unfold onPhysical
  split
  · trivial
  · rename_i x named
    exact body x named

/-- A call that mutates a record, which it has the lock of the profile for. -/
theorem safe_mutation (held : Option SecretMaterial) {p : Task (Except SecureSecretStoreError Unit)}
    {conclude : Except SecureSecretStoreError Unit → Op} (own : x ∈ handles) (about : call.physical blake3 = some x)
    (mutates : call.mutates = true) (known : dir ∈ dirs) (within : scope blake3 dir <+: x)
    (inside : ∀ r, (conclude r).enters = false)
    (quiet : ∀ r t c a u, Device.perform blake3 cipher t i c (conclude r) = some (a,u) → u = t)
    (records : ∀ r h d a, History.record blake3 h d i call (conclude r) a = h.conclude i x held r)
    (body : ∀ t, Mine blake3 dirs i dir x t →
      Does blake3 cipher mode dirs handles i call p
        (fun r u => Mine blake3 dirs i dir x u ∧ (r = .ok () → Kept blake3 cipher u.state x held)) t) :
    Does blake3 cipher mode dirs handles i call (do
      op .enter
      discard (whileLocked dir p fun r => discard (op (conclude r)))) (fun _ _ => True) s := by
  refine safe_bind (safe_mono (fun _ t begun => ?_) (safe_begin own about mutates))
  have whole := safe_whileLocked begun known within inside quiet records body
  exact safe_bind (safe_mono (fun _ _ _ => trivial) whole)

theorem call_safe (apart : Apart blake3 dirs handles) (starts : (guard blake3 mode dirs handles).starts s call) :
    Does blake3 cipher mode dirs handles i call (Call.body blake3 call) (fun _ _ => True) s := by
  obtain ⟨own,known⟩ := starts
  cases call with
  | put dir handle material =>
    refine safe_onPhysical fun x named => ?_
    have about : (Call.put dir handle material).physical blake3 = some x := by simp [Call.physical,named,Except.toOption]
    exact safe_mutation (some material) (own x about) about rfl known (scope_opens named) (fun _ => rfl)
      (fun _ _ _ _ _ same => (Prod.mk.inj (Option.some.inj same)).2.symm) (fun r h d a => by simp [History.record,about])
      fun t mine => safe_mono (fun _ _ done => done) (safe_put apart mine)
  | delete dir handle =>
    refine safe_onPhysical fun x named => ?_
    have about : (Call.delete dir handle).physical blake3 = some x := by simp [Call.physical,named,Except.toOption]
    exact safe_mutation none (own x about) about rfl known (scope_opens named) (fun _ => rfl)
      (fun _ _ _ _ _ same => (Prod.mk.inj (Option.some.inj same)).2.symm) (fun r h d a => by simp [History.record,about])
      fun t mine => safe_mono (fun _ _ done => done) (safe_delete apart mine)
  | get dir handle =>
    refine safe_onPhysical fun x named => ?_
    have about : (Call.get dir handle).physical blake3 = some x := by simp [Call.physical,named,Except.toOption]
    exact safe_get (own x about) about rfl
  | list dir => exact safe_list apart

/-- A process that ends takes its threads and locks with it. -/
theorem stop_step (inv : Inv blake3 cipher mode handles s) :
    Inv blake3 cipher mode handles
      ⟨{ s.state with locked := fun _ => none, live := [] },s.history.witness s.state .stop⟩ :=
  { inv with
    cells := fun d => (inv.cells d).later rfl (.refl _)
    under := nofun
    watch := nofun }

/-- What the disk holds after a power cut it could hold before. -/
theorem cut_step {found : FileName → Option (List UInt8)} (left : s.state.disk.Left found) (lossy : mode ≠ .powered)
    (inv : Inv blake3 cipher mode handles s) :
    Inv blake3 cipher mode handles
      ⟨{ s.state with disk := s.state.disk.cut found, locked := fun _ => none, live := [] },
        s.history.witness s.state (.cut found)⟩ := by
  refine { inv with cells := fun d => ⟨?_,fun bytes may => ?_,fun keyed which => ?_⟩, under := nofun, watch := nofun, settled := ?_ }
  · exact Disk.cut_known (inv.cells d).known
  · exact (inv.cells d).named bytes (Disk.cut_may left may)
  · have synced : mode = .synced := by cases mode <;> simp_all
    have lasting := ((inv.cells d).backed keyed which).2 synced
    refine ⟨fun lost => lasting (Disk.cut_may left ?_),fun _ lost => lasting (Disk.cut_may left lost)⟩
    rw [← lost]
    exact Slot.may_seen
  · intro x held settled
    obtain ⟨own,kept⟩ := inv.settled x held settled
    refine ⟨own,?_⟩
    cases held with
    | none => exact kept
    | some material =>
      obtain ⟨key,there,known,files⟩ := kept
      exact ⟨key,there,Disk.cut_known known,fun file may => files file (Disk.cut_may left may)⟩

theorem event_step {e : Event} (inv : Inv blake3 cipher mode handles s) (ok : (guard blake3 mode dirs handles).events s e)
    (moved : (machine blake3 cipher).env s e = some t) :
    (terms blake3 cipher mode dirs handles).inv t ∧ ∀ j, (terms blake3 cipher mode dirs handles).rely j s t := by
  obtain ⟨u,ran,rfl⟩ := Option.map_eq_some_iff.mp moved
  cases e with
  | stop =>
    obtain rfl := Option.some.inj ran
    exact ⟨stop_step inv,fun j => nofun⟩
  | cut found =>
    simp only [store,env] at ran
    split at ran
    · rename_i left
      obtain rfl := Option.some.inj ran
      exact ⟨cut_step left ok inv,fun j => nofun⟩
    · cases ran

theorem init_inv (init : (machine blake3 cipher).init s) : Inv blake3 cipher mode handles s := by
  obtain ⟨⟨disk,keys,-,-⟩,history⟩ := init
  constructor
  · intro d
    constructor
    · simp [disk,Disk.empty,Slot.empty]
    · intro bytes may
      rw [disk] at may
      cases Slot.may_empty.mp may
    · simp [keys]
  all_goals simp [history,History.new]

theorem reach_inv (apart : Apart blake3 dirs handles) {c : Conf Seen Call Op Ans}
    (reach : Reach (machine blake3 cipher).system (guard blake3 mode dirs handles).holds c) :
    Inv blake3 cipher mode handles c.shared := by
  have secured : Secured (machine blake3 cipher) (guard blake3 mode dirs handles)
      (terms blake3 cipher mode dirs handles) (fun _ _ _ => True) c :=
    reach_secured (fun _ _ => trivial) (fun s init => init_inv init) (fun c call _ _ _ starts => call_safe apart starts)
      (fun _ _ _ _ _ _ => trivial) (fun s e t _ inv ok moved => event_step inv ok moved) reach
  exact secured.inv

/-- A record that a put has completed holds its material, whatever a power cut leaves of it, and a
record that was deleted has lost its key, as long as no other call mutates it; and a read that no
mutation has overlapped answers with the material, or fails as an operation of it did. -/
theorem secrets_kept (apart : Apart blake3 dirs handles) {c : Conf Seen Call Op Ans}
    (reach : Reach (machine blake3 cipher).system (guard blake3 .any dirs handles).holds c) :
    (∀ x held, c.shared.history.settled x = some held → Kept blake3 cipher c.shared.state x held) ∧
      ∀ a ∈ c.shared.history.answers, Right a.1 a.2.1 a.2.2 :=
  have inv := reach_inv apart reach
  ⟨fun x held settled => (inv.settled x held settled).2,inv.answers⟩

/-- Where puts build only on records that are not lost any more, no key is without a record that
names its handle, and every list has each handle that had a key when the directory was read. -/
theorem keys_listed (apart : Apart blake3 dirs handles) (lossless : mode ≠ .any) {c : Conf Seen Call Op Ans}
    (reach : Reach (machine blake3 cipher).system (guard blake3 mode dirs handles).holds c) :
    (∀ d, c.shared.state.keys d ≠ none → ∃ x ∈ handles, digest blake3 x = d ∧
      ∃ bytes, (c.shared.state.disk.slot ⟨d,false⟩).seen = some bytes ∧ decodeHandleFromRecord bytes = .ok x) ∧
    ∀ l ∈ c.shared.history.listings, ∀ handle x, physicalHandle blake3 l.1 handle = .ok x → x ∈ handles →
      l.2.1 (digest blake3 x) ≠ none → handle ∈ l.2.2 := by
  have inv := reach_inv apart reach
  refine ⟨fun d keyed => ?_,inv.listings lossless⟩
  have cell := inv.cells d
  obtain ⟨bytes,seen⟩ := Option.ne_none_iff_exists'.mp (cell.backed keyed lossless).1
  obtain ⟨x,own,named,decoded⟩ := cell.named bytes (seen ▸ Slot.may_seen)
  exact ⟨x,own,named,bytes,seen,decoded⟩

end Steps

namespace Sample

/-- A digest of the last byte. -/
def hash (bytes : List UInt8) : Digest := Vector.replicate 32 (bytes.getLastD 0)

def plain : Cipher := ⟨fun _ _ bytes => bytes,fun _ _ bytes => some bytes,fun _ _ _ => rfl⟩

def profile : Str := "/a".toList

def one : Str := "vnidrop/v1/1".toList

def material : SecretMaterial := ⟨List.replicate 32 7,by decide⟩

def works : Choice := ⟨none,true,[],[5]⟩

def fails : Choice := { works with outage := some .unavailable }

def physical : Str := scope hash profile ++ ['1']

def other : Str := scope hash profile ++ ['2']

theorem apart : Apart hash {profile} {physical,other} :=
  ⟨(Set.injOn_pair ..).mpr fun same => absurd same (by decide +kernel),Set.injOn_singleton _ _⟩

deriving instance DecidableEq for SecretMaterial

abbrev Labels := List (Label Call Choice Event)

def start : Conf Seen Call Op Ans := ⟨⟨⟨.empty,fun _ => none,0,fun _ => none,[]⟩,.new⟩,[]⟩

def allowed (mode : Mode) : Label Call Choice Event → Bool
  | .fork call => call.physical hash ∈ [none,some physical,some other] && call.appDataDir = profile
  | .act .. => true
  | .env (.cut _) => mode ≠ .powered
  | .env .stop => true

theorem meets_allowed {mode : Mode} (loose : mode ≠ .synced) {labels : Labels} (all : labels.all (allowed mode) = true)
    (c : Conf Seen Call Op Ans) :
    (machine hash plain).system.Meets (guard hash mode {profile} {physical,other}).holds c labels := by
  induction labels generalizing c with
  | nil => trivial
  | cons a labels ih =>
    rw [List.all_cons,Bool.and_eq_true] at all
    refine ⟨?_,fun t _ => ih all.2 t⟩
    rcases a with call | ⟨i,choice⟩ | e
    · have both := all.1
      simp only [allowed,Bool.and_eq_true,decide_eq_true_eq] at both
      refine ⟨fun x about => ?_,both.2⟩
      have listed := both.1
      rw [Option.mem_def.mp about] at listed
      simpa using listed
    · intro t _
      split
      · rename_i o _ _
        cases o <;> first | trivial | exact fun synced => absurd synced loose
      · trivial
    · cases e with
      | stop => trivial
      | cut =>
        have lossy : mode ≠ .powered := of_decide_eq_true all.1
        exact lossy

def sealedRecord : List UInt8 := (encodeRecord physical RECORD_SEALED (some ⟨[5],material.bytes⟩)).toOption.getD []

/-- The power is cut when the put has its result. -/
def restored : Labels :=
  .fork (.put profile one material) :: List.replicate 14 (.act 0 works) ++
    .env (.cut fun n => if n.temporary then none else some sealedRecord) ::
    .fork (.get profile one) :: List.replicate 4 (.act 1 works)

/-- The process ends when the put has generated a key. -/
def interrupted : Labels :=
  .fork (.put profile one material) :: List.replicate 8 (.act 0 works) ++
    .env .stop :: .fork (.list profile) :: List.replicate 4 (.act 1 works)

end Sample

open Sample in
theorem secrets_restored : ∃ c, (machine hash plain).system.run start restored = some c ∧
    c.shared.history.answers = [(some material,.ok material,false)] ∧
    ∀ a ∈ c.shared.history.answers, Right a.1 a.2.1 a.2.2 := by
  have ran : ((machine hash plain).system.run start restored).map (fun c => c.shared.history.answers) =
      some [(some material,.ok material,false)] := by decide +kernel
  obtain ⟨c,run,answers⟩ := Option.map_eq_some_iff.mp ran
  have reach : Reach (machine hash plain).system (guard hash .any {profile} {physical,other}).holds start :=
    .start _ ⟨⟨⟨rfl,rfl,rfl,rfl⟩,rfl⟩,rfl⟩
  exact ⟨c,run,answers,(secrets_kept apart (reach.run (meets_allowed (by decide) (by decide +kernel) _) run)).2⟩

open Sample in
theorem interrupted_listed : ∃ c, (machine hash plain).system.run start interrupted = some c ∧
    c.shared.history.listings.map (fun l => (l.1,l.2.2)) = [(profile,[one])] ∧
    ∀ d, c.shared.state.keys d ≠ none → ∃ x ∈ ({physical,other} : Set Str), digest hash x = d ∧
      ∃ bytes, (c.shared.state.disk.slot ⟨d,false⟩).seen = some bytes ∧ decodeHandleFromRecord bytes = .ok x := by
  have ran : ((machine hash plain).system.run start interrupted).map
      (fun c => c.shared.history.listings.map fun l => (l.1,l.2.2)) = some [(profile,[one])] := by decide +kernel
  obtain ⟨c,run,listings⟩ := Option.map_eq_some_iff.mp ran
  have reach : Reach (machine hash plain).system (guard hash .powered {profile} {physical,other}).holds start :=
    .start _ ⟨⟨⟨rfl,rfl,rfl,rfl⟩,rfl⟩,rfl⟩
  exact ⟨c,run,listings,(keys_listed apart (by decide) (reach.run (meets_allowed (by decide) (by decide +kernel) _) run)).1⟩

open Sample in
/-- A process ends before the directory is synced, the next put finds the record and generates a key,
and a power cut takes the record: the key stays without one. -/
example : ((machine hash plain).system.run start (
    .fork (.put profile one material) :: List.replicate 6 (.act 0 works) ++ .env .stop ::
      .fork (.put profile one material) :: List.replicate 4 (.act 1 works) ++ [.env (.cut fun _ => none)])).map
    (fun c => (c.shared.state.keys (digest hash physical),(c.shared.state.disk.slot (recordPath hash physical)).seen)) =
      some (some 0,none) := by decide +kernel

end Vnidrop.AndroidSecrets
