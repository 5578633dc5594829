import Vnidrop.Excepts
import Vnidrop.Newest
import Vnidrop.Paths
import Vnidrop.ReceiverRequests
import Mathlib

/-! The event history, `transfer_events`. It is pruned to the greatest rows by timestamp and
id, and read back by timestamp and revision; the id is a text. -/
namespace Vnidrop.EventHistory

open Excepts Newest Tables
open Invitation (toDbId)
open Paths (Str)

structure CoreEvent where
  id : Str
  revision : Nat
  timestamp : Millis
  scope : String
  transferId : Option TransferId
  direction : Option String
  phase : String
  kind : String
  dataJson : String
  deriving DecidableEq

abbrev TransferEvents := Table CoreEvent.id

/-- `format!("{timestamp}-{revision}")`. -/
def eventId (timestamp : Millis) (revision : Nat) : Str :=
  (toString timestamp).toList ++ '-' :: Nat.toDigits 10 revision

/-- What the core has to say, and when. -/
structure Emission where
  timestamp : Millis
  scope : String
  transferId : Option TransferId
  direction : Option String
  phase : String
  kind : String
  dataJson : String
  deriving DecidableEq

structure EventHub where
  sequence : Nat

/-- The counter stays at its greatest value when it has got there. -/
def EventHub.emit (hub : EventHub) (e : Emission) : CoreEvent × EventHub :=
  (⟨eventId e.timestamp hub.sequence,hub.sequence,e.timestamp,e.scope,e.transferId,e.direction,e.phase,
    e.kind,e.dataJson⟩,⟨min (hub.sequence + 1) 18446744073709551615⟩)

def EventHub.emitAll (hub : EventHub) : List Emission → List CoreEvent
  | [] => []
  | e :: es => (hub.emit e).1 :: (hub.emit e).2.emitAll es

/-- `ORDER BY timestamp, id`. -/
def pruneOrder (e : CoreEvent) : Int ×ₗ Str := toLex (e.timestamp,e.id)

/-- `ORDER BY timestamp, revision`. -/
def listOrder (e : CoreEvent) : Int ×ₗ Nat := toLex (e.timestamp,e.revision)

def insertEvent (t : TransferEvents) (event : CoreEvent) (maxHistory : Nat) : Except VnidropError TransferEvents := do
  let _ ← toDbId event.revision
  let _ ← event.transferId.mapM toDbId
  -- `INSERT OR REPLACE`
  let t := (t.delete event.id).insertOrIgnore event
  let limit ← toDbId maxHistory
  let kept := (greatest pruneOrder limit t.rows).map CoreEvent.id
  return t.deleteWhere fun e => e.id ∉ kept

def listEvents (t : TransferEvents) (transferId : Option TransferId) (limit : Nat) :
    Except VnidropError (List CoreEvent) :=
  match transferId with
  | some id => do
    let id ← toDbId id
    let limit ← toDbId limit
    return ((t.rows.filter fun e => e.transferId = some id).mergeSort fun a b =>
      decide (listOrder a ≤ listOrder b)).take limit
  | none => do
    let limit ← toDbId limit
    return greatest listOrder limit t.rows

/-- The worker of the hub: a failure to persist is logged. -/
def persist (maxHistory : Nat) (t : TransferEvents) (event : CoreEvent) : TransferEvents :=
  match insertEvent t event maxHistory with
  | .ok t => t
  | .error _ => t

def history (maxHistory : Nat) (events : List CoreEvent) : TransferEvents := events.foldl (persist maxHistory) .empty

/-- The numbers of the event fit the columns of the database. -/
def fits (maxHistory : Nat) (e : CoreEvent) : Bool :=
  e.revision < 9223372036854775808 && e.transferId.all (· < 9223372036854775808) &&
    maxHistory < 9223372036854775808

/-- The events whose insertion has succeeded. -/
def inserted (maxHistory : Nat) (events : List CoreEvent) : List CoreEvent := events.filter (fits maxHistory)

/-- Events as one process emits them, in the order of their revisions. -/
structure Numbered (events : List CoreEvent) : Prop where
  ids : ∀ e ∈ events, e.id = eventId e.timestamp e.revision
  increasing : events.Pairwise fun a b => a.revision < b.revision

/-- After each insertion the history has the newest events, in the order in which it is listed;
an event that comes last in this order is there. -/
structure KeepsNewest (maxHistory : Nat) (events : List CoreEvent) : Prop where
  newest : ∀ past, past <+: events →
    (history maxHistory past).rows.Perm (greatest listOrder maxHistory (inserted maxHistory past))
  latest : ∀ past e, past ++ [e] <+: events → 0 < maxHistory → fits maxHistory e = true →
    (∀ x ∈ inserted maxHistory past, listOrder x ≤ listOrder e) → e ∈ (history maxHistory (past ++ [e])).rows

/-- The newest events, and one more. -/
def pool (maxHistory : Nat) (past : List CoreEvent) (e : CoreEvent) : List CoreEvent :=
  greatest listOrder maxHistory (inserted maxHistory past) ++ [e]

/-- Whenever there is one event too many, the one listed last has the least id among those of
its timestamp. -/
def Aligned (maxHistory : Nat) (events : List CoreEvent) : Prop :=
  ∀ past e, past ++ [e] <+: events → fits maxHistory e = true → maxHistory < (pool maxHistory past e).length →
    ∀ x, Least listOrder (pool maxHistory past e) x →
      ∀ y ∈ pool maxHistory past e, y.timestamp = x.timestamp → x.id ≤ y.id

section Ids

variable {ts ts' : Millis} {r r' : Nat}

theorem digits_injective (same : Nat.toDigits 10 r = Nat.toDigits 10 r') : r = r' := by
  have value := congrArg (fun digits => Nat.ofDigitChars 10 digits 0) same
  simpa [Nat.ofDigitChars_ten_toDigits] using value

theorem dash_not_digit : '-' ∉ Nat.toDigits 10 r := by
  intro member
  have digit := Nat.isDigit_of_mem_toDigits (by decide) (by decide) member
  exact absurd digit (by decide)

theorem split_last {a : Char} {p p' s s' : Str} (clean : a ∉ s) (clean' : a ∉ s')
    (same : p ++ a :: s = p' ++ a :: s') : s = s' := by
  rcases List.append_eq_append_iff.mp same with ⟨m,_,rest⟩ | ⟨m,_,rest⟩
  · cases m with
    | nil => simpa using rest
    | cons c m =>
      obtain ⟨_,rfl⟩ := List.cons.inj rest
      simp at clean
  · cases m with
    | nil => simpa using rest.symm
    | cons c m =>
      obtain ⟨_,rfl⟩ := List.cons.inj rest
      simp at clean'

theorem eventId_revision (same : eventId ts r = eventId ts' r') : r = r' :=
  digits_injective (split_last dash_not_digit dash_not_digit same)

theorem append_lt {l l' s s' : Str} (less : l < l') (even : l.length = l'.length) : l ++ s < l' ++ s' := by
  induction l generalizing l' with
  | nil =>
    rw [List.length_nil] at even
    rw [List.length_eq_zero_iff.mp even.symm] at less
    exact absurd less (lt_irrefl _)
  | cons a l ih =>
    cases l' with
    | nil => simp at even
    | cons b l' =>
      rw [List.cons_append,List.cons_append,List.cons_lt_cons_iff]
      rcases List.cons_lt_cons_iff.mp less with first | ⟨same,rest⟩
      · exact .inl first
      · exact .inr ⟨same,ih rest (by simpa using even)⟩

theorem digit_lt : ∀ a < 10, ∀ b < 10, a < b → Nat.digitChar a < Nat.digitChar b := by decide

/-- Numbers of the same length are ordered as their digits are. -/
theorem digits_lt (less : r < r') (even : (Nat.toDigits 10 r).length = (Nat.toDigits 10 r').length) :
    Nat.toDigits 10 r < Nat.toDigits 10 r' := by
  induction r using Nat.strongRecOn generalizing r' with
  | ind r ih =>
    by_cases large : 10 ≤ r
    · rw [Nat.toDigits_of_base_le (by decide) large,Nat.toDigits_of_base_le (by decide) (show 10 ≤ r' by omega)] at even ⊢
      have even : (Nat.toDigits 10 (r / 10)).length = (Nat.toDigits 10 (r' / 10)).length := by simpa using even
      rcases (Nat.div_le_div_right (c := 10) less.le).lt_or_eq with front | same
      · exact append_lt (ih (r / 10) (by omega) front even) even
      · rw [same]
        apply List.append_left_lt
        exact List.cons_lt_cons_iff.mpr (.inl (digit_lt _ (by omega) _ (by omega) (by omega)))
    · by_cases large' : 10 ≤ r'
      · rw [Nat.toDigits_of_lt_base (show r < 10 by omega),Nat.toDigits_of_base_le (by decide) large'] at even
        simp at even
      · rw [Nat.toDigits_of_lt_base (show r < 10 by omega),Nat.toDigits_of_lt_base (show r' < 10 by omega)]
        exact List.cons_lt_cons_iff.mpr (.inl (digit_lt _ (by omega) _ (by omega) less))

/-- Within a millisecond and among revisions of the same length, ids are ordered as revisions. -/
theorem eventId_le (le : r ≤ r') (even : (Nat.toDigits 10 r).length = (Nat.toDigits 10 r').length) :
    eventId ts r ≤ eventId ts r' := by
  rcases le.lt_or_eq with less | rfl
  · apply le_of_lt
    apply List.append_left_lt
    exact List.cons_lt_cons_iff.mpr (.inr ⟨rfl,digits_lt less even⟩)
  · exact le_rfl

end Ids

section Rows

variable {m : Nat} {t : TransferEvents} {e x : CoreEvent} {events past : List CoreEvent}

theorem Numbered.earlier (numbered : Numbered events) (initial : past <+: events) : Numbered past :=
  ⟨fun e member => numbered.ids e (initial.subset member),numbered.increasing.sublist initial.sublist⟩

theorem Numbered.inserted (numbered : Numbered events) : Numbered (inserted m events) :=
  ⟨fun e member => numbered.ids e (List.mem_of_mem_filter member),
   numbered.increasing.sublist List.filter_sublist⟩

theorem Numbered.revisions (numbered : Numbered events) : (events.map CoreEvent.revision).Nodup := by
  rw [List.Nodup,List.pairwise_map]
  exact numbered.increasing.imp Nat.ne_of_lt

theorem Numbered.ids_nodup (numbered : Numbered events) : (events.map CoreEvent.id).Nodup := by
  refine List.Nodup.map_on (fun a here b there same => ?_) (List.Nodup.of_map _ numbered.revisions)
  rw [numbered.ids a here,numbered.ids b there] at same
  exact List.inj_on_of_nodup_map numbered.revisions here there (eventId_revision same)

theorem listOrder_nodup (distinct : (events.map CoreEvent.revision).Nodup) :
    (events.map listOrder).Nodup := by
  refine List.Nodup.map_on (fun a here b there same => ?_) (List.Nodup.of_map _ distinct)
  exact List.inj_on_of_nodup_map distinct here there (congrArg (fun k => (ofLex k).2) same)

theorem pruneOrder_nodup (distinct : (events.map CoreEvent.id).Nodup) :
    (events.map pruneOrder).Nodup := by
  refine List.Nodup.map_on (fun a here b there same => ?_) (List.Nodup.of_map _ distinct)
  exact List.inj_on_of_nodup_map distinct here there (congrArg (fun k => (ofLex k).2) same)

/-- The hub numbers its events, until its counter has come to the end. -/
theorem emitAll_numbered {hub : EventHub} {emissions : List Emission}
    (below : hub.sequence + emissions.length ≤ 18446744073709551615) : Numbered (hub.emitAll emissions) ∧
      ∀ e ∈ hub.emitAll emissions, hub.sequence ≤ e.revision := by
  induction emissions generalizing hub with
  | nil => exact ⟨⟨by simp [EventHub.emitAll],.nil⟩,by simp [EventHub.emitAll]⟩
  | cons first rest ih =>
    rw [List.length_cons] at below
    have next : (hub.emit first).2.sequence = hub.sequence + 1 := by
      simp only [EventHub.emit]
      omega
    have room : (hub.emit first).2.sequence + rest.length ≤ 18446744073709551615 := by omega
    obtain ⟨numbered,later⟩ := ih room
    rw [next] at later
    refine ⟨⟨List.forall_mem_cons.mpr ⟨rfl,numbered.ids⟩,List.pairwise_cons.mpr ⟨fun e member => ?_,numbered.increasing⟩⟩,
      List.forall_mem_cons.mpr ⟨Nat.le_refl _,fun e member => ?_⟩⟩
    · exact later e member
    · have := later e member
      omega

/-- An insertion succeeds when the numbers fit. -/
theorem insertEvent_eq : (fits m e = true ∧ insertEvent t e m = .ok (((t.delete e.id).insertOrIgnore e).deleteWhere
      fun x => x.id ∉ (greatest pruneOrder m ((t.delete e.id).insertOrIgnore e).rows).map CoreEvent.id)) ∨
    (fits m e = false ∧ ∃ error, insertEvent t e m = .error error) := by
  have whole (n : Nat) : (n < 9223372036854775808 ∧ toDbId n = .ok n) ∨
      (¬n < 9223372036854775808 ∧ ∃ error, toDbId n = .error error) := by
    unfold toDbId
    split
    · exact .inl ⟨‹_›,rfl⟩
    · exact .inr ⟨‹_›,_,rfl⟩
  unfold insertEvent fits
  rcases whole e.revision with ⟨first,ok⟩ | ⟨first,error,bad⟩
  · rw [ok]
    cases target : e.transferId with
    | none =>
      rcases whole m with ⟨third,ok'⟩ | ⟨third,error,bad⟩
      · rw [ok']
        exact .inl ⟨by simp [first,third],rfl⟩
      · rw [bad]
        exact .inr ⟨by simp [third],error,rfl⟩
    | some id =>
      rcases whole id with ⟨second,ok'⟩ | ⟨second,error,bad⟩
      · rcases whole m with ⟨third,ok''⟩ | ⟨third,error,bad⟩
        · refine .inl ⟨by simp [first,second,third],?_⟩
          simp only [Option.mapM_some,ok',ok'']
          rfl
        · refine .inr ⟨by simp [third],error,?_⟩
          simp only [Option.mapM_some,ok',bad]
          rfl
      · refine .inr ⟨by simp [second],error,?_⟩
        simp only [Option.mapM_some,bad]
        rfl
  · rw [bad]
    exact .inr ⟨by simp [first],error,rfl⟩

theorem persist_unfit (unfit : fits m e = false) : persist m t e = t := by
  rcases insertEvent_eq (t := t) (e := e) (m := m) with ⟨fit,_⟩ | ⟨_,error,same⟩
  · rw [unfit] at fit
    cases fit
  · unfold persist
    rw [same]

/-- A new event is added, and then the rows beyond the limit go. -/
theorem persist_fit (fit : fits m e = true) (fresh : t.find e.id = none) :
    (persist m t e).rows.Perm (greatest pruneOrder m (t.rows ++ [e])) := by
  have rows : ((t.delete e.id).insertOrIgnore e).rows = t.rows ++ [e] := by
    rw [Table.delete_eq_self.mpr fresh]
    unfold Table.insertOrIgnore
    obtain ⟨u,added⟩ := Option.isSome_iff_exists.mp (Table.insert_isSome.mpr fresh)
    rw [added]
    unfold Table.insert at added
    split at added
    · cases added
    · cases added
      rfl
  have ids : ((t.rows ++ [e]).map CoreEvent.id).Nodup := rows ▸ ((t.delete e.id).insertOrIgnore e).unique
  rcases insertEvent_eq (t := t) (e := e) (m := m) with ⟨_,same⟩ | ⟨unfit,_⟩
  · unfold persist
    rw [same]
    show ((((t.delete e.id).insertOrIgnore e).rows.filter fun x => !decide (x.id ∉ _))).Perm _
    rw [rows]
    have elements := List.Nodup.of_map _ ids
    refine (List.perm_ext_iff_of_nodup (elements.filter _) (greatest_nodup elements)).mpr fun x => ?_
    rw [List.mem_filter]
    simp only [decide_not,Bool.not_not,decide_eq_true_eq,List.mem_map]
    constructor
    · rintro ⟨here,y,kept,same⟩
      exact List.inj_on_of_nodup_map ids (greatest_subset kept) here same ▸ kept
    · exact fun kept => ⟨greatest_subset kept,x,kept,rfl⟩
  · rw [fit] at unfit
    cases unfit

theorem history_append : history m (past ++ [e]) = persist m (history m past) e := by
  simp [history]

theorem inserted_append (fit : fits m e = true) : inserted m (past ++ [e]) = inserted m past ++ [e] := by
  simp [inserted,fit]

theorem inserted_unfit (unfit : fits m e = false) : inserted m (past ++ [e]) = inserted m past := by
  simp [inserted,unfit]

/-- The least row in the order of the pruning, when the one listed last is known. -/
theorem least_prune (least : Least listOrder events x) : Least pruneOrder events x ↔
    ∀ y ∈ events, y.timestamp = x.timestamp → x.id ≤ y.id := by
  have older (y : CoreEvent) (member : y ∈ events) : x.timestamp ≤ y.timestamp := by
    rcases Prod.Lex.le_iff.mp (least.2 y member) with lt | ⟨same,_⟩
    · exact lt.le
    · exact same.le
  constructor
  · intro first y member same
    rcases Prod.Lex.le_iff.mp (first.2 y member) with lt | ⟨_,le⟩
    · exact absurd same lt.ne'
    · exact le
  · intro among
    refine ⟨least.1,fun y member => Prod.Lex.le_iff.mpr ?_⟩
    rcases (older y member).lt_or_eq with lt | same
    · exact .inl lt
    · exact .inr ⟨same,among y member same.symm⟩

/-- One insertion, after a history that has the newest events. -/
theorem persist_newest (numbered : Numbered (past ++ [e])) (fit : fits m e = true)
    (before : (history m past).rows.Perm (greatest listOrder m (inserted m past))) :
    (history m (past ++ [e])).rows.Perm (greatest listOrder m (inserted m (past ++ [e]))) ↔
      (m < (pool m past e).length → ∀ x, Least listOrder (pool m past e) x →
        ∀ y ∈ pool m past e, y.timestamp = x.timestamp → x.id ≤ y.id) := by
  have numbers : Numbered (inserted m past ++ [e]) := by
    rw [← inserted_append fit]
    exact numbered.inserted
  have ids : ((pool m past e).map CoreEvent.id).Nodup := greatest_append_nodup numbers.ids_nodup
  have revisions : ((pool m past e).map CoreEvent.revision).Nodup := greatest_append_nodup numbers.revisions
  have added : ((history m past).rows ++ [e]).Perm (pool m past e) := before.append_right _
  have fresh : (history m past).find e.id = none := by
    have ids' := (added.map CoreEvent.id).nodup_iff.mpr ids
    rw [List.map_append,List.nodup_append] at ids'
    rw [Table.find_eq_none]
    intro r member same
    exact ids'.2.2 _ (List.mem_map_of_mem member) _ (List.mem_singleton_self _) same
  have pruned : (history m (past ++ [e])).rows.Perm (greatest pruneOrder m (pool m past e)) := by
    rw [history_append]
    refine (persist_fit fit fresh).trans (greatest_perm ?_ added)
    exact pruneOrder_nodup ((added.map _).nodup_iff.mpr ids)
  have listed : (greatest listOrder m (pool m past e)).Perm (greatest listOrder m (inserted m (past ++ [e]))) := by
    rw [inserted_append fit]
    exact greatest_grows (listOrder_nodup numbers.revisions)
  have short : (pool m past e).length ≤ m + 1 := by
    rw [pool,List.length_append,List.length_singleton]
    exact Nat.succ_le_succ greatest_length
  have agree := pruned_agree (n := m) (listOrder_nodup revisions) (pruneOrder_nodup ids) short
  constructor
  · intro now full x least
    exact (least_prune least).mp (agree.mp (pruned.symm.trans (now.trans listed.symm)) full x least)
  · intro among
    refine (pruned.trans (agree.mpr fun full x least => ?_)).trans listed
    exact (least_prune least).mpr (among full x least)

/-- The event that comes last in the listing is among the newest. -/
theorem latest_kept (numbered : Numbered (past ++ [e])) (room : 0 < m) (fit : fits m e = true)
    (last : ∀ x ∈ inserted m past, listOrder x ≤ listOrder e) :
    e ∈ greatest listOrder m (inserted m (past ++ [e])) := by
  rw [mem_greatest (listOrder_nodup numbered.inserted.revisions),inserted_append fit]
  refine ⟨List.mem_append_right _ List.mem_cons_self,?_⟩
  have none : above listOrder (inserted m past ++ [e]) (listOrder e) = 0 := by
    refine List.countP_eq_zero.mpr fun x member => ?_
    rcases List.mem_append.mp member with old | own
    · simpa using last x old
    · simp [List.mem_singleton.mp own]
  omega

/-- Pruning and listing agree as long as no millisecond sees revisions of different lengths. -/
theorem aligned_of_digits (numbered : Numbered events)
    (even : ∀ a ∈ events, ∀ b ∈ events, a.timestamp = b.timestamp →
      (Nat.toDigits 10 a.revision).length = (Nat.toDigits 10 b.revision).length) : Aligned m events := by
  intro past e initial _ _ x least y there same
  have source (z : CoreEvent) (member : z ∈ pool m past e) : z ∈ events := by
    apply initial.subset
    rcases List.mem_append.mp member with old | own
    · exact List.mem_append_left _ (List.mem_of_mem_filter (greatest_subset old))
    · exact List.mem_append_right _ own
  have le : x.revision ≤ y.revision := by
    rcases Prod.Lex.le_iff.mp (least.2 y there) with less | ⟨_,le⟩
    · exact absurd same less.ne'
    · exact le
  rw [numbered.ids x (source x least.1),numbered.ids y (source y there),same]
  exact eventId_le le (even x (source x least.1) y (source y there) same.symm)

end Rows

/-- The history keeps the newest events just when no pruning meets an event that is listed last
and does not have the least id of its timestamp. -/
theorem history_keeps_newest_iff {maxHistory : Nat} {events : List CoreEvent} (numbered : Numbered events) :
    KeepsNewest maxHistory events ↔ Aligned maxHistory events := by
  constructor
  · intro keeps past e initial fit
    have before := keeps.newest past ((List.prefix_append past [e]).trans initial)
    exact (persist_newest (numbered.earlier initial) fit before).mp (keeps.newest _ initial)
  · intro aligned
    have newest : ∀ past, past <+: events →
        (history maxHistory past).rows.Perm (greatest listOrder maxHistory (inserted maxHistory past)) := by
      intro past
      induction past using List.reverseRecOn with
      | nil => exact fun _ => by simp [history,inserted,greatest,Table.empty]
      | append_singleton past e ih =>
        intro initial
        have before := ih ((List.prefix_append past [e]).trans initial)
        cases fit : fits maxHistory e with
        | true => exact (persist_newest (numbered.earlier initial) fit before).mpr (aligned past e initial fit)
        | false =>
          rw [history_append,persist_unfit fit,inserted_unfit fit]
          exact before
    refine ⟨newest,fun past e initial room fit last => ?_⟩
    exact (newest _ initial).mem_iff.mpr (latest_kept (numbered.earlier initial) room fit last)

namespace Sample

def event (revision : Nat) : CoreEvent :=
  ⟨eventId 1000 revision,revision,1000,"endpoint",none,none,"network","relay-changed","{}"⟩

theorem numbered {r r' : Nat} (less : r < r') : Numbered [event r,event r'] :=
  ⟨by simp [event],by simpa [event] using less⟩

/-- The ninth and the tenth event come in one millisecond, and there is room for one. -/
theorem tenth_pruned : Numbered [event 9,event 10] ∧ ¬KeepsNewest 1 [event 9,event 10] := by
  refine ⟨numbered (by decide),fun keeps => ?_⟩
  have before := keeps.newest [event 9] (by simp)
  have after := keeps.newest ([event 9] ++ [event 10]) (List.prefix_refl _)
  have both : pool 1 [event 9] (event 10) = [event 9,event 10] := by
    simp [pool,inserted,fits,event,greatest]
  have least : Least listOrder [event 9,event 10] (event 9) := by
    refine ⟨List.mem_cons_self,?_⟩
    intro y member
    rcases List.mem_pair.mp member with rfl | rfl
    · exact le_rfl
    · exact Prod.Lex.le_iff.mpr (.inr ⟨rfl,by decide⟩)
  have among := (persist_newest (numbered (by decide)) rfl before).mp after
  rw [both] at among
  have le : (event 9).id ≤ (event 10).id := among (by decide) (event 9) least (event 10) (by simp) rfl
  exact absurd le (by decide)

end Sample

open EventHistory.Sample in
/-- The first two events of one millisecond. -/
theorem second_kept : KeepsNewest 1 [event 1,event 2] :=
  (history_keeps_newest_iff (numbered (by decide))).mpr (aligned_of_digits (numbered (by decide)) (by
    intro a here b there _
    rcases List.mem_pair.mp here with rfl | rfl <;> rcases List.mem_pair.mp there with rfl | rfl <;> rfl))

end Vnidrop.EventHistory
