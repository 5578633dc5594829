import Vnidrop.IdentityCooldown
import Vnidrop.PairingStore
import Mathlib

/-! The cooldown that the limits of a core promise: since when an identity is quiet, and until
when, in exact numbers; and when the narrow numbers of `IdentityCooldown` keep it. -/
namespace Vnidrop.CooldownLaw

open Pairing (asI64 fitsI64 asI64_fits)

structure CoreLimits where
  maxSources : UInt64
  maxCollectionFiles : UInt64
  maxTotalBytes : UInt64
  maxPathBytes : UInt64
  maxTicketBytes : UInt64
  maxMetadataBytes : UInt64
  maxEvents : UInt64
  maxPendingApprovals : UInt64
  maxPendingOffers : UInt64
  maxConcurrentTransfers : UInt64
  eventQueueCapacity : UInt64
  maxSavedDevices : UInt64
  identityCooldownMs : UInt64
  malformedStrikeLimit : UInt64
  pairingTimeoutMs : UInt64
  offerTimeoutMs : UInt64
  connectionTimeoutMs : UInt64

namespace CoreLimits

def positive (l : CoreLimits) : List (String × UInt64) :=
  [("max_sources",l.maxSources),("max_collection_files",l.maxCollectionFiles),("max_total_bytes",l.maxTotalBytes),
    ("max_path_bytes",l.maxPathBytes),("max_ticket_bytes",l.maxTicketBytes),("max_metadata_bytes",l.maxMetadataBytes),
    ("max_events",l.maxEvents),("max_pending_approvals",l.maxPendingApprovals),
    ("max_pending_offers",l.maxPendingOffers),("max_concurrent_transfers",l.maxConcurrentTransfers),
    ("event_queue_capacity",l.eventQueueCapacity),("max_saved_devices",l.maxSavedDevices),
    ("identity_cooldown_ms",l.identityCooldownMs),("malformed_strike_limit",l.malformedStrikeLimit),
    ("pairing_timeout_ms",l.pairingTimeoutMs),("offer_timeout_ms",l.offerTimeoutMs),
    ("connection_timeout_ms",l.connectionTimeoutMs)]

def counts (l : CoreLimits) : List (String × UInt64) :=
  [("max_pending_approvals",l.maxPendingApprovals),("max_pending_offers",l.maxPendingOffers),
    ("max_concurrent_transfers",l.maxConcurrentTransfers),("event_queue_capacity",l.eventQueueCapacity),
    ("max_saved_devices",l.maxSavedDevices),("malformed_strike_limit",l.malformedStrikeLimit)]

/-- `CoreLimits::validate` on a platform with the given `usize::MAX`. -/
def validate (usizeMax : Nat) (l : CoreLimits) : Except String Unit :=
  match l.positive.find? (·.2 = 0) with
  | some (name,_) => .error ("core limit " ++ name ++ " must be greater than zero")
  | none =>
    match l.counts.find? (usizeMax < ·.2.toNat) with
    | some (name,_) => .error ("core limit " ++ name ++ " exceeds platform capacity")
    | none =>
      if 9223372036854775807 < l.maxTotalBytes.toNat ∨ 9223372036854775807 < l.maxEvents.toNat then
        .error "SQLite-backed limits must fit in a signed 64-bit integer"
      else .ok ()

/-- `impl Default for CoreLimits`. -/
def default : CoreLimits where
  maxSources := 128
  maxCollectionFiles := 10000
  maxTotalBytes := 274877906944
  maxPathBytes := 4096
  maxTicketBytes := 262144
  maxMetadataBytes := 16384
  maxEvents := 500
  maxPendingApprovals := 64
  maxPendingOffers := 16
  maxConcurrentTransfers := 8
  eventQueueCapacity := 1024
  maxSavedDevices := 256
  identityCooldownMs := 60000
  malformedStrikeLimit := 5
  pairingTimeoutMs := 15000
  offerTimeoutMs := 120000
  connectionTimeoutMs := 30000

end CoreLimits

/-- What `IdentityCooldown::new` makes of the limits: an `i64` and a `u32`. -/
structure Guard where
  cooldownMs : Int
  strikeLimit : Nat

def Guard.new (cooldownMs strikeLimit : UInt64) : Guard := ⟨asI64 cooldownMs.toNat,strikeLimit.toNat % 4294967296⟩

/-- A call, with what the clock says at each reading. -/
inductive Call where
  | recordDecline (identity : EndpointId) (now : Millis)
  | recordMalformed (identity : EndpointId) (now later : Millis)
  | clearStrikes (identity : EndpointId)
  | isCooling (identity : EndpointId) (now : Millis)

def Call.identity : Call → EndpointId
  | .recordDecline identity _ | .recordMalformed identity _ _ | .clearStrikes identity | .isCooling identity _ => identity

def Call.times : Call → List Millis
  | .recordDecline _ now | .isCooling _ now => [now]
  | .recordMalformed _ now later => [now,later]
  | .clearStrikes _ => []

def Guard.step (g : Guard) (c : IdentityCooldown) : Call → IdentityCooldown
  | .recordDecline identity now => c.recordDecline g.cooldownMs now identity
  | .recordMalformed identity now later => c.recordMalformedAt g.cooldownMs g.strikeLimit now later identity
  | .clearStrikes identity => c.clearStrikes identity
  | .isCooling _ now => c.prune now

/-- The last trip of an identity, and the malformed records that count towards the next. -/
structure History where
  trip : Option Millis
  strikes : Nat

section

variable (l : CoreLimits)

/-- The last trip is less than the configured time ago. -/
def Cooling (trip : Option Millis) (t : Millis) : Prop := ∃ s, trip = some s ∧ s ≤ t ∧ t < s + l.identityCooldownMs.toNat

instance (trip : Option Millis) (t : Millis) : Decidable (Cooling l trip t) :=
  match trip with
  | none => .isFalse fun ⟨_,same,_⟩ => by cases same
  | some s => decidable_of_iff (s ≤ t ∧ t < s + l.identityCooldownMs.toNat)
      ⟨fun range => ⟨s,rfl,range⟩,fun ⟨_,same,range⟩ => by cases same; exact range⟩

/-- What a call does to the history of its identity. -/
def History.after (h : History) : Call → History
  | .recordDecline _ now => ⟨some now,0⟩
  | .recordMalformed _ now later =>
    if Cooling l h.trip now then h
    else if h.strikes + 1 = l.malformedStrikeLimit.toNat then ⟨some later,0⟩
    else { h with strikes := h.strikes + 1 }
  | .clearStrikes _ => { h with strikes := 0 }
  | .isCooling .. => h

def history (identity : EndpointId) (calls : List Call) : History :=
  (calls.filter (·.identity = identity)).foldl (History.after l) ⟨none,0⟩

/-- The readings of the clock never fall, from the start of time to the look at `t`. -/
def Clocked (calls : List Call) (t : Millis) : Prop := ((0 : Int) :: (calls.flatMap Call.times ++ [t])).Pairwise (· ≤ ·)

/-- In every run up to the horizon every identity is cooling exactly when the limits say so. -/
def Lawful (horizon : Nat) : Prop :=
  ∀ identity calls t, Clocked calls t → t ≤ horizon →
    ((calls.foldl (Guard.new l.identityCooldownMs l.malformedStrikeLimit).step .new).isCooling t identity = true ↔
      Cooling l (history l identity calls).trip t)

end

theorem CoreLimits.validate_ok {usizeMax : Nat} {l : CoreLimits} (valid : l.validate usizeMax = .ok ()) :
    0 < l.identityCooldownMs.toNat ∧ 0 < l.malformedStrikeLimit.toNat := by
  unfold validate at valid
  split at valid
  · cases valid
  · rename_i none
    have checked := List.find?_eq_none.mp none
    have nonzero (name : String) {value : UInt64} (listed : (name,value) ∈ l.positive) : 0 < value.toNat := by
      have other : value ≠ 0 := by simpa using checked _ listed
      exact Nat.pos_of_ne_zero fun zero => other (UInt64.toNat_inj.mp zero)
    exact ⟨nonzero "identity_cooldown_ms" (by simp [positive]),nonzero "malformed_strike_limit" (by simp [positive])⟩

section

variable {l : CoreLimits} {c : IdentityCooldown} {h : History} {identity : EndpointId} {now t : Int}

theorem isCooling_iff : c.isCooling t identity = true ↔ ∃ u : Int, c.coolsUntil identity = some u ∧ t < u := by
  rw [IdentityCooldown.isCooling,Option.isSome_iff_exists]
  simp [IdentityCooldown.prune,Option.filter_eq_some_iff]

theorem isCooling_prune (later : now ≤ t) : (c.prune now).isCooling t identity = c.isCooling t identity := by
  rw [Bool.eq_iff_iff,isCooling_iff,isCooling_iff]
  constructor
  · rintro ⟨u,kept,below⟩
    exact ⟨u,(Option.filter_eq_some_iff.mp kept).1,below⟩
  · rintro ⟨u,held,below⟩
    exact ⟨u,Option.filter_eq_some_iff.mpr ⟨held,by simpa using Int.lt_of_le_of_lt later below⟩,below⟩

/-- What the code holds of an identity is what the history of the identity says. -/
structure Holds (l : CoreLimits) (identity : EndpointId) (c : IdentityCooldown) (h : History) (now : Millis) : Prop where
  strikes : c.strikes identity = h.strikes
  few : h.strikes < l.malformedStrikeLimit.toNat
  past : ∀ s, h.trip = some s → s ≤ now
  cooling : ∀ t, now ≤ t → (c.isCooling t identity = true ↔ Cooling l h.trip t)

/-- Below these bounds the narrow numbers are exact. -/
structure Exact (l : CoreLimits) (horizon : Nat) : Prop where
  strikes : l.malformedStrikeLimit.toNat < 4294967296
  cooldown : horizon + l.identityCooldownMs.toNat ≤ 9223372036854775807

variable {horizon : Nat}

theorem addI64_cooldown (fits : horizon + l.identityCooldownMs.toNat ≤ 9223372036854775807) (start : 0 ≤ now)
    (inside : now ≤ horizon) : addI64 now (asI64 l.identityCooldownMs.toNat) = now + l.identityCooldownMs.toNat := by
  rw [asI64_fits (by simp [fitsI64]; omega),addI64]
  omega

theorem Holds.initial (positive : 0 < l.malformedStrikeLimit.toNat) : Holds l identity .new ⟨none,0⟩ 0 where
  strikes := rfl
  few := positive
  past _ none := by cases none
  cooling t _ := iff_of_false (by simp [isCooling_iff,IdentityCooldown.new]) fun ⟨_,same,_⟩ => by cases same

/-- Time passes. -/
theorem Holds.later {now' : Int} (holds : Holds l identity c h now) (later : now ≤ now') : Holds l identity c h now' where
  strikes := holds.strikes
  few := holds.few
  past s trip := (holds.past s trip).trans later
  cooling t past := holds.cooling t (later.trans past)

theorem Holds.prune (holds : Holds l identity c h now) : Holds l identity (c.prune now) h now where
  strikes := holds.strikes
  few := holds.few
  past := holds.past
  cooling t past := by
    rw [isCooling_prune past]
    exact holds.cooling t past

/-- Another identity is no matter. -/
theorem Holds.frame {c' : IdentityCooldown} (holds : Holds l identity c h now)
    (coolsUntil : c'.coolsUntil identity = c.coolsUntil identity) (strikes : c'.strikes identity = c.strikes identity) :
    Holds l identity c' h now where
  strikes := strikes.trans holds.strikes
  few := holds.few
  past := holds.past
  cooling t past := by
    rw [← holds.cooling t past,isCooling_iff,isCooling_iff,coolsUntil]

theorem Holds.restart (positive : 0 < l.malformedStrikeLimit.toNat) (holds : Holds l identity c h now) :
    Holds l identity (c.clearStrikes identity) { h with strikes := 0 } now where
  strikes := Function.update_self _ _ _
  few := positive
  past := holds.past
  cooling t past := holds.cooling t past

/-- A trip begins the quiet period. -/
theorem Holds.trip (positive : 0 < l.malformedStrikeLimit.toNat) (exact_ : Exact l horizon) (start : 0 ≤ now)
    (inside : now ≤ horizon) : Holds l identity (c.cool (asI64 l.identityCooldownMs.toNat) now identity) ⟨some now,0⟩ now where
  strikes := Function.update_self _ _ _
  few := positive
  past s same := (Option.some.inj same).ge
  cooling t past := by
    rw [isCooling_iff]
    simp [IdentityCooldown.cool,addI64_cooldown exact_.cooldown start inside,Cooling,past]

theorem Holds.malformed (positive : 0 < l.malformedStrikeLimit.toNat) (exact_ : Exact l horizon) (start : 0 ≤ now)
    {later : Int} (order : now ≤ later) (inside : later ≤ horizon) (holds : Holds l identity c h now) :
    Holds l identity (c.recordMalformedAt (asI64 l.identityCooldownMs.toNat) (l.malformedStrikeLimit.toNat % 4294967296)
      now later identity) (h.after l (.recordMalformed identity now later)) later := by
  have few := holds.few
  have small := exact_.strikes
  have counted : min (c.strikes identity + 1) 4294967295 = h.strikes + 1 := by
    rw [holds.strikes]
    omega
  unfold IdentityCooldown.recordMalformedAt History.after
  simp only [holds.cooling now le_rfl,counted,Nat.mod_eq_of_lt small]
  by_cases quiet : Cooling l h.trip now
  · rw [if_pos quiet,if_pos quiet]
    exact holds.prune.later order
  · rw [if_neg quiet,if_neg quiet]
    by_cases last : h.strikes + 1 = l.malformedStrikeLimit.toNat
    · rw [if_pos last.ge,if_pos last]
      exact .trip positive exact_ (start.trans order) inside
    · rw [if_neg (by omega),if_neg last]
      have pruned := holds.prune.later order
      exact ⟨Function.update_self _ _ _,by simp only; omega,pruned.past,pruned.cooling⟩

/-- A call of the identity itself, at a time that is not before `now`. -/
theorem Holds.own (positive : 0 < l.malformedStrikeLimit.toNat) (exact_ : Exact l horizon) (call : Call)
    (start : 0 ≤ now) (ordered : (now :: call.times).Pairwise (· ≤ ·)) (inside : ∀ x ∈ call.times, x ≤ horizon)
    (holds : Holds l call.identity c h now) :
    Holds l call.identity ((Guard.new l.identityCooldownMs l.malformedStrikeLimit).step c call) (h.after l call)
      (call.times.getLastD now) := by
  cases call with
  | recordDecline identity at_ =>
    have order : now ≤ at_ := by simpa [Call.times] using ordered
    exact .trip positive exact_ (start.trans order) (inside at_ (by simp [Call.times]))
  | recordMalformed identity at_ later =>
    obtain ⟨⟨order,-⟩,order'⟩ : (now ≤ at_ ∧ now ≤ later) ∧ at_ ≤ later := by simpa [Call.times] using ordered
    exact .malformed positive exact_ (start.trans order) order' (inside later (by simp [Call.times])) (holds.later order)
  | clearStrikes identity => exact holds.restart positive
  | isCooling identity at_ =>
    have order : now ≤ at_ := by simpa [Call.times] using ordered
    exact (holds.later order).prune

/-- A call of another identity. -/
theorem Holds.other (g : Guard) (call : Call) (ordered : (now :: call.times).Pairwise (· ≤ ·))
    (apart : identity ≠ call.identity) (holds : Holds l identity c h now) :
    Holds l identity (g.step c call) h (call.times.getLastD now) := by
  cases call with
  | recordDecline other at_ =>
    have order : now ≤ at_ := by simpa [Call.times] using ordered
    exact (holds.later order).frame (Function.update_of_ne apart _ _) (Function.update_of_ne apart _ _)
  | recordMalformed other at_ later =>
    obtain ⟨⟨order,-⟩,order'⟩ : (now ≤ at_ ∧ now ≤ later) ∧ at_ ≤ later := by simpa [Call.times] using ordered
    have pruned := (holds.later order).prune.later order'
    unfold Guard.step IdentityCooldown.recordMalformedAt
    dsimp only
    split
    · exact pruned
    · split
      · exact pruned.frame (Function.update_of_ne apart _ _) (Function.update_of_ne apart _ _)
      · exact pruned.frame rfl (Function.update_of_ne apart _ _)
  | clearStrikes other => exact holds.frame rfl (Function.update_of_ne apart _ _)
  | isCooling other at_ =>
    have order : now ≤ at_ := by simpa [Call.times] using ordered
    exact (holds.later order).prune

theorem Holds.run (positive : 0 < l.malformedStrikeLimit.toNat) (exact_ : Exact l horizon) (calls : List Call)
    (start : 0 ≤ now) (ordered : (now :: (calls.flatMap Call.times ++ [t])).Pairwise (· ≤ ·)) (inside : t ≤ horizon)
    (holds : Holds l identity c h now) :
    Holds l identity (calls.foldl (Guard.new l.identityCooldownMs l.malformedStrikeLimit).step c)
      ((calls.filter (·.identity = identity)).foldl (History.after l) h) t := by
  induction calls generalizing c h now with
  | nil => exact holds.later (by simpa using ordered)
  | cons call calls ih =>
    rw [List.flatMap_cons,List.append_assoc] at ordered
    obtain ⟨first,rest,across⟩ := List.pairwise_append.mp (List.cons_append ▸ ordered)
    have last : call.times.getLastD now ∈ now :: call.times := List.getLastD_mem_cons ..
    have start' : 0 ≤ call.times.getLastD now := by
      obtain same | listed := List.mem_cons.mp last
      · rwa [same]
      · exact start.trans (List.rel_of_pairwise_cons first listed)
    have ordered' := List.pairwise_cons.mpr ⟨across _ last,rest⟩
    have bounded : ∀ x ∈ call.times, x ≤ horizon := fun x listed =>
      (across x (List.mem_cons_of_mem now listed) t (by simp)).trans inside
    by_cases own : call.identity = identity
    · subst own
      rw [List.filter_cons_of_pos (by simp),List.foldl_cons]
      exact ih start' ordered' (holds.own positive exact_ call start first bounded)
    · rw [List.filter_cons_of_neg (by simpa using own)]
      exact ih start' ordered' (holds.other _ call first (Ne.symm own))

/-- A decline at a time from which the cooldown ends beyond the greatest `i64`. -/
theorem not_lawful_late (positive : 0 < l.identityCooldownMs.toNat)
    (beyond : 9223372036854775807 < horizon + l.identityCooldownMs.toNat) : ¬Lawful l horizon := by
  intro lawful
  have look := lawful 0 [.recordDecline 0 horizon] horizon (by simp [Clocked,Call.times]) le_rfl
  have quiet : Cooling l (history l 0 [.recordDecline 0 horizon]).trip horizon :=
    ⟨horizon,rfl,le_rfl,show (horizon : Int) < horizon + l.identityCooldownMs.toNat by omega⟩
  obtain ⟨u,held,below⟩ := isCooling_iff.mp (look.mpr quiet)
  have below : (horizon : Int) < u := below
  have ends : (u : Int) = addI64 horizon (asI64 l.identityCooldownMs.toNat) := (Option.some.inj held).symm
  have width := l.identityCooldownMs.toNat_lt
  unfold addI64 asI64 at ends
  split at ends <;> omega

/-- The records of one identity, all at the start of time. -/
def records (n : Nat) : List Call := List.replicate n (.recordMalformed 0 0 0)

theorem clocked_records (n : Nat) : Clocked (records n) 0 := by
  have all : ∀ x ∈ (0 : Int) :: ((records n).flatMap Call.times ++ [0]), x = 0 := by
    simp only [records,List.mem_cons,List.mem_append,List.mem_flatMap,List.mem_replicate]
    rintro x (rfl | ⟨call,⟨-,rfl⟩,listed⟩ | rfl | none)
    · rfl
    · simpa [Call.times] using listed
    · rfl
    · cases none
  exact List.pairwise_of_forall_mem_list fun x listed y listed' => by rw [all x listed,all y listed']

/-- Fewer records than the limit are no trip. -/
theorem history_records (n : Nat) (few : n < l.malformedStrikeLimit.toNat) : history l 0 (records n) = ⟨none,n⟩ := by
  induction n with
  | zero => rfl
  | succ n ih =>
    have before := ih (by omega)
    unfold history records at before ⊢
    rw [List.replicate_succ',List.filter_append,List.foldl_append,before]
    have calm : ¬Cooling l none 0 := fun ⟨_,same,_⟩ => by cases same
    have short : n + 1 ≠ l.malformedStrikeLimit.toNat := by omega
    simp [History.after,Call.identity,calm,short]

/-- Until as many records as the low half of the limit counts, there are strikes only. -/
theorem strikes_records (g : Guard) (n : Nat) (few : n < max 1 g.strikeLimit) (small : g.strikeLimit < 4294967296) :
    ((records n).foldl g.step .new).strikes 0 = n ∧ ((records n).foldl g.step .new).coolsUntil 0 = none := by
  induction n with
  | zero => exact ⟨rfl,rfl⟩
  | succ n ih =>
    obtain ⟨strikes,rested⟩ := ih (by omega)
    unfold records at strikes rested ⊢
    rw [List.replicate_succ',List.foldl_append]
    generalize (List.replicate n (Call.recordMalformed 0 0 0)).foldl g.step .new = c at strikes rested
    have calm : c.isCooling 0 0 = false := by
      simp [IdentityCooldown.isCooling,IdentityCooldown.prune,rested]
    have counted : min (n + 1) 4294967295 = n + 1 := by omega
    have short : ¬g.strikeLimit ≤ n + 1 := by omega
    simp [Guard.step,IdentityCooldown.recordMalformedAt,calm,strikes,counted,short,IdentityCooldown.prune,rested]

/-- As many malformed records as the low half of the limit counts. -/
theorem not_lawful_early (many : 4294967296 ≤ l.malformedStrikeLimit.toNat) (positive : 0 < l.identityCooldownMs.toNat)
    (fits : horizon + l.identityCooldownMs.toNat ≤ 9223372036854775807) : ¬Lawful l horizon := by
  intro lawful
  set g := Guard.new l.identityCooldownMs l.malformedStrikeLimit with guard
  have small : g.strikeLimit < 4294967296 := Nat.mod_lt _ (by decide)
  obtain ⟨n,count⟩ : ∃ n, max 1 g.strikeLimit = n + 1 := ⟨max 1 g.strikeLimit - 1,by omega⟩
  have look := lawful 0 (records (n + 1)) 0 (clocked_records _) (Int.natCast_nonneg _)
  rw [history_records _ (by omega)] at look
  refine absurd (look.mp ?_) fun ⟨_,same,_⟩ => by cases same
  obtain ⟨strikes,rested⟩ := strikes_records g n (by omega) small
  unfold records at strikes rested ⊢
  rw [List.replicate_succ',List.foldl_append,← guard]
  generalize (List.replicate n (Call.recordMalformed 0 0 0)).foldl g.step .new = c at strikes rested
  have calm : c.isCooling 0 0 = false := by
    simp [IdentityCooldown.isCooling,IdentityCooldown.prune,rested]
  have reached : g.strikeLimit ≤ min (n + 1) 4294967295 := by omega
  have ends : addI64 0 g.cooldownMs = l.identityCooldownMs.toNat :=
    (addI64_cooldown fits le_rfl (Int.natCast_nonneg _)).trans (Int.zero_add _)
  rw [isCooling_iff]
  simp [Guard.step,IdentityCooldown.recordMalformedAt,calm,strikes,reached,IdentityCooldown.cool,ends,positive]

end

/-- The law holds in all runs up to the horizon exactly when the strike limit fits a `u32` and
the longest cooldown until then fits an `i64`. -/
theorem lawful_iff (usizeMax : Nat) (l : CoreLimits) (valid : l.validate usizeMax = .ok ()) (horizon : Nat) :
    Lawful l horizon ↔ l.malformedStrikeLimit.toNat < 4294967296 ∧
      horizon + l.identityCooldownMs.toNat ≤ 9223372036854775807 := by
  obtain ⟨cooldown,limit⟩ := CoreLimits.validate_ok valid
  constructor
  · intro lawful
    have late : horizon + l.identityCooldownMs.toNat ≤ 9223372036854775807 := by
      by_contra beyond
      exact not_lawful_late cooldown (by omega) lawful
    refine ⟨?_,late⟩
    by_contra many
    exact not_lawful_early (by omega) cooldown late lawful
  · rintro ⟨strikes,cooldown⟩ identity calls t ordered inside
    have initial : Holds l identity .new ⟨none,0⟩ 0 := Holds.initial limit
    have holds := initial.run limit ⟨strikes,cooldown⟩ calls le_rfl ordered inside
    exact holds.cooling t le_rfl

theorem default_lawful : Lawful CoreLimits.default 4102444800000 :=
  (lawful_iff 18446744073709551615 CoreLimits.default rfl 4102444800000).mpr ⟨by decide,by decide⟩

/-- With a limit of `2 ^ 32` the first malformed record is a trip. -/
theorem first_record_trips :
    let l : CoreLimits := { CoreLimits.default with malformedStrikeLimit := 4294967296 }
    l.validate 18446744073709551615 = .ok () ∧ ¬Lawful l 0 :=
  ⟨rfl,not_lawful_early (by decide) (by decide) (by decide)⟩

end Vnidrop.CooldownLaw
