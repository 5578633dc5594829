import Vnidrop.JsonTrees
import Vnidrop.Paths
import Vnidrop.Utf8
import Mathlib

/-! What events and diagnostics say of a JSON value: below the keys that are sensitive a
fingerprint or a fixed text, and elsewhere what was there. -/
namespace Vnidrop.RedactedJson

open JsonTrees
open Paths (Str)

variable {Number : Type}

abbrev REDACTED : Str := "[redacted]".toList

def isSensitiveKey (key : Str) : Bool :=
  (["endpoint_id","peer_endpoint_id","sender_endpoint_id","receiver_endpoint_id","from_endpoint_id",
    "remote_endpoint_id","local_endpoint_id","ticket","blob_ticket","authorization","capability","secret",
    "grant","grant_id","proof","mac","filename","file_name","path","display_name","transfer_name",
    "sender_display_name","remote_display_name","address","addrs","relay_url","relay_urls"].map
    String.toList).contains key

/-- `HEXLOWER`. -/
def hexLower (bytes : List UInt8) : Str :=
  bytes.flatMap fun b => [(b.toNat / 16).digitChar,(b.toNat % 16).digitChar]

-- `blake3::hash`
variable (blake3 : List UInt8 → Vector UInt8 32)

def fingerprint (value : Str) : Str :=
  "<redacted:".toList ++ (hexLower (blake3 (Utf8.encode value)).toList).take 8 ++ ['>']

/-- What replaces the value at a sensitive key. -/
def hide : Value Str Number → Value Str Number
  | .string raw => if raw.isEmpty then .string REDACTED else .string (fingerprint blake3 raw)
  | .null => .null
  | _ => .string REDACTED

mutual

def redactJson : Value Str Number → Value Str Number
  | .object map => .object (collect (redactObject map))
  | .array items => .array (redactItems items)
  | other => other

def redactItems : List (Value Str Number) → List (Value Str Number)
  | [] => []
  | value :: items => redactJson value :: redactItems items

/-- The entries that `redact_object` collects. -/
def redactObject : List (Str × Value Str Number) → List (Str × Value Str Number)
  | [] => []
  | (key,value) :: map =>
    (if isSensitiveKey key then (key,hide blake3 value) else (key,redactJson value)) :: redactObject map

end

/-- A JSON value as its parser builds it, each object a map. -/
abbrev Json (Number : Type) := {v : Value Str Number // v.Ordered}

/-- No key on the way is sensitive. -/
def Clear (path : List (Step Str)) : Prop := ∀ k, .key k ∈ path → isSensitiveKey k = false

/-- Neither null nor a non-empty string. -/
def Masked (v : Value Str Number) : Prop := v ≠ .null ∧ ∀ raw, v = .string raw → raw = []

/-- The two values may not be told apart below a sensitive key. -/
def Hidden (v w : Value Str Number) : Prop :=
  v = w ∨ (∃ raw raw', v = .string raw ∧ w = .string raw' ∧ raw ≠ [] ∧ raw' ≠ [] ∧
    fingerprint blake3 raw = fingerprint blake3 raw') ∨ (Masked v ∧ Masked w)

/-- The values differ only in what lies below sensitive keys, and are to be hidden there. -/
structure Alike (v w : Value Str Number) : Prop where
  outside : ∀ path, Clear path → (v.at? path).map Value.head = (w.at? path).map Value.head
  below : ∀ path k a b, Clear path → isSensitiveKey k → v.at? (path ++ [.key k]) = some a →
    w.at? (path ++ [.key k]) = some b → Hidden blake3 a b

section

variable {v w : Value Str Number} {path : List (Step Str)} {k : Str}

theorem redactItems_eq (items : List (Value Str Number)) :
    redactItems blake3 items = items.map (redactJson blake3) := by
  induction items with
  | nil => rfl
  | cons value items ih => rw [redactItems,List.map_cons,ih]

/-- What becomes of what stands below a step. -/
def treat : Step Str → Value Str Number → Value Str Number
  | .index _, value => redactJson blake3 value
  | .key k, value => if isSensitiveKey k then hide blake3 value else redactJson blake3 value

theorem redactObject_eq (map : List (Str × Value Str Number)) :
    redactObject blake3 map = map.map fun e => (e.1,treat blake3 (.key e.1) e.2) := by
  induction map with
  | nil => rfl
  | cons e map ih =>
    rw [redactObject,List.map_cons,ih,treat]
    split <;> rfl

theorem keys_redactObject (map : List (Str × Value Str Number)) :
    (redactObject blake3 map).map Prod.fst = map.map Prod.fst := by
  rw [redactObject_eq,List.map_map]
  rfl

theorem redactJson_object {map : List (Str × Value Str Number)} (ordered : (Value.object map).Ordered) :
    redactJson blake3 (.object map) = .object (redactObject blake3 map) := by
  rw [redactJson,collect_sorted]
  rw [keys_redactObject]
  exact ordered.keys

theorem head_redactJson (ordered : v.Ordered) : (redactJson blake3 v).head = v.head := by
  cases v with
  | array items => simp [redactJson,redactItems_eq,Value.head]
  | object map => rw [redactJson_object _ ordered,Value.head,keys_redactObject,Value.head]
  | _ => rfl

theorem child?_redactJson (ordered : v.Ordered) (step : Step Str) :
    (redactJson blake3 v).child? step = (v.child? step).map (treat blake3 step) := by
  cases v with
  | array items =>
    rw [redactJson,redactItems_eq]
    cases step with
    | index i => exact List.getElem?_map
    | key => rfl
  | object map =>
    rw [redactJson_object _ ordered,redactObject_eq]
    cases step with
    | index => rfl
    | key k => exact Value.child?_map (fun k => treat blake3 (.key k))
  | _ => rfl

/-- Where no key is sensitive the values are those of the input, redacted below. -/
theorem at?_redactJson (ordered : v.Ordered) (clear : Clear path) :
    (redactJson blake3 v).at? path = (v.at? path).map (redactJson blake3) := by
  induction path generalizing v with
  | nil => simp
  | cons step path ih =>
    rw [Value.at?_cons,Value.at?_cons,child?_redactJson _ ordered]
    have plain : (treat blake3 step : Value Str Number → Value Str Number) = redactJson blake3 := by
      funext value
      cases step with
      | index => rfl
      | key k => rw [treat,clear k List.mem_cons_self,if_neg Bool.false_ne_true]
    cases found : v.child? step with
    | none => rfl
    | some u =>
      rw [Option.map_some,plain]
      exact ih (ordered.child found) fun k inside => clear k (List.mem_cons_of_mem _ inside)

theorem hide_ne_object {map : List (Str × Value Str Number)} : hide blake3 v ≠ .object map := by
  unfold hide
  repeat' split
  all_goals exact fun same => by cases same

/-- What is put at a sensitive key has nothing below it. -/
theorem at?_hide (rest : List (Step Str)) :
    (hide blake3 v).at? rest = if rest = [] then some (hide blake3 v) else none := by
  have leaf (step : Step Str) : (hide blake3 v).child? step = none := by
    unfold hide
    repeat' split
    all_goals rfl
  cases rest with
  | nil => simp
  | cons step rest =>
    rw [Value.at?_cons,leaf,if_neg (List.cons_ne_nil _ _)]
    rfl

theorem at?_sensitive (ordered : v.Ordered) (clear : Clear path) (sensitive : isSensitiveKey k) (rest : List (Step Str)) :
    (redactJson blake3 v).at? (path ++ .key k :: rest) =
      ((v.at? (path ++ [.key k])).map (hide blake3)).bind (·.at? rest) := by
  rw [Value.at?_append,at?_redactJson _ ordered clear,Value.at?_append]
  cases found : v.at? path with
  | none => rfl
  | some u =>
    have treated : (treat blake3 (.key k) : Value Str Number → Value Str Number) = hide blake3 :=
      funext fun _ => if_pos sensitive
    simp only [Option.map_some,Option.bind_some,Value.at?_cons,child?_redactJson _ (ordered.below found),treated,
      Value.at?_nil,Option.bind_fun_some]

/-- A place is reached without a sensitive key, or is at or below a first one. -/
theorem clear_or (path : List (Step Str)) : Clear path ∨
    ∃ before k rest, path = before ++ .key k :: rest ∧ Clear before ∧ isSensitiveKey k := by
  induction path with
  | nil => exact .inl fun _ inside => (List.not_mem_nil inside).elim
  | cons step path ih =>
    by_cases first : ∃ k, step = .key k ∧ isSensitiveKey k
    · obtain ⟨k,rfl,sensitive⟩ := first
      exact .inr ⟨[],k,path,rfl,fun _ inside => (List.not_mem_nil inside).elim,sensitive⟩
    · have head : ∀ k, step = .key k → isSensitiveKey k = false := fun k same => by
        simpa using fun sensitive => first ⟨k,same,sensitive⟩
      have extend {before : List (Step Str)} (clear : Clear before) : Clear (step :: before) := fun k inside =>
        (List.mem_cons.mp inside).elim (fun same => head k same.symm) (clear k)
      obtain clear | ⟨before,k,rest,rfl,clear,sensitive⟩ := ih
      · exact .inl (extend clear)
      · exact .inr ⟨step :: before,k,rest,rfl,extend clear,sensitive⟩

theorem redactJson_ordered (ordered : v.Ordered) : (redactJson blake3 v).Ordered := by
  intro path map found
  obtain clear | ⟨before,k,rest,rfl,clear,sensitive⟩ := clear_or path
  · rw [at?_redactJson _ ordered clear] at found
    obtain ⟨u,found,redacted⟩ := Option.map_eq_some_iff.mp found
    have inner := ordered.below found
    have heads := head_redactJson blake3 inner
    rw [redacted] at heads
    cases u with
    | object map' =>
      have keys : map.map Prod.fst = map'.map Prod.fst := by simpa [Value.head] using heads
      rw [keys]
      exact inner.keys
    | _ => cases heads
  · rw [at?_sensitive _ ordered clear sensitive] at found
    obtain ⟨u,hidden,found⟩ := Option.bind_eq_some_iff.mp found
    obtain ⟨u,-,rfl⟩ := Option.map_eq_some_iff.mp hidden
    rw [at?_hide] at found
    split at found
    · exact absurd (Option.some.inj found) (hide_ne_object _)
    · cases found

theorem hide_eq (hidden : Hidden blake3 v w) : hide blake3 v = hide blake3 w := by
  obtain rfl | ⟨raw,raw',rfl,rfl,full,full',same⟩ | ⟨masked,masked'⟩ := hidden
  · rfl
  · simp [hide,full,full',same]
  · have fixed {u : Value Str Number} (masked : Masked u) : hide blake3 u = .string REDACTED := by
      cases u with
      | null => exact absurd rfl masked.1
      | string raw => simp [hide,masked.2 raw rfl]
      | _ => rfl
    rw [fixed masked,fixed masked']

/-- Whether an object has a key shows in what stands there. -/
theorem child?_isSome (same : v.head = w.head) : (v.child? (.key k)).isSome = (w.child? (.key k)).isSome := by
  have listed {u : Value Str Number} : (u.child? (.key k)).isSome ↔ ∃ keys, u.head = .object keys ∧ k ∈ keys := by
    cases u with
    | object map => simp [Value.child?,Value.head,eq_comm (a := k)]
    | _ => simp [Value.child?,Value.head]
  rw [Bool.eq_iff_iff,listed,listed,same]

theorem at?_isSome (same : (v.at? path).map Value.head = (w.at? path).map Value.head) :
    (v.at? (path ++ [.key k])).isSome = (w.at? (path ++ [.key k])).isSome := by
  rw [Value.at?_append,Value.at?_append]
  cases left : v.at? path with
  | none =>
    rw [left] at same
    rw [Option.map_eq_none_iff.mp same.symm]
  | some a =>
    rw [left] at same
    obtain ⟨b,right,heads⟩ := Option.map_eq_some_iff.mp same.symm
    simpa [right,Value.at?_cons] using child?_isSome (k := k) heads.symm

theorem Alike.hidden (alike : Alike blake3 v w) (clear : Clear path) (sensitive : isSensitiveKey k) :
    (v.at? (path ++ [.key k])).map (hide blake3) = (w.at? (path ++ [.key k])).map (hide blake3) := by
  have present := at?_isSome (k := k) (alike.outside path clear)
  cases left : v.at? (path ++ [.key k]) with
  | none =>
    rw [left] at present
    rw [Option.isSome_eq_false_iff.mp present.symm |> Option.isNone_iff_eq_none.mp]
  | some a =>
    rw [left] at present
    obtain ⟨b,right⟩ := Option.isSome_iff_exists.mp present.symm
    rw [right]
    exact congrArg some (hide_eq _ (alike.below path k a b clear sensitive left right))

end

/-- Values that differ only below sensitive keys, where they are to be hidden, cannot be told
apart once redacted; and elsewhere everything stands as it was. -/
theorem redactJson_exact : (∀ v w : Json Number, Alike blake3 v.1 w.1 → redactJson blake3 v.1 = redactJson blake3 w.1) ∧
    ∀ (v : Json Number) (path : List (Step Str)), Clear path →
      ((redactJson blake3 v.1).at? path).map Value.head = (v.1.at? path).map Value.head := by
  have outside (v : Json Number) {path : List (Step Str)} (clear : Clear path) :
      ((redactJson blake3 v.1).at? path).map Value.head = (v.1.at? path).map Value.head := by
    rw [at?_redactJson _ v.2 clear]
    cases found : v.1.at? path with
    | none => rfl
    | some u => exact congrArg some (head_redactJson _ (v.2.below found))
  refine ⟨fun v w alike => ?_,fun v path clear => outside v clear⟩
  refine Value.ext_head _ _ (redactJson_ordered _ v.2) (redactJson_ordered _ w.2) fun path => ?_
  obtain clear | ⟨before,k,rest,rfl,clear,sensitive⟩ := clear_or path
  · rw [outside v clear,outside w clear]
    exact alike.outside path clear
  · rw [at?_sensitive _ v.2 clear sensitive,at?_sensitive _ w.2 clear sensitive,alike.hidden _ clear sensitive]

def secret (v : Value Str Nat) : Value Str Nat := .object [("secret".toList,v)]

section

variable {v u : Value Str Nat} {step : Step Str} {path : List (Step Str)}

theorem secret_child (found : (secret v).child? step = some u) : step = .key "secret".toList ∧ u = v := by
  obtain ⟨k,rfl,listed⟩ := Value.child?_object found
  obtain ⟨rfl,rfl⟩ := Prod.mk.inj (List.mem_singleton.mp listed)
  exact ⟨rfl,rfl⟩

theorem secret_ordered (leaf : ∀ step, v.child? step = none) (atom : ∀ map, v ≠ .object map) : (secret v).Ordered := by
  refine .of_children (fun map same => ?_) fun step u found => ?_
  · cases same
    exact List.sortedLT_iff_pairwise.mpr (List.pairwise_singleton _ _)
  · obtain ⟨-,rfl⟩ := secret_child found
    exact .of_children (fun map same => absurd same (atom map)) fun step w found => by cases (leaf step).symm.trans found

theorem secret_below (clear : Clear path) (found : (secret v).at? path = some u) : path = [] := by
  cases path with
  | nil => rfl
  | cons step path =>
    obtain ⟨w,child,-⟩ := Option.bind_eq_some_iff.mp found
    obtain ⟨rfl,-⟩ := secret_child child
    exact absurd (clear _ List.mem_cons_self) (by decide)

end

/-- A flag and a number below a sensitive key. -/
theorem secrets_alike : redactJson (fun _ => Vector.replicate 32 0) (secret (.bool true)) =
    redactJson (fun _ => Vector.replicate 32 0) (secret (.number 3)) := by
  refine (redactJson_exact _).1 ⟨_,secret_ordered (fun _ => rfl) fun _ same => by cases same⟩
    ⟨_,secret_ordered (fun _ => rfl) fun _ same => by cases same⟩
    ⟨fun path clear => ?_,fun path k a b clear _ found found' => ?_⟩
  · by_cases top : path = []
    · subst top
      rfl
    · have nothing {v : Value Str Nat} : (secret v).at? path = none :=
        Option.eq_none_iff_forall_ne_some.mpr fun u found => top (secret_below clear found)
      rw [nothing,nothing]
  · have value {v u : Value Str Nat} (found : (secret v).at? (path ++ [.key k]) = some u) : u = v := by
      rw [Value.at?_append] at found
      obtain ⟨w,before,child⟩ := Option.bind_eq_some_iff.mp found
      obtain rfl := secret_below clear before
      cases before
      rw [Value.at?_cons] at child
      exact (secret_child (by simpa using child)).2
    obtain rfl := value found
    obtain rfl := value found'
    exact .inr (.inr ⟨⟨(fun same => by cases same),fun _ same => by cases same⟩,
      ⟨(fun same => by cases same),fun _ same => by cases same⟩⟩)

end Vnidrop.RedactedJson
