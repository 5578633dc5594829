import Mathlib

/-! JSON trees and their places. An object is its entries in the order of their keys, as an
ordered map lists them; a tree is known from what stands at each of its places. -/
namespace Vnidrop.JsonTrees

variable {Key Number : Type}

inductive Value (Key Number : Type) where
  | null
  | bool (b : Bool)
  | number (n : Number)
  | string (s : Key)
  | array (items : List (Value Key Number))
  | object (map : List (Key × Value Key Number))

inductive Step (Key : Type) where
  | index (i : Nat)
  | key (k : Key)

/-- What stands at a place, without what is below it. -/
inductive Head (Key Number : Type) where
  | null
  | bool (b : Bool)
  | number (n : Number)
  | string (s : Key)
  | array (length : Nat)
  | object (keys : List Key)

namespace Value

def head : Value Key Number → Head Key Number
  | .null => .null
  | .bool b => .bool b
  | .number n => .number n
  | .string s => .string s
  | .array items => .array items.length
  | .object map => .object (map.map Prod.fst)

def child? [LinearOrder Key] : Value Key Number → Step Key → Option (Value Key Number)
  | .array items, .index i => items[i]?
  | .object map, .key k => map.lookup k
  | _, _ => none

def at? [LinearOrder Key] : Value Key Number → List (Step Key) → Option (Value Key Number)
  | v, [] => some v
  | v, step :: path => (v.child? step).bind (at? · path)

/-- Every object lists its keys in their order, and so each of them once. -/
def Ordered [LinearOrder Key] (v : Value Key Number) : Prop :=
  ∀ path map, v.at? path = some (.object map) → (map.map Prod.fst).SortedLT

end Value

section

variable {Value : Type} [LinearOrder Key]

/-- `BTreeMap::insert`. -/
def insert (key : Key) (value : Value) : List (Key × Value) → List (Key × Value)
  | [] => [(key,value)]
  | (k,v) :: map =>
    if key < k then (key,value) :: (k,v) :: map
    else if key = k then (key,value) :: map
    else (k,v) :: insert key value map

/-- `BTreeMap::from_iter`. -/
def collect (entries : List (Key × Value)) : List (Key × Value) :=
  entries.foldl (fun map e => insert e.1 e.2 map) []

theorem insert_last {map : List (Key × Value)} {key : Key} {value : Value} (above : ∀ e ∈ map, e.1 < key) :
    insert key value map = map ++ [(key,value)] := by
  induction map with
  | nil => rfl
  | cons e map ih =>
    have after : e.1 < key := above e List.mem_cons_self
    rw [insert,if_neg after.not_gt,if_neg after.ne',ih fun d listed => above d (List.mem_cons_of_mem _ listed)]
    rfl

theorem collect_sorted {entries : List (Key × Value)} (sorted : (entries.map Prod.fst).SortedLT) :
    collect entries = entries := by
  suffices ∀ map, ((map ++ entries).map Prod.fst).SortedLT →
      entries.foldl (fun map e => insert e.1 e.2 map) map = map ++ entries from by
    simpa [collect] using this [] (by simpa using sorted)
  clear sorted
  induction entries with
  | nil => simp
  | cons e entries ih =>
    intro map sorted
    have above : ∀ d ∈ map, d.1 < e.1 := by
      have ordered := sorted.pairwise
      rw [List.map_append,List.pairwise_append] at ordered
      exact fun d listed => ordered.2.2 _ (List.mem_map_of_mem listed) _ (by simp)
    rw [List.foldl_cons,insert_last above,ih _ (by simpa using sorted)]
    simp

end

namespace Value

variable [LinearOrder Key] {v w : Value Key Number} {path : List (Step Key)}

@[simp] theorem at?_nil : v.at? [] = some v := by
  unfold at?
  rfl

theorem at?_cons {step : Step Key} : v.at? (step :: path) = (v.child? step).bind (·.at? path) := rfl

theorem at?_append (path rest : List (Step Key)) : v.at? (path ++ rest) = (v.at? path).bind (·.at? rest) := by
  induction path generalizing v with
  | nil => simp
  | cons step path ih =>
    rw [List.cons_append,at?_cons,at?_cons]
    cases v.child? step with
    | none => rfl
    | some u => exact ih

theorem Ordered.below (ordered : v.Ordered) (found : v.at? path = some w) : w.Ordered := by
  intro rest map at_rest
  refine ordered (path ++ rest) map ?_
  rw [at?_append,found]
  exact at_rest

theorem Ordered.child {step : Step Key} (ordered : v.Ordered) (found : v.child? step = some w) : w.Ordered :=
  ordered.below (show v.at? [step] = some w by simp [at?_cons,found])

theorem Ordered.keys {map : List (Key × Value Key Number)} (ordered : (Value.object map).Ordered) :
    (map.map Prod.fst).SortedLT :=
  ordered [] map at?_nil

theorem Ordered.of_children (keys : ∀ map, v = .object map → (map.map Prod.fst).SortedLT)
    (children : ∀ step u, v.child? step = some u → u.Ordered) : v.Ordered := by
  intro path map found
  cases path with
  | nil => exact keys map (Option.some.inj (at?_nil.symm.trans found))
  | cons step path =>
    obtain ⟨u,child,found⟩ := Option.bind_eq_some_iff.mp found
    exact children step u child path map found

theorem lookup_mem {map : List (Key × Value Key Number)} {e : Key × Value Key Number}
    (sorted : (map.map Prod.fst).SortedLT) (listed : e ∈ map) : map.lookup e.1 = some e.2 := by
  obtain ⟨before,after,rfl⟩ := List.append_of_mem listed
  refine List.lookup_eq_some_iff.mpr ⟨before,after,rfl,fun d earlier => ?_⟩
  have once := sorted.nodup
  rw [List.map_append,List.nodup_append] at once
  simpa using (once.2.2 d.1 (List.mem_map_of_mem earlier) e.1 (by simp)).symm

theorem child?_object {map : List (Key × Value Key Number)} {step : Step Key}
    (found : (Value.object map).child? step = some v) : ∃ k, step = .key k ∧ (k,v) ∈ map := by
  cases step with
  | index => cases found
  | key k =>
    obtain ⟨before,after,rfl,-⟩ := List.lookup_eq_some_iff.mp found
    exact ⟨k,rfl,by simp⟩

theorem child?_map {map : List (Key × Value Key Number)} {k : Key}
    (f : Key → Value Key Number → Value Key Number) :
    (Value.object (map.map fun e => (e.1,f e.1 e.2))).child? (.key k) =
      ((Value.object map).child? (.key k)).map (f k) := by
  change List.lookup k _ = (map.lookup k).map _
  induction map with
  | nil => rfl
  | cons e map ih =>
    rw [List.map_cons,List.lookup_cons,List.lookup_cons]
    by_cases same : k = e.1
    · subst same
      simp
    · rw [beq_false_of_ne same]
      exact ih

/-- A tree is what stands at its places. -/
theorem ext_head (v w : Value Key Number) (left : v.Ordered) (right : w.Ordered)
    (same : ∀ path, (v.at? path).map head = (w.at? path).map head) : v = w := by
  have top : v.head = w.head := by simpa using same []
  have child {a b : Value Key Number} (step : Step Key) (found : v.child? step = some a)
      (found' : w.child? step = some b) : a.Ordered ∧ b.Ordered ∧
      ∀ path, (a.at? path).map head = (b.at? path).map head :=
    ⟨left.child found,right.child found',fun path => by simpa [at?_cons,found,found'] using same (step :: path)⟩
  match v,w,top with
  | .null,.null,_ => rfl
  | .bool _,.bool _,rfl => rfl
  | .number _,.number _,rfl => rfl
  | .string _,.string _,rfl => rfl
  | .array items,.array items',top =>
    have long : items.length = items'.length := by simpa [head] using top
    refine congrArg Value.array (List.ext_getElem long fun i inside inside' => ?_)
    obtain ⟨left,right,same⟩ := child (.index i) (List.getElem?_eq_getElem inside) (List.getElem?_eq_getElem inside')
    have smaller : sizeOf items[i] < sizeOf items := List.sizeOf_lt_of_mem (List.getElem_mem inside)
    exact ext_head items[i] items'[i] left right same
  | .object map,.object map',top =>
    have keys : map.map Prod.fst = map'.map Prod.fst := by simpa [head] using top
    have long : map.length = map'.length := by simpa using congrArg List.length keys
    refine congrArg Value.object (List.ext_getElem long fun i inside inside' => ?_)
    have key : map[i].1 = map'[i].1 := by
      have listed : (map.map Prod.fst)[i]? = (map'.map Prod.fst)[i]? := by rw [keys]
      simpa [List.getElem?_map,inside,inside'] using listed
    obtain ⟨left,right,same⟩ := child (.key map[i].1) (lookup_mem left.keys (List.getElem_mem inside))
      (key ▸ lookup_mem right.keys (List.getElem_mem inside'))
    have smaller : sizeOf map[i] < sizeOf map := List.sizeOf_lt_of_mem (List.getElem_mem inside)
    have inner : sizeOf map[i].2 < sizeOf map[i] := by
      cases map[i]
      simp
    exact Prod.ext key (ext_head map[i].2 map'[i].2 left right same)
termination_by v

end Value

end Vnidrop.JsonTrees
