import Mathlib.Data.List.Lex
import Mathlib.Data.List.Perm.Basic
import Mathlib.Data.List.Sort
import Mathlib.Tactic.Common

/-! The greatest elements of a list under a key, and what pruning leaves of a list that grows.
Nothing here refers to a particular program. -/
namespace Vnidrop.Newest

variable {α κ κ' : Type} [LinearOrder κ] [LinearOrder κ']

/-- `ORDER BY key DESC LIMIT n`. -/
def greatest (key : α → κ) (n : Nat) (l : List α) : List α :=
  (l.mergeSort fun a b => decide (key b ≤ key a)).take n

/-- How many elements have a greater key. -/
def above (key : α → κ) (l : List α) (k : κ) : Nat := l.countP fun b => decide (k < key b)

/-- No other element has a smaller key. -/
def Least (key : α → κ) (l : List α) (x : α) : Prop := x ∈ l ∧ ∀ y ∈ l, key x ≤ key y

variable {key : α → κ} {key' : α → κ'} {l l' : List α} {n : Nat} {x e : α} {k : κ}

theorem above_perm (perm : l.Perm l') : above key l k = above key l' k := perm.countP_eq _

theorem above_append : above key (l ++ l') k = above key l k + above key l' k := List.countP_append

/-- Falling keys. -/
abbrev Falling (key : α → κ) (l : List α) : Prop := l.Pairwise fun a b => key b < key a

theorem above_falling_zero (falling : ∀ b ∈ l, key b < k) : above key l k = 0 := by
  apply List.countP_eq_zero.mpr
  intro b member
  simpa using (falling b member).le

/-- In a list with falling keys the greater ones come first. -/
theorem mem_take_falling (falling : Falling key l) :
    x ∈ l.take n ↔ x ∈ l ∧ above key l (key x) < n := by
  induction l generalizing n with
  | nil => simp
  | cons a l ih =>
    obtain ⟨below,rest⟩ := List.pairwise_cons.mp falling
    cases n with
    | zero => simp
    | succ n =>
      have first : above key (a :: l) (key a) = 0 := by
        have none := above_falling_zero below
        simpa [above] using none
      have later (member : x ∈ l) : above key (a :: l) (key x) = above key l (key x) + 1 := by
        simp [above,below x member]
      simp only [List.take_succ_cons,List.mem_cons,ih rest]
      constructor
      · rintro (rfl | ⟨member,few⟩)
        · exact ⟨.inl rfl,by omega⟩
        · exact ⟨.inr member,by rw [later member]; omega⟩
      · rintro ⟨rfl | member,few⟩
        · exact .inl rfl
        · rw [later member] at few
          exact .inr ⟨member,by omega⟩

theorem above_take_falling (falling : Falling key l) : above key (l.take n) k = min n (above key l k) := by
  induction l generalizing n with
  | nil => simp [above]
  | cons a l ih =>
    obtain ⟨below,rest⟩ := List.pairwise_cons.mp falling
    cases n with
    | zero => simp [above]
    | succ n =>
      have tail := ih rest (n := n)
      by_cases greater : k < key a
      · simp only [above,List.take_succ_cons,List.countP_cons,greater,decide_true,if_true] at tail ⊢
        omega
      · have none : above key l k = 0 := above_falling_zero fun b member =>
          (below b member).trans_le (not_lt.mp greater)
        simp only [above,List.take_succ_cons,List.countP_cons,greater,decide_false,
          Bool.false_eq_true,if_false] at tail none ⊢
        omega

section Sorted

variable (key l)

theorem sorted_perm : (l.mergeSort fun a b => decide (key b ≤ key a)).Perm l := List.mergeSort_perm ..

variable {key l}

theorem sorted_falling (distinct : (l.map key).Nodup) :
    Falling key (l.mergeSort fun a b => decide (key b ≤ key a)) := by
  have ordered : (l.mergeSort fun a b => decide (key b ≤ key a)).Pairwise
      fun a b => decide (key b ≤ key a) = true := by
    apply List.pairwise_mergeSort
    · intro a b c first second
      simp only [decide_eq_true_eq] at first second ⊢
      exact second.trans first
    · intro a b
      simpa using le_total (key b) (key a)
  have apart := ((sorted_perm key l).map key).nodup_iff.mpr distinct
  rw [List.Nodup,List.pairwise_map] at apart
  refine (ordered.and apart).imp fun both => ?_
  exact lt_of_le_of_ne (by simpa using both.1) (Ne.symm both.2)

end Sorted

/-- The greatest `n` are those with fewer than `n` above them. -/
theorem mem_greatest (distinct : (l.map key).Nodup) :
    x ∈ greatest key n l ↔ x ∈ l ∧ above key l (key x) < n := by
  unfold greatest
  rw [mem_take_falling (sorted_falling distinct),above_perm (sorted_perm key l),List.mem_mergeSort]

theorem above_greatest (distinct : (l.map key).Nodup) :
    above key (greatest key n l) k = min n (above key l k) := by
  unfold greatest
  rw [above_take_falling (sorted_falling distinct),above_perm (sorted_perm key l)]

theorem greatest_nodup (distinct : l.Nodup) : (greatest key n l).Nodup :=
  ((sorted_perm key l).nodup_iff.mpr distinct).sublist (List.take_sublist ..)

theorem greatest_length : (greatest key n l).length ≤ n := List.length_take_le ..

theorem greatest_subset (member : x ∈ greatest key n l) : x ∈ l :=
  (sorted_perm key l).mem_iff.mp (List.mem_of_mem_take member)

omit [LinearOrder κ] in
theorem distinct_elements (distinct : (l.map key).Nodup) : l.Nodup := List.Nodup.of_map _ distinct

omit [LinearOrder κ] in
theorem distinct_key {y : α} (distinct : (l.map key).Nodup) (here : x ∈ l) (there : y ∈ l)
    (same : key x = key y) : x = y := List.inj_on_of_nodup_map distinct here there same

theorem greatest_perm (distinct : (l.map key).Nodup) (perm : l.Perm l') :
    (greatest key n l).Perm (greatest key n l') := by
  have distinct' : (l'.map key).Nodup := (perm.map key).nodup_iff.mp distinct
  refine (List.perm_ext_iff_of_nodup (greatest_nodup (distinct_elements distinct))
    (greatest_nodup (distinct_elements distinct'))).mpr fun x => ?_
  rw [mem_greatest distinct,mem_greatest distinct',perm.mem_iff,above_perm perm]

theorem greatest_append_nodup {β : Type} {f : α → β} (distinct : ((l ++ [e]).map f).Nodup) :
    ((greatest key n l ++ [e]).map f).Nodup := by
  have sorted := (((sorted_perm key l).append_right [e]).map f).nodup_iff.mpr distinct
  exact sorted.sublist (((List.take_sublist ..).append_right [e]).map f)

/-- What has been pruned before is not missed when one more element comes in. -/
theorem greatest_grows (distinct : ((l ++ [e]).map key).Nodup) :
    (greatest key n (greatest key n l ++ [e])).Perm (greatest key n (l ++ [e])) := by
  have old : (l.map key).Nodup := by
    rw [List.map_append] at distinct
    exact (List.nodup_append.mp distinct).1
  have fewer : ((greatest key n l ++ [e]).map key).Nodup := greatest_append_nodup distinct
  refine (List.perm_ext_iff_of_nodup (greatest_nodup (distinct_elements fewer))
    (greatest_nodup (distinct_elements distinct))).mpr fun x => ?_
  rw [mem_greatest fewer,mem_greatest distinct,List.mem_append,List.mem_append,above_append,above_append,
    above_greatest old,mem_greatest old]
  constructor
  · rintro ⟨⟨here,_⟩ | here,few⟩
    · exact ⟨.inl here,by omega⟩
    · exact ⟨.inr here,by omega⟩
  · rintro ⟨here | here,few⟩
    · exact ⟨.inl ⟨here,by omega⟩,by omega⟩
    · exact ⟨.inr here,by omega⟩

theorem exists_least (key : α → κ) (nonempty : l ≠ []) : ∃ x, Least key l x := by
  induction l with
  | nil => exact absurd rfl nonempty
  | cons a l ih =>
    by_cases single : l = []
    · exact ⟨a,by simp [Least,single]⟩
    · obtain ⟨x,member,least⟩ := ih single
      rcases le_total (key a) (key x) with le | le
      · refine ⟨a,List.mem_cons_self,fun y there => ?_⟩
        rcases List.mem_cons.mp there with rfl | there
        · exact le_rfl
        · exact le.trans (least y there)
      · refine ⟨x,List.mem_cons_of_mem _ member,fun y there => ?_⟩
        rcases List.mem_cons.mp there with rfl | there
        · exact le
        · exact least y there

/-- Everything else is above the least element. -/
theorem above_least (distinct : (l.map key).Nodup) (least : Least key l x) :
    above key l (key x) + 1 = l.length := by
  obtain ⟨before,after,rfl⟩ := List.append_of_mem least.1
  have apart := (List.nodup_middle.mp (distinct_elements distinct))
  have beyond (y : α) (there : y ∈ before ++ after) : key x < key y := by
    have inside : y ∈ before ++ x :: after := by
      rcases List.mem_append.mp there with front | back
      · exact List.mem_append_left _ front
      · exact List.mem_append_right _ (List.mem_cons_of_mem _ back)
    refine lt_of_le_of_ne (least.2 y inside) fun same => ?_
    have same := distinct_key distinct least.1 inside same
    exact (List.nodup_cons.mp apart).1 (same ▸ there)
  have front : above key before (key x) = before.length := by
    rw [above,List.countP_eq_length]
    intro y there
    simpa using beyond y (List.mem_append_left _ there)
  have back : above key after (key x) = after.length := by
    rw [above,List.countP_eq_length]
    intro y there
    simpa using beyond y (List.mem_append_right _ there)
  have own : above key (x :: after) (key x) = above key after (key x) := by simp [above]
  rw [above_append,own,front,back,List.length_append,List.length_cons]
  omega

omit [LinearOrder κ] in
theorem two_members {y : α} (here : x ∈ l) (there : y ∈ l) (apart : x ≠ y) : 2 ≤ l.length := by
  match l with
  | [] => cases here
  | [a] =>
    rw [List.mem_singleton] at here there
    exact absurd (here.trans there.symm) apart
  | _ :: _ :: tail => simp

/-- An element with a smaller one below it has at most `length - 2` above it. -/
theorem above_other {y : α} (here : x ∈ l) (there : y ∈ l) (less : key y < key x) :
    above key l (key x) + 2 ≤ l.length := by
  have apart : x ≠ y := by
    rintro rfl
    exact lt_irrefl _ less
  have two : 2 ≤ l.countP fun b => decide (¬key x < key b) := by
    rw [List.countP_eq_length_filter]
    exact two_members (x := x) (y := y) (by simp [here]) (by simp [there,less.le]) apart
  have count := List.length_eq_countP_add_countP (fun b => decide (key x < key b)) (l := l)
  simp only [decide_eq_true_eq] at count
  unfold above
  omega

/-- Of one element more than there is room for, the least is pruned. -/
theorem mem_pruned (distinct : (l.map key).Nodup) (short : l.length ≤ n + 1) :
    x ∈ greatest key n l ↔ x ∈ l ∧ ¬(n < l.length ∧ Least key l x) := by
  rw [mem_greatest distinct]
  refine and_congr_right fun member => ?_
  by_cases least : Least key l x
  · have count := above_least distinct least
    simp only [least,and_true]
    omega
  · obtain ⟨y,there,less⟩ : ∃ y ∈ l, key y < key x := by
      simpa [Least,member] using least
    have count := above_other member there less
    simp only [least,and_false,not_false_eq_true,iff_true]
    omega

/-- Two keys prune the same element when the least under the one is the least under the other. -/
theorem pruned_agree (distinct : (l.map key).Nodup) (distinct' : (l.map key').Nodup)
    (short : l.length ≤ n + 1) : (greatest key' n l).Perm (greatest key n l) ↔
      (n < l.length → ∀ x, Least key l x → Least key' l x) := by
  rw [List.perm_ext_iff_of_nodup (greatest_nodup (distinct_elements distinct))
    (greatest_nodup (distinct_elements distinct))]
  constructor
  · intro same full x least
    have dropped : x ∉ greatest key' n l := fun kept =>
      ((mem_pruned distinct short).mp ((same x).mp kept)).2 ⟨full,least⟩
    by_contra other
    exact dropped ((mem_pruned distinct' short).mpr ⟨least.1,fun both => other both.2⟩)
  · intro agree x
    rw [mem_pruned distinct' short,mem_pruned distinct short]
    refine and_congr_right fun member => not_congr (and_congr_right fun full => ?_)
    obtain ⟨y,least⟩ := exists_least key (List.ne_nil_of_mem member)
    have least' := agree full y least
    constructor
    · intro here
      have same : key' x = key' y := le_antisymm (here.2 y least'.1) (least'.2 x member)
      exact distinct_key distinct' member least'.1 same ▸ least
    · exact agree full x

end Vnidrop.Newest
