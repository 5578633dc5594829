import Mathlib.Data.List.DropRight
import Mathlib.Data.List.Infix

/-! Parts of lists: where a part can stand in a list that is put together, the places that lie
within parts of a kind, and the elements at the places that meet a condition. -/
namespace Vnidrop.ListParts

variable {α β : Type} {a b p s : List α} {c : α} {i : Nat}

theorem prefix_append_cases (first : p <+: a ++ b) : p <+: a ∨ ∃ y, p = a ++ y ∧ y <+: b := by
  obtain ⟨rest,same⟩ := first
  obtain ⟨more,rfl,-⟩ | ⟨y,rfl,rfl⟩ := List.append_eq_append_iff.mp same
  · exact .inl ⟨more,rfl⟩
  · exact .inr ⟨y,rfl,rest,rfl⟩

/-- A part of two lists put together is in one of them, or ends the first and begins the second. -/
theorem infix_append_cases (part : p <:+: a ++ b) :
    p <:+: a ∨ p <:+: b ∨ ∃ x y, p = x ++ y ∧ x ≠ [] ∧ x <:+ a ∧ y <+: b := by
  induction a with
  | nil => exact .inr (.inl part)
  | cons c a ih =>
    obtain first | later := List.infix_cons_iff.mp part
    · obtain inside | ⟨y,rfl,rest⟩ := prefix_append_cases (a := c :: a) first
      · exact .inl inside.isInfix
      · exact .inr (.inr ⟨c :: a,y,rfl,List.cons_ne_nil c a,List.suffix_refl _,rest⟩)
    · obtain left | right | ⟨x,y,same,some,ends,begins⟩ := ih later
      · exact .inl (List.infix_cons_iff.mpr (.inr left))
      · exact .inr (.inl right)
      · exact .inr (.inr ⟨x,y,same,some,ends.trans (List.suffix_cons c a),begins⟩)

/-- A part without the element in the middle stands on one side of it. -/
theorem infix_sep (out : c ∉ p) (part : p <:+: a ++ c :: b) : p <:+: a ∨ p <:+: b := by
  obtain left | right | ⟨x,y,rfl,-,ends,begins⟩ := infix_append_cases part
  · exact .inl left
  · obtain first | later := List.infix_cons_iff.mp right
    · cases p with
      | nil => exact .inl (List.nil_infix)
      | cons d p =>
        obtain ⟨rfl,-⟩ := List.cons_prefix_cons.mp first
        exact absurd List.mem_cons_self out
    · exact .inr later
  · cases y with
    | nil =>
      rw [List.append_nil]
      exact .inl ends.isInfix
    | cons d y =>
      obtain ⟨rfl,-⟩ := List.cons_prefix_cons.mp begins
      exact absurd (by simp) out

/-- The place lies within a part of the kind. -/
def Within (P : List α → Prop) (s : List α) (i : Nat) : Prop :=
  ∃ before part after, s = before ++ part ++ after ∧ P part ∧ before.length ≤ i ∧ i < before.length + part.length

theorem Within.extend {P : List α → Prop} (within : Within P s i) (a b : List α) :
    Within P (a ++ s ++ b) (a.length + i) := by
  obtain ⟨before,part,after,rfl,kind,from_,to_⟩ := within
  exact ⟨a ++ before,part,after ++ b,by simp,kind,by simpa using from_,by simpa [Nat.add_assoc] using to_⟩

/-- Past an element that no part of the kind holds, places are as without what is before it. -/
theorem Within.past {P : List α → Prop} (out : ∀ part, P part → c ∉ part)
    (within : Within P (a ++ c :: b) (a.length + i)) :
    Within P (c :: b) i := by
  obtain ⟨before,part,after,same,kind,from_,to_⟩ := within
  rw [List.append_assoc] at same
  obtain ⟨more,rfl,rest⟩ | ⟨more,rfl,rest⟩ := List.append_eq_append_iff.mp same
  · exact ⟨more,part,after,by rw [rest,List.append_assoc],kind,by simp at from_; omega,by simp at to_; omega⟩
  · have inside : more.length < part.length := by simp at to_; omega
    have at_c : (part ++ after)[more.length]? = some c := by simp [rest]
    rw [List.getElem?_append_left inside] at at_c
    exact absurd (List.mem_of_getElem? at_c) (out part kind)

open Classical in
/-- The elements at the places that meet the condition. -/
noncomputable def select : (Nat → Prop) → List α → List α
  | _, [] => []
  | P, c :: s => if P 0 then c :: select (fun i => P (i + 1)) s else select (fun i => P (i + 1)) s

theorem select_append (P : Nat → Prop) (a b : List α) :
    select P (a ++ b) = select P a ++ select (fun i => P (a.length + i)) b := by
  induction a generalizing P with
  | nil => simp [select]
  | cons c a ih =>
    rw [List.cons_append,select,select,ih]
    simp only [List.length_cons,Nat.add_right_comm _ 1]
    split <;> rfl

theorem select_mono {P Q : Nat → Prop} (weaker : ∀ i, i < s.length → P i → Q i) :
    List.Sublist (select P s) (select Q s) := by
  induction s generalizing P Q with
  | nil => exact .refl _
  | cons c s ih =>
    have rest := ih (P := fun i => P (i + 1)) (Q := fun i => Q (i + 1)) fun i inside => weaker (i + 1) (by simpa using inside)
    have first := weaker 0 (by simp)
    rw [select,select]
    split
    · rename_i held
      rw [if_pos (first held)]
      exact rest.cons_cons c
    · split
      · exact rest.cons c
      · exact rest

theorem select_sublist (P : Nat → Prop) (s : List α) : List.Sublist (select P s) s := by
  induction s generalizing P with
  | nil => exact .refl _
  | cons c s ih =>
    rw [select]
    split
    · exact (ih _).cons_cons c
    · exact (ih _).cons c

theorem select_none {P : Nat → Prop} (none : ∀ i, i < s.length → ¬P i) : select P s = [] := by
  induction s generalizing P with
  | nil => rfl
  | cons c s ih =>
    rw [select,if_neg (none 0 (by simp))]
    exact ih fun i inside => none (i + 1) (by simpa using inside)

theorem mem_select {P : Nat → Prop} : c ∈ select P s ↔ ∃ i, s[i]? = some c ∧ P i := by
  induction s generalizing P with
  | nil => simp [select]
  | cons d s ih =>
    have later : c ∈ select (fun i => P (i + 1)) s ↔ ∃ i, (d :: s)[i + 1]? = some c ∧ P (i + 1) := by simpa using ih
    rw [select]
    split
    · rename_i held
      rw [List.mem_cons,later]
      constructor
      · rintro (rfl | ⟨i,found,holds⟩)
        · exact ⟨0,rfl,held⟩
        · exact ⟨i + 1,found,holds⟩
      · rintro ⟨i | i,found,holds⟩
        · exact .inl (Option.some.inj found).symm
        · exact .inr ⟨i,found,holds⟩
    · rename_i missed
      rw [later]
      constructor
      · rintro ⟨i,found,holds⟩
        exact ⟨i + 1,found,holds⟩
      · rintro ⟨i | i,found,holds⟩
        · exact absurd holds missed
        · exact ⟨i,found,holds⟩

/-- Trimming at both ends leaves nothing exactly if there is nothing else. -/
theorem trimmed_nil {f : α → Bool} : ((s.dropWhile f).reverse.dropWhile f).reverse = [] ↔ ∀ c ∈ s, f c := by
  change (s.dropWhile f).rdropWhile f = [] ↔ _
  rw [List.rdropWhile_eq_nil_iff]
  constructor
  · intro rest c member
    by_contra solid
    have kept : s.dropWhile f ≠ [] := by
      rw [ne_eq,List.dropWhile_eq_nil_iff]
      exact fun all => solid (all c member)
    have first := List.head_dropWhile_not f kept
    rw [rest _ (List.head_mem kept)] at first
    cases first
  · intro all c member
    exact all c ((List.dropWhile_sublist f).subset member)

end Vnidrop.ListParts
