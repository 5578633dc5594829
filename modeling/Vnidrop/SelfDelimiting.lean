import Mathlib

/-! Codes that show where they end: the code of a value can be told from whatever follows it. -/
namespace Vnidrop.SelfDelimiting

variable {α β γ : Type}

/-- Codes that are followed by anything are the same only for the same value. -/
def Delimited (code : α → List γ) : Prop := ∀ a b x y, code a ++ x = code b ++ y → a = b ∧ x = y

theorem Delimited.injective {code : α → List γ} (self : Delimited code) : Function.Injective code :=
  fun a b same => (self a b [] [] (by rw [same])).1

theorem of_length {code : α → List γ} (injective : Function.Injective code) {n : Nat}
    (length : ∀ a, (code a).length = n) : Delimited code := by
  intro a b x y same
  obtain ⟨first,rest⟩ := List.append_inj same ((length a).trans (length b).symm)
  exact ⟨injective first,rest⟩

theorem Delimited.pair {code : α → List γ} {code' : β → List γ} (first : Delimited code) (second : Delimited code') :
    Delimited fun p : α × β => code p.1 ++ code' p.2 := by
  intro p q x y same
  rw [List.append_assoc,List.append_assoc] at same
  obtain ⟨left,rest⟩ := first _ _ _ _ same
  obtain ⟨right,rest⟩ := second _ _ _ _ rest
  exact ⟨Prod.ext left right,rest⟩

/-- A list of a fixed number of values. -/
theorem Delimited.vector {code : α → List γ} (self : Delimited code) (n : Nat) :
    Delimited fun v : List.Vector α n => v.toList.flatMap code := by
  suffices ∀ l l' : List α, l.length = l'.length → ∀ x y, l.flatMap code ++ x = l'.flatMap code ++ y → l = l' ∧ x = y from
    fun v w x y same => by
      obtain ⟨lists,rest⟩ := this v.toList w.toList (by simp) x y same
      exact ⟨List.Vector.eq v w lists,rest⟩
  intro l
  induction l with
  | nil =>
    intro l' none x y same
    cases List.length_eq_zero_iff.mp none.symm
    exact ⟨rfl,same⟩
  | cons a l ih =>
    intro l' long x y same
    cases l' with
    | nil => cases long
    | cons b l' =>
      rw [List.flatMap_cons,List.flatMap_cons,List.append_assoc,List.append_assoc] at same
      obtain ⟨rfl,later⟩ := self _ _ _ _ same
      obtain ⟨rfl,rest⟩ := ih l' (Nat.succ.inj long) x y later
      exact ⟨rfl,rest⟩

/-- A value, and an element that its code does not hold. -/
theorem terminated {code : α → List γ} (injective : Function.Injective code) {stop : γ} (out : ∀ a, stop ∉ code a) :
    Delimited fun a => code a ++ [stop] := by
  suffices ∀ l l' : List γ, stop ∉ l → stop ∉ l' → ∀ x y, l ++ stop :: x = l' ++ stop :: y → l = l' ∧ x = y from
    fun a b x y same => by
      obtain ⟨codes,rest⟩ := this (code a) (code b) (out a) (out b) x y (by simpa using same)
      exact ⟨injective codes,rest⟩
  intro l
  induction l with
  | nil =>
    intro l' _ clean x y same
    cases l' with
    | nil => exact ⟨rfl,(List.cons.inj same).2⟩
    | cons c l' => exact absurd ((List.cons.inj same).1 ▸ List.mem_cons_self) clean
  | cons c l ih =>
    intro l' clean clean' x y same
    cases l' with
    | nil => exact absurd ((List.cons.inj same).1 ▸ List.mem_cons_self) clean
    | cons d l' =>
      obtain ⟨rfl,later⟩ := List.cons.inj same
      obtain ⟨rfl,rest⟩ := ih l' (fun inside => clean (List.mem_cons_of_mem c inside))
        (fun inside => clean' (List.mem_cons_of_mem c inside)) x y later
      exact ⟨rfl,rest⟩

/-! Numbers, least byte first. -/

/-- `to_le_bytes` of a number of so many bytes. -/
def leBytes : Nat → Nat → List UInt8
  | 0, _ => []
  | k + 1, n => UInt8.ofNat (n % 256) :: leBytes k (n / 256)

@[simp] theorem length_leBytes (k n : Nat) : (leBytes k n).length = k := by
  induction k generalizing n with
  | zero => rfl
  | succ k ih => rw [leBytes,List.length_cons,ih]

theorem leBytes_inj {k n m : Nat} (small : n < 256 ^ k) (small' : m < 256 ^ k) (same : leBytes k n = leBytes k m) : n = m := by
  induction k generalizing n m with
  | zero =>
    rw [pow_zero] at small small'
    omega
  | succ k ih =>
    obtain ⟨low,high⟩ := List.cons.inj same
    rw [pow_succ] at small small'
    rw [Nat.mul_comm] at small small'
    have quotients := ih (Nat.div_lt_of_lt_mul small) (Nat.div_lt_of_lt_mul small') high
    have rests := congrArg UInt8.toNat low
    rw [UInt8.toNat_ofNat',UInt8.toNat_ofNat'] at rests
    omega

theorem u64_code : Delimited fun n : UInt64 => leBytes 8 n.toNat :=
  of_length (fun n m same => UInt64.toNat_inj.mp (leBytes_inj n.toNat_lt m.toNat_lt same)) fun _ => length_leBytes 8 _

theorem u16_code : Delimited fun n : UInt16 => leBytes 2 n.toNat :=
  of_length (fun n m same => UInt16.toNat_inj.mp (leBytes_inj n.toNat_lt m.toNat_lt same)) fun _ => length_leBytes 2 _

/-- A code after its length, for values whose codes are not too long to have one. -/
theorem framed {code : α → List UInt8} (injective : Function.Injective code) (short : ∀ a, (code a).length < 256 ^ 8) :
    Delimited fun a => leBytes 8 (code a).length ++ code a := by
  intro a b x y same
  rw [List.append_assoc,List.append_assoc] at same
  obtain ⟨lengths,rest⟩ := List.append_inj same (by rw [length_leBytes,length_leBytes])
  obtain ⟨codes,rest⟩ := List.append_inj rest (leBytes_inj (short a) (short b) lengths)
  exact ⟨injective codes,rest⟩

end Vnidrop.SelfDelimiting
