import Vnidrop.SelfDelimiting
import Mathlib.Data.Nat.Digits.Lemmas

/-! Numbers of a fixed width in bytes, read back in either byte order. -/
namespace Vnidrop.ByteNumbers

open SelfDelimiting

variable {k n : Nat}

/-- `from_le_bytes`. -/
def leNat (bytes : List UInt8) : Nat := Nat.ofDigits 256 (bytes.map UInt8.toNat)

@[simp] theorem leNat_nil : leNat [] = 0 := rfl

@[simp] theorem leNat_cons (b : UInt8) (bytes : List UInt8) : leNat (b :: bytes) = b.toNat + 256 * leNat bytes := rfl

theorem leNat_lt (bytes : List UInt8) : leNat bytes < 256 ^ bytes.length := by
  have bound := Nat.ofDigits_lt_base_pow_length (b := 256) (l := bytes.map UInt8.toNat) (by simp)
    (by simpa using fun b _ => UInt8.toNat_lt b)
  simpa [leNat] using bound

theorem leNat_leBytes (small : n < 256 ^ k) : leNat (leBytes k n) = n := by
  induction k generalizing n with
  | zero => simp at small; simp [leBytes,small]
  | succ k ih =>
    rw [pow_succ,Nat.mul_comm] at small
    rw [leBytes,leNat_cons,ih (Nat.div_lt_of_lt_mul small),UInt8.toNat_ofNat']
    omega

theorem leBytes_leNat (bytes : List UInt8) : leBytes bytes.length (leNat bytes) = bytes := by
  induction bytes with
  | nil => rfl
  | cons b bytes ih =>
    have low : (b.toNat + 256 * leNat bytes) % 256 = b.toNat := by
      have := b.toNat_lt
      omega
    have high : (b.toNat + 256 * leNat bytes) / 256 = leNat bytes := by
      have := b.toNat_lt
      omega
    rw [List.length_cons,leNat_cons,leBytes,low,high,ih,UInt8.ofNat_toNat]

/-- `to_be_bytes` of a number of so many bytes. -/
def beBytes (k n : Nat) : List UInt8 := (leBytes k n).reverse

/-- `from_be_bytes`. -/
def beNat (bytes : List UInt8) : Nat := leNat bytes.reverse

@[simp] theorem length_beBytes (k n : Nat) : (beBytes k n).length = k := by simp [beBytes]

theorem beNat_beBytes (small : n < 256 ^ k) : beNat (beBytes k n) = n := by
  simp [beNat,beBytes,leNat_leBytes small]

theorem beBytes_beNat (bytes : List UInt8) : beBytes bytes.length (beNat bytes) = bytes := by
  have back := leBytes_leNat bytes.reverse
  rw [List.length_reverse] at back
  rw [beBytes,beNat,back,List.reverse_reverse]

theorem beNat_lt (bytes : List UInt8) : beNat bytes < 256 ^ bytes.length := by
  simpa [beNat] using leNat_lt bytes.reverse

end Vnidrop.ByteNumbers
