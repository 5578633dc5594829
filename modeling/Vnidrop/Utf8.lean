import Mathlib

/-! UTF-8 as lists of bytes: encoding, decoding, and where ASCII and character boundaries are. -/
namespace Vnidrop.Utf8

def encode (s : List Char) : List UInt8 := s.flatMap String.utf8EncodeChar

/-- The text that the bytes encode, if they encode one. -/
def decode? (bytes : List UInt8) : Option (List Char) := (String.fromUTF8? ⟨bytes.toArray⟩).map String.toList

section

variable {s t : List Char} {bytes : List UInt8} {c : Char} {b : UInt8}

@[simp] theorem encode_nil : encode [] = [] := rfl

@[simp] theorem encode_cons : encode (c :: s) = String.utf8EncodeChar c ++ encode s := rfl

@[simp] theorem encode_append : encode (s ++ t) = encode s ++ encode t := List.flatMap_append

theorem toList_eq (a : ByteArray) : a.toList = a.data.toList := by
  suffices loop : ∀ i acc, ByteArray.toList.loop a i acc = acc.reverse ++ a.data.toList.drop i from by
    simpa [ByteArray.toList] using loop 0 []
  intro i acc
  fun_induction ByteArray.toList.loop a i acc with
  | case1 i acc below ih =>
    have inside : i < a.data.toList.length := by simpa using below
    rw [ih,List.reverse_cons,List.append_assoc,List.drop_eq_getElem_cons inside]
    simp [ByteArray.get!,below]
  | case2 i acc above =>
    rw [List.drop_eq_nil_of_le (by simpa using above),List.append_nil]

/-- The bytes of a text as an array. -/
theorem utf8Encode_eq (s : List Char) : s.utf8Encode = ⟨(encode s).toArray⟩ := by
  apply ByteArray.ext
  rw [← Array.toList_inj]
  exact List.toList_data_toByteArray

theorem encode_ofList (s : List Char) : (String.ofList s).toUTF8.toList = encode s := by
  rw [toList_eq,show (String.ofList s).toUTF8 = s.utf8Encode from rfl,utf8Encode_eq]

@[simp] theorem decode?_encode (s : List Char) : decode? (encode s) = some s := by
  have valid : (ByteArray.mk (encode s).toArray).IsValidUTF8 := ⟨s,(utf8Encode_eq s).symm⟩
  have same : String.fromUTF8 ⟨(encode s).toArray⟩ valid = String.ofList s :=
    String.toByteArray_inj.mp (utf8Encode_eq s).symm
  rw [decode?,String.fromUTF8?,dif_pos valid,same,Option.map_some,String.toList_ofList]

theorem decode?_eq_some : decode? bytes = some s ↔ bytes = encode s := by
  refine ⟨fun read => ?_,fun same => same ▸ decode?_encode s⟩
  obtain ⟨text,parsed,rfl⟩ := Option.map_eq_some_iff.mp read
  unfold String.fromUTF8? at parsed
  split at parsed
  · cases parsed
    have same := (utf8Encode_eq _).symm.trans (String.utf8Encode_toList (b := String.fromUTF8 ⟨bytes.toArray⟩ ‹_›))
    exact (List.toArray_inj (congrArg ByteArray.data same)).symm
  · cases parsed

theorem encode_inj : encode s = encode t ↔ s = t :=
  ⟨fun same => Option.some.inj ((decode?_encode s).symm.trans (same ▸ decode?_encode t)),congrArg encode⟩

/-- A text whose bytes come first comes first. -/
theorem prefix_encode_iff : encode s <+: encode t ↔ s <+: t := by
  constructor
  · rintro ⟨rest,same⟩
    refine List.isPrefix_of_utf8Encode_append_eq_utf8Encode ⟨rest.toArray⟩ ?_
    rw [utf8Encode_eq,utf8Encode_eq,← same]
    apply ByteArray.ext
    simp
  · rintro ⟨rest,rfl⟩
    exact ⟨encode rest,encode_append.symm⟩

/-! Cutting a text to a number of bytes. -/

/-- The longest prefix of a text that takes so many bytes at most. -/
structure Longest (most : Nat) (s p : List Char) : Prop where
  first : p <+: s
  short : (encode p).length ≤ most
  longest : ∀ q, q <+: s → (encode q).length ≤ most → q <+: p

/-- The cut is the text, or less than a character away from the limit. -/
theorem exists_longest (most : Nat) (s : List Char) :
    ∃ p, Longest most s p ∧ (p = s ∨ most < (encode p).length + 4) := by
  induction s generalizing most with
  | nil => exact ⟨[],⟨List.nil_prefix,Nat.zero_le most,fun q first _ => first⟩,.inl rfl⟩
  | cons c s ih =>
    have width : (String.utf8EncodeChar c).length = c.utf8Size := String.length_utf8EncodeChar c
    by_cases fits : c.utf8Size ≤ most
    · obtain ⟨p,⟨first,short,longest⟩,near⟩ := ih (most - c.utf8Size)
      refine ⟨c :: p,⟨List.cons_prefix_cons.mpr ⟨rfl,first⟩,?_,fun q first fit => ?_⟩,?_⟩
      · rw [encode_cons,List.length_append,width]
        omega
      · cases q with
        | nil => exact List.nil_prefix
        | cons d q =>
          obtain ⟨rfl,rest⟩ := List.cons_prefix_cons.mp first
          rw [encode_cons,List.length_append,width] at fit
          exact List.cons_prefix_cons.mpr ⟨rfl,longest q rest (by omega)⟩
      · obtain rfl | close := near
        · exact .inl rfl
        · rw [encode_cons,List.length_append,width]
          exact .inr (by omega)
    · have four := c.utf8Size_le_four
      have close : most < (encode []).length + 4 := by
        rw [encode_nil,List.length_nil]
        omega
      refine ⟨[],⟨List.nil_prefix,Nat.zero_le most,fun q first fit => ?_⟩,.inr close⟩
      cases q with
      | nil => exact List.nil_prefix
      | cons d q =>
        obtain ⟨rfl,rest⟩ := List.cons_prefix_cons.mp first
        rw [encode_cons,List.length_append,width] at fit
        omega

theorem longest_self {most : Nat} (short : (encode s).length ≤ most) : Longest most s s :=
  ⟨List.prefix_rfl,short,fun _ first _ => first⟩

theorem Longest.unique {most : Nat} {p q : List Char} (left : Longest most s p) (right : Longest most s q) : p = q :=
  (right.longest p left.first left.short).eq_of_length_le (left.longest q right.first right.short).length_le

/-- A part of the bytes from their beginning is a text exactly if it is a prefix of the text. -/
theorem decode?_take {n : Nat} (inside : n ≤ (encode s).length) {p : List Char} :
    decode? ((encode s).take n) = some p ↔ p <+: s ∧ (encode p).length = n := by
  rw [decode?_eq_some]
  constructor
  · intro same
    refine ⟨prefix_encode_iff.mp (same ▸ List.take_prefix n _),?_⟩
    rw [← same,List.length_take,Nat.min_eq_left inside]
  · rintro ⟨first,rfl⟩
    exact (List.prefix_iff_eq_take.mp (prefix_encode_iff.mpr first)).symm

/-! ASCII. A byte below 128 is a character of its own, and of no other character a part. -/

def Ascii (c : Char) : Prop := c.toNat < 128

instance : DecidablePred Ascii := fun c => inferInstanceAs (Decidable (c.toNat < 128))

/-- The byte as a character, `u8 as char`. -/
def asChar (b : UInt8) : Char := Char.ofNat b.toNat

@[simp] theorem toNat_asChar (b : UInt8) : (asChar b).toNat = b.toNat := by
  have valid : b.toNat.isValidChar := .inl (Nat.lt_trans b.toNat_lt (by decide))
  rw [asChar,Char.ofNat,dif_pos valid]
  rfl

theorem ascii_asChar : Ascii (asChar b) ↔ b.toNat < 128 := by
  rw [Ascii,toNat_asChar]

theorem encodeChar_ascii (ascii : Ascii c) : String.utf8EncodeChar c = [UInt8.ofNat c.toNat] := by
  have small : c.val.toNat ≤ 127 := Nat.le_of_lt_succ ascii
  exact if_pos small

theorem encodeChar_other (other : ¬Ascii c) : (∀ b ∈ String.utf8EncodeChar c, 128 ≤ b.toNat) ∧
    2 ≤ (String.utf8EncodeChar c).length := by
  have large : ¬c.val.toNat ≤ 127 := fun small => other (Nat.lt_succ_of_le small)
  have high (n m : Nat) (least : 128 ≤ m) (most : n + m < 256) : 128 ≤ (UInt8.ofNat (n + m)).toNat := by
    rw [UInt8.toNat_ofNat',Nat.mod_eq_of_lt most]
    omega
  unfold String.utf8EncodeChar
  simp only [large,if_false]
  split
  · refine ⟨?_,by simp⟩
    simp only [List.forall_mem_cons]
    exact ⟨high _ _ (by omega) (by omega),high _ _ (by omega) (by omega),by simp⟩
  · split
    · refine ⟨?_,by simp⟩
      simp only [List.forall_mem_cons]
      exact ⟨high _ _ (by omega) (by omega),high _ _ (by omega) (by omega),high _ _ (by omega) (by omega),by simp⟩
    · refine ⟨?_,by simp⟩
      simp only [List.forall_mem_cons]
      exact ⟨high _ _ (by omega) (by omega),high _ _ (by omega) (by omega),high _ _ (by omega) (by omega),
        high _ _ (by omega) (by omega),by simp⟩

theorem map_asChar_cons (ascii : Ascii c) : (encode (c :: s)).map asChar = c :: (encode s).map asChar := by
  have small : c.toNat < 128 := ascii
  have same : asChar (UInt8.ofNat c.toNat) = c := by
    apply Char.toNat_inj.mp
    rw [toNat_asChar,UInt8.toNat_ofNat',Nat.mod_eq_of_lt (by omega)]
  rw [encode_cons,encodeChar_ascii ascii,List.map_append,List.map_singleton,same]
  rfl

theorem map_asChar_encode (ascii : ∀ c ∈ s, Ascii c) : (encode s).map asChar = s := by
  induction s with
  | nil => rfl
  | cons c s ih =>
    rw [map_asChar_cons (ascii c List.mem_cons_self),ih fun d listed => ascii d (List.mem_cons_of_mem c listed)]

/-- Every other character takes two bytes or more that are not ASCII. -/
theorem countP_encode (s : List Char) :
    2 * s.countP (fun c => ¬Ascii c) ≤ (encode s).countP fun b => 128 ≤ b.toNat := by
  induction s with
  | nil => simp
  | cons c s ih =>
    rw [encode_cons,List.countP_append]
    by_cases ascii : Ascii c
    · rw [List.countP_cons_of_neg (by simpa using ascii)]
      omega
    · obtain ⟨high,two⟩ := encodeChar_other ascii
      have all : (String.utf8EncodeChar c).countP (fun b => 128 ≤ b.toNat) = (String.utf8EncodeChar c).length :=
        List.countP_eq_length.mpr (by simpa using high)
      rw [List.countP_cons_of_pos (by simpa using ascii),all]
      omega

theorem ascii_of_encode (low : ∀ b ∈ encode s, b.toNat < 128) : ∀ c ∈ s, Ascii c := by
  have none : (encode s).countP (fun b => 128 ≤ b.toNat) = 0 := List.countP_eq_zero.mpr (by simpa using low)
  have bound := countP_encode s
  have zero : s.countP (fun c => ¬Ascii c) = 0 := by omega
  simpa using List.countP_eq_zero.mp zero

variable {p : List Char}

theorem prefix_of_bytes (ascii : ∀ c ∈ p, Ascii c) (first : p <+: (encode s).map asChar) : p <+: s := by
  induction p generalizing s with
  | nil => exact List.nil_prefix
  | cons d p ih =>
    have small : Ascii d := ascii d List.mem_cons_self
    cases s with
    | nil => exact absurd (List.prefix_nil.mp first) (List.cons_ne_nil d p)
    | cons c s =>
      by_cases plain : Ascii c
      · rw [map_asChar_cons plain] at first
        obtain ⟨rfl,rest⟩ := List.cons_prefix_cons.mp first
        exact List.cons_prefix_cons.mpr ⟨rfl,ih (fun e listed => ascii e (List.mem_cons_of_mem d listed)) rest⟩
      · obtain ⟨high,two⟩ := encodeChar_other plain
        rw [encode_cons] at first
        cases bytes : String.utf8EncodeChar c with
        | nil => simp [bytes] at two
        | cons b rest =>
          rw [bytes] at first
          obtain ⟨rfl,-⟩ := List.cons_prefix_cons.mp first
          have low := ascii_asChar.mp small
          have least := high b (by simp [bytes])
          omega

/-- ASCII text among the bytes is in the text itself. -/
theorem infix_of_bytes (ascii : ∀ c ∈ p, Ascii c) (part : p <:+: (encode s).map asChar) : p <:+: s := by
  induction s with
  | nil => exact part
  | cons c s ih =>
    by_cases plain : Ascii c
    · rw [map_asChar_cons plain] at part
      obtain first | later := List.infix_cons_iff.mp part
      · rw [← map_asChar_cons plain] at first
        exact (prefix_of_bytes ascii first).isInfix
      · exact List.infix_cons_iff.mpr (.inr (ih later))
    · have high := (encodeChar_other plain).1
      rw [encode_cons] at part
      refine List.infix_cons_iff.mpr (.inr (ih ?_))
      generalize String.utf8EncodeChar c = bytes at high part
      -- no byte of the character can begin the part
      induction bytes with
      | nil => exact part
      | cons b bytes skip =>
        obtain first | later := List.infix_cons_iff.mp part
        · cases p with
          | nil => exact List.nil_infix
          | cons d p =>
            obtain ⟨rfl,-⟩ := List.cons_prefix_cons.mp first
            have low := ascii_asChar.mp (ascii _ List.mem_cons_self)
            have least := high b List.mem_cons_self
            omega
        · exact skip (fun e listed => high e (List.mem_cons_of_mem b listed)) later

end

end Vnidrop.Utf8
