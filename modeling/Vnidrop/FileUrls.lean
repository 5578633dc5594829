import Vnidrop.ImportedCollections
import Vnidrop.Utf8

/-! `percent_decode_file_url_path` against the grammar of a percent-encoded path. -/
namespace Vnidrop.FileUrls

open Imports Paths

/-- The bytes `encoded` are an encoding of `decoded`: an escape stands for any byte, and every
other byte but `%` for itself. With `signs`, an escape may have a plus sign for its first digit. -/
inductive Encodes (signs : Prop) : List UInt8 → List UInt8 → Prop
  | nil : Encodes signs [] []
  | plain {b : UInt8} {decoded encoded : List UInt8} (other : b ≠ 37) (rest : Encodes signs decoded encoded) :
      Encodes signs (b :: decoded) (b :: encoded)
  | escape {high low : UInt8} {h l : Nat} {decoded encoded : List UInt8} (first : hexDigit high = some h)
      (second : hexDigit low = some l) (rest : Encodes signs decoded encoded) :
      Encodes signs (UInt8.ofNat (16 * h + l) :: decoded) (37 :: high :: low :: encoded)
  | signed {low : UInt8} {l : Nat} {decoded encoded : List UInt8} (allowed : signs)
      (second : hexDigit low = some l) (rest : Encodes signs decoded encoded) :
      Encodes signs (UInt8.ofNat l :: decoded) (37 :: 43 :: low :: encoded)

/-- Each `%` is followed by two hexadecimal digits. -/
def Escaped (encoded : List UInt8) : Prop :=
  ∀ i : Nat, encoded[i]? = some 37 → ∃ high low, encoded[i + 1]? = some high ∧ encoded[i + 2]? = some low ∧
    hexDigit high ≠ none ∧ hexDigit low ≠ none

/-- Some `%` is followed by a plus sign and a hexadecimal digit. -/
def HasSign (encoded : List UInt8) : Prop :=
  ∃ i : Nat, encoded[i]? = some 37 ∧ encoded[i + 1]? = some 43 ∧ ∃ low, encoded[i + 2]? = some low ∧ hexDigit low ≠ none

def IsText (bytes : List UInt8) : Prop := ∃ s, bytes = Utf8.encode s

/-- The claim for one string: it is decoded exactly when it is in the grammar, and to every path
that it is an encoding of. -/
structure Exact (value : Str) : Prop where
  accepts : (∃ path, percentDecodeFileUrlPath value = .ok path) ↔
    Escaped (Utf8.encode value) ∧ ∀ decoded, Encodes False decoded (Utf8.encode value) → IsText decoded
  decodes : ∀ path, Encodes False (Utf8.encode path) (Utf8.encode value) →
    percentDecodeFileUrlPath value = .ok path

/-- A sign takes the place of a digit, and nothing else is wrong. -/
def Signed (encoded : List UInt8) : Prop :=
  HasSign encoded ∧ ∃ decoded, Encodes True decoded encoded ∧ IsText decoded

section

variable {signs : Prop} {decoded decoded' encoded : List UInt8} {value path : Str} {b high low : UInt8} {h l : Nat}

theorem Encodes.mono (any : Encodes False decoded encoded) : Encodes signs decoded encoded := by
  induction any with
  | nil => exact .nil
  | plain other _ ih => exact .plain other ih
  | escape first second _ ih => exact .escape first second ih
  | signed allowed => exact allowed.elim

theorem hexByte_some : hexByte high low = some b ↔ ∃ l, hexDigit low = some l ∧
    ((high = 43 ∧ b = UInt8.ofNat l) ∨ ∃ h, hexDigit high = some h ∧ b = UInt8.ofNat (16 * h + l)) := by
  have sign : hexDigit 43 = none := by decide
  unfold hexByte
  cases second : hexDigit low with
  | none => simp
  | some l =>
    by_cases plus : high = 43
    · subst plus
      simp [sign,eq_comm]
    · cases first : hexDigit high with
      | none => simp [plus]
      | some h => simp [plus,eq_comm]

theorem decode_plain (other : b ≠ 37) (rest : List UInt8) :
    percentDecodeBytes (b :: rest) = (percentDecodeBytes rest).map (b :: ·) := by
  rw [percentDecodeBytes,if_neg other]
  · cases percentDecodeBytes rest <;> rfl
  · exact fun _ _ _ is => absurd is other

theorem decode_escape (rest : List UInt8) : percentDecodeBytes (37 :: high :: low :: rest) =
    (hexByte high low).bind fun b => (percentDecodeBytes rest).map (b :: ·) := by
  rw [percentDecodeBytes]
  cases hexByte high low with
  | none => rfl
  | some b => cases percentDecodeBytes rest <;> rfl

/-- What the loop reads is an encoding in which signs are allowed. -/
theorem decode_iff : percentDecodeBytes encoded = some decoded ↔ Encodes True decoded encoded := by
  constructor
  · intro read
    fun_induction percentDecodeBytes encoded generalizing decoded with
    | case1 high low rest ih =>
      simp only [Option.bind_eq_bind,Option.bind_eq_some_iff,Option.pure_def,Option.some.injEq] at read
      obtain ⟨b,byte,tail,rest,rfl⟩ := read
      obtain ⟨l,second,⟨rfl,rfl⟩ | ⟨h,first,rfl⟩⟩ := hexByte_some.mp byte
      · exact .signed trivial second (ih rest)
      · exact .escape first second (ih rest)
    | case2 => cases read
    | case3 b rest _ other ih =>
      simp only [Option.bind_eq_bind,Option.bind_eq_some_iff,Option.pure_def,Option.some.injEq] at read
      obtain ⟨tail,rest,rfl⟩ := read
      exact .plain other (ih rest)
    | case4 =>
      cases read
      exact .nil
  · intro encodes
    induction encodes with
    | nil => rfl
    | plain other _ ih => rw [decode_plain other,ih]; rfl
    | escape first second _ ih =>
      rw [decode_escape,ih,hexByte_some.mpr ⟨_,second,.inr ⟨_,first,rfl⟩⟩]
      rfl
    | signed _ second _ ih =>
      rw [decode_escape,ih,hexByte_some.mpr ⟨_,second,.inl ⟨rfl,rfl⟩⟩]
      rfl

theorem decodeFileUrl_ok : percentDecodeFileUrlPath value = .ok path ↔
    Encodes True (Utf8.encode path) (Utf8.encode value) := by
  unfold percentDecodeFileUrlPath
  rw [Utf8.encode_ofList,← decode_iff]
  cases percentDecodeBytes (Utf8.encode value) with
  | none => simp
  | some bytes =>
    rw [Option.some.injEq,← Utf8.decode?_eq_some,Utf8.decode?]
    dsimp only
    cases String.fromUTF8? ⟨bytes.toArray⟩ with
    | none => simp
    | some s => simp

/-! The grammar, byte by byte. -/

theorem escaped_cons (other : b ≠ 37) : Escaped (b :: encoded) ↔ Escaped encoded := by
  refine ⟨fun all i percent => all (i + 1) percent,fun all i percent => ?_⟩
  cases i with
  | zero => exact absurd (Option.some.inj percent) other
  | succ i => exact all i percent

theorem escaped_escape : Escaped (37 :: high :: low :: encoded) ↔
    hexDigit high ≠ none ∧ hexDigit low ≠ none ∧ Escaped encoded := by
  have percent : hexDigit 37 = none := by decide
  constructor
  · intro all
    obtain ⟨high',low',here,there,first,second⟩ := all 0 rfl
    cases here
    cases there
    exact ⟨first,second,fun i percent => all (i + 3) percent⟩
  · rintro ⟨first,second,all⟩ i here
    match i with
    | 0 => exact ⟨high,low,rfl,rfl,first,second⟩
    | 1 => exact absurd percent (Option.some.inj here ▸ first)
    | 2 => exact absurd percent (Option.some.inj here ▸ second)
    | i + 3 => exact all i here

theorem escaped_iff : Escaped encoded ↔ ∃ decoded, Encodes False decoded encoded := by
  constructor
  · intro all
    induction encoded using percentDecodeBytes.induct with
    | case1 high low rest ih =>
      obtain ⟨first,second,tail⟩ := escaped_escape.mp all
      obtain ⟨h,first⟩ := Option.ne_none_iff_exists'.mp first
      obtain ⟨l,second⟩ := Option.ne_none_iff_exists'.mp second
      obtain ⟨decoded,rest⟩ := ih tail
      exact ⟨_,.escape first second rest⟩
    | case2 rest short =>
      obtain ⟨high,low,here,there,_⟩ := all 0 rfl
      match rest,here,there with
      | high :: low :: rest,_,_ => exact absurd rfl (short high low rest rfl)
    | case3 b rest _ other ih =>
      obtain ⟨decoded,rest⟩ := ih ((escaped_cons other).mp all)
      exact ⟨_,.plain other rest⟩
    | case4 => exact ⟨[],.nil⟩
  · rintro ⟨decoded,encodes⟩
    induction encodes with
    | nil => exact fun i percent => nomatch percent
    | plain other _ ih => exact (escaped_cons other).mpr ih
    | escape first second _ ih =>
      exact escaped_escape.mpr ⟨Option.ne_none_iff_exists'.mpr ⟨_,first⟩,Option.ne_none_iff_exists'.mpr ⟨_,second⟩,ih⟩
    | signed allowed => exact allowed.elim

/-- In the grammar, no sign takes the place of a digit. -/
theorem Escaped.no_sign (escaped : Escaped encoded) : ¬HasSign encoded := by
  rintro ⟨i,percent,plus,_⟩
  obtain ⟨high,_,here,_,digit,_⟩ := escaped i percent
  cases plus.symm.trans here
  exact digit (by decide)

/-- Without signs, the tolerant reading is the strict one. -/
theorem Encodes.strict (encodes : Encodes True decoded encoded) (none : ¬HasSign encoded) :
    Encodes False decoded encoded := by
  have later {encoded : List UInt8} (front : List UInt8) (sign : HasSign encoded) : HasSign (front ++ encoded) := by
    obtain ⟨i,percent,plus,low,here,digit⟩ := sign
    have shift (k : Nat) : (front ++ encoded)[front.length + i + k]? = encoded[i + k]? := by
      rw [List.getElem?_append_right (by omega)]
      congr 1
      omega
    exact ⟨front.length + i,(shift 0).trans percent,(shift 1).trans plus,low,(shift 2).trans here,digit⟩
  induction encodes with
  | nil => exact .nil
  | plain other _ ih => exact .plain other (ih fun sign => none (later [_] sign))
  | escape first second _ ih => exact .escape first second (ih fun sign => none (later [_,_,_] sign))
  | @signed low l _ _ _ second _ _ =>
    exact absurd ⟨0,rfl,rfl,low,rfl,Option.ne_none_iff_exists'.mpr ⟨l,second⟩⟩ none

theorem Encodes.unique (one : Encodes False decoded encoded) (other : Encodes True decoded' encoded) :
    decoded' = decoded :=
  Option.some.inj ((decode_iff.mpr other).symm.trans (decode_iff.mpr one.mono))

end

/-- A file URL is decoded as the grammar says, except where a sign takes the place of a digit and
nothing else is wrong. -/
theorem exact_iff (value : Str) : Exact value ↔ ¬Signed (Utf8.encode value) := by
  by_cases sign : HasSign (Utf8.encode value)
  · have none : ¬Escaped (Utf8.encode value) := fun escaped => escaped.no_sign sign
    constructor
    · rintro ⟨accepts,_⟩ ⟨_,_,read,path,rfl⟩
      exact none (accepts.mp ⟨path,decodeFileUrl_ok.mpr read⟩).1
    · intro unsigned
      refine ⟨iff_of_false ?_ fun both => none both.1,fun path encodes => absurd (escaped_iff.mpr ⟨_,encodes⟩) none⟩
      rintro ⟨path,decoded⟩
      exact unsigned ⟨sign,_,decodeFileUrl_ok.mp decoded,path,rfl⟩
  · refine iff_of_true ⟨⟨?_,?_⟩,fun path encodes => decodeFileUrl_ok.mpr encodes.mono⟩ fun signed => sign signed.1
    · rintro ⟨path,decoded⟩
      have read := decodeFileUrl_ok.mp decoded
      exact ⟨escaped_iff.mpr ⟨_,read.strict sign⟩,fun decoded encodes => ⟨path,(encodes.unique read).symm⟩⟩
    · rintro ⟨escaped,text⟩
      obtain ⟨decoded,encodes⟩ := escaped_iff.mp escaped
      obtain ⟨path,rfl⟩ := text decoded encodes
      exact ⟨path,decodeFileUrl_ok.mpr encodes.mono⟩

/-- "%+f" is decoded, as 15. -/
theorem sign_accepted : percentDecodeFileUrlPath ['%','+','f'] = .ok [Char.ofNat 15] ∧ ¬Exact ['%','+','f'] := by
  have decoded : percentDecodeFileUrlPath ['%','+','f'] = .ok [Char.ofNat 15] :=
    decodeFileUrl_ok.mpr (.signed trivial (show hexDigit 102 = some 15 by decide) .nil)
  refine ⟨decoded,fun exact_ => ?_⟩
  obtain ⟨high,_,plus,_,digit,_⟩ := (exact_.accepts.mp ⟨_,decoded⟩).1 0 rfl
  cases plus
  exact digit (by decide)

end Vnidrop.FileUrls
