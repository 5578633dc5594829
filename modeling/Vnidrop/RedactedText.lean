import Vnidrop.ListParts
import Vnidrop.Utf8
import Vnidrop.ImportedCollections
import Mathlib

/-! Redaction of free text, for errors and logs: tickets and long hexadecimal runs are
replaced. The first pass reads characters, the second reads bytes. -/
namespace Vnidrop.RedactedText

open Imports (isWhitespace)
open ListParts Utf8
open Paths (Str)

abbrev REDACTED : Str := "[redacted]".toList

abbrev scheme : Str := "vnd1:".toList

def isDelimiter (c : Char) : Bool := isWhitespace c || c == '"' || c == '\''

/-- `rest.find("vnd1:")`: what is before it and what is after it. -/
def findScheme : Str → Option (Str × Str)
  | [] => none
  | c :: s =>
    if scheme.isPrefixOf (c :: s) then some ([],(c :: s).drop 5)
    else (findScheme s).map fun found => (c :: found.1,found.2)

theorem findScheme_some {s before after : Str} (found : findScheme s = some (before,after)) :
    s = before ++ scheme ++ after ∧ ¬scheme <:+: before ++ scheme.dropLast := by
  induction s generalizing before with
  | nil => cases found
  | cons c s ih =>
    rw [findScheme] at found
    split at found
    · rename_i first
      obtain ⟨rfl,rfl⟩ := Prod.mk.inj (Option.some.inj found)
      obtain ⟨rest,same⟩ := List.isPrefixOf_iff_prefix.mp first
      rw [← same]
      exact ⟨rfl,by decide⟩
    · rename_i first
      obtain ⟨⟨before',after'⟩,later,same⟩ := Option.map_eq_some_iff.mp found
      obtain ⟨rfl,rfl⟩ := Prod.mk.inj same
      obtain ⟨rfl,clear⟩ := ih later
      refine ⟨rfl,fun part => ?_⟩
      obtain here | there := List.infix_cons_iff.mp part
      · refine first (List.isPrefixOf_iff_prefix.mpr (here.trans ?_))
        exact ⟨':' :: after',by simp [scheme]⟩
      · exact clear there

theorem findScheme_none {s : Str} : findScheme s = none ↔ ¬scheme <:+: s := by
  induction s with
  | nil => exact iff_of_true rfl (by decide)
  | cons c s ih =>
    rw [findScheme,List.infix_cons_iff,← List.isPrefixOf_iff_prefix]
    split <;> simp_all

def redactTickets (rest : Str) : Str :=
  match _found : findScheme rest with
  | none => rest
  | some (before,after) => before ++ REDACTED ++ redactTickets (after.dropWhile (!isDelimiter ·))
termination_by rest.length
decreasing_by
  have shorter := (List.dropWhile_sublist (l := after) (!isDelimiter ·)).length_le
  have whole := congrArg List.length (findScheme_some _found).1
  simp only [List.length_append] at whole
  have five : scheme.length = 5 := by decide
  omega

/-- `u8::is_ascii_hexdigit`. -/
def isHexDigit (b : UInt8) : Bool :=
  (48 ≤ b.toNat && b.toNat ≤ 57) || (65 ≤ b.toNat && b.toNat ≤ 70) || (97 ≤ b.toNat && b.toNat ≤ 102)

/-- A run of digits is kept or replaced; any other byte is pushed as a character. -/
def collapseLongHex : List UInt8 → Str
  | [] => []
  | b :: bytes =>
    if isHexDigit b then
      let run := b :: bytes.takeWhile isHexDigit
      (if 32 ≤ run.length then REDACTED else run.map asChar) ++ collapseLongHex (bytes.dropWhile isHexDigit)
    else asChar b :: collapseLongHex bytes
termination_by bytes => bytes.length
decreasing_by
  · have shorter := (List.dropWhile_sublist (l := bytes) isHexDigit).length_le
    simp only [List.length_cons]
    omega
  · simp

def redactText (input : Str) : Str := collapseLongHex (encode (redactTickets input))

theorem scheme_plain : ∀ c ∈ scheme, Ascii c ∧ isDelimiter c = false := by
  simp [scheme,Ascii,isDelimiter,isWhitespace]

theorem redacted_ascii : ∀ c ∈ REDACTED, Ascii c := by
  simp [REDACTED,Ascii]

/-- The scheme, and what follows it up to white space or a quote. -/
def Ticket (part : Str) : Prop := ∃ token, part = scheme ++ token ∧ ∀ c ∈ token, isDelimiter c = false

def isHex (c : Char) : Prop :=
  (48 ≤ c.toNat ∧ c.toNat ≤ 57) ∨ (65 ≤ c.toNat ∧ c.toNat ≤ 70) ∨ (97 ≤ c.toNat ∧ c.toNat ≤ 102)

def LongHex (part : Str) : Prop := 32 ≤ part.length ∧ ∀ c ∈ part, isHex c

/-- What redaction is to do. -/
structure Exact (s : Str) : Prop where
  noTicket : ¬scheme <:+: redactText s
  noHex : ∀ part, LongHex part → ¬part <:+: redactText s
  kept : List.Sublist (select (fun i => ¬Within Ticket s i ∧ ¬Within LongHex s i) s) (redactText s)
  once : redactText (redactText s) = redactText s

section

variable {s p before token rest : Str} {bytes run : List UInt8} {b : UInt8} {c : Char}

/-- A text with a ticket, at the first of them: what is before, the ticket, and the rest. -/
theorem redactTickets_cut (found : scheme <:+: s) : ∃ before token rest, s = before ++ (scheme ++ token) ++ rest ∧
    ¬scheme <:+: before ++ scheme.dropLast ∧ (∀ c ∈ token, isDelimiter c = false) ∧
    (∀ c r, rest = c :: r → isDelimiter c) ∧ rest.length < s.length ∧
    redactTickets s = before ++ REDACTED ++ redactTickets rest := by
  rw [redactTickets]
  split
  · rename_i none
    exact absurd found (findScheme_none.mp none)
  · rename_i before after cut
    obtain ⟨rfl,clear⟩ := findScheme_some cut
    refine ⟨before,after.takeWhile (!isDelimiter ·),after.dropWhile (!isDelimiter ·),?_,clear,?_,?_,?_,rfl⟩
    · rw [List.append_assoc,List.append_assoc,List.append_assoc,List.takeWhile_append_dropWhile]
    · exact fun c listed => by simpa using List.mem_takeWhile_imp listed
    · intro c r starts
      have first := List.head?_dropWhile_not (!isDelimiter ·) after
      rw [starts] at first
      simpa using first
    · have shorter := (List.dropWhile_sublist (l := after) (!isDelimiter ·)).length_le
      have five : scheme.length = 5 := by decide
      simp only [List.length_append,five]
      omega

theorem redactTickets_plain (plain : ¬scheme <:+: s) : redactTickets s = s := by
  rw [redactTickets]
  split
  · rfl
  · rename_i cut
    rw [findScheme_none.mpr plain] at cut
    cases cut

/-- Text is plain, or has a first ticket and a rest of which the same is known. -/
theorem tickets_induction {motive : Str → Prop} (s : Str) (plain : ∀ s, ¬scheme <:+: s → motive s)
    (ticket : ∀ before token rest, ¬scheme <:+: before ++ scheme.dropLast → (∀ c ∈ token, isDelimiter c = false) →
      (∀ c r, rest = c :: r → isDelimiter c) → motive rest →
      redactTickets (before ++ (scheme ++ token) ++ rest) = before ++ REDACTED ++ redactTickets rest →
      motive (before ++ (scheme ++ token) ++ rest)) : motive s := by
  by_cases found : scheme <:+: s
  · obtain ⟨before,token,rest,same,clear,inside,starts,shorter,redacted⟩ := redactTickets_cut found
    rw [same] at redacted ⊢
    exact ticket before token rest clear inside starts (tickets_induction rest plain ticket) redacted
  · exact plain s found
termination_by s.length
decreasing_by exact shorter

theorem redactTickets_noTicket (s : Str) : ¬scheme <:+: redactTickets s := by
  induction s using tickets_induction with
  | plain s plain =>
    rw [redactTickets_plain plain]
    exact plain
  | ticket before token rest clear inside starts ih redacted =>
    rw [redacted]
    intro part
    have split : before ++ REDACTED ++ redactTickets rest =
        before ++ '[' :: ("redacted".toList ++ ']' :: redactTickets rest) := by
      simp [REDACTED]
    rw [split] at part
    obtain first | later := infix_sep (by decide) part
    · exact clear (first.trans (List.prefix_append _ _).isInfix)
    · obtain middle | last := infix_sep (by decide) later
      · exact absurd middle (by decide)
      · exact ih last

/-! The second pass. -/

theorem isHex_asChar : isHex (asChar b) ↔ isHexDigit b := by
  simp [isHex,isHexDigit]
  tauto

@[simp] theorem collapse_nil : collapseLongHex [] = [] := by
  rw [collapseLongHex]

theorem collapse_other (other : ¬isHexDigit b) : collapseLongHex (b :: bytes) = asChar b :: collapseLongHex bytes := by
  rw [collapseLongHex,if_neg other]

/-- The bytes do not begin with a digit. -/
def Apart (bytes : List UInt8) : Prop := ∀ b rest, bytes = b :: rest → ¬isHexDigit b

theorem apart_dropWhile (bytes : List UInt8) : Apart (bytes.dropWhile isHexDigit) := by
  intro b rest starts
  have first := List.head?_dropWhile_not isHexDigit bytes
  rw [starts] at first
  simpa using first

theorem collapse_run {more : List UInt8} (some : run ≠ []) (digits : ∀ b ∈ run, isHexDigit b) (apart : Apart more) :
    collapseLongHex (run ++ more) = (if 32 ≤ run.length then REDACTED else run.map asChar) ++ collapseLongHex more := by
  cases run with
  | nil => exact absurd rfl some
  | cons b run =>
    have later : ∀ d ∈ run, isHexDigit d := fun d listed => digits d (List.mem_cons_of_mem b listed)
    have none : more.takeWhile isHexDigit = [] ∧ more.dropWhile isHexDigit = more := by
      cases more with
      | nil => exact ⟨rfl,rfl⟩
      | cons d more =>
        have stop := apart d more rfl
        exact ⟨List.takeWhile_cons_of_neg stop,List.dropWhile_cons_of_neg stop⟩
    rw [List.cons_append,collapseLongHex,if_pos (digits b List.mem_cons_self),List.takeWhile_append_of_pos later,
      List.dropWhile_append_of_pos later,none.1,none.2,List.append_nil]

/-- Bytes are none, one that is no digit and others, or a whole run of digits and others. -/
theorem runs_induction {motive : List UInt8 → Prop} (bytes : List UInt8) (nil : motive [])
    (other : ∀ b bytes, ¬isHexDigit b → motive bytes → motive (b :: bytes))
    (run : ∀ run bytes, run ≠ [] → (∀ b ∈ run, isHexDigit b) → Apart bytes → motive bytes → motive (run ++ bytes)) :
    motive bytes := by
  fun_induction collapseLongHex bytes with
  | case1 => exact nil
  | case2 b bytes digit _ ih =>
    have whole := run (b :: bytes.takeWhile isHexDigit) (bytes.dropWhile isHexDigit) (List.cons_ne_nil _ _)
      (List.forall_mem_cons.mpr ⟨digit,fun d listed => List.mem_takeWhile_imp listed⟩) (apart_dropWhile bytes) ih
    rwa [List.cons_append,List.takeWhile_append_dropWhile] at whole
  | case3 b bytes stop ih => exact other b bytes stop ih

theorem collapse_sep {more : List UInt8} (stop : ¬isHexDigit b) :
    collapseLongHex (bytes ++ b :: more) = collapseLongHex bytes ++ asChar b :: collapseLongHex more := by
  induction bytes using runs_induction with
  | nil => simpa using collapse_other stop
  | other d bytes other ih => rw [List.cons_append,collapse_other other,collapse_other other,ih,List.cons_append]
  | run run bytes some digits apart ih =>
    have still : Apart (bytes ++ b :: more) := by
      intro d rest starts
      cases bytes with
      | nil =>
        obtain ⟨rfl,-⟩ := List.cons.inj starts
        exact stop
      | cons e bytes =>
        obtain ⟨rfl,-⟩ := List.cons.inj starts
        exact apart e bytes rfl
    rw [List.append_assoc,collapse_run some digits still,collapse_run some digits apart,ih,List.append_assoc]

theorem collapse_noHex (bytes : List UInt8) {part : Str} (long : LongHex part) : ¬part <:+: collapseLongHex bytes := by
  have apartFrom {d : UInt8} (stop : ¬isHexDigit d) : asChar d ∉ part := fun listed =>
    stop (isHex_asChar.mp (long.2 _ listed))
  have few {s : Str} (short : s.length < 32) : ¬part <:+: s := fun inside => by
    have := inside.length_le
    have := long.1
    omega
  induction bytes using runs_induction with
  | nil =>
    rw [collapse_nil]
    exact few (by decide)
  | other d bytes stop ih =>
    rw [collapse_other stop]
    intro inside
    obtain none | later := infix_sep (a := []) (apartFrom stop) inside
    · exact few (by decide) none
    · exact ih later
  | run run bytes some digits apart ih =>
    have first : ¬part <:+: if 32 ≤ run.length then REDACTED else run.map asChar := by
      split
      · exact few (by decide)
      · rename_i short
        exact few (by simpa using Nat.lt_of_not_le short)
    rw [collapse_run some digits apart]
    intro inside
    cases bytes with
    | nil => exact first (by simpa using inside)
    | cons d bytes =>
      have stop := apart d bytes rfl
      rw [collapse_other stop] at inside ih
      obtain here | later := infix_sep (apartFrom stop) inside
      · exact first here
      · exact ih (List.infix_cons_iff.mpr (.inr later))

theorem prefix_of_collapse (plain : '[' ∉ p) (first : p <+: collapseLongHex bytes) : p <+: bytes.map asChar := by
  induction bytes using runs_induction generalizing p with
  | nil => simpa using first
  | other d bytes stop ih =>
    rw [collapse_other stop] at first
    cases p with
    | nil => exact List.nil_prefix
    | cons c p =>
      obtain ⟨rfl,rest⟩ := List.cons_prefix_cons.mp first
      exact List.cons_prefix_cons.mpr ⟨rfl,ih (fun listed => plain (List.mem_cons_of_mem _ listed)) rest⟩
  | run run bytes some digits apart ih =>
    rw [collapse_run some digits apart] at first
    rw [List.map_append]
    split at first
    · cases p with
      | nil => exact List.nil_prefix
      | cons c p =>
        obtain ⟨rfl,-⟩ := List.cons_prefix_cons.mp first
        exact absurd List.mem_cons_self plain
    · obtain inside | ⟨y,rfl,rest⟩ := prefix_append_cases first
      · exact inside.trans (List.prefix_append _ _)
      · exact (List.prefix_append_right_inj _).mpr (ih (fun listed => plain (List.mem_append_right _ listed)) rest)

/-- What stands in the output without brackets stood in the input, or is of the replacement. -/
theorem infix_of_collapse (plain : '[' ∉ p ∧ ']' ∉ p) (part : p <:+: collapseLongHex bytes) :
    p <:+: bytes.map asChar ∨ p <:+: REDACTED := by
  induction bytes using runs_induction with
  | nil => exact .inl (by simpa using part)
  | other d bytes stop ih =>
    rw [collapse_other stop] at part
    obtain first | later := List.infix_cons_iff.mp part
    · rw [← collapse_other stop] at first
      exact .inl (prefix_of_collapse plain.1 first).isInfix
    · exact (ih later).imp_left fun inside => List.infix_cons_iff.mpr (.inr inside)
  | run run bytes some digits apart ih =>
    rw [collapse_run some digits apart] at part
    rw [List.map_append]
    obtain left | right | ⟨x,y,rfl,full,ends,begins⟩ := infix_append_cases part
    · split at left
      · exact .inr left
      · exact .inl (left.trans (List.prefix_append _ _).isInfix)
    · exact (ih right).imp_left fun inside => inside.trans (List.suffix_append _ _).isInfix
    · split at ends
      · -- an end of the replacement has its closing bracket
        have closed : ']' ∈ x := by
          have last : x <:+ "[redacted".toList ++ [']'] := ends
          obtain empty | ⟨t,rfl,-⟩ := List.suffix_concat_iff.mp last
          · exact absurd empty full
          · simp
        exact absurd (List.mem_append_left y closed) plain.2
      · obtain ⟨u,hu⟩ := ends
        obtain ⟨v,hv⟩ := prefix_of_collapse (fun listed => plain.1 (List.mem_append_right x listed)) begins
        exact .inl ⟨u,v,by rw [← hu,← hv]; simp⟩

theorem collapse_countP (bytes : List UInt8) :
    (collapseLongHex bytes).countP (fun c => ¬Ascii c) = bytes.countP fun b => 128 ≤ b.toNat := by
  induction bytes using runs_induction with
  | nil => simp
  | other d bytes stop ih =>
    rw [collapse_other stop,List.countP_cons,List.countP_cons,ih]
    simp [ascii_asChar]
  | run run bytes some digits apart ih =>
    have low : ∀ b ∈ run, b.toNat < 128 := fun b listed => by
      have digit := digits b listed
      simp [isHexDigit] at digit
      omega
    have none : run.countP (fun b => 128 ≤ b.toNat) = 0 := List.countP_eq_zero.mpr (by simpa using low)
    have head : (if 32 ≤ run.length then REDACTED else run.map asChar).countP (fun c => ¬Ascii c) = 0 := by
      split
      · decide
      · exact List.countP_eq_zero.mpr (by simpa [ascii_asChar] using low)
    rw [collapse_run some digits apart,List.countP_append,List.countP_append,ih,none,head]

theorem collapse_plain (plain : ∀ part, LongHex part → ¬part <:+: bytes.map asChar) :
    collapseLongHex bytes = bytes.map asChar := by
  induction bytes using runs_induction with
  | nil => simp
  | other d bytes stop ih =>
    rw [collapse_other stop,List.map_cons,ih fun part long inside =>
      plain part long (List.infix_cons_iff.mpr (.inr inside))]
  | run run bytes some digits apart ih =>
    have short : ¬32 ≤ run.length := fun long => plain (run.map asChar)
      ⟨by simpa using long,by simpa using fun b listed => isHex_asChar.mpr (digits b listed)⟩
      (List.map_append ▸ (List.prefix_append _ _).isInfix)
    rw [collapse_run some digits apart,if_neg short,List.map_append,ih fun part long inside =>
      plain part long (inside.trans (List.map_append ▸ (List.suffix_append _ _).isInfix))]

theorem collapse_kept (bytes : List UInt8) :
    List.Sublist (select (fun i => ¬Within LongHex (bytes.map asChar) i) (bytes.map asChar)) (collapseLongHex bytes) := by
  -- what is in no long run of the whole is in none of what comes after
  have later (a : Str) (rest : List UInt8) : List.Sublist
      (select (fun i => ¬Within LongHex (a ++ rest.map asChar) (a.length + i)) (rest.map asChar))
      (select (fun i => ¬Within LongHex (rest.map asChar) i) (rest.map asChar)) :=
    select_mono fun i _ out within => out (by simpa using within.extend a [])
  induction bytes using runs_induction with
  | nil => simp [select]
  | other d bytes stop ih =>
    rw [collapse_other stop,List.map_cons,← List.singleton_append,select_append]
    exact (select_sublist _ [asChar d]).append ((later [asChar d] bytes).trans ih)
  | run run bytes some digits apart ih =>
    rw [collapse_run some digits apart,List.map_append,select_append]
    refine List.Sublist.append ?_ ((later _ bytes).trans ih)
    split
    · rename_i long
      rw [select_none fun i inside out => out ⟨[],run.map asChar,bytes.map asChar,rfl,⟨by simpa using long,
        by simpa using fun b listed => isHex_asChar.mpr (digits b listed)⟩,Nat.zero_le _,by simpa using inside⟩]
      exact List.nil_sublist _
    · exact select_sublist _ _

/-! Both passes. -/

theorem redactText_noTicket (s : Str) : ¬scheme <:+: redactText s := by
  intro part
  obtain inside | named := infix_of_collapse (by decide) part
  · exact redactTickets_noTicket s (infix_of_bytes (fun c listed => (scheme_plain c listed).1) inside)
  · exact absurd named (by decide)

/-- Places before the first ticket are in no ticket. -/
theorem not_within_before {i : Nat} (clear : ¬scheme <:+: before ++ scheme.dropLast) (inside : i < before.length) :
    ¬Within Ticket (before ++ (scheme ++ token) ++ rest) i := by
  rintro ⟨x,part,y,same,⟨more,rfl,-⟩,from_,-⟩
  refine clear (.trans ⟨x,[],List.append_nil _⟩ (List.IsPrefix.isInfix ?_))
  refine List.prefix_of_prefix_length_le (show _ <+: before ++ (scheme ++ token) ++ rest from ⟨more ++ y,?_⟩)
    ⟨':' :: token ++ rest,?_⟩ ?_
  · rw [same]
    simp
  · simp [scheme]
  · have five : scheme.length = 5 := by decide
    have four : scheme.dropLast.length = 4 := by decide
    simp only [List.length_append,five,four]
    omega

theorem within_token {i : Nat} (inside : ∀ c ∈ token, isDelimiter c = false) (low : before.length ≤ i)
    (high : i < before.length + (scheme ++ token).length) : Within Ticket (before ++ (scheme ++ token) ++ rest) i :=
  ⟨before,scheme ++ token,rest,rfl,⟨token,rfl,inside⟩,low,high⟩

theorem within_rest {i : Nat} {a : Str} (starts : ∀ c r, rest = c :: r → isDelimiter c)
    (within : Within Ticket (a ++ rest) (a.length + i)) : Within Ticket rest i := by
  cases rest with
  | nil =>
    obtain ⟨x,part,y,same,-,-,to_⟩ := within
    have whole := congrArg List.length same
    simp only [List.length_append,List.length_nil] at whole
    omega
  | cons c rest =>
    refine within.past (c := c) fun part ticket listed => ?_
    obtain ⟨token,rfl,inside⟩ := ticket
    have delimiter := starts c rest rfl
    obtain named | listed := List.mem_append.mp listed
    · simp [(scheme_plain c named).2] at delimiter
    · simp [inside c listed] at delimiter

theorem within_ticket {i : Nat} (within : Within Ticket s i) : scheme <:+: s := by
  obtain ⟨x,part,y,rfl,⟨token,rfl,-⟩,-,-⟩ := within
  exact ⟨x,token ++ y,by simp⟩

/-- What is kept, of what is outside tickets, is before the first ticket or in the rest. -/
theorem select_ticket {P : Nat → Prop} (inside : ∀ c ∈ token, isDelimiter c = false)
    (out : ∀ i, P i → ¬Within Ticket (before ++ (scheme ++ token) ++ rest) i) :
    select P (before ++ (scheme ++ token) ++ rest) =
      select P before ++ select (fun i => P ((before ++ (scheme ++ token)).length + i)) rest := by
  rw [select_append,select_append,select_none (s := scheme ++ token),List.append_nil]
  exact fun i below held => out _ held (within_token inside (Nat.le_add_right _ _) (Nat.add_lt_add_left below _))

/-- The characters outside tickets are kept by the first pass. -/
theorem redactTickets_kept (s : Str) : List.Sublist (select (fun i => ¬Within Ticket s i) s) (redactTickets s) := by
  induction s using tickets_induction with
  | plain s plain =>
    rw [redactTickets_plain plain]
    exact select_sublist _ s
  | ticket before token rest clear inside starts ih redacted =>
    rw [redacted]
    rw [select_ticket inside fun i out => out]
    refine List.Sublist.append ((select_sublist _ before).trans (List.sublist_append_left _ _)) (.trans ?_ ih)
    exact select_mono fun i _ out within => out (by simpa using within.extend (before ++ (scheme ++ token)) [])

/-- Every character outside tickets is ASCII. -/
def Plain (s : Str) : Prop := ∀ i c, s[i]? = some c → ¬Within Ticket s i → Ascii c

theorem ascii_redactTickets : Plain s ↔ ∀ c ∈ redactTickets s, Ascii c := by
  constructor
  · intro plain
    induction s using tickets_induction with
    | plain s none =>
      rw [redactTickets_plain none]
      intro c listed
      obtain ⟨i,inside,rfl⟩ := List.mem_iff_getElem.mp listed
      exact plain i _ (List.getElem?_eq_getElem inside) fun within => none (within_ticket within)
    | ticket before token rest clear inside starts ih redacted =>
      have first : ∀ c ∈ before, Ascii c := by
        intro c listed
        obtain ⟨i,below,rfl⟩ := List.mem_iff_getElem.mp listed
        refine plain i _ ?_ (not_within_before clear below)
        rw [List.append_assoc,List.getElem?_append_left below,List.getElem?_eq_getElem below]
      have later : Plain rest := fun i c found out =>
        plain ((before ++ (scheme ++ token)).length + i) c
          (by rw [List.getElem?_append_right (Nat.le_add_right _ _),Nat.add_sub_cancel_left,found])
          fun within => out (within_rest starts within)
      rw [redacted]
      intro c listed
      obtain listed | listed := List.mem_append.mp listed
      · obtain listed | listed := List.mem_append.mp listed
        · exact first c listed
        · exact redacted_ascii c listed
      · exact ih later c listed
  · intro ascii i c found out
    exact ascii c ((redactTickets_kept s).subset (mem_select.mpr ⟨i,found,out⟩))

theorem redactText_kept (ascii : ∀ c ∈ redactTickets s, Ascii c) :
    List.Sublist (select (fun i => ¬Within Ticket s i ∧ ¬Within LongHex s i) s) (redactText s) := by
  have pass {u : Str} (ascii : ∀ c ∈ u, Ascii c) :
      List.Sublist (select (fun i => ¬Within LongHex u i) u) (collapseLongHex (encode u)) := by
    have kept := collapse_kept (encode u)
    rwa [map_asChar_encode ascii] at kept
  unfold redactText
  induction s using tickets_induction with
  | plain s plain =>
    rw [redactTickets_plain plain] at ascii ⊢
    exact (select_mono fun i _ out => out.2).trans (pass ascii)
  | ticket before token rest clear inside starts ih redacted =>
    have bytes : encode (redactTickets (before ++ (scheme ++ token) ++ rest)) =
        encode before ++ 91 :: (encode "redacted".toList ++ 93 :: encode (redactTickets rest)) := by
      rw [redacted,encode_append,encode_append,List.append_assoc]
      rfl
    rw [bytes,collapse_sep (by decide),collapse_sep (by decide),select_ticket inside fun i out => out.1]
    rw [redacted] at ascii
    refine List.Sublist.append ?_ (.cons _ (.trans ?_ (.trans (.cons _ (ih ?_)) (List.sublist_append_right _ _))))
    · have first := pass fun c listed => ascii c (List.mem_append_left _ (List.mem_append_left _ listed))
      refine .trans (select_mono fun i _ out => ?_) first
      exact fun within => out.2 (by simpa using within.extend [] (scheme ++ token ++ rest))
    · refine select_mono fun i _ out => ⟨fun within => out.1 ?_,fun within => out.2 ?_⟩
      all_goals simpa using within.extend (before ++ (scheme ++ token)) []
    · exact fun c listed => ascii c (List.mem_append_right _ listed)

/-- The second time, only the pass over the bytes is left to do. -/
theorem redactText_again (s : Str) :
    redactText (redactText s) = collapseLongHex (encode (redactText s)) :=
  congrArg (fun t => collapseLongHex (encode t)) (redactTickets_plain (redactText_noTicket s))

/-- Each character beyond ASCII becomes two or more every time. -/
theorem plain_of_once (once : redactText (redactText s) = redactText s) : Plain s := by
  have first := collapse_countP (encode (redactTickets s))
  have second := collapse_countP (encode (redactText s))
  have twice := countP_encode (redactText s)
  rw [← redactText_again,once] at second
  have none : (encode (redactTickets s)).countP (fun b => 128 ≤ b.toNat) = 0 := by
    change (redactText s).countP _ = _ at first
    omega
  exact ascii_redactTickets.mpr (ascii_of_encode (by simpa using List.countP_eq_zero.mp none))

theorem once_of_ascii (ascii : ∀ c ∈ redactTickets s, Ascii c) : redactText (redactText s) = redactText s := by
  have low : ∀ b ∈ encode (redactTickets s), b.toNat < 128 := fun b listed => by
    have char := List.mem_map_of_mem (f := asChar) listed
    rw [map_asChar_encode ascii] at char
    exact ascii_asChar.mp (ascii _ char)
  have still : ∀ c ∈ redactText s, Ascii c := by
    have same := collapse_countP (encode (redactTickets s))
    have none : (encode (redactTickets s)).countP (fun b => 128 ≤ b.toNat) = 0 :=
      List.countP_eq_zero.mpr (by simpa using low)
    simpa [redactText] using List.countP_eq_zero.mp (same.trans none)
  rw [redactText_again,collapse_plain,map_asChar_encode still]
  rw [map_asChar_encode still]
  exact fun part => collapse_noHex _

end

/-- Redaction is exact for the texts that are ASCII outside tickets, and for no other. -/
theorem redaction_exact_iff (s : Str) : Exact s ↔ ∀ i c, s[i]? = some c → ¬Within Ticket s i → Ascii c := by
  constructor
  · exact fun right => plain_of_once right.once
  · intro plain
    have ascii := ascii_redactTickets.mp plain
    exact ⟨redactText_noTicket s,fun part long => collapse_noHex _ long,redactText_kept ascii,once_of_ascii ascii⟩

/-- One letter beyond ASCII, which becomes two others. -/
theorem letter_changed : ¬Exact "é".toList := by
  intro right
  have outside : ¬Within Ticket "é".toList 0 := fun within => absurd (within_ticket within) (by decide)
  exact absurd (plain_of_once right.once 0 'é' rfl outside) (by decide)

end Vnidrop.RedactedText
