import Mathlib.Logic.Relation
import Vnidrop.Programs

/-! Work that is cut off and begun again from its start. Each part of it finds what was done before
and leaves that alone, so that the last run makes of the state what the first one would have made. -/
namespace Vnidrop.Resumption

open Programs

section Runs

variable {σ Op ε α β E : Type} {Ans : Op → Type} {exec : σ → ε → (op : Op) → Option (Ans op × σ)} {s t u : σ}

/-- A state that the program comes through when it is run from `s`. -/
def Partly (exec : σ → ε → (op : Op) → Option (Ans op × σ)) : Prog Op Ans α → σ → σ → Prop
  | .ret _, s, t => s = t
  | .step op k, s, t => s = t ∨ ∃ choice r u, exec s choice op = some (r,u) ∧ Partly exec (k r) u t

theorem Partly.start (p : Prog Op Ans α) (s : σ) : Partly exec p s s := by
  cases p with
  | ret a => rfl
  | step op k => exact .inl rfl

theorem partly_of_alone {p : Prog Op Ans α} {a : α} (run : Alone exec p s a t) : Partly exec p s t := by
  induction p generalizing s with
  | ret b => exact run.2
  | step op k ih =>
    obtain ⟨c,r,u,performed,rest⟩ := run
    exact .inr ⟨c,r,u,performed,ih r rest⟩

theorem partly_bind {p : Prog Op Ans α} {f : α → Prog Op Ans β} :
    Partly exec (p >>= f) s t ↔ Partly exec p s t ∨ ∃ a u, Alone exec p s a u ∧ Partly exec (f a) u t := by
  induction p generalizing s with
  | ret a =>
    constructor
    · exact fun h => .inr ⟨a,s,⟨rfl,rfl⟩,h⟩
    · rintro (rfl | ⟨_,_,⟨rfl,rfl⟩,h⟩)
      · exact .start _ s
      · exact h
  | step op k ih =>
    constructor
    · rintro (rfl | ⟨c,r,u,performed,rest⟩)
      · exact .inl (.inl rfl)
      · rcases (ih r).mp rest with first | ⟨a,v,first,second⟩
        · exact .inl (.inr ⟨c,r,u,performed,first⟩)
        · exact .inr ⟨a,v,⟨c,r,u,performed,first⟩,second⟩
    · rintro ((rfl | ⟨c,r,u,performed,first⟩) | ⟨a,v,⟨c,r,u,performed,first⟩,second⟩)
      · exact .inl rfl
      · exact .inr ⟨c,r,u,performed,(ih r).mpr (.inl first)⟩
      · exact .inr ⟨c,r,u,performed,(ih r).mpr (.inr ⟨a,v,first,second⟩)⟩

theorem partly_andThen {p : Prog Op Ans (Except E α)} {f : α → Prog Op Ans (Except E β)} :
    Partly exec (p.andThen f) s t ↔ Partly exec p s t ∨ ∃ a u, Alone exec p s (.ok a) u ∧ Partly exec (f a) u t := by
  rw [Prog.andThen,partly_bind]
  refine or_congr_right' fun early => ?_
  constructor
  · rintro ⟨a | a,u,first,second⟩
    · cases second
      exact absurd (partly_of_alone first) early
    · exact ⟨a,u,first,second⟩
  · rintro ⟨a,u,first,second⟩
    exact ⟨.ok a,u,first,second⟩

theorem alone_andThen {p : Prog Op Ans (Except E α)} {f : α → Prog Op Ans (Except E β)} {b : β} :
    Alone exec (p.andThen f) s (.ok b) t ↔ ∃ a u, Alone exec p s (.ok a) u ∧ Alone exec (f a) u (.ok b) t := by
  rw [Prog.andThen,alone_bind]
  constructor
  · rintro ⟨a | a,u,first,second⟩
    · cases second.1
    · exact ⟨a,u,first,second⟩
  · rintro ⟨a,u,first,second⟩
    exact ⟨.ok a,u,first,second⟩

/-- What every operation of a program does to the state is done by any part of its run. -/
theorem partly_related {R : σ → σ → Prop} {p : Prog Op Ans α} {allowed : Op → Prop} (reflexive : ∀ s, R s s)
    (transitive : ∀ s t u, R s t → R t u → R s u)
    (advance : ∀ op, allowed op → ∀ s c r u, exec s c op = some (r,u) → R s u)
    (all : p.All allowed) (run : Partly exec p s t) : R s t := by
  induction p generalizing s with
  | ret b => exact run ▸ reflexive s
  | step op k ih =>
    rcases run with rfl | ⟨c,r,u,performed,rest⟩
    · exact reflexive s
    · exact transitive _ _ _ (advance op all.1 s c r u performed) (ih r (all.2 r) rest)

end Runs

/-! Parts of work, and how they are put together. -/

section Parts

variable {σ Op ε E : Type} {Ans : Op → Type} {exec : σ → ε → (op : Op) → Option (Ans op × σ)}

abbrev Work (Op : Type) (Ans : Op → Type) (E : Type) := Prog Op Ans (Except E Unit)

/-- Where the work is done it changes nothing; cut off and begun again it has the same outcome, and
can still come to its end. -/
structure Resumable (exec : σ → ε → (op : Op) → Option (Ans op × σ)) (p : Work Op Ans E) (Done : σ → Prop) : Prop where
  done : ∀ {s t}, Alone exec p s (.ok ()) t → Done t
  idle : ∀ {s t}, Done s → Partly exec p s t → t = s
  again : ∀ {s}, Done s → Alone exec p s (.ok ()) s
  resume : ∀ {s t u}, Partly exec p s t → Alone exec p t (.ok ()) u → Alone exec p s (.ok ()) u
  retry : ∀ {s t u}, Partly exec p s t → Alone exec p s (.ok ()) u → ∃ v, Alone exec p t (.ok ()) v

/-- Whichever of its outcomes the first part has, the second can come to its end. -/
def Agree (exec : σ → ε → (op : Op) → Option (Ans op × σ)) (p q : Work Op Ans E) : Prop :=
  ∀ s t u v, Alone exec p s (.ok ()) t → Alone exec p s (.ok ()) u → Alone exec q t (.ok ()) v →
    ∃ w, Alone exec q u (.ok ()) w

theorem agree_of_unique {p q : Work Op Ans E}
    (unique : ∀ s t u, Alone exec p s (.ok ()) t → Alone exec p s (.ok ()) u → t = u) : Agree exec p q :=
  fun s t u v first second rest => ⟨v,unique s t u first second ▸ rest⟩

theorem resumable_pure : Resumable exec (.ret (.ok ()) : Work Op Ans E) fun _ => True where
  done _ := trivial
  idle _ run := run.symm
  again _ := ⟨rfl,rfl⟩
  resume run rest := run ▸ rest
  retry run rest := ⟨_,run ▸ rest⟩

/-- What was done stays done while the rest is done. -/
theorem resumable_andThen {p q : Work Op Ans E} {Done Then : σ → Prop} (first : Resumable exec p Done)
    (second : Resumable exec q Then) (keeps : ∀ s t, Done s → Partly exec q s t → Done t) (agree : Agree exec p q) :
    Resumable exec (p.andThen fun _ => q) fun s => Done s ∧ Then s where
  done run := by
    obtain ⟨_,u,before,after⟩ := alone_andThen.mp run
    exact ⟨keeps _ _ (first.done before) (partly_of_alone after),second.done after⟩
  idle both run := by
    rcases partly_andThen.mp run with before | ⟨_,u,before,after⟩
    · exact first.idle both.1 before
    · obtain rfl := first.idle both.1 (partly_of_alone before)
      exact second.idle both.2 after
  again both := alone_andThen.mpr ⟨(),_,first.again both.1,second.again both.2⟩
  resume run rest := by
    obtain ⟨_,v,before,after⟩ := alone_andThen.mp rest
    rcases partly_andThen.mp run with early | ⟨_,u,earlier,late⟩
    · exact alone_andThen.mpr ⟨(),v,first.resume early before,after⟩
    · have there := keeps _ _ (first.done earlier) late
      obtain rfl := first.idle there (partly_of_alone before)
      exact alone_andThen.mpr ⟨(),u,earlier,second.resume late after⟩
  retry run rest := by
    obtain ⟨_,v,before,after⟩ := alone_andThen.mp rest
    rcases partly_andThen.mp run with early | ⟨_,u,earlier,late⟩
    · obtain ⟨w,done⟩ := first.retry early before
      obtain ⟨x,rest⟩ := agree _ _ _ _ before (first.resume early done) after
      exact ⟨x,alone_andThen.mpr ⟨(),w,done,rest⟩⟩
    · obtain ⟨x,rest⟩ := agree _ _ _ _ before earlier after
      obtain ⟨w,done⟩ := second.retry late rest
      exact ⟨w,alone_andThen.mpr ⟨(),_,first.again (keeps _ _ (first.done earlier) late),done⟩⟩

/-- One part after the other, up to the first that fails. -/
def sequence : List (Work Op Ans E) → Work Op Ans E
  | [] => .ret (.ok ())
  | p :: rest => p.andThen fun _ => sequence rest

theorem partly_sequence {parts : List (Work Op Ans E)} {s t : σ} {R : σ → σ → Prop} (reflexive : ∀ s, R s s)
    (transitive : ∀ s t u, R s t → R t u → R s u) (each : ∀ p ∈ parts, ∀ s t, Partly exec p s t → R s t)
    (run : Partly exec (sequence parts) s t) : R s t := by
  induction parts generalizing s with
  | nil => exact run ▸ reflexive s
  | cons p rest ih =>
    rcases partly_andThen.mp run with first | ⟨_,u,first,second⟩
    · exact each p List.mem_cons_self s t first
    · exact transitive _ _ _ (each p List.mem_cons_self s u (partly_of_alone first))
        (ih (fun q there => each q (List.mem_cons_of_mem p there)) second)

/-- Each part may end in whichever of its outcomes, and the rest can come to its end. -/
def Agrees (exec : σ → ε → (op : Op) → Option (Ans op × σ)) : List (Work Op Ans E) → Prop
  | [] => True
  | p :: rest => Agree exec p (sequence rest) ∧ Agrees exec rest

/-- The rule for a list of parts, each of which leaves alone what the parts before it have done. -/
theorem resumable_sequence {ι : Type} {parts : List ι} {work : ι → Work Op Ans E} {Done : ι → σ → Prop}
    (each : ∀ i ∈ parts, Resumable exec (work i) (Done i))
    (keeps : parts.Pairwise fun i j => ∀ s t, Done i s → Partly exec (work j) s t → Done i t)
    (agrees : Agrees exec (parts.map work)) :
    Resumable exec (sequence (parts.map work)) fun s => ∀ i ∈ parts, Done i s := by
  induction parts with
  | nil =>
    simp only [List.map_nil,sequence,List.not_mem_nil,false_implies,implies_true]
    exact resumable_pure
  | cons i rest ih =>
    obtain ⟨here,later⟩ := List.pairwise_cons.mp keeps
    have second := ih (fun j there => each j (List.mem_cons_of_mem i there)) later agrees.2
    have kept (s t : σ) (done : Done i s) (run : Partly exec (sequence (rest.map work)) s t) : Done i t := by
      refine partly_sequence (R := fun s t => Done i s → Done i t) (fun _ h => h) (fun _ _ _ f g h => g (f h)) ?_ run done
      intro p there s t run done
      obtain ⟨j,listed,rfl⟩ := List.mem_map.mp there
      exact here j listed s t done run
    have whole := resumable_andThen (each i List.mem_cons_self) second kept agrees.1
    simpa only [List.map_cons,sequence,List.forall_mem_cons] using whole

variable {p : Work Op Ans E} {Done : σ → Prop} {s t u : σ}

/-- However often it was cut off, the work has the outcome of a single run in the end. -/
theorem Resumable.resumes (work : Resumable exec p Done) (cuts : Relation.ReflTransGen (Partly exec p) s t)
    (run : Alone exec p t (.ok ()) u) : Alone exec p s (.ok ()) u := by
  induction cuts using Relation.ReflTransGen.head_induction_on with
  | refl => exact run
  | head cut _ ih => exact work.resume cut ih

/-- However often it was cut off, the work can come to its end if it could at first. -/
theorem Resumable.retries (work : Resumable exec p Done) (cuts : Relation.ReflTransGen (Partly exec p) s t)
    (run : Alone exec p s (.ok ()) u) : ∃ v, Alone exec p t (.ok ()) v := by
  induction cuts with
  | refl => exact ⟨u,run⟩
  | tail _ cut ih =>
    obtain ⟨v,before⟩ := ih
    exact work.retry cut before

end Parts

end Vnidrop.Resumption
