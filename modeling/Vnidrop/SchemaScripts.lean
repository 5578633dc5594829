import Vnidrop.SchemaStatements

/-! Scripts of statements: what they keep, and when they can be cut off anywhere and begun again. -/
namespace Vnidrop.Schemas

open Programs Resumption

section Parts

variable {l : Licence} {s t u : Database} {a : Table} {p : Part} {o : Op} {c : Choice}

theorem settle_cases {x : Option Database} {r : Except Failure Unit} (h : settle s c x = (r,t)) :
    t = s ∧ r ≠ .ok () ∨ x = some t := by
  unfold settle at h
  split at h
  · cases h
    exact .inl ⟨rfl,by simp⟩
  · split at h
    · split at h <;> cases h
      · exact .inr rfl
      · exact .inl ⟨rfl,by simp⟩
    · cases h
      exact .inr rfl

/-- What an operation makes of the database. -/
def Op.meaning (s : Database) (now : Int) : Op → Option Database
  | .execute st => s.exec st
  | .tableInfo _ => some s
  | .once ledger key name stamp statements => s.once ledger key name stamp statements now

theorem Licence.Le.nothing (l : Licence) : Licence.Le ⟨[],[],[]⟩ l :=
  ⟨List.nil_subset _,List.nil_subset _,List.nil_subset _⟩

theorem exec_meaning {r : Ans o} (h : exec s c o = some (r,t)) : t = s ∨ o.meaning s c.now = some t := by
  cases o with
  | execute st =>
    rcases settle_cases (Option.some.inj h) with same | done
    · exact .inl same.1
    · exact .inr done
  | tableInfo table => exact .inl (Prod.mk.inj (Option.some.inj h)).2.symm
  | once ledger key name stamp statements =>
    rcases settle_cases (Option.some.inj h) with same | done
    · exact .inl same.1
    · exact .inr done

/-- The operations of a part. -/
def Part.Ops : Part → Op → Prop
  | .statement st, o => o = .execute st
  | .columns table adds, o => o = .tableInfo table ∨ ∃ a ∈ adds, o = .execute (.addColumn table a.1 a.2)
  | .once ledger key name stamp statements, o => o = .once ledger key name stamp statements

theorem addMissing_all {table : String} {present : List String} {adds : List (String × Cell)} {q : Op → Prop}
    (all : ∀ a ∈ adds, q (.execute (.addColumn table a.1 a.2))) : (addMissing table present adds).All q := by
  induction adds with
  | nil => trivial
  | cons a adds ih =>
    refine Prog.all_andThen ?_ fun _ => ih fun b there => all b (List.mem_cons_of_mem a there)
    split
    · trivial
    · exact Prog.all_perform (all a List.mem_cons_self)

theorem work_all (p : Part) : p.work.All p.Ops := by
  cases p with
  | statement st => exact Prog.all_perform rfl
  | columns table adds =>
    exact Prog.all_andThen (Prog.all_perform (.inl rfl)) fun _ => addMissing_all fun a there => .inr ⟨a,there,rfl⟩
  | once => exact Prog.all_perform rfl

/-- What each operation of a part keeps is kept by any part of its run. -/
theorem part_related {R : Database → Database → Prop} (reflexive : ∀ s, R s s)
    (transitive : ∀ s t u, R s t → R t u → R s u)
    (advance : ∀ o, p.Ops o → ∀ s t now, o.meaning s now = some t → R s t) (run : Partly exec p.work s t) : R s t := by
  refine partly_related reflexive transitive (fun o allowed s c r u h => ?_) (work_all p) run
  rcases exec_meaning h with rfl | done
  · exact reflexive u
  · exact advance o allowed s u c.now done

/-- The licence covers what the part may do. -/
def Part.Covered (l : Licence) : Part → Prop
  | .statement st => st.licence.Le l
  | .columns .. => True
  | .once ledger _ _ _ statements => ledger ∈ l.grows ∧ ∀ st ∈ statements, st.licence.Le l

instance (l : Licence) : (p : Part) → Decidable (p.Covered l)
  | .statement st => inferInstanceAs (Decidable (st.licence.Le l))
  | .columns .. => .isTrue trivial
  | .once ledger _ _ _ statements => inferInstanceAs (Decidable (ledger ∈ l.grows ∧ ∀ st ∈ statements, st.licence.Le l))

theorem part_within (covered : p.Covered l) (run : Partly exec p.work s t) : Within l s t := by
  refine part_related (Within.refl l) (fun _ _ _ => Within.trans) (fun o allowed s t now done => ?_) run
  cases p with
  | statement st =>
    obtain rfl := allowed
    exact (exec_within done).mono covered
  | columns table adds =>
    rcases allowed with rfl | ⟨a,-,rfl⟩
    · cases done
      exact .refl l _
    · have within := exec_within (show s.exec (.addColumn table a.1 a.2) = some t from done)
      exact within.mono (.nothing l)
  | once =>
    obtain rfl := allowed
    exact once_within covered.1 covered.2 done

/-- A script keeps what it has no licence to change, wherever it is cut off. -/
theorem script_within {parts : List Part} (covered : ∀ p ∈ parts, p.Covered l) (run : Partly exec (script parts) s t) :
    Within l s t := by
  refine partly_sequence (Within.refl l) (fun _ _ _ => Within.trans) (fun w there s t run => ?_) run
  obtain ⟨p,listed,rfl⟩ := List.mem_map.mp there
  exact part_within (covered p listed) run

/-- What a part has done, when it is done. -/
def Part.Done (s : Database) : Part → Prop
  | .statement (.createTable name _) => s.tables name ≠ none
  | .statement (.dropTable name) => s.tables name = none
  | .statement (.fill name fillings) => ∃ a, s.tables name = some a ∧ (∀ f ∈ fillings, f.1 ∈ a.columns) ∧
      (∀ f ∈ fillings, ∀ c ∈ f.2.reads, c ∈ a.columns) ∧ ∀ r ∈ a.rows, ∀ f ∈ fillings, fillRow fillings r f.1 = r f.1
  | .statement (.createIndex i) => ∃ j ∈ s.indexes, j.name = i.name
  | .statement (.userVersion n) => s.version = n
  | .statement _ => False
  | .columns name adds => ∃ a, s.tables name = some a ∧ ∀ d ∈ adds, d.1 ∈ a.columns
  | .once ledger key name _ _ => ∃ a, s.tables ledger = some a ∧ key ∈ a.columns ∧ ∃ r ∈ a.rows, r key = .text name.toList

/-- A part that can be repeated: no column is read by the statement that fills it. -/
def Part.Sound : Part → Prop
  | .statement (.fill _ fillings) => ∀ f ∈ fillings, ∀ g ∈ fillings, g.1 ∉ f.2.reads
  | .statement (.addColumn ..) | .statement (.insertFrom ..) => False
  | .statement _ | .once .. => True
  | .columns _ adds => adds ≠ [] ∧ (adds.map Prod.fst).Nodup

instance : (p : Part) → Decidable p.Sound
  | .statement (.fill _ fillings) => inferInstanceAs (Decidable (∀ f ∈ fillings, ∀ g ∈ fillings, g.1 ∉ f.2.reads))
  | .statement (.addColumn ..) | .statement (.insertFrom ..) => .isFalse id
  | .statement (.createTable ..) | .statement (.dropTable _) | .statement (.createIndex _) | .statement (.userVersion _)
  | .once .. => .isTrue trivial
  | .columns _ adds => inferInstanceAs (Decidable (adds ≠ [] ∧ (adds.map Prod.fst).Nodup))

theorem fillRow_fillRow {fillings : List Filling} (apart : ∀ f ∈ fillings, ∀ g ∈ fillings, g.1 ∉ f.2.reads) (r : Row) :
    fillRow fillings (fillRow fillings r) = fillRow fillings r := by
  funext c
  cases found : fillings.lookup c with
  | none => simp only [fillRow,found]
  | some e =>
    have same : e.eval (fillRow fillings r) = e.eval r := by
      refine Expr.eval_congr fun d read => ?_
      have free : fillings.lookup d = none := by
        obtain ⟨_,_,whole,-⟩ := List.lookup_eq_some_iff.mp found
        simp only [List.lookup_eq_none_iff,bne_iff_ne]
        rintro g there rfl
        exact apart (c,e) (by simp [whole]) g there read
      simp only [fillRow,free]
    have value (r : Row) : fillRow fillings r c = if r c = .null then e.eval r else r c := by simp only [fillRow,found]
    rw [value,value,same]
    split <;> simp_all

theorem statement_done {st : Statement} (sound : (Part.statement st).Sound) (h : s.exec st = some t) :
    (Part.statement st).Done t := by
  cases st with
  | createTable name columns =>
    simp only [Database.exec] at h
    split at h <;> cases h
    · rename_i there
      exact Option.isSome_iff_ne_none.mp there
    · simp [Part.Done,Database.put]
  | dropTable name =>
    simp only [Database.exec] at h
    split at h <;> cases h
    · exact Function.update_self ..
    · rename_i absent
      simpa [Part.Done] using absent
  | addColumn | insertFrom => exact sound.elim
  | fill name fillings =>
    simp only [Database.exec] at h
    split at h
    · cases h
    · rename_i a there
      split at h
      · rename_i named
        split at h
        · rename_i readable
          split at h
          · rename_i stable
            cases h
            exact ⟨a,there,named,readable,stable⟩
          · split at h <;> cases h
            refine ⟨a.fill fillings named,Function.update_self ..,named,readable,fun r there f _ => ?_⟩
            obtain ⟨r,-,rfl⟩ := List.mem_map.mp there
            rw [fillRow_fillRow sound]
        · cases h
      · cases h
  | createIndex i =>
    simp only [Database.exec] at h
    split at h
    · rename_i known
      cases h
      simpa [Part.Done] using known
    · split at h
      · cases h
      · split at h <;> cases h
        exact ⟨i,List.mem_cons_self,rfl⟩
  | userVersion n =>
    cases h
    rfl

theorem statement_idle {st : Statement} (done : (Part.statement st).Done s) : s.exec st = some s := by
  cases st with
  | createTable name columns => simp [Database.exec,Option.isSome_iff_ne_none.mpr done]
  | dropTable name =>
    have absent : s.tables name = none := done
    simp [Database.exec,absent]
  | addColumn | insertFrom => exact done.elim
  | fill name fillings =>
    obtain ⟨a,there,named,readable,stable⟩ := done
    simp only [Database.exec,there]
    rw [dif_pos named,if_pos readable,if_pos stable]
  | createIndex i =>
    have known : s.indexes.any (·.name = i.name) = true := by simpa [Part.Done] using done
    simp only [Database.exec]
    rw [if_pos known]
  | userVersion n =>
    have same : s.version = n := done
    simp [Database.exec,← same]

theorem once_idle {ledger key name stamp : String} {statements : List Statement} (now : Int)
    (done : (Part.once ledger key name stamp statements).Done s) : s.once ledger key name stamp statements now = some s := by
  obtain ⟨a,there,known,r,listed,marked⟩ := done
  simp only [Database.once,there]
  rw [if_pos known,if_pos (List.any_eq_true.mpr ⟨r,listed,by simpa using marked⟩)]

theorem mem_insertRow_key (key : String) (rows : List Row) (r : Row) : ∃ x ∈ insertRow key rows r, x key = r key := by
  unfold insertRow
  split
  · rename_i known
    simpa using known
  · exact ⟨r,by simp,rfl⟩

theorem once_done {ledger key name stamp : String} {statements : List Statement} {now : Int}
    (h : s.once ledger key name stamp statements now = some t) : (Part.once ledger key name stamp statements).Done t := by
  rcases once_cases h with ⟨rfl,there⟩ | ⟨u,a,named,-,-,rfl⟩
  · exact there
  · refine ⟨_,Function.update_self ..,named (key,.text name) (by simp),?_⟩
    obtain ⟨x,there,same⟩ := mem_insertRow_key key a.rows (valuesRow [(key,Expr.text name),(stamp,Expr.int now)] fun _ => .null)
    refine ⟨x,there,same.trans ?_⟩
    simp [valuesRow,Expr.eval]

/-- The rule of a part that is a single operation. -/
theorem resumable_meaning {w : Task (Except Failure Unit)} {f : Database → Int → Option Database} {Done : Database → Prop}
    (alone : ∀ s t, Alone exec w s (.ok ()) t ↔ ∃ now, f s now = some t)
    (cut : ∀ s t, Partly exec w s t → t = s ∨ ∃ now, f s now = some t)
    (done : ∀ s t now, f s now = some t → Done t) (idle : ∀ s now, Done s → f s now = some s) : Resumable exec w Done where
  done run := by
    obtain ⟨now,h⟩ := (alone _ _).mp run
    exact done _ _ now h
  idle there run := by
    rcases cut _ _ run with same | ⟨now,h⟩
    · exact same
    · exact Option.some.inj (h.symm.trans (idle _ now there))
  again there := (alone _ _).mpr ⟨0,idle _ 0 there⟩
  resume run rest := by
    rcases cut _ _ run with rfl | ⟨now,h⟩
    · exact rest
    · obtain ⟨now',h'⟩ := (alone _ _).mp rest
      obtain rfl := Option.some.inj (h'.symm.trans (idle _ now' (done _ _ now h)))
      exact (alone _ _).mpr ⟨now,h⟩
  retry run rest := by
    rcases cut _ _ run with rfl | ⟨now,h⟩
    · exact ⟨_,rest⟩
    · exact ⟨_,(alone _ _).mpr ⟨0,idle _ 0 (done _ _ now h)⟩⟩

theorem alone_settle {o : Op} {r : Ans o} : Alone exec (op o) s r t ↔ ∃ c, exec s c o = some (r,t) := by
  constructor
  · rintro ⟨c,_,_,h,rfl,rfl⟩
    exact ⟨c,h⟩
  · rintro ⟨c,h⟩
    exact ⟨c,r,t,h,rfl,rfl⟩

theorem settle_ok {x : Option Database} : settle s c x = (.ok (),t) ↔ c.fails = false ∧ x = some t := by
  unfold settle
  cases x with
  | none => simp
  | some u => by_cases fails : c.fails = true <;> simp [fails]

theorem alone_execute {st : Statement} : Alone exec (op (.execute st)) s (.ok ()) t ↔ s.exec st = some t := by
  rw [alone_settle]
  constructor
  · rintro ⟨c,h⟩
    exact (settle_ok.mp (Option.some.inj h)).2
  · exact fun h => ⟨⟨false,false,0⟩,congrArg some (settle_ok.mpr ⟨rfl,h⟩)⟩

theorem alone_once {ledger key name stamp : String} {statements : List Statement} :
    Alone exec (op (.once ledger key name stamp statements)) s (.ok ()) t ↔
      ∃ now, s.once ledger key name stamp statements now = some t := by
  rw [alone_settle]
  constructor
  · rintro ⟨c,h⟩
    exact ⟨c.now,(settle_ok.mp (Option.some.inj h)).2⟩
  · rintro ⟨now,h⟩
    exact ⟨⟨false,false,now⟩,congrArg some (settle_ok.mpr ⟨rfl,h⟩)⟩

theorem partly_op (run : Partly exec (op o) s t) : t = s ∨ ∃ now, o.meaning s now = some t := by
  rcases run with rfl | ⟨c,r,u,h,rfl⟩
  · exact .inl rfl
  · exact (exec_meaning h).imp_right fun done => ⟨c.now,done⟩

/-! The columns of a table. -/

/-- The table with the columns that it did not have. -/
def Table.adopt (a : Table) : List (String × Cell) → Table
  | [] => a
  | (c,v) :: adds => (if c ∈ a.columns then a else a.add c v).adopt adds

theorem adopt_append {front back : List (String × Cell)} : a.adopt (front ++ back) = (a.adopt front).adopt back := by
  induction front generalizing a with
  | nil => rfl
  | cons d front ih => exact ih

theorem adopt_known {adds : List (String × Cell)} (known : ∀ d ∈ adds, d.1 ∈ a.columns) : a.adopt adds = a := by
  induction adds with
  | nil => rfl
  | cons d adds ih =>
    rw [Table.adopt,if_pos (known d List.mem_cons_self)]
    exact ih fun e there => known e (List.mem_cons_of_mem d there)

theorem mem_adopt {adds : List (String × Cell)} {c : String} : c ∈ (a.adopt adds).columns ↔ c ∈ a.columns ∨ c ∈ adds.map Prod.fst := by
  induction adds generalizing a with
  | nil => simp [Table.adopt]
  | cons d adds ih =>
    rw [Table.adopt,ih]
    split
    · rename_i there
      simp only [List.map_cons,List.mem_cons]
      grind
    · simp [Table.add,or_assoc]

theorem adopt_idem {front back : List (String × Cell)} : (a.adopt front).adopt (front ++ back) = a.adopt (front ++ back) := by
  rw [adopt_append,adopt_known fun d there => mem_adopt.mpr (.inr (List.mem_map.mpr ⟨d,there,rfl⟩)),adopt_append]

theorem put_put {name : String} {b : Table} : (s.put name a).put name b = s.put name b := by simp [Database.put]

theorem put_same {name : String} (there : s.tables name = some a) : s.put name a = s := by
  simp [Database.put,← there]

theorem exec_add {name c : String} {v : Cell} (there : s.tables name = some a) (absent : c ∉ a.columns) :
    s.exec (.addColumn name c v) = some (s.put name (a.add c v)) := by
  simp only [Database.exec,there]
  rw [if_neg absent]

section Columns

variable {name : String} {present : List String} {adds : List (String × Cell)}

/-- What the table was seen to have is what it has, but for the columns that were added since. -/
theorem alone_addMissing (there : s.tables name = some a) (seen : ∀ d ∈ adds, d.1 ∈ present ↔ d.1 ∈ a.columns)
    (distinct : (adds.map Prod.fst).Nodup) :
    Alone exec (addMissing name present adds) s (.ok ()) t ↔ t = s.put name (a.adopt adds) := by
  induction adds generalizing s a with
  | nil =>
    rw [Table.adopt,put_same there]
    exact ⟨fun run => run.2.symm,fun same => ⟨rfl,same.symm⟩⟩
  | cons d adds ih =>
    obtain ⟨c,v⟩ := d
    obtain ⟨fresh,distinct⟩ := List.nodup_cons.mp distinct
    rw [addMissing,alone_andThen,Table.adopt]
    by_cases known : c ∈ a.columns
    · rw [if_pos ((seen _ List.mem_cons_self).mpr known),if_pos known,
        ← ih there (fun e listed => seen e (List.mem_cons_of_mem _ listed)) distinct]
      constructor
      · rintro ⟨_,_,⟨-,rfl⟩,rest⟩
        exact rest
      · exact fun rest => ⟨(),s,⟨rfl,rfl⟩,rest⟩
    · have later : ∀ e ∈ adds, e.1 ∈ present ↔ e.1 ∈ (a.add c v).columns := by
        intro e listed
        have other : e.1 ≠ c := by
          rintro rfl
          exact fresh (List.mem_map.mpr ⟨e,listed,rfl⟩)
        simp [Table.add,other,seen e (List.mem_cons_of_mem _ listed)]
      have rest := ih (s := s.put name (a.add c v)) (Function.update_self ..) later distinct
      rw [put_put] at rest
      rw [if_neg ((seen _ List.mem_cons_self).not.mpr known),if_neg known,← rest]
      constructor
      · rintro ⟨_,u,first,second⟩
        obtain rfl := Option.some.inj ((exec_add there known).symm.trans (alone_execute.mp first))
        exact second
      · exact fun second => ⟨(),_,alone_execute.mpr (exec_add there known),second⟩

theorem partly_addMissing (there : s.tables name = some a) (seen : ∀ d ∈ adds, d.1 ∈ present ↔ d.1 ∈ a.columns)
    (distinct : (adds.map Prod.fst).Nodup) (run : Partly exec (addMissing name present adds) s t) :
    ∃ front, front <+: adds ∧ t = s.put name (a.adopt front) := by
  induction adds generalizing s a with
  | nil =>
    obtain rfl : s = t := run
    exact ⟨[],List.prefix_rfl,(put_same there).symm⟩
  | cons d adds ih =>
    obtain ⟨c,v⟩ := d
    obtain ⟨fresh,distinct⟩ := List.nodup_cons.mp distinct
    have start : ∃ front, front <+: (c,v) :: adds ∧ s = s.put name (a.adopt front) :=
      ⟨[],List.nil_prefix,(put_same there).symm⟩
    rw [addMissing] at run
    by_cases known : c ∈ a.columns
    · rw [if_pos ((seen _ List.mem_cons_self).mpr known)] at run
      have here : Partly exec (addMissing name present adds) s t := by
        rcases partly_andThen.mp run with rfl | ⟨_,_,⟨-,rfl⟩,rest⟩
        · exact .start _ s
        · exact rest
      obtain ⟨front,cut,same⟩ := ih there (fun e listed => seen e (List.mem_cons_of_mem _ listed)) distinct here
      refine ⟨(c,v) :: front,(List.prefix_cons_inj _).mpr cut,?_⟩
      rwa [Table.adopt,if_pos known]
    · have later : ∀ e ∈ adds, e.1 ∈ present ↔ e.1 ∈ (a.add c v).columns := by
        intro e listed
        have other : e.1 ≠ c := by
          rintro rfl
          exact fresh (List.mem_map.mpr ⟨e,listed,rfl⟩)
        simp [Table.add,other,seen e (List.mem_cons_of_mem _ listed)]
      have added : ∃ front, front <+: (c,v) :: adds ∧ s.put name (a.add c v) = s.put name (a.adopt front) := by
        refine ⟨[(c,v)],(List.prefix_cons_inj _).mpr List.nil_prefix,?_⟩
        rw [Table.adopt,Table.adopt,if_neg known]
      rw [if_neg ((seen _ List.mem_cons_self).not.mpr known)] at run
      rcases partly_andThen.mp run with first | ⟨_,u,first,rest⟩
      · rcases partly_op first with rfl | ⟨_,h⟩
        · exact start
        · obtain rfl := Option.some.inj ((exec_add there known).symm.trans h)
          exact added
      · obtain rfl := Option.some.inj ((exec_add there known).symm.trans (alone_execute.mp first))
        obtain ⟨front,cut,same⟩ := ih (s := s.put name (a.add c v)) (Function.update_self ..) later distinct rest
        refine ⟨(c,v) :: front,(List.prefix_cons_inj _).mpr cut,?_⟩
        rw [put_put] at same
        rwa [Table.adopt,if_neg known]

theorem alone_tableInfo {r : Except Failure (List String)} : Alone exec (op (.tableInfo name)) s r t →
    t = s ∧ (∀ columns, r = .ok columns → columns = s.columns name) := by
  rintro ⟨c,_,_,h,rfl,rfl⟩
  obtain ⟨rfl,rfl⟩ := Prod.mk.inj (Option.some.inj h)
  refine ⟨rfl,fun columns same => ?_⟩
  split at same
  · cases same
  · exact (Except.ok.inj same).symm

theorem alone_columns (there : s.tables name = some a) (distinct : (adds.map Prod.fst).Nodup) :
    Alone exec (Part.columns name adds).work s (.ok ()) t ↔ t = s.put name (a.adopt adds) := by
  have seen : ∀ d ∈ adds, d.1 ∈ s.columns name ↔ d.1 ∈ a.columns := by simp [Database.columns,there]
  rw [Part.work,alone_andThen,← alone_addMissing there seen distinct]
  constructor
  · rintro ⟨columns,u,first,rest⟩
    obtain ⟨rfl,read⟩ := alone_tableInfo first
    rwa [read columns rfl] at rest
  · exact fun rest => ⟨_,s,alone_settle.mpr ⟨⟨false,false,0⟩,rfl⟩,rest⟩

theorem partly_columns (there : s.tables name = some a) (distinct : (adds.map Prod.fst).Nodup)
    (run : Partly exec (Part.columns name adds).work s t) : ∃ front, front <+: adds ∧ t = s.put name (a.adopt front) := by
  have seen : ∀ d ∈ adds, d.1 ∈ s.columns name ↔ d.1 ∈ a.columns := by simp [Database.columns,there]
  have start : ∃ front, front <+: adds ∧ s = s.put name (a.adopt front) := ⟨[],List.nil_prefix,(put_same there).symm⟩
  rcases partly_andThen.mp run with first | ⟨columns,u,first,rest⟩
  · rcases partly_op first with rfl | ⟨_,h⟩
    · exact start
    · cases h
      exact start
  · obtain ⟨rfl,read⟩ := alone_tableInfo first
    rw [read columns rfl] at rest
    exact partly_addMissing there seen distinct rest

/-- Where there is no table, no column is added. -/
theorem exec_add_absent {c : String} {v : Cell} (absent : s.tables name = none) : s.exec (.addColumn name c v) = none := by
  simp only [Database.exec,absent]

theorem addMissing_absent {c : String} {v : Cell} (absent : s.tables name = none) :
    ¬Alone exec (addMissing name [] ((c,v) :: adds)) s (.ok ()) t ∧
      (Partly exec (addMissing name [] ((c,v) :: adds)) s t → t = s) := by
  rw [addMissing,alone_andThen,partly_andThen,if_neg (by simp)]
  have fails (u : Database) : ¬Alone exec (op (.execute (.addColumn name c v))) s (.ok ()) u := by
    rw [alone_execute,exec_add_absent absent]
    simp
  refine ⟨fun ⟨_,u,first,_⟩ => fails u first,fun run => ?_⟩
  rcases run with first | ⟨_,u,first,_⟩
  · rcases partly_op first with same | ⟨_,h⟩
    · exact same
    · cases (exec_add_absent absent).symm.trans h
  · exact absurd first (fails u)

theorem columns_absent (absent : s.tables name = none) (something : adds ≠ []) :
    ¬Alone exec (Part.columns name adds).work s (.ok ()) t ∧ (Partly exec (Part.columns name adds).work s t → t = s) := by
  obtain ⟨⟨c,v⟩,adds,rfl⟩ := List.exists_cons_of_ne_nil something
  have seen : s.columns name = [] := by simp [Database.columns,absent]
  rw [Part.work,alone_andThen,partly_andThen]
  constructor
  · rintro ⟨columns,u,first,rest⟩
    obtain ⟨rfl,read⟩ := alone_tableInfo first
    rw [read columns rfl,seen] at rest
    exact (addMissing_absent absent).1 rest
  · rintro (first | ⟨columns,u,first,rest⟩)
    · rcases partly_op first with same | ⟨_,h⟩
      · exact same
      · exact (Option.some.inj h).symm
    · obtain ⟨rfl,read⟩ := alone_tableInfo first
      rw [read columns rfl,seen] at rest
      exact (addMissing_absent absent).2 rest

theorem resumable_columns (something : adds ≠ []) (distinct : (adds.map Prod.fst).Nodup) :
    Resumable exec (Part.columns name adds).work fun s => (Part.columns name adds).Done s where
  done {s t} run := by
    cases there : s.tables name with
    | none => exact absurd run (columns_absent there something).1
    | some a =>
      rw [(alone_columns there distinct).mp run]
      exact ⟨_,Function.update_self ..,fun d listed => mem_adopt.mpr (.inr (List.mem_map.mpr ⟨d,listed,rfl⟩))⟩
  idle {s t} done run := by
    obtain ⟨a,there,known⟩ := done
    obtain ⟨front,cut,rfl⟩ := partly_columns there distinct run
    rw [adopt_known fun d listed => known d (cut.subset listed),put_same there]
  again {s} done := by
    obtain ⟨a,there,known⟩ := done
    rw [alone_columns there distinct,adopt_known known,put_same there]
  resume {s t u} run rest := by
    cases there : s.tables name with
    | none =>
      rw [(columns_absent there something).2 run] at rest
      exact rest
    | some a =>
      obtain ⟨front,⟨back,rfl⟩,rfl⟩ := partly_columns there distinct run
      rw [alone_columns (Function.update_self ..) distinct,put_put,adopt_idem] at rest
      rw [alone_columns there distinct]
      exact rest
  retry {s t u} run rest := by
    cases there : s.tables name with
    | none => exact absurd rest (columns_absent there something).1
    | some a =>
      obtain ⟨front,-,rfl⟩ := partly_columns there distinct run
      exact ⟨_,(alone_columns (Function.update_self ..) distinct).mpr rfl⟩

end Columns

theorem resumable_part (sound : p.Sound) : Resumable exec p.work fun s => p.Done s := by
  cases p with
  | statement st =>
    refine resumable_meaning (f := fun s _ => s.exec st) (fun s t => ?_) (fun s t run => partly_op run)
      (fun s t _ h => statement_done sound h) fun s _ done => statement_idle done
    rw [Part.work,alone_execute]
    exact ⟨fun h => ⟨0,h⟩,fun ⟨_,h⟩ => h⟩
  | columns name adds => exact resumable_columns sound.1 sound.2
  | once ledger key name stamp statements =>
    exact resumable_meaning (fun s t => alone_once) (fun s t run => partly_op run) (fun s t _ h => once_done h)
      fun s now done => once_idle now done

/-! What was done stays done. -/

def Part.statements : Part → List Statement
  | .statement st => [st]
  | .columns name adds => adds.map fun a => .addColumn name a.1 a.2
  | .once _ _ _ _ statements => statements

def Part.ledger : Part → Option String
  | .once ledger .. => some ledger
  | _ => none

/-- The second part leaves alone what the first has done. -/
def Part.Spares (q : Part) : Part → Prop
  | .statement (.dropTable name) => ∀ st ∈ q.statements, st.creates ≠ some name
  | .statement (.fill name _) => (∀ st ∈ q.statements, st.changes ≠ some name) ∧ q.ledger ≠ some name
  | .statement (.userVersion _) => ∀ st ∈ q.statements, st.sets = none
  | _ => ∀ st ∈ q.statements, st.licence.drops = []

instance (q : Part) : (p : Part) → Decidable (q.Spares p)
  | .statement (.dropTable name) => inferInstanceAs (Decidable (∀ st ∈ q.statements, st.creates ≠ some name))
  | .statement (.fill name _) =>
    inferInstanceAs (Decidable ((∀ st ∈ q.statements, st.changes ≠ some name) ∧ q.ledger ≠ some name))
  | .statement (.userVersion _) => inferInstanceAs (Decidable (∀ st ∈ q.statements, st.sets = none))
  | .statement (.createTable ..) | .statement (.addColumn ..) | .statement (.createIndex _) | .statement (.insertFrom ..)
  | .columns .. | .once .. => inferInstanceAs (Decidable (∀ st ∈ q.statements, st.licence.drops = []))

theorem foldlM_keeps {P : Database → Prop} {statements : List Statement}
    (each : ∀ st ∈ statements, ∀ s t, s.exec st = some t → P s → P t)
    (h : statements.foldlM Database.exec s = some t) (here : P s) : P t := by
  induction statements generalizing s with
  | nil =>
    cases h
    exact here
  | cons st statements ih =>
    rw [List.foldlM_cons] at h
    obtain ⟨u,first,rest⟩ := Option.bind_eq_some_iff.mp h
    exact ih (fun st' there => each st' (List.mem_cons_of_mem st there)) rest (each st List.mem_cons_self s u first here)

/-- What the statements of a part keep, and the entry in its ledger, the part keeps. -/
theorem part_keeps {P : Database → Prop} {q : Part} (each : ∀ st ∈ q.statements, ∀ s t, s.exec st = some t → P s → P t)
    (mark : ∀ name ∈ q.ledger, ∀ s a b, s.tables name = some a → Within ⟨[],[],[name]⟩ s (s.put name b) → P s → P (s.put name b))
    (run : Partly exec q.work s t) : P s → P t := by
  refine part_related (R := fun s t => P s → P t) (fun _ h => h) (fun _ _ _ f g h => g (f h)) (fun o allowed s t now done => ?_) run
  cases q with
  | statement st =>
    obtain rfl := allowed
    exact each st (List.mem_singleton_self st) s t done
  | columns name adds =>
    rcases allowed with rfl | ⟨d,listed,rfl⟩
    · cases done
      exact id
    · exact each _ (List.mem_map.mpr ⟨d,listed,rfl⟩) s t done
  | once ledger key name stamp statements =>
    obtain rfl := allowed
    rcases once_cases done with ⟨rfl,-⟩ | ⟨u,a,named,ran,there,rfl⟩
    · exact id
    · intro here
      have within : Within ⟨[],[],[ledger]⟩ u (u.put ledger (a.insertAll key _ named [fun _ => .null])) :=
        within_put there (extends_insertAll (List.mem_singleton_self ledger))
      exact mark ledger rfl u a _ there within (foldlM_keeps each ran here)

theorem done_within {name : String} {adds : List (String × Cell)} (keeps : l.drops = []) (within : Within l s t)
    (done : (Part.columns name adds).Done s) : (Part.columns name adds).Done t := by
  obtain ⟨a,there,known⟩ := done
  obtain ⟨b,here,extends'⟩ := within name a (by simp [keeps]) there
  exact ⟨b,here,fun d listed => extends'.columns.subset (known d listed)⟩

theorem marked_within {ledger key name stamp : String} {statements : List Statement} (keeps : l.drops = []) (within : Within l s t)
    (done : (Part.once ledger key name stamp statements).Done s) : (Part.once ledger key name stamp statements).Done t := by
  obtain ⟨a,there,known,r,listed,marked⟩ := done
  obtain ⟨b,here,extends'⟩ := within ledger a (by simp [keeps]) there
  obtain ⟨n,there⟩ := List.getElem?_of_mem listed
  obtain ⟨r',there',same⟩ := extends'.rows n r there
  refine ⟨b,here,extends'.columns.subset known,r',List.mem_of_getElem? there',?_⟩
  rcases same key known with old | ⟨-,null⟩
  · rw [old,marked]
  · rw [null] at marked
    cases marked

theorem created_within {name : String} (keeps : l.drops = []) (within : Within l s t) (done : s.tables name ≠ none) :
    t.tables name ≠ none := by
  obtain ⟨a,there⟩ := Option.ne_none_iff_exists'.mp done
  obtain ⟨b,here,-⟩ := within name a (by simp [keeps]) there
  simp [here]

/-- What the first part has done is done when the second one is cut off. -/
theorem spares_done {q : Part} (spares : q.Spares p) (run : Partly exec q.work s t) (done : p.Done s) : p.Done t := by
  cases p with
  | columns name adds =>
    exact part_keeps (P := fun s => (Part.columns name adds).Done s)
      (fun st there s t h => done_within (spares st there) (exec_within h)) (fun name _ s a b _ within => done_within rfl within) run done
  | once ledger key name stamp statements =>
    exact part_keeps (P := fun s => (Part.once ledger key name stamp statements).Done s)
      (fun st there s t h => marked_within (spares st there) (exec_within h)) (fun name _ s a b _ within => marked_within rfl within)
      run done
  | statement st =>
    cases st with
    | createTable name columns =>
      exact part_keeps (P := fun s => s.tables name ≠ none) (fun st there s t h => created_within (spares st there) (exec_within h))
        (fun name _ s a b _ within => created_within rfl within) run done
    | dropTable name =>
      refine part_keeps (P := fun s => s.tables name = none)
        (fun st there s t h => exec_absent h fun columns same => spares st there (by rw [same]; rfl)) (fun l _ s a b there _ absent => ?_) run done
      rw [← absent]
      refine Function.update_of_ne ?_ ..
      rintro rfl
      simp [absent] at there
    | fill name fillings =>
      obtain ⟨a,there,rest⟩ := done
      refine ⟨a,part_keeps (P := fun s => s.tables name = some a) (fun st listed s t h => exec_unchanged h (spares.1 st listed))
        (fun l listed s b d _ _ there => ?_) run there,rest⟩
      rw [← there]
      refine Function.update_of_ne ?_ ..
      rintro rfl
      exact spares.2 listed
    | createIndex i =>
      obtain ⟨j,listed,same⟩ := done
      refine ⟨j,part_keeps (P := fun s => j ∈ s.indexes) (fun st there s t h => exec_indexes h fun name drop => ?_)
        (fun _ _ s a b _ _ listed => listed) run listed,same⟩
      have none := spares st there
      rw [drop] at none
      cases none
    | userVersion n =>
      refine part_keeps (P := fun s => s.version = n) (fun st there s t h same => ?_) (fun _ _ s a b _ _ same => same) run done
      rw [exec_version h fun m sets => ?_,same]
      have none := spares st there
      rw [sets] at none
      cases none
    | addColumn | insertFrom => exact done.elim

/-! Tables that a part does not look at. -/

def Statement.mentions : Statement → List String
  | .createTable name _ | .dropTable name | .addColumn name .. | .fill name _ => [name]
  | .createIndex i => [i.table]
  | .userVersion _ => []
  | .insertFrom name _ _ source .. => [name,source]

theorem put_comm {name other : String} {b d : Table} (different : name ≠ other) :
    (s.put name b).put other d = (s.put other d).put name b := by
  simp [Database.put,Function.update_comm different]

@[simp] theorem put_indexes {name : String} {b : Table} : (s.put name b).indexes = s.indexes := rfl

theorem exec_frame {st : Statement} {name : String} {b : Table} (free : name ∉ st.mentions) (h : s.exec st = some t) :
    (s.put name b).exec st = some (t.put name b) := by
  have look (other : String) (different : other ≠ name) : (s.put name b).tables other = s.tables other :=
    Function.update_of_ne different ..
  cases st with
  | createTable other columns =>
    have different : name ≠ other := by simpa [Statement.mentions] using free
    simp only [Database.exec,look other different.symm] at h ⊢
    split at h <;> cases h
    · rename_i there
      rw [if_pos there]
    · rename_i absent
      rw [if_neg absent,put_comm different]
  | dropTable other =>
    have different : name ≠ other := by simpa [Statement.mentions] using free
    simp only [Database.exec,look other different.symm] at h ⊢
    split at h <;> cases h
    · rename_i there
      rw [if_pos there]
      simp only [Database.put,Function.update_comm different]
    · rename_i absent
      rw [if_neg absent]
  | addColumn other c v =>
    have different : name ≠ other := by simpa [Statement.mentions] using free
    simp only [Database.exec,look other different.symm] at h ⊢
    split at h
    · cases h
    · split at h <;> cases h
      rename_i absent
      rw [if_neg absent,put_comm different]
  | fill other fillings =>
    have different : name ≠ other := by simpa [Statement.mentions] using free
    simp only [Database.exec,look other different.symm,put_indexes] at h ⊢
    split at h
    · cases h
    · split at h
      · rename_i named
        rw [dif_pos named]
        split at h
        · rename_i readable
          rw [if_pos readable]
          split at h
          · rename_i stable
            cases h
            rw [if_pos stable]
          · rename_i unstable
            rw [if_neg unstable]
            split at h <;> cases h
            rename_i unique
            exact (if_pos unique).trans (congrArg some (put_comm different))
        · cases h
      · cases h
  | createIndex i =>
    have different : name ≠ i.table := by simpa [Statement.mentions] using free
    simp only [Database.exec,look i.table different.symm,put_indexes] at h ⊢
    split at h
    · rename_i known
      cases h
      exact if_pos known
    · rename_i unknown
      rw [if_neg unknown]
      split at h
      · cases h
      · split at h <;> cases h
        rename_i fits
        rw [if_pos fits]
        rfl
  | userVersion n =>
    cases h
    rfl
  | insertFrom other key values source reads meets =>
    simp only [Statement.mentions,List.mem_cons,List.not_mem_nil,or_false,not_or] at free
    simp only [Database.exec,look other (Ne.symm free.1),look source (Ne.symm free.2)] at h ⊢
    split at h
    · split at h
      · rename_i named
        rw [dif_pos named]
        split at h <;> cases h
        rename_i readable
        rw [if_pos readable,put_comm free.1]
      · cases h
    · cases h

/-- The tables that a part looks at, if it is not done once. -/
def Part.mentions : Part → List String
  | .statement st => st.mentions
  | .columns name _ => [name]
  | .once .. => []

structure Part.Avoids (q : Part) (name : String) : Prop where
  ledger : q.ledger = none
  mentions : name ∉ q.mentions

instance (q : Part) (name : String) : Decidable (q.Avoids name) :=
  decidable_of_iff (q.ledger = none ∧ name ∉ q.mentions) ⟨fun h => ⟨h.1,h.2⟩,fun h => ⟨h.ledger,h.mentions⟩⟩

theorem part_frame {q : Part} {name : String} {b : Table} (sound : q.Sound) (avoids : q.Avoids name)
    (run : Alone exec q.work s (.ok ()) t) : Alone exec q.work (s.put name b) (.ok ()) (t.put name b) := by
  cases q with
  | statement st => exact alone_execute.mpr (exec_frame avoids.mentions (alone_execute.mp run))
  | columns other adds =>
    have different : name ≠ other := by simpa [Part.mentions] using avoids.mentions
    cases there : s.tables other with
    | none => exact absurd run (columns_absent there sound.1).1
    | some a =>
      have here : (s.put name b).tables other = some a := by rw [← there]; exact Function.update_of_ne different.symm ..
      rw [(alone_columns there sound.2).mp run,alone_columns here sound.2,put_comm different]
  | once => cases avoids.ledger

theorem script_frame {parts : List Part} {name : String} {b : Table} (sound : ∀ q ∈ parts, q.Sound)
    (avoids : ∀ q ∈ parts, q.Avoids name) (run : Alone exec (script parts) s (.ok ()) t) :
    Alone exec (script parts) (s.put name b) (.ok ()) (t.put name b) := by
  induction parts generalizing s with
  | nil => exact ⟨rfl,congrArg (·.put name b) run.2⟩
  | cons q parts ih =>
    obtain ⟨_,u,first,rest⟩ := alone_andThen.mp run
    exact alone_andThen.mpr ⟨(),_,part_frame (sound q List.mem_cons_self) (avoids q List.mem_cons_self) first,
      ih (fun p there => sound p (List.mem_cons_of_mem q there)) (fun p there => avoids p (List.mem_cons_of_mem q there)) rest⟩

/-- What comes after a transaction that is done once does not look at its ledger. -/
def Steady : List Part → Prop
  | [] => True
  | p :: rest => (∀ name ∈ p.ledger, ∀ q ∈ rest, q.Avoids name) ∧ Steady rest

instance decidableSteady : (parts : List Part) → Decidable (Steady parts)
  | [] => .isTrue trivial
  | p :: rest =>
    have := decidableSteady rest
    match h : p.ledger with
    | none => decidable_of_iff (Steady rest) (by simp [Steady,h])
    | some name => decidable_of_iff ((∀ q ∈ rest, q.Avoids name) ∧ Steady rest) (by simp [Steady,h])

theorem part_unique (sound : p.Sound) (plain : p.ledger = none) (first : Alone exec p.work s (.ok ()) t)
    (second : Alone exec p.work s (.ok ()) u) : t = u := by
  cases p with
  | statement st => exact Option.some.inj ((alone_execute.mp first).symm.trans (alone_execute.mp second))
  | columns name adds =>
    cases there : s.tables name with
    | none => exact absurd first (columns_absent there sound.1).1
    | some a => rw [(alone_columns there sound.2).mp first,(alone_columns there sound.2).mp second]
  | once => cases plain

/-- Two outcomes of a transaction differ in its ledger only. -/
theorem once_outcomes {ledger key name stamp : String} {statements : List Statement} {now now' : Int}
    (first : s.once ledger key name stamp statements now = some t) (second : s.once ledger key name stamp statements now' = some u) :
    ∃ b, u = t.put ledger b := by
  have again (done : s.once ledger key name stamp statements now' = some s) : u = s :=
    Option.some.inj (second.symm.trans done)
  rcases once_cases first with ⟨rfl,a,there,rest⟩ | ⟨v,a,named,ran,there,rfl⟩
  · exact ⟨a,by rw [again (once_idle _ ⟨a,there,rest⟩),put_same there]⟩
  · rcases once_cases second with ⟨rfl,a',there',rest⟩ | ⟨v',a',named',ran',there',rfl⟩
    · have same := Option.some.inj (first.symm.trans (once_idle now ⟨a',there',rest⟩))
      exact ⟨a',by rw [same,put_same there']⟩
    · obtain rfl := Option.some.inj (ran.symm.trans ran')
      exact ⟨_,put_put.symm⟩

theorem agrees_of_steady {parts : List Part} (sound : ∀ q ∈ parts, q.Sound) (steady : Steady parts) :
    Agrees exec (parts.map Part.work) := by
  induction parts with
  | nil => trivial
  | cons p parts ih =>
    refine ⟨?_,ih (fun q there => sound q (List.mem_cons_of_mem p there)) steady.2⟩
    have here := sound p List.mem_cons_self
    cases p with
    | statement | columns => exact agree_of_unique fun s t u => part_unique here rfl
    | once ledger key name stamp statements =>
      intro s t u v first second rest
      obtain ⟨now,first⟩ := alone_once.mp first
      obtain ⟨now',second⟩ := alone_once.mp second
      obtain ⟨b,rfl⟩ := once_outcomes first second
      exact ⟨_,script_frame (fun q there => sound q (List.mem_cons_of_mem _ there)) (steady.1 ledger rfl) rest⟩

/-- A script of such parts can be cut off anywhere and begun again. -/
theorem resumable_script {parts : List Part} (sound : ∀ p ∈ parts, p.Sound) (spares : parts.Pairwise fun p q => q.Spares p)
    (steady : Steady parts) : Resumable exec (script parts) fun s => ∀ p ∈ parts, p.Done s :=
  resumable_sequence (fun p there => resumable_part (sound p there)) (spares.imp fun spares _ _ done run => spares_done spares run done)
    (agrees_of_steady sound steady)

end Parts

end Vnidrop.Schemas
