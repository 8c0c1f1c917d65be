import RecordMapper.Proofs.Hydration.Single
import RecordMapper.Proofs.Store.Guarding

namespace RecordMapper

open RecordMapper.Store RecordMapper.Text

section Codecs

variable {α : Type} {v : Value} {expected : DataType}

theorem Codec.ofIntegers_null {typeName : String} {toInt : α → Int} {ofInt? : Int → Option α}
    (misfit : (Codec.ofIntegers typeName toInt ofInt?).decode v = .error (.mismatch expected .null)) : v = .null := by
  cases v with
  | null => rfl
  | integer n =>
    simp only [Codec.ofIntegers] at misfit
    split at misfit <;> cases misfit
  | real | text | blob => cases misfit

theorem Codec.ofText_null {d : DataType} {write : α → String} {reader : String → Except CodecFault α}
    (other : ∀ s, reader s ≠ .error (.mismatch expected .null))
    (misfit : (Codec.ofText d write reader).decode v = .error (.mismatch expected .null)) : v = .null := by
  cases v with
  | null => rfl
  | text s => exact absurd misfit (other s)
  | integer | real | blob => cases misfit

theorem Codec.real_null (misfit : Codec.real v = .error (.mismatch expected .null)) : v = .null := by
  cases v with
  | null => rfl
  | real | integer | text | blob => cases misfit

theorem Scalar.null_of_mismatch (s : Scalar) (misfit : s.codec.decode v = .error (.mismatch expected .null)) :
    v = .null := by
  cases s with
  | int8 | int16 | int32 | uint8 | uint16 | uint32 => exact Codec.ofIntegers_null misfit
  | int64 =>
    have whole : (Codec.ofIntegers "i64" Int64.toInt fun n => some (Int64.ofInt n)).decode v =
        .error (.mismatch expected .null) := misfit
    exact Codec.ofIntegers_null whole
  | universal | localTime | date => exact Codec.ofText_null (fun s => mapError_ne fun _ same => by cases same) misfit
  | uuid =>
    refine Codec.ofText_null (fun s same => ?_) misfit
    split at same <;> cases same
  | float64 => exact Codec.real_null misfit
  | float32 =>
    have narrowed : (Codec.real v).map Number.Binary64.narrow = .error (.mismatch expected .null) := misfit
    exact Codec.real_null (map_eq_error.1 narrowed)
  | bool | string | bytes =>
    cases v <;> first | rfl | cases misfit

theorem FieldType.null_of_mismatch (t : FieldType) (misfit : t.codec.decode v = .error (.mismatch expected .null)) :
    v = .null ∧ t.optional = false := by
  obtain ⟨scalar, _ | _⟩ := t
  · exact ⟨scalar.null_of_mismatch misfit, rfl⟩
  · cases v with
    | null => cases misfit
    | integer | real | text | blob =>
      have given : scalar.codec.decode _ = .error (.mismatch expected .null) := map_eq_error.1 misfit
      cases scalar.null_of_mismatch given

end Codecs

namespace Shape.Derived

variable {n : Nat} {s : Shape n} {key : List String} {d : Descriptor n} {values : List Value}

theorem nullable_eq (derived : s.Derived) (described : s.descriptorKeyedBy key = .ok d) {i : Nat} {column : Column}
    {t : FieldType} (here : d.table.columns[i]? = some column) (type : s.types[i]? = some t) :
    column.nullable = t.optional := by
  obtain ⟨name, own, declared, fields, rfl⟩ := derived
  obtain ⟨-, columns, -⟩ := Descriptor.resolve_eq_ok described
  rw [columns, List.getElem?_map, Option.map_eq_some_iff] at here
  obtain ⟨member, place, rfl⟩ := here
  rw [List.getElem?_map, Option.map_eq_some_iff] at type
  obtain ⟨field, stands, rfl⟩ := type
  obtain rfl : member = field := Option.some.inj (place.symm.trans stands)
  exact member.2.nullable_codec

theorem read_null {table : String} {column? : Option String} {expected : DataType} (derived : s.Derived)
    (described : s.descriptorKeyedBy key = .ok d)
    (misfit : d.table.read s.read values = .error (.field table column? (.mismatch expected .null))) :
    table = d.table.name ∧ ∃ (i : Nat) (column : Column), d.table.columns[i]? = some column ∧
      column? = some column.name ∧ column.nullable = false ∧ values[i]? = some Value.null := by
  rw [derived.reads.1] at misfit
  rcases Table.read_exact (derived.width_types described) values with
    ⟨-, failed⟩ | ⟨-, ⟨r, read, -⟩ | ⟨i, column, fault, here, refuses, -, failed⟩⟩
  · cases failed.symm.trans misfit
  · cases read.symm.trans misfit
  · cases failed.symm.trans misfit
    obtain ⟨t, value, type, stands, refused⟩ := refuses
    obtain ⟨rfl, strict⟩ := t.null_of_mismatch refused
    exact ⟨rfl, i, column, here, rfl, (derived.nullable_eq described here type).trans strict, stands⟩

end Shape.Derived

section Rows

variable {c : Content} {t : Table}

theorem Store.Content.Fills.cell_ne_null {name : String} (fills : c.Fills t.name name) {row : StoredRow}
    (stored : row ∈ (c.stored t).rows) : (c.cell t row name).value ≠ .null := by
  obtain ⟨own, i, found, index, filled⟩ := fills
  have same := stored_of_table? found
  have spot : (c.stored t).spot? name = some (.column i) := by
    rw [StoredTable.spot?, same, index]
  have value : (c.cell t row name).value = row.valueAt i := by
    rw [Content.cell, Placed.cell, Content.place, spot]
    rfl
  rw [value]
  exact filled row (same ▸ stored)

def Store.Content.Lacks (c : Content) (t : Table) (column? : Option String) : Prop :=
  ∃ column ∈ t.columns, column.nullable = false ∧ column? = some column.name ∧ ¬c.Fills t.name column.name

theorem Shape.Derived.lacks_of_misfit {n : Nat} {s : Shape n} {key : List String} {d : Descriptor n} {row : StoredRow}
    {table : String} {column? : Option String} {expected : DataType} (derived : s.Derived)
    (described : s.descriptorKeyedBy key = .ok d) (stored : row ∈ (c.stored d.table).rows)
    (misfit : d.table.read s.read (c.valuesOf d.table row) = .error (.field table column? (.mismatch expected .null))) :
    c.Lacks d.table column? := by
  obtain ⟨-, i, column, here, label, strict, null⟩ := derived.read_null described misfit
  refine ⟨column, List.mem_of_getElem? here, strict, label, fun fills => ?_⟩
  rw [Content.valuesOf, Table.columnNames, List.map_map, List.getElem?_map, here] at null
  exact fills.cell_ne_null stored (Option.some.inj null)

theorem mem_windowed {α : Type} {window : Option Sql.Window} {items : List α} {a : α}
    (member : a ∈ windowed window items) : a ∈ items := by
  unfold windowed at member
  split at member
  · exact member
  · simp only [] at member
    split at member
    · exact List.mem_of_mem_drop member
    · exact List.mem_of_mem_drop (List.mem_of_mem_take member)

theorem mem_select {p : Plan} {rows : Sql.Rows} {order : List Sql.OrderTerm} {window : Option Sql.Window}
    {row : List Value} (compiled : p.rows = .ok rows)
    (member : row ∈ Store.select c p.scope.columns rows order window) :
    ∃ k : Combination, k.Satisfies c p ∧ row = k.row c p := by
  obtain ⟨b, read, rfl⟩ := List.mem_map.1 member
  obtain ⟨k, satisfies, rfl⟩ := (mem_combinations compiled).1 (List.mem_mergeSort.1 (mem_windowed read))
  exact ⟨k, satisfies, Combination.values_row satisfies.linked⟩

end Rows

namespace Engine

variable {β : Type} {misfit : Misfit} {engine : Engine}

/-- A statement that only reads fails for a misfit only as it takes its command's rows. -/
theorem fold_misfit {command : Sql.Command} {take : β → List Value → Except Failure β} {start : β}
    (plain : isControl command = false) (reads : ∀ c, writes c command = false)
    (failed : ((fold command.statement take start).run engine).1 = .error (.decoding misfit)) :
    (rowsOf engine.store.content command).foldlM (takeRow take) start = .error (.decoding misfit) := by
  obtain ⟨same, asks⟩ := prepare_outline command.statement engine
  unfold fold at failed
  rw [run_bind] at failed
  rcases prepared : (prepare command.statement).run engine with ⟨failure | asked, ready⟩
  · rw [prepared] at failed
    have bad : failure = .decoding misfit := Except.error.inj failed
    exact (bad ▸ refuses_prepare _ _ _ (congrArg Prod.fst prepared)).elim
  · rw [prepared] at failed same asks
    obtain rfl := eq_of_asked (asks asked rfl)
    simp only [] at failed
    rw [run_bind] at failed
    have ran := run_outline (isPlain_statement plain).inside (asks _ rfl) ready
    rcases result : (run command.statement.sql command).run ready with ⟨failure | rows, after⟩
    · rw [result] at failed
      have bad : failure = .decoding misfit := Except.error.inj failed
      exact (bad ▸ refuses_acting _ _ _ _ _ (congrArg Prod.fst result)).elim
    · rw [result] at failed ran
      rcases ran with ⟨_, none, -⟩ | ⟨_, read, ended⟩
      · cases none
      · obtain rfl := Except.ok.inj read
        have all := ended.rows_eq reads
        rw [same, outline, ← State.content_eq] at all
        rw [← all]
        simp only [run_bind, fold.liftExcept] at failed
        rcases taken : rows.foldlM (takeRow take) start with failure | last
        · rw [taken] at failed
          exact failed
        · rw [taken] at failed
          cases failed

end Engine

section Selecting

variable {g : ShapeGraph} {s : Fin g.size} {q : Query g s} {db : Database} {misfit : Misfit}

namespace Hydration

variable {root : Table} {loaders : List (Loader g.size)} {groups : Seen Group}

theorem finish_misfit {rows : List (List Value)}
    (failed : (finish (s := s) ⟨root, loaders, groupsOf root loaders rows⟩) = .error misfit) :
    (∃ row ∈ rows, root.read (g.shape s).read (part row 0 root.width) = .error misfit) ∨
      ∃ l ∈ loaders, ∃ values, l.table.read (g.shape l.child).read values = .error misfit := by
  obtain ⟨entry, member, failed⟩ := mapM_eq_error failed
  obtain ⟨first, kept, rfl⟩ := List.mem_map.1 member
  rcases bind_eq_error failed with failed | ⟨l, -, failed⟩
  · exact .inl ⟨first, mem_of_mem_firsts _ kept, map_eq_error.1 failed⟩
  · obtain ⟨⟨loader, seen⟩, listed, l, failed⟩ := foldlM_eq_error failed
    rcases bind_eq_error failed with failed | ⟨_, -, none⟩
    · obtain ⟨values, -, failed⟩ := mapM_eq_error failed
      exact .inr ⟨loader, (List.of_mem_zip listed).1, values, failed⟩
    · cases none

end Hydration

namespace Database

theorem select_misfit (failed : ((select q).run db).1 = .error (.decoding misfit)) :
    ∃ rows order, q.plan.rows = .ok rows ∧
      ((if q.loaders.isEmpty then selectPlain q (Sql.Command.select q.plan.scope.columns rows order (windowOf q)).statement
        else selectJoined q (Sql.Command.select q.plan.scope.columns rows order (windowOf q)).statement).run db).1 =
        .error (.decoding misfit) := by
  rw [select, run_bind, run_known] at failed
  rcases made : q.selectStatement with failure | statement
  · rw [made] at failed
    have other : q.selectStatement ≠ .error (.decoding misfit) := mapError_ne fun _ same => by cases same
    exact absurd (made.trans (congrArg Except.error (Except.error.inj failed))) other
  · obtain ⟨rows, order, compiled, rfl⟩ := Query.selectStatement_eq_ok made
    rw [made] at failed
    exact ⟨rows, order, compiled, failed⟩

theorem select_plain_misfit (plain : q.loaders.isEmpty = true)
    (failed : ((select q).run db).1 = .error (.decoding misfit)) :
    ∃ rows order, q.plan.rows = .ok rows ∧
      ∃ row ∈ Store.select db.engine.store.content q.plan.scope.columns rows order (windowOf q),
        q.plan.root.read (g.shape s).read row = .error misfit := by
  obtain ⟨rows, order, compiled, failed⟩ := select_misfit failed
  rw [if_pos plain, selectPlain, run_onEngine] at failed
  have taken := Engine.fold_misfit rfl (fun _ => rfl) failed
  rw [rowsOf, Engine.foldlM_takeRow] at taken
  obtain ⟨row, member, records, failed⟩ := foldlM_eq_error taken
  refine ⟨rows, order, compiled, row, member, ?_⟩
  rcases bind_eq_error failed with failed | ⟨_, -, none⟩
  · rcases read : q.plan.root.read (g.shape s).read row with fault | record
    · simp only [Loaded.readOne, read] at failed
      cases failed
      rfl
    · simp only [Loaded.readOne, read] at failed
      cases failed
  · cases none

/-- A query with loaders fails for a misfit only at a root part of a row that its statement reads, or at a part that a
    loader has kept. -/
theorem select_joined_misfit (fits : q.Fits) (joined : q.loaders.isEmpty = false)
    (failed : ((select q).run db).1 = .error (.decoding misfit)) :
    ∃ rows order, q.plan.rows = .ok rows ∧
      ((∃ row ∈ Store.select db.engine.store.content q.plan.scope.columns rows order (windowOf q),
          q.plan.root.read (g.shape s).read (part row 0 q.plan.root.width) = .error misfit) ∨
        ∃ l ∈ q.loaders, ∃ values, l.table.read (g.shape l.child).read values = .error misfit) := by
  obtain ⟨rows, order, compiled, failed⟩ := select_misfit failed
  refine ⟨rows, order, compiled, ?_⟩
  have wide : ∀ row ∈ Store.select db.engine.store.content q.plan.scope.columns rows order (windowOf q),
      row.length = Hydration.widthFrom q.plan.root.width q.loaders := by
    intro row member
    obtain ⟨k, satisfies, rfl⟩ := mem_select compiled member
    exact (Combination.parts_row fits.loads satisfies.linked).1
  have folded := Hydration.foldlM_taking q.plan.root q.loaders _ [] wide
  rw [if_neg (by simp [joined]), selectJoined_taking, run_bind, run_onEngine] at failed
  rcases taken : ((Engine.fold (Sql.Command.select q.plan.scope.columns rows order (windowOf q)).statement
      Hydration.taking (Hydration.empty q.plan.root q.loaders)).run db.engine).1 with failure | hydration
  · rw [taken] at failed
    obtain rfl : failure = .decoding misfit := Except.error.inj failed
    have none := Engine.fold_misfit rfl (fun _ => rfl) taken
    rw [rowsOf, Engine.foldlM_takeRow] at none
    cases folded.symm.trans none
  · have all := Engine.fold_eq_ok rfl (fun _ => rfl) taken
    rw [rowsOf, Engine.foldlM_takeRow] at all
    obtain rfl := Except.ok.inj (folded.symm.trans all)
    rw [taken] at failed
    simp only [] at failed
    rw [run_bind, run_known] at failed
    rcases finished : Hydration.finish (s := s) ⟨q.plan.root, q.loaders, Hydration.groupsOf q.plan.root q.loaders
        ([] ++ Store.select db.engine.store.content q.plan.scope.columns rows order (windowOf q))⟩ with fault | records
    · rw [finished] at failed
      obtain rfl : fault = misfit := by cases failed; rfl
      exact Hydration.finish_misfit finished
    · rw [finished] at failed
      cases failed

/-- A query fails for a null in a field of its root only if the field is not optional and its column has one. -/
theorem select_lacks (built : q.Built) (derived : ∀ i, (g.shape i).Derived) {column? : Option String} {expected : DataType}
    (failed : ((select q).run db).1 =
      .error (.decoding (.field q.plan.root.name column? (.mismatch expected .null)))) :
    db.engine.store.content.Lacks q.plan.root column? := by
  have fits := built.fits
  obtain ⟨key, d, described, root⟩ := fits.root
  have own : ∀ k : Combination, k.Satisfies db.engine.store.content q.plan →
      q.plan.root.read (g.shape s).read (part (k.row db.engine.store.content q.plan) 0 q.plan.root.width) =
        .error (.field q.plan.root.name column? (.mismatch expected .null)) →
      db.engine.store.content.Lacks q.plan.root column? := by
    intro k satisfies misread
    rw [(Combination.parts_row fits.loads satisfies.linked).2.1] at misread
    have stored := satisfies.root
    rw [root] at stored misread ⊢
    exact (derived s).lacks_of_misfit described stored misread
  cases plain : q.loaders.isEmpty with
  | true =>
    obtain ⟨rows, order, compiled, row, member, misread⟩ := select_plain_misfit plain failed
    obtain ⟨k, satisfies, rfl⟩ := mem_select compiled member
    have width := (Combination.parts_row fits.loads satisfies.linked).1
    rw [List.isEmpty_iff.1 plain, Hydration.widthFrom] at width
    have whole : part (k.row db.engine.store.content q.plan) 0 q.plan.root.width =
        k.row db.engine.store.content q.plan := by
      rw [part, List.drop_zero, List.take_of_length_le (Nat.le_of_eq width)]
    exact own k satisfies (whole.symm ▸ misread)
  | false =>
    obtain ⟨rows, order, compiled, ⟨row, member, misread⟩ | ⟨l, listed, values, misread⟩⟩ :=
      select_joined_misfit fits plain failed
    · obtain ⟨k, satisfies, rfl⟩ := mem_select compiled member
      exact own k satisfies misread
    · -- The part of a related table would be blamed on that table, which is another one.
      obtain ⟨d', described', table⟩ := (fits.known l listed).described
      rw [table] at misread
      have named := ((derived l.child).read_null described' misread).1
      rw [← table] at named
      exact absurd named (fits.root_apart listed)

end Database

end Selecting

end RecordMapper
