import RecordMapper.Hydration
import RecordMapper.Proofs.Query.Retrieval

namespace RecordMapper

namespace Shape

variable {n : Nat} {s : Shape n} {key : List String} {d : Descriptor n}

abbrev types (s : Shape n) : List FieldType :=
  s.members.map Prod.snd

theorem Derived.reads (derived : s.Derived) :
    s.read = Reader.record s.types ∧ s.write = RecordMapper.Record.values s.types := by
  obtain ⟨name, table, key, fields, rfl⟩ := derived
  exact ⟨rfl, rfl⟩

theorem Derived.width_types (derived : s.Derived) (described : s.descriptorKeyedBy key = .ok d) :
    d.table.width = s.types.length := by
  obtain ⟨name, table, own, fields, rfl⟩ := derived
  rw [Table.width, (Descriptor.resolve_eq_ok described).2.1, List.length_map, List.length_map]
  rfl

end Shape

namespace Loaded

variable {g : ShapeGraph} {s : Fin g.size} {key : List String} {d : Descriptor g.size} {values : List Value}

theorem readOne_exact (derived : (g.shape s).Derived) (described : (g.shape s).descriptorKeyedBy key = .ok d)
    (values : List Value) :
    values.length ≠ d.table.width ∧
        readOne g s d.table values = .error (.width d.table.name d.table.width values.length) ∨
      values.length = d.table.width ∧
        ((∃ r, readOne g s d.table values = .ok (unrelated r) ∧ Record.ReadAt (g.shape s).types values r) ∨
          ∃ i column fault, d.table.columns[i]? = some column ∧ RefusesAt (g.shape s).types values i fault ∧
            (∀ j < i, AcceptsAt (g.shape s).types values j) ∧
            readOne g s d.table values = .error (.field d.table.name (some column.name) fault)) := by
  rw [readOne, derived.reads.1]
  rcases Table.read_exact (derived.width_types described) values with
    ⟨other, failed⟩ | ⟨whole, ⟨r, read, fields⟩ | ⟨i, column, fault, here, refuses, before, failed⟩⟩
  · exact .inl ⟨other, by rw [failed]; rfl⟩
  · exact .inr ⟨whole, .inl ⟨r, by rw [read]; rfl, fields⟩⟩
  · exact .inr ⟨whole, .inr ⟨i, column, fault, here, refuses, before, by rw [failed]; rfl⟩⟩

theorem readOne_eq_ok_iff (derived : (g.shape s).Derived) (described : (g.shape s).descriptorKeyedBy key = .ok d)
    {loaded : Loaded g s} : readOne g s d.table values = .ok loaded ↔
      values.length = d.table.width ∧ loaded.relations = [] ∧
        Record.ReadAt (g.shape s).types values loaded.record := by
  rcases readOne_exact derived described values with
    ⟨other, failed⟩ | ⟨whole, ⟨r, read, fields⟩ | ⟨i, column, fault, here, refuses, before, failed⟩⟩
  · rw [failed]
    exact ⟨nofun, fun given => absurd given.1 other⟩
  · rw [read]
    constructor
    · rintro ⟨⟩
      exact ⟨whole, rfl, fields⟩
    · rintro ⟨-, none, read'⟩
      obtain ⟨record, relations⟩ := loaded
      obtain rfl : relations = [] := none
      rw [unrelated, fields.unique read']
  · rw [failed]
    exact ⟨nofun, fun given => absurd (given.2.2.acceptsAt refuses.lt_length) refuses.not_acceptsAt⟩

theorem readOne_isOk_iff (derived : (g.shape s).Derived) (described : (g.shape s).descriptorKeyedBy key = .ok d) :
    (∃ loaded, readOne g s d.table values = .ok loaded) ↔
      values.length = d.table.width ∧ ∀ i < d.table.width, AcceptsAt (g.shape s).types values i := by
  have wide := derived.width_types described
  constructor
  · rintro ⟨loaded, read⟩
    obtain ⟨whole, -, fields⟩ := (readOne_eq_ok_iff derived described).1 read
    exact ⟨whole, fun i bound => fields.acceptsAt (wide ▸ bound)⟩
  · rintro ⟨whole, accepts⟩
    rcases readOne_exact derived described values with
      ⟨other, -⟩ | ⟨-, ⟨r, read, -⟩ | ⟨i, column, fault, -, refuses, -⟩⟩
    · exact absurd whole other
    · exact ⟨_, read⟩
    · exact absurd (accepts i (wide ▸ refuses.lt_length)) refuses.not_acceptsAt

theorem readOne_eq_error_iff (derived : (g.shape s).Derived) (described : (g.shape s).descriptorKeyedBy key = .ok d)
    {misfit : Misfit} : readOne g s d.table values = .error misfit ↔
      values.length ≠ d.table.width ∧ misfit = .width d.table.name d.table.width values.length ∨
        values.length = d.table.width ∧ ∃ i column fault, d.table.columns[i]? = some column ∧
          RefusesAt (g.shape s).types values i fault ∧ (∀ j < i, AcceptsAt (g.shape s).types values j) ∧
          misfit = .field d.table.name (some column.name) fault := by
  rcases readOne_exact derived described values with
    ⟨other, failed⟩ | ⟨whole, ⟨r, read, fields⟩ | ⟨i, column, fault, here, refuses, before, failed⟩⟩
  · rw [failed, Except.error.injEq, eq_comm]
    exact ⟨fun same => .inl ⟨other, same⟩, fun given => given.elim And.right fun given => absurd given.1 other⟩
  · rw [read]
    refine ⟨nofun, ?_⟩
    rintro (⟨other, -⟩ | ⟨-, i, column, fault, -, refuses, -⟩)
    · exact absurd whole other
    · exact absurd (fields.acceptsAt refuses.lt_length) refuses.not_acceptsAt
  · rw [failed, Except.error.injEq, eq_comm]
    constructor
    · intro same
      exact .inr ⟨whole, i, column, fault, here, refuses, before, same⟩
    · rintro (⟨other, -⟩ | ⟨-, i', column', fault', here', refuses', before', rfl⟩)
      · exact absurd whole other
      · obtain ⟨rfl, rfl⟩ := refuses.first_unique before refuses' before'
        obtain rfl := Option.some.inj (here.symm.trans here')
        rfl

/-- A row is read for a shape exactly if it has one value for each column and each column's codec takes the value at
    its position. The record then has at each position what the codec makes of the value there, so the row of a record
    gives the record back. Any other row fails for its width, or at the first position that refuses its value. -/
theorem readOne_positional (g : ShapeGraph) (s : Fin g.size) (derived : (g.shape s).Derived) (key : List String)
    (d : Descriptor g.size) (described : (g.shape s).descriptorKeyedBy key = .ok d) :
    (∀ record : (g.shape s).Record, Record.Faithful (g.shape s).types record →
        readOne g s d.table ((g.shape s).write record) = .ok (unrelated record)) ∧
      ∀ values,
        (∀ loaded : Loaded g s, readOne g s d.table values = .ok loaded ↔
          values.length = d.table.width ∧ loaded.relations = [] ∧
            Record.ReadAt (g.shape s).types values loaded.record) ∧
        ((∃ loaded, readOne g s d.table values = .ok loaded) ↔
          values.length = d.table.width ∧ ∀ i < d.table.width, AcceptsAt (g.shape s).types values i) ∧
        ∀ misfit, readOne g s d.table values = .error misfit ↔
          values.length ≠ d.table.width ∧ misfit = .width d.table.name d.table.width values.length ∨
            values.length = d.table.width ∧ ∃ i column fault, d.table.columns[i]? = some column ∧
              RefusesAt (g.shape s).types values i fault ∧ (∀ j < i, AcceptsAt (g.shape s).types values j) ∧
              misfit = .field d.table.name (some column.name) fault := by
  refine ⟨fun record faithful => ?_, fun values => ⟨fun loaded => ?_, ?_, fun misfit => ?_⟩⟩
  · rw [derived.reads.2]
    have whole := Record.length_values (g.shape s).types record
    exact (readOne_eq_ok_iff derived described).2
      ⟨whole.trans (derived.width_types described).symm, rfl, Record.readAt_values faithful⟩
  · exact readOne_eq_ok_iff derived described
  · exact readOne_isOk_iff derived described
  · exact readOne_eq_error_iff derived described

theorem readOne_positional_readings :
    (logbook.shape readings).Derived ∧
      (logbook.shape readings).descriptorKeyedBy ["sensor", "number"] = .ok ⟨readingTable, []⟩ ∧
      readOne logbook readings readingTable ((logbook.shape readings).write zeroReading) =
        .ok (unrelated zeroReading) ∧
      readOne logbook readings readingTable [.text "roof", .null, .null] =
        .error (.field "reading" (some "number") (.mismatch .integer .null)) := by
  have derived : (logbook.shape readings).Derived := ⟨_, _, _, _, rfl⟩
  have described : (logbook.shape readings).descriptorKeyedBy ["sensor", "number"] = .ok ⟨readingTable, []⟩ := rfl
  obtain ⟨inverse, reads⟩ := readOne_positional logbook readings derived _ _ described
  have faithful : Record.Faithful (logbook.shape readings).types zeroReading := ⟨rfl, rfl, rfl, trivial⟩
  have sensor : AcceptsAt (logbook.shape readings).types [.text "roof", .null, .null] 0 :=
    ⟨_, _, _, rfl, rfl, rfl⟩
  have number : RefusesAt (logbook.shape readings).types [.text "roof", .null, .null] 1 (.mismatch .integer .null) :=
    ⟨_, _, rfl, rfl, rfl⟩
  refine ⟨derived, described, inverse zeroReading faithful, ?_⟩
  refine ((reads [.text "roof", .null, .null]).2.2 _).2 (.inr ⟨rfl, 1, _, _, rfl, number, ?_, rfl⟩)
  intro j before
  obtain rfl : j = 0 := by omega
  exact sensor

end Loaded

end RecordMapper
