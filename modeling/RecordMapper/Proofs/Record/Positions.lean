import Mathlib.Data.List.Forall2
import RecordMapper.Record

namespace RecordMapper

section Positions

def Record.field : (types : List FieldType) → Record types → (i : Fin types.length) → (types.get i).Carrier
  | _ :: _, (field, _), ⟨0, _⟩ => field
  | _ :: types, (_, rest), ⟨i + 1, bound⟩ => Record.field types rest ⟨i, Nat.lt_of_succ_lt_succ bound⟩

theorem Record.ext_field {types : List FieldType} {r r' : Record types}
    (same : ∀ i, r.field types i = r'.field types i) : r = r' := by
  induction types with
  | nil => rfl
  | cons t types ih =>
    obtain ⟨field, rest⟩ := r
    obtain ⟨field', rest'⟩ := r'
    have first : field = field' := same ⟨0, Nat.zero_lt_succ _⟩
    have others : rest = rest' := ih fun i => same i.succ
    rw [first, others]

/-- Each field is what its type makes of the value at its position. -/
def Record.ReadAt (types : List FieldType) (values : List Value) (r : Record types) : Prop :=
  ∀ i : Fin types.length, ∃ value, values[i.val]? = some value ∧
    (types.get i).codec.decode value = .ok (r.field types i)

def AcceptsAt (types : List FieldType) (values : List Value) (i : Nat) : Prop :=
  ∃ t value a, types[i]? = some t ∧ values[i]? = some value ∧ t.codec.decode value = .ok a

def RefusesAt (types : List FieldType) (values : List Value) (i : Nat) (fault : CodecFault) : Prop :=
  ∃ t value, types[i]? = some t ∧ values[i]? = some value ∧ t.codec.decode value = .error fault

variable {t : FieldType} {types : List FieldType} {value : Value} {values : List Value}

theorem Record.readAt_cons {field : t.Carrier} {rest : Record types} :
    Record.ReadAt (t :: types) (value :: values) (field, rest) ↔
      t.codec.decode value = .ok field ∧ Record.ReadAt types values rest := by
  constructor
  · intro read
    obtain ⟨first, here, decoded⟩ := read ⟨0, Nat.zero_lt_succ _⟩
    cases here
    exact ⟨decoded, fun i => read i.succ⟩
  · rintro ⟨decoded, read⟩ ⟨i, bound⟩
    cases i with
    | zero => exact ⟨value, rfl, decoded⟩
    | succ i => exact read ⟨i, Nat.lt_of_succ_lt_succ bound⟩

theorem Record.readAt_values {r : Record types} (faithful : r.Faithful types) :
    Record.ReadAt types (r.values types) r := by
  induction types with
  | nil => exact fun i => i.elim0
  | cons t types ih =>
    obtain ⟨field, rest⟩ := r
    exact Record.readAt_cons.2 ⟨faithful.1, ih faithful.2⟩

theorem Record.ReadAt.unique {r r' : Record types} (read : r.ReadAt types values) (read' : r'.ReadAt types values) :
    r = r' := by
  refine Record.ext_field fun i => ?_
  obtain ⟨value, here, decoded⟩ := read i
  obtain ⟨value', here', decoded'⟩ := read' i
  obtain rfl := Option.some.inj (here.symm.trans here')
  exact Except.ok.inj (decoded.symm.trans decoded')

theorem Record.ReadAt.acceptsAt {r : Record types} (read : r.ReadAt types values) {i : Nat} (bound : i < types.length) :
    AcceptsAt types values i := by
  obtain ⟨value, here, decoded⟩ := read ⟨i, bound⟩
  exact ⟨types[i], value, _, List.getElem?_eq_getElem bound, here, decoded⟩

theorem Record.ReadAt.decodes {r : Record types} (read : r.ReadAt types values) (whole : values.length = types.length) :
    List.Forall₂ (fun (t : FieldType) value => ∃ a, t.codec.decode value = .ok a) types values := by
  induction types generalizing values with
  | nil => rw [List.length_eq_zero_iff.1 whole]; exact .nil
  | cons t types ih =>
    obtain ⟨value, values, rfl⟩ := List.exists_cons_of_length_eq_add_one whole
    obtain ⟨field, rest⟩ := r
    obtain ⟨decoded, others⟩ := Record.readAt_cons.1 read
    exact .cons ⟨field, decoded⟩ (ih others (Nat.succ.inj whole))

theorem RefusesAt.lt_length {i : Nat} {fault : CodecFault} (refuses : RefusesAt types values i fault) : i < types.length := by
  obtain ⟨t, value, type, -⟩ := refuses
  exact (List.getElem?_eq_some_iff.1 type).1

theorem RefusesAt.not_acceptsAt {i : Nat} {fault : CodecFault} (refuses : RefusesAt types values i fault) :
    ¬AcceptsAt types values i := by
  rintro ⟨t, value, a, type, here, decoded⟩
  obtain ⟨t', value', type', here', refused⟩ := refuses
  obtain rfl := Option.some.inj (type.symm.trans type')
  obtain rfl := Option.some.inj (here.symm.trans here')
  rw [decoded] at refused
  cases refused

theorem RefusesAt.first_unique {i i' : Nat} {fault fault' : CodecFault} (refuses : RefusesAt types values i fault)
    (before : ∀ j < i, AcceptsAt types values j) (refuses' : RefusesAt types values i' fault')
    (before' : ∀ j < i', AcceptsAt types values j) : i = i' ∧ fault = fault' := by
  have place : i = i' := by
    rcases Nat.lt_trichotomy i i' with earlier | same | later
    · exact absurd (before' i earlier) refuses.not_acceptsAt
    · exact same
    · exact absurd (before i' later) refuses'.not_acceptsAt
  subst place
  obtain ⟨t, value, type, here, refused⟩ := refuses
  obtain ⟨t', value', type', here', refused'⟩ := refuses'
  obtain rfl := Option.some.inj (type.symm.trans type')
  obtain rfl := Option.some.inj (here.symm.trans here')
  exact ⟨rfl, Except.error.inj (refused.symm.trans refused')⟩

end Positions

section Readers

def Cursor.after (cursor : Cursor) (count : Nat) : Cursor :=
  ⟨cursor.table, cursor.columns.drop count, cursor.values.drop count, cursor.position + count⟩

variable {types : List FieldType} {cursor : Cursor}

theorem Reader.next_cons {α : Type} {codec : Codec α} {value : Value} {values : List Value}
    (here : cursor.values = value :: values) : Reader.next codec cursor =
      match codec.decode value with
      | .error fault => .error (.field cursor.table cursor.columns[0]? fault)
      | .ok a => .ok (a, cursor.after 1) := by
  cases decoded : codec.decode value with
  | error fault => simp only [Reader.next, here, decoded, List.head?_eq_getElem?]
  | ok a => simp only [Reader.next, here, decoded, Cursor.after, List.drop_one, List.tail_cons]

theorem Reader.record_cons {t : FieldType} {between : Cursor} {field : t.Carrier}
    (first : Reader.next t.codec cursor = .ok (field, between)) :
    Reader.record (t :: types) cursor = (Reader.record types between).map fun rest => ((field, rest.1), rest.2) := by
  simp only [Reader.record, bind, StateT.bind, Except.bind, first]
  cases Reader.record types between <;> rfl

theorem Cursor.after_after (cursor : Cursor) (first more : Nat) :
    (cursor.after first).after more = cursor.after (more + first) := by
  simp only [Cursor.after, List.drop_drop, Nat.add_assoc, Nat.add_comm first more]

/-- Reading a record takes as many values as it has fields, each at its position, or ends at the first position that
    refuses its value. -/
theorem Reader.record_exact (types : List FieldType) (cursor : Cursor) (enough : types.length ≤ cursor.values.length) :
    (∃ r, Reader.record types cursor = .ok (r, cursor.after types.length) ∧ Record.ReadAt types cursor.values r) ∨
      ∃ i fault, RefusesAt types cursor.values i fault ∧ (∀ j < i, AcceptsAt types cursor.values j) ∧
        Reader.record types cursor = .error (.field cursor.table cursor.columns[i]? fault) := by
  -- the cursor behind the first value is where the positions of the others are counted from
  induction types generalizing cursor with
  | nil => exact .inl ⟨(), rfl, fun i => i.elim0⟩
  | cons t types ih =>
    obtain ⟨value, values, here⟩ := List.exists_cons_of_length_pos (Nat.lt_of_lt_of_le (Nat.zero_lt_succ _) enough)
    have first := @Reader.next_cons cursor _ t.codec _ _ here
    rcases decoded : t.codec.decode value with fault | field
    · rw [decoded] at first
      refine .inr ⟨0, fault, ⟨t, value, rfl, by rw [here]; rfl, decoded⟩, fun j before => absurd before (Nat.not_lt_zero j), ?_⟩
      simp [Reader.record, bind, StateT.bind, Except.bind, first]
    · rw [decoded] at first
      have left : (cursor.after 1).values = values := by rw [Cursor.after, here]; rfl
      have rest : types.length ≤ (cursor.after 1).values.length := by
        rw [here] at enough
        rw [left]
        exact Nat.le_of_succ_le_succ enough
      rcases ih (cursor.after 1) rest with ⟨r, read, fields⟩ | ⟨i, fault, refuses, before, failed⟩
      · refine .inl ⟨(field, r), ?_, ?_⟩
        · rw [Reader.record_cons first, read, Cursor.after_after]
          rfl
        · rw [left] at fields
          rw [here]
          exact Record.readAt_cons.2 ⟨decoded, fields⟩
      · rw [left] at refuses before
        refine .inr ⟨i + 1, fault, ?_, ?_, ?_⟩
        · rw [here]
          exact refuses
        · rintro (_ | j) earlier
          · exact ⟨t, value, field, rfl, by rw [here]; rfl, decoded⟩
          · rw [here]
            exact before j (Nat.lt_of_succ_lt_succ earlier)
        · have column : (cursor.after 1).columns[i]? = cursor.columns[i + 1]? := by
            rw [Cursor.after, List.drop_one, List.getElem?_tail]
          rw [Reader.record_cons first, failed, column]
          rfl

theorem Table.length_of_read {α : Type} {t : Table} {reader : Reader α} {values : List Value} {a : α}
    (read : t.read reader values = .ok a) : values.length = t.width := by
  by_contra other
  rw [Table.read, if_pos other] at read
  cases read

theorem Table.read_exact {t : Table} (wide : t.width = types.length) (values : List Value) :
    values.length ≠ t.width ∧ t.read (Reader.record types) values = .error (.width t.name t.width values.length) ∨
      values.length = t.width ∧
        ((∃ r, t.read (Reader.record types) values = .ok r ∧ Record.ReadAt types values r) ∨
          ∃ i column fault, t.columns[i]? = some column ∧ RefusesAt types values i fault ∧
            (∀ j < i, AcceptsAt types values j) ∧
            t.read (Reader.record types) values = .error (.field t.name (some column.name) fault)) := by
  by_cases whole : values.length = t.width
  · refine .inr ⟨whole, ?_⟩
    rw [Table.read, if_neg (not_not_intro whole)]
    rcases Reader.record_exact types ⟨t.name, t.columnNames, values, 0⟩ (Nat.le_of_eq (whole.trans wide).symm) with
      ⟨r, read, fields⟩ | ⟨i, fault, refuses, before, failed⟩
    · have none : (values.drop types.length).length = 0 := by rw [List.length_drop, whole, wide, Nat.sub_self]
      refine .inl ⟨r, ?_, fields⟩
      rw [read]
      simp only [Cursor.after, none]
    · have bound : i < t.columns.length := Nat.lt_of_lt_of_eq refuses.lt_length wide.symm
      refine .inr ⟨i, t.columns[i], fault, List.getElem?_eq_getElem bound, refuses, before, ?_⟩
      have column : t.columnNames[i]? = some t.columns[i].name := by
        rw [Table.columnNames, List.getElem?_map, List.getElem?_eq_getElem bound, Option.map_some]
      rw [failed, column]
  · refine .inl ⟨whole, ?_⟩
    rw [Table.read, if_pos whole]

end Readers

end RecordMapper
