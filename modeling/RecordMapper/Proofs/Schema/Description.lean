import Mathlib.Data.List.Nodup
import RecordMapper.Proofs.Outcome
import RecordMapper.Shape

namespace RecordMapper

theorem map_positions {α : Type} (entries : List α) (test : α → Bool) :
    ((List.range entries.length).filter fun i => (entries[i]?.map test).getD false).map (entries[·]?) =
      (entries.filter test).map some := by
  induction entries with
  | nil => rfl
  | cons a entries ih =>
    rw [List.length_cons, List.range_succ_eq_map, List.filter_cons, List.filter_map]
    have later : (fun i => (((a :: entries)[i]?).map test).getD false) ∘ Nat.succ =
        fun i => (entries[i]?.map test).getD false := by
      funext i
      rfl
    rw [later]
    by_cases holds : test a = true
    · rw [if_pos (by simpa using holds), List.filter_cons_of_pos holds, List.map_cons, List.map_map, List.map_cons]
      exact congrArg (some a :: ·) ih
    · rw [if_neg (by simpa using holds), List.filter_cons_of_neg holds, List.map_map]
      exact ih

namespace Table

variable {t : Table} {name : String} {i : Nat}

theorem columnIndex?_eq_some_iff : t.columnIndex? name = some i ↔ t.columnNames[i]? = some name := by
  rw [columnIndex?, columnNames, List.findIdx?_eq_some_iff_getElem, List.getElem?_map, Option.map_eq_some_iff]
  constructor
  · rintro ⟨bound, same, -⟩
    exact ⟨t.columns[i], List.getElem?_eq_getElem bound, eq_of_beq same⟩
  · rintro ⟨column, found, rfl⟩
    obtain ⟨bound, rfl⟩ := List.getElem?_eq_some_iff.1 found
    refine ⟨bound, beq_self_eq_true _, ?_⟩
    intro j before same
    have names : (t.columns.map Column.name)[j]? = (t.columns.map Column.name)[i]? := by
      rw [List.getElem?_map, List.getElem?_map, List.getElem?_eq_getElem bound,
        List.getElem?_eq_getElem (Nat.lt_trans before bound)]
      exact congrArg some (eq_of_beq same)
    have equal : j = i := (List.getElem?_inj (by simpa using Nat.lt_trans before bound) t.distinct).1 names
    omega

theorem hasColumn_iff_columnIndex? : t.hasColumn name = true ↔ ∃ i, t.columnIndex? name = some i := by
  rw [hasColumn_iff, List.mem_iff_getElem?]
  exact exists_congr fun i => columnIndex?_eq_some_iff.symm

theorem mem_keyPositions : i ∈ t.keyPositions ↔ ∃ column, t.columns[i]? = some column ∧ column.key = true := by
  rw [keyPositions, List.mem_filter, List.mem_range]
  constructor
  · rintro ⟨bound, flagged⟩
    rw [List.getElem?_eq_getElem bound] at flagged
    exact ⟨_, List.getElem?_eq_getElem bound, flagged⟩
  · rintro ⟨column, found, flagged⟩
    refine ⟨(List.getElem?_eq_some_iff.1 found).1, ?_⟩
    rw [found]
    exact flagged

theorem sorted_keyPositions (t : Table) : t.keyPositions.Pairwise (· < ·) :=
  List.pairwise_lt_range.filter _

theorem keyPositions_isEmpty (t : Table) : t.keyPositions.isEmpty = t.keyColumns.isEmpty := by
  have positions := congrArg List.isEmpty (map_positions t.columns Column.key)
  rwa [List.isEmpty_map, List.isEmpty_map] at positions

theorem keyNames_eq (t : Table) : t.keyNames = t.keyPositions.filterMap (t.columnNames[·]?) := by
  have picked : ∀ i : Nat, t.columnNames[i]? = t.columns[i]?.map Column.name := fun i => List.getElem?_map
  have positions : t.keyPositions.map (t.columns[·]?) = t.keyColumns.map some := map_positions t.columns Column.key
  calc t.keyNames
      = (t.keyPositions.map (t.columns[·]?)).filterMap (Option.map Column.name) := by
        rw [positions, List.filterMap_map]
        exact (congrFun List.filterMap_eq_map t.keyColumns).symm
    _ = t.keyPositions.filterMap (t.columnNames[·]?) := by
        rw [List.filterMap_map]
        exact List.filterMap_congr fun i _ => (picked i).symm

theorem length_keyPositions (t : Table) : t.keyPositions.length = t.keyColumns.length := by
  have positions := congrArg List.length (map_positions t.columns Column.key)
  rwa [List.length_map, List.length_map] at positions

theorem make_eq_ok {columns : List Column} (made : make name columns = .ok t) :
    t.name = name ∧ t.columns = columns := by
  unfold make at made
  split at made
  · cases made
  · cases made
    exact ⟨rfl, rfl⟩

end Table

namespace Field

variable {n : Nat}

def columnNames (fields : List (Field n)) : List String :=
  (fields.filterMap column?).map Prod.fst

theorem columnNames_sublist (fields : List (Field n)) : (columnNames fields).Sublist (fields.map name) := by
  induction fields with
  | nil => exact List.Sublist.refl _
  | cons f fields ih =>
    rw [columnNames, List.filterMap_cons, List.map_cons]
    unfold column?
    split
    · exact ih.cons _
    · rename_i kept
      split at kept
      · cases kept
        exact ih.cons_cons _
      · cases kept

theorem firstRefused?_eq_none_iff {seen : List String} {fields : List (Field n)} :
    firstRefused? seen fields = none ↔
      (fields.map name).Nodup ∧ (∀ f ∈ fields, f.name ∉ seen) ∧ ∀ f ∈ fields, ∀ type, f.kind ≠ .embedded type := by
  induction fields generalizing seen with
  | nil => simp [firstRefused?]
  | cons f fields ih =>
    rw [firstRefused?]
    by_cases member : f.name ∈ seen
    · simp [member]
    · rw [if_neg member]
      cases kind : f.kind with
      | embedded type => simp [kind]
      | column | toMany =>
        simp only [ih, List.map_cons, List.nodup_cons, List.mem_map, List.mem_cons, not_or, forall_eq_or_imp]
        constructor
        · rintro ⟨distinct, apart, whole⟩
          refine ⟨⟨?_, distinct⟩, ⟨member, fun g later => (apart g later).2⟩, by simp [kind], whole⟩
          rintro ⟨g, later, same⟩
          exact (apart g later).1 same
        · rintro ⟨⟨new, distinct⟩, ⟨-, apart⟩, -, whole⟩
          exact ⟨distinct, fun g later => ⟨fun same => new ⟨g, later, same⟩, apart g later⟩, whole⟩

/-- A reason, at the name of a field or of a key, why no table keeps the fields. -/
inductive Refuses (fields : List (Field n)) (key : List String) : String → FieldRefusal → Prop where
  | repeated {name : String} (twice : 1 < (fields.map Field.name).count name) : Refuses fields key name .duplicateField
  | embedded {f : Field n} {type : String} (member : f ∈ fields) (kind : f.kind = .embedded type) :
      Refuses fields key f.name (.embedded type)
  | noColumn {name : String} (asked : name ∈ key) (absent : name ∉ columnNames fields) :
      Refuses fields key name .keyIsNoColumn

theorem refuses_firstRefused? {seen : List String} {fields : List (Field n)} {name : String} {refusal : FieldRefusal}
    (refused : firstRefused? seen fields = some (name, refusal)) :
    (refusal = .duplicateField ∧ 1 < (seen ++ fields.map Field.name).count name) ∨
      ∃ f ∈ fields, f.name = name ∧ ∃ type, f.kind = .embedded type ∧ refusal = .embedded type := by
  induction fields generalizing seen with
  | nil => cases refused
  | cons f fields ih =>
    rw [firstRefused?] at refused
    by_cases member : f.name ∈ seen
    · rw [if_pos member] at refused
      cases refused
      have before : 0 < seen.count f.name := List.count_pos_iff.2 member
      refine .inl ⟨rfl, ?_⟩
      rw [List.count_append, List.map_cons, List.count_cons_self]
      omega
    · rw [if_neg member] at refused
      cases kind : f.kind with
      | embedded type =>
        rw [kind] at refused
        cases refused
        exact .inr ⟨f, List.mem_cons_self, rfl, type, kind, rfl⟩
      | column | toMany =>
        rw [kind] at refused
        rcases ih refused with ⟨rfl, twice⟩ | ⟨g, later, other⟩
        · refine .inl ⟨rfl, ?_⟩
          rwa [List.map_cons, (List.perm_middle).count_eq]
        · exact .inr ⟨g, List.mem_cons_of_mem _ later, other⟩

end Field

namespace Descriptor

variable {n : Nat} {table : String} {fields : List (Field n)} {key : List String} {d : Descriptor n}

theorem resolve_eq_ok (resolved : resolve table fields key = .ok d) :
    d.table.name = table ∧
      d.table.columns = (fields.filterMap Field.column?).map
        (column (keyNames (fields.filterMap Field.column?) key)) ∧
      d.relations = fields.filterMap Field.relation? := by
  unfold resolve at resolved
  split at resolved
  · cases resolved
  · simp only [] at resolved
    split at resolved
    · cases resolved
    · simp only [bind_eq_ok, pure_eq_ok] at resolved
      obtain ⟨made, making, rfl⟩ := resolved
      obtain ⟨name, columns⟩ := Table.make_eq_ok making
      exact ⟨name, columns, rfl⟩

/-- Two fields share a name, a field is embedded, or a name of the key is not that of a column. -/
def Undescribed (fields : List (Field n)) (key : List String) : Prop :=
  ¬(fields.map Field.name).Nodup ∨ (∃ f ∈ fields, ∃ type, f.kind = .embedded type) ∨
    ∃ name ∈ key, name ∉ Field.columnNames fields

/-- What a descriptor says of a field list. An empty key stands for the column `id`. -/
structure Describes (d : Descriptor n) (table : String) (fields : List (Field n)) (key : List String) : Prop where
  name : d.table.name = table
  columns : d.table.columns.map (fun c => (c.name, c.dataType, c.nullable)) =
    (fields.filterMap Field.column?).map fun f => (f.1, f.2.codec.dataType, f.2.codec.nullable)
  relations : d.relations = fields.filterMap Field.relation?
  position : ∀ name i, d.table.columnIndex? name = some i ↔ d.table.columnNames[i]? = some name
  has : ∀ name, d.table.hasColumn name = true ↔ ∃ i, d.table.columnIndex? name = some i
  sorted : d.table.keyPositions.Pairwise (· < ·)
  keyed : ∀ i, i ∈ d.table.keyPositions ↔
    ∃ name, d.table.columnNames[i]? = some name ∧ if key = [] then name = "id" else name ∈ key
  flagged : ∀ i, i ∈ d.table.keyPositions ↔ ∃ column, d.table.columns[i]? = some column ∧ column.key = true

theorem undescribed_of_refuses {name : String} {refusal : FieldRefusal}
    (refuses : Field.Refuses fields key name refusal) : Undescribed fields key := by
  cases refuses with
  | repeated twice =>
    refine .inl fun distinct => ?_
    have once := List.nodup_iff_count_le_one.1 distinct name
    omega
  | embedded member kind => exact .inr (.inl ⟨_, member, _, kind⟩)
  | noColumn asked absent => exact .inr (.inr ⟨_, asked, absent⟩)

theorem mem_keyNames {columns : List (String × FieldType)} {name : String} (listed : name ∈ columns.map Prod.fst) :
    name ∈ keyNames columns key ↔ if key = [] then name = "id" else name ∈ key := by
  rw [keyNames]
  cases key with
  | nil => simp only [List.isEmpty_nil, if_true, List.mem_filter, listed, true_and, beq_iff_eq]
  | cons => simp

theorem keyNames_absent {columns : List (String × FieldType)} {name : String} (member : name ∈ keyNames columns key)
    (absent : name ∉ columns.map Prod.fst) : name ∈ key := by
  rw [keyNames] at member
  split at member
  · exact absurd (List.mem_filter.1 member).1 absent
  · exact member

theorem find?_keyNames_eq_none {columns : List (String × FieldType)}
    (all : ((keyNames columns key).find? fun k => !(columns.map Prod.fst).contains k) = none) :
    ∀ name ∈ key, name ∈ columns.map Prod.fst := by
  intro name asked
  have listed : name ∈ keyNames columns key := by
    rw [keyNames, if_neg (by simpa using List.ne_nil_of_mem asked)]
    exact asked
  have present := List.find?_eq_none.1 all name listed
  rwa [Bool.not_eq_true, Bool.not_eq_false', List.contains_iff_mem] at present

theorem describes (resolved : resolve table fields key = .ok d) : d.Describes table fields key := by
  obtain ⟨name, columns, relations⟩ := resolve_eq_ok resolved
  have keyed : ∀ i, i ∈ d.table.keyPositions ↔
      ∃ name, d.table.columnNames[i]? = some name ∧ if key = [] then name = "id" else name ∈ key := by
    intro i
    rw [Table.mem_keyPositions, Table.columnNames, columns]
    simp only [List.map_map, List.getElem?_map, Option.map_eq_some_iff]
    constructor
    · rintro ⟨_, ⟨f, found, rfl⟩, flagged⟩
      have listed : f.1 ∈ (fields.filterMap Field.column?).map Prod.fst :=
        List.mem_map_of_mem (List.mem_of_getElem? found)
      exact ⟨f.1, ⟨f, found, rfl⟩, (mem_keyNames listed).1 (List.contains_iff_mem.1 flagged)⟩
    · rintro ⟨_, ⟨f, found, rfl⟩, asked⟩
      have listed : f.1 ∈ (fields.filterMap Field.column?).map Prod.fst :=
        List.mem_map_of_mem (List.mem_of_getElem? found)
      exact ⟨_, ⟨f, found, rfl⟩, List.contains_iff_mem.2 ((mem_keyNames listed).2 asked)⟩
  constructor
  case name => exact name
  case columns => rw [columns, List.map_map]; rfl
  case relations => exact relations
  case position => exact fun name i => Table.columnIndex?_eq_some_iff
  case has => exact fun name => Table.hasColumn_iff_columnIndex?
  case sorted => exact d.table.sorted_keyPositions
  case keyed => exact keyed
  case flagged => exact fun i => Table.mem_keyPositions

theorem resolve_cases (table : String) (fields : List (Field n)) (key : List String) :
    (∃ field refusal, resolve table fields key = .error (.unsupportedField table field refusal) ∧
        Field.Refuses fields key field refusal) ∨
      ¬Undescribed fields key ∧ ∃ d, resolve table fields key = .ok d := by
  unfold resolve
  split
  · rename_i field refusal refused
    refine .inl ⟨field, refusal, rfl, ?_⟩
    rcases Field.refuses_firstRefused? refused with ⟨rfl, twice⟩ | ⟨f, member, rfl, type, kind, rfl⟩
    · exact .repeated twice
    · exact .embedded member kind
  · rename_i kept
    obtain ⟨distinct, -, whole⟩ := Field.firstRefused?_eq_none_iff.1 kept
    simp only []
    split
    · rename_i name found
      have absent : name ∉ Field.columnNames fields := by
        have missed := List.find?_some found
        rwa [Bool.not_eq_true', List.contains_eq_mem, decide_eq_false_iff_not] at missed
      exact .inl ⟨name, .keyIsNoColumn, rfl, .noColumn (keyNames_absent (List.mem_of_find?_eq_some found) absent) absent⟩
    · rename_i all
      refine .inr ⟨?_, ?_⟩
      · rintro (repeated | ⟨f, member, type, kind⟩ | ⟨name, asked, absent⟩)
        · exact repeated distinct
        · exact whole f member type kind
        · exact absent (find?_keyNames_eq_none all name asked)
      · have names : ((fields.filterMap Field.column?).map
            (column (keyNames (fields.filterMap Field.column?) key))).map Column.name = Field.columnNames fields := by
          rw [List.map_map]
          rfl
        obtain ⟨made, making⟩ := (Table.make_eq_ok_iff table _).2
          (names ▸ distinct.sublist (Field.columnNames_sublist fields))
        rw [making]
        exact ⟨_, rfl⟩

end Descriptor

end RecordMapper
