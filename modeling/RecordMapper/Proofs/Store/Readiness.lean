import RecordMapper.Proofs.Outcome
import RecordMapper.Proofs.Predicate.Conjunction
import RecordMapper.Store.State

namespace RecordMapper.Store

section Known

variable {c : Content} {t : StoredTable} {s : Sources}

theorem Sources.unknownFrom?_known {lookups : List Lookup} (known : ∀ l ∈ lookups, s.knows l = true)
    (found : Option Lookup) (glances : List Sql.Glance) : s.unknownFrom? found glances lookups = found := by
  fun_induction Sources.unknownFrom? s found glances lookups with
  | case1 rest lookups found some => rfl
  | case2 rest lookups found none ih => exact ih known
  | case3 found rest l lookups ih =>
    rw [ih fun l later => known l (List.mem_cons_of_mem _ later), if_pos (known l List.mem_cons_self)]
  | case4 found rest l lookups ih =>
    rw [ih fun l later => known l (List.mem_cons_of_mem _ later), known l List.mem_cons_self, Bool.or_true,
      if_pos rfl]
  | case5 => rfl

theorem columns_placed (start : Nat) (pieces : List Sql.Piece) :
    (placed start pieces).map Lookup.column = Sql.columnsOf pieces := by
  have places : (Sql.placesFrom start pieces).map Prod.fst = Sql.columnsOf pieces := by
    induction pieces generalizing start with
    | nil => rfl
    | cons piece pieces ih => cases piece <;> simp [Sql.placesFrom, Sql.columnsOf, ih]
  rw [placed, List.map_map, ← places]
  rfl

theorem knows_placed {start : Nat} {pieces : List Sql.Piece} (known : ∀ column ∈ Sql.columnsOf pieces, s.has column = true) :
    ∀ l ∈ placed start pieces, s.knows l = true := by
  intro l member
  refine known l.column ?_
  rw [← columns_placed start]
  exact List.mem_map_of_mem member

theorem checkColumns_known {lookups : List Lookup} (known : ∀ l ∈ lookups, s.knows l = true) :
    checkColumns s lookups = .ok () := by
  have none : lookups.find? (fun l => !s.knows l) = none := by
    rw [List.find?_eq_none]
    intro l member
    rw [known l member]
    decide
  rw [checkColumns, none]
  rfl

theorem checkFilter_known {filter : Option Sql.Condition} {start : Nat}
    (known : ∀ f ∈ filter, ∀ column ∈ Sql.columnsOf f.pieces, s.has column = true) : checkFilter s start filter = .ok () := by
  cases filter with
  | none => rfl
  | some f =>
    have placed : ∀ l ∈ placed start (Sql.filterPieces (some f)), s.knows l = true :=
      knows_placed fun column member => known f rfl column member
    rw [checkFilter, Sources.unknownFrom?_known placed]
    rfl

theorem checkReading_known {source : Sql.Source} {filter : Option Sql.Condition} {head list : List Sql.Piece}
    (found : c.table? source.table = some t)
    (listed : ∀ column ∈ Sql.columnsOf list, Sources.has [(source.label, t)] column = true)
    (filtered : ∀ f ∈ filter, ∀ column ∈ Sql.columnsOf f.pieces, Sources.has [(source.label, t)] column = true) :
    checkReading c head list ⟨source, [], filter⟩ [] = .ok () := by
  have sources : sourcesOf c ⟨source, [], filter⟩ = .ok [(source.label, t)] := by
    simp only [sourcesOf, List.map_nil, List.mapM_cons, List.mapM_nil, tableOf, found]
    rfl
  rw [checkReading, sources]
  simp only [bind_eq_ok]
  exact ⟨_, rfl, (), checkColumns_known (knows_placed listed), (), checkFilter_known filtered, (), rfl, rfl⟩

end Known

section Doubting

variable {α β : Type} {c : Content}

/-- A check whose faults make a connection doubt the schema that it has loaded. -/
def Doubted (check : Except Fault α) : Prop :=
  ∀ fault, check = .error fault → State.raisesDoubt fault.cause = true

theorem doubted_ok (a : α) : Doubted (.ok a) :=
  fun _ none => nomatch none

theorem Doubted.bind {check : Except Fault α} {next : α → Except Fault β} (first : Doubted check)
    (second : ∀ a, Doubted (next a)) : Doubted (check >>= next) := by
  cases check with
  | error fault =>
    rintro _ refused
    cases refused
    exact first fault rfl
  | ok a => exact second a

theorem doubted_mapM {f : α → Except Fault β} (each : ∀ a, Doubted (f a)) (entries : List α) :
    Doubted (entries.mapM f) := by
  induction entries with
  | nil => exact doubted_ok []
  | cons a entries ih =>
    rw [List.mapM_cons]
    exact (each a).bind fun b => ih.bind fun rest => doubted_ok _

theorem doubted_tableOf (name : String) : Doubted (tableOf c name) := by
  unfold tableOf
  split
  · exact doubted_ok _
  · rintro _ refused
    cases refused
    rfl

theorem doubted_lookup (found : Option Lookup) : Doubted (refuse (found.map Lookup.fault)) := by
  cases found with
  | none => exact doubted_ok ()
  | some l =>
    rintro _ refused
    cases refused
    rfl

theorem doubted_filter (s : Sources) (start : Nat) (filter : Option Sql.Condition) :
    Doubted (checkFilter s start filter) := by
  unfold checkFilter
  split
  · exact doubted_lookup _
  · exact doubted_ok ()

theorem doubted_reading (head list : List Sql.Piece) (rows : Sql.Rows) (order : List Sql.OrderTerm) :
    Doubted (checkReading c head list rows order) := by
  unfold checkReading sourcesOf
  refine (doubted_mapM (fun source => (doubted_tableOf _).bind fun t => doubted_ok _) _).bind fun sources => ?_
  refine (doubted_lookup _).bind fun _ => (doubted_filter _ _ _).bind fun _ => ?_
  exact (doubted_lookup _).bind fun _ => doubted_lookup _

theorem doubted_select (enforces : Bool) (columns : List Sql.ColumnName) (rows : Sql.Rows) (order : List Sql.OrderTerm)
    (window : Option Sql.Window) : Doubted (checkCommand c enforces (.select columns rows order window)) := by
  have text : Doubted (refuse (textFault? (.select columns rows order window))) := by
    rintro fault refused
    unfold textFault? at refused
    split at refused
    · cases refused
      rfl
    · rename_i same
      cases same
    · rename_i same
      cases same
    · split at refused
      · cases refused
        rfl
      · cases refused
  unfold checkCommand
  exact text.bind fun _ => doubted_reading _ _ _ _

/-- A statement that reads is made ready by every connection that sees a content that suits it. -/
theorem State.prepare_select {s : State} {columns : List Sql.ColumnName} {rows : Sql.Rows} {order : List Sql.OrderTerm}
    {window : Option Sql.Window}
    (checked : checkCommand s.content s.connection.enforces (.select columns rows order window) = .ok ()) (sql : String) :
    ∃ after, s.prepare sql (.select columns rows order window) = (.ok (), after) := by
  have ready : ∃ after, s.check (.select columns rows order window) = (.ok (), after) := by
    have anew : ∃ after, s.checkAnew (.select columns rows order window) = (.ok (), after) := by
      rw [checkAnew, checked]
      exact ⟨_, rfl⟩
    unfold check
    rcases s.connection.loaded with _ | loaded
    · exact anew
    · rcases older : checkCommand loaded s.connection.enforces (.select columns rows order window) with fault | _
      · have doubt := doubted_select _ _ _ _ _ fault older
        simpa only [older, doubt, if_true] using anew
      · exact ⟨s, by simp only [older]⟩
  obtain ⟨after, ready⟩ := ready
  unfold prepare
  split
  · exact ⟨_, rfl⟩
  · rw [ready]
    exact ⟨_, rfl⟩

end Doubting

end RecordMapper.Store
