import RecordMapper.Proofs.Schema.Course

namespace RecordMapper

open RecordMapper.Store RecordMapper.Text

section Differing

variable {t : Table} {live : List LiveColumn} {c : Column} {l : LiveColumn}

def Table.lacking (t : Table) (live : List LiveColumn) : List Column :=
  t.columns.filter fun c => (LiveColumn.find? live c.name).isNone

end Differing

namespace Course

open Database

/-- Commands that are asked in turn, up to one that is refused. -/
structure InTurn (commands : List Sql.Command) (asked : List (Sql.Command × Database)) (outcome : Except Failure Unit) :
    Prop where
  early : asked.map Prod.fst <+: commands
  whole : outcome = .ok () → asked.map Prod.fst = commands
  refused : ∀ failure, outcome = .error failure → ∃ command w, asked.getLast? = some (command, w) ∧
    ((Database.define command).run w).1 = .error failure

theorem InTurn.nil : InTurn [] [] (.ok ()) :=
  ⟨List.prefix_rfl, fun _ => rfl, fun _ none => nomatch none⟩

theorem InTurn.stopped {command : Sql.Command} {commands : List Sql.Command} {w : Database} {failure : Failure}
    (failed : ((Database.define command).run w).1 = .error failure) :
    InTurn (command :: commands) [(command, w)] (.error failure) := by
  constructor
  · exact ⟨commands, rfl⟩
  · intro none
    cases none
  · intro _ same
    exact ⟨command, w, rfl, failed.trans same⟩

theorem InTurn.cons {command : Sql.Command} {commands : List Sql.Command} {asked : List (Sql.Command × Database)}
    {outcome : Except Failure Unit} (rest : InTurn commands asked outcome) (w : Database) :
    InTurn (command :: commands) ((command, w) :: asked) outcome := by
  constructor
  · exact List.cons_prefix_cons.2 ⟨rfl, rest.early⟩
  · intro done
    exact congrArg (List.cons command) (rest.whole done)
  · intro failure failed
    obtain ⟨last, before, found, refused⟩ := rest.refused failure failed
    exact ⟨last, before, by rw [List.getLast?_cons, found]; rfl, refused⟩

variable (t : Table) {w : Database}

end Course

end RecordMapper
