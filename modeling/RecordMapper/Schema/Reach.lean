import RecordMapper.Shape

namespace RecordMapper.ShapeGraph

variable (g : ShapeGraph)

def tableNames : List String :=
  (List.finRange g.size).map fun i => (g.shape i).table

def without (name : String) (names : List String) : List String :=
  names.filter (· != name)

theorem length_without_lt {name : String} {names : List String} (member : name ∈ names) :
    (without name names).length < names.length := by
  unfold without
  apply List.length_filter_lt_length_iff_exists.2
  exact ⟨name, member, by simp⟩

def reachFrom (unmet : List String) : List (Fin g.size) → List (Except Failure Table)
  | [] => []
  | child :: later =>
    match (g.shape child).descriptor with
    | .error failure => [.error failure]
    | .ok d =>
      if _member : (g.shape child).table ∈ unmet then
        .ok d.table ::
          reachFrom (without (g.shape child).table unmet) (d.relations.map Relation.child ++ later)
      else reachFrom unmet later
termination_by pending => (unmet.length, pending.length)
decreasing_by
  · exact Prod.Lex.left _ _ (length_without_lt _member)
  · exact Prod.Lex.right _ (Nat.lt_succ_self _)

def reach (d : Descriptor g.size) : List (Except Failure Table) :=
  .ok d.table :: g.reachFrom (without d.table.name g.tableNames) (d.relations.map Relation.child)

end RecordMapper.ShapeGraph
