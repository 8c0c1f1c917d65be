import RecordMapper.Plan.Select

namespace RecordMapper

theorem numeral_inj {a b : Nat} (same : toString a = toString b) : a = b := by
  have digits : Nat.toDigits 10 a = Nat.toDigits 10 b := by
    rw [← Nat.toList_repr, ← Nat.toList_repr]
    exact congrArg String.toList same
  have number := congrArg (Nat.ofDigitChars 10 · 0) digits
  simpa using number

def LabelFrom (start : Nat) (label : String) : Prop :=
  ∃ position, start ≤ position ∧ (label = Join.childLabel position ∨ label = Join.pivotLabel position)

theorem LabelFrom.mono {start next : Nat} {label : String} (later : start ≤ next) (from' : LabelFrom next label) :
    LabelFrom start label := by
  obtain ⟨position, after, either⟩ := from'
  exact ⟨position, Nat.le_trans later after, either⟩

theorem childLabel_ne_pivotLabel (a b : Nat) : Join.childLabel a ≠ Join.pivotLabel b := by
  intro same
  have letters := congrArg (fun s => s.toList.head?) same
  simp [Join.childLabel, Join.pivotLabel] at letters

theorem not_labelFrom_child (position : Nat) : ¬LabelFrom (position + 1) (Join.childLabel position) := by
  rintro ⟨other, after, child | pivot⟩
  · have digits := (String.append_right_inj "t").1 child
    have number := numeral_inj digits
    omega
  · exact childLabel_ne_pivotLabel _ _ pivot

theorem not_labelFrom_pivot (position : Nat) : ¬LabelFrom (position + 1) (Join.pivotLabel position) := by
  rintro ⟨other, after, child | pivot⟩
  · exact childLabel_ne_pivotLabel _ _ child.symm
  · have digits := (String.append_right_inj "p").1 pivot
    have number := numeral_inj digits
    omega

theorem not_labelFrom_root (start : Nat) : ¬LabelFrom start Sql.rootLabel := by
  rintro ⟨other, after, child | pivot⟩
  · have digits : toString 0 = toString (other + 1) := (String.append_right_inj "t").1 child
    have number := numeral_inj digits
    omega
  · have letters := congrArg (fun s => s.toList.head?) pivot
    simp [Sql.rootLabel, Join.pivotLabel] at letters

theorem labels_positioned (start : Nat) (joins : List Join) :
    (∀ e ∈ positioned Join.entries start joins, LabelFrom start e.label) ∧
      ((positioned Join.entries start joins).map ScopedTable.label).Nodup := by
  induction joins generalizing start with
  | nil => simp [positioned]
  | cons j joins ih =>
    obtain ⟨later, distinct⟩ := ih (start + 1)
    have child : LabelFrom start (Join.childLabel start) := ⟨start, Nat.le_refl _, .inl rfl⟩
    have pivot : LabelFrom start (Join.pivotLabel start) := ⟨start, Nat.le_refl _, .inr rfl⟩
    have newChild : Join.childLabel start ∉ (positioned Join.entries (start + 1) joins).map ScopedTable.label := by
      intro member
      obtain ⟨e, known, same⟩ := List.mem_map.1 member
      exact not_labelFrom_child start (same ▸ later e known)
    have newPivot : Join.pivotLabel start ∉ (positioned Join.entries (start + 1) joins).map ScopedTable.label := by
      intro member
      obtain ⟨e, known, same⟩ := List.mem_map.1 member
      exact not_labelFrom_pivot start (same ▸ later e known)
    have others : ∀ e ∈ positioned Join.entries (start + 1) joins, LabelFrom start e.label :=
      fun e member => (later e member).mono (Nat.le_succ _)
    rw [positioned, Join.entries]
    rcases j.pivot? with _ | t
    · simp only [List.cons_append, List.nil_append, List.map_cons, List.nodup_cons, List.forall_mem_cons]
      exact ⟨⟨child, others⟩, newChild, distinct⟩
    · simp only [List.cons_append, List.nil_append, List.map_cons, List.nodup_cons, List.forall_mem_cons]
      rw [List.mem_cons, not_or]
      exact ⟨⟨pivot, child, others⟩, ⟨(childLabel_ne_pivotLabel _ _).symm, newPivot⟩, newChild, distinct⟩

theorem nodup_labels (p : Plan) : (p.scope.entries.map ScopedTable.label).Nodup := by
  obtain ⟨later, distinct⟩ := labels_positioned 0 p.joins
  rw [Plan.scope, scopeOf, Scope.entries, List.map_cons, List.nodup_cons]
  refine ⟨?_, distinct⟩
  intro member
  obtain ⟨e, known, same⟩ := List.mem_map.1 member
  have root : LabelFrom 0 Sql.rootLabel := Eq.subst same (later e known)
  exact not_labelFrom_root 0 root

end RecordMapper
