import RecordMapper.Proofs.Statement.Parameters

namespace RecordMapper

open RecordMapper.Text

variable {ε ε' α β : Type}

/-- Two computations that fail with one error, or give related results. -/
inductive Agree (related : α → α → Prop) : Except ε α → Except ε α → Prop where
  | failed (e : ε) : Agree related (.error e) (.error e)
  | done {a b : α} (both : related a b) : Agree related (.ok a) (.ok b)

namespace Agree

variable {related : α → α → Prop} {x y : Except ε α}

theorem refl (same : ∀ a, related a a) (x : Except ε α) : Agree related x x := by
  cases x with
  | error e => exact .failed e
  | ok a => exact .done (same a)

theorem bind {next : β → β → Prop} {f g : α → Except ε β} (first : Agree related x y)
    (rest : ∀ a b, related a b → Agree next (f a) (g b)) : Agree next (x >>= f) (y >>= g) := by
  cases first with
  | failed e => exact .failed e
  | done both => exact rest _ _ both

theorem map {next : β → β → Prop} {f g : α → β} (first : Agree related x y)
    (rest : ∀ a b, related a b → next (f a) (g b)) : Agree next (x.map f) (y.map g) := by
  cases first with
  | failed e => exact .failed e
  | done both => exact .done (rest _ _ both)

theorem mapError (f : ε → ε') (first : Agree related x y) : Agree related (x.mapError f) (y.mapError f) := by
  cases first with
  | failed e => exact .failed (f e)
  | done both => exact .done both

theorem after {next : β → β → Prop} {f g : α → Except ε β} (x : Except ε α)
    (rest : ∀ a, x = .ok a → Agree next (f a) (g a)) : Agree next (x >>= f) (x >>= g) := by
  cases x with
  | error e => exact .failed e
  | ok a => exact rest a rfl

end Agree

namespace Sql

def Piece.masked : Piece → Piece
  | .bound _ => .bound .null
  | piece => piece

/-- Pieces that are the same but for the values that they bind. -/
def SameText (left right : List Piece) : Prop :=
  left.map Piece.masked = right.map Piece.masked

theorem Piece.text_masked (piece : Piece) : piece.masked.text = piece.text := by
  cases piece <;> rfl

theorem textOf_masked (pieces : List Piece) : textOf (pieces.map Piece.masked) = textOf pieces := by
  simp only [textOf, List.foldr_map, Piece.text_masked]

theorem length_paramsOf_masked (pieces : List Piece) :
    (paramsOf (pieces.map Piece.masked)).length = (paramsOf pieces).length := by
  induction pieces with
  | nil => rfl
  | cons piece pieces ih =>
    cases piece with
    | raw | column => exact ih
    | bound => exact congrArg (· + 1) ih

namespace SameText

variable {left right left' right' : List Piece}

theorem text (same : SameText left right) : textOf left = textOf right := by
  rw [← textOf_masked left, same, textOf_masked]

theorem length_params (same : SameText left right) : (paramsOf left).length = (paramsOf right).length := by
  rw [← length_paramsOf_masked left, same, length_paramsOf_masked]

theorem refl (pieces : List Piece) : SameText pieces pieces := rfl

theorem append (first : SameText left right) (second : SameText left' right') :
    SameText (left ++ left') (right ++ right') := by
  rw [SameText, List.map_append, List.map_append, first, second]

theorem cons (piece : Piece) (rest : SameText left right) : SameText (piece :: left) (piece :: right) :=
  congrArg (piece.masked :: ·) rest

theorem rebound (v w : Value) : SameText [.bound v] [.bound w] := rfl

theorem separated (separator : String) {parts parts' : List (List Piece)} (each : List.Forall₂ SameText parts parts') :
    SameText (Piece.separated separator parts) (Piece.separated separator parts') := by
  induction each with
  | nil => exact .refl []
  | cons first rest ih =>
    cases rest with
    | nil => exact first
    | cons => exact first.append (.cons (.raw separator) ih)

theorem placeholders {values values' : List Value} (same : values.length = values'.length) :
    List.Forall₂ SameText (values.map fun v => [.bound v]) (values'.map fun v => [.bound v]) := by
  rw [List.forall₂_map_left_iff, List.forall₂_map_right_iff, List.forall₂_iff_zip]
  exact ⟨same, fun _ => rebound _ _⟩

end SameText

namespace Condition

def Alike (c c' : Condition) : Prop :=
  SameText c.pieces c'.pieces

theorem Alike.refl (c : Condition) : c.Alike c := SameText.refl _

theorem Alike.value (column : ColumnName) (op : Comparison) (v w : Value) :
    Alike (.value column op v) (.value column op w) := rfl

theorem Alike.member (column : ColumnName) {values values' : List Value} (negated : Bool)
    (same : values.length = values'.length) : Alike (.member column values negated) (.member column values' negated) :=
  ((SameText.refl _).append (.separated ", " (SameText.placeholders same))).append (.refl _)

theorem Alike.glob (column : ColumnName) (folded : Bool) (p p' : String) :
    Alike (.glob column folded p) (.glob column folded p') := rfl

variable {a b a' b' : Condition}

theorem Alike.and (left : a.Alike a') (right : b.Alike b') : Alike (.and a b) (.and a' b') :=
  ((((SameText.refl _).append left).append (.refl _)).append right).append (.refl _)

theorem Alike.or (left : a.Alike a') (right : b.Alike b') : Alike (.or a b) (.or a' b') :=
  ((((SameText.refl _).append left).append (.refl _)).append right).append (.refl _)

theorem Alike.not (inner : a.Alike a') : Alike (.not a) (.not a') :=
  ((SameText.refl _).append inner).append (.refl _)

end Condition

theorem sameText_filter {filter filter' : Option Condition} (alike : Option.Rel Condition.Alike filter filter') :
    SameText (filterPieces filter) (filterPieces filter') := by
  cases alike with
  | none => exact .refl []
  | some same => exact .cons _ same

theorem sameText_window {window window' : Option Window} (alike : window.isSome = window'.isSome) :
    SameText (windowPieces window) (windowPieces window') := by
  cases window with
  | none =>
    cases window' with
    | none => exact .refl _
    | some => cases alike
  | some =>
    cases window' with
    | none => cases alike
    | some => rfl

end Sql

section Payloads

/-- What a caller hands over to be bound at a place of a statement. -/
inductive Payload where
  | value (value : Value)
  | pattern (kind : PatternKind) (ignoreCase : Bool) (text : String)
  | limit (n : Option UInt64)
  | skip (n : UInt64)
  deriving DecidableEq

def Payload.bound : Payload → Value
  | .value v => v
  | .pattern kind ignoreCase text => .text (kind.glob (if ignoreCase then foldCase text else text))
  | .limit n => .integer (Paging.window ⟨n, 0⟩).limit
  | .skip n => .integer (Paging.clamp n)

def Predicate.payloads : Predicate → List Payload
  | .compare left _ right => (left.literals ++ right.literals).map .value
  | .member _ values _ => values.map .value
  | .pattern _ p => [.pattern p.kind p.ignoreCase p.text]
  | .and left right | .or left right => left.payloads ++ right.payloads
  | .not inner => inner.payloads

def filterPayloads (filter : Option Predicate) : List Payload :=
  filter.elim [] Predicate.payloads

def pagingPayloads (paging : Option Paging) : List Payload :=
  paging.elim [] fun p => [.limit p.limit, .skip p.skip]

theorem map_bound_value (values : List Value) : (values.map Payload.value).map Payload.bound = values := by
  rw [List.map_map]
  exact List.map_id' values

theorem Predicate.map_payloads (p : Predicate) : p.payloads.map Payload.bound = p.literals := by
  induction p with
  | compare left op right => exact map_bound_value _
  | member c values negated => exact map_bound_value _
  | pattern c p => rfl
  | and left right ihLeft ihRight | or left right ihLeft ihRight =>
    rw [payloads, List.map_append, ihLeft, ihRight, literals]
  | not inner ih => exact ih

theorem map_filterPayloads (filter : Option Predicate) :
    (filterPayloads filter).map Payload.bound = filterLiterals filter := by
  cases filter with
  | none => rfl
  | some p => exact p.map_payloads

theorem map_pagingPayloads (paging : Option Paging) :
    (pagingPayloads paging).map Payload.bound = Sql.windowParams (paging.map Paging.window) := by
  cases paging <;> rfl

end Payloads

section Predicates

inductive Operand.Alike : Operand → Operand → Prop where
  | column (c : ColumnRef) : Alike (.column c) (.column c)
  | null : Alike (.value .null) (.value .null)
  | value {v w : Value} (known : v ≠ .null) (known' : w ≠ .null) : Alike (.value v) (.value w)
  | list (values values' : List Value) : Alike (.list values) (.list values')

/-- Predicates that differ only in the values of literals. -/
inductive Predicate.Alike : Predicate → Predicate → Prop where
  | compare {a b a' b' : Operand} (op : Comparison) (left : a.Alike a') (right : b.Alike b') :
    Alike (.compare a op b) (.compare a' op b')
  | member (c : ColumnRef) {values values' : List Value} (negated : Bool) (same : values.length = values'.length) :
    Alike (.member c values negated) (.member c values' negated)
  | pattern (c : ColumnRef) (kind : PatternKind) (text text' : String) (negated ignoreCase : Bool) :
    Alike (.pattern c ⟨kind, text, negated, ignoreCase⟩) (.pattern c ⟨kind, text', negated, ignoreCase⟩)
  | and {a b a' b' : Predicate} (left : Alike a a') (right : Alike b b') : Alike (.and a b) (.and a' b')
  | or {a b a' b' : Predicate} (left : Alike a a') (right : Alike b b') : Alike (.or a b) (.or a' b')
  | not {a a' : Predicate} (inner : Alike a a') : Alike (.not a) (.not a')

namespace Predicate

variable (s : Scope) {v w : Value}

theorem compareWithValue_known (c : ColumnRef) (op : Comparison) (known : v ≠ .null) :
    compareWithValue s c op v = s.resolve c >>= fun column => pure (.value column op v) := by
  cases v with
  | null => exact absurd rfl known
  | integer | real | text | blob => rfl

theorem compareWithValue_alike (c : ColumnRef) (op : Comparison) (known : v ≠ .null) (known' : w ≠ .null) :
    Agree Sql.Condition.Alike (compareWithValue s c op v) (compareWithValue s c op w) := by
  rw [compareWithValue_known s c op known, compareWithValue_known s c op known']
  exact .after _ fun column _ => .done (.value column op v w)

theorem compareOperands_values (op : Comparison) (known : v ≠ .null) (other : Value) :
    compareOperands s (.value v) op (.value other) = .error .noColumnOperand ∧
      compareOperands s (.value other) op (.value v) = .error .noColumnOperand := by
  cases v with
  | null => exact absurd rfl known
  | integer | real | text | blob => cases other <;> exact ⟨rfl, rfl⟩

theorem compareOperands_alike {a b a' b' : Operand} (op : Comparison) (left : a.Alike a') (right : b.Alike b') :
    Agree Sql.Condition.Alike (compareOperands s a op b) (compareOperands s a' op b') := by
  cases left with
  | list => cases right <;> exact .failed _
  | column c =>
    cases right with
    | list => exact .failed _
    | column | null => exact .refl .refl _
    | value known known' => exact compareWithValue_alike s c op known known'
  | null =>
    cases right with
    | list => exact .failed _
    | column | null => exact .refl .refl _
    | value known known' =>
      rw [(compareOperands_values s op known _).2, (compareOperands_values s op known' _).2]
      exact .failed _
  | value known known' =>
    cases right with
    | list => exact .failed _
    | column c => exact compareWithValue_alike s c op.flipped known known'
    | null | value =>
      rw [(compareOperands_values s op known _).1, (compareOperands_values s op known' _).1]
      exact .failed _

theorem memberTest_alike (c : ColumnRef) {values values' : List Value} (negated : Bool)
    (same : values.length = values'.length) :
    Agree Sql.Condition.Alike (memberTest s c values negated) (memberTest s c values' negated) := by
  refine .after _ fun column _ => ?_
  have empty : values.isEmpty = values'.isEmpty := by
    rw [Bool.eq_iff_iff, List.isEmpty_iff_length_eq_zero, List.isEmpty_iff_length_eq_zero, same]
  rw [empty]
  split
  · exact .done (.refl _)
  · exact .done (.member column negated same)

theorem condition_alike {p p' : Predicate} (alike : p.Alike p') :
    Agree Sql.Condition.Alike (p.condition s) (p'.condition s) := by
  induction alike with
  | compare op left right => exact compareOperands_alike s op left right
  | member c negated same => exact memberTest_alike s c negated same
  | pattern c kind text text' negated ignoreCase =>
    refine .after _ fun column _ => .done ?_
    cases negated with
    | false => exact .glob column ignoreCase _ _
    | true => exact .not (.glob column ignoreCase _ _)
  | and _ _ ihLeft ihRight => exact ihLeft.bind fun _ _ left => ihRight.bind fun _ _ right => .done (.and left right)
  | or _ _ ihLeft ihRight => exact ihLeft.bind fun _ _ left => ihRight.bind fun _ _ right => .done (.or left right)
  | not _ ih => exact ih.bind fun _ _ inner => .done (.not inner)

theorem conditionOf_alike {filter filter' : Option Predicate} (alike : Option.Rel Alike filter filter') :
    Agree (Option.Rel Sql.Condition.Alike) (conditionOf s filter) (conditionOf s filter') := by
  cases alike with
  | none => exact .done .none
  | some same => exact (condition_alike s same).bind fun _ _ both => .done (.some both)

end Predicate

end Predicates

section Plans

structure Plan.Alike (p p' : Plan) : Prop where
  root : p.root = p'.root
  joins : p.joins = p'.joins
  filter : Option.Rel Predicate.Alike p.filter p'.filter
  order : p.order = p'.order
  paging : p.paging.isSome = p'.paging.isSome

namespace Plan

variable {p p' : Plan}

theorem rows_alike (alike : p.Alike p') :
    Agree (fun r r' => Sql.SameText r.pieces r'.pieces) p.rows p'.rows := by
  unfold rows scope
  rw [← alike.root, ← alike.joins]
  exact (Predicate.conditionOf_alike _ alike.filter).bind fun _ _ filters =>
    .done ((Sql.SameText.refl _).append (Sql.sameText_filter filters))

theorem select_alike (alike : p.Alike p') :
    Agree (fun c c' => Sql.SameText c.pieces c'.pieces) p.select p'.select := by
  have order : p.orderTerms = p'.orderTerms := by
    unfold orderTerms scope
    rw [alike.root, alike.joins, alike.order]
  have columns : p.scope.columns = p'.scope.columns := by
    unfold scope
    rw [alike.root, alike.joins]
  have windows : (p.paging.map Paging.window).isSome = (p'.paging.map Paging.window).isSome := by
    simpa using alike.paging
  unfold select
  rw [order, columns, alike.joins]
  refine (rows_alike alike).bind fun _ _ read => .after _ fun terms _ => .done ?_
  refine (((Sql.SameText.refl _).append read).append (.refl _)).append (Sql.sameText_window ?_)
  split
  · exact windows
  · rfl

theorem count_alike (alike : p.Alike p') :
    Agree (fun c c' => Sql.SameText c.pieces c'.pieces) p.count p'.count := by
  have columns : p.identityColumns = p'.identityColumns := by
    unfold identityColumns
    rw [alike.root]
  unfold count
  rw [columns, alike.joins]
  refine (rows_alike alike).bind fun r r' read => ?_
  have pagings := alike.paging
  split
  · cases own : p.paging with
    | none =>
      cases own' : p'.paging with
      | none => exact .done (.cons _ read)
      | some => simp [own, own'] at pagings
    | some paging =>
      cases own' : p'.paging with
      | none => simp [own, own'] at pagings
      | some paging' =>
        have window : Sql.SameText (Sql.windowPieces (some paging.window)) (Sql.windowPieces (some paging'.window)) := rfl
        exact .done ((((Sql.SameText.refl _).append read).append window).append (.refl _))
  · refine .done ((((Sql.SameText.refl _).append read).append (Sql.sameText_window ?_)).append (.refl _))
    simpa using pagings

end Plan

end Plans

section Drafts

/-- What the library makes one statement of, or a condition alone. -/
inductive Draft where
  | condition (scope : Scope) (p : Predicate)
  | select (p : Plan)
  | count (p : Plan)
  | insert (t : Table) (positions : t.Positions) (row : List Value)
  | update (t : Table) (scope : Scope) (positions : t.Positions) (row : List Value) (filter : Option Predicate)
  | delete (t : Table) (scope : Scope) (filter : Option Predicate)

namespace Draft

/-- Drafts that differ only in payloads: values written, literals of the filter, numbers of a paging. -/
inductive Alike : Draft → Draft → Prop where
  | condition (scope : Scope) {p p' : Predicate} (alike : p.Alike p') : Alike (.condition scope p) (.condition scope p')
  | select {p p' : Plan} (alike : p.Alike p') : Alike (.select p) (.select p')
  | count {p p' : Plan} (alike : p.Alike p') : Alike (.count p) (.count p')
  | insert (t : Table) (positions : t.Positions) {row row' : List Value} (same : row.length = row'.length) :
    Alike (.insert t positions row) (.insert t positions row')
  | update (t : Table) (scope : Scope) (positions : t.Positions) {row row' : List Value} {filter filter' : Option Predicate}
    (same : row.length = row'.length) (alike : Option.Rel Predicate.Alike filter filter') :
    Alike (.update t scope positions row filter) (.update t scope positions row' filter')
  | delete (t : Table) (scope : Scope) {filter filter' : Option Predicate}
    (alike : Option.Rel Predicate.Alike filter filter') : Alike (.delete t scope filter) (.delete t scope filter')

def written : Draft → Except Failure (String × List Value)
  | .condition scope p => ((p.condition scope).map fun c => (c.text, c.params)).mapError .malformed
  | .select p => (p.select.map fun c => (c.text, c.params)).mapError .malformed
  | .count p => (p.count.map fun c => (c.text, c.params)).mapError .malformed
  | .insert t positions row => (t.insert positions row).map fun c => (c.text, c.params)
  | .update t scope positions row filter => (t.updateIn scope positions row filter).map fun c => (c.text, c.params)
  | .delete t scope filter => (t.deleteIn scope filter).map fun c => (c.text, c.params)

def payloads : Draft → List Payload
  | .condition _ p => p.payloads
  | .select p => filterPayloads p.filter ++ pagingPayloads (if p.joins.isEmpty then p.paging else none)
  | .count p => filterPayloads p.filter ++ pagingPayloads p.paging
  | .insert _ positions row => (Table.picked positions row).map .value
  | .update _ _ positions row filter => (Table.picked positions row).map .value ++ filterPayloads filter
  | .delete _ _ filter => filterPayloads filter

end Draft

section Written

variable {scope : Scope} {p : Plan} {t : Table} {command : Sql.Command} {positions : t.Positions} {row : List Value}
  {filter : Option Predicate}

theorem map_written (values : List Value) : (values.map Payload.value).map Payload.bound = values := by
  rw [List.map_map]
  exact List.map_id values

theorem Plan.params_select (made : p.select = .ok command) :
    command.params = (Draft.select p).payloads.map Payload.bound := by
  simp only [Plan.select, Plan.rows, bind_eq_ok, pure_eq_ok] at made
  obtain ⟨_, ⟨condition, compiled, rfl⟩, order, -, rfl⟩ := made
  rw [Sql.Command.params_select, Predicate.conditionOf_params compiled, Draft.payloads, List.map_append,
    map_filterPayloads, map_pagingPayloads]
  split <;> rfl

theorem Plan.params_count (made : p.count = .ok command) :
    command.params = (Draft.count p).payloads.map Payload.bound := by
  simp only [Plan.count, Plan.rows, bind_eq_ok, pure_eq_ok] at made
  obtain ⟨_, ⟨condition, compiled, rfl⟩, made⟩ := made
  rw [Draft.payloads, List.map_append, map_filterPayloads, map_pagingPayloads,
    ← Predicate.conditionOf_params compiled]
  split at made
  · split at made
    · rename_i unpaged
      obtain rfl := pure_eq_ok.1 made
      rw [unpaged, Sql.Command.params_count]
      exact (List.append_nil _).symm
    · rename_i paging paged
      obtain rfl := pure_eq_ok.1 made
      rw [paged, Sql.Command.params_countWindow]
      rfl
  · obtain rfl := pure_eq_ok.1 made
    rw [Sql.Command.params_countDistinct]

theorem Table.params_insert (made : t.insert positions row = .ok command) :
    command.params = (Draft.insert t positions row).payloads.map Payload.bound := by
  simp only [Table.insert, bind_eq_ok, pure_eq_ok] at made
  obtain ⟨whole, fits, rfl⟩ := made
  obtain rfl := requireWidth_eq_ok fits
  rw [Sql.Command.params_insert, Draft.payloads, map_written, Table.assignments_values]

theorem Table.params_updateIn (made : t.updateIn scope positions row filter = .ok command) :
    command.params = (Draft.update t scope positions row filter).payloads.map Payload.bound := by
  simp only [Table.updateIn, Table.filterIn, bind_eq_ok, mapError_eq_ok, pure_eq_ok] at made
  obtain ⟨whole, fits, condition, compiled, rfl⟩ := made
  obtain rfl := requireWidth_eq_ok fits
  rw [Sql.Command.params_update, Predicate.conditionOf_params compiled, Draft.payloads, List.map_append, map_written,
    map_filterPayloads, Table.assignments_values]

theorem Table.params_deleteIn (made : t.deleteIn scope filter = .ok command) :
    command.params = (Draft.delete t scope filter).payloads.map Payload.bound := by
  simp only [Table.deleteIn, Table.filterIn, bind_eq_ok, mapError_eq_ok, pure_eq_ok] at made
  obtain ⟨condition, compiled, rfl⟩ := made
  rw [Sql.Command.params_delete, Predicate.conditionOf_params compiled, Draft.payloads, map_filterPayloads]

/-- The parameters of a draft are its payloads, each as it is bound. -/
theorem Draft.written_params {d : Draft} {sql : String} {params : List Value} (made : d.written = .ok (sql, params)) :
    params = d.payloads.map Payload.bound := by
  cases d with
  | condition scope p =>
    obtain ⟨c, compiled, same⟩ := map_eq_ok.1 (mapError_eq_ok.1 made)
    obtain ⟨rfl, rfl⟩ := Prod.mk.inj same
    exact (Predicate.params_condition compiled).trans p.map_payloads.symm
  | select p =>
    obtain ⟨c, made, same⟩ := map_eq_ok.1 (mapError_eq_ok.1 made)
    exact (Prod.mk.inj same).2 ▸ Plan.params_select made
  | count p =>
    obtain ⟨c, made, same⟩ := map_eq_ok.1 (mapError_eq_ok.1 made)
    exact (Prod.mk.inj same).2 ▸ Plan.params_count made
  | insert t positions row =>
    obtain ⟨c, made, same⟩ := map_eq_ok.1 made
    exact (Prod.mk.inj same).2 ▸ Table.params_insert made
  | update t scope positions row filter =>
    obtain ⟨c, made, same⟩ := map_eq_ok.1 made
    exact (Prod.mk.inj same).2 ▸ Table.params_updateIn made
  | delete t scope filter =>
    obtain ⟨c, made, same⟩ := map_eq_ok.1 made
    exact (Prod.mk.inj same).2 ▸ Table.params_deleteIn made

end Written

section Alike

variable {t : Table} {positions : t.Positions} {row row' : List Value} {filter filter' : Option Predicate} {d d' : Draft}

theorem requireWidth_alike (same : row.length = row'.length) :
    Agree (fun _ _ => True) (t.requireWidth row) (t.requireWidth row') := by
  unfold Table.requireWidth
  by_cases whole : row.length = t.width
  · rw [dif_pos whole, dif_pos (same ▸ whole)]
    exact .done trivial
  · rw [dif_neg whole, dif_neg (same ▸ whole), same]
    exact .failed _

theorem Table.insert_alike (same : row.length = row'.length) :
    Agree (fun c c' => Sql.SameText c.pieces c'.pieces) (t.insert positions row) (t.insert positions row') := by
  refine (requireWidth_alike same).bind fun whole whole' _ => .done ?_
  rw [Table.assignments_names, Table.assignments_names]
  have values : ((t.assignments positions whole).map Prod.snd).length =
      ((t.assignments positions whole').map Prod.snd).length := by
    simp only [Table.assignments, List.length_map]
  have bound : Sql.SameText (Sql.boundRow ((t.assignments positions whole).map Prod.snd))
      (Sql.boundRow ((t.assignments positions whole').map Prod.snd)) :=
    ((Sql.SameText.refl _).append (.separated ", " (Sql.SameText.placeholders values))).append (.refl _)
  exact (Sql.SameText.refl _).append (.separated ", " (.cons bound .nil))

theorem Table.updateIn_alike (scope : Scope) (same : row.length = row'.length)
    (alike : Option.Rel Predicate.Alike filter filter') :
    Agree (fun c c' => Sql.SameText c.pieces c'.pieces) (t.updateIn scope positions row filter)
      (t.updateIn scope positions row' filter') := by
  refine (requireWidth_alike same).bind fun whole whole' _ =>
    ((Predicate.conditionOf_alike scope alike).mapError _).bind fun _ _ filters => .done ?_
  refine ((Sql.SameText.refl _).append (.separated ", " ?_)).append (Sql.sameText_filter filters)
  simp only [Table.assignments, List.forall₂_map_left_iff, List.forall₂_map_right_iff, List.forall₂_same]
  exact fun i _ => .cons _ (.rebound _ _)

theorem Table.deleteIn_alike (scope : Scope) (alike : Option.Rel Predicate.Alike filter filter') :
    Agree (fun c c' => Sql.SameText c.pieces c'.pieces) (t.deleteIn scope filter) (t.deleteIn scope filter') :=
  ((Predicate.conditionOf_alike scope alike).mapError _).bind fun _ _ filters =>
    .done (.cons _ (Sql.sameText_filter filters))

/-- Drafts that differ only in payloads are refused alike, or have one text and equally many parameters. -/
theorem Draft.written_agree (alike : d.Alike d') :
    Agree (fun w w' => w.1 = w'.1 ∧ w.2.length = w'.2.length) d.written d'.written := by
  have commands (c c' : Sql.Command) (same : Sql.SameText c.pieces c'.pieces) :
      c.text = c'.text ∧ c.params.length = c'.params.length :=
    ⟨same.text, same.length_params⟩
  cases alike with
  | condition scope alike =>
    exact ((Predicate.condition_alike scope alike).map fun _ _ same => ⟨same.text, same.length_params⟩).mapError _
  | select alike => exact ((Plan.select_alike alike).map commands).mapError _
  | count alike => exact ((Plan.count_alike alike).map commands).mapError _
  | insert t positions same => exact (Table.insert_alike same).map commands
  | update t scope positions same alike =>
    exact (Table.updateIn_alike scope same alike).map commands
  | delete t scope alike => exact (Table.deleteIn_alike scope alike).map commands

/-- Payloads never reach the text. Two drafts that differ only in payloads are both refused with the same failure, or both
    written with the same text and equally many parameters, of which only those differ whose payloads do. -/
theorem Draft.written_alike (alike : d.Alike d') :
    (∃ failure, d.written = .error failure ∧ d'.written = .error failure) ∨
    ∃ (sql : String) (params params' : List Value), d.written = .ok (sql, params) ∧ d'.written = .ok (sql, params') ∧
      params.length = params'.length ∧ ∀ i : Nat, d.payloads[i]? = d'.payloads[i]? → params[i]? = params'[i]? := by
  have agree := written_agree alike
  generalize own : d.written = result at agree ⊢
  generalize own' : d'.written = result' at agree ⊢
  cases agree with
  | failed failure => exact .inl ⟨failure, rfl, rfl⟩
  | @done w w' both =>
    obtain ⟨⟨sql, params⟩, ⟨sql', params'⟩⟩ := w, w'
    obtain ⟨rfl, lengths⟩ := both
    refine .inr ⟨sql, params, params', rfl, rfl, lengths, fun i same => ?_⟩
    rw [written_params own, written_params own', List.getElem?_map, List.getElem?_map, same]

def rivalPlan : Plan :=
  { riddlePlan with
    filter := some (.or
      (.and (.compare (.value (.text "0) OR (1 = 1")) .lt (.column ⟨none, "a\"?"⟩))
        (.compare (.column ⟨none, "LIMIT ? OFFSET ?"⟩) .eq (.value .null)))
      (.not (.member ⟨none, "LIMIT ? OFFSET ?"⟩ [.text "x?", .text "'; --"] false)))
    paging := some ⟨none, 1⟩ }

theorem written_alike_riddle : (Draft.select riddlePlan).Alike (.select rivalPlan) ∧
    ((∃ failure, (Draft.select riddlePlan).written = .error failure ∧ (Draft.select rivalPlan).written = .error failure) ∨
    ∃ (sql : String) (params params' : List Value), (Draft.select riddlePlan).written = .ok (sql, params) ∧
      (Draft.select rivalPlan).written = .ok (sql, params') ∧ params.length = params'.length ∧
      ∀ i : Nat, (Draft.select riddlePlan).payloads[i]? = (Draft.select rivalPlan).payloads[i]? →
        params[i]? = params'[i]?) := by
  have known : (Value.integer 5) ≠ .null := by decide
  have known' : (Value.text "0) OR (1 = 1") ≠ .null := by decide
  have alike : (Draft.select riddlePlan).Alike (.select rivalPlan) :=
    .select ⟨rfl, rfl, .some (.or (.and (.compare .lt (.value known known') (.column _)) (.compare .eq (.column _) .null))
      (.not (.member _ false rfl))), rfl, rfl⟩
  exact ⟨alike, Draft.written_alike alike⟩

end Alike

end Drafts

end RecordMapper
