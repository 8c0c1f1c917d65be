import RecordMapper.Proofs.Predicate.StatementText

namespace RecordMapper.Sql

open RecordMapper.Text

def isMark (c : Char) : Bool :=
  c == '"' || c == '\''

/-- The mark that is open behind a character. A mark written twice closes and opens again. -/
def turned (mark : Option Char) (c : Char) : Option Char :=
  match mark with
  | none => if isMark c then some c else none
  | some mark => if c = mark then none else some mark

def openMark (mark : Option Char) (text : List Char) : Option Char :=
  text.foldl turned mark

theorem openMark_append (mark : Option Char) (text after : List Char) :
    openMark mark (text ++ after) = openMark (openMark mark text) after :=
  List.foldl_append

section Tokens

variable {text after : List Char}

theorem openMark_cons {c : Char} (bare : isMark c = false) (rest : List Char) :
    openMark none (c :: rest) = openMark none rest := by
  have stays : turned none c = none := if_neg (by simp [bare])
  rw [openMark, List.foldl_cons, stays]
  rfl

theorem openMark_none (bare : ∀ c ∈ text, isMark c = false) : openMark none text = none := by
  induction text with
  | nil => rfl
  | cons c text ih =>
    rw [List.forall_mem_cons] at bare
    rw [openMark_cons bare.1]
    exact ih bare.2

theorem openMark_skip (bare : ∀ c ∈ text, isMark c = false) (after : List Char) :
    openMark none (text ++ after) = openMark none after := by
  rw [openMark_append, openMark_none bare]

theorem openMark_unquote (mark : Char) (isOne : isMark mark = true) {inner : List Char}
    (found : unquote mark text = some (inner, after)) : openMark (some mark) text = openMark none after := by
  have closes (rest : List Char) : openMark (some mark) (mark :: rest) = openMark none rest := by
    rw [openMark, List.foldl_cons, turned, if_pos rfl]
    rfl
  have opens (rest : List Char) : openMark none (mark :: rest) = openMark (some mark) rest := by
    rw [openMark, List.foldl_cons, turned, if_pos isOne]
    rfl
  fun_induction unquote mark text generalizing inner after with
  | case1 => cases found
  | case2 =>
    cases found
    exact closes []
  | case3 rest ih =>
    obtain ⟨⟨_, _⟩, later, same⟩ := Option.map_eq_some_iff.1 found
    cases same
    rw [closes, opens]
    exact ih later
  | case4 d rest other =>
    cases found
    exact closes (d :: rest)
  | case5 c rest other ih =>
    obtain ⟨⟨_, _⟩, later, same⟩ := Option.map_eq_some_iff.1 found
    cases same
    rw [openMark, List.foldl_cons, turned, if_neg other]
    exact ih later

theorem not_isMark_of_isWordPart {c : Char} (part : isWordPart c = true) : isMark c = false := by
  by_contra isOne
  rw [Bool.not_eq_false, isMark, Bool.or_eq_true, beq_iff_eq, beq_iff_eq] at isOne
  rcases isOne with rfl | rfl <;> exact absurd part (by decide)

theorem openMark_dropWhile {p : Char → Bool} (bare : ∀ c, p c = true → isMark c = false) (rest : List Char) :
    openMark none (rest.dropWhile p) = openMark none rest := by
  conv => rhs; rw [← List.takeWhile_append_dropWhile (p := p) (l := rest)]
  rw [openMark_skip]
  intro c member
  exact bare c (List.mem_takeWhile_imp member)

theorem openMark_token? {t : Token} (found : token? text = some (t, after)) :
    openMark none text = openMark none after := by
  unfold token? at found
  split at found
  · cases found
  · cases found
    rfl
  · obtain ⟨⟨_, _⟩, inner, same⟩ := Option.map_eq_some_iff.1 found
    cases same
    exact openMark_unquote '"' rfl inner
  · obtain ⟨⟨_, _⟩, inner, same⟩ := Option.map_eq_some_iff.1 found
    cases same
    exact openMark_unquote '\'' rfl inner
  · rename_i c rest _ notQuote notTick
    have bare : isMark c = false := by
      rw [isMark, Bool.or_eq_false_iff, beq_eq_false_iff_ne, beq_eq_false_iff_ne]
      exact ⟨notQuote, notTick⟩
    rw [openMark_cons bare]
    split at found
    · cases found
      rw [openMark_dropWhile fun c => not_isMark_of_isWordPart]
    · split at found
      · cases found
        exact (openMark_dropWhile (fun c digit => not_isMark_of_isWordPart (by simp [isWordPart, digit])) rest).symm
      · split at found
        · split at found
          · rename_i paired
            cases found
            have second : ∀ pair ∈ signPairs, isMark pair.2 = false := by decide
            exact openMark_cons (second _ paired) after
          · cases found
            rfl
        · cases found
          rfl

/-- A text that ends between marks ends inside of a token. -/
theorem breaks_of_openMark (opened : openMark none text ≠ none) : Breaks text := by
  -- On the length: a token takes several characters at once.
  induction size : text.length using Nat.strong_induction_on generalizing text with
  | _ n ih =>
    subst size
    cases text with
    | nil => exact absurd rfl opened
    | cons c rest =>
      by_cases blank : isAsciiBlank c = true
      · have bare : isMark c = false := by
          by_contra isOne
          rw [Bool.not_eq_false, isMark, Bool.or_eq_true, beq_iff_eq, beq_iff_eq] at isOne
          rcases isOne with rfl | rfl <;> exact absurd blank (by decide)
        rw [openMark_cons bare] at opened
        exact .blank blank (ih rest.length (Nat.lt_succ_self _) opened rfl)
      · have solid : isAsciiBlank c = false := Bool.eq_false_iff.2 blank
        rcases found : token? (c :: rest) with _ | ⟨t, after⟩
        · exact .within solid found
        · rw [openMark_token? found] at opened
          exact .token solid found (ih after.length (length_token? _ _ _ found) opened rfl)

end Tokens

section Sealed

/-- A text that closes the marks that it opens, and has U+0000 between marks only. -/
structure Sealed (text : List Char) : Prop where
  closed : openMark none text = none
  held : '\x00' ∈ text → openMark none (cut text) ≠ none

theorem sealed_bare {text : List Char} (bare : ∀ c ∈ text, isMark c = false) (plain : '\x00' ∉ text) : Sealed text :=
  ⟨openMark_none bare, fun inside => absurd inside plain⟩

theorem cut_append_of_mem {text : List Char} (zero : '\x00' ∈ text) (after : List Char) : cut (text ++ after) = cut text := by
  induction text with
  | nil => cases zero
  | cons c text ih =>
    by_cases here : c = '\x00'
    · simp [cut, here]
    · have later := ih (by simpa [Ne.symm here] using zero)
      simpa [cut, here] using later

theorem Sealed.append {text after : List Char} (first : Sealed text) (second : Sealed after) : Sealed (text ++ after) where
  closed := by rw [openMark_append, first.closed, second.closed]
  held := by
    intro inside
    by_cases early : '\x00' ∈ text
    · rw [cut_append_of_mem early]
      exact first.held early
    · rw [cut_append early, openMark_append, first.closed]
      exact second.held ((List.mem_append.1 inside).resolve_left early)

theorem openMark_doubled (text : List Char) : openMark (some '"') (doubled '"' text) = some '"' := by
  fun_induction doubled '"' text with
  | case1 => rfl
  | case2 rest ih => exact ih
  | case3 c rest other ih =>
    rw [openMark, List.foldl_cons, turned, if_neg other]
    exact ih

theorem sealed_quoted (name : String) : Sealed (quoted name).toList := by
  rw [quoted, toList_quotedWith]
  constructor
  · have opened : openMark none ('"' :: (doubled '"' name.toList ++ ['"'])) =
        openMark (openMark (some '"') (doubled '"' name.toList)) ['"'] := openMark_append (some '"') _ _
    rw [opened, openMark_doubled]
    rfl
  · intro inside
    have zero : '\x00' ∈ name.toList := by
      by_contra plain
      have none := zero_not_mem_quoted plain
      rw [quoted, toList_quotedWith] at none
      exact none inside
    have opened : cut ('"' :: (doubled '"' name.toList ++ ['"'])) = '"' :: doubled '"' (cut name.toList) := by
      rw [← cut_doubled (by decide) zero ['"']]
      rfl
    have still : openMark none ('"' :: doubled '"' (cut name.toList)) = some '"' := openMark_doubled _
    rw [opened, still]
    exact Option.some_ne_none _

theorem Command.whole_of_asked {c asked : Command} (isSealed : Sealed c.text.toList)
    (asks : c.statement.asked = .ok asked) : '\x00' ∉ c.text.toList := by
  intro inside
  have broken : (lexemes c.text).2 ≠ none :=
    lexemesFrom_of_breaks (breaks_of_openMark (isSealed.held inside)) _ _ (Nat.lt_succ_self _)
  obtain ⟨mark, fault⟩ := Option.ne_none_iff_exists'.1 broken
  rw [statement, cutToken?, if_pos inside, fault] at asks
  cases asks

end Sealed

section Pieces

def isBare (text : String) : Bool :=
  text.toList.all fun c => !isMark c && c != '\x00'

theorem sealed_of_isBare (text : String) (bare : isBare text = true) : Sealed text.toList := by
  rw [isBare, List.all_eq_true] at bare
  refine sealed_bare (fun c member => ?_) fun inside => absurd (bare _ inside) (by decide)
  have both := bare c member
  rw [Bool.and_eq_true, Bool.not_eq_true'] at both
  exact both.1

theorem isBare_of_isWord {text : String} (word : isWord text = true) : isBare text = true := by
  have plain := zero_not_mem_word word
  have parts : ∀ c ∈ text.toList, isWordPart c = true := by
    unfold isWord at word
    split at word
    · cases word
    · rename_i first rest spelled
      rw [Bool.and_eq_true, List.all_eq_true] at word
      rw [spelled, List.forall_mem_cons]
      exact ⟨by simp [isWordPart, word.1], word.2⟩
  rw [isBare, List.all_eq_true]
  intro c member
  rw [not_isMark_of_isWordPart (parts c member)]
  simpa using fun same : c = '\x00' => plain (same ▸ member)

def Piece.IsSealed (piece : Piece) : Prop :=
  Sealed piece.text.toList

theorem Piece.sealed_raw (text : String) (bare : isBare text = true) : (Piece.raw text).IsSealed :=
  sealed_of_isBare text bare

theorem Piece.sealed_bound (v : Value) : (Piece.bound v).IsSealed :=
  sealed_of_isBare "?" (by decide)

theorem Piece.sealed_column {c : ColumnName} (label : isWord c.label = true) : (Piece.column c).IsSealed := by
  have written : (Piece.column c).text.toList = c.label.toList ++ (".".toList ++ (quoted c.name).toList) := by
    simp [Piece.text, ColumnName.text]
  rw [IsSealed, written]
  exact (sealed_of_isBare _ (isBare_of_isWord label)).append ((sealed_of_isBare _ (by decide)).append (sealed_quoted c.name))

theorem sealed_textOf {pieces : List Piece} (each : ∀ piece ∈ pieces, piece.IsSealed) : Sealed (textOf pieces).toList := by
  induction pieces with
  | nil => exact sealed_of_isBare "" (by decide)
  | cons piece pieces ih =>
    rw [List.forall_mem_cons] at each
    have written : (textOf (piece :: pieces)).toList = piece.text.toList ++ (textOf pieces).toList := String.toList_append
    rw [written]
    exact each.1.append (ih each.2)

theorem mem_textOf {pieces : List Piece} {piece : Piece} (listed : piece ∈ pieces) {c : Char}
    (inside : c ∈ piece.text.toList) : c ∈ (textOf pieces).toList := by
  induction pieces with
  | nil => cases listed
  | cons first pieces ih =>
    have written : (textOf (first :: pieces)).toList = first.text.toList ++ (textOf pieces).toList := String.toList_append
    rw [written, List.mem_append]
    rcases List.mem_cons.1 listed with rfl | later
    · exact .inl inside
    · exact .inr (ih later)

theorem mem_separated {piece : Piece} {parts : List (List Piece)} (listed : piece ∈ Piece.separated ", " parts) :
    piece = .raw ", " ∨ ∃ part ∈ parts, piece ∈ part := by
  induction parts with
  | nil => cases listed
  | cons first parts ih =>
    cases parts with
    | nil => exact .inr ⟨first, List.mem_singleton_self _, listed⟩
    | cons next rest =>
      rcases List.mem_append.1 listed with here | later
      · exact .inr ⟨first, List.mem_cons_self, here⟩
      · rcases List.mem_cons.1 later with rfl | later
        · exact .inl rfl
        · rcases ih later with same | ⟨part, known, inside⟩
          · exact .inl same
          · exact .inr ⟨part, List.mem_cons_of_mem _ known, inside⟩

theorem sealed_separated {parts : List (List Piece)} (each : ∀ part ∈ parts, ∀ piece ∈ part, piece.IsSealed) :
    ∀ piece ∈ Piece.separated ", " parts, piece.IsSealed := by
  intro piece listed
  rcases mem_separated listed with rfl | ⟨part, known, inside⟩
  · exact Piece.sealed_raw _ (by decide)
  · exact each part known piece inside

def Piece.isPlain : Piece → Bool
  | .raw text => isBare text
  | .column _ | .bound _ => true

theorem sealed_of_isPlain {pieces : List Piece} (plain : pieces.all Piece.isPlain = true)
    (labels : ∀ column ∈ columnsOf pieces, isWord column.label = true) : ∀ piece ∈ pieces, piece.IsSealed := by
  rw [List.all_eq_true] at plain
  intro piece listed
  cases piece with
  | raw text => exact Piece.sealed_raw text (plain _ listed)
  | column c => exact Piece.sealed_column (labels c (List.mem_filterMap.2 ⟨_, listed, rfl⟩))
  | bound v => exact Piece.sealed_bound v

theorem isPlain_placeholders (values : List Value) :
    (Piece.separated ", " (values.map fun v => [.bound v])).all Piece.isPlain = true := by
  rw [List.all_eq_true]
  intro piece listed
  rcases mem_separated listed with rfl | ⟨part, known, inside⟩
  · decide
  · obtain ⟨v, -, rfl⟩ := List.mem_map.1 known
    obtain rfl := List.mem_singleton.1 inside
    rfl

theorem Condition.isPlain_pieces (c : Condition) : c.pieces.all Piece.isPlain = true := by
  have sign (op : Comparison) : isBare (" " ++ op.symbol ++ " ") = true := by cases op <;> decide
  induction c with
  | constant holds => cases holds <;> decide
  | columns left op right =>
    simp only [pieces, List.all_cons, Piece.isPlain, sign]
    decide
  | value column op v =>
    simp only [pieces, List.all_cons, Piece.isPlain, sign]
    decide
  | null column negated =>
    simp only [pieces, List.all_cons, Piece.isPlain]
    cases negated <;> decide
  | member column values negated =>
    simp only [pieces, List.all_append, List.all_cons, Piece.isPlain, isPlain_placeholders]
    cases negated <;> decide
  | glob column folded pattern =>
    simp only [pieces, List.all_cons, Piece.isPlain]
    cases folded <;> decide
  | and left right ihLeft ihRight | or left right ihLeft ihRight =>
    simp only [pieces, List.all_append, ihLeft, ihRight, List.all_cons, Piece.isPlain]
    decide
  | not inner ih =>
    simp only [pieces, List.all_append, ih, List.all_cons, Piece.isPlain]
    decide

end Pieces

section Insertions

theorem sealed_joined {parts : List String} (each : ∀ part ∈ parts, Sealed part.toList) :
    Sealed (joined ", " parts).toList := by
  fun_induction joined ", " parts with
  | case1 => exact sealed_of_isBare "" (by decide)
  | case2 only => exact each only (List.mem_singleton_self only)
  | case3 first next rest ih =>
    rw [List.forall_mem_cons] at each
    rw [String.toList_append, String.toList_append]
    exact (each.1.append (sealed_of_isBare ", " (by decide))).append (ih each.2)

theorem sealed_columnNames (names : List String) : Sealed (columnNamesText names).toList := by
  refine sealed_joined fun part listed => ?_
  obtain ⟨name, -, rfl⟩ := List.mem_map.1 listed
  exact sealed_quoted name

theorem sealed_boundRow (row : List Value) : ∀ piece ∈ boundRow row, piece.IsSealed := by
  simp only [boundRow, List.forall_mem_append, List.forall_mem_singleton]
  refine ⟨⟨Piece.sealed_raw _ (by decide), sealed_separated fun part listed => ?_⟩, Piece.sealed_raw _ (by decide)⟩
  obtain ⟨v, -, rfl⟩ := List.mem_map.1 listed
  exact List.forall_mem_singleton.2 (Piece.sealed_bound v)

variable {table : String} {names : List String} {rows : List (List Value)}

theorem sealed_insert : ∀ piece ∈ (Command.insert table (some names) rows).pieces, piece.IsSealed := by
  have head : (Piece.raw ("INSERT INTO " ++ quoted table ++ (" (" ++ columnNamesText names ++ ")") ++ " VALUES ")).IsSealed := by
    simp only [Piece.IsSealed, Piece.text, String.toList_append]
    have columns := ((sealed_of_isBare " (" (by decide)).append (sealed_columnNames names)).append
      (sealed_of_isBare ")" (by decide))
    exact (((sealed_of_isBare "INSERT INTO " (by decide)).append (sealed_quoted table)).append columns).append
      (sealed_of_isBare " VALUES " (by decide))
  refine List.forall_mem_cons.2 ⟨head, sealed_separated fun part listed => ?_⟩
  obtain ⟨row, -, rfl⟩ := List.mem_map.1 listed
  exact sealed_boundRow row

theorem insert_plain {asked : Command} (asks : (Command.insert table (some names) rows).statement.asked = .ok asked) :
    '\x00' ∉ table.toList ∧ ∀ name ∈ names, '\x00' ∉ name.toList := by
  have whole := Command.whole_of_asked (sealed_textOf sealed_insert) asks
  have outside {c : Char} (inside : c ∈ (quoted table).toList ∨ c ∈ (columnNamesText names).toList) :
      c ∈ (Command.insert table (some names) rows).text.toList := by
    refine mem_textOf List.mem_cons_self ?_
    simp only [Piece.text, String.toList_append, List.mem_append]
    rcases inside with own | own
    · exact .inl (.inl (.inr own))
    · exact .inl (.inr (.inl (.inr own)))
  constructor
  · exact fun zero => whole (outside (.inl (mem_quoted zero)))
  · exact fun name listed zero => whole (outside (.inr (mem_joined (List.mem_map_of_mem listed) (mem_quoted zero))))

end Insertions

end RecordMapper.Sql
