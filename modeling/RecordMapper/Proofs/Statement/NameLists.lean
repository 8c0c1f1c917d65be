import RecordMapper.Proofs.Query.Scoping
import RecordMapper.Proofs.Statement.Identifiers

namespace RecordMapper.Sql

open RecordMapper.Text

section Leading

/-- A text that is read as the tokens; what stands behind it is read as if it stood alone. -/
def Leads (text after : List Char) (tokens : List Token) : Prop :=
  ∃ front, front.map Lexeme.token = tokens ∧
    readingOf (text ++ after) = precededBy front (movedBy (byteCount text) (readingOf after))

theorem byteCount_append (text after : List Char) : byteCount (text ++ after) = byteCount text + byteCount after := by
  induction text with
  | nil => exact (Nat.zero_add _).symm
  | cons c text ih =>
    show c.utf8Size + byteCount (text ++ after) = c.utf8Size + byteCount text + byteCount after
    rw [ih, Nat.add_assoc]

namespace Leads

variable {text next after : List Char} {tokens others : List Token}

theorem nil (after : List Char) : Leads [] after [] :=
  ⟨[], rfl, (movedBy_zero (readingOf after)).symm⟩

theorem append (first : Leads text (next ++ after) tokens) (second : Leads next after others) :
    Leads (text ++ next) after (tokens ++ others) := by
  obtain ⟨front, rfl, before⟩ := first
  obtain ⟨further, rfl, behind⟩ := second
  refine ⟨front ++ further.map (Lexeme.moved (byteCount text)), ?_, ?_⟩
  · rw [List.map_append, tokens_moved]
  · rw [List.append_assoc, before, behind, movedBy_precededBy, movedBy_movedBy, precededBy_precededBy, byteCount_append]

theorem token {t : Token} (plain : '\x00' ∉ text) (solid : ∀ c ∈ text.head?, isAsciiBlank c = false)
    (first : token? (text ++ cut after) = some (t, cut after)) : Leads text after [t] :=
  ⟨_, rfl, readingOf_token plain solid first⟩

theorem blank (after : List Char) : Leads [' '] after [] :=
  ⟨[], rfl, readingOf_blank (by decide) after⟩

theorem quoted {name : String} (plain : '\x00' ∉ name.toList) (stop : after.head? ≠ some '"') :
    Leads (quoted name).toList after [.quoted name] := by
  refine token (zero_not_mem_quoted plain) ?_ (token?_quoted name (cut after) (cut_head?_ne stop))
  rw [Text.quoted, toList_quotedWith]
  rintro c ⟨⟩
  rfl

theorem sign {c : Char} (sign : isSign c = true) (plain : c ≠ '\x00')
    (alone : ∀ d ∈ (cut after).head?, (c, d) ∉ signPairs) : Leads [c] after [.symbol (String.ofList [c])] := by
  obtain ⟨solid, first⟩ := token?_sign sign alone
  refine token (by simpa using plain.symm) ?_ first
  rintro d ⟨⟩
  exact solid

theorem lone {c : Char} (sign : isSign c = true) (plain : c ≠ '\x00') (single : ∀ p ∈ signPairs, p.1 ≠ c)
    (after : List Char) : Leads [c] after [.symbol (String.ofList [c])] :=
  Leads.sign sign plain fun _ _ member => single _ member rfl

theorem placeholder (after : List Char) : Leads ['?'] after [.placeholder] := by
  refine token (by decide) ?_ rfl
  rintro c ⟨⟩
  rfl

theorem reads (leads : Leads text after tokens) :
    (readingOf (text ++ after)).1.map Lexeme.token = tokens ++ (readingOf after).1.map Lexeme.token ∧
      (readingOf (text ++ after)).2 = (readingOf after).2.map (Mark.moved (byteCount text)) := by
  obtain ⟨front, rfl, same⟩ := leads
  rw [same]
  refine ⟨?_, rfl⟩
  rw [precededBy, List.map_append, movedBy, tokens_moved]

end Leads

end Leading

section Lists

inductive Separator where
  | comma
  | dot
  | assigned
  | closing
  deriving DecidableEq, Repr

namespace Separator

def text : Separator → String
  | comma => ", "
  | dot => "."
  | assigned => " = ?"
  | closing => ")"

def tokens : Separator → List Token
  | comma => [.symbol ","]
  | dot => [.symbol "."]
  | assigned => [.symbol "=", .placeholder]
  | closing => [.symbol ")"]

theorem leads (s : Separator) (after : List Char) : Leads s.text.toList after s.tokens := by
  cases s with
  | comma => exact (Leads.lone (by decide) (by decide) (by decide) _).append (.blank after)
  | dot => exact .lone (by decide) (by decide) (by decide) after
  | closing => exact .lone (by decide) (by decide) (by decide) after
  | assigned =>
    have sign : Leads ['='] (' ' :: '?' :: after) [.symbol "="] := by
      refine .sign (by decide) (by decide) fun d first => ?_
      have blank : (cut (' ' :: '?' :: after)).head? = some ' ' := rfl
      rw [Option.mem_def, blank] at first
      obtain rfl := Option.some.inj first
      decide
    have place := (Leads.blank ('?' :: after)).append (.placeholder after)
    exact (Leads.blank _).append (sign.append place)

theorem head?_ne (s : Separator) (after : List Char) : (s.text.toList ++ after).head? ≠ some '"' := by
  cases s <;> simp [text]

end Separator

inductive Part where
  | name (text : String)
  | separator (s : Separator)
  deriving DecidableEq, Repr

namespace Part

def text : Part → String
  | name text => quoted text
  | separator s => s.text

def tokens : Part → List Token
  | name text => [.quoted text]
  | separator s => s.tokens

def name? : Part → Option String
  | name text => some text
  | separator _ => none

def Apart (a b : Part) : Prop :=
  a.name? = none ∨ b.name? = none

instance : DecidableRel Apart :=
  fun a b => inferInstanceAs (Decidable (a.name? = none ∨ b.name? = none))

end Part

/-- Names and separators in a row, with no name right behind another. -/
structure NameList where
  parts : List Part
  apart : parts.IsChain Part.Apart

namespace NameList

def text (l : NameList) : String :=
  String.join (l.parts.map Part.text)

def tokens (l : NameList) : List Token :=
  l.parts.flatMap Part.tokens

def names (l : NameList) : List String :=
  l.parts.filterMap Part.name?

theorem leads_parts {parts : List Part} {after : List Char} (apart : parts.IsChain Part.Apart)
    (plain : ∀ name ∈ parts.filterMap Part.name?, '\x00' ∉ name.toList) (stop : after.head? ≠ some '"') :
    Leads (parts.flatMap fun p => p.text.toList) after (parts.flatMap Part.tokens) := by
  induction parts with
  | nil => exact .nil after
  | cons part parts ih =>
    rw [List.isChain_cons] at apart
    obtain ⟨beside, apart⟩ := apart
    cases part with
    | separator s => exact (s.leads _).append (ih apart plain)
    | name text =>
      have listed : (Part.name text).name? = some text := rfl
      rw [List.filterMap_cons_some listed, List.forall_mem_cons] at plain
      refine (Leads.quoted plain.1 ?_).append (ih apart plain.2)
      cases parts with
      | nil => exact stop
      | cons next parts =>
        cases next with
        | name other => exact absurd (beside _ rfl) (by simp [Part.Apart, Part.name?])
        | separator s =>
          rw [← List.flatMap_def, List.flatMap_cons, List.append_assoc]
          exact s.head?_ne _

theorem leads {l : NameList} {after : List Char} (plain : ∀ name ∈ l.names, '\x00' ∉ name.toList)
    (stop : after.head? ≠ some '"') : Leads l.text.toList after l.tokens := by
  have whole := leads_parts l.apart plain stop
  rw [text, String.toList_join, List.flatMap_map]
  exact whole

def separated (s : Separator) (names : List String) : NameList where
  parts := (names.map Part.name).intersperse (.separator s)
  apart := by
    induction names with
    | nil => exact .nil
    | cons name names ih =>
      cases names with
      | nil => exact .singleton _
      | cons next names => exact List.isChain_cons_cons.2 ⟨.inr rfl, List.isChain_cons.2 ⟨fun _ _ => .inl rfl, ih⟩⟩

theorem text_separated (s : Separator) (names : List String) :
    (separated s names).text = joined s.text (names.map quoted) := by
  induction names with
  | nil => rfl
  | cons name names ih =>
    cases names with
    | nil => exact String.join_cons.trans String.append_empty
    | cons next names =>
      rw [text] at ih ⊢
      simp only [separated, List.map_cons, List.intersperse_cons_cons, String.join_cons] at ih ⊢
      rw [ih]
      simp only [joined, Part.text, String.append_assoc]

theorem names_separated (s : Separator) (names : List String) : (separated s names).names = names := by
  induction names with
  | nil => rfl
  | cons name names ih =>
    cases names with
    | nil => rfl
    | cons next names => exact congrArg (name :: ·) ih

end NameList

end Lists

section Names

def Token.quotedName? : Token → Option String
  | .quoted name => some name
  | _ => none

def namesIn (tokens : List Token) : List String :=
  tokens.filterMap Token.quotedName?

/-- The quoted names that are read of a text, from left to right. -/
def quotedNames (sql : String) : List String :=
  namesIn ((lexemes sql).1.map Lexeme.token)

variable (text : String) (tokens : List Token)

@[simp] theorem namesIn_nil : namesIn [] = [] := rfl

@[simp] theorem namesIn_quoted : namesIn (.quoted text :: tokens) = text :: namesIn tokens := rfl

@[simp] theorem namesIn_word : namesIn (.word text :: tokens) = namesIn tokens := rfl

@[simp] theorem namesIn_number : namesIn (.number text :: tokens) = namesIn tokens := rfl

@[simp] theorem namesIn_symbol : namesIn (.symbol text :: tokens) = namesIn tokens := rfl

@[simp] theorem namesIn_placeholder : namesIn (.placeholder :: tokens) = namesIn tokens := rfl

@[simp] theorem namesIn_append (first second : List Token) : namesIn (first ++ second) = namesIn first ++ namesIn second :=
  List.filterMap_append

theorem namesIn_commaTokens (parts : List (List Token)) : namesIn (commaTokens parts) = parts.flatMap namesIn := by
  fun_induction commaTokens parts with
  | case1 => rfl
  | case2 last => exact (List.append_nil _).symm
  | case3 first next rest ih =>
    rw [namesIn_append, List.flatMap_cons, ← ih]
    rfl

theorem namesIn_listed {α : Type} {tokens : α → List Token} {name : α → String}
    (each : ∀ a, namesIn (tokens a) = [name a]) (items : List α) :
    namesIn (commaTokens (items.map tokens)) = items.map name := by
  rw [namesIn_commaTokens, List.flatMap_map, List.map_eq_flatMap]
  exact congrArg (List.flatMap · items) (funext each)

theorem Scans.quotedNames {sql : String} {tokens : List Token} (scans : Scans sql.toList tokens) :
    Sql.quotedNames sql = namesIn tokens := by
  rw [Sql.quotedNames, scans.lexemes.1]

theorem NameList.namesIn_tokens (l : NameList) : namesIn l.tokens = l.names := by
  have each (p : Part) : namesIn p.tokens = p.name?.toList := by
    rcases p with _ | s
    · rfl
    · cases s <;> rfl
  rw [namesIn, tokens, List.filterMap_flatMap, names, List.filterMap_eq_flatMap_toList]
  exact congrArg (List.flatMap · l.parts) (funext each)

theorem NameList.quotedNames {l : NameList} (plain : ∀ name ∈ l.names, '\x00' ∉ name.toList) {after : String}
    (stop : after.toList.head? ≠ some '"') : Sql.quotedNames (l.text ++ after) = l.names ++ Sql.quotedNames after := by
  rw [Sql.quotedNames, lexemes_eq_readingOf, String.toList_append, (leads plain stop).reads.1, namesIn_append,
    l.namesIn_tokens]
  rfl

theorem NameList.quotedNames_text {l : NameList} (plain : ∀ name ∈ l.names, '\x00' ∉ name.toList) :
    Sql.quotedNames l.text = l.names := by
  have stop : "".toList.head? ≠ some '"' := by decide
  have nothing : Sql.quotedNames "" = [] := rfl
  have whole := quotedNames plain stop
  rwa [String.append_empty, nothing, List.append_nil] at whole

end Names

section Clauses

def Condition.names (c : Condition) : List String :=
  (columnsOf c.pieces).map ColumnName.name

def filterNames (filter : Option Condition) : List String :=
  filter.elim [] Condition.names

@[simp] theorem namesIn_column (c : ColumnName) : namesIn c.tokens = [c.name] := rfl

@[simp] theorem namesIn_placeholders (values : List Value) : namesIn (placeholderTokens values) = [] := by
  fun_induction placeholderTokens values with
  | case1 => rfl
  | case2 => rfl
  | case3 v next rest ih => exact ih

@[simp] theorem Condition.namesIn_tokens (c : Condition) : namesIn c.tokens = c.names := by
  induction c with
  | constant holds => cases holds <;> rfl
  | columns left op right => rfl
  | value c op v => rfl
  | null c negated => cases negated <;> rfl
  | member c values negated =>
    simp only [tokens, names, pieces, namesIn_append, namesIn_placeholders, columnsOf_append, columnsOf_placeholders]
    cases negated <;> rfl
  | glob c folded pattern => cases folded <;> rfl
  | and left right ihLeft ihRight | or left right ihLeft ihRight =>
    rw [names] at ihLeft ihRight ⊢
    simp only [tokens, pieces, namesIn_append, columnsOf_append, List.map_append, ihLeft, ihRight]
    rfl
  | not inner ih =>
    rw [names] at ih ⊢
    simp only [tokens, pieces, namesIn_append, columnsOf_append, List.map_append, ih]
    rfl

@[simp] theorem namesIn_filterTokens (filter : Option Condition) : namesIn (filterTokens filter) = filterNames filter := by
  cases filter with
  | none => rfl
  | some condition => exact condition.namesIn_tokens

def Link.names (l : Link) : List String :=
  [l.source.table, l.left.name, l.right.name]

def Rows.names (r : Rows) : List String :=
  r.source.table :: (r.links.flatMap Link.names ++ filterNames r.filter)

@[simp] theorem namesIn_from (r : Rows) : namesIn r.fromTokens = r.source.table :: r.links.flatMap Link.names := by
  rw [Rows.fromTokens, namesIn_append, namesIn, namesIn, List.filterMap_flatMap]
  rfl

def ColumnName.itemNames (c : ColumnName) : List String :=
  [c.name, c.label ++ "." ++ c.name]

@[simp] theorem namesIn_items (columns : List ColumnName) :
    namesIn (commaTokens (columns.map ColumnName.itemTokens)) = columns.flatMap ColumnName.itemNames := by
  rw [namesIn_commaTokens, List.flatMap_map]
  rfl

@[simp] theorem namesIn_columns (columns : List ColumnName) :
    namesIn (commaTokens (columns.map ColumnName.tokens)) = columns.map ColumnName.name :=
  namesIn_listed namesIn_column columns

@[simp] theorem namesIn_names (names : List String) :
    namesIn (commaTokens (names.map fun name => [.quoted name])) = names :=
  (namesIn_listed (fun _ => rfl) names).trans (List.map_id names)

@[simp] theorem namesIn_row (n : Nat) : namesIn (commaTokens (List.replicate n [.placeholder])) = [] := by
  rw [namesIn_commaTokens]
  refine List.flatMap_eq_nil_iff.2 fun part member => ?_
  rw [List.eq_of_mem_replicate member]
  rfl

@[simp] theorem namesIn_assignments (assignments : List (String × Value)) :
    namesIn (commaTokens (assignments.map assignmentTokens)) = assignments.map Prod.fst :=
  namesIn_listed (fun _ => rfl) assignments

@[simp] theorem ColumnDefinition.namesIn_tokens (c : ColumnDefinition) : namesIn c.tokens = [c.name] := by
  unfold tokens
  cases c.key <;> cases c.required <;> rfl

@[simp] theorem TableDefinition.namesIn_tokens (t : TableDefinition) :
    namesIn t.tokens = t.name :: (t.columns.map ColumnDefinition.name ++ t.key) := by
  have columns : (t.columns.map fun c => (c.text, c.tokens)).flatMap (fun part => namesIn part.2) =
      t.columns.map ColumnDefinition.name := by
    rw [List.flatMap_map, List.map_eq_flatMap]
    exact congrArg (List.flatMap · t.columns) (funext ColumnDefinition.namesIn_tokens)
  have entries : namesIn (commaTokens (t.parts.map Prod.snd)) = t.columns.map ColumnDefinition.name ++ t.key := by
    rw [namesIn_commaTokens, List.flatMap_map, parts, List.flatMap_append, columns]
    split
    · rename_i none
      rw [List.isEmpty_iff.1 none]
      rfl
    · simp
  simp [tokens, entries]

@[simp] theorem IndexDefinition.namesIn_tokens (i : IndexDefinition) :
    namesIn i.tokens = i.name :: i.table :: i.columns := by
  unfold tokens
  cases i.unique <;> simp

@[simp] theorem namesIn_order (order : List OrderTerm) : namesIn (orderTokens order) = order.map fun t => t.column.name := by
  unfold orderTokens
  split
  · rename_i none
    rw [List.isEmpty_iff.1 none]
    rfl
  · have terms (t : OrderTerm) : namesIn t.tokens = [t.column.name] := by
      rw [OrderTerm.tokens, namesIn_append]
      rfl
    exact namesIn_listed terms order

@[simp] theorem namesIn_window (window : Option Window) : namesIn (windowTokens window) = [] := by
  cases window <;> rfl

end Clauses

section Commands

def inQuotes (names : List WrittenName) : List String :=
  (names.filter WrittenName.inQuotes).map WrittenName.name

/-- The names that are quoted in the text of a command, from left to right. -/
def Command.names : Command → List String
  | .select columns rows order _ =>
    columns.flatMap ColumnName.itemNames ++ rows.names ++ order.map fun t => t.column.name
  | .count rows | .countWindow rows _ => rows.names
  | .countDistinct columns rows _ => columns.map ColumnName.name ++ rows.names
  | .insert table columns _ | .insertOrRollback table columns _ => table :: columns.getD []
  | .update table assignments filter => table :: (assignments.map Prod.fst ++ filterNames filter)
  | .delete table filter => table :: filterNames filter
  | .createTable table _ => table.name :: (table.columns.map ColumnDefinition.name ++ table.key)
  | .dropTable table => [table]
  | .addColumn table column => [table, column.name]
  | .createIndex index => index.name :: index.table :: index.columns
  | .tableInfo _ => ["notnull"]
  | .project names table order => inQuotes names ++ table :: inQuotes order
  | .tableExists _ | .indexNames | .terms .. | .begin | .commit | .rollback => []

theorem Command.Writable.quotedNames {c : Command} {written : List Value} {filter : Option Condition}
    {window : Option Window} (writable : c.Writable written filter window) : Sql.quotedNames c.text = c.names := by
  cases writable with
  | select listed read ordered =>
    rw [(scans_select listed read ordered _).quotedNames]
    simp [names, Rows.names]
  | count read =>
    rw [(scans_count read).quotedNames]
    simp [names, Rows.names, countFromTokens]
  | countWindow read =>
    rw [(scans_countWindow read _).quotedNames]
    simp [names, Rows.names, countFromTokens]
  | countDistinct listed read =>
    rw [(scans_countDistinct listed read _).quotedNames]
    simp [names, Rows.names, countFromTokens]
  | insert plain columns =>
    rw [(scans_insert plain columns _).quotedNames]
    simp [names]
  | update plain columns filtered =>
    rw [(scans_update plain columns filtered).quotedNames]
    simp [names]
  | delete plain filtered =>
    rw [(scans_delete plain filtered).quotedNames]
    simp [names]
  | create writable =>
    rw [(TableDefinition.scans writable).quotedNames]
    exact TableDefinition.namesIn_tokens _
  | drop plain =>
    rw [(scans_drop plain).quotedNames]
    rfl
  | addColumn plain writable =>
    rw [(ColumnDefinition.scans_added plain writable).quotedNames]
    simp [names]
  | createIndex writable =>
    rw [(IndexDefinition.scans writable).quotedNames]
    exact IndexDefinition.namesIn_tokens _
  | tableExists name =>
    rw [(scans_tableExists name).quotedNames]
    rfl
  | tableInfo name =>
    rw [(scans_tableInfo name).quotedNames]
    rfl

end Commands

/-- A quoted name is one token that ends with its quotation, whatever stands in it. So names that separators keep apart
    are read back as they were listed, and the names in a statement that the library writes are those of its command. -/
theorem quoted_reads_back :
    (∀ (name : String) (after : List Char),
      token? ((quoted name).toList ++ after) = some (.quoted name, after) ↔ after.head? ≠ some '"') ∧
    (∀ name after : String, '\x00' ∉ name.toList → after.toList.head? ≠ some '"' →
      lexemes (quoted name ++ after) =
        precededBy [⟨.quoted name, ⟨quoted name, 0⟩⟩] (movedBy (byteCount (quoted name).toList) (lexemes after))) ∧
    Function.Injective quoted ∧
    (∀ (l : NameList) (after : String), (∀ name ∈ l.names, '\x00' ∉ name.toList) → after.toList.head? ≠ some '"' →
      (lexemes (l.text ++ after)).1.map Lexeme.token = l.tokens ++ (lexemes after).1.map Lexeme.token ∧
      (lexemes (l.text ++ after)).2 = (lexemes after).2.map (Mark.moved (byteCount l.text.toList)) ∧
      quotedNames (l.text ++ after) = l.names ++ quotedNames after) ∧
    (∀ (s : Separator) (names : List String), (∀ name ∈ names, '\x00' ∉ name.toList) →
      quotedNames (joined s.text (names.map quoted)) = names) ∧
    ∀ (command : Command) (written literals : List Value) (window : Option Window),
      Generated command written literals window → quotedNames command.text = command.names := by
  refine ⟨token?_quoted_iff, fun name after => lexemes_quoted, quoted_injective, ?_, ?_, ?_⟩
  · intro l after plain stop
    have reads := (l.leads plain stop).reads
    rw [lexemes_eq_readingOf, lexemes_eq_readingOf, String.toList_append]
    exact ⟨reads.1, reads.2, l.quotedNames plain stop⟩
  · intro s names plain
    rw [← NameList.names_separated s names] at plain
    have whole := NameList.quotedNames_text plain
    rwa [NameList.text_separated, NameList.names_separated] at whole
  · intro command written literals window generated
    obtain ⟨filter, -, writable⟩ := generated.writable
    exact writable.quotedNames

section Riddles

def riddleNames : NameList where
  parts := [.name "\"", .separator .dot, .name "\".\"", .separator .comma, .name ") = ?", .separator .assigned,
    .separator .comma, .name "\", \"", .separator .closing]
  apart := by decide

theorem quoted_reads_back_riddles :
    lexemes (quoted "a\"" ++ " = ?") =
      ([⟨.quoted "a\"", ⟨"\"a\"\"\"", 0⟩⟩, ⟨.symbol "=", ⟨"=", 6⟩⟩, ⟨.placeholder, ⟨"?", 8⟩⟩], none) ∧
    riddleNames.text = "\"\"\"\".\"\"\".\"\"\", \") = ?\" = ?, \"\"\", \"\"\")" ∧
    quotedNames (riddleNames.text ++ " AS \"x\"") = ["\"", "\".\"", ") = ?", "\", \"", "x"] ∧
    quotedNames (joined ", " (["\"", ", "].map quoted)) = ["\"", ", "] ∧
    quotedNames riddleCommand.text = ["a\"?", "t0.a\"?", "LIMIT ? OFFSET ?", "t0.LIMIT ? OFFSET ?", "what? WHERE", "a\"?",
      "LIMIT ? OFFSET ?", "LIMIT ? OFFSET ?", "a\"?"] := by
  obtain ⟨-, single, -, lists, separated, generated⟩ := quoted_reads_back
  have first := single "a\"" " = ?" (by decide) (by decide)
  have listed := (lists riddleNames " AS \"x\"" (by decide) (by decide)).2.2
  have label : quotedNames " AS \"x\"" = ["x"] := by decide +kernel
  rw [label] at listed
  have joined := separated .comma ["\"", ", "] (by decide)
  have plain : riddlePlan.Plain := ⟨⟨by decide, by decide⟩, fun j none => absurd none List.not_mem_nil⟩
  have made : riddlePlan.select = .ok riddleCommand := rfl
  have command := generated riddleCommand _ _ _ (.select plain made)
  exact ⟨first.trans (by decide +kernel), by decide +kernel, listed, joined, command.trans (by decide +kernel)⟩

end Riddles

end RecordMapper.Sql
