import RecordMapper.Proofs.Statement.Parameters

namespace RecordMapper.Sql

open RecordMapper.Text

section Quotation

theorem unquote_doubled_mark (mark : Char) (text after : List Char) :
    unquote mark (doubled mark text ++ mark :: mark :: after) =
      (unquote mark after).map fun found => (text ++ mark :: found.1, found.2) := by
  induction text with
  | nil => simp [doubled, unquote]
  | cons c rest ih =>
    by_cases same : c = mark
    · subst c
      simp [doubled, unquote, ih, Function.comp_def]
    · rw [doubled, if_neg same, List.cons_append, unquote.eq_def]
      simp [same, ih, Function.comp_def]

/-- A quoted name is read as a token of its own exactly if no quotation mark follows it. -/
theorem token?_quoted_iff (name : String) (after : List Char) :
    token? ((quoted name).toList ++ after) = some (.quoted name, after) ↔ after.head? ≠ some '"' := by
  refine ⟨fun read mark => ?_, token?_quoted name after⟩
  obtain ⟨rest, rfl⟩ : ∃ rest, after = '"' :: rest := List.head?_eq_some_iff.1 mark
  have longer : token? ((quoted name).toList ++ '"' :: rest) =
      (unquote '"' rest).map fun found => (.quoted (String.ofList (name.toList ++ '"' :: found.1)), found.2) := by
    rw [quoted, toList_quotedWith]
    simp [token?, unquote_doubled_mark, Function.comp_def]
  rw [longer] at read
  obtain ⟨found, -, same⟩ := Option.map_eq_some_iff.1 read
  have lengths : (name.toList ++ '"' :: found.1).length = name.toList.length := by
    rw [← String.toList_ofList (l := name.toList ++ '"' :: found.1), Token.quoted.inj (Prod.mk.inj same).1]
  simp at lengths

theorem quoted_injective : Function.Injective quoted := by
  intro first second same
  have read := token?_quoted first [] (by simp)
  rw [same, token?_quoted second [] (by simp)] at read
  exact (Token.quoted.inj (Prod.mk.inj (Option.some.inj read)).1).symm

end Quotation

section Places

def Mark.moved (n : Nat) (m : Mark) : Mark :=
  { m with offset := m.offset + n }

def Lexeme.moved (n : Nat) (l : Lexeme) : Lexeme :=
  { l with mark := l.mark.moved n }

def movedBy (n : Nat) (read : List Lexeme × Option Mark) : List Lexeme × Option Mark :=
  (read.1.map (Lexeme.moved n), read.2.map (Mark.moved n))

def precededBy (front : List Lexeme) (read : List Lexeme × Option Mark) : List Lexeme × Option Mark :=
  (front ++ read.1, read.2)

theorem movedBy_zero (read : List Lexeme × Option Mark) : movedBy 0 read = read := by
  have marks : Mark.moved 0 = id := rfl
  have lexemes : Lexeme.moved 0 = id := rfl
  rw [movedBy, marks, lexemes, List.map_id, Option.map_id, id_eq]

theorem movedBy_precededBy (n : Nat) (front : List Lexeme) (read : List Lexeme × Option Mark) :
    movedBy n (precededBy front read) = precededBy (front.map (Lexeme.moved n)) (movedBy n read) := by
  simp only [movedBy, precededBy, List.map_append]

theorem precededBy_precededBy (first second : List Lexeme) (read : List Lexeme × Option Mark) :
    precededBy first (precededBy second read) = precededBy (first ++ second) read := by
  simp only [precededBy, List.append_assoc]

theorem movedBy_movedBy (m n : Nat) (read : List Lexeme × Option Mark) :
    movedBy m (movedBy n read) = movedBy (m + n) read := by
  have marks : Mark.moved m ∘ Mark.moved n = Mark.moved (m + n) := by
    funext mark
    simp only [Function.comp_apply, Mark.moved, Mark.mk.injEq, true_and]
    omega
  have lexemes : Lexeme.moved m ∘ Lexeme.moved n = Lexeme.moved (m + n) := by
    funext l
    exact congrArg (Lexeme.mk l.token) (congrFun marks l.mark)
  simp only [movedBy, List.map_map, Option.map_map, marks, lexemes]

theorem tokens_moved (n : Nat) (lexemes : List Lexeme) :
    (lexemes.map (Lexeme.moved n)).map Lexeme.token = lexemes.map Lexeme.token := by
  rw [List.map_map]
  rfl

theorem lexemesFrom_movedBy (fuel start n : Nat) (text : List Char) :
    lexemesFrom fuel (start + n) text = movedBy n (lexemesFrom fuel start text) := by
  induction fuel generalizing start text with
  | zero => rfl
  | succ fuel ih =>
    have shifted (s k : Nat) : s + n + k = s + k + n := Nat.add_right_comm s n k
    simp only [lexemesFrom, shifted start]
    split
    · rfl
    · split
      · rfl
      · rw [shifted, ih]
        rfl

theorem lexemesFrom_enough {fuel fuel' : Nat} (start : Nat) {text : List Char} (enough : text.length < fuel)
    (enough' : text.length < fuel') : lexemesFrom fuel start text = lexemesFrom fuel' start text := by
  induction fuel generalizing fuel' start text with
  | zero => omega
  | succ fuel ih =>
    obtain ⟨fuel', rfl⟩ : ∃ n, fuel' = n + 1 := ⟨fuel' - 1, by omega⟩
    have trimmed := length_dropWhile_le isAsciiBlank text
    simp only [lexemesFrom]
    split
    · rfl
    · split
      · rfl
      · rename_i after found
        have shorter := length_token? _ _ _ found
        have rest (start : Nat) : lexemesFrom fuel start after = lexemesFrom fuel' start after :=
          ih start (by omega) (by omega)
        rw [rest]

end Places

section Reading

/-- What the engine reads of a text, which is nothing from its first U+0000 on. -/
def readingOf (text : List Char) : List Lexeme × Option Mark :=
  lexemesFrom ((cut text).length + 1) 0 (cut text)

theorem lexemes_eq_readingOf (sql : String) : lexemes sql = readingOf sql.toList := rfl

theorem readingOf_enough {fuel : Nat} (start : Nat) {text : List Char} (enough : (cut text).length < fuel) :
    lexemesFrom fuel start (cut text) = movedBy start (readingOf text) := by
  rw [readingOf, ← lexemesFrom_movedBy, Nat.zero_add]
  exact lexemesFrom_enough start enough (Nat.lt_succ_self _)

theorem takenText_append (text after : List Char) : takenText (text ++ after) after = text := by
  have length : (text ++ after).length - after.length = text.length := by
    rw [List.length_append]
    omega
  rw [takenText, length]
  exact List.take_left

variable {text after : List Char} {t : Token}

/-- A token at the beginning of a text; behind it, the text is read as if it stood alone. -/
theorem readingOf_token (plain : '\x00' ∉ text) (solid : ∀ c ∈ text.head?, isAsciiBlank c = false)
    (first : token? (text ++ cut after) = some (t, cut after)) :
    readingOf (text ++ after) =
      precededBy [⟨t, ⟨String.ofList text, 0⟩⟩] (movedBy (byteCount text) (readingOf after)) := by
  have shorter := length_token? _ _ _ first
  rw [readingOf, cut_append plain]
  cases text with
  | nil => exact absurd shorter (Nat.lt_irrefl _)
  | cons c rest =>
    have taken : takenText (c :: (rest ++ cut after)) (cut after) = c :: rest :=
      takenText_append (c :: rest) (cut after)
    rw [List.cons_append] at first shorter ⊢
    rw [lexemesFrom_token _ 0 (solid c rfl) first, taken, Nat.zero_add, readingOf_enough _ shorter]
    rfl

theorem readingOf_blank {c : Char} (blank : isAsciiBlank c = true) (after : List Char) :
    readingOf (c :: after) = movedBy 1 (readingOf after) := by
  have plain : '\x00' ∉ [c] := by
    intro zero
    rw [← List.mem_singleton.1 zero] at blank
    exact absurd blank (by decide)
  have kept : cut (c :: after) = c :: cut after := cut_append plain after
  rw [readingOf, kept, List.length_cons, lexemesFrom_blank _ _ _ _ blank, Nat.zero_add]
  exact readingOf_enough 1 (Nat.lt_succ_of_lt (Nat.lt_succ_self _))

theorem cut_head?_ne {d : Char} (other : after.head? ≠ some d) : (cut after).head? ≠ some d := by
  cases after with
  | nil => simp [cut]
  | cons c after =>
    by_cases zero : c = '\x00'
    · simp [cut, zero]
    · simpa [cut, zero] using other

theorem lexemes_quoted {name after : String} (plain : '\x00' ∉ name.toList) (stop : after.toList.head? ≠ some '"') :
    lexemes (quoted name ++ after) =
      precededBy [⟨.quoted name, ⟨quoted name, 0⟩⟩] (movedBy (byteCount (quoted name).toList) (lexemes after)) := by
  have first := token?_quoted name (cut after.toList) (cut_head?_ne stop)
  have solid : ∀ c ∈ (quoted name).toList.head?, isAsciiBlank c = false := by
    rw [quoted, toList_quotedWith]
    rintro c ⟨⟩
    rfl
  rw [lexemes_eq_readingOf, String.toList_append, readingOf_token (zero_not_mem_quoted plain) solid first,
    String.ofList_toList]
  rfl

end Reading

end RecordMapper.Sql
