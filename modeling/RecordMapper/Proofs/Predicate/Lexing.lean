import Mathlib.Data.List.TakeWhile
import RecordMapper.Sql.Token

namespace RecordMapper.Sql

open RecordMapper.Text

inductive Lexes : List Char → List Token → Prop where
  | done : Lexes [] []
  | blank {c : Char} {rest : List Char} {tokens : List Token} (space : isAsciiBlank c = true)
      (tail : Lexes rest tokens) : Lexes (c :: rest) tokens
  | token {c : Char} {rest after : List Char} {t : Token} {tokens : List Token}
      (solid : isAsciiBlank c = false) (first : token? (c :: rest) = some (t, after))
      (tail : Lexes after tokens) : Lexes (c :: rest) (t :: tokens)

theorem length_dropWhile_le {α : Type} (p : α → Bool) (cs : List α) :
    (cs.dropWhile p).length ≤ cs.length :=
  (List.dropWhile_sublist p).length_le

theorem isWordStart_iff (c : Char) : isWordStart c = true ↔
    (65 ≤ c.toNat ∧ c.toNat ≤ 90) ∨ (97 ≤ c.toNat ∧ c.toNat ≤ 122) ∨ c.toNat = 95 ∨ 127 < c.toNat := by
  have underscore : c = '_' ↔ c.toNat = 95 := ⟨fun same => same ▸ rfl, fun same => Char.toNat_inj.1 same⟩
  have upper : c.isUpper = decide (65 ≤ c.val ∧ c.val ≤ 90) := rfl
  have lower : c.isLower = (decide (97 ≤ c.val) && decide (c.val ≤ 122)) := rfl
  have letter : c.isAlpha = (c.isUpper || c.isLower) := rfl
  simp only [isWordStart, letter, upper, lower, Bool.or_eq_true, Bool.and_eq_true, decide_eq_true_eq, beq_iff_eq,
    UInt32.le_iff_toNat_le, underscore, or_assoc]
  exact Iff.rfl

theorem isDigit_iff (c : Char) : isDigit c = true ↔ 48 ≤ c.toNat ∧ c.toNat ≤ 57 := by
  simp only [isDigit, Bool.and_eq_true, decide_eq_true_eq, Char.le_def, UInt32.le_iff_toNat_le]
  exact Iff.rfl

theorem not_isAsciiBlank_of_high {c : Char} (h : 32 < c.toNat) : isAsciiBlank c = false := by
  simp only [isAsciiBlank, Bool.or_eq_false_iff, Bool.and_eq_false_iff, decide_eq_false_iff_not,
    beq_eq_false_iff_ne]
  omega

theorem not_isAsciiBlank_of_isWordStart {c : Char} (h : isWordStart c = true) : isAsciiBlank c = false := by
  rw [isWordStart_iff] at h
  exact not_isAsciiBlank_of_high (by omega)

theorem not_isWordStart_of_isDigit {c : Char} (h : isDigit c = true) : isWordStart c = false := by
  rw [isDigit_iff] at h
  rw [← Bool.not_eq_true, isWordStart_iff]
  omega

def isWord (text : String) : Bool :=
  match text.toList with
  | [] => false
  | c :: rest => isWordStart c && rest.all isWordPart

def isSign (c : Char) : Bool :=
  c != '?' && c != '"' && c != '\'' && !isWordStart c && !isDigit c && !isAsciiBlank c

theorem length_token? (text after : List Char) (t : Token) (h : token? text = some (t, after)) :
    after.length < text.length := by
  unfold token? at h
  split at h
  · cases h
  · cases h
    simp
  · obtain ⟨_, found, same⟩ := Option.map_eq_some_iff.1 h
    cases same
    exact Nat.lt_succ_of_lt (length_unquote _ _ _ _ found)
  · obtain ⟨_, found, same⟩ := Option.map_eq_some_iff.1 h
    cases same
    exact Nat.lt_succ_of_lt (length_unquote _ _ _ _ found)
  · rename_i c rest _ _ _
    have words := length_dropWhile_le isWordPart rest
    have digits := length_dropWhile_le isDigit rest
    simp only [List.length_cons]
    split at h
    · cases h
      omega
    · split at h
      · cases h
        omega
      · split at h
        · split at h <;> cases h <;> simp only [List.length_cons] <;> omega
        · cases h
          simp

theorem takeWhile_run {p : Char → Bool} {c after : List Char} (all : ∀ d ∈ c, p d = true)
    (stop : ∀ d ∈ after.head?, p d = false) :
    (c ++ after).takeWhile p = c ∧ (c ++ after).dropWhile p = after := by
  rw [List.takeWhile_append_of_pos all, List.dropWhile_append_of_pos all]
  cases after with
  | nil => simp
  | cons d after => simp [stop d (by simp)]

theorem lexemesFrom_blank (fuel start : Nat) (c : Char) (rest : List Char) (h : isAsciiBlank c = true) :
    lexemesFrom (fuel + 1) start (c :: rest) = lexemesFrom (fuel + 1) (start + 1) rest := by
  have bound := length_dropWhile_le isAsciiBlank rest
  have moved : start + (rest.length + 1 - (rest.dropWhile isAsciiBlank).length) =
      start + 1 + (rest.length - (rest.dropWhile isAsciiBlank).length) := by omega
  simp only [lexemesFrom, List.dropWhile_cons_of_pos h, List.length_cons, moved]

def takenText (text after : List Char) : List Char :=
  text.take (text.length - after.length)

theorem lexemesFrom_token (fuel start : Nat) {c : Char} {rest after : List Char} {t : Token}
    (solid : isAsciiBlank c = false) (first : token? (c :: rest) = some (t, after)) :
    lexemesFrom (fuel + 1) start (c :: rest) =
      (⟨t, ⟨String.ofList (takenText (c :: rest) after), start⟩⟩ ::
        (lexemesFrom fuel (start + byteCount (takenText (c :: rest) after)) after).1,
        (lexemesFrom fuel (start + byteCount (takenText (c :: rest) after)) after).2) := by
  have stays : (c :: rest).dropWhile isAsciiBlank = c :: rest :=
    List.dropWhile_cons_of_neg (by simp [solid])
  simp only [lexemesFrom, takenText, stays, Nat.sub_self, Nat.add_zero, List.isEmpty_cons, Bool.false_eq_true,
    if_false, first]

theorem lexemesFrom_of_lexes {text : List Char} {tokens : List Token} (h : Lexes text tokens)
    (fuel start : Nat) (enough : text.length < fuel) :
    (lexemesFrom fuel start text).1.map Lexeme.token = tokens ∧ (lexemesFrom fuel start text).2 = none := by
  induction h generalizing fuel start with
  | done =>
    obtain ⟨fuel, rfl⟩ : ∃ n, fuel = n + 1 := ⟨fuel - 1, by omega⟩
    simp [lexemesFrom]
  | blank space tail ih =>
    obtain ⟨fuel, rfl⟩ : ∃ n, fuel = n + 1 := ⟨fuel - 1, by omega⟩
    rw [lexemesFrom_blank _ _ _ _ space]
    apply ih
    simp only [List.length_cons] at enough
    omega
  | @token c rest after t tokens solid first tail ih =>
    obtain ⟨fuel, rfl⟩ : ∃ n, fuel = n + 1 := ⟨fuel - 1, by omega⟩
    have shorter := length_token? _ _ _ first
    have inner := ih fuel (start + byteCount (takenText (c :: rest) after)) (by omega)
    rw [lexemesFrom_token fuel start solid first]
    exact ⟨congrArg (t :: ·) inner.1, inner.2⟩

theorem lexemes_of_lexes (sql : String) (tokens : List Token) (h : Lexes sql.toList tokens)
    (whole : '\x00' ∉ sql.toList) :
    (lexemes sql).1.map Lexeme.token = tokens ∧ (lexemes sql).2 = none := by
  have all : sql.toList.takeWhile (· != '\x00') = sql.toList := by
    rw [List.takeWhile_eq_self_iff]
    intro c member
    simpa using fun same : c = '\x00' => whole (same ▸ member)
  simp only [lexemes, all]
  exact lexemesFrom_of_lexes h _ _ (Nat.lt_succ_self _)

theorem token?_word (text : String) (spelled : isWord text = true) {after : List Char}
    (stop : ∀ d ∈ after.head?, isWordPart d = false) :
    ∃ c rest, text.toList ++ after = c :: rest ∧ isAsciiBlank c = false ∧ token? (c :: rest) = some (.word text, after) := by
  have same : text = String.ofList text.toList := (String.ofList_toList).symm
  unfold isWord at spelled
  cases found : text.toList with
  | nil => simp [found] at spelled
  | cons c cs =>
    simp only [found, Bool.and_eq_true, List.all_eq_true] at spelled
    obtain ⟨kept, left⟩ := takeWhile_run spelled.2 stop
    have apart : c ≠ '?' ∧ c ≠ '"' ∧ c ≠ '\'' := by
      refine ⟨?_, ?_, ?_⟩ <;> rintro rfl <;> exact absurd spelled.1 (by decide)
    refine ⟨c, cs ++ after, rfl, not_isAsciiBlank_of_isWordStart spelled.1, ?_⟩
    rw [token?.eq_def, same, found]
    simp [apart, spelled.1, kept, left]

theorem token?_sign {c : Char} {after : List Char} (sign : isSign c = true)
    (alone : ∀ d ∈ after.head?, (c, d) ∉ signPairs) :
    isAsciiBlank c = false ∧ token? (c :: after) = some (.symbol (String.ofList [c]), after) := by
  simp only [isSign, Bool.and_eq_true, Bool.not_eq_true', bne_iff_ne, ne_eq] at sign
  obtain ⟨⟨⟨⟨⟨notMark, notQuote⟩, notTick⟩, notWord⟩, notDigit⟩, solid⟩ := sign
  refine ⟨solid, ?_⟩
  rw [token?.eq_def]
  cases after with
  | nil => simp [notWord, notDigit]
  | cons d after => simp [notWord, notDigit, alone d (by simp)]

theorem token?_lone {c : Char} {after : List Char} (sign : isSign c = true) (single : ∀ p ∈ signPairs, p.1 ≠ c) :
    isAsciiBlank c = false ∧ token? (c :: after) = some (.symbol (String.ofList [c]), after) :=
  token?_sign sign fun _ _ member => single _ member rfl

namespace Lexes

variable {rest after : List Char} {tokens : List Token}

theorem space (tail : Lexes rest tokens) : Lexes (' ' :: rest) tokens :=
  .blank rfl tail

theorem word (text : String) (spelled : isWord text = true) (stop : ∀ d ∈ after.head?, isWordPart d = false)
    (tail : Lexes after tokens) : Lexes (text.toList ++ after) (.word text :: tokens) := by
  obtain ⟨c, rest, written, solid, first⟩ := token?_word text spelled stop
  rw [written]
  exact .token solid first tail

theorem quoted (name : String) (stop : after.head? ≠ some '"') (tail : Lexes after tokens) :
    Lexes ((RecordMapper.Text.quoted name).toList ++ after) (.quoted name :: tokens) := by
  have first := token?_quoted name after stop
  rw [RecordMapper.Text.quoted, toList_quotedWith, List.cons_append] at first ⊢
  exact .token rfl first tail

theorem placeholder (tail : Lexes rest tokens) : Lexes ('?' :: rest) (.placeholder :: tokens) :=
  .token rfl rfl tail

theorem number (digit : Char) (isOne : isDigit digit = true) (stop : ∀ d ∈ after.head?, isDigit d = false)
    (tail : Lexes after tokens) : Lexes (digit :: after) (.number (String.ofList [digit]) :: tokens) := by
  obtain ⟨kept, left⟩ := takeWhile_run (p := isDigit) (c := []) (by simp) stop
  have apart : digit ≠ '?' ∧ digit ≠ '"' ∧ digit ≠ '\'' := by
    refine ⟨?_, ?_, ?_⟩ <;> rintro rfl <;> exact absurd isOne (by decide)
  have first : token? (digit :: after) = some (.number (String.ofList [digit]), after) := by
    rw [List.nil_append] at kept left
    rw [token?.eq_def]
    simp [apart, isOne, kept, left, not_isWordStart_of_isDigit isOne]
  have high := (isDigit_iff digit).1 isOne
  exact .token (not_isAsciiBlank_of_high (by omega)) first tail

theorem symbol {c : Char} (sign : isSign c = true) (alone : ∀ d ∈ after.head?, (c, d) ∉ signPairs)
    (tail : Lexes after tokens) : Lexes (c :: after) (.symbol (String.ofList [c]) :: tokens) := by
  obtain ⟨solid, first⟩ := token?_sign sign alone
  exact .token solid first tail

theorem lone {c : Char} (sign : isSign c = true) (single : ∀ p ∈ signPairs, p.1 ≠ c) (tail : Lexes after tokens) :
    Lexes (c :: after) (.symbol (String.ofList [c]) :: tokens) := by
  obtain ⟨solid, first⟩ := token?_lone sign single
  exact .token solid first tail

theorem pair {c d : Char} (sign : isSign c = true) (paired : (c, d) ∈ signPairs) (tail : Lexes after tokens) :
    Lexes (c :: d :: after) (.symbol (String.ofList [c, d]) :: tokens) := by
  simp only [isSign, Bool.and_eq_true, Bool.not_eq_true', bne_iff_ne, ne_eq] at sign
  obtain ⟨⟨⟨⟨⟨notMark, notQuote⟩, notTick⟩, notWord⟩, notDigit⟩, solid⟩ := sign
  have first : token? (c :: d :: after) = some (.symbol (String.ofList [c, d]), after) := by
    rw [token?.eq_def]
    simp [notWord, notDigit, paired]
  exact .token solid first tail

end Lexes

/-- A text that ends inside of a token. -/
inductive Breaks : List Char → Prop where
  | blank {c : Char} {rest : List Char} (space : isAsciiBlank c = true) (tail : Breaks rest) : Breaks (c :: rest)
  | token {c : Char} {rest after : List Char} {t : Token} (solid : isAsciiBlank c = false)
      (first : token? (c :: rest) = some (t, after)) (tail : Breaks after) : Breaks (c :: rest)
  | within {c : Char} {rest : List Char} (solid : isAsciiBlank c = false) (endless : token? (c :: rest) = none) :
      Breaks (c :: rest)

theorem lexemesFrom_of_breaks {text : List Char} (breaks : Breaks text) (fuel start : Nat)
    (enough : text.length < fuel) : (lexemesFrom fuel start text).2 ≠ none := by
  induction breaks generalizing fuel start with
  | blank space tail ih =>
    obtain ⟨fuel, rfl⟩ : ∃ n, fuel = n + 1 := ⟨fuel - 1, by omega⟩
    rw [lexemesFrom_blank _ _ _ _ space]
    apply ih
    simp only [List.length_cons] at enough
    omega
  | @token c rest after t solid first tail ih =>
    obtain ⟨fuel, rfl⟩ : ∃ n, fuel = n + 1 := ⟨fuel - 1, by omega⟩
    have shorter := length_token? _ _ _ first
    rw [lexemesFrom_token fuel start solid first]
    exact ih fuel (start + byteCount (takenText (c :: rest) after)) (by omega)
  | @within c rest solid endless =>
    obtain ⟨fuel, rfl⟩ : ∃ n, fuel = n + 1 := ⟨fuel - 1, by omega⟩
    have stays : (c :: rest).dropWhile isAsciiBlank = c :: rest :=
      List.dropWhile_cons_of_neg (by simp [solid])
    simp [lexemesFrom, stays, endless]

end RecordMapper.Sql
