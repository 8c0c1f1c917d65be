import RecordMapper.Text.Ascii

namespace RecordMapper.Text

def doubled (mark : Char) : List Char → List Char
  | [] => []
  | c :: rest => if c = mark then mark :: mark :: doubled mark rest else c :: doubled mark rest

def quotedWith (mark : Char) (text : String) : String :=
  String.ofList (mark :: (doubled mark text.toList ++ [mark]))

def quoted (name : String) : String :=
  quotedWith '"' name

/-- What stands before the closing `mark`, and what follows it; the opening mark is already gone. -/
def unquote (mark : Char) : List Char → Option (List Char × List Char)
  | [] => none
  | c :: rest =>
    if c = mark then
      match rest with
      | [] => some ([], [])
      | d :: rest' =>
        if d = mark then (unquote mark rest').map fun (text, after) => (mark :: text, after)
        else some ([], rest)
    else (unquote mark rest).map fun (text, after) => (c :: text, after)

theorem unquote_doubled (mark : Char) (text after : List Char) (h : after.head? ≠ some mark) :
    unquote mark (doubled mark text ++ mark :: after) = some (text, after) := by
  induction text with
  | nil =>
    cases after with
    | nil => simp [doubled, unquote]
    | cons d rest =>
      have different : d ≠ mark := by simpa using h
      simp [doubled, unquote, different]
  | cons c rest ih =>
    by_cases same : c = mark
    · subst c
      simp [doubled, unquote, ih]
    · rw [doubled, if_neg same, List.cons_append, unquote.eq_def]
      simp [same, ih]

theorem toList_quotedWith (mark : Char) (text : String) :
    (quotedWith mark text).toList = mark :: (doubled mark text.toList ++ [mark]) := by
  simp [quotedWith]

theorem length_unquote (mark : Char) (cs text after : List Char)
    (h : unquote mark cs = some (text, after)) : after.length < cs.length := by
  fun_induction unquote mark cs generalizing text after with
  | case1 => simp at h
  | case2 => simp_all
  | case3 rest' ih =>
    obtain ⟨⟨_, _⟩, inner, same⟩ := Option.map_eq_some_iff.1 h
    cases same
    have := ih _ _ inner
    simp only [List.length_cons]
    omega
  | case4 => simp_all
  | case5 c rest other ih =>
    obtain ⟨⟨_, _⟩, inner, same⟩ := Option.map_eq_some_iff.1 h
    cases same
    have := ih _ _ inner
    simp only [List.length_cons]
    omega

end RecordMapper.Text
