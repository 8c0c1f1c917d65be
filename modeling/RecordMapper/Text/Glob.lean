import RecordMapper.Text.Ascii
import RecordMapper.Text.Utf8

namespace RecordMapper.Text.Glob

def star : Nat := '*'.toNat
def one : Nat := '?'.toNat
def opening : Nat := '['.toNat
def closing : Nat := ']'.toNat
def caret : Nat := '^'.toNat
def dash : Nat := '-'.toNat

/-- Whether `code` is in the class that starts here, and the pattern behind the class. `prior` is
    the last single member, from which a range may start; zero if there is none. -/
def members (code : Nat) (seen : Bool) (prior : Nat) : List Nat → Option (Bool × List Nat)
  | [] => none
  | p :: rest =>
    if p = closing then some (seen, rest)
    else
      match rest with
      | [] => none
      | last :: rest' =>
        if p = dash && last ≠ closing && 0 < prior then
          members code (seen || (prior ≤ code && code ≤ last)) 0 rest'
        else members code (seen || code = p) p (last :: rest')

/-- A bracket directly behind the opening (or its caret) is a member, not the end. -/
def membersFromStart (code : Nat) : List Nat → Option (Bool × List Nat)
  | [] => none
  | p :: rest =>
    if p = closing then members code (code = closing) 0 rest else members code false 0 (p :: rest)

def classTest (code : Nat) : List Nat → Option (Bool × List Nat)
  | [] => none
  | p :: rest =>
    if p = caret then (membersFromStart code rest).map fun (seen, after) => (!seen, after)
    else membersFromStart code (p :: rest)

theorem members_length (code : Nat) (seen : Bool) (prior : Nat) (pattern after : List Nat)
    (found : Bool) (h : members code seen prior pattern = some (found, after)) :
    after.length < pattern.length := by
  fun_induction members code seen prior pattern with
  | case1 => simp at h
  | case2 => simp_all
  | case3 => simp at h
  | case4 _ _ _ _ _ _ _ ih =>
    have := ih h
    simp only [List.length_cons]
    omega
  | case5 _ _ _ _ _ _ _ ih =>
    have := ih h
    simp only [List.length_cons] at this ⊢
    omega

theorem membersFromStart_length (code : Nat) (pattern after : List Nat) (found : Bool)
    (h : membersFromStart code pattern = some (found, after)) : after.length < pattern.length := by
  unfold membersFromStart at h
  split at h
  · simp at h
  · split at h
    · have := members_length _ _ _ _ _ _ h
      simp only [List.length_cons]
      omega
    · exact members_length _ _ _ _ _ _ h

theorem classTest_length (code : Nat) (pattern after : List Nat) (found : Bool)
    (h : classTest code pattern = some (found, after)) : after.length < pattern.length := by
  unfold classTest at h
  split at h
  · simp at h
  · split at h
    · obtain ⟨⟨_, _⟩, inner, same⟩ := Option.map_eq_some_iff.1 h
      cases same
      have := membersFromStart_length _ _ _ _ inner
      simp only [List.length_cons]
      omega
    · exact membersFromStart_length _ _ _ _ h

def accepts : (pattern subject : List Nat) → Bool
  | [], subject => subject.isEmpty
  | p :: pattern, subject =>
    if p = star then
      accepts pattern subject ||
        match subject with
        | [] => false
        | _ :: subject' => accepts (p :: pattern) subject'
    else
      match subject with
      | [] => false
      | code :: subject' =>
        if p = one then accepts pattern subject'
        else if p = opening then
          match h : classTest code pattern with
          | some (true, pattern') =>
            have := classTest_length _ _ _ _ h
            accepts pattern' subject'
          | _ => false
        else p = code && accepts pattern subject'
  termination_by pattern subject => pattern.length + subject.length

/-- The codes that a text is matched by: up to the first NUL, each as the engine reads it. -/
def codes (text : List Nat) : List Nat :=
  (text.takeWhile (· ≠ 0)).map readableCode

def textCodes (text : String) : List Nat :=
  codes (text.toList.map Char.toNat)

def literalChar (c : Char) : List Char :=
  if c = '*' || c = '?' || c = '[' then ['[', c, ']'] else [c]

def literal (text : String) : String :=
  String.ofList (text.toList.flatMap literalChar)

theorem accepts_nil (subject : List Nat) : accepts [] subject = subject.isEmpty := by
  simp [accepts]

theorem accepts_star (pattern subject : List Nat) :
    accepts (star :: pattern) subject = (accepts pattern subject ||
      match subject with
      | [] => false
      | _ :: subject' => accepts (star :: pattern) subject') := by
  rw [accepts.eq_def]
  simp

end RecordMapper.Text.Glob
