namespace RecordMapper.Text

def foldCase (text : String) : String :=
  String.ofList (text.toList.map Char.toLower)

def sameIgnoringCase (left right : String) : Bool :=
  foldCase left == foldCase right

def isDigit (c : Char) : Bool :=
  '0' ≤ c && c ≤ '9'

def digitValue (c : Char) : Nat :=
  c.toNat - '0'.toNat

def decimalValue (digits : List Char) : Nat :=
  digits.foldl (fun n c => 10 * n + digitValue c) 0

def paddedDecimal (width n : Nat) : String :=
  let digits := Nat.toDigits 10 n
  String.ofList (List.replicate (width - digits.length) '0' ++ digits)

def joined (separator : String) : List String → String
  | [] => ""
  | [part] => part
  | part :: next :: rest => part ++ separator ++ joined separator (next :: rest)

theorem sameIgnoringCase_iff (left right : String) :
    sameIgnoringCase left right = true ↔ foldCase left = foldCase right := by
  simp [sameIgnoringCase]

theorem sameIgnoringCase_comm (left right : String) : sameIgnoringCase left right = sameIgnoringCase right left :=
  Bool.beq_comm

theorem sameIgnoringCase_refl (text : String) : sameIgnoringCase text text = true := by
  simp [sameIgnoringCase]

@[simp] theorem joined_nil (separator : String) : joined separator [] = "" := rfl

@[simp] theorem joined_singleton (separator part : String) : joined separator [part] = part := rfl

end RecordMapper.Text
