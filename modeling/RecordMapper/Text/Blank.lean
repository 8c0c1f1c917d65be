namespace RecordMapper.Text

def isBlank (c : Char) : Bool :=
  let n := c.toNat
  (0x09 ≤ n && n ≤ 0x0D) || n == 0x20 || n == 0x85 || n == 0xA0 || n == 0x1680 ||
    (0x2000 ≤ n && n ≤ 0x200A) || n == 0x2028 || n == 0x2029 || n == 0x202F || n == 0x205F ||
    n == 0x3000

def isAsciiBlank (c : Char) : Bool :=
  let n := c.toNat
  (0x09 ≤ n && n ≤ 0x0D) || n == 0x20

def dropBlanks (text : List Char) : List Char :=
  text.dropWhile isBlank

def trimBlanks (text : String) : String :=
  String.ofList (dropBlanks (dropBlanks text.toList).reverse).reverse

theorem dropBlanks_of_not_blank (c : Char) (rest : List Char) (h : isBlank c = false) :
    dropBlanks (c :: rest) = c :: rest := by
  simp [dropBlanks, h]

end RecordMapper.Text
