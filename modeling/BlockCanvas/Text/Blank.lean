namespace BlockCanvas.Text

-- Characters that separate words and leave no mark, in any script.
def isSpace (c : Char) : Bool :=
  let code := c.toNat
  (0x09 ≤ code && code ≤ 0x0d) || code == 0x20 || code == 0x85 || code == 0xa0 || code == 0x1680 ||
    (0x2000 ≤ code && code ≤ 0x200a) || code == 0x2028 || code == 0x2029 || code == 0x202f ||
    code == 0x205f || code == 0x3000

-- Spaces together with the four information separators.
def isBlank (c : Char) : Bool :=
  isSpace c || (0x1c ≤ c.toNat && c.toNat ≤ 0x1f)

-- Drops what the test holds of, at both ends only.
def trimWhere (test : Char → Bool) (text : List Char) : List Char :=
  ((text.dropWhile test).reverse.dropWhile test).reverse

def trimBlank (text : String) : String :=
  String.ofList (trimWhere isBlank text.toList)

end BlockCanvas.Text
