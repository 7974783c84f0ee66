namespace BlockCanvas.Text

-- Stands for what cannot be a character.
def replacement : Char := '�'

def isHighUnit (unit : Nat) : Bool := 0xd800 ≤ unit && unit ≤ 0xdbff
def isLowUnit (unit : Nat) : Bool := 0xdc00 ≤ unit && unit ≤ 0xdfff

-- A unit of sixteen bits on its own; half a pair is no character.
def unitChar (unit : Nat) : Char :=
  if isHighUnit unit || isLowUnit unit then replacement else Char.ofNat unit

def pairChar (high low : Nat) : Char :=
  Char.ofNat (0x10000 + (high - 0xd800) * 0x400 + (low - 0xdc00))

def hexValue? (c : Char) : Option Nat :=
  let code := c.toNat
  if '0'.toNat ≤ code ∧ code ≤ '9'.toNat then some (code - '0'.toNat)
  else if 'a'.toNat ≤ code ∧ code ≤ 'f'.toNat then some (code - 'a'.toNat + 10)
  else if 'A'.toNat ≤ code ∧ code ≤ 'F'.toNat then some (code - 'A'.toNat + 10)
  else none

def bytesOf (text : String) : List Nat := text.toUTF8.toList.map UInt8.toNat

-- A character whose first bytes are read: how many are owed, the bits so far, and between which
-- bounds the next byte lies.
structure Owed where
  count : Nat
  bits : Nat
  least : Nat
  most : Nat

-- A first byte: a character, or what it owes.
def firstByte (byte : Nat) : Char ⊕ Owed :=
  if byte ≤ 0x7f then .inl (Char.ofNat byte)
  else if 0xc2 ≤ byte ∧ byte ≤ 0xdf then .inr ⟨1, byte - 0xc0, 0x80, 0xbf⟩
  else if byte = 0xe0 then .inr ⟨2, 0, 0xa0, 0xbf⟩
  else if byte = 0xed then .inr ⟨2, 0xd, 0x80, 0x9f⟩
  else if 0xe1 ≤ byte ∧ byte ≤ 0xef then .inr ⟨2, byte - 0xe0, 0x80, 0xbf⟩
  else if byte = 0xf0 then .inr ⟨3, 0, 0x90, 0xbf⟩
  else if 0xf1 ≤ byte ∧ byte ≤ 0xf3 then .inr ⟨3, byte - 0xf0, 0x80, 0xbf⟩
  else if byte = 0xf4 then .inr ⟨3, 4, 0x80, 0x8f⟩
  else .inl replacement

-- Every stretch of bytes that no character starts with is replaced as a whole.
def charsFrom : Option Owed → List Nat → List Char
  | none, [] => []
  | some _, [] => [replacement]
  | none, byte :: rest =>
    match firstByte byte with
    | .inl c => c :: charsFrom none rest
    | .inr owed => charsFrom (some owed) rest
  | some owed, byte :: rest =>
      if owed.least ≤ byte ∧ byte ≤ owed.most then
        let bits := owed.bits * 64 + byte % 64
        if owed.count = 1 then Char.ofNat bits :: charsFrom none rest
        else charsFrom (some ⟨owed.count - 1, bits, 0x80, 0xbf⟩) rest
      else
        match firstByte byte with
        | .inl c => replacement :: c :: charsFrom none rest
        | .inr next => replacement :: charsFrom (some next) rest

def ofBytes (bytes : List Nat) : String := String.ofList (charsFrom none bytes)

-- Bytes in groups of two or four, the greatest byte first or last; none may be left over.
def units16 (greatestFirst : Bool) : List Nat → Option (List Nat)
  | [] => some []
  | a :: b :: rest =>
      (units16 greatestFirst rest).map ((if greatestFirst then a * 256 + b else b * 256 + a) :: ·)
  | _ => none

def units32 (greatestFirst : Bool) : List Nat → Option (List Nat)
  | [] => some []
  | a :: b :: c :: d :: rest =>
      let unit :=
        if greatestFirst then ((a * 256 + b) * 256 + c) * 256 + d
        else ((d * 256 + c) * 256 + b) * 256 + a
      (units32 greatestFirst rest).map (unit :: ·)
  | _ => none

def charsOfUnits16 : List Nat → List Char
  | [] => []
  | [unit] => [unitChar unit]
  | high :: low :: rest =>
      if isHighUnit high && isLowUnit low then pairChar high low :: charsOfUnits16 rest
      else unitChar high :: charsOfUnits16 (low :: rest)

def charsOfUnits32 (units : List Nat) : Option (List Char) :=
  units.mapM fun unit => if unit ≤ 0x10ffff then some (unitChar unit) else none

-- How many bytes a character takes, and in which order, shows in the zeros among the first bytes.
inductive Width where
  | one
  | two (greatestFirst : Bool)
  | four (greatestFirst : Bool)
deriving DecidableEq

def width : List Nat → Width
  | [a, b] => if a = 0 then .two true else if b = 0 then .two false else .one
  | a :: b :: c :: d :: _ =>
      if a = 0 then (if b = 0 then .four true else .two true)
      else if b = 0 then (if c = 0 ∧ d = 0 then .four false else .two false)
      else .one
  | _ => .one

-- A mark of the encoding in front of the text is not part of it.
def dropMark : List Nat → List Nat
  | 0xef :: 0xbb :: 0xbf :: rest => rest
  | bytes => bytes

def decode (bytes : List Nat) : Option String :=
  match width bytes with
  | .one => some (ofBytes (dropMark bytes))
  | .two greatestFirst =>
      (units16 greatestFirst bytes).map fun units => String.ofList (charsOfUnits16 units)
  | .four greatestFirst =>
      ((units32 greatestFirst bytes).bind charsOfUnits32).map String.ofList

end BlockCanvas.Text
