import BlockCanvas.Text.Encoding
import BlockCanvas.Text.Match
namespace BlockCanvas.Http.Host

-- Four runs of digits with any character between two of them. A point of reading is counted by the
-- runs and gaps before it: in a run it is odd, behind a gap even.
def nextPoints (points : List Nat) (c : Char) : List Nat :=
  (List.range 8).filter fun point =>
    if point % 2 = 1 then c.isDigit && (points.contains (point - 1) || points.contains point)
    else 0 < point && points.contains (point - 1)

def looksNumbered (host : List Char) : Bool := (host.foldl nextPoints [0]).contains 7

def isOctet (text : List Char) : Bool :=
  !text.isEmpty && text.all Char.isDigit && text.length ≤ 3 &&
    (text.length = 1 || text.head? ≠ some '0') &&
    text.foldl (fun sum c => 10 * sum + (c.toNat - '0'.toNat)) 0 ≤ 255

def isNumbered (host : List Char) : Bool :=
  let octets := Text.splitWhere (· == '.') host
  octets.length = 4 && octets.all isOctet

def isHexGroup (text : List Char) : Bool :=
  !text.isEmpty && text.length ≤ 4 && text.all fun c => (Text.hexValue? c).isSome

def innerGaps (groups : List (List Char)) : List Nat :=
  (List.range groups.length).filter fun place =>
    0 < place && place + 1 < groups.length && groups[place]? = some []

-- Eight groups, or fewer with one gap for the missing ones. Next to the gap the ends may be empty.
def isGroups (groups : List (List Char)) : Bool :=
  match innerGaps groups with
  | [] => groups.length = 8 && groups.all isHexGroup
  | [gap] =>
      let before := groups.take gap
      let behind := groups.drop (gap + 1)
      let high := if before = [[]] then [] else before
      let low := if behind = [[]] then [] else behind
      high.length + low.length < 8 && high.all isHexGroup && low.all isHexGroup
  | _ => false

def expandNumbered (groups : List (List Char)) : Option (List (List Char)) :=
  match groups.getLast? with
  | some last =>
      if last.contains '.' then
        if isNumbered last then some (groups.dropLast ++ [['0'], ['0']]) else none
      else some groups
  | none => some groups

def isGrouped (text : List Char) : Bool :=
  let address := text.takeWhile (· != '%')
  let zone := text.dropWhile (· != '%')
  let groups := Text.splitWhere (· == ':') address
  let zoneFits := zone.isEmpty || (zone.length ≠ 1 && !zone.tail.contains '%')
  !text.contains '/' && zoneFits && 3 ≤ groups.length &&
    match expandNumbered groups with
    | some expanded => expanded.length ≤ 9 && isGroups expanded
    | none => false

def signBlocks : List (Nat × Nat) :=
  [(0x80, 0xb6), (0xb8, 0xbf), (0xd7, 0xd7), (0xf7, 0xf7), (0x2000, 0x214d), (0x214f, 0x2183),
    (0x2185, 0x2bff), (0x3000, 0x3004), (0x3008, 0x3029), (0xe000, 0xf8ff), (0xff00, 0xffff),
    (0x1f000, 0x1faff), (0xe0000, 0x10ffff)]

def isNameChar (c : Char) : Bool :=
  if c.toNat < 0x80 then c.isAlphanum || c = '-'
  else !signBlocks.any fun block => block.1 ≤ c.toNat && c.toNat ≤ block.2

def isLabel (label : List Char) : Bool :=
  !label.isEmpty && label.all isNameChar && label.head? ≠ some '-' && label.getLast? ≠ some '-' &&
    (label.all (fun c => c.toNat < 0x80) || (label.drop 2).take 2 ≠ ['-', '-'])

def isDot (c : Char) : Bool := c = '.' || c = '。' || c = '．' || c = '｡'

def isName (host : List Char) : Bool :=
  let labels := Text.splitWhere isDot host
  let inner := if labels.getLast? = some [] then labels.dropLast else labels
  !inner.isEmpty && inner.all isLabel

inductive Fault where
  | notNumbered
  | notGrouped
  | notName
deriving DecidableEq

def fault? (host : List Char) : Option Fault :=
  if host.isEmpty then none
  else if looksNumbered host then (if isNumbered host then none else some .notNumbered)
  else if host.head? = some '[' ∧ host.getLast? = some ']' ∧ 1 < host.length then
    if isGrouped host.tail.dropLast then none else some .notGrouped
  else if host.all (fun c => c.toNat < 0x80) then none
  else if isName host then none
  else some .notName

end BlockCanvas.Http.Host
