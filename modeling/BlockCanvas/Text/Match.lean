namespace BlockCanvas.Text

-- A way to go on from a point of a text: what is taken from there, and what comes of the rest.
abbrev Onward (α : Type) := List Char → Option (List Char × α)

def prepend (c : Char) (taken : List Char × α) : List Char × α := (c :: taken.1, taken.2)

-- Nothing more is taken.
def stop (rest : List Char → Option α) : Onward α := fun text => (rest text).map ([], ·)

def one (fits : Char → Bool) (next : Onward α) : Onward α
  | [] => none
  | c :: text => if fits c then (next text).map (prepend c) else none

-- As many as possible, and fewer only if it does not go on from there.
def many (fits : Char → Bool) (next : Onward α) : Onward α
  | [] => next []
  | c :: text =>
      if fits c then
        match many fits next text with
        | some taken => some (prepend c taken)
        | none => next (c :: text)
      else next (c :: text)

def several (fits : Char → Bool) (next : Onward α) : Onward α := one fits (many fits next)

def exactly (fits : Char → Bool) (next : Onward α) : Nat → Onward α
  | 0 => next
  | count + 1 => one fits (exactly fits next count)

def orElse (first second : Onward α) : Onward α := fun text =>
  match first text with
  | some taken => some taken
  | none => second text

-- The pieces between marks; without a mark there is one piece.
def splitWhere (isMark : Char → Bool) : List Char → List (List Char)
  | [] => [[]]
  | c :: rest =>
      if isMark c then [] :: splitWhere isMark rest
      else
        match splitWhere isMark rest with
        | [] => [[c]]
        | first :: others => (c :: first) :: others

end BlockCanvas.Text
