namespace BlockCanvas.Text

-- A text literal writes these three characters with a backslash in front.
def escapeChar (c : Char) : List Char :=
  if c = '\\' then ['\\', '\\']
  else if c = '"' then ['\\', '"']
  else if c = '\n' then ['\\', 'n']
  else [c]

def escapeChars (text : List Char) : List Char :=
  text.flatMap escapeChar

def escape (text : String) : String :=
  String.ofList (escapeChars text.toList)

-- The literal as it stands in a program, between its quotes.
def quoted (text : String) : String :=
  "\"" ++ escape text ++ "\""

-- Reads an escaped text up to its closing quote; the rest is left untouched.
def readQuoted : List Char → Option (List Char × List Char)
  | [] => none
  | '"' :: rest => some ([], rest)
  | '\\' :: '\\' :: rest => (readQuoted rest).map fun read => ('\\' :: read.1, read.2)
  | '\\' :: '"' :: rest => (readQuoted rest).map fun read => ('"' :: read.1, read.2)
  | '\\' :: 'n' :: rest => (readQuoted rest).map fun read => ('\n' :: read.1, read.2)
  | c :: rest => (readQuoted rest).map fun read => (c :: read.1, read.2)

end BlockCanvas.Text
