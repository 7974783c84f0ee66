namespace BlockCanvas.Text

-- Letters beyond ASCII whose capitals are ASCII letters.
def capitalRows : List (Char × String) :=
  [('ß', "SS"), ('ı', "I"), ('ſ', "S"), ('ﬀ', "FF"), ('ﬁ', "FI"), ('ﬂ', "FL"), ('ﬃ', "FFI"),
    ('ﬄ', "FFL"), ('ﬅ', "ST"), ('ﬆ', "ST")]

-- In capitals as far as these are ASCII letters; all else stays.
def capitals (text : String) : String :=
  String.join (text.toList.map fun c =>
    match capitalRows.find? fun row => row.1 = c with
    | some row => row.2
    | none => String.singleton c.toUpper)

end BlockCanvas.Text
