import BlockCanvas.Text.Quoted
namespace BlockCanvas.Text

variable {text other rest more : List Char}

-- A quoted text ends at the first quote that is not escaped, so it is read back as it was.

theorem readQuoted_escapeChar (c : Char) (rest : List Char) :
    readQuoted (escapeChar c ++ rest) = (readQuoted rest).map fun read => (c :: read.1, read.2) := by
  unfold escapeChar
  split
  · rename_i slash
    subst slash
    rfl
  · split
    · rename_i quote
      subst quote
      rfl
    · split
      · rename_i newline
        subst newline
        rfl
      · rename_i slash quote newline
        rw [List.singleton_append, readQuoted.eq_def]
        split <;> simp_all

theorem readQuoted_escapeChars (text rest : List Char) :
    readQuoted (escapeChars text ++ '"' :: rest) = some (text, rest) := by
  induction text with
  | nil => rfl
  | cons c text ih =>
      rw [escapeChars, List.flatMap_cons, List.append_assoc, readQuoted_escapeChar]
      rw [escapeChars] at ih
      rw [ih]
      rfl

theorem escapeChars_told (same : escapeChars text ++ '"' :: rest = escapeChars other ++ '"' :: more) :
    text = other ∧ rest = more := by
  have read := readQuoted_escapeChars text rest
  rw [same, readQuoted_escapeChars] at read
  simp only [Option.some.injEq, Prod.mk.injEq] at read
  exact ⟨read.1.symm, read.2.symm⟩

theorem newline_not_mem_escapeChars (text : List Char) : '\n' ∉ escapeChars text := by
  rw [escapeChars, List.mem_flatMap]
  rintro ⟨c, _, member⟩
  unfold escapeChar at member
  split at member
  · simp at member
  · split at member
    · simp at member
    · split at member
      · simp at member
      · rename_i newline
        exact newline (List.mem_singleton.mp member).symm

-- The text with one character written another way wherever it occurs.
def replaceAll (wanted : Char) (written : List Char) : List Char → List Char
  | [] => []
  | c :: rest =>
      if c = wanted then written ++ replaceAll wanted written rest else c :: replaceAll wanted written rest

theorem replaceAll_append (wanted : Char) (written first second : List Char) :
    replaceAll wanted written (first ++ second) = replaceAll wanted written first ++ replaceAll wanted written second := by
  induction first with
  | nil => rfl
  | cons c first ih =>
      by_cases hit : c = wanted
      · simp [replaceAll, hit, ih]
      · simp [replaceAll, hit, ih]

-- Three passes over the whole text. The backslashes come first, since the later passes bring in new ones.
def escapedInTurn (text : List Char) : List Char :=
  replaceAll '\n' ['\\', 'n'] (replaceAll '"' ['\\', '"'] (replaceAll '\\' ['\\', '\\'] text))

theorem escapedInTurn_append (first second : List Char) :
    escapedInTurn (first ++ second) = escapedInTurn first ++ escapedInTurn second := by
  simp only [escapedInTurn, replaceAll_append]

theorem escapedInTurn_singleton (c : Char) : escapedInTurn [c] = escapeChar c := by
  unfold escapeChar
  split
  · rename_i slash
    subst slash
    rfl
  · split
    · rename_i quote
      subst quote
      rfl
    · rename_i slash quote
      simp only [escapedInTurn, replaceAll, if_neg slash, if_neg quote, List.append_nil]

theorem escapedInTurn_eq (text : List Char) : escapedInTurn text = escapeChars text := by
  induction text with
  | nil => rfl
  | cons c text ih =>
      rw [← List.singleton_append, escapedInTurn_append, escapedInTurn_singleton, ih]
      rfl

-- What is read up to the closing quote, and what comes after it.
def readText (source : String) : Option (String × String) :=
  (readQuoted source.toList).map fun read => (String.ofList read.1, String.ofList read.2)

-- The text is written in three passes, and from the text, a quote and whatever else one pass reads it back.
structure ReadsBack (text : String) : Prop where
  passes : (escape text).toList = escapedInTurn text.toList
  read : ∀ rest : String, readText (escape text ++ "\"" ++ rest) = some (text, rest)
  oneLine : '\n' ∉ (escape text).toList

theorem escape_reads_back (text : String) : ReadsBack text := by
  refine ⟨?_, ?_, ?_⟩
  · rw [escape, String.toList_ofList, escapedInTurn_eq]
  · intro rest
    have whole : (escape text ++ "\"" ++ rest).toList = escapeChars text.toList ++ '"' :: rest.toList := by
      simp [escape]
    rw [readText, whole, readQuoted_escapeChars]
    simp
  · rw [escape, String.toList_ofList]
    exact newline_not_mem_escapeChars text.toList

-- With the newlines first, a newline and a backslash before an n are written alike.
example : replaceAll '\\' ['\\', '\\'] (replaceAll '\n' ['\\', 'n'] ['\n']) =
    replaceAll '\\' ['\\', '\\'] (replaceAll '\n' ['\\', 'n'] ['\\', 'n']) := by decide

end BlockCanvas.Text
