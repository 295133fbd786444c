/-
# TreeSchema.Text.Quoted — text in single quotes.

A backslash or a single quote inside the text is preceded by a backslash, and nothing else is.  The
closing quote is therefore the first quote that no backslash precedes, and quoting is injective.
-/

namespace TreeSchema.Text

/-- The inside of a quoted text: each backslash and single quote gets a backslash before it. -/
def escapeQuotes : List Char → List Char
  | [] => []
  | c :: rest =>
    if c = '\\' ∨ c = '\x27' then '\\' :: c :: escapeQuotes rest else c :: escapeQuotes rest

/-- Text without backslashes and single quotes is unchanged. -/
theorem escapeQuotes_of_plain {cs : List Char} (h : ∀ c ∈ cs, c ≠ '\\' ∧ c ≠ '\x27') :
    escapeQuotes cs = cs := by
  induction cs with
  | nil => rfl
  | cons c cs ih =>
    have hc := h c (by simp)
    simp [escapeQuotes, hc.1, hc.2, ih (fun d hd => h d (by simp [hd]))]

/-- Text in single quotes. -/
def quoted (text : String) : String :=
  String.ofList ('\x27' :: escapeQuotes text.toList ++ ['\x27'])

end TreeSchema.Text
