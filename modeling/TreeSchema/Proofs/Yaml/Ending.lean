/-
# TreeSchema.Proofs.Yaml.Ending — how a written document ends.

A written document that is trimmed and closed with a line end is what it was before only if it ended
in one line end behind a visible character.  Whether it does is up to the text that stands last in the
document: quotes are visible, but a text without quotes shows its own end.
-/
import TreeSchema.Proofs.Text.Blank
import TreeSchema.Yaml.Written

namespace TreeSchema

namespace Yaml

open Text

/-- Whether the spelling of a text shows where the text ends: it has quotes, or ends in a visible
character when one line feed at its end is left out. -/
def showsEnd (text : String) : Bool :=
  let cs := text.toList
  match spelling text with
  | .singleQuoted | .doubleQuoted => true
  | .literal | .plain | .folded =>
    endsVisibly (if cs.getLast? = some '\n' then cs.dropLast else cs)

/-- A text that ends in a visible character shows its end. -/
theorem showsEnd_of_endsVisibly {text : String} (h : endsVisibly text.toList) : showsEnd text := by
  have hlast : text.toList.getLast? ≠ some '\n' := by
    intro hnewline
    simp [endsVisibly, hnewline, isBlank] at h
  cases hs : spelling text <;> simp [showsEnd, hs, hlast, h]

/-- Whether a text, with anything in front of it, ends in a line as a flag says. -/
def Ends (text : String) (visibly : Bool) : Prop :=
  ∀ front : String, endsInLine (front ++ text).toList = visibly

namespace Ends

variable {text : String} {b : Bool}

/-- What stands in front does not matter. -/
theorem append (front : String) (h : Ends text b) : Ends (front ++ text) b := by
  intro front'
  rw [← String.append_assoc]
  exact h (front' ++ front)

/-- A line ends as its last character does. -/
theorem line (cs : List Char) (c : Char) (htext : text.toList = cs ++ [c, '\n']) :
    Ends text (!isBlank c) := by
  intro front
  rw [String.toList_append, htext, ← List.append_assoc, ← List.singleton_append,
    ← List.append_assoc, endsInLine_concat, endsVisibly_concat]
  rfl

/-- A text that ends in a certain way is the same, trimmed and with a line feed behind it, exactly if
it ends visibly. -/
theorem trimEnd_newline_eq_iff (h : Ends text b) : trimEnd text ++ "\n" = text ↔ b := by
  have hne : text ≠ "\n" := by
    rintro rfl
    -- A lone line feed ends as what stands in front of it does, so no flag fits it.
    have hvisible : b = true := (h "a").symm.trans (by decide)
    have hblank : b = false := (h " ").symm.trans (by decide)
    rw [hvisible] at hblank
    cases hblank
  rw [Text.trimEnd_newline_eq_iff hne]
  have hempty := h ""
  rw [String.empty_append] at hempty
  rw [hempty]

end Ends

/-! ## Scalars -/

/-- A text without quotes on one line has no line feed. -/
theorem not_mem_of_spelling {text : String} (h : spelling text = .plain ∨ spelling text = .folded) :
    '\n' ∉ text.toList := by
  intro hmem
  unfold spelling at h
  rw [if_pos (by simpa using hmem)] at h
  split at h <;> simp at h

/-- A literal text has a line feed. -/
theorem mem_of_spelling {text : String} (h : spelling text = .literal) : '\n' ∈ text.toList := by
  unfold spelling at h
  by_contra hmem
  rw [if_neg (by simpa using hmem)] at h
  split at h
  · simp at h
  · split at h <;> simp at h

/-- A line-by-line text ends as the text does. -/
theorem getLast?_indented (indent : Nat) (fresh : Bool) (cs : List Char) :
    (indented indent fresh cs).getLast? = cs.getLast? := by
  induction cs generalizing fresh with
  | nil => rfl
  | cons c cs ih =>
    rw [indented]
    split
    · rw [List.getLast?_cons, List.getLast?_cons, ih]
    · rw [List.getLast?_append_of_ne_nil _ (by simp), List.getLast?_cons, List.getLast?_cons, ih]

/-- A line feed at the end stays there line by line. -/
theorem indented_concat_newline (indent : Nat) (fresh : Bool) (cs : List Char) :
    indented indent fresh (cs ++ ['\n']) = indented indent fresh cs ++ ['\n'] := by
  induction cs generalizing fresh with
  | nil => simp [indented, isBreak]
  | cons c cs ih =>
    rw [List.cons_append, indented, indented, ih, ih]
    split <;> simp

/-- Every line end is white space. -/
theorem isBlank_of_isBreak {c : Char} (h : isBreak c = true) : isBlank c = true := by
  simp only [isBreak, Bool.or_eq_true, beq_iff_eq] at h
  rcases h with (((rfl | rfl) | rfl) | rfl) | rfl <;> decide

/-- A literal text ends in a line, visibly if the text does when one line feed is left out. -/
theorem endsInLine_literal (front : List Char) (indent : Nat) {cs : List Char} (h : '\n' ∈ cs) :
    endsInLine (front ++ literal indent cs) =
      endsVisibly (if cs.getLast? = some '\n' then cs.dropLast else cs) := by
  obtain ⟨init, c, rfl⟩ := (List.eq_nil_or_concat cs).resolve_left (List.ne_nil_of_mem h)
  rw [List.concat_eq_append]
  simp only [literal, List.getLast?_concat, Option.any_some, Option.some.injEq,
    List.dropLast_concat]
  by_cases hc : c = '\n'
  · -- The line feed of the text is the one that ends the document.
    subst hc
    have hsplit : ∀ hints lines : List Char, front ++ ('|' :: hints ++ '\n' :: (lines ++ ['\n'])) =
        (front ++ '|' :: hints ++ '\n' :: lines) ++ ['\n'] := by simp
    rw [if_pos (by decide), if_pos rfl, List.append_nil, indented_concat_newline, hsplit,
      endsInLine_concat, endsVisibly_append_newline, endsVisibly, endsVisibly, getLast?_indented]
    rfl
  rw [if_neg hc]
  by_cases hbreak : isBreak c
  · -- A separator of Unicode ends a line but is no line feed.
    have hlast : ∀ hints : List Char,
        (front ++ ('|' :: hints ++ '\n' :: indented indent true (init ++ [c]))).getLast? = some c := by
      intro hints
      rw [← List.append_assoc, List.getLast?_append_of_ne_nil _ (by simp), List.getLast?_cons,
        getLast?_indented, List.getLast?_concat, Option.getD_some]
    rw [if_pos hbreak, List.append_nil, endsInLine, hlast, endsVisibly_concat,
      isBlank_of_isBreak hbreak]
    simp [hc]
  · -- The line feed that ends the document is added, and a hint says that it is none of the text.
    have hsplit : ∀ hints lines : List Char, front ++ ('|' :: hints ++ '\n' :: lines ++ ['\n']) =
        (front ++ '|' :: hints ++ '\n' :: lines) ++ ['\n'] := by simp
    rw [if_neg hbreak, hsplit, endsInLine_concat, endsVisibly_append_newline, endsVisibly,
      endsVisibly, getLast?_indented]
    rfl

/-- **A scalar ends visibly** exactly if its spelling shows where the text ends. -/
theorem ends_scalar (indent : Nat) (text : String) : Ends (scalar indent text) (showsEnd text) := by
  unfold scalar showsEnd
  have hplain : spelling text = .plain ∨ spelling text = .folded → Ends (text ++ "\n")
      (endsVisibly
        (if text.toList.getLast? = some '\n' then text.toList.dropLast else text.toList)) := by
    intro h front
    -- The empty text is written in quotes, without which it would denote nothing.
    have hne : text.toList ≠ [] := by
      intro hnil
      rw [String.toList_eq_nil_iff.mp hnil] at h
      revert h
      decide
    have hlast : text.toList.getLast? ≠ some '\n' := fun hl =>
      not_mem_of_spelling h (List.mem_of_getLast? hl)
    rw [if_neg hlast, ← String.append_assoc, String.toList_append, String.toList_append]
    exact (endsInLine_concat _ _).trans (endsVisibly_append hne _)
  cases hs : spelling text with
  | plain => exact hplain (.inl hs)
  | folded => exact hplain (.inr hs)
  | literal =>
    intro front
    rw [String.toList_append, String.toList_ofList]
    exact endsInLine_literal front.toList indent (mem_of_spelling hs)
  | singleQuoted =>
    have hquote : (String.ofList (singleQuoted indent text.toList ++ ['\n'])).toList =
        ('\x27' :: indented indent false
            (text.toList.flatMap fun c => if c = '\x27' then [c, c] else [c])
          ++ if text.toList.getLast?.any isBreak then pad indent else []) ++ ['\x27', '\n'] := by
      simp [singleQuoted]
    exact Ends.line _ _ hquote
  | doubleQuoted =>
    have hquote : (String.ofList (doubleQuoted text.toList ++ ['\n'])).toList =
        ('\x22' :: text.toList.flatMap escaped) ++ ['\x22', '\n'] := by
      simp [doubleQuoted]
    exact Ends.line _ _ hquote

/-! ## Documents -/

mutual

/-- Whether a document ends visibly: the text that stands last in it shows its end. -/
def endsDocument : Document → Bool
  | .text s => showsEnd s
  | .list items => endsItems items
  | .record entries => endsEntries entries
  | .null | .flag _ => true

/-- The same of the items of a list. -/
def endsItems : List Document → Bool
  | [] => true
  | d :: ds => if ds.isEmpty then endsDocument d else endsItems ds

/-- The same of the entries of a record. -/
def endsEntries : List (String × Document) → Bool
  | [] => true
  | (_, d) :: rest => if rest.isEmpty then endsDocument d else endsEntries rest

end

/-- A list ends as its last item does. -/
theorem endsItems_eq (items : List Document) : endsItems items = items.getLast?.all endsDocument := by
  induction items with
  | nil => rfl
  | cons d ds ih =>
    cases ds with
    | nil => simp [endsItems]
    | cons d' ds => rw [endsItems, if_neg (by simp), ih, List.getLast?_cons_cons]

/-- A record ends as its last entry does. -/
theorem endsEntries_eq (entries : List (String × Document)) :
    endsEntries entries = entries.getLast?.all fun e => endsDocument e.2 := by
  induction entries with
  | nil => rfl
  | cons e rest ih =>
    cases rest with
    | nil => simp [endsEntries]
    | cons e' rest => rw [endsEntries, if_neg (by simp), ih, List.getLast?_cons_cons]

/-- An entry ends as its document does, wherever that starts. -/
theorem exists_writtenEntries_cons (column : Nat) (name : String) (d : Document)
    (rest : List (String × Document)) :
    ∃ front inner, writtenEntries column ((name, d) :: rest) =
      (front ++ writtenAt inner d) :: writtenEntries column rest := by
  rw [writtenEntries.eq_def]
  exact ⟨_, _, rfl⟩

mutual

/-- **A written document ends visibly** exactly if the text that stands last in it shows its end. -/
theorem ends_writtenAt : (d : Document) → (column : Nat) →
    Ends (writtenAt column d) (endsDocument d)
  | .null, _ => .line "nul".toList 'l' (by rw [writtenAt]; rfl)
  | .flag true, _ => .line "tru".toList 'e' (by rw [writtenAt]; rfl)
  | .flag false, _ => .line "fals".toList 'e' (by rw [writtenAt]; rfl)
  | .text s, column => ends_scalar column s
  | .list [], _ => .line ['['] ']' (by simp [writtenAt])
  | .list (d :: ds), column => ends_items (d :: ds) (by simp) (column + 2) _
  | .record [], _ => .line ['\x7b'] '\x7d' (by simp [writtenAt])
  | .record (e :: rest), column => ends_entries (e :: rest) (by simp) column _

theorem ends_items : (items : List Document) → items ≠ [] → (column : Nat) → (sep : String) →
    Ends (sep.intercalate (writtenItems column items)) (endsItems items)
  | [], h, _, _ => absurd rfl h
  | [d], _, column, sep => by
    rw [writtenItems, writtenItems, String.intercalate_singleton]
    exact (ends_writtenAt d column).append "- "
  | d :: d' :: ds, _, column, sep => by
    rw [writtenItems, String.intercalate_cons_of_ne_nil (by simp [writtenItems])]
    exact (ends_items (d' :: ds) (by simp) column sep).append _

theorem ends_entries : (entries : List (String × Document)) → entries ≠ [] → (column : Nat) →
    (sep : String) →
    Ends (sep.intercalate (writtenEntries column entries)) (endsEntries entries)
  | [], h, _, _ => absurd rfl h
  | [(name, d)], _, column, sep => by
    obtain ⟨front, inner, hentry⟩ := exists_writtenEntries_cons column name d []
    rw [hentry, writtenEntries, String.intercalate_singleton]
    exact (ends_writtenAt d inner).append front
  | (name, d) :: (name', d') :: rest, _, column, sep => by
    obtain ⟨front, inner, hentry⟩ := exists_writtenEntries_cons column name d ((name', d') :: rest)
    have hrest : writtenEntries column ((name', d') :: rest) ≠ [] := by
      obtain ⟨_, _, hnext⟩ := exists_writtenEntries_cons column name' d' rest
      simp [hnext]
    rw [hentry, String.intercalate_cons_of_ne_nil hrest]
    exact (ends_entries ((name', d') :: rest) (by simp) column sep).append _

end

/-- **A written document is the same, trimmed and with a line feed behind it,** exactly if the text
that stands last in it shows its end. -/
theorem trimEnd_written_eq_iff (d : Document) :
    trimEnd (written d) ++ "\n" = written d ↔ endsDocument d := by
  have hends : Ends (written d) (endsDocument d) := by
    unfold written
    split
    · next s => exact ends_scalar 2 s
    · exact ends_writtenAt d 0
  exact hends.trimEnd_newline_eq_iff

end Yaml

end TreeSchema
