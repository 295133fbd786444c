/-
# TreeSchema.Proofs.CommandLine.TextView — the text view tells the schemas.

Shown as text, a schema is a line for its kind and a line for each field, with an empty line between
schemas.  Much of that is optional: a parent may be missing, a needed field has no mark, and several types
stand in brackets only where a mark follows.  Such a text can be read in one way only because of the names.
Registering takes nothing but identifiers, so no name has a character in it that the view puts between
names, and it takes no kind with the name of a built-in type, so a name tells which type is meant.

Reading goes by the class of a character: the name of a field ends where the first character stands that
no identifier has, and behind it the bars and the characters of identifiers are the types and the marks are
the multiplicity.
-/
import TreeSchema.Proofs.Declarations.Inertness

namespace TreeSchema

open Files

/-! ## What no identifier has -/

/-- No white space is part of an identifier. -/
theorem isBlank_eq_false_of_isIdentifierPart {c : Char} (h : isIdentifierPart c = true) :
    Text.isBlank c = false := by
  -- the code points of white space, one by one
  have hblanks : ∀ n ∈ [0x09, 0x0A, 0x0B, 0x0C, 0x0D, 0x20, 0x85, 0xA0, 0x1680, 0x2000, 0x2001, 0x2002,
      0x2003, 0x2004, 0x2005, 0x2006, 0x2007, 0x2008, 0x2009, 0x200A, 0x2028, 0x2029, 0x202F, 0x205F,
      0x3000], isIdentifierPart (Char.ofNat n) = false := by
    decide +kernel
  rw [Bool.eq_false_iff]
  intro hblank
  have hmem := hblanks c.toNat (by
    simp only [Text.isBlank, Bool.or_eq_true, Bool.and_eq_true, decide_eq_true_eq, beq_iff_eq] at hblank
    simp only [List.mem_cons, List.not_mem_nil, or_false]
    omega)
  rw [Char.ofNat_toNat, h] at hmem
  cases hmem

theorem endsVisibly_of_isIdentifier {text : String} (h : isIdentifier text = true) :
    Text.endsVisibly text.toList = true := by
  have hne : text.toList ≠ [] := by simpa using ne_empty_of_isIdentifier h
  rw [Text.endsVisibly, List.getLast?_eq_some_getLast hne, Option.any_some,
    isBlank_eq_false_of_isIdentifierPart (isIdentifierPart_of_mem h (List.getLast_mem hne))]
  rfl

/-! ## Fields -/

/-- A sign behind the types of a field. -/
def isMark (c : Char) : Bool := c == '?' || c == '*' || c == '+'

/-- A character of the types of a field. -/
def isTypePart (c : Char) : Bool := isIdentifierPart c || c == '|'

theorem isMark_eq_false_of_isIdentifierPart {c : Char} (h : isIdentifierPart c = true) : isMark c = false := by
  have hmarks : isIdentifierPart '?' = false ∧ isIdentifierPart '*' = false ∧
      isIdentifierPart '+' = false := by
    decide +kernel
  rw [Bool.eq_false_iff]
  intro hmark
  have hc : c = '?' ∨ c = '*' ∨ c = '+' := by simpa [isMark, or_assoc] using hmark
  rcases hc with rfl | rfl | rfl <;> simp [hmarks] at h

theorem filter_isTypePart_of_isIdentifier {text : String} (h : isIdentifier text = true) :
    text.toList.filter isTypePart = text.toList := by
  refine List.filter_eq_self.2 fun c hc => ?_
  simp [isTypePart, isIdentifierPart_of_mem h hc]

theorem filter_isMark_of_isIdentifier {text : String} (h : isIdentifier text = true) :
    text.toList.filter isMark = [] :=
  List.filter_eq_nil_iff.2 fun c hc => by
    simp [isMark_eq_false_of_isIdentifierPart (isIdentifierPart_of_mem h hc)]

/-- The multiplicity that a mark stands for. -/
def Multiplicity.ofSuffix (mark : String) : Multiplicity :=
  (all.find? fun m => m.suffix = mark).getD needed

@[simp] theorem Multiplicity.ofSuffix_suffix (m : Multiplicity) : ofSuffix m.suffix = m := by
  cases m <;> rfl

namespace FieldSpec

/-- A field whose line tells it: it and its types go by identifiers, and the types are those that their
names stand for. -/
structure Legible (f : FieldSpec) : Prop where
  isIdentifier_name : isIdentifier f.name = true
  types_ne_nil : f.types ≠ []
  isIdentifier_type : ∀ t ∈ f.types, isIdentifier t.name = true
  ofName_name : ∀ t ∈ f.types, FieldType.ofName t.name = t

/-- The line of a field. -/
def line (f : FieldSpec) : String := "    " ++ f.render

/-- The field that the line of a field tells. -/
def readLine (line : String) : FieldSpec :=
  let text := line.toList.drop 4
  let types := (text.dropWhile isIdentifierPart).filter isTypePart
  ⟨String.ofList (text.takeWhile isIdentifierPart),
    (types.splitOn '|').map fun name => FieldType.ofName (String.ofList name),
    Multiplicity.ofSuffix (String.ofList (text.filter isMark)), none⟩

variable {f : FieldSpec}

/-- A field is its name, a colon, the types that may stand in brackets, and the mark. -/
theorem exists_toList_render (f : FieldSpec) :
    ∃ opening closing, (opening = [] ∧ closing = [] ∨ opening = ['('] ∧ closing = [')']) ∧
      f.render.toList = f.name.toList ++ ':' :: ' ' ::
        (opening ++ f.typeNames.toList ++ closing ++ f.multiplicity.suffix.toList) := by
  by_cases h : 1 < f.types.length ∧ f.multiplicity.suffix ≠ ""
  · exact ⟨['('], [')'], .inr ⟨rfl, rfl⟩, by simp [render, h]⟩
  · exact ⟨[], [], .inl ⟨rfl, rfl⟩, by simp [render, h]⟩

theorem toList_typeNames (f : FieldSpec) :
    f.typeNames.toList = [' ', '|', ' '].intercalate (f.types.map fun t => t.name.toList) := by
  rw [typeNames, String.toList_intercalate, List.map_map]
  rfl

/-- What is left of the types between bars. -/
theorem Legible.filter_typeNames (h : f.Legible) :
    f.typeNames.toList.filter isTypePart = ['|'].intercalate (f.types.map fun t => t.name.toList) := by
  have hseparator : [' ', '|', ' '].filter isTypePart = ['|'] := by decide +kernel
  rw [toList_typeNames, List.filter_intercalate, hseparator, List.map_map]
  congr 1
  exact List.map_congr_left fun t ht => filter_isTypePart_of_isIdentifier (h.isIdentifier_type t ht)

/-- No other characters are between and in the types. -/
theorem Legible.of_mem_typeNames (h : f.Legible) {c : Char} (hc : c ∈ f.typeNames.toList) :
    isIdentifierPart c = true ∨ c = ' ' ∨ c = '|' := by
  rw [toList_typeNames] at hc
  rcases List.mem_of_mem_intercalate hc with hseparator | ⟨l, hl, hname⟩
  · have hseparated : c = ' ' ∨ c = '|' ∨ c = ' ' := by simpa using hseparator
    exact .inr (hseparated.elim .inl Or.symm)
  · obtain ⟨t, ht, rfl⟩ := List.mem_map.1 hl
    exact .inl (isIdentifierPart_of_mem (h.isIdentifier_type t ht) hname)

/-- So there is no mark among the types. -/
theorem Legible.filter_isMark_typeNames (h : f.Legible) : f.typeNames.toList.filter isMark = [] := by
  refine List.filter_eq_nil_iff.2 fun c hc => ?_
  rw [Bool.not_eq_true]
  rcases h.of_mem_typeNames hc with hpart | rfl | rfl
  · exact isMark_eq_false_of_isIdentifierPart hpart
  · rfl
  · rfl

/-- Behind the colon the types and the mark are told by the class of the characters: brackets and blanks
belong to neither. -/
theorem Legible.exists_rest (h : f.Legible) :
    ∃ rest, f.render.toList = f.name.toList ++ ':' :: rest ∧
      rest.filter isTypePart = ['|'].intercalate (f.types.map fun t => t.name.toList) ∧
      rest.filter isMark = f.multiplicity.suffix.toList := by
  obtain ⟨opening, closing, hbrackets, hrender⟩ := f.exists_toList_render
  have hsuffix : f.multiplicity.suffix.toList.filter isTypePart = [] ∧
      f.multiplicity.suffix.toList.filter isMark = f.multiplicity.suffix.toList := by
    cases f.multiplicity <;> decide +kernel
  have hblank : isTypePart ' ' = false ∧ isMark ' ' = false := by decide +kernel
  have hbracket : opening.filter isTypePart = [] ∧ closing.filter isTypePart = [] ∧
      opening.filter isMark = [] ∧ closing.filter isMark = [] := by
    rcases hbrackets with ⟨rfl, rfl⟩ | ⟨rfl, rfl⟩ <;> decide +kernel
  refine ⟨_, hrender, ?_, ?_⟩
  · simp [hblank, hbracket, hsuffix, h.filter_typeNames]
  · simp [hblank, hbracket, hsuffix, h.filter_isMark_typeNames]

/-- **The line of a field tells the field**, up to its description. -/
theorem Legible.readLine_line (h : f.Legible) : readLine f.line = f.bare := by
  obtain ⟨rest, hrender, htypes, hmark⟩ := h.exists_rest
  have htext : f.line.toList.drop 4 = f.name.toList ++ ':' :: rest := by
    rw [← hrender]
    simp [line]
  have hcolon : isIdentifierPart ':' = false ∧ isTypePart ':' = false ∧ isMark ':' = false := by
    decide +kernel
  have hname : ∀ c ∈ f.name.toList, isIdentifierPart c = true :=
    fun c => isIdentifierPart_of_mem h.isIdentifier_name
  have hbar : ∀ name ∈ f.types.map fun t => t.name.toList, '|' ∉ name := by
    rw [List.forall_mem_map]
    exact fun t ht => not_mem_of_isIdentifier (h.isIdentifier_type t ht) (by decide +kernel)
  have hread : (f.types.map fun t => t.name.toList).map (fun name => FieldType.ofName (String.ofList name))
      = f.types := by
    rw [List.map_map, List.map_eq_self_iff]
    intro t ht
    simpa using h.ofName_name t ht
  simp only [readLine, htext, List.takeWhile_append_of_pos hname, List.dropWhile_append_of_pos hname,
    List.takeWhile_cons, List.dropWhile_cons, List.filter_append, List.filter_cons, hcolon,
    Bool.false_eq_true, if_false, htypes, hmark, filter_isMark_of_isIdentifier h.isIdentifier_name]
  rw [List.splitOn_intercalate '|' hbar (by simpa using h.types_ne_nil)]
  simp [hread, bare]

/-- A kind that were no identifier would be read as two. -/
example : readLine (line ⟨"x", [.node "a | b"], .needed, none⟩) =
    ⟨"x", [.node "a", .node "b"], .needed, none⟩ := by
  decide +kernel

/-- The line of a field is one line. -/
theorem Legible.newline_not_mem_line (h : f.Legible) : '\n' ∉ f.line.toList := by
  obtain ⟨opening, closing, hbrackets, hrender⟩ := f.exists_toList_render
  have hnewline : isIdentifierPart '\n' = false := by decide +kernel
  have hname := not_mem_of_isIdentifier h.isIdentifier_name hnewline
  have htypes : '\n' ∉ f.typeNames.toList := by
    intro hmem
    rcases h.of_mem_typeNames hmem with hpart | hblank | hbar
    · rw [hnewline] at hpart
      cases hpart
    · cases hblank
    · cases hbar
  have hbracket : '\n' ∉ opening ∧ '\n' ∉ closing := by
    rcases hbrackets with ⟨rfl, rfl⟩ | ⟨rfl, rfl⟩ <;> decide
  have hsuffix : '\n' ∉ f.multiplicity.suffix.toList := by
    cases f.multiplicity <;> decide
  simp [line, hrender, hname, htypes, hbracket, hsuffix]

/-- It ends in a mark, a bracket or the last character of a type. -/
theorem Legible.endsVisibly_line (h : f.Legible) : Text.endsVisibly f.line.toList := by
  obtain ⟨opening, closing, hbrackets, hrender⟩ := f.exists_toList_render
  have htypes : Text.endsVisibly f.typeNames.toList := by
    rw [toList_typeNames]
    refine Text.endsVisibly_intercalate (by simpa using h.types_ne_nil) ?_
    rw [List.forall_mem_map]
    exact fun t ht => endsVisibly_of_isIdentifier (h.isIdentifier_type t ht)
  have hend : Text.endsVisibly (f.typeNames.toList ++ (closing ++ f.multiplicity.suffix.toList)) := by
    have hsigns : closing ++ f.multiplicity.suffix.toList = [] ∨
        Text.endsVisibly (closing ++ f.multiplicity.suffix.toList) := by
      rcases hbrackets with ⟨-, rfl⟩ | ⟨-, rfl⟩ <;> cases f.multiplicity <;> decide
    rcases hsigns with hnone | hsome
    · rwa [hnone, List.append_nil]
    · exact Text.endsVisibly_append_of_endsVisibly hsome _
  have hline : f.line.toList = ("    ".toList ++ f.name.toList ++ ':' :: ' ' :: opening)
      ++ (f.typeNames.toList ++ (closing ++ f.multiplicity.suffix.toList)) := by
    simp [line, hrender]
  rw [hline]
  exact Text.endsVisibly_append_of_endsVisibly hend _

end FieldSpec

/-! ## Schemas -/

namespace NodeSchema

/-- A schema whose lines tell it. -/
structure Legible (s : NodeSchema) : Prop where
  isIdentifier_kind : isIdentifier s.kind = true
  isIdentifier_parent : ∀ p, s.parent = some p → isIdentifier p = true
  legible_fields : ∀ f ∈ s.fields, f.Legible

/-- The line of the kind. -/
def headLine (s : NodeSchema) : String :=
  s.kind ++ (match s.parent with | some p => "(" ++ p ++ ")" | none => "") ++ ":"

/-- The lines of a schema. -/
def textLines (s : NodeSchema) : List String := s.headLine :: s.fields.map FieldSpec.line

/-- The kind and the parent that the line of a kind tells. -/
def readHeadLine (line : String) : String × Option String :=
  (String.ofList (line.toList.takeWhile isIdentifierPart),
    match line.toList.dropWhile isIdentifierPart with
    | '(' :: rest => some (String.ofList (rest.takeWhile isIdentifierPart))
    | _ => none)

/-- The schema that lines tell.  No lines tell none. -/
def readLines? : List String → Option NodeSchema
  | [] => none
  | head :: rest =>
    some ⟨(readHeadLine head).1, (readHeadLine head).2, none, rest.map FieldSpec.readLine⟩

variable {s : NodeSchema}

theorem Legible.readHeadLine_headLine (h : s.Legible) :
    readHeadLine s.headLine = (s.kind, s.parent) := by
  have hkind : ∀ c ∈ s.kind.toList, isIdentifierPart c = true :=
    fun c => isIdentifierPart_of_mem h.isIdentifier_kind
  have hsigns : isIdentifierPart ':' = false ∧ isIdentifierPart '(' = false ∧
      isIdentifierPart ')' = false := by
    decide +kernel
  cases hp : s.parent with
  | none =>
      have hline : s.headLine.toList = s.kind.toList ++ [':'] := by simp [headLine, hp]
      simp [readHeadLine, hline, List.takeWhile_append_of_pos hkind, List.dropWhile_append_of_pos hkind,
        hsigns]
  | some p =>
      have hparent : ∀ c ∈ p.toList, isIdentifierPart c = true :=
        fun c => isIdentifierPart_of_mem (h.isIdentifier_parent p hp)
      have hline : s.headLine.toList = s.kind.toList ++ '(' :: (p.toList ++ [')', ':']) := by
        simp [headLine, hp]
      simp [readHeadLine, hline, List.takeWhile_append_of_pos hkind, List.dropWhile_append_of_pos hkind,
        List.takeWhile_append_of_pos hparent, hsigns]

/-- **The lines of a schema tell the schema**, up to its descriptions. -/
theorem Legible.readLines?_textLines (h : s.Legible) : readLines? s.textLines = some s.bare := by
  have hfields : (s.fields.map FieldSpec.line).map FieldSpec.readLine = s.fields.map FieldSpec.bare := by
    rw [List.map_map]
    exact List.map_congr_left fun f hf => (h.legible_fields f hf).readLine_line
  rw [textLines, readLines?, h.readHeadLine_headLine, hfields]
  rfl

/-- The text of a schema is its lines with line ends between them. -/
theorem render_eq_intercalate (s : NodeSchema) : s.render = "\n".intercalate s.textLines := by
  rw [← String.toList_inj, String.toList_intercalate, textLines, List.map_cons,
    List.intercalate_cons_eq_flatMap]
  cases hp : s.parent <;>
    simp [render, headLine, hp, FieldSpec.line, List.flatMap_map, Function.comp_def]

theorem Legible.newline_not_mem_textLines (h : s.Legible) : ∀ l ∈ s.textLines, '\n' ∉ l.toList := by
  have hnewline : isIdentifierPart '\n' = false := by decide +kernel
  have hkind := not_mem_of_isIdentifier h.isIdentifier_kind hnewline
  rw [textLines, List.forall_mem_cons, List.forall_mem_map]
  refine ⟨?_, fun f hf => (h.legible_fields f hf).newline_not_mem_line⟩
  cases hp : s.parent with
  | none => simp [headLine, hp, hkind]
  | some p =>
      have hparent := not_mem_of_isIdentifier (h.isIdentifier_parent p hp) hnewline
      simp [headLine, hp, hkind, hparent]

theorem Legible.endsVisibly_textLines (h : s.Legible) :
    ∀ l ∈ s.textLines, Text.endsVisibly l.toList := by
  rw [textLines, List.forall_mem_cons, List.forall_mem_map]
  refine ⟨?_, fun f hf => (h.legible_fields f hf).endsVisibly_line⟩
  rw [headLine, String.toList_append]
  exact Text.endsVisibly_append_of_endsVisibly (by decide) _

/-- So the text of a schema ends visibly. -/
theorem Legible.endsVisibly_render (h : s.Legible) : Text.endsVisibly s.render.toList := by
  rw [render_eq_intercalate, String.toList_intercalate]
  refine Text.endsVisibly_intercalate (by simp [textLines]) ?_
  rw [List.forall_mem_map]
  exact h.endsVisibly_textLines

theorem Legible.empty_not_mem_textLines (h : s.Legible) : "" ∉ s.textLines := by
  intro hempty
  have hvisible := h.endsVisibly_textLines "" hempty
  revert hvisible
  decide

end NodeSchema

/-! ## The text view -/

namespace CommandLine

/-- The schemas that the text view tells. -/
def readShown (output : String) : List NodeSchema :=
  ((lines output).splitOn "").filterMap NodeSchema.readLines?

/-- The lines that stand for schemas. -/
def textLines (schemas : List NodeSchema) : List String :=
  [""].intercalate (schemas.map NodeSchema.textLines)

theorem printed_append (ls ls' : List String) : printed (ls ++ ls') = printed ls ++ printed ls' := by
  simp [printed]

theorem printed_eq_intercalate {ls : List String} (h : ls ≠ []) :
    printed ls = "\n".intercalate ls ++ "\n" := by
  induction ls with
  | nil => exact absurd rfl h
  | cons l rest ih =>
      cases rest with
      | nil => simp [printed]
      | cons l' rest =>
          have hcons : printed (l :: l' :: rest) = l ++ "\n" ++ printed (l' :: rest) := by
            simp [printed]
          rw [hcons, ih (List.cons_ne_nil _ _)]
          simp [String.append_assoc]

theorem printed_textLines {schemas : List NodeSchema} (h : schemas ≠ []) :
    printed (textLines schemas) = "\n\n".intercalate (schemas.map NodeSchema.render) ++ "\n" := by
  have hschema : ∀ s : NodeSchema, printed s.textLines = s.render ++ "\n" := fun s => by
    rw [s.render_eq_intercalate, printed_eq_intercalate (by simp [NodeSchema.textLines])]
  induction schemas with
  | nil => exact absurd rfl h
  | cons s rest ih =>
      cases rest with
      | nil => simp [textLines, hschema]
      | cons t rest =>
          -- of the two line ends between the texts, one closes the last line of `s` and one the empty line
          have hlines : textLines (s :: t :: rest) = s.textLines ++ [""] ++ textLines (t :: rest) := by
            simp [textLines]
          have hgap : printed [""] = "\n" := by decide
          rw [hlines, printed_append, printed_append, hschema, hgap, ih (List.cons_ne_nil _ _)]
          simp [String.append_assoc]

theorem shown_text_eq {schemas : List NodeSchema} (hne : schemas ≠ [])
    (h : ∀ s ∈ schemas, s.Legible) : shown .text schemas ++ "\n" = printed (textLines schemas) := by
  have hend : Text.endsVisibly ("\n\n".intercalate (schemas.map NodeSchema.render)).toList := by
    rw [String.toList_intercalate]
    refine Text.endsVisibly_intercalate (by simpa using hne) ?_
    simp only [List.forall_mem_map]
    exact fun s hs => (h s hs).endsVisibly_render
  rw [printed_textLines hne, shown]
  exact congrArg (· ++ "\n") (Text.trimEnd_of_endsVisibly hend)

/-- **The text view tells the schemas**, up to their descriptions. -/
theorem readShown_text {schemas : List NodeSchema} (h : ∀ s ∈ schemas, s.Legible) :
    readShown (shown .text schemas ++ "\n") = schemas.map NodeSchema.bare := by
  by_cases hne : schemas = []
  · -- nothing but the line end is printed, and neither of the two groups around the empty line has lines
    subst hne
    rfl
  · have hlines : lines (printed (textLines schemas)) = textLines schemas := by
      refine lines_printed fun l hl => ?_
      rcases List.mem_of_mem_intercalate hl with hgap | ⟨group, hgroup, hl⟩
      · obtain rfl := List.mem_singleton.1 hgap
        decide
      · obtain ⟨s, hs, rfl⟩ := List.mem_map.1 hgroup
        exact (h s hs).newline_not_mem_textLines l hl
    have hgaps : ∀ group ∈ schemas.map NodeSchema.textLines, "" ∉ group := by
      rw [List.forall_mem_map]
      exact fun s hs => (h s hs).empty_not_mem_textLines
    rw [shown_text_eq hne h, readShown, hlines, textLines,
      List.splitOn_intercalate "" hgaps (by simpa using hne), List.filterMap_map,
      ← List.filterMap_eq_map]
    exact List.filterMap_congr fun s hs => (h s hs).readLines?_textLines

end CommandLine

namespace Declarations

/-- The schemas of an acceptable set are legible: a type is built in, or the kind that it refers to is
declared, and then that is an identifier and no built-in name. -/
theorem Acceptable.legible {d : Declarations} (h : d.Acceptable) : ∀ s ∈ d.nodes, s.Legible := by
  intro s hs
  have hproper := h.proper s hs
  have htarget : ∀ f ∈ s.fields, ∀ k, FieldType.node k ∈ f.types →
      isIdentifier k = true ∧ FieldType.isBuiltinName k = false := by
    intro f hf k hk
    obtain ⟨t, ht, rfl⟩ := List.mem_map.1 (h.target_declared s hs f hf k hk)
    exact ⟨h.isIdentifier_kind t ht, (h.proper t ht).kind_not_builtin⟩
  refine ⟨hproper.isIdentifier_kind, hproper.isIdentifier_parent, fun f hf => ?_⟩
  refine ⟨hproper.isIdentifier_name f hf, hproper.types_ne_nil f hf, fun t ht => ?_, fun t ht => ?_⟩
  · cases t with
    | node k => exact (htarget f hf k ht).1
    | _ => decide +kernel
  · rw [FieldType.ofName_name_eq_iff]
    rintro k rfl
    exact (htarget f hf k ht).2

end Declarations

namespace CommandLine

variable {d d' : Declarations} {r r' : Registry}

/-- Two accepted sets are shown alike exactly if they declare the same up to descriptions. -/
theorem shown_text_eq_iff (accepted : d.toRegistry = .ok r) (accepted' : d'.toRegistry = .ok r') :
    shown .text d.nodes ++ "\n" = shown .text d'.nodes ++ "\n" ↔
      d.nodes.map NodeSchema.bare = d'.nodes.map NodeSchema.bare := by
  have hlegible := ((Declarations.exists_toRegistry_iff d).1 ⟨r, accepted⟩).legible
  have hlegible' := ((Declarations.exists_toRegistry_iff d').1 ⟨r', accepted'⟩).legible
  constructor
  · intro h
    rw [← readShown_text hlegible, h, readShown_text hlegible']
  · intro h
    rw [← shown_text_bare, h, shown_text_bare]

/-- What a request for all schemas as text prints. -/
theorem output_of_loaded {s : Snapshot} {words : List String} {i : Invocation}
    (accepted : d.toRegistry = .ok r) (asked : parse words = .invoke i)
    (job : i.job = .present none .text) (loaded : outcome (i.declarations s.atRest) = .ok d) :
    (runOn s words).1 = ⟨0, shown .text d.nodes ++ "\n", none⟩ := by
  rw [runOn_of_loaded asked loaded, Declarations.registry_eq_ok_iff.2 accepted, job]
  simp only [answer_present_all accepted, ending]

/-- **The text view determines the schemas.**  Of two accepted sets the same text is shown exactly if they
declare the same schemas in the same order, with the same kinds, parents and fields, and these with the
same names, types and multiplicities in the same order; descriptions alone may differ.  So it is with the
answers that are given to a request for all schemas, and with what is printed by command lines that make
the request. -/
theorem text_view_determines (accepted : d.toRegistry = .ok r) (accepted' : d'.toRegistry = .ok r') :
    (Job.answer d r (.present none .text) = Job.answer d' r' (.present none .text) ↔
      d.nodes.map NodeSchema.bare = d'.nodes.map NodeSchema.bare) ∧
    ∀ s s' words words' i i', parse words = .invoke i → parse words' = .invoke i' →
      i.job = .present none .text → i'.job = .present none .text →
        outcome (i.declarations s.atRest) = .ok d → outcome (i'.declarations s'.atRest) = .ok d' →
          (runOn s words).1.code = 0 ∧ (runOn s' words').1.code = 0 ∧
          ((runOn s words).1.output = (runOn s' words').1.output ↔
            d.nodes.map NodeSchema.bare = d'.nodes.map NodeSchema.bare) := by
  constructor
  · rw [answer_present_all accepted, answer_present_all accepted', Except.ok.injEq]
    exact shown_text_eq_iff accepted accepted'
  · intro s s' words words' i i' asked asked' job job' loaded loaded'
    rw [output_of_loaded accepted asked job loaded, output_of_loaded accepted' asked' job' loaded']
    exact ⟨rfl, rfl, shown_text_eq_iff accepted accepted'⟩

/-- A kind and one that extends it are shown as something else in the other order. -/
theorem text_view_determines_lineage :
    (runOn lineage ["show", "a.yml", "b.yml"]).1.output ≠
      (runOn lineage ["show", "b.yml", "a.yml"]).1.output := by
  have accepted : (Declarations.mk "1" none [⟨"A", none, none, []⟩, ⟨"B", some "A", none, []⟩]).toRegistry
      = .ok ⟨[⟨"A", none, none, []⟩, ⟨"B", some "A", none, []⟩], [("B", 1), ("A", 0)]⟩ := by
    decide +kernel
  have accepted' : (Declarations.mk "1" none [⟨"B", some "A", none, []⟩, ⟨"A", none, none, []⟩]).toRegistry
      = .ok ⟨[⟨"B", some "A", none, []⟩, ⟨"A", none, none, []⟩], [("A", 1), ("B", 0)]⟩ := by
    decide +kernel
  have asked : parse ["show", "a.yml", "b.yml"] =
      .invoke ⟨.present none .text, ["a.yml", "b.yml"], none, 0⟩ := by
    decide +kernel
  have asked' : parse ["show", "b.yml", "a.yml"] =
      .invoke ⟨.present none .text, ["b.yml", "a.yml"], none, 0⟩ := by
    decide +kernel
  obtain ⟨-, -, hiff⟩ := (text_view_determines accepted accepted').2 lineage lineage _ _ _ _ asked asked'
    rfl rfl (by decide +kernel) (by decide +kernel)
  rw [Ne, hiff]
  decide +kernel

end CommandLine

end TreeSchema
