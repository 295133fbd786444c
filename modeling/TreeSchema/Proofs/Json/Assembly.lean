/-
# TreeSchema.Proofs.Json.Assembly — the value that the tokens of a document make.

The tokens of a document, met where a value may stand, complete one value and leave the open lists and
maps around it as they are.  So the tokens by themselves make the value of the whole text.
-/
import TreeSchema.Json.Tree
import TreeSchema.Proofs.Json.Tokens
import TreeSchema.Proofs.List

namespace TreeSchema.Json

mutual

/-- The value that stands for a document. -/
def treeOf : Document → Tree
  | .null => .null
  | .flag b => .flag b
  | .text s => .string (some s)
  | .list items => .list (itemTrees items) true
  | .record entries => .map (entryTrees entries) true

/-- The values that stand for the items of a list. -/
def itemTrees : List Document → List Tree
  | [] => []
  | d :: ds => treeOf d :: itemTrees ds

/-- The entries that stand for those of a record. -/
def entryTrees : List (String × Document) → List (Tree × Tree)
  | [] => []
  | (name, d) :: rest => (.string (some name), treeOf d) :: entryTrees rest

end

/-- What becomes of a complete value and the tokens that follow it. -/
def settle (t : Tree) (ts : List Token) (stack : List Frame) : Tree × Bool :=
  match place t stack with
  | .root root => (root, ts.isEmpty)
  | .inside stack' => assemble ts .commaOrClose stack'

variable {t : Token} {ts : List Token} {tree : Tree} {awaited awaited' : Awaited}
  {stack stack' : List Frame}

/-! ## Single tokens -/

theorem assemble_cons_of_go (h : t.effect awaited stack = .go awaited' stack') :
    assemble (t :: ts) awaited stack = assemble ts awaited' stack' := by
  rw [assemble, h]

theorem assemble_cons_of_complete (h : t.effect awaited stack = .complete tree stack') :
    assemble (t :: ts) awaited stack = settle tree ts stack' := by
  rw [assemble, h]
  rfl

/-- Where a value may stand, a token that does not close a list begins one. -/
theorem effect_eq_begin (h : awaited = .value ∨ awaited = .valueOrClose) (ht : t ≠ .bracketClose) :
    t.effect awaited stack = t.begin stack := by
  rcases h with rfl | rfl <;> cases t <;> first | rfl | exact absurd rfl ht

/-! ## Documents

The stack and the tokens behind a document are universal in each statement, since a part of a document
is met with another stack and other tokens behind it than the whole. -/

mutual

/-- **The tokens of a document complete its value**, wherever a value may stand. -/
theorem assemble_tokensOf : (d : Document) → ∀ {awaited : Awaited} (stack : List Frame)
    (ts : List Token), awaited = .value ∨ awaited = .valueOrClose →
      assemble (tokensOf d ++ ts) awaited stack = settle (treeOf d) ts stack
  | .null, _, _, _, h => assemble_cons_of_complete (effect_eq_begin h (by simp))
  | .flag _, _, _, _, h => assemble_cons_of_complete (effect_eq_begin h (by simp))
  | .text _, _, _, _, h => assemble_cons_of_complete (effect_eq_begin h (by simp))
  | .list [], _, _, _, h => by
    rw [tokensOf, List.cons_append, List.cons_append,
      assemble_cons_of_go (effect_eq_begin h (by simp))]
    exact assemble_cons_of_complete rfl
  | .list (d :: ds), _, stack, ts, h => by
    rw [tokensOf, List.cons_append, List.cons_append,
      assemble_cons_of_go (effect_eq_begin h (by simp)), itemTokens, List.intercalate_cons_eq_flatMap,
      List.append_assoc, List.append_assoc, assemble_tokensOf d _ _ (.inr rfl)]
    exact assemble_items ds stack ts [treeOf d]
  | .record [], _, _, _, h => by
    rw [tokensOf, List.cons_append, List.cons_append,
      assemble_cons_of_go (effect_eq_begin h (by simp))]
    exact assemble_cons_of_complete rfl
  | .record ((name, d) :: rest), _, stack, ts, h => by
    rw [tokensOf, List.cons_append, List.cons_append,
      assemble_cons_of_go (effect_eq_begin h (by simp)), entryTokens, List.intercalate_cons_eq_flatMap,
      List.append_assoc, List.append_assoc, List.cons_append, List.cons_append,
      assemble_cons_of_go rfl, assemble_cons_of_go rfl, assemble_tokensOf d _ _ (.inl rfl)]
    exact assemble_entries rest stack ts [(.string (some name), treeOf d)]

/-- Further items, each behind a comma, and the end of their list. -/
theorem assemble_items : (ds : List Document) → ∀ (outer : List Frame) (ts : List Token)
    (items : List Tree),
      assemble ((itemTokens ds).flatMap (Token.comma :: ·) ++ .bracketClose :: ts) .commaOrClose
          (.list items :: outer) =
        settle (.list (items.reverse ++ itemTrees ds) true) ts outer
  | [], _, _, _ => by
    rw [itemTokens, List.flatMap_nil, List.nil_append, itemTrees, List.append_nil]
    exact assemble_cons_of_complete rfl
  | d :: ds, outer, ts, items => by
    rw [itemTokens, List.flatMap_cons, List.append_assoc, List.cons_append,
      assemble_cons_of_go rfl, assemble_tokensOf d _ _ (.inl rfl)]
    refine (assemble_items ds outer ts (treeOf d :: items)).trans ?_
    rw [itemTrees, List.reverse_cons, List.append_assoc, List.singleton_append]

/-- Further entries, each behind a comma, and the end of their record. -/
theorem assemble_entries : (rest : List (String × Document)) → ∀ (outer : List Frame)
    (ts : List Token) (entries : List (Tree × Tree)),
      assemble ((entryTokens rest).flatMap (Token.comma :: ·) ++ .braceClose :: ts) .commaOrClose
          (.map entries :: outer) =
        settle (.map (entries.reverse ++ entryTrees rest) true) ts outer
  | [], _, _, _ => by
    rw [entryTokens, List.flatMap_nil, List.nil_append, entryTrees, List.append_nil]
    exact assemble_cons_of_complete rfl
  | (name, d) :: rest, outer, ts, entries => by
    rw [entryTokens, List.flatMap_cons, List.append_assoc, List.cons_append,
      assemble_cons_of_go rfl, List.cons_append, List.cons_append, assemble_cons_of_go rfl,
      assemble_cons_of_go rfl, assemble_tokensOf d _ _ (.inl rfl)]
    refine (assemble_entries rest outer ts ((.string (some name), treeOf d) :: entries)).trans ?_
    rw [entryTrees, List.reverse_cons, List.append_assoc, List.singleton_append]

end

/-! ## Whole texts -/

/-- A text that scans to the tokens of a document is the value of the document. -/
theorem parse_of_scans {text : String} {d : Document} (h : Scans text (tokensOf d)) :
    parse (Text.glyphs text) = (treeOf d, true) := by
  have hvalue := assemble_tokensOf d [] [] (.inl rfl)
  rw [List.append_nil] at hvalue
  rw [parse, h.tokens_eq, hvalue]
  rfl

/-- The compact form of a document is its value. -/
theorem parse_compact (d : Document) : parse (Text.glyphs (compact d)) = (treeOf d, true) :=
  parse_of_scans (scans_compact d)

/-- The pretty form of a document is its value, also with white space behind it. -/
theorem parse_pretty (d : Document) {gap : String} (h : ∀ g ∈ Text.glyphs gap, isSpace g = true) :
    parse (Text.glyphs (pretty d ++ gap)) = (treeOf d, true) := by
  refine parse_of_scans ?_
  simpa [pretty] using (scans_prettyAt 0 d).append (.space h)

end TreeSchema.Json
