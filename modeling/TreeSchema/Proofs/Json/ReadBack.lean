/-
# TreeSchema.Proofs.Json.ReadBack — documents read back from JSON.

The value of a written document stands for the document, so whatever a reader makes of what stands for
the document it makes of the written text, in either form.
-/
import TreeSchema.Json.Reading
import TreeSchema.Proofs.Json.Assembly
import TreeSchema.Proofs.Reading

namespace TreeSchema.Json

open Reading

mutual

/-- The value of a document stands for it. -/
theorem stands_treeOf : (d : Document) → source.Stands d (treeOf d)
  | .null => rfl
  | .flag _ => fun _ => rfl
  | .text s => by
    refine ⟨fun _ => rfl, rfl, fun known hs => ?_⟩
    simp [source, Tree.variant, treeOf, Tree.text, hs]
    rfl
  | .list items => ⟨itemTrees items, fun _ => rfl, standFor_itemTrees items⟩
  | .record entries => ⟨_, fun _ => rfl, standAsEntries_entryTrees entries⟩

theorem standFor_itemTrees : (ds : List Document) → source.StandFor ds (itemTrees ds)
  | [] => rfl
  | d :: ds => ⟨treeOf d, itemTrees ds, rfl, stands_treeOf d, standFor_itemTrees ds⟩

theorem standAsEntries_entryTrees : (entries : List (String × Document)) →
    source.StandAsEntries entries ((entryTrees entries).map fun e => (e.1.label, e.2))
  | [] => rfl
  | (name, d) :: rest =>
    ⟨.entry name, treeOf d, _, rfl, stands_treeOf d, standAsEntries_entryTrees rest⟩

end

variable {α : Type} {read : Tree → Except Fault α} {d : Document} {a : α}

/-- What reads as the value of a document is read as what stands for the document is. -/
theorem readAll_of_parse {input : List Text.Glyph} (h : parse input = (treeOf d, true))
    (hread : ∀ t, source.Stands d t → read t = .ok a) : readAll read input = .ok a := by
  rw [readAll, h]
  simp [hread (treeOf d) (stands_treeOf d)]

/-- **The compact form of a document reads back.** -/
theorem readAll_compact (hread : ∀ t, source.Stands d t → read t = .ok a) :
    readAll read (Text.glyphs (compact d)) = .ok a :=
  readAll_of_parse (parse_compact d) hread

/-- **The pretty form of a document reads back**, also with white space behind it. -/
theorem readAll_pretty {gap : String} (hgap : ∀ g ∈ Text.glyphs gap, isSpace g = true)
    (hread : ∀ t, source.Stands d t → read t = .ok a) :
    readAll read (Text.glyphs (pretty d ++ gap)) = .ok a :=
  readAll_of_parse (parse_pretty d hgap) hread

end TreeSchema.Json
