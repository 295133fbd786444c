/-
# TreeSchema.Identifier — names of kinds and fields.

An identifier begins with a letter of any script or an underscore and goes on with letters, decimal
digits and underscores.  The type carries the proof, so a value of it needs no second check.
-/
import TreeSchema.Text.Letter

namespace TreeSchema

/-- A character that may begin an identifier. -/
def isIdentifierStart (c : Char) : Bool := Text.isLetter c || c == '_'

/-- A character that may follow in an identifier. -/
def isIdentifierPart (c : Char) : Bool := isIdentifierStart c || Text.isDecimalDigit c

/-- Whether characters spell an identifier. -/
def spellsIdentifier : List Char → Bool
  | [] => false
  | c :: rest => isIdentifierStart c && rest.all isIdentifierPart

/-- Whether a text is an identifier. -/
def isIdentifier (text : String) : Bool := spellsIdentifier text.toList

/-- Every character of an identifier may follow in one. -/
theorem isIdentifierPart_of_mem {text : String} (h : isIdentifier text = true) {c : Char}
    (hc : c ∈ text.toList) : isIdentifierPart c = true := by
  unfold isIdentifier at h
  cases hs : text.toList with
  | nil => simp [hs] at hc
  | cons d ds =>
    rw [hs] at h hc
    simp only [spellsIdentifier, Bool.and_eq_true, List.all_eq_true] at h
    rcases List.mem_cons.1 hc with rfl | hc
    · simp [isIdentifierPart, h.1]
    · exact h.2 c hc

/-- An identifier has no other characters than those of identifiers. -/
theorem not_mem_of_isIdentifier {text : String} (h : isIdentifier text = true) {c : Char}
    (hc : isIdentifierPart c = false) : c ∉ text.toList := by
  intro hmem
  rw [isIdentifierPart_of_mem h hmem] at hc
  cases hc

/-- An identifier is not empty. -/
theorem ne_empty_of_isIdentifier {text : String} (h : isIdentifier text = true) : text ≠ "" := by
  rintro rfl
  revert h
  decide

/-- A text together with the proof that it is an identifier. -/
structure Identifier where
  text : String
  isIdentifier_text : isIdentifier text = true
deriving DecidableEq

namespace Identifier

/-- The identifier with a given text, if the text is one. -/
def ofText? (text : String) : Option Identifier :=
  if h : isIdentifier text = true then some ⟨text, h⟩ else none

@[simp] theorem ofText?_eq_some_iff {text : String} {i : Identifier} :
    ofText? text = some i ↔ i.text = text := by
  unfold ofText?
  split
  · rename_i h
    constructor
    · rintro ⟨⟩
      rfl
    · rintro rfl
      rfl
  · rename_i h
    constructor
    · rintro ⟨⟩
    · rintro rfl
      exact absurd i.isIdentifier_text h

/-- An identifier in single quotes.  It holds no quote and no backslash, so none is escaped. -/
def render (i : Identifier) : String := "'" ++ i.text ++ "'"

/-- Identifiers are ordered by their text. -/
instance : Ord Identifier := ⟨fun a b => compare a.text b.text⟩

end Identifier

end TreeSchema
