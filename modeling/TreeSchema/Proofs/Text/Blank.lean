/-
# TreeSchema.Proofs.Text.Blank — what trimming takes from a text.

A text that is trimmed and closed with a line end is what it was before exactly if it ended in one line
end behind a visible character.
-/
import Mathlib.Data.List.DropRight
import TreeSchema.Text.Blank

namespace TreeSchema.Text

/-- Whether a text ends in a character that is not white space. -/
def endsVisibly (cs : List Char) : Bool := cs.getLast?.any fun c => !isBlank c

/-- Whether a text ends in a line feed behind a character that is not white space. -/
def endsInLine (cs : List Char) : Bool := cs.getLast? == some '\n' && endsVisibly cs.dropLast

@[simp] theorem endsVisibly_concat (cs : List Char) (c : Char) :
    endsVisibly (cs ++ [c]) = !isBlank c := by
  simp [endsVisibly]

@[simp] theorem endsInLine_concat (cs : List Char) (c : Char) :
    endsInLine (cs ++ [c]) = (c == '\n' && endsVisibly cs) := by
  simp [endsInLine]

theorem endsVisibly_append {cs : List Char} (h : cs ≠ []) (front : List Char) :
    endsVisibly (front ++ cs) = endsVisibly cs := by
  rw [endsVisibly, endsVisibly, List.getLast?_append_of_ne_nil front h]

/-- What ends visibly does so behind anything. -/
theorem endsVisibly_append_of_endsVisibly {cs : List Char} (h : endsVisibly cs) (front : List Char) :
    endsVisibly (front ++ cs) := by
  have hne : cs ≠ [] := by
    rintro rfl
    simp [endsVisibly] at h
  rw [endsVisibly_append hne, h]

/-- Separated texts end as the last of them does. -/
theorem endsVisibly_intercalate {sep : List Char} {ls : List (List Char)} (hne : ls ≠ [])
    (h : ∀ l ∈ ls, endsVisibly l) : endsVisibly (sep.intercalate ls) := by
  induction ls with
  | nil => exact absurd rfl hne
  | cons l rest ih =>
    rw [List.forall_mem_cons] at h
    cases rest with
    | nil => simpa using h.1
    | cons l' rest =>
      rw [List.intercalate_cons_cons]
      exact endsVisibly_append_of_endsVisibly (ih (List.cons_ne_nil _ _) h.2) _

/-- What stands behind a line feed is the end, if there is anything. -/
theorem endsVisibly_append_newline (front cs : List Char) :
    endsVisibly (front ++ '\n' :: cs) = endsVisibly cs := by
  rw [endsVisibly_append (by simp)]
  cases hlast : cs.getLast? <;> simp [endsVisibly, List.getLast?_cons, hlast, isBlank]

/-- Trimming drops white space from the end. -/
theorem toList_trimEnd (text : String) : (trimEnd text).toList = text.toList.rdropWhile isBlank := by
  simp [trimEnd, List.rdropWhile]

/-- A text that ends visibly is trimmed already. -/
theorem trimEnd_of_endsVisibly {text : String} (h : endsVisibly text.toList) :
    trimEnd text = text := by
  rw [← String.toList_inj, toList_trimEnd, List.rdropWhile_eq_self_iff]
  intro hne
  simpa [endsVisibly, List.getLast?_eq_some_getLast hne] using h

/-- A text with more than a line feed is itself again, trimmed and with a line feed behind it, exactly
if it ends in one line behind a visible character. -/
theorem trimEnd_newline_eq_iff {text : String} (h : text ≠ "\n") :
    trimEnd text ++ "\n" = text ↔ endsInLine text.toList := by
  rw [← String.toList_inj, String.toList_append, toList_trimEnd]
  have hne : text.toList ≠ ['\n'] := fun hl => h (by rw [← String.toList_inj, hl]; rfl)
  generalize text.toList = cs at hne
  obtain rfl | ⟨init, c, rfl⟩ := List.eq_nil_or_concat cs
  · simp [endsInLine]
  rw [List.concat_eq_append] at hne ⊢
  rw [endsInLine_concat]
  by_cases hc : c = '\n'
  · -- The line feed is trimmed and put back, so what stands before it must not be trimmed.
    subst hc
    have hinit : init ≠ [] := by
      rintro rfl
      exact hne rfl
    rw [List.rdropWhile_concat_pos _ _ _ (by decide)]
    simp [List.rdropWhile_eq_self_iff, endsVisibly, hinit, List.getLast?_eq_some_getLast hinit]
  · have hend : (init ++ [c]).rdropWhile isBlank ++ "\n".toList ≠ init ++ [c] := fun heq =>
      hc (by simpa using (congrArg List.getLast? heq).symm)
    exact iff_of_false hend (by simp [hc])

end TreeSchema.Text
