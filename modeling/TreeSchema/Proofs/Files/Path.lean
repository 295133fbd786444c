/-
# TreeSchema.Proofs.Files.Path — what holds a path, and paths seen from there.

Seen from a directory, a relative path goes through the components of the directory first and through its
own after them.  So it is still the same path exactly if the directory has no components: it is the one
without a name, or it is the single dot and the path begins with the single dot as well.  That the texts
differ says nothing, since a single dot inside a path does not count.

What holds a path is written without slashes and dots at its end (`Trimmed`), and if it starts from the
root, so does everything seen from it.
-/
import Mathlib.Data.List.Basic
import TreeSchema.Files.Path

namespace TreeSchema.Files.Path

/-! ## Pieces and components -/

theorem pieces_ne_nil (cs : List Char) : pieces cs ≠ [] := by
  unfold pieces
  split
  · exact List.cons_ne_nil _ _
  · split
    · exact List.cons_ne_nil _ _
    · split <;> exact List.cons_ne_nil _ _

/-- A slash divides the pieces into those before it and those behind it. -/
theorem pieces_append_slash (cs ds : List Char) :
    pieces (cs ++ '/' :: ds) = pieces cs ++ pieces ds := by
  induction cs with
  | nil => simp [pieces]
  | cons c cs ih =>
    rw [List.cons_append, pieces, pieces, ih]
    split
    · rfl
    · cases hcs : pieces cs with
      | nil => exact absurd hcs (pieces_ne_nil cs)
      | cons p ps => rfl

theorem pieces_of_notMem {cs : List Char} (h : '/' ∉ cs) : pieces cs = [cs] := by
  induction cs with
  | nil => rfl
  | cons c cs ih =>
    rw [List.mem_cons, not_or] at h
    rw [pieces, if_neg (Ne.symm h.1), ih h.2]

theorem components_eq_nil_iff {path : String} :
    components path = [] ↔ ∀ p ∈ pieces path.toList, p = [] ∨ p = dot := by
  simp [components, List.filter_eq_nil_iff, or_iff_not_imp_left]

/-- A relative path without components is the empty one, or the single dot comes first. -/
theorem startsHere_of_components_eq_nil {path : String} (hrel : isAbsolute path = false)
    (hne : path ≠ "") (h : components path = []) : startsHere path = true := by
  have hfirst := List.head_mem (pieces_ne_nil path.toList)
  rcases components_eq_nil_iff.mp h _ hfirst with hempty | hdot
  · -- with nothing before its first slash a path is empty or absolute
    cases hcs : path.toList with
    | nil => exact absurd (String.toList_eq_nil_iff.mp hcs) hne
    | cons c cs =>
      have hc : c ≠ '/' := by simpa [isAbsolute, hcs] using hrel
      cases hpieces : pieces cs with
      | nil => exact absurd hpieces (pieces_ne_nil cs)
      | cons p ps => simp [hcs, pieces, hc, hpieces] at hempty
  · rw [startsHere, List.head?_eq_some_head (pieces_ne_nil _), hdot]
    rfl

/-! ## Paths that are equal -/

theorem equals_iff {p q : String} :
    equals p q = true ↔
      isAbsolute p = isAbsolute q ∧ startsHere p = startsHere q ∧ components p = components q := by
  simp [equals, and_assoc]

example : equals "././a//b/" "./a/b" = true ∧ equals "./a/b" "a/b" = false := by decide

@[simp] theorem equals_self (p : String) : equals p p = true := equals_iff.mpr ⟨rfl, rfl, rfl⟩

/-! ## Seen from a directory -/

theorem isAbsolute_iff {path : String} : isAbsolute path ↔ path.toList.head? = some '/' := by
  simp [isAbsolute]

/-- An absolute path is the same from everywhere. -/
@[simp] theorem join_of_isAbsolute {base path : String} (h : isAbsolute path) :
    join base path = path := by
  simp [join, h]

/-- The directory without a name is the one that paths start from. -/
@[simp] theorem join_empty (path : String) : join "" path = path := by
  simp [join]

/-- A named directory and a relative path stand on the two sides of a slash. -/
theorem toList_join_of_relative {base path : String} (hbase : base ≠ "")
    (h : isAbsolute path = false) :
    ∃ front, (base.toList = front ∨ base.toList = front ++ ['/']) ∧
      (join base path).toList = front ++ '/' :: path.toList := by
  have hempty : base.isEmpty = false := by simpa using hbase
  unfold join
  rw [h, hempty, Bool.or_false, if_neg Bool.false_ne_true]
  split
  · next hslash =>
    obtain ⟨front, hfront⟩ := List.getLast?_eq_some_iff.mp (beq_iff_eq.mp hslash)
    exact ⟨front, .inr hfront, by simp [hfront]⟩
  · exact ⟨base.toList, .inl rfl, by simp⟩

theorem isAbsolute_join_of_relative {base path : String} (hbase : base ≠ "")
    (h : isAbsolute path = false) : isAbsolute (join base path) = isAbsolute base := by
  obtain ⟨front, hfront, hjoin⟩ := toList_join_of_relative hbase h
  have hne : base.toList ≠ [] := by simpa using hbase
  cases front with
  | nil =>
    -- the directory is the root
    rcases hfront with hfront | hfront
    · exact absurd hfront hne
    · rw [isAbsolute, isAbsolute, hjoin, hfront]
      rfl
  | cons c front =>
    rcases hfront with hfront | hfront <;> rw [isAbsolute, isAbsolute, hjoin, hfront] <;> rfl

/-- What is seen from an absolute directory is absolute. -/
theorem isAbsolute_join {base : String} (path : String) (hbase : isAbsolute base) :
    isAbsolute (join base path) := by
  by_cases h : isAbsolute path = true
  · rwa [join_of_isAbsolute h]
  · have hne : base ≠ "" := by
      rintro rfl
      simp [isAbsolute] at hbase
    rwa [isAbsolute_join_of_relative hne (Bool.not_eq_true _ ▸ h)]

/-- What is seen from a directory goes through the directory first. -/
theorem components_join {base path : String} (h : isAbsolute path = false) :
    components (join base path) = components base ++ components path := by
  by_cases hbase : base = ""
  · subst hbase
    rw [join_empty]
    rfl
  · obtain ⟨front, hfront, hjoin⟩ := toList_join_of_relative hbase h
    rw [components, hjoin, pieces_append_slash, List.filter_append]
    rcases hfront with hfront | hfront
    · rw [← hfront]
      rfl
    · -- the slash at the end of the directory is followed by an empty piece only
      have hpieces : pieces base.toList = pieces front ++ [[]] := by
        rw [hfront, pieces_append_slash]
        rfl
      simp [components, hpieces]

theorem startsHere_join {base path : String} (hbase : base ≠ "") (h : isAbsolute path = false) :
    startsHere (join base path) = startsHere base := by
  obtain ⟨front, hfront, hjoin⟩ := toList_join_of_relative hbase h
  have hhead : ∀ ds, (pieces (front ++ '/' :: ds)).head? = (pieces front).head? := by
    intro ds
    rw [pieces_append_slash, List.head?_append_of_ne_nil _ (pieces_ne_nil front)]
  rcases hfront with hfront | hfront
  · rw [startsHere, startsHere, hjoin, hhead, hfront]
  · rw [startsHere, startsHere, hjoin, hhead, hfront, hhead]

/-- **A path seen from a directory is the same path** exactly if it is absolute, or the directory has no
name, or the directory is a relative one without components and the path begins with the single dot. -/
theorem equals_join_iff {base path : String} :
    equals (join base path) path = true ↔
      isAbsolute path = true ∨ base = "" ∨
        isAbsolute base = false ∧ components base = [] ∧ startsHere path = true := by
  by_cases habs : isAbsolute path = true
  · simp [habs]
  · rw [Bool.not_eq_true] at habs
    by_cases hbase : base = ""
    · simp [hbase]
    · rw [equals_iff, isAbsolute_join_of_relative hbase habs, startsHere_join hbase habs,
        components_join habs, List.append_left_eq_self]
      constructor
      · rintro ⟨hrel, hhere, hnone⟩
        rw [habs] at hrel
        rw [← hhere, startsHere_of_components_eq_nil hrel hbase hnone]
        simp [hrel, hnone]
      · rintro (h | h | ⟨hrel, hnone, hhere⟩)
        · simp [habs] at h
        · exact absurd h hbase
        · rw [habs, hhere, startsHere_of_components_eq_nil hrel hbase hnone]
          exact ⟨hrel, rfl, hnone⟩

/-! ## What holds a path -/

/-- Stripping from the end does not touch the slash that a path begins with. -/
theorem getLast?_trimReversed {cs : List Char} (h : cs.getLast? = some '/') :
    (trimReversed cs).getLast? = some '/' := by
  fun_induction trimReversed cs with
  | case1 => rfl
  | case2 rest hrest ih =>
    cases rest with
    | nil => exact absurd rfl hrest
    | cons c rest => exact ih (by simpa [List.getLast?_cons_cons] using h)
  | case3 => rfl
  | case4 rest _ ih =>
    refine ih ?_
    rw [List.getLast?_cons_cons] at h
    exact h
  | case5 => exact h

/-- A text that ends in a slash still does so when the characters before its first slash are
dropped. -/
theorem getLast?_drop_takeWhile {cs : List Char} (h : cs.getLast? = some '/') :
    (cs.drop (cs.takeWhile (· != '/')).length).getLast? = some '/' := by
  induction cs with
  | nil => simp at h
  | cons c cs ih =>
    by_cases hc : c = '/'
    · subst hc
      simpa using h
    · cases cs with
      | nil => simp [hc] at h
      | cons d ds =>
        rw [List.getLast?_cons_cons] at h
        simpa [hc] using ih h

/-- What holds an absolute path is absolute. -/
theorem isAbsolute_of_parent? {path base : String} (hpath : isAbsolute path)
    (hbase : parent? path = some base) : isAbsolute base := by
  have hend : (trimReversed path.toList.reverse).getLast? = some '/' :=
    getLast?_trimReversed (by rw [List.getLast?_reverse, isAbsolute_iff.mp hpath])
  simp only [parent?] at hbase
  split at hbase
  · cases hbase
  · cases hbase
    rw [isAbsolute_iff, String.toList_ofList, List.head?_reverse]
    exact getLast?_trimReversed (getLast?_drop_takeWhile hend)

/-- What is left of a path, last character first, when what does not count has been stripped from its
end: no slash, unless it is the root, and no dot behind a slash. -/
def Trimmed (cs : List Char) : Prop :=
  (∀ rest, cs = '/' :: rest → rest = []) ∧ ∀ rest, cs ≠ '.' :: '/' :: rest

theorem trimmed_trimReversed (cs : List Char) : Trimmed (trimReversed cs) := by
  fun_induction trimReversed cs with
  | case1 => simp [Trimmed]
  | case2 rest _ ih => exact ih
  | case3 => simp [Trimmed]
  | case4 rest _ ih => exact ih
  | case5 cs hroot hslash hdotRoot hdot =>
    constructor
    · rintro rest rfl
      exact absurd rfl (hslash rest)
    · rintro rest rfl
      exact absurd rfl (hdot rest)

/-- **What holds a path and has no components** is the root, the directory without a name or the single
dot. -/
theorem eq_of_parent?_of_components_eq_nil {path base : String} (hbase : parent? path = some base)
    (hrel : isAbsolute base = false) (hnone : components base = []) : base = "" ∨ base = "." := by
  obtain ⟨cs, htrim, rfl⟩ : ∃ cs, Trimmed cs ∧ base = String.ofList cs.reverse := by
    simp only [parent?] at hbase
    split at hbase
    · cases hbase
    · exact ⟨_, trimmed_trimReversed _, (Option.some.inj hbase).symm⟩
  rw [components_eq_nil_iff, String.toList_ofList] at hnone
  by_cases hslash : '/' ∈ cs
  · -- the piece behind the last slash has been stripped if it does not count
    obtain ⟨name, rest, rfl, hname⟩ := List.eq_append_cons_of_mem hslash
    have hpieces : pieces name.reverse = [name.reverse] := pieces_of_notMem (by simpa using hname)
    have hlast : name.reverse ∈ pieces (name ++ '/' :: rest).reverse := by
      rw [List.reverse_append, List.reverse_cons, List.append_assoc, List.singleton_append,
        pieces_append_slash, hpieces]
      simp
    rcases hnone _ hlast with hempty | hdot
    · obtain rfl := List.reverse_eq_nil_iff.mp hempty
      obtain rfl := htrim.1 rest rfl
      simp [isAbsolute] at hrel
    · have hname : name = ['.'] := by simpa [dot] using congrArg List.reverse hdot
      subst hname
      exact absurd rfl (htrim.2 rest)
  · have hpieces : pieces cs.reverse = [cs.reverse] := pieces_of_notMem (by simpa using hslash)
    rcases hnone cs.reverse (by simp [hpieces]) with h | h
    · exact .inl (congrArg String.ofList h)
    · exact .inr (congrArg String.ofList h)

end TreeSchema.Files.Path
