/-
# TreeSchema.Proofs.Yaml.ReadBack — documents read back from YAML.

A tree spells a document when it holds the same mappings, sequences and strings in the same order, with
no tag and no alias, and no string could be taken for the absence of a value.  Such a tree stands for the
document.  Whether the scanner makes such a tree of what was written is not settled here: `ReadsBack` says
so of one document, and can be evaluated.
-/
import TreeSchema.Proofs.Reading
import TreeSchema.Text.Unicode
import TreeSchema.Yaml.Reading
import TreeSchema.Yaml.Written

namespace TreeSchema.Yaml

open Reading

/-! ## Trees that spell documents -/

mutual

/-- Whether a tree holds the mappings, sequences and strings of a document.  A plain string must not look
like the absence of a value. -/
def Tree.spells : Document → Tree → Bool
  | .text s, .scalar none text style =>
    text == s && !(style == .plain && (text.isEmpty || isNullWord text))
  | .list ds, .list none ts whole => whole && Tree.spellItems ds ts
  | .record entries, .map none es whole => whole && Tree.spellEntries entries es
  | _, _ => false

def Tree.spellItems : List Document → List Tree → Bool
  | [], [] => true
  | d :: ds, t :: ts => Tree.spells d t && Tree.spellItems ds ts
  | _, _ => false

/-- Whether keys and values are those of a record, in order. -/
def Tree.spellEntries : List (String × Document) → List (Tree × Tree) → Bool
  | [], [] => true
  | (name, d) :: rest, (key, t) :: es =>
    Tree.spells (.text name) key && Tree.spells d t && Tree.spellEntries rest es
  | _, _ => false

end

/-- The mappings, sequences and strings of a document are read back from what was written of them, and
nothing else is read. -/
def ReadsBack (d : Document) : Prop :=
  let p := parse (tokens (Text.withoutMark (written d).toList))
  p.root.spells d = true ∧ p.complete = true

instance (d : Document) : Decidable (ReadsBack d) := by
  unfold ReadsBack
  infer_instance

/-! ## What spells a document stands for it -/

instance : CatchesThrown Reader := ⟨fun _ _ => rfl⟩

theorem Tree.spells_text_iff {s : String} {t : Tree} :
    t.spells (.text s) = true ↔
      ∃ style, t = .scalar none s style ∧ (style = .plain → (s.isEmpty || isNullWord s) = false) := by
  constructor
  · intro h
    unfold Tree.spells at h
    split at h
    · next _ _ style heq =>
        obtain rfl := Document.text.inj heq
        simp only [Bool.and_eq_true, beq_iff_eq, Bool.not_eq_true', Bool.and_eq_false_iff] at h
        obtain ⟨rfl, hstyle⟩ := h
        exact ⟨style, rfl, fun hplain => hstyle.resolve_left (by simp [hplain])⟩
    all_goals simp_all
  · rintro ⟨style, rfl, hstyle⟩
    by_cases hplain : style = .plain
    · simp [Tree.spells, hstyle hplain]
    · simp [Tree.spells, hplain]

theorem Tree.spells_list_iff {ds : List Document} {t : Tree} :
    t.spells (.list ds) = true ↔ ∃ ts, t = .list none ts true ∧ spellItems ds ts = true := by
  constructor
  · intro h
    unfold Tree.spells at h
    split at h <;> simp_all
  · rintro ⟨ts, rfl, h⟩
    simp [Tree.spells, h]

theorem Tree.spells_record_iff {entries : List (String × Document)} {t : Tree} :
    t.spells (.record entries) = true ↔
      ∃ es, t = .map none es true ∧ spellEntries entries es = true := by
  constructor
  · intro h
    unfold Tree.spells at h
    split at h <;> simp_all
  · rintro ⟨es, rfl, h⟩
    simp [Tree.spells, h]

mutual

/-- A tree that spells a document stands for it. -/
theorem stands_of_spells (p : Parsed) : (d : Document) → ∀ {t : Tree}, t.spells d = true →
    (source p).Stands d t
  | .null, t, h => by simp [Tree.spells] at h
  | .flag _, t, h => by simp [Tree.spells] at h
  | .text s, t, h => by
    obtain ⟨style, rfl, hstyle⟩ := Tree.spells_text_iff.1 h
    refine ⟨fun wanted => rfl, ?_, fun known hs => ?_⟩
    · cases style <;> simp_all [source, Parsed.follow, Tree.isNothing]
    · simp [source, Parsed.follow, Tree.variant, Tree.localTag?, hs]
  | .list ds, t, h => by
    obtain ⟨ts, rfl, hts⟩ := Tree.spells_list_iff.1 h
    exact ⟨ts, fun _ => rfl, standFor_of_spell p ds hts⟩
  | .record entries, t, h => by
    obtain ⟨es, rfl, hes⟩ := Tree.spells_record_iff.1 h
    exact ⟨_, fun _ => rfl, standAsEntries_of_spell p entries hes⟩

theorem standFor_of_spell (p : Parsed) : (ds : List Document) → ∀ {ts : List Tree},
    Tree.spellItems ds ts = true → (source p).StandFor ds ts
  | [], [], _ => rfl
  | d :: ds, t :: ts, h => by
    simp only [Tree.spellItems, Bool.and_eq_true] at h
    exact ⟨t, ts, rfl, stands_of_spells p d h.1, standFor_of_spell p ds h.2⟩

theorem standAsEntries_of_spell (p : Parsed) : (entries : List (String × Document)) →
    ∀ {es : List (Tree × Tree)}, Tree.spellEntries entries es = true →
      (source p).StandAsEntries entries (es.map fun e => (p.label e.1, e.2))
  | [], [], _ => rfl
  | (name, d) :: rest, (key, t) :: es, h => by
    simp only [Tree.spellEntries, Bool.and_eq_true] at h
    obtain ⟨⟨hkey, ht⟩, hes⟩ := h
    obtain ⟨style, rfl, -⟩ := Tree.spells_text_iff.1 hkey
    exact ⟨.entry name, t, _, rfl, stands_of_spells p d ht, standAsEntries_of_spell p rest hes⟩

end

/-- **What was written of a document and is read back** is read as what stands for the document. -/
theorem readAll_of_readsBack {α : Type} {d : Document} (h : ReadsBack d)
    {read : Source Reader Tree → Tree → Reader α} {a : α}
    (hread : ∀ p t, (source p).Stands d t → read (source p) t = pure a) :
    readAll read (Text.withoutMark (written d).toList) = .ok a := by
  obtain ⟨hspells, hcomplete⟩ := h
  rw [readAll]
  simp only [hread _ _ (stands_of_spells _ d hspells), hcomplete]
  rfl

end TreeSchema.Yaml
