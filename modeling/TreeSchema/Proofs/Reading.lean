/-
# TreeSchema.Proofs.Reading — what a reader makes of a value that stands for a document.

A value stands for a document if the source answers every question about it as the document would.
Readers ask a source and nothing else, so what they make of such a value depends on the document
alone, whatever the format.
-/
import Mathlib.Data.List.Basic
import TreeSchema.Document
import TreeSchema.Reading

namespace TreeSchema.Reading

/-- A monad in which nothing is caught where nothing is thrown. -/
class CatchesThrown (m : Type → Type) [Monad m] [MonadExceptOf Fault m] : Prop where
  tryCatch_pure : ∀ {α : Type} (a : α) (handler : Fault → m α),
    tryCatch (pure a) handler = pure a

instance : CatchesThrown (Except Fault) := ⟨fun _ _ => rfl⟩

variable {m : Type → Type} [Monad m] [MonadExceptOf Fault m] {T α β σ : Type}

mutual

/-- Whether a value stands for a document. -/
def Source.Stands (src : Source m T) : Document → T → Prop
  | .null, t => src.optional t = pure none
  | .flag b, t => ∀ wanted, src.flag wanted t = pure b
  | .text s, t =>
    (∀ wanted, src.text wanted t = pure s) ∧ src.optional t = pure (some t) ∧
      ∀ known, s ∈ known → src.variant known t = pure s
  | .list items, t =>
    ∃ ts, (∀ wanted, src.items wanted t = pure ⟨ts, true⟩) ∧ src.StandFor items ts
  | .record entries, t =>
    ∃ es, (∀ wanted, src.record wanted t = pure (.named es true)) ∧
      src.StandAsEntries entries es

/-- Whether values stand for documents, each for its own. -/
def Source.StandFor (src : Source m T) : List Document → List T → Prop
  | [], ts => ts = []
  | d :: ds, ts => ∃ t rest, ts = t :: rest ∧ src.Stands d t ∧ src.StandFor ds rest

/-- Whether named values stand for the entries of a record. -/
def Source.StandAsEntries (src : Source m T) :
    List (String × Document) → List (m Label × T) → Prop
  | [], es => es = []
  | (name, d) :: ds, es =>
    ∃ place t rest, es = (pure ⟨name, place⟩, t) :: rest ∧ src.Stands d t ∧
      src.StandAsEntries ds rest

end

/-- What is read without a complaint is read the same at any place. -/
theorem inside_pure [CatchesThrown m] (place : Place) (a : α) :
    inside place (pure a : m α) = pure a :=
  CatchesThrown.tryCatch_pure a _

section

variable {src : Source m T}

/-! ## Records -/

/-- At the end of the entries the draft is what was read. -/
theorem readNamed_nil {parts : List (Part m T σ)} {es : List (m Label × T)} {draft : σ}
    (h : src.StandAsEntries [] es) : readNamed src parts es draft = pure draft := by
  rw [Source.StandAsEntries] at h
  rw [h, readNamed]

variable [LawfulMonad m]

/-- A value that stands for a record is read as what is made of the draft that its entries fill. -/
theorem readRecord_of_stands {name : String} {entries : List (String × Document)}
    {parts : List (Part m T σ)} {empty draft : σ} {finish : σ → Except String α} {a : α} {t : T}
    (h : src.Stands (.record entries) t)
    (hnamed : ∀ es, src.StandAsEntries entries es → readNamed src parts es empty = pure draft)
    (hfinish : finish draft = .ok a) : readRecord src name parts empty finish t = pure a := by
  rw [Source.Stands] at h
  obtain ⟨es, hrecord, hes⟩ := h
  rw [readRecord, hrecord, pure_bind]
  simp only [hnamed es hes, pure_bind, if_true, hfinish]

variable [CatchesThrown m]

/-- The entry of a field that has not been read yet is read into the draft. -/
theorem readNamed_entry {parts : List (Part m T σ)} {p : Part m T σ} {name : String} {d : Document}
    {entries : List (String × Document)} {es : List (m Label × T)} {draft filled : σ} (draft' : σ)
    (h : src.StandAsEntries ((name, d) :: entries) es)
    (hfind : parts.find? (fun p => p.name = name) = some p) (hfree : p.isTaken draft = false)
    (hread : ∀ t, src.Stands d t → p.read t draft = pure draft')
    (next : ∀ es, src.StandAsEntries entries es → readNamed src parts es draft' = pure filled) :
    readNamed src parts es draft = pure filled := by
  rw [Source.StandAsEntries] at h
  obtain ⟨place, t, rest, rfl, ht, hrest⟩ := h
  rw [readNamed, pure_bind]
  simp only [hfind, hfree, hread t ht, inside_pure, pure_bind]
  simpa using next rest hrest

/-- The same for a text that is left out when there is none.  `fill` says what the draft is with and
without the text. -/
theorem readNamed_optional {parts : List (Part m T σ)} {p : Part m T σ} {name : String}
    {content : Option String} {entries : List (String × Document)} {es : List (m Label × T)}
    {filled : σ} (fill : Option String → σ)
    (h : src.StandAsEntries (Document.optional name content ++ entries) es)
    (hfind : parts.find? (fun p => p.name = name) = some p)
    (hfree : p.isTaken (fill none) = false)
    (hread : ∀ s t, src.Stands (.text s) t → p.read t (fill none) = pure (fill (some s)))
    (next : ∀ es, src.StandAsEntries entries es →
      readNamed src parts es (fill content) = pure filled) :
    readNamed src parts es (fill none) = pure filled := by
  cases content with
  | none => exact next es h
  | some s =>
    -- The draft before the entry is the one that a text left out would have led to.
    exact readNamed_entry (fill (some s)) h hfind hfree (hread s) next

/-! ## Lists -/

/-- Items that stand for documents are read one by one. -/
theorem readItems_of_standFor {read : T → m β} {write : α → Document} {made : α → β} {xs : List α}
    (hread : ∀ x ∈ xs, ∀ t, src.Stands (write x) t → read t = pure (made x)) {i : Nat} {ts : List T}
    (h : src.StandFor (xs.map write) ts) : readItems read i ts = pure (xs.map made) := by
  induction xs generalizing i ts with
  | nil =>
    obtain rfl : ts = [] := by simpa [Source.StandFor] using h
    rfl
  | cons x xs ih =>
    obtain ⟨t, rest, rfl, ht, hrest⟩ := by simpa only [List.map_cons, Source.StandFor] using h
    have hx : read t = pure (made x) := hread x List.mem_cons_self t ht
    have hxs := ih (fun y hy => hread y (List.mem_cons_of_mem x hy)) (i := i + 1) hrest
    rw [readItems, hx, inside_pure, pure_bind, hxs, pure_bind, List.map_cons]

/-- A value that stands for a list is read as the list of what its items are read as. -/
theorem list_of_stands {read : T → m β} {write : α → Document} {made : α → β} {xs : List α}
    (hread : ∀ x ∈ xs, ∀ t, src.Stands (write x) t → read t = pure (made x)) {t : T}
    (h : src.Stands (.list (xs.map write)) t) : src.list read t = pure (xs.map made) := by
  obtain ⟨ts, hitems, hall⟩ := by simpa only [Source.Stands] using h
  rw [Source.list, hitems, pure_bind, readItems_of_standFor hread hall, pure_bind, if_pos rfl]

end

end TreeSchema.Reading
