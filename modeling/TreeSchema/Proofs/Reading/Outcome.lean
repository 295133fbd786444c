/-
# TreeSchema.Proofs.Reading.Outcome — what can come of a reading, whatever the text.

A reader is written for any format, so nothing is known of the computation it runs in but how it goes on
and how it fails.  `OutcomeLogic` says what that is enough for: if every result of a step has a property,
then so has every result of a reading made of such steps.  Nothing is claimed of readings that fail.  The
lists and records of a reader are followed here once; a reader for a record needs a property of the draft
that each part keeps.
-/
import TreeSchema.Format

namespace TreeSchema.Reading

/-- A way to tell of a computation that all its results have a property. -/
class OutcomeLogic (m : Type → Type) [Monad m] [MonadExceptOf Fault m] where
  Yields : {α : Type} → m α → (α → Prop) → Prop
  yields_pure {α : Type} {P : α → Prop} {a : α} : P a → Yields (pure a) P
  yields_bind {α β : Type} {Q : α → Prop} {P : β → Prop} {x : m α} {f : α → m β} :
    Yields x Q → (∀ a, Q a → Yields (f a) P) → Yields (x >>= f) P
  yields_throw {α : Type} {P : α → Prop} (e : Fault) : Yields (throw e : m α) P
  yields_tryCatch {α : Type} {P : α → Prop} {x : m α} {handler : Fault → m α} :
    Yields x P → (∀ e, Yields (handler e) P) → Yields (tryCatch x handler) P
  yields_trivial {α : Type} (x : m α) : Yields x fun _ => True

export OutcomeLogic (Yields yields_pure yields_bind yields_throw yields_tryCatch yields_trivial)

instance : OutcomeLogic (Except Fault) where
  Yields x P := ∀ a, x = .ok a → P a
  yields_pure h := by
    rintro _ ⟨⟩
    exact h
  yields_bind {_ _ _ _ x _} hx hf := by
    intro b hb
    cases x with
    | error e => cases hb
    | ok a => exact hf a (hx a rfl) b hb
  yields_throw e := by
    intro a ha
    cases ha
  yields_tryCatch {_ _ x _} hx hhandler := by
    intro a ha
    cases x with
    | error e => exact hhandler e a ha
    | ok b => exact hx a ha
  yields_trivial x := fun _ _ => trivial

/-- The count of aliases followed has no part in what is claimed. -/
instance : OutcomeLogic Yaml.Reader where
  Yields x P := ∀ n a n', x.run n = .ok (a, n') → P a
  yields_pure h := by
    rintro n _ _ ⟨⟩
    exact h
  yields_bind {_ _ _ _ x f} hx hf := by
    intro n b n' hb
    rw [StateT.run_bind] at hb
    cases hxn : x.run n with
    | error e =>
        rw [hxn] at hb
        cases hb
    | ok r =>
        rw [hxn] at hb
        exact hf r.1 (hx n r.1 r.2 hxn) r.2 b n' hb
  yields_throw e := by
    intro n a n' ha
    cases ha
  yields_tryCatch {_ _ x handler} hx hhandler := by
    intro n a n' ha
    have hrun : (tryCatch x handler).run n = tryCatch (x.run n) fun e => (handler e).run n := rfl
    rw [hrun] at ha
    cases hxn : x.run n with
    | error e =>
        rw [hxn] at ha
        exact hhandler e n a n' ha
    | ok r =>
        rw [hxn] at ha
        exact hx n a n' (hxn.trans ha)
  yields_trivial x := fun _ _ _ _ => trivial

variable {m : Type → Type} [Monad m] [MonadExceptOf Fault m] [OutcomeLogic m] {T α β σ : Type}

theorem yields_inside {P : α → Prop} {read : m α} (h : Yields read P) (place : Place) :
    Yields (inside place read) P :=
  yields_tryCatch h fun _ => yields_throw _

theorem yields_complain {P : α → Prop} (cause : Cause) : Yields (complain cause : m α) P :=
  yields_throw _

theorem yields_malformed {P : α → Prop} : Yields (malformed : m α) P :=
  yields_throw _

/-! ## Lists -/

theorem yields_readItems {P : α → Prop} {read : T → m α} (h : ∀ t, Yields (read t) P) (i : Nat)
    (ts : List T) : Yields (readItems read i ts) fun as => ∀ a ∈ as, P a := by
  induction ts generalizing i with
  | nil =>
      rw [readItems]
      exact yields_pure (by simp)
  | cons t ts ih =>
      rw [readItems]
      refine yields_bind (yields_inside (h t) _) fun a ha => ?_
      refine yields_bind (ih (i + 1)) fun rest hrest => ?_
      exact yields_pure (List.forall_mem_cons.2 ⟨ha, hrest⟩)

/-- Every element of a list that is read is one that can be read. -/
theorem yields_list {P : α → Prop} {read : T → m α} (h : ∀ t, Yields (read t) P)
    (src : Source m T) (t : T) : Yields (src.list read t) fun as => ∀ a ∈ as, P a := by
  rw [Source.list]
  refine yields_bind (yields_trivial _) fun items _ => ?_
  refine yields_bind (yields_readItems h 0 items.items) fun as has => ?_
  split
  · exact yields_pure has
  · exact yields_malformed

/-! ## Records

The property of the draft is `I`; the parts that are read keep it, in whatever order they come. -/

section

variable {I : σ → Prop} {parts : List (Part m T σ)}

theorem yields_readNamed (src : Source m T)
    (hparts : ∀ p ∈ parts, ∀ t draft, I draft → Yields (p.read t draft) I)
    (entries : List (m Label × T)) {draft : σ} (hdraft : I draft) :
    Yields (readNamed src parts entries draft) I := by
  induction entries generalizing draft with
  | nil =>
      rw [readNamed]
      exact yields_pure hdraft
  | cons e rest ih =>
      rw [readNamed]
      refine yields_bind (yields_trivial _) fun label _ => ?_
      split
      · exact yields_bind (yields_trivial _) fun _ _ => ih hdraft
      · next p hp =>
          split
          · exact yields_complain _
          · have hread := hparts p (List.mem_of_find?_eq_some hp) e.2 draft hdraft
            exact yields_bind (yields_inside hread _) fun draft' hdraft' => ih hdraft'

theorem yields_readPositional
    (hparts : ∀ p ∈ parts, ∀ t draft, I draft → Yields (p.read t draft) I) (i : Nat)
    (ts : List T) {draft : σ} (hdraft : I draft) :
    Yields (readPositional parts i ts draft) fun r => I r.1 := by
  induction parts generalizing i ts draft with
  | nil =>
      rw [readPositional]
      · exact yields_pure hdraft
      · simp
  | cons p ps ih =>
      cases ts with
      | nil =>
          rw [readPositional]
          · exact yields_pure hdraft
          · simp
      | cons t ts =>
          rw [readPositional]
          have hread := hparts p List.mem_cons_self t draft hdraft
          refine yields_bind (yields_inside hread _) fun draft' hdraft' => ?_
          exact ih (fun q hq => hparts q (List.mem_cons_of_mem _ hq)) (i + 1) ts hdraft'

/-- **What is made of a draft has a property that the parts keep**, whether the record names its fields
or gives them in order. -/
theorem yields_readRecord {P : α → Prop} {finish : σ → Except String α} {empty : σ}
    (hempty : I empty) (hparts : ∀ p ∈ parts, ∀ t draft, I draft → Yields (p.read t draft) I)
    (hfinish : ∀ draft a, I draft → finish draft = .ok a → P a) (src : Source m T) (name : String)
    (t : T) : Yields (readRecord src name parts empty finish t) P := by
  rw [readRecord]
  refine yields_bind (yields_trivial _) fun layout _ => ?_
  cases layout with
  | named entries whole =>
      refine yields_bind (yields_readNamed src hparts entries hempty) fun draft hdraft => ?_
      split
      · split
        · next a ha => exact yields_pure (hfinish draft a hdraft ha)
        · exact yields_complain _
      · exact yields_malformed
  | positional items =>
      refine yields_bind (yields_readPositional hparts 0 items.items hempty) ?_
      rintro ⟨draft, rest⟩ hdraft
      dsimp only
      split
      · exact yields_malformed
      · split
        · next a ha =>
            split
            · exact yields_pure (hfinish draft a hdraft ha)
            · exact yields_malformed
        · exact yields_complain _

end

/-! ## Whole texts -/

section

variable {P : α → Prop} {a : α}

/-- A JSON text is read if its root is and nothing is wrong with the rest. -/
theorem json_readAll_eq_ok_iff {read : Json.Tree → Except Fault α} {input : List Text.Glyph} :
    Json.readAll read input = .ok a ↔
      read (Json.parse input).1 = .ok a ∧ (Json.parse input).2 = true := by
  unfold Json.readAll
  dsimp only
  cases read (Json.parse input).1 with
  | error e => simp
  | ok b => cases (Json.parse input).2 <;> simp

/-- So is a YAML text, however many aliases were followed. -/
theorem yaml_readAll_eq_ok_iff {read : Source Yaml.Reader Yaml.Tree → Yaml.Tree → Yaml.Reader α}
    {text : List Char} :
    Yaml.readAll read text = .ok a ↔
      let p := Yaml.parse (Yaml.tokens text)
      (∃ n, (read (Yaml.source p) p.root).run 0 = .ok (a, n)) ∧ p.complete = true := by
  unfold Yaml.readAll
  generalize Yaml.parse (Yaml.tokens text) = p
  dsimp only
  rcases (read (Yaml.source p) p.root).run 0 with e | ⟨b, n⟩
  · simp
  · cases p.complete <;> simp

theorem of_json_readAll {read : Json.Tree → Except Fault α} (h : ∀ t, Yields (read t) P)
    {input : List Text.Glyph} (hread : Json.readAll read input = .ok a) : P a := by
  obtain ⟨hroot, -⟩ := json_readAll_eq_ok_iff.1 hread
  exact h _ a hroot

theorem of_yaml_readAll {read : Source Yaml.Reader Yaml.Tree → Yaml.Tree → Yaml.Reader α}
    (h : ∀ src t, Yields (read src t) P) {text : List Char}
    (hread : Yaml.readAll read text = .ok a) : P a := by
  obtain ⟨⟨n, hroot⟩, -⟩ := yaml_readAll_eq_ok_iff.1 hread
  exact h _ _ 0 a n hroot

variable {read : Readable α}
  (h : ∀ {m : Type → Type} [Monad m] [MonadExceptOf Fault m] [OutcomeLogic m] {T : Type}
    (src : Source m T) (t : T), Yields (read src t) P)
include h

/-- What all results of a reader have in common has what it makes of a text. -/
theorem of_readText {format : Format} {text : String}
    (hread : format.readText read text = .ok a) : P a := by
  cases format with
  | yaml => exact of_yaml_readAll h hread
  | json => exact of_json_readAll (h _) hread

/-- What all results of a reader have in common has what it makes of bytes. -/
theorem of_readBytes {format : Format} {data : ByteArray}
    (hread : format.readBytes read data = .ok a) : P a := by
  cases format with
  | yaml =>
      unfold Format.readBytes at hread
      dsimp only at hread
      split at hread
      · exact of_yaml_readAll h hread
      · cases hread
  | json => exact of_json_readAll (h _) hread

end

end TreeSchema.Reading
