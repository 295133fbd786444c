/-
# TreeSchema.Proofs.Declarations.Reload — declarations saved and read again.

A type is saved as its bare name.  So a set of declarations comes back from either format with every
type as its name has it: a reference to a kind that has the name of a built-in type comes back as that
type, and nothing else changes.  Sets that were themselves read hold no such reference, because reading
makes none, and neither do sets that become registries, because no kind may have a built-in name.  For
YAML it is assumed of the set at hand that its mappings, sequences and strings are read back.
-/
import TreeSchema.Declarations.Files
import TreeSchema.Declarations.Fingerprint
import TreeSchema.Proofs.Files.Snapshot
import TreeSchema.Proofs.Json.ReadBack
import TreeSchema.Proofs.NodeSchema.Reading
import TreeSchema.Proofs.Reading.Outcome
import TreeSchema.Proofs.Text.Encoded
import TreeSchema.Proofs.Yaml.ReadBack

namespace TreeSchema

open Reading

/-! ## Documents keep the names -/

theorem FieldSpec.toDocument_reread (f : FieldSpec) : f.reread.toDocument = f.toDocument := by
  simp [toDocument, reread, Function.comp_def]

theorem NodeSchema.toDocument_reread (s : NodeSchema) : s.reread.toDocument = s.toDocument := by
  simp [toDocument, reread, Function.comp_def, FieldSpec.toDocument_reread]

namespace Declarations

/-- A set with every type as its name has it. -/
def reread (d : Declarations) : Declarations := { d with nodes := d.nodes.map NodeSchema.reread }

theorem toDocument_reread (d : Declarations) : d.reread.toDocument = d.toDocument := by
  simp [toDocument, reread, Function.comp_def, NodeSchema.toDocument_reread]

/-- The set is what its names say exactly when it refers to no kind with a built-in name. -/
theorem reread_eq_self_iff {d : Declarations} :
    d.reread = d ↔ ∀ s ∈ d.nodes, ∀ f ∈ s.fields, ∀ k, FieldType.node k ∈ f.types →
      FieldType.isBuiltinName k = false := by
  have hparts : d.reread = d ↔ d.nodes.map NodeSchema.reread = d.nodes := by
    cases d
    simp [reread]
  rw [hparts, List.map_eq_self_iff]
  simp only [NodeSchema.reread_eq_self_iff, FieldSpec.reread_eq_self_iff]

/-! ## What stands for a set is read as the set -/

section

variable {m : Type → Type} [Monad m] [LawfulMonad m] [MonadExceptOf Fault m] [CatchesThrown m]
  {T : Type} {src : Source m T} {t : T}

/-- **A set of declarations comes back** from what stands for its document. -/
theorem read_of_stands {d : Declarations} (h : src.Stands d.toDocument t) :
    Declarations.read src t = pure d.reread := by
  have hfinish : Draft.finish ⟨some d.version, d.name.map some, some d.reread.nodes⟩ =
      .ok d.reread := by
    cases hn : d.name <;> simp [Draft.finish, reread, hn]
  refine readRecord_of_stands h (fun es hes => ?_) hfinish
  rw [List.append_assoc, List.singleton_append] at hes
  refine readNamed_entry ⟨some d.version, none, none⟩ hes rfl rfl (fun t ht => ?_) fun es hes => ?_
  · simp only [readText_of_stands ht, pure_bind]
  refine readNamed_optional (fun name => Draft.mk (some d.version) (name.map some) none) hes
    rfl rfl (fun text t ht => ?_) fun es hes => ?_
  · simp only [option_readText_of_stands ht, pure_bind, Option.map_some]
  refine readNamed_entry ⟨some d.version, d.name.map some, some d.reread.nodes⟩ hes rfl rfl
    (fun t ht => ?_) fun es hes => ?_
  · simp only [list_of_stands (fun s _ t ht => NodeSchema.read_of_stands ht) ht, pure_bind, reread]
  exact readNamed_nil hes

end

end Declarations

/-! ## What is read is what its names say

The draft of a record keeps that its types, its fields or its schemas are what their names say. -/

section

variable {m : Type → Type} [Monad m] [MonadExceptOf Fault m] [OutcomeLogic m] {T : Type}

theorem FieldType.yields_read (src : Source m T) (t : T) :
    Yields (FieldType.read src t) fun ty => ty.reread = ty := by
  rw [FieldType.read]
  refine yields_bind (yields_trivial _) fun name _ => yields_pure ?_
  rw [reread, name_ofName]

theorem FieldSpec.yields_read (src : Source m T) (t : T) :
    Yields (FieldSpec.read src t) fun f => f.reread = f := by
  have hparts : ∀ p ∈ FieldSpec.parts src, ∀ t (draft : Draft),
      (∀ types, draft.types = some types → ∀ ty ∈ types, ty.reread = ty) →
        Yields (p.read t draft) fun draft' =>
          ∀ types, draft'.types = some types → ∀ ty ∈ types, ty.reread = ty := by
    intro p hp t draft hdraft
    -- of name, types, multiplicity and description, only the types have to be looked at
    simp only [FieldSpec.parts, List.mem_cons, List.not_mem_nil, or_false] at hp
    rcases hp with rfl | rfl | rfl | rfl
    · exact yields_bind (yields_trivial _) fun _ _ => yields_pure hdraft
    · refine yields_bind (yields_list (FieldType.yields_read src) src t) fun types htypes => ?_
      exact yields_pure fun _ hsame => Option.some.inj hsame ▸ htypes
    · exact yields_bind (yields_trivial _) fun _ _ => yields_pure hdraft
    · exact yields_bind (yields_trivial _) fun _ _ => yields_pure hdraft
  refine yields_readRecord (by simp) hparts ?_ src _ t
  intro draft f hdraft hfinish
  unfold Draft.finish at hfinish
  split at hfinish
  · next name types multiplicity _ htypes _ =>
      obtain rfl := Except.ok.inj hfinish
      have hsame := List.map_eq_self_iff.2 (hdraft types htypes)
      rw [reread, hsame]
  all_goals cases hfinish

theorem NodeSchema.yields_read (src : Source m T) (t : T) :
    Yields (NodeSchema.read src t) fun s => s.reread = s := by
  have hparts : ∀ p ∈ NodeSchema.parts src, ∀ t (draft : Draft),
      (∀ fields, draft.fields = some fields → ∀ f ∈ fields, f.reread = f) →
        Yields (p.read t draft) fun draft' =>
          ∀ fields, draft'.fields = some fields → ∀ f ∈ fields, f.reread = f := by
    intro p hp t draft hdraft
    simp only [NodeSchema.parts, List.mem_cons, List.not_mem_nil, or_false] at hp
    rcases hp with rfl | rfl | rfl | rfl
    · exact yields_bind (yields_trivial _) fun _ _ => yields_pure hdraft
    · exact yields_bind (yields_trivial _) fun _ _ => yields_pure hdraft
    · exact yields_bind (yields_trivial _) fun _ _ => yields_pure hdraft
    · refine yields_bind (yields_list (FieldSpec.yields_read src) src t) fun fields hfields => ?_
      exact yields_pure fun _ hsame => Option.some.inj hsame ▸ hfields
  refine yields_readRecord (by simp) hparts ?_ src _ t
  intro draft s hdraft hfinish
  unfold Draft.finish at hfinish
  split at hfinish
  · -- fields that were left out are an empty list, of which nothing has to be shown
    obtain rfl := Except.ok.inj hfinish
    refine reread_eq_self_iff.2 fun f hf => ?_
    cases hfields : draft.fields with
    | none => simp [hfields] at hf
    | some fields => exact hdraft fields hfields f (by simpa [hfields] using hf)
  · cases hfinish

theorem Declarations.yields_read (src : Source m T) (t : T) :
    Yields (Declarations.read src t) fun d => d.reread = d := by
  have hparts : ∀ p ∈ Declarations.parts src, ∀ t (draft : Draft),
      (∀ nodes, draft.nodes = some nodes → ∀ s ∈ nodes, s.reread = s) →
        Yields (p.read t draft) fun draft' =>
          ∀ nodes, draft'.nodes = some nodes → ∀ s ∈ nodes, s.reread = s := by
    intro p hp t draft hdraft
    simp only [Declarations.parts, List.mem_cons, List.not_mem_nil, or_false] at hp
    rcases hp with rfl | rfl | rfl
    · exact yields_bind (yields_trivial _) fun _ _ => yields_pure hdraft
    · exact yields_bind (yields_trivial _) fun _ _ => yields_pure hdraft
    · refine yields_bind (yields_list (NodeSchema.yields_read src) src t) fun nodes hnodes => ?_
      exact yields_pure fun _ hsame => Option.some.inj hsame ▸ hnodes
  refine yields_readRecord (by simp) hparts ?_ src _ t
  intro draft d hdraft hfinish
  unfold Draft.finish at hfinish
  split at hfinish
  · obtain rfl := Except.ok.inj hfinish
    have hnodes : ∀ s ∈ draft.nodes.getD [], s.reread = s := by
      cases hn : draft.nodes with
      | none => simp
      | some nodes => exact hdraft nodes hn
    rw [reread, List.map_eq_self_iff.2 hnodes]
  · cases hfinish

end

/-! ## Texts and files -/

/-- Text that is stored in a file is read as the text itself. -/
theorem Format.readBytes_toUTF8 {α : Type} (format : Format) (read : Readable α) (text : String) :
    format.readBytes read text.toUTF8 = format.readText read text := by
  cases format with
  | yaml => simp only [readBytes, readText, Text.decode?_toUTF8]
  | json => simp only [readBytes, readText, Text.glyphsOfBytes_toUTF8]

namespace Declarations

open Files

variable {d : Declarations} {format : Format}

theorem ofText_eq_ok_iff {text : String} :
    ofText format text = .ok d ↔
      format.readText (fun src t => Declarations.read src t) text = .ok d := by
  unfold ofText
  cases format.readText (fun src t => Declarations.read src t) text <;> simp

/-- Compact JSON, the form that is hashed, comes back. -/
theorem ofText_compact (d : Declarations) : ofText .json (Json.compact d.toDocument) = .ok d.reread :=
  ofText_eq_ok_iff.2 (Json.readAll_compact fun _ => read_of_stands)

/-- What a format writes of a set comes back: JSON always does. -/
theorem ofText_write (format : Format) (back : format = .yaml → Yaml.ReadsBack d.toDocument) :
    ofText format (format.write d.toDocument) = .ok d.reread := by
  refine ofText_eq_ok_iff.2 ?_
  cases format with
  | yaml => exact Yaml.readAll_of_readsBack (back rfl) fun _ _ => read_of_stands
  | json =>
      have hgap : ∀ g ∈ Text.glyphs "", Json.isSpace g = true := by decide
      have hread := Json.readAll_pretty hgap fun _ => read_of_stands (d := d)
      rwa [String.append_empty] at hread

section

variable {s s' : Snapshot} {path : String}

/-- A file that was saved comes back. -/
theorem perform_ofFile_of_save
    (back : Format.ofPath? path = some .yaml → Yaml.ReadsBack d.toDocument)
    (saved : s.perform (save Snapshot.access d path) = (.ok (), s')) :
    s'.perform (ofFile Snapshot.access path) = (.ok d.reread, s') := by
  unfold save at saved
  unfold ofFile
  cases hpath : Format.ofPath? path with
  | none =>
      rw [hpath] at saved
      cases saved
  | some format =>
      rw [hpath] at saved
      have hfetch := Snapshot.fetch_of_store (Snapshot.store_of_perform_writeContent saved)
      have htext := ofText_eq_ok_iff.1 (ofText_write (d := d) format fun h => back (h ▸ hpath))
      exact Snapshot.perform_readContent_eq_ok_iff.2
        ⟨rfl, _, hfetch, (Format.readBytes_toUTF8 _ _ _).trans htext⟩

/-! ## Sets that come back as they are -/

theorem reread_eq_self_of_ofText {text : String} (h : ofText format text = .ok d) :
    d.reread = d :=
  of_readText (P := fun d => d.reread = d) yields_read (ofText_eq_ok_iff.1 h)

theorem reread_eq_self_of_ofFile (h : s.perform (ofFile Snapshot.access path) = (.ok d, s')) :
    d.reread = d := by
  unfold ofFile at h
  split at h
  · obtain ⟨-, content, -, hread⟩ := Snapshot.perform_readContent_eq_ok_iff.1 h
    exact of_readBytes (P := fun d => d.reread = d) yields_read hread
  · cases h

theorem reread_eq_self_of_toRegistry {r : Registry} (h : d.toRegistry = .ok r) : d.reread = d := by
  have hacceptable := (exists_toRegistry_iff d).1 ⟨r, h⟩
  rw [reread, List.map_eq_self_iff.2 hacceptable.reread_eq_self]

theorem fingerprint_reread (d : Declarations) : d.reread.fingerprint = d.fingerprint := by
  rw [fingerprint, toDocument_reread, fingerprint]

end

/-! ## Saved and read again -/

/-- One set is what another is read as: from either form of its JSON text, from its YAML text if that
keeps its strings, sequences and mappings, and from a file that it was saved in. -/
structure ComesBackAs (d back : Declarations) : Prop where
  compact : ofText .json (Json.compact d.toDocument) = .ok back
  pretty : ofText .json (Json.pretty d.toDocument) = .ok back
  yaml : Yaml.ReadsBack d.toDocument → ofText .yaml (Yaml.written d.toDocument) = .ok back
  file : ∀ {s s' : Snapshot} {path : String},
    (Format.ofPath? path = some .yaml → Yaml.ReadsBack d.toDocument) →
      s.perform (save Snapshot.access d path) = (.ok (), s') →
        s'.perform (ofFile Snapshot.access path) = (.ok back, s')

theorem comesBackAs_reread (d : Declarations) : d.ComesBackAs d.reread where
  compact := ofText_compact d
  pretty := ofText_write .json nofun
  yaml back := ofText_write .yaml fun _ => back
  file := perform_ofFile_of_save

/-- **Declarations saved and read again.**  A set comes back with every reference to a kind that has the
name of a built-in type replaced by that type, and so as itself exactly if there is no such reference.
The fingerprint is kept in any case.  There is none in a set that was read, from any text or file, and
none in a set that becomes a registry. -/
theorem reload (d : Declarations) :
    d.ComesBackAs d.reread ∧
      ((∀ b ∈ FieldType.builtins, (FieldType.node b.name).reread = b) ∧
        ∀ t : FieldType, (∀ k, t = .node k → FieldType.isBuiltinName k = false) → t.reread = t) ∧
      (d.reread = d ↔ ∀ s ∈ d.nodes, ∀ f ∈ s.fields, ∀ k, FieldType.node k ∈ f.types →
        FieldType.isBuiltinName k = false) ∧
      d.reread.fingerprint = d.fingerprint ∧
      ((∃ format text, ofText format text = .ok d) ∨
          (∃ (s s' : Snapshot) (path : String),
            s.perform (ofFile Snapshot.access path) = (.ok d, s')) ∨
          (∃ r, d.toRegistry = .ok r) →
        d.ComesBackAs d ∧ d.reread = d) := by
  refine ⟨d.comesBackAs_reread, ⟨fun b => FieldType.reread_node_name, fun t ht => ?_⟩,
    reread_eq_self_iff, d.fingerprint_reread, fun h => ?_⟩
  · exact (FieldType.ofName_name_eq_iff t).2 ht
  · have hself : d.reread = d := by
      rcases h with ⟨format, text, h⟩ | ⟨s, s', path, h⟩ | ⟨r, h⟩
      · exact reread_eq_self_of_ofText h
      · exact reread_eq_self_of_ofFile h
      · exact reread_eq_self_of_toRegistry h
    have hback := d.comesBackAs_reread
    rw [hself] at hback
    exact ⟨hback, hself⟩

/-- A set with texts that either format has to quote, in which one type refers to a kind with the name
of a built-in type. -/
def shadowed (ty : FieldType) : Declarations :=
  ⟨"1.0", some "a: \"b\" # c",
    [⟨"A", none, some "- \\ é\n", [⟨"x", [ty, .node "A"], .optional, some "null"⟩]⟩]⟩

/-- Saved as YAML and loaded, the set has the built-in type; saved and loaded again, it stays as it is. -/
theorem reload_shadowed :
    Yaml.ReadsBack (shadowed (.node "text")).toDocument ∧
      (∃ s, Snapshot.empty.perform (save Snapshot.access (shadowed (.node "text")) "d.yml") =
          (.ok (), s) ∧
        s.perform (ofFile Snapshot.access "d.yml") = (.ok (shadowed .text), s)) ∧
      (shadowed .text).ComesBackAs (shadowed .text) := by
  have back : Yaml.ReadsBack (shadowed (.node "text")).toDocument := by decide +kernel
  have hreread : (shadowed (.node "text")).reread = shadowed .text := by decide +kernel
  have saved : (Snapshot.empty.perform
      (save Snapshot.access (shadowed (.node "text")) "d.yml")).1 = .ok () := by decide +kernel
  obtain ⟨hback, -⟩ := reload (shadowed (.node "text"))
  rw [hreread] at hback
  have hfile := hback.file (fun _ => back) (Prod.ext saved rfl)
  obtain ⟨-, -, -, -, hself⟩ := reload (shadowed .text)
  exact ⟨back, ⟨_, Prod.ext saved rfl, hfile⟩, (hself (.inr (.inl ⟨_, _, _, hfile⟩))).1⟩

end Declarations

end TreeSchema
