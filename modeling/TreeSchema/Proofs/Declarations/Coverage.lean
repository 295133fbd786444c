/-
# TreeSchema.Proofs.Declarations.Coverage — what a fingerprint covers.

A set of declarations is what it declares and what it remarks: the kinds, parents and fields on the one
side, and on the other the format version, the name of the set and the descriptions.  A fingerprint is taken
of the whole written form, remarks included.  So two sets that declare the same have the same fingerprint
only if they remark the same, and a new version, name or description changes the fingerprint although it
changes nothing about the trees that can be built.
-/
import TreeSchema.Proofs.Declarations.Fingerprint
import TreeSchema.Proofs.Registry.Description

namespace TreeSchema

/-! ## Declared and remarked -/

/-- The descriptions in a schema: its own, and those of its fields. -/
def NodeSchema.remarks (s : NodeSchema) : Option String × List (Option String) :=
  (s.description, s.fields.map FieldSpec.description)

/-- What a set says besides what it declares. -/
structure Remarks where
  version : String
  name : Option String
  descriptions : List (Option String × List (Option String))
deriving DecidableEq

/-- The remarks of a set. -/
def Declarations.remarks (d : Declarations) : Remarks :=
  ⟨d.version, d.name, d.nodes.map NodeSchema.remarks⟩

theorem FieldSpec.bare_description_injective :
    Function.Injective fun f : FieldSpec => (f.bare, f.description) := by
  rintro ⟨name, types, multiplicity, description⟩ ⟨name', types', multiplicity', description'⟩ h
  simpa [bare, and_assoc] using h

theorem NodeSchema.bare_remarks_injective :
    Function.Injective fun s : NodeSchema => (s.bare, s.remarks) := by
  intro s s' h
  obtain ⟨hbare, hremarks⟩ := Prod.mk.inj h
  obtain ⟨hdescription, hdescriptions⟩ := Prod.mk.inj hremarks
  have hfields : s.fields = s'.fields :=
    List.eq_of_map_eq_map FieldSpec.bare_description_injective (map_bare_fields hbare) hdescriptions
  have hkind : s.kind = s'.kind := by simpa using congrArg kind hbare
  have hparent : s.parent = s'.parent := by simpa using congrArg parent hbare
  cases s
  cases s'
  simp_all

namespace Declarations

variable {d d' : Declarations}

/-- **A set is what it declares and what it remarks.** -/
theorem eq_iff_bare_remarks :
    d = d' ↔ d.nodes.map NodeSchema.bare = d'.nodes.map NodeSchema.bare ∧ d.remarks = d'.remarks := by
  constructor
  · rintro rfl
    exact ⟨rfl, rfl⟩
  · rintro ⟨hbare, hremarks⟩
    obtain ⟨hversion, hname, hdescriptions⟩ := Remarks.mk.inj hremarks
    have hnodes := List.eq_of_map_eq_map NodeSchema.bare_remarks_injective hbare hdescriptions
    cases d
    cases d'
    simp_all

/-! ## What is hashed -/

/-- Reading the types again leaves the remarks alone. -/
theorem remarks_reread (d : Declarations) : d.reread.remarks = d.remarks := by
  simp [remarks, reread, NodeSchema.remarks, NodeSchema.reread, FieldSpec.reread, Function.comp_def]

/-- And it does not ask for them. -/
theorem map_bare_reread (d : Declarations) :
    d.reread.nodes.map NodeSchema.bare = (d.nodes.map NodeSchema.bare).map NodeSchema.reread := by
  simp [reread, NodeSchema.bare, NodeSchema.reread, FieldSpec.bare, FieldSpec.reread, Function.comp_def]

/-- Of sets that declare the same, the same bytes are hashed exactly if they remark the same. -/
theorem hashed_eq_iff_remarks (h : d.nodes.map NodeSchema.bare = d'.nodes.map NodeSchema.bare) :
    d.hashed = d'.hashed ↔ d.remarks = d'.remarks := by
  -- the bytes tell the set with its types read again, and reading these again touches no remark
  rw [hashed_eq_iff, eq_iff_bare_remarks, remarks_reread, remarks_reread, map_bare_reread,
    map_bare_reread, h]
  simp

/-- **A fingerprint covers the remarks.**  Let two sets declare the same kinds with the same parents and
the same fields, in the same order.  If their versions, their names and all descriptions agree as well,
they have the same fingerprint.  If one of these differs, other bytes are hashed, and the fingerprints
differ unless the digest collides. -/
theorem fingerprint_covers_remarks
    (h : d.nodes.map NodeSchema.bare = d'.nodes.map NodeSchema.bare) :
    (d.remarks = d'.remarks → d.fingerprint = d'.fingerprint) ∧
      (d.hashed = d'.hashed ↔ d.remarks = d'.remarks) ∧
      (Digest.Separates d.hashed d'.hashed →
        (d.fingerprint = d'.fingerprint ↔ d.remarks = d'.remarks)) := by
  have hremarked : d.remarks = d'.remarks → d.fingerprint = d'.fingerprint := by
    intro hremarks
    rw [fingerprint_eq, fingerprint_eq, (hashed_eq_iff_remarks h).2 hremarks]
  refine ⟨hremarked, hashed_eq_iff_remarks h, fun hseparates => ⟨fun hsame => ?_, hremarked⟩⟩
  exact (hashed_eq_iff_remarks h).1 (hashed_eq_of_fingerprint hseparates hsame)

/-- One kind in another version has another fingerprint. -/
theorem fingerprint_covers_version :
    (lone "A").nodes.map NodeSchema.bare = { lone "A" with version := "2" }.nodes.map NodeSchema.bare ∧
      (lone "A").hashed ≠ { lone "A" with version := "2" }.hashed ∧
      (lone "A").fingerprint ≠ { lone "A" with version := "2" }.fingerprint := by
  have hbare : (lone "A").nodes.map NodeSchema.bare =
      { lone "A" with version := "2" }.nodes.map NodeSchema.bare := rfl
  have hremarks : (lone "A").remarks ≠ { lone "A" with version := "2" }.remarks := by decide
  have differ : Digest.digest (lone "A").hashed ≠
      Digest.digest { lone "A" with version := "2" }.hashed := by
    decide +kernel
  obtain ⟨-, hhashed, hfingerprint⟩ := fingerprint_covers_remarks hbare
  exact ⟨hbare, mt hhashed.1 hremarks, mt (hfingerprint fun h => absurd h differ).1 hremarks⟩

/-- A set of one kind with one field, and room for remarks. -/
def remarked (version : String) (name kind field : Option String) : Declarations :=
  ⟨version, name, [⟨"A", none, kind, [⟨"x", [.node "A"], .optional, field⟩]⟩]⟩

/-- Two sets can be loaded and declare the same, but have different fingerprints. -/
def ToldApart (d d' : Declarations) : Prop :=
  ofText .json (Json.compact d.toDocument) = .ok d ∧ ofText .json (Json.compact d'.toDocument) = .ok d' ∧
    d.nodes.map NodeSchema.bare = d'.nodes.map NodeSchema.bare ∧ d.fingerprint ≠ d'.fingerprint

/-- A set is told apart by another version, by a name, by a description of the kind and by one of the
field. -/
theorem fingerprint_differs_by_remark :
    ToldApart (remarked "1" none none none) (remarked "2" none none none) ∧
      ToldApart (remarked "1" none none none) (remarked "1" (some "n") none none) ∧
      ToldApart (remarked "1" none none none) (remarked "1" none (some "k") none) ∧
      ToldApart (remarked "1" none none none) (remarked "1" none none (some "f")) := by
  have hread : ∀ version name kind field, ofText .json
      (Json.compact (remarked version name kind field).toDocument) =
        .ok (remarked version name kind field) :=
    fun version name kind field => ofText_compact (remarked version name kind field)
  -- the digest of the set without remarks is worked out once
  have hplain : (remarked "1" none none none).fingerprint =
      "b9911ab9b3d60c25bc521c31dda4b36869b4d76d0d2825f4ac496bb82c3cfe1c" := by
    decide +kernel
  refine ⟨⟨hread _ _ _ _, hread _ _ _ _, rfl, ?_⟩, ⟨hread _ _ _ _, hread _ _ _ _, rfl, ?_⟩,
    ⟨hread _ _ _ _, hread _ _ _ _, rfl, ?_⟩, ⟨hread _ _ _ _, hread _ _ _ _, rfl, ?_⟩⟩
  all_goals
    rw [hplain]
    decide +kernel

end Declarations

end TreeSchema
