/-
# TreeSchema.Proofs.CommandLine.Show — shown schemas read back.

What is printed is the written form of the selected schemas without the white space at its end, and a
line feed.  JSON ends in a bracket and loses nothing.  YAML may end in a text without quotes, and then
white space at the end of that text is lost: it is the description of the last field of the last
schema, the only free text that can stand there.
-/
import TreeSchema.CommandLine.Run
import TreeSchema.Proofs.Files.Snapshot
import TreeSchema.Proofs.Json.ReadBack
import TreeSchema.Proofs.NodeSchema.Reading
import TreeSchema.Proofs.Yaml.Ending

namespace TreeSchema

open Files Reading

/-! ## Selected schemas -/

/-- The schemas that are asked for: all in their order, or the one of a kind. -/
def Registry.selection (r : Registry) : Option String → Except TreeError (List NodeSchema)
  | none => .ok r.schemas
  | some kind =>
    match r.schema kind with
    | .ok s => .ok [s]
    | .error why => .error why

/-- Schemas in a list. -/
def NodeSchema.readAll {m : Type → Type} [Monad m] [MonadExceptOf Fault m] {T : Type}
    (src : Source m T) (t : T) : m (List NodeSchema) :=
  src.list (NodeSchema.read src) t

/-- The document of schemas in a list. -/
def NodeSchema.allToDocument (schemas : List NodeSchema) : Document :=
  .list (schemas.map NodeSchema.toDocument)

variable {d : Declarations} {r : Registry} {kind : Option String} {schemas : List NodeSchema}

/-- Only declared schemas are selected. -/
theorem mem_nodes_of_selection (accepted : d.toRegistry = .ok r)
    (selected : r.selection kind = .ok schemas) : ∀ s ∈ schemas, s ∈ d.nodes := by
  obtain ⟨hgrown, hnodes⟩ := Declarations.schemas_of_toRegistry accepted
  intro s hs
  cases kind with
  | none =>
    cases selected
    rwa [← hnodes]
  | some k =>
    cases hget : r.get? k with
    | none => simp [Registry.selection, Registry.schema, hget] at selected
    | some t =>
      obtain rfl : [t] = schemas := by simpa [Registry.selection, Registry.schema, hget] using selected
      rw [List.mem_singleton.mp hs, ← hnodes]
      exact (hgrown.coherent.get?_eq_some_iff.mp hget).1

/-- Schemas that are selected are read back as they are. -/
theorem map_reread_of_selection (accepted : d.toRegistry = .ok r)
    (selected : r.selection kind = .ok schemas) : schemas.map NodeSchema.reread = schemas := by
  have hacceptable := (Declarations.exists_toRegistry_iff d).mp ⟨r, accepted⟩
  exact List.map_eq_self_iff.mpr fun s hs =>
    hacceptable.reread_eq_self s (mem_nodes_of_selection accepted selected s hs)

namespace CommandLine

/-! ## JSON -/

/-- A written list ends in a bracket. -/
theorem endsVisibly_pretty (items : List Document) :
    Text.endsVisibly (Json.pretty (.list items)).toList := by
  have hbracket : ∃ front, Json.pretty (.list items) = front ++ "]" := by
    rw [Json.pretty, Json.prettyAt, Json.bracketed]
    split
    · exact ⟨_, rfl⟩
    · exact ⟨_, rfl⟩
  obtain ⟨front, hfront⟩ := hbracket
  rw [hfront, String.toList_append]
  exact Text.endsVisibly_concat _ _

/-- What is shown as JSON reads back as the schemas, every type as its name has it. -/
theorem readText_shown_json (schemas : List NodeSchema) :
    Format.json.readText (fun src t => NodeSchema.readAll src t) (shown .json schemas ++ "\n") =
      .ok (schemas.map NodeSchema.reread) := by
  have htrim : shown .json schemas = Json.pretty (NodeSchema.allToDocument schemas) :=
    Text.trimEnd_of_endsVisibly (endsVisibly_pretty _)
  rw [htrim]
  refine Json.readAll_pretty (by decide) fun t ht => ?_
  exact list_of_stands (fun s _ t ht => NodeSchema.read_of_stands ht) ht

/-! ## YAML -/

/-- The description of the last field of the last schema. -/
def closing? (schemas : List NodeSchema) : Option String :=
  (schemas.getLast?.bind fun s => s.fields.getLast?).bind FieldSpec.description

/-- A field declaration ends in its description; without one it ends in the name of its
multiplicity. -/
theorem endsDocument_fieldSpec (f : FieldSpec) :
    Yaml.endsDocument f.toDocument = f.description.all Yaml.showsEnd := by
  have hcode : Yaml.showsEnd f.multiplicity.code = true := by
    cases f.multiplicity <;> decide
  rw [FieldSpec.toDocument, Yaml.endsDocument, Yaml.endsEntries_eq]
  cases f.description with
  | none => simp [Document.optional, Yaml.endsDocument, hcode]
  | some text => simp [Document.optional, Yaml.endsDocument]

/-- Written schemas end visibly exactly if the closing description shows its end. -/
theorem endsDocument_allToDocument (schemas : List NodeSchema) :
    Yaml.endsDocument (NodeSchema.allToDocument schemas) = (closing? schemas).all Yaml.showsEnd := by
  rw [NodeSchema.allToDocument, Yaml.endsDocument, Yaml.endsItems_eq, List.getLast?_map, closing?]
  cases schemas.getLast? with
  | none => rfl
  | some s =>
    have hschema : Yaml.endsDocument s.toDocument =
        Yaml.endsItems (s.fields.map FieldSpec.toDocument) := by
      rw [NodeSchema.toDocument, Yaml.endsDocument, Yaml.endsEntries_eq, List.getLast?_concat]
      simp [Yaml.endsDocument]
    rw [Option.map_some, Option.all_some, hschema, Yaml.endsItems_eq, List.getLast?_map,
      Option.bind_some]
    cases s.fields.getLast? with
    | none => rfl
    | some f => exact endsDocument_fieldSpec f

/-- What is shown as YAML is the written form of the schemas exactly if the closing description shows
its end. -/
theorem shown_yaml_eq_iff (schemas : List NodeSchema) :
    shown .yaml schemas ++ "\n" = Format.yaml.write (NodeSchema.allToDocument schemas) ↔
      (closing? schemas).all Yaml.showsEnd := by
  rw [← endsDocument_allToDocument]
  exact Yaml.trimEnd_written_eq_iff _

/-! ## Runs -/

/-- The answer to a request for schemas is what is shown of the selected ones. -/
theorem answer_present (view : View) (selected : r.selection kind = .ok schemas) :
    Job.answer d r (.present kind view) = .ok (shown view schemas ++ "\n") := by
  have hprinted : ∀ line : String, printed [line] = line ++ "\n" := by
    intro line
    simp [printed]
  cases kind with
  | none =>
    cases selected
    rw [Job.answer, hprinted]
  | some k =>
    cases hschema : r.schema k with
    | error why => simp [Registry.selection, hschema] at selected
    | ok s =>
      obtain rfl : [s] = schemas := by simpa [Registry.selection, hschema] using selected
      rw [Job.answer, hschema]
      exact congrArg Except.ok (hprinted _)

variable {s s₁ : Snapshot} {words : List String} {i : Invocation}

/-- A request for declarations that become a registry is answered from the registry. -/
theorem perform_answer (loaded : s.perform (i.declarations Snapshot.access) = (.ok d, s₁))
    (accepted : d.toRegistry = .ok r) :
    s.perform (i.answer Snapshot.access) = (i.job.answer d r, s₁) := by
  rw [Invocation.answer, Snapshot.perform_bind, loaded]
  simp only [Declarations.registry, accepted]
  rfl

/-- A run answers a request on the output, or says why not on the error stream. -/
theorem run_invoke (asked : parse words = .invoke i) :
    ((run Snapshot.access words).run s).run =
      match s.perform (i.answer Snapshot.access) with
      | (.ok text, s') => (⟨0, text, none⟩, s')
      | (.error why, s') => (⟨1, "", some ("error: " ++ why.message)⟩, s') := by
  rw [run, asked]
  simp only [StateT.run_bind, Id.run_bind]
  unfold Snapshot.perform
  generalize ((i.answer Snapshot.access).run.run s).run = outcome
  obtain ⟨result, s'⟩ := outcome
  cases result <;> rfl

/-- A command line that asks for schemas prints what is shown of the selected ones. -/
theorem run_present {view : View} (asked : parse words = .invoke i)
    (job : i.job = .present kind view)
    (loaded : s.perform (i.declarations Snapshot.access) = (.ok d, s₁))
    (accepted : d.toRegistry = .ok r) (selected : r.selection kind = .ok schemas) :
    ((run Snapshot.access words).run s).run = (⟨0, shown view schemas ++ "\n", none⟩, s₁) := by
  rw [run_invoke asked, perform_answer loaded accepted, job, answer_present view selected]

/-- **What is shown of accepted declarations reads back.**  As JSON it always does.  As YAML it is the
written form of the selected schemas exactly if there is no closing description or its spelling shows
where it ends, and then reads back as the written form does. -/
theorem shown_reads_back {view : View} (asked : parse words = .invoke i)
    (job : i.job = .present kind view)
    (loaded : s.perform (i.declarations Snapshot.access) = (.ok d, s₁))
    (accepted : d.toRegistry = .ok r) (selected : r.selection kind = .ok schemas) :
    ∃ output, ((run Snapshot.access words).run s).run = (⟨0, output, none⟩, s₁) ∧
      (view = .json →
        Format.json.readText (fun src t => NodeSchema.readAll src t) output = .ok schemas) ∧
      (view = .yaml →
        (output = Format.yaml.write (NodeSchema.allToDocument schemas) ↔
          (closing? schemas).all Yaml.showsEnd) ∧
        ((closing? schemas).all Yaml.showsEnd →
          Format.yaml.readText (fun src t => NodeSchema.readAll src t)
              (Format.yaml.write (NodeSchema.allToDocument schemas)) = .ok schemas →
            Format.yaml.readText (fun src t => NodeSchema.readAll src t) output = .ok schemas)) := by
  refine ⟨_, run_present asked job loaded accepted selected, ?_, ?_⟩
  · rintro rfl
    -- Types come back as their names have them, and acceptance makes that what they were.
    rw [readText_shown_json, map_reread_of_selection accepted selected]
  · rintro rfl
    refine ⟨shown_yaml_eq_iff schemas, fun hshows back => ?_⟩
    rw [(shown_yaml_eq_iff schemas).mpr hshows]
    exact back

/-- A kind with one field, and a description of the field. -/
def described (description : String) : NodeSchema :=
  ⟨"A", none, none, [⟨"x", [.node "A"], .optional, some description⟩]⟩

/-- A snapshot that declares the kind; the description stands in double quotes. -/
def declaring (description : String) : Snapshot :=
  Snapshot.empty.withFile "d.yml"
    ("version: \"1.0\"\nnodes:\n- kind: A\n  fields:\n  - name: x\n    types: [A]\n"
      ++ "    multiplicity: OPTIONAL\n    description: \"" ++ description ++ "\"\n").toUTF8

/-- A description that ends in a letter is read back from what is shown as YAML. -/
theorem shown_reads_back_letter :
    ∃ output,
      ((run Snapshot.access ["show", "--format", "yaml", "d.yml"]).run (declaring "one")).run.1 =
          ⟨0, output, none⟩ ∧
        Format.yaml.readText (fun src t => NodeSchema.readAll src t) output =
          .ok [described "one"] := by
  have asked : parse ["show", "--format", "yaml", "d.yml"] =
      .invoke ⟨.present none .yaml, ["d.yml"], none, 0⟩ := by decide +kernel
  have loaded : (declaring "one").perform
      ((Invocation.mk (.present none .yaml) ["d.yml"] none 0).declarations Snapshot.access) =
        (.ok ⟨"1.0", none, [described "one"]⟩, _) :=
    Prod.ext (by decide +kernel) rfl
  have accepted : (Declarations.mk "1.0" none [described "one"]).toRegistry =
      .ok ⟨[described "one"], [("A", 0)]⟩ := by decide +kernel
  obtain ⟨output, hrun, -, hyaml⟩ := shown_reads_back asked rfl loaded accepted rfl
  have hshows : Yaml.showsEnd "one" := Yaml.showsEnd_of_endsVisibly (by decide)
  have back : Format.yaml.readText (fun src t => NodeSchema.readAll src t)
      (Format.yaml.write (NodeSchema.allToDocument [described "one"])) =
        .ok [described "one"] := by decide +kernel
  exact ⟨output, congrArg Prod.fst hrun, (hyaml rfl).2 hshows back⟩

/-- A description that ends in two line feeds loses one of them: what is written of the schema reads
back, and what is shown of it reads as something else. -/
theorem shown_loses_newline :
    ((run Snapshot.access ["show", "--format", "yaml", "d.yml"]).run
          (declaring "one\\n\\n")).run.1 =
        ⟨0, "- kind: A\n  fields:\n  - name: x\n    types:\n    - A\n    multiplicity: OPTIONAL\n"
          ++ "    description: |+\n      one\n", none⟩ ∧
      Format.yaml.readText (fun src t => NodeSchema.readAll src t)
          (Format.yaml.write (NodeSchema.allToDocument [described "one\n\n"])) =
        .ok [described "one\n\n"] ∧
      Format.yaml.readText (fun src t => NodeSchema.readAll src t)
          ("- kind: A\n  fields:\n  - name: x\n    types:\n    - A\n    multiplicity: OPTIONAL\n"
            ++ "    description: |+\n      one\n") =
        .ok [described "one\n"] := by
  decide +kernel

end CommandLine

end TreeSchema
