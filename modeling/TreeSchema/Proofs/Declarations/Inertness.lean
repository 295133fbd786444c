/-
# TreeSchema.Proofs.Declarations.Inertness — descriptive text is inert.

Two sets of declarations that differ in version, in name and in descriptions only are the same when bare.
This file draws the conclusion: they become registries together or not at all, programs that use these in
parallel cannot tell them apart, and on the command line they are listed and shown as text alike.  Shown as
JSON or YAML they differ, of course; descriptions stand in both.
-/
import TreeSchema.Proofs.CommandLine.Agreement
import TreeSchema.Proofs.Installation
import TreeSchema.Proofs.Node.Parallel

namespace TreeSchema

open Files

/-! ## Counterparts -/

/-- Of registries that are the same when bare each may be the counterpart of the other. -/
theorem Counterparts.exists_of_bare_eq {home home' : Sealed}
    (h : home.registry.bare = home'.registry.bare) : ∃ κ, Counterparts κ ∧ κ home = home' := by
  refine ⟨Equiv.swap home home', ⟨(Equiv.swap home home').injective, fun other => ?_⟩,
    Equiv.swap_apply_left home home'⟩
  rw [Equiv.swap_apply_def]
  split
  · next hsame => rw [hsame, h]
  · split
    · next hsame => rw [hsame, h]
    · rfl

/-! ## On the command line -/

namespace CommandLine

theorem kindLine_bare (s : NodeSchema) : kindLine s.bare = kindLine s := rfl

/-- What is shown as text of bare schemas is what is shown of the schemas. -/
theorem shown_text_bare (schemas : List NodeSchema) :
    shown .text (schemas.map NodeSchema.bare) = shown .text schemas := by
  simp [shown, Function.comp_def]

/-- A job that prints no descriptions. -/
def isTerse : Job → Bool
  | .kinds | .present _ .text => true
  | .check | .present _ _ => false

/-- Such a job is answered from the bare registry alone. -/
theorem answer_bare (d d' : Declarations) (r : Registry) {job : Job} (hjob : isTerse job = true) :
    job.answer d r = job.answer d' r.bare := by
  cases job with
  | check => cases hjob
  | kinds => simp only [Job.answer, Registry.schemas_bare, List.map_map, Function.comp_def, kindLine_bare]
  | present kind view =>
      cases view with
      | json => cases hjob
      | yaml => cases hjob
      | text =>
          cases kind with
          | none => simp only [Job.answer, Registry.schemas_bare, shown_text_bare]
          | some kind =>
              rw [Job.answer, Job.answer, Registry.schema_bare]
              cases r.schema kind with
              | error e => rfl
              | ok s =>
                  have hshown : shown .text [s.bare] = shown .text [s] := shown_text_bare [s]
                  simp only [Except.map, hshown]

/-- What a command line leaves behind is decided by the declarations that it is about. -/
theorem runOn_of_loaded {s : Snapshot} {words : List String} {i : Invocation} {d : Declarations}
    (asked : parse words = .invoke i) (loaded : outcome (i.declarations s.atRest) = .ok d) :
    (runOn s words).1 = ending (match d.registry with
      | .ok r => i.job.answer d r
      | .error why => .error (.declarations why)) := by
  have hrun := runOn_eq_ending (s := s) ⟨i.verbosity, asked⟩
  have hgrounds : grounds s i.config i.inputs = i.grounds s := rfl
  rw [hrun, hgrounds, Invocation.grounds, loaded]
  simp only [Except.bind]
  cases d.registry <;> rfl

end CommandLine

/-! ## Inertness -/

namespace Declarations

/-- Sets that are the same when bare become registries that are the same when bare, or are refused with
one error. -/
theorem registry_of_bare_eq {d d' : Declarations} (h : d.bare = d'.bare) :
    SameAnswer (fun r r' => r.bare = r'.bare) d.registry d'.registry := by
  rw [registry, registry]
  rcases (toRegistry_of_bare_eq h).cases_or with ⟨e, hd, hd'⟩ | ⟨r, r', hd, hd', hbare⟩
  · rw [hd, hd']
    exact .error _
  · rw [hd, hd']
    exact .ok hbare

/-- **Descriptive text is inert.**  Let two sets of declarations differ in version, name and descriptions
only.  They are refused with one error, or both become registries, and these can be sealed.  Then one
sealed registry is a counterpart of the other, and with any choice of counterparts in which it is, programs
that make nodes of the two and operate on them in parallel, with corresponding values and edits, are
answered alike at every step, and corresponding nodes and values have one text.  Command lines that list
the kinds of the two sets or show them as text end alike and print the same. -/
theorem descriptions_inert {d d' : Declarations} (h : d.bare = d'.bare) :
    ((∃ e, d.registry = .error e ∧ d'.registry = .error e) ∨
      ∃ r r', d.registry = .ok r ∧ d'.registry = .ok r' ∧ ∀ stamp stamp', ∃ home home',
        r.seal stamp = .ok home ∧ r'.seal stamp' = .ok home' ∧
          (∃ κ, Counterparts κ ∧ κ home = home') ∧
          ∀ κ, Counterparts κ → κ home = home' →
            (∀ v w : Value, v.Matches κ w → v.render = w.render) ∧
            ∀ {α β : Type} (R : α → β → Prop) (steps : List (Workbench.Step α))
              (steps' : List (Workbench.Step β)),
              List.Forall₂ (Workbench.Step.Matches κ R) steps steps' →
                let ran := Workbench.empty.run home steps
                let ran' := Workbench.empty.run home' steps'
                List.Forall₂ (Workbench.Answer.Matches κ R) ran.1 ran'.1 ∧ ran.2.Matches κ ran'.2) ∧
    ∀ s s' words words' i i', CommandLine.parse words = .invoke i →
      CommandLine.parse words' = .invoke i' → i.job = i'.job → CommandLine.isTerse i.job = true →
        outcome (i.declarations s.atRest) = .ok d → outcome (i'.declarations s'.atRest) = .ok d' →
          (CommandLine.runOn s words).1 = (CommandLine.runOn s' words').1 := by
  constructor
  · rcases (registry_of_bare_eq h).cases_or with ⟨e, hd, hd'⟩ | ⟨r, r', hd, hd', hbare⟩
    · exact .inl ⟨e, hd, hd'⟩
    · refine .inr ⟨r, r', hd, hd', fun stamp stamp' => ?_⟩
      have hvalid := (toRegistry_eq_ok_iff.1 (registry_eq_ok_iff.1 hd)).2
      have hvalid' := (toRegistry_eq_ok_iff.1 (registry_eq_ok_iff.1 hd')).2
      refine ⟨⟨stamp, r, hvalid⟩, ⟨stamp', r', hvalid'⟩, Registry.seal_of_valid hvalid stamp,
        Registry.seal_of_valid hvalid' stamp', Counterparts.exists_of_bare_eq hbare, ?_⟩
      intro κ hκ hhome
      refine ⟨fun v w hvw => hvw.render_eq, fun R steps steps' hsteps => ?_⟩
      rw [← hhome]
      exact Workbench.run_matches hκ _ hsteps Workbench.matches_empty
  · intro s s' words words' i i' asked asked' hjob hterse loaded loaded'
    rw [CommandLine.runOn_of_loaded asked loaded, CommandLine.runOn_of_loaded asked' loaded']
    rcases (registry_of_bare_eq h).cases_or with ⟨e, hd, hd'⟩ | ⟨r, r', hd, hd', hbare⟩
    · rw [hd, hd']
    · simp only [hd, hd', ← hjob]
      rw [CommandLine.answer_bare d d' r hterse, hbare, ← CommandLine.answer_bare d' d' r' hterse]

/-! ### Links with and without descriptions -/

/-- Links that nothing is said about. -/
def links : Declarations := ⟨"1", none, [Scene.Link.schema]⟩

/-- The same links, described. -/
def describedLinks : Declarations :=
  ⟨"2", some "links",
    [{ Scene.Link.schema with
        description := some "Part of a chain."
        fields := Scene.Link.schema.fields.map fun f => { f with description := some f.name } }]⟩

/-- A link is made and given another one to go on with; then that one is finished in an edit, which fails
for want of a name. -/
def linking (next : Node) : List (Workbench.Step (List (Report Unit))) :=
  [.make "first" (.node "link"), .call "first" (.write (.set "next" (.node next))),
    .call "first" (.edit "next" (Operation.runAll [.finalize])), .call "first" .finalizeTree]

theorem matches_linking {κ : Sealed → Sealed} (hκ : Counterparts κ) {next next' : Node}
    (h : next.Matches κ next') :
    List.Forall₂ (Workbench.Step.Matches κ (List.Forall₂ (Report.Matches κ Eq))) (linking next)
      (linking next') := by
  have hedit := Operation.editsMatch_runAll hκ (R := Eq) (α := Unit)
    (.cons Operation.Matches.finalize .nil)
  exact .cons (.make _ (.node _)) (.cons (.call _ (.write (.set _ (Value.matches_node_iff.2 h))))
    (.cons (.call _ (.edit _ hedit)) (.cons (.call _ .finalizeTree) .nil)))

theorem descriptions_inert_links :
    links.bare = describedLinks.bare ∧ ∃ home home' κ,
      home.registry.schemas = links.nodes ∧ home'.registry.schemas = describedLinks.nodes ∧
        κ home = home' ∧
          let next := Node.fresh home Scene.Link.schema
          let next' := Node.fresh home' describedLinks.nodes.head!
          List.Forall₂ (Workbench.Answer.Matches κ (List.Forall₂ (Report.Matches κ Eq)))
            (Workbench.empty.run home (linking next)).1
            (Workbench.empty.run home' (linking next')).1 := by
  have hbare : links.bare = describedLinks.bare := by decide +kernel
  refine ⟨hbare, ?_⟩
  rcases (descriptions_inert hbare).1 with ⟨e, he, -⟩ | ⟨r, r', hr, hr', hsealed⟩
  · have hok : links.registry.isOk = true := by decide +kernel
    rw [he] at hok
    cases hok
  · obtain ⟨home, home', hseal, hseal', ⟨κ, hκ, hhome⟩, hruns⟩ := hsealed 0 1
    have hschemas := (schemas_of_toRegistry (registry_eq_ok_iff.1 hr)).2
    have hschemas' := (schemas_of_toRegistry (registry_eq_ok_iff.1 hr')).2
    have hnext : (Node.fresh home Scene.Link.schema).Matches κ
        (Node.fresh home' describedLinks.nodes.head!) := by
      rw [Node.Matches, Node.recast_fresh, Node.recast_fresh, hhome]
      exact congrArg (Node.fresh home') (by decide +kernel)
    refine ⟨home, home', κ, ?_, ?_, hhome, ?_⟩
    · rw [Scene.registry_of_seal hseal, hschemas]
    · rw [Scene.registry_of_seal hseal', hschemas']
    · exact ((hruns κ hκ hhome).2 _ _ _ (matches_linking hκ hnext)).1

end Declarations

end TreeSchema
