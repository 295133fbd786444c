/-
# TreeSchema.Proofs.CommandLine.Agreement — the three jobs speak of the same declarations.

What a request is about depends on its places and its configuration, not on its job: the `grounds` of a
request are the declarations and their registry, or the one complaint that every job ends in.  On common
grounds the jobs are compared by what they print.  A kind that is listed with its parent can be told from
the line, because an identifier has neither a blank nor a line end in it; so the lines of the list are the
declarations, one for one.
-/
import TreeSchema.Proofs.CommandLine.Show
import TreeSchema.Proofs.Declarations.Merging
import TreeSchema.Proofs.Declarations.Places

namespace TreeSchema

open Files

/-! ## Listed kinds read back -/

namespace CommandLine

/-- The lines of an output: what stands before each line end. -/
def lines (output : String) : List String :=
  (output.toList.splitOn '\n').dropLast.map String.ofList

/-- The kind and the parent that a line of the list of kinds tells. -/
def readKindLine (line : String) : String × Option String :=
  let rest := line.toList.dropWhile (· != ' ')
  (String.ofList (line.toList.takeWhile (· != ' ')),
    if rest.isEmpty then none else some (String.ofList (rest.drop 2).dropLast))

theorem lines_printed {ls : List String} (h : ∀ l ∈ ls, '\n' ∉ l.toList) :
    lines (printed ls) = ls := by
  induction ls with
  | nil => rfl
  | cons l rest ih =>
      rw [List.forall_mem_cons] at h
      -- the first line end of the output is the one behind `l`
      have htext : (printed (l :: rest)).toList = l.toList ++ '\n' :: (printed rest).toList := by
        simp [printed]
      rw [lines, htext, List.splitOn_append_cons_self_of_not_mem h.1,
        List.dropLast_cons_of_ne_nil (List.splitOn_ne_nil _ _), List.map_cons, String.ofList_toList]
      exact congrArg (l :: ·) (ih h.2)

/-- The line of a kind is one line. -/
theorem newline_not_mem_kindLine {n : NodeSchema} (h : n.Proper) : '\n' ∉ (kindLine n).toList := by
  have hnewline : isIdentifierPart '\n' = false := by decide +kernel
  have hkind := not_mem_of_isIdentifier h.isIdentifier_kind hnewline
  cases hp : n.parent with
  | none => simpa [kindLine, hp] using hkind
  | some p =>
      have hparent := not_mem_of_isIdentifier (h.isIdentifier_parent p hp) hnewline
      simp [kindLine, hp, hkind, hparent]

/-- **The line of a kind tells the kind and its parent**, or that there is none. -/
theorem readKindLine_kindLine {n : NodeSchema} (h : n.Proper) :
    readKindLine (kindLine n) = (n.kind, n.parent) := by
  have hblank : ∀ c ∈ n.kind.toList, (c != ' ') = true := by
    intro c hc
    have hne : c ≠ ' ' := by
      rintro rfl
      exact not_mem_of_isIdentifier h.isIdentifier_kind (by decide +kernel) hc
    simpa using hne
  cases hp : n.parent with
  | none =>
      have hline : kindLine n = n.kind := by rw [kindLine, hp]
      simp only [readKindLine, hline, List.takeWhile_eq_self_iff.2 hblank,
        List.dropWhile_eq_nil_iff.2 hblank]
      simp
  | some p =>
      -- the first blank of the line ends the kind, and the parent stands between the brackets
      have hline : (kindLine n).toList = n.kind.toList ++ ' ' :: '(' :: (p.toList ++ [')']) := by
        simp [kindLine, hp]
      simp only [readKindLine, hline, List.takeWhile_append_of_pos hblank,
        List.dropWhile_append_of_pos hblank]
      simp

end CommandLine

/-! ## Common grounds -/

namespace Files

variable {α ε ε' : Type}

/-- Complaints may be reworded afterwards. -/
theorem outcome_adapt (f : ε → ε') (work : ExceptT ε Id α) :
    outcome (work.adapt f) = (outcome work).mapError f := rfl

theorem Snapshot.Asks.adapt {s : Snapshot} {work : ExceptT ε (StateM Snapshot) α}
    {answers : ExceptT ε Id α} (h : s.Asks work answers) (f : ε → ε') :
    s.Asks (work.adapt f) (answers.adapt f) := by
  have hperform : s.perform (work.adapt f) = (((s.perform work).1).mapError f, (s.perform work).2) := by
    rfl
  rw [Snapshot.Asks, hperform, h, outcome_adapt]

end Files

namespace Invocation

variable {s : Snapshot}

/-- The declarations that a request is about and the registry that they become, or why there is none. -/
def grounds (i : Invocation) (s : Snapshot) : Except Complaint (Declarations × Registry) :=
  (outcome (i.declarations s.atRest)).bind fun d =>
    match d.registry with
    | .ok r => .ok (d, r)
    | .error why => .error (.declarations why)

theorem asks_configuration (i : Invocation) :
    s.Asks (i.configuration Snapshot.access) (i.configuration s.atRest) := by
  unfold configuration
  cases i.config with
  | none => exact Snapshot.asks_pure _
  | some path =>
      exact ((Snapshot.asks_readContent _ _ path).bind fun _ => Snapshot.asks_pure _).adapt _

theorem asks_declarations (i : Invocation) :
    s.Asks (i.declarations Snapshot.access) (i.declarations s.atRest) := by
  refine (asks_configuration i).bind fun c => ?_
  split
  · exact Snapshot.asks_throw _
  · exact (Declarations.asks_ofPlaces _).adapt _

/-- A request is answered on its grounds, and changes nothing. -/
theorem perform_answer_eq (i : Invocation) (s : Snapshot) :
    s.perform (i.answer Snapshot.access) =
      ((i.grounds s).bind fun g => i.job.answer g.1 g.2, s) := by
  have hloaded : s.perform (i.declarations Snapshot.access)
      = (outcome (i.declarations s.atRest), s) := asks_declarations i
  rw [answer, Snapshot.perform_bind, hloaded, grounds]
  cases outcome (i.declarations s.atRest) with
  | error why => rfl
  | ok d =>
      simp only [Except.bind]
      cases d.registry with
      | error why => rfl
      | ok r => rfl

/-- The grounds of a request are what its places hold: those that it names, or those of its
configuration. -/
theorem grounds_eq_ok_iff {i : Invocation} {d : Declarations} {r : Registry} :
    i.grounds s = .ok (d, r) ↔
      (∃ c, outcome (i.configuration s.atRest) = .ok c ∧ i.places c ≠ [] ∧
        outcome (Declarations.ofPlaces s.atRest (i.places c)) = .ok d) ∧ d.toRegistry = .ok r := by
  -- a request that names nothing fails before anything is loaded
  have hloaded : outcome (i.declarations s.atRest) = .ok d ↔
      ∃ c, outcome (i.configuration s.atRest) = .ok c ∧ i.places c ≠ [] ∧
        outcome (Declarations.ofPlaces s.atRest (i.places c)) = .ok d := by
    rw [declarations, outcome_bind_eq_ok_iff]
    refine exists_congr fun c => and_congr_right fun _ => ?_
    by_cases hnone : i.places c = []
    · simp [hnone]
    · rw [if_neg (by simpa using hnone), outcome_adapt]
      cases outcome (Declarations.ofPlaces s.atRest (i.places c)) <;> simp [Except.mapError, hnone]
  rw [← hloaded, ← Declarations.registry_eq_ok_iff, grounds]
  cases outcome (i.declarations s.atRest) with
  | error why => simp [Except.bind]
  | ok e =>
      simp only [Except.bind, Except.ok.injEq]
      cases he : e.registry with
      | error why =>
          refine iff_of_false (by simp) ?_
          rintro ⟨rfl, hr⟩
          rw [he] at hr
          cases hr
      | ok r' =>
          simp only [Except.ok.injEq, Prod.mk.injEq]
          constructor
          · rintro ⟨rfl, rfl⟩
            exact ⟨rfl, he⟩
          · rintro ⟨rfl, hr⟩
            exact ⟨rfl, Except.ok.inj (he.symm.trans hr)⟩

end Invocation

namespace CommandLine

variable {s : Snapshot} {words : List String}

/-- How a run ends that has an answer, or a complaint instead. -/
def ending : Except Complaint String → Exit
  | .ok text => ⟨0, text, none⟩
  | .error why => ⟨1, "", some ("error: " ++ why.message)⟩

/-- A command line asks for a job about what is in some places, or else in a configuration. -/
def Requests (words : List String) (job : Job) (config : Option String) (inputs : List String) :
    Prop :=
  ∃ verbosity, parse words = .invoke ⟨job, inputs, config, verbosity⟩

/-- The grounds of every request about the same places and configuration. -/
def grounds (s : Snapshot) (config : Option String) (inputs : List String) :
    Except Complaint (Declarations × Registry) :=
  (Invocation.mk .check inputs config 0).grounds s

/-- What a command line leaves behind on a snapshot. -/
def runOn (s : Snapshot) (words : List String) : Exit × Snapshot :=
  ((run Snapshot.access words).run s).run

/-- **Every job is done on the same grounds**, and leaves the files as they are. -/
theorem runOn_eq_ending {job : Job} {config : Option String} {inputs : List String}
    (h : Requests words job config inputs) :
    runOn s words = (ending ((grounds s config inputs).bind fun g => job.answer g.1 g.2), s) := by
  obtain ⟨verbosity, hparse⟩ := h
  -- neither the job nor the verbosity is looked at before there are declarations
  have hsame : (Invocation.mk job inputs config verbosity).grounds s = grounds s config inputs := rfl
  rw [runOn, run_invoke hparse, Invocation.perform_answer_eq, hsame]
  cases (grounds s config inputs).bind fun g => job.answer g.1 g.2 <;> rfl

variable {config : Option String} {inputs : List String} {d : Declarations} {r : Registry}

theorem runOn_of_grounds {job : Job} (h : grounds s config inputs = .ok (d, r))
    (asked : Requests words job config inputs) :
    runOn s words = (ending (job.answer d r), s) := by
  rw [runOn_eq_ending asked, h]
  rfl

/-- The declarations are those of the files that the places stand for, in their order. -/
theorem exists_loaded_of_grounds (h : grounds s config inputs = .ok (d, r)) :
    ∃ c parts loaded,
      outcome ((Invocation.mk .check inputs config 0).configuration s.atRest) = .ok c ∧
      List.Forall₂ s.atRest.StandsFor ((Invocation.mk .check inputs config 0).places c) parts ∧
      List.Forall₂ (fun file d => outcome (Declarations.ofFile s.atRest file) = .ok d) parts.flatten
        loaded ∧
      d.nodes = loaded.flatMap Declarations.nodes := by
  obtain ⟨⟨c, hconfigured, -, hloaded⟩, -⟩ := Invocation.grounds_eq_ok_iff.1 h
  obtain ⟨parts, hparts⟩ := Declarations.exists_forall₂_standsFor s.atRest
    ((Invocation.mk .check inputs config 0).places c)
  obtain ⟨loaded, hfiles, hmerge⟩ := Declarations.exists_of_outcome_ofPlaces hparts hloaded
  obtain ⟨-, -, -, -, -, hnodes⟩ := Declarations.exists_of_mergeAll hmerge
  exact ⟨c, parts, loaded, hconfigured, hparts, hfiles, hnodes⟩

/-! ## The answers on common grounds -/

/-- `check` tells the number of declarations and their fingerprint. -/
theorem answer_check (accepted : d.toRegistry = .ok r) :
    Job.answer d r .check
      = .ok ("Checked " ++ toString d.nodes.length ++ " node kind(s).\nfingerprint: "
          ++ d.fingerprint ++ "\n") := by
  have hlines : " node kind(s).\nfingerprint: " = " node kind(s)." ++ ("\n" ++ "fingerprint: ") := by
    decide
  rw [← (Declarations.schemas_of_toRegistry accepted).2]
  simp only [Job.answer, printed, Registry.size, List.map_cons, List.map_nil, String.join_cons,
    String.join_nil, String.append_empty, String.append_assoc, hlines]

/-- `kinds` tells kind and parent of every declaration, line by line. -/
theorem map_readKindLine_listing (accepted : d.toRegistry = .ok r) :
    (lines (printed (r.schemas.map kindLine))).map readKindLine
      = d.nodes.map fun n => (n.kind, n.parent) := by
  obtain ⟨hgrown, hnodes⟩ := Declarations.schemas_of_toRegistry accepted
  have hlines : ∀ l ∈ r.schemas.map kindLine, '\n' ∉ l.toList := by
    intro l hl
    obtain ⟨n, hn, rfl⟩ := List.mem_map.1 hl
    exact newline_not_mem_kindLine (hgrown.proper n hn)
  rw [lines_printed hlines, List.map_map, hnodes]
  refine List.map_congr_left fun n hn => ?_
  exact readKindLine_kindLine (hgrown.proper n (hnodes ▸ hn))

theorem length_listing (accepted : d.toRegistry = .ok r) :
    (lines (printed (r.schemas.map kindLine))).length = d.nodes.length := by
  rw [← List.length_map readKindLine, map_readKindLine_listing accepted, List.length_map]

theorem map_fst_listing (accepted : d.toRegistry = .ok r) :
    ((lines (printed (r.schemas.map kindLine))).map readKindLine).map Prod.fst = d.kinds := by
  rw [map_readKindLine_listing accepted, List.map_map]
  rfl

/-- `show` without a kind shows all declarations. -/
theorem answer_present_all (accepted : d.toRegistry = .ok r) (view : View) :
    Job.answer d r (.present none view) = .ok (shown view d.nodes ++ "\n") := by
  rw [answer_present view rfl, (Declarations.schemas_of_toRegistry accepted).2]

/-- `show` with a kind shows its declaration if there is one. -/
theorem answer_present_kind (accepted : d.toRegistry = .ok r) (view : View) (kind : String) :
    (kind ∈ d.kinds → ∃ text, Job.answer d r (.present (some kind) view) = .ok text) ∧
      (kind ∉ d.kinds →
        Job.answer d r (.present (some kind) view) = .error (.kind (.unknownKind kind))) := by
  obtain ⟨hgrown, hnodes⟩ := Declarations.schemas_of_toRegistry accepted
  constructor
  · intro hkind
    obtain ⟨n, hn, hname⟩ := List.mem_map.1 hkind
    have hget : r.get? kind = some n := hgrown.coherent.get?_eq_some_iff.2 ⟨hnodes ▸ hn, hname⟩
    exact ⟨_, answer_present view (by rw [Registry.selection, Registry.schema, hget])⟩
  · intro hkind
    have hget : r.get? kind = none := by
      refine Option.eq_none_iff_forall_ne_some.2 fun n hn => hkind ?_
      obtain ⟨hmem, hname⟩ := hgrown.coherent.get?_eq_some_iff.1 hn
      exact List.mem_map.2 ⟨n, hnodes ▸ hmem, hname⟩
    rw [Job.answer, Registry.schema, hget]

/-- **The jobs agree** about the declarations of the same places and configuration.  Either one complaint
stands in the way, and every job ends in it.  Or each of the places is loaded, file by file, and every job
is done: `check` counts the node declarations in all files, `kinds` has a line for each of them from which
its kind and its parent can be read, `show` shows them all, and shows one alone exactly if its kind is
listed. -/
theorem jobs_agree (s : Snapshot) (config : Option String) (inputs : List String) :
    (∃ line, ∀ words job, Requests words job config inputs →
      runOn s words = (⟨1, "", some ("error: " ++ line)⟩, s)) ∨
    ∃ c parts loaded fingerprint listing,
      let nodes := loaded.flatMap Declarations.nodes
      let listed := (lines listing).map readKindLine
      outcome ((Invocation.mk .check inputs config 0).configuration s.atRest) = .ok c ∧
      List.Forall₂ s.atRest.StandsFor ((Invocation.mk .check inputs config 0).places c) parts ∧
      List.Forall₂ (fun file d => outcome (Declarations.ofFile s.atRest file) = .ok d) parts.flatten
        loaded ∧
      (∀ words, Requests words .check config inputs →
        runOn s words = (⟨0, "Checked " ++ toString nodes.length ++ " node kind(s).\nfingerprint: "
          ++ fingerprint ++ "\n", none⟩, s)) ∧
      (∀ words, Requests words .kinds config inputs → runOn s words = (⟨0, listing, none⟩, s)) ∧
      (lines listing).length = nodes.length ∧ listed = nodes.map (fun n => (n.kind, n.parent)) ∧
      (∀ words view, Requests words (.present none view) config inputs →
        runOn s words = (⟨0, shown view nodes ++ "\n", none⟩, s)) ∧
      ∀ words view kind, Requests words (.present (some kind) view) config inputs →
        (kind ∈ listed.map Prod.fst → ∃ text, runOn s words = (⟨0, text, none⟩, s)) ∧
        (kind ∉ listed.map Prod.fst → runOn s words
          = (⟨1, "", some ("error: " ++ (TreeError.unknownKind kind).message)⟩, s)) := by
  cases hgrounds : grounds s config inputs with
  | error why =>
      refine .inl ⟨why.message, fun words job asked => ?_⟩
      rw [runOn_eq_ending asked, hgrounds]
      rfl
  | ok g =>
      obtain ⟨d, r⟩ := g
      have haccepted : d.toRegistry = .ok r := (Invocation.grounds_eq_ok_iff.1 hgrounds).2
      obtain ⟨c, parts, loaded, hconfigured, hparts, hfiles, hnodes⟩ :=
        exists_loaded_of_grounds hgrounds
      refine .inr ⟨c, parts, loaded, d.fingerprint, printed (r.schemas.map kindLine), hconfigured,
        hparts, hfiles, ?_⟩
      rw [← hnodes]
      refine ⟨?_, ?_, length_listing haccepted, map_readKindLine_listing haccepted, ?_, ?_⟩
      · intro words asked
        rw [runOn_of_grounds hgrounds asked, answer_check haccepted]
        rfl
      · intro words asked
        exact runOn_of_grounds hgrounds asked
      · intro words view asked
        rw [runOn_of_grounds hgrounds asked, answer_present_all haccepted view]
        rfl
      · intro words view kind asked
        obtain ⟨hin, hout⟩ := answer_present_kind haccepted view kind
        rw [map_fst_listing haccepted, runOn_of_grounds hgrounds asked]
        constructor
        · intro hkind
          obtain ⟨text, htext⟩ := hin hkind
          exact ⟨text, by rw [htext]; rfl⟩
        · intro hkind
          rw [hout hkind]
          rfl

/-- A snapshot with a kind in one file, and in another a kind that extends it. -/
def lineage : Snapshot :=
  (Snapshot.empty.withFile "b.yml" "version: \"1\"\nnodes:\n- kind: B\n  extends: A\n".toUTF8).withFile
    "a.yml" "version: \"1\"\nnodes:\n- kind: A\n".toUTF8

/-- Both kinds are counted and listed, and the second one can be shown alone. -/
theorem jobs_agree_lineage :
    (Requests ["check", "a.yml", "b.yml"] .check none ["a.yml", "b.yml"] ∧
        Requests ["kinds", "a.yml", "b.yml"] .kinds none ["a.yml", "b.yml"]) ∧
      ∃ total fingerprint listing,
        (runOn lineage ["check", "a.yml", "b.yml"]).1 = ⟨0, "Checked " ++ toString total
          ++ " node kind(s).\nfingerprint: " ++ fingerprint ++ "\n", none⟩ ∧
        (runOn lineage ["kinds", "a.yml", "b.yml"]).1 = ⟨0, listing, none⟩ ∧
        (lines listing).length = total := by
  have hcheck : Requests ["check", "a.yml", "b.yml"] .check none ["a.yml", "b.yml"] :=
    ⟨0, by decide +kernel⟩
  have hkinds : Requests ["kinds", "a.yml", "b.yml"] .kinds none ["a.yml", "b.yml"] :=
    ⟨0, by decide +kernel⟩
  refine ⟨⟨hcheck, hkinds⟩, ?_⟩
  rcases jobs_agree lineage none ["a.yml", "b.yml"] with
    ⟨line, hline⟩ | ⟨-, -, loaded, fingerprint, listing, -, -, -, hcount, hlist, htotal, -⟩
  · have hcode : (runOn lineage ["check", "a.yml", "b.yml"]).1.code = 0 := by decide +kernel
    rw [hline _ _ hcheck] at hcode
    cases hcode
  · exact ⟨_, fingerprint, listing, congrArg Prod.fst (hcount _ hcheck),
      congrArg Prod.fst (hlist _ hkinds), htotal⟩

end CommandLine

end TreeSchema
