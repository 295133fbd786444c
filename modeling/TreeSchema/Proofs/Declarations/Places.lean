/-
# TreeSchema.Proofs.Declarations.Places — declarations loaded from files and directories.

Loading goes through places in order, and inside a directory through its files in order, each time up to
the first failure, and puts together what it finds.  Here the two loops are one: a directory with files
of a known format might as well be replaced by these files.  Putting sets together is associative and
keeps what the first one says of version and name, so it does not matter where the sets are split; and
sorting the names of a directory makes the order of its listing irrelevant.
-/
import Mathlib.Data.List.Forall2
import TreeSchema.Declarations.Files
import TreeSchema.Proofs.Files.AtRest

namespace TreeSchema

open Files

/-! ## What a place stands for -/

namespace Files.Access

/-- A name in a directory is that of a file of a known format. -/
def holds (fs : Access Id) (path name : String) : Bool :=
  decide ((fs.entry? (Path.join path name)).run = some .file) &&
    (Format.ofPath? (Path.join path name)).isSome

/-- A path leads to a directory that can be listed. -/
structure Lists (fs : Access Id) (path : String) (listed : List String) : Prop where
  isDirectory : (fs.entry? path).run = some .directory
  listed : (fs.names path).run = .ok listed

/-- What a place stands for: a directory for its files of a known format, in the order of their names,
if there are any; every other place for itself. -/
inductive StandsFor (fs : Access Id) (path : String) : List String → Prop
  | files {listed names : List String} : fs.Lists path listed → names ≠ [] →
      names.Perm (listed.filter (fs.holds path)) → names.Pairwise (fun a b => ¬ b < a) →
        StandsFor fs path (names.map (Path.join path))
  | itself : (¬ ∃ listed, fs.Lists path listed ∧ ∃ name ∈ listed, fs.holds path name = true) →
      StandsFor fs path [path]

/-- Two file systems differ at most in the order in which they list directories. -/
structure SameButOrder (fs fs' : Access Id) : Prop where
  entry? : ∀ path, fs.entry? path = fs'.entry? path
  fetch : ∀ path, fs.fetch path = fs'.fetch path
  names : ∀ path, (∃ why, (fs.names path).run = .error why ∧ (fs'.names path).run = .error why) ∨
    ∃ listed listed', (fs.names path).run = .ok listed ∧ (fs'.names path).run = .ok listed' ∧
      listed.Perm listed'

end Files.Access

/-! ## Names in order -/

theorem pairwise_mergeSort_names (listed : List String) :
    (listed.mergeSort fun a b => !decide (b < a)).Pairwise fun a b => ¬ b < a := by
  have htrans : ∀ a b c : String, (!decide (b < a)) = true → (!decide (c < b)) = true →
      (!decide (c < a)) = true := by
    intro a b c hab hbc
    simp only [Bool.not_eq_true', decide_eq_false_iff_not] at hab hbc ⊢
    exact String.le_trans hab hbc
  have htotal : ∀ a b : String, (!decide (b < a) || !decide (a < b)) = true := by
    intro a b
    simp only [Bool.or_eq_true, Bool.not_eq_true', decide_eq_false_iff_not]
    exact String.le_total a b
  simpa using List.pairwise_mergeSort htrans htotal listed

/-- Sorting gives the same names in the one order that goes up. -/
theorem mergeSort_eq_of_perm {names listed : List String} (hperm : names.Perm listed)
    (hup : names.Pairwise fun a b => ¬ b < a) :
    (listed.mergeSort fun a b => !decide (b < a)) = names := by
  refine List.Perm.eq_of_pairwise (fun a b _ _ hab hba => ?_) (pairwise_mergeSort_names listed) hup
    ((List.mergeSort_perm _ _).trans hperm.symm)
  exact String.le_antisymm hab hba

/-- Every place stands for something. -/
theorem Files.Access.exists_standsFor (fs : Access Id) (path : String) :
    ∃ files, fs.StandsFor path files := by
  by_cases h : ∃ listed, fs.Lists path listed ∧ ∃ name ∈ listed, fs.holds path name = true
  · obtain ⟨listed, hlists, name, hname, hholds⟩ := h
    have hperm := List.mergeSort_perm (listed.filter (fs.holds path)) fun a b => !decide (b < a)
    refine ⟨_, .files hlists ?_ hperm (pairwise_mergeSort_names _)⟩
    exact List.ne_nil_of_mem (hperm.mem_iff.2 (List.mem_filter.2 ⟨hname, hholds⟩))
  · exact ⟨_, .itself h⟩

/-- No place stands for nothing. -/
theorem Files.Access.StandsFor.ne_nil {fs : Access Id} {path : String} {files : List String}
    (h : fs.StandsFor path files) : files ≠ [] := by
  cases h with
  | files _ hne _ _ => simpa using hne
  | itself _ => simp

namespace Declarations

variable {fs fs' : Access Id} {path : String} {paths : List String}

/-! ## Sets put together -/

theorem foldl_merge (d : Declarations) (ds : List Declarations) :
    ds.foldl merge d = { d with nodes := d.nodes ++ ds.flatMap nodes } := by
  induction ds generalizing d with
  | nil => simp
  | cons e rest ih =>
    rw [List.foldl_cons, ih]
    simp [merge]

/-- **Sets may be put together in groups**: what comes of a list does not depend on where it is split,
and version and name are the first set's. -/
theorem mergeAll_append (ds es : List Declarations) :
    mergeAll (ds ++ es) = Option.merge merge (mergeAll ds) (mergeAll es) := by
  cases ds with
  | nil => simp [mergeAll]
  | cons d ds =>
    cases es with
    | nil => simp [mergeAll]
    | cons e es => simp [mergeAll, foldl_merge, merge]

/-! ## Collecting -/

section

variable {read read' : String → ExceptT LoadError Id Declarations}

theorem collect_congr (h : ∀ path ∈ paths, read path = read' path) :
    collect read paths = collect read' paths := by
  induction paths with
  | nil => rfl
  | cons path rest ih =>
    rw [List.forall_mem_cons] at h
    rw [collect, collect, h.1, ih h.2]

theorem outcome_collect_cons (read : String → ExceptT LoadError Id Declarations) (path : String)
    (rest : List String) :
    outcome (collect read (path :: rest)) =
      (outcome (read path)).bind fun d => (outcome (collect read rest)).map (d :: ·) := by
  rw [collect, outcome_bind]
  cases outcome (read path) with
  | error e => rfl
  | ok d =>
    simp only [Except.bind, outcome_bind]
    cases outcome (collect read rest) <;> rfl

theorem outcome_collect_append (read : String → ExceptT LoadError Id Declarations)
    (first second : List String) :
    outcome (collect read (first ++ second)) =
      (outcome (collect read first)).bind fun ds =>
        (outcome (collect read second)).map (ds ++ ·) := by
  induction first with
  | nil =>
    change outcome (collect read second) = (outcome (collect read second)).map _
    cases outcome (collect read second) <;> rfl
  | cons path rest ih =>
    rw [List.cons_append, outcome_collect_cons, outcome_collect_cons, ih]
    cases outcome (read path) with
    | error e => rfl
    | ok d =>
      cases outcome (collect read rest) with
      | error e => rfl
      | ok ds => cases outcome (collect read second) <;> rfl

/-- Collecting succeeds only where every place can be read. -/
theorem forall₂_of_outcome_collect {ds : List Declarations}
    (h : outcome (collect read paths) = .ok ds) :
    List.Forall₂ (fun path d => outcome (read path) = .ok d) paths ds := by
  induction paths generalizing ds with
  | nil =>
    cases h
    exact .nil
  | cons path rest ih =>
    obtain ⟨d, hpath, h⟩ := outcome_bind_eq_ok_iff.1 h
    obtain ⟨ds, hrest, h⟩ := outcome_bind_eq_ok_iff.1 h
    cases h
    exact .cons hpath (ih hrest)

theorem exists_cons_of_outcome_collect (hne : paths ≠ []) {ds : List Declarations}
    (h : outcome (collect read paths) = .ok ds) : ∃ d rest, ds = d :: rest := by
  have hlength := (forall₂_of_outcome_collect h).length_eq
  refine List.exists_cons_of_ne_nil fun hnil => hne ?_
  rwa [hnil, List.length_nil, List.length_eq_zero_iff] at hlength

/-- Collecting fails at the first place that cannot be read, and as that place does. -/
theorem exists_of_outcome_collect_eq_error {e : LoadError}
    (h : outcome (collect read paths) = .error e) :
    ∃ before path after, paths = before ++ path :: after ∧
      (∀ p ∈ before, ∃ d, outcome (read p) = .ok d) ∧ outcome (read path) = .error e := by
  induction paths with
  | nil => cases h
  | cons path rest ih =>
    rcases outcome_bind_eq_error_iff.1 h with hpath | ⟨d, hpath, h⟩
    · exact ⟨[], path, rest, rfl, by simp, hpath⟩
    · rcases outcome_bind_eq_error_iff.1 h with hrest | ⟨ds, -, h⟩
      · obtain ⟨before, p, after, rfl, hbefore, hp⟩ := ih hrest
        exact ⟨path :: before, p, after, rfl, List.forall_mem_cons.2 ⟨⟨d, hpath⟩, hbefore⟩, hp⟩
      · cases h

end

/-! ## What the parts of loading come to -/

/-- One set, or why there is none. -/
def required (why : LoadError) : Option Declarations → Except LoadError Declarations
  | some d => .ok d
  | none => .error why

/-- What is collected is put together. -/
theorem outcome_collect_bind (read : String → ExceptT LoadError Id Declarations)
    (paths : List String) (why : LoadError) :
    outcome (do
      let all ← collect read paths
      match mergeAll all with
      | some d => pure d
      | none => throw why) = ((outcome (collect read paths)).map mergeAll).bind (required why) := by
  rw [outcome_bind]
  cases outcome (collect read paths) with
  | error e => rfl
  | ok ds =>
    simp only [Except.bind, Except.map]
    cases mergeAll ds <;> rfl

theorem outcome_known (fs : Access Id) (path : String) (names : List String) :
    outcome (known fs path names) = .ok (names.filter (fs.holds path)) := by
  induction names with
  | nil => rfl
  | cons name rest ih =>
    rw [known, outcome_bind, outcome_ask]
    simp only [Except.bind]
    rw [outcome_bind, ih]
    simp only [Except.bind]
    by_cases h : fs.holds path name = true
    · rw [List.filter_cons_of_pos h, if_pos (by simpa [Access.holds] using h), outcome_pure]
    · rw [List.filter_cons_of_neg h, if_neg (by simpa [Access.holds] using h), outcome_pure]

theorem outcome_filesIn (fs : Access Id) (path : String) :
    outcome (filesIn fs path) =
      match (fs.names path).run with
      | .error why => .error (.file why)
      | .ok listed =>
        .ok (((listed.filter (fs.holds path)).mergeSort fun a b => !decide (b < a)).map
          (Path.join path)) := by
  have hnames : outcome (namesIn fs path) = (fs.names path).run.mapError LoadError.file := by
    simp only [outcome, namesIn, ExceptT.run_mk, Id.run_bind]
    cases (fs.names path).run <;> rfl
  rw [filesIn, outcome_bind, hnames]
  cases (fs.names path).run with
  | error why => rfl
  | ok listed =>
    simp only [Except.mapError, Except.bind, outcome_bind, outcome_known, outcome_pure]

theorem outcome_ofDirectory (fs : Access Id) (path : String) :
    outcome (ofDirectory fs path) =
      (outcome (filesIn fs path)).bind fun files =>
        ((outcome (collect (ofFile fs) files)).map mergeAll).bind (required (.nothingIn path)) := by
  rw [ofDirectory, outcome_bind]
  congr 1
  funext files
  exact outcome_collect_bind (ofFile fs) files (.nothingIn path)

theorem outcome_ofPlace (fs : Access Id) (path : String) :
    outcome (ofPlace fs path) =
      if (fs.entry? path).run = some .directory then outcome (ofDirectory fs path)
      else outcome (ofFile fs path) := by
  rw [ofPlace, outcome_bind, outcome_ask]
  simp only [Except.bind]
  split <;> rfl

/-- What all places come to together, up to the first failure. -/
def gathered (fs : Access Id) (paths : List String) : Except LoadError (Option Declarations) :=
  (outcome (collect (ofPlace fs) paths)).map mergeAll

theorem outcome_ofPlaces (fs : Access Id) (paths : List String) :
    outcome (ofPlaces fs paths) = (gathered fs paths).bind (required .noSources) :=
  outcome_collect_bind (ofPlace fs) paths .noSources

theorem gathered_append (fs : Access Id) (first second : List String) :
    gathered fs (first ++ second) =
      (gathered fs first).bind fun d => (gathered fs second).map (Option.merge merge d) := by
  rw [gathered, gathered, gathered, outcome_collect_append]
  cases outcome (collect (ofPlace fs) first) with
  | error e => rfl
  | ok ds =>
    cases outcome (collect (ofPlace fs) second) with
    | error e => rfl
    | ok es => exact congrArg Except.ok (mergeAll_append ds es)

theorem gathered_singleton (fs : Access Id) (path : String) :
    gathered fs [path] = (outcome (ofPlace fs path)).map some := by
  rw [gathered, outcome_collect_cons]
  cases outcome (ofPlace fs path) <;> rfl

/-- Something is loaded from places where each can be read and there is at least one. -/
theorem outcome_ofPlaces_eq_ok_iff {d : Declarations} :
    outcome (ofPlaces fs paths) = .ok d ↔
      ∃ ds, outcome (collect (ofPlace fs) paths) = .ok ds ∧ mergeAll ds = some d := by
  rw [ofPlaces, outcome_bind_eq_ok_iff]
  refine exists_congr fun ds => and_congr_right fun _ => ?_
  cases mergeAll ds <;> simp

/-- Where there are places, what fails is one of them. -/
theorem outcome_collect_of_ofPlaces_eq_error (hne : paths ≠ []) {e : LoadError}
    (h : outcome (ofPlaces fs paths) = .error e) :
    outcome (collect (ofPlace fs) paths) = .error e := by
  rcases outcome_bind_eq_error_iff.1 h with hall | ⟨ds, hall, h⟩
  · exact hall
  · obtain ⟨d, rest, rfl⟩ := exists_cons_of_outcome_collect hne hall
    cases h

/-! ## One loop for two -/

/-- A file of a known format in a directory is a place of its own. -/
theorem ofPlace_of_holds {name : String} (h : fs.holds path name = true) :
    ofPlace fs (Path.join path name) = ofFile fs (Path.join path name) := by
  have hentry : (fs.entry? (Path.join path name)).run = some .file := by
    simpa using (Bool.and_eq_true_iff.1 h).1
  have hplace := outcome_ofPlace fs (Path.join path name)
  rw [hentry, if_neg (by simp)] at hplace
  exact hplace

/-- A directory comes to what its files do. -/
theorem gathered_of_standsFor {files : List String} (h : fs.StandsFor path files) :
    gathered fs files = gathered fs [path] := by
  cases h with
  | itself => rfl
  | @files listed names hlists hne hperm hup =>
    have hfiles : ∀ file ∈ names.map (Path.join path), ofPlace fs file = ofFile fs file := by
      intro file hfile
      obtain ⟨name, hname, rfl⟩ := List.mem_map.1 hfile
      exact ofPlace_of_holds (List.mem_filter.1 (hperm.mem_iff.1 hname)).2
    have hlist : outcome (filesIn fs path) = .ok (names.map (Path.join path)) := by
      rw [outcome_filesIn, hlists.listed]
      simp only [mergeSort_eq_of_perm hperm hup]
    rw [gathered_singleton, outcome_ofPlace, if_pos hlists.isDirectory, outcome_ofDirectory, hlist,
      gathered, collect_congr hfiles]
    simp only [Except.bind]
    cases hall : outcome (collect (ofFile fs) (names.map (Path.join path))) with
    | error e => rfl
    | ok ds =>
      obtain ⟨d, rest, rfl⟩ := exists_cons_of_outcome_collect (by simpa using hne) hall
      rfl

/-- Places come to what all that they stand for comes to. -/
theorem gathered_flatten {parts : List (List String)} (h : List.Forall₂ fs.StandsFor paths parts) :
    gathered fs parts.flatten = gathered fs paths := by
  induction h with
  | nil => rfl
  | @cons path files rest parts hpath _ ih =>
    have hsplit : path :: rest = [path] ++ rest := rfl
    rw [List.flatten_cons, gathered_append, gathered_of_standsFor hpath, ih, hsplit,
      gathered_append]

theorem outcome_ofPlaces_flatten {parts : List (List String)}
    (h : List.Forall₂ fs.StandsFor paths parts) :
    outcome (ofPlaces fs parts.flatten) = outcome (ofPlaces fs paths) := by
  rw [outcome_ofPlaces, outcome_ofPlaces, gathered_flatten h]

/-- What is loaded where a place stands for something is loaded from a file. -/
theorem ofFile_of_standsFor {files : List String} (h : fs.StandsFor path files) {place : String}
    (hplace : place ∈ files) {d : Declarations} (hload : outcome (ofPlace fs place) = .ok d) :
    outcome (ofFile fs place) = .ok d := by
  cases h with
  | @files listed names _ _ hperm _ =>
    obtain ⟨name, hname, rfl⟩ := List.mem_map.1 hplace
    rwa [ofPlace_of_holds (List.mem_filter.1 (hperm.mem_iff.1 hname)).2] at hload
  | itself hnone =>
    obtain rfl := List.mem_singleton.1 hplace
    rw [outcome_ofPlace] at hload
    split at hload
    · -- a directory that stands for itself cannot be listed or holds nothing to load
      next hdirectory =>
        rw [outcome_ofDirectory, outcome_filesIn] at hload
        cases hlisted : (fs.names place).run with
        | error why =>
          rw [hlisted] at hload
          cases hload
        | ok listed =>
          have hempty : listed.filter (fs.holds place) = [] := List.filter_eq_nil_iff.2
            fun name hname hholds => hnone ⟨listed, ⟨hdirectory, hlisted⟩, name, hname, hholds⟩
          rw [hlisted] at hload
          simp only [hempty, List.mergeSort_nil, List.map_nil] at hload
          cases hload
    · exact hload

theorem ofFile_of_mem_flatten {parts : List (List String)}
    (h : List.Forall₂ fs.StandsFor paths parts) {place : String} (hplace : place ∈ parts.flatten)
    (d : Declarations) (hload : outcome (ofPlace fs place) = .ok d) :
    outcome (ofFile fs place) = .ok d := by
  induction h with
  | nil => cases hplace
  | cons hpath _ ih =>
    rcases List.mem_append.1 hplace with hfiles | hrest
    · exact ofFile_of_standsFor hpath hfiles hload
    · exact ih hrest

/-! ## Any order of listing -/

theorem ofFile_eq_of_same (h : fs.SameButOrder fs') (path : String) :
    ofFile fs path = ofFile fs' path := by
  simp only [ofFile, readContent, h.fetch]

theorem ofPlace_eq_of_same (h : fs.SameButOrder fs') (path : String) :
    ofPlace fs path = ofPlace fs' path := by
  have hholds : fs.holds path = fs'.holds path := by
    funext name
    rw [Access.holds, Access.holds, h.entry?]
  have hfiles : outcome (filesIn fs path) = outcome (filesIn fs' path) := by
    rw [outcome_filesIn, outcome_filesIn, hholds]
    rcases h.names path with ⟨why, hwhy, hwhy'⟩ | ⟨listed, listed', hlisted, hlisted', hperm⟩
    · rw [hwhy, hwhy']
    · rw [hlisted, hlisted']
      have hsorted := mergeSort_eq_of_perm
        ((List.mergeSort_perm _ _).trans (hperm.symm.filter (fs'.holds path)))
        (pairwise_mergeSort_names (listed'.filter (fs'.holds path)))
      simp only [hsorted]
  have hplace : outcome (ofPlace fs path) = outcome (ofPlace fs' path) := by
    have hfile : ofFile fs = ofFile fs' := funext (ofFile_eq_of_same h)
    rw [outcome_ofPlace, outcome_ofPlace, outcome_ofDirectory, outcome_ofDirectory, hfiles, hfile,
      h.entry?]
  exact hplace

/-! ## Snapshots -/

section

variable {s : Snapshot}

theorem asks_ofFile (path : String) :
    s.Asks (ofFile Snapshot.access path) (ofFile s.atRest path) := by
  unfold ofFile
  cases Format.ofPath? path with
  | none => exact Snapshot.asks_throw _
  | some format => exact Snapshot.asks_readContent format _ path

theorem asks_known (path : String) (names : List String) :
    s.Asks (known Snapshot.access path names) (known s.atRest path names) := by
  induction names with
  | nil => exact Snapshot.asks_pure _
  | cons name rest ih =>
    refine (Snapshot.asks_entry _).bind fun entry => ih.bind fun others => ?_
    split
    · exact Snapshot.asks_pure _
    · exact Snapshot.asks_pure _

theorem asks_filesIn (path : String) :
    s.Asks (filesIn Snapshot.access path) (filesIn s.atRest path) := by
  have hnames : s.Asks (namesIn Snapshot.access path) (namesIn s.atRest path) := by
    simp only [Snapshot.Asks, Snapshot.perform, outcome, namesIn, ExceptT.run_mk, Id.run_bind,
      StateT.run_bind, Snapshot.access, Snapshot.atRest, StateT.run_get, pure_bind, StateT.run_pure]
    cases s.names path <;> rfl
  exact hnames.bind fun names => (asks_known path names).bind fun _ => Snapshot.asks_pure _

theorem asks_collect {read : String → ExceptT LoadError (StateM Snapshot) Declarations}
    {read' : String → ExceptT LoadError Id Declarations} (h : ∀ path, s.Asks (read path) (read' path))
    (paths : List String) : s.Asks (collect read paths) (collect read' paths) := by
  induction paths with
  | nil => exact Snapshot.asks_pure _
  | cons path rest ih => exact (h path).bind fun _ => ih.bind fun _ => Snapshot.asks_pure _

theorem asks_collect_bind {read : String → ExceptT LoadError (StateM Snapshot) Declarations}
    {read' : String → ExceptT LoadError Id Declarations} (h : ∀ path, s.Asks (read path) (read' path))
    (paths : List String) (why : LoadError) :
    s.Asks
      (do
        let all ← collect read paths
        match mergeAll all with
        | some d => pure d
        | none => throw why)
      (do
        let all ← collect read' paths
        match mergeAll all with
        | some d => pure d
        | none => throw why) := by
  refine (asks_collect h paths).bind fun ds => ?_
  cases mergeAll ds with
  | none => exact Snapshot.asks_throw _
  | some d => exact Snapshot.asks_pure d

theorem asks_ofPlace (path : String) :
    s.Asks (ofPlace Snapshot.access path) (ofPlace s.atRest path) := by
  refine (Snapshot.asks_entry path).bind fun entry => ?_
  split
  · exact (asks_filesIn path).bind fun files => asks_collect_bind asks_ofFile files _
  · exact asks_ofFile path

/-- **Loading only asks**: from a snapshot it comes to what it does on the answers of the snapshot, which
stays as it was. -/
theorem asks_ofPlaces (paths : List String) :
    s.Asks (ofPlaces Snapshot.access paths) (ofPlaces s.atRest paths) :=
  asks_collect_bind asks_ofPlace paths .noSources

end

/-! ## Loading from places -/

/-- What is put together is what the sets declare, with version and name of the first. -/
theorem exists_of_mergeAll {ds : List Declarations} {d : Declarations} (h : mergeAll ds = some d) :
    ∃ first rest, ds = first :: rest ∧ d.version = first.version ∧ d.name = first.name ∧
      d.nodes = ds.flatMap nodes := by
  cases ds with
  | nil => cases h
  | cons first rest =>
    rw [mergeAll, foldl_merge] at h
    cases h
    exact ⟨first, rest, rfl, rfl, rfl, by simp⟩

/-- Whatever is loaded is put together from files. -/
theorem exists_of_outcome_ofPlaces {parts : List (List String)}
    (hparts : List.Forall₂ fs.StandsFor paths parts) {d : Declarations}
    (h : outcome (ofPlaces fs paths) = .ok d) :
    ∃ ds, List.Forall₂ (fun file e => outcome (ofFile fs file) = .ok e) parts.flatten ds ∧
      mergeAll ds = some d := by
  rw [← outcome_ofPlaces_flatten hparts] at h
  obtain ⟨ds, hcollect, hmerge⟩ := outcome_ofPlaces_eq_ok_iff.1 h
  have hload := (List.forall₂_and_left _ _).2
    ⟨fun place hplace => ofFile_of_mem_flatten hparts hplace, forall₂_of_outcome_collect hcollect⟩
  exact ⟨ds, hload.imp fun place e he => he.1 e he.2, hmerge⟩

theorem exists_forall₂_standsFor (fs : Access Id) (paths : List String) :
    ∃ parts, List.Forall₂ fs.StandsFor paths parts := by
  choose files hfiles using fs.exists_standsFor
  exact ⟨paths.map files, List.forall₂_map_right_iff.2 (List.forall₂_same.2 fun p _ => hfiles p)⟩

/-- **Loading does not depend on how its sources are split.**  Loading from a snapshot comes to what it
does on a file system at rest that answers like it.  There every place stands for something, a directory
with files of a known format for these in the order of their names, and from places is loaded what is
loaded from all that they stand for, in whatever order directories are listed.  What is loaded declares
what the files declare, in that order, under version and name of the first; otherwise the first of them
fails that cannot be loaded. -/
theorem ofPlaces_spread (hsame : fs.SameButOrder fs') (hne : paths ≠ []) :
    (∀ s : Snapshot, s.perform (ofPlaces Snapshot.access paths) =
        (outcome (ofPlaces s.atRest paths), s)) ∧
    (∃ parts, List.Forall₂ fs.StandsFor paths parts) ∧
      ∀ parts, List.Forall₂ fs.StandsFor paths parts →
        outcome (ofPlaces fs' paths) = outcome (ofPlaces fs parts.flatten) ∧
          (∀ d, outcome (ofPlaces fs' paths) = .ok d →
            ∃ first rest,
              List.Forall₂ (fun file d => outcome (ofFile fs file) = .ok d) parts.flatten
                (first :: rest) ∧
              d.version = first.version ∧ d.name = first.name ∧
                d.nodes = (first :: rest).flatMap nodes) ∧
          ∀ e, outcome (ofPlaces fs' paths) = .error e →
            ∃ before place after, parts.flatten = before ++ place :: after ∧
              (∀ file ∈ before, ∃ d, outcome (ofFile fs file) = .ok d) ∧
                outcome (ofPlace fs place) = .error e := by
  refine ⟨fun s => asks_ofPlaces paths, exists_forall₂_standsFor fs paths, fun parts hparts => ?_⟩
  have hplaces : outcome (ofPlaces fs' paths) = outcome (ofPlaces fs paths) := by
    rw [ofPlaces, ofPlaces, collect_congr fun path _ => ofPlace_eq_of_same hsame path]
  have hsplit := outcome_ofPlaces_flatten hparts
  rw [hplaces]
  refine ⟨hsplit.symm, fun d hd => ?_, fun e he => ?_⟩
  · obtain ⟨ds, hload, hmerge⟩ := exists_of_outcome_ofPlaces hparts hd
    obtain ⟨first, rest, rfl, hversion, hname, hnodes⟩ := exists_of_mergeAll hmerge
    exact ⟨first, rest, hload, hversion, hname, hnodes⟩
  · have hparts' : parts.flatten ≠ [] := by
      cases hparts with
      | nil => exact absurd rfl hne
      | cons hpath _ => exact List.append_ne_nil_of_left_ne_nil hpath.ne_nil _
    rw [← hsplit] at he
    have hcollect := outcome_collect_of_ofPlaces_eq_error hparts' he
    obtain ⟨before, place, after, hflatten, hbefore, hplace⟩ :=
      exists_of_outcome_collect_eq_error hcollect
    refine ⟨before, place, after, hflatten, fun file hfile => ?_, hplace⟩
    obtain ⟨d, hd⟩ := hbefore file hfile
    have hmem : file ∈ parts.flatten := by
      rw [hflatten]
      exact List.mem_append_left _ hfile
    exact ⟨d, ofFile_of_mem_flatten hparts hmem d hd⟩

/-- A snapshot with a file, and a directory with two files of a known format and one of another. -/
def shelf : Snapshot :=
  (((Snapshot.empty.withFile "d/b.yml" "version: \"2\"\nnodes:\n- kind: B\n".toUTF8).withFile
    "d/notes.txt" "B after A".toUTF8).withFile
    "d/a.yaml" "version: \"1\"\nnodes:\n- kind: A\n".toUTF8).withFile
    "x.yml" "version: \"3\"\nname: x\nnodes:\n- kind: X\n".toUTF8

/-- A file system with every directory listed the other way round. -/
def relisted (fs : Access Id) : Access Id :=
  { fs with names := fun path => (fs.names path).run.map List.reverse }

theorem sameButOrder_relisted (fs : Access Id) : fs.SameButOrder (relisted fs) where
  entry? _ := rfl
  fetch _ := rfl
  names path := by
    have hrelisted : ((relisted fs).names path).run = (fs.names path).run.map List.reverse := rfl
    rw [hrelisted]
    cases (fs.names path).run with
    | error why => exact Or.inl ⟨why, rfl, rfl⟩
    | ok listed => exact Or.inr ⟨listed, listed.reverse, rfl, rfl, (List.reverse_perm listed).symm⟩

/-- The directory stands for its two files in the order of their names, whichever way it is listed. -/
theorem ofPlaces_spread_shelf :
    shelf.atRest.StandsFor "d" ["d/a.yaml", "d/b.yml"] ∧
      ((relisted shelf.atRest).names "d").run = .ok ["a.yaml", "notes.txt", "b.yml"] ∧
      outcome (ofPlaces (relisted shelf.atRest) ["d", "x.yml"]) =
        .ok ⟨"1", none, [⟨"A", none, none, []⟩, ⟨"B", none, none, []⟩, ⟨"X", none, none, []⟩]⟩ := by
  have directory : shelf.atRest.Lists "d" ["b.yml", "notes.txt", "a.yaml"] :=
    ⟨by decide +kernel, by decide +kernel⟩
  have files : shelf.atRest.StandsFor "d" (["a.yaml", "b.yml"].map (Path.join "d")) :=
    .files directory (by simp) (by decide +kernel) (by decide +kernel)
  have file : shelf.atRest.StandsFor "x.yml" ["x.yml"] := by
    refine .itself fun ⟨listed, hlists, _⟩ => ?_
    have hentry : (shelf.atRest.entry? "x.yml").run = some .file := by decide +kernel
    cases hentry.symm.trans hlists.isDirectory
  obtain ⟨-, -, hspread⟩ :=
    ofPlaces_spread (sameButOrder_relisted shelf.atRest) (List.cons_ne_nil "d" ["x.yml"])
  obtain ⟨hsplit, -, -⟩ := hspread _ (.cons files (.cons file .nil))
  refine ⟨files, by decide +kernel, hsplit.trans ?_⟩
  decide +kernel

end Declarations

end TreeSchema
