/-
# TreeSchema.Proofs.Files.Snapshot — what replacing a file does to a snapshot.

Which places a path leads to depends on the directories alone.  So a file that could be opened can be
replaced, and the same path opens what replaced it.
-/
import Mathlib.Data.List.Basic
import TreeSchema.Files.Content
import TreeSchema.Files.Snapshot

namespace TreeSchema.Files.Snapshot

variable {s : Snapshot} {here found place : Location} {content : ByteArray} {name path : String}

/-! ## One file put -/

@[simp] theorem hasDirectory_put :
    (s.put place content).hasDirectory here = s.hasDirectory here := rfl

/-- The file that was put is the one that is found. -/
@[simp] theorem file?_put_self : (s.put place content).file? place = some content := by
  have hgone : (s.files.filter fun f => f.1 != place).lookup place = none := by
    rw [List.lookup_eq_none_iff]
    intro f hf
    have hne : f.1 ≠ place := by simpa using (List.mem_filter.mp hf).2
    simpa using hne.symm
  simp [put, file?, List.lookup_append, hgone]

/-! ## Ways through the directories -/

/-- Whether a step succeeds, and where it leads, is up to the directories. -/
theorem descend_put (h : s.descend here name = .ok found) :
    (s.put place content).descend here name = .ok found := by
  unfold descend at h ⊢
  rw [hasDirectory_put]
  split at h
  · next hdir => rwa [if_pos hdir]
  · split at h <;> cases h

/-- Steps one after the other. -/
theorem walk_append (first second : List String) :
    s.walk here (first ++ second) = (s.walk here first).bind (s.walk · second) := by
  induction first generalizing here with
  | nil => rfl
  | cons name rest ih =>
    simp only [List.cons_append, walk]
    cases s.descend here name with
    | error e => rfl
    | ok next => exact ih

/-- A way that exists does so whatever files there are. -/
theorem walk_put {steps : List String} (h : s.walk here steps = .ok found) :
    (s.put place content).walk here steps = .ok found := by
  induction steps generalizing here with
  | nil => exact h
  | cons name rest ih =>
    simp only [walk] at h ⊢
    cases hstep : s.descend here name with
    | error e => simp [hstep] at h
    | ok next =>
      rw [hstep] at h
      rw [descend_put hstep]
      exact ih h

/-! ## Routes -/

/-- Whatever is not a slash belongs to a piece. -/
theorem exists_piece_ne_nil {cs : List Char} {c : Char} (hc : c ∈ cs) (hslash : c ≠ '/') :
    ∃ p ∈ Path.pieces cs, p ≠ [] := by
  induction cs with
  | nil => cases hc
  | cons d cs ih =>
    unfold Path.pieces
    split
    · next hd =>
      obtain ⟨p, hp, hne⟩ := ih ((List.mem_cons.mp hc).resolve_left fun h => hslash (h.trans hd))
      exact ⟨p, List.mem_cons_of_mem _ hp, hne⟩
    · split
      · exact ⟨_, List.mem_cons_self, by simp⟩
      · exact ⟨_, List.mem_cons_self, by simp⟩

/-- A route that no slash ends has a last name. -/
theorem route_steps_ne_nil {r : Route} (h : route path = .ok r) (hopen : r.closed = false) :
    r.steps ≠ [] := by
  unfold route at h
  split at h
  · cases h
  · split at h
    · cases h
    · next hempty =>
      split at h
      · cases h
      · cases h
        have hnil : path.toList ≠ [] := by simpa using hempty
        obtain ⟨c, hc⟩ : ∃ c, path.toList.getLast? = some c :=
          ⟨_, List.getLast?_eq_some_getLast hnil⟩
        have hslash : c ≠ '/' := by
          rintro rfl
          simp [hc] at hopen
        obtain ⟨p, hp, hne⟩ := exists_piece_ne_nil (List.mem_of_getLast? hc) hslash
        have hmem : p ∈ (Path.pieces path.toList).filter fun p => !p.isEmpty :=
          List.mem_filter.mpr ⟨hp, by simpa using hne⟩
        exact List.ne_nil_of_mem (List.mem_map_of_mem hmem)

/-! ## Files opened and replaced -/

/-- What opening a file comes to: a route that no slash ends and a file at its end. -/
theorem fetch_eq_file_iff :
    s.fetch path = .ok (.file content) ↔
      ∃ r found, route path = .ok r ∧ s.walk r.start r.steps = .ok found ∧ r.closed = false ∧
        s.hasDirectory found = false ∧ s.file? found = some content := by
  unfold fetch locate
  cases route path with
  | error e => simp [bind, Except.bind]
  | ok r =>
    cases hwalk : s.walk r.start r.steps with
    | error e => simp [bind, Except.bind, hwalk]
    | ok found =>
      cases hclosed : r.closed <;> cases hfile : s.file? found <;>
        cases hdir : s.hasDirectory found <;>
          simp [bind, Except.bind, hwalk, hclosed, hfile, hdir]

/-- **A file that opens can be replaced**, and then the same path opens what replaced it. -/
theorem store_fetch {new : ByteArray} (h : s.fetch path = .ok (.file content)) :
    ∃ s', s.store path new = .ok s' ∧ s'.fetch path = .ok (.file new) := by
  obtain ⟨r, found, hroute, hwalk, hopen, hdir, -⟩ := fetch_eq_file_iff.mp h
  obtain ⟨init, name, hsteps⟩ :=
    (List.eq_nil_or_concat r.steps).resolve_left (route_steps_ne_nil hroute hopen)
  rw [List.concat_eq_append] at hsteps
  refine ⟨s.put found new, ?_, fetch_eq_file_iff.mpr
    ⟨r, found, hroute, walk_put hwalk, hopen, by simpa using hdir, by simp⟩⟩
  -- Opening walks to the file; storing walks to what holds it and takes the last step by itself.
  rw [hsteps, walk_append] at hwalk
  cases hinit : s.walk r.start init with
  | error e => simp [hinit, Except.bind] at hwalk
  | ok outer =>
    have hlast : s.descend outer name = .ok found := by
      simp only [hinit, Except.bind, walk] at hwalk
      cases hstep : s.descend outer name with
      | error e => simp [hstep] at hwalk
      | ok next => simpa [hstep] using hwalk
    simp [store, hroute, hsteps, hinit, hlast, hopen, hdir, bind, Except.bind]

/-- What storing a file comes to: a route that no slash ends, a directory that its last name is in, and
no directory of that name. -/
theorem exists_of_store {s' : Snapshot} (h : s.store path content = .ok s') :
    ∃ r init name outer found, route path = .ok r ∧ r.steps = init ++ [name] ∧
      s.walk r.start init = .ok outer ∧ s.descend outer name = .ok found ∧ r.closed = false ∧
        s.hasDirectory found = false ∧ s' = s.put found content := by
  unfold store at h
  cases hroute : route path with
  | error e => simp [bind, Except.bind, hroute] at h
  | ok r =>
    rcases List.eq_nil_or_concat r.steps with hnil | ⟨init, name, hsteps⟩
    · simp [bind, Except.bind, hroute, hnil, walk] at h
    · rw [List.concat_eq_append] at hsteps
      cases hinit : s.walk r.start init with
      | error e => simp [bind, Except.bind, hroute, hsteps, hinit] at h
      | ok outer =>
        cases hlast : s.descend outer name with
        | error e => simp [bind, Except.bind, hroute, hsteps, hinit, hlast] at h
        | ok found =>
          simp only [bind, Except.bind, hroute, hsteps, List.dropLast_concat,
            List.getLast?_concat, hinit, hlast] at h
          split at h
          · cases h
          · next hfree =>
            obtain ⟨hopen, hdir⟩ : r.closed = false ∧ s.hasDirectory found = false := by
              simpa using hfree
            exact ⟨r, init, name, outer, found, rfl, hsteps, hinit, hlast, hopen, hdir,
              (Except.ok.inj h).symm⟩

/-- **A file that could be stored opens**, and holds what was stored. -/
theorem fetch_of_store {s' : Snapshot} (h : s.store path content = .ok s') :
    s'.fetch path = .ok (.file content) := by
  obtain ⟨r, init, name, outer, found, hroute, hsteps, hinit, hlast, hopen, hdir, rfl⟩ :=
    exists_of_store h
  refine fetch_eq_file_iff.2 ⟨r, found, hroute, walk_put ?_, hopen, by simpa using hdir, by simp⟩
  rw [hsteps, walk_append, hinit]
  simp [Except.bind, walk, hlast]

/-! ## As a file system -/

variable {α β ε : Type}

/-- What comes of work on a snapshot, and the snapshot after it. -/
def perform (s : Snapshot) (work : ExceptT ε (StateM Snapshot) α) : Except ε α × Snapshot :=
  (work.run.run s).run

@[simp] theorem perform_pure (a : α) :
    s.perform (pure a : ExceptT ε (StateM Snapshot) α) = (.ok a, s) := rfl

/-- Work that is followed by other work. -/
theorem perform_bind (work : ExceptT ε (StateM Snapshot) α)
    (next : α → ExceptT ε (StateM Snapshot) β) :
    s.perform (work >>= next) =
      match s.perform work with
      | (.ok a, s') => s'.perform (next a)
      | (.error e, s') => (.error e, s') := by
  change Id.run ((ExceptT.bindCont next (s.perform work).1) (s.perform work).2) = _
  cases s.perform work with
  | mk result s' => cases result <;> rfl

/-- Reading a file opens it, reads what is in it and changes nothing. -/
theorem perform_readContent (format : Format) (read : Readable α) :
    s.perform (readContent access format read path) =
      (match s.fetch path with
        | .error why => .error (.file why)
        | .ok .directory => .error (.interrupted format .isDirectory)
        | .ok (.file content) => (format.readBytes read content).mapError (.unreadable format),
      s) := by
  unfold perform readContent
  simp only [ExceptT.run_mk, StateT.run_bind, access, StateT.run_get, pure_bind, StateT.run_pure]
  cases s.fetch path with
  | error why => rfl
  | ok opened =>
    cases opened with
    | directory => rfl
    | file content =>
      dsimp only
      cases format.readBytes read content <;> rfl

/-- Reading a file succeeds where one can be opened and its content can be read. -/
theorem perform_readContent_eq_ok_iff {format : Format} {read : Readable α} {a : α}
    {s' : Snapshot} :
    s.perform (readContent access format read path) = (.ok a, s') ↔
      s' = s ∧ ∃ content, s.fetch path = .ok (.file content) ∧
        format.readBytes read content = .ok a := by
  rw [perform_readContent]
  cases s.fetch path with
  | error why => simp
  | ok opened =>
    cases opened with
    | directory => simp
    | file content =>
      cases hread : format.readBytes read content <;>
        simp [hread, Except.mapError, and_comm, eq_comm]

/-- Writing a file where one can be stored stores what is written. -/
theorem perform_writeContent {format : Format} {d : Document} {s' : Snapshot}
    (h : s.store path (format.write d).toUTF8 = .ok s') :
    s.perform (writeContent access format d path) = (.ok (), s') := by
  unfold perform writeContent
  simp only [ExceptT.run_mk, StateT.run_bind, access, StateT.run_get, pure_bind, h]
  rfl

/-- Writing a file succeeds only where one can be stored. -/
theorem store_of_perform_writeContent {format : Format} {d : Document} {s' : Snapshot}
    (h : s.perform (writeContent access format d path) = (.ok (), s')) :
    s.store path (format.write d).toUTF8 = .ok s' := by
  unfold perform writeContent at h
  simp only [ExceptT.run_mk, StateT.run_bind, access, StateT.run_get, pure_bind] at h
  cases hstore : s.store path (format.write d).toUTF8 with
  | error why =>
    rw [hstore] at h
    cases h
  | ok stored =>
    rw [hstore] at h
    cases h
    rfl

end TreeSchema.Files.Snapshot
