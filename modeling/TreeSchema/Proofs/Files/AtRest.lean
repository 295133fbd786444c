/-
# TreeSchema.Proofs.Files.AtRest — file systems that stay as they are.

Where asking has no effects, the same question has the same answer each time: such a file system is at
rest, and work on it comes to one outcome.  A snapshot is at rest for as long as nothing is stored in
it, so work that only asks comes to the same on the snapshot as on its answers, and leaves it as it was.
-/
import TreeSchema.Proofs.Files.Snapshot

namespace TreeSchema.Files

variable {α β ε : Type}

/-! ## Outcomes -/

/-- What comes of work on a file system at rest. -/
def outcome (work : ExceptT ε Id α) : Except ε α := work.run.run

@[simp] theorem outcome_pure (a : α) : outcome (pure a : ExceptT ε Id α) = .ok a := rfl

@[simp] theorem outcome_throw (e : ε) : outcome (throw e : ExceptT ε Id α) = .error e := rfl

@[simp] theorem outcome_ask (answer : Id α) :
    outcome (ask answer : ExceptT ε Id α) = .ok answer.run := rfl

/-- Work that is followed by other work. -/
theorem outcome_bind (work : ExceptT ε Id α) (next : α → ExceptT ε Id β) :
    outcome (work >>= next) = (outcome work).bind fun a => outcome (next a) := by
  change (ExceptT.bindCont next (outcome work)).run = _
  cases outcome work <;> rfl

theorem outcome_bind_eq_ok_iff {work : ExceptT ε Id α} {next : α → ExceptT ε Id β} {b : β} :
    outcome (work >>= next) = .ok b ↔ ∃ a, outcome work = .ok a ∧ outcome (next a) = .ok b := by
  rw [outcome_bind]
  cases outcome work <;> simp [Except.bind]

theorem outcome_bind_eq_error_iff {work : ExceptT ε Id α} {next : α → ExceptT ε Id β} {e : ε} :
    outcome (work >>= next) = .error e ↔
      outcome work = .error e ∨ ∃ a, outcome work = .ok a ∧ outcome (next a) = .error e := by
  rw [outcome_bind]
  cases outcome work <;> simp [Except.bind]

/-- Reading a file opens it and reads what is in it. -/
theorem outcome_readContent (fs : Access Id) (format : Format) (read : Readable α) (path : String) :
    outcome (readContent fs format read path) =
      match (fs.fetch path).run with
      | .error why => .error (.file why)
      | .ok .directory => .error (.interrupted format .isDirectory)
      | .ok (.file content) => (format.readBytes read content).mapError (.unreadable format) := by
  simp only [outcome, readContent, ExceptT.run_mk, Id.run_bind]
  cases (fs.fetch path).run with
  | error why => rfl
  | ok opened =>
    cases opened with
    | directory => rfl
    | file content =>
      dsimp only
      cases format.readBytes read content <;> rfl

/-! ## Snapshots -/

namespace Snapshot

variable {s : Snapshot}

/-- The answers of a snapshot. -/
def atRest (s : Snapshot) : Access Id where
  entry? := s.entry?
  fetch := s.fetch
  names := s.names
  store path content := (s.store path content.toUTF8).map fun _ => ()

/-- Work on a snapshot only asks: it comes to what it does on the answers, and changes nothing. -/
def Asks (s : Snapshot) (work : ExceptT ε (StateM Snapshot) α) (answers : ExceptT ε Id α) : Prop :=
  s.perform work = (outcome answers, s)

theorem asks_pure (a : α) : s.Asks (pure a : ExceptT ε (StateM Snapshot) α) (pure a) := rfl

theorem asks_throw (e : ε) : s.Asks (throw e : ExceptT ε (StateM Snapshot) α) (throw e) := rfl

theorem asks_entry (path : String) :
    s.Asks (ask (access.entry? path) : ExceptT ε (StateM Snapshot) (Option Entry))
      (ask (s.atRest.entry? path)) := rfl

/-- Asking goes on asking. -/
theorem Asks.bind {work : ExceptT ε (StateM Snapshot) α} {answers : ExceptT ε Id α}
    {next : α → ExceptT ε (StateM Snapshot) β} {next' : α → ExceptT ε Id β} (h : s.Asks work answers)
    (hnext : ∀ a, s.Asks (next a) (next' a)) : s.Asks (work >>= next) (answers >>= next') := by
  unfold Asks at h ⊢
  rw [perform_bind, outcome_bind, h]
  cases outcome answers with
  | error e => rfl
  | ok a => exact hnext a

theorem asks_readContent (format : Format) (read : Readable α) (path : String) :
    s.Asks (readContent access format read path) (readContent s.atRest format read path) := by
  rw [Asks, perform_readContent, outcome_readContent]
  rfl

end Snapshot

end TreeSchema.Files
