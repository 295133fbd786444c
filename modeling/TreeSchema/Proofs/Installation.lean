/-
# TreeSchema.Proofs.Installation — the registry of a process is written once.

A `Request` is anything that a process asks of the place for its shared registry: to install one, to
look it up, to make a node of it.  Requests come in any order, and each is answered by what the place
holds when it comes.

One law carries this file: after any requests the place holds what it held before, followed by what the
requests installed.  A place holds one registry at most, so no two requests of a run install one, and
what was installed is what every later request finds.
-/
import TreeSchema.Proofs.Scene

namespace TreeSchema

namespace Registry

variable {r : Registry}

/-- A valid registry can be sealed, and is what the seal holds. -/
theorem seal_of_valid (h : r.validate = .ok ()) (stamp : Nat) : r.seal stamp = .ok ⟨stamp, r, h⟩ := by
  unfold Registry.seal
  split
  · rfl
  · next e he => exact absurd (he.symm.trans h) (by simp)

/-- An invalid one cannot, for the reason that validation gives. -/
theorem seal_of_invalid {e : TreeError} (h : r.validate = .error e) (stamp : Nat) :
    r.seal stamp = .error e := by
  unfold Registry.seal
  split
  · next hok => exact absurd (hok.symm.trans h) (by simp)
  · next e' he => exact congrArg Except.error (Except.error.inj (he.symm.trans h))

end Registry

namespace Installation

/-! ## Requests -/

/-- What the place holds: one registry or none. -/
def held (i : Installation) : List Sealed := i.registry?.toList

/-- What a process may ask of the place for the shared registry. -/
inductive Request where
  | install (r : Registry) (stamp : Nat)
  | global
  | node (kind : String)
  | construct (kind : String) (values : List Value)

/-- What it is answered. -/
inductive Answer where
  | install (answer : Except TreeError Sealed)
  | global (found : Option Sealed)
  | made (answer : Except TreeError Node)

/-- The registry that a request has installed. -/
def Answer.installed? : Answer → Option Sealed
  | install (.ok home) => some home
  | _ => none

/-- Answers one request.  A registry that is refused leaves the place as it was. -/
def serve (i : Installation) : Request → Answer × Installation
  | .install r stamp =>
    match i.install r stamp with
    | .ok (home, i') => (.install (.ok home), i')
    | .error e => (.install (.error e), i)
  | .global => (.global i.registry?, i)
  | .node kind => (.made (i.node kind), i)
  | .construct kind values => (.made (i.construct kind values), i)

/-- The place after requests in order. -/
def after (i : Installation) (requests : List Request) : Installation :=
  requests.foldl (fun i q => (i.serve q).2) i

/-- What requests in order are answered. -/
def answers (i : Installation) : List Request → List Answer
  | [] => []
  | q :: requests => (i.serve q).1 :: answers (i.serve q).2 requests

/-- The registries that some requests have installed, in order. -/
def installed (answers : List Answer) : List Sealed := answers.filterMap Answer.installed?

theorem mem_installed_iff {answers : List Answer} {home : Sealed} :
    home ∈ installed answers ↔ .install (.ok home) ∈ answers := by
  have hanswer : ∀ a : Answer, a.installed? = some home ↔ a = .install (.ok home) := by
    intro a
    rcases a with (e | home') | found | answer <;> simp [Answer.installed?]
  simp [installed, hanswer]

/-! ## One request -/

variable {i : Installation} {r : Registry}

theorem serve_install_of_invalid {e : TreeError} (h : r.validate = .error e) (i : Installation)
    (stamp : Nat) : i.serve (.install r stamp) = (.install (.error e), i) := by
  simp only [serve, install, Registry.seal_of_invalid h]

theorem serve_install_of_taken {home : Sealed} (h : r.validate = .ok ())
    (hi : i.registry? = some home) (stamp : Nat) :
    i.serve (.install r stamp) = (.install (.error .alreadyInstalled), i) := by
  simp only [serve, install, Registry.seal_of_valid h, hi]

theorem serve_install_of_free (h : r.validate = .ok ()) (hi : i.registry? = none) (stamp : Nat) :
    i.serve (.install r stamp) = (.install (.ok ⟨stamp, r, h⟩), ⟨some ⟨stamp, r, h⟩⟩) := by
  simp only [serve, install, Registry.seal_of_valid h, hi]

/-- **One request adds to the place what it installs**, and a request that installs nothing leaves it as
it was. -/
theorem held_serve (i : Installation) (q : Request) :
    (i.serve q).2.held = i.held ++ (i.serve q).1.installed?.toList := by
  cases q with
  | install r stamp =>
      cases h : r.validate with
      | error e => simp [serve_install_of_invalid h, Answer.installed?]
      | ok =>
          cases hi : i.registry? with
          | some home => simp [serve_install_of_taken h hi, Answer.installed?]
          | none => simp [serve_install_of_free h hi, Answer.installed?, held, hi]
  | global => simp [serve, Answer.installed?]
  | node kind => simp [serve, Answer.installed?]
  | construct kind values => simp [serve, Answer.installed?]

/-! ## Runs -/

/-- After a run the place holds what it held before, followed by what the run installed. -/
theorem held_after (i : Installation) (requests : List Request) :
    (i.after requests).held = i.held ++ installed (i.answers requests) := by
  induction requests generalizing i with
  | nil => simp [after, answers, installed]
  | cons q requests ih =>
      have hfront : installed (i.answers (q :: requests))
          = (i.serve q).1.installed?.toList ++ installed ((i.serve q).2.answers requests) := by
        simp only [answers, installed, List.filterMap_cons]
        cases (i.serve q).1.installed? <;> rfl
      calc (i.after (q :: requests)).held
          = (i.serve q).2.held ++ installed ((i.serve q).2.answers requests) := ih (i.serve q).2
        _ = i.held ++ installed (i.answers (q :: requests)) := by
            rw [held_serve, List.append_assoc, hfront]

/-- What a run installed in the empty place is what the place holds. -/
theorem held_after_empty (requests : List Request) :
    (empty.after requests).held = installed (empty.answers requests) :=
  held_after empty requests

/-- A registry that a run has installed is the one that is found. -/
theorem found_of_installed {requests : List Request} {home : Sealed}
    (h : .install (.ok home) ∈ empty.answers requests) :
    Installation.registry? (empty.after requests) = some home := by
  rw [← mem_installed_iff, ← held_after_empty] at h
  exact Option.mem_toList.1 h

/-- If a run has installed none, none is found. -/
theorem none_found_of_not_installed {requests : List Request}
    (h : ∀ home, .install (.ok home) ∉ empty.answers requests) :
    Installation.registry? (empty.after requests) = none := by
  refine Option.eq_none_iff_forall_ne_some.2 fun home hfound => h home ?_
  rw [← mem_installed_iff, ← held_after_empty]
  exact Option.mem_toList.2 hfound

/-- **The registry of a process is written at most once.**  Whatever has been asked since the start of
the process, at most one request has installed a registry.  Whether the place is taken or free, a registry
that fails validation is refused for the reason validation gives, and leaves it as it was; a valid one is
installed if none has been, and is refused as a second one otherwise.  Once a registry has been installed,
it is the one that is found and of which nodes are made; before that none is, and no kind is known. -/
theorem written_once (past : List Request) :
    let i := empty.after past
    let answers := empty.answers past
    (installed answers).length ≤ 1 ∧
      (∀ r stamp e, r.validate = .error e →
        i.serve (.install r stamp) = (.install (.error e), i)) ∧
      (∀ r stamp, ∀ h : r.validate = .ok (),
        ((∀ home, .install (.ok home) ∉ answers) → i.serve (.install r stamp)
          = (.install (.ok ⟨stamp, r, h⟩), ⟨some ⟨stamp, r, h⟩⟩)) ∧
        ∀ home, .install (.ok home) ∈ answers →
          i.serve (.install r stamp) = (.install (.error .alreadyInstalled), i)) ∧
      (∀ home, .install (.ok home) ∈ answers →
        i.serve .global = (.global (some home), i) ∧
          (∀ kind, i.serve (.node kind) = (.made (home.node kind), i)) ∧
          ∀ kind values, i.serve (.construct kind values)
            = (.made (home.construct kind values), i)) ∧
      ((∀ home, .install (.ok home) ∉ answers) →
        i.serve .global = (.global none, i) ∧
          (∀ kind, i.serve (.node kind) = (.made (.error (.unknownKind kind)), i)) ∧
          ∀ kind values, i.serve (.construct kind values)
            = (.made (.error (.unknownKind kind)), i)) := by
  intro i answers
  refine ⟨?_, ?_, ?_, ?_, ?_⟩
  · rw [← held_after_empty]
    exact Option.length_toList_le
  · intro r stamp e h
    exact serve_install_of_invalid h i stamp
  · intro r stamp h
    refine ⟨fun hnone => serve_install_of_free h (none_found_of_not_installed hnone) stamp, ?_⟩
    intro home hmem
    exact serve_install_of_taken h (found_of_installed hmem) stamp
  · intro home hmem
    have hi : i.registry? = some home := found_of_installed hmem
    refine ⟨?_, ?_, ?_⟩ <;> simp only [serve, node, construct, hi, implies_true]
  · intro hnone
    have hi : i.registry? = none := none_found_of_not_installed hnone
    refine ⟨?_, ?_, ?_⟩ <;> simp only [serve, node, construct, hi, implies_true]

/-! ### A registry refused, one installed, and a second one -/

/-- Leaves extend a kind that there is not. -/
def leaves : Registry := Registry.empty.append ⟨"leaf", some "plant", none, []⟩

/-- A node asked for too early, a registry that cannot be sealed, and then the links. -/
def requests : List Request :=
  [.node "link", .install leaves 0, .install Scene.Link.home.registry 0]

theorem written_once_link :
    ((∀ home, Answer.install (.ok home) ∉ empty.answers []) ∧
        .install (.ok Scene.Link.home) ∈ empty.answers requests ∧
        leaves.validate = .error (.danglingReference "leaf" "plant") ∧
        Scene.Link.home.registry.validate = .ok ()) ∧
      empty.serve (.install Scene.Link.home.registry 0)
        = (.install (.ok Scene.Link.home), ⟨some Scene.Link.home⟩) ∧
      (empty.after requests).serve (.install leaves 1)
        = (.install (.error (.danglingReference "leaf" "plant")), empty.after requests) ∧
      (empty.after requests).serve (.install Scene.Link.home.registry 1)
        = (.install (.error .alreadyInstalled), empty.after requests) ∧
      (empty.after requests).serve (.node "link")
        = (.made (Scene.Link.home.node "link"), empty.after requests) := by
  have hnone : ∀ home, Answer.install (.ok home) ∉ empty.answers [] := by simp [answers]
  have hmem : .install (.ok Scene.Link.home) ∈ empty.answers requests := by
    exact List.mem_cons_of_mem _ (List.mem_cons_of_mem _ List.mem_cons_self)
  have hleaves : leaves.validate = .error (.danglingReference "leaf" "plant") := by decide
  have hlinks : Scene.Link.home.registry.validate = .ok () := Scene.Link.home.valid
  obtain ⟨-, -, hfirst, -, -⟩ := written_once []
  obtain ⟨-, hinvalid, hvalid, hlookup, -⟩ := written_once requests
  exact ⟨⟨hnone, hmem, hleaves, hlinks⟩, (hfirst _ 0 hlinks).1 hnone, hinvalid leaves 1 _ hleaves,
    (hvalid Scene.Link.home.registry 1 hlinks).2 Scene.Link.home hmem,
    (hlookup Scene.Link.home hmem).2.1 "link"⟩

end Installation

end TreeSchema
