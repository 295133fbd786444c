/-
# TreeSchema.Proofs.Declarations.Fingerprint — what a fingerprint tells apart.

A fingerprint is the digest, in hexadecimal, of the bytes of the compact JSON form.  Each step but the
digest can be undone: digits come from one state, bytes from one text, and from the compact form the set
is read again, with every type as its name has it.  So nothing gets lost before the digest, unless a
type refers to a kind that has the name of a built-in type, which no set does that was read.
-/
import TreeSchema.Proofs.Declarations.Places
import TreeSchema.Proofs.Declarations.Reload

namespace TreeSchema

open Files

/-! ## Digits -/

theorem Text.hexDigit_inj {m n : Nat} (hm : m < 16) (hn : n < 16) (h : hexDigit m = hexDigit n) :
    m = n := by
  have hvalue := (digitValue?_hexDigit hm).1
  rw [h, (digitValue?_hexDigit hn).1] at hvalue
  exact (Option.some.inj hvalue).symm

/-- Enough digits tell numbers apart. -/
theorem Text.hexDigits_inj {n a b : Nat} (ha : a < 16 ^ n) (hb : b < 16 ^ n)
    (h : hexDigits hexDigit n a = hexDigits hexDigit n b) : a = b := by
  induction n generalizing a b with
  | zero => omega
  | succ n ih =>
    obtain ⟨hinit, hlast⟩ := List.append_inj' h rfl
    have hquotient : a / 16 = b / 16 := ih (by omega) (by omega) hinit
    have hdigit : a % 16 = b % 16 :=
      hexDigit_inj (Nat.mod_lt _ (by decide)) (Nat.mod_lt _ (by decide))
        (List.head_eq_of_cons_eq hlast)
    omega

namespace Digest

/-- The digits of a state tell it apart. -/
theorem State.hex_inj {s t : State} (h : s.hex = t.hex) : s = t := by
  have hword : Function.Injective fun w : UInt32 => Text.hexDigits Text.hexDigit 8 w.toNat :=
    fun v w hvw => UInt32.toNat_inj.1 (Text.hexDigits_inj v.toNat_lt w.toNat_lt hvw)
  -- each word has eight digits, so the digits fall apart into words in one way only
  have hdigits := String.ofList_inj.1 h
  rw [List.flatMap_def, List.flatMap_def] at hdigits
  have hwords := List.map_injective_iff.2 hword (List.eq_iff_flatten_eq.2 ⟨hdigits, by simp⟩)
  cases s
  cases t
  simpa using hwords

/-- Two messages have the same digest only if they are the same. -/
def Separates (message message' : List UInt8) : Prop :=
  digest message = digest message' → message = message'

end Digest

namespace Declarations

/-! ## What is hashed -/

/-- The bytes that are hashed. -/
def hashed (d : Declarations) : List UInt8 := (Json.compact d.toDocument).toUTF8.toList

theorem fingerprint_eq (d : Declarations) : d.fingerprint = (Digest.digest d.hashed).hex := rfl

/-- **What is hashed is the set**, with every type as its name has it. -/
theorem hashed_eq_iff (d d' : Declarations) : d.hashed = d'.hashed ↔ d.reread = d'.reread := by
  constructor
  · intro h
    have hback := ofText_compact d
    rw [Text.toList_toUTF8_inj h, ofText_compact] at hback
    exact (Except.ok.inj hback).symm
  · intro h
    rw [hashed, hashed, ← toDocument_reread d, h, toDocument_reread]

/-- Sets with one fingerprint were hashed as the same bytes, if these do not collide. -/
theorem hashed_eq_of_fingerprint {d d' : Declarations} (hseparates : Digest.Separates d.hashed d'.hashed)
    (h : d.fingerprint = d'.fingerprint) : d.hashed = d'.hashed := by
  rw [fingerprint_eq, fingerprint_eq] at h
  exact hseparates (Digest.State.hex_inj h)

/-! ## Sets that were read -/

/-- No type refers to a kind that has the name of a built-in type. -/
def Unshadowed (d : Declarations) : Prop :=
  ∀ s ∈ d.nodes, ∀ f ∈ s.fields, ∀ k, FieldType.node k ∈ f.types → FieldType.isBuiltinName k = false

/-- A set comes from text of either format, from a file, or from several files and directories, or two
such sets were put together. -/
inductive Loaded : Declarations → Prop
  | text {d : Declarations} (format : Format) (text : String) : ofText format text = .ok d → Loaded d
  | file {d : Declarations} (s s' : Snapshot) (path : String) :
      s.perform (ofFile Snapshot.access path) = (.ok d, s') → Loaded d
  | places {d : Declarations} (s s' : Snapshot) (paths : List String) :
      s.perform (ofPlaces Snapshot.access paths) = (.ok d, s') → Loaded d
  | merged {d e : Declarations} : Loaded d → Loaded e → Loaded (d.merge e)

theorem unshadowed_of_mergeAll {ds : List Declarations} {d : Declarations}
    (hmerge : mergeAll ds = some d) (h : ∀ e ∈ ds, e.Unshadowed) : d.Unshadowed := by
  obtain ⟨_, _, -, -, -, hnodes⟩ := exists_of_mergeAll hmerge
  intro s hs
  rw [hnodes] at hs
  obtain ⟨e, he, hse⟩ := List.mem_flatMap.1 hs
  exact h e he s hse

theorem unshadowed_of_ofFile {s s' : Snapshot} {path : String} {d : Declarations}
    (h : s.perform (ofFile Snapshot.access path) = (.ok d, s')) : d.Unshadowed :=
  reread_eq_self_iff.1 (reread_eq_self_of_ofFile h)

theorem unshadowed_of_files {s : Snapshot} {files : List String} {ds : List Declarations}
    (h : List.Forall₂ (fun file d => outcome (ofFile s.atRest file) = .ok d) files ds) :
    ∀ d ∈ ds, d.Unshadowed := by
  induction h with
  | nil => simp
  | @cons file d _ _ hfile _ ih =>
    exact List.forall_mem_cons.2
      ⟨unshadowed_of_ofFile ((asks_ofFile file).trans (congrArg (·, s) hfile)), ih⟩

/-- What is loaded from several places is put together from files, so it is like these. -/
theorem unshadowed_of_ofPlaces {s s' : Snapshot} {paths : List String} {d : Declarations}
    (h : s.perform (ofPlaces Snapshot.access paths) = (.ok d, s')) : d.Unshadowed := by
  obtain ⟨parts, hparts⟩ := exists_forall₂_standsFor s.atRest paths
  have hplaces := congrArg Prod.fst ((asks_ofPlaces paths).symm.trans h)
  obtain ⟨ds, hfiles, hmerge⟩ := exists_of_outcome_ofPlaces hparts hplaces
  exact unshadowed_of_mergeAll hmerge (unshadowed_of_files hfiles)

/-- **Sets that were read refer to no kind with a built-in name.** -/
theorem Loaded.unshadowed {d : Declarations} (h : d.Loaded) : d.Unshadowed := by
  induction h with
  | text format text h => exact reread_eq_self_iff.1 (reread_eq_self_of_ofText h)
  | file s s' path h => exact unshadowed_of_ofFile h
  | places s s' paths h => exact unshadowed_of_ofPlaces h
  | @merged d e _ _ hd he =>
    have hboth : mergeAll [d, e] = some (d.merge e) := rfl
    exact unshadowed_of_mergeAll hboth (by simp [hd, he])

/-! ## What a fingerprint tells apart -/

/-- **A fingerprint tells sets apart.**  Where no type refers to a kind with a built-in name, as in all
sets that were read from either format, the same bytes are hashed for two sets exactly if they are the
same set.  So the fingerprints are the same exactly if the sets are, unless the digest collides. -/
theorem fingerprint_separates {d d' : Declarations} (h : d.Unshadowed) (h' : d'.Unshadowed) :
    (d.hashed = d'.hashed ↔ d = d') ∧
      d.fingerprint = (Digest.digest d.hashed).hex ∧
      (Digest.Separates d.hashed d'.hashed → (d.fingerprint = d'.fingerprint ↔ d = d')) ∧
      ∀ e : Declarations, e.Loaded → e.Unshadowed := by
  have hhashed : d.hashed = d'.hashed ↔ d = d' := by
    rw [hashed_eq_iff, reread_eq_self_iff.2 h, reread_eq_self_iff.2 h']
  refine ⟨hhashed, fingerprint_eq d, fun hseparates => ?_, fun e => Loaded.unshadowed⟩
  constructor
  · exact fun hsame => hhashed.1 (hashed_eq_of_fingerprint hseparates hsame)
  · exact fun hsame => congrArg fingerprint hsame

/-- A set of one kind. -/
def lone (kind : String) : Declarations := ⟨"1", none, [⟨kind, none, none, []⟩]⟩

/-- Two sets, one read from each format, with different fingerprints. -/
theorem fingerprint_separates_lone :
    ofText .yaml (Yaml.written (lone "A").toDocument) = .ok (lone "A") ∧
      ofText .json (Json.pretty (lone "B").toDocument) = .ok (lone "B") ∧
      (lone "A").fingerprint ≠ (lone "B").fingerprint := by
  have yaml : ofText .yaml (Yaml.written (lone "A").toDocument) = .ok (lone "A") := by
    decide +kernel
  have json : ofText .json (Json.pretty (lone "B").toDocument) = .ok (lone "B") := by
    decide +kernel
  have differ : Digest.digest (lone "A").hashed ≠ Digest.digest (lone "B").hashed := by
    decide +kernel
  obtain ⟨-, -, hfingerprint, -⟩ := fingerprint_separates
    (Loaded.text _ _ yaml).unshadowed (Loaded.text _ _ json).unshadowed
  refine ⟨yaml, json, fun hsame => ?_⟩
  have hlone := (hfingerprint fun h => absurd h differ).1 hsame
  exact absurd hlone (by decide)

end Declarations

end TreeSchema
