/-
# TreeSchema.Proofs.Value.Domain — the scalar domains look the same from every side.

Who belongs to a scalar domain is asked in several places, each with code of its own: membership looks at
the form of a value, conversion takes the value apart, equality compares it with wrapped scalars, and
scalars and values are written by different functions.  All of them turn out to look at one view of the
value, its text or the singleton that it stands for, and so they agree on every value.  For the texts this
rests on the grammar: an identifier holds no quote and no backslash, so that what is written without
escapes is what would be written with them.

Identifiers can also be read from structured text.  There, too, the text decides: what comes of reading an
identifier is what comes of reading a text, if that is an identifier.
-/
import TreeSchema.NodeSchema.Reading
import TreeSchema.Proofs.Reading.Outcome
import TreeSchema.Proofs.Value.PartialEquivalence

namespace TreeSchema

open Reading

/-! ## Texts -/

/-- An identifier needs no escapes, so it is written like the text it wraps. -/
theorem Identifier.render_eq_quoted (i : Identifier) : i.render = Text.quoted i.text := by
  have hplain : ∀ c ∈ i.text.toList, c ≠ '\\' ∧ c ≠ '\x27' := by
    intro c hc
    have hpart := isIdentifierPart_of_mem i.isIdentifier_text hc
    constructor <;> rintro rfl <;> exact absurd hpart (by decide)
  rw [← String.toList_inj, Text.quoted, String.toList_ofList, Text.escapeQuotes_of_plain hplain,
    render, String.toList_append, String.toList_append]
  rfl

namespace Value

variable {v : Value}

theorem render_of_asText? {s : String} (h : v.asText? = some s) : v.render = Text.quoted s := by
  cases v with
  | text s' =>
      obtain rfl : s' = s := Option.some.inj h
      rfl
  | identifier i =>
      obtain rfl : i.text = s := Option.some.inj h
      exact i.render_eq_quoted
  | _ => simp [asText?] at h

theorem render_of_asSingleton? {s : Singleton} (h : v.asSingleton? = some s) :
    v.render = s.render := by
  cases v with
  | null =>
      obtain rfl : Singleton.null = s := Option.some.inj h
      rfl
  | bool b =>
      obtain rfl : Singleton.ofBool b = s := Option.some.inj h
      cases b <;> rfl
  | singleton s' =>
      obtain rfl : s' = s := Option.some.inj h
      rfl
  | _ => simp [asSingleton?] at h

end Value

/-! ## Membership and conversion -/

namespace Identifier

variable {v : Value} {i : Identifier}

/-- Identifiers are told apart by their texts. -/
theorem text_inj {j : Identifier} : i.text = j.text ↔ i = j := by
  cases i
  cases j
  simp

theorem ofText_eq_ok_iff {s : String} : ofText s = .ok i ↔ s = i.text := by
  rw [eq_comm (a := s), ← ofText?_eq_some_iff, ofText]
  cases ofText? s <;> simp

theorem exists_text_iff {s : String} : (∃ i : Identifier, i.text = s) ↔ isIdentifier s = true := by
  constructor
  · rintro ⟨i, rfl⟩
    exact i.isIdentifier_text
  · exact fun h => ⟨⟨s, h⟩, rfl⟩

theorem eq_of_ofText_eq_error {s : String} {e : WrongValue} (h : ofText s = .error e) :
    e = ⟨.identifier, Text.quoted s⟩ := by
  unfold ofText at h
  split at h
  · cases h
  · exact (Except.error.inj h).symm

theorem ofValue_eq_ok_iff : ofValue v = .ok i ↔ v.asText? = some i.text := by
  cases v with
  | text s => rw [ofValue, ofText_eq_ok_iff, Value.asText?, Option.some.injEq]
  | identifier j => simp [ofValue, Value.asText?, text_inj]
  | _ => simp [ofValue, Value.asText?]

theorem admits_iff : admits v = true ↔ ∃ i : Identifier, v.asText? = some i.text := by
  cases v with
  | text s =>
      rw [admits, ← exists_text_iff]
      simp only [Value.asText?, Option.some.injEq, eq_comm]
  | identifier j => exact iff_of_true rfl ⟨j, rfl⟩
  | _ => simp [admits, Value.asText?]

theorem eq_of_ofValue_eq_error {e : WrongValue} (h : ofValue v = .error e) :
    e = ⟨.identifier, v.render⟩ := by
  cases v with
  | text s => exact eq_of_ofText_eq_error h
  | identifier j => cases h
  | _ => exact (Except.error.inj h).symm

end Identifier

namespace Singleton

variable {v : Value} {s : Singleton}

theorem ofValue_eq_ok_iff : ofValue v = .ok s ↔ v.asSingleton? = some s := by
  cases v <;> simp [ofValue, Value.asSingleton?]

theorem admits_iff : admits v = true ↔ ∃ s, v.asSingleton? = some s := by
  cases v <;> simp [admits, Value.asSingleton?]

theorem eq_of_ofValue_eq_error {e : WrongValue} (h : ofValue v = .error e) :
    e = ⟨.singleton, v.render⟩ := by
  cases v with
  | null | bool _ | singleton _ => cases h
  | _ => exact (Except.error.inj h).symm

end Singleton

/-! ## Domains -/

/-- A scalar domain as the rest of the library meets it. -/
structure ScalarDomain (α : Type) where
  name : Domain
  /-- Whether a value lies in the domain. -/
  admits : Value → Bool
  /-- The scalar that a value is. -/
  convert : Value → Except WrongValue α
  /-- A scalar as a value. -/
  wrap : α → Value
  /-- A scalar as text. -/
  write : α → String

def Identifier.scalars : ScalarDomain Identifier :=
  ⟨.identifier, admits, ofValue, .identifier, render⟩

def Singleton.scalars : ScalarDomain Singleton :=
  ⟨.singleton, admits, ofValue, .singleton, render⟩

namespace ScalarDomain

variable {α : Type} {D : ScalarDomain α} {v : Value}

/-- The sides of a domain agree on a value. -/
structure Agrees (D : ScalarDomain α) (v : Value) : Prop where
  admits_iff_converts : D.admits v = true ↔ ∃ a, D.convert v = .ok a
  admits_iff_equals : D.admits v = true ↔ ∃ a, v.equals (D.wrap a) = true
  /-- A value is converted to the scalar that it is equal to. -/
  convert_eq_ok_iff : ∀ a, D.convert v = .ok a ↔ (D.wrap a).equals v = true
  write_of_converts : ∀ a, D.convert v = .ok a → D.write a = v.render
  /-- A complaint tells the domain and the text of the value. -/
  eq_of_refused : ∀ e, D.convert v = .error e → e = ⟨D.name, v.render⟩

/-- The sides of a domain agree on a value if they look at it through one view. -/
theorem Agrees.of_view {β : Type} (view : Value → Option β) (raw : α → β)
    (hadmits : D.admits v = true ↔ ∃ a, view v = some (raw a))
    (hconvert : ∀ a, D.convert v = .ok a ↔ view v = some (raw a))
    (hequals : ∀ a, (D.wrap a).equals v = true ↔ view v = some (raw a))
    (hwrite : ∀ a, view v = some (raw a) → D.write a = v.render)
    (hrefused : ∀ e, D.convert v = .error e → e = ⟨D.name, v.render⟩) : D.Agrees v := by
  constructor
  · simp only [hadmits, hconvert]
  · simp only [hadmits, Value.equals_comm (v := v), hequals]
  · intro a
    rw [hconvert, hequals]
  · intro a ha
    exact hwrite a ((hconvert a).1 ha)
  · exact hrefused

end ScalarDomain

theorem Identifier.scalars_agree (v : Value) : scalars.Agrees v :=
  .of_view Value.asText? Identifier.text admits_iff (fun _ => ofValue_eq_ok_iff)
    (fun _ => Value.equals_iff_of_asText? rfl)
    (fun i h => i.render_eq_quoted.trans (Value.render_of_asText? h).symm)
    fun _ => eq_of_ofValue_eq_error

theorem Singleton.scalars_agree (v : Value) : scalars.Agrees v :=
  .of_view Value.asSingleton? id admits_iff (fun _ => ofValue_eq_ok_iff)
    (fun _ => Value.equals_iff_of_asSingleton? rfl)
    (fun _ h => (Value.render_of_asSingleton? h).symm)
    fun _ => eq_of_ofValue_eq_error

/-! ## Reading identifiers -/

section

variable {i : Identifier} {T : Type} {t : T}

/-- An identifier is read as a text is, and then the text decides. -/
theorem Identifier.read_eq_ok_iff {src : Source (Except Fault) T} :
    Identifier.read src t = .ok i ↔ readText src t = .ok i.text := by
  rw [Identifier.read]
  cases readText src t with
  | error e => exact iff_of_false nofun nofun
  | ok s =>
      rw [Except.ok.injEq, ← ofText_eq_ok_iff]
      -- what was read is there for the judgement, so only the judgement can fail
      change pure s >>= _ = _ ↔ _
      rw [pure_bind]
      cases ofText s with
      | error e => exact iff_of_false nofun nofun
      | ok j => simp [pure, Except.pure]

/-- The same where aliases are counted: judging the text follows none. -/
theorem Identifier.run_read_eq_ok_iff {src : Source Yaml.Reader T} {n n' : Nat} :
    (Identifier.read src t).run n = .ok (i, n') ↔ (readText src t).run n = .ok (i.text, n') := by
  rw [Identifier.read, StateT.run_bind]
  rcases (readText src t).run n with e | ⟨s, k⟩
  · exact iff_of_false nofun nofun
  · rw [Except.ok.injEq, Prod.mk.injEq, ← ofText_eq_ok_iff]
    change pure (s, k) >>= _ = _ ↔ _
    rw [pure_bind]
    cases ofText s with
    | error e => exact iff_of_false nofun nofun
    | ok j =>
        rw [StateT.run_pure]
        simp [pure, Except.pure]

theorem json_readAll_identifier_iff {input : List Text.Glyph} :
    Json.readAll (fun t => Identifier.read Json.source t) input = .ok i ↔
      Json.readAll (fun t => readText Json.source t) input = .ok i.text := by
  rw [json_readAll_eq_ok_iff, json_readAll_eq_ok_iff, Identifier.read_eq_ok_iff]

theorem yaml_readAll_identifier_iff {text : List Char} :
    Yaml.readAll (fun src t => Identifier.read src t) text = .ok i ↔
      Yaml.readAll (fun src t => readText src t) text = .ok i.text := by
  simp only [yaml_readAll_eq_ok_iff, Identifier.run_read_eq_ok_iff]

end

namespace Format

variable {i : Identifier} {format : Format}

theorem readText_identifier_iff {text : String} :
    format.readText (fun src t => Identifier.read src t) text = .ok i ↔
      format.readText (fun src t => TreeSchema.readText src t) text = .ok i.text := by
  cases format with
  | yaml => exact yaml_readAll_identifier_iff
  | json => exact json_readAll_identifier_iff

theorem readBytes_identifier_iff {data : ByteArray} :
    format.readBytes (fun src t => Identifier.read src t) data = .ok i ↔
      format.readBytes (fun src t => TreeSchema.readText src t) data = .ok i.text := by
  cases format with
  | yaml =>
      unfold readBytes
      cases Text.decode? data with
      | none => exact iff_of_false nofun nofun
      | some text => exact yaml_readAll_identifier_iff
  | json => exact json_readAll_identifier_iff

end Format

/-! ## The main result -/

/-- What is made of texts is the identifier with a text that is given, if that is an identifier, and
nothing otherwise. -/
def Identifier.MadeExactlyOf {ε : Type} (made : Except ε Identifier) (given : String → Prop) : Prop :=
  ∀ i, made = .ok i ↔ ∃ s, given s ∧ isIdentifier s = true ∧ i.text = s

theorem Identifier.madeExactlyOf_iff {ε : Type} {made : Except ε Identifier} {given : String → Prop}
    (h : ∀ i, made = .ok i ↔ given i.text) : MadeExactlyOf made given := by
  intro i
  rw [h i]
  constructor
  · exact fun hgiven => ⟨_, hgiven, i.isIdentifier_text, rfl⟩
  · rintro ⟨_, hgiven, -, rfl⟩
    exact hgiven

/-- **Membership, conversion, equality and rendering agree on the scalar domains.**  On every value, for
identifiers as for singletons: it is a member exactly if it is converted and exactly if some wrapped scalar
equals it; it is converted to the scalar that equals it, which is written like the value; and a complaint
carries the text of the value.  The members of the domain of singletons are the values that stand for one,
and no value lies in both domains.  However an identifier is made, from a text, from a value or by reading
structured text of either format, it is made of a text that is one, and of every such text. -/
theorem Value.scalar_domains_agree :
    (∀ v : Value, Identifier.scalars.Agrees v ∧ Singleton.scalars.Agrees v ∧
      (Singleton.admits v = true ↔ v.asSingleton?.isSome = true) ∧
      ¬ (Identifier.admits v = true ∧ Singleton.admits v = true)) ∧
    (∀ s, Identifier.MadeExactlyOf (Identifier.ofText s) fun given => given = s) ∧
    (∀ v, Identifier.MadeExactlyOf (Identifier.ofValue v) fun given => v.asText? = some given) ∧
    ∀ format : Format,
      (∀ text, Identifier.MadeExactlyOf
        (format.readText (fun src t => Identifier.read src t) text)
        fun given => format.readText (fun src t => readText src t) text = .ok given) ∧
      ∀ data, Identifier.MadeExactlyOf
        (format.readBytes (fun src t => Identifier.read src t) data)
        fun given => format.readBytes (fun src t => readText src t) data = .ok given := by
  refine ⟨fun v => ⟨Identifier.scalars_agree v, Singleton.scalars_agree v, ?_, ?_⟩, ?_, ?_, ?_⟩
  · rw [Singleton.admits_iff, Option.isSome_iff_exists]
  · rintro ⟨hidentifier, hsingleton⟩
    cases v <;> simp [Identifier.admits, Singleton.admits] at hidentifier hsingleton
  · intro s
    exact Identifier.madeExactlyOf_iff fun _ => Identifier.ofText_eq_ok_iff.trans eq_comm
  · intro v
    exact Identifier.madeExactlyOf_iff fun _ => Identifier.ofValue_eq_ok_iff
  · intro format
    constructor
    · exact fun _ => Identifier.madeExactlyOf_iff fun _ => Format.readText_identifier_iff
    · exact fun _ => Identifier.madeExactlyOf_iff fun _ => Format.readBytes_identifier_iff

end TreeSchema
