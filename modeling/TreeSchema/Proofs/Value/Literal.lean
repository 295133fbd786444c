/-
# TreeSchema.Proofs.Value.Literal — the texts of values as a language that reads one way only.

A `Literal` is what the text of a value tells of the value: a wrapped and a raw text become one literal,
and so do a sequence and what a sequence field holds.  Literals are written like values.  The main result
is that a legible literal, with anything behind it that may follow a literal, cannot be written in a
second way: the first character decides the form, a quoted text ends at the first quote that no backslash
precedes, and a name or a number ends where its characters end.  Not legible are floats, and nodes whose
kind or field names are no identifiers.
-/
import TreeSchema.Proofs.List
import TreeSchema.Value.Render

namespace TreeSchema

/-! ## Literals -/

/-- What the text of a value or of a slot tells. -/
inductive Literal where
  /-- A field that holds nothing. -/
  | unset
  | word (s : Singleton)
  | int (n : Int)
  | float (x : Decimal.Binary64)
  | text (s : String)
  | seq (items : List Literal)
  | node (kind : String) (fields : List (String × Literal))

namespace Literal

/-- Parts with a comma and a space between them. -/
def separated (parts : List (List Char)) : List Char := [',', ' '].intercalate parts

mutual

/-- A literal as characters. -/
def chars : Literal → List Char
  | .unset => ['<', 'u', 'n', 's', 'e', 't', '>']
  | .word s => s.render.toList
  | .int n => (toString n).toList
  | .float x => (x.written .value).toList
  | .text s => '\x27' :: Text.escapeQuotes s.toList ++ ['\x27']
  | .seq items => '[' :: separated (charsItems items) ++ [']']
  | .node kind fields => kind.toList ++ '(' :: separated (charsFields fields) ++ [')']

def charsItems : List Literal → List (List Char)
  | [] => []
  | l :: ls => chars l :: charsItems ls

/-- Fields with their names before them. -/
def charsFields : List (String × Literal) → List (List Char)
  | [] => []
  | (name, l) :: rest => (name.toList ++ '=' :: chars l) :: charsFields rest

end

/-- A literal from which the value can be told: no floats, and all names are identifiers. -/
inductive Legible : Literal → Prop
  | unset : Legible .unset
  | word (s : Singleton) : Legible (.word s)
  | int (n : Int) : Legible (.int n)
  | text (s : String) : Legible (.text s)
  | seq {items : List Literal} : (∀ l ∈ items, Legible l) → Legible (.seq items)
  | node {kind : String} {fields : List (String × Literal)} :
      isIdentifier kind = true → (∀ p ∈ fields, isIdentifier p.1 = true) →
        (∀ p ∈ fields, Legible p.2) → Legible (.node kind fields)

/-- A field as characters. -/
def fieldChars (p : String × Literal) : List Char := p.1.toList ++ '=' :: p.2.chars

theorem charsItems_eq_map (ls : List Literal) : charsItems ls = ls.map chars := by
  induction ls with
  | nil => rfl
  | cons l ls ih => rw [charsItems, ih, List.map_cons]

theorem charsFields_eq_map (fields : List (String × Literal)) :
    charsFields fields = fields.map fieldChars := by
  induction fields with
  | nil => rfl
  | cons p rest ih => rw [charsFields, ih, List.map_cons, fieldChars]

end Literal

/-! ## Quoted texts -/

/-- **The closing quote of a text is determined**, whatever stands behind it. -/
theorem Text.escapeQuotes_append_inj {cs ds r r' : List Char}
    (h : escapeQuotes cs ++ '\x27' :: r = escapeQuotes ds ++ '\x27' :: r') : cs = ds ∧ r = r' := by
  -- inside the text a quote stands only behind a backslash, so both texts go on or both end
  induction cs generalizing ds with
  | nil =>
      cases ds with
      | nil => simpa using h
      | cons d ds =>
          by_cases hd : d = '\\' ∨ d = '\x27'
          · simp [escapeQuotes, hd] at h
          · simp only [escapeQuotes, hd, if_false, List.nil_append, List.cons_append,
              List.cons.injEq] at h
            exact absurd (Or.inr h.1.symm) hd
  | cons c cs ih =>
      cases ds with
      | nil =>
          by_cases hc : c = '\\' ∨ c = '\x27'
          · simp [escapeQuotes, hc] at h
          · simp only [escapeQuotes, hc, if_false, List.nil_append, List.cons_append,
              List.cons.injEq] at h
            exact absurd (Or.inr h.1) hc
      | cons d ds =>
          by_cases hc : c = '\\' ∨ c = '\x27' <;> by_cases hd : d = '\\' ∨ d = '\x27' <;>
            simp only [escapeQuotes, hc, hd, if_true, if_false, List.cons_append,
              List.cons.injEq] at h
          · obtain ⟨rfl, rfl⟩ := ih h.2.2
            exact ⟨by rw [h.2.1], rfl⟩
          · exact absurd (Or.inl h.1.symm) hd
          · exact absurd (Or.inl h.1) hc
          · obtain ⟨rfl, rfl⟩ := ih h.2
            exact ⟨by rw [h.1], rfl⟩

namespace Literal

/-! ## What may follow -/

/-- Behind a literal nothing follows, or a mark that ends an element. -/
def Stops (r : List Char) : Prop := ∀ c ∈ r.head?, c = ',' ∨ c = ']' ∨ c = ')'

theorem stops_nil : Stops [] := by simp [Stops]

theorem stops_cons {c : Char} (h : c = ',' ∨ c = ']' ∨ c = ')') (r : List Char) :
    Stops (c :: r) := by simpa [Stops] using h

/-- No mark that ends an element is part of a name. -/
theorem Stops.not_part {r : List Char} (h : Stops r) :
    ∀ c ∈ r.head?, isIdentifierPart c = false := by
  intro c hc
  rcases h c hc with rfl | rfl | rfl <;> decide

/-- Two things written alike up to where each stops are one thing, and what follows them is the same. -/
def OneReading {α : Type} (part : α → List Char) (a b : α) : Prop :=
  ∀ r r', Stops r → Stops r' → part a ++ r = part b ++ r' → a = b ∧ r = r'

/-! ## Separated parts -/

section

variable {α : Type} {part : α → List Char} {close : Char}

/-- Further parts, each behind its separator, are as determined as the parts. -/
theorem flatMap_append_inj (hclose : close = ']' ∨ close = ')') {xs ys : List α}
    (hpart : ∀ a ∈ xs, ∀ b ∈ ys, OneReading part a b) {r r' : List Char}
    (h : xs.flatMap (fun a => [',', ' '] ++ part a) ++ close :: r
      = ys.flatMap (fun a => [',', ' '] ++ part a) ++ close :: r') : xs = ys ∧ r = r' := by
  have hcomma : close ≠ ',' := by rcases hclose with rfl | rfl <;> decide
  have hstops : ∀ (zs : List α) (s : List Char),
      Stops (zs.flatMap (fun a => [',', ' '] ++ part a) ++ close :: s) := by
    intro zs s
    cases zs with
    | nil => exact stops_cons (Or.inr hclose) s
    | cons z zs => exact stops_cons (Or.inl rfl) _
  induction xs generalizing ys with
  | nil =>
      cases ys with
      | nil => simpa using h
      | cons b ys => simp [hcomma] at h
  | cons a xs ih =>
      cases ys with
      | nil => simp [Ne.symm hcomma] at h
      | cons b ys =>
          simp only [List.flatMap_cons, List.append_assoc, List.cons_append, List.nil_append,
            List.cons.injEq, true_and] at h
          obtain ⟨rfl, hrest⟩ := hpart a List.mem_cons_self b List.mem_cons_self _ _
            (hstops xs r) (hstops ys r') h
          obtain ⟨rfl, rfl⟩ := ih (fun a' ha b' hb => hpart a' (List.mem_cons_of_mem _ ha) b'
            (List.mem_cons_of_mem _ hb)) hrest
          exact ⟨rfl, rfl⟩

theorem separated_nil : separated [] = [] := rfl

theorem separated_map_cons (a : α) (xs : List α) :
    separated ((a :: xs).map part) = part a ++ xs.flatMap fun a => [',', ' '] ++ part a := by
  rw [separated, List.map_cons, List.intercalate_cons_eq_flatMap, List.flatMap_map]

/-- Separated parts up to their closing mark are as determined as the parts. -/
theorem separated_append_inj (hclose : close = ']' ∨ close = ')') {xs ys : List α}
    (hhead : ∀ a, a ∈ xs ∨ a ∈ ys → ∀ s s', part a ++ s ≠ close :: s')
    (hpart : ∀ a ∈ xs, ∀ b ∈ ys, OneReading part a b) {r r' : List Char}
    (h : separated (xs.map part) ++ close :: r = separated (ys.map part) ++ close :: r') :
    xs = ys ∧ r = r' := by
  cases xs with
  | nil =>
      cases ys with
      | nil => simpa [separated_nil] using h
      | cons b ys =>
          rw [separated_map_cons, List.append_assoc] at h
          exact absurd h.symm (hhead b (Or.inr List.mem_cons_self) _ _)
  | cons a xs =>
      cases ys with
      | nil =>
          rw [separated_map_cons, List.append_assoc] at h
          exact absurd h (hhead a (Or.inl List.mem_cons_self) _ _)
      | cons b ys =>
          -- a separator put before both lists makes of the first parts parts like all others
          refine flatMap_append_inj hclose hpart ?_
          rw [separated_map_cons, separated_map_cons] at h
          simpa using h

end

/-! ## Names and numbers -/

/-- **A name ends where its characters end.** -/
theorem name_append_inj {k k' : String} (hk : isIdentifier k = true) (hk' : isIdentifier k' = true)
    {r r' : List Char} (hr : ∀ c ∈ r.head?, isIdentifierPart c = false)
    (hr' : ∀ c ∈ r'.head?, isIdentifierPart c = false) (h : k.toList ++ r = k'.toList ++ r') :
    k = k' ∧ r = r' := by
  obtain ⟨hname, hrest⟩ := List.append_inj_of_run (fun _ hc => isIdentifierPart_of_mem hk hc)
    (fun _ hc => isIdentifierPart_of_mem hk' hc) hr hr' h
  exact ⟨String.toList_inj.1 hname, hrest⟩

/-- The words are names too. -/
theorem isIdentifier_render (s : Singleton) : isIdentifier s.render = true := by
  obtain ⟨_ | _ | _⟩ := s <;> decide

theorem render_inj {s t : Singleton} (h : s.render = t.render) : s = t := by
  obtain ⟨_ | _ | _⟩ := s <;> obtain ⟨_ | _ | _⟩ := t <;> first | rfl | simp [Singleton.render] at h

/-- A character of a number. -/
def isNumeral (c : Char) : Bool := c == '-' || c.isDigit

theorem toList_toString_ofNat (m : Nat) : (toString (Int.ofNat m)).toList = Nat.toDigits 10 m :=
  Nat.toList_repr

theorem toList_toString_negSucc (m : Nat) :
    (toString (Int.negSucc m)).toList = '-' :: Nat.toDigits 10 (m + 1) := by
  change ("-" ++ (m + 1).repr).toList = _
  rw [String.toList_append, Nat.toList_repr]
  rfl

theorem isDigit_of_mem_toDigits {m : Nat} {c : Char} (h : c ∈ Nat.toDigits 10 m) :
    c.isDigit = true :=
  Nat.isDigit_of_mem_toDigits (by decide) (by decide) h

theorem toList_toString_ne_nil (n : Int) : (toString n).toList ≠ [] := by
  cases n with
  | ofNat m =>
      rw [toList_toString_ofNat]
      exact Nat.toDigits_ne_nil
  | negSucc m =>
      rw [toList_toString_negSucc]
      exact List.cons_ne_nil _ _

theorem isNumeral_of_mem_toString {n : Int} {c : Char} (h : c ∈ (toString n).toList) :
    isNumeral c = true := by
  cases n with
  | ofNat m =>
      rw [toList_toString_ofNat] at h
      simp [isNumeral, isDigit_of_mem_toDigits h]
  | negSucc m =>
      rw [toList_toString_negSucc] at h
      rcases List.mem_cons.1 h with rfl | h
      · rfl
      · simp [isNumeral, isDigit_of_mem_toDigits h]

theorem toDigits_inj {m k : Nat} (h : Nat.toDigits 10 m = Nat.toDigits 10 k) : m = k := by
  rw [← Nat.ofDigitChars_ten_toDigits (n := m), h, Nat.ofDigitChars_ten_toDigits]

theorem toString_inj {n m : Int} (h : (toString n).toList = (toString m).toList) : n = m := by
  -- no digit is a minus sign
  have hsign : ∀ {k : Nat} {cs : List Char}, '-' :: cs ≠ Nat.toDigits 10 k := by
    intro k cs hk
    have hminus : '-' ∈ Nat.toDigits 10 k := hk ▸ List.mem_cons_self
    exact absurd (isDigit_of_mem_toDigits hminus) (by decide)
  cases n with
  | ofNat k =>
      cases m with
      | ofNat k' =>
          rw [toList_toString_ofNat, toList_toString_ofNat] at h
          rw [toDigits_inj h]
      | negSucc k' =>
          rw [toList_toString_ofNat, toList_toString_negSucc] at h
          exact absurd h.symm hsign
  | negSucc k =>
      cases m with
      | ofNat k' =>
          rw [toList_toString_ofNat, toList_toString_negSucc] at h
          exact absurd h hsign
      | negSucc k' =>
          rw [toList_toString_negSucc, toList_toString_negSucc] at h
          rw [Nat.succ.inj (toDigits_inj (List.cons.inj h).2)]

theorem Stops.not_numeral {r : List Char} (h : Stops r) : ∀ c ∈ r.head?, isNumeral c = false := by
  intro c hc
  rcases h c hc with rfl | rfl | rfl <;> decide

theorem int_append_inj {n m : Int} {r r' : List Char} (hr : Stops r) (hr' : Stops r')
    (h : (toString n).toList ++ r = (toString m).toList ++ r') : n = m ∧ r = r' := by
  obtain ⟨hnumber, hrest⟩ := List.append_inj_of_run (fun _ hc => isNumeral_of_mem_toString hc)
    (fun _ hc => isNumeral_of_mem_toString hc) hr.not_numeral hr'.not_numeral h
  exact ⟨toString_inj hnumber, hrest⟩

/-! ## Forms -/

/-- What the first character of a literal decides. -/
inductive Form where
  | unset
  | number
  | text
  | seq
  /-- A word or a node. -/
  | name
deriving DecidableEq

/-- The form of the literals that begin with a character, if any do. -/
def Form.ofChar? (c : Char) : Option Form :=
  if isIdentifierStart c then some .name
  else if c = '<' then some .unset
  else if c = '\x27' then some .text
  else if c = '[' then some .seq
  else if isNumeral c then some .number
  else none

def form : Literal → Form
  | .unset => .unset
  | .int _ | .float _ => .number
  | .text _ => .text
  | .seq _ => .seq
  | .word _ | .node _ _ => .name

/-- No number begins like a name. -/
theorem isIdentifierStart_of_isNumeral {c : Char} (h : isNumeral c = true) :
    isIdentifierStart c = false := by
  simp only [isNumeral, Bool.or_eq_true, beq_iff_eq] at h
  rcases h with rfl | h
  · decide
  · have hrange : 48 ≤ c.toNat ∧ c.toNat ≤ 57 := by
      simpa [Char.isDigit, UInt32.le_iff_toNat_le] using h
    have hletter : Text.isLetter c = false := by
      rw [Text.isLetter_of_ascii (by omega)]
      have hupper : c.isUpper = false := by
        refine decide_eq_false fun h => ?_
        have hA : 65 ≤ c.toNat := UInt32.le_iff_toNat_le.1 h.1
        omega
      have hlower : c.isLower = false := by
        have ha : ¬ c.val ≥ 'a'.val := by
          intro h
          have ha : 97 ≤ c.toNat := UInt32.le_iff_toNat_le.1 h
          omega
        change (decide (c.val ≥ 'a'.val) && _) = false
        rw [decide_eq_false ha, Bool.false_and]
      change (c.isUpper || c.isLower) = false
      rw [hupper, hlower, Bool.or_false]
    have hunderscore : c ≠ '_' := by
      rintro rfl
      exact absurd hrange.2 (by decide)
    simp [isIdentifierStart, hletter, hunderscore]

theorem Form.ofChar?_of_isNumeral {c : Char} (h : isNumeral c = true) :
    ofChar? c = some .number := by
  have hother : c ≠ '<' ∧ c ≠ '\x27' ∧ c ≠ '[' := by
    refine ⟨?_, ?_, ?_⟩ <;> rintro rfl <;> exact absurd h (by decide)
  simp [ofChar?, isIdentifierStart_of_isNumeral h, hother, h]

theorem exists_chars_name {k : String} (h : isIdentifier k = true) :
    ∃ c cs, k.toList = c :: cs ∧ Form.ofChar? c = some .name := by
  unfold isIdentifier at h
  cases hk : k.toList with
  | nil => simp [hk, spellsIdentifier] at h
  | cons c cs =>
      rw [hk] at h
      simp only [spellsIdentifier, Bool.and_eq_true] at h
      exact ⟨c, cs, rfl, by simp [Form.ofChar?, h.1]⟩

/-- The first character of a legible literal is one of its form. -/
theorem Legible.exists_chars {l : Literal} (h : l.Legible) :
    ∃ c cs, l.chars = c :: cs ∧ Form.ofChar? c = some l.form := by
  cases h with
  | unset => exact ⟨'<', _, rfl, by decide⟩
  | word s =>
      obtain ⟨c, cs, hc, hform⟩ := exists_chars_name (isIdentifier_render s)
      exact ⟨c, cs, hc, hform⟩
  | int n =>
      obtain ⟨c, cs, hn⟩ := List.exists_cons_of_ne_nil (toList_toString_ne_nil n)
      have hc : isNumeral c = true := isNumeral_of_mem_toString (hn ▸ List.mem_cons_self)
      exact ⟨c, cs, hn, Form.ofChar?_of_isNumeral hc⟩
  | text s => exact ⟨'\x27', _, rfl, show Form.ofChar? '\x27' = some .text by decide⟩
  | seq _ => exact ⟨'[', _, rfl, show Form.ofChar? '[' = some .seq by decide⟩
  | @node kind fields hkind _ _ =>
      obtain ⟨c, cs, hc, hform⟩ := exists_chars_name hkind
      exact ⟨c, _, by rw [chars, hc]; rfl, hform⟩

/-- No literal begins with a mark that ends an element. -/
theorem Form.ne_close {c : Char} {f : Form} (h : ofChar? c = some f) {close : Char}
    (hclose : close = ']' ∨ close = ')') : c ≠ close := by
  rintro rfl
  have hnone : ofChar? c = none := by rcases hclose with rfl | rfl <;> decide
  exact absurd (hnone.symm.trans h) (by simp)

theorem Legible.form_eq {a b : Literal} (ha : a.Legible) (hb : b.Legible) {r r' : List Char}
    (h : a.chars ++ r = b.chars ++ r') : a.form = b.form := by
  obtain ⟨c, cs, hc, hform⟩ := ha.exists_chars
  obtain ⟨d, ds, hd, hform'⟩ := hb.exists_chars
  rw [hc, hd] at h
  have hcd : c = d := (List.cons.inj h).1
  rw [← hcd, hform] at hform'
  exact Option.some.inj hform'

/-! ## One reading only -/

/-- What follows a name that is not a word. -/
theorem not_part_of_paren (r : List Char) : ∀ c ∈ ('(' :: r).head?, isIdentifierPart c = false := by
  simp only [List.head?_cons, Option.mem_def, Option.some.injEq, forall_eq']
  decide

theorem not_part_of_equals (r : List Char) :
    ∀ c ∈ ('=' :: r).head?, isIdentifierPart c = false := by
  simp only [List.head?_cons, Option.mem_def, Option.some.injEq, forall_eq']
  decide

/-- A word is no node: behind its name no fields open. -/
theorem word_append_ne_node {s : Singleton} {kind : String} (hkind : isIdentifier kind = true)
    {r t : List Char} (hr : Stops r) : s.render.toList ++ r ≠ kind.toList ++ '(' :: t := by
  intro h
  obtain ⟨-, rfl⟩ := name_append_inj (isIdentifier_render s) hkind hr.not_part (not_part_of_paren t) h
  exact absurd (hr '(' rfl) (by decide)

theorem chars_seq_append (items : List Literal) (r : List Char) :
    (seq items).chars ++ r = '[' :: (separated (items.map chars) ++ ']' :: r) := by
  simp [chars, charsItems_eq_map]

theorem chars_node_append (kind : String) (fields : List (String × Literal)) (r : List Char) :
    (node kind fields).chars ++ r
      = kind.toList ++ '(' :: (separated (fields.map fieldChars) ++ ')' :: r) := by
  simp [chars, charsFields_eq_map]

theorem chars_text_append (s : String) (r : List Char) :
    (text s).chars ++ r = '\x27' :: (Text.escapeQuotes s.toList ++ '\x27' :: r) := by
  simp [chars]

/-- A sequence ends at the bracket that no element opens with. -/
theorem oneReading_seq {items items' : List Literal} (hitems : ∀ l ∈ items, l.Legible)
    (hitems' : ∀ l ∈ items', l.Legible)
    (h : ∀ l ∈ items, ∀ l' ∈ items', OneReading chars l l') :
    OneReading chars (seq items) (seq items') := by
  intro r r' _ _ hsame
  rw [chars_seq_append, chars_seq_append] at hsame
  have hopen : ∀ l, l ∈ items ∨ l ∈ items' → ∀ s s', l.chars ++ s ≠ ']' :: s' := by
    intro l hl s s' hclose
    obtain ⟨c, cs, hc, hform⟩ := (hl.elim (hitems l) (hitems' l)).exists_chars
    rw [hc] at hclose
    exact Form.ne_close hform (Or.inl rfl) (List.cons.inj hclose).1
  obtain ⟨rfl, hrest⟩ := separated_append_inj (Or.inl rfl) hopen h (List.cons.inj hsame).2
  exact ⟨rfl, hrest⟩

/-- A field is its name up to the equals sign, and then what it holds. -/
theorem oneReading_field {p q : String × Literal} (hp : isIdentifier p.1 = true)
    (hq : isIdentifier q.1 = true) (h : OneReading chars p.2 q.2) : OneReading fieldChars p q := by
  intro r r' hr hr' hsame
  simp only [fieldChars, List.append_assoc, List.cons_append] at hsame
  obtain ⟨hname, hrest⟩ :=
    name_append_inj hp hq (not_part_of_equals _) (not_part_of_equals _) hsame
  obtain ⟨hvalue, hbehind⟩ := h r r' hr hr' (List.cons.inj hrest).2
  exact ⟨Prod.ext hname hvalue, hbehind⟩

/-- A node is its kind up to the parenthesis, and then its fields. -/
theorem oneReading_node {kind kind' : String} {fields fields' : List (String × Literal)}
    (hkind : isIdentifier kind = true) (hkind' : isIdentifier kind' = true)
    (hnames : ∀ p ∈ fields, isIdentifier p.1 = true)
    (hnames' : ∀ p ∈ fields', isIdentifier p.1 = true)
    (h : ∀ p ∈ fields, ∀ q ∈ fields', OneReading chars p.2 q.2) :
    OneReading chars (node kind fields) (node kind' fields') := by
  intro r r' _ _ hsame
  rw [chars_node_append, chars_node_append] at hsame
  obtain ⟨rfl, hfields⟩ :=
    name_append_inj hkind hkind' (not_part_of_paren _) (not_part_of_paren _) hsame
  have hopen : ∀ p, p ∈ fields ∨ p ∈ fields' → ∀ s s', fieldChars p ++ s ≠ ')' :: s' := by
    intro p hp s s' hclose
    obtain ⟨c, cs, hc, hform⟩ := exists_chars_name (hp.elim (hnames p) (hnames' p))
    rw [fieldChars, hc] at hclose
    exact Form.ne_close hform (Or.inr rfl) (List.cons.inj hclose).1
  have hpart : ∀ p ∈ fields, ∀ q ∈ fields', OneReading fieldChars p q :=
    fun p hp q hq => oneReading_field (hnames p hp) (hnames' q hq) (h p hp q hq)
  obtain ⟨rfl, hrest⟩ :=
    separated_append_inj (Or.inr rfl) hopen hpart (List.cons.inj hfields).2
  exact ⟨rfl, hrest⟩

/-- **A legible literal is read from its text in one way only**, whatever follows it. -/
theorem Legible.oneReading : ∀ a b : Literal, a.Legible → b.Legible → OneReading chars a b
  | .unset, b, ha, hb => by
      intro r r' _ _ h
      have hform := ha.form_eq hb h
      cases hb with
      | unset => exact ⟨rfl, List.append_cancel_left h⟩
      | _ => simp [form] at hform
  | .word s, b, ha, hb => by
      intro r r' hr hr' h
      have hform := ha.form_eq hb h
      cases hb with
      | word t =>
          obtain ⟨hword, hrest⟩ := name_append_inj (isIdentifier_render s) (isIdentifier_render t)
            hr.not_part hr'.not_part h
          exact ⟨by rw [render_inj hword], hrest⟩
      | node hkind _ _ =>
          rw [chars_node_append] at h
          exact absurd h (word_append_ne_node hkind hr)
      | _ => simp [form] at hform
  | .int n, b, ha, hb => by
      intro r r' hr hr' h
      have hform := ha.form_eq hb h
      cases hb with
      | int m =>
          obtain ⟨rfl, hrest⟩ := int_append_inj hr hr' h
          exact ⟨rfl, hrest⟩
      | _ => simp [form] at hform
  | .text s, b, ha, hb => by
      intro r r' _ _ h
      have hform := ha.form_eq hb h
      cases hb with
      | text t =>
          rw [chars_text_append, chars_text_append] at h
          obtain ⟨htext, hrest⟩ := Text.escapeQuotes_append_inj (List.cons.inj h).2
          exact ⟨by rw [String.toList_inj.1 htext], hrest⟩
      | _ => simp [form] at hform
  | .seq items, b, ha, hb => by
      intro r r' hr hr' h
      have hform := ha.form_eq hb h
      cases ha with
      | seq hitems =>
          cases hb with
          | seq hitems' =>
              refine oneReading_seq hitems hitems' ?_ r r' hr hr' h
              exact fun l hl l' hl' => oneReading l l' (hitems l hl) (hitems' l' hl')
          | _ => simp [form] at hform
  | .node kind fields, b, ha, hb => by
      intro r r' hr hr' h
      have hform := ha.form_eq hb h
      cases ha with
      | node hkind hnames hfields =>
          cases hb with
          | word s =>
              rw [chars_node_append] at h
              exact absurd h.symm (word_append_ne_node hkind hr')
          | node hkind' hnames' hfields' =>
              refine oneReading_node hkind hkind' hnames hnames' ?_ r r' hr hr' h
              exact fun p hp q hq => oneReading p.2 q.2 (hfields p hp) (hfields' q hq)
          | _ => simp [form] at hform
termination_by a => sizeOf a
decreasing_by
  · have hl := List.sizeOf_lt_of_mem ‹l ∈ items›
    simp
    omega
  · have hp := List.sizeOf_lt_of_mem ‹p ∈ fields›
    obtain ⟨name, l⟩ := p
    simp at hp ⊢
    omega

end Literal

end TreeSchema
