/-
# TreeSchema.Proofs.Json.Tokens — the tokens of a written document.

Both forms of a document scan to the same tokens: no token of a written document needs to see what
follows it, and the white space between tokens is passed over.
-/
import Mathlib.Data.List.Basic
import TreeSchema.Json.Token
import TreeSchema.Json.Written

namespace TreeSchema.Json

open Text (Glyph glyphs)

@[simp] theorem glyphs_append (a b : String) : glyphs (a ++ b) = glyphs a ++ glyphs b := by
  simp [glyphs]

/-! ## Strings -/

/-- A character is written as an escape of two characters, as the number of a control, or as itself. -/
theorem escapeChar_cases (c : Char) :
    (∃ e, escapeChar c = ['\\', e] ∧ simpleEscape? e = some c ∧ e ≠ 'u') ∨
      (escapeChar c = '\\' :: 'u' :: Text.hexDigits Text.hexDigit 4 c.toNat ∧ c.toNat < 0x20) ∨
        escapeChar c = [c] ∧ c ≠ '\x22' ∧ c ≠ '\\' ∧ ¬ c.toNat < 0x20 := by
  unfold escapeChar
  split_ifs with h₁ h₂ h₃ h₄ h₅ h₆ h₇ h₈
  · exact .inl ⟨'\x22', rfl, by simp [simpleEscape?, h₁], by decide⟩
  · exact .inl ⟨'\\', rfl, by simp [simpleEscape?, h₂], by decide⟩
  · exact .inl ⟨'b', rfl, by simp [simpleEscape?, h₃], by decide⟩
  · exact .inl ⟨'f', rfl, by simp [simpleEscape?, h₄], by decide⟩
  · exact .inl ⟨'n', rfl, by simp [simpleEscape?, h₅], by decide⟩
  · exact .inl ⟨'r', rfl, by simp [simpleEscape?, h₆], by decide⟩
  · exact .inl ⟨'t', rfl, by simp [simpleEscape?, h₇], by decide⟩
  · exact .inr (.inl ⟨rfl, h₈⟩)
  · exact .inr (.inr ⟨rfl, h₁, h₂, h₈⟩)

/-- A word that is no half of a character is a character by itself, whatever follows. -/
theorem joinPieces_word {n : Nat} (hhigh : Text.isHighHalf n = false)
    (hlow : Text.isLowHalf n = false) (ps : List Piece) :
    joinPieces (.word n :: ps) = (joinPieces ps).map (Char.ofNat n :: ·) := by
  rw [joinPieces.eq_def]
  split <;> simp_all [joinPieces]

/-- The digits of a control read as its number. -/
theorem natural?_hexDigits_control {n : Nat} (h : n < 0x20) :
    Text.natural? 16 (Text.hexDigits Text.hexDigit 4 n) = some n := by
  have all : ∀ k : Fin 0x20, Text.natural? 16 (Text.hexDigits Text.hexDigit 4 k) = some k.val := by
    decide
  exact all ⟨n, h⟩

/-- An escape of two characters, when the second does not announce a number. -/
theorem scanString_simpleEscape {e c : Char} (he : simpleEscape? e = some c) (hu : e ≠ 'u')
    (rest : List Glyph) :
    scanString (some '\\' :: some e :: rest) =
      (scanString rest).map fun p => (.char c :: p.1, p.2) := by
  rw [scanString.eq_def]
  split <;> grind

/-- A character that stands for itself. -/
theorem scanString_plain {c : Char} (hquote : c ≠ '\x22') (hescape : c ≠ '\\')
    (hcontrol : ¬ c.toNat < 0x20) (rest : List Glyph) :
    scanString (some c :: rest) = (scanString rest).map fun p => (.char c :: p.1, p.2) := by
  rw [scanString.eq_def]
  split <;> grind

/-- An escaped character scans to a piece that gives the character back. -/
theorem scanString_escapeChar (c : Char) (rest : List Glyph) :
    ∃ p, scanString ((escapeChar c).map some ++ rest) =
        (scanString rest).map (fun q => (p :: q.1, q.2)) ∧
      ∀ ps, joinPieces (p :: ps) = (joinPieces ps).map (c :: ·) := by
  rcases escapeChar_cases c with ⟨e, hesc, hsimple, hu⟩ | ⟨hesc, hcontrol⟩ | ⟨hesc, hq, hb, hcontrol⟩
  · refine ⟨.char c, ?_, fun _ => rfl⟩
    rw [hesc, List.map_cons, List.map_singleton, List.cons_append, List.singleton_append,
      scanString_simpleEscape hsimple hu]
  · -- Controls are below the halves of characters, so no word after this one can join it.
    refine ⟨.word c.toNat, ?_, ?_⟩
    · obtain ⟨x, y, z, w, hdigits⟩ : ∃ x y z w,
          Text.hexDigits Text.hexDigit 4 c.toNat = [x, y, z, w] := ⟨_, _, _, _, rfl⟩
      have hn := natural?_hexDigits_control hcontrol
      rw [hdigits] at hn
      rw [hesc, hdigits]
      simp [scanString, hn]
    · intro ps
      rw [joinPieces_word (by simp [Text.isHighHalf]; omega) (by simp [Text.isLowHalf]; omega),
        Char.ofNat_toNat]
  · refine ⟨.char c, ?_, fun _ => rfl⟩
    rw [hesc, List.map_singleton, List.singleton_append, scanString_plain hq hb hcontrol]

/-- The inside of a written string scans to pieces that give the text back. -/
theorem scanString_escaped (cs : List Char) (rest : List Glyph) :
    ∃ ps, scanString ((cs.flatMap escapeChar).map some ++ some '\x22' :: rest) = some (ps, rest) ∧
      joinPieces ps = some cs := by
  induction cs with
  | nil => exact ⟨[], by simp [scanString], rfl⟩
  | cons c cs ih =>
    obtain ⟨ps, hps, hjoin⟩ := ih
    obtain ⟨p, hp, hchar⟩ := scanString_escapeChar c
      ((cs.flatMap escapeChar).map some ++ some '\x22' :: rest)
    refine ⟨p :: ps, ?_, ?_⟩
    · rw [List.flatMap_cons, List.map_append, List.append_assoc, hp, hps, Option.map_some]
    · rw [hchar, hjoin, Option.map_some]

/-! ## Texts that scan -/

/-- Whether a text scans to tokens and leaves what follows it as it is.  Fuel is never the limit: what
is left of it is more than the rest of the input, as it was at the start. -/
def Scans (text : String) (ts : List Token) : Prop :=
  ∀ rest fuel, (glyphs text ++ rest).length < fuel →
    ∃ fuel', rest.length < fuel' ∧
      scanTokens fuel (glyphs text ++ rest) = ts ++ scanTokens fuel' rest

namespace Scans

variable {a b text : String} {ts us : List Token} {t : Token}

/-- The tokens of a text that scans. -/
theorem tokens_eq (h : Scans text ts) : tokens (glyphs text) = ts := by
  obtain ⟨fuel', hfuel, hscan⟩ := h [] ((glyphs text).length + 1) (by simp)
  rw [List.append_nil] at hscan
  rw [tokens, hscan]
  cases fuel' with
  | zero => simp at hfuel
  | succ n => simp [scanTokens]

/-- Texts that scan do so one after the other. -/
theorem append (ha : Scans a ts) (hb : Scans b us) : Scans (a ++ b) (ts ++ us) := by
  intro rest fuel hfuel
  rw [glyphs_append, List.append_assoc] at hfuel ⊢
  obtain ⟨fuel₁, hfuel₁, hscan₁⟩ := ha (glyphs b ++ rest) fuel hfuel
  obtain ⟨fuel₂, hfuel₂, hscan₂⟩ := hb rest fuel₁ hfuel₁
  exact ⟨fuel₂, hfuel₂, by rw [hscan₁, hscan₂, List.append_assoc]⟩

/-- White space scans to nothing. -/
theorem space (h : ∀ g ∈ glyphs text, isSpace g = true) : Scans text [] := by
  intro rest fuel hfuel
  rw [List.length_append] at hfuel
  refine ⟨fuel, by omega, ?_⟩
  cases fuel with
  | zero => omega
  | succ n => rw [List.nil_append, scanTokens, scanTokens, List.dropWhile_append_of_pos h]

/-- A token that reads as such before anything. -/
theorem token {g : Glyph} {gs : List Glyph} (htext : glyphs text = g :: gs)
    (hspace : isSpace g = false) (hbad : t ≠ .bad)
    (hscan : ∀ rest, scanToken g (gs ++ rest) = (t, rest)) : Scans text [t] := by
  intro rest fuel hfuel
  rw [htext] at hfuel ⊢
  cases fuel with
  | zero => omega
  | succ n =>
    refine ⟨n, ?_, ?_⟩
    · simp only [List.length_append, List.length_cons] at hfuel
      omega
    · rw [List.cons_append, scanTokens, List.dropWhile_cons_of_neg (by simp [hspace])]
      simp only [hscan]
      cases t <;> simp_all

/-! ## The parts of a written document -/

/-- A mark that is a token by itself. -/
theorem mark {g : Glyph} (htext : glyphs text = [g]) (hspace : isSpace g = false) (hbad : t ≠ .bad)
    (hscan : ∀ rest, scanToken g rest = (t, rest)) : Scans text [t] :=
  token htext hspace hbad hscan

/-- A text in quotes scans to the string of the text. -/
theorem quoted (s : String) : Scans (quoted s) [.string (some s)] := by
  have hglyphs : glyphs (Json.quoted s) =
      some '\x22' :: ((s.toList.flatMap escapeChar).map some ++ [some '\x22']) := by
    simp [Json.quoted, glyphs]
  refine token hglyphs rfl (by simp) ?_
  intro rest
  obtain ⟨ps, hscan, hjoin⟩ := scanString_escaped s.toList rest
  rw [List.append_assoc, List.singleton_append]
  simp [scanToken, stringToken, hscan, hjoin]

/-- Texts that scan still do so with separators between them. -/
theorem intercalate {sep : String} {items : List String} {tss : List (List Token)}
    (hsep : Scans sep [.comma]) (h : List.Forall₂ Scans items tss) :
    Scans (sep.intercalate items) ([Token.comma].intercalate tss) := by
  induction h with
  | nil => exact space (by simp [glyphs])
  | @cons item ts items tss hitem hrest ih =>
    cases hrest with
    | nil => simpa using hitem
    | cons hnext hrest =>
      rw [String.intercalate_cons_cons, List.intercalate_cons_cons]
      exact (hitem.append hsep).append ih

end Scans

/-! ## Documents -/

mutual

/-- The tokens of a document. -/
def tokensOf : Document → List Token
  | .null => [.null]
  | .flag b => [.flag b]
  | .text s => [.string (some s)]
  | .list items => .bracketOpen :: [Token.comma].intercalate (itemTokens items) ++ [.bracketClose]
  | .record entries =>
    .braceOpen :: [Token.comma].intercalate (entryTokens entries) ++ [.braceClose]

/-- The tokens of the items of a list. -/
def itemTokens : List Document → List (List Token)
  | [] => []
  | d :: ds => tokensOf d :: itemTokens ds

/-- The tokens of the entries of a record. -/
def entryTokens : List (String × Document) → List (List Token)
  | [] => []
  | (name, d) :: rest => (.string (some name) :: .colon :: tokensOf d) :: entryTokens rest

end

/-- A word is found at the front of what begins with it. -/
theorem scanWord_append (word : String) (t : Token) (rest : List Glyph) :
    scanWord word t (glyphs word ++ rest) = (t, rest) := by
  simp [scanWord]

theorem scans_null : Scans "null" [.null] :=
  -- A word is looked for with its first letter, which has chosen the word.
  have hglyphs : glyphs "null" = some 'n' :: glyphs "ull" := rfl
  .token hglyphs rfl (by simp) fun rest => scanWord_append "null" .null rest

theorem scans_flag : (b : Bool) → Scans (toString b) [.flag b]
  | true =>
    have hglyphs : glyphs "true" = some 't' :: glyphs "rue" := rfl
    .token hglyphs rfl (by simp) fun rest => scanWord_append "true" (.flag true) rest
  | false =>
    have hglyphs : glyphs "false" = some 'f' :: glyphs "alse" := rfl
    .token hglyphs rfl (by simp) fun rest => scanWord_append "false" (.flag false) rest

theorem scans_bracketOpen : Scans "[" [.bracketOpen] :=
  .mark rfl rfl (by simp) fun _ => rfl

theorem scans_bracketClose : Scans "]" [.bracketClose] :=
  .mark rfl rfl (by simp) fun _ => rfl

theorem scans_braceOpen : Scans "\x7b" [.braceOpen] :=
  .mark rfl rfl (by simp) fun _ => rfl

theorem scans_braceClose : Scans "\x7d" [.braceClose] :=
  .mark rfl rfl (by simp) fun _ => rfl

theorem scans_comma : Scans "," [.comma] :=
  .mark rfl rfl (by simp) fun _ => rfl

theorem scans_colon : Scans ":" [.colon] :=
  .mark rfl rfl (by simp) fun _ => rfl

/-- A blank after a mark changes nothing. -/
theorem scans_colonSpace : Scans ": " [.colon] :=
  scans_colon.append (a := ":") (b := " ") (.space (by simp [glyphs, isSpace]))

mutual

/-- The compact form of a document scans to its tokens. -/
theorem scans_compact : (d : Document) → Scans (compact d) (tokensOf d)
  | .null => scans_null
  | .flag b => scans_flag b
  | .text s => Scans.quoted s
  | .list items => by
    rw [compact, tokensOf]
    exact (scans_bracketOpen.append (scans_comma.intercalate (scans_compactItems items))).append
      scans_bracketClose
  | .record entries => by
    rw [compact, tokensOf]
    exact (scans_braceOpen.append (scans_comma.intercalate (scans_compactEntries entries))).append
      scans_braceClose

theorem scans_compactItems : (ds : List Document) →
    List.Forall₂ Scans (compactItems ds) (itemTokens ds)
  | [] => .nil
  | d :: ds => .cons (scans_compact d) (scans_compactItems ds)

theorem scans_compactEntries : (entries : List (String × Document)) →
    List.Forall₂ Scans (compactEntries entries) (entryTokens entries)
  | [] => .nil
  | (name, d) :: rest =>
    .cons (((Scans.quoted name).append scans_colon).append (scans_compact d))
      (scans_compactEntries rest)

end

/-- A line end and indentation scan to nothing. -/
theorem scans_lineBreak (level : Nat) : Scans (lineBreak level) [] := by
  refine .space fun g hg => ?_
  have hmem : g = some '\n' ∨ g ∈ List.replicate (2 * level) (some ' ') := by
    simpa [lineBreak, glyphs] using hg
  rcases hmem with rfl | hmem
  · rfl
  · rw [List.eq_of_mem_replicate hmem]
    rfl

/-- Items in brackets scan to the tokens of the items in brackets. -/
theorem scans_bracketed {opening closing : String} {t u : Token} (level : Nat)
    (hopen : Scans opening [t]) (hclose : Scans closing [u]) {items : List String}
    {tss : List (List Token)} (h : List.Forall₂ Scans items tss) :
    Scans (bracketed opening closing level items)
      (t :: [Token.comma].intercalate tss ++ [u]) := by
  unfold bracketed
  split
  · next hnil =>
    obtain rfl : items = [] := by simpa using hnil
    cases h
    exact hopen.append hclose
  · have hsep : Scans ("," ++ lineBreak (level + 1)) [.comma] :=
      scans_comma.append (scans_lineBreak (level + 1))
    simpa using (((hopen.append (scans_lineBreak (level + 1))).append (hsep.intercalate h)).append
      (scans_lineBreak level)).append hclose

mutual

/-- The pretty form of a document scans to its tokens. -/
theorem scans_prettyAt : (level : Nat) → (d : Document) → Scans (prettyAt level d) (tokensOf d)
  | _, .null => scans_null
  | _, .flag b => scans_flag b
  | _, .text s => Scans.quoted s
  | level, .list items => by
    rw [prettyAt, tokensOf]
    exact scans_bracketed level scans_bracketOpen scans_bracketClose
      (scans_prettyItems (level + 1) items)
  | level, .record entries => by
    rw [prettyAt, tokensOf]
    exact scans_bracketed level scans_braceOpen scans_braceClose
      (scans_prettyEntries (level + 1) entries)

theorem scans_prettyItems : (level : Nat) → (ds : List Document) →
    List.Forall₂ Scans (prettyItems level ds) (itemTokens ds)
  | _, [] => .nil
  | level, d :: ds => .cons (scans_prettyAt level d) (scans_prettyItems level ds)

theorem scans_prettyEntries : (level : Nat) → (entries : List (String × Document)) →
    List.Forall₂ Scans (prettyEntries level entries) (entryTokens entries)
  | _, [] => .nil
  | level, (name, d) :: rest =>
    .cons (((Scans.quoted name).append scans_colonSpace).append (scans_prettyAt level d))
      (scans_prettyEntries level rest)

end

end TreeSchema.Json
