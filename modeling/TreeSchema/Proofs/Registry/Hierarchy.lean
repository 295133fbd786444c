/-
# TreeSchema.Proofs.Registry.Hierarchy — the kinds of a valid registry form a forest.

Asking whether one kind extends another is a walk that is cut off after as many steps as there are
kinds.  `Coherent.isA_iff` shows that the cut loses nothing: a longer way has met a kind twice, and
leaving the detour out gives a shorter one.  So the question is plain reachability along parents, and
its laws are those of a function iterated.  What validation adds is that no way leads back, and that
every way ends.
-/
import TreeSchema.Node.Construction
import TreeSchema.Proofs.Registry.Validation

namespace TreeSchema

namespace Registry

variable {r : Registry}

/-! ## Ways up -/

/-- Within a number of steps an ancestor is found exactly when it is that few parents up. -/
theorem isAWithin_iff (r : Registry) (a : String) (n : Nat) (k : String) :
    r.isAWithin a n k = true ↔ ∃ m, m ≤ n ∧ r.up m k = some a := by
  induction n generalizing k with
  | zero => simp [isAWithin, up]
  | succ n ih =>
      rw [isAWithin, Bool.or_eq_true, beq_iff_eq]
      constructor
      · rintro (rfl | h)
        · exact ⟨0, Nat.zero_le _, rfl⟩
        · cases hp : r.parent? k with
          | none => simp [hp] at h
          | some p =>
              obtain ⟨m, hm, hup⟩ := (ih p).1 (by simpa [hp] using h)
              exact ⟨m + 1, Nat.succ_le_succ hm, by rw [up, hp, Option.bind_some, hup]⟩
      · rintro ⟨m, hm, hup⟩
        cases m with
        | zero => exact Or.inl (Option.some.inj hup)
        | succ m =>
            obtain ⟨p, hp, hup⟩ := Option.bind_eq_some_iff.1 hup
            refine Or.inr ?_
            simp only [hp]
            exact (ih p).2 ⟨m, Nat.le_of_succ_le_succ hm, hup⟩

/-- Two ways one after the other. -/
theorem up_trans {m n : Nat} {a b c : String} (hab : r.up m a = some b) (hbc : r.up n b = some c) :
    r.up (m + n) a = some c := by
  rw [up_add, hab, Option.bind_some, hbc]

/-- Of two ways up from one kind, the longer one goes on from where the shorter one ends. -/
theorem up_sub {m n : Nat} {k a b : String} (hmn : m ≤ n) (ha : r.up m k = some a)
    (hb : r.up n k = some b) : r.up (n - m) a = some b := by
  have hsplit : n = m + (n - m) := by omega
  rwa [hsplit, up_add, ha, Option.bind_some] at hb

/-- All kinds on a way up are registered, but perhaps for the last. -/
theorem goesOn_of_up {n : Nat} {k a : String} (h : r.up (n + 1) k = some a) :
    r.goesOn n k = true := by
  rw [up_add] at h
  obtain ⟨b, hb, hba⟩ := Option.bind_eq_some_iff.1 h
  obtain ⟨p, hp, -⟩ := Option.bind_eq_some_iff.1 hba
  exact (goesOn_iff r n k).2 ⟨b, hb, contains_of_parent? hp⟩

/-- A way that leads back can be gone again. -/
theorem up_mul {n : Nat} {k : String} (h : r.up n k = some k) (times : Nat) :
    r.up (times * n) k = some k := by
  induction times with
  | zero => rw [Nat.zero_mul, up]
  | succ times ih =>
      rw [Nat.succ_mul]
      exact up_trans ih h

/-- From a kind that some way leads back to, the chain of parents never ends. -/
theorem isEndless_of_up_self {n : Nat} {k : String} (h : r.up (n + 1) k = some k) :
    r.isEndless k = true := by
  -- gone once more than there are kinds, the way is long enough
  have hlong := up_mul h (r.size + 1)
  rw [Nat.mul_succ, Nat.add_succ] at hlong
  exact goesOn_of_le (Nat.le_add_left _ _) (goesOn_of_up hlong)

namespace Coherent

/-- What lies up from a kind lies no more steps up than there are kinds. -/
theorem exists_up_le (h : r.Coherent) {n : Nat} {k a : String} (hup : r.up n k = some a) :
    ∃ m, m ≤ r.size ∧ r.up m k = some a := by
  classical
  have hex : ∃ n, r.up n k = some a := ⟨n, hup⟩
  refine ⟨Nat.find hex, ?_, Nat.find_spec hex⟩
  by_contra hlong
  -- the shortest way is too long, so it meets a kind twice and is not the shortest
  obtain ⟨rest, hrest⟩ : ∃ rest, Nat.find hex = r.size + rest + 1 :=
    ⟨Nat.find hex - r.size - 1, by omega⟩
  have hspec := Nat.find_spec hex
  rw [hrest] at hspec
  have hendless : r.isEndless k = true := goesOn_of_le (by omega) (goesOn_of_up hspec)
  obtain ⟨i, j, hij, hj, hsame⟩ := h.up_repeats hendless
  have hsplit : r.size + rest + 1 = j + (r.size + rest + 1 - j) := by omega
  rw [hsplit, up_add, ← hsame, ← up_add] at hspec
  exact Nat.find_min hex (by omega) hspec

/-- **Extending is reachability along parents**: the walk is never cut off before it gets there. -/
theorem isA_iff (h : r.Coherent) (k a : String) :
    r.isA k a = true ↔ ∃ n, r.up n k = some a := by
  rw [isA, isAWithin_iff]
  constructor
  · rintro ⟨n, -, hup⟩
    exact ⟨n, hup⟩
  · rintro ⟨n, hup⟩
    exact h.exists_up_le hup

/-! ## The laws of extending -/

theorem isA_refl (h : r.Coherent) (k : String) : r.isA k k = true :=
  (h.isA_iff k k).2 ⟨0, rfl⟩

theorem isA_trans (h : r.Coherent) {a b c : String} (hab : r.isA a b = true)
    (hbc : r.isA b c = true) : r.isA a c = true := by
  obtain ⟨m, hm⟩ := (h.isA_iff a b).1 hab
  obtain ⟨n, hn⟩ := (h.isA_iff b c).1 hbc
  exact (h.isA_iff a c).2 ⟨m + n, up_trans hm hn⟩

/-- Whatever a kind extends lies on one line. -/
theorem isA_linear (h : r.Coherent) {k a b : String} (ha : r.isA k a = true)
    (hb : r.isA k b = true) : r.isA a b = true ∨ r.isA b a = true := by
  obtain ⟨m, hm⟩ := (h.isA_iff k a).1 ha
  obtain ⟨n, hn⟩ := (h.isA_iff k b).1 hb
  rcases Nat.le_total m n with hmn | hmn
  · exact Or.inl ((h.isA_iff a b).2 ⟨n - m, up_sub hmn hm hn⟩)
  · exact Or.inr ((h.isA_iff b a).2 ⟨m - n, up_sub hmn hn hm⟩)

/-- Validation leaves no kind from which the chain of parents never ends. -/
theorem isEndless_eq_false (h : r.Coherent) (hvalid : r.validate = .ok ()) (k : String) :
    r.isEndless k = false := by
  by_contra hend
  rw [Bool.not_eq_false] at hend
  have hregistered : r.contains k = true := goesOn_of_le (Nat.zero_le _) hend
  obtain ⟨s, hs, rfl⟩ := (h.contains_iff k).1 hregistered
  rw [(Registry.validate_eq_ok_iff.1 hvalid).2 s hs] at hend
  exact Bool.false_ne_true hend

/-- Two kinds that extend each other are one kind. -/
theorem isA_antisymm (h : r.Coherent) (hvalid : r.validate = .ok ()) {a b : String}
    (hab : r.isA a b = true) (hba : r.isA b a = true) : a = b := by
  obtain ⟨m, hm⟩ := (h.isA_iff a b).1 hab
  obtain ⟨n, hn⟩ := (h.isA_iff b a).1 hba
  cases m with
  | zero => exact Option.some.inj hm
  | succ m =>
      have hback := up_trans hm hn
      rw [Nat.add_right_comm] at hback
      have hend := isEndless_of_up_self hback
      rw [h.isEndless_eq_false hvalid a] at hend
      exact absurd hend Bool.false_ne_true

/-! ## Chains end -/

/-- The parent of a kind in a valid registry is registered. -/
theorem contains_parent (h : r.Coherent) (hvalid : r.validate = .ok ()) {k p : String}
    (hp : r.parent? k = some p) : r.contains p = true := by
  obtain ⟨s, hs, hparent⟩ := Option.bind_eq_some_iff.1 hp
  have hmem := (h.get?_eq_some_iff.1 hs).1
  exact (Registry.validate_eq_ok_iff.1 hvalid).1 s hmem p
    (NodeSchema.mem_references_iff.2 (Or.inl hparent))

end Coherent

/-- A chain of registered kinds, from a kind up to one without a parent, each the parent of the one
before it. -/
structure RootChain (r : Registry) (k : String) (chain : List String) : Prop where
  starts : chain.head? = some k
  climbs : chain.IsChain fun a b => r.parent? a = some b
  registered : ∀ a ∈ chain, r.contains a = true
  ends : ∃ root, chain.getLast? = some root ∧ r.parent? root = none

/-- One more kind below a chain. -/
theorem RootChain.cons {k p : String} {chain : List String} (h : r.RootChain p chain)
    (hk : r.contains k = true) (hp : r.parent? k = some p) : r.RootChain k (k :: chain) := by
  obtain ⟨rest, rfl⟩ : ∃ rest, chain = p :: rest := List.head?_eq_some_iff.1 h.starts
  exact
    { starts := rfl
      climbs := List.isChain_cons_cons.2 ⟨hp, h.climbs⟩
      registered := List.forall_mem_cons.2 ⟨hk, h.registered⟩
      ends := h.ends }

/-- A chain that does not go on for some number of steps ends before. -/
theorem Coherent.exists_rootChain_of_goesOn (h : r.Coherent) (hvalid : r.validate = .ok ()) {n : Nat}
    {k : String} (hk : r.contains k = true) (hstop : r.goesOn n k = false) :
    ∃ chain, r.RootChain k chain := by
  induction n generalizing k with
  | zero =>
      rw [goesOn, hk] at hstop
      cases hstop
  | succ n ih =>
      cases hp : r.parent? k with
      | none =>
          refine ⟨[k], rfl, List.isChain_singleton k, ?_, k, rfl, hp⟩
          intro a ha
          rwa [List.mem_singleton.1 ha]
      | some p =>
          rw [goesOn, hp] at hstop
          obtain ⟨chain, hchain⟩ := ih (h.contains_parent hvalid hp) hstop
          exact ⟨k :: chain, hchain.cons hk hp⟩

end Registry

/-! ## Field types -/

/-- A type that refers to an ancestor takes all that a type does which refers to a descendant. -/
theorem FieldType.admits_node_of_isA {home : Sealed} (h : home.registry.Coherent) {a b : String}
    (hab : home.registry.isA a b = true) {v : Value} (hv : (node a).admits home v = true) :
    (node b).admits home v = true := by
  cases v with
  | node n =>
      simp only [FieldType.admits, Bool.and_eq_true] at hv ⊢
      exact ⟨hv.1, h.isA_trans hv.2 hab⟩
  | _ => cases hv

namespace Registry

/-- **The kinds of a valid registry form a forest, and field types respect it.**  Extending is
reflexive, transitive and antisymmetric on all texts, what a kind extends lies on one line, and from
every registered kind a chain of registered kinds leads up to one without a parent.  A type that refers
to a kind takes every value that a type does which refers to a kind below it. -/
theorem hierarchy_forest {r : Registry} (hgrown : r.Grown) (hvalid : r.validate = .ok ()) :
    (∀ k, r.isA k k = true) ∧
      (∀ a b c, r.isA a b = true → r.isA b c = true → r.isA a c = true) ∧
      (∀ a b, r.isA a b = true → r.isA b a = true → a = b) ∧
      (∀ k a b, r.isA k a = true → r.isA k b = true → r.isA a b = true ∨ r.isA b a = true) ∧
      (∀ k, r.contains k = true → ∃ chain, r.RootChain k chain) ∧
      ∀ home : Sealed, home.registry = r → ∀ a b, r.isA a b = true → ∀ v,
        (FieldType.node a).admits home v = true → (FieldType.node b).admits home v = true := by
  have h := hgrown.coherent
  refine ⟨h.isA_refl, fun _ _ _ => h.isA_trans, fun _ _ => h.isA_antisymm hvalid,
    fun _ _ _ => h.isA_linear, fun k hk => ?_, ?_⟩
  · exact h.exists_rootChain_of_goesOn hvalid hk (h.isEndless_eq_false hvalid k)
  · rintro home rfl a b hab v hv
    exact FieldType.admits_node_of_isA h hab hv

/-- Three kinds in a row, and one beside them. -/
def lineage : List NodeSchema :=
  [⟨"Name", some "expr", none, []⟩, ⟨"stmt", some "node", none, []⟩, ⟨"expr", some "node", none, []⟩,
    ⟨"node", none, none, []⟩]

/-- Names extend expressions and with them nodes, so what refers to nodes takes a name. -/
theorem hierarchy_forest_lineage :
    ∃ r home n, empty.registerAll lineage = .ok r ∧ r.seal 0 = .ok home ∧
      home.node "Name" = .ok n ∧ r.isA "stmt" "expr" = false ∧
      (∃ chain, r.RootChain "Name" chain) ∧ r.isA "Name" "node" = true ∧
      (FieldType.node "node").admits home (.node n) = true := by
  refine ⟨_, ⟨0, _, rfl⟩, _, rfl, rfl, rfl, by decide, ?_⟩
  have hregistered : empty.registerAll lineage = .ok _ := rfl
  obtain ⟨-, htrans, -, -, hchain, hadmits⟩ :=
    hierarchy_forest (Grown.empty.registerAll hregistered) rfl
  have habove := htrans "Name" "expr" "node" (by decide) (by decide)
  exact ⟨hchain "Name" (by decide), habove,
    hadmits _ rfl "expr" "node" (by decide) _ (by decide)⟩

end Registry

end TreeSchema
