/-
# TreeSchema.Proofs.ToolConfig.Reload — configurations saved where they were loaded.

Loading sees the relative paths of a configuration from the directory that it lies in; saving writes
the paths as they are seen.  So what is loaded after that has them seen from the directory twice.  Paths
are compared as paths: seen twice from the single dot they are written differently and are the same.  From
any other named directory they are not, unless they start from the root.
-/
import TreeSchema.Proofs.Files.Path
import TreeSchema.Proofs.Files.Snapshot
import TreeSchema.Proofs.List
import TreeSchema.ToolConfig.Files

namespace TreeSchema.ToolConfig

open Files

variable {s s₁ : Snapshot} {path : String} {c : ToolConfig}

/-! ## Seeing twice -/

@[simp] theorem equals_self (c : ToolConfig) : c.equals c = true := by
  have hpaths : (c.declarations.map id).isEqv c.declarations Path.equals = true :=
    List.isEqv_map_self_iff.2 fun p _ => Path.equals_self p
  rw [List.map_id] at hpaths
  simp [equals, hpaths]

/-- A configuration seen from where it lies is the same if each of its paths is. -/
theorem equals_seenFrom_iff :
    (c.seenFrom path).equals c = true ↔
      ∀ base, Path.parent? path = some base →
        ∀ p ∈ c.declarations, Path.equals (Path.join base p) p = true := by
  unfold seenFrom
  cases Path.parent? path with
  | none => simp
  | some base => simp [equals, List.isEqv_map_self_iff]

/-- A configuration seen from an absolute directory has only absolute paths. -/
theorem isAbsolute_of_mem_seenFrom {base : String} (hbase : Path.parent? path = some base)
    (habs : Path.isAbsolute base) : ∀ p ∈ (c.seenFrom path).declarations, Path.isAbsolute p := by
  intro p hp
  simp only [seenFrom, hbase, List.mem_map] at hp
  obtain ⟨q, -, rfl⟩ := hp
  exact Path.isAbsolute_join q habs

/-- A configuration seen from the single dot has only absolute paths and such as begin with it. -/
theorem startsHere_of_mem_seenFrom (hbase : Path.parent? path = some ".") {p : String}
    (hp : p ∈ (c.seenFrom path).declarations) (hrel : Path.isAbsolute p = false) :
    Path.startsHere p = true := by
  simp only [seenFrom, hbase, List.mem_map] at hp
  obtain ⟨q, -, rfl⟩ := hp
  by_cases hq : Path.isAbsolute q = true
  · rw [Path.join_of_isAbsolute hq, hq] at hrel
    cases hrel
  · rw [Path.startsHere_join (by decide) (Bool.not_eq_true _ ▸ hq)]
    decide

/-- **Paths seen twice** are the paths seen once exactly if they are seen from the directory without a
name or from the single dot, or all of them start from the root. -/
theorem equals_seenFrom_twice_iff :
    ((c.seenFrom path).seenFrom path).equals (c.seenFrom path) = true ↔
      (∀ base, Path.parent? path = some base → base = "" ∨ base = ".") ∨
        ∀ p ∈ (c.seenFrom path).declarations, Path.isAbsolute p := by
  rw [equals_seenFrom_iff]
  constructor
  · intro h
    by_cases habs : ∀ p ∈ (c.seenFrom path).declarations, Path.isAbsolute p = true
    · exact .inr habs
    · refine .inl fun base hbase => ?_
      simp only [not_forall] at habs
      obtain ⟨p, hp, hrel⟩ := habs
      rcases Path.equals_join_iff.mp (h base hbase p hp) with h | h | ⟨hbaseRel, hnone, -⟩
      · exact absurd h hrel
      · exact .inl h
      · exact Path.eq_of_parent?_of_components_eq_nil hbase hbaseRel hnone
  · rintro (h | h) base hbase p hp
    · rw [Path.equals_join_iff]
      rcases h base hbase with rfl | rfl
      · exact .inr (.inl rfl)
      · cases hrel : Path.isAbsolute p with
        | true => exact .inl rfl
        | false =>
          exact .inr (.inr ⟨by decide, by decide, startsHere_of_mem_seenFrom hbase hp hrel⟩)
    · exact Path.equals_join_iff.mpr (.inl (h p hp))

/-! ## Loading and saving in a snapshot -/

-- As values, configurations are the same if they are written alike.
deriving instance DecidableEq for ToolConfig

/-- The reader reads what the writer writes of a configuration, paths letter by letter. -/
def ReadsBack (c : ToolConfig) : Prop :=
  Format.yaml.readBytes (fun src t => ToolConfig.read src t)
    (Format.yaml.write c.toDocument).toUTF8 = .ok c

instance : Decidable c.ReadsBack := by
  unfold ReadsBack
  infer_instance

/-- Loading opens a file, reads it and sees what is read from where the file lies. -/
theorem load_eq_ok_iff :
    s.perform (load Snapshot.access path) = (.ok c, s₁) ↔
      s₁ = s ∧ ∃ content c₀, s.fetch path = .ok (.file content) ∧
        Format.yaml.readBytes (fun src t => ToolConfig.read src t) content = .ok c₀ ∧
        c₀.seenFrom path = c := by
  rw [load, Snapshot.perform_bind]
  constructor
  · intro h
    split at h
    · next c₀ s' hread =>
      obtain ⟨rfl, content, hfetch, hbytes⟩ := Snapshot.perform_readContent_eq_ok_iff.mp hread
      cases h
      exact ⟨rfl, content, c₀, hfetch, hbytes, rfl⟩
    · cases h
  · rintro ⟨rfl, content, c₀, hfetch, hbytes, rfl⟩
    rw [Snapshot.perform_readContent_eq_ok_iff.mpr ⟨rfl, content, hfetch, hbytes⟩]
    rfl

/-- Loading changes nothing. -/
theorem snd_perform_load : (s.perform (load Snapshot.access path)).2 = s := by
  simp only [load, Snapshot.perform_bind, Snapshot.perform_readContent]
  split
  · next h => simpa using (congrArg Prod.snd h).symm
  · next h => simpa using (congrArg Prod.snd h).symm

/-- **Saving a configuration where it was loaded and loading it again** sees its paths once more, and
gives an equal configuration exactly if the path is absolute, or has no directory part or only the single
dot, or all paths in the configuration are absolute. -/
theorem reload_equals_iff (loaded : s.perform (load Snapshot.access path) = (.ok c, s₁))
    (back : c.ReadsBack) :
    ∃ s₂, s₁.perform (save Snapshot.access c path) = (.ok (), s₂) ∧
      s₂.perform (load Snapshot.access path) = (.ok (c.seenFrom path), s₂) ∧
      ((c.seenFrom path).equals c = true ↔
        Path.isAbsolute path ∨
          (∀ base, Path.parent? path = some base → base = "" ∨ base = ".") ∨
          ∀ p ∈ c.declarations, Path.isAbsolute p) := by
  obtain ⟨rfl, content, c₀, hfetch, -, rfl⟩ := load_eq_ok_iff.mp loaded
  obtain ⟨s₂, hstore, hfetch₂⟩ := Snapshot.store_fetch hfetch
  refine ⟨s₂, Snapshot.perform_writeContent hstore,
    load_eq_ok_iff.mpr ⟨rfl, _, _, hfetch₂, back, rfl⟩, ?_⟩
  rw [equals_seenFrom_twice_iff]
  constructor
  · exact .inr
  · rintro (h | h)
    · -- What was loaded from an absolute path has been made absolute by the first loading.
      by_cases hparent : ∃ base, Path.parent? path = some base
      · obtain ⟨base, hbase⟩ := hparent
        exact .inr (isAbsolute_of_mem_seenFrom hbase (Path.isAbsolute_of_parent? h hbase))
      · exact .inl fun base hbase => absurd ⟨base, hbase⟩ hparent
    · exact h

/-- A configuration with one path. -/
def listing (declarations : String) : ToolConfig := ⟨"1.0", [declarations], "warn"⟩

/-- A snapshot that holds a configuration with a relative path. -/
def holding (path : String) : Snapshot :=
  Snapshot.empty.withFile path "version: \"1.0\"\ndeclarations:\n- x.yml\n".toUTF8

/-- A configuration that is named from the single dot is loaded as another text, which spells the same
path: it equals the configuration that was saved. -/
theorem reload_from_dot :
    (holding "./cfg.yml").perform (load Snapshot.access "./cfg.yml") =
        (.ok (listing "./x.yml"), holding "./cfg.yml") ∧
      (listing "./x.yml").ReadsBack ∧
        ∃ s₂,
          (holding "./cfg.yml").perform (save Snapshot.access (listing "./x.yml") "./cfg.yml") =
              (.ok (), s₂) ∧
            s₂.perform (load Snapshot.access "./cfg.yml") = (.ok (listing "././x.yml"), s₂) ∧
              (listing "././x.yml").equals (listing "./x.yml") = true := by
  have loaded : (holding "./cfg.yml").perform (load Snapshot.access "./cfg.yml") =
      (.ok (listing "./x.yml"), holding "./cfg.yml") :=
    Prod.ext (by decide +kernel) snd_perform_load
  have back : (listing "./x.yml").ReadsBack := by decide +kernel
  obtain ⟨s₂, hsave, hload, hsame⟩ := reload_equals_iff loaded back
  have hdot : ∀ base, Path.parent? "./cfg.yml" = some base → base = "" ∨ base = "." := by
    have hparent : Path.parent? "./cfg.yml" = some "." := by decide +kernel
    simp [hparent]
  have hseen : (listing "./x.yml").seenFrom "./cfg.yml" = listing "././x.yml" := by decide +kernel
  have hequal := hsame.mpr (.inr (.inl hdot))
  rw [hseen] at hload hequal
  exact ⟨loaded, back, s₂, hsave, hload, hequal⟩

/-- A configuration in a directory below is loaded as something else than what was saved: its path is
seen from the directory twice. -/
theorem reload_below :
    ((holding "c/cfg.yml").perform (load Snapshot.access "c/cfg.yml")).1 = .ok (listing "c/x.yml") ∧
      (listing "c/x.yml").ReadsBack ∧
        ((holding "c/cfg.yml").perform do
          let c ← load Snapshot.access "c/cfg.yml"
          save Snapshot.access c "c/cfg.yml"
          load Snapshot.access "c/cfg.yml").1 = .ok (listing "c/c/x.yml") ∧
          (listing "c/c/x.yml").equals (listing "c/x.yml") = false := by
  decide +kernel

end TreeSchema.ToolConfig
