/-
# TreeSchema.ToolConfig.Files — configurations from files, and back.

A configuration is a YAML file, whatever its name.  Its relative paths are seen from the directory
that it lies in, and are saved as they are seen.
-/
import TreeSchema.Declarations.Files
import TreeSchema.ToolConfig

namespace TreeSchema.ToolConfig

open Files

variable {m : Type → Type} [Monad m]

/-- The configuration with its paths seen from where it lies. -/
def seenFrom (c : ToolConfig) (path : String) : ToolConfig :=
  match Path.parent? path with
  | some base => { c with declarations := c.declarations.map (Path.join base) }
  | none => c

/-- Loads a configuration. -/
def load (fs : Access m) (path : String) : ExceptT LoadError m ToolConfig := do
  let c ← readContent fs .yaml (fun src t => ToolConfig.read src t) path
  pure (c.seenFrom path)

/-- Loads everything that a configuration lists. -/
def loadDeclarations (fs : Access m) (c : ToolConfig) : ExceptT LoadError m Declarations :=
  Declarations.ofPlaces fs c.declarations

/-- Saves a configuration. -/
def save (fs : Access m) (c : ToolConfig) (path : String) : ExceptT LoadError m Unit :=
  writeContent fs .yaml c.toDocument path

end TreeSchema.ToolConfig
