import Contracts.Registry.Prelude
import Contracts.StandardContract

set_option autoImplicit false

/-! # Workspaces

A workspace is where several providers work on one registry: they share the declared types, the
objects and the numbering of adapter types, and each keeps a cache of its own. -/

namespace Contracts

/-- Providers by name, and what they share. -/
structure Workspace where
  registry : Registry := .withPrelude
  heap : Heap := .empty
  nextId : Nat := 1
  providers : List (String × Provider) := []

namespace Workspace

/-- The provider of a name. -/
def provider? (w : Workspace) (name : String) : Option Provider := w.providers.lookup name

/-- Set up a provider under a name, in place of the one before if there was one. -/
def setProvider (w : Workspace) (name : String) (p : Provider) : Workspace :=
  { w with providers := (name, p) :: w.providers.filter (·.1 ≠ name) }

/-- The world as one provider sees it. -/
def enter (w : Workspace) (p : Provider) : World := ⟨w.registry, w.heap, ⟨p.cache, w.nextId⟩⟩

/-- Take over what an action of a provider did. -/
def leave (w : Workspace) (name : String) (config : Config) (after : World) : Workspace :=
  { w with
    registry := after.registry
    heap := after.heap
    nextId := after.provider.nextId }.setProvider name ⟨config, after.provider.cache⟩

/-- Run an action of a provider. -/
def act {α : Type} (name : String) (p : Provider) (action : World.Action α) :
    EStateM ContractError Workspace α := fun w =>
  match action (w.enter p) with
  | .ok a after => .ok a (w.leave name p.config after)
  | .error e after => .error e (w.leave name p.config after)

/-- Change the registry. -/
def declare {α : Type} (change : Registry.Change α) : EStateM RegistryError Workspace α := fun w =>
  match change w.registry with
  | .ok a registry => .ok a { w with registry }
  | .error e registry => .error e { w with registry }

/-- Run a member. -/
def eval {α : Type} (run : Registry → Eval α) : EStateM EvalError Workspace α := fun w =>
  match run w.registry w.heap with
  | .ok a heap => .ok a { w with heap }
  | .error e heap => .error e { w with heap }

end Workspace

end Contracts
