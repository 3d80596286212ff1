import TagLoom.Proofs.Code.Nodes

/-!
# Tags of a generated registry

Looking a tag up in the registry of generated code gives its entry, and rendering it is followed by
the renderer.

## Bindings of a generated registry

The registry of generated code binds the parameters of a tag from a model to the values that the
renderer binds them to.
-/

namespace TagLoom.Code

open Joint Value

/-! ## Code of bindings -/

/-- A model as one side has it.  Models come from outside and hold no blocks. -/
def modelFor (β : Type) (model : Env Empty) : Env β :=
  expandEntries (fun code => code.elim) model

variable [Language] {pkg : Package} {bundle : Bundle} {s : Setting} {P : LeafSpec} {n : Nat}

/-- A binding of a parameter, with the code of its default. -/
structure Binds (n : Nat) (pkg : Package) (bundle : Bundle) (param : Param) (b : Binding) : Prop where
  same : b.param = param
  passes : param.required = false → ∃ e, param.default = some e ∧
    Passes n pkg bundle pkg.registry.programs [] b.default param.type
      (converted [] ([] : Env NodeBlock) e param.type)

end TagLoom.Code

namespace TagLoom

/-! ## Looking tags up -/

namespace TagRegistry

variable {β : Type}

end TagRegistry

namespace Code

open Joint Value

variable [Language] {pkg : Package} {bundle : Bundle} {s : Setting} {P : LeafSpec} {n : Nat}

/-! ## Entries -/

end Code

end TagLoom
