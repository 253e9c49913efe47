import SchemaLint.Lint.Rule
import SchemaLint.Text.Blank

/-!
# The rule registry

Rules are registered under ids and kept in the order of registration. A rule is
made for the names of the plugin library in use when it is selected.
-/

namespace SchemaLint

inductive RegistryError
  | alreadyExists (id : String)
  | invalidId (id : String)
  | unknown (id : String)
deriving DecidableEq, Repr

def RegistryError.message : RegistryError → String
  | alreadyExists id =>
    "rule registration failed: a rule with the id '" ++ id ++
      "' is already registered"
  | invalidId id =>
    "rule registration failed: the id '" ++ id ++
      "' is invalid (empty or whitespace-only ids are not allowed)"
  | unknown id => "unknown rule '" ++ id ++ "'"

def validateId (id : String) : Except RegistryError Unit :=
  if id.toList.all Text.isBlank then .error (.invalidId id) else .ok ()

structure RuleRegistry where
  entries : List (String × (Sdk → Rule)) := []

namespace RuleRegistry

def empty : RuleRegistry := {}

def builtins : RuleRegistry :=
  ⟨[("tfprovlint001", Rule.noSetIdInDelete),
    ("tfprovlint002", fun _ => .attributeExists),
    ("tfprovlint003", fun _ => .attributeTypes),
    ("tfprovlint005", fun _ => .noDereference),
    ("tfprovlint026", fun _ => .reservedNames),
    ("tfprovlint029", Rule.noErrwrapWrapf)]⟩

def ids (registry : RuleRegistry) : List String := registry.entries.map Prod.fst

def contains (registry : RuleRegistry) (id : String) : Bool :=
  registry.ids.contains id

/-- Enters a rule into the registry at hand, which is still there when that
fails. -/
def enter (id : String) (make : Sdk → Rule) :
    ExceptT RegistryError (StateM RuleRegistry) Unit := do
  validateId id
  if (← get).contains id then throw (.alreadyExists id)
  modify fun registry => ⟨registry.entries ++ [(id, make)]⟩

def register (registry : RuleRegistry) (id : String) (make : Sdk → Rule) :
    Except RegistryError RuleRegistry :=
  match (enter id make).run registry with
  | (.ok (), next) => .ok next
  | (.error error, _) => .error error

/-- The registered rules among `included`, all when that is empty, without those
in `excluded`. Every included id must be registered. -/
def select (registry : RuleRegistry) (included excluded : List String)
    (sdk : Sdk) : Except RegistryError (List (String × Rule)) :=
  match included.find? fun id => !registry.contains id with
  | some id => .error (.unknown id)
  | none =>
    let selected := registry.entries.filter fun (id, _) =>
      (included.isEmpty || included.contains id) && !excluded.contains id
    .ok (selected.map fun (id, make) => (id, make sdk))

end RuleRegistry

end SchemaLint
