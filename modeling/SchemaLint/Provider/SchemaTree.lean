import SchemaLint.Provider.Model
import SchemaLint.Sorting

/-!
# Schema trees as text

One line for each component and attribute, children two spaces deeper than what
holds them. A tree that starts too far to the right has no text.
-/

namespace SchemaLint

def indentedLine (indent : Nat) (text : String) : String :=
  String.ofList (List.replicate indent ' ') ++ text ++ "\n"

def indentLimit : Nat := Nat.pow 2 16 - 1

def partialMark (isPartial : Bool) : String :=
  if isPartial then " [partial]" else ""

namespace Attribute

def flags (attr : Attribute) : List String :=
  (if attr.required then ["required"] else []) ++
    (if attr.optional then ["optional"] else []) ++
    (if attr.computed then ["computed"] else [])

def headline (attr : Attribute) : String :=
  attr.name ++ ": " ++ attr.type.name ++
    String.join (attr.flags.map (", " ++ ·)) ++ partialMark attr.isPartial

mutual

def tree (indent : Nat) : Attribute → String
  | attr@⟨_, _, _, _, _, _, children, _, _, _, _⟩ =>
    indentedLine indent attr.headline ++ treeAll (indent + 2) children

def treeAll (indent : Nat) : List Attribute → String
  | [] => ""
  | attr :: rest => tree indent attr ++ treeAll indent rest

end

mutual

def fits (indent : Nat) : Attribute → Bool
  | ⟨_, _, _, _, _, _, children, _, _, _, _⟩ =>
    decide (indent ≤ indentLimit) && allFit (indent + 2) children

def allFit (indent : Nat) : List Attribute → Bool
  | [] => true
  | attr :: rest => fits indent attr && allFit indent rest

end

end Attribute

def Component.tree (component : Component) (indent : Nat) : String :=
  indentedLine indent (component.name ++ partialMark component.isPartial) ++
    Attribute.treeAll (indent + 2) component.attributes

def Component.tree? (component : Component) (indent : Nat) : Option String :=
  if indent ≤ indentLimit &&
      Attribute.allFit (indent + 2) component.attributes then
    some (component.tree indent)
  else none

namespace Provider

/-- A titled list of components by name, or nothing when there are none. -/
def titled (title : String) (components : List Component) : String :=
  if components.isEmpty then ""
  else
    let sorted := sortBy Component.name components
    indentedLine 0 (title ++ ":") ++ String.join (sorted.map (·.tree 2))

def tree (provider : Provider) : String :=
  titled "data sources" provider.dataSources ++
    titled "resources" provider.resources

end Provider

end SchemaLint
