import SchemaLint.Program.Codec
import SchemaLint.Provider.Model

/-!
# Provider documents

The document form of attributes, components and providers. An attribute shows
its children and bounds only when it has them; positions are shown on request
and never read.
-/

namespace SchemaLint

namespace LifecycleSlot

def decode? (document : Document) : Option LifecycleSlot :=
  document.choice?.bind ofLabel?

end LifecycleSlot

namespace AttributeType

def decode? (document : Document) : Option AttributeType :=
  document.choice?.bind ofName?

end AttributeType

namespace Attribute

mutual

def encode (showPos : Bool) : Attribute → Document
  | attr@⟨_, _, _, _, _, _, children, _, _, _, _⟩ =>
    .record ([("name", .text attr.name),
        ("description", .text attr.description),
        ("required", .bool attr.required), ("optional", .bool attr.optional),
        ("computed", .bool attr.computed), ("type", .text attr.type.name)] ++
      (if children.isEmpty then []
        else [("children", .list (encodeAll showPos children))]) ++
      attr.minItems.toList.map (fun n => ("min_items", .int n)) ++
      attr.maxItems.toList.map (fun n => ("max_items", .int n)) ++
      [("partial_parse", .bool attr.isPartial)] ++
      (if showPos then [("pos", attr.pos.encode)] else []))

def encodeAll (showPos : Bool) : List Attribute → List Document
  | [] => []
  | attr :: rest => encode showPos attr :: encodeAll showPos rest

end

def ofMembers? (members : Members) (children : List Attribute) :
    Option Attribute := do
  let flag (name : String) := members.defaulted name Document.bool? false
  return {
    name := ← members.required "name" Document.text?
    description := ← members.defaulted "description" Document.text? ""
    required := ← flag "required"
    optional := ← flag "optional"
    computed := ← flag "computed"
    type := ← members.defaulted "type" AttributeType.decode? .invalid
    children
    minItems := ← members.optional "min_items" Document.int64?
    maxItems := ← members.optional "max_items" Document.int64?
    isPartial := ← flag "partial_parse" }

mutual

def decode? : Document → Option Attribute
  | .record members => do ofMembers? members (← decodeChildren? members)
  | _ => none

def decodeChildren? : Members → Option (List Attribute)
  | [] => some []
  | ("children", .list items) :: _ => decodeAll? items
  | ("children", _) :: _ => none
  | _ :: rest => decodeChildren? rest

def decodeAll? : List Document → Option (List Attribute)
  | [] => some []
  | item :: rest => do return (← decode? item) :: (← decodeAll? rest)

end

end Attribute

def Component.encode (component : Component) : Document :=
  .record [("name", .text component.name),
    ("name_suffix", .text component.nameSuffix),
    ("description", .text component.description),
    ("attributes", .list (Attribute.encodeAll false component.attributes)),
    ("partial_parse", .bool component.isPartial)]

/-- A component with everything that is known of it, positions and functions
included. -/
def Component.encodeFully (component : Component) : Document :=
  .record [("name", .text component.name),
    ("name_suffix", .text component.nameSuffix),
    ("description", .text component.description),
    ("attributes", .list (Attribute.encodeAll true component.attributes)),
    ("partial_parse", .bool component.isPartial),
    ("builder", component.builder.encode), ("pos", component.pos.encode),
    ("lifecycle", .list (LifecycleSlot.all.map fun slot =>
        .nullable FuncId.encode (component.lifecycle? slot))),
    ("declared", .list (component.declared.map fun (slot, func) =>
        .list [.text slot.fieldName, func.encode]))]

def Provider.encode (provider : Provider) : Document :=
  .record [("name", .text provider.name),
    ("data_sources", .list (provider.dataSources.map Component.encode)),
    ("resources", .list (provider.resources.map Component.encode))]

end SchemaLint
