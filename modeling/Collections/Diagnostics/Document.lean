import Collections.Diagnostics.JsonValue
import Collections.Diagnostics.Rendering

set_option autoImplicit false

namespace Collections.Diagnostics

def circularMarker : String := "[Circular]"

def isFormless (heap : Heap) (value : Value) : Bool :=
  ((heap.look? "toJSON" value).map heap.isFunction).getD false

def ofItems (form : Value → Option JsonValue) (items : List Value) : JsonValue :=
  .array (items.map fun item => (form item).getD .null)

def ofEntries (form : Value → Option JsonValue) (entries : List (String × Value)) : JsonValue :=
  .ofMembers (entries.filterMap fun (key, value) => (form value).map fun json => (key, json))

def documentWithin (heap : Heap) (depth : Nat) (above : List Value) (value : Value) :
    Option JsonValue :=
  match depth, value with
  | _, .undefined | _, .symbol _ => none
  | _, .null => some .null
  | _, .bool held => some (.bool held)
  | _, .number held => some (.number held)
  | _, .integer held => some (.text (toString held))
  | _, .text content => some (.text content)
  | _, .intrinsic _ | 0, .object _ => none
  | depth + 1, .object identity =>
      let form := documentWithin heap depth (.object identity :: above)
      if heap.isFunction (.object identity) || isFormless heap (.object identity) then none
      else if .object identity ∈ above then some (.text circularMarker)
      else
        match heap.entity identity with
        | .array items => some (ofItems form items)
        | _ => some (ofEntries form (heap.ownEntries (.object identity)))

-- No object is written within itself, so that documents are no deeper than the heap is large.
def document (heap : Heap) (value : Value) : Option JsonValue :=
  documentWithin heap (heap.entities.size + 1) [] value

def Rendered.document (heap : Heap) : Rendered → Option JsonValue
  | .leaf held => Diagnostics.document heap held
  | .array items => some (ofItems (Diagnostics.document heap) items)
  | .record properties => some (ofEntries (Diagnostics.document heap) properties.entries)

end Collections.Diagnostics
