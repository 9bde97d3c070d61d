import Collections.Heap.Coded

set_option autoImplicit false

namespace Collections.Diagnostics

def nestedMarker : String := "[object]"

inductive Rendered where
  | leaf (leaf : Value)
  | array (items : List Value)
  | record (properties : Properties Value)
  deriving DecidableEq

def isNested (heap : Heap) (value : Value) : Bool :=
  match heap.entity? value with
  | some (.record _) | some (.array _) | some (.error _) => true
  | _ => false

def leafText (heap : Heap) (value : Value) : String :=
  if isNested heap value then nestedMarker else value.shallowText heap

def leafOf (heap : Heap) (value : Value) : Value :=
  match value with
  | .undefined | .bool _ | .number _ => value
  | value => .text (leafText heap value)

def assignLeaf (rendered : Properties Value) (key : String) (leaf : Value) : Properties Value :=
  if key = Record.parentKey then rendered else rendered.assign key leaf

def renderEntries (heap : Heap) (entries : List (String × Value)) : Properties Value :=
  entries.foldl (fun rendered (key, value) => assignLeaf rendered key (leafOf heap value)) .empty

def renderError (heap : Heap) (kind : ErrorKind) (value : Value) :
    Except Failure (Properties Value) := do
  let rendered ←
    match kind with
    | .plain => pure (Properties.empty.assign "message" (heap.property "message" value))
    | .coded .. => renderEntries heap <$> heap.metadataEntries "error" value
  let stack := heap.property "stack" value
  return if stack.isTruthy then rendered.assign "stack" stack else rendered

def render (heap : Heap) (value : Value) : Except Failure Rendered :=
  match heap.errorKind? value, heap.entity? value with
  | some kind, _ => .record <$> renderError heap kind value
  | none, some (.array items) => .ok (.array (items.map (leafOf heap)))
  | none, some (.record record) => .ok (.record (renderEntries heap record.own.entries))
  | none, _ => .ok (.leaf (leafOf heap value))

def entryText (heap : Heap) (entry : String × Value) : String :=
  entry.1 ++ "=" ++ leafText heap entry.2

def entriesText (heap : Heap) (entries : List (String × Value)) : String :=
  ", ".intercalate (entries.map (entryText heap))

def errorText (heap : Heap) (kind : ErrorKind) (value : Value) : Except Failure String := do
  let head ←
    match kind with
    | .plain => heap.text (heap.property "message" value)
    | .coded .. => entriesText heap <$> heap.metadataEntries "value" value
  let stack ←
    match heap.property "stack" value with
    | .undefined | .null => pure ""
    | stack => heap.text stack
  return head ++ " " ++ stack

def renderText (heap : Heap) (value : Value) : Except Failure String :=
  match heap.errorKind? value, heap.entity? value with
  | some kind, _ => errorText heap kind value
  | none, some (.array items) => .ok (", ".intercalate (items.map (leafText heap)))
  | none, some (.record record) => .ok (entriesText heap record.own.entries)
  | none, _ => .ok (value.shallowText heap)

end Collections.Diagnostics
