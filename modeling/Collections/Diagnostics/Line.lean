import Collections.Diagnostics.Clock
import Collections.Diagnostics.Document
import Collections.Diagnostics.Level

set_option autoImplicit false

namespace Collections.Diagnostics

structure Entry where
  level : Value := .undefined
  message : Value := .undefined
  origin : Value := .undefined
  timestamp : Value := .undefined
  context : Value := .undefined
  error : Value := .undefined

def Entry.ofRecord (heap : Heap) (record : Value) : Entry where
  level := heap.property "level" record
  message := heap.property "message" record
  origin := heap.property "module" record
  timestamp := heap.property "timestamp" record
  context := heap.property "context" record
  error := heap.property "error" record

def timestampText : Value → String
  | .text timestamp => timestamp ++ " "
  | _ => ""

def originText : Value → String
  | .text "" => ""
  | .text origin => "[" ++ origin ++ "] "
  | _ => ""

def contextText (heap : Heap) (context : Value) : Except Failure String :=
  if context = .undefined then .ok "" else renderText heap context

-- A coded error reads as more context; any other is set apart from the message.
def errorSeparator (heap : Heap) (context : String) (error : Value) : String :=
  match heap.errorKind? error with
  | some (.coded ..) => if context = "" then " " else ", "
  | _ => " - "

def errorTail (heap : Heap) (context : String) (error : Value) : Except Failure String :=
  if error = .undefined then .ok ""
  else (errorSeparator heap context error ++ ·) <$> renderText heap error

def humanLine (heap : Heap) (entry : Entry) : Except Failure String := do
  let level ← heap.text entry.level
  let message ← heap.display entry.message
  let context ← contextText heap entry.context
  let tail ← errorTail heap context entry.error
  let head := timestampText entry.timestamp ++ originText entry.origin ++ level ++ ": " ++ message
  return head ++ (if context = "" then "" else " " ++ context) ++ tail

structure Call where
  level : Level
  message : Value := .undefined
  context : Value := .undefined
  error : Value := .undefined

def jsonDocument (heap : Heap) (origin : String) (timestamp : Option String) (call : Call) :
    Except Failure JsonValue := do
  let context ← render heap call.context
  let error ← render heap call.error
  return .ofMembers <| List.filterMap (fun (key, form) => form.map fun json => (key, json)) [
    ("context", context.document heap),
    ("error", error.document heap),
    ("level", some (.text call.level.name)),
    ("message", document heap call.message),
    ("module", some (.text origin)),
    ("timestamp", timestamp.map .text)]

def humanEntry (origin : String) (timestamp : Option String) (call : Call) : Entry where
  level := .text (call.level.color.paint call.level.name)
  message := call.message
  origin := .text origin
  timestamp := (timestamp.map .text).getD .undefined
  context := call.context
  error := call.error

end Collections.Diagnostics
