import Collections.Diagnostics.Line

set_option autoImplicit false

namespace Collections.Diagnostics

structure LoggerOptions where
  level : Level
  origin : Option String := none
  form : Option LineForm := none
  timestamps : Option TimestampForm := none

-- A call is made when its turn comes, and its line is stamped with the moment of the turn.
structure Turn where
  now : Moment
  call : HeapAction Call

structure Console where
  heap : Heap
  lines : List String := []

/-- What makes calls and writes lines. Lines that have been written stay, whatever fails later. -/
abbrev Writing (α : Type) := EStateM Failure Console α

namespace Console

def text (console : Console) : String := String.join (console.lines.map fun line => line ++ "\n")

def perform {α : Type} (action : HeapAction α) : Writing α := fun console =>
  match action console.heap with
  | .ok answer heap => .ok answer { console with heap }
  | .error failure heap => .error failure { console with heap }

def print (line : String) : Writing Unit :=
  modify fun console => { console with lines := console.lines ++ [line] }

def filled (writing : Writing Unit) : HeapAction Console := fun heap =>
  match writing { heap } with
  | .ok () console => .ok console console.heap
  | .error failure console => .error failure console.heap

end Console

namespace LoggerOptions

def entries (options : LoggerOptions) : List (String × Value) :=
  let kept (text : Option String) : Value := (text.map .text).getD .undefined
  [("level", .text options.level.name),
    ("module", kept options.origin),
    ("format", kept (options.form.map LineForm.name)),
    ("timestampFormat", kept (options.timestamps.map TimestampForm.name))]

def timestamp (options : LoggerOptions) (now : Moment) : Except Failure (Option String) :=
  if options.timestamps = some .hidden then .ok none
  else if now.InCalendar then .ok (some now.stamp)
  else .error .momentOutOfRange

def line (options : LoggerOptions) (heap : Heap) (now : Moment) (call : Call) :
    Except Failure String := do
  let origin := options.origin.getD ""
  let timestamp ← options.timestamp now
  match options.form.getD .human with
  | .human => humanLine heap (humanEntry origin timestamp call)
  | .json => return (← jsonDocument heap origin timestamp call).toText

/-- The line of a call, if it is admitted. A line that fails does so in either case. -/
def line? (options : LoggerOptions) (heap : Heap) (now : Moment) (call : Call) :
    Except Failure (Option String) := do
  let line ← options.line heap now call
  return if options.level.admits call.level then some line else none

def log (options : LoggerOptions) (turn : Turn) : Writing Unit := do
  let call ← Console.perform turn.call
  let written ← Console.perform (Heap.ask fun heap => options.line? heap turn.now call)
  match written with
  | some line => Console.print line
  | none => return ()

-- The lines of calls that are all made at one moment, if none of them fails.
def lines (options : LoggerOptions) (now : Moment) (calls : List (HeapAction Call)) :
    HeapAction (List String) :=
  Console.lines <$> Console.filled ((calls.map (Turn.mk now)).forM options.log)

end LoggerOptions

end Collections.Diagnostics
