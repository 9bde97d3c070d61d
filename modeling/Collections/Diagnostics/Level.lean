set_option autoImplicit false

namespace Collections.Diagnostics

inductive Level where
  | error | warn | info | verbose | debug
  deriving DecidableEq

namespace Level

def all : List Level := [.error, .warn, .info, .verbose, .debug]

def name : Level → String
  | .error => "error"
  | .warn => "warn"
  | .info => "info"
  | .verbose => "verbose"
  | .debug => "debug"

def priority : Level → Nat
  | .error => 0
  | .warn => 1
  | .info => 2
  | .verbose => 3
  | .debug => 4

def admits (threshold level : Level) : Bool := level.priority ≤ threshold.priority

def ofName? (name : String) : Option Level := all.find? fun level => level.name == name

end Level

inductive Color where
  | red | green | yellow | blue | cyan

namespace Color

def name : Color → String
  | .red => "red"
  | .green => "green"
  | .yellow => "yellow"
  | .blue => "blue"
  | .cyan => "cyan"

def code : Color → Nat
  | .red => 31
  | .green => 32
  | .yellow => 33
  | .blue => 34
  | .cyan => 36

def paint (color : Color) (text : String) : String :=
  "\x1b[" ++ toString color.code ++ "m" ++ text ++ "\x1b[39m"

end Color

def Level.color : Level → Color
  | .error => .red
  | .warn => .yellow
  | .info => .green
  | .verbose => .cyan
  | .debug => .blue

inductive LineForm where
  | human
  | json
  deriving DecidableEq

namespace LineForm

def all : List LineForm := [.human, .json]

def name : LineForm → String
  | .human => "human"
  | .json => "json"

def ofName? (name : String) : Option LineForm := all.find? fun form => form.name == name

end LineForm

-- Hidden timestamps are left out, for output that is stamped elsewhere.
inductive TimestampForm where
  | regular
  | hidden
  deriving DecidableEq

namespace TimestampForm

def all : List TimestampForm := [.regular, .hidden]

def name : TimestampForm → String
  | .regular => "regular"
  | .hidden => "hidden"

def ofName? (name : String) : Option TimestampForm := all.find? fun form => form.name == name

end TimestampForm

end Collections.Diagnostics
