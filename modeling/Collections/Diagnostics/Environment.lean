import Collections.Diagnostics.Logger

set_option autoImplicit false

namespace Collections.Diagnostics

structure Environment where
  settings : List (String × String) := []

structure PartialOptions where
  level : Option Level := none
  origin : Option String := none
  form : Option LineForm := none
  timestamps : Option TimestampForm := none

namespace Environment

/-- What a variable is set to. A setting ends before its first null character. -/
def get? (environment : Environment) (name : String) : Option String :=
  (environment.settings.lookup name).map fun setting =>
    String.ofList (setting.toList.takeWhile (· ≠ '\x00'))

def isSet (environment : Environment) (name : String) : Bool :=
  (environment.get? name).getD "" != ""

def level? (environment : Environment) : Option Level :=
  match (environment.get? "LOG_LEVEL").bind Level.ofName? with
  | some level => some level
  | none =>
      if environment.isSet "DEBUG" then some .debug
      else if environment.isSet "VERBOSE" then some .verbose
      else none

def form? (environment : Environment) : Option LineForm :=
  (environment.get? "LOG_FORMAT").bind LineForm.ofName?

def timestamps? (environment : Environment) : Option TimestampForm :=
  (environment.get? "LOG_TIMESTAMP_FORMAT").bind TimestampForm.ofName?

def logger? (environment : Environment) (options : PartialOptions) : Option LoggerOptions :=
  (options.level <|> environment.level?).map fun level =>
    { level
      origin := options.origin
      form := options.form <|> environment.form?
      timestamps := options.timestamps <|> environment.timestamps? }

-- Without a logger the call is made all the same.
def log (environment : Environment) (options : PartialOptions) (turn : Turn) : Writing Unit :=
  match environment.logger? options with
  | none => do
      let _ ← Console.perform turn.call
  | some logger => logger.log turn

def logEach (environment : Environment) (options : PartialOptions) (turns : List Turn) :
    Writing Unit :=
  turns.forM (environment.log options)

def consoleText (environment : Environment) (options : PartialOptions) (now : Moment)
    (calls : List (HeapAction Call)) : HeapAction String :=
  Console.text <$> Console.filled (environment.logEach options (calls.map (Turn.mk now)))

end Environment

end Collections.Diagnostics
