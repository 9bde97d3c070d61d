import Collections.Diagnostics.Environment
import Collections.Proofs.Diagnostics.Lines

set_option autoImplicit false

namespace Collections.Diagnostics

section Choices

variable {α : Type} (name : α → String)

/-- An option goes before a setting, and a setting that names a choice exactly before the default. -/
inductive Picks (option : Option α) (setting : Option String) (default : α) : α → Prop
  | given {choice : α} (asked : option = some choice) : Picks option setting default choice
  | named {choice : α} (free : option = none) (named : setting = some (name choice)) :
      Picks option setting default choice
  | default (free : option = none) (unnamed : ∀ choice, setting ≠ some (name choice)) :
      Picks option setting default default

variable {name} {choices : List α} (complete : ∀ choice, choice ∈ choices)
  (apart : ∀ left right, name left = name right → left = right)

include complete apart

theorem named_iff {setting : Option String} {choice : α} :
    (setting.bind fun text => choices.find? fun choice => name choice == text) = some choice ↔
      setting = some (name choice) := by
  constructor
  next =>
    intro found
    obtain ⟨text, rfl, found⟩ := Option.bind_eq_some_iff.1 found
    have same : name choice = text := by simpa using List.find?_some found
    rw [same]
  next =>
    rintro rfl
    have there : (choices.find? fun other => name other == name choice).isSome :=
      List.find?_isSome.2 ⟨choice, complete choice, by simp⟩
    obtain ⟨other, found⟩ := Option.isSome_iff_exists.1 there
    have same : name other = name choice := by simpa using List.find?_some found
    rw [Option.bind_some, found, apart other choice same]

theorem picks_iff {option : Option α} {setting : Option String} {default choice : α} :
    Picks name option setting default choice ↔
      (option <|> setting.bind fun text => choices.find? fun choice => name choice == text).getD
        default = choice := by
  have named (choice : α) :
      (setting.bind fun text => choices.find? fun choice => name choice == text) = some choice ↔
        setting = some (name choice) := named_iff complete apart
  constructor
  next =>
    intro picks
    cases picks with
    | given asked => simp [asked]
    | named free spelled => simp [free, (named choice).2 spelled]
    | default free unnamed =>
      have none := Option.eq_none_iff_forall_ne_some.2 fun choice found =>
        unnamed choice ((named choice).1 found)
      simp [free, none]
  next =>
    rintro rfl
    cases option with
    | some choice => exact .given rfl
    | none =>
      cases found : setting.bind fun text => choices.find? fun choice => name choice == text with
      | some choice => exact .named rfl ((named choice).1 found)
      | none => exact .default rfl fun choice spelled => nomatch found.symm.trans ((named choice).2 spelled)

end Choices

section Names

theorem Level.name_inj (left right : Level) (same : left.name = right.name) : left = right := by
  cases left <;> cases right <;> simp_all [Level.name]

theorem LineForm.name_inj (left right : LineForm) (same : left.name = right.name) : left = right := by
  cases left <;> cases right <;> simp_all [LineForm.name]

theorem TimestampForm.name_inj (left right : TimestampForm) (same : left.name = right.name) :
    left = right := by
  cases left <;> cases right <;> simp_all [TimestampForm.name]

end Names

namespace Environment

variable (environment : Environment) (options : PartialOptions)

def Switched (switch : String) : Prop := (environment.get? switch).getD "" ≠ ""

instance (switch : String) : Decidable (environment.Switched switch) := by
  unfold Switched
  infer_instance

inductive Chooses : Option Level → Prop
  | given {level : Level} (asked : options.level = some level) : Chooses (some level)
  | named {level : Level} (free : options.level = none)
      (named : environment.get? "LOG_LEVEL" = some level.name) : Chooses (some level)
  | debug (free : options.level = none)
      (unnamed : ∀ level : Level, environment.get? "LOG_LEVEL" ≠ some level.name)
      (debugged : environment.Switched "DEBUG") : Chooses (some .debug)
  | verbose (free : options.level = none)
      (unnamed : ∀ level : Level, environment.get? "LOG_LEVEL" ≠ some level.name)
      (undebugged : ¬ environment.Switched "DEBUG") (told : environment.Switched "VERBOSE") :
      Chooses (some .verbose)
  | silent (free : options.level = none)
      (unnamed : ∀ level : Level, environment.get? "LOG_LEVEL" ≠ some level.name)
      (undebugged : ¬ environment.Switched "DEBUG") (untold : ¬ environment.Switched "VERBOSE") :
      Chooses none

variable {environment options}

theorem isSet_iff {switch : String} : environment.isSet switch = true ↔ environment.Switched switch := by
  simp [isSet, Switched]

theorem chooses_iff {threshold : Option Level} :
    environment.Chooses options threshold ↔ (options.level <|> environment.level?) = threshold := by
  have named (level : Level) : (environment.get? "LOG_LEVEL").bind Level.ofName? = some level ↔
      environment.get? "LOG_LEVEL" = some level.name :=
    named_iff (by rintro ⟨⟩ <;> decide) Level.name_inj
  have nothing (unnamed : ∀ level : Level, environment.get? "LOG_LEVEL" ≠ some level.name) :
      (environment.get? "LOG_LEVEL").bind Level.ofName? = none :=
    Option.eq_none_iff_forall_ne_some.2 fun level found => unnamed level ((named level).1 found)
  constructor
  next =>
    intro chooses
    cases chooses with
    | given asked => simp [asked]
    | named free spelled => simp [free, level?, (named _).2 spelled]
    | debug free unnamed debugged => simp [free, level?, nothing unnamed, isSet_iff.2 debugged]
    | verbose free unnamed undebugged told =>
      simp [free, level?, nothing unnamed, isSet_iff, undebugged, told]
    | silent free unnamed undebugged untold =>
      simp [free, level?, nothing unnamed, isSet_iff, undebugged, untold]
  next =>
    rintro rfl
    cases asked : options.level with
    | some level => exact .given asked
    | none =>
      cases found : (environment.get? "LOG_LEVEL").bind Level.ofName? with
      | some level => simpa [level?, found] using .named asked ((named level).1 found)
      | none =>
        have unnamed (level : Level) : environment.get? "LOG_LEVEL" ≠ some level.name := fun spelled =>
          nomatch found.symm.trans ((named level).2 spelled)
        by_cases debugged : environment.Switched "DEBUG"
        · simpa [level?, found, isSet_iff, debugged] using .debug asked unnamed debugged
        · by_cases told : environment.Switched "VERBOSE"
          · simpa [level?, found, isSet_iff, debugged, told] using .verbose asked unnamed debugged told
          · simpa [level?, found, isSet_iff, debugged, told] using .silent asked unnamed debugged told

end Environment

structure Style where
  origin : String
  form : LineForm
  timestamps : TimestampForm

def Style.options (style : Style) (level : Level) : LoggerOptions where
  level
  origin := some style.origin
  form := some style.form
  timestamps := some style.timestamps

structure Made where
  now : Moment
  heap : Heap
  call : Call

-- The line of a call as it has been made, or why there is none.
def Style.line (style : Style) (made : Made) : Except Failure String :=
  (style.options .error).line made.heap made.now made.call

structure Environment.Settles (environment : Environment) (options : PartialOptions)
    (threshold : Option Level) (style : Style) : Prop where
  threshold : environment.Chooses options threshold
  origin : style.origin = options.origin.getD ""
  form : Picks LineForm.name options.form (environment.get? "LOG_FORMAT") .human style.form
  timestamps : Picks TimestampForm.name options.timestamps (environment.get? "LOG_TIMESTAMP_FORMAT")
    .regular style.timestamps

def LoggerOptions.style (options : LoggerOptions) : Style where
  origin := options.origin.getD ""
  form := options.form.getD .human
  timestamps := options.timestamps.getD .regular

theorem LoggerOptions.line_eq (options : LoggerOptions) (made : Made) :
    options.line made.heap made.now made.call = options.style.line made := by
  obtain ⟨level, origin, _ | form, _ | timestamps⟩ := options <;> rfl

theorem Environment.settles_iff {environment : Environment} {options : PartialOptions}
    {threshold : Option Level} {style : Style} :
    environment.Settles options threshold style ↔
      (options.level <|> environment.level?) = threshold ∧
        style = ⟨options.origin.getD "", (options.form <|> environment.form?).getD .human,
          (options.timestamps <|> environment.timestamps?).getD .regular⟩ := by
  have form (form : LineForm) :
      Picks LineForm.name options.form (environment.get? "LOG_FORMAT") .human form ↔
        (options.form <|> environment.form?).getD .human = form :=
    picks_iff (by rintro ⟨⟩ <;> decide) LineForm.name_inj
  have timestamps (timestamps : TimestampForm) :
      Picks TimestampForm.name options.timestamps (environment.get? "LOG_TIMESTAMP_FORMAT") .regular
          timestamps ↔ (options.timestamps <|> environment.timestamps?).getD .regular = timestamps :=
    picks_iff (by rintro ⟨⟩ <;> decide) TimestampForm.name_inj
  obtain ⟨origin, _, _⟩ := style
  constructor
  next =>
    intro settles
    have := settles.origin
    have := (form _).1 settles.form
    have := (timestamps _).1 settles.timestamps
    simp_all [chooses_iff.1 settles.threshold]
  next =>
    rintro ⟨threshold, ⟨⟩⟩
    exact ⟨chooses_iff.2 threshold, rfl, (form _).2 rfl, (timestamps _).2 rfl⟩

/-- The calls are made in turn, each on the heap that it finds. -/
inductive Makes : List Turn → Heap → List Made → Heap → Prop
  | nil (heap : Heap) : Makes [] heap [] heap
  | cons {turn : Turn} {turns : List Turn} {before middle after : Heap} {call : Call}
      {made : List Made} (answered : turn.call before = .ok call middle)
      (rest : Makes turns middle made after) :
      Makes (turn :: turns) before (⟨turn.now, middle, call⟩ :: made) after

theorem Makes.unique {turns : List Turn} {before after last : Heap} {made other : List Made}
    (makes : Makes turns before made after) (makesToo : Makes turns before other last) :
    made = other ∧ after = last := by
  induction makes generalizing other with
  | nil heap =>
    cases makesToo
    exact ⟨rfl, rfl⟩
  | cons answered rest ih =>
    cases makesToo with
    | cons answeredToo restToo =>
      cases answered.symm.trans answeredToo
      obtain ⟨rfl, rfl⟩ := ih restToo
      exact ⟨rfl, rfl⟩

def admitted (threshold : Option Level) (made : Made) : Bool :=
  threshold.any fun level => level.admits made.call.level

namespace Style

variable (style : Style)

def Formats (made : List Made) : Prop := ∀ call ∈ made, ∃ line, style.line call = .ok line

def written (threshold : Option Level) (made : List Made) : List String :=
  (made.filter (admitted threshold)).map fun call => (style.line call).toOption.getD ""

def console (threshold : Option Level) (made : List Made) : String :=
  String.join ((style.written threshold made).map fun line => line ++ "\n")

/-- A turn ends the run: its call fails, or there is no line of it where somebody listens. -/
inductive Breaks (threshold : Option Level) (turn : Turn) (before : Heap) : Failure → Heap → Prop
  | call {failure : Failure} {after : Heap} (failed : turn.call before = .error failure after) :
      Breaks threshold turn before failure after
  | line {failure : Failure} {after : Heap} {call : Call} (heard : threshold.isSome)
      (answered : turn.call before = .ok call after)
      (failed : style.line ⟨turn.now, after, call⟩ = .error failure) :
      Breaks threshold turn before failure after

variable {style} {threshold strict : Option Level} {call : Made} {made : List Made} {line : String}

theorem formats_cons : style.Formats (call :: made) ↔ style.Formats [call] ∧ style.Formats made := by
  simp [Formats]

theorem written_none (made : List Made) : style.written none made = [] := by
  have nothing : made.filter (admitted none) = [] := List.filter_eq_nil_iff.2 fun _ _ => by simp [admitted]
  rw [written, nothing, List.map_nil]

theorem written_cons (threshold : Option Level) (call : Made) (made : List Made) :
    style.written threshold (call :: made) =
      style.written threshold [call] ++ style.written threshold made := by
  unfold written
  by_cases admits : admitted threshold call <;> simp [admits]

theorem written_single (formats : style.line call = .ok line) :
    style.written threshold [call] = if admitted threshold call then [line] else [] := by
  unfold written
  by_cases admits : admitted threshold call <;> simp [admits, formats, Except.toOption]

theorem Breaks.heard {turn : Turn} {before after : Heap} {failure : Failure}
    (breaks : style.Breaks threshold turn before failure after) (heard : strict.isSome) :
    style.Breaks strict turn before failure after := by
  cases breaks with
  | call failed => exact .call failed
  | line _ answered failed => exact .line heard answered failed

end Style

section Turns

variable {environment : Environment} {options : PartialOptions} {threshold : Option Level}
  {style : Style} {turn : Turn} {turns : List Turn} {before after : Console} {made : List Made}
  {failure : Failure}

theorem ask_eq {α : Type} (question : Heap → Except Failure α) (heap : Heap) :
    Heap.ask question heap =
      match question heap with
      | .ok result => .ok result heap
      | .error failure => .error failure heap := by
  have asked : Heap.ask question heap = (match question heap with
      | .ok result => pure result
      | .error failure => throw failure : HeapAction α) heap := rfl
  rw [asked]
  cases question heap <;> rfl

theorem LoggerOptions.log_eq (options : LoggerOptions) (turn : Turn) (before : Console) :
    options.log turn before =
      match turn.call before.heap with
      | .error failure heap => .error failure { before with heap }
      | .ok call heap =>
        match options.line heap turn.now call with
        | .error failure => .error failure { before with heap }
        | .ok line =>
          .ok () ⟨heap, before.lines ++ if options.level.admits call.level then [line] else []⟩ := by
  simp only [LoggerOptions.log, bind, EStateM.bind, Console.perform]
  cases turn.call before.heap with
  | error failure heap => rfl
  | ok call heap =>
    dsimp only
    rw [ask_eq, LoggerOptions.line?]
    cases options.line heap turn.now call with
    | error failure => rfl
    | ok line =>
      cases admits : options.level.admits call.level
      · simp [bind, Except.bind, pure, Except.pure, EStateM.pure]
      · rfl

theorem log_eq (settles : environment.Settles options threshold style) (turn : Turn)
    (before : Console) :
    environment.log options turn before =
      match turn.call before.heap with
      | .error failure heap => .error failure { before with heap }
      | .ok call heap =>
        if threshold.isSome then
          match style.line ⟨turn.now, heap, call⟩ with
          | .error failure => .error failure { before with heap }
          | .ok _ => .ok () ⟨heap, before.lines ++ style.written threshold [⟨turn.now, heap, call⟩]⟩
        else .ok () { before with heap } := by
  obtain ⟨chosen, rfl⟩ := Environment.settles_iff.1 settles
  cases threshold with
  | none =>
    have silent : environment.logger? options = none := by simp [Environment.logger?, chosen]
    simp only [Environment.log, silent, bind, EStateM.bind, Console.perform]
    cases turn.call before.heap <;> rfl
  | some level =>
    have loud : environment.logger? options = some ⟨level, options.origin,
        options.form <|> environment.form?, options.timestamps <|> environment.timestamps?⟩ := by
      simp [Environment.logger?, chosen]
    simp only [Environment.log, loud, LoggerOptions.log_eq]
    cases turn.call before.heap with
    | error failure heap => rfl
    | ok call heap =>
      dsimp only
      rw [LoggerOptions.line_eq _ ⟨turn.now, heap, call⟩]
      simp only [LoggerOptions.style]
      cases formats : Style.line _ _ with
      | error failure => simp
      | ok line =>
        rw [Style.written_single formats]
        cases admits : level.admits call.level <;> simp [admitted, admits]

theorem log_writes (settles : environment.Settles options threshold style) (before : Console)
    {call : Call} {heap : Heap} (answered : turn.call before.heap = .ok call heap)
    (formats : threshold.isSome → style.Formats [⟨turn.now, heap, call⟩]) :
    environment.log options turn before =
      .ok () ⟨heap, before.lines ++ style.written threshold [⟨turn.now, heap, call⟩]⟩ := by
  rw [log_eq settles, answered]
  dsimp only
  split
  next heard =>
    obtain ⟨line, formats⟩ := formats heard _ (List.mem_singleton_self _)
    rw [formats]
  next silent =>
    rw [Option.not_isSome_iff_eq_none.1 silent, Style.written_none, List.append_nil]

theorem log_breaks (settles : environment.Settles options threshold style) {heap : Heap}
    (breaks : style.Breaks threshold turn before.heap failure heap) :
    environment.log options turn before = .error failure { before with heap } := by
  rw [log_eq settles]
  cases breaks with
  | call failed => rw [failed]
  | line heard answered failed =>
    rw [answered]
    simp only [heard, if_true, failed]

theorem makes_or_breaks (style : Style) (threshold : Option Level) (turns : List Turn)
    (before : Heap) :
    (∃ made after, Makes turns before made after ∧ (threshold.isSome → style.Formats made)) ∨
      ∃ earlier turn later made middle failure after, turns = earlier ++ turn :: later ∧
        Makes earlier before made middle ∧ (threshold.isSome → style.Formats made) ∧
          style.Breaks threshold turn middle failure after := by
  induction turns generalizing before with
  | nil => exact .inl ⟨[], before, .nil _, fun _ => List.forall_mem_nil _⟩
  | cons turn turns ih =>
    cases answered : turn.call before with
    | error failure after =>
      exact .inr ⟨[], turn, turns, [], before, failure, after, rfl, .nil _,
        fun _ => List.forall_mem_nil _, .call answered⟩
    | ok call middle =>
      by_cases fails : threshold.isSome ∧ ∃ failure, style.line ⟨turn.now, middle, call⟩ = .error failure
      next =>
        obtain ⟨heard, failure, failed⟩ := fails
        exact .inr ⟨[], turn, turns, [], before, failure, middle, rfl, .nil _,
          fun _ => List.forall_mem_nil _, .line heard answered failed⟩
      next =>
        have first (heard : threshold.isSome) : style.Formats [⟨turn.now, middle, call⟩] := by
          refine List.forall_mem_singleton.2 ?_
          cases formats : style.line ⟨turn.now, middle, call⟩ with
          | ok line => exact ⟨line, rfl⟩
          | error failure => exact (fails ⟨heard, failure, formats⟩).elim
        rcases ih middle with ⟨made, after, makes, formats⟩ |
          ⟨earlier, breaking, later, made, last, failure, after, rfl, makes, formats, breaks⟩
        · exact .inl ⟨_, after, .cons answered makes, fun heard =>
            Style.formats_cons.2 ⟨first heard, formats heard⟩⟩
        · exact .inr ⟨turn :: earlier, breaking, later, _, last, failure, after, rfl,
            .cons answered makes, fun heard => Style.formats_cons.2 ⟨first heard, formats heard⟩, breaks⟩

theorem logEach_cons (environment : Environment) (options : PartialOptions) (turn : Turn)
    (turns : List Turn) (before : Console) :
    environment.logEach options (turn :: turns) before =
      match environment.log options turn before with
      | .ok () middle => environment.logEach options turns middle
      | .error failure after => .error failure after := by
  change EStateM.bind (environment.log options turn)
    (fun _ => environment.logEach options turns) before = _
  unfold EStateM.bind
  cases environment.log options turn before <;> rfl

theorem logEach_append (settles : environment.Settles options threshold style) {heap middle : Heap}
    (makes : Makes turns heap made middle) (formats : threshold.isSome → style.Formats made)
    (lines : List String) (later : List Turn) :
    environment.logEach options (turns ++ later) ⟨heap, lines⟩ =
      environment.logEach options later ⟨middle, lines ++ style.written threshold made⟩ := by
  induction makes generalizing lines with
  | nil heap =>
    have nothing : style.written threshold [] = [] := rfl
    rw [nothing, List.append_nil, List.nil_append]
  | @cons turn turns before middle after call made answered rest ih =>
    have first := log_writes settles ⟨before, lines⟩ answered fun heard =>
      (Style.formats_cons.1 (formats heard)).1
    rw [List.cons_append, logEach_cons, first]
    dsimp only
    rw [ih fun heard => (Style.formats_cons.1 (formats heard)).2, Style.written_cons threshold _ made,
      List.append_assoc]

theorem logEach_writes (settles : environment.Settles options threshold style) {heap after : Heap}
    {lines : List String} (makes : Makes turns heap made after)
    (formats : threshold.isSome → style.Formats made) :
    environment.logEach options turns ⟨heap, lines⟩ =
      .ok () ⟨after, lines ++ style.written threshold made⟩ := by
  have run := logEach_append settles makes formats lines []
  rwa [List.append_nil] at run

theorem logEach_breaks (settles : environment.Settles options threshold style)
    {heap middle after : Heap} {lines : List String} (makes : Makes turns heap made middle)
    (formats : threshold.isSome → style.Formats made)
    (breaks : style.Breaks threshold turn middle failure after) (later : List Turn) :
    environment.logEach options (turns ++ turn :: later) ⟨heap, lines⟩ =
      .error failure ⟨after, lines ++ style.written threshold made⟩ := by
  rw [logEach_append settles makes formats, logEach_cons, log_breaks settles breaks]

theorem logEach_eq_ok_iff (settles : environment.Settles options threshold style) :
    environment.logEach options turns before = .ok () after ↔
      ∃ made, Makes turns before.heap made after.heap ∧ (threshold.isSome → style.Formats made) ∧
        after.lines = before.lines ++ style.written threshold made := by
  obtain ⟨heap, lines⟩ := before
  obtain ⟨last, _⟩ := after
  constructor
  next =>
    intro wrote
    rcases makes_or_breaks style threshold turns heap with ⟨made, after, makes, formats⟩ |
      ⟨earlier, turn, later, made, middle, failure, after, rfl, makes, formats, breaks⟩
    next =>
      cases wrote.symm.trans (logEach_writes settles makes formats)
      exact ⟨made, makes, formats, rfl⟩
    next => cases wrote.symm.trans (logEach_breaks settles makes formats breaks later)
  next =>
    rintro ⟨made, makes, formats, rfl⟩
    exact logEach_writes settles makes formats

theorem logEach_eq_error_iff (settles : environment.Settles options threshold style) :
    environment.logEach options turns before = .error failure after ↔
      ∃ earlier turn later made middle, turns = earlier ++ turn :: later ∧
        Makes earlier before.heap made middle ∧ (threshold.isSome → style.Formats made) ∧
          style.Breaks threshold turn middle failure after.heap ∧
            after.lines = before.lines ++ style.written threshold made := by
  obtain ⟨heap, lines⟩ := before
  obtain ⟨last, _⟩ := after
  constructor
  next =>
    intro wrote
    rcases makes_or_breaks style threshold turns heap with ⟨made, after, makes, formats⟩ |
      ⟨earlier, turn, later, made, middle, failure, after, rfl, makes, formats, breaks⟩
    next => cases wrote.symm.trans (logEach_writes settles makes formats)
    next =>
      cases wrote.symm.trans (logEach_breaks settles makes formats breaks later)
      exact ⟨earlier, turn, later, made, middle, rfl, makes, formats, breaks, rfl⟩
  next =>
    rintro ⟨earlier, turn, later, made, middle, rfl, makes, formats, breaks, rfl⟩
    exact logEach_breaks settles makes formats breaks later

theorem consoleText_eq_ok_iff (settles : environment.Settles options threshold style) {now : Moment}
    {calls : List (HeapAction Call)} {heap last : Heap} {text : String} :
    environment.consoleText options now calls heap = .ok text last ↔
      ∃ made, Makes (calls.map (Turn.mk now)) heap made last ∧
        (threshold.isSome → style.Formats made) ∧ text = style.console threshold made := by
  have opened : environment.consoleText options now calls heap =
      match environment.logEach options (calls.map (Turn.mk now)) { heap } with
      | .ok () console => .ok console.text console.heap
      | .error failure console => .error failure console.heap := by
    change EStateM.map Console.text (Console.filled _) heap = _
    unfold EStateM.map Console.filled
    cases environment.logEach options (calls.map (Turn.mk now)) { heap } <;> rfl
  rw [opened]
  constructor
  next =>
    intro wrote
    split at wrote
    next console logs =>
      cases wrote
      obtain ⟨made, makes, formats, lines⟩ := (logEach_eq_ok_iff settles).1 logs
      exact ⟨made, makes, formats, by rw [Console.text, lines]; rfl⟩
    next => cases wrote
  next =>
    rintro ⟨made, makes, formats, rfl⟩
    rw [logEach_writes settles makes formats]
    rfl

end Turns

inductive Loggable (heap : Heap) : Value → Prop
  | plain {value : Value} (plain : heap.errorKind? value = none) : Loggable heap value
  | error {identity : Nat} {error : ErrorObject} (found : heap.entity identity = .error error)
      (stack : error.stack = .undefined ∨ ∃ content, error.stack = .text content) :
      Loggable heap (.object identity)

structure Call.Typed (heap : Heap) (call : Call) : Prop where
  message : ∃ content, call.message = .text content
  context : Loggable heap call.context
  error : Loggable heap call.error

section Typed

variable {heap : Heap} {value : Value}

theorem Loggable.upright (loggable : Loggable heap value) : Upright heap value := by
  cases loggable with
  | plain plain => exact fun _ _ coded => nomatch plain.symm.trans coded
  | error found _ => exact upright_of_error found

theorem Loggable.writes (loggable : Loggable heap value) : ∃ text, renderText heap value = .ok text := by
  have upright := loggable.upright
  cases loggable with
  | plain plain =>
    rw [renderText, plain]
    split
    next impossible => cases impossible
    all_goals exact ⟨_, rfl⟩
  | @error identity error found stack =>
    obtain ⟨kind, message, held⟩ := error
    have isError : heap.errorKind? (.object identity) = some kind := by simp [Heap.errorKind?, found]
    have stacked : heap.property "stack" (.object identity) = held := stack_of_error found
    have said := message_of_error found
    change held = .undefined ∨ ∃ content, held = .text content at stack
    rw [renderText, isError]
    cases kind with
    | plain =>
      rcases stack with rfl | ⟨content, rfl⟩ <;> exact ⟨_, by simp only [errorText, said, stacked]; rfl⟩
    | coded family metadata =>
      obtain ⟨entries, listed⟩ :=
        (metadataEntries_succeeds_iff "value").2 (upright family metadata isError)
      rcases stack with rfl | ⟨content, rfl⟩ <;> exact ⟨_, by simp only [errorText, listed, stacked]; rfl⟩

theorem Call.Typed.formats {call : Call} {now : Moment} (typed : call.Typed heap) {style : Style}
    (dated : style.timestamps = .hidden ∨ now.InCalendar) :
    ∃ line, style.line ⟨now, heap, call⟩ = .ok line := by
  obtain ⟨content, said⟩ := typed.message
  obtain ⟨timestamp, stamps⟩ : ∃ timestamp, (style.options .error).timestamp now = .ok timestamp :=
    ⟨_, timestamp_eq_ok_iff.2 ⟨dated.imp_left (congrArg some), rfl⟩⟩
  obtain ⟨origin, form, timestamps⟩ := style
  cases form with
  | json =>
    exact (line_succeeds_iff rfl).2
      ⟨typed.context.upright, typed.error.upright, dated.imp_left (congrArg some)⟩
  | human =>
    obtain ⟨context, writes⟩ : ∃ text, contextText heap call.context = .ok text := by
      unfold contextText
      split
      next => exact ⟨_, rfl⟩
      next => exact typed.context.writes
    obtain ⟨tail, ends⟩ : ∃ text, errorTail heap context call.error = .ok text := by
      obtain ⟨error, writes⟩ := typed.error.writes
      unfold errorTail
      split
      next => exact ⟨_, rfl⟩
      next => exact ⟨_, by rw [writes]; rfl⟩
    have told (content : String) : heap.text (.text content) = .ok content := rfl
    have shown : heap.display (.text content) = .ok content := rfl
    obtain ⟨line, human⟩ : ∃ line, humanLine heap (humanEntry origin timestamp call) = .ok line :=
      ⟨_, by simp only [humanLine, humanEntry, said, told, shown, writes, bind, Except.bind, ends]; rfl⟩
    simp only [Style.line, LoggerOptions.line, stamps]
    exact ⟨line, human⟩

end Typed

/-- Whether a logger admits no call that another does not admit. -/
def Stricter (strict loose : Option Level) : Prop :=
  ∀ level ∈ strict, ∃ other ∈ loose, level.priority ≤ other.priority

section Levels

variable {strict loose : Option Level}

theorem Stricter.admits (stricter : Stricter strict loose) {call : Made}
    (admits : admitted strict call) : admitted loose call := by
  obtain ⟨level, here, below⟩ := (Option.any_eq_true _ _).1 admits
  obtain ⟨other, there, above⟩ := stricter level here
  refine (Option.any_eq_true _ _).2 ⟨other, there, ?_⟩
  simp only [Level.admits, decide_eq_true_eq] at below ⊢
  omega

theorem Stricter.filter_filter (stricter : Stricter strict loose) (made : List Made) :
    (made.filter (admitted loose)).filter (admitted strict) = made.filter (admitted strict) := by
  rw [List.filter_filter]
  refine List.filter_congr fun call _ => ?_
  cases admits : admitted strict call with
  | true => simp [stricter.admits admits]
  | false => rfl

theorem Stricter.written_sublist (stricter : Stricter strict loose) (style : Style)
    (made : List Made) : (style.written strict made).Sublist (style.written loose made) := by
  unfold Style.written
  rw [← stricter.filter_filter made]
  exact List.filter_sublist.map _

end Levels

structure Environment.SameForms (environment other : Environment) : Prop where
  form : other.get? "LOG_FORMAT" = environment.get? "LOG_FORMAT"
  timestamps : other.get? "LOG_TIMESTAMP_FORMAT" = environment.get? "LOG_TIMESTAMP_FORMAT"

theorem Environment.Settles.relevel {environment other : Environment} {options : PartialOptions}
    {threshold strict : Option Level} {style : Style} (settles : environment.Settles options threshold style)
    (same : environment.SameForms other) {level : Option Level}
    (chooses : other.Chooses { options with level } strict) :
    other.Settles { options with level } strict style where
  threshold := chooses
  origin := settles.origin
  form := same.form ▸ settles.form
  timestamps := same.timestamps ▸ settles.timestamps

/--
What is written are the lines of the calls that the level admits, each once and in order, up to the call
that fails if one does; calls that are given what their types say never fail. Where another configuration
settles on a stricter level and differs in nothing else, it writes those of the lines whose calls it admits.
-/
theorem output_is_complete_and_monotone (environment : Environment) (options : PartialOptions)
    (turns : List Turn) (before : Console) :
    (∃ threshold style, environment.Settles options threshold style) ∧
    ∀ threshold style, environment.Settles options threshold style →
      (∀ after, environment.logEach options turns before = .ok () after ↔
        ∃ made, Makes turns before.heap made after.heap ∧ (threshold.isSome → style.Formats made) ∧
          after.lines = before.lines ++ style.written threshold made) ∧
      (∀ failure after, environment.logEach options turns before = .error failure after ↔
        ∃ earlier turn later made middle, turns = earlier ++ turn :: later ∧
          Makes earlier before.heap made middle ∧ (threshold.isSome → style.Formats made) ∧
            style.Breaks threshold turn middle failure after.heap ∧
              after.lines = before.lines ++ style.written threshold made) ∧
      (∀ now calls heap text last,
        environment.consoleText options now calls heap = .ok text last ↔
          ∃ made, Makes (calls.map (Turn.mk now)) heap made last ∧
            (threshold.isSome → style.Formats made) ∧ text = style.console threshold made) ∧
      (∀ made after, Makes turns before.heap made after →
        (∀ call ∈ made, call.call.Typed call.heap ∧
          (style.timestamps = .hidden ∨ call.now.InCalendar)) →
        environment.logEach options turns before =
          .ok () ⟨after, before.lines ++ style.written threshold made⟩) ∧
      ∀ other level strict, environment.SameForms other → other.Chooses { options with level } strict →
        Stricter strict threshold →
        (∀ made, (made.filter (admitted threshold)).filter (admitted strict) =
            made.filter (admitted strict) ∧
          (style.written strict made).Sublist (style.written threshold made)) ∧
        (∀ after, environment.logEach options turns before = .ok () after →
          ∃ made, Makes turns before.heap made after.heap ∧
            after.lines = before.lines ++ style.written threshold made ∧
              other.logEach { options with level } turns before =
                .ok () ⟨after.heap, before.lines ++ style.written strict made⟩) ∧
        ∀ failure after, environment.logEach options turns before = .error failure after →
          strict.isSome → ∃ earlier turn later made middle, turns = earlier ++ turn :: later ∧
            Makes earlier before.heap made middle ∧
              style.Breaks threshold turn middle failure after.heap ∧
                after.lines = before.lines ++ style.written threshold made ∧
                  other.logEach { options with level } turns before =
                    .error failure ⟨after.heap, before.lines ++ style.written strict made⟩ := by
  constructor
  next => exact ⟨_, _, Environment.settles_iff.2 ⟨rfl, rfl⟩⟩
  next =>
    intro threshold style settles
    refine ⟨fun _ => logEach_eq_ok_iff settles, fun _ _ => logEach_eq_error_iff settles,
      fun _ _ _ _ _ => consoleText_eq_ok_iff settles, ?_, ?_⟩
    next =>
      intro made after makes typed
      refine logEach_writes settles makes fun _ call listed => ?_
      exact (typed call listed).1.formats (typed call listed).2
    next =>
      intro other level strict same chooses stricter
      have relevelled := settles.relevel same chooses
      have loud (heard : strict.isSome) : threshold.isSome := by
        obtain ⟨level, here⟩ := Option.isSome_iff_exists.1 heard
        obtain ⟨_, there, _⟩ := stricter level here
        exact Option.isSome_of_mem there
      refine ⟨fun made => ⟨stricter.filter_filter made, stricter.written_sublist style made⟩, ?_, ?_⟩
      next =>
        intro after wrote
        obtain ⟨made, makes, formats, lines⟩ := (logEach_eq_ok_iff settles).1 wrote
        exact ⟨made, makes, lines,
          logEach_writes relevelled makes fun heard => formats (loud heard)⟩
      next =>
        intro failure after broke heard
        obtain ⟨earlier, turn, later, made, middle, rfl, makes, formats, breaks, lines⟩ :=
          (logEach_eq_error_iff settles).1 broke
        exact ⟨earlier, turn, later, made, middle, rfl, makes, breaks, lines,
          logEach_breaks relevelled makes (fun _ => formats (loud heard)) (breaks.heard heard) later⟩

theorem output_is_complete_and_monotone_from_verbose_to_error :
    let environment : Environment := ⟨[("LOG_LEVEL", "Debug"), ("VERBOSE", "1"), ("LOG_FORMAT", "xml")]⟩
    let other : Environment := ⟨[("DEBUG", "1"), ("LOG_FORMAT", "xml")]⟩
    let options : PartialOptions := { origin := some "m" }
    let said (level : Level) (content : String) : Call := { level, message := .text content }
    let turns : List Turn :=
      [⟨⟨0⟩, pure (said .warn "a")⟩, ⟨⟨1000⟩, pure (said .debug "b")⟩, ⟨⟨2000⟩, pure (said .error "c")⟩]
    let undated : Turn := ⟨⟨8640000000000001⟩, pure (said .debug "d")⟩
    let warned := "Jan-01 00:00:00.000 [m] \x1b[33mwarn\x1b[39m: a"
    let failed := "Jan-01 00:00:02.000 [m] \x1b[31merror\x1b[39m: c"
    environment.Settles options (some .verbose) ⟨"m", .human, .regular⟩ ∧
      other.Chooses { options with level := some .error } (some .error) ∧
      environment.logEach options turns { heap := {} } = .ok () ⟨{}, [warned, failed]⟩ ∧
      other.logEach { options with level := some .error } turns { heap := {} } = .ok () ⟨{}, [failed]⟩ ∧
      environment.logEach options (turns ++ [undated]) { heap := {} } =
        .error .momentOutOfRange ⟨{}, [warned, failed]⟩ ∧
      other.logEach { options with level := some .error } (turns ++ [undated]) { heap := {} } =
        .error .momentOutOfRange ⟨{}, [failed]⟩ := by
  intro environment other options said turns undated warned failed
  let style : Style := ⟨"m", .human, .regular⟩
  let made : List Made :=
    [⟨⟨0⟩, {}, said .warn "a"⟩, ⟨⟨1000⟩, {}, said .debug "b"⟩, ⟨⟨2000⟩, {}, said .error "c"⟩]
  have settles : environment.Settles options (some .verbose) style :=
    ⟨.verbose rfl (by rintro ⟨⟩ <;> decide) (by decide) (by decide), rfl,
      .default rfl (by rintro ⟨⟩ <;> decide), .default rfl (by rintro ⟨⟩ <;> decide)⟩
  have chooses : other.Chooses { options with level := some .error } (some .error) := .given rfl
  have stricter : Stricter (some .error) (some .verbose) := by
    rintro _ ⟨⟩
    exact ⟨.verbose, rfl, by decide⟩
  have makes : Makes turns {} made {} := .cons rfl (.cons rfl (.cons rfl (.nil _)))
  have plain (level : Level) (content : String) (heap : Heap) : (said level content).Typed heap :=
    ⟨⟨content, rfl⟩, .plain rfl, .plain rfl⟩
  have typed : ∀ call ∈ made, call.call.Typed call.heap ∧
      (style.timestamps = .hidden ∨ call.now.InCalendar) := by
    simp only [made, List.forall_mem_cons]
    exact ⟨⟨plain _ _ _, .inr (by decide)⟩, ⟨plain _ _ _, .inr (by decide)⟩,
      ⟨plain _ _ _, .inr (by decide)⟩, List.forall_mem_nil _⟩
  have formats : style.Formats made := fun call listed => (typed call listed).1.formats (typed call listed).2
  have loose : style.written (some .verbose) made = [warned, failed] := by decide +kernel
  have strict : style.written (some .error) made = [failed] := by decide +kernel
  obtain ⟨-, outputs⟩ := output_is_complete_and_monotone environment options turns { heap := {} }
  obtain ⟨-, -, -, answers, quieter⟩ := outputs _ _ settles
  have wrote := answers made {} makes typed
  obtain ⟨-, answersToo, -⟩ :=
    quieter other (some .error) (some .error) ⟨rfl, rfl⟩ chooses stricter
  obtain ⟨again, makesToo, -, wroteToo⟩ := answersToo _ wrote
  obtain ⟨rfl, -⟩ := makesToo.unique makes
  obtain ⟨-, outputs⟩ :=
    output_is_complete_and_monotone environment options (turns ++ [undated]) { heap := {} }
  obtain ⟨-, breaks, -, -, quieter⟩ := outputs _ _ settles
  have broke := (breaks .momentOutOfRange ⟨{}, style.written (some .verbose) made⟩).2
    ⟨turns, undated, [], made, {}, rfl, makes, fun _ => formats, .line rfl rfl rfl, rfl⟩
  obtain ⟨-, -, breaksToo⟩ :=
    quieter other (some .error) (some .error) ⟨rfl, rfl⟩ chooses stricter
  obtain ⟨earlier, turn, later, broken, middle, split, makesToo, breaks, -, brokeToo⟩ :=
    breaksToo _ _ broke rfl
  have whole {now : Moment} (dated : now.InCalendar) (level : Level) (content : String) :
      ¬style.Breaks (some .verbose) ⟨now, pure (said level content)⟩ middle .momentOutOfRange {} := by
    rintro (⟨⟨⟩⟩ | ⟨-, ⟨⟩, failed⟩)
    obtain ⟨line, formats⟩ := (plain level content _).formats (.inr dated)
    cases formats.symm.trans failed
  have same : broken = made := by
    rcases List.eq_nil_or_concat later with rfl | ⟨front, last, rfl⟩
    next =>
      obtain ⟨rfl, -⟩ := List.append_inj' split rfl
      exact (makesToo.unique makes).1
    next =>
      rw [List.concat_eq_append, ← List.cons_append, ← List.append_assoc] at split
      obtain ⟨split, -⟩ := List.append_inj' split rfl
      have listed : turn ∈ turns := split ▸ by simp
      simp only [turns, List.mem_cons, List.not_mem_nil, or_false] at listed
      rcases listed with rfl | rfl | rfl
      all_goals exact (whole (by decide) _ _ breaks).elim
  rw [loose] at wrote broke
  rw [strict] at wroteToo
  rw [same, strict] at brokeToo
  exact ⟨settles, chooses, wrote, wroteToo, broke, brokeToo⟩

end Collections.Diagnostics
