import Collections.Diagnostics.Logger
import Collections.Proofs.Diagnostics.Canonical
import Collections.Proofs.Diagnostics.Rendering

set_option autoImplicit false

namespace Collections.Diagnostics

open JsonValue

def told? (heap : Heap) : Value → Option JsonValue
  | .undefined | .symbol _ => none
  | .null => some .null
  | .bool held => some (.bool held)
  | .number held => some (if held.units?.isSome then .number held.unsignedZero else .null)
  | .integer held => some (.text (toString held))
  | .text content => some (.text content)
  | value => (document heap value).map told

section Values

variable {heap : Heap}

theorem told?_eq (value : Value) : told? heap value = (document heap value).map told := by
  cases value <;> rfl

def Rendered.Tells (heap : Heap) (json : JsonValue) : Rendered → Prop
  | .leaf held => told? heap held = some json
  | .array items => json = .array (items.map fun item => (told? heap item).getD .null)
  | .record properties =>
      ∃ members, json = .object members ∧
        Lists (fun key json => ∃ value, (key, value) ∈ properties.entries ∧ told? heap value = some json)
          members

theorem told_ofItems (items : List Value) :
    (ofItems (document heap) items).told = .array (items.map fun item => (told? heap item).getD .null) := by
  rw [ofItems, told, toldItems_eq_map, List.map_map]
  refine congrArg JsonValue.array (List.map_congr_left fun item _ => ?_)
  rw [told?_eq, Function.comp_apply]
  cases document heap item <;> rfl

theorem told_document_iff {value : Value} {rendered : Rendered} {json : JsonValue}
    (renders : render heap value = .ok rendered) :
    (rendered.document heap).map told = some json ↔ rendered.Tells heap json := by
  cases rendered with
  | leaf held => rw [Rendered.document, ← told?_eq, Rendered.Tells]
  | array items =>
    rw [Rendered.document, Option.map_some, told_ofItems, Option.some_inj, Rendered.Tells]
    exact eq_comm
  | record properties =>
    -- What is written lists the rendered properties, and nothing else that lists them differs from it.
    have lists : Lists _ (toldMembers (Text.sortByKey (formed (document heap) properties.entries))) :=
      lists_formed (render_orderly renders).distinct
    simp only [← told?_eq] at lists
    constructor
    next =>
      intro tells
      exact ⟨_, (Option.some.inj tells).symm, lists⟩
    next =>
      rintro ⟨members, rfl, listsToo⟩
      rw [listsToo.unique lists]
      rfl

end Values

section Lines

variable (options : LoggerOptions) (heap : Heap) (now : Moment) (call : Call) (message : String)
  (context error : Rendered)

/-- What the line of a call says, given what the context and the error have been rendered as. -/
inductive Conveys : String → JsonValue → Prop
  | context {json : JsonValue} (tells : context.Tells heap json) : Conveys "context" json
  | error {json : JsonValue} (tells : error.Tells heap json) : Conveys "error" json
  | level : Conveys "level" (.text call.level.name)
  | message : Conveys "message" (.text message)
  | origin : Conveys "module" (.text (options.origin.getD ""))
  | timestamp (shown : options.timestamps ≠ some .hidden) : Conveys "timestamp" (.text now.stamp)

structure Faithful (line : String) : Prop where
  printable : JsonText.Printable line.toList
  reads : ∃ context error members,
    render heap call.context = .ok context ∧ render heap call.error = .ok error ∧
      JsonText.read? line = some (.object members) ∧ (JsonValue.object members).Ordered ∧
      Lists (Conveys options heap now call message context error) members

end Lines

variable {options : LoggerOptions} {heap : Heap} {now : Moment} {call : Call} {message : String}

theorem timestamp_eq_ok_iff {timestamp : Option String} :
    options.timestamp now = .ok timestamp ↔
      (options.timestamps = some .hidden ∨ now.InCalendar) ∧
        timestamp = if options.timestamps = some .hidden then none else some now.stamp := by
  unfold LoggerOptions.timestamp
  by_cases hidden : options.timestamps = some .hidden
  next => simp [hidden, eq_comm]
  next =>
    by_cases dated : now.InCalendar
    next => simp [hidden, dated, eq_comm]
    next => simp [hidden, dated]

def parts (options : LoggerOptions) (heap : Heap) (timestamp : Option String) (call : Call)
    (context error : Rendered) : List (String × Option JsonValue) :=
  [("context", context.document heap),
    ("error", error.document heap),
    ("level", some (.text call.level.name)),
    ("message", document heap call.message),
    ("module", some (.text (options.origin.getD ""))),
    ("timestamp", timestamp.map .text)]

theorem parts_distinct (timestamp : Option String) (context error : Rendered) :
    ((parts options heap timestamp call context error).map Prod.fst).Nodup :=
  (by decide : ["context", "error", "level", "message", "module", "timestamp"].Nodup)

theorem line_eq (machine : options.form = some .json) {timestamp : Option String}
    (stamps : options.timestamp now = .ok timestamp) {context error : Rendered}
    (renders : render heap call.context = .ok context)
    (rendersError : render heap call.error = .ok error) :
    options.line heap now call =
      .ok (ofMembers (formed id (parts options heap timestamp call context error))).toText := by
  unfold LoggerOptions.line jsonDocument
  rw [machine, stamps, renders, rendersError]
  rfl

theorem renders_of_line (machine : options.form = some .json) {line : String}
    (written : options.line heap now call = .ok line) :
    ∃ timestamp context error, options.timestamp now = .ok timestamp ∧
      render heap call.context = .ok context ∧ render heap call.error = .ok error := by
  unfold LoggerOptions.line jsonDocument at written
  rw [machine] at written
  cases stamps : options.timestamp now with
  | error failure => rw [stamps] at written; cases written
  | ok timestamp =>
    cases renders : render heap call.context with
    | error failure => rw [stamps, renders] at written; cases written
    | ok context =>
      cases rendersError : render heap call.error with
      | error failure => rw [stamps, renders, rendersError] at written; cases written
      | ok error => exact ⟨timestamp, context, error, rfl, rfl, rfl⟩

theorem rendered_ordered {rendered : Rendered} (json : JsonValue)
    (written : rendered.document heap = some json) : json.Ordered := by
  cases rendered with
  | leaf held => exact document_ordered held json written
  | array items => cases written; exact ofItems_ordered document_ordered items
  | record properties => cases written; exact ofEntries_ordered document_ordered properties.entries

theorem parts_ordered {timestamp : Option String} {context error : Rendered} :
    ∀ part ∈ parts options heap timestamp call context error, ∀ json ∈ part.2, json.Ordered := by
  simp only [parts, List.forall_mem_cons]
  refine ⟨rendered_ordered, rendered_ordered, ?_, document_ordered call.message, ?_, ?_, nofun⟩
  · rintro _ ⟨⟩; exact .text _
  · rintro _ ⟨⟩; exact .text _
  · cases timestamp with
    | none => nofun
    | some stamp => rintro _ ⟨⟩; exact .text _

theorem mem_parts_iff (said : call.message = .text message) {timestamp : Option String}
    (stamps : options.timestamp now = .ok timestamp) {context error : Rendered}
    (renders : render heap call.context = .ok context)
    (rendersError : render heap call.error = .ok error) (key : String) (json : JsonValue) :
    (∃ part, (key, part) ∈ parts options heap timestamp call context error ∧
        (id part).map told = some json) ↔
      Conveys options heap now call message context error key json := by
  constructor
  next =>
    rintro ⟨part, member, tells⟩
    simp only [parts, List.mem_cons, Prod.mk.injEq, List.not_mem_nil, or_false] at member
    rcases member with
      ⟨rfl, rfl⟩ | ⟨rfl, rfl⟩ | ⟨rfl, rfl⟩ | ⟨rfl, rfl⟩ | ⟨rfl, rfl⟩ | ⟨rfl, rfl⟩
    · exact .context ((told_document_iff renders).1 tells)
    · exact .error ((told_document_iff rendersError).1 tells)
    · cases tells; exact .level
    · rw [said] at tells; cases tells; exact .message
    · cases tells; exact .origin
    · rw [(timestamp_eq_ok_iff.1 stamps).2] at tells
      split at tells
      next => cases tells
      next shown => cases tells; exact .timestamp shown
  next =>
    intro conveys
    simp only [parts, List.mem_cons, Prod.mk.injEq, List.not_mem_nil, or_false]
    cases conveys with
    | context tells => exact ⟨_, .inl ⟨rfl, rfl⟩, (told_document_iff renders).2 tells⟩
    | error tells => exact ⟨_, .inr (.inl ⟨rfl, rfl⟩), (told_document_iff rendersError).2 tells⟩
    | level => exact ⟨_, .inr (.inr (.inl ⟨rfl, rfl⟩)), rfl⟩
    | message => exact ⟨_, .inr (.inr (.inr (.inl ⟨rfl, rfl⟩))), by rw [said]; rfl⟩
    | origin => exact ⟨_, .inr (.inr (.inr (.inr (.inl ⟨rfl, rfl⟩)))), rfl⟩
    | timestamp shown =>
      refine ⟨_, .inr (.inr (.inr (.inr (.inr ⟨rfl, rfl⟩)))), ?_⟩
      rw [(timestamp_eq_ok_iff.1 stamps).2, if_neg shown]
      rfl

theorem line_faithful (machine : options.form = some .json) (said : call.message = .text message)
    {line : String} (written : options.line heap now call = .ok line) :
    Faithful options heap now call message line := by
  obtain ⟨timestamp, context, error, stamps, renders, rendersError⟩ :=
    renders_of_line machine written
  cases written.symm.trans (line_eq machine stamps renders rendersError)
  have lists : Lists _ (toldMembers (Text.sortByKey
      (formed id (parts options heap timestamp call context error)))) :=
    lists_formed (parts_distinct timestamp context error)
  constructor
  case printable =>
    rw [toText, String.toList_ofList]
    exact JsonText.characters_printable _
  case reads =>
    refine ⟨context, error, _, renders, rendersError, JsonText.read?_toText _,
      (ofMembers_ordered (formed_ordered parts_ordered)).told, lists.distinct, lists.ascending, ?_⟩
    intro key json
    exact (lists.complete key json).trans (mem_parts_iff said stamps renders rendersError key json)

theorem line_succeeds_iff (machine : options.form = some .json) :
    (∃ line, options.line heap now call = .ok line) ↔
      Upright heap call.context ∧ Upright heap call.error ∧
        (options.timestamps = some .hidden ∨ now.InCalendar) := by
  constructor
  next =>
    rintro ⟨line, written⟩
    obtain ⟨_, _, _, stamps, renders, rendersError⟩ := renders_of_line machine written
    exact ⟨render_succeeds_iff.1 ⟨_, renders⟩, render_succeeds_iff.1 ⟨_, rendersError⟩,
      (timestamp_eq_ok_iff.1 stamps).1⟩
  next =>
    rintro ⟨upright, uprightError, dated⟩
    obtain ⟨context, renders⟩ := render_succeeds_iff.2 upright
    obtain ⟨error, rendersError⟩ := render_succeeds_iff.2 uprightError
    exact ⟨_, line_eq machine (timestamp_eq_ok_iff.2 ⟨dated, rfl⟩) renders rendersError⟩

theorem line_congr (machine : options.form = some .json) {other : Value}
    {entries others : List (String × Value)} (records : Records heap call.context entries)
    (recordsToo : Records heap other others) (distinct : (entries.map Prod.fst).Nodup)
    (same : entries.Perm others) :
    options.line heap now { call with context := other } = options.line heap now call := by
  have documents : (Rendered.record (renderEntries heap others)).document heap =
      (Rendered.record (renderEntries heap entries)).document heap :=
    congrArg some
      (ofMembers_formed_congr renderEntries_orderly.distinct (renderEntries_perm distinct same)).symm
  -- A time stamp or an error that fails does so whichever context is given.
  cases stamps : options.timestamp now with
  | error failure => simp only [LoggerOptions.line, stamps]; rfl
  | ok timestamp =>
    cases rendersError : render heap call.error with
    | error failure =>
      unfold LoggerOptions.line jsonDocument
      rw [machine, stamps, rendersError, records.renders, recordsToo.renders]
      rfl
    | ok error =>
      have reordered : options.line heap now { call with context := other } = _ :=
        line_eq machine stamps recordsToo.renders rendersError
      rw [reordered, line_eq machine stamps records.renders rendersError]
      simp only [parts, documents]

theorem line?_eq_ok_iff {written : Option String} :
    options.line? heap now call = .ok written ↔
      ∃ line, options.line heap now call = .ok line ∧
        (if options.level.admits call.level then some line else none) = written := by
  unfold LoggerOptions.line?
  cases options.line heap now call with
  | error failure => exact ⟨nofun, nofun⟩
  | ok line =>
    constructor
    next =>
      rintro ⟨⟩
      exact ⟨line, rfl, rfl⟩
    next =>
      rintro ⟨_, ⟨⟩, rfl⟩
      rfl

/--
A call of a logger for machines answers, unless what it is given renders no more or its moment has no date
to be told. It writes a line exactly if it is admitted, which is read as the entry that was logged; and two
records that have the same entries, in whatever orders, make the same line.
-/
theorem machine_lines_are_faithful (machine : options.form = some .json)
    (said : call.message = .text message) :
    ((∃ written, options.line? heap now call = .ok written) ↔
      Upright heap call.context ∧ Upright heap call.error ∧
        (options.timestamps = some .hidden ∨ now.InCalendar)) ∧
    (∀ written, options.line? heap now call = .ok written →
      written.isSome = options.level.admits call.level ∧
        ∀ line ∈ written, Faithful options heap now call message line) ∧
    ∀ other entries others, Records heap call.context entries → Records heap other others →
      (entries.map Prod.fst).Nodup → entries.Perm others →
      options.line? heap now { call with context := other } = options.line? heap now call := by
  refine ⟨?_, fun written wrote => ?_, ?_⟩
  next =>
    rw [← line_succeeds_iff machine]
    constructor
    next =>
      rintro ⟨_, wrote⟩
      obtain ⟨line, computed, _⟩ := line?_eq_ok_iff.1 wrote
      exact ⟨line, computed⟩
    next =>
      rintro ⟨line, computed⟩
      exact ⟨_, line?_eq_ok_iff.2 ⟨line, computed, rfl⟩⟩
  next =>
    obtain ⟨line, computed, rfl⟩ := line?_eq_ok_iff.1 wrote
    have faithful := line_faithful machine said computed
    split
    next admitted => exact ⟨admitted.symm, by rintro _ ⟨⟩; exact faithful⟩
    next dropped => exact ⟨(Bool.not_eq_true _ ▸ dropped).symm, nofun⟩
  next =>
    intro other entries others records recordsToo distinct same
    unfold LoggerOptions.line?
    rw [line_congr machine records recordsToo distinct same]

theorem machine_lines_are_faithful_to_a_coded_error :
    let early : List (String × Value) :=
      [("9", .number .nan), ("10", .number (.zero true)), ("deep", .object 2), ("\"\n😀", .undefined)]
    let late : List (String × Value) :=
      [("9", .number .nan), ("10", .number (.zero true)), ("\"\n😀", .undefined), ("deep", .object 2)]
    let heap : Heap :=
      ⟨#[.record { own := ⟨early⟩ }, .record { own := ⟨late⟩ }, .array [.undefined],
        .error ⟨.coded .general 4, none, .text "at\x01"⟩,
        .record { own := ⟨[("code", .text "SAMPLE_ERROR"), ("stack", .null)]⟩ }]⟩
    let options : LoggerOptions := { level := .info, form := some .json }
    let now : Moment := ⟨1750000000000⟩
    let call : Call :=
      { level := .warn, message := .text "tab\there", context := .object 0, error := .object 3 }
    options.form = some .json ∧ call.message = .text "tab\there" ∧
      ∃ line, Faithful options heap now call "tab\there" line ∧
        options.line? heap now call = .ok (some line) ∧
        options.line? heap now { call with context := .object 1 } = .ok (some line) := by
  intro early late heap options now call
  have machine : options.form = some .json := rfl
  have said : call.message = .text "tab\there" := rfl
  have context : heap.errorKind? (.object 0) = none := by decide +kernel
  have other : heap.errorKind? (.object 1) = none := by decide +kernel
  have upright : Upright heap (.object 0) := fun _ _ coded => nomatch context.symm.trans coded
  have uprightError : Upright heap (.object 3) := upright_of_error rfl
  obtain ⟨writes, reads, orders⟩ := @machine_lines_are_faithful options heap now call _ machine said
  obtain ⟨written, wrote⟩ := writes.2 ⟨upright, uprightError, .inr (by decide)⟩
  obtain ⟨admitted, faithful⟩ := reads written wrote
  obtain ⟨line, rfl⟩ := Option.isSome_iff_exists.1 admitted
  have reordered := orders (.object 1) early late ⟨context, _, rfl⟩ ⟨other, _, rfl⟩ (by decide)
    (by decide)
  exact ⟨machine, said, line, faithful line rfl, wrote, reordered.trans wrote⟩

end Collections.Diagnostics
