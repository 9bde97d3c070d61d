import Collections.Heap.Literal
import Collections.Proofs.Diagnostics.Rendering

set_option autoImplicit false

namespace Collections.Diagnostics

open Properties

inductive Flat : Value → Prop
  | undefined : Flat .undefined
  | bool (held : Bool) : Flat (.bool held)
  | number (held : Number) : Flat (.number held)
  | text (content : String) : Flat (.text content)

section Leaves

variable {heap : Heap} {value : Value}

theorem leafOf_flat (value : Value) : Flat (leafOf heap value) := by
  cases value <;> constructor

theorem leafOf_of_flat (flat : Flat value) : leafOf heap value = value := by
  cases flat <;> rfl

theorem map_leafOf_of_flat {items : List Value} (flat : ∀ item ∈ items, Flat item) :
    items.map (leafOf heap) = items :=
  (List.map_congr_left fun item listed => leafOf_of_flat (flat item listed)).trans (List.map_id items)

end Leaves

structure FlatRecord (rendered : Properties Value) : Prop where
  orderly : Orderly rendered.entries
  unlinked : ∀ entry ∈ rendered.entries, entry.1 ≠ Record.parentKey
  flat : ∀ entry ∈ rendered.entries, Flat entry.2

namespace FlatRecord

variable {heap : Heap} {rendered : Properties Value} {key : String} {leaf : Value}

theorem empty : FlatRecord .empty := ⟨.nil, nofun, nofun⟩

theorem assign (record : FlatRecord rendered) (permitted : key ≠ Record.parentKey) (flat : Flat leaf) :
    FlatRecord (rendered.assign key leaf) where
  orderly := assignEntry_orderly record.orderly key leaf
  unlinked := by
    rintro ⟨other, held⟩ member
    rcases (mem_assignEntry record.orderly).1 member with ⟨rfl, _⟩ | ⟨_, earlier⟩
    · exact permitted
    · exact record.unlinked _ earlier
  flat := by
    rintro ⟨other, held⟩ member
    rcases (mem_assignEntry record.orderly).1 member with ⟨_, rfl⟩ | ⟨_, earlier⟩
    · exact flat
    · exact record.flat _ earlier

theorem assignLeaf (record : FlatRecord rendered) (flat : Flat leaf) :
    FlatRecord (assignLeaf rendered key leaf) := by
  unfold Diagnostics.assignLeaf
  split
  next => exact record
  next permitted => exact record.assign permitted flat

theorem of_entries (entries : List (String × Value)) : FlatRecord (renderEntries heap entries) := by
  -- The entries are assigned from first to last, so it is the last one that is taken off.
  induction entries using List.reverseRecOn with
  | nil => exact empty
  | append_singleton entries entry ih =>
    rw [renderEntries_concat]
    exact ih.assignLeaf (leafOf_flat _)

theorem renders (record : FlatRecord rendered) : renderEntries heap rendered.entries = rendered := by
  have kept : rendered.entries.filter (fun entry => entry.1 ≠ Record.parentKey) = rendered.entries :=
    List.filter_eq_self.2 fun entry listed => by simpa using record.unlinked entry listed
  have same : (renderEntries heap rendered.entries).entries = rendered.entries := by
    rw [renderEntries_eq record.orderly, kept]
    refine (List.map_congr_left fun entry listed => ?_).trans (List.map_id _)
    rw [leafOf_of_flat (record.flat entry listed)]
    rfl
  exact congrArg Properties.mk same

end FlatRecord

def Rendered.Flat : Rendered → Prop
  | .leaf held => Diagnostics.Flat held
  | .array items => ∀ item ∈ items, Diagnostics.Flat item
  | .record properties => FlatRecord properties

/-- What an error tells of itself without rendering it, its message and its stack, is flat already. -/
structure TellsFlat (heap : Heap) (value : Value) : Prop where
  message : heap.errorKind? value = some .plain → Flat (heap.property "message" value)
  stack : (heap.errorKind? value).isSome → (heap.property "stack" value).isTruthy →
    Flat (heap.property "stack" value)

section Values

variable {heap : Heap} {value : Value}

theorem tellsFlat_of_error {identity : Nat} {error : ErrorObject}
    (found : heap.entity identity = .error error) (stack : error.stack.isTruthy → Flat error.stack) :
    TellsFlat heap (.object identity) where
  message _ := by
    rw [message_of_error found]
    exact .text _
  stack := by
    rw [stack_of_error found]
    exact fun _ => stack

theorem renderError_flat (tells : TellsFlat heap value) {kind : ErrorKind}
    (isError : heap.errorKind? value = some kind) {rendered : Properties Value}
    (renders : renderError heap kind value = .ok rendered) : FlatRecord rendered := by
  have stacked {told : Properties Value} (record : FlatRecord told) :
      FlatRecord (if (heap.property "stack" value).isTruthy
        then told.assign "stack" (heap.property "stack" value) else told) := by
    split
    next there => exact record.assign (by decide) (tells.stack (by simp [isError]) there)
    next => exact record
  cases kind with
  | plain =>
    cases renders
    exact stacked (FlatRecord.empty.assign (by decide) (tells.message isError))
  | coded family metadata =>
    unfold renderError at renders
    cases listed : heap.metadataEntries "error" value with
    | error failure => rw [listed] at renders; cases renders
    | ok entries =>
      rw [listed] at renders
      cases renders
      exact stacked (.of_entries entries)

theorem render_flat (tells : TellsFlat heap value) {rendered : Rendered}
    (renders : render heap value = .ok rendered) : rendered.Flat := by
  unfold render at renders
  split at renders
  next kind isError =>
    cases ended : renderError heap kind value with
    | error failure => rw [ended] at renders; cases renders
    | ok properties =>
      rw [ended] at renders
      cases renders
      exact renderError_flat tells isError ended
  next items _ _ =>
    cases renders
    exact List.forall_mem_map.2 fun item _ => leafOf_flat item
  next record _ _ => cases renders; exact .of_entries record.own.entries
  next => cases renders; exact leafOf_flat value

end Values

def Rendered.make : Rendered → HeapAction Value
  | .leaf held => return held
  | .array items => return .object (← Heap.add (.array items))
  | .record properties => return .object (← Heap.add (.record { own := properties }))

section Added

variable {heap : Heap}

theorem entity?_added (entity : Entity) :
    Heap.entity? ⟨heap.entities.push entity⟩ (.object heap.entities.size) = some entity := by
  simp [Heap.entity?, Heap.entity]

theorem errorKind?_added_array (items : List Value) :
    Heap.errorKind? ⟨heap.entities.push (.array items)⟩ (.object heap.entities.size) = none := by
  simp [Heap.errorKind?, Heap.ancestors, Heap.ancestorsWithin, Heap.parent?, Heap.entity]

theorem records_added (entries : List (String × Value)) :
    Records ⟨heap.entities.push (.record { own := ⟨entries⟩ })⟩ (.object heap.entities.size) entries where
  plain := by
    simp [Heap.errorKind?, Heap.ancestors, Heap.ancestorsWithin, Heap.parent?, Heap.entity]
  holds := ⟨.shared, entity?_added _⟩

theorem Rendered.Flat.renders_again {rendered : Rendered} (flat : rendered.Flat) (heap : Heap) :
    ∃ again after, rendered.make heap = .ok again after ∧ render after again = .ok rendered := by
  cases rendered with
  | leaf held =>
    refine ⟨held, heap, rfl, ?_⟩
    cases flat <;> rfl
  | array items =>
    refine ⟨_, ⟨heap.entities.push (.array items)⟩, rfl, ?_⟩
    rw [render, errorKind?_added_array, entity?_added]
    exact congrArg (Except.ok ∘ Rendered.array) (map_leafOf_of_flat flat)
  | record properties =>
    refine ⟨_, ⟨heap.entities.push (.record { own := properties })⟩, rfl, ?_⟩
    rw [(records_added properties.entries).renders, FlatRecord.renders flat]

theorem leafOf_added (record : Record) (value : Value) :
    leafOf ⟨heap.entities.push (.record record)⟩ value = leafOf heap value := by
  -- What is not there is taken for an empty record, so where the new one comes there was one before.
  have seen (identity : Nat) :
      Heap.entity ⟨heap.entities.push (.record record)⟩ identity = heap.entity identity ∨
        (∃ added, Heap.entity ⟨heap.entities.push (.record record)⟩ identity = .record added) ∧
          ∃ absent, heap.entity identity = .record absent := by
    by_cases fresh : identity = heap.entities.size
    · subst fresh
      exact .inr ⟨⟨record, by simp [Heap.entity]⟩, {}, by simp [Heap.entity, default]⟩
    · exact .inl (by simp [Heap.entity, Array.getElem?_push, fresh])
  cases value with
  | symbol identity | object identity =>
    rcases seen identity with same | ⟨⟨added, found⟩, absent, missing⟩
    · simp only [leafOf, leafText, isNested, Value.shallowText, Heap.entity?, same]
      rfl
    · simp [leafOf, leafText, isNested, Heap.entity?, found, missing]
  | _ => rfl

end Added

section Described

variable {heap : Heap} {value : Value} {family : ErrorFamily} {metadata : Nat}

theorem metadata_of_upright (upright : Upright heap value)
    (coded : heap.errorKind? value = some (.coded family metadata)) (subject : String) :
    heap.metadata subject value = .ok (heap.property "type" value) := by
  obtain ⟨⟨shared, found⟩, _⟩ := upright family metadata coded
  rw [Heap.metadata, Heap.callShared, found]

theorem metadataEntries_of_upright (upright : Upright heap value)
    (coded : heap.errorKind? value = some (.coded family metadata)) (subject : String) :
    heap.metadataEntries subject value = .ok (heap.spreadEntries (heap.property "type" value)) := by
  obtain ⟨_, present, given⟩ := upright family metadata coded
  rw [Heap.metadataEntries, metadata_of_upright upright coded]
  change heap.entries (heap.property "type" value) = _
  cases type : heap.property "type" value <;> simp_all [Heap.entries]

theorem render_of_coded (upright : Upright heap value)
    (coded : heap.errorKind? value = some (.coded family metadata))
    (stacked : (heap.property "stack" value).isTruthy) :
    render heap value =
      .ok (.record ((renderEntries heap (heap.spreadEntries (heap.property "type" value))).assign
        "stack" (heap.property "stack" value))) := by
  rw [render, coded]
  simp only [renderError, metadataEntries_of_upright upright coded, stacked]
  rfl

theorem describedError_of_coded (upright : Upright heap value)
    (coded : heap.errorKind? value = some (.coded family metadata))
    (stacked : (heap.property "stack" value).isTruthy) :
    heap.describedError value = .ok (assignEntry "stack" (heap.property "stack" value)
      (Properties.ofEntries (heap.spreadEntries (heap.property "type" value))).entries) := by
  simp only [Heap.describedError, metadata_of_upright upright coded, stacked]
  rfl

theorem describedError_of_described {subject : String} {entries : List (String × Value)}
    (described : heap.describedEntries subject value = .ok entries) :
    heap.describedError value = .ok entries := by
  unfold Heap.describedEntries Heap.callShared at described
  split at described
  next => exact described
  next => split at described <;> cases described
  next => cases described

theorem described_of_error {identity : Nat} {error : ErrorObject}
    (found : heap.entity identity = .error error)
    (coded : heap.errorKind? (.object identity) = some (.coded family metadata)) (subject : String) :
    heap.describedEntries subject (.object identity) = heap.describedError (.object identity) := by
  obtain ⟨kind, message, stack⟩ := error
  have same : heap.errorKind? (.object identity) = some kind := by simp [Heap.errorKind?, found]
  cases coded.symm.trans same
  have shared : heap.look? "toObject" (.object identity) =
      some (.intrinsic (.member .codedError "toObject")) := by
    cases family <;>
      simp [Heap.look?, Heap.lookWithin, Heap.ownProperty?, Heap.entity?, Heap.familyOf, found] <;> rfl
  rw [Heap.describedEntries, Heap.callShared, shared]

theorem renderEntries_added (record : Record) (entries : List (String × Value)) :
    renderEntries ⟨heap.entities.push (.record record)⟩ entries = renderEntries heap entries := by
  unfold renderEntries
  simp only [leafOf_added]

theorem render_described (upright : Upright heap value) (tells : TellsFlat heap value)
    (coded : heap.errorKind? value = some (.coded family metadata))
    (stacked : (heap.property "stack" value).isTruthy) {entries : List (String × Value)}
    (described : heap.describedError value = .ok entries) :
    render ⟨heap.entities.push (.record { own := ⟨entries⟩ })⟩ (.object heap.entities.size) =
      render heap value := by
  have stack : Flat (heap.property "stack" value) := tells.stack (by simp [coded]) stacked
  cases (describedError_of_coded upright coded stacked).symm.trans described
  -- The stack is assigned after the metadata on both sides, so a key of its name keeps its place on both.
  rw [(records_added _).renders, renderEntries_added, render_of_coded upright coded stacked,
    renderEntries_assignEntry (ofEntries_orderly _), renderEntries_ofEntries, leafOf_of_flat stack]
  rfl

end Described

/--
Rendering answers with flat data, which render as they are. It asks of an error that its message and its
stack are flat themselves and that it answers for its metadata; then an error with metadata and a stack
renders like what it describes itself by.
-/
theorem renderings_are_flat_and_stay {heap : Heap} {value : Value} (upright : Upright heap value)
    (tells : TellsFlat heap value) :
    (∃ rendered, render heap value = .ok rendered ∧ rendered.Flat ∧
      ∃ again after, rendered.make heap = .ok again after ∧ render after again = .ok rendered) ∧
    ∀ family metadata, heap.errorKind? value = some (.coded family metadata) →
      (heap.property "stack" value).isTruthy →
      (∀ subject entries, heap.describedEntries subject value = .ok entries →
        ∃ described after, (Rendered.record ⟨entries⟩).make heap = .ok described after ∧
          render after described = render heap value) ∧
      ∀ identity error, value = .object identity → heap.entity identity = .error error →
        ∀ subject, ∃ entries, heap.describedEntries subject value = .ok entries := by
  constructor
  next =>
    obtain ⟨rendered, renders⟩ := render_succeeds_iff.2 upright
    have flat := render_flat tells renders
    exact ⟨rendered, renders, flat, flat.renders_again heap⟩
  next =>
    intro family metadata coded stacked
    constructor
    next =>
      intro subject entries described
      exact ⟨_, _, rfl,
        render_described upright tells coded stacked (describedError_of_described described)⟩
    next =>
      rintro identity error rfl found subject
      exact ⟨_, (described_of_error found coded subject).trans
        (describedError_of_coded upright coded stacked)⟩

theorem renderings_are_flat_and_stay_for_stack_in_metadata :
    let entries : List (String × Value) :=
      [("7", .null), ("code", .text "C"), ("stack", .object 1), ("__proto__", .text "p"), ("big", .integer 9)]
    let heap : Heap := ⟨#[.error ⟨.coded .general 1, some "C", .text "at"⟩, .record { own := ⟨entries⟩ }]⟩
    let rendered : Properties Value :=
      ⟨[("7", .text "null"), ("code", .text "C"), ("stack", .text "at"), ("big", .text "9")]⟩
    Upright heap (.object 0) ∧ TellsFlat heap (.object 0) ∧
      heap.errorKind? (.object 0) = some (.coded .general 1) ∧
      (heap.property "stack" (.object 0)).isTruthy ∧
      render heap (.object 0) = .ok (.record rendered) ∧ (Rendered.record rendered).Flat ∧
      (∃ again after, (Rendered.record rendered).make heap = .ok again after ∧
        render after again = .ok (.record rendered)) ∧
      ∃ described entries after, heap.describedEntries "this" (.object 0) = .ok entries ∧
        (Rendered.record ⟨entries⟩).make heap = .ok described after ∧
        render after described = .ok (.record rendered) := by
  intro entries heap rendered
  have found : heap.entity 0 = .error ⟨.coded .general 1, some "C", .text "at"⟩ := rfl
  have upright : Upright heap (.object 0) := upright_of_error found
  have tells : TellsFlat heap (.object 0) := tellsFlat_of_error found fun _ => .text "at"
  have coded : heap.errorKind? (.object 0) = some (.coded .general 1) := by decide +kernel
  have stacked : (heap.property "stack" (.object 0)).isTruthy := by decide +kernel
  have data : render heap (.object 0) = .ok (.record rendered) := by decide +kernel
  obtain ⟨⟨same, renders, flat, again⟩, described⟩ := renderings_are_flat_and_stay upright tells
  cases renders.symm.trans data
  obtain ⟨alike, describes⟩ := described _ _ coded stacked
  obtain ⟨listed, answered⟩ := describes 0 _ rfl found "this"
  obtain ⟨record, after, made, rendersToo⟩ := alike "this" listed answered
  exact ⟨upright, tells, coded, stacked, data, flat, again, record, listed, after, answered, made,
    rendersToo.trans data⟩

theorem mistyped_errors_not_rendered_flat :
    let digits : List Value := [.number (.ofNat 1), .number (.ofNat 2)]
    let heap : Heap :=
      ⟨#[.error ⟨.plain, some "base", .text "S"⟩,
        .record ⟨⟨[("message", .object 2)]⟩, .object (.object 0)⟩, .array digits]⟩
    let other : Heap :=
      ⟨#[.error ⟨.coded .general 1, some "C", .text "S"⟩, .record {},
        .record ⟨⟨[("type", .null)]⟩, .object (.object 0)⟩]⟩
    (do
      Heap.declare [.plainError (.value (.text "base")) (.value (.text "S"))]
      Heap.make (.record [("__proto__", .value (.object 0)), ("message", .array (digits.map .value))]))
        {} = .ok (.object 1) heap ∧
      render heap (.object 1) = .ok (.record ⟨[("message", .object 2), ("stack", .text "S")]⟩) ∧
      (¬ ∃ rendered, render heap (.object 1) = .ok rendered ∧ rendered.Flat) ∧
      ¬ ∃ rendered, render other (.object 2) = .ok rendered := by
  intro digits heap other
  have data : render heap (.object 1) =
      .ok (.record ⟨[("message", .object 2), ("stack", .text "S")]⟩) := by decide +kernel
  have fails : render other (.object 2) = .error (.misuse .absentAsObject) := by decide +kernel
  refine ⟨rfl, data, ?_, ?_⟩
  · rintro ⟨rendered, renders, flat⟩
    cases renders.symm.trans data
    exact nomatch flat.flat _ List.mem_cons_self
  · rintro ⟨rendered, renders⟩
    cases renders.symm.trans fails

end Collections.Diagnostics
