import Collections.Proofs.Diagnostics.Rendering
import Collections.Proofs.OrderlyHeaps

set_option autoImplicit false

namespace Collections.Diagnostics

open Properties

def shownEntry (heap : Heap) (entry : String × Value) : Except Failure String :=
  (entry.1 ++ "=" ++ ·) <$> heap.display entry.2

/-- How what is rendered is shown: its items with commas between them, each behind its key if it has one. -/
def Rendered.shown (heap : Heap) : Rendered → Except Failure String
  | .leaf held => heap.display held
  | .array items => ", ".intercalate <$> items.mapM heap.display
  | .record properties => ", ".intercalate <$> properties.entries.mapM (shownEntry heap)

section Items

variable {heap : Heap}

@[simp] theorem display_leafOf (value : Value) :
    heap.display (leafOf heap value) = .ok (leafText heap value) := by
  cases value <;> rfl

theorem mapM_answers {α : Type} {ask : α → Except Failure String} {answer : α → String}
    (answers : ∀ item, ask item = .ok (answer item)) (items : List α) :
    items.mapM ask = .ok (items.map answer) := by
  obtain rfl : ask = fun item => pure (answer item) := funext answers
  exact List.mapM_pure

theorem shown_array (items : List Value) :
    (Rendered.array (items.map (leafOf heap))).shown heap =
      .ok (", ".intercalate (items.map (leafText heap))) := by
  rw [Rendered.shown, List.mapM_map]
  exact congrArg (", ".intercalate <$> ·) (mapM_answers display_leafOf items)

theorem shown_record (entries : List (String × Value)) :
    (Rendered.record ⟨entries.map fun entry => (entry.1, leafOf heap entry.2)⟩).shown heap =
      .ok (entriesText heap entries) := by
  have answers (entry : String × Value) :
      shownEntry heap (entry.1, leafOf heap entry.2) = .ok (entryText heap entry) := by
    rw [shownEntry, display_leafOf]
    rfl
  rw [Rendered.shown, List.mapM_map]
  exact congrArg (", ".intercalate <$> ·) (mapM_answers answers entries)

end Items

structure Agree (heap : Heap) (value : Value) (rendered : Rendered) (text : String) : Prop where
  renders : render heap value = .ok rendered
  writes : renderText heap value = .ok text
  shows : rendered.shown heap = .ok text
  keys : ∀ record, heap.entity? value = some (.record record) →
    ∃ leaves, rendered = .record ⟨leaves⟩ ∧ leaves.map Prod.fst = record.own.entries.map Prod.fst
  items : ∀ items, heap.entity? value = some (.array items) →
    ∃ leaves, rendered = .array leaves ∧ leaves.length = items.length
  whole : isNested heap value = false → ∃ held, rendered = .leaf held

section Values

variable {heap : Heap} {value : Value}

theorem entity?_ne_error (plain : heap.errorKind? value = none)
    (named : ∀ identity, value = .symbol identity →
      ∃ description, heap.entity identity = .symbol description) (error : ErrorObject) :
    heap.entity? value ≠ some (.error error) := by
  intro found
  cases value with
  | symbol identity =>
    obtain ⟨description, described⟩ := named identity rfl
    simp [Heap.entity?, described] at found
  -- An object that is an error is of a kind.
  | object identity =>
    have same : heap.entity identity = .error error := Option.some.inj found
    simp [Heap.errorKind?, same] at plain
  | _ => cases found

theorem agree_of_array (plain : heap.errorKind? value = none) {items : List Value}
    (found : heap.entity? value = some (.array items)) :
    Agree heap value (.array (items.map (leafOf heap)))
      (", ".intercalate (items.map (leafText heap))) where
  renders := by rw [render, plain, found]
  writes := by rw [renderText, plain, found]
  shows := shown_array items
  keys := by simp [found]
  items := by
    rintro _ same
    cases found.symm.trans same
    exact ⟨_, rfl, List.length_map _⟩
  whole := by simp [isNested, found]

theorem agree_of_record (plain : heap.errorKind? value = none) {record : Record}
    (found : heap.entity? value = some (.record record)) (orderly : Orderly record.own.entries)
    (unlinked : Record.parentKey ∉ record.own.entries.map Prod.fst) :
    Agree heap value (.record (renderEntries heap record.own.entries))
      (entriesText heap record.own.entries) := by
  have leaves : (renderEntries heap record.own.entries).entries =
      record.own.entries.map fun entry => (entry.1, leafOf heap entry.2) := by
    rw [renderEntries_eq orderly, List.filter_eq_self.2]
    intro entry listed
    simpa using fun same => unlinked (List.mem_map.2 ⟨entry, listed, same⟩)
  constructor
  case renders => rw [render, plain, found]
  case writes => rw [renderText, plain, found]
  case shows =>
    rw [← shown_record, ← leaves]
  case keys =>
    rintro _ same
    cases found.symm.trans same
    refine ⟨(renderEntries heap record.own.entries).entries, rfl, ?_⟩
    rw [leaves, List.map_map]
    rfl
  case items => simp [found]
  case whole => simp [isNested, found]

theorem agree_of_leaf (plain : heap.errorKind? value = none) (whole : isNested heap value = false) :
    Agree heap value (.leaf (leafOf heap value)) (leafText heap value) := by
  have text : leafText heap value = value.shallowText heap := by simp [leafText, whole]
  have apart : (∀ record, heap.entity? value ≠ some (.record record)) ∧
      ∀ items, heap.entity? value ≠ some (.array items) := by
    constructor <;> intro _ found <;> simp [isNested, found] at whole
  constructor
  case renders =>
    rw [render, plain]
    split <;> simp_all
  case writes =>
    rw [renderText, plain, text]
    split <;> simp_all
  case shows => exact display_leafOf value
  case keys => exact fun record found => absurd found (apart.1 record)
  case items => exact fun items found => absurd found (apart.2 items)
  case whole => exact fun _ => ⟨_, rfl⟩

end Values

/--
What is no error renders alike both ways, keys and order included, and the text shows the data. Only a
record that lists the key which links a parent does not: the text has all its entries, and the data have
the others.
-/
theorem renderings_agree {heap : Heap} (orderly : heap.Orderly) {value : Value}
    (plain : heap.errorKind? value = none)
    (named : ∀ identity, value = .symbol identity →
      ∃ description, heap.entity identity = .symbol description) :
    ((∀ record, heap.entity? value = some (.record record) →
        Record.parentKey ∉ record.own.entries.map Prod.fst) →
      ∃ rendered text, Agree heap value rendered text) ∧
    ∀ record, heap.entity? value = some (.record record) →
      ∃ leaves text, leaves.map Prod.fst = record.own.entries.map Prod.fst ∧
        render heap value = .ok (.record ⟨leaves.filter fun leaf => leaf.1 ≠ Record.parentKey⟩) ∧
        renderText heap value = .ok text ∧ (Rendered.record ⟨leaves⟩).shown heap = .ok text := by
  constructor
  next =>
    intro unlinked
    cases found : heap.entity? value with
    | none => exact ⟨_, _, agree_of_leaf plain (by simp [isNested, found])⟩
    | some entity =>
      cases entity with
      | record record =>
        exact ⟨_, _, agree_of_record plain found (orderly.lists found) (unlinked record found)⟩
      | array items => exact ⟨_, _, agree_of_array plain found⟩
      | error error => exact (entity?_ne_error plain named error found).elim
      | _ => exact ⟨_, _, agree_of_leaf plain (by simp [isNested, found])⟩
  next =>
    intro record found
    -- Of these leaves the text shows all, and the data are those that an assignment makes properties of.
    refine ⟨record.own.entries.map fun entry => (entry.1, leafOf heap entry.2), _, ?_, ?_, ?_, shown_record _⟩
    · rw [List.map_map]
      rfl
    · rw [render, plain, found, List.filter_map]
      exact congrArg (fun leaves => Except.ok (Rendered.record ⟨leaves⟩))
        (renderEntries_eq (orderly.lists found))
    · rw [renderText, plain, found]

theorem renderings_agree_on_unusual_keys :
    let literal : Literal := .record
      [("\"\n", .value (.integer 7)), ("10", .value .undefined), ("", .array [.value .null]),
        ("9", .value (.text "=, "))]
    let heap : Heap :=
      ⟨#[.record { own := ⟨[("9", .text "=, "), ("10", .undefined), ("\"\n", .integer 7), ("", .object 1)]⟩ },
        .array [.null]]⟩
    Heap.make literal {} = .ok (.object 0) heap ∧ heap.Orderly ∧
      heap.errorKind? (.object 0) = none ∧
      Agree heap (.object 0)
        (.record ⟨[("9", .text "=, "), ("10", .undefined), ("\"\n", .text "7"), ("", .text "[object]")]⟩)
        "9==, , 10=undefined, \"\n=7, =[object]" := by
  intro literal heap
  have made : Heap.make literal {} = .ok (.object 0) heap := rfl
  have orderly : heap.Orderly := (Heap.make_keeps literal).succeeds Heap.empty_orderly made
  have plain : heap.errorKind? (.object 0) = none := by decide +kernel
  have unlinked : ∀ record, heap.entity? (.object 0) = some (.record record) →
      Record.parentKey ∉ record.own.entries.map Prod.fst := by
    rintro _ ⟨⟩
    decide
  obtain ⟨rendered, text, agree⟩ := (renderings_agree orderly plain nofun).1 unlinked
  refine ⟨made, orderly, plain, ?_⟩
  have data : render heap (.object 0) = .ok (.record
      ⟨[("9", .text "=, "), ("10", .undefined), ("\"\n", .text "7"), ("", .text "[object]")]⟩) := by
    decide +kernel
  have written : renderText heap (.object 0) =
      .ok "9==, , 10=undefined, \"\n=7, =[object]" := by decide +kernel
  cases agree.renders.symm.trans data
  cases agree.writes.symm.trans written
  exact agree

theorem link_key_told_by_text_only :
    let literal : Literal := .record
      [("__proto__", .value .null), ("__proto__", .value (.number (.ofNat 5))),
        ("a", .value (.number (.ofNat 1)))]
    let heap : Heap :=
      ⟨#[.record ⟨⟨[("__proto__", .number (.ofNat 5)), ("a", .number (.ofNat 1))]⟩, .absent⟩]⟩
    Heap.make literal {} = .ok (.object 0) heap ∧ heap.Orderly ∧
      heap.errorKind? (.object 0) = none ∧
      render heap (.object 0) = .ok (.record ⟨[("a", .number (.ofNat 1))]⟩) ∧
      renderText heap (.object 0) = .ok "__proto__=5, a=1" ∧
      ¬ ∃ rendered text, Agree heap (.object 0) rendered text := by
  intro literal heap
  have made : Heap.make literal {} = .ok (.object 0) heap := rfl
  have data : render heap (.object 0) = .ok (.record ⟨[("a", .number (.ofNat 1))]⟩) := by
    decide +kernel
  refine ⟨made, (Heap.make_keeps literal).succeeds Heap.empty_orderly made, by decide +kernel, data,
    by decide +kernel, ?_⟩
  rintro ⟨rendered, text, agree⟩
  obtain ⟨leaves, same, keys⟩ := agree.keys _ rfl
  have rendered : rendered = .record ⟨[("a", .number (.ofNat 1))]⟩ :=
    Except.ok.inj (agree.renders.symm.trans data)
  cases same.symm.trans rendered
  exact absurd keys (by decide)

end Collections.Diagnostics
