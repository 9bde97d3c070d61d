import Collections.Diagnostics.Rendering
import Collections.Proofs.Properties
import Mathlib.Data.List.Nodup

set_option autoImplicit false

namespace Collections.Diagnostics

open Properties

section Entries

variable {heap : Heap} {rendered : Properties Value} {key other : String} {leaf held : Value}
  {entries others : List (String × Value)}

theorem assignLeaf_orderly (orderly : Orderly rendered.entries) (key : String) (leaf : Value) :
    Orderly (assignLeaf rendered key leaf).entries := by
  unfold assignLeaf
  split
  next => exact orderly
  next => exact assignEntry_orderly orderly key leaf

theorem mem_assignLeaf (orderly : Orderly rendered.entries) (permitted : key ≠ Record.parentKey) :
    (other, held) ∈ (assignLeaf rendered key leaf).entries ↔
      (other = key ∧ held = leaf) ∨ (other ≠ key ∧ (other, held) ∈ rendered.entries) := by
  rw [assignLeaf, if_neg permitted]
  exact mem_assignEntry orderly

def renderOnto (heap : Heap) (rendered : Properties Value) (entries : List (String × Value)) :
    Properties Value :=
  entries.foldl (fun rendered (key, value) => assignLeaf rendered key (leafOf heap value)) rendered

theorem renderOnto_orderly (orderly : Orderly rendered.entries) :
    Orderly (renderOnto heap rendered entries).entries := by
  induction entries generalizing rendered with
  | nil => exact orderly
  | cons entry rest ih => exact ih (assignLeaf_orderly orderly entry.1 _)

theorem mem_renderOnto (orderly : Orderly rendered.entries) (distinct : (entries.map Prod.fst).Nodup)
    (fresh : ∀ entry ∈ rendered.entries, entry.1 ∉ entries.map Prod.fst) :
    (key, leaf) ∈ (renderOnto heap rendered entries).entries ↔
      (key, leaf) ∈ rendered.entries ∨
        key ≠ Record.parentKey ∧ ∃ value, (key, value) ∈ entries ∧ leaf = leafOf heap value := by
  induction entries generalizing rendered with
  | nil => simp [renderOnto]
  | cons entry rest ih =>
    obtain ⟨present, value⟩ := entry
    obtain ⟨absent, distinct⟩ := List.nodup_cons.1 distinct
    have step : renderOnto heap rendered ((present, value) :: rest) =
        renderOnto heap (assignLeaf rendered present (leafOf heap value)) rest := rfl
    have later : ∀ entry ∈ rendered.entries, entry.1 ∉ rest.map Prod.fst := fun entry member listed =>
      fresh entry member (List.mem_cons_of_mem _ listed)
    -- The key that links a parent renders nothing, and any other key has not been rendered before.
    by_cases link : present = Record.parentKey
    next =>
      have skipped : assignLeaf rendered present (leafOf heap value) = rendered := if_pos link
      rw [step, skipped, ih orderly distinct later]
      refine or_congr_right (and_congr_right fun permitted => ?_)
      have differ : key ≠ present := link ▸ permitted
      simp [differ]
    next =>
      have laterToo : ∀ entry ∈ (assignLeaf rendered present (leafOf heap value)).entries,
          entry.1 ∉ rest.map Prod.fst := by
        rintro ⟨other, held⟩ member
        rcases (mem_assignLeaf orderly link).1 member with ⟨rfl, _⟩ | ⟨_, earlier⟩
        · exact absent
        · exact later _ earlier
      rw [step, ih (assignLeaf_orderly orderly _ _) distinct laterToo, mem_assignLeaf orderly link]
      constructor
      · rintro ((⟨rfl, rfl⟩ | ⟨_, earlier⟩) | ⟨permitted, held, member, rendersTo⟩)
        · exact .inr ⟨link, value, List.mem_cons_self, rfl⟩
        · exact .inl earlier
        · exact .inr ⟨permitted, held, List.mem_cons_of_mem _ member, rendersTo⟩
      · rintro (earlier | ⟨permitted, held, member, rendersTo⟩)
        · have differ : key ≠ present := fun same => fresh _ earlier (same ▸ List.mem_cons_self)
          exact .inl (.inr ⟨differ, earlier⟩)
        · rcases List.mem_cons.1 member with here | there
          · cases here
            exact .inl (.inl ⟨rfl, rendersTo⟩)
          · exact .inr ⟨permitted, held, there, rendersTo⟩

theorem renderEntries_orderly : Orderly (renderEntries heap entries).entries :=
  renderOnto_orderly List.Pairwise.nil

theorem mem_renderEntries (distinct : (entries.map Prod.fst).Nodup) :
    (key, leaf) ∈ (renderEntries heap entries).entries ↔
      key ≠ Record.parentKey ∧ ∃ value, (key, value) ∈ entries ∧ leaf = leafOf heap value := by
  refine (mem_renderOnto ?_ distinct ?_).trans (or_iff_right ?_)
  · exact .nil
  · nofun
  · nofun

theorem renderEntries_perm (distinct : (entries.map Prod.fst).Nodup) (same : entries.Perm others) :
    (renderEntries heap entries).entries.Perm (renderEntries heap others).entries := by
  refine (List.perm_ext_iff_of_nodup renderEntries_orderly.distinct.of_map
    renderEntries_orderly.distinct.of_map).2 fun (key, leaf) => ?_
  have distinctToo : (others.map Prod.fst).Nodup := (same.map Prod.fst).nodup_iff.1 distinct
  simp only [mem_renderEntries distinct, mem_renderEntries distinctToo, same.mem_iff]

theorem renderEntries_concat (entries : List (String × Value)) (key : String) (value : Value) :
    renderEntries heap (entries ++ [(key, value)]) =
      assignLeaf (renderEntries heap entries) key (leafOf heap value) := by
  simp [renderEntries]

theorem renderEntries_eq (orderly : Orderly entries) :
    (renderEntries heap entries).entries =
      (entries.filter fun entry => entry.1 ≠ Record.parentKey).map
        fun entry => (entry.1, leafOf heap entry.2) := by
  induction entries using List.reverseRecOn with
  | nil => rfl
  | append_singleton entries entry ih =>
    obtain ⟨key, value⟩ := entry
    obtain ⟨earlier, _, follows⟩ := List.pairwise_append.1 orderly
    rw [renderEntries_concat, assignLeaf]
    split
    next link => simp [link, ih earlier]
    next permitted =>
      have last : ∀ leaf ∈ (renderEntries heap entries).entries, InPlace leaf.1 key := by
        rw [ih earlier]
        simp only [List.forall_mem_map, List.mem_filter]
        exact fun entry listed => follows entry listed.1 (key, value) List.mem_cons_self
      rw [entries_assign, assignEntry_last last, ih earlier]
      simp [permitted]

theorem renderEntries_assignEntry (orderly : Orderly entries) (key : String) (value : Value) :
    renderEntries heap (assignEntry key value entries) =
      assignLeaf (renderEntries heap entries) key (leafOf heap value) := by
  let renders (key : String) : Bool := key ≠ Record.parentKey
  have rendered : (renderEntries heap (assignEntry key value entries)).entries =
      ((assignEntry key value entries).filter fun entry => renders entry.1).map
        fun entry => (entry.1, leafOf heap entry.2) :=
    renderEntries_eq (assignEntry_orderly orderly key value)
  have earlier : (renderEntries heap entries).entries =
      (entries.filter fun entry => renders entry.1).map fun entry => (entry.1, leafOf heap entry.2) :=
    renderEntries_eq orderly
  have same : (renderEntries heap (assignEntry key value entries)).entries =
      (assignLeaf (renderEntries heap entries) key (leafOf heap value)).entries := by
    rw [rendered, assignLeaf]
    split
    next link => rw [filter_assignEntry_dropped renders (by simp [renders, link]), earlier]
    next permitted =>
      rw [entries_assign, earlier, filter_assignEntry renders (by simp [renders, permitted]) orderly]
      exact map_assignEntry (leafOf heap)
  exact congrArg Properties.mk same

theorem renderEntries_ofEntries (entries : List (String × Value)) :
    renderEntries heap (Properties.ofEntries entries).entries = renderEntries heap entries := by
  induction entries using List.reverseRecOn with
  | nil => rfl
  | append_singleton entries entry ih =>
    rw [ofEntries_concat, entries_assign, renderEntries_assignEntry (ofEntries_orderly entries), ih,
      renderEntries_concat]

end Entries

section Values

variable {heap : Heap} {value : Value}

theorem renderError_orderly {kind : ErrorKind} {rendered : Properties Value}
    (renders : renderError heap kind value = .ok rendered) : Orderly rendered.entries := by
  -- The stack is assigned last, whatever the error renders as.
  have stacked {told : Properties Value} (orderly : Orderly told.entries) (stack : Value) :
      Orderly (if stack.isTruthy then told.assign "stack" stack else told).entries := by
    split
    next => exact assignEntry_orderly orderly "stack" stack
    next => exact orderly
  cases kind with
  | plain =>
    cases renders
    exact stacked (assignEntry_orderly .nil "message" _) _
  | coded family metadata =>
    unfold renderError at renders
    cases entries : heap.metadataEntries "error" value with
    | error failure => rw [entries] at renders; cases renders
    | ok listed =>
      rw [entries] at renders
      cases renders
      exact stacked renderEntries_orderly _

theorem render_orderly {rendered : Properties Value} (renders : render heap value = .ok (.record rendered)) :
    Orderly rendered.entries := by
  unfold render at renders
  split at renders
  next kind _ =>
    cases ended : renderError heap kind value with
    | error failure => rw [ended] at renders; cases renders
    | ok properties =>
      rw [ended] at renders
      cases renders
      exact renderError_orderly ended
  next => cases renders
  next => cases renders; exact renderEntries_orderly
  next => cases renders

/-- Whether an error with metadata still answers with them: what is asked for them is what it was. -/
def Upright (heap : Heap) (value : Value) : Prop :=
  ∀ family metadata, heap.errorKind? value = some (.coded family metadata) →
    (∃ shared, heap.look? "getMetadata" value = some (.intrinsic shared)) ∧
      heap.property "type" value ≠ .undefined ∧ heap.property "type" value ≠ .null

theorem metadataEntries_succeeds_iff (subject : String) :
    (∃ entries, heap.metadataEntries subject value = .ok entries) ↔
      (∃ shared, heap.look? "getMetadata" value = some (.intrinsic shared)) ∧
        heap.property "type" value ≠ .undefined ∧ heap.property "type" value ≠ .null := by
  unfold Heap.metadataEntries Heap.metadata Heap.callShared
  split
  next shared found =>
    rw [found]
    change (∃ entries, heap.entries (heap.property "type" value) = .ok entries) ↔ _
    cases heap.property "type" value <;> simp [Heap.entries]
  next held replaced found =>
    have other (shared : Intrinsic) : held ≠ .intrinsic shared := replaced shared
    split <;> simp [found, other, Heap.entries, Bind.bind, Except.bind]
  next found => simp [found, Bind.bind, Except.bind]

theorem render_succeeds_iff : (∃ rendered, render heap value = .ok rendered) ↔ Upright heap value := by
  constructor
  next =>
    rintro ⟨rendered, renders⟩ family metadata coded
    apply (metadataEntries_succeeds_iff "error").1
    cases listed : heap.metadataEntries "error" value with
    | ok entries => exact ⟨entries, rfl⟩
    | error failure =>
      rw [render, coded] at renders
      simp only [renderError, listed] at renders
      cases renders
  next =>
    intro upright
    unfold render
    split
    next kind isError =>
      cases kind with
      | plain => exact ⟨_, rfl⟩
      | coded family metadata =>
        obtain ⟨entries, listed⟩ :=
          (metadataEntries_succeeds_iff "error").2 (upright family metadata isError)
        rw [renderError, listed]
        exact ⟨_, rfl⟩
    all_goals exact ⟨_, rfl⟩

theorem look?_of_own {key : String} {found : Value} (own : heap.ownProperty? key value = some found) :
    heap.look? key value = some found := by
  unfold Heap.look? Heap.lookWithin
  rw [own]

theorem stack_of_error {identity : Nat} {error : ErrorObject}
    (found : heap.entity identity = .error error) :
    heap.property "stack" (.object identity) = error.stack := by
  have own : heap.ownProperty? "stack" (.object identity) = some error.stack := by
    simp [Heap.ownProperty?, found]
  rw [Heap.property, look?_of_own own, Option.getD_some]

theorem message_of_error {identity : Nat} {error : ErrorObject}
    (found : heap.entity identity = .error error) :
    heap.property "message" (.object identity) = .text (error.message.getD "") := by
  obtain ⟨kind, message, stack⟩ := error
  cases message with
  | none =>
    -- An error that was given nothing to say finds the empty message that all errors share.
    rcases kind with _ | ⟨_ | _, metadata⟩ <;>
      simp [Heap.property, Heap.look?, Heap.lookWithin, Heap.ownProperty?, Heap.entity?,
        Heap.familyOf, found] <;> rfl
  | some content =>
    have own : heap.ownProperty? "message" (.object identity) = some (.text content) := by
      simp [Heap.ownProperty?, found]
    rw [Heap.property, look?_of_own own]
    rfl

theorem upright_of_error {identity : Nat} {error : ErrorObject}
    (found : heap.entity identity = .error error) : Upright heap (.object identity) := by
  obtain ⟨kind, message, stack⟩ := error
  intro family metadata coded
  have same : heap.errorKind? (.object identity) = some kind := by simp [Heap.errorKind?, found]
  cases coded.symm.trans same
  have own : heap.ownProperty? "type" (.object identity) = some (.object metadata) := by
    simp [Heap.ownProperty?, found]
  have type : heap.property "type" (.object identity) = .object metadata := by
    rw [Heap.property, look?_of_own own, Option.getD_some]
  -- An error holds no such member itself, and its family answers for it.
  refine ⟨⟨.member .codedError "getMetadata", ?_⟩, by simp [type]⟩
  cases family <;>
    simp [Heap.look?, Heap.lookWithin, Heap.ownProperty?, Heap.entity?, Heap.familyOf, found] <;> rfl

structure Records (heap : Heap) (value : Value) (entries : List (String × Value)) : Prop where
  plain : heap.errorKind? value = none
  holds : ∃ parent, heap.entity? value = some (.record ⟨⟨entries⟩, parent⟩)

theorem Records.renders {entries : List (String × Value)} (records : Records heap value entries) :
    render heap value = .ok (.record (renderEntries heap entries)) := by
  obtain ⟨parent, found⟩ := records.holds
  rw [render, records.plain, found]

end Values

end Collections.Diagnostics
