import Collections.Properties
import Mathlib.Data.List.Induction

set_option autoImplicit false

namespace Collections

def InPlace (early late : String) : Prop := early ≠ late ∧ keyBefore late early = false

section Places

variable {key present later : String}

theorem keyBefore_asymm (before : keyBefore key present = true) : keyBefore present key = false := by
  unfold keyBefore at *
  split at before <;> simp_all
  omega

theorem keyBefore_follower (before : keyBefore key present = true) (follows : InPlace present later) :
    keyBefore key later = true := by
  obtain ⟨_, stays⟩ := follows
  cases index : indexKey? key <;> cases presentIndex : indexKey? present <;>
      cases laterIndex : indexKey? later <;>
    simp only [keyBefore, index, presentIndex, laterIndex, decide_eq_true_eq, decide_eq_false_iff_not,
      reduceCtorEq] at before stays ⊢
  omega

theorem ne_of_keyBefore (before : keyBefore key present = true) : key ≠ present := by
  rintro rfl
  cases before.symm.trans (keyBefore_asymm before)

theorem inPlace_of_before (before : keyBefore key present = true) (follows : InPlace present later) :
    InPlace key later :=
  have ahead := keyBefore_follower before follows
  ⟨ne_of_keyBefore ahead, keyBefore_asymm ahead⟩

end Places

namespace Properties

variable {α : Type} {entries : List (String × α)}

@[simp] theorem entries_assign (properties : Properties α) (key : String) (value : α) :
    (properties.assign key value).entries = assignEntry key value properties.entries := rfl

def Orderly (entries : List (String × α)) : Prop :=
  entries.Pairwise fun early late => InPlace early.1 late.1

theorem mem_assignEntry {key other : String} {value held : α} (orderly : Orderly entries) :
    (other, held) ∈ assignEntry key value entries ↔
      (other = key ∧ held = value) ∨ (other ≠ key ∧ (other, held) ∈ entries) := by
  induction entries with
  | nil => simp [assignEntry]
  | cons entry rest ih =>
    obtain ⟨present, was⟩ := entry
    obtain ⟨follow, later⟩ := List.pairwise_cons.1 orderly
    unfold assignEntry
    split
    next same =>
      subst same
      have others (member : (other, held) ∈ rest) : other ≠ present := (follow _ member).1.symm
      simp only [List.mem_cons, Prod.mk.injEq]
      constructor
      · rintro (assigned | member)
        · exact .inl assigned
        · exact .inr ⟨others member, .inr member⟩
      · rintro (assigned | ⟨differ, ⟨same, _⟩ | member⟩)
        · exact .inl assigned
        · exact absurd same differ
        · exact .inr member
    next differ =>
      split
      next before =>
        -- The new key is not among those that follow, or its place would have come first.
        have others (member : (other, held) ∈ (present, was) :: rest) : other ≠ key := by
          rcases List.mem_cons.1 member with here | there
          · obtain ⟨rfl, _⟩ := Prod.mk.inj here
            exact differ
          · exact (inPlace_of_before before (follow _ there)).1.symm
        rw [List.mem_cons, Prod.mk.injEq]
        exact or_congr_right ⟨fun member => ⟨others member, member⟩, And.right⟩
      next =>
        rw [List.mem_cons, ih later, List.mem_cons]
        constructor
        · rintro (here | assigned | ⟨other, there⟩)
          · obtain ⟨rfl, _⟩ := Prod.mk.inj here
            exact .inr ⟨differ, .inl here⟩
          · exact .inl assigned
          · exact .inr ⟨other, .inr there⟩
        · rintro (assigned | ⟨other, here | there⟩)
          · exact .inr (.inl assigned)
          · exact .inl here
          · exact .inr (.inr ⟨other, there⟩)

theorem assignEntry_orderly (orderly : Orderly entries) (key : String) (value : α) :
    Orderly (assignEntry key value entries) := by
  induction entries with
  | nil => exact List.pairwise_singleton _ _
  | cons entry rest ih =>
    obtain ⟨present, was⟩ := entry
    obtain ⟨follow, later⟩ := List.pairwise_cons.1 orderly
    unfold assignEntry
    split
    next same =>
      subst same
      exact List.pairwise_cons.2 ⟨follow, later⟩
    next differ =>
      split
      next before =>
        refine List.pairwise_cons.2 ⟨?_, orderly⟩
        rw [List.forall_mem_cons]
        exact ⟨⟨Ne.symm differ, keyBefore_asymm before⟩,
          fun entry member => inPlace_of_before before (follow entry member)⟩
      next after =>
        refine List.pairwise_cons.2 ⟨fun ⟨other, held⟩ member => ?_, ih later⟩
        rcases (mem_assignEntry later).1 member with ⟨rfl, _⟩ | ⟨_, there⟩
        · exact ⟨differ, Bool.not_eq_true _ ▸ after⟩
        · exact follow _ there

theorem Orderly.distinct (orderly : Orderly entries) : (entries.map Prod.fst).Nodup :=
  List.pairwise_map.2 (orderly.imp fun place => place.1)

theorem ofEntries_concat (entries : List (String × α)) (key : String) (value : α) :
    ofEntries (entries ++ [(key, value)]) = (ofEntries entries).assign key value := by
  simp [ofEntries]

theorem ofEntries_orderly (entries : List (String × α)) : Orderly (ofEntries entries).entries := by
  induction entries using List.reverseRecOn with
  | nil => exact .nil
  | append_singleton entries entry ih =>
    rw [ofEntries_concat]
    exact assignEntry_orderly ih _ _

section Assigning

variable {key : String} {value : α}

theorem assignEntry_first (first : ∀ entry ∈ entries, keyBefore key entry.1 = true) :
    assignEntry key value entries = (key, value) :: entries := by
  cases entries with
  | nil => rfl
  | cons entry rest =>
    obtain ⟨present, was⟩ := entry
    obtain ⟨before, _⟩ := List.forall_mem_cons.1 first
    have differ : present ≠ key := (ne_of_keyBefore before).symm
    simp [assignEntry, differ, before]

theorem assignEntry_last (last : ∀ entry ∈ entries, InPlace entry.1 key) :
    assignEntry key value entries = entries ++ [(key, value)] := by
  induction entries with
  | nil => rfl
  | cons entry rest ih =>
    obtain ⟨⟨differ, after⟩, later⟩ := List.forall_mem_cons.1 last
    simp [assignEntry, differ, after, ih later]

theorem map_assignEntry {β : Type} (change : α → β) :
    (assignEntry key value entries).map (fun entry => (entry.1, change entry.2)) =
      assignEntry key (change value) (entries.map fun entry => (entry.1, change entry.2)) := by
  induction entries with
  | nil => rfl
  | cons entry rest ih =>
    simp only [List.map_cons, assignEntry, ← ih]
    split
    next => rfl
    next => split <;> rfl

theorem filter_assignEntry_dropped (keeps : String → Bool) (dropped : keeps key = false) :
    (assignEntry key value entries).filter (fun entry => keeps entry.1) =
      entries.filter fun entry => keeps entry.1 := by
  induction entries with
  | nil => simp [assignEntry, dropped]
  | cons entry rest ih =>
    rw [assignEntry]
    split
    next same => simp [dropped, same]
    next =>
      split
      next => simp [List.filter_cons, dropped]
      next => simp [List.filter_cons, ih]

theorem filter_assignEntry (keeps : String → Bool) (kept : keeps key = true)
    (orderly : Orderly entries) :
    (assignEntry key value entries).filter (fun entry => keeps entry.1) =
      assignEntry key value (entries.filter fun entry => keeps entry.1) := by
  induction entries with
  | nil => simp [assignEntry, kept]
  | cons entry rest ih =>
    obtain ⟨present, was⟩ := entry
    obtain ⟨follow, later⟩ := List.pairwise_cons.1 orderly
    rw [assignEntry]
    split
    next same => simp [assignEntry, kept, same]
    next differ =>
      split
      next before =>
        -- What the key goes before need not be kept, but then it goes before what follows as well.
        have first : ∀ entry ∈ (present, was) :: rest, keyBefore key entry.1 = true :=
          List.forall_mem_cons.2
            ⟨before, fun entry member => keyBefore_follower before (follow entry member)⟩
        rw [assignEntry_first fun entry member => first entry (List.mem_filter.1 member).1]
        exact List.filter_cons_of_pos kept
      next after => cases keeping : keeps present <;> simp [assignEntry, keeping, differ, after, ih later]

end Assigning

end Properties

end Collections
