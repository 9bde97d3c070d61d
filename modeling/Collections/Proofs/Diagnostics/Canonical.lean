import Collections.Diagnostics.Document
import Collections.Proofs.ComparisonHistory
import Collections.Proofs.Diagnostics.Reading
import Mathlib.Data.List.Nodup

set_option autoImplicit false

namespace Collections

open Std

namespace Text

theorem order_eq_compareOn : order = compareOn codeUnits := by
  funext left right
  exact compareUnits_eq_compare _ _

instance : TransCmp order := by
  rw [order_eq_compareOn]
  infer_instance

theorem eq_of_order_eq {left right : String} (same : order left right = .eq) : left = right := by
  rw [order_eq_compareOn] at same
  exact codeUnits_inj (LawfulEqCmp.eq_of_compare same)

variable {α : Type} {entries others : List (String × α)}

theorem sortByKey_perm (entries : List (String × α)) : (sortByKey entries).Perm entries :=
  List.mergeSort_perm entries _

theorem mem_sortByKey {entry : String × α} : entry ∈ sortByKey entries ↔ entry ∈ entries :=
  (sortByKey_perm entries).mem_iff

def Ascending (entries : List (String × α)) : Prop :=
  entries.Pairwise fun left right => (order left.1 right.1).isLE

theorem order_swap (left right : String) : order right left = (order left right).swap :=
  OrientedCmp.eq_swap

theorem sortByKey_ascending (entries : List (String × α)) : Ascending (sortByKey entries) := by
  have sorts : (fun left right : String × α => order left.1 right.1 != .gt) =
      fun left right => (order left.1 right.1).isLE := by
    funext left right
    cases order left.1 right.1 <;> rfl
  unfold sortByKey
  rw [sorts]
  refine List.pairwise_mergeSort (fun _ _ _ => TransCmp.isLE_trans) (fun left right => ?_) entries
  rw [order_swap left.1 right.1]
  cases order left.1 right.1 <;> rfl

theorem eq_of_ascending (distinct : (entries.map Prod.fst).Nodup) (same : entries.Perm others)
    (ascending : Ascending entries) (ascendingToo : Ascending others) : entries = others := by
  refine same.eq_of_pairwise (fun left right leftIn rightIn below above => ?_) ascending ascendingToo
  -- Keys that neither precedes the other are the same key, which only one of the entries has.
  have level : order left.1 right.1 = .eq := OrientedCmp.isLE_antisymm below above
  exact List.inj_on_of_nodup_map distinct leftIn (same.mem_iff.2 rightIn) (eq_of_order_eq level)

theorem sortByKey_distinct (distinct : (entries.map Prod.fst).Nodup) :
    ((sortByKey entries).map Prod.fst).Nodup :=
  ((sortByKey_perm entries).map Prod.fst).nodup_iff.2 distinct

theorem sortByKey_congr (distinct : (entries.map Prod.fst).Nodup) (same : entries.Perm others) :
    sortByKey entries = sortByKey others :=
  eq_of_ascending (sortByKey_distinct distinct)
    ((sortByKey_perm entries).trans (same.trans (sortByKey_perm others).symm))
    (sortByKey_ascending entries) (sortByKey_ascending others)

end Text

namespace Diagnostics

namespace JsonValue

open Text

theorem toldItems_eq_map (items : List JsonValue) : toldItems items = items.map told := by
  induction items with
  | nil => rfl
  | cons item items ih => rw [toldItems, ih, List.map_cons]

theorem toldMembers_eq_map (members : List (String × JsonValue)) :
    toldMembers members = members.map fun member => (member.1, member.2.told) := by
  induction members with
  | nil => rfl
  | cons member members ih => rw [toldMembers, ih, List.map_cons]

inductive Ordered : JsonValue → Prop
  | null : Ordered .null
  | bool (value : Bool) : Ordered (.bool value)
  | number (value : Number) : Ordered (.number value)
  | text (value : String) : Ordered (.text value)
  | array {items : List JsonValue} (each : ∀ item ∈ items, Ordered item) : Ordered (.array items)
  | object {members : List (String × JsonValue)} (ascending : Ascending members)
      (each : ∀ member ∈ members, Ordered member.2) : Ordered (.object members)

theorem Ordered.told {json : JsonValue} (ordered : json.Ordered) : json.told.Ordered := by
  induction ordered with
  | null => exact .null
  | bool value => exact .bool value
  | number value =>
    unfold JsonValue.told
    split
    next => exact .number _
    next => exact .null
  | text value => exact .text value
  | array each ih =>
    rw [JsonValue.told, toldItems_eq_map]
    exact .array (List.forall_mem_map.2 ih)
  | object ascending each ih =>
    rw [JsonValue.told, toldMembers_eq_map]
    exact .object (List.pairwise_map.2 ascending) (List.forall_mem_map.2 ih)

theorem ofMembers_ordered {members : List (String × JsonValue)}
    (each : ∀ member ∈ members, member.2.Ordered) : (ofMembers members).Ordered :=
  .object (sortByKey_ascending members) fun member listed => each member (mem_sortByKey.1 listed)

/-- The members say what is told and nothing else, each key once and in order. -/
structure Lists (tells : String → JsonValue → Prop) (members : List (String × JsonValue)) : Prop where
  distinct : (members.map Prod.fst).Nodup
  ascending : Ascending members
  complete : ∀ key json, (key, json) ∈ members ↔ tells key json

theorem Lists.unique {tells : String → JsonValue → Prop} {members others : List (String × JsonValue)}
    (lists : Lists tells members) (listsToo : Lists tells others) : members = others := by
  have same : members.Perm others := by
    refine (List.perm_ext_iff_of_nodup lists.distinct.of_map listsToo.distinct.of_map).2 ?_
    exact fun (key, json) => (lists.complete key json).trans (listsToo.complete key json).symm
  exact eq_of_ascending lists.distinct same lists.ascending listsToo.ascending

section Forms

variable {α : Type} {form : α → Option JsonValue} {entries others : List (String × α)}

def formed (form : α → Option JsonValue) (entries : List (String × α)) : List (String × JsonValue) :=
  entries.filterMap fun (key, value) => (form value).map fun json => (key, json)

theorem mem_formed {key : String} {json : JsonValue} :
    (key, json) ∈ formed form entries ↔ ∃ value, (key, value) ∈ entries ∧ form value = some json := by
  simp [formed, List.mem_filterMap]

theorem formed_keys : ((formed form entries).map Prod.fst).Sublist (entries.map Prod.fst) := by
  induction entries with
  | nil => exact .slnil
  | cons entry rest ih =>
    obtain ⟨key, value⟩ := entry
    cases made : form value with
    | none => simpa [formed, made] using ih.cons key
    | some json => simpa [formed, made] using ih

theorem formed_ordered (ordered : ∀ entry ∈ entries, ∀ json ∈ form entry.2, json.Ordered) :
    ∀ member ∈ formed form entries, member.2.Ordered := by
  rintro ⟨key, json⟩ member
  obtain ⟨value, entered, made⟩ := mem_formed.1 member
  exact ordered _ entered json made

theorem ofMembers_formed_congr (distinct : (entries.map Prod.fst).Nodup) (same : entries.Perm others) :
    ofMembers (formed form entries) = ofMembers (formed form others) :=
  congrArg JsonValue.object
    (sortByKey_congr (formed_keys.nodup distinct) (same.filterMap _))

theorem lists_formed (distinct : (entries.map Prod.fst).Nodup) :
    Lists (fun key json => ∃ value, (key, value) ∈ entries ∧ (form value).map told = some json)
      (toldMembers (sortByKey (formed form entries))) := by
  rw [toldMembers_eq_map]
  constructor
  case distinct =>
    rw [List.map_map]
    exact sortByKey_distinct (formed_keys.nodup distinct)
  case ascending => exact List.pairwise_map.2 (sortByKey_ascending _)
  case complete =>
    intro key json
    constructor
    next =>
      intro member
      obtain ⟨⟨key, written⟩, listed, rfl, rfl⟩ := List.mem_map.1 member
      obtain ⟨value, entered, made⟩ := mem_formed.1 (mem_sortByKey.1 listed)
      exact ⟨value, entered, by rw [made, Option.map_some]⟩
    next =>
      rintro ⟨value, member, tells⟩
      obtain ⟨written, made, rfl⟩ := Option.map_eq_some_iff.1 tells
      exact List.mem_map.2 ⟨(key, written), mem_sortByKey.2 (mem_formed.2 ⟨value, member, made⟩), rfl⟩

end Forms

end JsonValue

open JsonValue

section Documents

variable {heap : Heap} {form : Value → Option JsonValue}

theorem ofItems_ordered (ordered : ∀ value json, form value = some json → json.Ordered)
    (items : List Value) : (ofItems form items).Ordered := by
  refine .array (List.forall_mem_map.2 fun item _ => ?_)
  cases made : form item with
  | none => exact .null
  | some json => exact ordered item json made

theorem ofEntries_ordered (ordered : ∀ value json, form value = some json → json.Ordered)
    (entries : List (String × Value)) : (ofEntries form entries).Ordered :=
  ofMembers_ordered (formed_ordered fun entry _ => ordered entry.2)

theorem documentWithin_ordered (depth : Nat) (above : List Value) (value : Value) (json : JsonValue)
    (made : documentWithin heap depth above value = some json) : json.Ordered := by
  induction depth generalizing above value json with
  | zero =>
    cases value <;> cases made <;> constructor
  | succ depth ih =>
    cases value with
    -- Only objects have parts, and each part is formed with one object more above it.
    | object identity =>
      simp only [documentWithin] at made
      split at made
      next => cases made
      next =>
        split at made
        next => cases made; exact .text _
        next =>
          split at made <;> cases made
          next => exact ofItems_ordered (ih _) _
          next => exact ofEntries_ordered (ih _) _
    | _ => cases made <;> constructor

theorem document_ordered (value : Value) (json : JsonValue) (made : document heap value = some json) :
    json.Ordered :=
  documentWithin_ordered _ _ value json made

end Documents

end Diagnostics

end Collections
