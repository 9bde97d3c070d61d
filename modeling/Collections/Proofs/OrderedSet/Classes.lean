import Collections.Proofs.StableSort.Stability
import Mathlib.Data.List.Perm.Subperm

set_option autoImplicit false

namespace Collections

open Std StableSort

variable {α : Type} {order : α → α → Ordering}

def Strict (order : α → α → Ordering) (items : List α) : Prop :=
  items.Pairwise fun left right => order left right = .lt

def equalTo (order : α → α → Ordering) (value : α) (items : List α) : Option α :=
  items.find? fun item => order value item == .eq

theorem equalTo_eq_head?_classOf (order : α → α → Ordering) (value : α) (items : List α) :
    equalTo order value items = (classOf order value items).head? :=
  find?_eq_head?_classOf order value items

theorem equalTo_nil (order : α → α → Ordering) (value : α) : equalTo order value [] = none := rfl

theorem equalTo_cons (order : α → α → Ordering) (value first : α) (rest : List α) :
    equalTo order value (first :: rest) =
      if order value first = .eq then some first else equalTo order value rest := by
  simp [equalTo, List.find?_cons]
  split <;> simp_all

theorem equalTo_append (order : α → α → Ordering) (value : α) (left right : List α) :
    equalTo order value (left ++ right) =
      (equalTo order value left).or (equalTo order value right) :=
  List.find?_append

theorem equalTo_eq_none {value : α} {items : List α} :
    equalTo order value items = none ↔ ∀ item ∈ items, order value item ≠ .eq := by
  simp [equalTo]

theorem equalTo_eq_some {value item : α} {items : List α}
    (held : equalTo order value items = some item) : item ∈ items ∧ order value item = .eq :=
  ⟨List.mem_of_find?_eq_some held, by simpa using List.find?_some held⟩

theorem Strict.ascending {items : List α} (strict : Strict order items) : Ascending order items :=
  List.Pairwise.imp (fun below => by simp [below]) strict

variable [TransCmp order]

theorem Strict.eq_of_equal {items : List α} (strict : Strict order items) {left right : α}
    (leftMember : left ∈ items) (rightMember : right ∈ items) (equal : order left right = .eq) :
    left = right := by
  induction items with
  | nil => cases leftMember
  | cons first rest ih =>
    have ⟨above, strict⟩ := List.pairwise_cons.1 strict
    rcases List.mem_cons.1 leftMember with rfl | leftLater
    · rcases List.mem_cons.1 rightMember with rfl | rightLater
      · rfl
      · simp [above right rightLater] at equal
    · rcases List.mem_cons.1 rightMember with rfl | rightLater
      · have below := above left leftLater
        simp [OrientedCmp.eq_symm equal] at below
      · exact ih strict leftLater rightLater

theorem Strict.equalTo_eq_some_iff {items : List α} (strict : Strict order items) {value item : α} :
    equalTo order value items = some item ↔ item ∈ items ∧ order value item = .eq := by
  refine ⟨equalTo_eq_some, fun ⟨member, equal⟩ => ?_⟩
  cases held : equalTo order value items with
  | none => exact absurd equal (equalTo_eq_none.1 held item member)
  | some other =>
    obtain ⟨otherMember, otherEqual⟩ := equalTo_eq_some held
    have same : order other item = .eq := TransCmp.eq_trans (OrientedCmp.eq_symm otherEqual) equal
    rw [strict.eq_of_equal otherMember member same]

theorem Strict.classOf_eq {items : List α} (strict : Strict order items) (value : α) :
    classOf order value items = (equalTo order value items).toList := by
  induction items with
  | nil => rfl
  | cons first rest ih =>
    have ⟨above, strict⟩ := List.pairwise_cons.1 strict
    rw [classOf_cons, equalTo_cons]
    split
    next equal =>
      have none : classOf order value rest = [] := by
        refine classOf_eq_nil order fun other later equalOther => ?_
        have same : order first other = .eq :=
          TransCmp.eq_trans (OrientedCmp.eq_symm equal) equalOther
        simp [above other later] at same
      rw [none]
      rfl
    next => exact ih strict

theorem Strict.eq_of_equalTo {left right : List α} (leftStrict : Strict order left)
    (rightStrict : Strict order right)
    (same : ∀ value, equalTo order value left = equalTo order value right) : left = right := by
  refine leftStrict.ascending.eq_of_keepsClasses rightStrict.ascending fun value => ?_
  rw [leftStrict.classOf_eq, rightStrict.classOf_eq, same]

theorem Strict.length_le {items values : List α} (strict : Strict order items)
    (keeps : ∀ value, equalTo order value items = equalTo order value values) :
    items.length ≤ values.length := by
  have nodup : items.Nodup := by
    apply List.Pairwise.imp _ strict
    rintro item _ below rfl
    cases below.symm.trans ReflCmp.compare_self
  have within : items ⊆ values := fun item member => by
    have held := strict.equalTo_eq_some_iff.2 ⟨member, ReflCmp.compare_self⟩
    exact (equalTo_eq_some (keeps item ▸ held)).1
  exact (nodup.subperm within).length_le

theorem Strict.first_least {items : List α} (strict : Strict order items) {least : α}
    (first : items.head? = some least) : least ∈ items ∧ ∀ item ∈ items, (order least item).isLE := by
  obtain ⟨rest, rfl⟩ := List.head?_eq_some_iff.1 first
  exact ⟨List.mem_cons_self, fun item member => strict.ascending.head_isLE member⟩

theorem Strict.last_greatest {items : List α} (strict : Strict order items) {greatest : α}
    (last : items.getLast? = some greatest) :
    greatest ∈ items ∧ ∀ item ∈ items, (order item greatest).isLE := by
  obtain ⟨front, rfl⟩ := List.getLast?_eq_some_iff.1 last
  refine ⟨by simp, fun item member => ?_⟩
  rcases List.mem_append.1 member with earlier | there
  · exact (List.pairwise_append.1 strict.ascending).2.2 item earlier greatest (by simp)
  · rw [List.mem_singleton.1 there]
    exact ReflCmp.isLE_rfl

theorem equalTo_append_of_equal {items rest : List α} {value last : α} (member : last ∈ items)
    (equal : order last value = .eq) (asked : α) :
    equalTo order asked (items ++ value :: rest) = equalTo order asked (items ++ rest) := by
  rw [equalTo_append, equalTo_append, equalTo_cons]
  split
  next same =>
    have held : order asked last = .eq := TransCmp.eq_trans same (OrientedCmp.eq_symm equal)
    cases found : equalTo order asked items with
    | none => exact absurd held (equalTo_eq_none.1 found last member)
    | some item => rfl
  next => rfl

end Collections
