set_option autoImplicit false

namespace Collections.StableSort

open Std

variable {α : Type}

def Ascending (order : α → α → Ordering) (items : List α) : Prop :=
  items.Pairwise fun left right => (order left right).isLE

def classOf (order : α → α → Ordering) (item : α) (items : List α) : List α :=
  items.filter fun other => order item other == .eq

def KeepsClasses (order : α → α → Ordering) (before after : List α) : Prop :=
  ∀ item, classOf order item after = classOf order item before

def merged (order : α → α → Ordering) (left right : List α) : List α :=
  left.merge right fun leftItem rightItem => (order leftItem rightItem).isLE

theorem isLE_iff_ne_lt (order : α → α → Ordering) [OrientedCmp order] {left right : α} :
    (order left right).isLE ↔ order right left ≠ .lt := by
  have swapped : order right left = (order left right).swap := OrientedCmp.eq_swap
  rw [swapped]
  cases order left right <;> simp

@[simp] theorem nil_merged (order : α → α → Ordering) (right : List α) :
    merged order [] right = right := List.nil_merge right

@[simp] theorem merged_nil (order : α → α → Ordering) (left : List α) :
    merged order left [] = left := List.merge_right left

section Classes

variable (order : α → α → Ordering)

theorem classOf_cons (item first : α) (rest : List α) :
    classOf order item (first :: rest) =
      if order item first = .eq then first :: classOf order item rest
      else classOf order item rest := by
  simp [classOf, List.filter_cons]

theorem classOf_append (item : α) (left right : List α) :
    classOf order item (left ++ right) = classOf order item left ++ classOf order item right := by
  simp [classOf]

theorem classOf_eq_nil {item : α} {items : List α}
    (unequal : ∀ other ∈ items, order item other ≠ .eq) : classOf order item items = [] := by
  simpa [classOf] using unequal

theorem mem_classOf {item other : α} {items : List α} :
    other ∈ classOf order item items ↔ other ∈ items ∧ order item other = .eq := by
  simp [classOf]

theorem find?_eq_head?_classOf (item : α) (items : List α) :
    items.find? (fun other => order item other == .eq) = (classOf order item items).head? := by
  simp [classOf]

end Classes

namespace KeepsClasses

variable {order : α → α → Ordering} {first second third : List α}

theorem refl (items : List α) : KeepsClasses order items items := fun _ => rfl

theorem symm (kept : KeepsClasses order first second) : KeepsClasses order second first :=
  fun item => (kept item).symm

theorem trans (early : KeepsClasses order first second) (late : KeepsClasses order second third) :
    KeepsClasses order first third :=
  fun item => (late item).trans (early item)

theorem append {left left' right right' : List α} (lefts : KeepsClasses order left left')
    (rights : KeepsClasses order right right') :
    KeepsClasses order (left ++ right) (left' ++ right') := by
  intro item
  rw [classOf_append, classOf_append, lefts item, rights item]

variable [TransCmp order]

theorem mem (kept : KeepsClasses order first second) {item : α} (member : item ∈ first) :
    item ∈ second := by
  have same : item ∈ classOf order item first :=
    (mem_classOf order).2 ⟨member, ReflCmp.compare_self⟩
  rw [← kept item] at same
  exact ((mem_classOf order).1 same).1

theorem swap {left right : List α}
    (unequal : ∀ leftItem ∈ left, ∀ rightItem ∈ right, order leftItem rightItem ≠ .eq) :
    KeepsClasses order (left ++ right) (right ++ left) := by
  intro item
  rw [classOf_append, classOf_append]
  by_cases meets : ∃ leftItem ∈ left, order item leftItem = .eq
  · obtain ⟨leftItem, member, equal⟩ := meets
    have none : classOf order item right = [] := by
      refine classOf_eq_nil order fun rightItem inRight equalRight => ?_
      apply unequal leftItem member rightItem inRight
      exact TransCmp.eq_trans (OrientedCmp.eq_symm equal) equalRight
    simp [none]
  · have none : classOf order item left = [] :=
      classOf_eq_nil order fun leftItem member equal => meets ⟨leftItem, member, equal⟩
    simp [none]

theorem reverse {items : List α} (distinct : items.Pairwise fun left right => order left right ≠ .eq) :
    KeepsClasses order items items.reverse := by
  induction items with
  | nil => exact refl []
  | cons first rest ih =>
    rw [List.pairwise_cons] at distinct
    rw [List.reverse_cons]
    have moved : KeepsClasses order ([first] ++ rest) (rest ++ [first]) :=
      swap (by simpa using distinct.1)
    exact moved.trans (append (ih distinct.2) (refl [first]))

end KeepsClasses

section Uniqueness

variable {order : α → α → Ordering} [TransCmp order]

theorem Ascending.head_isLE {first item : α} {rest : List α}
    (ascending : Ascending order (first :: rest)) (member : item ∈ first :: rest) :
    (order first item).isLE := by
  rcases List.mem_cons.1 member with rfl | later
  · exact ReflCmp.isLE_rfl
  · exact (List.pairwise_cons.1 ascending).1 item later

theorem Ascending.eq_of_keepsClasses {left right : List α} (leftAscends : Ascending order left)
    (rightAscends : Ascending order right) (kept : KeepsClasses order left right) :
    left = right := by
  induction left generalizing right with
  | nil =>
    cases right with
    | nil => rfl
    | cons first rest => simpa using kept.symm.mem (List.mem_cons_self (a := first))
  | cons leftFirst leftRest ih =>
    cases right with
    | nil => simpa using kept.mem (List.mem_cons_self (a := leftFirst))
    | cons rightFirst rightRest =>
      have below := leftAscends.head_isLE (kept.symm.mem List.mem_cons_self)
      have above := rightAscends.head_isLE (kept.mem List.mem_cons_self)
      have equal : order leftFirst rightFirst = .eq := OrientedCmp.isLE_antisymm below above
      -- The two first items are equal, so both stand first in the class that they share.
      have heads := kept leftFirst
      rw [classOf_cons, classOf_cons, if_pos equal, if_pos ReflCmp.compare_self] at heads
      obtain rfl : rightFirst = leftFirst := (List.cons.inj heads).1
      refine congrArg (rightFirst :: ·) (ih leftAscends.tail rightAscends.tail fun item => ?_)
      have whole := kept item
      rw [classOf_cons, classOf_cons] at whole
      split at whole
      · exact (List.cons.inj whole).2
      · exact whole

end Uniqueness

section Merged

variable {order : α → α → Ordering} [TransCmp order]

theorem merged_ascending {left right : List α} (leftAscends : Ascending order left)
    (rightAscends : Ascending order right) : Ascending order (merged order left right) := by
  refine List.pairwise_merge (fun _ _ _ => TransCmp.isLE_trans) (fun a b => ?_) left right
    leftAscends rightAscends
  have swapped : order b a = (order a b).swap := OrientedCmp.eq_swap
  cases result : order a b <;> simp [swapped, result]

theorem merged_keepsClasses {left : List α} (leftAscends : Ascending order left) (right : List α) :
    KeepsClasses order (left ++ right) (merged order left right) := by
  induction left generalizing right with
  | nil => simpa using KeepsClasses.refl right
  | cons leftFirst left leftIH =>
    induction right with
    | nil => simpa using KeepsClasses.refl (leftFirst :: left)
    | cons rightFirst right rightIH =>
      by_cases leads : (order leftFirst rightFirst).isLE
      · rw [merged, List.cons_merge_cons_pos (h := leads)]
        exact .append (.refl [leftFirst]) (leftIH leftAscends.tail _)
      · rw [merged, List.cons_merge_cons_neg (h := leads)]
        have below : order rightFirst leftFirst = .lt := OrientedCmp.lt_of_not_isLE leads
        -- What overtakes the whole left list is below all of it, so it overtakes no equal item.
        have moved : KeepsClasses order ((leftFirst :: left) ++ [rightFirst])
            ([rightFirst] ++ (leftFirst :: left)) := by
          refine .swap fun leftItem member rightItem same equal => ?_
          obtain rfl := List.mem_singleton.1 same
          have above := TransCmp.lt_of_lt_of_isLE below (leftAscends.head_isLE member)
          rw [OrientedCmp.eq_symm equal] at above
          cases above
        have whole := moved.append (.refl right)
        rw [List.append_assoc, List.append_assoc] at whole
        exact whole.trans (.append (.refl [rightFirst]) rightIH)

omit [TransCmp order] in
theorem merged_append_left {block : List α} (left right : List α)
    (first : ∀ item ∈ block, ∀ rightItem ∈ right, (order item rightItem).isLE) :
    merged order (block ++ left) right = block ++ merged order left right := by
  induction block with
  | nil => rfl
  | cons item block ih =>
    cases right with
    | nil => simp
    | cons rightItem right =>
      have leads : (order item rightItem).isLE := first item (by simp) rightItem (by simp)
      have later := ih fun item member => first item (List.mem_cons_of_mem _ member)
      simp only [merged, List.cons_append] at later ⊢
      rw [List.cons_merge_cons_pos (h := leads), later]

theorem merged_append_right {block : List α} (left right : List α)
    (first : ∀ item ∈ block, ∀ leftItem ∈ left, order item leftItem = .lt) :
    merged order left (block ++ right) = block ++ merged order left right := by
  induction block with
  | nil => rfl
  | cons item block ih =>
    cases left with
    | nil => simp
    | cons leftItem left =>
      have leads : ¬ (order leftItem item).isLE :=
        OrientedCmp.not_isLE_of_lt (first item (by simp) leftItem (by simp))
      have later := ih fun item member => first item (List.mem_cons_of_mem _ member)
      simp only [merged, List.cons_append] at later ⊢
      rw [List.cons_merge_cons_neg (h := leads), later]

theorem merged_append_block {left right block : List α} (leftAscends : Ascending order left)
    (rightAscends : Ascending order (right ++ block))
    (last : ∀ leftItem ∈ left, ∀ item ∈ block, (order leftItem item).isLE) :
    merged order left (right ++ block) = merged order left right ++ block := by
  obtain ⟨inRight, inBlock, across⟩ := List.pairwise_append.1 rightAscends
  have ascends : Ascending order (merged order left right ++ block) := by
    refine List.pairwise_append.2 ⟨merged_ascending leftAscends inRight, inBlock, ?_⟩
    intro item member blockItem inBlock
    rcases List.mem_merge.1 member with inLeft | inRight
    · exact last item inLeft blockItem inBlock
    · exact across item inRight blockItem inBlock
  apply (merged_ascending leftAscends rightAscends).eq_of_keepsClasses ascends
  have whole := (merged_keepsClasses leftAscends right).append (.refl block)
  rw [List.append_assoc] at whole
  exact (merged_keepsClasses leftAscends _).symm.trans whole

end Merged

section Reading

variable {order : α → α → Ordering}

theorem Ascending.reverse {items : List α} (ascending : Ascending order items) :
    Ascending (fun left right => order right left) items.reverse :=
  List.pairwise_reverse.2 ascending

variable [TransCmp order]

theorem KeepsClasses.read {before after : List α} (kept : KeepsClasses order before after) :
    KeepsClasses (fun left right => order right left) before.reverse after.reverse := by
  intro item
  have turned (items : List α) : classOf (fun left right => order right left) item items.reverse =
      (classOf order item items).reverse := by
    have same (other : α) : (order other item == .eq) = (order item other == .eq) := by
      have swapped : order other item = (order item other).swap := OrientedCmp.eq_swap
      rw [swapped]
      cases order item other <;> rfl
    simp [classOf, same]
  rw [turned, turned, kept item]

theorem merged_reverse {left right : List α} (leftAscends : Ascending order left)
    (rightAscends : Ascending order right) :
    (merged (fun left right => order right left) right.reverse left.reverse).reverse =
      merged order left right := by
  have turned := (merged_ascending rightAscends.reverse leftAscends.reverse).reverse
  apply Ascending.eq_of_keepsClasses turned (merged_ascending leftAscends rightAscends)
  have backward := (merged_keepsClasses rightAscends.reverse left.reverse).read
  simp only [List.reverse_append, List.reverse_reverse] at backward
  exact backward.symm.trans (merged_keepsClasses leftAscends _)

end Reading

end Collections.StableSort
