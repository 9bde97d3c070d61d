import Collections.Proofs.Frame

set_option autoImplicit false

namespace Collections

open Std

variable {Outside : Type}

structure Ranking where
  order : Ordinals → Value → Value → Ordering
  Settled : Ordinals → Value → Value → Prop
  ordered : ∀ ordinals, TransCmp (order ordinals)
  symm : ∀ {ordinals left right}, Settled ordinals left right → Settled ordinals right left
  chain : ∀ {ordinals low middle high}, Settled ordinals low middle → Settled ordinals middle high →
    (order ordinals low middle).isLE → (order ordinals middle high).isLE →
      Settled ordinals low high
  lasts : ∀ {early late left right}, early ≤ late → Settled early left right → Settled late left right
  agrees : ∀ {early late left right}, early ≤ late → Settled early left right →
    order late left right = order early left right

namespace Ranking

instance (ranking : Ranking) (ordinals : Ordinals) : TransCmp (ranking.order ordinals) :=
  ranking.ordered ordinals

def constant (order : Value → Value → Ordering) [ordered : TransCmp order] : Ranking where
  order := fun _ => order
  Settled := fun _ _ _ => True
  ordered := fun _ => ordered
  symm := fun _ => trivial
  chain := fun _ _ _ _ => trivial
  lasts := fun _ _ => trivial
  agrees := fun _ _ => rfl

def natural : Ranking where
  order := Ordinals.order
  Settled := Ordinals.Settled
  ordered := inferInstance
  symm := Ordinals.Settled.symm
  chain := Ordinals.Settled.trans
  lasts := fun extended settled => Ordinals.Settled.of_le extended settled
  agrees := fun extended settled => Ordinals.order_eq_of_settled extended settled

end Ranking

namespace Callbacks

def Ranks (callbacks : Callbacks Outside) (comparator : Option ComparatorId)
    (ranking : Ranking) : Prop :=
  ∀ left right before, Succeeds (callbacks.reply comparator left right) before fun reply after =>
    before.Advances after ∧ ranking.Settled after.ordinals left right ∧
      reply.order = ranking.order after.ordinals left right ∧ reply.integer = false

/--
A comparator that tells how two values compare under a fixed order, by a number. It may remember that
it was called.
-/
def Compares (callbacks : Callbacks Outside) (comparator : ComparatorId)
    (order : Value → Value → Ordering) : Prop :=
  ∀ left right before, ∃ outside, callbacks.compare comparator left right before =
    .ok { order := order left right } { before with outside }

theorem Compares.ranks {callbacks : Callbacks Outside} {comparator : ComparatorId}
    {order : Value → Value → Ordering} [TransCmp order]
    (compares : callbacks.Compares comparator order) :
    callbacks.Ranks (some comparator) (.constant order) := by
  intro left right before
  obtain ⟨outside, answered⟩ := compares left right before
  exact ⟨_, _, answered, ⟨rfl, Ordinals.le_refl before.ordinals⟩, trivial, rfl, rfl⟩

theorem naturalOrder_ranks (callbacks : Callbacks Outside) : callbacks.Ranks none .natural := by
  intro left right before
  have judged := compareNatural_judged before.ordinals left right
  let outcome := compareNatural before.ordinals left right
  have answered : callbacks.reply none left right before =
      .ok (.ofSign outcome.1) { before with ordinals := outcome.2 } := rfl
  exact ⟨_, _, answered, ⟨rfl, judged.extended⟩, judged.settled, judged.order_eq, rfl⟩

end Callbacks

namespace Ranking

variable (ranking : Ranking)

def Below (ordinals : Ordinals) (left right : Value) : Prop :=
  ranking.Settled ordinals left right ∧ ranking.order ordinals left right = .lt

def NotBelow (ordinals : Ordinals) (left right : Value) : Prop :=
  ranking.Settled ordinals left right ∧ ranking.order ordinals left right ≠ .lt

def Ascends (ordinals : Ordinals) (items : List Value) : Prop :=
  items.Pairwise (ranking.Below ordinals)

variable {ranking} {early late ordinals : Ordinals} {low middle high : Value} {items : List Value}

theorem Below.of_le (extended : early ≤ late) (below : ranking.Below early low high) :
    ranking.Below late low high :=
  ⟨ranking.lasts extended below.1, ranking.agrees extended below.1 ▸ below.2⟩

theorem natural_below (ordinals : Ordinals) (plain : low.isIdentity = false)
    (same : low.rank = high.rank) (below : ({} : Ordinals).order low high = .lt) :
    natural.Below ordinals low high :=
  ⟨fun identity => by simp [plain] at identity,
    (Ordinals.order_of_plain ordinals same (by simp [plain])).trans below⟩

theorem NotBelow.of_le (extended : early ≤ late) (notBelow : ranking.NotBelow early low high) :
    ranking.NotBelow late low high :=
  ⟨ranking.lasts extended notBelow.1, ranking.agrees extended notBelow.1 ▸ notBelow.2⟩

theorem Ascends.of_le (extended : early ≤ late) (ascends : ranking.Ascends early items) :
    ranking.Ascends late items :=
  List.Pairwise.imp (Below.of_le extended) ascends

theorem Below.trans (lower : ranking.Below ordinals low middle)
    (upper : ranking.Below ordinals middle high) : ranking.Below ordinals low high := by
  have lowerLE : (ranking.order ordinals low middle).isLE := by simp [lower.2]
  have upperLE : (ranking.order ordinals middle high).isLE := by simp [upper.2]
  exact ⟨ranking.chain lower.1 upper.1 lowerLE upperLE, TransCmp.lt_trans lower.2 upper.2⟩

theorem NotBelow.of_below (notBelow : ranking.NotBelow ordinals middle low)
    (upper : ranking.Below ordinals middle high) :
    ranking.NotBelow ordinals high low ∧ ranking.order ordinals high low = .gt := by
  have lowerLE : (ranking.order ordinals low middle).isLE :=
    OrientedCmp.isGE_iff_isLE.1 (Ordering.isGE_iff_ne_lt.2 notBelow.2)
  have upperLE : (ranking.order ordinals middle high).isLE := by simp [upper.2]
  have settled := ranking.chain (ranking.symm notBelow.1) upper.1 lowerLE upperLE
  have less : ranking.order ordinals low high = .lt := TransCmp.lt_of_isLE_of_lt lowerLE upper.2
  have above : ranking.order ordinals high low = .gt := OrientedCmp.gt_of_lt less
  exact ⟨⟨ranking.symm settled, by simp [above]⟩, above⟩

def SetsAscend (ranking : Ranking) (comparator : Option ComparatorId) (state : State Outside) : Prop :=
  ∀ set held, state.containers.sets.cell? set = some held → held.comparator = comparator →
    ranking.Ascends state.ordinals held.items.toList

namespace SetsAscend

variable {comparator : Option ComparatorId} {set : Handle OrderedSet} {held : OrderedSet}
  {before after : State Outside}

theorem becomes (ascend : ranking.SetsAscend comparator before)
    (becomes : before.SetBecomes set held after)
    (ascends : held.comparator = comparator → ranking.Ascends after.ordinals held.items.toList) :
    ranking.SetsAscend comparator after := by
  intro other kept there compares
  rw [becomes.sets] at there
  split at there
  next =>
    obtain rfl := Option.some.inj there
    exact ascends compares
  next => exact (ascend other kept there compares).of_le becomes.ordinals

theorem of_sets_eq (ascend : ranking.SetsAscend comparator before)
    (same : after.containers.sets = before.containers.sets)
    (extended : before.ordinals ≤ after.ordinals) : ranking.SetsAscend comparator after :=
  fun set held there compares => (ascend set held (same ▸ there) compares).of_le extended

theorem advances (ascend : ranking.SetsAscend comparator before) (advances : before.Advances after) :
    ranking.SetsAscend comparator after :=
  ascend.of_sets_eq (by rw [advances.containers]) advances.ordinals

theorem modify (ascend : ranking.SetsAscend comparator before) {step : OrderedSet → OrderedSet}
    (steps : ∀ held, before.containers.sets.cell? set = some held →
      (step held).comparator = comparator →
        ranking.Ascends before.ordinals (step held).items.toList) :
    Ends (OrderedSet.change set step : Action Outside Unit) before
      (fun _ => ranking.SetsAscend comparator) fun _ => ranking.SetsAscend comparator := by
  intro other kept there compares
  dsimp only at there
  rw [Table.cell?_modify] at there
  split at there
  next same =>
    subst same
    obtain ⟨held, was, rfl⟩ := Option.map_eq_some_iff.1 there
    exact steps held was compares
  next => exact ascend other kept there compares

end SetsAscend

end Ranking

end Collections
