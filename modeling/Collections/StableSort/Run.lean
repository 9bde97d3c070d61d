set_option autoImplicit false

namespace Collections.StableSort

variable {α : Type} {m : Type → Type} [Monad m]

@[specialize]
def continueRun (below : α → α → m Bool) (descending : Bool) (previous : α) (length : Nat) :
    List α → m Nat
  | [] => return length
  | item :: rest => do
      if (← below item previous) == descending then
        continueRun below descending item (length + 1) rest
      else return length

@[specialize]
def measureRun (below : α → α → m Bool) : List α → m (Bool × Nat)
  | first :: second :: rest => do
      let descending ← below second first
      return (descending, ← continueRun below descending second 2 rest)
  | items => return (false, items.length)

@[specialize]
def place (below : α → α → m Bool) (sorted : Array α) (pivot : α) (low high : Nat)
    (bound : high ≤ sorted.size) : m Nat :=
  if inside : low < high then do
    let middle := low + (high - low) / 2
    if ← below pivot sorted[middle] then place below sorted pivot low middle (by omega)
    else place below sorted pivot (middle + 1) high bound
  else return low
termination_by high - low

@[specialize]
def insert (below : α → α → m Bool) (sorted : Array α) (pivot : α) : m (Array α) := do
  let position ← place below sorted pivot 0 sorted.size (Nat.le_refl _)
  return sorted.insertIdxIfInBounds position pivot

@[specialize]
def insertAll (below : α → α → m Bool) (sorted : Array α) : List α → m (Array α)
  | [] => return sorted
  | pivot :: rest => do insertAll below (← insert below sorted pivot) rest

@[specialize]
def sortRun (below : α → α → m Bool) (descending : Bool) (length : Nat) (items : List α) :
    m (Array α) :=
  let beginning := items.take length
  insertAll below (if descending then beginning.reverse else beginning).toArray
    (items.drop length)

end Collections.StableSort
