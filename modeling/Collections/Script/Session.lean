import Collections.Heap.Arithmetic
import Collections.Script.Answer
import Collections.Script.Program
import Collections.Text.Lowercase

set_option autoImplicit false

namespace Collections.Script

inductive Variable where
  | list (list : Handle Sequence)
  | set (set : Handle OrderedSet)
  | cursor (cursor : Handle Cursor)
  | traversal (traversal : Handle Traversal)

structure Counted (Spec : Type) where
  spec : Spec
  calls : Nat := 0

def Counted.called {Spec : Type} (counted : Counted Spec) : Counted Spec :=
  { counted with calls := counted.calls + 1 }

instance : Inhabited (Counted Hooks) := ⟨{ spec := {} }⟩
instance : Inhabited (Counted ComparatorSpec) := ⟨{ spec := { comparison := .natural } }⟩
instance : Inhabited (Counted PredicateSpec) := ⟨{ spec := { condition := .always } }⟩
instance : Inhabited (Counted SourceSpec) := ⟨{ spec := { draws := [] } }⟩

structure Session where
  heap : Heap := {}
  uniform : List Literal := []
  destructors : List (String × Counted Hooks) := []
  comparators : Table (Counted ComparatorSpec) := {}
  predicates : Table (Counted PredicateSpec) := {}
  sources : Table (Counted SourceSpec) := {}
  bindings : List (String × Variable) := []
  events : Array Event := #[]

def session : Action Session Session := do return (← get).outside

def changeSession (change : Session → Session) : Action Session Unit :=
  modify fun state => { state with outside := change state.outside }

def ask {α : Type} (question : Heap → Except Failure α) : Action Session α := do
  resultOf (question (← session).heap)

def inHeap {α : Type} (action : HeapAction α) : Action Session α := fun state =>
  let heap := state.outside.heap
  let state := { state with outside := { state.outside with heap := {} } }
  match action heap with
  | .ok result heap => .ok result { state with outside := { state.outside with heap } }
  | .error failure heap => .error failure { state with outside := { state.outside with heap } }

def make (literal : Literal) : Action Session Value := inHeap (Heap.make literal)

def makeAll (literals : List Literal) : Action Session (List Value) :=
  inHeap (Heap.makeAll literals)

def record (event : Event) : Action Session Unit :=
  changeSession fun held => { held with events := held.events.push event }

def bind (name : String) (bound : Variable) : Action Session Unit :=
  changeSession fun held =>
    let others := held.bindings.filter fun entry => entry.1 != name
    { held with bindings := (name, bound) :: others }

def binding? (name : String) : Action Session (Option Variable) := do
  return (← session).bindings.lookup name

def mentionDestructor (spec : Option DestructorSpec) : Action Session (Option String) := do
  match spec with
  | none => return none
  | some spec =>
      changeSession fun held =>
        if held.destructors.any (·.1 == spec.name) then held
        else { held with destructors := (spec.name, { spec := spec.hooks }) :: held.destructors }
      return some spec.name

def createComparator (spec : Option ComparatorSpec) : Action Session (Option ComparatorId) := do
  match spec with
  | none => return none
  | some spec =>
      let (comparators, handle) := (← session).comparators.add { spec }
      changeSession ({ · with comparators })
      return some ⟨handle.index⟩

def createPredicate (spec : PredicateSpec) :
    Action Session (Handle (Counted PredicateSpec)) := do
  let (predicates, handle) := (← session).predicates.add { spec }
  changeSession ({ · with predicates })
  return handle

def createSource (spec : Option SourceSpec) : Action Session (Option SourceId) := do
  match spec with
  | none => return none
  | some spec =>
      let (sources, handle) := (← session).sources.add { spec }
      changeSession ({ · with sources })
      return some ⟨handle.index⟩

def createOptions (spec : OptionsSpec) : Action Session ListOptions := do
  let destructor ← mentionDestructor spec.destructor
  let random ← createSource spec.random
  return { destructor, logger := spec.logger, random }

def lowercaseOf (heap : Heap) (operand : String) (value : Value) : Except Failure Value := do
  let asked ← heap.requireProperty "toLowerCase" value
  match value with
  | .text content => return .text (Text.lowercase content)
  | _ =>
      if heap.isFunction asked then return .undefined
      else throw (.misuse (.notCallable (operand ++ ".toLowerCase")))

def naturally (left right : Value) : Action Session Reply := do
  return .ofSign (← naturalOrder left right)

def byDifference (left right : Value) : Action Session Reply := ask (·.difference left right)

def byMeasure (measure : Heap → Value → Except Failure Number) (left right : Value) :
    Action Session Reply := do
  let leftMeasure ← ask (measure · left)
  return { order := leftMeasure.differenceOrder (← ask (measure · right)) }

def byProperty (key : String) (left right : Value) : Action Session Reply := do
  let leftProperty ← ask (·.requireProperty key left)
  let rightProperty ← ask (·.requireProperty key right)
  let heap := (← session).heap
  match heap.propertyUnits? key left, heap.propertyUnits? key right with
  | some leftUnits, some rightUnits =>
      return { order := Text.compareUnits leftUnits rightUnits }
  | _, _ => naturally leftProperty rightProperty

def ten : Number := .ofNat 10

def two : Number := .ofNat 2

def byDifferenceWith (undefinedLeft : Ordering) (left right : Value) : Action Session Reply :=
  match left, right with
  | .undefined, .undefined => return { order := .eq }
  | .undefined, _ => return { order := undefinedLeft }
  | _, .undefined => return { order := undefinedLeft.swap }
  | _, _ => byDifference left right

def Comparison.run (comparison : Comparison) (left right : Value) : Action Session Reply :=
  match comparison with
  | .natural => naturally left right
  | .reversed => naturally right left
  | .difference => byDifference left right
  | .oppositeDifference => byDifference right left
  | .lastDigit => byMeasure (·.remainder ten) left right
  | .magnitude => byMeasure Heap.magnitude left right
  | .length => do
      let leftLength ← ask (·.requireProperty "length" left)
      byDifference leftLength (← ask (·.requireProperty "length" right))
  | .lowercase => do
      let leftForm ← ask (lowercaseOf · "a" left)
      naturally leftForm (← ask (lowercaseOf · "b" right))
  | .property key => byProperty key left right
  | .zero | .negativeZero => return { order := .eq }
  | .nan => return { order := Number.nan.differenceOrder .nan }
  | .undefinedFirst => byDifferenceWith .lt left right
  | .undefinedLast => byDifferenceWith .gt left right
  | .poison =>
      if left = .text "poison" ∨ right = .text "poison" then throw (.thrown "poison")
      else naturally left right

def Condition.holds (condition : Condition) (value : Value) : Action Session Bool :=
  match condition with
  | .always => return true
  | .never => return false
  | .even => return (← ask (·.remainder two value)).isZero
  | .above bound => do
      let bound ← make bound
      ask (·.isAbove value bound)
  | .isNull => return value == .null
  | .notNull => return value != .null
  | .isUndefined => return value == .undefined
  | .isText =>
      match value with
      | .text _ => return true
      | _ => return false
  | .identical other => return value.identical (← make other)

abbrev Runner := ScriptId → Action Session (List Answer)

def enter (run : Runner) (hooks : Hooks) (calls : Action Session Nat) (failure : String) :
    Action Session Unit := do
  match hooks.scripts.lookup (← calls) with
  | some script => record (.nested (← run script))
  | none => pure ()
  if hooks.failsAt = some (← calls) then throw (.thrown failure)

def destructorNamed (name : String) : Action Session (Counted Hooks) := do
  return ((← session).destructors.lookup name).getD default

def destruct (run : Runner) (name : String) (value : Value) : Action Session Unit := do
  let counted := (← destructorNamed name).called
  changeSession fun held =>
    { held with
      destructors := held.destructors.map fun entry =>
        if entry.1 == name then (name, counted) else entry }
  enter run counted.spec (return (← destructorNamed name).calls) (name ++ " failed")
  record (.destructed name value)

def compareBy (run : Runner) (comparator : ComparatorId) (left right : Value) :
    Action Session Reply := do
  let handle := ⟨comparator.index⟩
  let counted := ((← session).comparators.get handle).called
  changeSession fun held => { held with comparators := held.comparators.set handle counted }
  enter run counted.spec.hooks (return ((← session).comparators.get handle).calls) "callback failed"
  if counted.spec.traced then record (.compared left right)
  counted.spec.comparison.run left right

def test (run : Runner) (predicate : Handle (Counted PredicateSpec)) (value : Value) :
    Action Session Bool := do
  let counted := ((← session).predicates.get predicate).called
  changeSession fun held => { held with predicates := held.predicates.set predicate counted }
  enter run counted.spec.hooks (return ((← session).predicates.get predicate).calls)
    "callback failed"
  if counted.spec.traced then record (.tested value)
  counted.spec.condition.holds value

def drawUniform : Action Session Value := do
  match (← session).uniform with
  | [] => return .number (.ofNat 0)
  | draw :: uniform =>
      changeSession ({ · with uniform })
      make draw

def drawOf (drawn : Value) (heap : Heap) : Except Failure Draw := do
  match ← heap.primitive .text drawn with
  | .number number => return .ofNumber number
  | .symbol identity => return .position (.symbolic identity)
  | drawn => return .ofName (← drawn.primitiveText heap)

def drawFrom (run : Runner) (source : SourceId) (lower upper : Number) : Action Session Draw := do
  let handle := ⟨source.index⟩
  let counted := ((← session).sources.get handle).called
  changeSession fun held => { held with sources := held.sources.set handle counted }
  enter run counted.spec.hooks (return ((← session).sources.get handle).calls) "callback failed"
  record (.drawn lower upper)
  let current := (← session).sources.get handle
  match current.spec.draws with
  | [] => return .ofNumber lower
  | draw :: draws =>
      changeSession fun held =>
        { held with
          sources := held.sources.set handle { current with spec := { current.spec with draws } } }
      ask (drawOf (← make draw))

def draw (run : Runner) (source : Option SourceId) (lower upper : Number) :
    Action Session Draw := do
  match source with
  | some source => drawFrom run source lower upper
  | none =>
      let uniform ← drawUniform
      ask (drawOf (← ask (·.drawBetween uniform (.number lower) (.number upper))))

def notify (logger : String) (notice : Notice) (held : Session) : Session :=
  { held with events := held.events.push (.logged logger notice) }

def growthLimit : Nat := 1 <<< 32

def callbacks (run : Runner) : Callbacks Session where
  destruct := destruct run
  compare := compareBy run
  draw := draw run
  capacityOf := fun value => ask (·.arrayLength value)
  lookAbove := fun parent name =>
    ask fun heap => Heap.requireOpen ((heap.lookAbove? .array parent name).getD .undefined)
  assignAbove := fun parent name value =>
    inHeap (Heap.assignAbove .array Heap.arrayText parent name value)
  slotsOf := fun parent => return (← session).heap.slotsOf parent
  requireCopyable := fun copying constructing => ask (Heap.requireCopyable copying constructing)
  notify := notify
  growths := growthLimit

end Collections.Script
