import Collections.Heap.Literal

set_option autoImplicit false

namespace Collections.Script

structure ScriptId where
  index : Nat

-- What surrounds the body of a callback. Calls are counted from one.
structure Hooks where
  scripts : List (Nat × ScriptId) := []
  failsAt : Option Nat := none

structure DestructorSpec where
  name : String
  hooks : Hooks := {}

inductive Comparison where
  | natural
  | reversed
  | difference
  | oppositeDifference
  | lastDigit
  | magnitude
  | length
  | lowercase
  | property (key : String)
  | zero
  | negativeZero
  | nan
  | undefinedFirst
  | undefinedLast
  | poison

structure ComparatorSpec where
  comparison : Comparison
  traced : Bool := false
  hooks : Hooks := {}

inductive Condition where
  | always
  | never
  | even
  | above (bound : Literal)
  | isNull
  | notNull
  | isUndefined
  | isText
  | identical (value : Literal)

structure PredicateSpec where
  condition : Condition
  traced : Bool := false
  hooks : Hooks := {}

-- Draws the given positions in turn, then the lower bound of what is asked for.
structure SourceSpec where
  draws : List Literal
  hooks : Hooks := {}

structure OptionsSpec where
  destructor : Option DestructorSpec := none
  logger : Option String := none
  random : Option SourceSpec := none

inductive Values where
  | given (values : List Literal)
  -- Of values that are alike only the first comes.
  | members (values : List Literal)
  | failing (values : List Literal)
  | plain (values : List Value)
  | variable (name : String)

namespace Values

def range (first : Number) (count : Number) (step : Number) : Values :=
  .plain <| (List.range count.naturalsBelow).map fun index =>
    .number (first.add ((Number.ofNat index).mul step))

def characters (text : String) : Values :=
  .plain (text.toList.map fun character => .text character.toString)

end Values

inductive Membership where
  | variable (name : String)
  | among (values : List Literal)

-- What can be asked of a variable; whether its kind knows the request is found out when it is made.
inductive Request where
  | length | capacity | isDestroyed
  | get (index : Literal)
  | set (index : Literal) (value : Literal)
  | append (value : Literal)
  | appendMany (values : Values)
  | appendAll (source : String)
  | getDestructor
  | setDestructor (destructor : Option DestructorSpec)
  | remove (index : Literal)
  | removeFirst | pop
  | removeItem (value : Literal)
  | peek
  | indexOf (value : Literal)
  | contains (value : Literal)
  | copy (destructor : Option DestructorSpec)
  | copyCursor
  | reverse
  | sort (comparator : Option ComparatorSpec)
  | shuffle
  | toOrderedSet (comparator : Option ComparatorSpec)
  | filter (predicate : PredicateSpec)
  | filterMembers (members : Membership)
  | filterOthers (members : Membership)
  | convertToOrderedSet | cursor | toList | destroy
  | next | previous | position
  | size
  | insert (value : Literal)
  | insertMany (values : Values)
  | find (value : Literal)
  | erase (value : Literal)
  | first | last
  | traverse | advance | close | collect

inductive Command where
  | emptyList (options : OptionsSpec)
  | listOfLength (length : Literal) (options : OptionsSpec)
  | listOfValues (values : Values) (options : OptionsSpec)
  | joinLists (lists : List (Option String)) (options : OptionsSpec)
  | emptySet (comparator : Option ComparatorSpec) (destructor : Option DestructorSpec)
  | setOfValues (values : Values) (comparator : Option ComparatorSpec)
      (destructor : Option DestructorSpec)
  | cursor (list : Option String)
  | cursorOverUndefined
  | request (request : Request)
  | lengthOf (list : Option String)
  | destroyIfPresent (list : Option String)
  | compare (left right : Literal)

structure Step where
  command : Command
  target : Option String := none
  binding : Option String := none

structure Program where
  steps : List Step
  scripts : Array (List Step) := #[]
  uniform : List Literal := []

def Program.script (program : Program) (script : ScriptId) : List Step :=
  program.scripts.getD script.index []

end Collections.Script
