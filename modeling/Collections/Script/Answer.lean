import Collections.Callbacks

set_option autoImplicit false

namespace Collections.Script

inductive Result where
  | void
  | bound (name : String)
  | value (value : Value)
  | values (values : Array Value)
  | advanced (done : Bool) (value : Value)

inductive Snapshot where
  | list (length capacity : Nat) (destroyed : Bool) (destructor : Option String)
      (items : List Value)
  | set (destructor : Option String) (items : Array Value)
  | cursor (index : Nat)
  | traversal

structure AnswerWith (Event : Type) where
  outcome : Except Failure Result
  snapshot : Option Snapshot
  events : List Event

inductive Event where
  | destructed (destructor : String) (value : Value)
  | logged (logger : String) (notice : Notice)
  | drawn (lower upper : Number)
  | compared (left right : Value)
  | tested (value : Value)
  | nested (answers : List (AnswerWith Event))

abbrev Answer := AnswerWith Event

end Collections.Script
