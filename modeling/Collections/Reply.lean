import Collections.Failure

set_option autoImplicit false

namespace Collections

structure Reply where
  -- Below zero, the number zero, or neither.
  order : Ordering
  integer : Bool := false

namespace Reply

def ofSign (sign : Int) : Reply where
  order := if sign < 0 then .lt else if sign = 0 then .eq else .gt

def isBelow (reply : Reply) : Bool := reply.order == .lt

def isEqual (reply : Reply) : Bool := reply.order == .eq

def sortsBelow (reply : Reply) : Except Failure Bool :=
  if reply.integer then .error (.misuse .integerAsNumber) else .ok reply.isBelow

end Reply

end Collections
