import Collections.Cursor.Operations
import Collections.Proofs.Sequence.Requests

set_option autoImplicit false

namespace Collections

structure PredicateId where
  index : Nat
  deriving DecidableEq

structure Surroundings (Outside : Type) extends Callbacks Outside where
  test : PredicateId → Value → Action Outside Bool

inductive Members where
  | set (set : Handle OrderedSet)
  | among (values : List Value)

inductive Operation where
  | emptyList (options : ListOptions)
  | nullList (length : Value) (options : ListOptions)
  | listOf (values : List Value) (options : ListOptions)
  | listOfTraversal (traversal : Handle Traversal) (options : ListOptions)
  | join (lists : List (Option (Handle Sequence))) (options : ListOptions)
  | lengthOf (list : Option (Handle Sequence))
  | get (list : Handle Sequence) (index : Value)
  | set (list : Handle Sequence) (index value : Value)
  | append (list : Handle Sequence) (value : Value)
  | appendAll (list source : Handle Sequence)
  | destructorOf (list : Handle Sequence)
  | setDestructor (list : Handle Sequence) (destructor : Option String)
  | remove (list : Handle Sequence) (index : Value)
  | removeFirst (list : Handle Sequence)
  | pop (list : Handle Sequence)
  | removeItem (list : Handle Sequence) (value : Value)
  | peek (list : Handle Sequence)
  | indexOf (list : Handle Sequence) (value : Value)
  | contains (list : Handle Sequence) (value : Value)
  | copy (list : Handle Sequence) (destructor : Option String)
  | reverse (list : Handle Sequence)
  | sort (list : Handle Sequence) (comparator : ComparatorId)
  | shuffle (list : Handle Sequence)
  | toOrderedSet (list : Handle Sequence) (comparator : Option ComparatorId)
  | filter (list : Handle Sequence) (predicate : PredicateId)
  | filterMembers (list : Handle Sequence) (members : Members)
  | filterOthers (list : Handle Sequence) (members : Members)
  | convertToOrderedSet (list : Handle Sequence)
  | cursorOf (list : Handle Sequence)
  | toList (list : Handle Sequence)
  | destroy (list : Handle Sequence)
  | destroyIfPresent (list : Option (Handle Sequence))
  | emptySet (comparator : Option ComparatorId) (destructor : Option String)
  | setOf (values : List Value) (comparator : Option ComparatorId) (destructor : Option String)
  | setOfTraversal (traversal : Handle Traversal) (comparator : Option ComparatorId)
      (destructor : Option String)
  | insert (set : Handle OrderedSet) (value : Value)
  | find (set : Handle OrderedSet) (value : Value)
  | holds (set : Handle OrderedSet) (value : Value)
  | erase (set : Handle OrderedSet) (value : Value)
  | first (set : Handle OrderedSet)
  | last (set : Handle OrderedSet)
  | itemsOf (set : Handle OrderedSet)
  | destructorOfSet (set : Handle OrderedSet)
  | setDestructorOfSet (set : Handle OrderedSet) (destructor : Option String)
  | destroySet (set : Handle OrderedSet)
  | cursorAt (target : CursorTarget)
  | next (cursor : Handle Cursor)
  | previous (cursor : Handle Cursor)
  | copyCursor (cursor : Handle Cursor)
  | detach (cursor : Handle Cursor)
  | traverse (source : TraversalSource)
  | advance (traversal : Handle Traversal)
  | finish (traversal : Handle Traversal)
  | collect (traversal : Handle Traversal)
  | compare (left right : Value)

namespace Operation

inductive Answer where
  | done
  | list (made : Handle Sequence)
  | set (made : Handle OrderedSet)
  | cursor (made : Handle Cursor)
  | traversal (made : Handle Traversal)
  | item (value : Value)
  | step (item : Option Value)
  | items (values : List Value)
  | flag (flag : Bool)
  | position (position : Option Nat)
  | length (length : Number)
  | sign (sign : Int)
  | destructor (name : Option String)
  deriving DecidableEq

end Operation

section Performing

variable {Outside : Type} (surroundings : Surroundings Outside)

def isAmong : Members → Value → Action Outside Bool
  | .set set, value => OrderedSet.contains surroundings.toCallbacks set value
  | .among values, value => return values.any fun member => member.alike value

def listOfTraversal (traversal : Handle Traversal) (options : ListOptions) :
    Action Outside (Handle Sequence) := do
  let list ← Sequence.empty options
  let _ ← Traversal.visitAll surroundings.toCallbacks traversal
    (Sequence.append surroundings.toCallbacks list)
  return list

def setOfTraversal (traversal : Handle Traversal) (comparator : Option ComparatorId)
    (destructor : Option String) : Action Outside (Handle OrderedSet) := do
  let values ← Traversal.visitAll surroundings.toCallbacks traversal pure
  OrderedSet.ofValues surroundings.toCallbacks values.toList comparator destructor

def perform : Operation → Action Outside Operation.Answer
  | .emptyList options => return .list (← Sequence.empty options)
  | .nullList length options => return .list (← Sequence.withLength length options)
  | .listOf values options =>
      return .list (← Sequence.ofValues surroundings.toCallbacks values options)
  | .listOfTraversal traversal options =>
      return .list (← listOfTraversal surroundings traversal options)
  | .join lists options => return .list (← Sequence.join surroundings.toCallbacks lists options)
  | .lengthOf list => return .length (← Sequence.lengthOf list)
  | .get list index => return .item (← Sequence.get list index)
  | .set list index value => do
      Sequence.set list index value
      return .done
  | .append list value => do
      Sequence.append surroundings.toCallbacks list value
      return .done
  | .appendAll list source => do
      Sequence.appendAll surroundings.toCallbacks list source
      return .done
  | .destructorOf list => return .destructor (← Sequence.state list).destructor
  | .setDestructor list destructor => do
      Sequence.setDestructor list destructor
      return .done
  | .remove list index => return .item (← Sequence.remove list index)
  | .removeFirst list => return .item (← Sequence.removeFirst list)
  | .pop list => return .item (← Sequence.pop list)
  | .removeItem list value => return .flag (← Sequence.removeItem list value)
  | .peek list => return .item (← Sequence.peek list)
  | .indexOf list value => return .position (← Sequence.indexOf list value)
  | .contains list value => return .flag (← Sequence.contains list value)
  | .copy list destructor =>
      return .list (← Sequence.copy surroundings.toCallbacks list destructor)
  | .reverse list => do
      Sequence.reverse list
      return .done
  | .sort list comparator => do
      Sequence.sort surroundings.toCallbacks list (some comparator)
      return .done
  | .shuffle list => do
      Sequence.shuffle surroundings.toCallbacks list
      return .done
  | .toOrderedSet list comparator =>
      return .set (← Sequence.toOrderedSet surroundings.toCallbacks list comparator)
  | .filter list predicate =>
      return .list (← Sequence.filter surroundings.toCallbacks list (surroundings.test predicate))
  | .filterMembers list members =>
      return .list (← Sequence.filterMembers surroundings.toCallbacks list
        (isAmong surroundings members))
  | .filterOthers list members =>
      return .list (← Sequence.filterOthers surroundings.toCallbacks list
        (isAmong surroundings members))
  | .convertToOrderedSet list =>
      return .set (← Sequence.convertToOrderedSet surroundings.toCallbacks list)
  | .cursorOf list => return .cursor (← Cursor.ofList list)
  | .toList list => return .items (← Sequence.toList surroundings.toCallbacks list)
  | .destroy list => do
      Sequence.destroy surroundings.toCallbacks list
      return .done
  | .destroyIfPresent list => do
      Sequence.destroyIfPresent surroundings.toCallbacks list
      return .done
  | .emptySet comparator destructor => return .set (← OrderedSet.empty comparator destructor)
  | .setOf values comparator destructor =>
      return .set (← OrderedSet.ofValues surroundings.toCallbacks values comparator destructor)
  | .setOfTraversal traversal comparator destructor =>
      return .set (← setOfTraversal surroundings traversal comparator destructor)
  | .insert set value => return .flag (← OrderedSet.insert surroundings.toCallbacks set value)
  | .find set value => return .item (← OrderedSet.find surroundings.toCallbacks set value)
  | .holds set value => return .flag (← OrderedSet.contains surroundings.toCallbacks set value)
  | .erase set value => return .flag (← OrderedSet.erase surroundings.toCallbacks set value)
  | .first set => return .item (← OrderedSet.state set).first
  | .last set => return .item (← OrderedSet.state set).last
  | .itemsOf set => return .items (← OrderedSet.state set).items.toList
  | .destructorOfSet set => return .destructor (← OrderedSet.state set).destructor
  | .setDestructorOfSet set destructor => do
      OrderedSet.setDestructor set destructor
      return .done
  | .destroySet set => do
      OrderedSet.destroy surroundings.toCallbacks set
      return .done
  | .cursorAt target => return .cursor (← Cursor.before target)
  | .next cursor => return .step (← Cursor.next cursor)
  | .previous cursor => return .step (← Cursor.previous cursor)
  | .copyCursor cursor => return .cursor (← Cursor.copy cursor)
  | .detach cursor => do
      Cursor.detach cursor
      return .done
  | .traverse source => return .traversal (← Traversal.start source)
  | .advance traversal => return .step (← Traversal.next traversal)
  | .finish traversal => do
      Traversal.finish traversal
      return .done
  | .collect traversal =>
      return .items (← Traversal.visitAll surroundings.toCallbacks traversal pure).toList
  | .compare left right => return .sign (← naturalOrder left right)

end Performing

end Collections
