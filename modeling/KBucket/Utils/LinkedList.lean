import KBucket.Foundation

/-!
# `LinkedList.swift`

A `Node` is an object, known by its place in the order in which the list made its nodes, and
`objects` gives the nodes that are still alive. `next` holds on to its target; `previous` is
`weak`, and reads as `nil` once its target is gone.
-/

namespace KBucket

structure Node (T : Type) where
  value : T
  next : Option Nat := none
  previous : Option Nat := none

structure LinkedList (T : Type) where
  objects : Nat → Option (Node T) := fun _ => none
  created : Nat := 0
  head : Option Nat := none
  tail : Option Nat := none

namespace LinkedList

variable {T : Type}

def isAlive (list : LinkedList T) (node : Nat) : Bool := (list.objects node).isSome

def value (list : LinkedList T) (node : Nat) : Option T := (list.objects node).map Node.value

def next (list : LinkedList T) (node : Nat) : Option Nat := (list.objects node).bind Node.next

/-- The weak reference itself, whatever became of its target. -/
def weakPrevious (list : LinkedList T) (node : Nat) : Option Nat :=
  (list.objects node).bind Node.previous

def previous (list : LinkedList T) (node : Nat) : Option Nat :=
  (list.weakPrevious node).filter list.isAlive

def setNext (list : LinkedList T) (node : Nat) (next : Option Nat) : LinkedList T :=
  { list with
    objects := fun a =>
      if a = node then (list.objects a).map fun n => { n with next } else list.objects a }

def setPrevious (list : LinkedList T) (node : Nat) (previous : Option Nat) : LinkedList T :=
  { list with
    objects := fun a =>
      if a = node then (list.objects a).map fun n => { n with previous } else list.objects a }

def setHead (list : LinkedList T) (head : Option Nat) : LinkedList T := { list with head }

def setTail (list : LinkedList T) (tail : Option Nat) : LinkedList T := { list with tail }

def isEmpty (list : LinkedList T) : Bool := list.head == none

def first (list : LinkedList T) : Option Nat := list.head

def last (list : LinkedList T) : Option Nat := list.tail

/-- `Node(value: value)`. -/
def create (list : LinkedList T) (value : T) : LinkedList T :=
  { list with
    objects := fun a => if a = list.created then some { value } else list.objects a
    created := list.created + 1 }

def append (list : LinkedList T) (value : T) : LinkedList T :=
  let newNode := list.created
  let created := list.create value
  let linked :=
    match list.tail with
    | some tailNode => (created.setPrevious newNode (some tailNode)).setNext tailNode (some newNode)
    | none => created.setHead (some newNode)
  linked.setTail (some newNode)

/-- The loop of `nodeAt`, with `i` steps to go. -/
def nodeAfter (list : LinkedList T) : Nat → Option Nat → Option Nat
  | _, none => none
  | 0, some node => some node
  | i + 1, some node => list.nodeAfter i (list.next node)

def nodeAt (list : LinkedList T) (index : Int) : Option Nat :=
  if index ≥ 0 then list.nodeAfter index.toNat list.head else none

def removeAll (list : LinkedList T) : LinkedList T := (list.setHead none).setTail none

/-- What `remove` does to the side of `prev`. -/
def linkForth (list : LinkedList T) (prev next : Option Nat) : LinkedList T :=
  match prev with
  | some prev => list.setNext prev next
  | none => list.setHead next

/-- What `remove` does to the side of `next`. -/
def linkBack (list : LinkedList T) (next prev : Option Nat) : LinkedList T :=
  match next with
  | some next => list.setPrevious next prev
  | none => list.setTail prev

/-- The second component is what the call returns; a caller has a node to pass, so it is there. -/
def remove (list : LinkedList T) (node : Nat) : LinkedList T × Option T :=
  let prev := list.previous node
  let next := list.next node
  let linked := (list.linkForth prev next).linkBack next prev
  let detached := (linked.setPrevious node none).setNext node none
  (detached, detached.value node)

/-- The loop of `description`, which goes on as long as there is a next node; `none` when `fuel`
    does not last. -/
def describe (list : LinkedList T) (text : T → String) : Nat → String → Option Nat → Option String
  | _, acc, none => some (acc ++ "]")
  | 0, _, some _ => none
  | fuel + 1, acc, some node =>
    let acc := acc ++ ((list.value node).map text).getD ""
    let node := list.next node
    list.describe text fuel (if node = none then acc else acc ++ ", ") node

def description (list : LinkedList T) (text : T → String) (fuel : Nat) : Option String :=
  list.describe text fuel "[" list.head

/-- Nothing holds on to the node any more, unless a variable of the caller does. -/
def isReleased (list : LinkedList T) (node : Nat) : Bool :=
  list.head != some node && list.tail != some node &&
    (List.range list.created).all fun a => list.next a != some node

/-- The end of a node. -/
def free (list : LinkedList T) (node : Nat) : LinkedList T :=
  { list with objects := fun a => if a = node then none else list.objects a }

/-- What the owner of a list and of some of its nodes can do, and `deinit`, which follows when
    they let go of a node. -/
inductive Event (T : Type) where
  | append (value : T)
  | remove (node : Nat)
  | removeAll
  | deinit (node : Nat)
  deriving DecidableEq, Repr

/-- An event that names a node which is gone, or that ends one which is still referred to, does
    not occur; it changes nothing. -/
def step (list : LinkedList T) : Event T → Except Trap (LinkedList T)
  | .append value => .ok (list.append value)
  | .remove node => .ok (if list.isAlive node then (list.remove node).1 else list)
  | .removeAll => .ok list.removeAll
  | .deinit node => .ok (if list.isReleased node then list.free node else list)

/-- A member is a node that `nodeAt` finds. -/
def Member (list : LinkedList T) (node : Nat) : Prop := ∃ index, list.nodeAt index = some node

/-- A node of the list that is no member any more. -/
def Stale (list : LinkedList T) (node : Nat) : Prop := list.isAlive node ∧ ¬ list.Member node

/-! ## What the updates change -/

section Updates

variable (list : LinkedList T) (node a : Nat) (x : Option Nat)

@[simp] theorem isAlive_setNext : (list.setNext node x).isAlive a = list.isAlive a := by
  by_cases h : a = node <;> simp [isAlive, setNext, h]

@[simp] theorem isAlive_setPrevious : (list.setPrevious node x).isAlive a = list.isAlive a := by
  by_cases h : a = node <;> simp [isAlive, setPrevious, h]

@[simp] theorem value_setNext : (list.setNext node x).value a = list.value a := by
  by_cases h : a = node <;> simp [value, setNext, h, Function.comp_def]

@[simp] theorem value_setPrevious : (list.setPrevious node x).value a = list.value a := by
  by_cases h : a = node <;> simp [value, setPrevious, h, Function.comp_def]

@[simp] theorem next_setPrevious : (list.setPrevious node x).next a = list.next a := by
  by_cases h : a = node
  · subst h
    cases ha : list.objects a <;> simp [next, setPrevious, ha]
  · simp [next, setPrevious, h]

theorem next_setNext : (list.setNext node x).next a =
    if a = node ∧ list.isAlive node then x else list.next a := by
  by_cases h : a = node
  · subst h
    cases ha : list.objects a <;> simp [next, setNext, isAlive, ha]
  · simp [next, setNext, h]

@[simp] theorem weakPrevious_setNext :
    (list.setNext node x).weakPrevious a = list.weakPrevious a := by
  by_cases h : a = node
  · subst h
    cases ha : list.objects a <;> simp [weakPrevious, setNext, ha]
  · simp [weakPrevious, setNext, h]

theorem weakPrevious_setPrevious : (list.setPrevious node x).weakPrevious a =
    if a = node ∧ list.isAlive node then x else list.weakPrevious a := by
  by_cases h : a = node
  · subst h
    cases ha : list.objects a <;> simp [weakPrevious, setPrevious, isAlive, ha]
  · simp [weakPrevious, setPrevious, h]

@[simp] theorem previous_setNext : (list.setNext node x).previous a = list.previous a := by
  have halive : (list.setNext node x).isAlive = list.isAlive :=
    funext fun b => isAlive_setNext list node b x
  rw [previous, previous, halive, weakPrevious_setNext]

theorem previous_setPrevious : (list.setPrevious node x).previous a =
    if a = node ∧ list.isAlive node then x.filter list.isAlive else list.previous a := by
  have halive : (list.setPrevious node x).isAlive = list.isAlive :=
    funext fun b => isAlive_setPrevious list node b x
  rw [previous, previous, halive, weakPrevious_setPrevious]
  split <;> rfl

@[simp] theorem head_setNext : (list.setNext node x).head = list.head := rfl
@[simp] theorem tail_setNext : (list.setNext node x).tail = list.tail := rfl
@[simp] theorem created_setNext : (list.setNext node x).created = list.created := rfl

@[simp] theorem head_setPrevious : (list.setPrevious node x).head = list.head := rfl
@[simp] theorem tail_setPrevious : (list.setPrevious node x).tail = list.tail := rfl
@[simp] theorem created_setPrevious : (list.setPrevious node x).created = list.created := rfl

@[simp] theorem isAlive_setHead : (list.setHead x).isAlive a = list.isAlive a := rfl
@[simp] theorem value_setHead : (list.setHead x).value a = list.value a := rfl
@[simp] theorem next_setHead : (list.setHead x).next a = list.next a := rfl
@[simp] theorem weakPrevious_setHead : (list.setHead x).weakPrevious a = list.weakPrevious a := rfl
@[simp] theorem previous_setHead : (list.setHead x).previous a = list.previous a := rfl
@[simp] theorem head_setHead : (list.setHead x).head = x := rfl
@[simp] theorem tail_setHead : (list.setHead x).tail = list.tail := rfl
@[simp] theorem created_setHead : (list.setHead x).created = list.created := rfl

@[simp] theorem isAlive_setTail : (list.setTail x).isAlive a = list.isAlive a := rfl
@[simp] theorem value_setTail : (list.setTail x).value a = list.value a := rfl
@[simp] theorem next_setTail : (list.setTail x).next a = list.next a := rfl
@[simp] theorem weakPrevious_setTail : (list.setTail x).weakPrevious a = list.weakPrevious a := rfl
@[simp] theorem previous_setTail : (list.setTail x).previous a = list.previous a := rfl
@[simp] theorem head_setTail : (list.setTail x).head = list.head := rfl
@[simp] theorem tail_setTail : (list.setTail x).tail = x := rfl
@[simp] theorem created_setTail : (list.setTail x).created = list.created := rfl

end Updates

end LinkedList
end KBucket
