import Osns.Library.Transition
import Osns.Model.Skiplist.Find

/-! Insertion and deletion in skiplists, after `skiplist-insert.c`, `skiplist-delete.c` and
`skiplist-utils.c`. There is one thread, so that locks are always granted. -/

namespace Osns

/-- A `struct sl_move_dirnode_s`. -/
structure SlMove (α : Type) where
  dirnode : Option ℕ
  left : ℕ
  right : ℕ
  step : ℤ
  list : Option α
  dirnodeRight : Bool

def SlMove.init {α : Type} (list : Option α) : SlMove α where
  dirnode := none
  left := 0
  right := 0
  step := 0
  list := list
  dirnodeRight := false

/-- An `int` that is added to an `unsigned int`. -/
def addStep (step : ℕ) (change : ℤ) : ℕ := (((step : ℤ) + change) % 4294967296).toNat

section Moves

variable {α : Type} [DecidableEq α]

/-- What `get_prev_element` and `get_next_element` walk over from an element. One that has been removed
stands alone. -/
def elementsBefore (list : List α) (e : α) : List α :=
  if e ∈ list then (list.takeWhile (· ≠ e)).reverse else []

def elementsAfter (list : List α) (e : α) : List α := (list.dropWhile (· ≠ e)).drop 1

/-- The loop of `move_sl_dirnode_left`. -/
def walkLeft : List α → α → SlMove α → α × SlMove α
  | [], e, move => (e, move)
  | prev :: before, e, move =>
    if 1 < u32Sub move.left move.right then
      if move.list = some prev then (e, move)
      else
        walkLeft before prev
          { move with
              step := move.step - 1
              left := u32Sub move.left 1
              right := u32 (move.right + 1) }
    else (e, move)

/-- The loop of `move_sl_dirnode_right`. -/
def walkRight : List α → α → SlMove α → α × SlMove α
  | [], e, move => (e, move)
  | next :: after, e, move =>
    if 1 < u32Sub move.right move.left then
      if move.list = some next then (e, move)
      else
        walkRight after next
          { move with
              step := move.step + 1
              left := u32 (move.left + 1)
              right := u32Sub move.right 1 }
    else (e, move)

variable (lanes : Lanes α)

/-- The dirnode is put on the element where a walk ends. -/
def Lanes.moveDirnode (walk : α → SlMove α → α × SlMove α) (move : SlMove α) :
    Option (Lanes α × SlMove α) := do
  let d ← move.dirnode
  let dirnode ← lanes.dirnodes[d]?
  let e ← dirnode.list
  let r := walk e move
  return ({ lanes with dirnodes := lanes.dirnodes.set d { dirnode with list := some r.1 } }, r.2)

variable (list : List α) (move : SlMove α)

def moveSlDirnodeLeft : Option (Lanes α × SlMove α) :=
  lanes.moveDirnode (fun e => walkLeft (elementsBefore list e) e) move

def moveSlDirnodeRight : Option (Lanes α × SlMove α) :=
  lanes.moveDirnode (fun e => walkRight (elementsAfter list e) e) move

/-! ## New dirnodes -/

/-- The average number of steps in a lane, and the last level where it is too large. A division by zero has
no result. -/
def levelupStep (r : ℕ × Option ℕ) (ctr : ℕ) : Option (ℕ × Option ℕ) := do
  let junction ← lanes.junction slStart ctr
  let dirnodes := u32 (junction.count + 1)
  if dirnodes = 0 then none
  else return (r.1 / dirnodes, if lanes.prob < r.1 / dirnodes then some ctr else r.2)

/-- The level of a new dirnode, if there has to be one. -/
def doLevelup (count : ℕ) : Option (Option ℕ) := do
  let level ← lanes.level
  if lanes.prob < u32 count then do
    let r ← Transition.run (levelupStep lanes) (u32 count, none) (List.range (level + 1))
    return if r.2 = some level ∧ lanes.prob < r.1 then some (level + 1) else r.2
  else return some 0

def createSlDirnode (e : α) (level : ℕ) : Dirnode α where
  list := some e
  level := level
  junction := List.replicate (level + 1) initJunction

/-- The level of the skiplist is raised for a dirnode that is higher. -/
def Lanes.raise (level : ℕ) : Option (Lanes α) := do
  let start ← lanes.dirnodes[slStart]?
  return { lanes with
    dirnodes := lanes.dirnodes.set slStart { start with level := max start.level level } }

def insertSlDirnode (count : ℕ) (e : α) (move : SlMove α) : Option (Lanes α × SlMove α) := do
  match ← doLevelup lanes count with
  | none => return (lanes, move)
  | some newlevel =>
    let newlevel := min newlevel lanes.maxlevel
    let lanes' ← { lanes with dirnodes := lanes.dirnodes ++ [createSlDirnode e newlevel] }.raise
      newlevel
    return (lanes', { move with dirnode := some lanes.dirnodes.length })

/-- A new dirnode is moved when there is one. -/
def insertSlDirnodeMoved (moveSlDirnode : Lanes α → SlMove α → Option (Lanes α × SlMove α))
    (lanes : Lanes α) (count : ℕ) (e : α) (move : SlMove α) : Option (Lanes α × SlMove α) := do
  let r ← insertSlDirnode lanes count e move
  if r.2.dirnode.isSome then moveSlDirnode r.1 r.2 else return r

/-- Whether and where a dirnode is put for a new element, by the steps on both sides of it. -/
def insertDirnodes (count : ℕ) (e : α) (insert : SlMove α) : Option (Lanes α × SlMove α) :=
  if lanes.prob ≤ insert.left ∧ lanes.prob ≤ insert.right then
    insertSlDirnode lanes count e insert
  else if 2 * lanes.prob ≤ u32 (insert.left + insert.right + 1) ∨ lanes.prob + 1 < insert.left then
    if insert.right < insert.left then
      insertSlDirnodeMoved (fun lanes => moveSlDirnodeLeft lanes list) lanes count e insert
    else if insert.left < insert.right then
      insertSlDirnodeMoved (fun lanes => moveSlDirnodeRight lanes list) lanes count e insert
    else return (lanes, insert)
  else return (lanes, insert)

/-! ## Correction of the lanes -/

variable (vector : SlVector)

/-- The steps of the lane below that a new dirnode of a lane skips on its left and on its right. -/
def skippedSteps (prev next : ℕ) (insert : SlMove α) : ℕ → Option (SlMove α)
  | 0 => return insert
  | below + 1 => do
    let tmp := vector.path below
    let left ←
      if prev = tmp then some insert.left
      else (lanes.junction prev below).map fun j => u32 (insert.left + j.step)
    let junction ← lanes.junction tmp below
    let right ←
      if next = junction.n then some insert.right
      else do
        let behind ← lanes.junction next below
        (lanes.junction behind.p below).map fun j => u32 (insert.right + j.step)
    return { insert with left, right }

def linkDirnode (lanes : Lanes α) (insert : SlMove α) (new level : ℕ) :
    Option (Lanes α × SlMove α) := do
  let prev := vector.path level
  let junction ← lanes.junction prev level
  let next := junction.n
  let lanes ← lanes.modify prev level fun j => { j with n := new }
  let lanes ← lanes.modify new level fun j => { j with p := prev }
  let lanes ← lanes.modify next level fun j => { j with p := new }
  let lanes ← lanes.modify new level fun j => { j with n := next }
  let insert ← skippedSteps lanes vector prev next insert level
  let lanes ← lanes.modify prev level fun j => { j with step := insert.left }
  let lanes ← lanes.modify new level fun j => { j with step := insert.right }
  let lanes ← lanes.modify slStart level fun j => { j with count := u32 (j.count + 1) }
  return (lanes, insert)

def SlMove.dirnodeAt (lanes : Lanes α) (level : ℕ) : Option ℕ :=
  move.dirnode.bind fun d =>
    lanes.dirnodes[d]?.bind fun dirnode => if level ≤ dirnode.level then some d else none

variable (r : Lanes α × SlMove α)

def correctDirnodesInsert (level : ℕ) : Option (Lanes α × SlMove α) :=
  match r.2.dirnodeAt r.1 level with
  | some new => linkDirnode vector r.1 r.2 new level
  | none =>
    (r.1.modify (vector.path level) level fun j => { j with step := u32 (j.step + 1) }).map
      fun lanes => (lanes, r.2)

/-- The neighbour on the right is left as it is. A dirnode is freed at its highest level. -/
def unlinkDirnode (old level : ℕ) : Option (Lanes α × SlMove α) := do
  let dirnode ← lanes.dirnodes[old]?
  let junction ← dirnode.junction[level]?
  let lanes ← lanes.modify junction.p level fun j =>
    { j with n := junction.n, step := u32Sub (u32 (j.step + junction.step)) 1 }
  let lanes ← lanes.modify slStart level fun j => { j with count := u32Sub j.count 1 }
  if level = dirnode.level then
    return ({ lanes with freed := old :: lanes.freed }, { move with dirnode := none })
  else return (lanes, move)

def correctSlDirnodesRemove (level : ℕ) : Option (Lanes α × SlMove α) :=
  match r.2.dirnodeAt r.1 level with
  | some old => unlinkDirnode r.1 r.2 old level
  | none =>
    (r.1.modify (vector.path level) level fun j => { j with step := u32Sub j.step 1 }).map
      fun lanes => (lanes, r.2)

/-- The steps of a dirnode that has been moved, without the element that is removed. -/
def shiftDirnode (d level : ℕ) : Option (Lanes α × SlMove α) := do
  let junction ← lanes.junction d level
  let lanes ← lanes.modify junction.p level fun j => { j with step := addStep j.step move.step }
  let lanes ← lanes.modify d level fun j => { j with step := addStep j.step (-move.step) }
  let lanes ← lanes.modify (if move.dirnodeRight then junction.p else d) level fun j =>
    { j with step := u32Sub j.step 1 }
  return (lanes, move)

def correctSlDirnodesMove (level : ℕ) : Option (Lanes α × SlMove α) :=
  match r.2.dirnodeAt r.1 level with
  | some d => shiftDirnode r.1 r.2 d level
  | none =>
    (r.1.modify (vector.path level) level fun j => { j with step := u32Sub j.step 1 }).map
      fun lanes => (lanes, r.2)

/-- The lanes are corrected on every level while the locks are removed. -/
def removeLockVector (cb : SlVector → Lanes α × SlMove α → ℕ → Option (Lanes α × SlMove α))
    (vector : SlVector) (lanes : Lanes α) (move : SlMove α) : Option (Lanes α) :=
  (Transition.run (cb vector) (lanes, move) (List.range (vector.maxlevel + 1))).map (·.1)

/-! ## Insertion -/

/-- `add_list_element_before` and `add_list_element_after`. -/
def addListElementBefore (n e : α) : List α := list.takeWhile (· ≠ n) ++ e :: list.dropWhile (· ≠ n)

def addListElementAfter (p e : α) : List α :=
  list.takeWhile (· ≠ p) ++ p :: e :: (list.dropWhile (· ≠ p)).drop 1

/-- The list and the number of steps to the left and to the right of the new element, or nothing when the
search has not come to a place. -/
def insertElement (r : SearchResult α) (e : α) (step : ℕ) : Option (Option (List α × ℕ × ℕ)) :=
  if r.flags.before then
    r.found.map fun n =>
      some (addListElementBefore list n e, r.step, u32 (u32Sub step r.step + 1))
  else if r.flags.after then
    r.found.map fun p =>
      some (addListElementAfter list p e, u32 (r.step + 1), u32Sub step r.step)
  else some none

end Moves

section Operations

variable {α κ : Type} [DecidableEq α] [LinearOrder κ] (key : α → κ)

def SearchResult.inserted (r : SearchResult α) (e : α) : SearchResult α :=
  { r with found := some e, flags := { r.flags with ok := true } }

variable (sl : Skiplist α)

/-- `sl_insert_cb` for the first element. -/
def insertFirst (vector : SlVector) (r : SearchResult α) (e : α) :
    Option (Skiplist α × SearchResult α) := do
  let lanes ← sl.lanes.modify slStart 0 fun j => { j with step := 1 }
  let lanes ← removeLockVector correctDirnodesInsert vector lanes (.init none)
  return ({ list := [e], count := sl.count + 1, lanes }, r.inserted e)

/-- `sl_insert_cb` beside an element. -/
def insertBeside (vector : SlVector) (r : SearchResult α) (e : α) :
    Option (Skiplist α × SearchResult α) := do
  let junction ← sl.lanes.junction (vector.path 0) 0
  match ← insertElement sl.list r e junction.step with
  | some (list, left, right) => do
    let move ← insertDirnodes sl.lanes list (sl.count + 1) e { SlMove.init none with left, right }
    let lanes ← removeLockVector correctDirnodesInsert vector move.1 move.2
    return ({ list, count := sl.count + 1, lanes }, r.inserted e)
  | none => do
    let move ← insertDirnodes sl.lanes sl.list sl.count e (.init none)
    let lanes ← removeLockVector correctDirnodesInsert vector move.1 move.2
    return ({ sl with lanes }, r)

/-- An element with the same key is left alone. -/
def slInsert (e : α) : Option (Skiplist α × SearchResult α) :=
  (slFindGeneric key sl (key e)).bind fun found =>
    if found.2.flags.exact then some (sl, found.2)
    else if found.2.flags.empty then insertFirst sl found.1 found.2 e
    else insertBeside sl found.1 found.2 e

/-! ## Deletion -/

variable (lanes : Lanes α)

/-- Upgrading the locks of a dirnode that is to be removed moves the lowest one to a dirnode in front of it,
which is the one on the highest level. -/
def upgradeReadlockVector (vector : SlVector) (dirnode : ℕ) : Option SlVector :=
  Transition.run
    (fun v level =>
      if v.path level = dirnode then
        (lanes.junction dirnode level).map fun j => { v with path := Function.update v.path 0 j.p }
      else some v)
    vector (List.range (vector.maxlevel + 1))

/-- The dirnode beside an element that is removed, and in which direction it is moved. -/
inductive DeleteMove
  | keep
  | remove
  | left (d left right : ℕ) (dirnodeRight : Bool)
  | right (d left right : ℕ) (dirnodeRight : Bool)
  deriving DecidableEq, Repr

/-- For an element that is found in a lane. -/
def deleteAtDirnode (dirnode : ℕ) : Option DeleteMove := do
  let junction ← lanes.junction dirnode 0
  let prev ← lanes.junction junction.p 0
  if u32 (prev.step + junction.step + 1) < 2 * lanes.prob then return .remove
  else if u32 (junction.step + 1) < prev.step then
    return .left dirnode prev.step junction.step false
  else if u32 (prev.step + 1) < junction.step then
    return .right dirnode prev.step junction.step false
  else return .keep

/-- For an element that is found in the list behind a dirnode. -/
def deleteBehindDirnode (dirnode : ℕ) : Option DeleteMove := do
  let junction ← lanes.junction dirnode 0
  if junction.step < u32Sub lanes.prob 1 then do
    let next ← lanes.junction junction.n 0
    if dirnode ≠ slStart ∧ junction.n ≠ slStart then do
      let prev ← lanes.junction junction.p 0
      if next.step < junction.step then return .left junction.n junction.step next.step true
      else if next.step < prev.step then return .left dirnode prev.step junction.step false
      else if junction.step < next.step then return .right junction.n junction.step next.step true
      else return .keep
    else if junction.n ≠ slStart then
      if junction.step < next.step then return .right junction.n junction.step next.step true
      else if next.step < junction.step then return .left junction.n junction.step next.step true
      else return .keep
    else if dirnode ≠ slStart then do
      let prev ← lanes.junction junction.p 0
      if junction.step < prev.step then return .left dirnode prev.step junction.step false
      else return .keep
    else return .keep
  else return .keep

/-- The move is made in front of the element that is removed, or behind it, and the lanes are corrected
for it. -/
def deleteMove (list : List α) (vector : SlVector) (dirnode : ℕ) (e : α) :
    DeleteMove → Option (Lanes α)
  | .keep => removeLockVector correctSlDirnodesMove vector lanes (.init (some e))
  | .remove =>
    removeLockVector correctSlDirnodesRemove vector lanes
      { SlMove.init (some e) with dirnode := some dirnode }
  | .left d left right dirnodeRight =>
    (moveSlDirnodeLeft lanes list
      { SlMove.init (some e) with dirnode := some d, left, right, dirnodeRight }).bind fun r =>
        removeLockVector correctSlDirnodesMove vector r.1 r.2
  | .right d left right dirnodeRight =>
    (moveSlDirnodeRight lanes list
      { SlMove.init (some e) with dirnode := some d, left, right, dirnodeRight }).bind fun r =>
        removeLockVector correctSlDirnodesMove vector r.1 r.2

/-- `sl_delete_cb` for an element that is there. -/
def deleteFound (vector : SlVector) (r : SearchResult α) (e : α) :
    Option (Skiplist α × SearchResult α) := do
  let dirnode := vector.path 0
  let vector ←
    if r.flags.dirnode then upgradeReadlockVector sl.lanes vector dirnode else some vector
  let move ←
    if r.flags.dirnode then deleteAtDirnode sl.lanes dirnode
    else deleteBehindDirnode sl.lanes dirnode
  let lanes ← deleteMove sl.lanes sl.list vector dirnode e move
  return ({ list := sl.list.erase e, count := sl.count - 1, lanes },
    { r with flags := { r.flags with ok := true } })

def slDelete (k : κ) : Option (Skiplist α × SearchResult α) :=
  (slFindGeneric key sl k).bind fun found =>
    if found.2.flags.exact then found.2.found.bind (deleteFound sl found.1 found.2)
    else some (sl, found.2)

/-! ## Sequences of calls -/

inductive SlOp (α κ : Type)
  | insert (e : α)
  | delete (k : κ)
  | find (k : κ)

def slCall : SlOp α κ → Option (Skiplist α × SearchResult α)
  | .insert e => slInsert key sl e
  | .delete k => slDelete key sl k
  | .find k => (slFind key sl k).map fun r => (sl, r)

def slStep (op : SlOp α κ) : Option (Skiplist α) := (slCall key sl op).map (·.1)

end Operations

/-! ## Exclusive use

With the lock operations for exclusive use of `skiplist-lock.c`, removing a lock vector does nothing, so
that the lanes are not corrected, and upgrading it does not move it. -/

variable {α κ : Type} [DecidableEq α] [LinearOrder κ] (key : α → κ) (sl : Skiplist α)

def insertFirstNolock (r : SearchResult α) (e : α) : Option (Skiplist α × SearchResult α) :=
  (sl.lanes.modify slStart 0 fun j => { j with step := 1 }).map fun lanes =>
    ({ list := [e], count := sl.count + 1, lanes }, r.inserted e)

def insertBesideNolock (vector : SlVector) (r : SearchResult α) (e : α) :
    Option (Skiplist α × SearchResult α) := do
  let junction ← sl.lanes.junction (vector.path 0) 0
  match ← insertElement sl.list r e junction.step with
  | some (list, left, right) => do
    let move ← insertDirnodes sl.lanes list (sl.count + 1) e { SlMove.init none with left, right }
    return ({ list, count := sl.count + 1, lanes := move.1 }, r.inserted e)
  | none => do
    let move ← insertDirnodes sl.lanes sl.list sl.count e (.init none)
    return ({ sl with lanes := move.1 }, r)

def slInsertNolock (e : α) : Option (Skiplist α × SearchResult α) :=
  (slFindGeneric key sl (key e)).bind fun found =>
    if found.2.flags.exact then some (sl, found.2)
    else if found.2.flags.empty then insertFirstNolock sl found.2 e
    else insertBesideNolock sl found.1 found.2 e

def deleteMoveNolock (lanes : Lanes α) (list : List α) (e : α) : DeleteMove → Option (Lanes α)
  | .keep | .remove => some lanes
  | .left d left right dirnodeRight =>
    (moveSlDirnodeLeft lanes list
      { SlMove.init (some e) with dirnode := some d, left, right, dirnodeRight }).map (·.1)
  | .right d left right dirnodeRight =>
    (moveSlDirnodeRight lanes list
      { SlMove.init (some e) with dirnode := some d, left, right, dirnodeRight }).map (·.1)

def deleteFoundNolock (vector : SlVector) (r : SearchResult α) (e : α) :
    Option (Skiplist α × SearchResult α) := do
  let move ←
    if r.flags.dirnode then deleteAtDirnode sl.lanes (vector.path 0)
    else deleteBehindDirnode sl.lanes (vector.path 0)
  let lanes ← deleteMoveNolock sl.lanes sl.list e move
  return ({ list := sl.list.erase e, count := sl.count - 1, lanes },
    { r with flags := { r.flags with ok := true } })

def slDeleteNolock (k : κ) : Option (Skiplist α × SearchResult α) :=
  (slFindGeneric key sl k).bind fun found =>
    if found.2.flags.exact then found.2.found.bind (deleteFoundNolock sl found.1 found.2)
    else some (sl, found.2)

def slCallNolock : SlOp α κ → Option (Skiplist α × SearchResult α)
  | .insert e => slInsertNolock key sl e
  | .delete k => slDeleteNolock key sl k
  | .find k => (slFind key sl k).map fun r => (sl, r)

end Osns
