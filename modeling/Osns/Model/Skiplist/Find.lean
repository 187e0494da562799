import Mathlib.Order.Lattice
import Osns.Model.Word

/-! Skiplists with their dirnodes and lanes, and how they are searched, after `skiplist.c` and
`skiplist-find.c`. -/

namespace Osns

/-! ## Dirnodes -/

/-- A `struct sl_junction_s`. Dirnodes are known by the order in which they are created, the first one is
the dirnode of the skiplist itself. -/
structure Junction where
  step : ℕ
  n : ℕ
  p : ℕ
  count : ℕ
  deriving DecidableEq, Repr

structure Dirnode (α : Type) where
  list : Option α
  level : ℕ
  junction : List Junction

/-- All dirnodes that have been created, and which of them have been freed. Those keep their contents. -/
structure Lanes (α : Type) where
  prob : ℕ
  maxlevel : ℕ
  dirnodes : List (Dirnode α)
  freed : List ℕ

/-- The list of elements with its counter, and the lanes above it. -/
structure Skiplist (α : Type) where
  list : List α
  count : ℕ
  lanes : Lanes α

/-- The dirnode that is no element, `_DIRNODE_FLAG_START`. -/
def slStart : ℕ := 0

def initJunction : Junction where
  step := 0
  n := slStart
  p := slStart
  count := 0

/-- The skiplist before the first element, with one lane more than are used. -/
def createSlSkiplist (α : Type) (prob maxlevel : ℕ) : Skiplist α where
  list := []
  count := 0
  lanes :=
    { prob := if prob = 0 then 4 else prob
      maxlevel := maxlevel
      dirnodes :=
        [{ list := none, level := 0, junction := List.replicate (maxlevel + 2) initJunction }]
      freed := [] }

namespace Lanes

variable {α : Type}

/-- No result for what is not a dirnode or does not have this level. -/
def junction (lanes : Lanes α) (d level : ℕ) : Option Junction :=
  lanes.dirnodes[d]?.bind (·.junction[level]?)

def modify (lanes : Lanes α) (d level : ℕ) (f : Junction → Junction) : Option (Lanes α) := do
  let dirnode ← lanes.dirnodes[d]?
  let junction ← dirnode.junction[level]?
  return { lanes with
    dirnodes := lanes.dirnodes.set d
      { dirnode with junction := dirnode.junction.set level (f junction) } }

/-- The level of the skiplist, the one of its first dirnode. -/
def level (lanes : Lanes α) : Option ℕ := lanes.dirnodes[slStart]?.map (·.level)

end Lanes

/-! ## Results -/

/-- `SL_SEARCHRESULT_FLAG_FIRST` and so on. -/
structure SearchFlags where
  first : Bool
  last : Bool
  exact : Bool
  before : Bool
  after : Bool
  noent : Bool
  dirnode : Bool
  empty : Bool
  ok : Bool
  deriving DecidableEq, Repr

def SearchFlags.none : SearchFlags where
  first := false
  last := false
  exact := false
  before := false
  after := false
  noent := false
  dirnode := false
  empty := false
  ok := false

structure SearchResult (α : Type) where
  found : Option α
  flags : SearchFlags
  ctr : ℕ
  row : ℕ
  step : ℕ

def initSlSearchresult (α : Type) : SearchResult α where
  found := none
  flags := .none
  ctr := 0
  row := 0
  step := 0

/-- The dirnodes in front of what is searched, for every level up to `maxlevel`. -/
structure SlVector where
  maxlevel : ℕ
  path : ℕ → ℕ

def createVectorPath (level : ℕ) : SlVector where
  maxlevel := level
  path := fun _ => slStart

/-! ## Lanes -/

/-- Where the search in the lanes is, beside the element it has come to. -/
structure LaneState where
  dirnode : ℕ
  path : ℕ → ℕ
  row : ℕ
  step : ℕ

/-- How a lane is left: down from an element, with the element that is searched, or behind the last
one. -/
inductive LaneExit (α : Type)
  | down (list : List α) (s : LaneState)
  | exact (e : α) (s : LaneState)
  | past (found : Option α) (s : LaneState)

/-- The vector is moved down from a level, and all levels below get its dirnode. -/
def LaneState.moveDown (s : LaneState) (level dirnode : ℕ) : LaneState :=
  { s with path := fun i => if i ≤ level then dirnode else s.path i }

/-- The next dirnode of a lane is passed over as long as the current element of the list is too small. That
element is not the one of the dirnode: the list goes on by one element for every dirnode. At the end of the
lane `compare_end` finds the next one too large. -/
def skipLane {α : Type} (lanes : Lanes α) (compare : α → Ordering) (level : ℕ) :
    List α → LaneState → Option (LaneExit α)
  | [], _ => none
  | e :: rest, s => do
    let junction ← lanes.junction s.dirnode level
    let next ← lanes.dirnodes[junction.n]?
    if junction.n = slStart then return .down (e :: rest) s
    else
      match compare e with
      | .gt => return .down (e :: rest) s
      | .eq =>
        let s := s.moveDown level junction.n
        return .exact e { s with row := u32Sub (u32 (s.row + junction.step)) 1 }
      | .lt =>
        let s := { s with row := u32 (s.row + junction.step), dirnode := junction.n }
        if rest.isEmpty then return .past next.list (s.moveDown level junction.n)
        else
          skipLane lanes compare level rest
            { s with path := Function.update s.path level junction.n, step := 1 }

def searchLanes {α : Type} (lanes : Lanes α) (compare : α → Ordering) :
    ℕ → List α → LaneState → Option (LaneExit α)
  | 0, list, s => skipLane lanes compare 0 list s
  | level + 1, list, s =>
    (skipLane lanes compare (level + 1) list s).bind fun
      | .down list s =>
        searchLanes lanes compare level list
          { s with path := Function.update s.path level (s.path (level + 1)) }
      | .exact e s => some (.exact e s)
      | .past found s => some (.past found s)

/-! ## The list -/

/-- The elements one after the other, no more than there are. -/
def searchList {α : Type} (compare : α → Ordering) (count : ℕ) :
    List α → SearchResult α → SearchResult α
  | [], r => r
  | e :: rest, r =>
    if r.ctr ≤ count then
      let r := { r with ctr := u32 (r.ctr + 1) }
      match compare e with
      | .lt =>
        let r := { r with row := u32 (r.row + 1), step := u32 (r.step + 1) }
        if rest.isEmpty then { r with flags := { r.flags with noent := true, after := true } }
        else searchList compare count rest r
      | .eq => { r with found := some e, flags := { r.flags with exact := true } }
      | .gt =>
        { r with
            found := some e
            flags := { r.flags with noent := true, before := true } }
    else r

/-- The element after the first one and before the last one, by lanes and list. -/
def searchInside {α : Type} (sl : Skiplist α) (compare : α → Ordering) (level : ℕ) (list : List α) :
    Option (SlVector × SearchResult α) := do
  let vector := createVectorPath (level + 1)
  let r := initSlSearchresult α
  let exit ← searchLanes sl.lanes compare level list
    { dirnode := slStart, path := vector.path, row := 1, step := 0 }
  match exit with
  | .exact e s =>
    return ({ vector with path := s.path },
      { r with
          found := some e
          flags := { r.flags with exact := true, dirnode := true }
          row := s.row
          step := s.step })
  | .past found s =>
    return ({ vector with path := s.path },
      { r with
          found := found
          flags := { r.flags with noent := true, last := true, after := true }
          row := s.row
          step := s.step })
  | .down list s =>
    return ({ vector with path := s.path },
      searchList compare sl.count list { r with row := s.row, step := s.step })

variable {α κ : Type} [LinearOrder κ] (key : α → κ)

/-- `sl_find_generic` up to its callback. The last and the first element are looked at before the lanes. -/
def slFindGeneric (sl : Skiplist α) (k : κ) : Option (SlVector × SearchResult α) := do
  let level ← sl.lanes.level
  let vector := createVectorPath (level + 1)
  let r := initSlSearchresult α
  if sl.count = 0 then return (vector, { r with flags := { r.flags with empty := true } })
  else do
    let tail ← sl.list.getLast?
    let head ← sl.list.head?
    match cmp (key tail) k with
    | .lt =>
      return (vector,
        { r with
            found := some tail
            flags := { r.flags with noent := true, last := true, after := true }
            row := u32 sl.count })
    | .eq =>
      return (vector,
        { r with
            found := some tail
            flags := { r.flags with exact := true, last := true }
            row := u32 sl.count })
    | .gt =>
      match cmp (key head) k with
      | .gt =>
        return (vector,
          { r with
              found := some head
              flags := { r.flags with noent := true, first := true, before := true } })
      | .eq =>
        return (vector,
          { r with
              found := some head
              flags := { r.flags with exact := true, first := true }
              row := 1 })
      | .lt => searchInside sl (fun e => cmp (key e) k) level sl.list

def slFind (sl : Skiplist α) (k : κ) : Option (SearchResult α) := (slFindGeneric key sl k).map (·.2)

end Osns
