import Osns.Library.Loop
import Osns.Model.Packet

/-! How a socket puts messages together, after `lib/socket/event.c`. Memory is always available: `malloc`
does not fail. -/

namespace Osns

/-- Memory from `malloc`: a cell has no value before it is written. -/
abbrev Cells := List (Option UInt8)

def malloc (size : ℕ) : Cells := List.replicate size none

/-- `get_msg_header_size`, `get_msg_size` and `process_data` of a socket. -/
structure SocketCallbacks (β : Type) where
  getMsgHeaderSize : ℕ
  getMsgSize : Cells → Except Fault ℕ
  processData : Cells → ℕ → Cells → β

variable {β : Type} (cb : SocketCallbacks β)

/-- The header is taken off and the size behind it is its new length. -/
def processDataBuffer (buffer : Cells) (size : ℕ) : Except Fault β := do
  let header ← inBounds (Buffer.load buffer 0 cb.getMsgHeaderSize)
  let size := u32Sub size cb.getMsgHeaderSize
  let data ← inBounds (Buffer.load buffer cb.getMsgHeaderSize size)
  return cb.processData header size data

/-! ## Receiving -/

/-- `struct socket_rawdata_s`, with the flag `SOCKET_RAWDATA_FLAG_FINISH`. -/
structure RawData where
  buffer : Option Cells
  size : ℕ
  pos : ℕ
  finish : Bool

def RawData.empty : RawData := { buffer := none, size := 0, pos := 0, finish := false }

/-- The first element that is not finished, or a new one at the end. -/
def searchRawdata : List RawData → List RawData × RawData × List RawData
  | [] => ([], .empty, [])
  | r :: list =>
    if r.finish then
      let found := searchRawdata list
      (r :: found.1, found.2.1, found.2.2)
    else ([], r, list)

variable (r : RawData)

/-- The header may begin in the element and end in the chunk. -/
def determineMsgSize (chunk : Bytes) : Except Fault ℕ :=
  if r.pos < cb.getMsgHeaderSize then do
    let first ← inBounds (Buffer.load (r.buffer.getD []) 0 r.pos)
    let second ← inBounds (Buffer.load chunk 0 (cb.getMsgHeaderSize - r.pos))
    cb.getMsgSize (first ++ second.map some)
  else cb.getMsgSize (r.buffer.getD [])

def RawData.append (bytes : Bytes) : Except Fault RawData := do
  let buffer ← inBounds (Buffer.store (r.buffer.getD []) r.pos (bytes.map some))
  return { r with buffer := r.buffer.map fun _ => buffer, pos := u32 (r.pos + bytes.length) }

/-- `realloc` when the element is too small. -/
def RawData.grow (size : ℕ) : RawData :=
  if r.size < size then
    { r with buffer := some (r.buffer.getD [] ++ malloc (size - r.size)), size }
  else r

/-- The chunk completes the header of the element: everything up to the size of the message is copied.
What is left of the chunk comes with the element. -/
def continueRawdata (chunk : Bytes) : Except Fault (RawData × Bytes) := do
  let msgsize ← determineMsgSize cb r chunk
  let bytes2move :=
    if msgsize ≤ u32 (r.pos + chunk.length) then u32Sub msgsize r.pos else chunk.length
  let bytes ← inBounds (Buffer.load chunk 0 bytes2move)
  let r ← (r.grow (u32 (r.pos + bytes2move))).append bytes
  return ({ r with finish := r.pos = msgsize }, chunk.drop bytes2move)

/-- One pass of the loop over the rest of the chunk, with the elements added so far. -/
def copyPass (s : Bytes × List RawData) :
    Loop.Step (Bytes × List RawData) (Except Fault (List RawData)) :=
  let rest := s.1
  if rest.length = 0 then .done (.ok s.2)
  else if rest.length < cb.getMsgHeaderSize then
    .done (.ok (s.2 ++ [{
      buffer := some (rest.map some ++ malloc (cb.getMsgHeaderSize - rest.length))
      size := cb.getMsgHeaderSize
      pos := rest.length
      finish := false }]))
  else
    match cb.getMsgSize (rest.map some) with
    | .error fault => .done (.error fault)
    | .ok msgsize =>
      if rest.length < msgsize then
        .done (.ok (s.2 ++ [{
          buffer := some (rest.map some)
          size := rest.length
          pos := rest.length
          finish := false }]))
      else
        .next (rest.drop msgsize, s.2 ++ [{
          buffer := some ((rest.take msgsize).map some)
          size := msgsize
          pos := msgsize
          finish := true }])

/-- The first part of `cb_copy_socket_default`: the chunk belongs to an element, or a part of it
does. -/
def copyFirst (chunk : Bytes) : Except Fault (RawData × Bytes) :=
  if u32 (r.pos + chunk.length) < cb.getMsgHeaderSize then do
    let r : RawData :=
      if r.buffer.isNone then
        { r with buffer := some (malloc cb.getMsgHeaderSize), size := cb.getMsgHeaderSize }
      else r
    let r ← r.append chunk
    return (r, [])
  else continueRawdata cb r chunk

/-- `cb_copy_socket_default` with at most `fuel` passes of its loop. A message size of zero is one
that the loop does not get past. -/
def cbCopySocketDefault (fuel : ℕ) (list : List RawData) (chunk : Bytes) :
    Option (Except Fault (List RawData)) :=
  let found := searchRawdata list
  match copyFirst cb found.2.1 chunk with
  | .error fault => some (.error fault)
  | .ok (r, rest) =>
    (Loop.run (copyPass cb) fuel (rest, [])).map fun result =>
      result.map fun added => found.1 ++ r :: found.2.2 ++ added

/-! ## Receiving and processing -/

/-- The list of the socket, and the calls of `process_data` so far. -/
structure SocketState (β : Type) where
  list : List RawData
  calls : List β

def SocketState.init : SocketState β := { list := [], calls := [] }

/-- A chunk arrives, or one of the threads in `cb_read_socket_default` takes a finished element off the
list and processes it. Any thread can be the next one; what it does with a finished element and what a call
still adds do not meet. -/
inductive SocketAction
  | copy (chunk : Bytes)
  | read (index : ℕ)

/-- `bytesread` is a positive `int`. -/
abbrev Received (chunk : Bytes) : Prop := chunk ≠ [] ∧ chunk.length < 2 ^ 31

/-- There is no next state when a call does not come back: it leaves its buffer or never ends. -/
def socketStep (s : SocketState β) : SocketAction → Option (SocketState β)
  | .copy chunk =>
    if Received chunk then
      match cbCopySocketDefault cb (chunk.length + 1) s.list chunk with
      | some (.ok list) => some { s with list }
      | _ => none
    else none
  | .read index =>
    match s.list[index]? with
    | none => none
    | some r =>
      if r.finish then
        match r.buffer with
        | none => some { s with list := s.list.eraseIdx index }
        | some buffer =>
          match processDataBuffer cb buffer r.size with
          | .error _ => none
          | .ok call =>
            some { list := s.list.eraseIdx index, calls := s.calls ++ [call] }
      else none

end Osns
