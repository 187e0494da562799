import Mathlib.Data.List.Perm.Basic
import Osns.Library.Transition
import Osns.Model.Socket

/-! The messages of a stream are put together from any chunks. -/

namespace Osns

open Buffer List Result Transition

namespace SocketCallbacks

variable {β : Type} (cb : SocketCallbacks β) (size : Bytes → ℕ)

/-- `get_msg_size` looks at the header only, and gives an `unsigned int`. -/
structure Reads : Prop where
  header_lt : cb.getMsgHeaderSize < 2 ^ 32
  size_lt : ∀ header, size header < 2 ^ 32
  getMsgSize : ∀ (header : Bytes) (cells : Cells), header.length = cb.getMsgHeaderSize →
    cb.getMsgSize (header.map some ++ cells) = .ok (size header)

/-- The size that stands at the front of some bytes. -/
def msgsize (bytes : Bytes) : ℕ := size (bytes.take cb.getMsgHeaderSize)

/-- A message is not shorter than its header, and not empty. -/
def Whole (m : Bytes) : Prop := max cb.getMsgHeaderSize 1 ≤ m.length ∧ m.length = cb.msgsize size m

/-- A part of a message: its header or something behind it is missing. -/
def Part (rest : Bytes) : Prop :=
  rest = [] ∨ rest.length < cb.getMsgHeaderSize ∨ rest.length < cb.msgsize size rest

/-- Whole messages, and a part of the next one. -/
structure Splits (bytes : Bytes) (messages : List Bytes) (rest : Bytes) : Prop where
  eq : bytes = messages.flatten ++ rest
  whole : ∀ m ∈ messages, cb.Whole size m
  part : cb.Part size rest

instance (rest : Bytes) : Decidable (cb.Part size rest) := inferInstanceAs (Decidable (_ ∨ _ ∨ _))

def Framed (bytes : Bytes) : Prop := ∃ messages rest, cb.Splits size bytes messages rest

/-- The room of an element that has the bytes of a part. -/
def room (rest : Bytes) : ℕ := if rest = [] then 0 else max rest.length cb.getMsgHeaderSize

/-- The element with the bytes of a part, in a buffer with room for the header. -/
def element (rest : Bytes) : RawData where
  buffer := if rest = [] then none else some (rest.map some ++ malloc (cb.room rest - rest.length))
  size := cb.room rest
  pos := rest.length
  finish := false

def parts (rest : Bytes) : List RawData := if rest = [] then [] else [cb.element rest]

/-- The call of `process_data` for a message. -/
def call (m : Bytes) : β :=
  cb.processData ((m.take cb.getMsgHeaderSize).map some) (m.length - cb.getMsgHeaderSize)
    ((m.drop cb.getMsgHeaderSize).map some)

end SocketCallbacks

/-- The finished element of a message, in a buffer of this size. -/
def RawData.finished (m : Bytes) (size : ℕ) : RawData :=
  ⟨some (m.map some ++ malloc (size - m.length)), size, m.length, true⟩

def messageElement (m : Bytes) : RawData := .finished m m.length

variable {β : Type} {cb : SocketCallbacks β} {size : Bytes → ℕ} {rest chunk bytes : Bytes}
  {messages : List Bytes} {list fin : List RawData}

/-! ## Streams -/

section Streams

open SocketCallbacks

theorem framed_of_part (h : cb.Part size bytes) : cb.Framed size bytes :=
  ⟨[], bytes, (nil_append _).symm, forall_mem_nil _, h⟩

theorem msgsize_append (h : cb.getMsgHeaderSize ≤ rest.length) (bytes : Bytes) :
    cb.msgsize size (rest ++ bytes) = cb.msgsize size rest := by
  rw [msgsize, take_append_of_le_length h, msgsize]

theorem whole_take (hle : cb.msgsize size bytes ≤ bytes.length)
    (hsize : max cb.getMsgHeaderSize 1 ≤ cb.msgsize size bytes) :
    cb.Whole size (bytes.take (cb.msgsize size bytes)) := by
  rw [Whole, length_take_of_le hle]
  refine ⟨hsize, ?_⟩
  have hheader : cb.getMsgHeaderSize ≤ cb.msgsize size bytes := by omega
  change size (bytes.take _) = size ((bytes.take _).take _)
  rw [take_take, Nat.min_eq_left hheader]

/-- Where there is a header, its size decides: a part, or a message and what is behind it. -/
theorem framed_iff (hne : bytes ≠ []) (hheader : cb.getMsgHeaderSize ≤ bytes.length) :
    cb.Framed size bytes ↔ bytes.length < cb.msgsize size bytes ∨
      (max cb.getMsgHeaderSize 1 ≤ cb.msgsize size bytes ∧ cb.msgsize size bytes ≤ bytes.length) ∧
        cb.Framed size (bytes.drop (cb.msgsize size bytes)) := by
  constructor
  · rintro ⟨_ | ⟨m, messages⟩, rest, heq, hwhole, hpart⟩
    · subst heq
      obtain hnil | hshort | hlt := hpart
      · exact absurd hnil hne
      · exact absurd hshort (Nat.not_lt.mpr hheader)
      · exact .inl hlt
    · rw [forall_mem_cons] at hwhole
      rw [flatten_cons, append_assoc] at heq
      have hsize : cb.msgsize size bytes = m.length := by
        rw [heq, msgsize_append (Nat.le_trans (Nat.le_max_left ..) hwhole.1.1), ← hwhole.1.2]
      refine .inr ⟨⟨hsize ▸ hwhole.1.1, ?_⟩, messages, rest, ?_, hwhole.2, hpart⟩
      · rw [hsize, heq, length_append]
        omega
      · rw [hsize, heq, drop_left]
  · rintro (hlt | ⟨⟨hsize, hle⟩, messages, rest, heq, hwhole, hpart⟩)
    · exact framed_of_part (.inr (.inr hlt))
    · refine ⟨bytes.take (cb.msgsize size bytes) :: messages, rest, ?_, ?_, hpart⟩
      · rw [flatten_cons, append_assoc, ← heq, take_append_drop]
      · exact forall_mem_cons.mpr ⟨whole_take hle hsize, hwhole⟩

/-- With sizes that are never too small every stream is framed. -/
theorem framed_of_sized (hsized : ∀ header, max cb.getMsgHeaderSize 1 ≤ size header) (bytes : Bytes) :
    cb.Framed size bytes := by
  induction hn : bytes.length using Nat.strongRecOn generalizing bytes with
  | ind n ih =>
    by_cases hpart : cb.Part size bytes
    · exact framed_of_part hpart
    · simp only [SocketCallbacks.Part, not_or, Nat.not_lt] at hpart
      obtain ⟨hne, hheader, hle⟩ := hpart
      have hsize : max cb.getMsgHeaderSize 1 ≤ cb.msgsize size bytes := hsized _
      have hpos := length_pos_iff.mpr hne
      refine (framed_iff hne hheader).mpr (.inr ⟨⟨hsize, hle⟩, ih _ ?_ _ rfl⟩)
      rw [length_drop]
      omega

end Streams

/-! ## The first part of a call -/

theorem malloc_append (a b : ℕ) : malloc a ++ malloc b = malloc (a + b) := replicate_append_replicate

@[simp] theorem length_malloc (n : ℕ) : (malloc n).length = n := length_replicate

section First

open SocketCallbacks

theorem length_le_room (cb : SocketCallbacks β) (rest : Bytes) : rest.length ≤ cb.room rest := by
  unfold room
  split
  · next h => simp [h]
  · exact Nat.le_max_left ..

/-- The memory of the element: the bytes of the part and what is not written yet. -/
theorem cells_element (rest : Bytes) :
    (cb.element rest).buffer.getD [] = rest.map some ++ malloc (cb.room rest - rest.length) := by
  unfold element room
  split
  · next h =>
    subst h
    rfl
  · rfl

theorem determineMsgSize_element (rest chunk : Bytes) (hread : cb.Reads size)
    (hheader : cb.getMsgHeaderSize ≤ rest.length + chunk.length) :
    determineMsgSize cb (cb.element rest) chunk = .ok (cb.msgsize size (rest ++ chunk)) := by
  rw [determineMsgSize, cells_element]
  change (if rest.length < _ then _ else _) = _
  split
  · next hshort =>
    have hfirst : load (rest.map some ++ malloc (cb.room rest - rest.length)) 0 rest.length
        = some (rest.map some) := load_append [] _ _ rfl (length_map _).symm
    have hsecond : load chunk 0 (cb.getMsgHeaderSize - rest.length)
        = some (chunk.take (cb.getMsgHeaderSize - rest.length)) := load_of_le (by omega)
    have hpos : (cb.element rest).pos = rest.length := rfl
    rw [hpos, hfirst, hsecond, inBounds_some, ok_bind, inBounds_some, ok_bind, ← map_append]
    have hget := hread.getMsgSize (rest ++ chunk.take (cb.getMsgHeaderSize - rest.length)) []
      (by rw [length_append, length_take]; omega)
    rw [append_nil] at hget
    rw [hget, msgsize, take_append, take_of_length_le (Nat.le_of_lt hshort)]
  · next hlong =>
    have hle := Nat.le_of_not_lt hlong
    have hget := hread.getMsgSize (rest.take cb.getMsgHeaderSize)
      ((rest.drop cb.getMsgHeaderSize).map some ++ malloc (cb.room rest - rest.length))
      (length_take_of_le hle)
    rw [← append_assoc, ← map_append, take_append_drop] at hget
    rw [hget, msgsize_append hle, msgsize]

/-- Bytes are written behind those of a part. -/
theorem RawData.append_eq {r : RawData} {free : Cells} (hbuffer : r.buffer = some (rest.map some ++ free))
    (hpos : r.pos = rest.length) (hfree : bytes.length ≤ free.length)
    (hlt : rest.length + bytes.length < 2 ^ 32) :
    r.append bytes = .ok { r with
      buffer := some ((rest ++ bytes).map some ++ free.drop bytes.length)
      pos := rest.length + bytes.length } := by
  have hstore : store (rest.map some ++ free.take bytes.length ++ free.drop bytes.length) rest.length
      (bytes.map some) = _ := store_append _ _ _ _ (length_map _).symm
    (by rw [length_map, length_take_of_le hfree])
  rw [append_assoc, take_append_drop] at hstore
  rw [append, hbuffer, Option.getD_some, hpos, hstore, inBounds_some, ok_bind, u32_of_lt hlt, map_append]
  rfl

/-- The element after it has got room for `k` more bytes, and these bytes. -/
theorem append_element (cb : SocketCallbacks β) {k : ℕ} (hk : k ≤ chunk.length) (hpos : 0 < rest.length + k)
    (hlt : rest.length + k < 2 ^ 32) :
    ((cb.element rest).grow (rest.length + k)).append (chunk.take k) =
      .ok { RawData.finished (rest ++ chunk.take k) (max (cb.room rest) (rest.length + k)) with
        finish := false } := by
  have hroom := length_le_room cb rest
  have hgrow : (cb.element rest).grow (rest.length + k) = {
      buffer := some (rest.map some ++ malloc (max (cb.room rest) (rest.length + k) - rest.length))
      size := max (cb.room rest) (rest.length + k), pos := rest.length, finish := false } := by
    unfold RawData.grow
    rw [cells_element]
    change (if cb.room rest < _ then _ else _) = _
    split
    · rw [append_assoc, malloc_append, Nat.max_eq_right (by omega)]
      change RawData.mk (some (_ ++ malloc (_ + (_ - cb.room rest)))) _ _ _ = _
      congr 4
      omega
    · have hne : rest ≠ [] := by
        rintro rfl
        simp only [room, if_true, length_nil] at *
        omega
      rw [Nat.max_eq_left (by omega), element, if_neg hne]
  have htake : (chunk.take k).length = k := length_take_of_le hk
  rw [hgrow, RawData.append_eq rfl rfl (by rw [htake, length_malloc]; omega) (by rwa [htake])]
  simp only [RawData.finished, htake, length_append, malloc, drop_replicate]
  congr 5
  omega

theorem continueRawdata_eq {r : RawData} {n k : ℕ} (hn : determineMsgSize cb r chunk = .ok n)
    (hk : (if n ≤ u32 (r.pos + chunk.length) then u32Sub n r.pos else chunk.length) = k) :
    continueRawdata cb r chunk = (do
      let bytes ← inBounds (load chunk 0 k)
      let r ← (r.grow (u32 (r.pos + k))).append bytes
      return ({ r with finish := r.pos = n }, chunk.drop k)) := by
  rw [continueRawdata, hn, ok_bind]
  simp only [hk]

/-- A header is there. The element gets the rest of its message, or all of the chunk. -/
theorem continueRawdata_element (hread : cb.Reads size)
    (hheader : cb.getMsgHeaderSize ≤ rest.length + chunk.length) (hchunk : chunk ≠ [])
    (hsum : rest.length + chunk.length < 2 ^ 32) {n : ℕ} (hn : cb.msgsize size (rest ++ chunk) = n) :
    continueRawdata cb (cb.element rest) chunk =
      if rest.length + chunk.length < n then .ok (cb.element (rest ++ chunk), [])
      else if n < rest.length then .error .overrun
      else if n = 0 then .ok ({ RawData.empty with finish := true }, chunk)
      else .ok (.finished ((rest ++ chunk).take n) (max (cb.room rest) n), (rest ++ chunk).drop n) := by
  have hlt : n < 2 ^ 32 := hn ▸ hread.size_lt _
  have hpos := length_pos_iff.mpr hchunk
  have helement : (cb.element rest).pos = rest.length := rfl
  have hsize := hn ▸ determineMsgSize_element rest chunk hread hheader
  by_cases hpart : rest.length + chunk.length < n
  · rw [continueRawdata_eq hsize (if_neg (by rw [helement, u32_of_lt hsum]; omega)), if_pos hpart]
    have happend : ((cb.element rest).grow _).append _ = _ :=
      append_element cb (Nat.le_refl chunk.length) (by omega) hsum
    rw [take_length] at happend
    have hload : load chunk 0 chunk.length = some chunk := by simp [load]
    rw [hload, inBounds_some, ok_bind, helement, u32_of_lt hsum, happend, ok_bind, drop_length]
    have hroom : cb.room (rest ++ chunk) = max (cb.room rest) (rest.length + chunk.length) := by
      simp only [room, append_eq_nil_iff, hchunk, and_false, if_false, length_append]
      split <;> omega
    simp only [RawData.finished, element, hroom, append_eq_nil_iff, hchunk, and_false, if_false,
      length_append, show rest.length + chunk.length ≠ n by omega]
    rfl
  · rw [continueRawdata_eq hsize (if_pos (by rw [helement, u32_of_lt hsum]; omega)), if_neg hpart, helement]
    by_cases hbelow : n < rest.length
    · have hload : load chunk 0 (2 ^ 32 + n - rest.length) = none := if_neg (by omega)
      rw [if_pos hbelow, u32Sub_of_lt (by omega) hbelow, hload]
      rfl
    · rw [if_neg hbelow, u32Sub_of_le hlt (Nat.le_of_not_lt hbelow)]
      have hload : load chunk 0 (n - rest.length) = some (chunk.take (n - rest.length)) :=
        load_of_le (by omega)
      have hk : rest.length + (n - rest.length) = n := by omega
      rw [hload, inBounds_some, ok_bind, hk, u32_of_lt hlt]
      by_cases hzero : n = 0
      · obtain rfl : rest = [] := eq_nil_of_length_eq_zero (by omega)
        subst hzero
        rfl
      · have happend : ((cb.element rest).grow (rest.length + (n - rest.length))).append
            (chunk.take (n - rest.length)) = _ :=
          append_element cb (by omega) (by omega) (by omega)
        have htake : rest ++ chunk.take (n - rest.length) = (rest ++ chunk).take n := by
          rw [take_append, take_of_length_le (Nat.le_of_not_lt hbelow)]
        have hlength : ((rest ++ chunk).take n).length = n :=
          length_take_of_le (by rw [length_append]; omega)
        rw [hk, htake] at happend
        rw [if_neg hzero, happend, ok_bind, drop_append, drop_of_length_le (Nat.le_of_not_lt hbelow),
          nil_append]
        simp only [RawData.finished, hlength, decide_true]
        rfl

theorem append_overrun (hroom : cb.room rest < rest.length + bytes.length) :
    (cb.element rest).append bytes = .error .overrun := by
  have hle := length_le_room cb rest
  have hstore : store (rest.map some ++ malloc (cb.room rest - rest.length)) rest.length (bytes.map some)
      = none := if_neg (by rw [length_append, length_map, length_map, length_malloc]; omega)
  rw [RawData.append, cells_element]
  change (inBounds (store _ rest.length _) >>= _) = _
  rw [hstore]
  rfl

/-- The sum of the bytes of an element and a chunk wraps around, and the chunk goes behind the buffer. -/
theorem copyFirst_wraps (hread : cb.Reads size) (hrest : rest.length < 2 ^ 32)
    (hchunk : chunk.length < 2 ^ 32) (hsum : 2 ^ 32 ≤ rest.length + chunk.length) :
    copyFirst cb (cb.element rest) chunk = .error .overrun := by
  have hheader := hread.header_lt
  have hne : rest ≠ [] := by
    rintro rfl
    rw [length_nil] at hsum
    omega
  have hroom : cb.room rest = max rest.length cb.getMsgHeaderSize := if_neg hne
  have helement : (cb.element rest).pos = rest.length := rfl
  have hu32 : u32 (rest.length + chunk.length) = rest.length + chunk.length - 2 ^ 32 := by
    unfold u32
    omega
  rw [copyFirst, helement]
  split
  · have hbuffer : (cb.element rest).buffer.isNone = false := by simp [element, hne]
    simp only [hbuffer, Bool.false_eq_true, if_false]
    rw [append_overrun (by omega)]
    rfl
  · have hsize := determineMsgSize_element rest chunk hread (by omega)
    generalize cb.msgsize size (rest ++ chunk) = n at hsize
    -- in both cases the bytes that are moved reach behind 2 ^ 32
    obtain ⟨k, hk, hle, hwrap, hsmall⟩ : ∃ k,
        (if n ≤ u32 ((cb.element rest).pos + chunk.length) then u32Sub n (cb.element rest).pos
          else chunk.length) = k ∧ k ≤ chunk.length ∧ 2 ^ 32 ≤ rest.length + k ∧
          u32 (rest.length + k) ≤ rest.length := by
      rw [helement, hu32]
      split
      · refine ⟨_, rfl, ?_⟩
        rw [u32Sub_of_lt hrest (by omega)]
        unfold u32
        omega
      · exact ⟨_, rfl, Nat.le_refl _, hsum, by omega⟩
    have hgrow : (cb.element rest).grow (u32 (rest.length + k)) = cb.element rest :=
      if_neg (by change ¬ cb.room rest < _; omega)
    rw [continueRawdata_eq hsize hk, load_of_le (by omega), inBounds_some, ok_bind, helement, hgrow,
      append_overrun (by rw [drop_zero, length_take_of_le hle]; omega)]
    rfl

theorem copyFirst_short (hchunk : chunk ≠ []) (hheader : cb.getMsgHeaderSize < 2 ^ 32)
    (hshort : rest.length + chunk.length < cb.getMsgHeaderSize) :
    copyFirst cb (cb.element rest) chunk = .ok (cb.element (rest ++ chunk), []) := by
  have helement : (cb.element rest).pos = rest.length := rfl
  have hroom : cb.room (rest ++ chunk) = cb.getMsgHeaderSize := by
    simp only [room, append_eq_nil_iff, hchunk, and_false, if_false, length_append]
    omega
  have hbuffer : (if (cb.element rest).buffer.isNone then
      { cb.element rest with buffer := some (malloc cb.getMsgHeaderSize), size := cb.getMsgHeaderSize }
      else cb.element rest : RawData) = {
        buffer := some (rest.map some ++ malloc (cb.getMsgHeaderSize - rest.length))
        size := cb.getMsgHeaderSize, pos := rest.length, finish := false } := by
    by_cases hne : rest = []
    · subst hne
      rfl
    · have hrest : cb.room rest = cb.getMsgHeaderSize := by
        rw [room, if_neg hne]
        omega
      simp [element, hne, hrest]
  have happend := RawData.append_eq (r := ⟨some (rest.map some ++ malloc (cb.getMsgHeaderSize - rest.length)),
    cb.getMsgHeaderSize, rest.length, false⟩) rfl rfl (by rw [length_malloc]; omega)
    (show rest.length + chunk.length < 2 ^ 32 by omega)
  rw [copyFirst]
  simp only [hbuffer, happend]
  rw [helement, u32_of_lt (by omega), if_pos hshort, ok_bind]
  simp only [element, hroom, append_eq_nil_iff, hchunk, and_false, if_false, length_append, malloc,
    drop_replicate, Nat.sub_sub]
  rfl

end First

/-! ## The loop -/

section Passes

open SocketCallbacks

variable {added acc : List RawData}

theorem element_of_ne (hne : bytes ≠ []) : cb.element bytes = {
    buffer := some (bytes.map some ++ malloc (cb.getMsgHeaderSize - bytes.length))
    size := max bytes.length cb.getMsgHeaderSize, pos := bytes.length, finish := false } := by
  have hroom : cb.room bytes - bytes.length = cb.getMsgHeaderSize - bytes.length := by
    rw [room, if_neg hne]
    omega
  rw [element, if_neg hne, hroom, room, if_neg hne]

/-- A pass over what is left of a chunk. -/
theorem copyPass_eq (hread : cb.Reads size) (bytes : Bytes) (acc : List RawData) :
    copyPass cb (bytes, acc) = if cb.Part size bytes then .done (.ok (acc ++ cb.parts bytes))
      else .next (bytes.drop (cb.msgsize size bytes),
        acc ++ [messageElement (bytes.take (cb.msgsize size bytes))]) := by
  rw [copyPass]
  by_cases hne : bytes = []
  · subst hne
    rw [if_pos (show cb.Part size [] from .inl rfl)]
    simp [parts]
  · have hparts : cb.parts bytes = [cb.element bytes] := if_neg hne
    have hlen : bytes.length ≠ 0 := by simpa using hne
    rw [if_neg hlen, hparts, element_of_ne hne]
    by_cases hshort : bytes.length < cb.getMsgHeaderSize
    · rw [if_pos hshort, if_pos (show cb.Part size bytes from .inr (.inl hshort)),
        Nat.max_eq_right (Nat.le_of_lt hshort)]
    · have hget : cb.getMsgSize (_ ++ (bytes.drop cb.getMsgHeaderSize).map some) =
          .ok (cb.msgsize size bytes) :=
        hread.getMsgSize _ _ (length_take_of_le (Nat.le_of_not_lt hshort))
      rw [← map_append, take_append_drop] at hget
      rw [if_neg hshort, hget]
      by_cases hpart : bytes.length < cb.msgsize size bytes
      · have hzero : cb.getMsgHeaderSize - bytes.length = 0 := by omega
        rw [if_pos (show cb.Part size bytes from .inr (.inr hpart)), hzero,
          Nat.max_eq_left (Nat.le_of_not_lt hshort)]
        simp [hpart, malloc]
      · rw [if_neg (show ¬ cb.Part size bytes by simp [SocketCallbacks.Part, hne, hshort, hpart])]
        simp [hpart, messageElement, RawData.finished, malloc, Nat.le_of_not_lt hpart]

variable {fuel : ℕ}

/-- What is left of a chunk becomes elements, one for each message and one for a part. -/
theorem run_copyPass (hread : cb.Reads size) (hsplit : cb.Splits size bytes messages rest)
    (hfuel : bytes.length < fuel) :
    Loop.run (copyPass cb) fuel (bytes, acc) =
      some (.ok (acc ++ messages.map messageElement ++ cb.parts rest)) := by
  induction messages generalizing bytes acc fuel with
  | nil =>
    obtain ⟨fuel, rfl⟩ := Nat.exists_eq_succ_of_ne_zero (Nat.ne_zero_of_lt hfuel)
    obtain ⟨heq, -, hpart⟩ := hsplit
    obtain rfl : bytes = rest := heq
    have hpass := copyPass_eq hread bytes acc
    rw [if_pos hpart] at hpass
    rw [Loop.run_done hpass, map_nil, append_nil]
  | cons m messages ih =>
    obtain ⟨fuel, rfl⟩ := Nat.exists_eq_succ_of_ne_zero (Nat.ne_zero_of_lt hfuel)
    obtain ⟨heq, hwhole, hpart⟩ := hsplit
    rw [forall_mem_cons] at hwhole
    obtain ⟨⟨hlen, hsize⟩, hwhole⟩ := hwhole
    rw [flatten_cons, append_assoc] at heq
    have hmsgsize : cb.msgsize size bytes = m.length := by
      rw [heq, msgsize_append (Nat.le_trans (Nat.le_max_left ..) hlen), ← hsize]
    have hlength : bytes.length = m.length + (messages.flatten ++ rest).length := by
      rw [heq, length_append]
    have hnot : ¬ cb.Part size bytes := by
      simp only [SocketCallbacks.Part, hmsgsize, ← length_eq_zero_iff]
      omega
    have hpass := copyPass_eq hread bytes acc
    rw [if_neg hnot, hmsgsize] at hpass
    rw [Loop.run_next hpass, heq, drop_left, take_left, ih ⟨rfl, hwhole, hpart⟩ (by omega), map_cons,
      append_assoc, append_assoc, append_assoc]
    rfl

/-- No finished element is too small to take the header off. -/
def RawData.Fit (h : ℕ) (r : RawData) : Prop := r.finish = true → r.buffer.isSome → h ≤ r.size

/-- When the loop ends and leaves no element that is too small, it has been over messages and a part. -/
theorem framed_of_run (hread : cb.Reads size)
    (hrun : Loop.run (copyPass cb) fuel (bytes, acc) = some (.ok added))
    (hfit : ∀ r ∈ added, r.Fit cb.getMsgHeaderSize) :
    (∀ r ∈ acc, r.Fit cb.getMsgHeaderSize) ∧ cb.Framed size bytes := by
  induction fuel generalizing bytes acc with
  | zero => cases hrun
  | succ fuel ih =>
    have hpass := copyPass_eq hread bytes acc
    by_cases hpart : cb.Part size bytes
    · rw [if_pos hpart] at hpass
      rw [Loop.run_done hpass] at hrun
      cases hrun
      exact ⟨fun r hr => hfit r (mem_append_left _ hr), framed_of_part hpart⟩
    · rw [if_neg hpart] at hpass
      rw [Loop.run_next hpass] at hrun
      obtain ⟨hacc, hframed⟩ := ih hrun
      simp only [SocketCallbacks.Part, not_or, Nat.not_lt] at hpart
      obtain ⟨hne, hheader, hle⟩ := hpart
      have hlast := hacc _ (mem_append_right _ (mem_singleton_self _)) rfl rfl
      have hsize : cb.getMsgHeaderSize ≤ cb.msgsize size bytes := by
        rwa [messageElement, RawData.finished, length_take_of_le hle] at hlast
      refine ⟨fun r hr => hacc r (mem_append_left _ hr), ?_⟩
      by_cases hzero : cb.msgsize size bytes = 0
      · rwa [hzero, drop_zero] at hframed
      · exact (framed_iff hne hheader).mpr (.inr ⟨⟨by omega, hle⟩, hframed⟩)

end Passes

/-! ## Calls -/

section Calls

open SocketCallbacks

theorem parts_of_ne (hne : rest ≠ []) : cb.parts rest = [cb.element rest] := if_neg hne

theorem searchRawdata_parts (hfin : ∀ r ∈ fin, r.finish = true) (rest : Bytes) :
    searchRawdata (fin ++ cb.parts rest) = (fin, cb.element rest, []) := by
  induction fin with
  | nil =>
    by_cases hrest : rest = []
    · subst hrest
      rfl
    · rw [parts_of_ne hrest]
      rfl
  | cons r fin ih =>
    rw [forall_mem_cons] at hfin
    rw [cons_append, searchRawdata, if_pos hfin.1, ih hfin.2]

theorem copy_of_first {r : RawData} (hread : cb.Reads size) (hfin : ∀ r ∈ fin, r.finish = true)
    (hfirst : copyFirst cb (cb.element rest) chunk = .ok (r, bytes)) (hle : bytes.length ≤ chunk.length)
    {left : Bytes} (hsplit : cb.Splits size bytes messages left) :
    cbCopySocketDefault cb (chunk.length + 1) (fin ++ cb.parts rest) chunk =
      some (.ok (fin ++ r :: (messages.map messageElement ++ cb.parts left))) := by
  have hrun := @run_copyPass _ cb size left bytes messages [] _ hread hsplit (Nat.lt_succ_of_le hle)
  rw [cbCopySocketDefault, searchRawdata_parts hfin]
  simp only [hfirst, hrun]
  simp [Except.map]

/-- When a call comes back with elements that can be processed, messages and a part come behind the first
one. -/
theorem framed_of_copy {r : RawData} {fuel : ℕ} (hread : cb.Reads size)
    (hfin : ∀ r ∈ fin, r.finish = true)
    (hcopy : cbCopySocketDefault cb fuel (fin ++ cb.parts rest) chunk = some (.ok list))
    (hfit : ∀ r ∈ list, r.Fit cb.getMsgHeaderSize)
    (hfirst : copyFirst cb (cb.element rest) chunk = .ok (r, bytes)) :
    r ∈ list ∧ cb.Framed size bytes := by
  rw [cbCopySocketDefault, searchRawdata_parts hfin] at hcopy
  simp only [hfirst] at hcopy
  obtain ⟨result, hrun, hresult⟩ := Option.map_eq_some_iff.mp hcopy
  obtain ⟨added, rfl, rfl⟩ := map_eq_ok.mp hresult
  exact ⟨by simp, (framed_of_run hread hrun fun r hr => hfit r (mem_append_right _ hr)).2⟩

theorem copy_error {fault : Fault} {fuel : ℕ} (hfin : ∀ r ∈ fin, r.finish = true)
    (hfirst : copyFirst cb (cb.element rest) chunk = .error fault) :
    cbCopySocketDefault cb fuel (fin ++ cb.parts rest) chunk = some (.error fault) := by
  rw [cbCopySocketDefault, searchRawdata_parts hfin]
  simp only [hfirst]

theorem copyFirst_of_header (hheader : cb.getMsgHeaderSize ≤ rest.length + chunk.length)
    (hsum : rest.length + chunk.length < 2 ^ 32) :
    copyFirst cb (cb.element rest) chunk = continueRawdata cb (cb.element rest) chunk := by
  have hu32 : u32 ((cb.element rest).pos + chunk.length) = rest.length + chunk.length := u32_of_lt hsum
  rw [copyFirst, hu32, if_neg (Nat.not_lt.mpr hheader)]

theorem copyFirst_part (hread : cb.Reads size) (hchunk : chunk ≠ [])
    (hsum : rest.length + chunk.length < 2 ^ 32) (hpart : cb.Part size (rest ++ chunk)) :
    copyFirst cb (cb.element rest) chunk = .ok (cb.element (rest ++ chunk), []) := by
  by_cases hshort : rest.length + chunk.length < cb.getMsgHeaderSize
  · exact copyFirst_short hchunk hread.header_lt hshort
  · have hlt := (hpart.resolve_left (by simp [hchunk])).resolve_left (by rwa [length_append])
    rw [length_append] at hlt
    rw [copyFirst_of_header (Nat.le_of_not_lt hshort) hsum,
      continueRawdata_element hread (Nat.le_of_not_lt hshort) hchunk hsum rfl, if_pos hlt]

/-- A part is shorter than the message that it becomes, and has room for no more. -/
theorem room_le_of_part (chunk : Bytes) (hpart : cb.Part size rest)
    (hheader : cb.getMsgHeaderSize ≤ cb.msgsize size (rest ++ chunk)) :
    rest.length ≤ cb.msgsize size (rest ++ chunk) ∧ cb.room rest ≤ cb.msgsize size (rest ++ chunk) := by
  have hle : rest.length ≤ cb.msgsize size (rest ++ chunk) := by
    obtain rfl | hshort | hlt := hpart
    · exact Nat.zero_le _
    · omega
    · by_cases hlong : cb.getMsgHeaderSize ≤ rest.length
      · rw [msgsize_append hlong]
        omega
      · omega
  refine ⟨hle, ?_⟩
  unfold room
  split
  · exact Nat.zero_le _
  · exact Nat.max_le.mpr ⟨hle, hheader⟩

/-- The elements behind a call: the messages that are complete now, and what is left. -/
theorem copy_framed (hread : cb.Reads size) (hfin : ∀ r ∈ fin, r.finish = true) (hpart : cb.Part size rest)
    (hchunk : chunk ≠ []) (hsum : rest.length + chunk.length < 2 ^ 32) {left : Bytes}
    (hsplit : cb.Splits size (rest ++ chunk) messages left) :
    cbCopySocketDefault cb (chunk.length + 1) (fin ++ cb.parts rest) chunk =
      some (.ok (fin ++ (messages.map messageElement ++ cb.parts left))) := by
  have hne : rest ++ chunk ≠ [] := by simp [hchunk]
  cases messages with
  | nil =>
    obtain ⟨heq, -, hpart'⟩ := hsplit
    obtain rfl : rest ++ chunk = left := heq
    have hnil : cb.Splits size [] [] [] := ⟨rfl, forall_mem_nil _, .inl rfl⟩
    rw [copy_of_first hread hfin (copyFirst_part hread hchunk hsum hpart') (Nat.zero_le _) hnil,
      parts_of_ne hne]
    rfl
  | cons m messages =>
    obtain ⟨heq, hwhole, hleft⟩ := hsplit
    rw [forall_mem_cons] at hwhole
    obtain ⟨⟨hlen, hsize⟩, hwhole⟩ := hwhole
    rw [flatten_cons, append_assoc] at heq
    have hmsgsize : cb.msgsize size (rest ++ chunk) = m.length := by
      rw [heq, msgsize_append (Nat.le_trans (Nat.le_max_left ..) hlen), ← hsize]
    have hlength := congrArg length heq
    rw [length_append, length_append] at hlength
    obtain ⟨hle, hroom⟩ := room_le_of_part chunk hpart (by omega)
    rw [hmsgsize] at hle hroom
    have hfirst : copyFirst cb (cb.element rest) chunk =
      .ok (messageElement m, messages.flatten ++ left) := by
      rw [copyFirst_of_header (by omega) hsum, continueRawdata_element hread (by omega) hchunk hsum hmsgsize,
        if_neg (by omega), if_neg (by omega), if_neg (by omega), heq, drop_left, take_left,
        Nat.max_eq_right hroom]
      rfl
    rw [copy_of_first hread hfin hfirst (by omega) ⟨rfl, hwhole, hleft⟩]
    rfl

/-- A message that is shorter than its header, but not than what has been there before the chunk. -/
structure SocketCallbacks.Cut (cb : SocketCallbacks β) (size : Bytes → ℕ) (rest chunk : Bytes) : Prop where
  ne : rest ≠ []
  header : cb.getMsgHeaderSize ≤ rest.length + chunk.length
  le : rest.length ≤ cb.msgsize size (rest ++ chunk)
  short : cb.msgsize size (rest ++ chunk) < cb.getMsgHeaderSize
  framed : cb.Framed size ((rest ++ chunk).drop (cb.msgsize size (rest ++ chunk)))

/-- The buffer of such a message has the size of the header. -/
theorem copyFirst_cut (hread : cb.Reads size) (hchunk : chunk ≠ [])
    (hsum : rest.length + chunk.length < 2 ^ 32) (hcut : cb.Cut size rest chunk) :
    copyFirst cb (cb.element rest) chunk =
      .ok (.finished ((rest ++ chunk).take (cb.msgsize size (rest ++ chunk))) cb.getMsgHeaderSize,
        (rest ++ chunk).drop (cb.msgsize size (rest ++ chunk))) := by
  obtain ⟨hne, hheader, hle, hshort, -⟩ := hcut
  have hpos := length_pos_iff.mpr hne
  have hroom : max (cb.room rest) (cb.msgsize size (rest ++ chunk)) = cb.getMsgHeaderSize := by
    rw [room, if_neg hne]
    omega
  rw [copyFirst_of_header hheader hsum, continueRawdata_element hread hheader hchunk hsum rfl,
    if_neg (by omega), if_neg (by omega), if_neg (by omega), hroom]

end Calls

/-! ## Processing -/

theorem processDataBuffer_eq {buffer : Cells} (hheader : cb.getMsgHeaderSize ≤ buffer.length)
    (hlt : buffer.length < 2 ^ 32) :
    processDataBuffer cb buffer buffer.length = .ok (cb.processData (buffer.take cb.getMsgHeaderSize)
      (buffer.length - cb.getMsgHeaderSize) (buffer.drop cb.getMsgHeaderSize)) := by
  have hdata : load buffer cb.getMsgHeaderSize (buffer.length - cb.getMsgHeaderSize)
      = some (buffer.drop cb.getMsgHeaderSize) := by
    rw [load_of_le (by omega), take_of_length_le (Nat.le_of_eq length_drop)]
  rw [processDataBuffer, load_of_le (by omega), inBounds_some, ok_bind, u32Sub_of_le hlt hheader]
  simp only [hdata, inBounds_some, ok_bind]
  rfl

/-! ## Runs -/

def copies : List SocketAction → List Bytes
  | [] => []
  | .copy chunk :: actions => chunk :: copies actions
  | .read _ :: actions => copies actions

theorem copies_cons (action : SocketAction) (actions : List SocketAction) :
    copies (action :: actions) = copies [action] ++ copies actions := by
  cases action with
  | copy chunk => rfl
  | read index => rfl

section Runs

open SocketCallbacks

variable {s s' : SocketState β}

/-- The bytes of the element that is not finished. -/
def unfinished (list : List RawData) : Bytes :=
  let r := (searchRawdata list).2.1
  ((r.buffer.getD []).take r.pos).filterMap id

theorem unfinished_parts (hfin : ∀ r ∈ fin, r.finish = true) (rest : Bytes) :
    unfinished (fin ++ cb.parts rest) = rest := by
  have helement : (cb.element rest).pos = (rest.map some).length := (length_map _).symm
  rw [unfinished, searchRawdata_parts hfin]
  simp only [cells_element, helement, take_left]
  simp

/-- A call ends without a difference below zero, and what it finishes can be processed. -/
def CallEnds (cb : SocketCallbacks β) (s : SocketState β) : SocketAction → Prop
  | .copy chunk => Received chunk →
    ∃ s', socketStep cb s (.copy chunk) = some s' ∧ ∀ r ∈ s'.list, r.Fit cb.getMsgHeaderSize
  | .read index => ∀ r, s.list[index]? = some r → r.finish = true → (socketStep cb s (.read index)).isSome

/-- The sizes that a call comes to: what has not been processed is a sequence of messages and a part, or the
message that it completes is shorter than its header. The sum of the lengths does not wrap around. -/
def SizesFit (cb : SocketCallbacks β) (size : Bytes → ℕ) (s : SocketState β) : SocketAction → Prop
  | .copy chunk => Received chunk →
    (unfinished s.list).length + chunk.length < 2 ^ 32 ∧
      (cb.Framed size (unfinished s.list ++ chunk) ∨ cb.Cut size (unfinished s.list) chunk)
  | .read _ => True

/-- Finished elements that can be processed, and one with a part. -/
structure Listed (cb : SocketCallbacks β) (size : Bytes → ℕ) (list fin : List RawData)
    (rest : Bytes) : Prop where
  eq : list = fin ++ cb.parts rest
  finished : ∀ r ∈ fin, r.finish = true
  loadable : ∀ r ∈ fin, ∃ buffer, r.buffer = some buffer ∧ buffer.length = r.size ∧
    cb.getMsgHeaderSize ≤ r.size ∧ r.size < 2 ^ 32
  part : cb.Part size rest
  lt : rest.length < 2 ^ 32

theorem Listed.fit (h : Listed cb size list fin rest) : ∀ r ∈ list, r.Fit cb.getMsgHeaderSize := by
  intro r hr hfinish _
  rw [h.eq] at hr
  obtain hr | hr := mem_append.mp hr
  · obtain ⟨buffer, -, -, hle, -⟩ := h.loadable r hr
    exact hle
  · unfold parts at hr
    split at hr
    · cases hr
    · rw [mem_singleton.mp hr] at hfinish
      cases hfinish

/-- Elements of messages come behind those that can be processed. -/
theorem Listed.add (h : Listed cb size list fin rest) {left : Bytes}
    (hwhole : ∀ m ∈ messages, cb.Whole size m ∧ m.length < 2 ^ 32) (hpart : cb.Part size left)
    (hlt : left.length < 2 ^ 32) :
    Listed cb size (fin ++ (messages.map messageElement ++ cb.parts left))
      (fin ++ messages.map messageElement)
      left where
  eq := (append_assoc ..).symm
  finished := forall_mem_append.mpr ⟨h.finished, by simp [messageElement, RawData.finished]⟩
  loadable := by
    refine forall_mem_append.mpr ⟨h.loadable, ?_⟩
    rintro r hr
    obtain ⟨m, hm, rfl⟩ := mem_map.mp hr
    obtain ⟨⟨hheader, -⟩, hlen⟩ := hwhole m hm
    exact ⟨_, rfl, by simp [messageElement, RawData.finished],
      Nat.le_trans (Nat.le_max_left ..) hheader, hlen⟩
  part := hpart
  lt := hlt

theorem length_lt_of_splits {left : Bytes} (hsplit : cb.Splits size bytes messages left)
    (hlt : bytes.length < 2 ^ 32) :
    (∀ m ∈ messages, cb.Whole size m ∧ m.length < 2 ^ 32) ∧ left.length < 2 ^ 32 := by
  rw [hsplit.eq, length_append] at hlt
  refine ⟨fun m hm => ⟨hsplit.whole m hm, ?_⟩, by omega⟩
  have := (sublist_flatten_of_mem hm).length_le
  omega

/-- The step of a call that comes back. -/
theorem socketStep_copy (hchunk : Received chunk)
    (hcopy : cbCopySocketDefault cb (chunk.length + 1) s.list chunk = some (.ok list)) :
    socketStep cb s (.copy chunk) = some { s with list } := by
  rw [socketStep, if_pos hchunk, hcopy]

theorem copy_of_socketStep (hstep : socketStep cb s (.copy chunk) = some s') :
    Received chunk ∧ cbCopySocketDefault cb (chunk.length + 1) s.list chunk = some (.ok s'.list) ∧
      s'.calls = s.calls := by
  rw [socketStep] at hstep
  split at hstep
  · next hchunk =>
    split at hstep
    · next list hcopy =>
      cases hstep
      exact ⟨hchunk, hcopy, rfl⟩
    · cases hstep
  · cases hstep

/-- Under the condition a call comes back, and leaves elements that can be processed. -/
theorem Listed.copy (h : Listed cb size s.list fin rest) (hread : cb.Reads size) (hchunk : Received chunk)
    (hsum : rest.length + chunk.length < 2 ^ 32)
    (hsizes : cb.Framed size (rest ++ chunk) ∨ cb.Cut size rest chunk) :
    ∃ list fin rest, socketStep cb s (.copy chunk) = some { s with list } ∧ Listed cb size list fin rest := by
  have hlen : (rest ++ chunk).length < 2 ^ 32 := by rwa [length_append]
  obtain ⟨messages, left, hsplit⟩ | hcut := hsizes
  · obtain ⟨hwhole, hlt⟩ := length_lt_of_splits hsplit hlen
    refine ⟨_, _, left, socketStep_copy hchunk ?_, h.add hwhole hsplit.part hlt⟩
    rw [h.eq]
    exact copy_framed hread h.finished h.part hchunk.1 hsum hsplit
  · obtain ⟨messages, left, hsplit⟩ := hcut.framed
    have hdrop : ((rest ++ chunk).drop (cb.msgsize size (rest ++ chunk))).length ≤ chunk.length := by
      have := hcut.le
      rw [length_drop, length_append]
      omega
    obtain ⟨hwhole, hlt⟩ := length_lt_of_splits hsplit (by rw [length_drop]; omega)
    have hcopy := copy_of_first hread h.finished (copyFirst_cut hread hchunk.1 hsum hcut) hdrop hsplit
    rw [← h.eq, append_cons] at hcopy
    have hcut' (q : RawData) (hq : q = .finished
          ((rest ++ chunk).take (cb.msgsize size (rest ++ chunk))) cb.getMsgHeaderSize) :
        Listed cb size (fin ++ [q]) (fin ++ [q]) [] := by
      subst hq
      refine ⟨(append_nil _).symm, forall_mem_append.mpr ⟨h.finished, forall_mem_singleton.mpr rfl⟩,
        forall_mem_append.mpr ⟨h.loadable, forall_mem_singleton.mpr ⟨_, rfl, ?_, Nat.le_refl _,
          hread.header_lt⟩⟩,
        .inl rfl, by decide⟩
      have := hcut.short
      rw [length_append, length_map, length_malloc, length_take]
      change _ = cb.getMsgHeaderSize
      omega
    exact ⟨_, _, left, socketStep_copy hchunk hcopy, (hcut' _ rfl).add hwhole hsplit.part hlt⟩

/-- A call that comes back with elements that can be processed meets the condition. -/
theorem Listed.sizes (h : Listed cb size s.list fin rest) (hread : cb.Reads size) (hchunk : Received chunk)
    (hstep : socketStep cb s (.copy chunk) = some s') (hfit : ∀ r ∈ s'.list, r.Fit cb.getMsgHeaderSize) :
    rest.length + chunk.length < 2 ^ 32 ∧
      (cb.Framed size (rest ++ chunk) ∨ cb.Cut size rest chunk) := by
  obtain ⟨-, hcopy, -⟩ := copy_of_socketStep hstep
  have hlt : chunk.length < 2 ^ 32 := by
    have := hchunk.2
    omega
  rw [h.eq] at hcopy
  by_cases hsum : rest.length + chunk.length < 2 ^ 32
  · refine ⟨hsum, ?_⟩
    by_cases hheader : cb.getMsgHeaderSize ≤ rest.length + chunk.length
    · have hfirst := copyFirst_of_header hheader hsum
      rw [continueRawdata_element hread hheader hchunk.1 hsum rfl] at hfirst
      generalize hn : cb.msgsize size (rest ++ chunk) = n at hfirst
      have hne : rest ++ chunk ≠ [] := by simp [hchunk.1]
      have hlong : cb.getMsgHeaderSize ≤ (rest ++ chunk).length := by rwa [length_append]
      by_cases hpart : rest.length + chunk.length < n
      · exact .inl (framed_of_part (.inr (.inr (by rwa [length_append, hn]))))
      rw [if_neg hpart] at hfirst
      by_cases hbelow : n < rest.length
      · rw [copy_error h.finished (hfirst.trans (if_pos hbelow))] at hcopy
        cases hcopy
      rw [if_neg hbelow] at hfirst
      by_cases hzero : n = 0
      · obtain rfl : rest = [] := eq_nil_of_length_eq_zero (by omega)
        exact .inl (framed_of_copy hread h.finished hcopy hfit (hfirst.trans (if_pos hzero))).2
      · obtain ⟨hmem, hframed⟩ := framed_of_copy hread h.finished hcopy hfit
          (hfirst.trans (if_neg hzero))
        have hroom : cb.getMsgHeaderSize ≤ max (cb.room rest) n := hfit _ hmem rfl rfl
        by_cases hsize : cb.getMsgHeaderSize ≤ n
        · refine .inl ((framed_iff hne hlong).mpr (.inr ?_))
          rw [hn, length_append]
          exact ⟨⟨by omega, by omega⟩, hframed⟩
        · have hrest : rest ≠ [] := by
            rintro rfl
            simp only [room, if_true] at hroom
            omega
          subst hn
          exact .inr ⟨hrest, hheader, by omega, by omega, hframed⟩
    · exact .inl (framed_of_part (.inr (.inl (by rw [length_append]; omega))))
  · rw [copy_error h.finished (copyFirst_wraps hread h.lt hlt (by omega))] at hcopy
    cases hcopy

/-- A finished element stands in front of the part. -/
theorem getElem?_finished {index : ℕ} {r : RawData} (hr : (fin ++ cb.parts rest)[index]? = some r)
    (hfinish : r.finish = true) : fin[index]? = some r ∧ index < fin.length := by
  by_cases hlt : index < fin.length
  · exact ⟨getElem?_append_left hlt ▸ hr, hlt⟩
  · rw [getElem?_append_right (Nat.le_of_not_lt hlt)] at hr
    have hmem := mem_of_getElem? hr
    unfold parts at hmem
    split at hmem
    · cases hmem
    · rw [mem_singleton.mp hmem] at hfinish
      cases hfinish

theorem socketStep_read {index : ℕ} {r : RawData} {buffer : Cells} (hr : s.list[index]? = some r)
    (hfinish : r.finish = true) (hbuffer : r.buffer = some buffer) (hlen : buffer.length = r.size)
    (hheader : cb.getMsgHeaderSize ≤ r.size) (hlt : r.size < 2 ^ 32) :
    socketStep cb s (.read index) = some {
      list := s.list.eraseIdx index
      calls := s.calls ++ [cb.processData (buffer.take cb.getMsgHeaderSize)
        (buffer.length - cb.getMsgHeaderSize) (buffer.drop cb.getMsgHeaderSize)] } := by
  have hprocess : processDataBuffer cb buffer _ = _ := processDataBuffer_eq (by omega) (by omega)
  rw [socketStep, hr]
  simp only [hfinish, if_true, hbuffer, ← hlen, hprocess]

theorem read_of_socketStep {index : ℕ} (hstep : socketStep cb s (.read index) = some s') :
    ∃ r, s.list[index]? = some r ∧ r.finish = true := by
  rw [socketStep] at hstep
  cases hr : s.list[index]? with
  | none =>
    rw [hr] at hstep
    cases hstep
  | some r =>
    simp only [hr] at hstep
    split at hstep
    · next hfinish => exact ⟨r, rfl, hfinish⟩
    · cases hstep

variable {actions : List SocketAction}

/-- The calls of a run end exactly as long as the sizes fit. -/
theorem along_callEnds_iff (hread : cb.Reads size) :
    Along (socketStep cb) (CallEnds cb) .init actions ↔
      Along (socketStep cb) (SizesFit cb size) .init actions := by
  refine along_iff_of_invariant (I := fun s => ∃ fin rest, Listed cb size s.list fin rest) ?_ ?_
    ⟨[], [], rfl, forall_mem_nil _, forall_mem_nil _, .inl rfl, by decide⟩
  · rintro s (chunk | index) s' ⟨fin, rest, h⟩ hfit hstep
    · obtain ⟨hchunk, -⟩ := copy_of_socketStep hstep
      obtain ⟨hsum, hsizes⟩ := hfit hchunk
      rw [h.eq, unfinished_parts h.finished] at hsum hsizes
      obtain ⟨list, fin', rest', hcopy, hlisted⟩ := h.copy hread hchunk hsum hsizes
      cases hcopy.symm.trans hstep
      exact ⟨fin', rest', hlisted⟩
    · obtain ⟨r, hr, hfinish⟩ := read_of_socketStep hstep
      obtain ⟨hfin, hlt⟩ := getElem?_finished (h.eq ▸ hr) hfinish
      obtain ⟨buffer, hbuffer, hlen, hheader, hsize⟩ := h.loadable r (mem_of_getElem? hfin)
      cases (socketStep_read hr hfinish hbuffer hlen hheader hsize).symm.trans hstep
      refine ⟨fin.eraseIdx index, rest, ?_, fun r hr => h.finished r (mem_of_mem_eraseIdx hr),
        fun r hr => h.loadable r (mem_of_mem_eraseIdx hr), h.part, h.lt⟩
      rw [h.eq, eraseIdx_append_of_lt_length hlt]
  · rintro s (chunk | index) ⟨fin, rest, h⟩
    · refine forall_congr' fun hchunk => ?_
      rw [h.eq, unfinished_parts h.finished]
      constructor
      · rintro ⟨s', hstep, hfit⟩
        exact h.sizes hread hchunk hstep hfit
      · rintro ⟨hsum, hsizes⟩
        obtain ⟨list, fin', rest', hcopy, hlisted⟩ := h.copy hread hchunk hsum hsizes
        exact ⟨_, hcopy, hlisted.fit⟩
    · refine iff_of_true (fun r hr hfinish => ?_) True.intro
      obtain ⟨hfin, -⟩ := getElem?_finished (h.eq ▸ hr) hfinish
      obtain ⟨buffer, hbuffer, hlen, hheader, hsize⟩ := h.loadable r (mem_of_getElem? hfin)
      rw [socketStep_read hr hfinish hbuffer hlen hheader hsize]
      rfl

/-! ## Messages -/

/-- What has been received are whole messages and a part of the next one. The elements are messages that
have not been processed, each with its bytes, and one with the part. -/
structure Reassembled (cb : SocketCallbacks β) (size : Bytes → ℕ) (received : Bytes) (s : SocketState β)
    (messages unread : List Bytes) (rest : Bytes) : Prop where
  splits : cb.Splits size received messages rest
  list : s.list = unread.map messageElement ++ cb.parts rest
  whole : ∀ m ∈ unread, cb.Whole size m
  calls : (s.calls ++ unread.map cb.call).Perm (messages.map cb.call)

variable {received : Bytes} {unread : List Bytes}

theorem finish_messageElement (unread : List Bytes) : ∀ r ∈ unread.map messageElement, r.finish = true := by
  simp [messageElement, RawData.finished]

theorem Reassembled.copy (h : Reassembled cb size received s messages unread rest) (hread : cb.Reads size)
    (hsized : ∀ header, max cb.getMsgHeaderSize 1 ≤ size header)
    (hstep : socketStep cb s (.copy chunk) = some s') :
    ∃ messages unread rest, Reassembled cb size (received ++ chunk) s' messages unread rest := by
  obtain ⟨hchunk, hcopy, hcalls⟩ := copy_of_socketStep hstep
  have hrest : rest.length < 2 ^ 32 := by
    obtain rfl | hlt | hlt := h.splits.part
    · decide
    · exact Nat.lt_trans hlt hread.header_lt
    · exact Nat.lt_trans hlt (hread.size_lt _)
  have hsum : rest.length + chunk.length < 2 ^ 32 := by
    by_contra hwrap
    have hlt := hchunk.2
    rw [h.list, copy_error (finish_messageElement _)
      (copyFirst_wraps hread hrest (show chunk.length < 2 ^ 32 by omega) (by omega))] at hcopy
    cases hcopy
  obtain ⟨added, left, heq, hwhole, hpart⟩ := framed_of_sized hsized (rest ++ chunk)
  rw [h.list, copy_framed hread (finish_messageElement _) h.splits.part hchunk.1 hsum ⟨heq, hwhole, hpart⟩]
    at hcopy
  refine ⟨messages ++ added, unread ++ added, left, ⟨?_, ?_, hpart⟩, ?_, ?_, ?_⟩
  · rw [h.splits.eq, append_assoc, heq, flatten_append, append_assoc]
  · exact forall_mem_append.mpr ⟨h.splits.whole, hwhole⟩
  · have hlist := Except.ok.inj (Option.some.inj hcopy)
    rw [← hlist, map_append, append_assoc]
  · exact forall_mem_append.mpr ⟨h.whole, hwhole⟩
  · rw [hcalls, map_append, map_append, ← append_assoc]
    exact h.calls.append_right _

theorem Reassembled.read (h : Reassembled cb size received s messages unread rest) (hread : cb.Reads size)
    {index : ℕ} (hstep : socketStep cb s (.read index) = some s') :
    ∃ unread, Reassembled cb size received s' messages unread rest := by
  obtain ⟨r, hr, hfinish⟩ := read_of_socketStep hstep
  obtain ⟨hfin, hlt⟩ := getElem?_finished (h.list ▸ hr) hfinish
  rw [getElem?_map] at hfin
  obtain ⟨m, hm, rfl⟩ := Option.map_eq_some_iff.mp hfin
  rw [length_map] at hlt
  obtain ⟨hheader, hsize⟩ := h.whole m (mem_of_getElem? hm)
  have hbuffer : (messageElement m).buffer = some (m.map some) := by
    simp [messageElement, RawData.finished, malloc]
  have hlen : m.length < 2 ^ 32 := hsize ▸ hread.size_lt _
  have hprocess : socketStep cb s _ = _ := socketStep_read hr hfinish hbuffer (length_map _)
    (Nat.le_trans (Nat.le_max_left ..) hheader) hlen
  cases hprocess.symm.trans hstep
  refine ⟨unread.eraseIdx index, h.splits, ?_, fun x hx => h.whole x (mem_of_mem_eraseIdx hx), ?_⟩
  · rw [h.list, eraseIdx_append_of_lt_length (by rwa [length_map]), eraseIdx_map]
  · refine Perm.trans ?_ h.calls
    obtain ⟨_, hget⟩ := List.getElem?_eq_some_iff.mp hm
    have hperm := (getElem_cons_eraseIdx_perm hlt).map cb.call
    rw [hget, map_cons] at hperm
    simp only [length_map, ← map_take, ← map_drop, append_assoc, singleton_append]
    exact hperm.append_left _

/-- By induction over the actions, for any state on the way. -/
theorem Reassembled.run (h : Reassembled cb size received s messages unread rest) (hread : cb.Reads size)
    (hsized : ∀ header, max cb.getMsgHeaderSize 1 ≤ size header)
    (hrun : run (socketStep cb) s actions = some s') :
    ∃ messages unread rest,
      Reassembled cb size (received ++ (copies actions).flatten) s' messages unread rest := by
  induction actions generalizing s received messages unread rest with
  | nil =>
    cases hrun
    rw [copies, flatten_nil, append_nil]
    exact ⟨_, _, _, h⟩
  | cons action actions ih =>
    obtain ⟨t, hstep, hrest⟩ := run_cons_eq_some.mp hrun
    rw [copies_cons, flatten_append, ← append_assoc]
    cases action with
    | copy chunk =>
      obtain ⟨_, _, _, h⟩ := h.copy hread hsized hstep
      simp only [copies, flatten_cons, flatten_nil, append_nil]
      exact ih h hrest
    | read index =>
      obtain ⟨_, h⟩ := h.read hread hstep
      simp only [copies, flatten_nil, append_nil]
      exact ih h hrest

/-- The bytes of a message and those of a chunk can be counted. -/
def SumFits (s : SocketState β) : SocketAction → Prop
  | .copy chunk => Received chunk → (unfinished s.list).length + chunk.length < 2 ^ 32
  | .read _ => True

/-- Calls end exactly as long as the sum of the lengths does not wrap around, and what is processed are the
messages of the stream. -/
theorem socketMessages_processed (cb : SocketCallbacks β) (size : Bytes → ℕ) (hread : cb.Reads size)
    (hsized : ∀ header, max cb.getMsgHeaderSize 1 ≤ size header) (actions : List SocketAction) :
    (Along (socketStep cb) (CallEnds cb) .init actions ↔ Along (socketStep cb) SumFits .init actions) ∧
      ∀ s, run (socketStep cb) .init actions = some s →
        ∃ messages unread rest, Reassembled cb size (copies actions).flatten s messages unread rest := by
  constructor
  · rw [along_callEnds_iff hread]
    refine along_iff_of_invariant (I := fun _ => True) (fun _ _ _ _ _ _ => True.intro) ?_ True.intro
    rintro s (chunk | index) -
    · exact forall_congr' fun _ => and_iff_left (.inl (framed_of_sized hsized _))
    · exact Iff.rfl
  · intro s hrun
    have hinit : Reassembled cb size [] .init [] [] [] :=
      ⟨⟨rfl, forall_mem_nil _, .inl rfl⟩, rfl, forall_mem_nil _, .nil⟩
    exact hinit.run hread hsized hrun

end Runs

/-! ## Sizes -/

/-- The first byte of a message is its size, of at least `smallest` bytes, behind a header of two bytes. -/
def sizeFirst (smallest : ℕ) : SocketCallbacks (Cells × Cells) where
  getMsgHeaderSize := 2
  getMsgSize cells := .ok (max smallest ((cells.headD none).getD 0).toNat)
  processData header _ data := (header, data)

def firstSize (smallest : ℕ) (header : Bytes) : ℕ := max smallest (header.headD 0).toNat

theorem sizeFirst_reads {smallest : ℕ} (hlt : smallest < 2 ^ 32) :
    (sizeFirst smallest).Reads (firstSize smallest) where
  header_lt := (by decide : 2 < 2 ^ 32)
  size_lt header := by
    have := UInt8.toNat_lt (header.headD 0)
    rw [firstSize]
    omega
  getMsgSize header cells hlen := by
    obtain ⟨b, header, rfl⟩ := exists_cons_of_length_eq_add_one hlen
    rfl

/-- Two messages in three chunks; the second one is processed first. -/
theorem socketMessages_processed_two :
    ∃ s, run (socketStep (sizeFirst 2)) .init
        [.copy [3], .copy [0, 7, 2], .copy [9], .read 1, .read 0] = some s ∧
      s.calls = [([some 2, some 9], []), ([some 3, some 0], [some 7])] ∧
      ∃ messages unread rest,
        Reassembled (sizeFirst 2) (firstSize 2) [3, 0, 7, 2, 9] s messages unread rest := by
  have hrun : run (socketStep (sizeFirst 2)) .init
      [.copy [3], .copy [0, 7, 2], .copy [9], .read 1, .read 0] =
        some ⟨[], [([some 2, some 9], []), ([some 3, some 0], [some 7])]⟩ := rfl
  exact ⟨_, hrun, rfl, (socketMessages_processed (sizeFirst 2) (firstSize 2) (sizeFirst_reads (by decide))
    (fun _ => Nat.le_max_left ..) _).2 _ hrun⟩

/-- A message of 2 ^ 32 - 1 bytes: the chunk that completes it and begins the next one goes behind its
buffer. -/
theorem socketMessage_overrun :
    ∃ a : Bytes, a.length = 2 ^ 31 - 1 ∧
      ∃ s, run (socketStep (sizeFirst (2 ^ 32 - 1))) .init [.copy a, .copy a] = some s ∧
        socketStep (sizeFirst (2 ^ 32 - 1)) s (.copy [0, 0]) = none := by
  obtain ⟨a, ha⟩ : ∃ a : Bytes, a.length = 2 ^ 31 - 1 := ⟨replicate _ 0, length_replicate⟩
  have hread : (sizeFirst (2 ^ 32 - 1)).Reads _ := sizeFirst_reads (by decide)
  have hne : a ≠ [] := by
    rintro rfl
    cases ha
  have hpart {bytes : Bytes} (hlt : bytes.length < 2 ^ 32 - 1) :
      (sizeFirst (2 ^ 32 - 1)).Part (firstSize (2 ^ 32 - 1)) bytes :=
    .inr (.inr (Nat.lt_of_lt_of_le hlt (Nat.le_max_left ..)))
  have hstep {rest : Bytes} (hlt : rest.length + a.length < 2 ^ 32 - 1)
      (hrest : (sizeFirst (2 ^ 32 - 1)).Part (firstSize (2 ^ 32 - 1)) rest) :
      socketStep (sizeFirst (2 ^ 32 - 1)) ⟨(sizeFirst (2 ^ 32 - 1)).parts rest, []⟩ (.copy a) =
        some ⟨(sizeFirst (2 ^ 32 - 1)).parts (rest ++ a), []⟩ :=
    socketStep_copy ⟨hne, by omega⟩ (copy_framed hread (forall_mem_nil _) hrest hne (by omega)
      ⟨rfl, forall_mem_nil _, hpart (by rwa [length_append])⟩)
  refine ⟨a, ha, ⟨(sizeFirst (2 ^ 32 - 1)).parts (a ++ a), []⟩, ?_, ?_⟩
  · have hfirst : socketStep (sizeFirst (2 ^ 32 - 1)) .init (.copy a) =
        some ⟨(sizeFirst (2 ^ 32 - 1)).parts a, []⟩ := @hstep [] (by rw [length_nil]; omega) (.inl rfl)
    exact run_cons_eq_some.mpr ⟨_, hfirst, run_cons_eq_some.mpr ⟨_, hstep (by omega) (hpart (by omega)), rfl⟩⟩
  · have hwraps : copyFirst (sizeFirst (2 ^ 32 - 1)) _ [0, 0] = _ :=
      copyFirst_wraps hread (show (a ++ a).length < _ by rw [length_append]; omega) (by decide)
        (by rw [length_append, ha]; decide)
    have herror : cbCopySocketDefault (sizeFirst (2 ^ 32 - 1)) 3 ([] ++ _) [0, 0] = _ :=
      copy_error (forall_mem_nil _) hwraps
    rw [nil_append] at herror
    rw [socketStep, if_pos (by decide)]
    simp only [length_cons, length_nil, herror]

/-- The calls of a run end, without a difference below zero, exactly as long as the sizes that they come to
are not too small. -/
theorem socketCalls_end_iff (cb : SocketCallbacks β) (size : Bytes → ℕ) (hread : cb.Reads size)
    (actions : List SocketAction) :
    Along (socketStep cb) (CallEnds cb) .init actions ↔
      Along (socketStep cb) (SizesFit cb size) .init actions :=
  along_callEnds_iff hread

theorem socketCalls_end_iff_three :
    Along (socketStep (sizeFirst 2)) (CallEnds (sizeFirst 2)) .init [.copy [3, 0, 7], .read 0] := by
  refine (socketCalls_end_iff (sizeFirst 2) (firstSize 2) (sizeFirst_reads (by decide)) _).mpr ?_
  refine ⟨fun _ => ⟨by decide, .inl (framed_of_sized (fun _ => Nat.le_max_left ..) _)⟩, fun s' hs' => ?_⟩
  exact ⟨True.intro, fun _ _ => True.intro⟩

/-- With a size of zero the loop never ends. A size below that of the header gives an element from which the
header cannot be taken off, and one below the bytes that an element has a difference below zero. -/
theorem socketCalls_size_zero :
    (∀ fuel, cbCopySocketDefault (sizeFirst 0) fuel [] [2, 9, 0, 0] = none) ∧
      run (socketStep (sizeFirst 0)) .init [.copy [1, 5], .read 0] = none ∧
      run (socketStep (sizeFirst 0)) .init [.copy [0], .copy [0]] = none := by
  refine ⟨fun fuel => ?_, by decide, by decide⟩
  have hloop (fuel : ℕ) (acc : List RawData) :
      Loop.run (copyPass (sizeFirst 0)) fuel ([0, 0], acc) = none := by
    induction fuel generalizing acc with
    | zero => rfl
    | succ fuel ih =>
      have hpass : copyPass (sizeFirst 0) ([0, 0], acc) = .next ([0, 0], acc ++ [_]) := rfl
      rw [Loop.run_next hpass, ih]
  exact congrArg (Option.map _) (hloop fuel [])

end Osns
