import Osns.Model.SftpServer.Framing
import Osns.Verification.Sftp.Requests
import Osns.Verification.Socket

/-! What the SFTP server makes of a stream of requests. -/

namespace Osns

open Buffer List Result RawData Transition

/-! ## Requests on the wire -/

/-- A well-formed request: its length field can be written. -/
structure FramedRequest where
  type : UInt8
  id : UInt32
  body : Bytes
  fits : 5 + body.length < 2 ^ 32

namespace FramedRequest

variable (r : FramedRequest)

def bytes : Bytes := requestMessage r.type r.id.toNat r.body

def callback : SftpCallback where
  type := some r.type
  id := some r.id.toNat
  len := r.body.length
  data := r.body.map some

theorem length_bytes : r.bytes.length = 9 + r.body.length := length_requestMessage _

end FramedRequest

/-! ## Elements of the list -/

def RawData.cells (r : RawData) : Cells := r.buffer.getD []

/-- The buffer has the size that is noted, the bytes that have arrived are the first ones of it, and
only a header that is not yet complete has more room than bytes. -/
structure RawData.Sound (r : RawData) : Prop where
  length_eq : r.cells.length = r.size
  size_lt : r.size < 2 ^ 32
  arrived : ∀ i b, r.cells[i]? = some (some b) → i < r.pos
  size_le : r.size ≤ max 12 r.pos

theorem RawData.empty_sound : empty.Sound where
  length_eq := rfl
  size_lt := Nat.two_pow_pos 32
  arrived := by
    intro i b h
    cases h
  size_le := Nat.zero_le _

theorem RawData.chunk_sound {bytes : Bytes} (finish : Bool) (h : bytes.length < 2 ^ 32) :
    RawData.Sound {
      buffer := some (bytes.map some)
      size := bytes.length
      pos := bytes.length
      finish := finish } where
  length_eq := by simp [cells]
  size_lt := h
  arrived := by
    intro i b hi
    obtain ⟨hlt, -⟩ := List.getElem?_eq_some_iff.mp hi
    simpa [cells] using hlt
  size_le := Nat.le_max_right _ _

theorem getElem?_malloc (size i : ℕ) (b : UInt8) : (malloc size)[i]? ≠ some (some b) := by
  simp [malloc, getElem?_replicate]

theorem arrived_append_malloc {cells : Cells} {size pos i : ℕ} {b : UInt8}
    (hcells : ∀ i b, cells[i]? = some (some b) → i < pos)
    (hi : (cells ++ malloc size)[i]? = some (some b)) : i < pos := by
  rw [getElem?_append] at hi
  split at hi
  · exact hcells i b hi
  · exact absurd hi (getElem?_malloc _ _ b)

theorem RawData.header_sound {bytes : Bytes} (h : bytes.length < 12) :
    RawData.Sound {
      buffer := some (bytes.map some ++ malloc (12 - bytes.length))
      size := 12
      pos := bytes.length
      finish := false } where
  length_eq := by simp [cells, malloc]; omega
  size_lt := (by decide : 12 < 2 ^ 32)
  arrived := by
    intro i b hi
    refine arrived_append_malloc ?_ hi
    intro j c hj
    obtain ⟨hlt, -⟩ := List.getElem?_eq_some_iff.mp hj
    simpa using hlt
  size_le := Nat.le_max_left _ _

section Copy

variable {order : HostOrder} {r r' : RawData} {chunk rest bytes : Bytes}

theorem RawData.append_spec (h : r.append bytes = .ok r') (hlen : r.cells.length = r.size)
    (hlt : r.size < 2 ^ 32) (harrived : ∀ i b, r.cells[i]? = some (some b) → i < r.pos) :
    r.pos + bytes.length ≤ r.size ∧ r'.pos = r.pos + bytes.length ∧ r'.size = r.size ∧
      r'.cells.length = r.size ∧ ∀ i b, r'.cells[i]? = some (some b) → i < r'.pos := by
  rw [append, bind_eq_ok] at h
  obtain ⟨buffer, hstore, hr'⟩ := h
  cases hr'
  have hstore : store r.cells r.pos (bytes.map some) = some buffer :=
    inBounds_eq_ok.mp hstore
  have hle : r.pos + bytes.length ≤ r.size := by
    have hle := (store_eq_some_iff.mp hstore).1
    rwa [length_map, hlen] at hle
  have hpos : u32 (r.pos + bytes.length) = r.pos + bytes.length := u32_of_lt (by omega)
  have hbuffer : buffer.length = r.size := (length_of_store hstore).trans hlen
  refine ⟨hle, hpos, rfl, ?_, ?_⟩
  · cases hbuf : r.buffer with
    | none => simpa [cells, hbuf] using hlen
    | some old => simpa [cells, hbuf] using hbuffer
  · intro i b hi
    simp only [hpos]
    by_contra hge
    -- behind the copy nothing has changed, and nothing was known there
    have hold : buffer[i]? = r.cells[i]? := getElem?_of_store hstore (by rw [length_map]; omega)
    have hknown : r.cells[i]? = some (some b) := by
      cases hbuf : r.buffer with
      | none => simp [cells, hbuf] at hi
      | some old =>
        rw [← hold]
        simpa [cells, hbuf] using hi
    have := harrived i b hknown
    omega

theorem RawData.cells_grow (hlen : r.cells.length = r.size) (size : ℕ) :
    (r.grow size).cells.length = (r.grow size).size ∧ (r.grow size).size = max r.size size := by
  unfold grow
  split
  · simp only [cells, Option.getD_some, length_append, malloc, length_replicate] at hlen ⊢
    omega
  · exact ⟨hlen, by omega⟩

theorem RawData.arrived_grow (harrived : ∀ i b, r.cells[i]? = some (some b) → i < r.pos)
    (size i : ℕ) (b : UInt8) (hi : (r.grow size).cells[i]? = some (some b)) : i < r.pos := by
  unfold grow at hi
  split at hi
  · exact arrived_append_malloc harrived hi
  · exact harrived i b hi

theorem RawData.pos_grow (size : ℕ) : (r.grow size).pos = r.pos := by
  unfold grow
  split <;> rfl

theorem continueRawdata_spec (hr : r.Sound)
    (h : continueRawdata (sftpCallbacks order) r chunk = .ok (r', rest)) :
    r'.Sound ∧ r'.pos + rest.length = r.pos + chunk.length ∧ rest.length ≤ chunk.length := by
  simp only [continueRawdata, bind_eq_ok, pure_eq_ok, Except.ok.injEq, Prod.mk.injEq] at h
  obtain ⟨msgsize, -, bytes, hload, grown, happend, rfl, rfl⟩ := h
  generalize hmove : (if msgsize ≤ u32 (r.pos + chunk.length) then u32Sub msgsize r.pos
    else chunk.length) = bytes2move at *
  have hload := inBounds_eq_ok.mp hload
  have hbytes := length_of_load hload
  have hfit := (load_eq_some_iff.mp hload).1
  obtain ⟨hlen, hsize⟩ := cells_grow hr.length_eq (u32 (r.pos + bytes2move))
  have hlt : (r.grow (u32 (r.pos + bytes2move))).size < 2 ^ 32 := by
    have hu := u32_lt (r.pos + bytes2move)
    have hold := hr.size_lt
    omega
  obtain ⟨hle, hpos, hsize', hlen', harrived⟩ := append_spec happend hlen hlt
    (by rw [pos_grow]; exact arrived_grow hr.arrived _)
  rw [pos_grow] at hle hpos
  have hu : u32 (r.pos + bytes2move) = r.pos + bytes2move := u32_of_lt (by omega)
  have hmax := hr.size_le
  refine ⟨⟨?_, ?_, ?_, ?_⟩, ?_, ?_⟩
  · exact hlen'.trans hsize'.symm
  · exact hsize' ▸ hlt
  · exact harrived
  · show grown.size ≤ max 12 grown.pos
    omega
  · simp only [length_drop]
    omega
  · rw [length_drop]
    exact Nat.sub_le _ _

theorem RawData.header_buffer :
    RawData.Sound { r with
      buffer := some (malloc getSftpMsgHeaderSize)
      size := getSftpMsgHeaderSize } where
  length_eq := length_replicate
  size_lt := (by decide : 12 < 2 ^ 32)
  arrived := by
    intro i b hi
    exact absurd hi (getElem?_malloc _ i b)
  size_le := Nat.le_max_left _ _

theorem copyFirst_spec (hr : r.Sound) (h : copyFirst (sftpCallbacks order) r chunk = .ok (r', rest)) :
    r'.Sound ∧ r'.pos + rest.length = r.pos + chunk.length ∧ rest.length ≤ chunk.length := by
  unfold copyFirst at h
  split at h
  case isFalse => exact continueRawdata_spec hr h
  case isTrue hshort =>
    simp only [bind_eq_ok, pure_eq_ok, Except.ok.injEq, Prod.mk.injEq] at h
    obtain ⟨filled, happend, rfl, rfl⟩ := h
    generalize hheader : (if r.buffer.isNone then
      { r with
        buffer := some (malloc (sftpCallbacks order).getMsgHeaderSize)
        size := (sftpCallbacks order).getMsgHeaderSize }
      else r : RawData) = header at happend
    have hsound : header.Sound ∧ header.pos = r.pos := by
      rw [← hheader]
      split
      · exact ⟨header_buffer, rfl⟩
      · exact ⟨hr, rfl⟩
    obtain ⟨hsound, hpos⟩ := hsound
    obtain ⟨hle, hpos', hsize', hlen', harrived⟩ :=
      append_spec happend hsound.length_eq hsound.size_lt hsound.arrived
    have hmax := hsound.size_le
    refine ⟨⟨hlen'.trans hsize'.symm, hsize' ▸ hsound.size_lt, harrived, by omega⟩, ?_,
      Nat.zero_le _⟩
    simp only [length_nil]
    omega

/-! ## Bytes that are accounted for -/

def pending (list : List RawData) : ℕ := (list.map pos).sum

theorem pending_append (as bs : List RawData) : pending (as ++ bs) = pending as + pending bs := by
  simp [pending]

theorem pending_cons (r : RawData) (list : List RawData) :
    pending (r :: list) = r.pos + pending list := by
  simp [pending]

@[simp] theorem pending_nil : pending [] = 0 := rfl

/-- The elements that a pass adds hold the bytes it takes from the chunk. -/
def CopyInvariant (total : ℕ) (s : Bytes × List RawData) : Prop :=
  s.1.length < 2 ^ 32 ∧ (∀ r ∈ s.2, r.Sound) ∧ pending s.2 + s.1.length = total

variable {total : ℕ} {s : Bytes × List RawData}

theorem CopyInvariant.add (hs : CopyInvariant total s)
    (hr : r.Sound) (rest : Bytes) (hpos : r.pos + rest.length = s.1.length) :
    CopyInvariant total (rest, s.2 ++ [r]) := by
  obtain ⟨hlt, hsound, hsum⟩ := hs
  refine ⟨by simp only; omega, ?_, ?_⟩
  · exact forall_mem_append.mpr ⟨hsound, forall_mem_singleton.mpr hr⟩
  · simp only [pending_append, pending_cons, pending_nil]
    omega

theorem copyPass_leads (hs : CopyInvariant total s) :
    (copyPass (sftpCallbacks order) s).Leads (CopyInvariant total) fun result => ∀ added, result = .ok added →
      (∀ r ∈ added, r.Sound) ∧ pending added = total := by
  unfold copyPass
  simp only
  split
  case isTrue hrest =>
    rintro added ⟨⟩
    exact ⟨hs.2.1, by have := hs.2.2; omega⟩
  split
  case isTrue hshort =>
    rintro added ⟨⟩
    have hadd := hs.add (header_sound hshort) [] (Nat.add_zero _)
    exact ⟨hadd.2.1, hadd.2.2⟩
  split
  · rintro added ⟨⟩
  case h_2 msgsize hmsgsize =>
  split
  · rintro added ⟨⟩
    have hadd := hs.add (chunk_sound false hs.1) [] (Nat.add_zero _)
    exact ⟨hadd.2.1, hadd.2.2⟩
  case isFalse hle =>
  have hlen : (s.1.take msgsize).length = msgsize := length_take_of_le (Nat.le_of_not_lt hle)
  have hlt : (s.1.take msgsize).length < 2 ^ 32 := by
    have := hs.1
    omega
  have hsound := chunk_sound true hlt
  rw [hlen] at hsound
  apply hs.add hsound
  simp only [length_drop]
  omega

variable {added list : List RawData}

/-- The loop makes elements of all the bytes that it has got. -/
theorem copyLoop_spec {fuel : ℕ} (hs : CopyInvariant total s)
    (hrun : Loop.run (copyPass (sftpCallbacks order)) fuel s = some (.ok added)) :
    (∀ r ∈ added, r.Sound) ∧ pending added = total :=
  Loop.run_invariant (fun _ => copyPass_leads) hs hrun added rfl

theorem searchRawdata_spec (hlist : ∀ r ∈ list, r.Sound) :
    (∀ r ∈ (searchRawdata list).1, r.Sound) ∧ (searchRawdata list).2.1.Sound ∧
      (∀ r ∈ (searchRawdata list).2.2, r.Sound) ∧
      pending (searchRawdata list).1 + (searchRawdata list).2.1.pos
        + pending (searchRawdata list).2.2 = pending list := by
  induction list with
  | nil => exact ⟨forall_mem_nil _, empty_sound, forall_mem_nil _, rfl⟩
  | cons r list ih =>
    rw [forall_mem_cons] at hlist
    obtain ⟨hbefore, hfound, hafter, hsum⟩ := ih hlist.2
    unfold searchRawdata
    split
    · refine ⟨forall_mem_cons.mpr ⟨hlist.1, hbefore⟩, hfound, hafter, ?_⟩
      simp only [pending_cons]
      omega
    · refine ⟨forall_mem_nil _, hlist.1, hlist.2, ?_⟩
      simp [pending]

/-- No byte of a chunk is lost. -/
theorem cbCopySocketDefault_spec {fuel : ℕ} {list' : List RawData} (hlist : ∀ r ∈ list, r.Sound)
    (hchunk : chunk.length < 2 ^ 32)
    (h : cbCopySocketDefault (sftpCallbacks order) fuel list chunk = some (.ok list')) :
    (∀ r ∈ list', r.Sound) ∧ pending list' = pending list + chunk.length := by
  obtain ⟨hbefore, hfound, hafter, hsum⟩ := searchRawdata_spec hlist
  unfold cbCopySocketDefault at h
  simp only at h
  split at h
  · cases h
  case h_2 r rest hfirst =>
    obtain ⟨hr, hpos, hrest⟩ := copyFirst_spec hfound hfirst
    obtain ⟨result, hrun, hresult⟩ := Option.map_eq_some_iff.mp h
    cases result with
    | error fault => cases hresult
    | ok added =>
      cases hresult
      have hstart : CopyInvariant rest.length (rest, []) :=
        ⟨Nat.lt_of_le_of_lt hrest hchunk, forall_mem_nil _, Nat.zero_add _⟩
      obtain ⟨hadded, htotal⟩ := copyLoop_spec hstart hrun
      refine ⟨?_, ?_⟩
      · intro q hq
        simp only [mem_append, mem_cons] at hq
        rcases hq with (hq | rfl | hq) | hq
        · exact hbefore q hq
        · exact hr
        · exact hafter q hq
        · exact hadded q hq
      · simp only [pending_append, pending_cons]
        omega

end Copy

/-! ## Calls -/

def callWeight (call : SftpCallback) : ℕ := if call.id.isSome then call.len + 12 else 0

variable {order : HostOrder} {s : FramingState}

theorem known_of_hostUint32 {cells : Cells} {n : ℕ}
    (h : hostUint32 order cells = some n) : ∃ b, cells[3]? = some (some b) := by
  unfold hostUint32 at h
  split at h
  · exact ⟨_, rfl⟩
  · cases h

theorem callWeight_le {r : RawData} {buffer : Cells} {call : SftpCallback}
    (hr : r.Sound) (hbuffer : r.buffer = some buffer)
    (h : processDataBuffer (sftpCallbacks order) buffer r.size = .ok call) : callWeight call ≤ r.pos := by
  simp only [processDataBuffer, bind_eq_ok, pure_eq_ok, Except.ok.injEq] at h
  obtain ⟨header, hheader, data, -, rfl⟩ := h
  have hlen : buffer.length = r.size := by
    have h := hr.length_eq
    rwa [cells, hbuffer] at h
  obtain ⟨hfit, hheader⟩ := load_eq_some_iff.mp (inBounds_eq_ok.mp hheader)
  have hfit : 0 + 12 ≤ buffer.length := hfit
  unfold callWeight
  split
  case isFalse => exact Nat.zero_le _
  case isTrue hid =>
    obtain ⟨n, hn⟩ := Option.isSome_iff_exists.mp hid
    obtain ⟨b, hb⟩ := known_of_hostUint32 hn
    have hcell : r.cells[11]? = some (some b) := by
      rw [← hheader, getElem?_drop] at hb
      have hb : (take 12 (drop 0 buffer))[8 + 3]? = some (some b) := hb
      rw [getElem?_take_of_lt (by decide)] at hb
      rwa [cells, hbuffer]
    have hpos := hr.arrived 11 b hcell
    have hsize := hr.size_le
    have hsub : u32Sub r.size 12 = r.size - 12 := u32Sub_of_le hr.size_lt (by omega)
    change u32Sub r.size 12 + 12 ≤ r.pos
    omega

/-! ## Runs -/

def accounted (s : FramingState) : ℕ := (s.calls.map callWeight).sum + pending s.list

theorem pending_eraseIdx {list : List RawData} {index : ℕ} {r : RawData}
    (h : list[index]? = some r) : pending (list.eraseIdx index) + r.pos = pending list := by
  induction list generalizing index with
  | nil => cases h
  | cons q list ih =>
    cases index with
    | zero =>
      cases h
      rw [eraseIdx_zero, tail_cons, pending_cons, Nat.add_comm]
    | succ index =>
      have hlist : pending (list.eraseIdx index) + r.pos = pending list := ih h
      rw [eraseIdx_cons_succ, pending_cons, pending_cons]
      omega

variable {s' : FramingState}

/-- No more bytes are processed than have been received. -/
theorem framingStep_spec {action : SocketAction} (hs : ∀ r ∈ s.list, r.Sound)
    (h : framingStep order s action = some s') :
    (∀ r ∈ s'.list, r.Sound) ∧ accounted s' ≤ accounted s + (copies [action]).flatten.length := by
  cases action with
  | copy chunk =>
    simp only [framingStep, socketStep] at h
    split at h
    case isTrue hchunk =>
      split at h
      case h_1 list hcopy =>
        cases h
        have hlt : chunk.length < 2 ^ 32 := by
          have := hchunk.2
          omega
        obtain ⟨hlist, hpending⟩ := cbCopySocketDefault_spec hs hlt hcopy
        refine ⟨hlist, ?_⟩
        simp only [accounted, copies, flatten_cons, flatten_nil, append_nil]
        omega
      case h_2 => cases h
    case isFalse => cases h
  | read index =>
    simp only [framingStep, socketStep] at h
    split at h
    · cases h
    case h_2 r hr =>
      have hsound := hs r (mem_of_getElem? hr)
      have hpending := pending_eraseIdx hr
      have hrest : ∀ r ∈ s.list.eraseIdx index, r.Sound := fun q hq => hs q (mem_of_mem_eraseIdx hq)
      split at h
      case isFalse => cases h
      case isTrue =>
        split at h
        · cases h
          refine ⟨hrest, ?_⟩
          simp only [accounted]
          omega
        case h_2 buffer hbuffer =>
          split at h
          · cases h
          case h_2 call hcall =>
            cases h
            have hweight := callWeight_le hsound hbuffer hcall
            refine ⟨hrest, ?_⟩
            simp only [accounted, map_append, map_cons, map_nil, sum_append, sum_cons, sum_nil]
            omega

variable {actions : List SocketAction}

theorem framingRun_spec (hs : ∀ r ∈ s.list, r.Sound)
    (h : run (framingStep order) s actions = some s') :
    accounted s' ≤ accounted s + (copies actions).flatten.length := by
  induction actions generalizing s with
  | nil =>
    cases h
    exact Nat.le_add_right _ _
  | cons action actions ih =>
    obtain ⟨t, hstep, hrun⟩ := run_cons_eq_some.mp h
    have hsplit := copies_cons action actions
    obtain ⟨ht, hone⟩ := framingStep_spec hs hstep
    have hrest := ih ht hrun
    rw [hsplit, flatten_append, length_append]
    omega

/-! ## Requests that are served -/

/-- All chunks have arrived and every finished element has been processed. -/
def CompleteRun (order : HostOrder) (chunks : List Bytes) (s : FramingState) : Prop :=
  (∃ actions, copies actions = chunks ∧
    run (framingStep order) SocketState.init actions = some s) ∧
    ∀ r ∈ s.list, r.finish = false

/-- The callbacks of the requests are called, once each and in order, however the threads run. -/
def RequestsServed (order : HostOrder) (requests : List FramedRequest) (chunks : List Bytes) : Prop :=
  (∃ s, CompleteRun order chunks s) ∧
    ∀ s, CompleteRun order chunks s → s.calls = requests.map FramedRequest.callback

/-- Pieces of a stream as they are received. -/
def CutInto (stream : Bytes) (chunks : List Bytes) : Prop :=
  chunks.flatten = stream ∧ ∀ chunk ∈ chunks, Received chunk

def requestStream (requests : List FramedRequest) : Bytes := requests.flatMap FramedRequest.bytes

theorem length_requestStream (requests : List FramedRequest) :
    (requestStream requests).length + 3 * requests.length
      = ((requests.map FramedRequest.callback).map callWeight).sum := by
  induction requests with
  | nil => rfl
  | cons r requests ih =>
    have hweight : callWeight r.callback = r.body.length + 12 := rfl
    simp only [requestStream, flatMap_cons, length_append, r.length_bytes,
      length_cons, map_cons, sum_cons, hweight] at ih ⊢
    omega

theorem eq_nil_of_cutInto_nil {chunks : List Bytes} (h : CutInto [] chunks) : chunks = [] := by
  cases chunks with
  | nil => rfl
  | cons chunk chunks =>
    have hnil : chunk = [] := (append_eq_nil_iff.mp h.1).1
    exact absurd hnil (h.2 chunk (mem_cons_self ..)).1

theorem run_of_copies_nil (hcopies : copies actions = [])
    (h : run (framingStep order) .init actions = some s) : s = .init := by
  cases actions with
  | nil =>
    cases h
    rfl
  | cons action actions =>
    cases action with
    | copy chunk => cases hcopies
    | read index =>
      obtain ⟨t, hstep, -⟩ := run_cons_eq_some.mp h
      cases hstep

/-- A request is three bytes shorter than what a call with its body length has used up, so a
non-empty sequence of requests is never served: not for one byte order, not for one way to cut the
stream and not for one order of the threads. -/
theorem requestsServed_iff (order : HostOrder) (requests : List FramedRequest) (chunks : List Bytes)
    (hcut : CutInto (requestStream requests) chunks) :
    RequestsServed order requests chunks ↔ requests = [] := by
  constructor
  · rintro ⟨⟨s, hs⟩, hcalls⟩
    have hcalls := hcalls s hs
    obtain ⟨⟨actions, hcopies, hrun⟩, -⟩ := hs
    have haccounted := framingRun_spec (forall_mem_nil _) hrun
    have hweights := length_requestStream requests
    rw [hcopies, hcut.1] at haccounted
    simp only [accounted, hcalls, SocketState.init, map_nil, sum_nil, pending_nil]
      at haccounted
    exact eq_nil_of_length_eq_zero (by omega)
  · intro h
    subst h
    obtain rfl := eq_nil_of_cutInto_nil hcut
    refine ⟨⟨.init, ⟨[], rfl, rfl⟩, forall_mem_nil _⟩, ?_⟩
    rintro s ⟨⟨actions, hcopies, hrun⟩, -⟩
    rw [run_of_copies_nil hcopies hrun]
    rfl

def shortRequest : FramedRequest := { type := 16, id := 1, body := [], fits := by decide }

theorem requestsServed_iff_short :
    CutInto (requestStream [shortRequest]) [shortRequest.bytes] ∧
      (RequestsServed .little [shortRequest] [shortRequest.bytes] ↔ [shortRequest] = []) :=
  ⟨⟨by decide, by decide⟩, requestsServed_iff _ _ _ ⟨by decide, by decide⟩⟩

/-- Its nine bytes are fewer than the twelve that the server takes for a header: they are kept, and no
callback is called. -/
theorem shortRequest_not_served : ¬ RequestsServed .little [shortRequest] [shortRequest.bytes] := by
  rintro ⟨-, h⟩
  have hrun : run (framingStep .little) .init [.copy shortRequest.bytes]
      = some {
        list := [{
          buffer := some (shortRequest.bytes.map some ++ malloc 3)
          size := 12
          pos := 9
          finish := false }]
        calls := [] } := rfl
  have hcalls := h _ ⟨⟨[.copy shortRequest.bytes], rfl, hrun⟩, by simp⟩
  cases hcalls

end Osns
