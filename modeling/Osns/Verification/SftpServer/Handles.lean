import Mathlib.Data.List.Nodup
import Osns.Library.Transition
import Osns.Model.SftpServer.Handles

/-! The bytes of a handle name an object only as long as no other object has the same device and inode
on a connection with the same id. -/

namespace Osns

open Function List

/-! ## Histories -/

/-- An object that an open has returned, and the connection that has opened it. -/
structure OpenRecord where
  handle : FsHandle
  conn : ℕ
  closed : Bool

/-- The hashtable, with the objects opened so far, the last one first. -/
structure HandleSystem where
  table : HandleTable
  records : List OpenRecord

def HandleSystem.init : HandleSystem := { table := .empty, records := [] }

/-- What can happen on a connection: an open of a file or directory with this device and inode that
succeeds or fails at the system call, a request that uses a handle, and a close. -/
inductive HandleEvent
  | opened (conn : ℕ) (socket : FsSocket) (major minor : UInt32) (ino : UInt64)
  | failed (conn : ℕ) (socket : FsSocket) (major minor : UInt32) (ino : UInt64)
  | used (conn : ℕ) (bytes : Bytes)
  | closed (conn : ℕ) (bytes : Bytes)

/-- The record after the object with this serial has been closed. -/
def OpenRecord.close (serial : ℕ) (r : OpenRecord) : OpenRecord :=
  if r.handle.serial = serial then { r with closed := true } else r

section

/-! `unique` is the field of that name of each connection. -/

variable (unique : ℕ → UInt32)

section

variable (s : HandleSystem)

def HandleSystem.lookup (conn : ℕ) (bytes : Bytes) : Option FsHandle :=
  match getFsHandle s.table (unique conn) bytes 0 bytes.length with
  | .ok found => found
  | .error _ => none

def HandleSystem.next : HandleEvent → HandleSystem
  | .opened conn socket major minor ino =>
    let created := sftpCreateFsHandle s.table (unique conn) (getUniqueSystemDev major minor) ino socket
    { table := created.2
      records := { handle := created.1, conn, closed := false } :: s.records }
  | .failed conn socket major minor ino =>
    let created := sftpCreateFsHandle s.table (unique conn) (getUniqueSystemDev major minor) ino socket
    { s with table := freeFsHandle created.2 created.1 }
  | .used _ _ => s
  | .closed conn bytes =>
    match s.lookup unique conn bytes with
    | none => s
    | some handle =>
      { table := freeFsHandle s.table handle
        records := s.records.map (OpenRecord.close handle.serial) }

def handleStep (e : HandleEvent) : Option HandleSystem := some (s.next unique e)

/-- The bytes that an open has returned stand for its object until that is closed, and then for none. -/
def HandleSystem.Resolves : Prop :=
  ∀ r ∈ s.records, (s.lookup unique r.conn (writeHandleDefault r.handle)).map FsHandle.serial
    = if r.closed then none else some r.handle.serial

/-- Bytes that are sent on a connection do not stand for an object of another one. -/
def HandleSystem.Isolated (conn : ℕ) (bytes : Bytes) : Prop :=
  ∀ r ∈ s.records, (s.lookup unique conn bytes).map FsHandle.serial = some r.handle.serial →
    r.conn = conn

def HandleSystem.Sound (e : HandleEvent) : Prop :=
  (s.next unique e).Resolves unique ∧
    match e with
    | .used conn bytes | .closed conn bytes => s.Isolated unique conn bytes
    | _ => True

instance (s : HandleSystem) : Decidable (s.Resolves unique) :=
  inferInstanceAs (Decidable (∀ r ∈ s.records, _))

instance (s : HandleSystem) (conn : ℕ) (bytes : Bytes) : Decidable (s.Isolated unique conn bytes) :=
  inferInstanceAs (Decidable (∀ r ∈ s.records, _))

instance (s : HandleSystem) (e : HandleEvent) : Decidable (s.Sound unique e) :=
  match e with
  | .opened .. | .failed .. => inferInstanceAs (Decidable (_ ∧ True))
  | .used conn bytes => inferInstanceAs (Decidable (_ ∧ s.Isolated unique conn bytes))
  | .closed conn bytes => inferInstanceAs (Decidable (_ ∧ s.Isolated unique conn bytes))

end

def HandlesSound (events : List HandleEvent) : Prop :=
  Transition.Along (handleStep unique) (HandleSystem.Sound unique) .init events

instance (events : List HandleEvent) : Decidable (HandlesSound unique events) :=
  inferInstanceAs (Decidable (Transition.Along _ _ _ _))

end

/-! ## What a handle is found by -/

/-- The id of the connection, the device and the inode. -/
structure HandleKey where
  connectionid : ℕ
  dev : ℕ
  ino : ℕ
  deriving DecidableEq

def FsHandle.key (handle : FsHandle) : HandleKey where
  connectionid := handle.connectionid.toNat
  dev := handle.dev
  ino := handle.ino.toNat

def bytesKey (bytes : Bytes) : HandleKey where
  connectionid := getUint32 bytes
  dev := makedev (getUint32 (bytes.drop 4)) (getUint32 (bytes.drop 8))
  ino := getUint32 (bytes.drop 12) * 2 ^ 32 + getUint32 (bytes.drop 16)

def newKey (unique : ℕ → UInt32) (conn : ℕ) (major minor : UInt32) (ino : UInt64) : HandleKey where
  connectionid := (unique conn).toNat
  dev := getUniqueSystemDev major minor
  ino := ino.toNat

/-- An object with a key that has been in use before is not opened, and the bytes sent on a connection
have not the key of an open object of another one. -/
def HandleSystem.Separate (unique : ℕ → UInt32) (s : HandleSystem) : HandleEvent → Prop
  | .opened conn _ major minor ino =>
    ∀ r ∈ s.records, r.handle.key ≠ newKey unique conn major minor ino
  | .failed .. => True
  | .used conn bytes | .closed conn bytes =>
    20 ≤ bytes.length → ∀ r ∈ s.records, r.closed = false → r.handle.key = bytesKey bytes →
      r.conn = conn

/-! ## Device numbers -/

theorem makedev_major_minor (dev : ℕ) : makedev (devMajor dev) (devMinor dev) = dev := by
  unfold makedev devMajor devMinor
  omega

theorem devMajor_lt {dev : ℕ} (h : dev < 2 ^ 64) : devMajor dev < 2 ^ 32 := by
  unfold devMajor
  omega

theorem devMinor_lt (dev : ℕ) : devMinor dev < 2 ^ 32 := by
  unfold devMinor
  omega

/-! ## Bytes and keys -/

variable {unique : ℕ → UInt32} {s s' : HandleSystem} {e : HandleEvent}

theorem length_writeHandleDefault (handle : FsHandle) : (writeHandleDefault handle).length = 20 := by
  simp [writeHandleDefault]

variable {handle : FsHandle} {conn : ℕ}

theorem bytesKey_writeHandleDefault (h : handle.dev < 2 ^ 64) :
    bytesKey (writeHandleDefault handle) = handle.key := by
  have hino : handle.ino.toNat < 2 ^ 64 := handle.ino.toNat_lt
  have hid : handle.connectionid.toNat < 2 ^ 32 := handle.connectionid.toNat_lt
  obtain ⟨b₄, hb₄⟩ : ∃ b, b = storeUint32 (handle.ino.toNat / 2 ^ 32)
    ++ storeUint32 handle.ino.toNat := ⟨_, rfl⟩
  obtain ⟨b₃, hb₃⟩ : ∃ b, b = storeUint32 (devMinor handle.dev) ++ b₄ := ⟨_, rfl⟩
  obtain ⟨b₂, hb₂⟩ : ∃ b, b = storeUint32 (devMajor handle.dev) ++ b₃ := ⟨_, rfl⟩
  have hbytes : writeHandleDefault handle = storeUint32 handle.connectionid.toNat ++ b₂ := by
    simp only [writeHandleDefault, storeUint64, hb₂, hb₃, hb₄, append_assoc]
  have h4 : (writeHandleDefault handle).drop 4 = b₂ := by rw [hbytes, drop_storeUint32]
  have h8 : (writeHandleDefault handle).drop 8 = b₃ := by
    rw [← drop_drop (i := 4) (j := 4), h4, hb₂, drop_storeUint32]
  have h12 : (writeHandleDefault handle).drop 12 = b₄ := by
    rw [← drop_drop (i := 4) (j := 8), h8, hb₃, drop_storeUint32]
  have h16 : (writeHandleDefault handle).drop 16 = storeUint32 handle.ino.toNat := by
    rw [← drop_drop (i := 4) (j := 12), h12, hb₄, drop_storeUint32]
  have hlow : getUint32 (storeUint32 handle.ino.toNat) = handle.ino.toNat % 2 ^ 32 :=
    getUint32_storeUint32 _
  have hhigh : getUint32 b₄ = handle.ino.toNat / 2 ^ 32 := by
    rw [hb₄]
    exact getUint32_store_of_lt (by omega) _
  have hminor : getUint32 b₃ = devMinor handle.dev := by
    rw [hb₃]
    exact getUint32_store_of_lt (devMinor_lt _) _
  have hmajor : getUint32 b₂ = devMajor handle.dev := by
    rw [hb₂]
    exact getUint32_store_of_lt (devMajor_lt h) _
  have hfirst : getUint32 (writeHandleDefault handle) = handle.connectionid.toNat := by
    rw [hbytes]
    exact getUint32_store_of_lt hid _
  have hword : handle.ino.toNat / 2 ^ 32 * 2 ^ 32 + handle.ino.toNat % 2 ^ 32
      = handle.ino.toNat := Nat.div_add_mod' _ _
  simp only [bytesKey, FsHandle.key, h4, h8, h12, h16, hlow, hhigh, hminor, hmajor, hfirst,
    makedev_major_minor, hword]

theorem bytesKey_append {handle : Bytes} (h : handle.length = 20) (rest : Bytes) :
    bytesKey (handle ++ rest) = bytesKey handle := by
  have htake (bytes : Bytes) : bytesKey (bytes.take 20) = bytesKey bytes := by
    simp [bytesKey, drop_take, getUint32_take (show 4 ≤ 20 by decide),
      getUint32_take (show 4 ≤ 20 - 4 by decide), getUint32_take (show 4 ≤ 20 - 8 by decide),
      getUint32_take (show 4 ≤ 20 - 12 by decide), getUint32_take (show 4 ≤ 20 - 16 by decide)]
  rw [← htake (handle ++ rest), ← h, take_left]

def HandleTable.find (table : HandleTable) (key : HandleKey) : Option FsHandle :=
  (table.rows (key.ino % fsHandleHashtableSize)).find? fun handle => decide (handle.key = key)

theorem findFsHandle_eq (table : HandleTable) (connectionid major minor ino : ℕ) :
    findFsHandle table connectionid major minor ino
      = table.find { connectionid, dev := makedev major minor, ino } := by
  unfold findFsHandle HandleTable.find
  congr 1
  funext handle
  rw [Bool.eq_iff_iff, decide_eq_true_iff]
  simp only [FsHandle.is, FsHandle.key, Bool.and_eq_true, beq_iff_eq, HandleKey.mk.injEq]
  tauto

variable {table : HandleTable}

theorem getFsHandle_eq {id : UInt32} {data : Bytes} {pos size : ℕ} (hsize : 20 ≤ size)
    (hlen : pos + 20 ≤ data.length) :
    getFsHandle table id data pos size = .ok (table.find (bytesKey (data.drop pos))) := by
  rw [getFsHandle, if_neg (by omega), bodyUint32_of_le (by omega), Result.ok_bind,
    bodyUint32_of_le (by omega), Result.ok_bind, bodyUint32_of_le (by omega), Result.ok_bind,
    bodyUint64_of_le (by omega), Result.ok_bind, findFsHandle_eq]
  simp only [bytesKey, drop_drop]
  rfl

/-! ## The table and the open objects -/

def HandleSystem.live (s : HandleSystem) : List FsHandle :=
  (s.records.filter fun r => !r.closed).map OpenRecord.handle

/-- The rows of the table hold the open objects, and no two objects have ever had the same key. -/
structure HandleSystem.Matches (s : HandleSystem) : Prop where
  rows : ∀ i, s.table.rows i = s.live.filter fun h => decide (h.row = i)
  keys : (s.records.map fun r => r.handle.key).Nodup
  serials : (s.records.map fun r => r.handle.serial).Nodup
  created : ∀ r ∈ s.records, r.handle.serial < s.table.created
  dev : ∀ r ∈ s.records, r.handle.dev < 2 ^ 64

theorem matches_init : HandleSystem.init.Matches where
  rows _ := rfl
  keys := nodup_nil
  serials := nodup_nil
  created := forall_mem_nil _
  dev := forall_mem_nil _

theorem mem_live {h : FsHandle} :
    h ∈ s.live ↔ ∃ r ∈ s.records, r.closed = false ∧ r.handle = h := by
  simp [HandleSystem.live, and_assoc]

/-- In a list where no two elements have the same key, the search for the key of an element finds this
element or, when that does not pass the test, none. -/
theorem find?_key {α κ : Type} [DecidableEq κ] {key : α → κ} {l : List α} {a : α}
    (h : (l.map key).Nodup) (ha : a ∈ l) (q : α → Bool) :
    l.find? (fun x => q x && decide (key x = key a)) = if q a then some a else none := by
  cases hfind : l.find? (fun x => q x && decide (key x = key a)) with
  | none =>
    have hq := find?_eq_none.mp hfind a ha
    simp only [decide_true, Bool.and_true] at hq
    rw [if_neg hq]
  | some b =>
    have hb := find?_some hfind
    simp only [Bool.and_eq_true, decide_eq_true_eq] at hb
    obtain rfl : b = a := inj_on_of_nodup_map h (mem_of_find?_eq_some hfind) ha hb.2
    rw [if_pos hb.1]

theorem lookup_eq {bytes : Bytes} (hlen : 20 ≤ bytes.length) :
    s.lookup unique conn bytes = s.table.find (bytesKey bytes) := by
  rw [HandleSystem.lookup, getFsHandle_eq hlen (by omega), drop_zero]

theorem lookup_eq_none {bytes : Bytes} (hlen : bytes.length < 20) :
    s.lookup unique conn bytes = none := by
  rw [HandleSystem.lookup, getFsHandle, if_pos hlen]

theorem lookup_writeHandleDefault (h : handle.dev < 2 ^ 64) :
    s.lookup unique conn (writeHandleDefault handle) = s.table.find handle.key := by
  rw [lookup_eq (Nat.le_of_eq (length_writeHandleDefault handle).symm), bytesKey_writeHandleDefault h]

@[simp] theorem handle_close (serial : ℕ) (r : OpenRecord) : (r.close serial).handle = r.handle := by
  unfold OpenRecord.close
  split <;> rfl

theorem live_close (records : List OpenRecord) (serial : ℕ) :
    ((records.map (OpenRecord.close serial)).filter fun r => !r.closed).map OpenRecord.handle
      = ((records.filter fun r => !r.closed).map OpenRecord.handle).filter
          fun h => h.serial != serial := by
  induction records with
  | nil => rfl
  | cons r records ih =>
    by_cases hserial : r.handle.serial = serial <;> cases hclosed : r.closed <;>
      simp [OpenRecord.close, hserial, hclosed, ih]

theorem rows_freeFsHandle {handles : List FsHandle}
    (hrows : ∀ i, table.rows i = handles.filter fun h => decide (h.row = i))
    (hserial : ∀ h ∈ handles, h.serial = handle.serial → h.row = handle.row) (i : ℕ) :
    (freeFsHandle table handle).rows i
      = (handles.filter fun h => h.serial != handle.serial).filter fun h => decide (h.row = i) := by
  rw [filter_filter]
  by_cases hi : i = handle.row
  · subst hi
    simp only [freeFsHandle, update_self, hrows, filter_filter]
    exact filter_congr fun h _ => Bool.and_comm _ _
  · simp only [freeFsHandle, update_of_ne hi, hrows]
    apply filter_congr
    intro h hh
    by_cases hrow : h.row = i
    · have hne : h.serial ≠ handle.serial := fun hs => hi (hrow.symm.trans (hserial h hh hs))
      simp [hrow, hne]
    · simp [hrow]

namespace HandleSystem.Matches

variable (hm : s.Matches)

include hm

theorem find_eq (key : HandleKey) :
    s.table.find key = s.live.find? fun h => decide (h.key = key) := by
  rw [HandleTable.find, hm.rows, find?_filter]
  congr 1
  funext h
  -- a handle with the key is in its row
  have hrow : h.key = key → h.row = key.ino % fsHandleHashtableSize := by
    rintro rfl
    rfl
  simpa using hrow

theorem find_key {r : OpenRecord} (hr : r ∈ s.records) :
    s.table.find r.handle.key = if r.closed then none else some r.handle := by
  rw [hm.find_eq, HandleSystem.live, find?_map, find?_filter]
  have h := find?_key hm.keys hr (fun r => !r.closed)
  simp only [Bool.decide_and, Bool.decide_eq_true, comp_apply] at h ⊢
  rw [h]
  cases r.closed <;> rfl

theorem resolves : s.Resolves unique := by
  intro r hr
  rw [lookup_writeHandleDefault (hm.dev r hr), hm.find_key hr]
  cases r.closed <;> rfl

theorem isolated_iff (conn : ℕ) (bytes : Bytes) :
    s.Isolated unique conn bytes ↔
      (20 ≤ bytes.length → ∀ r ∈ s.records, r.closed = false → r.handle.key = bytesKey bytes →
        r.conn = conn) := by
  by_cases hlen : 20 ≤ bytes.length
  · simp only [HandleSystem.Isolated, lookup_eq hlen, hlen, true_imp_iff]
    constructor
    · intro h r hr hopen hkey
      apply h r hr
      rw [← hkey, hm.find_key hr, hopen]
      rfl
    · intro h r hr hfound
      obtain ⟨handle, hfind, hserial⟩ := Option.map_eq_some_iff.mp hfound
      rw [hm.find_eq] at hfind
      obtain ⟨r', hr', hopen, rfl⟩ := mem_live.mp (mem_of_find?_eq_some hfind)
      obtain rfl : r' = r := inj_on_of_nodup_map hm.serials hr' hr hserial
      have hkey := find?_some hfind
      exact h r' hr' hopen (of_decide_eq_true hkey)
  · have hnone : s.lookup unique conn bytes = none := lookup_eq_none (by omega)
    simp [HandleSystem.Isolated, hnone, hlen]

theorem rows_create (id : UInt32) (dev : ℕ) (ino : UInt64) (socket : FsSocket) (i : ℕ) :
    (sftpCreateFsHandle s.table id dev ino socket).2.rows i
      = ((sftpCreateFsHandle s.table id dev ino socket).1 :: s.live).filter
          fun h => decide (h.row = i) := by
  simp only [sftpCreateFsHandle, filter_cons, decide_eq_true_eq]
  split
  case isTrue hrow =>
    subst hrow
    rw [update_self, hm.rows]
  case isFalse hrow =>
    rw [update_of_ne (Ne.symm hrow), hm.rows]

variable {socket : FsSocket} {major minor : UInt32}

theorem next_opened {conn : ℕ} {ino : UInt64}
    (hnew : ∀ r ∈ s.records, r.handle.key ≠ newKey unique conn major minor ino) :
    (s.next unique (.opened conn socket major minor ino)).Matches where
  rows i := hm.rows_create _ _ _ _ i
  keys := by
    refine nodup_cons.mpr ⟨?_, hm.keys⟩
    intro hmem
    obtain ⟨r, hr, hkey⟩ := mem_map.mp hmem
    exact hnew r hr hkey
  serials := by
    refine nodup_cons.mpr ⟨?_, hm.serials⟩
    intro hmem
    obtain ⟨r, hr, hserial⟩ := mem_map.mp hmem
    have hlt := hm.created r hr
    exact absurd hserial (Nat.ne_of_lt hlt)
  created := by
    refine forall_mem_cons.mpr ⟨Nat.lt_succ_self _, ?_⟩
    intro r hr
    exact Nat.lt_succ_of_lt (hm.created r hr)
  dev := by
    refine forall_mem_cons.mpr ⟨?_, hm.dev⟩
    exact Nat.lt_trans (u32_lt _) (by decide)

theorem next_failed {conn : ℕ} {ino : UInt64} :
    (s.next unique (.failed conn socket major minor ino)).Matches where
  rows i := by
    have hold : ∀ h ∈ s.live, h.serial ≠ s.table.created := by
      intro h hh
      obtain ⟨r, hr, -, rfl⟩ := mem_live.mp hh
      exact Nat.ne_of_lt (hm.created r hr)
    have hserial : ∀ h ∈ (sftpCreateFsHandle s.table (unique conn) (getUniqueSystemDev major minor)
        ino socket).1 :: s.live, h.serial = s.table.created → h.row = ino.toNat % 128 := by
      exact forall_mem_cons.mpr ⟨fun _ => rfl, fun h hh hs => absurd hs (hold h hh)⟩
    refine (rows_freeFsHandle (hm.rows_create _ _ _ _) hserial i).trans ?_
    have hrest : s.live.filter (fun h => h.serial != s.table.created) = s.live := by
      rw [filter_eq_self]
      intro h hh
      exact bne_iff_ne.mpr (hold h hh)
    rw [filter_cons_of_neg (by simp)]
    exact congrArg (filter _) hrest
  keys := hm.keys
  serials := hm.serials
  created := by
    intro r hr
    exact Nat.lt_succ_of_lt (hm.created r hr)
  dev := hm.dev

theorem next_closed {handle : FsHandle} (hlive : handle ∈ s.live) :
    HandleSystem.Matches
      { table := freeFsHandle s.table handle
        records := s.records.map (OpenRecord.close handle.serial) } where
  rows i := by
    obtain ⟨r, hr, -, rfl⟩ := mem_live.mp hlive
    rw [HandleSystem.live, live_close]
    refine rows_freeFsHandle hm.rows ?_ i
    intro h hh hserial
    obtain ⟨r', hr', -, rfl⟩ := mem_live.mp hh
    rw [inj_on_of_nodup_map hm.serials hr' hr hserial]
  keys := by
    rw [map_map]
    simpa [comp_def] using hm.keys
  serials := by
    rw [map_map]
    simpa [comp_def] using hm.serials
  created := by
    intro r' hr'
    obtain ⟨r, hr, rfl⟩ := mem_map.mp hr'
    rw [handle_close]
    exact hm.created r hr
  dev := by
    simpa using hm.dev

theorem next_close (conn : ℕ) (bytes : Bytes) : (s.next unique (.closed conn bytes)).Matches := by
  simp only [HandleSystem.next]
  cases hlookup : s.lookup unique conn bytes with
  | none => exact hm
  | some handle =>
    apply hm.next_closed
    by_cases hlen : 20 ≤ bytes.length
    · rw [lookup_eq hlen, hm.find_eq] at hlookup
      exact mem_of_find?_eq_some hlookup
    · rw [lookup_eq_none (by omega)] at hlookup
      cases hlookup

end HandleSystem.Matches

/-! ## Histories -/

theorem separate_of_resolves {socket : FsSocket} {major minor : UInt32} {ino : UInt64}
    (hm : s.Matches) (h : (s.next unique (.opened conn socket major minor ino)).Resolves unique) :
    ∀ r ∈ s.records, r.handle.key ≠ newKey unique conn major minor ino := by
  intro r hr hkey
  have hresolves := h r (mem_cons_of_mem _ hr)
  generalize hnew : sftpCreateFsHandle s.table (unique conn) (getUniqueSystemDev major minor) ino
    socket = new at *
  have hrow : (s.next unique (.opened conn socket major minor ino)).table.rows
      (ino.toNat % fsHandleHashtableSize) = new.1 :: s.table.rows new.1.row := by
    rw [← hnew]
    exact update_self ..
  have hfind : (s.next unique (.opened conn socket major minor ino)).table.find r.handle.key
      = some new.1 := by
    rw [hkey, HandleTable.find]
    exact hrow ▸ find?_cons_of_pos (by rw [← hnew]; exact decide_eq_true rfl)
  rw [lookup_writeHandleDefault (hm.dev r hr), hfind, Option.map_some] at hresolves
  have hserial : new.1.serial = s.table.created := hnew ▸ rfl
  have hlt : r.handle.serial < new.1.serial := hserial ▸ hm.created r hr
  split at hresolves
  · cases hresolves
  · exact absurd (Option.some.inj hresolves) (Nat.ne_of_gt hlt)

theorem sound_iff_separate (hm : s.Matches) (e : HandleEvent) :
    s.Sound unique e ↔ s.Separate unique e := by
  cases e with
  | opened conn socket major minor ino =>
    exact ⟨fun h => separate_of_resolves hm h.1, fun h => ⟨(hm.next_opened h).resolves, trivial⟩⟩
  | failed conn socket major minor ino =>
    exact ⟨fun _ => trivial, fun _ => ⟨hm.next_failed.resolves, trivial⟩⟩
  | used conn bytes => exact (and_iff_right hm.resolves).trans (hm.isolated_iff conn bytes)
  | closed conn bytes =>
    exact (and_iff_right (hm.next_close conn bytes).resolves).trans (hm.isolated_iff conn bytes)

theorem matches_next (hm : s.Matches) (h : s.Separate unique e) : (s.next unique e).Matches := by
  cases e with
  | opened conn socket major minor ino => exact hm.next_opened h
  | failed conn socket major minor ino => exact hm.next_failed
  | used conn bytes => exact hm
  | closed conn bytes => exact hm.next_close conn bytes

/-- A history is sound exactly when its events are separate. -/
theorem handlesSound_iff (unique : ℕ → UInt32) (events : List HandleEvent) :
    HandlesSound unique events ↔
      Transition.Along (handleStep unique) (HandleSystem.Separate unique) .init events := by
  apply Transition.along_iff_of_invariant (I := HandleSystem.Matches)
  · intro s e s' hm he hstep
    cases hstep
    exact matches_next hm he
  · intro s e hm
    exact sound_iff_separate hm e
  · exact matches_init

/-- The bytes of the handle of the file with inode 5 on device 8, 1 for a connection with id zero. -/
def handleBytes : Bytes := [0, 0, 0, 0, 0, 0, 0, 8, 0, 0, 0, 1, 0, 0, 0, 0, 0, 0, 0, 5]

/-- A file that is opened twice, one that is opened again after a close, and a handle that is sent on
another connection; the last one also when the connections have ids of their own. -/
theorem handles_confused :
    ¬ HandlesSound (fun _ => 0) [.opened 0 .file 8 1 5, .opened 0 .file 8 1 5] ∧
    ¬ HandlesSound (fun _ => 0) [.opened 0 .file 8 1 5, .closed 0 handleBytes, .opened 0 .file 8 1 5] ∧
    ¬ HandlesSound (fun _ => 0) [.opened 0 .file 8 1 5, .used 1 handleBytes] ∧
    ¬ HandlesSound UInt32.ofNat [.opened 0 .file 8 1 5, .used 1 handleBytes] := by
  decide

end Osns
