import Osns.Model.CreateKeys
import Osns.Verification.Message.Buffer

/-! Derived keys against section 7.2 of RFC 4253. -/

namespace Osns

open List MsgBuffer

/-- What a key is derived from and how long it shall be, for a hash of a given length. The sizes
are far from the limits of `unsigned int`. -/
structure KeyRequest where
  sharedkey : ℕ
  h : Bytes
  sessionId : Bytes
  singlechar : UInt8
  keySize : ℕ
  hashlen : ℕ
  keySize_pos : 0 < keySize
  hashlen_pos : 0 < hashlen
  fits : 6 + getNbits sharedkey / 8 + h.length + sessionId.length + keySize + hashlen < 2 ^ 32

namespace KeyRequest

variable (r : KeyRequest)

/-- K1 = HASH(K || H || X || session id) and K(i+1) = HASH(K || H || K1 || ... || Ki), here
K1 || ... || K(i+1). -/
def keyMaterial (hash : Hash) : ℕ → Bytes
  | 0 => hash.digest (mpint r.sharedkey ++ r.h ++ [r.singlechar] ++ r.sessionId)
  | i + 1 =>
    keyMaterial hash i ++ hash.digest (mpint r.sharedkey ++ r.h ++ keyMaterial hash i)

def rfcKey (hash : Hash) : Bytes := (r.keyMaterial hash (r.keySize / r.hashlen)).take r.keySize

def bufferSize : ℕ :=
  estimateBufferSize r.sessionId.length r.sharedkey r.h.length r.hashlen r.keySize

/-- With every hash of the given length, and whatever the stack held before, the code derives
the key of RFC 4253 and leaves the memory behind its buffer alone. -/
def Derived : Prop :=
  ∀ (hash : Hash) (memory : ℕ → UInt8), hash.size = r.hashlen →
    ∃ mb, createKeyxHash hash memory r.sharedkey r.h r.sessionId r.singlechar r.keySize =
        some (r.rfcKey hash, mb) ∧ ∀ i, r.bufferSize ≤ i → mb.data i = memory i

/-! ## Sizes -/

theorem hashCount_bounds : r.keySize ≤ hashCount r.hashlen r.keySize * r.hashlen ∧
    hashCount r.hashlen r.keySize * r.hashlen < r.keySize + r.hashlen := by
  have hdiv := Nat.div_add_mod r.keySize r.hashlen
  have hmod := Nat.mod_lt r.keySize r.hashlen_pos
  rw [Nat.mul_comm] at hdiv
  by_cases h : r.keySize % r.hashlen > 0
  · simp only [hashCount, h, if_true, Nat.add_mul, Nat.one_mul]
    omega
  · simp only [hashCount, h, if_false]
    omega

theorem getNbytes_le : getNbytes r.sharedkey ≤ getNbits r.sharedkey / 8 + 1 := by
  rw [getNbytes_eq]
  split <;> omega

theorem bufferSize_eq : r.bufferSize =
    4 + getNbytes r.sharedkey + r.h.length +
      max (hashCount r.hashlen r.keySize * r.hashlen) (1 + r.sessionId.length) := by
  have hbounds := r.hashCount_bounds
  have hfits := r.fits
  have hbytes := r.getNbytes_le
  have hcount := u32_of_lt (n := 4 + getNbytes r.sharedkey + r.h.length +
    hashCount r.hashlen r.keySize * r.hashlen) (by omega)
  have hfirst := u32_of_lt (n := 4 + getNbytes r.sharedkey + r.h.length + 1 +
    r.sessionId.length) (by omega)
  simp only [bufferSize, estimateBufferSize, hcount, hfirst]
  split <;> omega

theorem bufferSize_succ_lt : r.bufferSize + 1 < 2 ^ 32 := by
  have hbounds := r.hashCount_bounds
  have hfits := r.fits
  have hpos := r.keySize_pos
  have hbytes := r.getNbytes_le
  rw [bufferSize_eq]
  omega

theorem bufferSize_lt : r.bufferSize < 2 ^ 32 := Nat.lt_of_succ_lt r.bufferSize_succ_lt

/-- The text of the first digest fits in the buffer, unless K takes a byte more than counted and
the digests do not make up for it. -/
theorem firstText_fits_iff :
    (mpint r.sharedkey).length + r.h.length + 1 + r.sessionId.length ≤ r.bufferSize ↔
      r.sharedkey = 0 ∨ ¬ 8 ∣ getNbits r.sharedkey ∨
        r.sessionId.length + 2 ≤ hashCount r.hashlen r.keySize * r.hashlen := by
  rw [bufferSize_eq, length_mpint_eq, Nat.dvd_iff_mod_eq_zero]
  by_cases h : r.sharedkey = 0
  · simp only [h, ne_eq, not_true_eq_false, false_and, if_false, true_or, iff_true]
    omega
  · by_cases hbits : getNbits r.sharedkey % 8 = 0
    · simp only [h, hbits, ne_eq, not_false_eq_true, and_self, if_true, not_true_eq_false, false_or]
      omega
    · simp only [h, hbits, ne_eq, not_false_eq_true, and_false, if_false, false_or, true_or,
        iff_true]
      omega

theorem laterText_fits :
    (mpint r.sharedkey).length + r.h.length + (hashCount r.hashlen r.keySize * r.hashlen - 1) ≤
      r.bufferSize := by
  have hbounds := r.hashCount_bounds
  have hpos := r.keySize_pos
  rw [bufferSize_eq, length_mpint_eq]
  split <;> omega

/-! ## Key material -/

section Material

variable {r} {hash : Hash} (hsize : hash.size = r.hashlen)

include hsize

theorem length_keyMaterial (i : ℕ) : (r.keyMaterial hash i).length = (i + 1) * r.hashlen := by
  induction i with
  | zero => simp [keyMaterial, hash.digest_length, hsize]
  | succ i ih =>
    rw [keyMaterial, length_append, ih, hash.digest_length, hsize, Nat.succ_mul (i + 1)]

omit hsize in
theorem keyMaterial_mono {i j : ℕ} (h : i ≤ j) : r.keyMaterial hash i <+: r.keyMaterial hash j := by
  induction h with
  | refl => exact prefix_refl _
  | step _ ih => exact ih.trans (prefix_append _ _)

theorem take_keyMaterial {i : ℕ} (hlong : r.keySize ≤ (r.keyMaterial hash i).length) :
    (r.keyMaterial hash i).take r.keySize = r.rfcKey hash := by
  have henough : r.keySize ≤ (r.keyMaterial hash (r.keySize / r.hashlen)).length := by
    have hdiv := Nat.div_add_mod r.keySize r.hashlen
    have hmod := Nat.mod_lt r.keySize r.hashlen_pos
    rw [Nat.mul_comm] at hdiv
    rw [length_keyMaterial hsize, Nat.add_mul]
    omega
  have htake : ∀ {as bs : Bytes}, as <+: bs → r.keySize ≤ as.length →
      bs.take r.keySize = as.take r.keySize := by
    rintro as bs ⟨t, rfl⟩ hle
    exact take_append_of_le_length hle
  rw [rfcKey]
  rcases Nat.le_total i (r.keySize / r.hashlen) with hij | hij
  · exact (htake (keyMaterial_mono hij) hlong).symm
  · exact htake (keyMaterial_mono hij) henough

/-- The invariant of the loop: the buffer holds K, H and all digests but the last one, and the key
consists of all of them. -/
theorem appendHashes_spec {memory : ℕ → UInt8} (fuel : ℕ) {i : ℕ} {mb : MsgBuffer}
    {previous out : Bytes} (hkey : r.keyMaterial hash i = previous ++ out)
    (hholds : Holds memory r.bufferSize (mpint r.sharedkey ++ r.h ++ previous) mb)
    (hshort : (r.keyMaterial hash i).length < r.keySize)
    (hfuel : r.keySize ≤ fuel + (r.keyMaterial hash i).length) :
    ∃ mb', appendHashes hash r.keySize fuel mb out (r.keyMaterial hash i) =
        some (r.rfcKey hash, mb') ∧ ∀ j, r.bufferSize ≤ j → mb'.data j = memory j := by
  induction fuel generalizing i mb previous out with
  | zero => omega
  | succ fuel ih =>
    have hlater := r.laterText_fits
    have hbounds := r.hashCount_bounds
    have hlen := congrArg length hkey
    rw [length_append] at hlen
    have hnext := hholds.msgWriteBytes out r.bufferSize_lt (by
      simp only [length_append]
      omega)
    rw [append_assoc _ previous, ← hkey] at hnext
    have hdigest : r.keyMaterial hash (i + 1) =
        r.keyMaterial hash i ++ hash.digest (mb.msgWriteBytes out).contents := by
      rw [keyMaterial, hnext.contents]
    have hlength := congrArg length hdigest
    rw [length_append, hash.digest_length] at hlength
    have hfits := r.fits
    have hu32 : u32 ((r.keyMaterial hash i).length + hash.size) =
        (r.keyMaterial hash i).length + hash.size := u32_of_lt (by omega)
    rw [appendHashes]
    simp only [hu32]
    by_cases henough : r.keySize ≤ (r.keyMaterial hash i).length + hash.size
    · refine ⟨mb.msgWriteBytes out, ?_, hnext.outside⟩
      rw [if_pos henough, ← take_keyMaterial hsize (i := i + 1) (by omega), hdigest,
        take_append, take_of_length_le (Nat.le_of_lt hshort)]
    · rw [if_neg henough, ← hdigest]
      exact ih hdigest hnext (by omega) (by have := hash.size_pos; omega)

end Material

/-! ## The whole function -/

def firstBuffer (memory : ℕ → UInt8) : MsgBuffer :=
  writeFirst (.setMsgBuffer memory r.bufferSize) r.sharedkey r.h r.singlechar r.sessionId

def laterBuffer (memory : ℕ → UInt8) : MsgBuffer :=
  ({ r.firstBuffer memory with pos := 0 }.msgWriteSshMpint r.sharedkey).msgWriteBytes r.h

variable {hash : Hash}

theorem createKeyxHash_eq (hsize : hash.size = r.hashlen) (memory : ℕ → UInt8) :
    createKeyxHash hash memory r.sharedkey r.h r.sessionId r.singlechar r.keySize =
      if r.keySize ≤ r.hashlen then
        some ((hash.digest (r.firstBuffer memory).contents).take r.keySize, r.firstBuffer memory)
      else
        appendHashes hash r.keySize r.keySize (r.laterBuffer memory)
          (hash.digest (r.firstBuffer memory).contents)
          (hash.digest (r.firstBuffer memory).contents) := by
  simp only [createKeyxHash, hsize]
  rfl

section Fits

variable {r} (hfits :
  (mpint r.sharedkey).length + r.h.length + 1 + r.sessionId.length ≤ r.bufferSize)
  (memory : ℕ → UInt8)

include hfits

theorem firstBuffer_holds : Holds memory r.bufferSize
    (mpint r.sharedkey ++ r.h ++ [r.singlechar] ++ r.sessionId) (r.firstBuffer memory) := by
  have hlt := r.bufferSize_lt
  have h1 := (holds_setMsgBuffer memory r.bufferSize).msgWriteSshMpint r.sharedkey hlt
    (by simp only [length_nil]; omega)
  have h2 := h1.msgWriteBytes r.h hlt (by simp only [nil_append]; omega)
  have h3 := h2.msgWriteByte r.singlechar hlt (by
    simp only [nil_append, length_append]
    omega)
  exact h3.msgWriteBytes r.sessionId hlt (by
    simp only [nil_append, length_append, length_singleton]
    omega)

theorem laterBuffer_holds :
    Holds memory r.bufferSize (mpint r.sharedkey ++ r.h) (r.laterBuffer memory) := by
  have hlt := r.bufferSize_lt
  have h1 := (firstBuffer_holds hfits memory).rewind.msgWriteSshMpint r.sharedkey hlt
    (by simp only [length_nil]; omega)
  exact h1.msgWriteBytes r.h hlt (by simp only [nil_append]; omega)

theorem derived_of_fits : r.Derived := by
  intro hash memory hsize
  have hfirst := firstBuffer_holds hfits memory
  have hdigest : hash.digest (r.firstBuffer memory).contents = r.keyMaterial hash 0 := by
    rw [hfirst.contents, keyMaterial]
  have hlen : (r.keyMaterial hash 0).length = r.hashlen := (hash.digest_length _).trans hsize
  rw [r.createKeyxHash_eq hsize, hdigest]
  by_cases hshort : r.keySize ≤ r.hashlen
  · refine ⟨r.firstBuffer memory, ?_, hfirst.outside⟩
    rw [if_pos hshort, take_keyMaterial hsize (by omega)]
  · rw [if_neg hshort]
    have hfirst : r.keyMaterial hash 0 = [] ++ r.keyMaterial hash 0 := rfl
    refine appendHashes_spec hsize r.keySize hfirst ?_ (by omega) (by omega)
    rw [append_nil]
    exact laterBuffer_holds hfits memory

end Fits

theorem appendHashes_extends {keySize fuel : ℕ} {mb mb' : MsgBuffer} {out key key' : Bytes}
    (h : appendHashes hash keySize fuel mb out key = some (key', mb')) : key <+: key' := by
  induction fuel generalizing mb out key with
  | zero => cases h
  | succ fuel ih =>
    rw [appendHashes] at h
    split at h
    · cases h
      exact prefix_append _ _
    · exact (prefix_append _ _).trans (ih h)

theorem getElem?_zero_of_extends {as bs : Bytes} (h : as <+: bs) (hpos : 0 < as.length) :
    bs[0]? = as[0]? := by
  obtain ⟨t, rfl⟩ := h
  rw [getElem?_append_left hpos]

theorem createKeyxHash_first (hsize : hash.size = r.hashlen) {memory : ℕ → UInt8}
    {key : Bytes} {mb : MsgBuffer}
    (h : createKeyxHash hash memory r.sharedkey r.h r.sessionId r.singlechar r.keySize =
      some (key, mb)) : key[0]? = (hash.digest (r.firstBuffer memory).contents)[0]? := by
  rw [r.createKeyxHash_eq hsize] at h
  split at h
  · cases h
    rw [getElem?_take_of_lt r.keySize_pos]
  · exact getElem?_zero_of_extends (appendHashes_extends h)
      (by rw [hash.digest_length]; exact hash.size_pos)

theorem rfcKey_first (hash : Hash) : (r.rfcKey hash)[0]? =
    (hash.digest (mpint r.sharedkey ++ r.h ++ [r.singlechar] ++ r.sessionId))[0]? := by
  rw [rfcKey, getElem?_take_of_lt r.keySize_pos]
  exact getElem?_zero_of_extends (keyMaterial_mono (Nat.zero_le _))
    (Nat.lt_of_lt_of_eq hash.size_pos (hash.digest_length _).symm)

def textHash (size : ℕ) (hpos : 0 < size) (text : Bytes) : Hash where
  size := size
  size_pos := hpos
  digest := fun xs => replicate size (if xs = text then 0 else 1)
  digest_length := fun _ => length_replicate

/-! ## Overlong texts -/

section Overlong

variable {r} (hlong :
  r.bufferSize < (mpint r.sharedkey).length + r.h.length + 1 + r.sessionId.length)
  (memory : ℕ → UInt8)

include hlong

theorem firstBuffer_within : Within memory r.bufferSize (r.bufferSize + 1) (r.firstBuffer memory) := by
  have hlt := r.bufferSize_succ_lt
  have hsize := r.bufferSize_eq
  have hmpint := length_mpint_eq r.sharedkey
  have htext : r.bufferSize + 1 =
      0 + (mpint r.sharedkey).length + r.h.length + 1 + r.sessionId.length := by
    split at hmpint <;> omega
  rw [htext]
  have h1 := (within_setMsgBuffer memory r.bufferSize).msgWriteSshMpint r.sharedkey
    r.bufferSize_lt (by split at hmpint <;> omega)
  exact ((h1.msgWriteBytes r.h (by omega)).msgWriteByte r.singlechar (by omega)).msgWriteBytes
    r.sessionId (by omega)

theorem firstBuffer_contents :
    (r.firstBuffer memory).contents.getLast? = some (memory r.bufferSize) := by
  have hwithin := firstBuffer_within hlong memory
  rw [MsgBuffer.contents, hwithin.pos, Memory.read_add, Nat.zero_add, Memory.read, Memory.read,
    getLast?_append, getLast?_singleton, Option.some_or, hwithin.outside _ (Nat.le_refl _)]

omit memory in
theorem not_derived_of_long : ¬ r.Derived := by
  intro hderived
  have hlast : ∃ b, (mpint r.sharedkey ++ r.h ++ [r.singlechar] ++ r.sessionId).getLast? =
      some b := by
    cases hl : (mpint r.sharedkey ++ r.h ++ [r.singlechar] ++ r.sessionId).getLast? with
    | none => simp [getLast?_eq_none_iff] at hl
    | some b => exact ⟨b, rfl⟩
  obtain ⟨b, hb⟩ := hlast
  obtain ⟨mb, hkey, -⟩ := hderived (textHash r.hashlen r.hashlen_pos
    (mpint r.sharedkey ++ r.h ++ [r.singlechar] ++ r.sessionId))
    (fun _ => if b = 0 then 1 else 0) rfl
  have hne : (r.firstBuffer fun _ => if b = 0 then 1 else 0).contents ≠
      mpint r.sharedkey ++ r.h ++ [r.singlechar] ++ r.sessionId := by
    intro heq
    have hread := firstBuffer_contents hlong fun _ => if b = 0 then 1 else 0
    rw [heq, hb, Option.some.injEq] at hread
    split at hread
    next h0 => rw [h0] at hread; cases hread
    next h0 => exact h0 hread
  have hfirst := r.createKeyxHash_first rfl hkey
  rw [rfcKey_first] at hfirst
  simp only [textHash, hne, if_true, if_false, getElem?_replicate_of_lt r.hashlen_pos] at hfirst
  cases hfirst

end Overlong

/-- The derived key is the one of RFC 4253 unless the bits of K fill whole bytes and the digests
take less room than the session id. -/
theorem derived_iff : r.Derived ↔ r.sharedkey = 0 ∨ ¬ 8 ∣ getNbits r.sharedkey ∨
    r.sessionId.length + 2 ≤ hashCount r.hashlen r.keySize * r.hashlen := by
  rw [← firstText_fits_iff]
  constructor
  · intro hderived
    by_contra hlong
    exact not_derived_of_long (Nat.lt_of_not_le hlong) hderived
  · exact derived_of_fits

end KeyRequest

/-- A shared secret of one byte with its highest bit set, a session id as long as the digests, and
a key as long as one of them. -/
def fullByteRequest : KeyRequest where
  sharedkey := 0x80
  h := [1, 2, 3, 4]
  sessionId := [5, 6, 7, 8]
  singlechar := 0x43
  keySize := 4
  hashlen := 4
  keySize_pos := by decide
  hashlen_pos := by decide
  fits := by decide

def tailHash : Hash where
  size := 4
  size_pos := by decide
  digest := fun xs => (replicate 4 0 ++ xs).drop xs.length
  digest_length := by
    intro xs
    simp only [length_drop, length_append, length_replicate]
    omega

theorem fullByteRequest_not_derived : ¬ fullByteRequest.Derived := by
  intro hderived
  obtain ⟨mb, hkey, -⟩ := hderived tailHash (fun _ => 0xff) rfl
  have hwrong : (createKeyxHash tailHash (fun _ => 0xff) 0x80 [1, 2, 3, 4] [5, 6, 7, 8] 0x43 4).map
      Prod.fst = some [0xff, 0xff, 0xff, 0xff] := by decide
  have hrfc : fullByteRequest.rfcKey tailHash = [5, 6, 7, 8] := by decide
  change createKeyxHash tailHash (fun _ => 0xff) 0x80 [1, 2, 3, 4] [5, 6, 7, 8] 0x43 4 = _ at hkey
  rw [hkey, hrfc] at hwrong
  cases hwrong

end Osns
