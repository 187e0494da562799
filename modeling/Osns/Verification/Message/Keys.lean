import Osns.Model.PkReadwrite
import Osns.Verification.Message.Reader
import Osns.Verification.Message.Writer

/-! Public keys that are written and read back in each data format. -/

namespace Osns

open List Result KeyParam

/-! ## Algorithms -/

theorem getPkalgoString_of_holds {s : SshString} {name : Bytes} (h : s.Holds name) :
    getPkalgoString s = .ok (getPkalgo name) := by
  rw [getPkalgoString, h.len, h.bytes]
  split
  · rename_i hlen
    have hnone : getPkalgo name = none := by
      rw [getPkalgo, find?_eq_none]
      intro algo halgo heq
      have hne := all_eq_true.mp hlen algo halgo
      exact of_decide_eq_true hne (congrArg length (of_decide_eq_true heq))
    rw [hnone]
    rfl
  · rfl

theorem getPkalgo_name (algo : Pkalgo) : getPkalgo algo.name = some algo := by
  cases algo <;> decide

/-! ## Buffers -/

/-- A write that adds `xs` to a buffer with room for them. -/
def Puts (write : Output.State UInt8 → Except Fault (Option (Output.State UInt8))) (xs : Bytes) : Prop :=
  ∀ done free : Bytes, xs.length ≤ free.length → (done ++ free).length < 2 ^ 32 →
    write ⟨done ++ free, done.length⟩
      = .ok (some ⟨(done ++ xs) ++ free.drop xs.length, (done ++ xs).length⟩)

section

variable {xs ys : Bytes}
  {writes : List (Output.State UInt8 → Except Fault (Option (Output.State UInt8)))}

theorem Puts.behind (hwrites : Puts (pkWrites · writes) ys) {done free : Bytes}
    (hfree : (xs ++ ys).length ≤ free.length) (hlen : (done ++ free).length < 2 ^ 32) :
    pkWrites ⟨(done ++ xs) ++ free.drop xs.length, (done ++ xs).length⟩ writes
      = .ok (some ⟨(done ++ (xs ++ ys)) ++ free.drop (xs ++ ys).length,
          (done ++ (xs ++ ys)).length⟩) := by
  rw [length_append] at hfree
  have hrest : pkWrites ⟨(done ++ xs) ++ free.drop xs.length, (done ++ xs).length⟩ writes = _ :=
    hwrites (done ++ xs) (free.drop xs.length) (by rw [length_drop]; omega)
      (by simp only [length_append, length_drop] at hlen ⊢; omega)
  rw [hrest, drop_drop, append_assoc done xs ys, ← length_append]

end

/-- A point has to have bytes, and there has to be memory for them. -/
def KeyParam.Readable (lib : MsgLib) {scheme : PkScheme} : KeyParam scheme → Prop
  | .ecc q => 0 < q.length ∧ lib.malloc q.length = true
  | _ => True

variable {scheme : PkScheme}

variable {lib : MsgLib}

section

variable {mb : MsgReader} {tail : Bytes} {param : KeyParam scheme}

theorem MsgReader.At.pointHeader {point : Bytes} (h : mb.At (sshString point ++ tail))
    (hpos : 0 < point.length) :
    4 < Osns.u32Sub mb.len mb.pos ∧ getUint32 (storeUint32 point.length) = point.length ∧
      Buffer.load mb.data mb.pos 4 = some (storeUint32 point.length) ∧
      MsgReader.At { mb with pos := u32 (mb.pos + 4) } (point ++ tail) := by
  have hlen := h.len
  have hfits := h.fits
  rw [length_append, length_sshString] at hlen
  have hheader : mb.At (storeUint32 point.length ++ (point ++ tail)) := by
    rwa [sshString, append_assoc] at h
  refine ⟨?_, ?_, hheader.load (by rw [length_storeUint32]; omega), hheader.skip rfl⟩
  · rw [h.u32Sub, length_append, length_sshString]
    omega
  · rw [getUint32_storeUint32, u32_of_lt (by omega)]

theorem MsgReader.At.msgReadSshMpoint {point : Bytes}
    (h : mb.At (sshString point ++ tail)) (hpos : 0 < point.length)
    (hmalloc : lib.malloc point.length = true) :
    ∃ mb', mb.msgReadSshMpoint lib = .ok (some point, mb') ∧ mb'.At tail := by
  have hlen := h.len
  have hfits := h.fits
  rw [length_append, length_sshString] at hlen
  obtain ⟨hleft, hget, hload, hnext⟩ := h.pointHeader hpos
  have hpoint : Buffer.load mb.data (u32 (mb.pos + 4)) point.length = _ := hnext.load (by omega)
  have hend : u32 (u32 (mb.pos + 4) + point.length) ≤ mb.len := by
    rw [u32_of_lt (show mb.pos + 4 < 2 ^ 32 by omega), u32_of_lt (by omega)]
    omega
  refine ⟨_, ?_, hnext.skip rfl⟩
  rw [MsgReader.msgReadSshMpoint, if_pos hleft, hload, inBounds_some, ok_bind, hget]
  simp only [if_pos hend, if_pos hmalloc, hpoint, inBounds_some, ok_bind]
  rfl

theorem MsgReader.At.msgReadSshMpintSized (hlib : lib.Scans) {mp : ℤ} {more : ℕ}
    (h : mb.At (mpi mp ++ tail)) (hmore : more ≤ tail.length) :
    ∃ mb', mb.msgReadSshMpintSized lib ((mpi mp).length + more) = .ok (some mp, more, mb') ∧
      mb'.At tail := by
  have hlen := h.len
  have hfits := h.fits
  rw [length_append] at hlen
  have hleft : Osns.u32Sub ((mpi mp).length + more) (mpi mp).length = more := by
    rw [u32Sub_of_le (by omega) (by omega), Nat.add_sub_cancel_left]
  obtain ⟨mb', hscan, hat⟩ := h.scanMpint hlib ((mpi mp).length + more)
  refine ⟨mb', ?_, hat⟩
  rw [MsgReader.msgReadSshMpintSized, hscan, ok_bind]
  simp only [hleft]
  rfl

theorem MsgReader.At.msgReadSshMpointSized {point : Bytes}
    (h : mb.At (sshString point ++ tail)) (hpos : 0 < point.length)
    (hmalloc : lib.malloc point.length = true)
    {plen : ℕ} (hplen : 4 + point.length ≤ plen) :
    ∃ left mb', mb.msgReadSshMpointSized lib plen = .ok (some point, left, mb') ∧ mb'.At tail := by
  obtain ⟨mb', hpoint, hat⟩ := h.msgReadSshMpoint hpos hmalloc
  obtain ⟨hleft, hget, hload, -⟩ := h.pointHeader hpos
  have hlen := h.len
  have hfits := h.fits
  rw [length_append, length_sshString] at hlen
  have hsize : ¬ plen < u32 (point.length + 4) := by
    rw [u32_of_lt (by omega)]
    omega
  refine ⟨Osns.u32Sub plen (u32 (point.length + 4)), mb', ?_, hat⟩
  rw [MsgReader.msgReadSshMpointSized, if_pos hleft, hload, inBounds_some, ok_bind, hget]
  simp only [if_neg hsize, hpoint]
  rfl

theorem MsgReader.At.readParam (hlib : lib.Scans)
    (h : mb.At (param.write ++ tail)) (hread : param.Readable lib) :
    ∃ mb', KeyParam.read lib mb scheme = .ok (some param, mb') ∧ mb'.At tail := by
  cases param with
  | rsa e n =>
    simp only [KeyParam.write, append_assoc] at h
    obtain ⟨mb₁, he, hat₁⟩ := h.msgReadSshMpint hlib
    obtain ⟨mb₂, hn, hat₂⟩ := hat₁.msgReadSshMpint hlib
    refine ⟨mb₂, ?_, hat₂⟩
    simp only [KeyParam.read, he, hn, ok_bind]
    rfl
  | dss p q g y =>
    simp only [KeyParam.write, append_assoc] at h
    obtain ⟨mb₁, hp, hat₁⟩ := h.msgReadSshMpint hlib
    obtain ⟨mb₂, hq, hat₂⟩ := hat₁.msgReadSshMpint hlib
    obtain ⟨mb₃, hg, hat₃⟩ := hat₂.msgReadSshMpint hlib
    obtain ⟨mb₄, hy, hat₄⟩ := hat₃.msgReadSshMpint hlib
    refine ⟨mb₄, ?_, hat₄⟩
    simp only [KeyParam.read, hp, hq, hg, hy, ok_bind]
    rfl
  | ecc q =>
    obtain ⟨mb', hq, hat⟩ := MsgReader.At.msgReadSshMpoint h hread.1 hread.2
    refine ⟨mb', ?_, hat⟩
    rw [KeyParam.read, hq]
    rfl

end

/-! ## Messages -/

section

open MsgBuffer (Sound)

variable {memory : ℕ → UInt8} {size : ℕ} {xs : Bytes} {mb : MsgBuffer}

end

section

variable {mb : MsgReader} {tail : Bytes} {key : PublicKey} (hlib : lib.Scans)

include hlib

theorem MsgReader.At.msgReadPkeySsh (h : mb.At (msgWritePkey key .ssh ++ tail))
    (hread : key.param.Readable lib) :
    ∃ mb', Osns.msgReadPkeySsh lib mb key.algo = .ok (some key, mb') ∧ mb'.At tail := by
  rw [msgWritePkey, msgWritePkalgo, append_assoc] at h
  obtain ⟨name, mb₁, hname, hholds, hat₁⟩ := h.msgReadSshString .init
  obtain ⟨mb₂, hparam, hat₂⟩ := hat₁.readParam hlib hread
  refine ⟨mb₂, ?_, hat₂⟩
  rw [Osns.msgReadPkeySsh, h.error, if_neg (by simp), hname, ok_bind]
  simp only [getPkalgoString_of_holds hholds, getPkalgo_name, ok_bind, if_true, hparam]
  rfl

end

/-! ## Round trips -/

/-- Every integer takes the bytes that are counted for it. Points are never counted. -/
def KeyParam.Counted {scheme : PkScheme} : KeyParam scheme → Prop
  | .rsa e n => ByteCounted e ∧ ByteCounted n
  | .dss p q g y => ByteCounted p ∧ ByteCounted q ∧ ByteCounted g ∧ ByteCounted y
  | .ecc _ => False

variable {key : PublicKey}

end Osns
