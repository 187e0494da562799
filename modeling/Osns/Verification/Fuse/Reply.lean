import Osns.Model.Fuse.Reply

/-! The length that the header of a message to the VFS announces. -/

namespace Osns

def partsLen : List Iovec → ℕ
  | [] => 0
  | part :: parts => part.len + partsLen parts

def DeviceWrite.total (w : DeviceWrite) : ℕ := fuseOutHeaderSize + partsLen w.parts

/-- A notification has nothing but empty parts, and the length of a reply does not wrap around. -/
def VfsMessage.Announced : VfsMessage → Prop
  | error _ _ => True
  | data _ bytes => fuseOutHeaderSize + bytes.length < 2 ^ 32
  | notify _ parts => ∀ part ∈ parts, part.len = 0
  | delete _ _ _ => False

theorem partsLen_eq_zero_iff (parts : List Iovec) :
    partsLen parts = 0 ↔ ∀ part ∈ parts, part.len = 0 := by
  induction parts with
  | nil => simp [partsLen]
  | cons part parts ih => rw [partsLen, Nat.add_eq_zero_iff, ih, List.forall_mem_cons]

theorem fuseSocketNotify_len_iff (code : UInt32) (parts : List Iovec) :
    (fuseSocketNotify code parts).out.len = (fuseSocketNotify code parts).total ↔
      ∀ part ∈ parts, part.len = 0 := by
  rw [← partsLen_eq_zero_iff]
  exact Nat.left_eq_add

/-- The header of a notification counts itself only. -/
theorem vfsMessage_len_iff (m : VfsMessage) : m.write.out.len = m.write.total ↔ m.Announced := by
  cases m with
  | error unique errcode => exact iff_of_true rfl True.intro
  | data unique bytes => exact Nat.mod_eq_iff_lt (by decide)
  | notify code parts => exact fuseSocketNotify_len_iff code parts
  | delete pino ino name =>
    apply (fuseSocketNotify_len_iff _ _).trans
    apply iff_of_false _ id
    intro h
    cases h _ List.mem_cons_self

theorem delete_len_short :
    (VfsMessage.delete 1 2 [97]).write.out.len = 16 ∧ (VfsMessage.delete 1 2 [97]).write.total = 41 :=
  ⟨rfl, rfl⟩

end Osns
