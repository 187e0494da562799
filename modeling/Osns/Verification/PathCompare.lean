import Osns.Model.PathCompare
import Osns.Verification.Fuse.Names

/-! Which paths are compared as containment in a directory asks for. -/

namespace Osns

open List Result

/-- The part of a path from the boundary behind a directory on. -/
def pathInside (a b : Bytes) : Option Bytes :=
  if b <+: a ∧ a ≠ b then
    if b.getLast? = some slash then some (a.drop (b.length - 1))
    else if a[b.length]? = some slash then some (a.drop b.length)
    else none
  else none

def Compares (a b : Bytes) (sub : Option SshString) (result : Except Fault (ℕ × Option SshString)) : Prop :=
  result = .ok (if a = b then 1 else if (pathInside a b).isSome then 2 else 0,
    (pathInside a b).elim sub fun part => sub.map fun _ => ⟨part.length, some part⟩)

def PathArgument.Denotes : PathArgument → Bytes → Prop
  | string s, b => s.text = .ok b
  | chars s, b => 0 ∉ b ∧ ∃ behind, s = b ++ [0] ++ behind

def PathArgument.pointer : PathArgument → Bool
  | string s => s.ptr.isSome
  | chars _ => true

/-- The directory is not empty, and where the same bytes end without a boundary, `sub` is not set. -/
def Comparable (a b : Bytes) (sub : Option SshString) (address : ℕ) : Prop :=
  b <+: a → a ≠ b → b ≠ [] ∧
    (pathInside a b = none → sub = sub.map fun _ => ⟨u32 (address + a.length), none⟩)

variable {a b : Bytes} {sub : Option SshString} {address : ℕ} {arg : PathArgument}

theorem compareWindows_iff (hb : b.length < 2 ^ 32) :
    Compares a b sub (compareWindows a b sub address) ↔ Comparable a b sub address := by
  unfold Compares compareWindows Comparable pathInside
  by_cases hstart : b <+: a
  · obtain ⟨rest, rfl⟩ := hstart
    cases rest with
    | nil => simp
    | cons next rest =>
      cases hlast : b.getLast? with
      | none =>
        obtain rfl := getLast?_eq_none_iff.mp hlast
        simp [inBounds]
      | some last =>
        have hnil : b ≠ [] := fun h => by simp [h] at hlast
        rw [u32Sub_of_le hb (length_pos_of_ne_nil hnil), ← getLast?_eq_getElem?, hlast]
        by_cases hslash : last = slash
        · simp [hslash, hnil]
        · by_cases hnext : next = slash
          · simp [hslash, hnext, hnil]
          · simp [hslash, hnext, hnil, eq_comm]
  · have hne : a ≠ b := fun h => hstart (h ▸ prefix_rfl)
    have hfront : a.take b.length ≠ b := fun h => hstart (h ▸ take_prefix _ _)
    simp [hstart, hne, hfront]

theorem SshString.bytes_of_text {s : SshString} (h : s.text = .ok a) (hptr : s.ptr.isSome) :
    s.bytes = .ok a := by
  unfold text at h
  split at h
  · next hlen =>
    cases h
    obtain ⟨ptr, hptr⟩ := Option.isSome_iff_exists.mp hptr
    simp [bytes, hptr, hlen, Buffer.load]
  · exact h

theorem PathArgument.Denotes.window (h : arg.Denotes b) (hb : b.length < 2 ^ 32) :
    ∃ pre, arg.window = .ok pre ∧ pre.text = .ok b ∧ pre.ptr.isSome = arg.pointer := by
  cases arg with
  | string s => exact ⟨s, rfl, h, rfl⟩
  | chars s =>
    obtain ⟨hzero, behind, rfl⟩ := h
    refine ⟨⟨b.length, some (b ++ [0] ++ behind)⟩, ?_, ?_, rfl⟩
    · rw [PathArgument.window, strlen_name hzero, ok_bind, u32_of_lt hb]
      rfl
    · cases b with
      | nil => rfl
      | cons c b => simp [SshString.text, SshString.bytes, Buffer.load]

/-- With a null pointer nothing is found, which is right when there is nothing to be found. -/
theorem fsPathCompare_iff (path : SshString) (arg : PathArgument) (sub : Option SshString) (address : ℕ)
    (a b : Bytes) (ha : path.text = .ok a) (harg : arg.Denotes b) (hb : b.length < 2 ^ 32) :
    Compares a b sub (fsPathCompare path arg sub address) ↔
      if path.ptr.isSome ∧ arg.pointer then Comparable a b sub address
      else a ≠ b ∧ pathInside a b = none := by
  obtain ⟨pre, hpre, htext, hptr⟩ := harg.window hb
  rw [fsPathCompare, hpre, ok_bind, ← hptr]
  split
  · next hboth =>
    rw [SshString.bytes_of_text ha hboth.1, ok_bind, SshString.bytes_of_text htext hboth.2, ok_bind,
      compareWindows_iff hb]
  · unfold Compares
    by_cases heq : a = b
    · simp [heq]
    · cases pathInside a b <;> simp [heq]

/-- The path `/a` in the directory `/`. -/
theorem fsPathCompare_iff_root :
    Compares [slash, 97] [slash] (some ⟨0, none⟩)
      (fsPathCompare ⟨2, some [slash, 97]⟩ (.chars [slash, 0]) (some ⟨0, none⟩) 4096) :=
  (fsPathCompare_iff ⟨2, some [slash, 97]⟩ (.chars [slash, 0]) (some ⟨0, none⟩) 4096 [slash, 97] [slash] rfl
    ⟨by decide, [], rfl⟩ (by decide)).mpr fun _ _ => ⟨by decide, fun h => by cases h⟩

/-- An empty directory, and a name with the same front. -/
theorem fsPathCompare_wrong :
    fsPathCompare ⟨1, some [slash]⟩ (.chars [0]) none 4096 = .error .overrun ∧
      fsPathCompare ⟨2, some [97, 97]⟩ (.chars [97, 0]) (some ⟨0, none⟩) 4096 =
        .ok (0, some ⟨4098, none⟩) :=
  ⟨rfl, rfl⟩

end Osns
