import Osns.Model.SftpServer.Extensions
import Osns.Verification.SftpServer.Requests

/-! What the extensions read of a request when no sum of lengths wraps around. -/

namespace Osns

open List Option Result SftpExtension Wire

/-! ## Extended requests -/

def findEnabled (mask : ℕ) (name : Bytes) : Option SftpExtension :=
  sftpExtensions.find? fun ext => ext.enabled mask && decide (ext.name = name)

/-! ## Fields behind other bytes -/

variable {server : SftpServer} {host : Host} {id : UInt32} {data front rest tail : Bytes} {k len : ℕ}

theorem bodyUint32_front (h : k + 4 ≤ rest.length) :
    bodyUint32 (front ++ rest) (front.length + k) = .ok (getUint32 (rest.drop k)) := by
  rw [bodyUint32_of_le (by rw [length_append]; omega), drop_length_add_append]

theorem bodyUint32_first (h : 4 ≤ rest.length) :
    bodyUint32 (front ++ rest) front.length = .ok (getUint32 rest) :=
  bodyUint32_front (k := 0) (by omega)

theorem bodyByte_front (h : k < rest.length) :
    bodyByte (front ++ rest) (front.length + k) = .ok (rest.getD k 0) := by
  rw [bodyByte, getElem?_append_right (by omega), Nat.add_sub_cancel_left,
    getD_eq_getElem?_getD, getElem?_eq_getElem h]
  rfl

variable {pos mask : ℕ}

theorem completePath_take (h : pos + len ≤ data.length) (home : Bytes) (pre : SftpPrefix) :
    completePath home pre data pos len
      = completePath home pre ((data.drop pos).take len) 0 len := by
  have hlen : ((data.drop pos).take len).length = len := by
    rw [length_take, length_drop]
    omega
  have hload : bodyLoad data pos len = bodyLoad ((data.drop pos).take len) 0 len := by
    rw [bodyLoad_of_le h, bodyLoad_of_le (by omega), drop_zero, take_take, Nat.min_self]
  have habsolute : isAbsolute data pos len = isAbsolute ((data.drop pos).take len) 0 len := by
    unfold isAbsolute
    split
    case isTrue hpos => rw [bodyByte, bodyByte, getElem?_take_of_lt hpos, getElem?_drop]; rfl
    case isFalse => rfl
  simp only [completePath, pathAppendShared, habsolute, hload]

theorem completePath_front (h : k + len ≤ rest.length) (home : Bytes) (pre : SftpPrefix) :
    completePath home pre (front ++ rest) (front.length + k) len
      = completePath home pre ((rest.drop k).take len) 0 len := by
  rw [completePath_take (by rw [length_append]; omega), drop_length_add_append]

theorem findSftpProtocolExtension_eq (h : pos + len ≤ data.length) (mask : ℕ) :
    findSftpProtocolExtension mask data pos len
      = .ok (findEnabled mask ((data.drop pos).take len)) := by
  have hlen : ((data.drop pos).take len).length = len := by
    rw [length_take, length_drop]
    omega
  have hfind : (sftpExtensions.filter fun ext => ext.enabled mask && ext.name.length == len).find?
      (fun ext => ext.name == (data.drop pos).take len)
        = findEnabled mask ((data.drop pos).take len) := by
    rw [find?_filter, findEnabled]
    congr 1
    funext ext
    by_cases hname : ext.name = (data.drop pos).take len
    · simp [hname, hlen]
    · simp [hname]
  unfold findSftpProtocolExtension
  simp only
  split
  case isTrue hempty =>
    rw [← hfind, isEmpty_iff.mp hempty]
    rfl
  case isFalse => rw [bodyLoad_of_le h, ok_bind, hfind]; rfl

theorem findSftpProtocolExtension_front (h : k + len ≤ rest.length) (mask : ℕ) :
    findSftpProtocolExtension mask (front ++ rest) (front.length + k) len
      = .ok (findEnabled mask ((rest.drop k).take len)) := by
  rw [findSftpProtocolExtension_eq (by rw [length_append]; omega), drop_length_add_append]

variable {ext : SftpExtension}

/-! ## The extensions without sums that wrap around -/

section

variable (hfront : front.length + 64 < 2 ^ 32)
include hfront

theorem cbExtSetPrefix_eq (hset : ¬ 0 < server.pre.path.length)
    (hwrap : 8 ≤ rest.length → front.length + 2 * getUint32 rest + 12 < 2 ^ 32) :
    cbExtSetPrefix server host id (front ++ rest) front.length
      = if 2 * getUint32 rest + 12 ≤ rest.length then
          completePath server.home server.pre ((rest.drop 4).take (getUint32 rest)) 0 (getUint32 rest)
            >>= fun path =>
              setprefixPath server host id path (getUint32 (rest.drop (4 + getUint32 rest)))
        else answerStatus server [] id sshFxBadMessage := by
  rw [cbExtSetPrefix, if_neg hset, u32_of_lt (by omega), length_append]
  by_cases hlen : 8 ≤ rest.length
  · have hlt := hwrap hlen
    have hstart : u32 (front.length + 4) = front.length + 4 := u32_of_lt (by omega)
    have hflags : u32 (front.length + 4 + getUint32 rest) = front.length + 4 + getUint32 rest :=
      u32_of_lt (by omega)
    rw [if_pos (by omega), bodyUint32_first (by omega), ok_bind]
    simp only [hstart, hflags]
    rw [u32_of_lt (by omega)]
    by_cases hfit : 2 * getUint32 rest + 12 ≤ rest.length
    · rw [if_pos (by omega), if_pos hfit, completePath_front (by omega), Nat.add_assoc,
        bodyUint32_front (by omega)]
      rfl
    · rw [if_neg (by omega), if_neg hfit]
  · rw [if_neg (by omega), if_neg (by omega)]

theorem cbExtStatvfs_eq (hwrap : 4 ≤ rest.length → front.length + 4 + getUint32 rest < 2 ^ 32) :
    cbExtStatvfs server host id (front ++ rest) front.length
      = if 4 + getUint32 rest ≤ rest.length then
          completePath server.home server.pre ((rest.drop 4).take (getUint32 rest)) 0 (getUint32 rest)
            >>= statvfsPath server host id
        else answerStatus server [] id sshFxBadMessage := by
  rw [cbExtStatvfs, u32_of_lt (by omega), length_append]
  by_cases hlen : 4 ≤ rest.length
  · have hlt := hwrap hlen
    rw [if_pos (by omega), bodyUint32_first (by omega), ok_bind]
    simp only
    rw [u32_of_lt (by omega)]
    by_cases hfit : 4 + getUint32 rest ≤ rest.length
    · rw [if_pos (by omega), if_pos hfit, completePath_front (by omega)]
    · rw [if_neg (by omega), if_neg hfit]
  · rw [if_neg (by omega), if_neg (by omega)]

theorem cbExtMapextension_eq
    (hwrap : 5 < rest.length → front.length + 2 * getUint32 rest + 9 < 2 ^ 32) :
    cbExtMapextension server host id (front ++ rest) front.length
      = if 5 < rest.length ∧ 2 * getUint32 rest + 9 ≤ rest.length then
          (findEnabled server.extensionMask ((rest.drop 4).take (getUint32 rest))).elim
            (answerStatus server [] id sshFxOpUnsupported)
            fun ext => mapextensionAction server id ext (rest.getD (4 + getUint32 rest) 0)
        else answerStatus server [] id sshFxBadMessage := by
  rw [cbExtMapextension, u32_of_lt (by omega), length_append]
  by_cases hlen : 5 < rest.length
  · have hlt := hwrap hlen
    have hstart : u32 (front.length + 4) = front.length + 4 := u32_of_lt (by omega)
    have haction : u32 (front.length + 4 + getUint32 rest) = front.length + 4 + getUint32 rest :=
      u32_of_lt (by omega)
    rw [if_pos (by omega), bodyUint32_first (by omega), ok_bind]
    simp only [hstart, haction]
    rw [u32_of_lt (by omega)]
    by_cases hfit : 2 * getUint32 rest + 9 ≤ rest.length
    · rw [if_pos (by omega), if_pos ⟨hlen, hfit⟩, findSftpProtocolExtension_front (by omega),
        ok_bind, Nat.add_assoc, bodyByte_front (by omega)]
      cases findEnabled server.extensionMask ((rest.drop 4).take (getUint32 rest)) with
      | none => rfl
      | some ext => rfl
    · rw [if_neg (by omega), if_neg fun h => hfit h.2]
  · rw [if_neg (by omega), if_neg fun h => hlen h.1]

end

/-! ## The name of the extension -/

theorem sftpOpExtension_eq (h : 4 + getUint32 data < 2 ^ 32) :
    sftpOpExtension server host id data
      = if 0 < getUint32 data ∧ 4 + getUint32 data ≤ data.length then
          (findEnabled server.extensionMask ((data.drop 4).take (getUint32 data))).elim
            (answerStatus server [] id sshFxOpUnsupported)
            fun ext => cbExt ext server host id data (4 + getUint32 data)
        else answerStatus server [] id sshFxBadMessage := by
  unfold sftpOpExtension readSshString
  by_cases hfit : 4 + getUint32 data ≤ data.length
  · simp only [if_pos (show 4 ≤ data.length by omega), u32_of_lt h, if_pos hfit]
    by_cases hname : 0 < getUint32 data
    · rw [if_pos ⟨by omega, hfit⟩, if_pos ⟨hname, hfit⟩, findSftpProtocolExtension_eq hfit, ok_bind]
      cases findEnabled server.extensionMask ((data.drop 4).take (getUint32 data)) with
      | none => rfl
      | some ext => rfl
    · rw [if_neg (by omega), if_neg (by omega)]
  · by_cases hlen : 4 ≤ data.length
    · simp only [if_pos hlen, u32_of_lt h, if_neg hfit]
      rw [if_neg (by omega), if_neg (by omega)]
    · simp only [if_neg hlen]
      rw [if_neg (by omega), if_neg (by omega)]

theorem sftpOpExtension_wrap (h : 2 ^ 32 ≤ 4 + getUint32 data) :
    sftpOpExtension server host id data = answerStatus server [] id sshFxBadMessage := by
  have hlt := getUint32_lt data
  have hwrap : u32 (4 + getUint32 data) < 4 := by
    unfold u32
    omega
  unfold sftpOpExtension readSshString
  simp only
  split
  · split
    · simp only
      rw [if_neg (by omega)]
    · rfl
  · rfl

theorem length_name (ext : SftpExtension) : 0 < ext.name.length ∧ ext.name.length < 60 := by
  cases ext <;> decide

theorem mem_sftpExtensions (ext : SftpExtension) : ext ∈ sftpExtensions := by
  cases ext <;> decide

theorem nodup_names : (sftpExtensions.map name).Nodup := by decide

theorem findEnabled_name (h : ext.enabled mask = true) : findEnabled mask ext.name = some ext := by
  rw [findEnabled, find?_key nodup_names (mem_sftpExtensions ext), if_pos h]

theorem findEnabled_eq_some {name : Bytes} (h : findEnabled mask name = some ext) :
    ext.enabled mask = true ∧ ext.name = name := by
  have hext := find?_some h
  simpa only [Bool.and_eq_true, decide_eq_true_eq] using hext

end Osns
