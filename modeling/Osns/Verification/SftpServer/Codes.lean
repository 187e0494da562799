import Osns.Verification.SftpServer.Paths

/-! The codes of the extensions, behind any history of `mapextension` requests. -/

namespace Osns

open List Function Result

/-- The server behind a request: its id, its bytes and the place of its fields. -/
def mapextensionNext (host : Host) (s : SftpServer) (r : UInt32 × Bytes × ℕ) : Option SftpServer :=
  (cbExtMapextension s host r.1 r.2.1 r.2.2).toOption.map Reaction.server

/-- The codes are different and from 210 on, and the callbacks agree with them. -/
structure SftpServer.Coded (s : SftpServer) : Prop where
  range : ∀ ext, s.code ext = 0 ∨ 210 ≤ s.code ext
  inj : ∀ ext ext', s.code ext ≠ 0 → s.code ext' = s.code ext → ext' = ext
  mapped : ∀ c, 210 ≤ c → ∀ ext, s.cb c = .mapped ext ↔ s.code ext = c
  free : ∀ c, 210 ≤ c → (s.cb c = .notsupported ↔ ∀ ext, s.code ext ≠ c)

/-- A request for a code is granted when the extension has none and there is one that is free: it gets
the first one that no extension has. -/
def SftpServer.MapsFirst (s : SftpServer) (host : Host) : Prop :=
  ∀ id front ext tail c, front.length + 2 * ext.name.length + 64 < 2 ^ 32 →
    ext.name.length + 4 ≤ tail.length → ext.enabled s.extensionMask → s.code ext = 0 →
    210 ≤ c → (∀ ext, s.code ext ≠ c) → (∀ d, 210 ≤ d → d < c → ∃ ext, s.code ext = d) →
    ∃ r, cbExtMapextension s host id (front ++ (sshString ext.name ++ 1 :: tail)) front.length = .ok r ∧
      r.replies = [requestMessage 201 id.toNat [c]] ∧ r.server.code ext = c

variable {s : SftpServer} {c : UInt8}

theorem findFreeSftpCode_eq_some : findFreeSftpCode s = some c ↔
    210 ≤ c ∧ s.cb c = .notsupported ∧ ∀ d, 210 ≤ d → d < c → s.cb d ≠ .notsupported := by
  simp only [findFreeSftpCode, find?_map, Option.map_eq_some_iff, find?_range'_eq_some, comp_apply,
    beq_iff_eq, Bool.not_eq_true', beq_eq_false_iff_ne, mem_range'_1]
  constructor
  · rintro ⟨i, ⟨hcb, ⟨hi, hlt⟩, hfirst⟩, rfl⟩
    have hto : (UInt8.ofNat i).toNat = i := UInt8.toNat_ofNat_of_lt' hlt
    refine ⟨hi.trans_eq hto.symm, hcb, fun d hd hlt => ?_⟩
    have hne := hfirst d.toNat hd (hto ▸ hlt)
    rwa [UInt8.ofNat_toNat] at hne
  · rintro ⟨hc, hcb, hfirst⟩
    refine ⟨c.toNat, ⟨by rwa [UInt8.ofNat_toNat], ⟨hc, c.toNat_lt⟩, fun j hj hlt => ?_⟩, UInt8.ofNat_toNat⟩
    have hto : (UInt8.ofNat j).toNat = j := UInt8.toNat_ofNat_of_lt' (hlt.trans c.toNat_lt)
    exact hfirst _ (hj.trans_eq hto.symm) (hto.trans_lt hlt)

theorem coded_initSftpSubsystem (unique : UInt32) (home : Bytes) (mapping : IdMapping) :
    (initSftpSubsystem unique home mapping).Coded := by
  have hcb : ∀ c, 210 ≤ c → initCb c = .notsupported ∧ 0 ≠ c := by
    intro c hc
    unfold initCb
    split
    all_goals first | exact absurd hc (by decide) | exact ⟨rfl, by rintro rfl; cases hc⟩
  refine ⟨fun _ => .inl rfl, fun _ _ hext => absurd rfl hext, fun c hc ext => ?_, fun c hc => ?_⟩
  · exact iff_of_false (by simp [initSftpSubsystem, hcb c hc]) (hcb c hc).2
  · exact iff_of_true (hcb c hc).1 fun _ => (hcb c hc).2

theorem SftpServer.Coded.recodes (h : s.Coded) {cb : UInt8 → SftpCb} {code : SftpExtension → UInt8}
    (hcode : s.Recodes cb code) : Coded { s with cb, code } := by
  cases hcode with
  | none => exact h
  | @map ext c hext hfree =>
    obtain ⟨hc, hcb, -⟩ := findFreeSftpCode_eq_some.mp hfree
    have hnone := (h.free c hc).mp hcb
    refine ⟨fun ext' => ?_, fun ext₁ ext₂ => ?_, fun d hd ext' => ?_, fun d hd => ?_⟩
    · grind [h.range ext']
    · grind [h.inj ext₁ ext₂]
    · grind [h.mapped d hd ext']
    · simp only [update_apply]
      grind [h.free d hd]
  | @unmap ext hext =>
    refine ⟨fun ext' => ?_, fun ext₁ ext₂ => ?_, fun d hd ext' => ?_, fun d hd => ?_⟩
    · grind [h.range ext']
    · grind [h.inj ext₁ ext₂]
    · grind [h.mapped d hd ext', h.inj ext ext' hext]
    · simp only [update_apply]
      grind [h.free d hd, h.inj ext]

theorem SftpServer.Coded.mapsFirst (h : s.Coded) (host : Host) : s.MapsFirst host := by
  intro id front ext tail c hfront htail henabled hext hc hnone hfirst
  have hname := length_name ext
  have hget : getUint32 (sshString ext.name ++ 1 :: tail) = ext.name.length :=
    getUint32_sshString (by omega)
  have haction : (sshString ext.name ++ 1 :: tail).getD (4 + ext.name.length) 0 = 1 := by
    rw [← length_sshString]
    simp
  have hreply : replySftpExtension id [c] = .ok (requestMessage 201 id.toNat [c]) :=
    replyStores_head (Nat.le_refl 10) (by simp [u32])
  have hfree : findFreeSftpCode s = some c := by
    refine findFreeSftpCode_eq_some.mpr ⟨hc, (h.free c hc).mpr hnone, fun d hd hlt hcb => ?_⟩
    obtain ⟨ext, hext⟩ := hfirst d hd hlt
    exact (h.free d hd).mp hcb ext hext
  rw [cbExtMapextension_eq (by omega) fun _ => by omega, hget, drop_four_sshString, take_left,
    findEnabled_name henabled, if_pos (by simp; omega), Option.elim_some, haction, mapextensionAction,
    if_pos rfl, if_pos hext, hfree]
  simp only [answer, hreply, ok_bind]
  exact ⟨_, rfl, rfl, update_self ..⟩

/-- Behind any history the codes and the callbacks agree, and a code can be given that is free. -/
theorem mapextension_codes (unique : UInt32) (home : Bytes) (mapping : IdMapping) (host : Host)
    (requests : List (UInt32 × Bytes × ℕ)) (hrun : Transition.run (mapextensionNext host)
      (initSftpSubsystem unique home mapping) requests = some s) :
    s.Coded ∧ s.MapsFirst host := by
  have h : s.Coded := by
    refine Transition.run_preserves (fun s r s' hs hnext => ?_)
      (coded_initSftpSubsystem unique home mapping) hrun
    obtain ⟨reaction, hreaction, rfl⟩ := Option.map_eq_some_iff.mp hnext
    exact ensures_mapextension (Q := fun r => r.server.Coded) (fun _ _ _ => hs.recodes) host reaction
      (toOption_eq_some.mp hreaction)
  exact ⟨h, h.mapsFirst host⟩

def mapextensionRequest (ext : SftpExtension) (action : UInt8) : UInt32 × Bytes × ℕ :=
  (1, sshString ext.name ++ action :: replicate (ext.name.length + 4) 0, 0)

/-- A code that has been released is given to another extension. -/
theorem mapextension_again : ∃ s, Transition.run (mapextensionNext failingHost)
    (initSftpSubsystem 0 [] { uid := 0, gid := 0 }) [mapextensionRequest .fsync 1,
      mapextensionRequest .fsync 0, mapextensionRequest .statvfs 1] = some s ∧
    s.code .statvfs = 210 ∧ s.Coded :=
  ⟨_, rfl, by decide, (mapextension_codes 0 [] _ failingHost [mapextensionRequest .fsync 1,
    mapextensionRequest .fsync 0, mapextensionRequest .statvfs 1] rfl).1⟩

end Osns
