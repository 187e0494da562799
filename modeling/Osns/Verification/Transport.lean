import Osns.Model.Transport
import Osns.Verification.Message.Reader

/-! What becomes of the payload of a transport message and of the signal. -/

namespace Osns

open List Result

/-- The payload is freed or queued once, and the signal is not left locked. -/
def Disposed (effects : List TransportEffect) : Prop :=
  effects.count .free + effects.count .queue = 1 ∧ effects.count .lock = effects.count .unlock

/-- The next extension can be read: a name that is not all there does not have the length of a name that
is known, and the algorithms are all there. -/
structure ExtensionReadable (rest : Bytes) : Prop where
  name : 4 ≤ rest.length → rest.length < 4 + getUint32 rest →
    ∀ extension : Extension, getUint32 rest ≠ extension.name.length
  algos : getUint32 rest = 15 → Extension.serverSigAlgs.name <+: rest.drop 4 →
    4 ≤ (rest.drop 19).length →
      getUint32 (rest.drop 19) = 0 ∨ 4 + getUint32 (rest.drop 19) ≤ (rest.drop 19).length

/-- What is left behind a string. One that is not all there stays. -/
def behindString (rest : Bytes) : Bytes := rest.drop (readSshString rest).1

def ExtensionsReadable : ℕ → Bytes → Prop
  | 0, _ => True
  | count + 1, rest =>
    ExtensionReadable rest ∧ ExtensionsReadable count (behindString (behindString rest))

/-- The handler of the type has a branch for the state of the connection, and reads no text that is not
there. -/
def TransportSetup.HasBranch (c : TransportSetup) (payload : Bytes) : ℕ → Prop
  | 1 => 9 ≤ payload.length → 9 + getUint32 (payload.drop 5) < 2 ^ 32
  | 5 => c.server → c.disconnect ∨ c.transport
  | 6 => c.disconnect ∨ c.transport
  | 7 => c.disconnect ∨ ExtensionsReadable (getUint32 (payload.drop 1)) (payload.drop 5)
  | 20 => c.disconnect ∨ match c.phase with
    | some .other => False
    | some _ => True
    | none => c.transport
  | 21 | 31 => c.disconnect ∨ c.phase.isSome
  | 80 | 81 | 82 => c.disconnect ∨ c.serviceConnection
  | _ => True

/-! ## Extensions -/

section Extensions

variable {rest : Bytes} {len : ℕ}

/-- No name is compared with a string of another length. -/
theorem findExtensionCode_of_length {name : SshString}
    (h : ∀ extension : Extension, name.len ≠ extension.name.length) :
    findExtensionCode name = .ok none := by
  have hcompare (extension : Extension) : name.compareC extension.name = .ok false :=
    if_neg (h extension)
  simp [findExtensionCode, availableExtensions, findM?, hcompare]

theorem findExtensionCode_null {extension : Extension} (h : len = extension.name.length) :
    findExtensionCode ⟨len, none⟩ = .error .overrun := by
  subst h
  cases extension <;> rfl

theorem findExtensionCode_text {name : SshString} {text : Bytes} (h : name.Holds text) :
    findExtensionCode name = .ok (availableExtensions.find? fun extension => text = extension.name) := by
  have hlist (l : List Extension) :
      l.findM? (fun extension => name.compareC extension.name)
        = .ok (l.find? fun extension => text = extension.name) := by
    induction l with
    | nil => rfl
    | cons extension l ih =>
      rw [findM?, h.compareC, ok_bind, find?_cons]
      cases hname : decide (text = extension.name) with
      | true => rfl
      | false => exact ih
  exact hlist _

theorem find_serverSigAlgs {text : Bytes} :
    availableExtensions.find? (fun extension => text = extension.name) = some .serverSigAlgs ↔
      text = Extension.serverSigAlgs.name := by
  constructor
  · intro h
    have hname := find?_some h
    exact of_decide_eq_true hname
  · rintro rfl
    rfl

/-- The string at the front of a buffer: not all there, longer than any buffer, or complete. -/
theorem readSshString_cases (hrest : rest.length < 2 ^ 32) :
    (rest.length < 4 ∧ (readSshString rest).2 = ⟨0, none⟩) ∨
    (4 ≤ rest.length ∧ rest.length < 4 + getUint32 rest ∧
      ((readSshString rest).2 = ⟨getUint32 rest, none⟩ ∨
        2 ^ 32 ≤ 4 + getUint32 rest ∧
          (readSshString rest).2 = ⟨getUint32 rest, some (rest.drop 4)⟩)) ∨
    4 + getUint32 rest ≤ rest.length ∧ (readSshString rest).1 = 4 + getUint32 rest ∧
      (readSshString rest).2.Holds ((rest.drop 4).take (getUint32 rest)) := by
  have hle := u32_le (4 + getUint32 rest)
  by_cases hfour : 4 ≤ rest.length
  · rw [readSshString, if_pos hfour]
    by_cases hfits : 4 + getUint32 rest ≤ rest.length
    · have hu32 : u32 (4 + getUint32 rest) = 4 + getUint32 rest := u32_of_lt (by omega)
      have htake : ((rest.drop 4).take (getUint32 rest)).length = getUint32 rest := by
        rw [length_take, length_drop]
        omega
      refine .inr (.inr ⟨hfits, ?_⟩)
      simp only [hu32, hfits, if_true, true_and]
      refine ⟨(rest.drop 4).drop (getUint32 rest), ?_⟩
      rw [htake, take_append_drop]
    · refine .inr (.inl ⟨hfour, by omega, ?_⟩)
      by_cases hwrap : u32 (4 + getUint32 rest) ≤ rest.length
      · refine .inr ⟨?_, by rw [if_pos hwrap]⟩
        by_contra hlt
        rw [u32_of_lt (by omega)] at hwrap
        exact hfits hwrap
      · exact .inl (by rw [if_neg hwrap])
  · exact .inl ⟨by omega, by rw [readSshString, if_neg hfour]⟩

theorem text_readSshString (hrest : rest.length < 2 ^ 32) :
    (∃ text, (readSshString rest).2.text = .ok text) ↔
      (4 ≤ rest.length → getUint32 rest = 0 ∨ 4 + getUint32 rest ≤ rest.length) := by
  obtain ⟨hshort, hread⟩ | ⟨hfour, hlong, hread⟩ | ⟨hfits, -, hread⟩ := readSshString_cases hrest
  · rw [hread]
    exact iff_of_true ⟨[], rfl⟩ fun hfour => by omega
  · have hpos : getUint32 rest ≠ 0 := by omega
    refine iff_of_false ?_ fun h => by have := h hfour; omega
    rintro ⟨text, htext⟩
    obtain hread | ⟨-, hread⟩ := hread
    · rw [hread, SshString.text, if_neg hpos] at htext
      cases htext
    · have hload : Buffer.load (rest.drop 4) 0 (getUint32 rest) = none :=
        if_neg (by rw [length_drop]; omega)
      rw [hread, SshString.text, if_neg hpos, SshString.bytes, Option.bind_some, hload] at htext
      cases htext
  · exact iff_of_true ⟨_, hread.text⟩ fun _ => .inr hfits

theorem processExtension_iff {data : SshString} {code : Option Extension} :
    processExtension data code = .ok () ↔
      (code = some .serverSigAlgs → ∃ text, data.text = .ok text) := by
  rcases code with _ | _ | _ | _ | _ | _ <;> simp [processExtension, bind_eq_ok]

theorem take_eq_serverSigAlgs (hrest : 4 + getUint32 rest ≤ rest.length) :
    (rest.drop 4).take (getUint32 rest) = Extension.serverSigAlgs.name ↔
      getUint32 rest = 15 ∧ Extension.serverSigAlgs.name <+: rest.drop 4 := by
  constructor
  · intro h
    have hlen := congrArg length h
    rw [length_take, length_drop, Nat.min_eq_left (by omega)] at hlen
    exact ⟨hlen, h ▸ take_prefix _ _⟩
  · rintro ⟨hlen, hfront⟩
    rw [hlen]
    exact (prefix_iff_eq_take.mp hfront).symm

/-- One round of the loop. -/
theorem extension_iff (hrest : rest.length < 2 ^ 32) :
    (findExtensionCode (readSshString rest).2 >>=
      processExtension (readSshString (rest.drop (readSshString rest).1)).2) = .ok () ↔
      ExtensionReadable rest := by
  have hnot (hlen : getUint32 rest = 15) (hfront : Extension.serverSigAlgs.name <+: rest.drop 4) :
      4 + getUint32 rest ≤ rest.length ∧ 4 ≤ rest.length := by
    have hle : 15 ≤ (rest.drop 4).length := hfront.length_le
    rw [length_drop] at hle
    omega
  obtain ⟨hshort, hread⟩ | ⟨hfour, hlong, hread⟩ | ⟨hfits, hn, hread⟩ := readSshString_cases hrest
  · rw [hread, findExtensionCode_of_length (by intro extension; cases extension <;> decide), ok_bind]
    refine iff_of_true rfl ⟨fun hfour => by omega, fun hlen hfront => ?_⟩
    have := hnot hlen hfront
    omega
  · have hreadable : ExtensionReadable rest ↔
        ∀ extension : Extension, getUint32 rest ≠ extension.name.length := by
      refine ⟨fun h => h.name hfour hlong, fun h => ⟨fun _ _ => h, fun hlen hfront => ?_⟩⟩
      have := hnot hlen hfront
      omega
    rw [hreadable]
    by_cases hlength : ∀ extension : Extension, getUint32 rest ≠ extension.name.length
    · refine iff_of_true ?_ hlength
      rw [findExtensionCode_of_length, ok_bind]
      · rfl
      · obtain hread | ⟨-, hread⟩ := hread <;> rw [hread] <;> exact hlength
    · refine iff_of_false ?_ hlength
      obtain ⟨extension, hlength⟩ := not_forall_not.mp hlength
      obtain hread | ⟨hwrap, -⟩ := hread
      · rw [hread, findExtensionCode_null hlength]
        exact fun herror => by cases herror
      · have hshort : extension.name.length ≤ 24 := by cases extension <;> decide
        omega
  · rw [findExtensionCode_text hread, ok_bind, processExtension_iff, find_serverSigAlgs,
      text_readSshString (by rw [length_drop]; omega), hn, take_eq_serverSigAlgs hfits]
    constructor
    · intro h
      refine ⟨fun _ hlong => absurd hfits (by omega), fun hlen hfront => ?_⟩
      have hdata := h ⟨hlen, hfront⟩
      rwa [hlen] at hdata
    · rintro h ⟨hlen, hfront⟩
      rw [hlen]
      exact h.algos hlen hfront

theorem processExtensions_iff {count : ℕ} (hrest : rest.length < 2 ^ 32) :
    processExtensions count rest = .ok () ↔ ExtensionsReadable count rest := by
  induction count generalizing rest with
  | zero => exact iff_of_true rfl True.intro
  | succ count ih =>
    have hstep := extension_iff hrest
    have hbehind : (behindString (behindString rest)).length < 2 ^ 32 := by
      simp only [behindString, length_drop]
      omega
    rw [ExtensionsReadable, ← hstep, ← ih hbehind, bind_eq_ok]
    simp only [processExtensions, bind_eq_ok]
    constructor
    · rintro ⟨code, hcode, ⟨⟩, hprocess, hrun⟩
      exact ⟨⟨code, hcode, hprocess⟩, hrun⟩
    · rintro ⟨⟨code, hcode, hprocess⟩, hrun⟩
      exact ⟨code, hcode, (), hprocess, hrun⟩

end Extensions

/-! ## Handlers -/

variable {c : TransportSetup} {effects : List TransportEffect} {payload : Bytes}

attribute [local simp] Disposed TransportSetup.HasBranch

theorem disposed_disconnect (hlen : payload.length < 2 ^ 32) :
    Disposed (receiveMsgDisconnect payload) ↔ c.HasBranch payload 1 := by
  unfold receiveMsgDisconnect TransportSetup.HasBranch
  by_cases hnine : 9 ≤ payload.length
  · simp only [hnine, if_true, true_imp_iff]
    by_cases hwrap : 9 + getUint32 (payload.drop 5) < 2 ^ 32
    · rw [if_neg]
      · exact iff_of_true (by simp) hwrap
      · rintro ⟨-, hle, hload⟩
        rw [u32_of_lt hwrap] at hle
        rw [Buffer.load, if_pos (by omega)] at hload
        cases hload
    · rw [if_pos]
      · exact iff_of_false (by simp) hwrap
      · have hlt := getUint32_lt (payload.drop 5)
        refine ⟨by omega, ?_, if_neg (by omega)⟩
        unfold u32
        omega
  · simp [hnine]

theorem disposed_extInfo (hlen : payload.length < 2 ^ 32) :
    Disposed (receiveMsgExtInfo c payload) ↔ c.HasBranch payload 7 := by
  have hrest : (payload.drop 5).length < 2 ^ 32 := by
    rw [length_drop]
    omega
  unfold receiveMsgExtInfo processMsgExtInfo TransportSetup.HasBranch
  cases c.disconnect with
  | true => simp
  | false =>
    rw [← processExtensions_iff hrest]
    cases processExtensions (getUint32 (payload.drop 1)) (payload.drop 5) <;> simp

theorem disposed_locked :
    Disposed (c.locked effects) ↔ c.disconnect ∨ Disposed (.lock :: effects) := by
  cases h : c.disconnect <;> simp [TransportSetup.locked, h]

theorem disposed_if {condition : Bool} (h : ¬ Disposed (.lock :: effects)) :
    Disposed (.lock :: if condition then [.unlock, .queue] else effects) ↔ condition := by
  cases condition with
  | true => simp
  | false => simpa using h

theorem disposed_kexinit : Disposed (receiveMsgKexinit c) ↔ c.HasBranch payload 20 := by
  rw [receiveMsgKexinit, disposed_locked]
  refine or_congr_right ?_
  rcases c.phase with _ | _ | _ | _
  · cases c.transport <;> cases c.setupThread <;> cases c.exchanged <;> simp
  · simp
  · cases c.kexinitS2C <;> simp
  · simp

theorem disposed_queueShared : Disposed (receiveMsgQueueShared c) ↔ c.disconnect ∨ c.phase.isSome := by
  rw [receiveMsgQueueShared, disposed_locked]
  rcases c.phase with _ | _ | _ | _ <;> simp

/-- A handler frees or queues its payload once and balances its locks exactly under `HasBranch`. -/
theorem transportCb_disposed_iff (type : ℕ) (effects : List TransportEffect)
    (hlen : payload.length < 2 ^ 32) (h : transportCb c payload type = some effects) :
    Disposed effects ↔ c.HasBranch payload type := by
  unfold transportCb at h
  split at h <;> cases h
  · exact disposed_disconnect hlen
  · simp [receiveMsgIgnore]
  · unfold receiveMsgUnimplemented
    split <;> simp
  · unfold receiveMsgDebug
    split <;> simp
  · unfold receiveMsgServiceRequest TransportSetup.HasBranch
    cases c.server with
    | true => simpa [disposed_locked, -Disposed] using or_congr_right (disposed_if (by simp))
    | false => simp
  · exact disposed_locked.trans (or_congr_right (disposed_if (by simp)))
  · exact disposed_extInfo hlen
  · exact disposed_kexinit
  · exact disposed_queueShared
  · exact disposed_queueShared
  all_goals exact disposed_locked.trans (or_congr_right (disposed_if (by simp)))

theorem transportCb_disposed_iff_accept : ∃ effects,
    transportCb ⟨false, false, true, false, false, none, false, false⟩ [6] 6 = some effects ∧
      Disposed effects :=
  ⟨_, rfl, (transportCb_disposed_iff 6 _ (show ([6] : Bytes).length < 2 ^ 32 by decide) rfl).mpr (.inr rfl)⟩

/-- A server that has no transport yet leaves a service request and the lock as they are. -/
theorem serviceRequest_not_disposed :
    transportCb ⟨true, false, false, false, false, none, false, false⟩ [5] 5 = some [.lock] ∧
      ¬ Disposed [.lock] :=
  ⟨rfl, by simp⟩

end Osns
