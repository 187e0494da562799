import Mathlib.Data.List.Nodup
import Mathlib.Data.Nat.Bitwise
import Mathlib.Tactic.IntervalCases
import Osns.Verification.Sftp.Attributes
import Osns.Verification.SftpServer.Attributes

/-! Attributes that the server writes and the client reads: which values come through. -/

namespace Osns

open List Result SystemStat

/-! ## What is to come through -/

def SftpValid.word (valid : SftpValid) : ℕ := (valid.mask ||| valid.flags).toNat

section

variable (version : SftpVersion)

def SftpValid.Writable (valid : SftpValid) : Prop :=
  valid.restrict (wValid version) = valid

instance (version : SftpVersion) (valid : SftpValid) : Decidable (valid.Writable version) :=
  inferInstanceAs (Decidable (_ = _))

/-- The bytes that `write_attributes_generic` stores in a buffer of this size. -/
def writtenAttributes (server : IdMapping) (valid : SftpValid) (size : ℕ) (stat : SystemStat) :
    Except ServerFault Bytes := do
  let out ← writeAttributes version server stat (stackBuffer size)
    (parseAttributes version (wValid version) valid)
  return out.buf.take out.pos

/-- The record that has been read has the value of an attribute. In version 3 the type is a part of the
permissions, and the times are in seconds. -/
def Attr.Agrees (stat stat' : StatRecord) : Attr → Prop
  | .type => stat'.type = stat.type
  | .size => stat'.size = stat.size
  | .uidgid | .ownergroup => stat'.uid = stat.uid ∧ stat'.gid = stat.gid
  | .permissions => stat'.perm = stat.perm ∧ (version = .v03 → stat'.type = stat.type)
  | .acmodtime => stat'.atime = stat.atime ∧ stat'.mtime = stat.mtime
  | .accesstime => stat'.atime = stat.atime
  | .nsecAtime => stat'.atimeNsec = stat.atimeNsec
  | .createtime => stat'.btime = stat.btime
  | .nsecBtime => stat'.btimeNsec = stat.btimeNsec
  | .modifytime => stat'.mtime = stat.mtime
  | .nsecMtime => stat'.mtimeNsec = stat.mtimeNsec
  | .changetime => stat'.ctime = stat.ctime
  | .nsecCtime => stat'.ctimeNsec = stat.ctimeNsec
  | .allocationSize | .acl | .bits | .textHint | .mimeType | .linkCount | .untranslatedName
  | .extended => True

/-- What the server has written is read by the client up to its end, with the values of the record. -/
def AttrsRoundTrip (server : IdMapping) (client : NetMapping) (valid : SftpValid) (size : ℕ)
    (stat : StatRecord) : Prop :=
  ∃ bytes, writtenAttributes version server valid size stat.toSystemStat = .ok bytes ∧
    ∀ (flags : UInt32) (start : StatRecord) (tail : Bytes), ∃ stat',
      readAttributesGeneric version client valid.word ⟨⟨flags, bytes ++ tail⟩, start⟩
        = .ok ⟨⟨flags, tail⟩, stat'⟩ ∧
      ∀ attr ∈ parseAttributes version (wValid version) valid, attr.Agrees version stat stat'

def sftpTypes : List ℕ :=
  [0, 0o040000, 0o100000, 0o120000]
    ++ if version = .v03 ∨ version = .v04 then [] else [0o010000, 0o020000, 0o060000, 0o140000]

/-- The attribute comes through with the value that it has in the record. -/
def Attr.Kept (server : IdMapping) (client : NetMapping) (stat : SystemStat) : Attr → Prop
  | .type => stat.type ∈ sftpTypes version
  | .size => True
  | .uidgid => client.users.p2lById (l2pById server.uid stat.uid) = stat.uid ∧
      client.groups.p2lById (l2pById server.gid stat.gid) = stat.gid
  | .permissions => stat.mode &&& 0o7000 = 0
  | .acmodtime => (0 ≤ stat.atime ∧ stat.atime < 2 ^ 32) ∧ 0 ≤ stat.mtime ∧ stat.mtime < 2 ^ 32
  | _ => False

instance (version : SftpVersion) (server : IdMapping) (client : NetMapping) (stat : SystemStat) :
    DecidablePred (Attr.Kept version server client stat)
  | .type => inferInstanceAs (Decidable (_ ∈ _))
  | .size => inferInstanceAs (Decidable True)
  | .uidgid => inferInstanceAs (Decidable (_ ∧ _))
  | .permissions => inferInstanceAs (Decidable (_ = _))
  | .acmodtime => inferInstanceAs (Decidable ((_ ∧ _) ∧ _ ∧ _))
  | .allocationSize | .ownergroup | .accesstime | .nsecAtime | .createtime | .nsecBtime
  | .modifytime | .nsecMtime | .changetime | .nsecCtime | .acl | .bits | .textHint | .mimeType
  | .linkCount | .untranslatedName | .extended => inferInstanceAs (Decidable False)

/-! ## Bits of a mode -/

end

section

variable (stat : StatRecord) (n : ℕ)

@[simp] theorem type_setType : (stat.setType n).type = n &&& 0o170000 := by
  simp [StatRecord.setType, type, perm, Nat.and_or_distrib_right, Nat.and_assoc]

@[simp] theorem perm_setType : (stat.setType n).perm = stat.perm := by
  simp [StatRecord.setType, perm, Nat.and_or_distrib_right, Nat.and_assoc]

@[simp] theorem type_setMode : (stat.setMode n).type = stat.type := by
  simp [StatRecord.setMode, type, Nat.and_or_distrib_right, Nat.and_assoc]

@[simp] theorem perm_setMode : (stat.setMode n).perm = n &&& 0o7777 := by
  simp [StatRecord.setMode, type, perm, Nat.and_or_distrib_right, Nat.and_assoc]

end

theorem perm_eq_iff (mode : ℕ) : mode &&& 0o777 = mode &&& 0o7777 ↔ mode &&& 0o7000 = 0 := by
  constructor
  · intro h
    have hand : mode &&& 0o777 &&& 0o7000 = mode &&& 0o7777 &&& 0o7000 := by rw [h]
    simp only [Nat.and_assoc] at hand
    simpa using hand.symm
  · intro h
    rw [show (0o7777 : ℕ) = 0o777 ||| 0o7000 from rfl, Nat.and_or_distrib_left, h, Nat.or_zero]

theorem type_eq_shiftLeft (stat : SystemStat) : ∃ k < 16, stat.type = k <<< 12 := by
  refine ⟨stat.mode >>> 12 % 2 ^ 4, Nat.mod_lt _ (by decide), ?_⟩
  apply Nat.eq_of_testBit_eq
  intro i
  rw [type, show (0o170000 : ℕ) = (2 ^ 4 - 1) <<< 12 from rfl]
  simp only [Nat.testBit_and, Nat.testBit_shiftLeft, Nat.testBit_mod_two_pow,
    Nat.testBit_two_pow_sub_one, Nat.testBit_shiftRight]
  by_cases h : 12 ≤ i
  · rw [Nat.add_sub_cancel' h, Bool.and_comm, Bool.and_assoc]
  · simp [h]

/-! ## The rows -/

theorem uint32_or_and (a b c : UInt32) : (a ||| b) &&& c = a &&& c ||| b &&& c := by
  apply UInt32.toNat_inj.mp
  simp [Nat.and_or_distrib_right]

variable {version : SftpVersion} {valid : SftpValid} {attr : Attr} {attrs : List Attr}

theorem readRows_word (h : valid.Writable version) :
    readRows version valid.word = parseAttributes version (wValid version) valid := by
  have hmask : (wValid version).mask &&& (~~~subsecondTimes &&& (rValid version).mask)
      = (wValid version).mask := by cases version <;> decide
  have hmask' : (wValid version).mask &&& (subsecondTimes &&& (rValid version).flags) = 0 := by
    cases version <;> decide
  have hflags : (wValid version).flags &&& (~~~subsecondTimes &&& (rValid version).mask) = 0 := by
    cases version <;> decide
  have hflags' : (wValid version).flags &&& (subsecondTimes &&& (rValid version).flags)
      = (wValid version).flags := by cases version <;> decide
  have hread : (splitValid valid.word).restrict (rValid version) = valid.restrict (wValid version) := by
    have hword : valid.word = (valid.restrict (wValid version)).word := by rw [h]
    rw [hword]
    simp [splitValid, SftpValid.word, SftpValid.restrict, uint32_or_and, UInt32.and_assoc, hmask,
      hmask', hflags, hflags']
  simp only [readRows, parseAttributes, hread]

def plainRows : SftpVersion → List Attr
  | .v03 => [.size, .uidgid, .permissions, .acmodtime]
  | .v04 | .v05 | .v06 => [.type, .size, .permissions]

theorem plain_cases (h : attr ∈ plainRows version) :
    attr = .type ∨ attr = .size ∨ attr = .uidgid ∨ attr = .permissions ∨ attr = .acmodtime := by
  revert h
  cases version <;> simp [plainRows] <;> tauto

section

variable {supported : SftpValid} {bits bit : UInt32} {time nsec : Attr}

theorem attrIf_unsupported (h : supported.mask &&& bit = 0) :
    attrIf (valid.restrict supported).mask bit attrs = [] := by
  have hand : (valid.restrict supported).mask &&& bit = 0 := by
    rw [SftpValid.restrict, UInt32.and_assoc, h, UInt32.and_zero]
  simp [attrIf, hasBits, hand]

theorem timeIf_unsupported (h : supported.mask &&& bit = 0) :
    timeIf (valid.restrict supported) bit time nsec = [] :=
  attrIf_unsupported h

theorem attrIf_sublist (bits bit : UInt32) (attrs : List Attr) :
    Sublist (attrIf bits bit attrs) attrs := by
  unfold attrIf
  split
  · exact Sublist.refl _
  · exact nil_sublist _

theorem eq_of_mem_attrIf (h : attr ∈ attrIf bits bit [time]) : attr = time :=
  mem_singleton.mp ((attrIf_sublist _ _ _).subset h)

theorem time_mem_timeIf (h : attr ∈ timeIf valid bit time nsec) : time ∈ timeIf valid bit time nsec := by
  unfold timeIf attrIf at h ⊢
  split
  · exact mem_cons_self
  case isFalse hbit =>
    rw [if_neg hbit] at h
    cases h

end

theorem mem_rows (h : attr ∈ parseAttributes version (wValid version) valid) :
    attr ∈ plainRows version ∨ attr = .ownergroup ∨
      ∃ time ∈ parseAttributes version (wValid version) valid, time.isTime = true := by
  cases version with
  | v03 =>
    simp (disch := decide) only [parseAttributes, parseAttributesV03, attrIf_unsupported,
      append_nil, mem_append] at h
    rcases h with ((h | h) | h) | h
    all_goals
      rw [eq_of_mem_attrIf h]
      exact .inl (by decide)
  | v04 | v05 =>
    simp (disch := decide) only [parseAttributes, parseAttributesV04, parseAttributesV05,
      attrIf_unsupported, timeIf_unsupported, append_nil, mem_append, mem_cons] at h ⊢
    rcases h with rfl | ((((h | h) | h) | h) | h)
    · exact .inl (by decide)
    · exact .inl (eq_of_mem_attrIf h ▸ by decide)
    · exact .inr (.inl (eq_of_mem_attrIf h))
    · exact .inl (eq_of_mem_attrIf h ▸ by decide)
    · exact .inr (.inr ⟨_, .inr (.inl (.inr (time_mem_timeIf h))), rfl⟩)
    · exact .inr (.inr ⟨_, .inr (.inr (time_mem_timeIf h)), rfl⟩)
  | v06 =>
    simp (disch := decide) only [parseAttributes, parseAttributesV06, attrIf_unsupported,
      timeIf_unsupported, append_nil, mem_append, mem_cons] at h ⊢
    rcases h with rfl | (((((h | h) | h) | h) | h) | h)
    · exact .inl (by decide)
    · exact .inl (eq_of_mem_attrIf h ▸ by decide)
    · exact .inr (.inl (eq_of_mem_attrIf h))
    · exact .inl (eq_of_mem_attrIf h ▸ by decide)
    · exact .inr (.inr ⟨_, .inr (.inl (.inl (.inr (time_mem_timeIf h)))), rfl⟩)
    · exact .inr (.inr ⟨_, .inr (.inl (.inr (time_mem_timeIf h))), rfl⟩)
    · exact .inr (.inr ⟨_, .inr (.inr (time_mem_timeIf h)), rfl⟩)

theorem nodup_parseAttributes (version : SftpVersion) (supported valid : SftpValid) :
    (parseAttributes version supported valid).Nodup := by
  have hfull : Sublist (parseAttributes version supported valid)
      (parseAttributes version allValid allValid) := by
    cases version with
    | v03 =>
      simp only [parseAttributes, parseAttributesV03]
      repeat' apply Sublist.append
      all_goals exact attrIf_sublist _ _ _
    | v04 | v05 | v06 =>
      refine Sublist.cons_cons _ ?_
      repeat' apply Sublist.append
      all_goals first | exact attrIf_sublist _ _ _ | 
          exact (attrIf_sublist _ _ _).trans ((attrIf_sublist _ _ _).cons_cons _)
  exact hfull.nodup (by cases version <;> decide)

/-! ## Writing -/

/-- A writer that stores these bytes behind what is there, when there is room for them. -/
def Stores (write : Output.State UInt8 → Except ServerFault (Output.State UInt8)) (bytes : Bytes) :
    Prop :=
  ∀ stored free : Bytes, bytes.length ≤ free.length → stored.length + free.length < 2 ^ 32 →
    write ⟨stored ++ free, stored.length⟩
      = .ok ⟨stored ++ bytes ++ free.drop bytes.length, (stored ++ bytes).length⟩

section

variable {write write' : Output.State UInt8 → Except ServerFault (Output.State UInt8)}
  {bytes bytes' : Bytes} {stat : SystemStat} {server : IdMapping}

theorem Fills.stores (h : Fills write bytes) : Stores write bytes := by
  obtain ⟨pieces, rfl, hpieces⟩ := h
  intro stored free hfree hlimit
  rw [length_append]
  exact (hpieces _ _).mpr (Output.putAll_append hfree (by omega))

theorem Stores.written {size : ℕ} (h : Stores write bytes) (hsize : size < 2 ^ 32)
    (hroom : bytes.length ≤ size) :
    (write (stackBuffer size) >>= fun out => pure (out.buf.take out.pos)) = .ok bytes := by
  have hwrite : write (stackBuffer size) = _ :=
    h [] (replicate size 0) (by simpa using hroom) (by simpa using hsize)
  rw [hwrite, ok_bind]
  simp

theorem fills_writeAttr (h : attr ∈ plainRows version) :
    Fills (fun out => writeAttr version server stat out attr)
      (encodedAttr version [] [] (stat.mapped server) attr) := by
  rcases plain_cases h with rfl | rfl | rfl | rfl | rfl
  · exact fills_copyBufferData _
  · exact fills_copyBufferData _
  · exact (fills_copyBufferData _).bind (fills_copyBufferData _)
  · exact fills_copyBufferData _
  · exact (fills_copyBufferData _).bind (fills_copyBufferData _)

theorem fills_writeAttributes (h : ∀ attr ∈ attrs, attr ∈ plainRows version) :
    Fills (fun out => writeAttributes version server stat out attrs)
      (attrs.flatMap (encodedAttr version [] [] (stat.mapped server))) := by
  induction attrs with
  | nil => exact fills_nothing
  | cons attr attrs ih =>
    rw [flatMap_cons]
    exact (fills_writeAttr (h attr mem_cons_self)).bind (ih fun a ha => h a (mem_cons_of_mem _ ha))

theorem length_encodedAttr (h : attr ∈ plainRows version) :
    (encodedAttr version [] [] stat attr).length = attr.maxlength version := by
  revert h
  cases version <;> simp only [plainRows, mem_cons, not_mem_nil, or_false] <;> rintro h
  all_goals rcases h with rfl | rfl | rfl | rfl <;> rfl

end

/-! ## Reading -/

section

variable (version) (client : NetMapping) (sent : SystemStat)

def Attr.load (stat : StatRecord) : Attr → StatRecord
  | .type => stat.setType (typeMapping version (typeReverse version sent.type))
  | .size => { stat with size := sent.size }
  | .uidgid =>
    { stat with
      uid := client.users.p2lById sent.uid
      gid := client.groups.p2lById sent.gid }
  | .permissions =>
    (if version = .v03 then stat.setType sent.type else stat).setMode (sent.mode &&& 0o777)
  | .acmodtime =>
    { stat with
      atime := sent.atime % 2 ^ 32
      atimeNsec := 0
      mtime := sent.mtime % 2 ^ 32
      mtimeNsec := 0 }
  | _ => stat

end

variable {client : NetMapping} {sent : SystemStat} {flags : UInt32} {start : StatRecord} {tail : Bytes}

theorem readFixed_append {n : ℕ} {bytes : Bytes} (set : StatRecord → Bytes → StatRecord)
    (h : bytes.length = n) :
    AttrReading.readFixed n set ⟨⟨flags, bytes ++ tail⟩, start⟩
      = .ok ⟨⟨flags, tail⟩, set start bytes⟩ := by
  rw [AttrReading.readFixed, attrReadBytes_of_le (by rw [length_append]; omega), ok_bind,
    take_left' h, drop_left' h]
  rfl

theorem cast_getUint32_storeInt (value : ℤ) :
    ((getUint32 (storeUint32 (value % 2 ^ 32).toNat) : ℕ) : ℤ) = value % 2 ^ 32 := by
  rw [getUint32_storeUint32, u32_of_lt (by omega)]
  omega

theorem getUint32_permissions (sent : SystemStat) (type : ℕ) (htype : type = 0 ∨ type = sent.type) :
    getUint32 (storeUint32 (sent.mode &&& 0o777 ||| type)) = sent.mode &&& 0o777 ||| type ∧
      (sent.mode &&& 0o777 ||| type) &&& 0o777 = sent.mode &&& 0o777 ∧
      (sent.mode &&& 0o777 ||| type) &&& 0o170000 = type := by
  have hlt : sent.mode &&& 0o777 ||| type < 2 ^ 32 := by
    apply Nat.or_lt_two_pow
    · exact Nat.lt_of_le_of_lt Nat.and_le_right (by decide)
    · rcases htype with rfl | rfl
      · decide
      · exact Nat.lt_of_le_of_lt Nat.and_le_right (by decide)
  refine ⟨by rw [getUint32_storeUint32, u32_of_lt hlt], ?_, ?_⟩
  all_goals
    rcases htype with rfl | rfl <;>
      simp [type, Nat.and_or_distrib_right, Nat.and_assoc]

theorem readStatAttr_encoded (h : attr ∈ plainRows version) :
    readStatAttr version client ⟨⟨flags, encodedAttr version [] [] sent attr ++ tail⟩, start⟩ attr
      = .ok ⟨⟨flags, tail⟩, attr.load version client sent start⟩ := by
  rcases plain_cases h with rfl | rfl | rfl | rfl | rfl
  · rw [readStatAttr, encodedAttr, readFixed_append _ length_singleton]
    rfl
  · rw [readStatAttr, encodedAttr, readFixed_append _ (length_storeUint64 _), getUint64_storeUint64,
      Nat.mod_eq_of_lt sent.size.toNat_lt, UInt64.ofNat_toNat]
    rfl
  · rw [readStatAttr, encodedAttr, append_assoc, readFixed_append _ (length_storeUint32 _),
      ok_bind, readFixed_append _ (length_storeUint32 _)]
    simp only [getUint32_storeUint32, u32_of_lt (UInt32.toNat_lt _), UInt32.ofNat_toNat]
    rfl
  · rw [readStatAttr, encodedAttr, readFixed_append _ (length_storeUint32 _)]
    by_cases hversion : version = .v03
    · obtain ⟨hget, hperm, htype⟩ := getUint32_permissions sent sent.type (.inr rfl)
      simp only [if_pos hversion, hget, hperm, htype, Attr.load]
    · obtain ⟨hget, hperm, -⟩ := getUint32_permissions sent 0 (.inl rfl)
      simp only [if_neg hversion, hget, hperm, Attr.load]
  · rw [readStatAttr, encodedAttr, append_assoc, readFixed_append _ (length_storeUint32 _),
      ok_bind, readFixed_append _ (length_storeUint32 _)]
    simp only [cast_getUint32_storeInt]
    rfl

theorem readStatAttrs_encoded (h : ∀ attr ∈ attrs, attr ∈ plainRows version) :
    readStatAttrs version client
        ⟨⟨flags, attrs.flatMap (encodedAttr version [] [] sent) ++ tail⟩, start⟩ attrs
      = .ok ⟨⟨flags, tail⟩, attrs.foldl (Attr.load version client sent) start⟩ := by
  induction attrs generalizing start with
  | nil => rfl
  | cons attr attrs ih =>
    rw [flatMap_cons, append_assoc, readStatAttrs,
      readStatAttr_encoded (h attr mem_cons_self), ok_bind]
    exact ih fun a ha => h a (mem_cons_of_mem _ ha)

/-! ## Values -/

variable {server : IdMapping} {stat : StatRecord}

theorem typeMapping_and (version : SftpVersion) (code : UInt8) :
    typeMapping version code &&& 0o170000 = typeMapping version code := by
  unfold typeMapping
  split <;> first | rfl | (dsimp only; split <;> rfl)

theorem type_and (stat : SystemStat) : stat.type &&& 0o170000 = stat.type := by
  simp [type]

theorem agrees_load_iff (h : attr ∈ plainRows version) :
    attr.Agrees version stat (attr.load version client (stat.toSystemStat.mapped server) start) ↔
      attr.Kept version server client stat.toSystemStat := by
  rcases plain_cases h with rfl | rfl | rfl | rfl | rfl
  · rw [Attr.Agrees, Attr.load, type_setType, typeMapping_and]
    obtain ⟨k, hk, heq⟩ := type_eq_shiftLeft stat.toSystemStat
    change typeMapping version (typeReverse version stat.type) = stat.type ↔ stat.type ∈ _
    rw [heq]
    cases version <;> interval_cases k <;> decide
  · exact iff_of_true rfl trivial
  · exact Iff.rfl
  · rw [Attr.Agrees, Attr.load, Attr.Kept, perm_setMode, type_setMode, Nat.and_assoc, ← perm_eq_iff]
    refine and_iff_left_of_imp fun _ hversion => ?_
    rw [if_pos hversion, type_setType]
    exact type_and stat.toSystemStat
  · simp only [Attr.Agrees, Attr.load, Attr.Kept, mapped]
    omega

theorem agrees_load_of_ne {attr' : Attr} (h : attr ∈ plainRows version)
    (h' : attr' ∈ plainRows version) (hne : attr' ≠ attr) :
    attr.Agrees version stat (attr'.load version client sent start) ↔
      attr.Agrees version stat start := by
  cases version with
  | v03 =>
    simp only [plainRows, mem_cons, not_mem_nil, or_false] at h h'
    rcases h with rfl | rfl | rfl | rfl <;> rcases h' with rfl | rfl | rfl | rfl <;>
      first | exact absurd rfl hne | exact Iff.rfl
  | v04 | v05 | v06 =>
    simp only [plainRows, mem_cons, not_mem_nil, or_false] at h h'
    rcases h with rfl | rfl | rfl <;> rcases h' with rfl | rfl | rfl <;>
      first | exact absurd rfl hne | exact Iff.rfl | simp [Attr.Agrees, Attr.load]

theorem agrees_foldl_of_not_mem (h : attr ∈ plainRows version)
    (hplain : ∀ a ∈ attrs, a ∈ plainRows version) (hnot : attr ∉ attrs) :
    attr.Agrees version stat (attrs.foldl (Attr.load version client sent) start) ↔
      attr.Agrees version stat start := by
  induction attrs generalizing start with
  | nil => exact Iff.rfl
  | cons a attrs ih =>
    rw [mem_cons, not_or] at hnot
    rw [foldl_cons, ih (fun b hb => hplain b (mem_cons_of_mem _ hb)) hnot.2]
    exact agrees_load_of_ne h (hplain a mem_cons_self) (Ne.symm hnot.1)

theorem agrees_foldl_iff (hnodup : attrs.Nodup) (hplain : ∀ a ∈ attrs, a ∈ plainRows version)
    (hmem : attr ∈ attrs) :
    attr.Agrees version stat
        (attrs.foldl (Attr.load version client (stat.toSystemStat.mapped server)) start) ↔
      attr.Kept version server client stat.toSystemStat := by
  induction attrs generalizing start with
  | nil => cases hmem
  | cons first attrs ih =>
    have hrest : ∀ a ∈ attrs, a ∈ plainRows version := fun a ha => hplain a (mem_cons_of_mem _ ha)
    rw [foldl_cons]
    rcases mem_cons.mp hmem with rfl | hmem
    · have hfirst := hplain attr mem_cons_self
      rw [agrees_foldl_of_not_mem hfirst hrest (nodup_cons.mp hnodup).1]
      exact agrees_load_iff hfirst
    · exact ih (nodup_cons.mp hnodup).2 hrest hmem

/-! ## Which rows come through -/

variable {stat : SystemStat}

theorem rows_plain (htimeless : ∀ a ∈ parseAttributes version (wValid version) valid, a.isTime = false)
    (howner : .ownergroup ∉ parseAttributes version (wValid version) valid) :
    ∀ a ∈ parseAttributes version (wValid version) valid, a ∈ plainRows version := by
  intro a ha
  rcases mem_rows ha with hplain | rfl | ⟨time, hmem, htime⟩
  · exact hplain
  · exact absurd ha howner
  · rw [htimeless time hmem] at htime
    cases htime

theorem rows_plain_of_kept
    (h : ∀ a ∈ parseAttributes version (wValid version) valid, a.Kept version server client stat) :
    ∀ a ∈ parseAttributes version (wValid version) valid, a ∈ plainRows version := by
  refine rows_plain (fun a ha => ?_) fun howner => h _ howner
  cases a with
  | accesstime | createtime | modifytime | changetime => exact (h _ ha).elim
  | _ => rfl

theorem length_rows (stat : SystemStat) (h : ∀ a ∈ attrs, a ∈ plainRows version) :
    (attrs.flatMap (encodedAttr version [] [] stat)).length
      = (attrs.map (Attr.maxlength version)).sum := by
  rw [length_flatMap]
  congr 1
  exact map_congr_left fun a ha => length_encodedAttr (h a ha)

theorem writtenAttributes_eq {size : ℕ}
    (h : ∀ a ∈ parseAttributes version (wValid version) valid, a ∈ plainRows version)
    (hroom : getSizeBufferWriteAttributes version valid ≤ size) (hsize : size < 2 ^ 32) :
    writtenAttributes version server valid size stat
      = .ok ((parseAttributes version (wValid version) valid).flatMap
          (encodedAttr version [] [] (stat.mapped server))) := by
  refine (fills_writeAttributes h).stores.written hsize ?_
  rw [length_rows _ h]
  exact hroom

/-- Attributes make the round trip when each of them is kept: owner and group as ids that are mapped to
themselves, permissions without the bits above the lower nine, a type that has a code, and times in
version 3 only, as seconds of 32 bits. -/
theorem attrsRoundTrip_iff (version : SftpVersion) (server : IdMapping) (client : NetMapping)
    (valid : SftpValid) (size : ℕ) (stat : StatRecord) (hvalid : valid.Writable version)
    (hroom : getSizeBufferWriteAttributes version valid ≤ size) (hsize : size < 2 ^ 32) :
    AttrsRoundTrip version server client valid size stat ↔
      ∀ attr ∈ parseAttributes version (wValid version) valid,
        attr.Kept version server client stat.toSystemStat := by
  have hrows : ∀ r, readAttributesGeneric version client valid.word r
      = readStatAttrs version client r (parseAttributes version (wValid version) valid) := by
    intro r
    rw [← readRows_word hvalid, readRows, readAttributesGeneric]
  have hnodup := nodup_parseAttributes version (wValid version) valid
  constructor
  · rintro ⟨bytes, hwritten, hread⟩ attr hattr
    obtain ⟨stat', hread, hagrees⟩ := hread 0 stat []
    rw [hrows] at hread
    have howner : .ownergroup ∉ parseAttributes version (wValid version) valid := by
      obtain ⟨out, hout, -⟩ := bind_eq_ok.mp hwritten
      exact (fills_of_writeAttributes (by simpa [stackBuffer] using hsize) hout).2.2
    have hplain := rows_plain (timeless_of_readStatAttrs hread) howner
    rw [writtenAttributes_eq hplain hroom hsize] at hwritten
    cases hwritten
    rw [readStatAttrs_encoded hplain] at hread
    cases hread
    exact (agrees_foldl_iff hnodup hplain hattr).mp (hagrees attr hattr)
  · intro hkept
    have hplain := rows_plain_of_kept hkept
    refine ⟨_, writtenAttributes_eq hplain hroom hsize, ?_⟩
    intro flags start tail
    refine ⟨_, (hrows _).trans (readStatAttrs_encoded hplain), ?_⟩
    intro attr hattr
    exact (agrees_foldl_iff hnodup hplain hattr).mpr (hkept attr hattr)

/-- The attributes of a file of root in version 3, all of them. -/
theorem attrsRoundTrip_empty :
    AttrsRoundTrip .v03 { uid := 0, gid := 0 } unknownMapping { mask := 0xf, flags := 0 } 28
      { emptyRecord with mode := 0o100644 } :=
  (attrsRoundTrip_iff _ _ _ _ _ _ (by decide) (by decide) (by decide)).mpr (by decide)

/-- A file that is run as its owner loses the bit for that. -/
theorem setuid_lost :
    SftpValid.Writable .v03 { mask := 0x4, flags := 0 } ∧
    writtenAttributes .v03 { uid := 0, gid := 0 } { mask := 0x4, flags := 0 } 4
      { emptyFile with mode := 0o104755 } = .ok [0, 0, 129, 237] ∧
    ¬ AttrsRoundTrip .v03 { uid := 0, gid := 0 } unknownMapping { mask := 0x4, flags := 0 } 4
      { emptyRecord with mode := 0o104755 } := by
  refine ⟨by decide, by decide, ?_⟩
  rintro ⟨bytes, hwritten, hread⟩
  have hbytes : writtenAttributes .v03 { uid := 0, gid := 0 } { mask := 0x4, flags := 0 } 4
      { emptyRecord with mode := 0o104755 }.toSystemStat = .ok [0, 0, 129, 237] := by decide
  rw [hbytes] at hwritten
  cases hwritten
  obtain ⟨stat', hread, hagrees⟩ := hread 4 emptyRecord []
  have hmode : (fun r => r.stat.mode) <$> readAttributesGeneric .v03 unknownMapping
      (SftpValid.word { mask := 0x4, flags := 0 }) ⟨⟨4, [0, 0, 129, 237] ++ []⟩, emptyRecord⟩
      = .ok 0o100755 := by decide
  rw [hread, map_ok, Except.ok.injEq] at hmode
  have hperm := (hagrees .permissions (by decide)).1
  rw [perm, hmode] at hperm
  revert hperm
  decide

end Osns
