import Osns.Model.SftpServer.Attributes

/-! Attributes in replies: the buffer has no room for the valid word, so that its end is passed in every
version and for every mask. -/

namespace Osns

open List Result Output

/-- An attribute as the drafts define it, for a file with this owner and group. -/
def encodedAttr (version : SftpVersion) (owner group : Bytes) (stat : SystemStat) : Attr → Bytes
  | .type => [typeReverse version stat.type]
  | .size => storeUint64 stat.size.toNat
  | .uidgid => storeUint32 stat.uid.toNat ++ storeUint32 stat.gid.toNat
  | .ownergroup =>
    storeUint32 owner.length ++ owner ++ (storeUint32 group.length ++ group)
  | .permissions =>
    storeUint32 (stat.mode &&& 0o777 ||| if version = .v03 then stat.type else 0)
  | .acmodtime =>
    storeUint32 (stat.atime % 2 ^ 32).toNat ++ storeUint32 (stat.mtime % 2 ^ 32).toNat
  | .accesstime => storeInt64 stat.atime
  | .nsecAtime => storeUint32 stat.atimeNsec.toNat
  | .modifytime => storeInt64 stat.mtime
  | .nsecMtime => storeUint32 stat.mtimeNsec.toNat
  | .changetime => storeInt64 stat.ctime
  | .nsecCtime => storeUint32 stat.ctimeNsec.toNat
  | _ => []

/-- The reply is the valid word with the attributes that it announces, written inside the buffer. -/
def AttrsExact (version : SftpVersion) (mapping : IdMapping) (owner group : Bytes)
    (valid : SftpValid) (stat : SystemStat) : Prop :=
  let written := valid.restrict (wValid version)
  attrsFromStat version mapping valid stat
    = .ok (storeUint32 (written.mask ||| written.flags).toNat
        ++ (parseAttributes version (wValid version) valid).flatMap
          (encodedAttr version owner group stat))

/-! ## What a writer does -/

/-- A writer that fills the buffer with these bytes, in pieces. -/
def Fills (write : Output.State UInt8 → Except ServerFault (Output.State UInt8)) (bytes : Bytes) :
    Prop :=
  ∃ pieces : List Bytes, pieces.flatten = bytes ∧
    ∀ out out', write out = .ok out' ↔ putAll (2 ^ 32) out pieces = some out'

def SystemStat.mapped (server : IdMapping) (stat : SystemStat) : SystemStat :=
  { stat with
    uid := l2pById server.uid stat.uid
    gid := l2pById server.gid stat.gid }

variable {version : SftpVersion} {mapping : IdMapping} {stat : SystemStat} {valid : SftpValid}
variable {out out' : Output.State UInt8} {bytes : Bytes} {attr : Attr} {attrs : List Attr}

theorem copyBufferData_eq_ok :
    copyBufferData out bytes = .ok out' ↔ put (2 ^ 32) out bytes = some out' := by
  unfold copyBufferData
  split <;> simp_all

theorem fills_copyBufferData (bytes : Bytes) : Fills (copyBufferData · bytes) bytes := by
  refine ⟨[bytes], flatten_singleton, fun out out' => ?_⟩
  simp [copyBufferData_eq_ok, putAll]

theorem fills_nothing : Fills .ok [] := ⟨[], rfl, by simp [putAll]⟩

section

variable {write write' : Output.State UInt8 → Except ServerFault (Output.State UInt8)}
  {bytes' : Bytes}

theorem Fills.bind (h : Fills write bytes) (h' : Fills write' bytes') :
    Fills (fun out => write out >>= write') (bytes ++ bytes') := by
  obtain ⟨pieces, rfl, hwrite⟩ := h
  obtain ⟨pieces', rfl, hwrite'⟩ := h'
  refine ⟨pieces ++ pieces', flatten_append, fun out out' => ?_⟩
  simp [bind_eq_ok, putAll_two, Option.bind_eq_some_iff, hwrite, hwrite']

theorem Fills.length_eq (h : Fills write bytes) (hwrite : write out = .ok out') :
    out'.buf.length = out.buf.length := by
  obtain ⟨pieces, -, hpieces⟩ := h
  exact length_of_putAll ((hpieces out out').mp hwrite)

theorem Fills.room {size : ℕ} (h : Fills write bytes) (hsize : size < 2 ^ 32)
    (hwrite : write (stackBuffer size) = .ok out') : bytes.length ≤ size := by
  obtain ⟨pieces, rfl, hpieces⟩ := h
  have hroom := length_le_of_putAll (by simpa [stackBuffer] using hsize) (Nat.zero_le _)
    ((hpieces _ _).mp hwrite)
  simpa [stackBuffer] using hroom

end

section

variable (hlt : out.buf.length < 2 ^ 32)

include hlt

theorem copyBufferData_spec (h : copyBufferData out bytes = .ok out') :
    out'.buf.length = out.buf.length ∧ out'.pos = out.pos + bytes.length
      ∧ out'.pos ≤ out.buf.length := by
  have hput := copyBufferData_eq_ok.mp h
  obtain ⟨hle, hout⟩ := put_eq_some_iff.mp hput
  have hpos : out'.pos = out.pos + bytes.length := by
    rw [hout]
    exact Nat.mod_eq_of_lt (by omega)
  exact ⟨length_of_put hput, hpos, by omega⟩

theorem writeName_spec (h : writeName out = .ok out') :
    out'.buf.length = out.buf.length ∧ out'.pos = out.buf.length := by
  rw [writeName, bind_eq_ok] at h
  obtain ⟨t, hstore, hout⟩ := h
  obtain ⟨hlen, hpos, hle⟩ := copyBufferData_spec hlt hstore
  rw [length_storeUint32] at hpos
  cases hout
  refine ⟨hlen, ?_⟩
  have hleft : u32Sub (u32Sub out.buf.length out.pos) 4 = out.buf.length - out.pos - 4 := by
    rw [u32Sub_of_le hlt (by omega), u32Sub_of_le (by omega) (by omega)]
  have hend : t.pos + (out.buf.length - out.pos - 4) = out.buf.length := by omega
  rw [hleft, hend]
  exact u32_of_lt hlt

theorem writeName_twice :
    (writeName out >>= fun out => writeName out) ≠ .ok out' := by
  intro h
  obtain ⟨t, hfirst, hsecond⟩ := bind_eq_ok.mp h
  obtain ⟨hlen, hpos⟩ := writeName_spec hlt hfirst
  rw [writeName, bind_eq_ok] at hsecond
  obtain ⟨u, hstore, -⟩ := hsecond
  obtain ⟨-, hpos', hle'⟩ := copyBufferData_spec (by omega) hstore
  rw [length_storeUint32] at hpos'
  omega

theorem fills_of_writeAttr (h : writeAttr version mapping stat out attr = .ok out') :
    Fills (writeAttr version mapping stat · attr)
        (encodedAttr version [] [] (stat.mapped mapping) attr) ∧
      (encodedAttr version [] [] (stat.mapped mapping) attr).length = attr.maxlength version ∧
      attr ≠ .ownergroup := by
  cases attr with
  | type | size | permissions | accesstime | modifytime | nsecMtime | changetime | nsecCtime =>
    exact ⟨fills_copyBufferData _, rfl, by rintro ⟨⟩⟩
  | uidgid | acmodtime => exact ⟨(fills_copyBufferData _).bind (fills_copyBufferData _), rfl, by rintro ⟨⟩⟩
  | ownergroup => exact absurd h (writeName_twice hlt)
  | nsecAtime =>
    cases version with
    | v03 | v04 | v05 => cases h
    | v06 => exact ⟨fills_copyBufferData _, rfl, by rintro ⟨⟩⟩
  | allocationSize | createtime | nsecBtime | acl | bits | textHint | mimeType | linkCount
  | untranslatedName | extended => cases h

theorem fills_of_writeAttributes (h : writeAttributes version mapping stat out attrs = .ok out') :
    Fills (writeAttributes version mapping stat · attrs)
        (attrs.flatMap (encodedAttr version [] [] (stat.mapped mapping))) ∧
      (attrs.flatMap (encodedAttr version [] [] (stat.mapped mapping))).length
        = (attrs.map (Attr.maxlength version)).sum ∧ .ownergroup ∉ attrs := by
  induction attrs generalizing out with
  | nil => exact ⟨fills_nothing, rfl, not_mem_nil⟩
  | cons attr attrs ih =>
    obtain ⟨t, hattr, hrest⟩ := bind_eq_ok.mp h
    obtain ⟨hfills, hlength, hne⟩ := fills_of_writeAttr hlt hattr
    obtain ⟨hfills', hlength', hmem⟩ := ih (hfills.length_eq hattr ▸ hlt) hrest
    rw [flatMap_cons, length_append, map_cons, sum_cons, hlength, hlength', mem_cons, not_or]
    exact ⟨hfills.bind hfills', rfl, hne.symm, hmem⟩

end

/-! ## The size of the buffer -/

theorem sum_attrIf_le (f : Attr → ℕ) (bits bit : UInt32) (attrs : List Attr) :
    ((attrIf bits bit attrs).map f).sum ≤ (attrs.map f).sum := by
  unfold attrIf
  split
  · exact Nat.le_refl _
  · exact Nat.zero_le _

theorem sum_timeIf_le (f : Attr → ℕ) (valid : SftpValid) (bit : UInt32) (time nsec : Attr) :
    ((timeIf valid bit time nsec).map f).sum ≤ f time + f nsec := by
  have hnsec := sum_attrIf_le f valid.flags subsecondTimes [nsec]
  have htime := sum_attrIf_le f valid.mask bit (time :: attrIf valid.flags subsecondTimes [nsec])
  rw [map_cons, sum_cons] at htime
  rw [map_singleton, sum_singleton] at hnsec
  exact Nat.le_trans htime (Nat.add_le_add_left hnsec _)

theorem getSizeBufferWriteAttributes_lt (version : SftpVersion) (valid : SftpValid) :
    getSizeBufferWriteAttributes version valid < 2 ^ 16 := by
  have hattr := sum_attrIf_le (Attr.maxlength version)
  have htime := sum_timeIf_le (Attr.maxlength version)
  cases version <;>
    simp only [getSizeBufferWriteAttributes, parseAttributes, parseAttributesV03, parseAttributesV04,
      parseAttributesV05, parseAttributesV06, map_append, map_cons, sum_append,
      sum_cons] <;>
    grind [Attr.maxlength]

theorem attrsFromStat_ne_ok : attrsFromStat version mapping valid stat ≠ .ok bytes := by
  intro h
  rw [attrsFromStat, bind_eq_ok] at h
  obtain ⟨t, hstore, h⟩ := h
  obtain ⟨u, hattrs, -⟩ := bind_eq_ok.mp h
  have hlt := getSizeBufferWriteAttributes_lt version valid
  have hsize : (stackBuffer (getSizeBufferWriteAttributes version valid)).buf.length < 2 ^ 32 := by
    rw [stackBuffer, length_replicate]
    omega
  have hword := fills_copyBufferData (storeUint32 ((valid.restrict (wValid version)).mask
    ||| (valid.restrict (wValid version)).flags).toNat)
  obtain ⟨hfills, hlength, -⟩ := fills_of_writeAttributes (hword.length_eq hstore ▸ hsize) hattrs
  have hroom := (hword.bind hfills).room (by omega) (bind_eq_ok.mpr ⟨t, hstore, hattrs⟩)
  rw [length_append, length_storeUint32, hlength] at hroom
  exact absurd hroom (Nat.not_le.mpr (Nat.lt_add_of_pos_left (by decide)))

/-- No reply has the attributes that its valid word announces. -/
theorem attrsExact_never (version : SftpVersion) (mapping : IdMapping) (owner group : Bytes)
    (valid : SftpValid) (stat : SystemStat) : ¬ AttrsExact version mapping owner group valid stat :=
  attrsFromStat_ne_ok

def emptyFile : SystemStat where
  mode := 0o100644
  size := 0
  uid := 0
  gid := 0
  atime := 0
  atimeNsec := 0
  mtime := 0
  mtimeNsec := 0
  ctime := 0
  ctimeNsec := 0
  devMajor := 8
  devMinor := 1
  ino := 2

/-- For the size of a file there is a buffer of nine bytes in version 6, where thirteen are stored. -/
theorem size_attribute_overruns :
    getSizeBufferWriteAttributes .v06 { mask := 0x1, flags := 0 } = 9 ∧
    attrsFromStat .v06 { uid := 0, gid := 0 } { mask := 0x1, flags := 0 } emptyFile
      = .error .memory ∧
    ¬ AttrsExact .v06 { uid := 0, gid := 0 } [] [] { mask := 0x1, flags := 0 } emptyFile := by
  have herror : attrsFromStat .v06 { uid := 0, gid := 0 } { mask := 0x1, flags := 0 } emptyFile
      = .error .memory := by decide
  refine ⟨by decide, herror, ?_⟩
  intro h
  cases herror.symm.trans h

/-! ## Names of owner and group -/

/-- In no buffer more bytes are written than were asked for. -/
def AttrsFit (version : SftpVersion) (mapping : IdMapping) (owner group : Bytes) (valid : SftpValid)
    (stat : SystemStat) : Prop :=
  ∀ size < 2 ^ 32, ∀ out, (parseAttributes version (wValid version) valid).foldlM
      (writeAttrByname version mapping owner group stat) (stackBuffer size) = .ok out →
    out.pos ≤ getSizeBufferWriteAttributes version valid

variable {owner group : Bytes}

section

variable (hlt : out.buf.length < 2 ^ 32) (hpos : out.pos < 2 ^ 32)

include hlt hpos

theorem writeAttrByname_written (hnames : .ownergroup = attr → owner.length + group.length ≤ 572)
    (h : writeAttrByname version mapping owner group stat out attr = .ok out') :
    out'.buf.length = out.buf.length ∧ out'.pos < 2 ^ 32 ∧
      out'.pos ≤ out.pos + attr.maxlength version := by
  have hwritten : ∀ bytes, Fills (writeAttrByname version mapping owner group stat · attr) bytes →
      bytes.length ≤ attr.maxlength version → out'.buf.length = out.buf.length ∧
        out'.pos < 2 ^ 32 ∧ out'.pos ≤ out.pos + attr.maxlength version := by
    rintro _ ⟨pieces, rfl, hpieces⟩ hle
    have hput := (hpieces out out').mp h
    have hmod := Nat.mod_le (out.pos + pieces.flatten.length) (2 ^ 32)
    have hend := pos_of_putAll hpos hput
    exact ⟨length_of_putAll hput, pos_lt_of_putAll (by decide) hpos hput, by omega⟩
  by_cases hattr : attr = .ownergroup
  · subst hattr
    have hname := fun name : Bytes =>
      (fills_copyBufferData (storeUint32 name.length)).bind (fills_copyBufferData name)
    refine hwritten _ ((hname owner).bind (hname group)) ?_
    have := hnames rfl
    simp [Attr.maxlength]
    omega
  · have hsame : (writeAttrByname version mapping owner group stat · attr)
        = (writeAttr version mapping stat · attr) := by
      funext out
      rw [writeAttrByname]
      exact hattr
    rw [congrFun hsame out] at h
    obtain ⟨hfills, hlength, -⟩ := fills_of_writeAttr hlt h
    exact hwritten _ (hsame ▸ hfills) (Nat.le_of_eq hlength)

theorem writeAttrsByname_written (hnames : .ownergroup ∈ attrs → owner.length + group.length ≤ 572)
    (h : attrs.foldlM (writeAttrByname version mapping owner group stat) out = .ok out') :
    out'.pos ≤ out.pos + (attrs.map (Attr.maxlength version)).sum := by
  induction attrs generalizing out with
  | nil =>
    cases h
    exact Nat.le_refl _
  | cons attr attrs ih =>
    obtain ⟨t, hfirst, hrest⟩ := bind_eq_ok.mp h
    obtain ⟨hlength, hpos', hle⟩ :=
      writeAttrByname_written hlt hpos (fun h => hnames (h ▸ mem_cons_self)) hfirst
    have hrest := ih (hlength ▸ hlt) hpos' (fun h => hnames (mem_cons_of_mem _ h)) hrest
    rw [map_cons, sum_cons]
    omega

end

/-- The names of owner and group may have 572 bytes together. -/
theorem attrsFit_of_names (hnames : .ownergroup ∈ parseAttributes version (wValid version) valid →
    owner.length + group.length ≤ 572) : AttrsFit version mapping owner group valid stat := by
  intro size hsize out h
  simpa [stackBuffer, getSizeBufferWriteAttributes] using
    writeAttrsByname_written (by simpa [stackBuffer] using hsize) (Nat.two_pow_pos 32) hnames h

theorem attrsFit_root :
    AttrsFit .v04 ⟨0, 0⟩ [114, 111, 111, 116] [114, 111, 111, 116] ⟨0x80, 0⟩ emptyFile :=
  attrsFit_of_names (by decide)

/-- A name of 573 bytes takes 582 bytes in version 4, where 581 are asked for. -/
theorem long_owner_unfit :
    getSizeBufferWriteAttributes .v04 ⟨0x80, 0⟩ = 581 ∧
      ¬ AttrsFit .v04 ⟨0, 0⟩ (replicate 573 97) [] ⟨0x80, 0⟩ emptyFile := by
  have hrun : (·.pos) <$> (parseAttributes .v04 (wValid .v04) ⟨0x80, 0⟩).foldlM
      (writeAttrByname .v04 ⟨0, 0⟩ (replicate 573 97) [] emptyFile) (stackBuffer 582) = .ok 582 := by
    decide +kernel
  refine ⟨by decide, fun h => ?_⟩
  obtain ⟨out, hout, hpos⟩ := map_eq_ok.mp hrun
  have hfit := h 582 (by decide) out hout
  rw [hpos] at hfit
  exact absurd hfit (by decide)

/-! ## Signed values -/

def twosComplement (value : ℤ) : Bytes := BigEndian.encode 8 (value % 2 ^ 64).toNat

theorem convertInt642c_eq {value : ℤ} (hmin : -2 ^ 63 < value) (hmax : value < 2 ^ 63) :
    convertInt642c value = some (value % 2 ^ 64).toNat := by
  rw [convertInt642c]
  split
  · congr 1
    omega
  · rw [if_neg (by omega)]
    congr 1
    omega

/-- All values but the smallest are stored in two's complement, and no value is read back. -/
theorem int64_stored_not_read {value : ℤ} (hmin : -2 ^ 63 ≤ value) (hmax : value < 2 ^ 63) :
    (writeInt64 value = some (twosComplement value) ↔ value ≠ -2 ^ 63) ∧
      ∀ bytes, writeInt64 value = some bytes → readInt64 bytes = .error .shift := by
  refine ⟨⟨?_, fun hne => ?_⟩, fun bytes hwrite => ?_⟩
  · rintro hwrite rfl
    cases hwrite
  · rw [writeInt64, convertInt642c_eq (by omega) hmax, Option.map_some, storeUint64_eq, twosComplement]
  · obtain ⟨word, -, rfl⟩ := Option.map_eq_some_iff.mp hwrite
    rfl

theorem minus_one_stored_not_read :
    writeInt64 (-1) = some (twosComplement (-1)) ∧ ∀ bytes, writeInt64 (-1) = some bytes →
      readInt64 bytes = .error .shift := by
  have hstored := @int64_stored_not_read (-1) (by decide) (by decide)
  exact ⟨hstored.1.mpr (by decide), hstored.2⟩

theorem minus_two_not_read :
    writeInt64 (-2) = some [255, 255, 255, 255, 255, 255, 255, 254] ∧
      readInt64 [255, 255, 255, 255, 255, 255, 255, 254] = .error .shift ∧
      writeInt64 (-2 ^ 63) = none :=
  ⟨rfl, rfl, rfl⟩

end Osns
