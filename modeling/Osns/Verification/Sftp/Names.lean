import Osns.Model.SftpServer.Directory
import Osns.Verification.Sftp.RoundTrip

/-! Names with attributes that the server writes and the client reads. In version 3 the two sides do not
agree on the place of the long name. -/

namespace Osns

open List Result

/-! ## What is to come through -/

def writeNames (version : SftpVersion) (server : IdMapping) (valid : SftpValid) :
    List (Bytes × StatRecord) → Except ServerFault Bytes
  | [] => .ok []
  | entry :: entries => do
    let first ← writeNameEntry version server valid entry.1 entry.2.toSystemStat
    let rest ← writeNames version server valid entries
    return first ++ rest

/-- The name is the one that was written, and the attributes have the values that were written. -/
def EntryAgrees (version : SftpVersion) (valid : SftpValid) (entry entry' : Bytes × StatRecord) : Prop :=
  entry'.1 = entry.1 ∧
    ∀ attr ∈ parseAttributes version (wValid version) valid, attr.Agrees version entry.2 entry'.2

/-- The client reads the entries that the server has written, in their order and up to the end. -/
def NamesRoundTrip (version : SftpVersion) (server : IdMapping) (client : NetMapping)
    (valid : SftpValid) (entries : List (Bytes × StatRecord)) : Prop :=
  ∃ body, writeNames version server valid entries = .ok body ∧
    ∀ (flags : UInt32) (start : StatRecord) (tail : Bytes), ∃ entries',
      readNameEntries version client start entries.length ⟨flags, body ++ tail⟩
        = .ok (entries', ⟨flags, tail⟩) ∧
      List.Forall₂ (EntryAgrees version valid) entries entries'

/-! ## Writing -/

section

variable (version : SftpVersion) (server : IdMapping) (valid : SftpValid)

def nameBytes (name : Bytes) : Bytes :=
  (if version = .v03 then storeUint32 0 else []) ++ (storeUint32 name.length ++ name)

def rowBytes (stat : SystemStat) : Bytes :=
  (parseAttributes version (wValid version) valid).flatMap
    (encodedAttr version [] [] (stat.mapped server))

def entryBytes (entry : Bytes × StatRecord) : Bytes :=
  nameBytes version entry.1 ++ (storeUint32 valid.word ++ rowBytes version server valid entry.2.toSystemStat)

end

variable {version : SftpVersion} {server : IdMapping} {client : NetMapping} {valid : SftpValid}
  {name : Bytes} {stat : SystemStat} {attr : Attr} {attrs : List Attr}

theorem fills_writeNameNameResponse (version : SftpVersion) (name : Bytes) :
    Fills (writeNameNameResponse version name) (nameBytes version name) := by
  have hname := (fills_copyBufferData (storeUint32 name.length)).bind (fills_copyBufferData name)
  by_cases hversion : version = .v03
  · have hlong := (fills_copyBufferData (storeUint32 0)).bind hname
    simpa only [Fills, writeNameNameResponse, nameBytes, if_pos hversion] using hlong
  · simpa only [Fills, writeNameNameResponse, nameBytes, if_neg hversion] using fills_nothing.bind hname

variable {out out' : Output.State UInt8}

theorem length_nameBytes (version : SftpVersion) (name : Bytes) :
    (nameBytes version name).length = (if version = .v03 then 4 else 0) + 4 + name.length := by
  rw [nameBytes, length_append, length_append, length_storeUint32, Nat.add_assoc]
  split <;> rfl

theorem getWriteMaxBuffersize_lt (version : SftpVersion) (valid : SftpValid) :
    getWriteMaxBuffersize version valid < 2 ^ 32 := by
  have hlt := getSizeBufferWriteAttributes_lt version valid
  unfold getWriteMaxBuffersize
  split <;> omega

theorem writeNameEntry_of_fills {entry : Bytes × StatRecord}
    (hfills : Fills (writeAttributes version server entry.2.toSystemStat ·
      (parseAttributes version (wValid version) valid))
        (rowBytes version server valid entry.2.toSystemStat))
    (hlength : (rowBytes version server valid entry.2.toSystemStat).length
      = getSizeBufferWriteAttributes version valid) (hname : entry.1.length ≤ 256) :
    writeNameEntry version server valid entry.1 entry.2.toSystemStat
      = .ok (entryBytes version server valid entry) := by
  have hall := (fills_writeNameNameResponse version entry.1).bind
    ((fills_copyBufferData (storeUint32 valid.word)).bind hfills)
  have hwritten := hall.stores.written (getWriteMaxBuffersize_lt version valid) (by
    simp only [getWriteMaxBuffersize, length_append, length_nameBytes, length_storeUint32, hlength]
    omega)
  simp only [bind_assoc] at hwritten
  exact hwritten

theorem of_writeNameEntry {entry : Bytes × StatRecord} {bytes : Bytes}
    (h : writeNameEntry version server valid entry.1 entry.2.toSystemStat = .ok bytes) :
    bytes = entryBytes version server valid entry ∧ entry.1.length ≤ 256 ∧
      .ownergroup ∉ parseAttributes version (wValid version) valid := by
  have hwritten := h
  obtain ⟨t, hname, h⟩ := bind_eq_ok.mp h
  obtain ⟨u, hword, h⟩ := bind_eq_ok.mp h
  obtain ⟨v, hattrs, -⟩ := bind_eq_ok.mp h
  have hsize := getWriteMaxBuffersize_lt version valid
  have hfillsName := fills_writeNameNameResponse version entry.1
  have hfillsWord := fills_copyBufferData (storeUint32 valid.word)
  have hsame := (hfillsWord.length_eq hword).trans (hfillsName.length_eq hname)
  obtain ⟨hfills, hlength, howner⟩ := fills_of_writeAttributes
    (by rw [hsame]; simpa [stackBuffer] using hsize) hattrs
  have hroom := (hfillsName.bind (hfillsWord.bind hfills)).room hsize
    (bind_eq_ok.mpr ⟨t, hname, bind_eq_ok.mpr ⟨u, hword, hattrs⟩⟩)
  have hfits : entry.1.length ≤ 256 := by
    have hsum : getSizeBufferWriteAttributes version valid
      = ((parseAttributes version (wValid version) valid).map (Attr.maxlength version)).sum := rfl
    simp only [getWriteMaxBuffersize, length_append, length_nameBytes, length_storeUint32,
      hlength] at hroom
    omega
  refine ⟨?_, hfits, howner⟩
  rw [writeNameEntry_of_fills hfills hlength hfits] at hwritten
  exact (Except.ok.inj hwritten).symm

/-! ## Reading -/

variable {flags : UInt32} {start : StatRecord} {tail : Bytes} {entry : Bytes × StatRecord}
  {entries : List (Bytes × StatRecord)}

theorem readName_written (h : name.length < 2 ^ 32) :
    AttrBuffer.readName ⟨flags, storeUint32 name.length ++ name ++ tail⟩ = .ok (name, ⟨flags, tail⟩) := by
  rw [AttrBuffer.readName, append_assoc,
    attrReadUint32_of_le (by rw [length_append, length_storeUint32]; omega), ok_bind,
    getUint32_store_of_lt h, drop_storeUint32]
  cases name with
  | nil => rfl
  | cons b name =>
    have hlen : 0 < (b :: name).length ∧ (b :: name).length ≤ ((b :: name) ++ tail).length := by
      simp
    simp

theorem readNameNameResponse_written (h : name.length < 2 ^ 32) :
    readNameNameResponse version ⟨flags, nameBytes version name ++ tail⟩
      = .ok (if version = .v03 then [] else name, ⟨flags, tail⟩) := by
  by_cases hversion : version = .v03
  · have hlong : AttrBuffer.readName
        ⟨flags, storeUint32 0 ++ (storeUint32 name.length ++ name ++ tail)⟩
        = .ok ([], ⟨flags, storeUint32 name.length ++ name ++ tail⟩) :=
      (readName_written (by decide) : AttrBuffer.readName
        ⟨flags, storeUint32 ([] : Bytes).length ++ [] ++ _⟩ = _)
    simp only [readNameNameResponse, nameBytes, if_pos hversion, append_assoc] at hlong ⊢
    rw [hlong, ok_bind, ← append_assoc, readName_written h]
    rfl
  · simp only [readNameNameResponse, nameBytes, if_neg hversion, nil_append, readName_written h]
    rfl

theorem readNameEntry_written (hvalid : valid.Writable version) (h : entry.1.length < 2 ^ 32) :
    readNameEntry version client start ⟨flags, entryBytes version server valid entry ++ tail⟩
      = readStatAttrs version client
          ⟨⟨flags, rowBytes version server valid entry.2.toSystemStat ++ tail⟩, start⟩
          (parseAttributes version (wValid version) valid)
        >>= fun r => .ok ((if version = .v03 then [] else entry.1, r.stat), r.toAttrBuffer) := by
  have hword : getUint32 (storeUint32 valid.word
      ++ (rowBytes version server valid entry.2.toSystemStat ++ tail)) = valid.word :=
    getUint32_store_of_lt (UInt32.toNat_lt _) _
  rw [readNameEntry, entryBytes, append_assoc, readNameNameResponse_written h, ok_bind]
  simp only [readSftpAttributes, append_assoc]
  rw [attrReadUint32_of_le (by rw [length_append, length_storeUint32]; omega), ok_bind]
  simp only [hword, drop_storeUint32, readAttributesGeneric]
  rw [← readRows_word hvalid, readRows]
  rfl

theorem writeNames_of_plain
    (hplain : ∀ a ∈ parseAttributes version (wValid version) valid, a ∈ plainRows version)
    (hlen : ∀ e ∈ entries, e.1.length ≤ 256) :
    writeNames version server valid entries
      = .ok (entries.flatMap (entryBytes version server valid)) := by
  induction entries with
  | nil => rfl
  | cons entry entries ih =>
    have hfirst : writeNameEntry version server valid entry.1 entry.2.toSystemStat
        = .ok (entryBytes version server valid entry) :=
      writeNameEntry_of_fills (fills_writeAttributes hplain) (length_rows _ hplain)
        (hlen entry mem_cons_self)
    rw [writeNames, hfirst, ok_bind, ih fun e he => hlen e (mem_cons_of_mem _ he)]
    rfl

theorem readNameEntries_of_plain (hvalid : valid.Writable version)
    (hplain : ∀ a ∈ parseAttributes version (wValid version) valid, a ∈ plainRows version)
    (hlen : ∀ e ∈ entries, e.1.length ≤ 256) :
    readNameEntries version client start entries.length
        ⟨flags, entries.flatMap (entryBytes version server valid) ++ tail⟩
      = .ok (entries.map fun e => (if version = .v03 then [] else e.1,
          (parseAttributes version (wValid version) valid).foldl
            (Attr.load version client (e.2.toSystemStat.mapped server)) start), ⟨flags, tail⟩) := by
  induction entries with
  | nil => rfl
  | cons entry entries ih =>
    have hname := hlen entry mem_cons_self
    rw [length_cons, readNameEntries, flatMap_cons, append_assoc,
      readNameEntry_written hvalid (by omega), rowBytes, readStatAttrs_encoded hplain,
      ok_bind, ok_bind]
    simp [ih fun e he => hlen e (mem_cons_of_mem _ he)]

theorem length_le_of_writeNames {body : Bytes} (h : writeNames version server valid entries = .ok body) :
    ∀ e ∈ entries, e.1.length ≤ 256 := by
  induction entries generalizing body with
  | nil => exact forall_mem_nil _
  | cons entry entries ih =>
    obtain ⟨first, hfirst, h⟩ := bind_eq_ok.mp h
    obtain ⟨rest, hrest, -⟩ := bind_eq_ok.mp h
    exact forall_mem_cons.mpr ⟨(of_writeNameEntry hfirst).2.1, ih hrest⟩

theorem rows_plain_of_roundTrip (hvalid : valid.Writable version)
    (h : NamesRoundTrip version server client valid (entry :: entries)) :
    ∀ a ∈ parseAttributes version (wValid version) valid, a ∈ plainRows version := by
  obtain ⟨body, hbody, hread⟩ := h
  obtain ⟨entries', hread, -⟩ := hread 0 entry.2 []
  obtain ⟨first, hfirst, hbody⟩ := bind_eq_ok.mp hbody
  obtain ⟨rest, hrest, hbody⟩ := bind_eq_ok.mp hbody
  obtain ⟨rfl, hlen, howner⟩ := of_writeNameEntry hfirst
  cases hbody
  rw [length_cons, readNameEntries, append_assoc, readNameEntry_written hvalid (by omega)] at hread
  obtain ⟨read, hread, -⟩ := bind_eq_ok.mp hread
  obtain ⟨r, hread, -⟩ := bind_eq_ok.mp hread
  exact rows_plain (timeless_of_readStatAttrs hread) howner

/-- Names make the round trip when they have at most 256 bytes, none at all in version 3, and their
attributes do. -/
theorem namesRoundTrip_iff (version : SftpVersion) (server : IdMapping) (client : NetMapping)
    (valid : SftpValid) (entries : List (Bytes × StatRecord)) (hvalid : valid.Writable version) :
    NamesRoundTrip version server client valid entries ↔
      ∀ entry ∈ entries, entry.1.length ≤ 256 ∧ (version = .v03 → entry.1 = []) ∧
        ∀ attr ∈ parseAttributes version (wValid version) valid,
          attr.Kept version server client entry.2.toSystemStat := by
  have hnodup := nodup_parseAttributes version (wValid version) valid
  have hagrees : ∀ (entry : Bytes × StatRecord) (start : StatRecord),
      (∀ a ∈ parseAttributes version (wValid version) valid, a ∈ plainRows version) →
      (EntryAgrees version valid entry (if version = .v03 then [] else entry.1,
          (parseAttributes version (wValid version) valid).foldl
            (Attr.load version client (entry.2.toSystemStat.mapped server)) start) ↔
        (version = .v03 → entry.1 = []) ∧
          ∀ attr ∈ parseAttributes version (wValid version) valid,
            attr.Kept version server client entry.2.toSystemStat) := by
    intro entry start hplain
    refine and_congr ?_ (forall₂_congr fun attr hattr => agrees_foldl_iff hnodup hplain hattr)
    by_cases hversion : version = .v03
    · simp [hversion, eq_comm]
    · simp [hversion]
  cases entries with
  | nil =>
    refine iff_of_true ⟨[], rfl, ?_⟩ (by simp)
    intro flags start tail
    exact ⟨[], rfl, .nil⟩
  | cons first rest =>
    constructor
    · intro h
      have hplain := rows_plain_of_roundTrip hvalid h
      obtain ⟨body, hbody, hread⟩ := h
      have hlen := length_le_of_writeNames hbody
      obtain ⟨entries', hread, hall⟩ := hread 0 first.2 []
      rw [writeNames_of_plain hplain hlen] at hbody
      cases hbody
      rw [readNameEntries_of_plain hvalid hplain hlen] at hread
      cases hread
      rw [forall₂_map_right_iff, forall₂_same] at hall
      intro entry hentry
      exact ⟨hlen entry hentry, (hagrees entry _ hplain).mp (hall entry hentry)⟩
    · intro h
      have hplain := rows_plain_of_kept (h first mem_cons_self).2.2
      have hlen : ∀ e ∈ first :: rest, e.1.length ≤ 256 := fun e he => (h e he).1
      refine ⟨_, writeNames_of_plain hplain hlen, ?_⟩
      intro flags start tail
      refine ⟨_, readNameEntries_of_plain hvalid hplain hlen, ?_⟩
      rw [forall₂_map_right_iff, forall₂_same]
      intro entry hentry
      exact (hagrees entry _ hplain).mpr (h entry hentry).2

/-- Two entries of a directory in version 6, with their types and sizes. -/
theorem namesRoundTrip_directory :
    NamesRoundTrip .v06 { uid := 0, gid := 0 } unknownMapping { mask := 0x1, flags := 0 }
      [([97], { emptyRecord with mode := 0o100644 }), ([98], { emptyRecord with mode := 0o040755 })] :=
  (namesRoundTrip_iff _ _ _ _ _ (by decide)).mpr (by decide)

/-- In version 3 the name of an entry is lost, also when it has no attributes. -/
theorem name_lost :
    SftpValid.Writable .v03 { mask := 0, flags := 0 } ∧
    writeNames .v03 { uid := 0, gid := 0 } { mask := 0, flags := 0 } [([97], emptyRecord)]
      = .ok [0, 0, 0, 0, 0, 0, 0, 1, 97, 0, 0, 0, 0] ∧
    ¬ NamesRoundTrip .v03 { uid := 0, gid := 0 } unknownMapping { mask := 0, flags := 0 }
      [([97], emptyRecord)] := by
  have hbytes : writeNames .v03 { uid := 0, gid := 0 } { mask := 0, flags := 0 } [([97], emptyRecord)]
      = .ok [0, 0, 0, 0, 0, 0, 0, 1, 97, 0, 0, 0, 0] := by
    rw [writeNames_of_plain (by decide) (by decide)]
    rfl
  refine ⟨by decide, hbytes, ?_⟩
  rintro ⟨body, hbody, hread⟩
  rw [hbytes] at hbody
  cases hbody
  obtain ⟨entries', hread, hall⟩ := hread 4 emptyRecord []
  have hempty : readNameEntries .v03 unknownMapping emptyRecord 1
      ⟨4, [0, 0, 0, 0, 0, 0, 0, 1, 97, 0, 0, 0, 0] ++ []⟩ = .ok ([([], emptyRecord)], ⟨4, []⟩) := by
    decide
  rw [length_singleton, hempty] at hread
  cases hread
  cases hall with
  | cons hfirst hrest => cases hfirst.1

end Osns
