import Osns.Model.Sftp.Attributes
import Osns.Model.SshString
import Osns.Verification.SftpServer.Blocks

/-! Blocks of attributes in replies: when the client reads them to their end, and when its readers stay
inside the buffer. -/

namespace Osns

open List Result AttrReading Wire

/-! ## Blocks that a server may send -/

section

variable (version : SftpVersion)

/-- An acl as the draft of a version has it: the number of entries and the entries, in version 6 behind a
word with flags. -/
def aclConforms (acl : Bytes) : Bool :=
  let entries := if version = .v06 then acl.drop 4 else acl
  decide (4 ≤ entries.length ∧ skip (aclLayout (getUint32 entries)) (entries.drop 4) = some [])

/-- A valid word and the attributes that it announces, and nothing else. -/
def BlockConforms (block : Bytes) : Prop :=
  skipBlock version (aclConforms version) block = some []

instance (version : SftpVersion) (block : Bytes) : Decidable (BlockConforms version block) :=
  inferInstanceAs (Decidable (_ = _))

/-- The client reads the block, and goes on with what lies behind it. -/
def ReadsExactly (mapping : NetMapping) (block more : Bytes) : Prop :=
  ∀ (flags : UInt32) (stat : StatRecord), ∃ stat',
    readSftpAttributes version mapping ⟨⟨flags, block ++ more⟩, stat⟩ = .ok ⟨⟨flags, more⟩, stat'⟩

def readRows (bits : ℕ) : List Attr :=
  parseAttributes version (rValid version) (splitValid bits)

/-- All reads stay inside the buffer, and a sign in its flags is left when something is missing. -/
def ReadsInside (mapping : NetMapping) (bits : ℕ) (r : AttrReading) : Prop :=
  ∃ r', readAttributesGeneric version mapping bits r = .ok r' ∧
    (skipAttrs version aclFits (readRows version bits) r.rest = none → r'.flags ≠ r.flags)

end

/-- The search for the domain of a name ends inside the name, or finds nothing in the 64 bytes that it
looks at. There is no search in an empty name. -/
def nameQuiet (rest : Bytes) : Bool :=
  let len := getUint32 rest
  let bytes := rest.drop 4
  len == 0 || (bytes.take (min len 64)).contains (UInt8.ofNat len)
    || (decide (64 ≤ bytes.length) && !(bytes.take 64).contains (UInt8.ofNat len))

/-- The names of the owner and the group, wherever they stand among the attributes. -/
def ownersQuiet (version : SftpVersion) : List Attr → Bytes → Bool
  | [], _ => true
  | attr :: attrs, rest =>
    (attr != .ownergroup || (nameQuiet rest && nameQuiet (rest.drop (4 + getUint32 rest))))
      && (skipAttr version (fun _ => true) rest attr).all (ownersQuiet version attrs)

/-! ## Names -/

section

theorem memchr_eq (c : UInt8) (n : ℕ) (bytes : Bytes) :
    memchr c n bytes =
      if c ∈ bytes.take n then .ok (some (bytes.idxOf c))
      else if n ≤ bytes.length then .ok none else .error .body := by
  induction n generalizing bytes with
  | zero => simp [memchr]
  | succ n ih =>
    cases bytes with
    | nil => simp [memchr]
    | cons b bytes =>
      rw [memchr, ih]
      by_cases hb : b = c
      · simp [hb]
      · by_cases hmem : c ∈ bytes.take n
        · simp [hb, hmem, idxOf_cons_ne]
        · by_cases hle : n ≤ bytes.length
          · simp [hb, Ne.symm hb, hmem, hle]
          · simp [hb, Ne.symm hb, hmem, hle]

variable {len : ℕ} {bytes rest : Bytes}

theorem p2lByName_of_quiet (ids : NetIds)
    (hquiet : UInt8.ofNat len ∈ bytes.take (min len 64) ∨
      64 ≤ bytes.length ∧ UInt8.ofNat len ∉ bytes.take 64) :
    ∃ bytes' id, ids.p2lByName len bytes = .ok (bytes', id) ∧ bytes'.drop len = bytes.drop len := by
  rw [NetIds.p2lByName, findDomain, memchr_eq]
  rcases hquiet with hmem | ⟨hle, hnot⟩
  · have hfound : UInt8.ofNat len ∈ bytes.take 64 :=
      (take_sublist_take_left (Nat.min_le_right len 64)).mem hmem
    have hindex := (mem_take_iff_idxOf_lt (mem_of_mem_take hmem)).mp hmem
    rw [if_pos hfound]
    exact ⟨_, _, rfl, drop_set_of_lt (by omega)⟩
  · rw [if_neg hnot, if_pos hle]
    exact ⟨_, _, rfl, rfl⟩

theorem nameQuiet_iff : nameQuiet rest = true ↔
    getUint32 rest = 0 ∨
      UInt8.ofNat (getUint32 rest) ∈ (rest.drop 4).take (min (getUint32 rest) 64) ∨
      64 ≤ (rest.drop 4).length ∧ UInt8.ofNat (getUint32 rest) ∉ (rest.drop 4).take 64 := by
  simp [nameQuiet, or_assoc]

end

/-! ## The readers of the client and of the server -/

variable {version : SftpVersion} {mapping : NetMapping} {r r' : AttrReading} {attr : Attr}
  {attrs : List Attr} {tail : Bytes}

theorem readFixed_buffer (n mode : ℕ) (set : StatRecord → Bytes → StatRecord) :
    toAttrBuffer <$> r.readFixed n set
      = (fun x => ⟨r.flags, x.rest⟩) <$> attrSkip n ⟨r.rest, mode⟩ := by
  rw [readFixed, attrSkip]
  cases attrReadBytes n r.rest with
  | error fault => rfl
  | ok read => rfl

theorem readFixed_two (n mode : ℕ) (set set' : StatRecord → Bytes → StatRecord) :
    toAttrBuffer <$> (r.readFixed n set >>= fun r => r.readFixed n set')
      = (fun x => ⟨r.flags, x.rest⟩) <$> attrSkip (n + n) ⟨r.rest, mode⟩ := by
  simp only [readFixed, attrSkip, attrReadBytes]
  by_cases hfirst : n ≤ r.rest.length
  · by_cases hsecond : n + n ≤ r.rest.length
    · simp [hfirst, hsecond, length_drop, show n ≤ r.rest.length - n by omega]
    · simp [hfirst, hsecond, length_drop, show ¬ n ≤ r.rest.length - n by omega]
  · simp [hfirst, show ¬ n + n ≤ r.rest.length by omega]

theorem readString_buffer (look : Bytes → Except ServerFault Unit) (mode : ℕ) :
    toAttrBuffer <$> r.readString (attrCbLook look)
      = (fun x => ⟨r.flags, x.rest⟩) <$> attrString look ⟨r.rest, mode⟩ := by
  rw [readString, attrString, attrReadString]
  cases attrReadUint32 r.rest with
  | error fault => rfl
  | ok read =>
    obtain ⟨len, rest⟩ := read
    simp only [ok_bind]
    split
    · simp only [attrCbLook]
      cases look rest with
      | error fault => rfl
      | ok _ => rfl
    · rfl

theorem readStatAttr_buffer (h : attr ≠ .ownergroup) (mode : ℕ) :
    toAttrBuffer <$> readStatAttr version mapping r attr
      = (fun x => ⟨r.flags, x.rest⟩) <$> readAttr version ⟨r.rest, mode⟩ attr := by
  have hint64 : toAttrBuffer <$> r.readInt64
      = (fun x => ⟨r.flags, x.rest⟩) <$> attrReadInt64 ⟨r.rest, mode⟩ := by
    rw [AttrReading.readInt64, attrReadInt64]
    cases attrReadBytes 8 r.rest <;> rfl
  cases attr with
  | ownergroup => exact absurd rfl h
  | type | size | allocationSize | nsecMtime | nsecCtime | bits | textHint | linkCount =>
    simp [readStatAttr, readAttr, skipFixed, readFixed_buffer _ mode]
  | uidgid | acmodtime => exact readFixed_two 4 _ _ _
  | permissions =>
    rw [readStatAttr, readFixed_buffer 4 mode, readAttr, attrSkip, attrReadUint32]
    cases attrReadBytes 4 r.rest <;> rfl
  | accesstime | createtime | modifytime | changetime => exact hint64
  | nsecAtime | nsecBtime =>
    rw [readStatAttr, readAttr]
    split
    · exact readFixed_buffer _ _ _
    · rfl
  | acl | mimeType | untranslatedName => exact readString_buffer _ _
  | extended =>
    rw [readStatAttr, readAttr]
    cases attrReadUint32 r.rest with
    | error fault => rfl
    | ok read =>
      obtain ⟨count, rest⟩ := read
      simp only [ok_bind]
      cases attrExtensions count rest <;> rfl

theorem flags_of_readStatAttr (h : readStatAttr version mapping r attr = .ok r') :
    r'.flags = r.flags := by
  by_cases howner : attr = .ownergroup
  · subst howner
    have hstring : ∀ {callback} {r r' : AttrReading}, r.readString callback = .ok r' →
        r'.flags = r.flags := by
      intro callback r r' h
      obtain ⟨⟨len, rest⟩, -, h⟩ := bind_eq_ok.mp h
      simp only at h
      split at h
      · obtain ⟨⟨rest', stat⟩, -, h⟩ := bind_eq_ok.mp h
        cases h
        rfl
      · cases h
        rfl
    obtain ⟨r₁, hfirst, hsecond⟩ := bind_eq_ok.mp h
    rw [hstring hsecond, hstring hfirst]
  · have hbuffer : toAttrBuffer <$> readStatAttr version mapping r attr = _ :=
      readStatAttr_buffer howner 0
    rw [h, map_ok, eq_comm, map_eq_ok] at hbuffer
    obtain ⟨x, -, hx⟩ := hbuffer
    rw [← hx]

/-! ## Complete attributes -/

theorem readAttr_of_skip {reader : AttrReader} (htime : attr.isTime = false)
    (hunread : attr.isUnread = false) (h : skipAttr version aclFits reader.rest attr = some tail) :
    ∃ mode, readAttr version reader attr = .ok { rest := tail, mode } := by
  have hskip : skipAttrs version aclFits [attr] reader.rest = some tail := by
    rw [skipAttrs, h]
    rfl
  rcases reads_single htime hunread reader tail hskip with ⟨mode, hread⟩ | ⟨-, attr', hmem, htime'⟩
  · obtain ⟨x, hx, hrest⟩ := bind_eq_ok.mp hread
    cases hrest
    exact ⟨mode, hx⟩
  · rw [mem_singleton.mp hmem, htime] at htime'
    cases htime'

theorem skip_string_iff : skip [.string] rest = some tail ↔
    (4 ≤ rest.length ∧ 4 + getUint32 rest ≤ rest.length) ∧ rest.drop (4 + getUint32 rest) = tail := by
  rw [skip_string, skip_nil, Option.some.injEq]
  by_cases h : 4 ≤ rest.length
  · rw [decode_take_four h]
  · simp [h]

/-- A callback that leaves what lies behind a quiet name as it is. -/
def MapsQuietly (callback : ℕ → Bytes → StatRecord → Except ServerFault (Bytes × StatRecord)) : Prop :=
  ∀ (len : ℕ) (bytes : Bytes) (stat : StatRecord),
    UInt8.ofNat len ∈ bytes.take (min len 64) ∨
        64 ≤ bytes.length ∧ UInt8.ofNat len ∉ bytes.take 64 →
      ∃ bytes' stat', callback len bytes stat = .ok (bytes', stat') ∧ bytes'.drop len = bytes.drop len

theorem attrCbUser_quietly (mapping : NetMapping) : MapsQuietly (attrCbUser mapping) := by
  intro len bytes stat hsearch
  obtain ⟨bytes', id, hmap, hdrop⟩ := p2lByName_of_quiet mapping.users hsearch
  exact ⟨bytes', _, by rw [attrCbUser, hmap]; rfl, hdrop⟩

theorem attrCbGroup_quietly (mapping : NetMapping) : MapsQuietly (attrCbGroup mapping) := by
  intro len bytes stat hsearch
  obtain ⟨bytes', id, hmap, hdrop⟩ := p2lByName_of_quiet mapping.groups hsearch
  exact ⟨bytes', _, by rw [attrCbGroup, hmap]; rfl, hdrop⟩

theorem readString_of_quiet
    {callback : ℕ → Bytes → StatRecord → Except ServerFault (Bytes × StatRecord)}
    (hcallback : MapsQuietly callback) (hskip : skip [.string] r.rest = some tail)
    (hquiet : nameQuiet r.rest = true) :
    ∃ stat, r.readString callback = .ok ⟨⟨r.flags, tail⟩, stat⟩ := by
  obtain ⟨⟨hfour, hlen⟩, rfl⟩ := skip_string_iff.mp hskip
  rw [readString, attrReadUint32_of_le hfour, ok_bind]
  simp only [length_drop]
  by_cases hzero : getUint32 r.rest = 0
  · refine ⟨r.stat, ?_⟩
    rw [if_neg (by omega), hzero]
    rfl
  · obtain ⟨bytes', stat', hmap, hdrop⟩ :=
      hcallback _ _ r.stat ((nameQuiet_iff.mp hquiet).resolve_left hzero)
    refine ⟨stat', ?_⟩
    rw [if_pos ⟨by omega, by omega⟩, hmap]
    simp [hdrop]

theorem readStatAttr_of_skip (htime : attr.isTime = false) (hunread : attr.isUnread = false)
    (hquiet : attr = .ownergroup →
      nameQuiet r.rest = true ∧ nameQuiet (r.rest.drop (4 + getUint32 r.rest)) = true)
    (h : skipAttr version aclFits r.rest attr = some tail) :
    ∃ stat, readStatAttr version mapping r attr = .ok ⟨⟨r.flags, tail⟩, stat⟩ := by
  by_cases howner : attr = .ownergroup
  · obtain ⟨huser, hgroup⟩ := hquiet howner
    subst howner
    have hboth : skip ([.string] ++ [.string]) r.rest = some tail := h
    rw [skip_append, Option.bind_eq_some_iff] at hboth
    obtain ⟨middle, hfirst, hsecond⟩ := hboth
    rw [(skip_string_iff.mp hfirst).2] at hgroup
    obtain ⟨stat, hread⟩ := readString_of_quiet (attrCbUser_quietly mapping) hfirst huser
    obtain ⟨stat', hread'⟩ : ∃ stat', readString (attrCbGroup mapping)
        ⟨⟨r.flags, middle⟩, stat⟩ = .ok ⟨⟨r.flags, tail⟩, stat'⟩ :=
      readString_of_quiet (attrCbGroup_quietly mapping) hsecond hgroup
    exact ⟨stat', by rw [readStatAttr, hread, ok_bind, hread']⟩
  · obtain ⟨mode, hread⟩ : ∃ mode, readAttr version ⟨r.rest, 0⟩ attr = .ok { rest := tail, mode } :=
      readAttr_of_skip htime hunread h
    have hbuffer : toAttrBuffer <$> readStatAttr version mapping r attr = _ :=
      readStatAttr_buffer howner 0
    rw [hread, map_ok, map_eq_ok] at hbuffer
    obtain ⟨r', hr', heq⟩ := hbuffer
    exact ⟨r'.stat, by rw [hr', ← heq]⟩

theorem readStatAttrs_of_skip (htimes : ∀ attr ∈ attrs, attr.isTime = false)
    (hunread : ∀ attr ∈ attrs, attr.isUnread = false)
    (hquiet : ownersQuiet version attrs r.rest = true)
    (h : skipAttrs version aclFits attrs r.rest = some tail) :
    ∃ stat, readStatAttrs version mapping r attrs = .ok ⟨⟨r.flags, tail⟩, stat⟩ := by
  induction attrs generalizing r with
  | nil =>
    cases h
    exact ⟨r.stat, rfl⟩
  | cons attr attrs ih =>
    rw [skipAttrs, Option.bind_eq_some_iff] at h
    obtain ⟨middle, hfirst, hrest⟩ := h
    have hpass : skipAttr version (fun _ => true) r.rest attr = some middle :=
      skipAttr_mono (fun _ _ => rfl) hfirst
    simp only [ownersQuiet, hpass, Option.all_some, Bool.and_eq_true, Bool.or_eq_true, bne_iff_ne,
      ne_eq] at hquiet
    obtain ⟨howner, hquiet⟩ := hquiet
    obtain ⟨stat, hread⟩ : ∃ stat, readStatAttr version mapping r attr = .ok ⟨⟨r.flags, middle⟩, stat⟩ :=
      readStatAttr_of_skip (htimes attr mem_cons_self) (hunread attr mem_cons_self)
        (fun heq => howner.resolve_left fun hne => hne heq) hfirst
    rw [readStatAttrs, hread, ok_bind]
    exact ih (r := ⟨⟨r.flags, middle⟩, stat⟩) (fun a ha => htimes a (mem_cons_of_mem _ ha))
      (fun a ha => hunread a (mem_cons_of_mem _ ha)) hquiet hrest

theorem read_of_timeless {supported valid : SftpValid}
    (h : ∀ attr ∈ parseAttributes version supported valid, attr.isTime = false) :
    ∀ attr ∈ parseAttributes version supported valid, attr.isUnread = false := by
  revert h
  refine parseAttributes_rule (P := fun attrs => (∀ attr ∈ attrs, attr.isTime = false) →
    ∀ attr ∈ attrs, attr.isUnread = false) ?_ ?_ ?_ ?_
  · intro _ attr hmem
    cases hmem
  · intro attrs attrs' hleft hright h attr hmem
    rcases mem_append.mp hmem with hmem | hmem
    · exact hleft (fun a ha => h a (mem_append_left _ ha)) attr hmem
    · exact hright (fun a ha => h a (mem_append_right _ ha)) attr hmem
  · intro attr _ hunread _ attr' hmem
    rw [mem_singleton.mp hmem]
    exact hunread
  · intro attr attrs htime h
    rw [h attr mem_cons_self] at htime
    cases htime

/-! ## Reading to the end of a block -/

variable {check : Bytes → Bool}

theorem skipAttr_of_append (more : Bytes) (h : skipAttr version check rest attr = some tail) :
    skipAttr version check (rest ++ more) attr = some (tail ++ more) := by
  cases attr with
  | extended =>
    simp only [skipAttr, Option.ite_none_right_eq_some] at h ⊢
    obtain ⟨hfour, hskip⟩ := h
    refine ⟨by rw [length_append]; omega, ?_⟩
    rw [getUint32_append hfour, drop_append_of_le_length hfour]
    exact skip_of_append (by simp [mem_replicate]) hskip
  | acl =>
    simp only [skipAttr, Option.ite_none_right_eq_some] at h ⊢
    obtain ⟨hcheck, hskip⟩ := h
    obtain ⟨⟨hfour, hlen⟩, -⟩ := skip_string_iff.mp hskip
    refine ⟨?_, skip_of_append (by decide) hskip⟩
    rw [getUint32_append hfour, drop_append_of_le_length hfour,
      take_append_of_le_length (by rw [length_drop]; omega)]
    exact hcheck
  | bits => exact skip_of_append (by cases version <;> decide) h
  | _ => exact skip_of_append (by simp [Attr.fields]) h

theorem skipAttrs_of_append (more : Bytes) (h : skipAttrs version check attrs rest = some tail) :
    skipAttrs version check attrs (rest ++ more) = some (tail ++ more) := by
  induction attrs generalizing rest with
  | nil =>
    cases h
    rfl
  | cons attr attrs ih =>
    rw [skipAttrs, Option.bind_eq_some_iff] at h ⊢
    obtain ⟨middle, hfirst, hrest⟩ := h
    exact ⟨middle ++ more, skipAttr_of_append more hfirst, ih hrest⟩

theorem aclFits_of_conforms {acl : Bytes} (hversion : version ≠ .v06)
    (h : aclConforms version acl = true) : aclFits acl = true := by
  simp only [aclConforms, if_neg hversion, decide_eq_true_eq] at h
  obtain ⟨hfour, hskip⟩ := h
  simp [aclFits, hfour, hskip]

section

variable {valid supported : SftpValid} {bit : UInt32}

theorem attrIf_restrict (h : supported.mask &&& bit = bit) (attrs : List Attr) :
    attrIf (valid.restrict supported).mask bit attrs = attrIf valid.mask bit attrs := by
  have hand : (valid.restrict supported).mask &&& bit = valid.mask &&& bit := by
    rw [SftpValid.restrict, UInt32.and_assoc, h]
  rw [attrIf, attrIf, hasBits, hasBits, hand]

theorem timeIf_restrict (h : supported.mask &&& bit = bit)
    (hflags : supported.flags &&& subsecondTimes = subsecondTimes) (time nsec : Attr) :
    timeIf (valid.restrict supported) bit time nsec = timeIf valid bit time nsec := by
  have hand : (valid.restrict supported).flags &&& subsecondTimes = valid.flags &&& subsecondTimes := by
    rw [SftpValid.restrict, UInt32.and_assoc, hflags]
  have hnsec : attrIf (valid.restrict supported).flags subsecondTimes [nsec]
      = attrIf valid.flags subsecondTimes [nsec] := by
    rw [attrIf, attrIf, hasBits, hasBits, hand]
  rw [timeIf, timeIf, attrIf_restrict h, hnsec]

theorem timeIf_eq_nil {nsec : Attr} (supported : SftpValid) (htime : attr.isTime = true)
    (h : ∀ a ∈ timeIf valid bit attr nsec, a.isTime = false) :
    timeIf valid bit attr nsec = [] ∧ timeIf (valid.restrict supported) bit attr nsec = [] := by
  have hbit : valid.mask &&& bit = 0 := by
    by_contra hne
    have hmem : attr ∈ timeIf valid bit attr nsec := by
      rw [timeIf, attrIf, if_pos (by simpa [hasBits] using hne)]
      exact mem_cons_self
    rw [h attr hmem] at htime
    cases htime
  have hand : valid.mask &&& supported.mask &&& bit = 0 := by
    rw [UInt32.and_assoc, UInt32.and_comm supported.mask, ← UInt32.and_assoc, hbit, UInt32.zero_and]
  simp [timeIf, attrIf, hasBits, SftpValid.restrict, hbit, hand]

end

/-- Without a time the client reads all that has been announced. The creation time is what it does not
read in version 4 and 5. -/
theorem readRows_of_timeless {bits : ℕ}
    (h : ∀ attr ∈ draftAttributes version (splitValid bits), attr.isTime = false) :
    readRows version bits = draftAttributes version (splitValid bits) := by
  revert h
  simp only [readRows, draftAttributes, parseAttributes, restrict_allValid]
  generalize splitValid bits = valid
  intro h
  cases version with
  | v03 => simp (disch := decide) only [parseAttributesV03, attrIf_restrict]
  | v04 =>
    have hnone : ∀ a ∈ timeIf valid 0x10 .createtime .nsecBtime, a.isTime = false :=
      fun a ha => h a (by simp [parseAttributesV04, ha])
    obtain ⟨hcreate, hcreate'⟩ := timeIf_eq_nil (rValid .v04) rfl hnone
    simp only [parseAttributesV04, hcreate, hcreate']
    simp (disch := decide) only [attrIf_restrict, timeIf_restrict]
  | v05 =>
    have hnone : ∀ a ∈ timeIf valid 0x10 .createtime .nsecBtime, a.isTime = false :=
      fun a ha => h a (by simp [parseAttributesV05, ha])
    obtain ⟨hcreate, hcreate'⟩ := timeIf_eq_nil (rValid .v05) rfl hnone
    simp only [parseAttributesV05, hcreate, hcreate']
    simp (disch := decide) only [attrIf_restrict, timeIf_restrict]
  | v06 => simp (disch := decide) only [parseAttributesV06, attrIf_restrict, timeIf_restrict]

theorem skipBlock_of_conforms {block : Bytes} (h : BlockConforms version block)
    (hwalk : version = .v06 → (skipBlock version aclFits block).isSome) :
    skipBlock version aclFits block = some [] := by
  by_cases hversion : version = .v06
  · obtain ⟨tail, htail⟩ := Option.isSome_iff_exists.mp (hwalk hversion)
    have hall : skipBlock version (fun _ => true) block = some tail :=
      skipBlock_mono (fun _ _ => rfl) htail
    rw [skipBlock_mono (fun _ _ => rfl) h] at hall
    rw [htail, hall]
  · exact skipBlock_mono (fun _ => aclFits_of_conforms hversion) h

/-- A conforming block without a time, whose names are quiet, is read to its end. In version 6 the flags
of its acl are taken for the number of entries, and there have to be as many. -/
theorem readsExactly_of_timeless (version : SftpVersion) (mapping : NetMapping) (block more : Bytes)
    (hblock : BlockConforms version block) (htimeless : BlockTimeless version block)
    (hwalk : version = .v06 → (skipBlock version aclFits block).isSome)
    (hquiet : ownersQuiet version (draftAttributes version (splitValid (getUint32 block)))
      (block.drop 4 ++ more) = true) : ReadsExactly version mapping block more := by
  intro flags stat
  have hskip := skipBlock_of_conforms hblock hwalk
  simp only [skipBlock, Option.ite_none_right_eq_some] at hskip
  obtain ⟨hfour, hskip⟩ := hskip
  have hread : readSftpAttributes version mapping ⟨⟨flags, block ++ more⟩, stat⟩
      = readStatAttrs version mapping ⟨⟨flags, block.drop 4 ++ more⟩, stat⟩
          (draftAttributes version (splitValid (getUint32 block))) := by
    rw [readSftpAttributes, attrReadUint32_of_le (by rw [length_append]; omega), ok_bind]
    simp only [getUint32_append hfour, drop_append_of_le_length hfour]
    rw [readAttributesGeneric, ← readRows_of_timeless htimeless, readRows]
  rw [hread]
  exact readStatAttrs_of_skip htimeless (read_of_timeless htimeless) hquiet
    (skipAttrs_of_append more hskip)

/-- Users and groups that are shared, and none of them is known. -/
def unknownIds : NetIds where
  shared := true
  remoteId := 0
  remoteName := []
  localId := 0
  unknown := 0xffffffff
  lookupId := fun _ => none
  lookupName := fun _ => none

def unknownMapping : NetMapping := { users := unknownIds, groups := unknownIds }

def emptyRecord : StatRecord where
  mode := 0
  size := 0
  uid := 0
  gid := 0
  atime := 0
  atimeNsec := 0
  mtime := 0
  mtimeNsec := 0
  ctime := 0
  ctimeNsec := 0
  devMajor := 0
  devMinor := 0
  ino := 0
  btime := 0
  btimeNsec := 0

/-- The attributes of a file of `root` and `wheel`: size, owner and group, permissions, and an extended
pair with 60 bytes. -/
def wheelAttributes : Bytes :=
  [1] ++ storeUint64 7 ++ sshString [114, 111, 111, 116] ++ sshString [119, 104, 101, 101, 108]
    ++ storeUint32 0o644 ++ storeUint32 1 ++ sshString [120] ++ sshString (replicate 60 120)

theorem readsExactly_wheel :
    ReadsExactly .v04 unknownMapping (storeUint32 0x80000085 ++ wheelAttributes) [9] :=
  readsExactly_of_timeless _ _ _ _ (by decide) (by decide) (by decide) (by decide)

/-- In version 4 the eight bytes of a creation time are left over. When owner and group are both `root`,
the search for the domain of the first finds the length of the second, and makes it zero: the second name
is left over. -/
theorem createtime_left_over :
    BlockConforms .v04 (storeUint32 0x10 ++ [1] ++ storeUint64 1600000000) ∧
    ¬ ReadsExactly .v04 unknownMapping (storeUint32 0x10 ++ [1] ++ storeUint64 1600000000) [] ∧
    BlockConforms .v04 (storeUint32 0x80 ++ [1] ++ sshString [114, 111, 111, 116]
      ++ sshString [114, 111, 111, 116]) ∧
    ¬ ReadsExactly .v04 unknownMapping (storeUint32 0x80 ++ [1] ++ sshString [114, 111, 111, 116]
      ++ sshString [114, 111, 111, 116]) [] := by
  refine ⟨by decide, ?_, by decide, ?_⟩
  · intro h
    obtain ⟨stat', hread⟩ := h 4 emptyRecord
    have hrest : (fun r => r.rest) <$> readSftpAttributes .v04 unknownMapping
        ⟨⟨4, storeUint32 0x10 ++ [1] ++ storeUint64 1600000000 ++ []⟩, emptyRecord⟩
        = .ok (storeUint64 1600000000) := by decide
    rw [hread] at hrest
    cases hrest
  · intro h
    obtain ⟨stat', hread⟩ := h 4 emptyRecord
    have hrest : (fun r => r.rest) <$> readSftpAttributes .v04 unknownMapping
        ⟨⟨4, storeUint32 0x80 ++ [1] ++ sshString [114, 111, 111, 116]
          ++ sshString [114, 111, 111, 116] ++ []⟩, emptyRecord⟩
        = .ok [114, 111, 111, 116] := by decide
    rw [hread] at hrest
    cases hrest

/-! ## Reading inside the buffer -/

theorem flags_of_readStatAttrs (h : readStatAttrs version mapping r attrs = .ok r') :
    r'.flags = r.flags := by
  induction attrs generalizing r with
  | nil =>
    cases h
    rfl
  | cons attr attrs ih =>
    obtain ⟨r₁, hfirst, hrest⟩ := bind_eq_ok.mp h
    rw [ih hrest, flags_of_readStatAttr hfirst]

theorem timeless_of_readStatAttrs (h : readStatAttrs version mapping r attrs = .ok r') :
    ∀ attr ∈ attrs, attr.isTime = false := by
  induction attrs generalizing r with
  | nil => exact forall_mem_nil _
  | cons attr attrs ih =>
    obtain ⟨r₁, hfirst, hrest⟩ := bind_eq_ok.mp h
    have hint64 : r.readInt64 ≠ .ok r₁ := by
      intro hread
      obtain ⟨read, -, hread⟩ := bind_eq_ok.mp hread
      cases hread
    refine forall_mem_cons.mpr ⟨?_, ih hrest⟩
    cases attr with
    | accesstime | createtime | modifytime | changetime => exact absurd hfirst hint64
    | _ => rfl

/-- When the names are quiet, the readers stay inside the buffer as long as nothing is missing in it and
there is no time to read. No sign is ever left. -/
theorem readsInside_iff (version : SftpVersion) (mapping : NetMapping) (bits : ℕ) (r : AttrReading)
    (hquiet : ownersQuiet version (readRows version bits) r.rest = true) :
    ReadsInside version mapping bits r ↔
      (skipAttrs version aclFits (readRows version bits) r.rest).isSome ∧
        ∀ attr ∈ readRows version bits, attr.isTime = false := by
  constructor
  · rintro ⟨r', hread, hflags⟩
    refine ⟨?_, timeless_of_readStatAttrs hread⟩
    by_contra hnone
    rw [Option.not_isSome_iff_eq_none] at hnone
    exact hflags hnone (flags_of_readStatAttrs hread)
  · rintro ⟨hsome, htimeless⟩
    obtain ⟨tail, htail⟩ := Option.isSome_iff_exists.mp hsome
    obtain ⟨stat, hread⟩ := readStatAttrs_of_skip htimeless (read_of_timeless htimeless) hquiet htail
    refine ⟨_, hread, ?_⟩
    intro hnone
    rw [htail] at hnone
    cases hnone

theorem readsInside_wheel :
    ReadsInside .v04 unknownMapping 0x80000085 ⟨⟨4, wheelAttributes⟩, emptyRecord⟩ :=
  (readsInside_iff _ _ _ _ (by decide)).mpr ⟨by decide, by decide⟩

/-- From an empty buffer a size is read behind its end. A string that is longer than what is left is passed
over, and the flags of the buffer do not show it. -/
theorem size_read_outside :
    readAttributesGeneric .v03 unknownMapping 0x1 ⟨⟨4, []⟩, emptyRecord⟩ = .error .body ∧
    ¬ ReadsInside .v03 unknownMapping 0x1 ⟨⟨4, []⟩, emptyRecord⟩ ∧
    ¬ ReadsInside .v06 unknownMapping 0x1000 ⟨⟨4, [1] ++ storeUint32 5 ++ [97, 98]⟩, emptyRecord⟩ := by
  have herror : readAttributesGeneric .v03 unknownMapping 0x1 ⟨⟨4, []⟩, emptyRecord⟩
      = .error .body := by decide
  refine ⟨herror, ?_, ?_⟩
  · rintro ⟨r', hread, -⟩
    rw [herror] at hread
    cases hread
  · rintro ⟨r', hread, hflags⟩
    exact hflags (by decide) (flags_of_readStatAttrs hread)

/-! ## The names of owners -/

def atSign : UInt8 := 64

def nameAndDomain (text : Bytes) : Bytes × Option Bytes :=
  (text.take (text.idxOf atSign),
    if atSign ∈ text then some (text.drop (text.idxOf atSign + 1)) else none)

/-- The string is searched for its length, in 64 bytes. -/
def Splits (text : Bytes) : Prop :=
  if UInt8.ofNat text.length ∈ text.take 64 then UInt8.ofNat text.length = atSign
  else 64 ≤ text.length ∧ atSign ∉ text

theorem splitName_iff (text : Bytes) : splitName text = .ok (nameAndDomain text) ↔ Splits text := by
  rw [splitName, findDomain, memchr_eq, Splits, nameAndDomain]
  split
  · next hmem =>
    have htext := mem_of_mem_take hmem
    rw [ok_bind]
    constructor
    · intro h
      obtain ⟨hname, hdomain⟩ := Prod.mk.inj (Except.ok.inj h)
      have hat : atSign ∈ text := by
        by_contra hnot
        simp [hnot] at hdomain
      have hindex := congrArg length hname
      rw [length_take_of_le idxOf_le_length, length_take_of_le idxOf_le_length] at hindex
      exact (idxOf_inj htext).mp hindex
    · intro h
      rw [if_pos (h ▸ htext), h]
      rfl
  · split
    · next hle =>
      by_cases hat : atSign ∈ text
      · simp [hat, hle]
      · simp [hat, hle]
    · next hle =>
      exact iff_of_false (fun h => by cases h) fun h => hle h.1

/-- Strings are split right exactly when their length is found as an `@` or not at all. In a mapping that
is not shared, what is written for the user, the group or root comes back if the search does not end. -/
theorem ownerNames_right (text : Bytes) (ids : NetIds) (localid : UInt32) (behind : Bytes)
    (hshared : ids.shared = false) (hlocal : localid = ids.localId ∨ localid = 0)
    (hlen : 64 ≤ (ids.l2pByNameClient localid ++ behind).length)
    (hsilent : UInt8.ofNat (ids.l2pByNameClient localid).length ∉
      (ids.l2pByNameClient localid ++ behind).take 64) :
    (splitName text = .ok (nameAndDomain text) ↔ Splits text) ∧
      ((ids.p2lByName (ids.l2pByNameClient localid).length (ids.l2pByNameClient localid ++ behind)).map
          Prod.snd = .ok localid ↔
        (localid = 0 → ids.remoteName = rootName → ids.localId = 0)) := by
  refine ⟨splitName_iff text, ?_⟩
  rw [NetIds.p2lByName, findDomain, memchr_eq, if_neg hsilent, if_pos hlen, ok_bind]
  simp only [take_left, NetIds.plainName, hshared, Bool.false_eq_true, if_false]
  change Except.ok _ = Except.ok _ ↔ _
  by_cases hzero : localid = 0
  · simp [NetIds.l2pByNameClient, hzero, rootName, eq_comm]
  · simp [NetIds.l2pByNameClient, hzero, (hlocal.resolve_right hzero).symm]

def sharedNothing : NetIds where
  shared := false
  remoteId := 1
  remoteName := [97]
  localId := 2
  unknown := 3
  lookupId := fun _ => none
  lookupName := fun _ => none

theorem ownerNames_right_zeros :
    (splitName (replicate 64 97) = .ok (nameAndDomain (replicate 64 97)) ↔ Splits (replicate 64 97)) ∧
      ((sharedNothing.p2lByName 1 ([97] ++ replicate 63 0)).map Prod.snd = .ok 2 ↔
        ((2 : UInt32) = 0 → sharedNothing.remoteName = rootName → sharedNothing.localId = 0)) :=
  ownerNames_right (replicate 64 97) sharedNothing 2 (replicate 63 0) rfl (.inl rfl) (by decide) (by decide)

/-- The name `a@b` is searched behind its end, and root is looked up with what lies behind its name. -/
theorem ownerNames_wrong :
    splitName [97, atSign, 98] = .error .body ∧
      (sharedNothing.p2lByName 4 (rootName ++ [4])).map Prod.snd = .ok 3 :=
  ⟨rfl, rfl⟩

end Osns
