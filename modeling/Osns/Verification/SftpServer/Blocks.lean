import Osns.Library.Wire
import Osns.Model.SftpServer.Attributes

/-! Blocks of attributes in requests: their layout in the drafts, and when the readers of the server
keep to it. -/

namespace Osns

open List Option Result Wire

/-! ## Layout -/

/-- The fields of an attribute; the extended pairs come behind their number. -/
def Attr.fields (version : SftpVersion) : Attr → List Wire.Field
  | .type | .textHint => [.word 1]
  | .size | .allocationSize | .accesstime | .createtime | .modifytime | .changetime => [.word 8]
  | .uidgid | .acmodtime => [.word 4, .word 4]
  | .permissions | .nsecAtime | .nsecBtime | .nsecMtime | .nsecCtime | .linkCount => [.word 4]
  | .ownergroup => [.string, .string]
  | .acl | .mimeType | .untranslatedName => [.string]
  | .bits => if version = .v06 then [.word 4, .word 4] else [.word 4]
  | .extended => []

def allValid : SftpValid := { mask := 0xffffffff, flags := 0xffffffff }

/-- The attributes of a valid word, in their order: all of them, supported or not. -/
def draftAttributes (version : SftpVersion) (valid : SftpValid) : List Attr :=
  parseAttributes version allValid valid

section

variable (version : SftpVersion) (check : Bytes → Bool)

/-- What lies behind an attribute that is complete. `check` is for the content of an acl. -/
def skipAttr (rest : Bytes) : Attr → Option Bytes
  | .extended =>
    if 4 ≤ rest.length then
      skip (replicate (2 * getUint32 rest) .string) (rest.drop 4)
    else none
  | .acl =>
    if check ((rest.drop 4).take (getUint32 rest)) then skip [.string] rest else none
  | attr => skip (attr.fields version) rest

def skipAttrs : List Attr → Bytes → Option Bytes
  | [], rest => some rest
  | attr :: attrs, rest => (skipAttr version check rest attr).bind (skipAttrs attrs)

/-- What lies behind a block: a valid word and its attributes. -/
def skipBlock (block : Bytes) : Option Bytes :=
  if 4 ≤ block.length then
    skipAttrs version check (draftAttributes version (splitValid (getUint32 block))) (block.drop 4)
  else none

end

def aclLayout (count : ℕ) : List Wire.Field :=
  (replicate count [.word 4, .word 4, .word 4, .string]).flatten

/-- An acl that is empty, or a number of entries with nothing missing. -/
def aclFits (acl : Bytes) : Bool :=
  acl.isEmpty || decide (4 ≤ acl.length) && (skip (aclLayout (getUint32 acl)) (acl.drop 4)).isSome

def Attr.isTime : Attr → Bool
  | .accesstime | .createtime | .modifytime | .changetime => true
  | _ => false

def BlockTimeless (version : SftpVersion) (block : Bytes) : Prop :=
  ∀ attr ∈ draftAttributes version (splitValid (getUint32 block)), attr.isTime = false

instance (version : SftpVersion) (block : Bytes) : Decidable (BlockTimeless version block) :=
  inferInstanceAs (Decidable (∀ _ ∈ _, _))

/-! ## Fields and readers -/

variable {version : SftpVersion} {check : Bytes → Bool} {rest tail : Bytes} {reader : AttrReader}
  {attr : Attr} {attrs : List Attr}

theorem decode_take_four (h : 4 ≤ rest.length) : BigEndian.decode (rest.take 4) = getUint32 rest := by
  rw [← getUint32_take (Nat.le_refl 4), ← getUint32_eq (length_take_of_le h) [], append_nil]

variable {n : ℕ} {attrs' : List Attr}

theorem attrReadBytes_of_le (h : n ≤ rest.length) :
    attrReadBytes n rest = .ok (rest.take n, rest.drop n) := by
  rw [attrReadBytes, if_pos h]

theorem attrReadUint32_of_le (h : 4 ≤ rest.length) :
    attrReadUint32 rest = .ok (getUint32 rest, rest.drop 4) := by
  rw [attrReadUint32, attrReadBytes_of_le h, ok_bind]
  simp [getUint32_take (Nat.le_refl 4)]

variable {callback : Bytes → Except ServerFault Unit}

theorem attrReadString_of_skip (h : skip [.string] rest = some tail)
    (hcallback : 0 < getUint32 rest → callback (rest.drop 4) = .ok ()) :
    attrReadString callback rest = .ok tail := by
  rw [skip_string] at h
  obtain ⟨⟨hfour, hlen⟩, htail⟩ := h
  rw [decode_take_four hfour] at hlen htail
  cases htail
  rw [attrReadString, attrReadUint32_of_le hfour, ok_bind]
  simp only [length_drop]
  by_cases hzero : 0 < getUint32 rest
  · rw [if_pos ⟨hzero, by omega⟩, hcallback hzero, ok_bind, drop_drop]
    rfl
  · rw [if_neg (fun h => hzero h.1), show getUint32 rest = 0 by omega]
    rfl

theorem attrString_of_skip (h : skip [.string] reader.rest = some tail)
    (hcallback : 0 < getUint32 reader.rest → callback (reader.rest.drop 4) = .ok ()) :
    attrString callback reader = .ok { reader with rest := tail } := by
  rw [attrString, attrReadString_of_skip h hcallback]
  rfl

theorem aclEntries_of_skip {count : ℕ} (h : skip (aclLayout count) rest = some tail) :
    aclEntries count rest = .ok () := by
  induction count generalizing rest with
  | zero => rfl
  | succ count ih =>
    have hlayout : aclLayout (count + 1)
        = [.word 4, .word 4, .word 4, .string] ++ aclLayout count := by
      simp [aclLayout, replicate_succ]
    rw [hlayout] at h
    simp only [cons_append, nil_append, skip_word, skip_string,
      length_drop, drop_drop] at h
    obtain ⟨h₁, h₂, h₃, ⟨hfour, hlen⟩, hrest⟩ := h
    have hdrop : 4 ≤ (rest.drop 12).length := by
      rw [length_drop]
      omega
    rw [aclEntries, attrReadBytes_of_le (by omega), ok_bind]
    simp only [attrReadUint32_of_le hdrop, ok_bind, drop_drop]
    rw [decode_take_four hdrop] at hrest
    exact ih (by rw [Nat.add_assoc]; exact hrest)

theorem attrAclStringCb_of_fits (hlen : getUint32 rest ≤ (rest.drop 4).length)
    (hzero : 0 < getUint32 rest) (h : aclFits ((rest.drop 4).take (getUint32 rest)) = true) :
    attrAclStringCb (rest.drop 4) = .ok () := by
  generalize hacl : (rest.drop 4).take (getUint32 rest) = acl at h
  have hne : acl.isEmpty = false := by
    rw [isEmpty_eq_false_iff, ← hacl, ← length_pos_iff, length_take_of_le hlen]
    exact hzero
  simp only [aclFits, hne, Bool.false_or, Bool.and_eq_true, decide_eq_true_eq,
    isSome_iff_exists] at h
  obtain ⟨hfour, tail, hskip⟩ := h
  have hsplit : rest.drop 4 = acl ++ (rest.drop 4).drop (getUint32 rest) := by
    rw [← hacl, take_append_drop]
  rw [hsplit]
  generalize (rest.drop 4).drop (getUint32 rest) = more
  have hmore : skip (aclLayout (getUint32 acl)) ((acl ++ more).drop 4) = some (tail ++ more) := by
    rw [drop_append_of_le_length hfour]
    refine skip_of_append ?_ hskip
    simp [aclLayout, mem_flatten, mem_replicate]
  rw [attrAclStringCb, attrReadUint32_of_le (by rw [length_append]; omega), ok_bind]
  simp only [getUint32_append hfour]
  exact aclEntries_of_skip hmore

theorem attrExtensions_of_skip {count : ℕ}
    (h : skip (replicate (2 * count) .string) rest = some tail) :
    attrExtensions count rest = .ok tail := by
  induction count generalizing rest with
  | zero =>
    cases h
    rfl
  | succ count ih =>
    have hlayout : replicate (2 * (count + 1)) Wire.Field.string
        = [.string] ++ ([.string] ++ replicate (2 * count) .string) := by
      rw [Nat.mul_succ]
      rfl
    rw [hlayout, skip_append, bind_eq_some_iff] at h
    obtain ⟨rest₁, h₁, h⟩ := h
    rw [skip_append, bind_eq_some_iff] at h
    obtain ⟨rest₂, h₂, h⟩ := h
    rw [attrExtensions, attrReadString_of_skip h₁ (fun _ => rfl), ok_bind,
      attrReadString_of_skip h₂ (fun _ => rfl), ok_bind]
    exact ih h

/-! ## Attributes one after the other -/

def Attr.isUnread : Attr → Bool
  | .nsecAtime | .nsecBtime => true
  | _ => false

/-- What holds of single attributes and of times with their nanoseconds, and is kept when lists are put
together, holds of the attributes of every valid word. -/
theorem parseAttributes_rule {P : List Attr → Prop} {supported valid : SftpValid} (hnil : P [])
    (happend : ∀ {attrs attrs' : List Attr}, P attrs → P attrs' → P (attrs ++ attrs'))
    (hone : ∀ {attr : Attr}, attr.isTime = false → attr.isUnread = false → P [attr])
    (htime : ∀ {attr : Attr} (attrs : List Attr), attr.isTime = true → P (attr :: attrs)) :
    P (parseAttributes version supported valid) := by
  have hif : ∀ {attrs : List Attr} (bits bit : UInt32), P attrs → P (attrIf bits bit attrs) := by
    intro attrs bits bit h
    unfold attrIf
    split
    · exact h
    · exact hnil
  have hsingle : ∀ {attr : Attr} (bits bit : UInt32), attr.isTime = false → attr.isUnread = false →
      P (attrIf bits bit [attr]) := fun bits bit h h' => hif bits bit (hone h h')
  have hpair : ∀ {attr : Attr} (valid : SftpValid) (bit : UInt32) (nsec : Attr), attr.isTime = true →
      P (timeIf valid bit attr nsec) := fun valid bit nsec h => hif valid.mask bit (htime _ h)
  have htype : ∀ {attrs : List Attr}, P attrs → P (.type :: attrs) :=
    fun h => happend (hone rfl rfl : P [.type]) h
  -- each table is a sequence of attributes and times with their bits
  cases version with
  | v03 =>
    simp only [parseAttributes, parseAttributesV03]
    repeat' apply happend
    all_goals exact hsingle _ _ rfl rfl
  | v04 | v05 | v06 =>
    refine htype ?_
    repeat' apply happend
    all_goals first | exact hsingle _ _ rfl rfl | exact hpair _ _ _ rfl

/-- The readers of these attributes keep to the layout, or stop at a time. -/
def Reads (version : SftpVersion) (attrs : List Attr) : Prop :=
  ∀ (reader : AttrReader) (tail : Bytes), skipAttrs version aclFits attrs reader.rest = some tail →
    (∃ mode, readAttrs version reader attrs = .ok { rest := tail, mode }) ∨
      readAttrs version reader attrs = .error .shift ∧ ∃ attr ∈ attrs, attr.isTime = true

theorem reads_of_readAttr (h : ∀ (reader : AttrReader) (tail : Bytes),
    skipAttr version aclFits reader.rest attr = some tail →
      ∃ mode, readAttr version reader attr = .ok { rest := tail, mode }) : Reads version [attr] := by
  intro reader tail hskip
  simp only [skipAttrs, bind_eq_some_iff, some.injEq, exists_eq_right] at hskip
  obtain ⟨mode, hread⟩ := h reader tail hskip
  refine .inl ⟨mode, ?_⟩
  rw [readAttrs, hread]
  rfl

theorem reads_skipped (hskip : ∀ rest tail, skipAttr version aclFits rest attr = some tail →
      n ≤ rest.length ∧ tail = rest.drop n)
    (hread : ∀ reader, readAttr version reader attr = attrSkip n reader) : Reads version [attr] := by
  apply reads_of_readAttr
  intro reader tail h
  obtain ⟨hle, rfl⟩ := hskip reader.rest tail h
  refine ⟨reader.mode, ?_⟩
  rw [hread, attrSkip, attrReadBytes_of_le hle]
  rfl

theorem skip_one_word (h : skip [.word n] rest = some tail) :
    n ≤ rest.length ∧ tail = rest.drop n := by
  obtain ⟨hle, htail⟩ := skip_word.mp h
  exact ⟨hle, (some.inj htail).symm⟩

theorem skip_two_words {m : ℕ} (h : skip [.word n, .word m] rest = some tail) :
    n + m ≤ rest.length ∧ tail = rest.drop (n + m) := by
  obtain ⟨hle, htail⟩ := skip_word.mp h
  obtain ⟨hle', rfl⟩ := skip_one_word htail
  rw [length_drop] at hle'
  exact ⟨by omega, drop_drop⟩

theorem reads_permissions : Reads version [.permissions] := by
  apply reads_of_readAttr
  intro reader tail h
  obtain ⟨hle, rfl⟩ := skip_one_word h
  refine ⟨getUint32 reader.rest &&& 0o777, ?_⟩
  rw [readAttr, attrReadUint32_of_le hle]
  rfl

theorem reads_ownergroup : Reads version [.ownergroup] := by
  apply reads_of_readAttr
  intro reader tail h
  have hboth : skip ([.string] ++ [.string]) reader.rest = some tail := h
  rw [skip_append, bind_eq_some_iff] at hboth
  obtain ⟨middle, hfirst, hsecond⟩ := hboth
  refine ⟨reader.mode, ?_⟩
  rw [readAttr, attrString_of_skip hfirst (fun _ => rfl), ok_bind,
    attrString_of_skip hsecond (fun _ => rfl)]

theorem reads_acl : Reads version [.acl] := by
  apply reads_of_readAttr
  intro reader tail h
  simp only [skipAttr, ite_none_right_eq_some] at h
  obtain ⟨hfits, hskip⟩ := h
  refine ⟨reader.mode, ?_⟩
  rw [readAttr]
  refine attrString_of_skip hskip fun hzero => ?_
  obtain ⟨⟨hfour, hlen⟩, -⟩ := skip_string.mp hskip
  rw [decode_take_four hfour] at hlen
  exact attrAclStringCb_of_fits (by rw [length_drop]; omega) hzero hfits

theorem reads_extended : Reads version [.extended] := by
  apply reads_of_readAttr
  intro reader tail h
  simp only [skipAttr, ite_none_right_eq_some] at h
  obtain ⟨hfour, hskip⟩ := h
  refine ⟨reader.mode, ?_⟩
  rw [readAttr, attrReadUint32_of_le hfour, ok_bind]
  simp [attrExtensions_of_skip hskip]

theorem reads_text (hskip : ∀ rest, skipAttr version aclFits rest attr = skip [.string] rest)
    (hread : ∀ reader, readAttr version reader attr = attrString attrNoCb reader) :
    Reads version [attr] := by
  apply reads_of_readAttr
  intro reader tail h
  rw [hskip] at h
  exact ⟨reader.mode, by rw [hread, attrString_of_skip h (fun _ => rfl)]⟩

theorem reads_single (htime : attr.isTime = false) (hunread : attr.isUnread = false) :
    Reads version [attr] := by
  cases attr with
  | type | textHint | size | allocationSize | nsecMtime | nsecCtime | linkCount =>
    exact reads_skipped (fun _ _ => skip_one_word) (fun _ => rfl)
  | uidgid | acmodtime => exact reads_skipped (fun _ _ => skip_two_words) (fun _ => rfl)
  | bits =>
    cases version with
    | v06 => exact reads_skipped (fun _ _ => skip_two_words) (fun _ => rfl)
    | v03 | v04 | v05 => exact reads_skipped (fun _ _ => skip_one_word) (fun _ => rfl)
  | permissions => exact reads_permissions
  | ownergroup => exact reads_ownergroup
  | acl => exact reads_acl
  | mimeType | untranslatedName => exact reads_text (fun _ => rfl) (fun _ => rfl)
  | extended => exact reads_extended
  | accesstime | createtime | modifytime | changetime => cases htime
  | nsecAtime | nsecBtime => cases hunread

theorem restrict_allValid (valid : SftpValid) : valid.restrict allValid = valid := by
  simp only [SftpValid.restrict, allValid]
  rw [show (0xffffffff : UInt32) = -1 from rfl, UInt32.and_neg_one, UInt32.and_neg_one]

/-! ## Blocks -/

section

variable {check' : Bytes → Bool} (hcheck : ∀ acl, check acl = true → check' acl = true)

include hcheck

theorem skipAttr_mono (h : skipAttr version check rest attr = some tail) :
    skipAttr version check' rest attr = some tail := by
  cases attr with
  | acl =>
    simp only [skipAttr, ite_none_right_eq_some] at h ⊢
    exact ⟨hcheck _ h.1, h.2⟩
  | _ => exact h

theorem skipAttrs_mono (h : skipAttrs version check attrs rest = some tail) :
    skipAttrs version check' attrs rest = some tail := by
  induction attrs generalizing rest with
  | nil => exact h
  | cons attr attrs ih =>
    rw [skipAttrs, bind_eq_some_iff] at h ⊢
    obtain ⟨middle, hfirst, hrest⟩ := h
    exact ⟨middle, skipAttr_mono hcheck hfirst, ih hrest⟩

variable {block : Bytes}

theorem skipBlock_mono (h : skipBlock version check block = some tail) :
    skipBlock version check' block = some tail := by
  simp only [skipBlock, ite_none_right_eq_some] at h ⊢
  exact ⟨h.1, skipAttrs_mono hcheck h.2⟩

end

end Osns
