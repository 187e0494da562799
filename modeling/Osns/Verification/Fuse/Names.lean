import Osns.Model.Fuse.Names

/-! Which strings of a well-formed request a filesystem is called with. -/

namespace Osns

open List Result

/-! ## Well-formed requests -/

def FuseNameOp.structSize : FuseNameOp → ℕ
  | .mknod | .create => 16
  | .mkdir | .rename => 8
  | .lookup | .symlink | .unlink | .rmdir => 0

def FuseNameOp.strings : FuseNameOp → ℕ
  | .symlink | .rename => 2
  | _ => 1

/-- The data of a request: a structure and names that each end with a NUL. -/
def fuseBody (fixed : Bytes) (names : List Bytes) : Bytes := fixed ++ (names.map (· ++ [0])).flatten

structure FuseNameRequest where
  op : FuseNameOp
  fixed : Bytes
  names : List Bytes
  fixed_length : fixed.length = op.structSize
  names_length : names.length = op.strings
  nul_free : ∀ name ∈ names, 0 ∉ name
  fits : (fuseBody fixed names).length < 2 ^ 32

def FuseNameRequest.body (r : FuseNameRequest) : Bytes := fuseBody r.fixed r.names

/-- The function for the code is called with the body, which is followed by other bytes in its buffer. -/
def FuseNameRequest.handle {ι : Type} (r : FuseNameRequest) (fs : FuseFs ι) (ino : UInt64) (behind : Bytes) :
    Except Fault (FuseOutcome ι) :=
  r.op.cb fs { ino, size := r.body.length } (r.body ++ behind)

/-- The inodes of the request are there, and memory where it is needed. -/
def FuseNameRequest.Found {ι : Type} (r : FuseNameRequest) (fs : FuseFs ι) (ino : UInt64) : Prop :=
  match r.op with
  | .create => (fs.lookupWorkspaceInode ino).isSome ∧ fs.malloc = true
  | .rename => (fs.inode ino).isSome ∧ (fs.inode (UInt64.ofNat (fs.native r.fixed))).isSome
  | _ => (fs.inode ino).isSome

def FuseCall.strings {ι : Type} : FuseCall ι → List FuseString
  | .lookup _ name | .mkdir _ name _ _ | .mknod _ name _ _ _ | .unlink _ name | .rmdir _ name
  | .create _ name _ _ _ => [name]
  | .symlink _ name target => [name, target]
  | .rename _ oldname _ newname _ => [oldname, newname]

/-- The texts that the filesystem gets are the names of the request. -/
def FuseCall.Receives {ι : Type} (call : FuseCall ι) (names : List Bytes) : Prop :=
  call.strings.map FuseString.text = names.map .ok

/-! ## Strings -/

section

variable {name rest : Bytes}

theorem strlen_name (h : 0 ∉ name) : strlen (name ++ [0] ++ rest) = .ok name.length := by
  have hnone : name.findIdx? (· = 0) = none := by
    rw [findIdx?_eq_none_iff]
    intro b hb
    exact decide_eq_false fun heq => h (heq ▸ hb)
  have hfind : (name ++ [0] ++ rest).findIdx? (· = 0) = some name.length := by
    simp [findIdx?_append, findIdx?_cons, hnone]
  rw [strlen, hfind, inBounds_some]

theorem fuseStringAt_name {data : Bytes} {off : ℕ} (h : 0 ∉ name) (hlen : name.length < 2 ^ 32)
    (hdrop : data.drop off = name ++ [0] ++ rest) :
    fuseStringAt data off = .ok { ptr := name ++ [0] ++ rest, len := some name.length } := by
  rw [fuseStringAt, hdrop, strlen_name h, ok_bind, u32_of_lt hlen]
  rfl

theorem text_name (name rest : Bytes) :
    FuseString.text { ptr := name ++ [0] ++ rest, len := some name.length } = .ok name := by
  have hload : Buffer.load (name ++ [0] ++ rest) 0 name.length = some name := by
    rw [append_assoc]
    exact Buffer.load_append [] name ([0] ++ rest) rfl rfl
  exact congrArg inBounds hload

theorem text_pointer (h : 0 ∉ name) :
    FuseString.text { ptr := name ++ [0] ++ rest, len := none } = .ok name := by
  simp only [FuseString.text, strlen_name h, ok_bind]
  rw [append_assoc, take_left]
  rfl

theorem field_append {ι : Type} (fs : FuseFs ι) (fixed rest : Bytes) (off : ℕ)
    (h : off + 4 ≤ fixed.length) :
    ∃ value, fs.field (fixed ++ rest) off 4 = .ok value := by
  have hle : off + 4 ≤ (fixed ++ rest).length := by
    rw [length_append]
    omega
  refine ⟨fs.native (((fixed ++ rest).drop off).take 4), ?_⟩
  rw [FuseFs.field, Buffer.load, if_pos hle, inBounds_some]
  rfl

end

/-! ## Calls -/

section

variable {ι : Type} {fs : FuseFs ι} {ino : UInt64} {fixed name behind : Bytes} {size : ℕ}

theorem cbCommon_found (hfound : (fs.inode ino).isSome) {cb : ι → Except Fault (FuseCall ι)}
    {P : FuseCall ι → Prop} (hcb : ∀ inode, ∃ call, cb inode = .ok call ∧ P call) :
    ∃ call, fs.cbCommon { ino, size } cb = .ok (.call call) ∧ P call := by
  obtain ⟨inode, hinode⟩ := Option.isSome_iff_exists.mp hfound
  obtain ⟨call, hcall, hP⟩ := hcb inode
  refine ⟨call, ?_, hP⟩
  simp only [FuseFs.cbCommon, hinode, hcall]
  rfl

theorem receives_single (fixed : Bytes) (hfound : (fs.inode ino).isSome) (hnul : 0 ∉ name)
    (hlen : name.length < 2 ^ 32)
    {cb : ι → FuseString → Except Fault (FuseCall ι)}
    (hcb : ∀ inode s, ∃ call, cb inode s = .ok call ∧ call.strings = [s]) :
    ∃ call, fs.cbCommon { ino, size } (fun inode => do
        let s ← fuseStringAt (fixed ++ (name ++ [0] ++ behind)) fixed.length
        cb inode s) = .ok (.call call) ∧ call.Receives [name] := by
  refine cbCommon_found hfound fun inode => ?_
  obtain ⟨call, hcall, hstrings⟩ := hcb inode { ptr := name ++ [0] ++ behind, len := some name.length }
  refine ⟨call, ?_, ?_⟩
  · rw [fuseStringAt_name hnul hlen drop_left, ok_bind, hcall]
  · rw [FuseCall.Receives, hstrings, map_singleton, text_name]
    rfl

theorem receives_symlink (hfound : (fs.inode ino).isSome) (hnul : 0 ∉ name) (hlen : name.length < 2 ^ 32) :
    ∃ c, fs.fuseFsSymlink { ino, size } (name ++ [0] ++ behind) = .ok (.call c) ∧
      c.Receives [name, []] := by
  refine cbCommon_found hfound fun inode => ⟨.symlink inode
    { ptr := name ++ [0] ++ behind, len := some name.length }
    { ptr := [] ++ [0] ++ behind, len := some 0 }, ?_, ?_⟩
  · have htarget : (name ++ [0] ++ behind).drop name.length = [] ++ [0] ++ behind := by
      rw [append_assoc, drop_left]
      rfl
    rw [fuseStringAt_name hnul hlen drop_zero, ok_bind, strlen_name hnul, ok_bind,
      u32_of_lt hlen, fuseStringAt_name not_mem_nil (by decide) htarget]
    rfl
  · rw [FuseCall.Receives, FuseCall.strings, map_cons, map_singleton, text_name]
    rfl

theorem receives_rename (hfound : (fs.inode ino).isSome)
    (hnew : (fs.inode (UInt64.ofNat (fs.native fixed))).isSome) (hnul : 0 ∉ name)
    (hfixed : fixed.length = 8) :
    ∃ c, fs.fuseFsRename { ino, size } (fixed ++ (name ++ [0] ++ behind)) = .ok (.call c) ∧
      c.Receives [name, []] := by
  obtain ⟨inode, hinode⟩ := Option.isSome_iff_exists.mp hfound
  obtain ⟨newinode, hnewinode⟩ := Option.isSome_iff_exists.mp hnew
  have hold : (fixed ++ (name ++ [0] ++ behind)).drop 8 = name ++ [0] ++ behind := by
    rw [← hfixed, drop_left]
  have hnewname : (fixed ++ (name ++ [0] ++ behind)).drop (8 + name.length) = [] ++ [0] ++ behind := by
    rw [← drop_drop, hold, append_assoc, drop_left]
    rfl
  have hnewino : fs.field (fixed ++ (name ++ [0] ++ behind)) 0 8 = .ok (fs.native fixed) := by
    have hload : Buffer.load (fixed ++ (name ++ [0] ++ behind)) 0 8 = some fixed :=
      Buffer.load_append [] fixed _ rfl hfixed.symm
    rw [FuseFs.field, hload]
    rfl
  refine ⟨.rename inode { ptr := name ++ [0] ++ behind, len := none } newinode
    { ptr := [] ++ [0] ++ behind, len := none } 0, ?_, ?_⟩
  · rw [FuseFs.fuseFsRename, hnewino, ok_bind, hold, strlen_name hnul, ok_bind, hnewname]
    simp only [hinode, hnewinode]
    rfl
  · rw [FuseCall.Receives, FuseCall.strings, map_cons, map_singleton, text_pointer hnul,
      text_pointer not_mem_nil]
    rfl

theorem receives_create (hfound : (fs.lookupWorkspaceInode ino).isSome) (hmalloc : fs.malloc = true)
    (hfixed : fixed.length = 16) (hsize : size = fixed.length + (name.length + 1)) (hlen : size < 2 ^ 32) :
    ∃ c, fs.fuseFsCreate { ino, size } (fixed ++ (name ++ [0] ++ behind)) = .ok (.call c) ∧
      c.Receives [name ++ [0]] := by
  obtain ⟨inode, hinode⟩ := Option.isSome_iff_exists.mp hfound
  obtain ⟨flags, hflags⟩ := field_append fs fixed (name ++ [0] ++ behind) 0 (by omega)
  obtain ⟨mode, hmode⟩ := field_append fs fixed (name ++ [0] ++ behind) 4 (by omega)
  obtain ⟨umask, humask⟩ := field_append fs fixed (name ++ [0] ++ behind) 8 (by omega)
  have hname : (fixed ++ (name ++ [0] ++ behind)).drop 16 = name ++ [0] ++ behind := by
    rw [← hfixed, drop_left]
  have hleft : u32Sub size 16 = (name ++ [0]).length := by
    rw [u32Sub_of_le hlen (by omega), length_append, length_singleton]
    omega
  refine ⟨.create inode { ptr := name ++ [0] ++ behind, len := some (name ++ [0]).length }
    (flags ||| oCREAT) mode umask, ?_, ?_⟩
  · simp only [FuseFs.fuseFsCreate, hinode, hmalloc, if_true, hflags, hmode, humask, ok_bind, hname,
      hleft]
    rfl
  · have hload : Buffer.load (name ++ [0] ++ behind) 0 (name ++ [0]).length = some (name ++ [0]) :=
      Buffer.load_append [] (name ++ [0]) behind rfl rfl
    exact congrArg (fun text => [inBounds text]) hload

end

/-! ## Requests -/

theorem fuseBody_one (fixed name behind : Bytes) :
    fuseBody fixed [name] ++ behind = fixed ++ (name ++ [0] ++ behind) := by
  simp [fuseBody]

theorem fuseBody_two (fixed name second behind : Bytes) :
    fuseBody fixed [name, second] ++ behind = fixed ++ (name ++ [0] ++ (second ++ [0] ++ behind)) := by
  simp [fuseBody]

theorem FuseCall.Receives.iff_eq {ι : Type} {call : FuseCall ι} {names names' : List Bytes}
    (h : call.Receives names) : call.Receives names' ↔ names = names' := by
  rw [FuseCall.Receives] at h ⊢
  rw [h]
  exact map_inj_right fun _ _ heq => Except.ok.inj heq

def FuseNameRequest.delivered (r : FuseNameRequest) : List Bytes :=
  match r.op with
  | .create => r.names.map (· ++ [0])
  | .symlink | .rename => r.names.take 1 ++ [[]]
  | _ => r.names

theorem FuseNameRequest.delivered_eq_names_iff (r : FuseNameRequest) :
    r.delivered = r.names ↔ r.op ≠ .create ∧ ∀ name ∈ r.names.tail, name = [] := by
  obtain ⟨op, fixed, names, hfixed, hnames, hnul, hfits⟩ := r
  cases op with
  | symlink | rename =>
    obtain ⟨name, second, rfl⟩ := length_eq_two.mp hnames
    simp [delivered, eq_comm]
  | create | lookup | mknod | mkdir | unlink | rmdir =>
    obtain ⟨name, rfl⟩ := length_eq_one_iff.mp hnames
    simp [delivered]

theorem FuseNameRequest.receives_delivered {ι : Type} (r : FuseNameRequest) (fs : FuseFs ι) (ino : UInt64)
    (behind : Bytes) (hfound : r.Found fs ino) :
    ∃ call, r.handle fs ino behind = .ok (.call call) ∧ call.Receives r.delivered := by
  obtain ⟨op, fixed, names, hfixed, hnames, hnul, hfits⟩ := r
  have hlen {name : Bytes} (hmem : name ∈ names) : name.length < 2 ^ 32 := by
    have hle := (sublist_flatten_of_mem (mem_map_of_mem (f := (· ++ [0])) hmem)).length_le
    simp only [fuseBody, length_append] at hfits hle
    omega
  simp only [handle, body]
  cases op with
  | lookup | unlink | rmdir =>
    obtain ⟨name, rfl⟩ := length_eq_one_iff.mp hnames
    obtain rfl := eq_nil_of_length_eq_zero hfixed
    rw [fuseBody_one]
    exact receives_single [] hfound (hnul name mem_cons_self) (hlen mem_cons_self) fun _ _ => ⟨_, rfl, rfl⟩
  | mkdir =>
    obtain ⟨name, rfl⟩ := length_eq_one_iff.mp hnames
    rw [fuseBody_one]
    change fixed.length = 8 at hfixed
    change ∃ call, fs.fuseFsMkdir _ _ = _ ∧ FuseCall.Receives call [name]
    obtain ⟨mode, hmode⟩ := field_append fs fixed (name ++ [0] ++ behind) 0 (by omega)
    obtain ⟨umask, humask⟩ := field_append fs fixed (name ++ [0] ++ behind) 4 (by omega)
    rw [FuseFs.fuseFsMkdir, ← hfixed]
    refine receives_single fixed hfound (hnul name mem_cons_self) (hlen mem_cons_self) fun inode s => ?_
    exact ⟨.mkdir inode s mode umask, by rw [hmode, ok_bind, humask]; rfl, rfl⟩
  | mknod =>
    obtain ⟨name, rfl⟩ := length_eq_one_iff.mp hnames
    rw [fuseBody_one]
    change fixed.length = 16 at hfixed
    change ∃ call, fs.fuseFsMknod _ _ = _ ∧ FuseCall.Receives call [name]
    obtain ⟨mode, hmode⟩ := field_append fs fixed (name ++ [0] ++ behind) 0 (by omega)
    obtain ⟨rdev, hrdev⟩ := field_append fs fixed (name ++ [0] ++ behind) 4 (by omega)
    obtain ⟨umask, humask⟩ := field_append fs fixed (name ++ [0] ++ behind) 8 (by omega)
    rw [FuseFs.fuseFsMknod, ← hfixed]
    refine receives_single fixed hfound (hnul name mem_cons_self) (hlen mem_cons_self) fun inode s => ?_
    exact ⟨.mknod inode s mode rdev umask, by rw [hmode, ok_bind, hrdev, ok_bind, humask]; rfl, rfl⟩
  | symlink =>
    obtain ⟨name, second, rfl⟩ := length_eq_two.mp hnames
    obtain rfl := eq_nil_of_length_eq_zero hfixed
    rw [fuseBody_two]
    exact receives_symlink hfound (hnul name mem_cons_self) (hlen mem_cons_self)
  | rename =>
    obtain ⟨name, second, rfl⟩ := length_eq_two.mp hnames
    rw [fuseBody_two]
    exact receives_rename hfound.1 hfound.2 (hnul name mem_cons_self) hfixed
  | create =>
    obtain ⟨name, rfl⟩ := length_eq_one_iff.mp hnames
    rw [fuseBody_one]
    exact receives_create hfound.1 hfound.2 hfixed (by simp [fuseBody]) hfits

/-- The filesystem is called with the names of the request unless it creates a file or has a second name
that is not empty. -/
theorem FuseNameRequest.received_iff {ι : Type} (r : FuseNameRequest) (fs : FuseFs ι) (ino : UInt64)
    (behind : Bytes) (hfound : r.Found fs ino) :
    ∃ call, r.handle fs ino behind = .ok (.call call) ∧
      (call.Receives r.names ↔ r.op ≠ .create ∧ ∀ name ∈ r.names.tail, name = []) := by
  obtain ⟨call, hcall, hreceives⟩ := r.receives_delivered fs ino behind hfound
  refine ⟨call, hcall, ?_⟩
  rw [hreceives.iff_eq]
  exact r.delivered_eq_names_iff

def oneInodeFs : FuseFs Unit where
  rootinode := ()
  lookupWorkspaceInode := fun _ => none
  malloc := true
  native := fun _ => 0

/-- A directory `a` is made. -/
theorem FuseNameRequest.received_mkdir :
    ∃ call, FuseNameRequest.handle
        ⟨.mkdir, [0, 0, 1, 237, 0, 0, 0, 18], [[97]], rfl, rfl, by decide, by decide⟩ oneInodeFs 1 []
          = .ok (.call call) ∧ call.Receives [[97]] := by
  obtain ⟨call, hcall, hiff⟩ := FuseNameRequest.received_iff
    ⟨.mkdir, [0, 0, 1, 237, 0, 0, 0, 18], [[97]], rfl, rfl, by decide, by decide⟩ oneInodeFs 1 [] rfl
  exact ⟨call, hcall, hiff.mpr ⟨by decide, by simp⟩⟩

/-- The target `b` of a link is not passed on. -/
theorem FuseNameRequest.target_lost :
    ∃ call, FuseNameRequest.handle ⟨.symlink, [], [[97], [98]], rfl, rfl, by decide, by decide⟩
        oneInodeFs 1 [] = .ok (.call call) ∧
      call.strings.map FuseString.text = [.ok [97], .ok []] ∧ ¬ call.Receives [[97], [98]] := by
  obtain ⟨call, hcall, hreceives⟩ := FuseNameRequest.receives_delivered
    ⟨.symlink, [], [[97], [98]], rfl, rfl, by decide, by decide⟩ oneInodeFs 1 [] rfl
  exact ⟨call, hcall, hreceives, fun h => absurd (hreceives.iff_eq.mp h) (by decide)⟩

end Osns
