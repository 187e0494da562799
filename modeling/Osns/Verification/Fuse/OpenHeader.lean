import Osns.Library.Chains
import Osns.Library.Transition
import Osns.Model.Fuse.OpenHeader

/-! Which object `get_fuse_open_header` finds for a handle, behind any history of requests. -/

namespace Osns

open Option Function

/-! ## What is open -/

/-- The objects that are open, under the handles that they have been given. -/
abbrev FuseOpenObjects := UInt64 → Option FuseOpenHeader

/-- An object is opened when there is an inode, memory for it and no error. -/
def openedFuseObject (type : FuseOpenType) (inode malloc : Option UInt64) (error : ℕ) :
    Option FuseOpenHeader :=
  match inode, malloc, error with
  | some ino, some address, 0 => some { address, type, ino }
  | _, _, _ => none

def FuseOpenObjects.add (m : FuseOpenObjects) (opened : Option FuseOpenHeader) : FuseOpenObjects :=
  opened.elim m fun oh => update m oh.address (some oh)

/-- A handle is closed as the kind of object and for the inode it has been opened for. -/
def FuseOpenObjects.close (m : FuseOpenObjects) (type : FuseOpenType) (ino fh : UInt64) : FuseOpenObjects :=
  if (m fh).any fun oh => oh.type = type ∧ oh.ino = ino then update m fh none else m

def FuseOpenObjects.after (m : FuseOpenObjects) : FuseOpenRequest → FuseOpenObjects
  | .open inode malloc error => m.add (openedFuseObject .file inode malloc error)
  | .create inode malloc error => m.add (openedFuseObject .file inode malloc error)
  | .opendir inode malloc error => m.add (openedFuseObject .dir inode malloc error)
  | .release ino fh => m.close .file ino fh
  | .releasedir ino fh => m.close .dir ino fh

/-- The hashtable beside the objects that it is for. -/
structure FuseOpens where
  hashtable : FuseOpenHashtable
  objects : FuseOpenObjects

namespace FuseOpens

def start : FuseOpens where
  hashtable := initFuseOpenHashtable
  objects := fun _ => none

def next (s : FuseOpens) (request : FuseOpenRequest) : Option FuseOpens :=
  some { hashtable := (request.handle s.hashtable).1, objects := s.objects.after request }

end FuseOpens

/-! ## The hashtable -/

variable (t : FuseOpenHashtable)

def findFuseOpenHeader (fh : UInt64) : Option FuseOpenHeader :=
  Chains.lookup fuseOpenHashvalue FuseOpenHeader.address t fh

/-- A request that does no harm: memory is only given out when no object in the table has it, and a
release does not get at an object with another handle. -/
def FuseOpenRequest.Harmless : FuseOpenRequest → Prop
  | .open _ malloc _ | .create _ malloc _ | .opendir _ malloc _ =>
    malloc.all fun address => (findFuseOpenHeader t address).isNone
  | .release ino fh =>
    (getFuseOpenHeader t fh).all fun oh => oh.address = fh ∨ ¬ (oh.type = .file ∧ oh.ino = ino)
  | .releasedir ino fh =>
    (getFuseOpenHeader t fh).all fun oh => oh.address = fh ∨ ¬ (oh.type = .dir ∧ oh.ino = ino)

instance FuseOpenRequest.decidableHarmless (t : FuseOpenHashtable) :
    (request : FuseOpenRequest) → Decidable (request.Harmless t)
  | .open .. | .create .. | .opendir .. | .release .. | .releasedir .. =>
    inferInstanceAs (Decidable (_ = true))

section

variable {t : FuseOpenHashtable} {fh : UInt64}

theorem walkFuseOpenHeaders_eq (fh : UInt64) (oh : Option FuseOpenHeader) (list : List FuseOpenHeader) :
    walkFuseOpenHeaders fh oh list = (list.find? (·.address = fh)).or (list.getLast?.or oh) := by
  induction list generalizing oh with
  | nil => rfl
  | cons first list ih =>
    rw [walkFuseOpenHeaders]
    split
    · rename_i heq
      simp [heq]
    · rename_i hne
      rw [ih]
      simp [hne, List.getLast?_cons]

theorem getFuseOpenHeader_eq (t : FuseOpenHashtable) (fh : UInt64) :
    getFuseOpenHeader t fh = (findFuseOpenHeader t fh).or (t (fuseOpenHashvalue fh)).getLast? := by
  rw [getFuseOpenHeader, walkFuseOpenHeaders_eq, or_none]
  rfl
end

/-! ## Histories -/

/-- The table has the objects that are open, and no others. -/
structure FuseOpenHashtable.Represents (m : FuseOpenObjects) : Prop where
  sound : Chains.Sound FuseOpenHeader.address t
  find : ∀ fh, findFuseOpenHeader t fh = m fh

section

open FuseOpenHashtable (Represents)

variable {t : FuseOpenHashtable} {m : FuseOpenObjects} {inode malloc : Option UInt64} {error : ℕ}

theorem represents_init : Represents initFuseOpenHashtable fun _ => none where
  sound := fun _ => List.nodup_nil
  find := fun _ => rfl

variable (h : Represents t m)

include h

theorem FuseOpenHashtable.Represents.add {oh : FuseOpenHeader}
    (hfresh : findFuseOpenHeader t oh.address = none) :
    Represents (addFuseOpenHashtable t oh) (update m oh.address (some oh)) where
  sound := h.sound.add hfresh
  find := by
    intro fh
    have hadd : findFuseOpenHeader (addFuseOpenHashtable t oh) fh
        = if oh.address = fh then some oh else findFuseOpenHeader t fh := Chains.lookup_add oh fh
    rw [hadd, h.find, update_apply]
    simp [eq_comm]

theorem FuseOpenHashtable.Represents.remove (oh : FuseOpenHeader) :
    Represents (removeFuseOpenHashtable t oh) (update m oh.address none) where
  sound := h.sound.remove oh.address
  find := by
    intro fh
    have hremove : findFuseOpenHeader (removeFuseOpenHashtable t oh) fh
        = if oh.address = fh then none else findFuseOpenHeader t fh :=
      Chains.lookup_remove h.sound oh.address fh
    rw [hremove, h.find, update_apply]
    simp [eq_comm]

theorem FuseOpenHashtable.Represents.opens
    (hfresh : malloc.all fun address => (findFuseOpenHeader t address).isNone) :
    Represents (fuseFsOpen t inode malloc error).1 (m.add (openedFuseObject .file inode malloc error)) ∧
      Represents (fuseFsOpendir t inode malloc error).1
        (m.add (openedFuseObject .dir inode malloc error)) := by
  cases inode with
  | none => exact ⟨h, h⟩
  | some ino =>
    cases malloc with
    | none => exact ⟨h, h⟩
    | some address =>
      rw [all_some, isNone_iff_eq_none] at hfresh
      cases error with
      | zero => exact ⟨h.add hfresh, h.add hfresh⟩
      | succ error =>
        have hsame : (fuseFsOpendir t (some ino) (some address) (error + 1)).1 = t := Chains.remove_add _
        rw [hsame]
        exact ⟨h, h⟩

theorem FuseOpenHashtable.Represents.fuseFsReleaseCommon {type : FuseOpenType} {ino fh : UInt64}
    (hright : (getFuseOpenHeader t fh).all fun oh => oh.address = fh ∨ ¬ (oh.type = type ∧ oh.ino = ino)) :
    Represents (Osns.fuseFsReleaseCommon type t ino fh).1 (m.close type ino fh) := by
  rw [Osns.fuseFsReleaseCommon, FuseOpenObjects.close, ← h.find]
  cases hfind : findFuseOpenHeader t fh with
  | some oh =>
    have haddress : oh.address = fh := by
      have hkey := List.find?_some hfind
      exact of_decide_eq_true hkey
    rw [getFuseOpenHeader_eq, hfind, some_or]
    by_cases hmatch : oh.type = type ∧ oh.ino = ino
    · simp only [hmatch, and_self, if_true, any_some, decide_true]
      rw [← haddress]
      exact h.remove oh
    · simp only [hmatch, if_false, any_some, decide_false, Bool.false_eq_true]
      exact h
  | none =>
    rw [any_none, if_neg Bool.false_ne_true]
    cases hget : getFuseOpenHeader t fh with
    | none => exact h
    | some oh =>
      -- What is found has another handle, so the request is not for its type and inode.
      have hlast : (t (fuseOpenHashvalue fh)).getLast? = some oh := by
        rwa [getFuseOpenHeader_eq, hfind, none_or] at hget
      have hother : ¬ oh.address = fh := by
        have hnone := List.find?_eq_none.mp hfind oh (List.mem_of_getLast? hlast)
        simpa using hnone
      rw [hget, all_some, decide_eq_true_eq] at hright
      simp only [if_neg (hright.resolve_left hother)]
      exact h

end

namespace FuseOpens

variable {s s' : FuseOpens} {request : FuseOpenRequest}

theorem represents_next (h : s.hashtable.Represents s.objects) (hharmless : request.Harmless s.hashtable)
    (hnext : next s request = some s') : s'.hashtable.Represents s'.objects := by
  cases hnext
  cases request with
  | «open» inode malloc error | create inode malloc error => exact (h.opens hharmless).1
  | opendir inode malloc error => exact (h.opens hharmless).2
  | release ino fh | releasedir ino fh => exact h.fuseFsReleaseCommon hharmless

/-- Behind requests that do no harm, the object with a handle is found, and nothing is found for a handle
that no object has exactly when its row is empty. -/
theorem getFuseOpenHeader_iff (requests : List FuseOpenRequest)
    (hharmless : Transition.Along next (fun s request => request.Harmless s.hashtable) start requests)
    (hrun : Transition.run next start requests = some s) (fh : UInt64) :
    getFuseOpenHeader s.hashtable fh = s.objects fh ↔
      (s.objects fh).isSome ∨ s.hashtable (fuseOpenHashvalue fh) = [] := by
  have hrep : s.hashtable.Represents s.objects :=
    Transition.run_invariant (fun _ _ _ h hharmless hnext => represents_next h hharmless hnext)
      represents_init hharmless hrun
  rw [← hrep.find]
  rw [getFuseOpenHeader_eq]
  cases findFuseOpenHeader s.hashtable fh with
  | none => simp
  | some oh => simp

/-- A file and a directory in one row; the file is released. -/
theorem getFuseOpenHeader_opendir :
    ∃ s, Transition.run next start
        [.open (some 5) (some 4096) 0, .opendir (some 6) (some 4160) 0, .release 5 4096] = some s ∧
      getFuseOpenHeader s.hashtable 4160 = s.objects 4160 :=
  ⟨_, rfl, (getFuseOpenHeader_iff
    [.open (some 5) (some 4096) 0, .opendir (some 6) (some 4160) 0, .release 5 4096]
    (by decide) rfl 4160).mpr (by decide)⟩

/-- A handle that has been released still finds the other file of its row. -/
theorem released_handle_finds_other :
    ∃ s, Transition.run next start
        [.open (some 5) (some 4096) 0, .open (some 6) (some 4160) 0, .release 5 4096] = some s ∧
      s.objects 4096 = none ∧ getFuseOpenHeader s.hashtable 4096 = some ⟨4160, .file, 6⟩ :=
  ⟨_, rfl, by decide, by decide⟩

end FuseOpens

end Osns
