import Osns.Library.Transition
import Osns.Model.Fuse.Handle

/-! Which handle of an inode is found, and when a handle is freed. -/

namespace Osns

namespace FuseHandles

open Function List Transition

variable {t t' : FuseHandles} {root : ℕ → ℕ} {ctx : ℕ} {ino : UInt64} {flag : UInt32}

/-- A handle of the table that a lookup may give. -/
def Candidate (t : FuseHandles) (root : ℕ → ℕ) (ctx : ℕ) (ino : UInt64) (flag : UInt32)
    (h : FuseHandle) : Prop :=
  (∃ row, h ∈ t row) ∧ matchHandle root ctx ino h ∧ usable flag h

def LookupRight (t : FuseHandles) (root : ℕ → ℕ) (ctx : ℕ) (ino : UInt64) (flag : UInt32) : Prop :=
  match (t.getFuseHandle root ctx ino flag).1 with
  | some h => t.Candidate root ctx ino flag h
  | none => ∀ h, ¬ t.Candidate root ctx ino flag h

/-- Every handle is in the row of its inode. -/
def Filed (t : FuseHandles) : Prop := ∀ row, ∀ ino ∈ (t row).map (·.ino), row = fuseHandleHash ino

theorem Filed.update (h : t.Filed) {row : ℕ} {l : List FuseHandle}
    (hl : ∀ ino ∈ l.map (·.ino), row = fuseHandleHash ino) : Filed (update t row l) := by
  intro r
  by_cases hr : r = row
  · subst hr
    rwa [update_self]
  · rw [update_of_ne hr]
    exact h r

theorem Filed.change (h : t.Filed) (address : ℕ) (ino : UInt64) {f : FuseHandle → FuseHandle}
    (hf : ∀ a, (f a).ino = a.ino) : (t.change address ino f).Filed := by
  apply h.update
  rw [Chains.map_modifyFirst hf]
  exact h _

/-- Handles keep their inode, so they stay in its row. -/
theorem Filed.step {op : FuseHandleOp} (h : t.Filed) (hstep : t.step op = some t') : t'.Filed := by
  cases op with
  | create address ctx ino =>
    cases hstep
    exact h.update (forall_mem_cons.mpr ⟨rfl, h _⟩)
  | addFlags address ino flags =>
    cases hstep
    exact h.change address ino fun _ => rfl
  | get root ctx ino flag =>
    cases hstep
    unfold getFuseHandle
    split
    · exact h
    · exact h.change _ ino fun _ => rfl
  | post address ino flag =>
    cases hstep
    have hchange := h.change address ino (f := fun h =>
      { h with refcount := h.refcount - 1, flags := h.flags ||| flag }) fun _ => rfl
    exact hchange.update fun i hi => hchange _ i ((eraseP_sublist.map _).subset hi)

theorem walk_eq (l : List FuseHandle) :
    walk root ctx ino flag l = (l.find? (matchHandle root ctx ino)).filter (usable flag) := by
  induction l with
  | nil => rfl
  | cons h l ih =>
    rw [walk, ih, find?_cons]
    cases matchHandle root ctx ino h with
    | true => simp [Option.filter]
    | false => simp

/-- The lookup is right when no handle fits, or the first one of the inode and context does. -/
theorem getFuseHandle_right_iff (ops : List FuseHandleOp)
    (hrun : run step (fun _ => []) ops = some t) (root : ℕ → ℕ) (ctx : ℕ) (ino : UInt64) (flag : UInt32) :
    t.LookupRight root ctx ino flag ↔ ((∃ h, t.Candidate root ctx ino flag h) →
      ((t (fuseHandleHash ino)).find? (matchHandle root ctx ino)).any (usable flag)) := by
  have hfiled : t.Filed := run_preserves (fun _ _ _ h => h.step) (fun _ _ h => absurd h not_mem_nil) hrun
  have hget : (t.getFuseHandle root ctx ino flag).1 =
      ((t (fuseHandleHash ino)).find? (matchHandle root ctx ino)).filter (usable flag) := by
    rw [← walk_eq, getFuseHandle]
    split <;> simp_all
  rw [LookupRight, hget]
  cases hfind : (t (fuseHandleHash ino)).find? (matchHandle root ctx ino) with
  | none =>
    have hnone : ∀ h, ¬ t.Candidate root ctx ino flag h := by
      rintro h ⟨⟨row, hmem⟩, hmatch, -⟩
      have hino : h.ino = ino := (of_decide_eq_true hmatch).1
      rw [hfiled row h.ino (mem_map_of_mem hmem), hino] at hmem
      exact find?_eq_none.mp hfind h hmem hmatch
    simp [hnone]
  | some h =>
    have hcandidate (hu : usable flag h) : t.Candidate root ctx ino flag h :=
      ⟨⟨_, mem_of_find?_eq_some hfind⟩, find?_some hfind, hu⟩
    by_cases hu : usable flag h
    · simp [Option.filter, hu, hcandidate hu]
    · simp [Option.filter, hu]

theorem getFuseHandle_right_iff_opened : ∃ t, run step (fun _ => []) [.create 1 1 5] = some t ∧
    (t.LookupRight id 1 5 1 ↔ ((∃ h, t.Candidate id 1 5 1 h) →
      ((t 5).find? (matchHandle id 1 5)).any (usable 1))) :=
  ⟨_, rfl, getFuseHandle_right_iff [.create 1 1 5] rfl id 1 5 1⟩

/-- Of two handles of a directory the last one is released while a lookup uses it. -/
theorem getFuseHandle_misses : ∃ t, run step (fun _ => [])
      [.create 1 1 5, .addFlags 1 5 fuseHandleFstatat, .create 2 1 5, .addFlags 2 5 fuseHandleFstatat,
        .get id 1 5 fuseHandleFstatat, .post 2 5 fuseHandleRelease] = some t ∧
    (t.getFuseHandle id 1 5 fuseHandleFstatat).1 = none ∧
    t.Candidate id 1 5 fuseHandleFstatat ⟨1, 1, 5, 1, 0x100001⟩ :=
  ⟨_, rfl, by decide, ⟨5, by decide⟩, by decide, by decide⟩

end FuseHandles

open Function List Option Transition

variable {α τ : Type} [DecidableEq α] [DecidableEq τ] {u u' : HandleUse τ}

def HandleUse.released (u : HandleUse τ) : Prop := u.handle.flags &&& fuseHandleRelease ≠ 0

instance (u : HandleUse τ) : Decidable u.released := inferInstanceAs (Decidable (_ ≠ _))

/-- It is freed once, when it has been released and its last user has posted it. -/
def HandleUse.FreedOnce (u : HandleUse τ) : Prop := u.freed = if u.released ∧ u.users = [] then 1 else 0

/-- One more reference does not make the count wrap. -/
def HandleUse.Countable (u : HandleUse τ) : Prop := u.users.length + 1 < 2 ^ 32

instance (u : HandleUse τ) : Decidable u.Countable := inferInstanceAs (Decidable (_ < _))

/-- No lookup loads the count of a handle before another one has stored it, and the count has room for
each reference. -/
def OneLookup (s : α → Option (HandleUse τ)) : HandlesAction α τ → Prop
  | .act a (.load ..) => ∀ u ∈ s a, u.loads = [] ∧ u.Countable
  | .act a (.use _) => ∀ u ∈ s a, u.Countable
  | _ => True

instance (s : α → Option (HandleUse τ)) : DecidablePred (OneLookup s)
  | .act a (.load ..) => inferInstanceAs (Decidable (∀ u ∈ s a, u.loads = [] ∧ u.Countable))
  | .act a (.use _) => inferInstanceAs (Decidable (∀ u ∈ s a, u.Countable))
  | .act _ (.store ..) | .act _ (.post ..) | .create .. => .isTrue trivial

namespace HandleUse

structure Counted (u : HandleUse τ) : Prop where
  count : u.handle.refcount = u.users.length
  loads : ∀ p ∈ u.loads, u.loads = [p] ∧ p.2 = u.users.length ∧ u.Countable ∧ ¬ u.released
  linked : u.linked = false ↔ u.released ∧ u.users = []
  freed : u.FreedOnce

omit [DecidableEq τ] in
/-- A handle that is in use and stays in use. -/
theorem Counted.used (h : u.Counted) {count : ℕ} {t : τ} {loads : List (τ × ℕ)}
    (hcount : count = u.users.length) (hlt : u.Countable) (hused : ¬ (u.released ∧ u.users = []))
    (hloads : loads = []) :
    Counted { u with handle.refcount := u32 (count + 1), users := t :: u.users, loads } := by
  subst hcount hloads
  refine ⟨u32_of_lt hlt, nofun, ?_, ?_⟩
  · exact iff_of_false (mt h.linked.mp hused) (fun h => absurd h.2 (cons_ne_nil _ _))
  · have hfreed := h.freed
    rw [FreedOnce, if_neg hused] at hfreed
    rw [FreedOnce, if_neg fun h => absurd h.2 (cons_ne_nil _ _)]
    exact hfreed

/-- The count of a handle stays the number of references. -/
theorem Counted.step {a : HandleAction τ} (h : u.Counted)
    (hone : ∀ t flag, a = .load t flag → u.loads = [] ∧ u.Countable)
    (huse : ∀ t, a = .use t → u.Countable) (hstep : u.step a = some u') : u'.Counted := by
  cases a with
  | load t flag =>
    obtain ⟨⟨hlinked, husable⟩, hstep⟩ := ite_none_right_eq_some.mp hstep
    cases hstep
    refine ⟨h.count, ?_, h.linked, h.freed⟩
    obtain ⟨hnil, hlt⟩ := hone t flag rfl
    rw [hnil]
    intro p hp
    obtain rfl := mem_singleton.mp hp
    exact ⟨rfl, h.count, hlt, not_not_intro (of_decide_eq_true husable).1⟩
  | store t count =>
    obtain ⟨hmem, hstep⟩ := ite_none_right_eq_some.mp hstep
    cases hstep
    obtain ⟨hloads, hcount, hlt, hreleased⟩ := h.loads _ hmem
    refine h.used hcount hlt (fun h => hreleased h.1) ?_
    rw [hloads, erase_cons_head]
  | use t =>
    obtain ⟨⟨hmem, hloads⟩, hstep⟩ := ite_none_right_eq_some.mp hstep
    cases hstep
    exact h.used h.count (huse t rfl) (fun h => ne_nil_of_mem hmem h.2) hloads
  | post t flag =>
    obtain ⟨⟨hmem, hloads⟩, hstep⟩ := ite_none_right_eq_some.mp hstep
    have hused : ¬ (u.released ∧ u.users = []) := fun h => ne_nil_of_mem hmem h.2
    have hfreed := h.freed
    rw [FreedOnce, if_neg hused] at hfreed
    have hcount : u.handle.refcount - 1 = (u.users.erase t).length := by
      rw [h.count, length_erase_of_mem hmem]
    have hnil : u.handle.refcount - 1 = 0 ↔ u.users.erase t = [] := by
      rw [hcount, length_eq_zero_iff]
    split at hstep
    · next hlast =>
      cases hstep
      have hlast' : _ ∧ u.users.erase t = [] := ⟨hlast.1, hnil.mp hlast.2⟩
      refine ⟨hcount, by simp [hloads], iff_of_true rfl hlast', ?_⟩
      exact (congrArg (· + 1) hfreed).trans (if_pos hlast').symm
    · next hlast =>
      cases hstep
      have hlast' : ¬ (_ ∧ u.users.erase t = []) := fun h => hlast ⟨h.1, hnil.mpr h.2⟩
      refine ⟨hcount, by simp [hloads], iff_of_false (mt h.linked.mp hused) hlast', ?_⟩
      exact hfreed.trans (if_neg hlast').symm

end HandleUse

/-- In every interleaving without a race between lookups each handle is freed once, at its last post. -/
theorem handles_freedOnce (actions : List (HandlesAction α τ)) {s : α → Option (HandleUse τ)}
    (halong : Along handlesStep OneLookup (fun _ => none) actions)
    (hrun : run handlesStep (fun _ => none) actions = some s) :
    ∀ a u, s a = some u → u.FreedOnce := by
  have h : ∀ a u, s a = some u → u.Counted := by
    refine run_invariant (I := fun s => ∀ a u, s a = some u → u.Counted) ?_ nofun halong hrun
    intro s action s' h hone hstep a u hu
    obtain ⟨b, v', rfl, hv'⟩ : ∃ b v', s' = update s b (some v') ∧ v'.Counted := by
      cases action with
      | create b t ctx ino =>
        obtain ⟨-, hstep⟩ := ite_none_right_eq_some.mp hstep
        cases hstep
        exact ⟨b, _, rfl, rfl, nofun, by simp [HandleUse.create],
          by simp [HandleUse.FreedOnce, HandleUse.create]⟩
      | act b action =>
        obtain ⟨v', hv', hstep⟩ := map_eq_some_iff.mp hstep
        obtain ⟨v, hv, hv'⟩ := bind_eq_some_iff.mp hv'
        refine ⟨b, v', hstep.symm, (h b v hv).step ?_ ?_ hv'⟩
        · rintro t flag rfl
          exact hone v hv
        · rintro t rfl
          exact hone v hv
    by_cases hb : a = b
    · subst hb
      rw [update_self] at hu
      cases hu
      exact hv'
    · rw [update_of_ne hb] at hu
      exact h a u hu
  exact fun a u hu => (h a u hu).freed

theorem handles_freedOnce_lookup : ∃ s : Bool → Option (HandleUse ℕ), run handlesStep (fun _ => none)
      [.create true 0 1 5, .act true (.load 1 1), .act true (.store 1 1), .act true (.post 0 8)] = some s ∧
    ∀ a u, s a = some u → u.FreedOnce :=
  ⟨_, rfl, handles_freedOnce [.create true 0 1 5, .act true (.load 1 1), .act true (.store 1 1),
    .act true (.post 0 8)] (by decide) rfl⟩

/-- Two lookups load the same count. When the second user posts the handle it has been freed. -/
theorem handle_freed_twice : ∃ s : Unit → Option (HandleUse ℕ), run handlesStep (fun _ => none)
      (.create () 0 1 5 :: [.load 1 1, .load 2 1, .store 1 1, .store 2 1, .post 1 0,
        .post 0 fuseHandleRelease].map (.act ())) = some s ∧
    (s ()).map (fun u => (u.freed, u.users)) = some (1, [2]) :=
  ⟨_, rfl, rfl⟩

end Osns
