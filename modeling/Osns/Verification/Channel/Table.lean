import Mathlib.Algebra.BigOperators.Group.Finset.Basic
import Osns.Library.Transition
import Osns.Model.Channel.Receive

/-! The channels in the table, their numbers and the count. -/

namespace Osns

open Function List Transition

/-- A lookup leaves the table as it is. -/
inductive ChannelOp
  | add (c : Channel)
  | remove (id lcnr : ℕ)
  | lookup (lcnr : ℕ)
  | clear

namespace ChannelsTable

section

variable (t : ChannelsTable)

def operate : ChannelOp → Option ChannelsTable
  | .add c => some (t.tableAddSshChannel c)
  | .remove id lcnr => some (t.tableRemoveSshChannel id lcnr)
  | .lookup _ => some t
  | .clear => some t.clearSshChannelsTable

/-- The number of channels in the table. -/
def size : ℕ := ∑ row ∈ Finset.range 64, (t.tablehash row).length

structure Consistent : Prop where
  row : ∀ row, ∀ c ∈ t.tablehash row, row = channelHash c.lcnr
  unique : Chains.Sound Channel.lcnr t.tablehash
  lookup : ∀ lcnr, (t.findSshChannel lcnr).isSome ↔ ∃ row, ∃ c ∈ t.tablehash row, c.lcnr = lcnr
  count : t.tablecount = t.size

/-- The numbers do not wrap around, and the table is only cleared when it is empty. -/
def Orderly : ChannelOp → Prop
  | .add _ => t.channelctr + 1 < 2 ^ 32
  | .clear => ∀ row < 64, t.tablehash row = []
  | .remove .. | .lookup _ => True

instance (t : ChannelsTable) : DecidablePred t.Orderly
  | .add _ => inferInstanceAs (Decidable (_ < _))
  | .clear => inferInstanceAs (Decidable (∀ row < 64, t.tablehash row = []))
  | .remove .. | .lookup _ => inferInstanceAs (Decidable True)

/-- The numbers that have been given are those below the counter. -/
structure Numbered : Prop where
  row : ∀ row, ∀ c ∈ t.tablehash row, row = channelHash c.lcnr
  unique : Chains.Sound Channel.lcnr t.tablehash
  lt : ∀ row, ∀ c ∈ t.tablehash row, c.lcnr < t.channelctr
  count : t.tablecount = t.size
  le : t.size ≤ t.channelctr ∧ t.channelctr < 2 ^ 32

end

variable {t t' : ChannelsTable}

theorem size_update {n : ℕ} {l : List Channel}
    (ht' : t'.tablehash = update t.tablehash (channelHash n) l) :
    t'.size + (t.tablehash (channelHash n)).length = t.size + l.length := by
  have hmem : channelHash n ∈ Finset.range 64 := Finset.mem_range.mpr (Nat.mod_lt _ (by decide))
  have hother : ∀ row ∈ (Finset.range 64).erase (channelHash n),
      (t'.tablehash row).length = (t.tablehash row).length := by
    intro row hrow
    rw [ht', update_of_ne (Finset.ne_of_mem_erase hrow)]
  rw [size, size, ← Finset.add_sum_erase _ _ hmem, ← Finset.add_sum_erase _ _ hmem,
    Finset.sum_congr rfl hother, ht', update_self]
  omega

theorem Numbered.lookup_iff (h : t.Numbered) (lcnr : ℕ) :
    (t.findSshChannel lcnr).isSome ↔ ∃ row, ∃ c ∈ t.tablehash row, c.lcnr = lcnr := by
  rw [findSshChannel, Chains.lookup, find?_isSome]
  constructor
  · rintro ⟨c, hc, hlcnr⟩
    exact ⟨_, c, hc, of_decide_eq_true hlcnr⟩
  · rintro ⟨row, c, hc, rfl⟩
    obtain rfl := h.row row c hc
    exact ⟨c, hc, decide_eq_true rfl⟩

theorem Numbered.add (h : t.Numbered) (c : Channel) (hctr : t.channelctr + 1 < 2 ^ 32) :
    (t.tableAddSshChannel c).Numbered := by
  unfold tableAddSshChannel
  split
  case isTrue => exact h
  generalize hnew : { c with lcnr := t.channelctr, flags := c.flags ||| flagTable } = new
  have hlcnr : new.lcnr = t.channelctr := by rw [← hnew]
  have hfresh : Chains.lookup channelHash Channel.lcnr t.tablehash new.lcnr = none := by
    apply find?_eq_none.mpr
    intro d hd hequal
    have hlt := h.lt _ d hd
    rw [of_decide_eq_true hequal, hlcnr] at hlt
    exact Nat.lt_irrefl _ hlt
  have hsound := h.unique.add hfresh
  have hold : ∀ {row d}, d ∈ Chains.add channelHash Channel.lcnr t.tablehash new row →
      d = new ∧ row = channelHash new.lcnr ∨ d ∈ t.tablehash row := by
    intro row d hd
    by_cases hrow : row = channelHash new.lcnr
    · subst hrow
      rw [Chains.add, update_self] at hd
      exact (mem_cons.mp hd).imp_left fun heq => ⟨heq, rfl⟩
    · rw [Chains.add, update_of_ne hrow] at hd
      exact .inr hd
  have hle := h.le
  have hcount := h.count
  rw [u32_of_lt hctr, u32_of_lt (by omega)]
  generalize ht' : ChannelsTable.mk _ _ _ = t'
  have hsize : t'.size + _ = _ := size_update (by rw [← ht']; rfl)
  rw [length_cons] at hsize
  subst ht'
  refine ⟨?_, hsound, ?_, by dsimp only; omega, by dsimp only; omega⟩
  · intro row d hd
    rcases hold hd with ⟨rfl, hrow⟩ | hd
    · exact hrow
    · exact h.row row d hd
  · intro row d hd
    rcases hold hd with ⟨rfl, -⟩ | hd
    · exact Nat.lt_succ_of_le (Nat.le_of_eq hlcnr)
    · exact Nat.lt_succ_of_lt (h.lt row d hd)

theorem Numbered.remove (h : t.Numbered) (id lcnr : ℕ) : (t.tableRemoveSshChannel id lcnr).Numbered := by
  unfold tableRemoveSshChannel
  split
  case isFalse => exact h
  case isTrue hany =>
    obtain ⟨c, hc, hid⟩ := any_eq_true.mp hany
    have hlength := length_eraseP_of_mem (p := (·.id = id)) hc hid
    have hpos := length_pos_of_mem hc
    have hle := h.le
    have hcount := h.count
    have hsub : ∀ row, (update t.tablehash (channelHash lcnr)
        ((t.tablehash (channelHash lcnr)).eraseP (·.id = id)) row).Sublist (t.tablehash row) := by
      intro row
      by_cases hrow : row = channelHash lcnr
      · subst hrow
        rw [update_self]
        exact eraseP_sublist
      · rw [update_of_ne hrow]
    generalize ht' : ChannelsTable.mk _ _ _ = t'
    have hsize : t'.size + _ = _ := size_update (by rw [← ht'])
    rw [hlength] at hsize
    rw [u32Sub_of_le (by omega) (by omega)] at ht'
    subst ht'
    refine ⟨fun row d hd => h.row row d ((hsub row).subset hd), ?_,
      fun row d hd => h.lt row d ((hsub row).subset hd), by dsimp only; omega, by dsimp only; omega⟩
    exact fun row => ((hsub row).map _).nodup (h.unique row)

/-- A new channel gets the number of the counter. -/
theorem Numbered.step (h : t.Numbered) {op : ChannelOp} (horderly : t.Orderly op)
    (hstep : t.operate op = some t') : t'.Numbered := by
  cases op with
  | add c =>
    cases hstep
    exact h.add c horderly
  | remove id lcnr =>
    cases hstep
    exact h.remove id lcnr
  | lookup lcnr =>
    cases hstep
    exact h
  | clear =>
    cases hstep
    have hsame : t.clearSshChannelsTable = t := by
      unfold clearSshChannelsTable
      congr
      funext row
      split
      · next hrow => exact (horderly row hrow).symm
      · rfl
    rw [hsame]
    exact h

theorem numbered_init : initSshChannelsTable.Numbered := by
  refine ⟨nofun, fun _ => nodup_nil, nofun, ?_, ?_⟩
  · simp [size, initSshChannelsTable]
  · simp [size, initSshChannelsTable]

theorem run_consistent {ops : List ChannelOp} (halong : Along operate Orderly initSshChannelsTable ops)
    (hrun : run operate initSshChannelsTable ops = some t) : t.Consistent := by
  have h : t.Numbered := run_invariant (fun _ _ _ h horderly hstep => h.step horderly hstep) numbered_init
    halong hrun
  exact { h with lookup := h.lookup_iff }

/-- A channel that comes and goes before the table is cleared. -/
def oneChannel : List ChannelOp := [.add ⟨0, 0, 0, 0, 0, 0, 0, []⟩, .lookup 0, .remove 0 0, .clear]

theorem run_consistent_oneChannel :
    ∃ t, run operate initSshChannelsTable oneChannel = some t ∧ t.Consistent :=
  ⟨_, rfl, run_consistent (show Along operate Orderly initSshChannelsTable oneChannel by decide) rfl⟩

theorem clear_keeps_count :
    ∃ t, run operate initSshChannelsTable [.add ⟨0, 0, 0, 0, 0, 0, 0, []⟩, .clear] = some t ∧
      t.tablecount = 1 ∧ t.size = 0 :=
  ⟨_, rfl, rfl, rfl⟩

end ChannelsTable

end Osns
