import Osns.Model.Skiplist.Update

/-! Dirnodes stay linked to dirnodes that have the level of the link, also those that have been freed. -/

namespace Osns

open List

namespace Lanes

variable {α : Type} {lanes lanes' : Lanes α} {d level : ℕ}

def Valid (lanes : Lanes α) (d level : ℕ) : Prop :=
  ∃ dirnode, lanes.dirnodes[d]? = some dirnode ∧ level < dirnode.junction.length

/-- The first dirnode has all levels, the others are on an element, and every link leads to a dirnode of its
level. -/
structure Sound (lanes : Lanes α) : Prop where
  start : ∃ dirnode, lanes.dirnodes[slStart]? = some dirnode ∧
    dirnode.junction.length = lanes.maxlevel + 2 ∧ dirnode.level ≤ lanes.maxlevel
  others : ∀ d dirnode, d ≠ slStart → lanes.dirnodes[d]? = some dirnode →
    dirnode.junction.length = dirnode.level + 1 ∧ dirnode.list.isSome
  links : ∀ (d : ℕ) (dirnode : Dirnode α) (level : ℕ) (junction : Junction),
    lanes.dirnodes[d]? = some dirnode → dirnode.junction[level]? = some junction →
      lanes.Valid junction.n level ∧ lanes.Valid junction.p level

/-- Dirnodes are never taken away, and keep their levels. -/
structure Extends (lanes lanes' : Lanes α) : Prop where
  prob : lanes'.prob = lanes.prob
  maxlevel : lanes'.maxlevel = lanes.maxlevel
  valid : ∀ d level, lanes.Valid d level → lanes'.Valid d level

theorem Extends.refl (lanes : Lanes α) : lanes.Extends lanes := ⟨rfl, rfl, fun _ _ h => h⟩

theorem Extends.trans {lanes'' : Lanes α} (h : lanes.Extends lanes') (h' : lanes'.Extends lanes'') :
    lanes.Extends lanes'' :=
  ⟨h'.prob.trans h.prob, h'.maxlevel.trans h.maxlevel, fun d level hv =>
    h'.valid d level (h.valid d level hv)⟩

theorem Valid.mono {below : ℕ} (h : lanes.Valid d level) (hle : below ≤ level) :
    lanes.Valid d below := by
  obtain ⟨dirnode, hd, hlen⟩ := h
  exact ⟨dirnode, hd, by omega⟩

theorem Valid.dirnode (h : lanes.Valid d level) : ∃ dirnode, lanes.dirnodes[d]? = some dirnode := by
  obtain ⟨dirnode, hd, -⟩ := h
  exact ⟨dirnode, hd⟩

theorem Sound.junction (hs : lanes.Sound) (h : lanes.Valid d level) :
    ∃ junction, lanes.junction d level = some junction ∧ lanes.Valid junction.n level ∧
      lanes.Valid junction.p level := by
  obtain ⟨dirnode, hd, hlen⟩ := h
  have hjunction : dirnode.junction[level]? = some dirnode.junction[level] :=
    getElem?_eq_getElem hlen
  refine ⟨_, ?_, hs.links d dirnode level _ hd hjunction⟩
  rw [Lanes.junction, hd, Option.bind_some, hjunction]

theorem Sound.valid_start (hs : lanes.Sound) (hlevel : level ≤ lanes.maxlevel + 1) :
    lanes.Valid slStart level := by
  obtain ⟨dirnode, hd, hlen, -⟩ := hs.start
  exact ⟨dirnode, hd, by omega⟩

theorem Sound.exists_level (hs : lanes.Sound) :
    ∃ level, lanes.level = some level ∧ level ≤ lanes.maxlevel := by
  obtain ⟨dirnode, hd, -, hlevel⟩ := hs.start
  exact ⟨dirnode.level, by rw [Lanes.level, hd, Option.map_some], hlevel⟩

/-! ## Changing a dirnode -/

variable {dirnode dirnode' : Dirnode α}

theorem set_cases {β : Type} {l : List β} {a b : β} {i j : ℕ} (h : (l.set i a)[j]? = some b) :
    j = i ∧ b = a ∨ l[j]? = some b := by
  rw [getElem?_set] at h
  grind

theorem valid_set (hd : lanes.dirnodes[d]? = some dirnode)
    (hlen : dirnode'.junction.length = dirnode.junction.length) {x : ℕ} (h : lanes.Valid x level) :
    Valid { lanes with dirnodes := lanes.dirnodes.set d dirnode' } x level := by
  obtain ⟨found, hx, hlevel⟩ := h
  have hlt : d < lanes.dirnodes.length := (List.getElem?_eq_some_iff.mp hd).1
  by_cases hxd : d = x
  · subst hxd
    rw [hd] at hx
    cases hx
    exact ⟨dirnode', getElem?_set_self hlt, by omega⟩
  · exact ⟨found, by rw [getElem?_set_ne hxd]; exact hx, hlevel⟩

theorem Sound.set (hs : lanes.Sound)
    (hd : lanes.dirnodes[d]? = some dirnode)
    (hlen : dirnode'.junction.length = dirnode.junction.length)
    (hstart : d = slStart → dirnode'.level ≤ lanes.maxlevel)
    (hother : d ≠ slStart → dirnode'.level = dirnode.level ∧ dirnode'.list.isSome)
    (hlinks : ∀ level junction, dirnode'.junction[level]? = some junction →
      lanes.Valid junction.n level ∧ lanes.Valid junction.p level) :
    Sound { lanes with dirnodes := lanes.dirnodes.set d dirnode' } ∧
      lanes.Extends { lanes with dirnodes := lanes.dirnodes.set d dirnode' } := by
  have hlt : d < lanes.dirnodes.length := (List.getElem?_eq_some_iff.mp hd).1
  have hvalid : ∀ x level, lanes.Valid x level →
      Valid { lanes with dirnodes := lanes.dirnodes.set d dirnode' } x level :=
    fun x level => valid_set hd hlen
  refine ⟨⟨?_, ?_, ?_⟩, ⟨rfl, rfl, hvalid⟩⟩
  · obtain ⟨first, hfirst, hfirstlen, hfirstlevel⟩ := hs.start
    by_cases hzero : d = slStart
    · subst hzero
      rw [hd] at hfirst
      cases hfirst
      exact ⟨dirnode', getElem?_set_self hlt, hlen.trans hfirstlen, hstart rfl⟩
    · exact ⟨first, by rw [getElem?_set_ne hzero]; exact hfirst, hfirstlen, hfirstlevel⟩
  · intro x found hx hfound
    rcases set_cases hfound with ⟨rfl, rfl⟩ | hfound
    · obtain ⟨hlevel, hlist⟩ := hother hx
      exact ⟨by rw [hlen, hlevel, (hs.others x dirnode hx hd).1], hlist⟩
    · exact hs.others x found hx hfound
  · intro x found level junction hfound hjunction
    have hold : lanes.Valid junction.n level ∧ lanes.Valid junction.p level := by
      rcases set_cases hfound with ⟨-, rfl⟩ | hfound
      · exact hlinks level junction hjunction
      · exact hs.links x found level junction hfound hjunction
    exact ⟨hvalid _ _ hold.1, hvalid _ _ hold.2⟩

variable {f : Junction → Junction}

/-- Links may lead to dirnodes that were there before. -/
theorem Sound.modify (hs : lanes.Sound) {base : Lanes α} (hx : base.Extends lanes)
    (h : base.Valid d level) (hf : ∀ j, ((f j).n = j.n ∨ base.Valid (f j).n level) ∧
      ((f j).p = j.p ∨ base.Valid (f j).p level)) :
    ∃ lanes', lanes.modify d level f = some lanes' ∧ lanes'.Sound ∧ base.Extends lanes' := by
  obtain ⟨dirnode, hd, hlen⟩ := hx.valid _ _ h
  have hjunction : dirnode.junction[level]? = some dirnode.junction[level] :=
    getElem?_eq_getElem hlen
  refine ⟨_, by rw [Lanes.modify, hd, Option.bind_eq_bind, Option.bind_some, hjunction]; rfl, ?_⟩
  refine And.imp_right hx.trans (hs.set hd (length_set ..) ?_ ?_ ?_)
  · rintro rfl
    obtain ⟨first, hfirst, -, hlevel⟩ := hs.start
    rw [hd] at hfirst
    cases hfirst
    exact hlevel
  · intro hne
    exact ⟨rfl, (hs.others d dirnode hne hd).2⟩
  · intro l junction hset
    rcases set_cases hset with ⟨rfl, rfl⟩ | hset
    · obtain ⟨hn, hp⟩ := hs.links d dirnode l _ hd hjunction
      obtain ⟨hn', hp'⟩ := hf dirnode.junction[l]
      exact ⟨hn'.elim (fun heq => heq ▸ hn) (hx.valid _ _),
        hp'.elim (fun heq => heq ▸ hp) (hx.valid _ _)⟩
    · exact hs.links d dirnode l junction hd hset

/-! ## New dirnodes -/

theorem getElem?_append_new {found : Dirnode α} (h : (lanes.dirnodes ++ [dirnode])[d]? = some found) :
    lanes.dirnodes[d]? = some found ∨ d = lanes.dirnodes.length ∧ found = dirnode := by
  rw [getElem?_append] at h
  split at h
  · exact .inl h
  · rename_i hge
    rw [getElem?_singleton] at h
    split at h
    · cases h
      exact .inr ⟨by omega, rfl⟩
    · cases h

theorem Sound.append (hs : lanes.Sound) (e : α) (hlevel : level ≤ lanes.maxlevel) :
    Sound { lanes with dirnodes := lanes.dirnodes ++ [createSlDirnode e level] } ∧
      lanes.Extends { lanes with dirnodes := lanes.dirnodes ++ [createSlDirnode e level] } := by
  have hmem : ∀ {d : ℕ} {dirnode : Dirnode α}, lanes.dirnodes[d]? = some dirnode →
      (lanes.dirnodes ++ [createSlDirnode e level])[d]? = some dirnode := by
    intro d dirnode hd
    rw [getElem?_append_left (List.getElem?_eq_some_iff.mp hd).1]
    exact hd
  have hvalid : ∀ x l, lanes.Valid x l →
      Valid { lanes with dirnodes := lanes.dirnodes ++ [createSlDirnode e level] } x l := by
    rintro x l ⟨dirnode, hd, hlen⟩
    exact ⟨dirnode, hmem hd, hlen⟩
  refine ⟨⟨?_, ?_, ?_⟩, ⟨rfl, rfl, hvalid⟩⟩
  · obtain ⟨first, hfirst, hlen, hle⟩ := hs.start
    exact ⟨first, hmem hfirst, hlen, hle⟩
  · intro x found hx hfound
    rcases getElem?_append_new hfound with hold | ⟨-, rfl⟩
    · exact hs.others x found hx hold
    · exact ⟨length_replicate, rfl⟩
  · intro x found l junction hfound hjunction
    rcases getElem?_append_new hfound with hold | ⟨-, rfl⟩
    · obtain ⟨hn, hp⟩ := hs.links x found l junction hold hjunction
      exact ⟨hvalid _ _ hn, hvalid _ _ hp⟩
    · rw [createSlDirnode, getElem?_replicate] at hjunction
      split at hjunction
      · cases hjunction
        have hzero : lanes.Valid slStart l := hs.valid_start (by omega)
        exact ⟨hvalid _ _ hzero, hvalid _ _ hzero⟩
      · cases hjunction

theorem Sound.raise (hs : lanes.Sound) (hlevel : level ≤ lanes.maxlevel) :
    ∃ lanes', lanes.raise level = some lanes' ∧ lanes'.Sound ∧ lanes.Extends lanes' ∧
      lanes'.dirnodes.length = lanes.dirnodes.length := by
  obtain ⟨first, hfirst, hlen, hle⟩ := hs.start
  obtain ⟨hsound, hextends⟩ : Sound { lanes with
        dirnodes := lanes.dirnodes.set slStart { first with level := max first.level level } } ∧ _ :=
    hs.set hfirst rfl (fun _ => Nat.max_le.mpr ⟨hle, hlevel⟩) (fun hne => absurd rfl hne)
      (fun l junction => hs.links slStart first l junction hfirst)
  exact ⟨_, by rw [Lanes.raise, hfirst]; rfl, hsound, hextends, length_set ..⟩

end Lanes

end Osns
