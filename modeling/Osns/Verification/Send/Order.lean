import Osns.Verification.Send.Queue

/-! The packets of all threads reach the socket in the order of their sequence numbers: the senders
and the socket are a line in which one is served after the other. -/

namespace Osns

open Function List Option SendState

variable {ι σ : Type} {s s' : SendState ι σ} {i : ι} {t : Sender σ} {p : Sender σ → Bool}
  {cipher : SendCipher σ} {limit : ℕ → ℕ}

/-! ## The line -/

section Line

@[simp] def SenderPc.pending : SenderPc σ → Bool
  | .queued | .asking _ | .encrypting _ | .encrypted .. | .released _ | .first _ | .locked _
  | .ready _ => true
  | _ => false

def Sender.pending (t : Sender σ) : Bool := t.pc.pending

def Sender.busy (t : Sender σ) : Bool := t.pc.busy

/-- The sender has left the list, and its packet has not been given to the socket. -/
def Sender.next (t : Sender σ) : Bool := t.pc.pending && !t.listed

attribute [simp] Sender.pending Sender.busy Sender.next

namespace SendState

variable (s : SendState ι σ)

def holder (p : Sender σ → Bool) : Option ι :=
  s.flagLock.filter fun i => (s.sender i).any p

def waiting : List ι :=
  (s.holder Sender.next).toList ++ s.senders.filter fun i => (s.sender i).any Sender.pending

def ticket (i : ι) : ℕ := (s.sender i).elim 0 Sender.ticket

/-- What has happened at the socket, who is there and who waits, by their tickets. -/
def line : Fifo.Line ℕ where
  events := s.socket.map (Fifo.Event.map SealedPacket.ticket)
  busy := (s.holder Sender.busy).map s.ticket
  waiting := s.waiting.map s.ticket

end SendState

def SendAction.arriving (s : SendState ι σ) : SendAction ι → List ℕ
  | .submit .. => [s.sequenceNumber]
  | _ => []

theorem holder_of_not (hflag : s.flagLock = none ∨ s.flagLock = some i)
    (hp : (s.sender i).any p = false) : s.holder p = none := by
  unfold holder
  rcases hflag with hflag | hflag <;> rw [hflag]
  · rfl
  · simp [hp]

theorem holder_eq_some (hflag : s.flagLock = some i) (ht : s.sender i = some t) (hp : p t) :
    s.holder p = some i := by
  simp [holder, hflag, ht, hp]

theorem exists_of_holder (h : s.holder p = some i) :
    s.flagLock = some i ∧ ∃ t, s.sender i = some t ∧ p t := by
  obtain ⟨hflag, hany⟩ := filter_eq_some_iff.mp h
  exact ⟨hflag, (any_eq_true _ _).mp hany⟩

theorem exists_of_mem_waiting (h : i ∈ s.waiting) : ∃ t, s.sender i = some t ∧ t.pending := by
  rcases mem_append.mp h with h | h
  · obtain ⟨-, t, ht, hnext⟩ := exists_of_holder (mem_toList.mp h)
    exact ⟨t, ht, (Bool.and_eq_true_iff.mp hnext).1⟩
  · exact (any_eq_true _ _).mp (mem_filter.mp h).2

theorem ticket_of_sender (ht : s.sender i = some t) : s.ticket i = t.ticket := by
  rw [ticket, ht, elim_some]

theorem events_same (hsocket : s'.socket = s.socket) : s'.line.events = s.line.events :=
  congrArg (map _) hsocket

end Line

/-! ## Steps -/

section Steps

variable [DecidableEq ι] {new : Option (Sender σ)}

section

variable (hsender : s'.sender = update s.sender i new)

include hsender

theorem any_sender (hp : new.any p = (s.sender i).any p) (j : ι) :
    (s'.sender j).any p = (s.sender j).any p := by
  by_cases hj : j = i
  · subst hj
    rw [hsender, update_self, hp]
  · rw [hsender, update_of_ne hj]

theorem holder_same (hflag : s'.flagLock = s.flagLock) (hp : new.any p = (s.sender i).any p) :
    s'.holder p = s.holder p := by
  unfold holder
  rw [hflag]
  congr 1
  funext j
  exact any_sender hsender hp j

theorem filter_same (hp : new.any p = (s.sender i).any p) (l : List ι) :
    (l.filter fun j => (s'.sender j).any p) = l.filter fun j => (s.sender j).any p := by
  congr 1
  funext j
  exact any_sender hsender hp j

theorem filter_others {l : List ι} (hnot : i ∉ l) :
    (l.filter fun j => (s'.sender j).any p) = l.filter fun j => (s.sender j).any p := by
  apply filter_congr
  intro j hj
  have hne : j ≠ i := fun heq => hnot (heq ▸ hj)
  rw [hsender, update_of_ne hne]

end

theorem filter_erase_of_not {l : List ι} (hnodup : l.Nodup) {q : ι → Bool} (hq : q i = false) :
    (l.erase i).filter q = l.filter q := by
  rw [hnodup.erase_eq_filter, List.filter_filter]
  apply filter_congr
  intro j _
  by_cases hj : j = i
  · subst hj
    simp [hq]
  · simp [hj]

theorem ticket_same (ht : s.sender i = some t)
    (hsender : s'.sender = update s.sender i new)
    (hticket : ∀ u, new = some u → u.ticket = t.ticket) {j : ι} {u : Sender σ}
    (hu : s'.sender j = some u) : s'.ticket j = s.ticket j := by
  by_cases hj : j = i
  · subst hj
    have hnew : new = some u := by rw [← hu, hsender, update_self]
    rw [ticket_of_sender hu, ticket_of_sender ht, hticket u hnew]
  · rw [ticket, ticket, hsender, update_of_ne hj]

theorem ticket_enqueue_self (s : SendState ι σ) (i : ι) (payload : Payload) (kexinit : Bool) :
    (s.enqueue i payload kexinit).ticket i = s.sequenceNumber := by
  have hself : (s.enqueue i payload kexinit).sender i = some _ := update_self ..
  exact ticket_of_sender hself

theorem ticket_enqueue_of_ne {j : ι} (hne : j ≠ i) (payload : Payload) (kexinit : Bool) :
    (s.enqueue i payload kexinit).ticket j = s.ticket j :=
  congrArg (Option.elim · 0 Sender.ticket) (update_of_ne hne ..)

theorem line_eq (ht : s.sender i = some t)
    (hsender : s'.sender = update s.sender i new)
    (hticket : ∀ u, new = some u → u.ticket = t.ticket) :
    s'.line = ⟨s'.line.events, (s'.holder Sender.busy).map s.ticket, s'.waiting.map s.ticket⟩ := by
  have hwaiting : ∀ j, j ∈ s'.waiting → s'.ticket j = s.ticket j := by
    intro j hj
    obtain ⟨u, hu, -⟩ := exists_of_mem_waiting hj
    exact ticket_same ht hsender hticket hu
  have hbusy : ∀ j ∈ s'.holder Sender.busy, s'.ticket j = s.ticket j := by
    intro j hj
    obtain ⟨-, u, hu, -⟩ := exists_of_holder hj
    exact ticket_same ht hsender hticket hu
  rw [← map_congr_left hwaiting, ← map_congr hbusy]
  rfl

section

variable (h : Queued s) (ht : s.sender i = some t)

include h ht

/-- A step that does not touch the line. The flag may change its holder while the line does not
depend on it. -/
theorem line_stay (hsender : s'.sender = update s.sender i new) (hsocket : s'.socket = s.socket)
    (hsenders : s'.senders = s.senders ∨ s'.senders = s.senders.erase i ∧ t.pending = false)
    (hflag : s'.flagLock = s.flagLock ∨ (s.flagLock = none ∨ s.flagLock = some i) ∧
      (s'.flagLock = none ∨ s'.flagLock = some i) ∧ t.next = false ∧ t.busy = false)
    (hticket : ∀ u, new = some u → u.ticket = t.ticket) (hpending : new.any Sender.pending = t.pending)
    (hnext : new.any Sender.next = t.next) (hbusy : new.any Sender.busy = t.busy) :
    Fifo.Step [] s.line s'.line := by
  have hholder : ∀ {p : Sender σ → Bool}, new.any p = p t →
      (s'.flagLock = s.flagLock ∨ p t = false) → s'.holder p = s.holder p := by
    intro p hp hcases
    rcases hflag with hflag | ⟨hbefore, hafter, -, -⟩
    · exact holder_same hsender hflag (by rw [ht, hp]; rfl)
    · rcases hcases with hflag | hfalse
      · exact holder_same hsender hflag (by rw [ht, hp]; rfl)
      · rw [holder_of_not hafter (by rw [sender_self hsender, hp, hfalse]),
          holder_of_not hbefore (by rw [ht]; exact hfalse)]
  have hwaiting : s'.waiting = s.waiting := by
    unfold waiting
    rw [hholder hnext (hflag.imp_right fun hflag => hflag.2.2.1),
      filter_same hsender (by rw [ht, hpending]; rfl)]
    rcases hsenders with heq | ⟨heq, hfalse⟩
    · rw [heq]
    · rw [heq, filter_erase_of_not h.nodup (by rw [ht]; exact hfalse)]
  have hline : s'.line = s.line := by
    rw [line_eq ht hsender hticket, hholder hbusy (hflag.imp_right fun hflag => hflag.2.2.2),
      hwaiting, events_same hsocket]
    rfl
  exact hline ▸ .stay _

theorem line_onward {pc : SenderPc σ} (hsender : s'.sender = update s.sender i (some { t with pc }))
    (hkept : s'.socket = s.socket ∧ s'.senders = s.senders ∧ s'.flagLock = s.flagLock)
    (hlisted : Sender.listed { t with pc } = t.listed) (hpending : pc.pending = t.pc.pending)
    (hbusy : pc.busy = t.pc.busy) : Fifo.Step [] s.line s'.line := by
  refine line_stay h ht hsender hkept.1 (.inl hkept.2.1) (.inl hkept.2.2) ?_ hpending ?_ hbusy
  · rintro u ⟨⟩
    rfl
  · rw [any_some, Sender.next, Sender.next, hlisted, hpending]

theorem line_behind (hsender : s'.sender = update s.sender i new) (hsocket : s'.socket = s.socket)
    (hsenders : s'.senders = s.senders ∨ s'.senders = s.senders.erase i)
    (hflag : s'.flagLock = s.flagLock ∨ s.flagLock = some i ∧ s'.flagLock = none)
    (hbefore : t.pc.pending = false ∧ t.pc.busy = false)
    (hafter : ∀ u, new = some u → u.ticket = t.ticket ∧ u.pc.pending = false ∧ u.pc.busy = false) :
    Fifo.Step [] s.line s'.line := by
  have hnext : t.next = false := by rw [Sender.next, hbefore.1]; rfl
  have hnone : ∀ {p : Sender σ → Bool}, p t = false → (∀ u, new = some u → p u = false) →
      new.any p = p t := by
    intro p hp hnew
    rw [hp, Option.any_eq_false]
    intro u hu
    simp [hnew u hu]
  refine line_stay h ht hsender hsocket (hsenders.imp_right fun heq => ⟨heq, hbefore.1⟩)
    (hflag.imp_right fun hflag => ⟨.inr hflag.1, .inl hflag.2, hnext, hbefore.2⟩)
    (fun u hu => (hafter u hu).1) ?_ ?_ ?_
  · exact hnone hbefore.1 fun u hu => (hafter u hu).2.1
  · exact hnone hnext fun u hu => by rw [Sender.next, (hafter u hu).2.1]; rfl
  · exact hnone hbefore.2 fun u hu => (hafter u hu).2.2

end

variable {bytes : Bytes}

variable (h : Queued s)

include h

section

variable (ht : s.sender i = some t) (hpc : t.pc = .locked bytes)
  (hsender : s'.sender = update s.sender i (some { t with pc := .ready bytes }))
  (hsenders : s'.senders = s.senders.erase i) (hflag : s'.flagLock = s.flagLock)

include ht hpc hsender hsenders hflag

theorem waiting_unlist : s'.waiting = s.waiting := by
  have hholds := h.flag i t ht (by simp [hpc])
  have hfront := h.front i t ht (by simp [hpc])
  have hbehaviour : t.behaviour = .default := by
    simpa [hpc] using h.proper i t ht
  have hbefore : s.holder Sender.next = none :=
    holder_of_not (.inr hholds) (by simp [ht, hpc])
  have hafter : s'.holder Sender.next = some i :=
    holder_eq_some (hflag.trans hholds) (sender_self hsender) (by simp [hbehaviour])
  obtain ⟨rest, hrest⟩ := head?_eq_some_iff.mp hfront
  unfold waiting
  rw [hbefore, hafter, hsenders, filter_same hsender (by simp [ht, hpc]), hrest,
    erase_cons_head, filter_cons_of_pos (by simp [ht, hpc])]
  rfl

theorem line_unlist (hsocket : s'.socket = s.socket) : Fifo.Step [] s.line s'.line := by
  have hline : s'.line = s.line := by
    rw [line_eq ht hsender (by rintro u ⟨⟩; rfl), waiting_unlist h ht hpc hsender hsenders hflag,
      holder_same hsender hflag (by simp [ht, hpc]), events_same hsocket]
    rfl
  exact hline ▸ .stay _

end

section

variable (ht : s.sender i = some t) (hpc : t.pc = .ready bytes)
  (hsender : s'.sender = update s.sender i (some { t with pc := .writing bytes }))
  (hsenders : s'.senders = s.senders) (hflag : s'.flagLock = s.flagLock)

include ht hpc hsender hsenders hflag

theorem waiting_start : s.waiting = i :: s'.waiting := by
  have hholds := h.flag i t ht (by simp [hpc])
  have hafter : s'.holder Sender.next = none :=
    holder_of_not (.inr (hflag.trans hholds)) (by simp [sender_self hsender])
  unfold waiting
  rw [hafter, hsenders, toList_none, nil_append]
  cases hbehaviour : t.behaviour with
  | default =>
    -- it has left the list
    have hbefore : s.holder Sender.next = some i :=
      holder_eq_some hholds ht (by simp [hpc, hbehaviour])
    have hnot : i ∉ s.senders := by
      rw [h.mem_iff]
      rintro ⟨u, hu, hlisted⟩
      cases ht.symm.trans hu
      simp [hpc, hbehaviour] at hlisted
    rw [hbefore, filter_others hsender hnot]
    rfl
  | serial =>
    -- it is still the first of the list
    have hbefore : s.holder Sender.next = none :=
      holder_of_not (.inr hholds) (by simp [ht, hpc, hbehaviour])
    have hfront := h.front i t ht (by simp [hpc, hbehaviour])
    obtain ⟨rest, hrest⟩ := head?_eq_some_iff.mp hfront
    have hnot : i ∉ rest := by
      have hnodup := h.nodup
      rw [hrest] at hnodup
      exact (nodup_cons.mp hnodup).1
    rw [hbefore, hrest, filter_cons_of_pos (by simp [ht, hpc]),
      filter_cons_of_neg (by simp [sender_self hsender]), filter_others hsender hnot]
    rfl

theorem line_start (hsocket : s'.socket = s.socket ++ [.start ⟨t.ticket, bytes⟩]) :
    Fifo.Step [] s.line s'.line := by
  have hholds := h.flag i t ht (by simp [hpc])
  have hticket := ticket_of_sender ht
  have hevents : s'.line.events = s.line.events ++ [.start t.ticket] := by
    rw [line, hsocket, map_append]
    rfl
  have hbefore : s.line = ⟨s.line.events, none, t.ticket :: s'.waiting.map s.ticket⟩ := by
    rw [line, holder_of_not (.inr hholds) (by simp [ht, hpc]),
      waiting_start h ht hpc hsender hsenders hflag, map_cons, hticket]
    rfl
  have hafter : s'.line = ⟨s.line.events ++ [.start t.ticket], some t.ticket,
      s'.waiting.map s.ticket⟩ := by
    rw [line_eq ht hsender (by rintro u ⟨⟩; rfl),
      holder_eq_some (hflag.trans hholds) (sender_self hsender) (by simp), map_some,
      hticket, hevents]
  rw [hbefore, hafter]
  exact .start _ _ _

end

theorem waiting_enqueue (hnone : s.sender i = none) (payload : Payload) (kexinit : Bool) :
    (s.enqueue i payload kexinit).waiting = s.waiting ++ [i] := by
  have hnot : i ∉ s.senders := by
    rw [h.mem_iff]
    simp [hnone]
  have hsender : (s.enqueue i payload kexinit).sender = update s.sender i _ := rfl
  have hsenders : (s.enqueue i payload kexinit).senders = s.senders ++ [i] := rfl
  unfold waiting
  rw [holder_same hsender rfl (by simp [hnone]), hsenders,
    filter_append, filter_others hsender hnot, append_assoc, filter_cons_of_pos]
  · rfl
  · rw [hsender, update_self]
    rfl

theorem line_finish (ht : s.sender i = some t) (hpc : t.pc = .writing bytes)
    (hsender : s'.sender = update s.sender i (some { t with pc := .written }))
    (hsenders : s'.senders = s.senders) (hflag : s'.flagLock = s.flagLock)
    (hsocket : s'.socket = s.socket ++ [.finish ⟨t.ticket, bytes⟩]) :
    Fifo.Step [] s.line s'.line := by
  have hholds := h.flag i t ht (by simp [hpc])
  have hticket := ticket_of_sender ht
  have hwaiting : s'.waiting = s.waiting := by
    unfold waiting
    rw [holder_same hsender hflag (by simp [ht, hpc]), hsenders,
      filter_same hsender (by simp [ht, hpc])]
  have hevents : s'.line.events = s.line.events ++ [.finish t.ticket] := by
    rw [line, hsocket, map_append]
    rfl
  have hbefore : s.line = ⟨s.line.events, some t.ticket, s.waiting.map s.ticket⟩ := by
    rw [line, holder_eq_some hholds ht (by simp [hpc]), map_some, hticket]
  have hafter : s'.line = ⟨s.line.events ++ [.finish t.ticket], none, s.waiting.map s.ticket⟩ := by
    rw [line_eq ht hsender (by rintro u ⟨⟩; rfl),
      holder_of_not (.inr (hflag.trans hholds)) (by simp [sender_self hsender]), hwaiting, hevents]
    rfl
  rw [hbefore, hafter]
  exact .finish _ _ _

theorem line_enqueue (hnone : s.sender i = none) (payload : Payload) (kexinit : Bool) :
    Fifo.Step [s.sequenceNumber] s.line (s.enqueue i payload kexinit).line := by
  have hsender : (s.enqueue i payload kexinit).sender = update s.sender i _ := rfl
  have hsame : ∀ {j u}, s.sender j = some u →
      (s.enqueue i payload kexinit).ticket j = s.ticket j := by
    intro j u hu
    have hne : j ≠ i := by
      rintro rfl
      simp [hnone] at hu
    exact ticket_enqueue_of_ne hne payload kexinit
  have hwaiting : ∀ j ∈ s.waiting, (s.enqueue i payload kexinit).ticket j = s.ticket j := by
    intro j hj
    obtain ⟨u, hu, -⟩ := exists_of_mem_waiting hj
    exact hsame hu
  have hbusy : ∀ j ∈ s.holder Sender.busy, (s.enqueue i payload kexinit).ticket j = s.ticket j := by
    intro j hj
    obtain ⟨-, u, hu, -⟩ := exists_of_holder hj
    exact hsame hu
  have hline : (s.enqueue i payload kexinit).line =
      { s.line with waiting := s.line.waiting ++ [s.sequenceNumber] } := by
    rw [line, waiting_enqueue h hnone, map_append, map_congr_left hwaiting,
      holder_same hsender rfl (by simp [hnone]), map_congr hbusy, map_cons,
      ticket_enqueue_self]
    rfl
  rw [hline]
  exact .join _ _

/-- The senders are a line that is served at its front. -/
theorem line_step {a : SendAction ι} (hstep : SendStep cipher limit s a s')
    (hfail : ∀ j, a ≠ .fail j) : Fifo.Step (a.arriving s) s.line s'.line := by
  cases hstep with
  | submit payload kexinit hsender hlist => exact line_enqueue h hsender payload kexinit
  | ask ht hpc hfirst | take ht hpc hidle | create ht hpc hroom | encrypt ht hpc
  | release ht hpc | first ht hpc hbehaviour hfirst =>
    exact line_onward h ht rfl ⟨rfl, rfl, rfl⟩ (by simp [hpc]) (by simp [hpc])
      (by simp [hpc])
  | lockSerial ht hpc hbehaviour hflag | lock ht hpc hflag =>
    refine line_stay h ht rfl rfl (.inl rfl) (.inr ⟨.inl hflag, .inr rfl, ?_, ?_⟩) ?_ ?_ ?_ ?_
    · simp [hpc]
    · simp [hpc]
    · rintro u ⟨⟩
      rfl
    · simp [hpc]
    · simp [*]
    · simp [hpc]
  | unlist ht hpc hlist => exact line_unlist h ht hpc rfl rfl rfl rfl
  | start ht hpc => exact line_start h ht hpc rfl rfl rfl rfl
  | finish ht hpc => exact line_finish h ht hpc rfl rfl rfl rfl
  | unlock ht hpc hbehaviour | unlockSerial ht hpc hbehaviour =>
    have hflag := h.flag _ _ ht (by simp [hpc])
    exact line_behind h ht rfl rfl (.inl rfl) (.inr ⟨hflag, rfl⟩) (by simp [hpc])
      (by rintro u ⟨⟩ <;> exact ⟨rfl, rfl, rfl⟩)
  | depart ht hpc hlist htype | departFailed ht hpc hlist | departNewkeys ht hpc hlist htype =>
    exact line_behind h ht rfl rfl (.inr rfl) (.inl rfl) (by simp [hpc])
      (by rintro u ⟨⟩ <;> exact ⟨rfl, rfl, rfl⟩)
  | empty ht hpc | clear ht hpc | install ht hpc | switch ht hpc | departSwitched ht hpc =>
    exact line_behind h ht rfl rfl (.inl rfl) (.inl rfl) (by simp [hpc])
      (by rintro u ⟨⟩ <;> exact ⟨rfl, rfl, rfl⟩)
  | failAsking | failHeld | failWriting =>
    exact absurd rfl (hfail _)
  | setup kexPhase => exact .stay _

end Steps

/-! ## Runs -/

section Runs

variable {ι σ : Type} [DecidableEq ι] {cipher : SendCipher σ} {limit : ℕ → ℕ} {s s' : SendState ι σ}

/-- What is left at the socket by so many packets from the first number on, that are written one
after the other. -/
def writes (first n : ℕ) : List (Fifo.Event ℕ) := Fifo.service ((range' first n).map u32)

def given (first : ℕ) (s : SendState ι σ) : List ℕ := range' first (s.sequenceNumber - first)

variable {first : ℕ} {a : SendAction ι}

theorem eq_range_of_starts {n : ℕ} {l : List ℕ} (h : l <+: range' first n) :
    l = range' first l.length := by
  have hlength : l.length ≤ n := by simpa using h.length_le
  rw [prefix_iff_eq_take, take_range'_of_length_ge hlength] at h
  exact h

theorem eq_add_length_of_starts {n a : ℕ} {l : List ℕ}
    (h : l ++ [a] <+: range' first n) : a = first + l.length := by
  have hl := eq_range_of_starts ((prefix_append l [a]).trans h)
  have hnext : l ++ [a] = l ++ [first + l.length] := by
    rw [eq_range_of_starts h, length_append, length_singleton, range'_1_concat, ← hl]
  exact singleton_inj.mp (append_cancel_left hnext)

/-- What holds in every state that is reached without a failure. -/
structure InLine (first : ℕ) (s : SendState ι σ) : Prop where
  queued : Queued s
  le : first ≤ s.sequenceNumber
  serves : Fifo.Serves (given first s) s.line

omit [DecidableEq ι] in
theorem InLine.start (hquiet : Quiet s) : InLine s.sequenceNumber s := by
  refine ⟨hquiet.queued, Nat.le_refl _, ?_⟩
  have hline : s.line = ⟨[], none, []⟩ := by
    simp [line, waiting, holder, hquiet.socket, hquiet.flagLock,
      hquiet.senders]
  rw [given, Nat.sub_self, hline]
  exact Fifo.serves_nil

theorem sequenceNumber_step (hstep : SendStep cipher limit s a s') :
    s'.sequenceNumber = s.sequenceNumber + (a.arriving s).length := by
  cases hstep <;> rfl

theorem given_enqueue (hfirst : first ≤ s.sequenceNumber) {i : ι} {payload : Payload} {kexinit : Bool} :
    given first (s.enqueue i payload kexinit) = given first s ++ [s.sequenceNumber] := by
  have hlength : (s.enqueue i payload kexinit).sequenceNumber - first =
      s.sequenceNumber - first + 1 := Nat.succ_sub hfirst
  rw [given, given, hlength, range'_1_concat, Nat.add_sub_cancel' hfirst]

theorem given_step (hfirst : first ≤ s.sequenceNumber)
    (hstep : SendStep cipher limit s a s') : given first s' = given first s ++ a.arriving s := by
  have hnumber := sequenceNumber_step hstep
  cases hstep with
  | submit => exact given_enqueue hfirst
  | _ => exact (append_nil _).symm

theorem InLine.step (h : InLine first s)
    (hfail : ∀ i, a ≠ .fail i) (hstep : SendStep cipher limit s a s') : InLine first s' := by
  refine ⟨h.queued.step hstep, ?_, ?_⟩
  · rw [sequenceNumber_step hstep]
    exact Nat.le_add_right_of_le h.le
  · rw [given_step h.le hstep]
    exact h.serves.step (line_step h.queued hstep hfail)

end Runs

end Osns
