import Osns.Model.Sftp.WaitResponse
import Osns.Verification.Sftp.Clients

/-! One request among the threads that wait and the threads that receive: what each step means for
it, and when it has been let go by all of them. -/

namespace Osns

open Function List Option WaitState SftpState

/-! ## What a step can do -/

section Steps

variable {κ ρ τ : Type} [DecidableEq ρ]

@[simp] theorem setRequest_self (sftp : SftpState κ ρ) (p : ρ) (r : SftpRequest κ) :
    (sftp.setRequest p r).request p = r := update_self ..

@[simp] theorem requester_go (s : WaitState κ ρ τ) (p : ρ) (pc : WaitPc) :
    (s.go p pc).requester p = { s.requester p with pc } := update_self ..

@[simp] theorem requester_update (s : WaitState κ ρ τ) (p : ρ)
    (result : Requester × SftpRequest κ) : (s.update p result).requester p = result.1 :=
  update_self ..

@[simp] theorem request_update (s : WaitState κ ρ τ) (p : ρ)
    (result : Requester × SftpRequest κ) : (s.update p result).sftp.request p = result.2 :=
  update_self ..

def SftpRequest.signalled (r : SftpRequest κ) (received : Bool) : SftpRequest κ :=
  if received ∧ r.status.response then
    { r with status.response := false, status.finish := true }
  else { r with status.error := true }

theorem signal_eq_setRequest (s : SftpState κ ρ) (p : ρ) (received : Bool) :
    (if received then s.signalSftpReceivedId p else s.signalSftpReceivedIdError p) =
      s.setRequest p ((s.request p).signalled received) := by
  unfold SftpRequest.signalled signalSftpReceivedId
  cases received with
  | false => rfl
  | true => cases hresponse : (s.request p).status.response <;> simp [hresponse]

variable [DecidableEq τ]

@[simp] theorem request_work (s : WaitState κ ρ τ) (t : τ) (w : Option (ρ × Work)) (p : ρ)
    (r : SftpRequest κ) : (s.work t w (s.sftp.setRequest p r)).sftp.request p = r :=
  setRequest_self ..

/-- One rule for every step that `waitStep` can take. -/
inductive WaitStep : WaitState κ ρ τ → WaitAction κ ρ τ → WaitState κ ρ τ → Prop
  | send {s p} (client : κ) (id : ℕ) (hpc : (s.requester p).pc = .idle) :
      WaitStep s (.send p client id)
        (s.update p (⟨.sent, false, false, false, none⟩, initSftpRequest client id))
  | add {s p} (hpc : (s.requester p).pc = .sent) :
      WaitStep s (.add p) { s.go p .checking with sftp := s.sftp.addRequestHashtable p }
  | check {s p} (o : Observed) (hpc : (s.requester p).pc = .checking) :
      WaitStep s (.check p o) (s.update p (waitCheck (s.requester p) (s.sftp.request p) o))
  | wake {s p} (hpc : (s.requester p).pc = .waiting) : WaitStep s (.wake p) (s.go p .checking)
  | expire {s p} (error : WaitError) (hpc : (s.requester p).pc = .waiting) :
      WaitStep s (.expire p error) (s.go p (.leaving (.expired error)))
  | remove {s p why} (hpc : (s.requester p).pc = .leaving why) :
      WaitStep s (.remove p) ({ s with sftp := s.sftp.removeRequestHashtable p }.update p
        (waitRemoved (s.requester p) (s.sftp.request p) why))
  | drop {s t} (client : κ) (m : SftpMessage) (hmissed : m.ignored ∨ s.sftp.find m.id = none) :
      WaitStep s (.receive t client m) s
  | receive {s t p} (client : κ) (m : SftpMessage) (hidle : s.receiver t = none)
      (hfind : s.sftp.find m.id = some p) :
      WaitStep s (.receive t client m)
        (s.work t (some (p, .found m)) (s.sftp.removeRequestHashtable p))
  | mark {s t p m} (hwork : s.receiver t = some (p, .found m)) :
      WaitStep s (.mark t) (s.work t (some (p, .marked m)) (s.sftp.setRequest p
        { s.sftp.request p with status.waiting := false, status.response := true }))
  | fill {s t p m read} (hwork : s.receiver t = some (p, .marked m))
      (hread : m.read (s.sftp.request p).reply = .ok read) :
      WaitStep s (.fill t) (s.work t (some (p, .filled read.received))
        (s.sftp.setRequest p { s.sftp.request p with reply := read.reply }))
  | signal {s t p received} (hwork : s.receiver t = some (p, .filled received)) :
      WaitStep s (.signal t)
        (s.work t none (s.sftp.setRequest p ((s.sftp.request p).signalled received)))

variable {s s' : WaitState κ ρ τ}

theorem receive_sound {t : τ} {client : κ} {m : SftpMessage}
    (h : s.receive t client m = some s') : WaitStep s (.receive t client m) s' := by
  unfold receive lookupRequestHashtable at h
  split at h
  · cases h
  · next hidle =>
    rw [not_isSome_iff_eq_none] at hidle
    split at h
    · next hignored =>
      cases h
      exact .drop client m (.inl hignored)
    · cases hfind : s.sftp.find m.id with
      | none =>
        simp only [hfind] at h
        cases m with
        | reply =>
          cases h
          exact .drop client _ (.inr hfind)
        | version => cases h
      | some p =>
        have hremove : s.sftp.setRow (m.id % hashsize)
            ((s.sftp.rows (m.id % hashsize)).erase p) = s.sftp.removeRequestHashtable p := by
          rw [← (find_eq_some hfind).2]
          rfl
        simp only [hfind, hremove] at h
        cases h
        exact .receive client m hidle hfind

theorem waitStep_sound {a : WaitAction κ ρ τ} (h : waitStep s a = some s') : WaitStep s a s' := by
  cases a with
  | send p client id =>
    obtain ⟨hpc, ⟨⟩⟩ := ite_none_right_eq_some.mp h
    exact .send client id hpc
  | add p =>
    obtain ⟨hpc, ⟨⟩⟩ := ite_none_right_eq_some.mp h
    exact .add hpc
  | check p o =>
    obtain ⟨hpc, ⟨⟩⟩ := ite_none_right_eq_some.mp h
    exact .check o hpc
  | wake p =>
    obtain ⟨hpc, ⟨⟩⟩ := ite_none_right_eq_some.mp h
    exact .wake hpc
  | expire p error =>
    obtain ⟨hpc, ⟨⟩⟩ := ite_none_right_eq_some.mp h
    exact .expire error hpc
  | remove p =>
    simp only [waitStep] at h
    split at h
    · next hpc =>
      cases h
      exact .remove hpc
    · cases h
  | receive t client m => exact receive_sound h
  | mark t =>
    simp only [waitStep, mark] at h
    split at h
    · next hwork =>
      cases h
      exact .mark hwork
    · cases h
  | fill t =>
    simp only [waitStep, fill] at h
    split at h
    · next hwork =>
      split at h
      · next hread =>
        cases h
        exact .fill hwork hread
      · cases h
    · cases h
  | signal t =>
    simp only [waitStep, signal, signal_eq_setRequest] at h
    split at h
    · next hwork =>
      cases h
      exact .signal hwork
    · cases h

section Work

variable {t : τ} {p : ρ} {m : SftpMessage} {read : SftpRead}

theorem waitStep_mark (hwork : s.receiver t = some (p, .found m)) :
    waitStep s (.mark t) = some (s.work t (some (p, .marked m)) (s.sftp.setRequest p
      { s.sftp.request p with status.waiting := false, status.response := true })) := by
  simp [waitStep, mark, hwork]

theorem waitStep_fill (hwork : s.receiver t = some (p, .marked m))
    (hread : m.read (s.sftp.request p).reply = .ok read) :
    waitStep s (.fill t) = some (s.work t (some (p, .filled read.received))
      (s.sftp.setRequest p { s.sftp.request p with reply := read.reply })) := by
  simp [waitStep, fill, hwork, hread]

theorem waitStep_signal {received : Bool} (hwork : s.receiver t = some (p, .filled received)) :
    waitStep s (.signal t) = some (s.work t none (if received then s.sftp.signalSftpReceivedId p
      else s.sftp.signalSftpReceivedIdError p)) := by
  simp [waitStep, signal, hwork]

end Work

end Steps

/-! ## The table -/

section Table

variable {κ ρ τ : Type} {s s' : WaitState κ ρ τ} {p : ρ}

def WaitPc.early : WaitPc → Bool
  | .idle | .sent => true
  | _ => false

/-- A request stands in its row, once, and only from the time on when it is added. -/
structure Tabled (s : WaitState κ ρ τ) : Prop where
  nodup : ∀ hash, (s.sftp.rows hash).Nodup
  row : ∀ hash p, p ∈ s.sftp.rows hash → hash = (s.sftp.request p).id % hashsize
  added : ∀ hash p, p ∈ s.sftp.rows hash → (s.requester p).pc.early = false

variable (q : Requester) (r : SftpRequest κ)

theorem waitCheck_early (o : Observed) : (waitCheck q r o).1.pc.early = false := by
  unfold waitCheck
  repeat' split
  all_goals rfl

theorem waitCheck_id (o : Observed) : (waitCheck q r o).2.id = r.id := by
  unfold waitCheck
  repeat' split
  all_goals rfl

theorem waitRemoved_pc (why : GiveUp) : (waitRemoved q r why).1.pc = .returned false := by
  unfold waitRemoved
  repeat' split
  all_goals rfl

theorem waitRemoved_id (why : GiveUp) : (waitRemoved q r why).2.id = r.id := by
  unfold waitRemoved
  repeat' split
  all_goals rfl

theorem signalled_id (received : Bool) : (r.signalled received).id = r.id := by
  unfold SftpRequest.signalled
  split <;> rfl

theorem Tabled.absent (h : Tabled s) (hpc : (s.requester p).pc.early) (hash : ℕ) :
    p ∉ s.sftp.rows hash := by
  intro hp
  cases (h.added hash p hp).symm.trans hpc

/-- A step on one request: rows may only lose requests, and if this one is in the table it keeps its
id and is not early. -/
theorem Tabled.onRequest (h : Tabled s)
    (hrows : ∀ hash, (s'.sftp.rows hash).Sublist (s.sftp.rows hash))
    (hother : ∀ q, q ≠ p → s'.sftp.request q = s.sftp.request q ∧ s'.requester q = s.requester q)
    (hself : ∀ hash, p ∈ s.sftp.rows hash →
      (s'.sftp.request p).id = (s.sftp.request p).id ∧ (s'.requester p).pc.early = false) :
    Tabled s' := by
  have hq : ∀ hash q, q ∈ s'.sftp.rows hash →
      (s'.sftp.request q).id = (s.sftp.request q).id ∧ (s'.requester q).pc.early = false := by
    intro hash q hq
    have hold := (hrows hash).subset hq
    by_cases hp : q = p
    · subst hp
      exact hself hash hold
    · obtain ⟨hrequest, hrequester⟩ := hother q hp
      rw [hrequest, hrequester]
      exact ⟨rfl, h.added hash q hold⟩
  refine ⟨fun hash => (h.nodup hash).sublist (hrows hash), ?_, fun hash q hm => (hq hash q hm).2⟩
  intro hash q hm
  rw [(hq hash q hm).1]
  exact h.row hash q ((hrows hash).subset hm)

variable [DecidableEq ρ]

theorem rows_removeRequestHashtable (sftp : SftpState κ ρ) (p : ρ) (hash : ℕ) :
    ((sftp.removeRequestHashtable p).rows hash).Sublist (sftp.rows hash) := by
  unfold removeRequestHashtable setRow
  by_cases hhash : hash = (sftp.request p).id % hashsize
  · subst hhash
    simp only [update_self]
    exact erase_sublist
  · simp only [update_of_ne hhash]
    exact Sublist.refl _

theorem Tabled.add (h : Tabled s) (hpc : (s.requester p).pc = .sent) :
    Tabled { s.go p .checking with sftp := s.sftp.addRequestHashtable p } := by
  have hnot := h.absent (p := p) (by rw [hpc]; rfl)
  have hrows : ∀ hash, (s.sftp.addRequestHashtable p).rows hash =
      if hash = (s.sftp.request p).id % hashsize then s.sftp.rows hash ++ [p]
      else s.sftp.rows hash := by
    intro hash
    split
    · next hhash =>
      rw [hhash]
      exact update_self ..
    · next hhash => exact update_of_ne hhash _ _
  have hmem : ∀ {hash q}, q ∈ (s.sftp.addRequestHashtable p).rows hash →
      q ∈ s.sftp.rows hash ∨ q = p ∧ hash = (s.sftp.request p).id % hashsize := by
    intro hash q hq
    rw [hrows] at hq
    split at hq
    · next hhash =>
      exact (mem_append.mp hq).imp_right fun hq => ⟨mem_singleton.mp hq, hhash⟩
    · exact .inl hq
  refine ⟨?_, ?_, ?_⟩
  · intro hash
    change ((s.sftp.addRequestHashtable p).rows hash).Nodup
    rw [hrows]
    split
    · exact (perm_append_singleton _ _).nodup_iff.mpr (nodup_cons.mpr ⟨hnot hash, h.nodup hash⟩)
    · exact h.nodup hash
  · intro hash q hq
    rcases hmem hq with hq | ⟨rfl, hhash⟩
    · exact h.row hash q hq
    · exact hhash
  · intro hash q hq
    by_cases hp : q = p
    · subst hp
      exact congrArg (fun x : Requester => x.pc.early) (requester_go s q .checking)
    · rcases hmem hq with hq | ⟨hq, -⟩
      · simp only [go, setRequester, update_of_ne hp]
        exact h.added hash q hq
      · exact absurd hq hp

variable [DecidableEq τ]

theorem Tabled.worked (h : Tabled s) (t : τ) (w : Option (ρ × Work)) {r : SftpRequest κ}
    (hid : r.id = (s.sftp.request p).id) : Tabled (s.work t w (s.sftp.setRequest p r)) := by
  refine h.onRequest (p := p) (fun _ => .refl _) (fun q hq => ⟨update_of_ne hq _ _, rfl⟩) ?_
  intro hash hp
  rw [request_work]
  exact ⟨hid, h.added hash p hp⟩

/-- Only adding and removing change a row. -/
theorem Tabled.step {a : WaitAction κ ρ τ} (h : Tabled s) (hstep : WaitStep s a s') :
    Tabled s' := by
  have hrest : ∀ {p q : ρ} {r : SftpRequest κ} {x : Requester}, q ≠ p →
      update s.sftp.request p r q = s.sftp.request q ∧
        update s.requester p x q = s.requester q := fun hq =>
    ⟨update_of_ne hq _ _, update_of_ne hq _ _⟩
  cases hstep with
  | @send p client id hpc =>
    exact h.onRequest (p := p) (fun _ => .refl _) (fun q hq => hrest hq)
      fun hash hp => absurd hp (h.absent (by rw [hpc]; rfl) hash)
  | add hpc => exact h.add hpc
  | @check p o hpc =>
    refine h.onRequest (p := p) (fun _ => .refl _) (fun q hq => hrest hq) ?_
    intro hash hp
    rw [request_update, requester_update]
    exact ⟨waitCheck_id .., waitCheck_early ..⟩
  | @wake p hpc | @expire p error hpc =>
    refine h.onRequest (p := p) (fun _ => .refl _) (fun q hq => ⟨rfl, update_of_ne hq _ _⟩) ?_
    intro hash hp
    rw [requester_go]
    exact ⟨rfl, rfl⟩
  | @remove p why hpc =>
    refine h.onRequest (p := p) (rows_removeRequestHashtable s.sftp p) (fun q hq => hrest hq) ?_
    intro hash hp
    rw [request_update, requester_update, waitRemoved_pc]
    exact ⟨waitRemoved_id .., rfl⟩
  | drop => exact h
  | @receive t p client m hidle hfind =>
    exact h.onRequest (p := p) (rows_removeRequestHashtable s.sftp p) (fun q hq => ⟨rfl, rfl⟩)
      fun hash hp => ⟨rfl, h.added hash p hp⟩
  | mark hwork | fill hwork => exact h.worked _ _ rfl
  | signal hwork => exact h.worked _ _ (signalled_id ..)

end Table

/-! ## One request -/

section View

variable {κ ρ τ : Type} [DecidableEq ρ]

/-- What the other threads do for a request is of no account to it. -/
@[ext] structure RequestView (κ τ : Type) where
  requester : Requester
  request : SftpRequest κ
  listed : Bool
  work : τ → Option Work

def workFor (p : ρ) (w : Option (ρ × Work)) : Option Work :=
  w.bind fun x => if x.1 = p then some x.2 else none

def WaitState.view (s : WaitState κ ρ τ) (p : ρ) : RequestView κ τ where
  requester := s.requester p
  request := s.sftp.request p
  listed := decide (s.sftp.Pending p)
  work t := workFor p (s.receiver t)

/-- The steps of the system as one request sees them. -/
inductive ViewStep [DecidableEq τ] (p : ρ) (v : RequestView κ τ) :
    WaitAction κ ρ τ → RequestView κ τ → Prop
  | stay (a : WaitAction κ ρ τ) : ViewStep p v a v
  | send (client : κ) (id : ℕ) (hpc : v.requester.pc = .idle) :
      ViewStep p v (.send p client id) { v with
        requester := ⟨.sent, false, false, false, none⟩
        request := initSftpRequest client id }
  | add (hpc : v.requester.pc = .sent) :
      ViewStep p v (.add p) { v with requester.pc := .checking, listed := true }
  | check (o : Observed) (hpc : v.requester.pc = .checking) :
      ViewStep p v (.check p o) { v with
        requester := (waitCheck v.requester v.request o).1
        request := (waitCheck v.requester v.request o).2 }
  | wake (hpc : v.requester.pc = .waiting) :
      ViewStep p v (.wake p) { v with requester.pc := .checking }
  | expire (error : WaitError) (hpc : v.requester.pc = .waiting) :
      ViewStep p v (.expire p error) { v with requester.pc := .leaving (.expired error) }
  | remove {why : GiveUp} (hpc : v.requester.pc = .leaving why) :
      ViewStep p v (.remove p) { v with
        requester := (waitRemoved v.requester v.request why).1
        request := (waitRemoved v.requester v.request why).2
        listed := false }
  | take {t : τ} (client : κ) (m : SftpMessage) (hlisted : v.listed) :
      ViewStep p v (.receive t client m) { v with
        listed := false
        work := update v.work t (some (.found m)) }
  | mark {t : τ} {m : SftpMessage} (hwork : v.work t = some (.found m)) :
      ViewStep p v (.mark t) { v with
        request := { v.request with status.waiting := false, status.response := true }
        work := update v.work t (some (.marked m)) }
  | fill {t : τ} {m : SftpMessage} {read : SftpRead} (hwork : v.work t = some (.marked m))
      (hread : m.read v.request.reply = .ok read) :
      ViewStep p v (.fill t) { v with
        request := { v.request with reply := read.reply }
        work := update v.work t (some (.filled read.received)) }
  | signal {t : τ} {received : Bool} (hwork : v.work t = some (.filled received)) :
      ViewStep p v (.signal t) { v with
        request := v.request.signalled received
        work := update v.work t none }

variable {s s' : WaitState κ ρ τ} {p q : ρ} {t : τ}

@[simp] theorem workFor_self (p : ρ) (w : Work) : workFor p (some (p, w)) = some w := if_pos rfl

theorem workFor_of_ne (hq : q ≠ p) (w : Work) : workFor p (some (q, w)) = none := if_neg hq

variable {w : Option (ρ × Work)}

theorem workFor_eq_some {x : Work} : workFor p w = some x ↔ w = some (p, x) := by
  cases w with
  | none => simp [workFor]
  | some y =>
    obtain ⟨q, w⟩ := y
    by_cases hq : q = p
    · subst hq
      simp
    · simp [workFor_of_ne hq, hq]

theorem view_eq {v : RequestView κ τ} (hrequester : s.requester p = v.requester)
    (hrequest : s.sftp.request p = v.request) (hlisted : s.sftp.Pending p ↔ v.listed)
    (hwork : ∀ t, workFor p (s.receiver t) = v.work t) : s.view p = v :=
  RequestView.ext hrequester hrequest (by simp [view, hlisted]) (funext hwork)

theorem view_same (hrequester : s'.requester p = s.requester p)
    (hrequest : s'.sftp.request p = s.sftp.request p)
    (hlisted : s'.sftp.Pending p ↔ s.sftp.Pending p)
    (hwork : ∀ t, workFor p (s'.receiver t) = workFor p (s.receiver t)) :
    s'.view p = s.view p := by
  refine view_eq hrequester hrequest (hlisted.trans ?_) hwork
  exact decide_eq_true_iff.symm

variable (sftp : SftpState κ ρ)

omit [DecidableEq ρ] in
theorem pending_addRequestHashtable :
    (sftp.addRequestHashtable q).Pending p ↔ p = q ∨ sftp.Pending p := by
  unfold SftpState.Pending addRequestHashtable setRow
  by_cases hhash : (sftp.request p).id % hashsize = (sftp.request q).id % hashsize
  · simp only [hhash, update_self, mem_append, mem_singleton]
    exact or_comm
  · have hne : p ≠ q := by
      rintro rfl
      exact hhash rfl
    simp [update_of_ne hhash, hne]

theorem pending_removeRequestHashtable (hnodup : ∀ hash, (sftp.rows hash).Nodup) :
    (sftp.removeRequestHashtable q).Pending p ↔ p ≠ q ∧ sftp.Pending p := by
  unfold SftpState.Pending removeRequestHashtable setRow
  by_cases hhash : (sftp.request p).id % hashsize = (sftp.request q).id % hashsize
  · simp only [hhash, update_self]
    exact (hnodup _).mem_erase_iff
  · have hne : p ≠ q := by
      rintro rfl
      exact hhash rfl
    simp [update_of_ne hhash, hne]

variable {r : SftpRequest κ}

theorem pending_setRequest (hid : r.id = (sftp.request q).id) :
    (sftp.setRequest q r).Pending p ↔ sftp.Pending p := by
  unfold SftpState.Pending setRequest
  by_cases hp : p = q
  · subst hp
    simp [hid]
  · simp [update_of_ne hp]

theorem request_setRequest_of_ne (r : SftpRequest κ) (hq : q ≠ p) :
    (sftp.setRequest q r).request p = sftp.request p :=
  update_of_ne hq.symm _ _

theorem view_update_of_ne (s : WaitState κ ρ τ) (result : Requester × SftpRequest κ) (hq : q ≠ p) :
    (s.update q result).view p = s.view p := by
  have hsame := request_setRequest_of_ne s.sftp result.2 hq
  refine view_same (update_of_ne hq.symm _ _) hsame ?_ fun _ => rfl
  unfold SftpState.Pending
  rw [show (s.update q result).sftp.request p = _ from hsame]
  rfl

theorem view_go_of_ne (s : WaitState κ ρ τ) (pc : WaitPc) (hq : q ≠ p) :
    (s.go q pc).view p = s.view p :=
  view_same (update_of_ne hq.symm _ _) rfl .rfl fun _ => rfl

theorem view_go (s : WaitState κ ρ τ) (p : ρ) (pc : WaitPc) :
    (s.go p pc).view p = { s.view p with requester.pc := pc } :=
  view_eq (requester_go s p pc) rfl decide_eq_true_iff.symm fun _ => rfl

variable [DecidableEq τ]

theorem work_work (s : WaitState κ ρ τ) (w : Option (ρ × Work)) (sftp : SftpState κ ρ) (t' : τ) :
    workFor p ((s.work t w sftp).receiver t') =
      update (s.view p).work t (workFor p w) t' := by
  by_cases ht : t' = t
  · subst ht
    simp [work]
  · simp [work, view, update_of_ne ht]

theorem view_work_of_ne {sftp : SftpState κ ρ}
    (hbefore : workFor p (s.receiver t) = none) (hafter : workFor p w = none)
    (hrequest : sftp.request p = s.sftp.request p)
    (hlisted : sftp.Pending p ↔ s.sftp.Pending p) : (s.work t w sftp).view p = s.view p := by
  refine view_same rfl hrequest hlisted ?_
  intro t'
  rw [work_work, hafter, ← hbefore]
  exact congrFun (update_eq_self t (s.view p).work) t'

theorem view_work {x : Option Work} (hw : workFor p w = x) (hid : r.id = (s.sftp.request p).id) :
    (s.work t w (s.sftp.setRequest p r)).view p =
      { s.view p with request := r, work := update (s.view p).work t x } := by
  refine view_eq rfl (setRequest_self s.sftp p r) ?_ ?_
  · exact (pending_setRequest s.sftp hid).trans decide_eq_true_iff.symm
  · intro t'
    rw [work_work, hw]

variable {a : WaitAction κ ρ τ}

omit [DecidableEq ρ] in
theorem ViewStep.to {v v' w : RequestView κ τ} (h : ViewStep p v a w) (heq : v' = w) :
    ViewStep p v a v' :=
  heq ▸ h

theorem WaitStep.view (h : Tabled s) (hstep : WaitStep s a s') (p : ρ) :
    ViewStep p (s.view p) a (s'.view p) := by
  cases hstep with
  | @send q client id hpc =>
    by_cases hq : q = p
    · subst hq
      refine (ViewStep.send client id hpc).to
        (view_eq (requester_update ..) (request_update ..) ?_ fun _ => rfl)
      have hnot := h.absent (p := q) (by rw [hpc]; rfl)
      exact iff_of_false (hnot _) fun hlisted => hnot _ (of_decide_eq_true hlisted)
    · exact (ViewStep.stay _).to (view_update_of_ne s _ hq)
  | @add q hpc =>
    by_cases hq : q = p
    · subst hq
      exact (ViewStep.add hpc).to (view_eq (requester_go s q _) rfl
        (iff_of_true ((pending_addRequestHashtable _).mpr (.inl rfl)) rfl) fun _ => rfl)
    · refine (ViewStep.stay _).to (view_same (update_of_ne (Ne.symm hq) _ _) rfl ?_ fun _ => rfl)
      exact (pending_addRequestHashtable _).trans (or_iff_right (Ne.symm hq))
  | @check q o hpc =>
    by_cases hq : q = p
    · subst hq
      refine (ViewStep.check o hpc).to
        (view_eq (requester_update ..) (request_update ..) ?_ fun _ => rfl)
      exact (pending_setRequest s.sftp (waitCheck_id ..)).trans decide_eq_true_iff.symm
    · exact (ViewStep.stay _).to (view_update_of_ne s _ hq)
  | @wake q hpc =>
    by_cases hq : q = p
    · subst hq
      exact (ViewStep.wake hpc).to (view_go ..)
    · exact (ViewStep.stay _).to (view_go_of_ne s _ hq)
  | @expire q error hpc =>
    by_cases hq : q = p
    · subst hq
      exact (ViewStep.expire error hpc).to (view_go ..)
    · exact (ViewStep.stay _).to (view_go_of_ne s _ hq)
  | @remove q why hpc =>
    by_cases hq : q = p
    · subst hq
      refine (ViewStep.remove hpc).to
        (view_eq (requester_update ..) (request_update ..) ?_ fun _ => rfl)
      refine iff_of_false (fun hpending => ?_) Bool.false_ne_true
      have hpending := (pending_setRequest (s.sftp.removeRequestHashtable q)
        (waitRemoved_id ..)).mp hpending
      exact ((pending_removeRequestHashtable s.sftp h.nodup).mp hpending).1 rfl
    · refine (ViewStep.stay _).to
        ((view_update_of_ne _ _ hq).trans (view_same rfl rfl ?_ fun _ => rfl))
      exact (pending_removeRequestHashtable s.sftp h.nodup).trans (and_iff_right (Ne.symm hq))
  | drop => exact .stay _
  | @receive t q client m hidle hfind =>
    by_cases hq : q = p
    · subst hq
      refine (ViewStep.take client m (decide_eq_true (find_eq_some hfind).1)).to ?_
      refine view_eq rfl rfl (iff_of_false (fun hpending => ?_) Bool.false_ne_true) fun t' => ?_
      · exact ((pending_removeRequestHashtable s.sftp h.nodup).mp hpending).1 rfl
      · rw [work_work, workFor_self]
    · refine (ViewStep.stay _).to (view_work_of_ne (by rw [hidle]; rfl) (workFor_of_ne hq _) rfl ?_)
      exact (pending_removeRequestHashtable s.sftp h.nodup).trans (and_iff_right (Ne.symm hq))
  | @mark t q m hwork =>
    by_cases hq : q = p
    · subst hq
      exact (ViewStep.mark (workFor_eq_some.mpr hwork)).to (view_work (workFor_self ..) rfl)
    · exact (ViewStep.stay _).to (view_work_of_ne (by rw [hwork, workFor_of_ne hq])
        (workFor_of_ne hq _) (request_setRequest_of_ne _ _ hq) (pending_setRequest _ rfl))
  | @fill t q m read hwork hread =>
    by_cases hq : q = p
    · subst hq
      exact (ViewStep.fill (workFor_eq_some.mpr hwork) hread).to (view_work (workFor_self ..) rfl)
    · exact (ViewStep.stay _).to (view_work_of_ne (by rw [hwork, workFor_of_ne hq])
        (workFor_of_ne hq _) (request_setRequest_of_ne _ _ hq) (pending_setRequest _ rfl))
  | @signal t q received hwork =>
    by_cases hq : q = p
    · subst hq
      exact (ViewStep.signal (workFor_eq_some.mpr hwork)).to (view_work rfl (signalled_id ..))
    · exact (ViewStep.stay _).to (view_work_of_ne (by rw [hwork, workFor_of_ne hq]) rfl
        (request_setRequest_of_ne _ _ hq) (pending_setRequest _ (signalled_id ..)))

end View

/-! ## Letting go of a request -/

section Release

variable {κ ρ τ : Type} [DecidableEq ρ] [DecidableEq τ] {v v' : RequestView κ τ} {p : ρ}
  {s s' : WaitState κ ρ τ}

/-- The request is not in the table, and no receiving thread works for it. -/
def RequestView.Free (v : RequestView κ τ) : Prop := v.listed = false ∧ ∀ t, v.work t = none

def WaitPc.active : WaitPc → Bool
  | .checking | .waiting => true
  | _ => false

/-- One receiving thread at most works for a request, which is then out of the table. When the
request is finished it is let go. -/
structure Guarded (v : RequestView κ τ) : Prop where
  early : v.requester.pc.early → v.Free
  sent : v.requester.pc = .sent → v.request.status.finish = false ∧ v.request.status.error = false
  one : ∀ t t' w w', v.work t = some w → v.work t' = some w' → t = t'
  unlisted : ∀ t w, v.work t = some w → v.listed = false
  finished : v.requester.pc.active → v.request.status.finish ∨ v.request.status.error → v.Free

theorem waitCheck_cases (q : Requester) (r : SftpRequest κ) (o : Observed) :
    ((waitCheck q r o).1.pc = .returned true ∧ r.status.finish) ∨
    ((waitCheck q r o).1.pc = .returned false ∧ r.status.error) ∨
    ((waitCheck q r o).1.pc = .waiting ∧ (waitCheck q r o).2 = r) ∨
    ∃ why, (waitCheck q r o).1.pc = .leaving why := by
  unfold waitCheck
  split
  · next hfinish => exact .inl ⟨rfl, hfinish⟩
  · split
    · split
      · exact .inr (.inr (.inl ⟨rfl, rfl⟩))
      · exact .inr (.inr (.inr ⟨_, rfl⟩))
    · split
      · exact .inr (.inr (.inr ⟨_, rfl⟩))
      · split
        · next herror => exact .inr (.inl ⟨rfl, herror⟩)
        · split
          · exact .inr (.inr (.inr ⟨_, rfl⟩))
          · split
            · exact .inr (.inr (.inr ⟨_, rfl⟩))
            · exact .inr (.inr (.inl ⟨rfl, rfl⟩))

omit [DecidableEq τ] in
theorem not_free_of_work {t : τ} {w : Work} (hwork : v.work t = some w) : ¬ v.Free := by
  intro hfree
  cases (hfree.2 t).symm.trans hwork

theorem Guarded.worked (h : Guarded v) {t : τ} {w : Work} (hwork : v.work t = some w)
    (r : SftpRequest κ) (hfinish : r.status.finish = v.request.status.finish)
    (herror : r.status.error = v.request.status.error) (w' : Work) :
    Guarded { v with request := r, work := update v.work t (some w') } := by
  have hsome : ∀ {t' x}, update v.work t (some w') t' = some x →
      ∃ y, v.work t' = some y := by
    intro t' x hx
    by_cases ht : t' = t
    · exact ⟨w, ht ▸ hwork⟩
    · exact ⟨x, (update_of_ne ht _ _).symm.trans hx⟩
  have hheld := not_free_of_work hwork
  refine ⟨fun hearly => absurd (h.early hearly) hheld,
    fun hsent => absurd (h.early (by rw [hsent]; rfl)) hheld, ?_, ?_, ?_⟩
  · intro t₁ t₂ x₁ x₂ h₁ h₂
    obtain ⟨y₁, h₁⟩ := hsome h₁
    obtain ⟨y₂, h₂⟩ := hsome h₂
    exact h.one t₁ t₂ y₁ y₂ h₁ h₂
  · exact fun _ _ _ => h.unlisted t w hwork
  · intro hactive hdone
    simp only [hfinish, herror] at hdone
    exact absurd (h.finished hactive hdone) hheld

theorem Guarded.signal (h : Guarded v) {t : τ} {w : Work} (hwork : v.work t = some w)
    (r : SftpRequest κ) :
    Guarded { v with request := r, work := update v.work t none } := by
  have hnone : ∀ t', update v.work t none t' = none := by
    intro t'
    by_cases ht : t' = t
    · subst ht
      exact update_self ..
    · rw [update_of_ne ht, eq_none_iff_forall_ne_some]
      intro x hx
      exact ht (h.one t' t x w hx hwork)
  have hheld := not_free_of_work hwork
  refine ⟨fun hearly => absurd (h.early hearly) hheld,
    fun hsent => absurd (h.early (by rw [hsent]; rfl)) hheld, ?_, ?_, ?_⟩
  · intro t₁ t₂ x₁ x₂ h₁ _
    cases (hnone t₁).symm.trans h₁
  · exact fun _ _ _ => h.unlisted t w hwork
  · exact fun _ _ => ⟨h.unlisted t w hwork, hnone⟩

theorem Guarded.take (h : Guarded v) (hlisted : v.listed) (t : τ) (w : Work) :
    Guarded { v with listed := false, work := update v.work t (some w) } := by
  have hnone : ∀ t', v.work t' = none := by
    intro t'
    rw [eq_none_iff_forall_ne_some]
    intro x hx
    cases (h.unlisted t' x hx).symm.trans hlisted
  have hheld : ¬ v.Free := by
    intro hfree
    cases hfree.1.symm.trans hlisted
  have honly : ∀ {t' x}, update v.work t (some w) t' = some x → t' = t := by
    intro t' x hx
    by_contra ht
    rw [update_of_ne ht, hnone t'] at hx
    cases hx
  refine ⟨fun hearly => absurd (h.early hearly) hheld,
    fun hsent => absurd (h.early (by rw [hsent]; rfl)) hheld, ?_, fun _ _ _ => rfl, ?_⟩
  · intro t₁ t₂ x₁ x₂ h₁ h₂
    rw [honly h₁, honly h₂]
  · exact fun hactive hdone => absurd (h.finished hactive hdone) hheld

variable {a : WaitAction κ ρ τ}

omit [DecidableEq ρ] in
/-- A thread that works for a request has taken it out of the table. -/
theorem Guarded.step (h : Guarded v) (hstep : ViewStep p v a v') : Guarded v' := by
  cases hstep with
  | stay => exact h
  | send client id hpc =>
    exact ⟨fun _ => h.early (by rw [hpc]; rfl), fun _ => ⟨rfl, rfl⟩, h.one, h.unlisted, nofun⟩
  | add hpc =>
    have hfree := h.early (by rw [hpc]; rfl)
    obtain ⟨hfinish, herror⟩ := h.sent hpc
    refine ⟨nofun, nofun, h.one, ?_, ?_⟩
    · intro t w hw
      cases (hfree.2 t).symm.trans hw
    · intro _ hdone
      simp [hfinish, herror] at hdone
  | check o hpc =>
    have hlate := waitCheck_early v.requester v.request o
    refine ⟨?_, ?_, h.one, h.unlisted, ?_⟩
    · intro hearly
      cases hlate.symm.trans hearly
    · intro hsent
      rw [show (waitCheck _ _ _).1.pc = _ from hsent] at hlate
      cases hlate
    · intro hactive hdone
      -- the thread waits for more only if nothing has changed
      rcases waitCheck_cases v.requester v.request o with
        ⟨hpc', -⟩ | ⟨hpc', -⟩ | ⟨-, hsame⟩ | ⟨why, hpc'⟩
      · simp [hpc', WaitPc.active] at hactive
      · simp [hpc', WaitPc.active] at hactive
      · simp only [hsame] at hdone
        exact h.finished (by rw [hpc]; rfl) hdone
      · simp [hpc', WaitPc.active] at hactive
  | wake hpc => exact ⟨nofun, nofun, h.one, h.unlisted, fun _ => h.finished (by rw [hpc]; rfl)⟩
  | expire error hpc => exact ⟨nofun, nofun, h.one, h.unlisted, nofun⟩
  | remove hpc =>
    refine ⟨?_, ?_, h.one, fun _ _ _ => rfl, ?_⟩
    · simp [waitRemoved_pc, WaitPc.early]
    · simp [waitRemoved_pc]
    · simp [waitRemoved_pc, WaitPc.active]
  | take client m hlisted => exact h.take hlisted _ _
  | mark hwork | fill hwork hread =>
    refine h.worked hwork _ ?_ ?_ _
    · rfl
    · rfl
  | signal hwork => exact h.signal hwork _

/-- When the call has returned, the request has been let go. -/
def ReturnedFree (v : RequestView κ τ) : Prop :=
  ∀ result, v.requester.pc = .returned result → v.Free

omit [DecidableEq ρ] in
theorem ReturnedFree.step (h : ReturnedFree v) (hguarded : Guarded v)
    (hstep : ViewStep p v a v') (hremove : a = .remove p → ∀ t, v.work t = none) :
    ReturnedFree v' := by
  cases hstep with
  | stay => exact h
  | send | add | wake | expire => exact nofun
  | check o hpc =>
    intro result hresult
    have hactive : v.requester.pc.active := by rw [hpc]; rfl
    rcases waitCheck_cases v.requester v.request o with
      ⟨-, hfinish⟩ | ⟨-, herror⟩ | ⟨hpc', -⟩ | ⟨why, hpc'⟩
    · exact hguarded.finished hactive (.inl hfinish)
    · exact hguarded.finished hactive (.inr herror)
    · cases hpc'.symm.trans hresult
    · cases hpc'.symm.trans hresult
  | remove hpc => exact fun _ _ => ⟨rfl, hremove rfl⟩
  | take client m hlisted =>
    intro result hresult
    cases (h result hresult).1.symm.trans hlisted
  | mark hwork | fill hwork hread | signal hwork =>
    exact fun result hresult => absurd (h result hresult) (not_free_of_work hwork)

/-! ## Runs -/

def startWait (request : ρ → SftpRequest κ) (receiver : κ → SftpReceiver) : WaitState κ ρ τ where
  sftp := { request, rows := fun _ => [], receiver }
  requester _ := ⟨.idle, false, false, false, none⟩
  receiver _ := none

section

variable (s : WaitState κ ρ τ)

/-- The request of a call that has returned is not in the table, and no receiving thread has it. -/
def Released : Prop :=
  ∀ p result, (s.requester p).pc = .returned result →
    (∀ hash, p ∉ s.sftp.rows hash) ∧ ∀ t w, s.receiver t ≠ some (p, w)

/-- A thread that gives up removes its request when no receiving thread has it. -/
def RemovesUnheld : WaitAction κ ρ τ → Prop
  | .remove p => ∀ why, (s.requester p).pc = .leaving why → ∀ t w, s.receiver t ≠ some (p, w)
  | _ => True

def ReleasedAfter (a : WaitAction κ ρ τ) : Prop :=
  ∀ s', waitStep s a = some s' → Released s'

/-- What holds in every state. -/
structure Watched : Prop where
  tabled : Tabled s
  guarded : ∀ p, Guarded (s.view p)

end

omit [DecidableEq τ] in
theorem watched_startWait (request : ρ → SftpRequest κ) (receiver : κ → SftpReceiver) :
    Watched (startWait request receiver : WaitState κ ρ τ) := by
  refine ⟨⟨fun _ => nodup_nil, nofun, nofun⟩, fun p => ⟨fun _ => ⟨?_, fun _ => rfl⟩, nofun,
    nofun, nofun, nofun⟩⟩
  simp [view, startWait, SftpState.Pending]

theorem Watched.step (h : Watched s) (hstep : WaitStep s a s') : Watched s' :=
  ⟨h.tabled.step hstep, fun p => (h.guarded p).step (hstep.view h.tabled p)⟩

omit [DecidableEq τ] in
theorem released_of_free (htabled : Tabled s) (h : ∀ p, ReturnedFree (s.view p)) : Released s := by
  intro p result hresult
  obtain ⟨hlisted, hwork⟩ := h p result hresult
  refine ⟨?_, ?_⟩
  · intro hash hp
    have hpending : s.sftp.Pending p := by
      rw [SftpState.Pending, ← htabled.row hash p hp]
      exact hp
    exact of_decide_eq_false hlisted hpending
  · intro t w hw
    cases (hwork t).symm.trans (workFor_eq_some.mpr hw)

/-- In exactly those runs in which no thread removes a request that a receiving thread has, every
request has been let go when its call returns and from then on. -/
theorem removes_unheld_iff_released (request : ρ → SftpRequest κ) (receiver : κ → SftpReceiver)
    (as : List (WaitAction κ ρ τ)) :
    Transition.Along waitStep RemovesUnheld (startWait request receiver) as ↔
      Transition.Along waitStep ReleasedAfter (startWait request receiver) as := by
  constructor
  · have hkeep : ∀ (s : WaitState κ ρ τ) a s',
        (Watched s ∧ ∀ p, ReturnedFree (s.view p)) → RemovesUnheld s a → waitStep s a = some s' →
          Watched s' ∧ ∀ p, ReturnedFree (s'.view p) := by
      rintro s a s' ⟨hwatched, hfree⟩ hremoves hstep
      have hstep := waitStep_sound hstep
      refine ⟨hwatched.step hstep, fun p => ?_⟩
      refine (hfree p).step (hwatched.guarded p) (hstep.view hwatched.tabled p) ?_
      rintro rfl t
      cases hstep with
      | remove hpc =>
        rw [eq_none_iff_forall_ne_some]
        intro w hw
        exact hremoves _ hpc t w (workFor_eq_some.mp hw)
    apply Transition.along_of_invariant hkeep
    · intro s a hinvariant hremoves s' hstep
      obtain ⟨hwatched, hfree⟩ := hkeep s a s' hinvariant hremoves hstep
      exact released_of_free hwatched.tabled hfree
    · exact ⟨watched_startWait request receiver, nofun⟩
  · refine Transition.along_of_invariant (I := fun _ => True) (fun _ _ _ _ _ _ => trivial) ?_ trivial
    intro s a _ hreleased
    cases a with
    | remove p =>
      intro why hpc t w
      have hstep : waitStep s (.remove p) = some
          ({ s with sftp := s.sftp.removeRequestHashtable p }.update p
            (waitRemoved (s.requester p) (s.sftp.request p) why)) := by
        simp [waitStep, hpc]
      refine (hreleased _ hstep p false ?_).2 t w
      rw [requester_update, waitRemoved_pc]
    | _ => trivial

/-- A request is at one place: once in the table, or with one receiving thread. -/
theorem request_in_one_place (request : ρ → SftpRequest κ) (receiver : κ → SftpReceiver)
    (as : List (WaitAction κ ρ τ)) :
    Transition.Along waitStep
      (fun s _ => (∀ hash, (s.sftp.rows hash).Nodup) ∧
        ∀ p, (∀ hash hash', p ∈ s.sftp.rows hash → p ∈ s.sftp.rows hash' → hash = hash') ∧
          ∀ t w, s.receiver t = some (p, w) → (∀ hash, p ∉ s.sftp.rows hash) ∧
            ∀ t' w', s.receiver t' = some (p, w') → t' = t)
      (startWait request receiver) as := by
  apply Transition.along_of_preserves (I := Watched) _ _ (watched_startWait request receiver)
  · exact fun s a s' h hstep => h.step (waitStep_sound hstep)
  · refine fun s a h => ⟨h.tabled.nodup, fun p => ⟨?_, fun t w hw => ?_⟩⟩
    · exact fun _ _ hp hp' => (h.tabled.row _ p hp).trans (h.tabled.row _ p hp').symm
    · have hwork := workFor_eq_some.mpr hw
      refine ⟨fun hash hp => ?_, fun t' w' hw' => ?_⟩
      · rw [h.tabled.row hash p hp] at hp
        exact of_decide_eq_false ((h.guarded p).unlisted t w hwork) hp
      · exact (h.guarded p).one t' t w' w (workFor_eq_some.mpr hw') hwork

/-- A reply of type `SSH_FXP_ATTRS` with an empty body, whose header has been read. -/
def attrsMessage (id : ℕ) : SftpMessage := .reply .v03 ⟨0, 105, id, []⟩

def Observed.nothing : Observed := ⟨false, false, false, false⟩

def oneWaiting : WaitState Unit Unit Unit :=
  startWait (fun _ => initSftpRequest () 0) fun _ => ⟨true, 0, 0⟩

/-- The wait expires when the receiving thread has found the request. -/
def expiredRun : List (WaitAction Unit Unit Unit) :=
  [.send () () 0, .add (), .check () .nothing, .receive () () (attrsMessage 0),
    .expire () .etimedout, .remove ()]

theorem expiredRun_not_released :
    ∃ s', Transition.run waitStep oneWaiting expiredRun = some s' ∧ ¬ Released s' := by
  refine ⟨_, rfl, fun hreleased => ?_⟩
  exact (hreleased () false rfl).2 () (.found (attrsMessage 0)) rfl

end Release

end Osns
