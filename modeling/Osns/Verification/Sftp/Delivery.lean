import Osns.Verification.Sftp.Waiting

/-! The way of a reply from its arrival to the thread that waits for it. -/

namespace Osns

open Function Transition

/-! ## Statement -/

section Statement

variable {κ ρ τ : Type}

/-- The bytes have been sent, and the call has neither returned nor timed out. -/
def WaitPc.awaiting : WaitPc → Bool
  | .sent | .checking | .waiting => true
  | .leaving (.expired _) => false
  | .leaving _ => true
  | .idle | .returned _ => false

/-- A well-formed reply to the request arrives on the channel of its client. -/
structure Arrives (s : WaitState κ ρ τ) (p : ρ) (client : κ) (m : SftpMessage)
    (read : SftpRead) : Prop where
  awaiting : (s.requester p).pc.awaiting
  client : (s.sftp.request p).client = client
  id : (s.sftp.request p).id = m.id
  wellFormed : m.read (s.sftp.request p).reply = .ok read
  received : read.received

/-- The steps that the receiving thread and the thread of the request take by themselves. -/
def WaitAction.OwnedBy (t : τ) (p : ρ) : WaitAction κ ρ τ → Prop
  | .mark t' | .fill t' | .signal t' => t' = t
  | .wake q | .check q _ => q = p
  | _ => False

/-- The thread of the request does not give up while a receiving thread has the request, and a wait
does not expire when the reply is there. -/
def KeepsWaiting (p : ρ) (s : WaitState κ ρ τ) : WaitAction κ ρ τ → Prop
  | .check q o => q = p → ∀ t w, s.receiver t = some (p, w) →
      if o.interrupted then (s.sftp.request p).status.response
      else o.broken = false ∧ o.sequence = false ∧ o.disconnected = false
  | .expire q _ => q = p →
      (∀ t w, s.receiver t ≠ some (p, w)) ∧ (s.sftp.request p).status.finish = false
  | _ => True

variable [DecidableEq ρ] [DecidableEq τ]

/-- With so many steps of their own the two threads come to an end, where the call returns the
reply. -/
def CompletesIn (n : ℕ) (t : τ) (p : ρ) (reply : SftpReply) (s : WaitState κ ρ τ) : Prop :=
  ∃ as s', (∀ a ∈ as, a.OwnedBy t p) ∧ as.length ≤ n ∧ run waitStep s as = some s' ∧
    (s'.requester p).pc = .returned true ∧ (s'.sftp.request p).reply = reply

/-- The call does not return anything but the reply, and the two threads can always complete it. -/
def Delivered (t : τ) (p : ρ) (reply : SftpReply) (s : WaitState κ ρ τ) : Prop :=
  (∀ result, (s.requester p).pc = .returned result →
    result = true ∧ (s.sftp.request p).reply = reply) ∧ CompletesIn 5 t p reply s

end Statement

/-! ## Stages of a reply -/

section Stages

variable {κ ρ τ : Type} {v v' : RequestView κ τ} {p : ρ} {t : τ}
  {read : SftpRead}

/-- Where the reply is. -/
inductive ReplyStage (t : τ) (read : SftpRead) (v : RequestView κ τ) : Prop
  | found {m : SftpMessage} (hwork : v.work t = some (.found m)) (hactive : v.requester.pc.active)
      (hread : m.read v.request.reply = .ok read)
  | marked {m : SftpMessage} (hwork : v.work t = some (.marked m))
      (hactive : v.requester.pc.active) (hresponse : v.request.status.response)
      (hread : m.read v.request.reply = .ok read)
  | filled (hwork : v.work t = some (.filled read.received)) (hactive : v.requester.pc.active)
      (hresponse : v.request.status.response) (hreply : v.request.reply = read.reply)
  | finished (hactive : v.requester.pc.active) (hfinish : v.request.status.finish)
      (hreply : v.request.reply = read.reply)
  | returned (hpc : v.requester.pc = .returned true) (hfree : v.Free)
      (hreply : v.request.reply = read.reply)

variable {r : SftpRequest κ}

theorem waitCheck_held {q : Requester} {o : Observed}
    (hfinish : r.status.finish = false) (herror : r.status.error = false)
    (hkeeps : if o.interrupted then r.status.response
      else o.broken = false ∧ o.sequence = false ∧ o.disconnected = false) :
    (waitCheck q r o).1.pc = .waiting ∧ (waitCheck q r o).2 = r := by
  unfold waitCheck
  cases hinterrupted : o.interrupted with
  | true =>
    rw [hinterrupted, if_pos rfl] at hkeeps
    simp [hfinish, hkeeps]
  | false =>
    rw [hinterrupted, if_neg Bool.false_ne_true] at hkeeps
    obtain ⟨hbroken, hsequence, hdisconnected⟩ := hkeeps
    simp [hfinish, herror, hbroken, hsequence, hdisconnected]

theorem ReplyStage.unlisted (h : ReplyStage t read v) (hguarded : Guarded v) :
    v.listed = false := by
  cases h with
  | found hwork _ _ | marked hwork _ _ _ | filled hwork _ _ _ =>
    exact hguarded.unlisted t _ hwork
  | finished hactive hfinish _ => exact (hguarded.finished hactive (.inl hfinish)).1
  | returned _ hfree _ => exact hfree.1

variable {t' : τ}

/-- Only the receiving thread works on the request, at the stage of the reply. -/
theorem ReplyStage.working (h : ReplyStage t read v) (hguarded : Guarded v) {w : Work}
    (hwork : v.work t' = some w) : t' = t ∧ v.requester.pc.active ∧ match w with
      | .found m => m.read v.request.reply = .ok read
      | .marked m => v.request.status.response ∧ m.read v.request.reply = .ok read
      | .filled received =>
        received = read.received ∧ v.request.status.response ∧ v.request.reply = read.reply := by
  have hone : ∀ {w'}, v.work t = some w' → t' = t ∧ w = w' := by
    intro w' hwork'
    obtain rfl := hguarded.one t' t _ _ hwork hwork'
    cases hwork.symm.trans hwork'
    exact ⟨rfl, rfl⟩
  cases h with
  | found hwork' hactive hread =>
    obtain ⟨rfl, rfl⟩ := hone hwork'
    exact ⟨rfl, hactive, hread⟩
  | marked hwork' hactive hresponse hread =>
    obtain ⟨rfl, rfl⟩ := hone hwork'
    exact ⟨rfl, hactive, hresponse, hread⟩
  | filled hwork' hactive hresponse hreply =>
    obtain ⟨rfl, rfl⟩ := hone hwork'
    exact ⟨rfl, hactive, rfl, hresponse, hreply⟩
  | finished hactive hfinish _ =>
    cases ((hguarded.finished hactive (.inl hfinish)).2 t').symm.trans hwork
  | returned _ hfree _ => cases (hfree.2 t').symm.trans hwork

theorem ReplyStage.waits (h : ReplyStage t read v) (hactive : v.requester.pc.active)
    {q : Requester} (hq : q.pc.active) : ReplyStage t read { v with requester := q } := by
  cases h with
  | found hwork _ hread => exact .found hwork hq hread
  | marked hwork _ hresponse hread => exact .marked hwork hq hresponse hread
  | filled hwork _ hresponse hreply => exact .filled hwork hq hresponse hreply
  | finished _ hfinish hreply => exact .finished hq hfinish hreply
  | returned hpc _ _ =>
    rw [hpc] at hactive
    cases hactive

theorem ReplyStage.check (h : ReplyStage t read v) (hguarded : Guarded v) {o : Observed}
    (hpc : v.requester.pc = .checking)
    (hkeeps : ∀ t w, v.work t = some w → if o.interrupted then v.request.status.response
      else o.broken = false ∧ o.sequence = false ∧ o.disconnected = false) :
    ReplyStage t read { v with
      requester := (waitCheck v.requester v.request o).1
      request := (waitCheck v.requester v.request o).2 } := by
  have hactive : v.requester.pc.active := by rw [hpc]; rfl
  have hheld : ∀ {w}, v.work t = some w → ReplyStage t read { v with
      requester := (waitCheck v.requester v.request o).1
      request := (waitCheck v.requester v.request o).2 } := by
    intro w hwork
    have hopen : ¬ (v.request.status.finish ∨ v.request.status.error) := by
      intro hdone
      cases ((hguarded.finished hactive hdone).2 t).symm.trans hwork
    rw [not_or, Bool.not_eq_true, Bool.not_eq_true] at hopen
    obtain ⟨hwaiting, hsame⟩ := waitCheck_held (q := v.requester) hopen.1 hopen.2 (hkeeps t w hwork)
    rw [hsame]
    exact h.waits hactive (by rw [hwaiting]; rfl)
  cases h with
  | found hwork _ _ | marked hwork _ _ _ | filled hwork _ _ _ => exact hheld hwork
  | finished _ hfinish hreply =>
    have hreturned : waitCheck v.requester v.request o =
        ({ v.requester with pc := .returned true }, v.request) := if_pos hfinish
    rw [hreturned]
    exact .returned rfl (hguarded.finished hactive (.inl hfinish)) hreply
  | returned hpc' _ _ => cases hpc.symm.trans hpc'

variable [DecidableEq τ] {m : SftpMessage}

theorem ReplyStage.mark (h : ReplyStage t read v) (hguarded : Guarded v)
    (hwork : v.work t' = some (.found m)) :
    ReplyStage t read { v with
      request := { v.request with status.waiting := false, status.response := true }
      work := update v.work t' (some (.marked m)) } := by
  obtain ⟨rfl, hactive, hread⟩ := h.working hguarded hwork
  exact .marked (update_self ..) hactive rfl hread

theorem ReplyStage.fill (h : ReplyStage t read v) (hguarded : Guarded v) {read' : SftpRead}
    (hwork : v.work t' = some (.marked m)) (hread' : m.read v.request.reply = .ok read') :
    ReplyStage t read { v with
      request := { v.request with reply := read'.reply }
      work := update v.work t' (some (.filled read'.received)) } := by
  obtain ⟨rfl, hactive, hresponse, hread⟩ := h.working hguarded hwork
  cases hread.symm.trans hread'
  exact .filled (update_self ..) hactive hresponse rfl

theorem signalled_of_response (hresponse : r.status.response) :
    r.signalled true = { r with status.response := false, status.finish := true } :=
  if_pos ⟨rfl, hresponse⟩

theorem ReplyStage.signal (h : ReplyStage t read v) (hguarded : Guarded v)
    (hreceived : read.received) {received : Bool} (hwork : v.work t' = some (.filled received)) :
    ReplyStage t read { v with
      request := v.request.signalled received
      work := update v.work t' none } := by
  obtain ⟨rfl, hactive, rfl, hresponse, hreply⟩ := h.working hguarded hwork
  rw [hreceived, signalled_of_response hresponse]
  exact .finished hactive rfl hreply

variable [DecidableEq ρ]

/-- The reply goes from one stage to the next and is not lost. -/
theorem ReplyStage.step {s s' : WaitState κ ρ τ} {a : WaitAction κ ρ τ}
    (h : ReplyStage t read (s.view p)) (hreceived : read.received) (hwatched : Watched s)
    (hkeeps : KeepsWaiting p s a) (hstep : WaitStep s a s') : ReplyStage t read (s'.view p) := by
  have hguarded := hwatched.guarded p
  have hview := hstep.view hwatched.tabled p
  have hinactive : ∀ {pc}, (s.view p).requester.pc = pc → pc.active = false →
      pc ≠ .returned true → False := by
    rintro pc rfl hactive hreturned
    cases h with
    | found _ hactive' _ | marked _ hactive' _ _ | filled _ hactive' _ _ | finished hactive' _ _ =>
      cases hactive.symm.trans hactive'
    | returned hpc _ _ => exact hreturned hpc
  generalize s'.view p = v' at hview
  cases hview with
  | stay => exact h
  | send client id hpc | add hpc | remove hpc => exact (hinactive hpc rfl nofun).elim
  | check o hpc =>
    refine h.check hguarded hpc ?_
    intro t' w hw
    exact hkeeps rfl t' w (workFor_eq_some.mp hw)
  | wake hpc => exact h.waits (by rw [hpc]; rfl) rfl
  | expire error hpc =>
    obtain ⟨hunheld, hfinish⟩ := hkeeps rfl
    cases h with
    | found hwork _ _ | marked hwork _ _ _ | filled hwork _ _ _ =>
      exact absurd (workFor_eq_some.mp hwork) (hunheld t _)
    | finished _ hfinish' _ => cases hfinish.symm.trans hfinish'
    | returned hpc' _ _ => cases hpc.symm.trans hpc'
  | take client m hlisted => cases (h.unlisted hguarded).symm.trans hlisted
  | mark hwork => exact h.mark hguarded hwork
  | fill hwork hread => exact h.fill hguarded hwork hread
  | signal hwork => exact h.signal hguarded hreceived hwork

end Stages

/-! ## Completion -/

section Completion

variable {κ ρ τ : Type} [DecidableEq ρ] [DecidableEq τ] {s s' : WaitState κ ρ τ} {p : ρ} {t : τ}
  {reply : SftpReply} {read : SftpRead} {n : ℕ}

theorem CompletesIn.cons {a : WaitAction κ ρ τ} (ha : a.OwnedBy t p)
    (hstep : waitStep s a = some s') (h : CompletesIn n t p reply s') :
    CompletesIn (n + 1) t p reply s := by
  obtain ⟨as, s'', howned, hlength, hrun, hend⟩ := h
  refine ⟨a :: as, s'', List.forall_mem_cons.mpr ⟨ha, howned⟩, Nat.succ_le_succ hlength, ?_, hend⟩
  exact run_cons_eq_some.mpr ⟨s', hstep, hrun⟩

theorem CompletesIn.mono {m : ℕ} (h : CompletesIn n t p reply s) (hle : n ≤ m) :
    CompletesIn m t p reply s := by
  obtain ⟨as, s', howned, hlength, hend⟩ := h
  exact ⟨as, s', howned, Nat.le_trans hlength hle, hend⟩

theorem completes_of_finish (hactive : (s.requester p).pc.active)
    (hfinish : (s.sftp.request p).status.finish) (hreply : (s.sftp.request p).reply = reply) :
    CompletesIn 2 t p reply s := by
  have hchecking : ∀ {s : WaitState κ ρ τ}, (s.requester p).pc = .checking →
      (s.sftp.request p).status.finish → (s.sftp.request p).reply = reply →
      CompletesIn 1 t p reply s := by
    intro s hpc hfinish hreply
    have hstep : waitStep s (.check p .nothing) = some (s.update p
        ({ s.requester p with pc := .returned true }, s.sftp.request p)) := by
      simp [waitStep, hpc, waitCheck, hfinish]
    refine .cons (a := .check p .nothing) rfl hstep
      ⟨[], _, List.forall_mem_nil _, Nat.le_refl 0, rfl, ?_, ?_⟩
    · rw [requester_update]
    · rw [request_update]
      exact hreply
  cases hpc : (s.requester p).pc with
  | checking => exact (hchecking hpc hfinish hreply).mono (by decide)
  | waiting =>
    have hstep : waitStep s (.wake p) = some (s.go p .checking) := by simp [waitStep, hpc]
    refine .cons (a := .wake p) rfl hstep (hchecking ?_ hfinish hreply)
    rw [requester_go]
  | _ =>
    rw [hpc] at hactive
    cases hactive

theorem completes_of_filled (hwork : s.receiver t = some (p, .filled true))
    (hactive : (s.requester p).pc.active) (hresponse : (s.sftp.request p).status.response)
    (hreply : (s.sftp.request p).reply = reply) : CompletesIn 3 t p reply s := by
  have hstep := waitStep_signal hwork
  rw [signal_eq_setRequest, signalled_of_response hresponse] at hstep
  refine .cons (a := .signal t) rfl hstep (completes_of_finish hactive ?_ ?_)
  · rw [request_work]
  · rw [request_work]
    exact hreply

variable {m : SftpMessage}

theorem completes_of_marked (hwork : s.receiver t = some (p, .marked m))
    (hactive : (s.requester p).pc.active) (hresponse : (s.sftp.request p).status.response)
    (hread : m.read (s.sftp.request p).reply = .ok read) (hreceived : read.received) :
    CompletesIn 4 t p read.reply s := by
  have hstep := waitStep_fill hwork hread
  rw [hreceived] at hstep
  refine .cons (a := .fill t) rfl hstep (completes_of_filled ?_ hactive ?_ ?_)
  · exact update_self ..
  · rw [request_work]
    exact hresponse
  · rw [request_work]

theorem completes_of_found (hwork : s.receiver t = some (p, .found m))
    (hactive : (s.requester p).pc.active) (hread : m.read (s.sftp.request p).reply = .ok read)
    (hreceived : read.received) : CompletesIn 5 t p read.reply s := by
  refine .cons (a := .mark t) rfl (waitStep_mark hwork)
    (completes_of_marked (m := m) ?_ hactive ?_ ?_ hreceived)
  · exact update_self ..
  · rw [request_work]
  · rw [request_work]
    exact hread

theorem ReplyStage.delivered (h : ReplyStage t read (s.view p)) (hreceived : read.received) :
    Delivered t p read.reply s := by
  have hopen : (s.requester p).pc.active → CompletesIn 5 t p read.reply s →
      Delivered t p read.reply s := by
    refine fun hactive hcompletes => ⟨fun result hpc => ?_, hcompletes⟩
    rw [hpc] at hactive
    cases hactive
  cases h with
  | found hwork hactive hread =>
    exact hopen hactive (completes_of_found (workFor_eq_some.mp hwork) hactive hread hreceived)
  | marked hwork hactive hresponse hread =>
    have hcompletes := completes_of_marked (workFor_eq_some.mp hwork) hactive hresponse hread hreceived
    exact hopen hactive (hcompletes.mono (by decide))
  | filled hwork hactive hresponse hreply =>
    rw [hreceived] at hwork
    have hcompletes := completes_of_filled (workFor_eq_some.mp hwork) hactive hresponse hreply
    exact hopen hactive (hcompletes.mono (by decide))
  | finished hactive hfinish hreply =>
    exact hopen hactive ((completes_of_finish hactive hfinish hreply).mono (by decide))
  | returned hpc _ hreply =>
    refine ⟨fun result hpc' => ?_, [], s, List.forall_mem_nil _, Nat.zero_le 5, rfl, hpc, hreply⟩
    cases hpc.symm.trans hpc'
    exact ⟨rfl, hreply⟩

end Completion

/-! ## Runs -/

section Runs

variable {κ ρ τ : Type} [DecidableEq ρ] [DecidableEq τ] {s s' : WaitState κ ρ τ} {p : ρ} {t : τ}
  {read : SftpRead} {m : SftpMessage}

theorem not_ignored_of_received {reply : SftpReply} (hread : m.read reply = .ok read)
    (hreceived : read.received) : m.ignored = false := by
  cases m with
  | version => rfl
  | reply version header =>
    refine decide_eq_false fun hextended => ?_
    simp only [SftpMessage.read, readReply, hextended] at hread
    cases hread
    cases hreceived

theorem Arrives.found {client : κ} (h : Arrives s p client m read)
    (hfind : s.sftp.find m.id = some p) (hactive : (s.requester p).pc.active)
    (hstep : WaitStep s (.receive t client m) s') : ReplyStage t read (s'.view p) := by
  cases hstep with
  | drop _ _ hmissed =>
    rcases hmissed with hignored | hnone
    · cases (not_ignored_of_received h.wellFormed h.received).symm.trans hignored
    · cases hfind.symm.trans hnone
  | receive _ _ hidle hfind' =>
    cases hfind.symm.trans hfind'
    refine .found (m := m) ?_ hactive h.wellFormed
    exact workFor_eq_some.mpr (update_self ..)

/-- A reply that finds its request while the thread waits for it is delivered, whatever all threads
do, as long as the thread does not give up over it. -/
theorem reply_delivered (request : ρ → SftpRequest κ) (receiver : κ → SftpReceiver)
    {as bs : List (WaitAction κ ρ τ)} {client : κ} {m : SftpMessage}
    (hrun : run waitStep (startWait request receiver) as = some s)
    (harrives : Arrives s p client m read) (hfind : s.sftp.find m.id = some p)
    (hactive : (s.requester p).pc.active)
    (hkeeps : Transition.Along waitStep (KeepsWaiting p) s (.receive t client m :: bs))
    (hrest : run waitStep s (.receive t client m :: bs) = some s') :
    Delivered t p read.reply s' := by
  have hwatched := run_preserves
    (fun s a s' (h : Watched s) hstep => h.step (waitStep_sound hstep))
    (watched_startWait request receiver) hrun
  obtain ⟨s₁, harrival, hrest⟩ := run_cons_eq_some.mp hrest
  have harrival' := waitStep_sound harrival
  -- from the arrival on the reply is at some stage
  have hend := run_invariant (I := fun s => Watched s ∧ ReplyStage t read (s.view p))
    (fun s a s' h hkeeps hstep => ⟨h.1.step (waitStep_sound hstep),
      h.2.step harrives.received h.1 hkeeps (waitStep_sound hstep)⟩)
    ⟨hwatched.step harrival', harrives.found hfind hactive harrival'⟩ (hkeeps.2 s₁ harrival) hrest
  exact hend.2.delivered harrives.received

/-- What `receive_sftp_attr_v03` makes of the reply. -/
def attrsRead : SftpRead where
  reply := { type := 105, response := .unset, data := some [], size := 0 }
  received := true
  reads := []

def waitingRun : List (WaitAction Unit Unit Unit) := [.send () () 0, .add (), .check () .nothing]

def completingRun : List (WaitAction Unit Unit Unit) :=
  [.mark (), .fill (), .signal (), .wake (), .check () .nothing]

theorem attrsReply_delivered :
    ∃ s s', run waitStep oneWaiting waitingRun = some s ∧
      run waitStep s (.receive () () (attrsMessage 0) :: completingRun) = some s' ∧
      Delivered () () attrsRead.reply s' := by
  refine ⟨_, _, rfl, rfl, @reply_delivered Unit Unit Unit _ _ _ _ () () attrsRead
    (fun _ => initSftpRequest () 0) (fun _ => ⟨true, 0, 0⟩) waitingRun completingRun ()
    (attrsMessage 0) rfl ⟨rfl, rfl, rfl, rfl, rfl⟩ rfl rfl ⟨trivial, ?_⟩ rfl⟩
  rintro _ ⟨⟩
  refine ⟨trivial, ?_⟩
  rintro _ ⟨⟩
  refine ⟨trivial, ?_⟩
  rintro _ ⟨⟩
  refine ⟨trivial, ?_⟩
  rintro _ ⟨⟩
  refine ⟨trivial, ?_⟩
  rintro _ ⟨⟩
  exact ⟨fun _ _ _ => nofun, fun _ _ => trivial⟩

/-- The reply is there before the request is in the table, and is dropped; the call times out. -/
theorem earlyReply_not_delivered :
    ∃ s s', run waitStep oneWaiting [.send () () 0] = some s ∧
      Arrives s () () (attrsMessage 0) attrsRead ∧
      run waitStep s [.receive () () (attrsMessage 0), .add (), .check () .nothing,
        .expire () .etimedout, .remove ()] = some s' ∧
      ¬ Delivered () () attrsRead.reply s' := by
  refine ⟨_, _, rfl, ⟨rfl, rfl, rfl, rfl, rfl⟩, rfl, ?_⟩
  rintro ⟨hreturned, -⟩
  cases (hreturned false rfl).1

end Runs

end Osns
