import Osns.Verification.Receive.Trace

/-! What the receive loop does about a packet that does not decrypt or authenticate. -/

namespace Osns

open List

/-- After a failed check no payload is processed any more, and the connection is given up
before the call returns. -/
def FailureHandled (es : List Event) : Prop :=
  ∀ before stage after, es = before ++ .failure stage :: after →
    (∀ m, .payload m ∉ after) ∧ .disconnect ∈ after

variable {es : List Event} {env : ReceiveEnv} {s : ReceiveState}

theorem Workers.no_failure (h : Workers es) (stage : Stage) : .failure stage ∉ es := by
  intro hmem
  cases h _ hmem

theorem outcheck_no_failure (s : ReceiveState) (errcode : Errno) :
    ∃ es, (s.outcheck errcode).trace = s.trace ++ es ∧ ∀ stage, .failure stage ∉ es := by
  obtain ⟨es, hes, hend⟩ := outcheck_trace s errcode
  refine ⟨es, hes, ?_⟩
  intro stage hmem
  cases hend _ hmem

/-- The two ways a run of the loop can go: no message of the run fails a check, or the last
thing the run does is to notice a failed one. -/
def RunSplit (env : ReceiveEnv) (s : ReceiveState) (es : List Event) : Prop :=
  ((∀ t, Reaches env s t → cryptoFails env t = false) ∧ ∀ stage, .failure stage ∉ es) ∨
    (∃ t, Reaches env s t ∧ cryptoFails env t = true) ∧
      ∃ before stage, es = before ++ [.failure stage]

theorem RunSplit.quiet
    (hlast : ∀ s', readIteration env s ≠ .next s' none) (hfails : cryptoFails env s = false)
    (hes : ∀ stage, .failure stage ∉ es) : RunSplit env s es := by
  refine .inl ⟨?_, hes⟩
  intro t ht
  rw [ht.eq_of_last hlast, hfails]

variable {s' : ReceiveState}

/-- A pass without a failure comes in front of the other passes. -/
theorem RunSplit.step {es' : List Event} (hstep : readIteration env s = .next s' none)
    (hfails : cryptoFails env s = false) (hes : ∀ stage, .failure stage ∉ es)
    (hrest : RunSplit env s' es') : RunSplit env s (es ++ es') := by
  rcases hrest with ⟨hno, hes'⟩ | ⟨⟨t, ht, htf⟩, before, stage, rfl⟩
  · refine .inl ⟨?_, ?_⟩
    · intro t ht
      cases ht with
      | refl => exact hfails
      | step h rest =>
        rw [hstep] at h
        cases h
        exact hno t rest
    · exact fun stage hmem => (mem_append.mp hmem).elim (hes stage) (hes' stage)
  · exact .inr ⟨⟨t, .step hstep ht, htf⟩, es ++ before, stage, by rw [append_assoc]⟩

theorem readLoop_split {fuel : ℕ} (hrun : readLoop env fuel s = some s') :
    ∃ es, s'.trace = s.trace ++ es ∧ RunSplit env s es := by
  induction fuel generalizing s with
  | zero => cases hrun
  | succ fuel ih =>
    have hpass := readIteration_pass env s
    rw [readLoop] at hrun
    generalize hflow : readIteration env s = flow at hpass hrun
    generalize hfails : cryptoFails env s = fails at hpass
    cases hpass with
    | idle h =>
      cases hrun
      exact ⟨[], by simp, .quiet (by simp [hflow]) hfails (by simp)⟩
    | starved s1 htrace | tooLarge s1 htrace =>
      cases hrun
      obtain ⟨es, hes, hend⟩ := outcheck_no_failure s1 _
      exact ⟨es, by rw [hes, htrace], .quiet (by simp [hflow]) hfails hend⟩
    | overrun s1 workers hworkers htrace =>
      cases hrun
      refine ⟨workers ++ [.overrun], by rw [htrace, append_assoc],
        .quiet (by simp [hflow]) hfails ?_⟩
      intro stage
      simp [hworkers.no_failure stage]
    | openFailed s1 workers stage hworkers hstage htrace =>
      cases hrun
      have htr : (s1.outcheck .eproto).trace = s.trace ++ (workers ++ [.failure stage]) := by
        rw [← append_assoc, ← htrace]
        rfl
      exact ⟨workers ++ [.failure stage], htr, .inr ⟨⟨s, .refl s, hfails⟩, workers, stage, rfl⟩⟩
    | noMemory s1 workers hworkers htrace =>
      cases hrun
      obtain ⟨es, hes, hend⟩ := outcheck_no_failure s1 .enomem
      refine ⟨workers ++ es, by rw [hes, htrace, append_assoc], .quiet (by simp [hflow]) hfails ?_⟩
      intro stage
      simp [hworkers.no_failure stage, hend stage]
    | lengthFailed s1 htrace hthreads hreading =>
      have hs1 : s' = s1 := by
        cases fuel with
        | zero => cases hrun
        | succ fuel =>
          simp only [readLoop, readIteration_of_threads hthreads] at hrun
          exact (Option.some.inj hrun).symm
      exact ⟨[.failure .decryptLength], by rw [hs1, htrace],
        .inr ⟨⟨s, .refl s, hfails⟩, [], .decryptLength, rfl⟩⟩
    | delivered s1 workers m errcode hworkers htrace hstream =>
      have hno : ∀ stage, Event.failure stage ∉ workers ++ [.payload m] := by
        intro stage
        simp [hworkers.no_failure stage]
      cases errcode with
      | none =>
        obtain ⟨es, hes, hrest⟩ := ih hrun
        exact ⟨workers ++ [.payload m] ++ es, by rw [hes, htrace]; simp,
          .step hflow hfails hno hrest⟩
      | some errcode =>
        cases hrun
        obtain ⟨es, hes, hend⟩ := outcheck_no_failure s1 errcode
        refine ⟨workers ++ [.payload m] ++ es, by rw [hes, htrace]; simp,
          .quiet (by simp [hflow]) hfails ?_⟩
        intro stage
        rw [mem_append, not_or]
        exact ⟨hno stage, hend stage⟩

theorem callTrace_split (env : ReceiveEnv) (s : ReceiveState) :
    RunSplit env s (callTrace env s) := by
  obtain ⟨fuel, s', hrun, htrace⟩ := callTrace_run env s
  obtain ⟨es, hes, hsplit⟩ := readLoop_split hrun
  rw [append_cancel_left (htrace.symm.trans hes)]
  exact hsplit

/-- A failed check ends the call without a disconnect, so a call deals with failures as it
should exactly when it meets none. -/
theorem failureHandled_iff (env : ReceiveEnv) (s : ReceiveState) :
    FailureHandled (callTrace env s) ↔ ∀ t, Reaches env s t → cryptoFails env t = false := by
  rcases callTrace_split env s with ⟨hno, hes⟩ | ⟨⟨t, ht, hfails⟩, before, stage, hes⟩
  · refine ⟨fun _ => hno, ?_⟩
    intro _ before stage after heq
    exact absurd (heq ▸ mem_append_right before mem_cons_self) (hes stage)
  · constructor
    · intro hhandled
      have hdisconnect := (hhandled before stage [] hes).2
      cases hdisconnect
    · intro hno
      rw [hno t ht] at hfails
      cases hfails

def zeroMac : Mac where
  maclen := 20
  maclen_pos := by decide
  mac := fun _ => replicate 20 0
  mac_length := fun _ => rfl

/-- One packet of twelve bytes and a wrong tag in the receive buffer. -/
def forgedState : ReceiveState where
  threads := 0
  sequenceNumber := 0
  reading := true
  rd := [0, 0, 0, 12, 4, 2, 0, 0, 0, 0, 0, 0] ++ replicate 24 1
  incoming := []
  behaviour := .serial
  actor := .generic { cipher := none, mac := some zeroMac } { cipherState := (), written := [] }
  trace := []

theorem forgedState_not_handled : ¬ FailureHandled (callTrace defaultEnv forgedState) := by
  intro h
  have htrace : callTrace defaultEnv forgedState = [.failure .verifyHmacPost] := by decide
  have hdisconnect := (h [] .verifyHmacPost [] htrace).2
  cases hdisconnect

end Osns
