import Osns.Verification.Readers.Decryptors
import Osns.Verification.Readers.Progress

/-! Runs of the reading threads, from a connection on which nothing has been read. -/

namespace Osns

open Option Threads Transition

section Runs

variable {ι σ : Type}

/-- No thread is reading. When there are bytes already, a call is on its way. -/
structure ReadState.Fresh (s : ReadState ι σ) : Prop where
  reader : ∀ i, s.reader i = none
  flag : s.flag = none
  threads : s.threads = 0
  reading : s.reading = true
  arriving : s.arriving = none
  idle : s.idle = []
  count : s.count = 0
  taken : s.taken = []
  delivered : s.delivered = []
  bound : s.pos ≤ s.buffer.length
  calls : 0 < s.pos → 0 < s.calls

variable {c : ReadSetup σ} {n : ℕ} {stream : Bytes} {s : ReadState ι σ}

theorem ReadState.Fresh.excluded (h : s.Fresh) : Excluded s where
  flag := fun i => by
    rw [h.flag, h.reader]
    exact iff_of_false (some_ne_none i).symm Bool.false_ne_true
  alone := fun i j pc pc' hi => by
    rw [h.reader] at hi
    cases hi
  inside := all_of_none h.reader
  outside := fun _ => h.threads
  closed := fun hreading => by
    rw [h.reading] at hreading
    cases hreading

theorem ReadState.Fresh.handled (h : s.Fresh) (hlawful : c.Lawful) : Handled c s := by
  by_cases hone : c.maxCount = 1
  · refine .inl ⟨hone, ?_, ?_, ?_, ?_, ?_, all_of_none h.reader, all_of_none h.reader, fun _ => h.taken⟩
    · intro i j pc pc' hi
      rw [h.reader] at hi
      cases hi
    · exact fun _ => h.idle
    · rw [h.idle]
      exact Nat.zero_le 1
    · rw [h.count, h.idle]
      refine iff_of_false (Nat.lt_irrefl 0) ?_
      rintro (hany | hne)
      · exact not_any_of_none h.reader hany
      · exact hne rfl
    · intro x hx
      rw [h.idle] at hx
      cases hx
  · obtain ⟨Good, hgood⟩ := hlawful.shared.resolve_left hone
    refine .inr ⟨hone, Good, hgood, ?_, all_of_none h.reader, all_of_none h.reader, all_of_none h.reader⟩
    intro x hx
    rw [h.idle] at hx
    cases hx

theorem ReadState.Fresh.intact (h : s.Fresh) (hlawful : c.Lawful) :
    Intact c s.sequenceNumber s.unread s.buffer.length s where
  excluded := h.excluded
  attended := fun hpos => .inl (h.calls hpos)
  handled := h.handled hlawful
  streamed :=
    { bound := by
        rw [h.arriving]
        exact h.bound
      taken := by
        rw [h.taken]
        exact .nil
      number := fun _ => by
        rw [h.taken]
        rfl
      header := all_of_none h.reader }
  processed :=
    { unopened := all_of_none h.reader
      opened := all_of_none h.reader
      alone := fun t i j pc pc' hi => by
        rw [h.reader] at hi
        cases hi
      late := all_of_none h.reader
      held := fun k _ hk => by
        rw [h.taken] at hk
        exact absurd hk (Nat.not_lt_zero k)
      delivered := by
        rw [h.taken, h.delivered]
        rfl }
  buffer := rfl

theorem Intact.sequence_of_delivered {size : ℕ} (h : Intact c n stream size s) (hlawful : c.Lawful) {k : ℕ}
    {msg : Message} (hmsg : s.delivered[k]? = some msg) : msg.packet.sequence = u32 (n + k) := by
  have hk := (List.getElem?_eq_some_iff.mp hmsg).1
  have hmap := congrArg (·[k]?) h.processed.delivered
  simp only [List.getElem?_map, hmsg, List.getElem?_take_of_lt hk, map_some] at hmap
  obtain ⟨m, hm, hout⟩ := map_eq_some_iff.mp hmap
  obtain ⟨x, rd, m₀, bytes, hm₀, rfl⟩ := h.streamed.taken.getElem_header hm
  obtain ⟨r, hopen, hpayload⟩ := bind_eq_some_iff.mp hout
  have hnumber := hlawful.number _ _ _ _ _ _ hm₀ hopen
  unfold ReadSetup.payloadOf at hpayload
  split at hpayload
  · cases hpayload
    exact hnumber
  · cases hpayload

variable [DecidableEq ι]

/-- However the stream is cut, and whatever the threads do in order: the messages are consecutive, nothing
of the stream is lost, the payloads are processed in this order with consecutive numbers, and when nothing
more can be done, those of all messages that have arrived as a whole have been processed. -/
theorem readRun_delivers [Nonempty ι] (a : DecryptActor) (env : ReceiveEnv) (behaviour : Behaviour)
    (maxCount : ℕ) (hcount : maxCount = 1 ∨ maxCount = 0 ∧ a.Parallel) (s₀ s : ReadState ι a.Handle)
    (as : List (ReadAction ι)) (hfresh : s₀.Fresh)
    (horderly : Transition.Along (readStep (a.readSetup env behaviour maxCount)) Orderly s₀ as)
    (hrun : run (readStep (a.readSetup env behaviour maxCount)) s₀ as = some s) :
    (a.readSetup env behaviour maxCount).Takes s₀.sequenceNumber s₀.unread s.taken s.unread ∧
      (s.taken.take s.delivered.length).map (a.readSetup env behaviour maxCount).outcome =
        s.delivered.map some ∧
      (∀ k msg, s.delivered[k]? = some msg → msg.packet.sequence = u32 (s₀.sequenceNumber + k)) ∧
      ((a.readSetup env behaviour maxCount).Succeeds s₀.sequenceNumber s₀.unread →
        env.maxPacketSize ≤ s₀.buffer.length → a.decryptor.cipherHeadersize ≤ s₀.buffer.length →
        Idle (a.readSetup env behaviour maxCount) s →
          s.taken.map (a.readSetup env behaviour maxCount).outcome = s.delivered.map some ∧
            ((∀ i, s.reader i ≠ some .changing) → ∀ taken rest,
              (a.readSetup env behaviour maxCount).Takes s₀.sequenceNumber s₀.unread taken rest →
                taken <+: s.taken)) := by
  have hlawful := DecryptActor.readSetup_lawful env behaviour (hcount.imp_right And.right)
  have hmax : maxCount ≤ 1 := by
    rcases hcount with hone | ⟨hzero, -⟩ <;> omega
  have h : Intact _ s₀.sequenceNumber s₀.unread s₀.buffer.length s :=
    run_invariant (fun _ _ _ h horderly hstep => h.step hlawful horderly hstep)
      (hfresh.intact hlawful) horderly hrun
  refine ⟨h.streamed.taken, h.processed.delivered, fun k msg => h.sequence_of_delivered hlawful, ?_⟩
  intro hsucceeds hlarge hheader hidle
  constructor
  · have hall := h.processed.delivered
    rw [hidle.delivered h hsucceeds, List.take_length] at hall
    exact hall
  · intro hchanging taken rest htakes
    exact h.streamed.taken.prefix_of_last
      (hidle.firstMessage_eq_none h hlawful hsucceeds hmax hheader hlarge hchanging) htakes

end Runs

/-! ## Two messages -/

section Examples

/-- Neither a cipher nor a MAC, as at the start of a connection. -/
def plainActor : DecryptActor := .generic { cipher := none, mac := none } { cipherState := (), written := [] }

def twoMessages : Bytes := [0, 0, 0, 4, 1, 94, 7, 0] ++ [0, 0, 0, 4, 1, 95, 9, 0]

def connectionWith (received incoming : Bytes) : ReadState (Fin 2) (GenericHandle Unit) where
  reader := fun _ => none
  flag := none
  threads := 0
  sequenceNumber := 0
  reading := true
  buffer := received ++ List.replicate (32 - received.length) 0
  pos := received.length
  arriving := none
  incoming
  calls := 1
  idle := []
  count := 0
  taken := []
  delivered := []

def plainSetup : ReadSetup (GenericHandle Unit) := plainActor.readSetup defaultEnv .serial 0

def untilDelivering (i : Fin 2) : List (ReadAction (Fin 2)) :=
  .get i none :: List.replicate 13 (.advance i)

def processed (s : ReadState (Fin 2) (GenericHandle Unit)) : List (ℕ × Bytes) :=
  s.delivered.map fun m => (m.packet.sequence, m.payload.buffer)

theorem connectionWith_fresh : (connectionWith twoMessages []).Fresh where
  reader := fun _ => rfl
  flag := rfl
  threads := rfl
  reading := rfl
  arriving := rfl
  idle := rfl
  count := rfl
  taken := rfl
  delivered := rfl
  bound := by decide
  calls := fun _ => Nat.one_pos

theorem readRun_delivers_two :
    ∃ s, run (readStep plainSetup) (connectionWith twoMessages [])
        (.call 0 :: untilDelivering 0 ++ [.advance 0, .call 1] ++ untilDelivering 1 ++
          [.advance 1]) = some s ∧
      (s.taken.take s.delivered.length).map plainSetup.outcome = s.delivered.map some := by
  obtain ⟨s, hrun⟩ := isSome_iff_exists.mp
    (show (run (readStep plainSetup) (connectionWith twoMessages [])
      (.call 0 :: untilDelivering 0 ++ [.advance 0, .call 1] ++ untilDelivering 1 ++
        [.advance 1])).isSome by decide +kernel)
  have horderly : Transition.Along (readStep plainSetup) Orderly (connectionWith twoMessages [])
      (.call 0 :: untilDelivering 0 ++ [.advance 0, .call 1] ++ untilDelivering 1 ++ [.advance 1]) := by
    decide +kernel
  refine ⟨s, hrun, ?_⟩
  exact (readRun_delivers plainActor defaultEnv .serial 0 (.inr ⟨rfl, rfl, rfl⟩) _ s _
    connectionWith_fresh horderly hrun).2.1

/-- The second message is processed before the first one. When bytes arrive while a message is taken off, they
are lost, and those of the message are taken once more. -/
theorem readRun_reorders_and_loses :
    (run (readStep plainSetup) (connectionWith twoMessages [])
        (.call 0 :: untilDelivering 0 ++ .call 1 :: untilDelivering 1 ++ [.advance 1, .advance 0])).map
        processed = some [(1, [95, 9]), (0, [94, 7])] ∧
      (run (readStep plainSetup) (connectionWith (twoMessages.take 8) (twoMessages.drop 8))
        (.call 0 :: .get 0 none :: List.replicate 6 (.advance 0) ++
          [.recv 8, .advance 0, .copy] ++ List.replicate 7 (.advance 0) ++
          .call 1 :: untilDelivering 1 ++ [.advance 1])).map
        (fun s => (processed s, s.unread)) = some ([(0, [94, 7]), (1, [94, 7])], []) := by
  constructor
  · decide +kernel
  · decide +kernel

end Examples

end Osns
