import Osns.Library.Threads
import Osns.Library.Transition
import Osns.Model.Readers

/-! What a step of the reading threads can do. -/

namespace Osns

open Option

section Steps

variable {ι σ : Type} [DecidableEq ι]

/-- One rule for every step that `readStep` can take. -/
inductive ReadStep (c : ReadSetup σ) : ReadState ι σ → ReadAction ι → ReadState ι σ → Prop
  | recv {s n buffer} (harriving : s.arriving = none) (hpos : 0 < n) (hlen : n ≤ s.incoming.length)
      (hstore : Buffer.store s.buffer s.pos (s.incoming.take n) = some buffer) :
      ReadStep c s (.recv n) { s with buffer, arriving := some n, incoming := s.incoming.drop n }
  | copy {s n} (harriving : s.arriving = some n) :
      ReadStep c s .copy { s with pos := s.pos + n, arriving := none, calls := s.calls + 1 }
  | start {s i} (hi : s.reader i = none) (hcalls : 0 < s.calls) (hreading : s.reading = true) :
      ReadStep c s (.call i) ({ s with calls := s.calls - 1 }.move i .asking)
  | ignore {s i} (hi : s.reader i = none) (hcalls : 0 < s.calls) (hreading : s.reading = false) :
      ReadStep c s (.call i) { s with calls := s.calls - 1 }
  | get {s i n h} (hi : s.reader i = some .asking) (hidle : s.idle[n]? = some h) :
      ReadStep c s (.get i (some n)) ({ s with idle := s.idle.eraseIdx n }.move i (.locking h))
  | create {s i} (hi : s.reader i = some .asking) (hroom : c.maxCount = 0 ∨ s.count < c.maxCount) :
      ReadStep c s (.get i none) ({ s with count := s.count + 1 }.move i (.locking c.init))
  | lock {s i h} (hi : s.reader i = some (.locking h)) (hflag : s.flag = none) :
      ReadStep c s (.advance i) ({ s with flag := some i }.move i (.checking h))
  | refuse {s i h} (hi : s.reader i = some (.checking h)) (hbusy : 0 < s.threads ∨ s.pos = 0) :
      ReadStep c s (.advance i) (s.move i (.refused h))
  | pass {s i h} (hi : s.reader i = some (.checking h)) (hthreads : s.threads = 0) (hpos : 0 < s.pos) :
      ReadStep c s (.advance i) (s.move i (.passed h))
  | count {s i h} (hi : s.reader i = some (.passed h)) :
      ReadStep c s (.advance i) ({ s with threads := s.threads + 1 }.move i (.counted h))
  | disable {s i h} (hi : s.reader i = some (.counted h)) :
      ReadStep c s (.advance i) ({ s with reading := false }.move i (.entered h))
  | unlock {s i h} (hi : s.reader i = some (.entered h)) :
      ReadStep c s (.advance i) ({ s with flag := none }.move i (.waiting h))
  | unlockRefused {s i h} (hi : s.reader i = some (.refused h)) :
      ReadStep c s (.advance i) ({ s with flag := none }.move i (.leaving h))
  | depart {s i h} (hi : s.reader i = some (.leaving h)) :
      ReadStep c s (.advance i) ({ s with idle := s.idle ++ [h] }.leave i)
  | header {s i h m} (hi : s.reader i = some (.waiting h))
      (hsize : c.decryptor.cipherHeadersize ≤ s.pos)
      (hm : c.readHeader h s.sequenceNumber s.rd = some m) :
      ReadStep c s (.advance i)
        ({ s with sequenceNumber := s.sequenceNumber + 1 }.move i (.announced m))
  | take {s i m} (hi : s.reader i = some (.announced m)) (hsize : c.size m ≤ s.pos) :
      ReadStep c s (.advance i) (s.takeMessage c i m)
  | enable {s i m} (hi : s.reader i = some (.taken m)) :
      ReadStep c s (.advance i) ({ s with reading := true }.move i (.enabled m))
  | uncount {s i m} (hi : s.reader i = some (.enabled m)) :
      ReadStep c s (.advance i) ({ s with threads := s.threads - 1 }.move i (.left m))
  | unset {s i m} (hi : s.reader i = some (.left m)) :
      ReadStep c s (.advance i) ({ s with flag := none }.move i (.unset m))
  | preProcess {s i m} (hi : s.reader i = some (.unset m)) :
      ReadStep c s (.advance i) ((s.workerthread (c.behaviour = .parallel)).move i (.opening m))
  | openMessage {s i m h p} (hi : s.reader i = some (.opening m))
      (hopen : c.openPending m = some (h, p)) :
      ReadStep c s (.advance i) ({ s with idle := s.idle ++ [h] }.move i (.opened m.ticket p))
  | postProcess01 {s i ticket p} (hi : s.reader i = some (.opened ticket p)) :
      ReadStep c s (.advance i)
        ((s.workerthread (c.behaviour = .serial)).move i (.delivering ticket p))
  | deliver {s i ticket p m} (hi : s.reader i = some (.delivering ticket p))
      (hm : c.payloadOf p = some m) : ReadStep c s (.advance i) (s.deliver c i m)

variable {c : ReadSetup σ} {s s' : ReadState ι σ} {i : ι}

theorem readerAdvance_sound (h : s.advance c i = some s') : ReadStep c s (.advance i) s' := by
  unfold ReadState.advance at h
  split at h
  · cases h
  · cases h
  · next hi =>
    split at h
    · next hflag =>
      cases h
      exact .lock hi hflag
    · cases h
  · next hi =>
    split at h
    · next hbusy =>
      cases h
      exact .refuse hi hbusy
    · next hfree =>
      cases h
      exact .pass hi (by omega) (by omega)
  · next hi =>
    cases h
    exact .count hi
  · next hi =>
    cases h
    exact .disable hi
  · next hi =>
    cases h
    exact .unlock hi
  · next hi =>
    cases h
    exact .unlockRefused hi
  · next hi =>
    cases h
    exact .depart hi
  · next hi =>
    split at h
    · next hsize =>
      obtain ⟨m, hm, rfl⟩ := map_eq_some_iff.mp h
      exact .header hi hsize hm
    · cases h
  · next hi =>
    split at h
    · next hsize =>
      cases h
      exact .take hi hsize
    · cases h
  · next hi =>
    cases h
    exact .enable hi
  · next hi =>
    cases h
    exact .uncount hi
  · next hi =>
    cases h
    exact .unset hi
  · next hi =>
    cases h
    exact .preProcess hi
  · next hi =>
    obtain ⟨r, hr, rfl⟩ := map_eq_some_iff.mp h
    exact .openMessage hi hr
  · next hi =>
    cases h
    exact .postProcess01 hi
  · next hi =>
    obtain ⟨m, hm, rfl⟩ := map_eq_some_iff.mp h
    exact .deliver hi hm
  · cases h

theorem getDecryptor_sound {choice : Option ℕ} (h : s.getDecryptor c i choice = some s') :
    ReadStep c s (.get i choice) s' := by
  unfold ReadState.getDecryptor at h
  split at h
  · next hi =>
    obtain ⟨⟨handle, idle, count⟩, hactor, rfl⟩ := map_eq_some_iff.mp h
    cases choice with
    | some n =>
      obtain ⟨handle, hidle, ⟨⟩⟩ := map_eq_some_iff.mp hactor
      exact .get hi hidle
    | none =>
      obtain ⟨hroom, ⟨⟩⟩ := ite_none_right_eq_some.mp hactor
      exact .create hi hroom
  · cases h

theorem readStep_sound {a : ReadAction ι} (h : readStep c s a = some s') : ReadStep c s a s' := by
  cases a with
  | recv n =>
    obtain ⟨⟨harriving, hpos, hlen⟩, h⟩ := ite_none_right_eq_some.mp h
    obtain ⟨buffer, hstore, rfl⟩ := map_eq_some_iff.mp h
    exact .recv harriving hpos hlen hstore
  | copy =>
    obtain ⟨n, harriving, rfl⟩ := map_eq_some_iff.mp h
    exact .copy harriving
  | call i =>
    obtain ⟨⟨hi, hcalls⟩, h⟩ := ite_none_right_eq_some.mp h
    cases h
    have hi := isNone_iff_eq_none.mp hi
    by_cases hreading : s.reading
    · rw [if_pos hreading]
      exact .start hi hcalls hreading
    · rw [if_neg hreading]
      exact .ignore hi hcalls (by simpa using hreading)
  | get i choice => exact getDecryptor_sound h
  | advance i => exact readerAdvance_sound h

end Steps

/-! ## Where a thread is -/

section Spots

variable {σ : Type}

namespace ReaderPc

def flagged : ReaderPc σ → Bool
  | checking _ | passed _ | counted _ | entered _ | refused _ => true
  | _ => false

/-- Counted by `threads`. -/
def inside : ReaderPc σ → Bool
  | counted _ | entered _ | waiting _ | announced _ | taken _ | enabled _ => true
  | _ => false

def exclusive : ReaderPc σ → Bool
  | passed _ => true
  | pc => pc.inside

/-- Calls of `ctx.read` have no effect. -/
def closed : ReaderPc σ → Bool
  | entered _ | waiting _ | announced _ | taken _ => true
  | _ => false

def departing : ReaderPc σ → Bool
  | refused _ | leaving _ => true
  | _ => false

/-- A decryptor that has not read a header since it was handed out. -/
def free : ReaderPc σ → Option σ
  | locking h | checking h | passed h | counted h | entered h | refused h | leaving h
  | waiting h => some h
  | _ => none

def unopened : ReaderPc σ → Option (PendingMessage σ)
  | taken m | enabled m | left m | unset m | opening m => some m
  | _ => none

def holds : ReaderPc σ → Bool
  | announced _ => true
  | pc => pc.free.isSome || pc.unopened.isSome

/-- The ticket of a message that has been taken and not been processed. -/
def ticket : ReaderPc σ → Option ℕ
  | opened ticket _ | delivering ticket _ => some ticket
  | pc => pc.unopened.map (·.ticket)

variable {pc : ReaderPc σ}

theorem exclusive_of_inside (h : pc.inside) : pc.exclusive := by
  cases pc with
  | passed _ => rfl
  | _ => exact h

theorem inside_or_flagged_of_exclusive (h : pc.exclusive) : pc.inside ∨ pc.flagged := by
  cases pc with
  | passed _ => exact .inr rfl
  | _ => exact .inl h

theorem inside_of_closed (h : pc.closed) : pc.inside := by
  cases pc with
  | entered _ | waiting _ | announced _ | taken _ => rfl
  | _ => cases h

theorem not_departing_of_inside (h : pc.inside) : ¬ pc.departing := by
  cases pc with
  | refused _ | leaving _ => cases h
  | _ => exact Bool.false_ne_true

end ReaderPc

end Spots

end Osns
