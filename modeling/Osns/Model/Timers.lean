import Mathlib.Data.Prod.Lex
import Osns.Library.Linked
import Osns.Model.Word

/-! Times, after `time.c`, and the timers of `linux-timerfd.c`. -/

namespace Osns

open Linked

/-- `struct system_timespec_s`. -/
structure SystemTime where
  sec : ℤ
  nsec : ℕ
  deriving DecidableEq, Repr

/-- Positive when the first time is earlier than the second one. -/
def systemTimeTestEarlier (a b : SystemTime) : ℤ :=
  if b.sec < a.sec then -1
  else if a.sec < b.sec then 1
  else if b.nsec < a.nsec then -1
  else if a.nsec < b.nsec then 1
  else 0

/-! ## Times -/

/-- `SYSTEM_TIME_NSEC_MAX` -/
def systemTimeNsecMax : ℕ := 1000000000

/-- There is a carry above the bound, but not at it. -/
def systemTimeAddTime (expire plus : SystemTime) : SystemTime :=
  let nsec := u32 (expire.nsec + plus.nsec)
  if systemTimeNsecMax < nsec then ⟨expire.sec + plus.sec + 1, nsec - systemTimeNsecMax⟩
  else ⟨expire.sec + plus.sec, nsec⟩

def systemTimeSubstractTime (expire minus : SystemTime) : SystemTime :=
  if expire.nsec < minus.nsec then
    ⟨expire.sec - minus.sec - 1, u32 (expire.nsec + u32Sub systemTimeNsecMax minus.nsec)⟩
  else ⟨expire.sec - minus.sec, expire.nsec - minus.nsec⟩

def getExpiredTimeSystemTime (now time : SystemTime) : SystemTime :=
  if time.nsec ≤ now.nsec then ⟨now.sec - time.sec, now.nsec - time.nsec⟩
  else ⟨now.sec - time.sec - 1, time.nsec - now.nsec⟩

/-- The nanoseconds of the time are in the sum, and are added to its rest once more. -/
def correctNsecCheckBound (time : SystemTime) (base count : ℕ) : SystemTime :=
  let sum := u32 (time.nsec + u32 (base * count))
  ⟨time.sec + (sum / systemTimeNsecMax : ℕ), u32 (time.nsec + sum % systemTimeNsecMax)⟩

/-- `SYSTEM_TIME_ADD_DECI` to `SYSTEM_TIME_ADD_GIGA`. -/
inductive TimeUnit
  | deci | centi | milli | micro | nano | zero | deca | hecto | kilo | mega | giga

def systemTimeAdd (time : SystemTime) (what : TimeUnit) (count : ℕ) : SystemTime :=
  match what with
  | .deci => correctNsecCheckBound time 100000000 count
  | .centi => correctNsecCheckBound time 10000000 count
  | .milli => correctNsecCheckBound time 1000000 count
  | .micro => correctNsecCheckBound time 1000 count
  | .nano => correctNsecCheckBound time 1 count
  | .zero => { time with sec := time.sec + count }
  | .deca => { time with sec := time.sec + u32 (10 * count) }
  | .hecto => { time with sec := time.sec + u32 (100 * count) }
  | .kilo => { time with sec := time.sec + u32 (1000 * count) }
  | .mega => { time with sec := time.sec + u32 (1000000 * count) }
  | .giga => { time with sec := time.sec + u32 (1000000000 * count) }

/-! ## Timers -/

def zeroTime : SystemTime := ⟨0, 0⟩

/-- `struct btimer_s` at its address. -/
structure Btimer where
  addr : ℕ
  id : ℕ
  expire : SystemTime
  deriving DecidableEq, Repr

/-- The dummy that is the first of the list at the start, so that there is always a previous one. -/
def dummyTimer : Btimer := ⟨0, 0, zeroTime⟩

/-- `struct btimer_backend_s`, with the time that the clock of the timerfd is set to. The other fields are
history: the number of timers that have been allocated, the callbacks that have been handed to a worker
thread with the time of it, and the last time that was read. -/
structure BtimerBackend where
  timers : List Btimer
  current : Option ℕ
  id : ℕ
  armed : Option SystemTime
  allocated : ℕ
  launched : List (Btimer × SystemTime)
  now : SystemTime

def initTimerfdBackend (now : SystemTime) : BtimerBackend where
  timers := [dummyTimer]
  current := none
  id := 1
  armed := none
  allocated := 1
  launched := []
  now

variable (b : BtimerBackend)

/-- `timerfd_settime` with an absolute time; zero disarms the clock. -/
def adjustBtimerBackend (expire : Option SystemTime) : BtimerBackend :=
  { b with armed := if expire = some zeroTime then none else expire }

namespace BtimerBackend

def next (b : BtimerBackend) (addr : ℕ) : Option Btimer := ((suffix Btimer.addr addr b.timers).drop 1).head?

def moveBefore (b : BtimerBackend) (addr : ℕ) (t : Btimer) : List Btimer :=
  insertBefore Btimer.addr addr t (remove Btimer.addr t.addr b.timers)

def moveAfter (b : BtimerBackend) (addr : ℕ) (t : Btimer) : List Btimer :=
  insertAfter Btimer.addr addr t (remove Btimer.addr t.addr b.timers)

end BtimerBackend

/-- A new timer; without a time it is put in front, and never becomes the current one by itself. -/
def addTimerTimerfd (expire : Option SystemTime) : BtimerBackend :=
  match expire with
  | none =>
    { b with
      timers := ⟨b.allocated, b.id, zeroTime⟩ :: b.timers
      id := u32 (b.id + 1)
      allocated := b.allocated + 1 }
  | some expire =>
    if 0 ≤ systemTimeTestEarlier expire b.now then b
    else
      let timer : Btimer := ⟨b.allocated, b.id, expire⟩
      let b := { b with id := u32 (b.id + 1), allocated := b.allocated + 1 }
      match b.current with
      | some current =>
        match (suffix Btimer.addr current b.timers).dropWhile
            (fun tmp => systemTimeTestEarlier expire tmp.expire ≤ 0) with
        | later :: _ =>
          let b := { b with timers := insertBefore Btimer.addr later.addr timer b.timers }
          if later.addr = current then
            { adjustBtimerBackend b (some expire) with current := some timer.addr }
          else b
        | [] => { b with timers := b.timers ++ [timer] }
      | none =>
        { adjustBtimerBackend { b with timers := b.timers ++ [timer] } (some expire) with
          current := some timer.addr }

/-- Walking back from the previous element; the count tells whether one has been passed over. The result
tells whether the timer is the first active one now. -/
def moveTimerInListEarlier (b : BtimerBackend) (t : Btimer) (expire : SystemTime) :
    List Btimer → ℕ → BtimerBackend × Bool
  | [], _ => (b, false)
  | prev :: rest, count =>
    if b.current = some prev.addr then
      if 0 < systemTimeTestEarlier prev.expire expire then
        ({ b with
            timers := if 0 < count then b.moveBefore prev.addr t else b.timers
            current := some t.addr }, true)
      else ({ b with timers := if 0 < count then b.moveAfter prev.addr t else b.timers }, false)
    else if systemTimeTestEarlier prev.expire zeroTime = 0 then
      ({ b with
          timers := if 0 < count then b.moveAfter prev.addr t else b.timers
          current := some t.addr }, true)
    else if 0 ≤ systemTimeTestEarlier prev.expire expire then
      ({ b with timers := if 0 < count then b.moveAfter prev.addr t else b.timers }, false)
    else moveTimerInListEarlier b t expire rest (count + 1)

def moveTimerInListLater (t : Btimer) (expire : SystemTime) : BtimerBackend :=
  let behind := (suffix Btimer.addr t.addr b.timers).drop 1
  let passed := behind.takeWhile fun next => systemTimeTestEarlier expire next.expire < 0
  if passed = [] then b
  else
    match behind.drop passed.length with
    | next :: _ => { b with timers := b.moveBefore next.addr t }
    | [] => { b with timers := remove Btimer.addr t.addr b.timers ++ [t] }

/-- `modify_timer_timerfd_common` with `ACTION_TIMER_OP_REMOVE`. -/
def removeTimerTimerfdCommon (t : Btimer) : BtimerBackend :=
  let timers := remove Btimer.addr t.addr b.timers
  if b.current = some t.addr then
    let next := b.next t.addr
    adjustBtimerBackend { b with timers, current := next.map (·.addr) } (next.map (·.expire))
  else { b with timers }

/-- `modify_timer_timerfd_common` with `ACTION_TIMER_OP_MODIFY`. -/
def modifyTimerTimerfdCommon (t : Btimer) (compareresult : ℤ) (expire : SystemTime) :
    BtimerBackend :=
  if 0 < compareresult then
    let r := moveTimerInListEarlier b t expire (front Btimer.addr t.addr b.timers).reverse 0
    if r.2 then adjustBtimerBackend r.1 (some expire) else r.1
  else moveTimerInListLater b t expire

/-- A timer is given by its address, or searched for by its id. -/
inductive TimerRef
  | ptr (addr : ℕ)
  | id (id : ℕ)
  deriving DecidableEq, Repr

def BtimerBackend.find : TimerRef → Option Btimer
  | .ptr addr => b.timers.find? (·.addr = addr)
  | .id id => b.timers.find? (·.id = id)

/-- Modifying and removing a timer. No result when the address is not the one of a timer in the list, or
when the timer to be freed is the dummy. -/
def modifyTimerTimerfd (ref : TimerRef) (expire : SystemTime) : Option BtimerBackend :=
  match b.find ref, ref with
  | some t, _ =>
    let compareresult := systemTimeTestEarlier expire t.expire
    some (if compareresult = 0 then b else modifyTimerTimerfdCommon b t compareresult expire)
  | none, .id _ => some b
  | none, .ptr _ => none

def removeTimerTimerfd (ref : TimerRef) : Option BtimerBackend :=
  match b.find ref, ref with
  | some t, _ => if t.addr = dummyTimer.addr then none else some (removeTimerTimerfdCommon b t)
  | none, .id _ => some b
  | none, .ptr _ => none

/-- The loop over the timers from the current one on: those that are launched, each with the time that was
read for it, the others, and the times that were not read. -/
def scanExpired (now : SystemTime) :
    List SystemTime → List Btimer → List (Btimer × SystemTime) × List Btimer × SystemTime
  | _, [] => ([], [], now)
  | readings, t :: rest =>
    let now := readings.headD now
    if systemTimeTestEarlier t.expire now < 0 then ([], t :: rest, now)
    else
      let r := scanExpired now readings.tail rest
      ((t, now) :: r.1, r.2)

def thread2handleExpirations (readings : List SystemTime) : BtimerBackend :=
  let list := (b.current.map fun current => suffix Btimer.addr current b.timers).getD []
  let r := scanExpired b.now readings list
  adjustBtimerBackend
    { b with current := r.2.1.head?.map (·.addr), launched := b.launched ++ r.1, now := r.2.2 }
    (r.2.1.head?.map (·.expire))

inductive TimerAction
  | clock (now : SystemTime)
  | add (expire : Option SystemTime)
  | modify (ref : TimerRef) (expire : SystemTime)
  | remove (ref : TimerRef)
  | expirations (readings : List SystemTime)
  deriving DecidableEq, Repr

/-- What happens in one thread. The clock does not go back, neither between two actions nor while the handler
of expirations reads it. -/
def timerStep : TimerAction → Option BtimerBackend
  | .clock now => if systemTimeTestEarlier now b.now ≤ 0 then some { b with now } else none
  | .add expire => some (addTimerTimerfd b expire)
  | .modify ref expire => modifyTimerTimerfd b ref expire
  | .remove ref => removeTimerTimerfd b ref
  | .expirations readings =>
    if (b.now :: readings).IsChain (fun earlier later => systemTimeTestEarlier later earlier ≤ 0) then
      some (thread2handleExpirations b readings)
    else none

/-! ## Threads -/

/-- Where the removing thread is: the timer has been found, the current timer has been set, the timer is
out of the list, it has been freed. The last two keep the time for the clock, when it has to be set. -/
inductive RemoverPc
  | idle
  | found (t : Btimer)
  | pointed (t : Btimer) (adjust : Option (Option SystemTime))
  | unlinked (t : Btimer) (adjust : Option (Option SystemTime))
  | freed (t : Btimer) (adjust : Option (Option SystemTime))
  deriving DecidableEq, Repr

/-- One thread that removes timers, the thread that handles expirations, with the list element it has
come to while it has the flag, and the worker threads. The queue has the timers whose callback is to be
started. The other fields are history: the callbacks that were started, the timers that were freed,
those whose removal has returned, and the callbacks that were started for one of these. -/
structure TimerThreads where
  backend : BtimerBackend
  remover : RemoverPc
  expiry : Option (Option ℕ)
  queue : List Btimer
  started : List ℕ
  freed : List ℕ
  removed : List ℕ
  overdue : List ℕ

def TimerThreads.init (now : SystemTime) : TimerThreads where
  backend := initTimerfdBackend now
  remover := .idle
  expiry := none
  queue := []
  started := []
  freed := []
  removed := []
  overdue := []

namespace TimerThreads

variable (s : TimerThreads)

/-- A timer is searched for by its id under the flag; its address is used as it is. The dummy is not
removed. -/
def search (ref : TimerRef) : Option TimerThreads :=
  match s.remover, ref, s.expiry with
  | .idle, .id _, some _ => none
  | .idle, _, _ =>
    match s.backend.find ref, ref with
    | some t, _ => if t.addr = dummyTimer.addr then none else some { s with remover := .found t }
    | none, .id _ => some s
    | none, .ptr _ => none
  | _, _, _ => none

/-- The next step of `modify_timer_timerfd_common` with `ACTION_TIMER_OP_REMOVE`, which is without the
flag. -/
def removal : Option TimerThreads :=
  match s.remover with
  | .idle => none
  | .found t =>
    let next := s.backend.next t.addr
    if s.backend.current = some t.addr then
      some
        { s with
          backend := { s.backend with current := next.map (·.addr) }
          remover := .pointed t (some (next.map (·.expire))) }
    else some { s with remover := .pointed t none }
  | .pointed t adjust =>
    some
      { s with
        backend := { s.backend with timers := remove Btimer.addr t.addr s.backend.timers }
        remover := .unlinked t adjust }
  | .unlinked t adjust => some { s with freed := s.freed ++ [t.addr], remover := .freed t adjust }
  | .freed t adjust =>
    some
      { s with
        backend := (adjust.map (adjustBtimerBackend s.backend)).getD s.backend
        removed := s.removed ++ [t.addr]
        remover := .idle }

/-- Behind the loop of the handler. -/
def expired (list : Option Btimer) : TimerThreads :=
  { s with
    backend := adjustBtimerBackend { s.backend with current := list.map (·.addr) } (list.map (·.expire))
    expiry := none }

/-- The next step of `thread2handle_expirations`, with the time it reads. -/
def expire (now : SystemTime) : Option TimerThreads :=
  match s.expiry with
  | none => some { s with expiry := some s.backend.current }
  | some none => some (s.expired none)
  | some (some addr) =>
    (s.backend.find (.ptr addr)).map fun t =>
      if systemTimeTestEarlier t.expire now < 0 then s.expired (some t)
      else
        { s with
          queue := s.queue ++ [t]
          expiry := some ((s.backend.next addr).map (·.addr)) }

def callback (n : ℕ) : Option TimerThreads :=
  s.queue[n]?.map fun t =>
    { s with
      queue := s.queue.eraseIdx n
      started := s.started ++ [t.addr]
      overdue := if t.addr ∈ s.removed then s.overdue ++ [t.addr] else s.overdue }

/-- A timer is added under the flag. -/
def add (expire : Option SystemTime) : Option TimerThreads :=
  if s.expiry = none then some { s with backend := addTimerTimerfd s.backend expire } else none

end TimerThreads

inductive TimerThreadAction
  | search (ref : TimerRef)
  | removal
  | expire (now : SystemTime)
  | callback (n : ℕ)
  | add (expire : Option SystemTime)
  deriving DecidableEq, Repr

def timerThreadStep (s : TimerThreads) : TimerThreadAction → Option TimerThreads
  | .search ref => s.search ref
  | .removal => s.removal
  | .expire now => s.expire now
  | .callback n => s.callback n
  | .add expire => s.add expire

end Osns
