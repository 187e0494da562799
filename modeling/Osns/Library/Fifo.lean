import Mathlib.Data.List.Basic

/-! Service of one customer after the other, in the order of arrival. -/

namespace Fifo

open List

inductive Event (α : Type*)
  | start (a : α)
  | finish (a : α)
  deriving DecidableEq, Repr

def Event.map {α β : Type*} (f : α → β) : Event α → Event β
  | .start a => .start (f a)
  | .finish a => .finish (f a)

/-- What has happened at a counter, who is served there and who waits in front of it. -/
structure Line (α : Type*) where
  events : List (Event α)
  busy : Option α
  waiting : List α

variable {α : Type*} {arrived arriving : List α} {l l' : Line α}

/-- Customers arrive at the end, the first is called when nobody is served, and who is served
leaves. The list names those who arrive. -/
inductive Step : List α → Line α → Line α → Prop
  | stay (l : Line α) : Step [] l l
  | join (l : Line α) (a : α) : Step [a] l { l with waiting := l.waiting ++ [a] }
  | start (events : List (Event α)) (a : α) (rest : List α) :
      Step [] ⟨events, none, a :: rest⟩ ⟨events ++ [.start a], some a, rest⟩
  | finish (events : List (Event α)) (a : α) (waiting : List α) :
      Step [] ⟨events, some a, waiting⟩ ⟨events ++ [.finish a], none, waiting⟩

/-- The events of a service that serves these customers, one after the other. -/
def service (customers : List α) : List (Event α) :=
  customers.flatMap fun a => [.start a, .finish a]

theorem service_append (first second : List α) :
    service (first ++ second) = service first ++ service second :=
  flatMap_append

/-- All who have arrived were served, are served or wait, in the order of their arrival. -/
def Serves (arrived : List α) (l : Line α) : Prop :=
  ∃ served, l.events = service served ++ (l.busy.map Event.start).toList ∧
    served ++ l.busy.toList ++ l.waiting = arrived

/-- Those whose service has started. -/
def started (events : List (Event α)) : List α :=
  events.filterMap fun
    | .start a => some a
    | .finish _ => none

theorem started_append (first second : List (Event α)) :
    started (first ++ second) = started first ++ started second :=
  filterMap_append

theorem started_map {β : Type*} (f : α → β) (events : List (Event α)) :
    started (events.map (Event.map f)) = (started events).map f := by
  induction events with
  | nil => rfl
  | cons event events ih => cases event <;> simp_all [started, Event.map]

theorem started_service (customers : List α) : started (service customers) = customers := by
  induction customers with
  | nil => rfl
  | cons a customers ih => simpa [started, service] using ih

theorem Serves.started_prefix (h : Serves arrived l) : started l.events <+: arrived := by
  obtain ⟨served, hevents, rfl⟩ := h
  have hbusy : started ((l.busy.map Event.start).toList) = l.busy.toList := by
    cases l.busy <;> rfl
  rw [hevents, started_append, started_service, hbusy]
  exact prefix_append _ _

theorem serves_nil : Serves [] (⟨[], none, []⟩ : Line α) := ⟨[], rfl, rfl⟩

theorem Serves.step (h : Serves arrived l) (hstep : Step arriving l l') :
    Serves (arrived ++ arriving) l' := by
  obtain ⟨served, hevents, rfl⟩ := h
  cases hstep with
  | stay => exact ⟨served, hevents, (append_nil _).symm⟩
  | join a => exact ⟨served, hevents, (append_assoc ..).symm⟩
  | start events a rest =>
    refine ⟨served, ?_, by simp⟩
    simp only [Option.map_none, Option.toList_none, append_nil] at hevents
    rw [hevents]
    rfl
  | finish events a waiting =>
    -- who was served moves to those who have been
    refine ⟨served ++ [a], ?_, by simp⟩
    rw [show events = _ from hevents, service_append, append_assoc]
    simp [service]

end Fifo
