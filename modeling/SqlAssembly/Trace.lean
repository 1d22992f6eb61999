import SqlAssembly.Fault

/-!
# Traced results

A computation that reports what it does: a `Traced α` is the list of the events reported and the
result, which may be a fault. An event that comes before a fault is still reported.
-/

namespace SqlAssembly

/-- How much an event matters. -/
inductive Level where
  | trace
  | debug
deriving DecidableEq, Repr

/-- A report: its level, what happened, and named details. -/
structure Event where
  level : Level
  message : String
  details : List (String × String)
deriving DecidableEq, Repr

/-- A result together with the events reported on the way to it. -/
structure Traced (α : Type) where
  events : List Event
  result : Except Fault α

namespace Traced

variable {α β : Type}

/-- Goes on after a success, and keeps the events of both parts. -/
def bind (x : Traced α) (f : α → Traced β) : Traced β :=
  match x.result with
  | .ok a => ⟨x.events ++ (f a).events, (f a).result⟩
  | .error fault => ⟨x.events, .error fault⟩

instance : Monad Traced where
  pure a := ⟨[], .ok a⟩
  bind := bind

/-- A result without events. -/
def ofExcept (result : Except Fault α) : Traced α := ⟨[], result⟩

instance : MonadLift (Except Fault) Traced := ⟨ofExcept⟩

/-- Reports an event. -/
def report (event : Event) : Traced Unit := ⟨[event], .ok ()⟩

@[simp] theorem result_pure (a : α) : (pure a : Traced α).result = .ok a := rfl

@[simp] theorem result_ofExcept (r : Except Fault α) : (ofExcept r).result = r := rfl

@[simp] theorem result_report (e : Event) : (report e).result = .ok () := rfl

/-- The result of a sequence is the sequence of the results: events change nothing. -/
@[simp] theorem result_bind (x : Traced α) (f : α → Traced β) :
    (x >>= f).result = x.result >>= fun a => (f a).result := by
  change (Traced.bind x f).result = _
  cases h : x.result <;> simp [Traced.bind, h] <;> rfl

end Traced

end SqlAssembly
