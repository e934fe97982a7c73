import Larder.Failure

namespace Larder

/-- A call is done with a result, it fails, or it is dropped while it waits. -/
inductive Ended (α : Type) where
  | done (a : α)
  | failed (f : Failure)
  | dropped
  deriving Repr

/-- A call over a state, which it changes on its way to an end. However it ends, the changes made
until then stay. -/
def Call (σ α : Type) : Type := σ → Ended α × σ

namespace Call

variable {σ τ α β : Type}

def pure (a : α) : Call σ α := fun s => (.done a, s)

def bind (c : Call σ α) (f : α → Call σ β) : Call σ β := fun s =>
  match c s with
  | (.done a, s) => f a s
  | (.failed e, s) => (.failed e, s)
  | (.dropped, s) => (.dropped, s)

instance : Monad (Call σ) where
  pure := Call.pure
  bind := Call.bind

def fail (e : Failure) : Call σ α := fun s => (.failed e, s)

/-- Look at the state. -/
def view (f : σ → α) : Call σ α := fun s => (.done (f s), s)

def modify (f : σ → σ) : Call σ Unit := fun s => (.done (), f s)

/-- A result that is settled without the state. -/
def ofExcept : Except Failure α → Call σ α
  | .ok a => Call.pure a
  | .error e => fail e

/-- A step that may wait; without a result the call is dropped. -/
def wait (f : σ → Option α × σ) : Call σ α := fun s =>
  match f s with
  | (some a, s) => (.done a, s)
  | (none, s) => (.dropped, s)

/-- Go on after a failure, with the failure as the result. -/
def attempt (c : Call σ α) : Call σ (Except Failure α) := fun s =>
  match c s with
  | (.done a, s) => (.done (.ok a), s)
  | (.failed e, s) => (.done (.error e), s)
  | (.dropped, s) => (.dropped, s)

/-- The call without its result. -/
def forget (c : Call σ α) : Call σ Unit := c >>= fun _ => Pure.pure ()

/-- A call on a part of the state. -/
def within (part : σ → τ) (replace : τ → σ → σ) (c : Call τ α) : Call σ α := fun s =>
  match c (part s) with
  | (e, t) => (e, replace t s)

end Call

end Larder
