import Larder.Call

namespace Larder.Command

/-- A state, and the lines printed so far, the first one first. -/
structure Console (σ : Type) where
  state : σ
  printed : List String := []

/-- Why a script ends before its end. -/
inductive Halt where
  /-- With a message for the person at the terminal. -/
  | told (message : String)
  /-- It was dropped while it waited. -/
  | dropped
  deriving DecidableEq, Repr

/-- A script makes calls and prints lines; a call that fails ends it. -/
def Script (σ α : Type) : Type := Console σ → Except Halt α × Console σ

namespace Script

variable {σ α β : Type}

def pure (a : α) : Script σ α := fun c => (.ok a, c)

def bind (s : Script σ α) (f : α → Script σ β) : Script σ β := fun c =>
  match s c with
  | (.ok a, c) => f a c
  | (.error h, c) => (.error h, c)

instance : Monad (Script σ) where
  pure := Script.pure
  bind := Script.bind

/-- End the script with a message. -/
def stop (message : String) : Script σ α := fun c =>
  (.error (.told message), c)

def print (line : String) : Script σ Unit := fun c =>
  (.ok (), { c with printed := c.printed ++ [line] })

def view (f : σ → α) : Script σ α := fun c => (.ok (f c.state), c)

/-- Make a call. -/
def call (call : Call σ α) : Script σ α := fun c =>
  match call c.state with
  | (.done a, state) => (.ok a, { c with state })
  | (.failed f, state) => (.error (.told f.userMessage), { c with state })
  | (.dropped, state) => (.error .dropped, { c with state })

end Script

end Larder.Command
