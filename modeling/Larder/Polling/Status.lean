namespace Larder.Polling

inductive StatusClass where
  | completed
  | failed
  | cancelled
  | pending
  deriving DecidableEq, Repr

def StatusClass.isTerminal : StatusClass → Bool
  | .pending => false
  | _ => true

def failureMark : List Char := "FAILED".toList

/-- Whether the characters occur in a row somewhere in the text. -/
def containsChars (part : List Char) : List Char → Bool
  | [] => part.isEmpty
  | c :: r => part.isPrefixOf (c :: r) || containsChars part r

/-- Completion and cancellation are exact words, and a failure says so anywhere in its text. What is
not known is pending. -/
def classify (status : String) : StatusClass :=
  if status = "COMPLETED" then .completed
  else if containsChars failureMark status.toList then .failed
  else if status = "CANCELLED" then .cancelled
  else .pending

theorem containsChars_iff (part text : List Char) :
    containsChars part text ↔ part <:+: text := by
  induction text with
  | nil => simp [containsChars]
  | cons c r ih => simp [containsChars, ih, List.infix_cons_iff]

/-- What each class says of the status. -/
theorem classify_cases (status : String) :
    (classify status = .completed ∧ status = "COMPLETED") ∨
    (classify status = .failed ∧ failureMark <:+: status.toList) ∨
    (classify status = .cancelled ∧ status = "CANCELLED") ∨
    (classify status = .pending ∧ status ≠ "COMPLETED" ∧ ¬ failureMark <:+: status.toList ∧
      status ≠ "CANCELLED") := by
  unfold classify
  rw [← containsChars_iff]
  split
  · rename_i h
    exact Or.inl ⟨rfl, h⟩
  · rename_i hcompleted
    split
    · rename_i h
      exact Or.inr (Or.inl ⟨rfl, h⟩)
    · rename_i hfailed
      split
      · rename_i h
        exact Or.inr (Or.inr (Or.inl ⟨rfl, h⟩))
      · rename_i hcancelled
        exact Or.inr (Or.inr (Or.inr ⟨rfl, hcompleted, hfailed, hcancelled⟩))

end Larder.Polling
