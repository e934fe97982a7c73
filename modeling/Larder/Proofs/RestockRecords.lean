import Larder.Restock.Basic

namespace Larder.Restock

open Polling (classify failureMark)

/-- The record says that the delivery is over, in one way or another. -/
def IsFinal (record : Wire.RestockRecord) : Prop := classify record.status ≠ .pending

instance : DecidablePred IsFinal := fun record =>
  inferInstanceAs (Decidable (classify record.status ≠ .pending))

/-- What a final record makes of a restock with an id, by the status that it brings. -/
inductive Settled (orderId : String) (record : Wire.RestockRecord) : Restock → Prop where
  | completed (h : record.status = "COMPLETED") :
      Settled orderId record (.completed orderId record.totalCost)
  | failed (h : failureMark <:+: record.status.toList) :
      Settled orderId record (.failed orderId record.status)
  | cancelled (h : record.status = "CANCELLED") :
      Settled orderId record (.failed orderId record.status)

/-- The restock when all records have been noted, the first one first. -/
def afterRecords (records : List Wire.RestockRecord) (r : Restock) : Restock :=
  records.foldl (fun r record => r.afterPoll record) r

variable {r : Restock} {record : Wire.RestockRecord} {records : List Wire.RestockRecord}
  {orderId : String}

theorem afterRecords_cons (record : Wire.RestockRecord) (records : List Wire.RestockRecord)
    (r : Restock) :
    afterRecords (record :: records) r = afterRecords records (r.afterPoll record) :=
  rfl

theorem afterRecords_append (records more : List Wire.RestockRecord) (r : Restock) :
    afterRecords (records ++ more) r = afterRecords more (afterRecords records r) :=
  List.foldl_append

theorem isTerminal_iff (r : Restock) : r.isTerminal = true ↔ r.outcome?.isSome := by
  cases r <;> simp [isTerminal, status, RestockStatus.isTerminal, outcome?]

theorem Settled.isTerminal (h : Settled orderId record r) : r.isTerminal = true := by
  cases h <;> rfl

theorem Settled.orderId_eq (h : Settled orderId record r) : r.orderId = orderId := by
  cases h <;> rfl

theorem afterRecord_of_final (h : IsFinal record) :
    Settled orderId record (afterRecord orderId record) := by
  unfold afterRecord
  rcases Polling.classify_cases record.status with ⟨hc, hs⟩ | ⟨hc, hs⟩ | ⟨hc, hs⟩ | ⟨hc, _⟩
  · rw [hc]
    exact .completed hs
  · rw [hc]
    exact .failed hs
  · rw [hc]
    exact .cancelled hs
  · exact absurd hc h

theorem afterRecord_of_pending (h : ¬ IsFinal record) :
    afterRecord orderId record = .inProgress orderId record.status := by
  have hp : classify record.status = .pending := Decidable.byContradiction h
  unfold afterRecord
  rw [hp]

theorem orderId_afterRecord (orderId : String) (record : Wire.RestockRecord) :
    (afterRecord orderId record).orderId = orderId := by
  by_cases h : IsFinal record
  · exact (afterRecord_of_final h).orderId_eq
  · rw [afterRecord_of_pending h]
    rfl

theorem afterPoll_of_terminal (h : r.isTerminal = true) (record : Wire.RestockRecord) :
    r.afterPoll record = r := by
  simp [afterPoll, h]

theorem afterPoll_of_unfinished (h : r.isTerminal = false) (record : Wire.RestockRecord) :
    r.afterPoll record = afterRecord r.orderId record := by
  simp [afterPoll, h]

theorem orderId_afterPoll (record : Wire.RestockRecord) (r : Restock) :
    (r.afterPoll record).orderId = r.orderId := by
  cases h : r.isTerminal with
  | true => rw [afterPoll_of_terminal h]
  | false => rw [afterPoll_of_unfinished h, orderId_afterRecord]

theorem orderId_afterRecords (records : List Wire.RestockRecord) (r : Restock) :
    (afterRecords records r).orderId = r.orderId := by
  induction records generalizing r with
  | nil => rfl
  | cons record records ih => rw [afterRecords_cons, ih, orderId_afterPoll]

/-- A settled restock never changes again. -/
theorem afterRecords_of_terminal (h : r.isTerminal = true) (records : List Wire.RestockRecord) :
    afterRecords records r = r := by
  induction records with
  | nil => rfl
  | cons record records ih => rw [afterRecords_cons, afterPoll_of_terminal h, ih]

/-- Records that leave everything pending leave the restock in progress, with the last status. -/
theorem afterRecords_of_pending (h : r.isTerminal = false)
    (hp : ∀ record ∈ records, ¬ IsFinal record) :
    afterRecords records r =
      (records.getLast?.map fun record => .inProgress r.orderId record.status).getD r := by
  induction records generalizing r with
  | nil => rfl
  | cons record records ih =>
    obtain ⟨hfirst, hrest⟩ := List.forall_mem_cons.mp hp
    have hnext : r.afterPoll record = .inProgress r.orderId record.status := by
      rw [afterPoll_of_unfinished h, afterRecord_of_pending hfirst]
    rw [afterRecords_cons, hnext, ih rfl hrest]
    cases records with
    | nil => rfl
    | cons next records =>
      rw [List.getLast?_cons_cons, List.getLast?_eq_some_getLast (List.cons_ne_nil next records)]
      rfl

theorem isTerminal_afterRecords_of_pending (h : r.isTerminal = false)
    (hp : ∀ record ∈ records, ¬ IsFinal record) : (afterRecords records r).isTerminal = false := by
  rw [afterRecords_of_pending h hp]
  cases records.getLast? with
  | none => exact h
  | some record => rfl

/-- The first final record settles the restock, whatever comes later. -/
theorem afterRecords_of_final {early : List Wire.RestockRecord} (late : List Wire.RestockRecord)
    (h : r.isTerminal = false) (hp : ∀ record ∈ early, ¬ IsFinal record) (hf : IsFinal record) :
    Settled r.orderId record (afterRecords (early ++ record :: late) r) := by
  have hopen := isTerminal_afterRecords_of_pending h hp
  have hsettled : Settled r.orderId record ((afterRecords early r).afterPoll record) := by
    rw [afterPoll_of_unfinished hopen, orderId_afterRecords]
    exact afterRecord_of_final hf
  rw [afterRecords_append, afterRecords_cons, afterRecords_of_terminal hsettled.isTerminal]
  exact hsettled

/-- What all records together make of a restock. -/
inductive Decided (r : Restock) : List Wire.RestockRecord → Restock → Prop where
  | finished {records : List Wire.RestockRecord} (h : r.isTerminal = true) : Decided r records r
  /-- The first final record decides, whatever comes later. -/
  | settled {early late : List Wire.RestockRecord} {record : Wire.RestockRecord} {r' : Restock}
      (h : r.isTerminal = false) (hp : ∀ record ∈ early, ¬ IsFinal record) (hf : IsFinal record)
      (hs : Settled r.orderId record r') : Decided r (early ++ record :: late) r'
  | pending {records : List Wire.RestockRecord} (h : r.isTerminal = false)
      (hp : ∀ record ∈ records, ¬ IsFinal record) : Decided r records
        ((records.getLast?.map fun record => inProgress r.orderId record.status).getD r)

theorem afterRecords_decided (records : List Wire.RestockRecord) (r : Restock) :
    Decided r records (afterRecords records r) := by
  cases h : r.isTerminal with
  | true =>
    rw [afterRecords_of_terminal h]
    exact .finished h
  | false =>
    cases hfind : records.find? fun record => decide (IsFinal record) with
    | none =>
      have hp : ∀ record ∈ records, ¬ IsFinal record := by simpa using hfind
      rw [afterRecords_of_pending h hp]
      exact .pending h hp
    | some record =>
      obtain ⟨hf, early, late, rfl, hp⟩ := List.find?_eq_some_iff_append.mp hfind
      have hfinal : IsFinal record := by simpa using hf
      have hpending : ∀ record ∈ early, ¬ IsFinal record := by simpa using hp
      exact .settled h hpending hfinal (afterRecords_of_final late h hpending hfinal)

end Larder.Restock
