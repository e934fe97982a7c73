import Larder.Json.Record
import Larder.Proofs.Disks
import Larder.Proofs.Tables
import Mathlib.Data.List.Forall2
import Mathlib.Data.List.Nodup

namespace Larder.Json

/-- The token and the node are those of this member, and the node can be passed over. -/
structure SpellsMember (t : Token String × Node) (m : String × Node) : Prop where
  key : t.1.read = .ok m.1
  node : t.2 = m.2
  passed : m.2.pass = .ok ()

/-- What a record takes of the members of an object, by the names its fields are known by. -/
def held (slots : List Slot) (ms : List (String × Node)) : Contents :=
  ms.filterMap fun m => (slots.find? (·.hasName m.1)).map fun s => (s.name, m.2)

section Members

variable {slots : List Slot} {origin : Origin} {c d : Contents} {t : Token String × Node}
  {m : String × Node} {tokens : List (Token String × Node)} {ms : List (String × Node)}

theorem node?_isSome_iff {name : String} : (c.node? name).isSome ↔ name ∈ c.map Prod.fst := by
  simp [Contents.node?, List.find?_isSome]

theorem held_cons_none (hs : slots.find? (·.hasName m.1) = none) :
    held slots (m :: ms) = held slots ms :=
  List.filterMap_cons_none (by rw [hs]; rfl)

theorem held_cons_some {s : Slot} (hs : slots.find? (·.hasName m.1) = some s) :
    held slots (m :: ms) = (s.name, m.2) :: held slots ms :=
  List.filterMap_cons_some (by rw [hs]; rfl)

/-- A member that no field has is passed over. -/
theorem ofMembers_other (h : SpellsMember t m) (hs : slots.find? (·.hasName m.1) = none) :
    Contents.ofMembers slots origin (t :: tokens) c =
      Contents.ofMembers slots origin tokens c := by
  obtain ⟨key, n⟩ := t
  have hkey : key.read = .ok m.1 := h.key
  obtain rfl : n = m.2 := h.node
  simp only [Contents.ofMembers, hkey, bind, Except.bind, hs, h.passed]

/-- A member that a field has is taken if the field has nothing yet and takes the value. -/
theorem ofMembers_field {s : Slot} (h : SpellsMember t m)
    (hs : slots.find? (·.hasName m.1) = some s) :
    Contents.ofMembers slots origin (t :: tokens) c = .ok d ↔
      s.name ∉ c.map Prod.fst ∧ s.check origin m.2 = .ok () ∧
        Contents.ofMembers slots origin tokens (c ++ [(s.name, m.2)]) = .ok d := by
  obtain ⟨key, n⟩ := t
  have hkey : key.read = .ok m.1 := h.key
  obtain rfl : n = m.2 := h.node
  rw [← node?_isSome_iff]
  simp only [Contents.ofMembers, hkey, bind, Except.bind, hs]
  cases (c.node? s.name).isSome with
  | true => simp [throw, throwThe, MonadExceptOf.throw]
  | false =>
    cases s.check origin m.2 with
    | error e => simp
    | ok u => simp

/-- Taking the members in turn gives all that is for a field, in the order of the members. -/
theorem ofMembers_iff (h : List.Forall₂ SpellsMember tokens ms) (hc : (c.map Prod.fst).Nodup) :
    Contents.ofMembers slots origin tokens c = .ok d ↔
      (∀ m ∈ ms, ∀ s, slots.find? (·.hasName m.1) = some s → s.check origin m.2 = .ok ()) ∧
      ((c ++ held slots ms).map Prod.fst).Nodup ∧ d = c ++ held slots ms := by
  induction h generalizing c with
  | nil =>
    have hnil : Contents.ofMembers slots origin [] c = .ok c := rfl
    simp [hnil, held, hc, eq_comm]
  | @cons t m tokens ms ht _ ih =>
    rw [List.forall_mem_cons]
    cases hs : slots.find? (·.hasName m.1) with
    | none =>
      rw [ofMembers_other ht hs, ih hc, held_cons_none hs]
      simp
    | some s =>
      rw [ofMembers_field ht hs, held_cons_some hs]
      by_cases hnew : s.name ∈ c.map Prod.fst
      · have htwice : ¬ ((c ++ (s.name, m.2) :: held slots ms).map Prod.fst).Nodup := by
          rw [List.map_append, List.map_cons, List.nodup_middle, List.nodup_cons]
          exact fun h => h.1 (List.mem_append_left _ hnew)
        simp only [hnew, htwice, not_true_eq_false, false_and, and_false]
      · have hnext : ((c ++ [(s.name, m.2)]).map Prod.fst).Nodup := by
          rw [List.map_append, List.map_singleton, ← List.concat_eq_append, List.nodup_concat]
          exact ⟨hnew, hc⟩
        rw [ih hnext, ← List.append_cons]
        simp only [Option.some.injEq, forall_eq', hnew, not_false_eq_true, true_and, and_assoc]

/-- Nothing is missing when everything is there that has to be. -/
theorem firstMissing?_eq_none_iff : c.firstMissing? slots = none ↔
    ∀ s ∈ slots, s.mayBeMissing = false → s.name ∈ c.map Prod.fst := by
  simp only [Contents.firstMissing?, Option.map_eq_none_iff, List.find?_eq_none, ← node?_isSome_iff]
  refine forall₂_congr fun s _ => ?_
  cases s.mayBeMissing <;> cases c.node? s.name <;> simp

/-- The members that make a record, and what of it. -/
theorem record_members_iff {α : Type} {name : String} {build : Fields → Except Fault α} {a : α}
    (h : List.Forall₂ SpellsMember tokens ms) :
    record name slots build origin (.object tokens .closed) = .ok a ↔
      (∀ m ∈ ms, ∀ s, slots.find? (·.hasName m.1) = some s → s.check origin m.2 = .ok ()) ∧
      ((held slots ms).map Prod.fst).Nodup ∧
      (∀ s ∈ slots, s.mayBeMissing = false → s.name ∈ (held slots ms).map Prod.fst) ∧
      build ⟨origin, held slots ms, false⟩ = .ok a := by
  have hnew : (([] : Contents).map Prod.fst).Nodup := List.nodup_nil
  have hpresent : ∀ c : Contents, failIf (c.firstMissing? slots) = .ok () ↔
      ∀ s ∈ slots, s.mayBeMissing = false → s.name ∈ c.map Prod.fst := by
    intro c
    rw [← firstMissing?_eq_none_iff]
    cases c.firstMissing? slots <;> simp [failIf]
  have hclosed : failIf Ending.closed.objectFault? = .ok () := rfl
  simp only [record, bind_ok, ofMembers_iff h hnew, hclosed, hpresent, List.nil_append]
  constructor
  · rintro ⟨c, ⟨hchecks, honce, rfl⟩, _, _, _, hmissing, hbuild⟩
    exact ⟨hchecks, honce, hmissing, hbuild⟩
  · rintro ⟨hchecks, honce, hmissing, hbuild⟩
    exact ⟨_, ⟨hchecks, honce, rfl⟩, (), trivial, (), hmissing, hbuild⟩

end Members

end Larder.Json
