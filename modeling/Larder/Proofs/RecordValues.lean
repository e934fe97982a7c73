import Larder.Proofs.AlikeResponses
import Larder.Proofs.RecordMembers
import Larder.Proofs.WrittenTexts

namespace Larder.Json

/-- The field takes the value. -/
def Slot.Takes (s : Slot) (v : Value) : Prop := s.check .value (.ofValue v) = .ok ()

theorem RecordField.takes_iff {α : Type} (f : RecordField α) (v : Value) :
    f.slot.Takes v ↔ ∃ a, f.decode.ofValue v = .ok a := by
  change (f.decode.ofValue v).map _ = .ok () ↔ _
  cases f.decode.ofValue v with
  | error e => simp [Except.map]
  | ok a => simp [Except.map]

/-- What a record takes of the members of an object, by the names its fields are known by. -/
def taken (slots : List Slot) (ms : List (String × Value)) : Contents :=
  ms.filterMap fun m => (slots.find? (·.hasName m.1)).map fun s => (s.name, .ofValue m.2)

/-- What a record takes of the items of a sequence. -/
def takenItems (slots : List Slot) (vs : List Value) : Contents :=
  (slots.zip vs).map fun p => (p.1.name, .ofValue p.2)

/-- The record can be made of these members: each field takes what is for it, and gets it once. -/
structure Suits (slots : List Slot) (ms : List (String × Value)) : Prop where
  takes : ∀ m ∈ ms, ∀ s, slots.find? (·.hasName m.1) = some s → s.Takes m.2
  once : ((taken slots ms).map Prod.fst).Nodup

/-- The record can be made of these items, one for each field but for those that may be cut off. -/
structure SuitsItems (slots : List Slot) (vs : List Value) : Prop where
  takes : ∀ p ∈ slots.zip vs, p.1.Takes p.2
  cut : ∀ s ∈ slots.drop vs.length, s.mayBeCut = true
  length_le : vs.length ≤ slots.length

section Contents

variable {slots : List Slot} {c d : Contents} {name : String}

/-- Where every name occurs once, what has a name is what is looked up under it. -/
theorem node?_eq_some_iff (h : (c.map Prod.fst).Nodup) {n : Node} :
    c.node? name = some n ↔ (name, n) ∈ c :=
  find?_key_eq_some_iff h

theorem node?_perm (h : c.Perm d) (hc : (c.map Prod.fst).Nodup) (name : String) :
    c.node? name = d.node? name := by
  have hd : (d.map Prod.fst).Nodup := (h.map Prod.fst).nodup_iff.mp hc
  refine Option.ext fun n => ?_
  rw [node?_eq_some_iff hc, node?_eq_some_iff hd, h.mem_iff]

theorem taken_cons_none {m : String × Value} {ms : List (String × Value)}
    (h : slots.find? (·.hasName m.1) = none) : taken slots (m :: ms) = taken slots ms :=
  List.filterMap_cons_none (by rw [h]; rfl)

theorem taken_cons_some {m : String × Value} {ms : List (String × Value)} {s : Slot}
    (h : slots.find? (·.hasName m.1) = some s) :
    taken slots (m :: ms) = (s.name, .ofValue m.2) :: taken slots ms :=
  List.filterMap_cons_some (by rw [h]; rfl)

/-- The members of a value are spelled each by its node. -/
theorem members_spelled {number : Number → Token Number} (h : ∀ n, (number n).pass = .ok ())
    (ms : List (String × Value)) : List.Forall₂ SpellsMember (Node.spelledMembers number ms)
      (ms.map (Prod.map id (.spelled number))) := by
  induction ms with
  | nil => exact .nil
  | cons m ms ih => exact .cons ⟨rfl, rfl, pass_spelled h m.2⟩ ih

theorem members_given (ms : List (String × Value)) :
    List.Forall₂ SpellsMember (Node.ofMembers ms) (ms.map (Prod.map id .ofValue)) := by
  have hspelled : Node.spelled Token.ofValue = Node.ofValue := funext spelled_ofValue
  rw [← spelledMembers_ofMembers, ← hspelled]
  exact members_spelled (fun _ => rfl) ms

theorem held_values (ms : List (String × Value)) :
    held slots (ms.map (Prod.map id .ofValue)) = taken slots ms := by
  rw [held, List.filterMap_map]
  rfl

/-- Taking the items in turn gives each field its item, and leaves the rest. -/
theorem ofItems_ok_iff (expected : String) (slots : List Slot) (vs : List Value) (i : Nat)
    {p : Contents × List Node} :
    Contents.ofItems .value .closed expected slots (Node.ofItems vs) i = .ok p ↔
      (∀ q ∈ slots.zip vs, q.1.Takes q.2) ∧ (∀ s ∈ slots.drop vs.length, s.mayBeCut = true) ∧
      p = (takenItems slots vs, Node.ofItems (vs.drop slots.length)) := by
  induction slots generalizing vs i p with
  | nil =>
    have hall : Contents.ofItems .value .closed expected [] (Node.ofItems vs) i =
        .ok ([], Node.ofItems vs) := by
      cases vs <;> rfl
    rw [hall, Except.ok.injEq, eq_comm (b := p)]
    simp [takenItems]
  | cons s slots ih =>
    cases vs with
    | nil =>
      have hstep : Contents.ofItems .value .closed expected (s :: slots) (Node.ofItems []) i =
          if s.mayBeCut then
            Contents.ofItems .value .closed expected slots (Node.ofItems []) (i + 1)
          else .error (.wrongLength i expected) := rfl
      rw [hstep]
      cases hcut : s.mayBeCut <;> simp [ih, hcut, takenItems]
    | cons v vs =>
      have hstep : Contents.ofItems .value .closed expected (s :: slots)
          (Node.ofItems (v :: vs)) i = (do
            s.check .value (.ofValue v)
            let q ← Contents.ofItems .value .closed expected slots (Node.ofItems vs) (i + 1)
            .ok ((s.name, .ofValue v) :: q.1, q.2)) := rfl
      simp only [hstep, bind_ok, Prod.exists, ih, List.zip_cons_cons, List.forall_mem_cons]
      constructor
      · rintro ⟨u, hs, c, left, ⟨htakes, hcut, he⟩, hp⟩
        cases he
        cases hp
        exact ⟨⟨hs, htakes⟩, hcut, rfl⟩
      · rintro ⟨⟨hs, htakes⟩, hcut, rfl⟩
        exact ⟨(), hs, _, _, ⟨htakes, hcut, rfl⟩, rfl⟩

end Contents

section Record

variable {α : Type} {name : String} {slots : List Slot} {build : Fields → Except Fault α} {a : α}

/-- An object is a record without fields that have to be there just when its members suit. -/
theorem record_object_ok_iff (hslots : ∀ s ∈ slots, s.mayBeMissing = true)
    (ms : List (String × Value)) :
    (record name slots build).ofValue (.object ms) = .ok a ↔
      Suits slots ms ∧ build ⟨.value, taken slots ms, false⟩ = .ok a := by
  have hobject : (record name slots build).ofValue (.object ms) =
      record name slots build .value (.object (Node.ofMembers ms) .closed) := by
    rw [Decoder.ofValue, Node.ofValue]
  have hmissing : ∀ s ∈ slots, s.mayBeMissing = false → s.name ∈ (taken slots ms).map Prod.fst := by
    intro s hs h
    rw [hslots s hs] at h
    cases h
  rw [hobject, record_members_iff (members_given ms), held_values, List.forall_mem_map]
  constructor
  · rintro ⟨htakes, honce, _, hbuild⟩
    exact ⟨⟨htakes, honce⟩, hbuild⟩
  · rintro ⟨⟨htakes, honce⟩, hbuild⟩
    exact ⟨htakes, honce, hmissing, hbuild⟩

/-- A sequence is a record just when its items suit. -/
theorem record_sequence_ok_iff (vs : List Value) :
    (record name slots build).ofValue (.sequence vs) = .ok a ↔
      SuitsItems slots vs ∧ build ⟨.value, takenItems slots vs, true⟩ = .ok a := by
  have hleft : ∀ n, leftOver .value n (Node.ofItems (vs.drop slots.length)) .closed = .ok () ↔
      vs.length ≤ slots.length := by
    intro n
    rw [← List.drop_eq_nil_iff]
    cases vs.drop slots.length <;> simp [leftOver, Node.ofItems]
  simp only [Decoder.ofValue, Node.ofValue, record, bind_ok, Prod.exists, ofItems_ok_iff]
  constructor
  · rintro ⟨c, left, ⟨htakes, hcut, he⟩, b, hbuild, u, hl, hb⟩
    cases he
    cases hb
    exact ⟨⟨htakes, hcut, (hleft _).mp hl⟩, hbuild⟩
  · rintro ⟨⟨htakes, hcut, hlength⟩, hbuild⟩
    exact ⟨_, _, ⟨htakes, hcut, rfl⟩, a, hbuild, (), (hleft _).mpr hlength, rfl⟩

end Record

end Larder.Json
