import Larder.Proofs.WrittenRecords
import Larder.Restock.Batch
import Larder.Wire.Restock
import Mathlib.Data.List.Pairwise

namespace Larder.Json

namespace Source

/-- An object with these members. A text may bind one key more than once. -/
inductive HasMembers : Source → List (String × Node) → Prop where
  | value (ms : List (String × Value)) :
      HasMembers (.value (.object ms)) (ms.map (Prod.map id .ofValue))
  | text {s : String} {tokens : List (Token String × Node)} {ms : List (String × Node)}
      (h : Document.ofText s = ⟨.object tokens .closed, false⟩)
      (hs : List.Forall₂ SpellsMember tokens ms) : HasMembers (.text s) ms

theorem HasMembers.spelled {x : Source} {ms : List (String × Node)} (h : x.HasMembers ms) :
    ∃ tokens, List.Forall₂ SpellsMember tokens ms ∧
      ∀ {α : Type} (d : Decoder α), x.decode d = d x.origin (.object tokens .closed) := by
  cases h with
  | value ms =>
    refine ⟨_, members_given ms, fun d => ?_⟩
    rw [decode, Decoder.ofValue, Node.ofValue]
    rfl
  | @text s tokens ms h hs =>
    refine ⟨tokens, hs, fun d => ?_⟩
    change d.ofText s = d .text (.object tokens .closed)
    rw [Decoder.ofText, h, Document.read]
    cases d .text (.object tokens .closed) <;> rfl

/-- An object that has been written has the members that it had. -/
theorem hasMembers_print (ms : List (String × Value)) :
    HasMembers (.text (Value.object ms).print) (ms.map (Prod.map id Passage.written.tree)) := by
  refine .text ?_ (members_spelled readBack_pass ms)
  rw [ofText_print, Node.spelled]

end Source

/-- A field of a record, with its content in what is decoded. -/
structure RecordPart (α : Type) where
  {Content : Type}
  field : RecordField Content
  content : α → Content

namespace RecordPart

variable {α : Type}

def names (p : RecordPart α) : List String := p.field.slot.names

/-- What the members bind to the names of the field. -/
def nodes (p : RecordPart α) (ms : List (String × Node)) : List Node :=
  (ms.filter (·.1 ∈ p.names)).map (·.2)

/-- The field has what one member binds to one of its names, or else what it has by default. -/
inductive Given (p : RecordPart α) (origin : Origin) (ms : List (String × Node)) (a : α) :
    Prop where
  | bound {n : Node} (h : p.nodes ms = [n]) (hn : p.field.decode origin n = .ok (p.content a))
  | absent (h : p.nodes ms = []) (hm : p.field.missing = some (p.content a))

end RecordPart

/-- Fields with these names make up what is decoded, and nothing else counts. -/
structure Decoder.TakesByName {α : Type} (d : Decoder α) (parts : List (RecordPart α))
    (names : List (List String)) : Prop where
  names_eq : parts.map RecordPart.names = names
  reads : ∀ (x : Source) ms a, x.HasMembers ms →
    (x.decode d = .ok a ↔ ∀ p ∈ parts, p.Given x.origin ms a)
  /-- What is bound to other keys makes no difference, and the order of members makes none. -/
  others : ∀ (x y : Source) ms ns a, x.HasMembers ms → y.HasMembers ns → x.origin = y.origin →
    (ms.filter (·.1 ∈ names.flatten)).Perm (ns.filter (·.1 ∈ names.flatten)) →
    (x.decode d = .ok a ↔ y.decode d = .ok a)
  /-- One name of a field is as good as another. -/
  renamed : ∀ (x y : Source) ms ns l own key key' n a, x.HasMembers ms → y.HasMembers ns →
    x.origin = y.origin → own ∈ names → key ∈ own → key' ∈ own →
    ms.Perm ((key, n) :: l) → ns.Perm ((key', n) :: l) →
    (x.decode d = .ok a ↔ y.decode d = .ok a)
  /-- Two members for one field are never decoded. -/
  twice : ∀ (x : Source) ms own key key' n n' a, x.HasMembers ms → own ∈ names → key ∈ own →
    key' ∈ own → [(key, n), (key', n')].Sublist ms → x.decode d ≠ .ok a

namespace RecordPart

variable {α : Type} {p : RecordPart α} {origin : Origin} {ms ns : List (String × Node)} {a : α}

theorem mem_nodes {n : Node} : n ∈ p.nodes ms ↔ ∃ key ∈ p.names, (key, n) ∈ ms := by
  simp [nodes, and_comm]

theorem not_given_of_two {n n' : Node} (h : [n, n'].Sublist (p.nodes ms)) :
    ¬ p.Given origin ms a := by
  have hlength : 2 ≤ (p.nodes ms).length := h.length_le
  rintro (⟨hone, _⟩ | ⟨hnone, _⟩)
  · rw [hone] at hlength
    exact absurd hlength (by simp)
  · rw [hnone] at hlength
    exact absurd hlength (by simp)

/-- Only what is bound to the names of the field counts, in whatever order. -/
theorem Given.of_perm (h : (p.nodes ms).Perm (p.nodes ns)) (hms : p.Given origin ms a) :
    p.Given origin ns a := by
  rcases hms with ⟨hone, hn⟩ | ⟨hnone, hm⟩
  · rw [hone, List.singleton_perm] at h
    exact .bound h.symm hn
  · rw [hnone, List.nil_perm] at h
    exact .absent h hm

theorem given_congr (h : (p.nodes ms).Perm (p.nodes ns)) :
    p.Given origin ms a ↔ p.Given origin ns a :=
  ⟨.of_perm h, .of_perm h.symm⟩

end RecordPart

section Held

variable {slots : List Slot} {ms : List (String × Node)} {s : Slot}

theorem held_names : ∀ name ∈ (held slots ms).map Prod.fst, ∃ s ∈ slots, s.name = name := by
  intro name hname
  obtain ⟨_, hmem, rfl⟩ := List.mem_map.mp hname
  obtain ⟨m, _, hm⟩ := List.mem_filterMap.mp hmem
  obtain ⟨s, hs, rfl⟩ := Option.map_eq_some_iff.mp hm
  exact ⟨s, List.mem_of_find?_eq_some hs, rfl⟩

/-- What is held for a field is what the members bind to its names. -/
theorem held_filter (ms : List (String × Node)) (hn : (slots.flatMap Slot.names).Nodup)
    (hs : s ∈ slots) : (held slots ms).filter (·.1 = s.name) =
      (ms.filter (·.1 ∈ s.names)).map fun m => (s.name, m.2) := by
  induction ms with
  | nil => rfl
  | cons m ms ih =>
    cases hfind : slots.find? (·.hasName m.1) with
    | none =>
      have hother : m.1 ∉ s.names := by
        intro hm
        rw [(find?_hasName_iff hn hs).mpr hm] at hfind
        cases hfind
      rw [held_cons_none hfind, ih, List.filter_cons_of_neg (by simpa using hother)]
    | some t =>
      rw [held_cons_some hfind]
      -- Names tell fields apart, so this member is for the field just when the field has its key.
      by_cases hm : m.1 ∈ s.names
      · rw [(find?_hasName_iff hn hs).mpr hm] at hfind
        cases hfind
        rw [List.filter_cons_of_pos (by simp), ih, List.filter_cons_of_pos (by simpa using hm),
          List.map_cons]
      · have hname : t.name ≠ s.name := by
          intro he
          have ht := find?_name hn (List.mem_of_find?_eq_some hfind)
          rw [he, find?_name hn hs] at ht
          cases ht
          exact hm ((find?_hasName_iff hn hs).mp hfind)
        rw [List.filter_cons_of_neg (by simpa using hname), ih,
          List.filter_cons_of_neg (by simpa using hm)]

theorem node?_held (hn : (slots.flatMap Slot.names).Nodup) (hs : s ∈ slots) :
    (held slots ms).node? s.name = ((ms.filter (·.1 ∈ s.names)).map (·.2)).head? := by
  rw [Contents.node?, ← List.head?_filter, held_filter ms hn hs, List.head?_map, List.head?_map,
    Option.map_map]
  rfl

/-- No field gets two members just when no two names of a field are bound. -/
theorem nodup_held_iff (hn : (slots.flatMap Slot.names).Nodup) :
    ((held slots ms).map Prod.fst).Nodup ↔
      ∀ s ∈ slots, (ms.filter (·.1 ∈ s.names)).length ≤ 1 := by
  have hcount : ∀ s ∈ slots, ((held slots ms).map Prod.fst).count s.name =
      (ms.filter (·.1 ∈ s.names)).length := by
    intro s hs
    have hfilter := congrArg List.length (held_filter ms hn hs)
    rw [List.length_map] at hfilter
    rw [List.count_eq_countP, List.countP_map, List.countP_eq_length_filter, ← hfilter]
    rfl
  rw [List.nodup_iff_count_le_one]
  constructor
  · intro h s hs
    rw [← hcount s hs]
    exact h s.name
  · intro h name
    by_cases hname : name ∈ (held slots ms).map Prod.fst
    · obtain ⟨s, hs, rfl⟩ := held_names name hname
      rw [hcount s hs]
      exact h s hs
    · rw [List.count_eq_zero_of_not_mem hname]
      exact Nat.zero_le 1

end Held

section Record

variable {α : Type} {parts : List (RecordPart α)} {origin : Origin} {ms : List (String × Node)}
  {a : α}

theorem get_ok_iff {β : Type} {f : RecordField β} {c : Contents} {b : β} :
    (Fields.mk origin c false).get f = .ok b ↔
      (∃ n, c.node? f.name = some n ∧ f.decode origin n = .ok b) ∨
      (c.node? f.name = none ∧ f.missing = some b) := by
  unfold Fields.get
  cases c.node? f.name with
  | some n => simp
  | none => cases f.missing <;> simp

/-- What the field gets of a record is what it is given, if it is not given two things. -/
theorem RecordPart.given_iff {p : RecordPart α} {c : Contents}
    (hc : c.node? p.field.name = (p.nodes ms).head?) : p.Given origin ms a ↔
      (p.nodes ms).length ≤ 1 ∧ (Fields.mk origin c false).get p.field = .ok (p.content a) := by
  rw [get_ok_iff, hc]
  constructor
  · rintro (⟨hone, hn⟩ | ⟨hnone, hm⟩)
    · rw [hone]
      exact ⟨Nat.le_refl 1, Or.inl ⟨_, rfl, hn⟩⟩
    · rw [hnone]
      exact ⟨Nat.zero_le 1, Or.inr ⟨rfl, hm⟩⟩
  · rintro ⟨hlength, ⟨n, hhead, hn⟩ | ⟨hhead, hm⟩⟩
    · refine .bound ?_ hn
      match hnodes : p.nodes ms with
      | [] => rw [hnodes] at hhead; cases hhead
      | [n'] => rw [hnodes] at hhead; cases hhead; rfl
      | _ :: _ :: _ => rw [hnodes] at hlength; simp at hlength
    · exact .absent (List.head?_eq_none_iff.mp hhead) hm

/-- A record of these parts is decoded just when each of them is given. -/
theorem record_reads {name : String} {build : Fields → Except Fault α}
    (hn : (parts.map RecordPart.names).flatten.Nodup)
    (hbuild : ∀ fs a, build fs = .ok a ↔ ∀ p ∈ parts, fs.get p.field = .ok (p.content a))
    {tokens : List (Token String × Node)} (h : List.Forall₂ SpellsMember tokens ms) :
    record name (parts.map fun p => p.field.slot) build origin (.object tokens .closed) = .ok a ↔
      ∀ p ∈ parts, p.Given origin ms a := by
  have hnames : ((parts.map fun p => p.field.slot).flatMap Slot.names).Nodup := by
    rw [List.flatMap_map]
    exact hn
  have hslot : ∀ p ∈ parts, p.field.slot ∈ parts.map fun p => p.field.slot :=
    fun p hp => List.mem_map_of_mem hp
  have hnode : ∀ p ∈ parts, (held (parts.map fun p => p.field.slot) ms).node? p.field.name =
      (p.nodes ms).head? := fun p hp => node?_held hnames (hslot p hp)
  have honce : ((held (parts.map fun p => p.field.slot) ms).map Prod.fst).Nodup ↔
      ∀ p ∈ parts, (p.nodes ms).length ≤ 1 := by
    rw [nodup_held_iff hnames, List.forall_mem_map]
    refine forall₂_congr fun p _ => ?_
    rw [RecordPart.nodes, List.length_map]
    rfl
  rw [record_members_iff h, honce, hbuild]
  constructor
  · rintro ⟨_, hlength, _, hget⟩ p hp
    exact (RecordPart.given_iff (hnode p hp)).mpr ⟨hlength p hp, hget p hp⟩
  · intro hgiven
    have hall := fun p hp => (RecordPart.given_iff (hnode p hp)).mp (hgiven p hp)
    refine ⟨?_, fun p hp => (hall p hp).1, ?_, fun p hp => (hall p hp).2⟩
    · -- What a field would take is the one thing that it is given.
      intro m hm s hs
      obtain ⟨p, hp, rfl⟩ := List.mem_map.mp (List.mem_of_find?_eq_some hs)
      have hkey : m.1 ∈ p.names := (find?_hasName_iff hnames (hslot p hp)).mp hs
      have hmem : m.2 ∈ p.nodes ms := RecordPart.mem_nodes.mpr ⟨m.1, hkey, hm⟩
      rcases hgiven p hp with ⟨hone, hdecode⟩ | ⟨hnone, _⟩
      · rw [hone, List.mem_singleton] at hmem
        rw [hmem]
        exact congrArg (Except.map fun _ => ()) hdecode
      · rw [hnone] at hmem
        cases hmem
    · rw [List.forall_mem_map]
      intro p hp hmissing
      have hsome : (p.nodes ms).head?.isSome := by
        rcases hgiven p hp with ⟨hone, _⟩ | ⟨_, hm⟩
        · rw [hone]
          rfl
        · have hdefault : p.field.missing.isSome = false := hmissing
          rw [hm] at hdefault
          cases hdefault
      rw [← hnode p hp, node?_isSome_iff] at hsome
      exact hsome

end Record

section ByName

variable {α : Type} {d : Decoder α} {parts : List (RecordPart α)} {names : List (List String)}
  {ms ns : List (String × Node)}

theorem RecordPart.nodes_perm (p : RecordPart α) (h : ms.Perm ns) :
    (p.nodes ms).Perm (p.nodes ns) :=
  (h.filter _).map _

theorem RecordPart.nodes_filter {p : RecordPart α} (hp : p.names ∈ names) :
    p.nodes (ms.filter (·.1 ∈ names.flatten)) = p.nodes ms := by
  have hknown : ∀ m : String × Node, m.1 ∈ p.names → m.1 ∈ names.flatten :=
    fun m hm => List.mem_flatten_of_mem hp hm
  rw [nodes, nodes, List.filter_filter]
  congr 1
  refine List.filter_congr fun m _ => ?_
  by_cases hm : m.1 ∈ p.names
  · simp only [hm, hknown m hm, decide_true, Bool.and_self]
  · simp only [hm, decide_false, Bool.false_and]

/-- Where no two fields share a name, a name tells its field. -/
theorem own_unique (hn : names.flatten.Nodup) {own other : List String} {key : String}
    (hown : own ∈ names) (hother : other ∈ names) (hkey : key ∈ own) (hkey' : key ∈ other) :
    own = other := by
  have hsymm : Std.Symm (List.Disjoint (α := String)) := 
    ⟨fun _ _ h _ hb ha => h ha hb⟩
  by_contra hne
  exact (List.nodup_flatten.mp hn).2.forall hown hother hne hkey hkey'

/-- What is decoded of its parts takes them by their names. -/
theorem Decoder.takesByName (hparts : parts.map RecordPart.names = names) (hn : names.flatten.Nodup)
    (hreads : ∀ (x : Source) ms a, x.HasMembers ms →
      (x.decode d = .ok a ↔ ∀ p ∈ parts, p.Given x.origin ms a)) :
    d.TakesByName parts names := by
  have hnames : ∀ p ∈ parts, p.names ∈ names := fun p hp => hparts ▸ List.mem_map_of_mem hp
  have hcongr : ∀ (x y : Source) ms ns a, x.HasMembers ms → y.HasMembers ns → x.origin = y.origin →
      (∀ p ∈ parts, (p.nodes ms).Perm (p.nodes ns)) →
      (x.decode d = .ok a ↔ y.decode d = .ok a) := by
    intro x y ms ns a hx hy horigin hperm
    rw [hreads x ms a hx, hreads y ns a hy, horigin]
    exact forall₂_congr fun p hp => RecordPart.given_congr (hperm p hp)
  refine ⟨hparts, hreads, ?_, ?_, ?_⟩
  · intro x y ms ns a hx hy horigin hperm
    refine hcongr x y ms ns a hx hy horigin fun p hp => ?_
    have hknown := p.nodes_perm hperm
    rwa [RecordPart.nodes_filter (hnames p hp), RecordPart.nodes_filter (hnames p hp)] at hknown
  · intro x y ms ns l own key key' n a hx hy horigin hown hkey hkey' hms hns
    refine hcongr x y ms ns a hx hy horigin fun p hp => ?_
    have hiff : key ∈ p.names ↔ key' ∈ p.names := by
      constructor
      · intro hk
        rwa [own_unique hn (hnames p hp) hown hk hkey]
      · intro hk
        rwa [own_unique hn (hnames p hp) hown hk hkey']
    have hsame : p.nodes ((key, n) :: l) = p.nodes ((key', n) :: l) := by
      simp only [RecordPart.nodes, List.filter_cons, hiff]
      split <;> rfl
    exact (p.nodes_perm hms).trans (hsame ▸ p.nodes_perm hns.symm)
  · intro x ms own key key' n n' a hx hown hkey hkey' htwice hdecode
    rw [← hparts] at hown
    obtain ⟨p, hp, rfl⟩ := List.mem_map.mp hown
    have hnodes : [n, n'].Sublist (p.nodes ms) := by
      have hsub := (htwice.filter (·.1 ∈ p.names)).map Prod.snd
      simpa [RecordPart.nodes, hkey, hkey'] using hsub
    exact RecordPart.not_given_of_two hnodes ((hreads x ms a hx).mp hdecode p hp)

theorem record_takesByName (parts : List (RecordPart α)) {name : String}
    {build : Fields → Except Fault α}
    (hparts : parts.map RecordPart.names = names) (hn : names.flatten.Nodup)
    (hbuild : ∀ fs a, build fs = .ok a ↔ ∀ p ∈ parts, fs.get p.field = .ok (p.content a)) :
    Decoder.TakesByName (record name (parts.map fun p => p.field.slot) build) parts names := by
  refine Decoder.takesByName hparts hn fun x ms a hx => ?_
  obtain ⟨tokens, hspelled, hdecode⟩ := hx.spelled
  rw [hdecode]
  exact record_reads (hparts ▸ hn) hbuild hspelled

end ByName

end Larder.Json

namespace Larder

open Json (RecordPart)

namespace Wire

namespace OrderRecord

def parts : List (RecordPart OrderRecord) :=
  [⟨orderIdField, orderId⟩, ⟨statusField, status⟩, ⟨totalPriceField, totalPrice⟩,
    ⟨createdAtField, createdAt⟩]

def spellings : List (List String) :=
  [["OrderID", "order_id"], ["Status", "status"], ["TotalPrice", "total_price"],
    ["CreatedAt", "created_at"]]

theorem decode_takesByName : decode.TakesByName parts spellings := by
  refine Json.record_takesByName parts rfl ?_ fun fs a => ?_
  · decide
  simp only [parts, List.forall_mem_cons, bind_ok, List.not_mem_nil, false_implies, implies_true]
  constructor
  · rintro ⟨_, h₁, _, h₂, _, h₃, _, h₄, h⟩
    cases h
    exact ⟨h₁, h₂, h₃, h₄, trivial⟩
  · rintro ⟨h₁, h₂, h₃, h₄, _⟩
    exact ⟨_, h₁, _, h₂, _, h₃, _, h₄, rfl⟩

end OrderRecord

namespace RestockRecord

def parts : List (RecordPart RestockRecord) :=
  [⟨orderIdField, orderId⟩, ⟨statusField, status⟩, ⟨totalCostField, totalCost⟩,
    ⟨createdAtField, createdAt⟩]

def spellings : List (List String) :=
  [["OrderID", "order_id"], ["Status", "status"], ["TotalCost", "total_cost"],
    ["CreatedAt", "created_at"]]

theorem decode_takesByName : decode.TakesByName parts spellings := by
  refine Json.record_takesByName parts rfl ?_ fun fs a => ?_
  · decide
  simp only [parts, List.forall_mem_cons, bind_ok, List.not_mem_nil, false_implies, implies_true]
  constructor
  · rintro ⟨_, h₁, _, h₂, _, h₃, _, h₄, h⟩
    cases h
    exact ⟨h₁, h₂, h₃, h₄, trivial⟩
  · rintro ⟨h₁, h₂, h₃, h₄, _⟩
    exact ⟨_, h₁, _, h₂, _, h₃, _, h₄, rfl⟩

end RestockRecord

namespace Preview

def parts : List (RecordPart Preview) :=
  [⟨orderIdField, orderId⟩, ⟨itemsField, items⟩, ⟨statusField, status⟩, ⟨messageField, message⟩]

def spellings : List (List String) :=
  [["order_id", "OrderId", "OrderID"], ["items"], ["status"], ["message"]]

theorem decode_takesByName : decode.TakesByName parts spellings := by
  refine Json.record_takesByName parts rfl ?_ fun fs a => ?_
  · decide
  simp only [parts, List.forall_mem_cons, bind_ok, List.not_mem_nil, false_implies, implies_true]
  constructor
  · rintro ⟨_, h₁, _, h₂, _, h₃, _, h₄, h⟩
    cases h
    exact ⟨h₁, h₂, h₃, h₄, trivial⟩
  · rintro ⟨h₁, h₂, h₃, h₄, _⟩
    exact ⟨_, h₁, _, h₂, _, h₃, _, h₄, rfl⟩

end Preview

end Wire

namespace ManifestLine

def parts : List (RecordPart ManifestLine) :=
  [⟨skuField, sku⟩, ⟨nameField, name⟩, ⟨aisleField, aisle⟩, ⟨quantityField, quantity⟩,
    ⟨unitCostField, unitCost⟩, ⟨madeField, made⟩, ⟨expiresField, expires⟩]

def spellings : List (List String) :=
  [["sku"], ["name"], ["aisle", "aisle_type"], ["quantity"], ["unit_cost"], ["mfd_date"],
    ["expiry_date"]]

theorem decode_takesByName : decode.TakesByName parts spellings := by
  refine Json.record_takesByName parts rfl ?_ fun fs a => ?_
  · decide
  simp only [parts, List.forall_mem_cons, bind_ok, List.not_mem_nil, false_implies, implies_true]
  constructor
  · rintro ⟨_, h₁, _, h₂, _, h₃, _, h₄, _, h₅, _, h₆, _, h₇, h⟩
    cases h
    exact ⟨h₁, h₂, h₃, h₄, h₅, h₆, h₇, trivial⟩
  · rintro ⟨h₁, h₂, h₃, h₄, h₅, h₆, h₇, _⟩
    exact ⟨_, h₁, _, h₂, _, h₃, _, h₄, _, h₅, _, h₆, _, h₇, rfl⟩

end ManifestLine

/-- Orders, deliveries, reservations and lines of a manifest go by the names of their fields: other
members, the order of members and the choice between the names of a field make no difference to
what is decoded, and two members for one field are never decoded. -/
theorem records_takeByName :
    Wire.OrderRecord.decode.TakesByName Wire.OrderRecord.parts Wire.OrderRecord.spellings ∧
    Wire.RestockRecord.decode.TakesByName Wire.RestockRecord.parts Wire.RestockRecord.spellings ∧
    Wire.Preview.decode.TakesByName Wire.Preview.parts Wire.Preview.spellings ∧
    ManifestLine.decode.TakesByName ManifestLine.parts ManifestLine.spellings :=
  ⟨Wire.OrderRecord.decode_takesByName, Wire.RestockRecord.decode_takesByName,
    Wire.Preview.decode_takesByName, ManifestLine.decode_takesByName⟩

end Larder
