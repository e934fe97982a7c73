import Larder.Aisle
import Larder.Json.Record
import Larder.Proofs.CalendarTexts
import Larder.Proofs.Disks
import Larder.Proofs.RecordValues
import Larder.Proofs.Tables
import Larder.Proofs.WrittenTexts

namespace Larder.Json

mutual

/-- The same value, with the members of its objects in any order. -/
inductive Value.Arranges : Value → Value → Prop where
  | null : Value.Arranges .null .null
  | boolean (b : Bool) : Value.Arranges (.boolean b) (.boolean b)
  | number (n : Number) : Value.Arranges (.number n) (.number n)
  | text (s : String) : Value.Arranges (.text s) (.text s)
  | sequence {items items' : List Value} (h : ItemsArrange items items') :
      Value.Arranges (.sequence items) (.sequence items')
  | object {members among members' : List (String × Value)} (hp : members.Perm among)
      (h : MembersArrange among members') : Value.Arranges (.object members) (.object members')

inductive ItemsArrange : List Value → List Value → Prop where
  | nil : ItemsArrange [] []
  | cons {v w : Value} {vs ws : List Value} (h : Value.Arranges v w) (hr : ItemsArrange vs ws) :
      ItemsArrange (v :: vs) (w :: ws)

inductive MembersArrange : List (String × Value) → List (String × Value) → Prop where
  | nil : MembersArrange [] []
  | cons (key : String) {v w : Value} {ms ns : List (String × Value)} (h : Value.Arranges v w)
      (hr : MembersArrange ms ns) : MembersArrange ((key, v) :: ms) ((key, w) :: ns)

end

mutual

/-- Every value may stay as it is. -/
theorem Value.Arranges.refl : ∀ v, Value.Arranges v v
  | .null => .null
  | .boolean b => .boolean b
  | .number n => .number n
  | .text s => .text s
  | .sequence items => .sequence (itemsArrange_refl items)
  | .object members => .object (.refl _) (membersArrange_refl members)

theorem itemsArrange_refl : ∀ items, ItemsArrange items items
  | [] => .nil
  | v :: items => .cons (.refl v) (itemsArrange_refl items)

theorem membersArrange_refl : ∀ members, MembersArrange members members
  | [] => .nil
  | (key, v) :: members => .cons key (.refl v) (membersArrange_refl members)

end

/-- Where a document comes from. -/
inductive Source where
  | value (v : Value)
  | text (s : String)

namespace Source

def origin : Source → Origin
  | .value _ => .value
  | .text _ => .text

def decode {α : Type} (d : Decoder α) : Source → Except Fault α
  | .value v => d.ofValue v
  | .text s => d.ofText s

end Source

/-- A way for a document to get to its reader. A count is the same at both ends. -/
structure Passage where
  origin : Origin
  /-- What a number reads as. -/
  number : Number → Token Number
  count : ∀ n : UInt32, number (.integer n.toNat) = .ofValue (.integer n.toNat)

namespace Passage

/-- The value itself is handed over. -/
def given : Passage := ⟨.value, Token.ofValue, fun _ => rfl⟩

/-- The value is written and read. -/
def written : Passage :=
  ⟨.text, Number.readBack, fun n => readBack_ofNat (Nat.lt_trans n.toNat_lt (by decide))⟩

/-- The tree that the reader gets. -/
def tree (p : Passage) (v : Value) : Node := .spelled p.number v

/-- What an amount reads as. -/
def amount (p : Passage) (d : Decimal) : Except Fault Decimal :=
  Decode.amount p.origin (p.tree (.float d.toFloat))

end Passage

section Passages

variable {α : Type} (d : Decoder α) (v : Value)

theorem ofText_printLines_eq : d.ofText (v.printLines 0) = d .text (Passage.written.tree v) := by
  rw [Decoder.ofText, ofText_printLines]
  exact bind_pure _

end Passages

/-- Along this passage the decoder reads the value as this, in whatever order its members are. -/
def Decoder.Reads {α : Type} (d : Decoder α) (p : Passage) (v : Value) (a : α) : Prop :=
  ∀ w, w.Arranges v → d p.origin (p.tree w) = .ok a

section Parts

variable {α : Type} {p : Passage}

/-- A text is nothing but itself, so what it is read as is up to the reader. -/
theorem reads_of_text {d : Decoder α} {s : String} {a : α}
    (h : d p.origin (.text (.ofValue s)) = .ok a) : d.Reads p (.text s) a := by
  rintro _ ⟨⟩
  exact h

theorem reads_text (s : String) : Decode.text.Reads p (.text s) s := reads_of_text rfl

theorem count_integer (origin : Origin) {i : Int} (h : 0 ≤ i ∧ i < UInt32.size) :
    Decode.count origin (.number (.ofValue (.integer i))) = .ok (.ofNat i.toNat) :=
  if_pos h

theorem reads_count (n : UInt32) : Decode.count.Reads p (.ofNat n.toNat) n := by
  rintro _ ⟨⟩
  change Decode.count p.origin (.number (p.number (.integer n.toNat))) = _
  rw [p.count, count_integer _ ⟨Int.natCast_nonneg _, Int.ofNat_lt.mpr (UInt32.toNat_lt_size n)⟩,
    Int.toNat_natCast, UInt32.ofNat_toNat]

theorem reads_amount {d d' : Decimal} (h : p.amount d = .ok d') :
    Decode.amount.Reads p (.float d.toFloat) d' := by
  rintro _ ⟨⟩
  exact h

theorem reads_aisle (a : Aisle) : Aisle.decode.Reads p a.toJson a :=
  reads_of_text (by cases a <;> rfl)

theorem date_text (origin : Origin) {s : String} {d : Calendar.Date}
    (h : Calendar.Date.read s = .ok d) : Decode.date origin (.text (.ofValue s)) = .ok d := by
  have hread : Decode.date origin (.text (.ofValue s)) =
      (Calendar.Date.read s).mapError fun f => .other f.message := rfl
  rw [hread, h]
  rfl

theorem reads_date (d : Calendar.Date) : Decode.date.Reads p (.text d.text) d :=
  reads_of_text (date_text _ d.read_text)

theorem timestamp_text (origin : Origin) {s : String} {t : Calendar.Timestamp}
    (h : Calendar.Timestamp.read s = .ok t) :
    Decode.timestamp origin (.text (.ofValue s)) = .ok t := by
  have hread : Decode.timestamp origin (.text (.ofValue s)) =
      (Calendar.Timestamp.read s).mapError fun f => .other f.message := rfl
  rw [hread, h]
  rfl

theorem reads_timestamp (t : Calendar.Timestamp) : Decode.timestamp.Reads p (.text t.text) t :=
  reads_of_text (timestamp_text _ t.read_text)

theorem reads_none (d : Decoder α) : (Decode.optional d).Reads p .null none := by
  rintro _ ⟨⟩
  rfl

/-- What is there and is not null is read as being there. -/
theorem reads_some {d : Decoder α} {v : Value} {a : α} (h : d.Reads p v a) (hv : v ≠ .null) :
    (Decode.optional d).Reads p v (some a) := by
  intro w hw
  have hread := h w hw
  cases hw with
  | null => exact absurd rfl hv
  | _ => exact congrArg (Except.map some) hread

theorem reads_sequence {β : Type} {d : Decoder α} {encode : β → Value} {as : List β} {f : β → α}
    (h : ∀ a ∈ as, d.Reads p (encode a) (f a)) :
    (Decode.sequence d).Reads p (.sequence (as.map encode)) (as.map f) := by
  have hitems : ∀ items, ItemsArrange items (as.map encode) →
      Decode.items d p.origin (Node.spelledItems p.number items) = .ok (as.map f) := by
    induction as with
    | nil =>
      rintro _ ⟨⟩
      rfl
    | cons a as ih =>
      obtain ⟨ha, has⟩ := List.forall_mem_cons.mp h
      rintro _ (_ | ⟨hv, hr⟩)
      have hitem := ha _ hv
      have hrest := ih has _ hr
      rw [Passage.tree] at hitem
      simp only [Node.spelledItems, Decode.items, hitem, hrest, bind, Except.bind, List.map_cons]
  rintro _ (_ | _ | _ | _ | ⟨hr⟩)
  simp only [Passage.tree, Node.spelled, Decode.sequence, hitems _ hr]
  rfl

end Parts

section Members

theorem MembersArrange.keys : ∀ {ms ns}, MembersArrange ms ns → ms.map Prod.fst = ns.map Prod.fst
  | _, _, .nil => rfl
  | _, _, .cons key _ hr => congrArg (key :: ·) hr.keys

theorem MembersArrange.of_mem_left : ∀ {ms ns}, MembersArrange ms ns → ∀ {key : String} {v : Value},
    (key, v) ∈ ms → ∃ w, (key, w) ∈ ns ∧ v.Arranges w
  | _, _, .cons key h hr, _, _, hm => by
    rcases List.mem_cons.mp hm with he | hm
    · cases he
      exact ⟨_, List.mem_cons_self, h⟩
    · obtain ⟨w, hw, hv⟩ := hr.of_mem_left hm
      exact ⟨w, List.mem_cons_of_mem _ hw, hv⟩

end Members

/-- All the names that a field may have. -/
def Slot.names (s : Slot) : List String := s.name :: s.otherNames

section Slots

variable {p : Passage} {slots : List Slot}

theorem hasName_iff {s : Slot} {key : String} : s.hasName key = true ↔ key ∈ s.names := by
  simp [Slot.hasName, Slot.names]

/-- Where no two fields share a name, a field is found by each of its own. -/
theorem find?_hasName_iff (hn : (slots.flatMap Slot.names).Nodup) {s : Slot} (hs : s ∈ slots)
    {key : String} : slots.find? (·.hasName key) = some s ↔ key ∈ s.names := by
  refine ⟨fun h => hasName_iff.mp (List.find?_some (p := fun s : Slot => s.hasName key) h),
    fun hkey => ?_⟩
  induction slots with
  | nil => cases hs
  | cons t slots ih =>
    obtain ⟨-, hrest, hdisjoint⟩ := List.nodup_append.mp hn
    rcases List.mem_cons.mp hs with rfl | hs
    · simp [hasName_iff.mpr hkey]
    · have hother : t.hasName key = false := Bool.eq_false_iff.mpr fun ht =>
        hdisjoint _ (hasName_iff.mp ht) _ (List.mem_flatMap_of_mem hs hkey) rfl
      simpa [List.find?_cons, hother] using ih hrest hs

theorem find?_name (hn : (slots.flatMap Slot.names).Nodup) {s : Slot} (hs : s ∈ slots) :
    slots.find? (·.hasName s.name) = some s :=
  (find?_hasName_iff hn hs).mpr List.mem_cons_self

/-- What a record has got when it has taken these members. -/
def Passage.contents (p : Passage) (ms : List (String × Value)) : Contents :=
  ms.map fun m => (m.1, p.tree m.2)

theorem contents_keys (ms : List (String × Value)) :
    (p.contents ms).map Prod.fst = ms.map Prod.fst := by
  simp [Passage.contents]

/-- Members that are for different fields, and that those take, are all taken. -/
theorem ofMembers_contents (hn : (slots.flatMap Slot.names).Nodup) {ms : List (String × Value)}
    {c : Contents} (hc : (c.map Prod.fst ++ ms.map Prod.fst).Nodup)
    (hm : ∀ m ∈ ms, ∃ s ∈ slots, s.name = m.1 ∧ s.check p.origin (p.tree m.2) = .ok ()) :
    Contents.ofMembers slots p.origin (Node.spelledMembers p.number ms) c =
      .ok (c ++ p.contents ms) := by
  induction ms generalizing c with
  | nil => simp [Node.spelledMembers, Contents.ofMembers, Passage.contents]
  | cons m ms ih =>
    obtain ⟨key, v⟩ := m
    obtain ⟨⟨s, hs, rfl, hcheck⟩, hms⟩ := List.forall_mem_cons.mp hm
    have hnew : (c.node? s.name).isSome = false := by
      rw [Bool.eq_false_iff, ne_eq, node?_isSome_iff]
      intro hold
      exact (List.nodup_append.mp hc).2.2 _ hold _ List.mem_cons_self rfl
    have hnext : ((c ++ [(s.name, p.tree v)]).map Prod.fst ++ ms.map Prod.fst).Nodup := by
      simpa using hc
    have hrest := ih hnext hms
    rw [Passage.tree] at hcheck
    simp only [Node.spelledMembers, Contents.ofMembers, Token.ofValue, bind, Except.bind,
      find?_name hn hs, hnew, hcheck]
    rw [Passage.tree] at hrest
    simpa [Passage.contents, Passage.tree] using hrest

end Slots

/-- One field of a record that is written: what it is, how it is written if it is, and that it is
read as what it is. -/
structure Entry (p : Passage) where
  Content : Type
  field : RecordField Content
  value : Content
  json : Option Value
  reads : ∀ v ∈ json, field.decode.Reads p v value
  absent : json = none → field.missing = some value

namespace Entry

variable {p : Passage} {α : Type}

/-- A field that is always written. -/
def always (f : RecordField α) {v : Value} {a : α} (h : f.decode.Reads p v a) : Entry p :=
  ⟨α, f, a, some v, fun _ hv => Option.some.inj hv ▸ h, nofun⟩

/-- A field that is written when there is something in it. -/
def optional (f : RecordField (Option α)) (hm : f.missing = some none) {encode : α → Value}
    (a? : Option α) (h : ∀ a, f.decode.Reads p (encode a) (some a)) : Entry p where
  Content := Option α
  field := f
  value := a?
  json := a?.map encode
  reads v hv := by
    obtain ⟨a, rfl, rfl⟩ := Option.map_eq_some_iff.mp hv
    exact h a
  absent hnone := by rwa [Option.map_eq_none_iff.mp hnone]

/-- The record has got the field as what it is. -/
def Got (fs : Fields) (e : Entry p) : Prop := fs.get e.field = .ok e.value

def member (e : Entry p) : String × Option Value := (e.field.name, e.json)

end Entry

section Record

variable {α : Type} {p : Passage} {entries : List (Entry p)} {slots : List Slot}

/-- The members that are written. -/
def writtenMembers (entries : List (Entry p)) : List (String × Value) :=
  (entries.map Entry.member).filterMap fun (k, v) => v.map (k, ·)

theorem mem_writtenMembers {key : String} {v : Value} : (key, v) ∈ writtenMembers entries ↔
    ∃ e ∈ entries, e.field.name = key ∧ e.json = some v := by
  simp only [writtenMembers, List.filterMap_map, List.mem_filterMap, Function.comp_apply,
    Entry.member, Option.map_eq_some_iff, Prod.mk.injEq]
  constructor
  · rintro ⟨e, he, w, hw, hkey, rfl⟩
    exact ⟨e, he, hkey, hw⟩
  · rintro ⟨e, he, hkey, hv⟩
    exact ⟨e, he, v, hv, hkey, rfl⟩

theorem writtenMembers_keys (entries : List (Entry p)) :
    ((writtenMembers entries).map Prod.fst).Sublist (entries.map fun e => e.field.name) := by
  induction entries with
  | nil => exact List.Sublist.refl _
  | cons e entries ih =>
    cases hv : e.json with
    | none =>
      have hskip : writtenMembers (e :: entries) = writtenMembers entries := by
        simp [writtenMembers, Entry.member, hv]
      rw [hskip]
      exact ih.cons _
    | some v =>
      have hkeep : writtenMembers (e :: entries) = (e.field.name, v) :: writtenMembers entries := by
        simp [writtenMembers, Entry.member, hv]
      rw [hkeep]
      exact ih.cons_cons _

/-- The members are those that are written, each read as what it is, in some order. -/
structure Carries (entries : List (Entry p)) (ms : List (String × Value)) : Prop where
  once : (ms.map Prod.fst).Nodup
  reads : ∀ m ∈ ms, ∃ e ∈ entries, e.field.name = m.1 ∧
    e.field.decode p.origin (p.tree m.2) = .ok e.value
  has_iff : ∀ e ∈ entries, e.field.name ∈ ms.map Prod.fst ↔ e.json ≠ none

/-- No two fields share a name. -/
def Apart (entries : List (Entry p)) : Prop :=
  ((entries.map fun e => e.field.slot).flatMap Slot.names).Nodup

theorem ownNames_sublist (entries : List (Entry p)) : (entries.map fun e => e.field.name).Sublist
    ((entries.map fun e => e.field.slot).flatMap Slot.names) := by
  induction entries with
  | nil => exact List.Sublist.refl _
  | cons e entries ih =>
    exact (ih.trans (List.sublist_append_right e.field.otherNames _)).cons_cons _

theorem Apart.names (hn : Apart entries) : (entries.map fun e => e.field.name).Nodup :=
  (ownNames_sublist entries).nodup hn

theorem Apart.eq (hn : Apart entries) {e e' : Entry p} (he : e ∈ entries) (he' : e' ∈ entries)
    (h : e.field.name = e'.field.name) : e = e' :=
  List.inj_on_of_nodup_map hn.names he he' h

theorem carries_of_arranges (hn : Apart entries) {w : Value}
    (h : w.Arranges (.ofPresent (entries.map Entry.member))) :
    ∃ ms, w = .object ms ∧ Carries entries ms := by
  have honce := (writtenMembers_keys entries).nodup hn.names
  have hsorted := sortByKey_perm honce
  obtain _ | _ | _ | _ | _ | ⟨hperm, hmembers⟩ := h
  rename_i ms among
  change MembersArrange among (sortByKey (writtenMembers entries)) at hmembers
  have hkeys : (ms.map Prod.fst).Perm ((writtenMembers entries).map Prod.fst) :=
    (hperm.map Prod.fst).trans (hmembers.keys ▸ hsorted.map Prod.fst)
  refine ⟨ms, rfl, hkeys.nodup_iff.mpr honce, fun m hm => ?_, fun e he => ?_⟩
  · obtain ⟨v, hv, harranges⟩ := hmembers.of_mem_left (hperm.mem_iff.mp hm)
    obtain ⟨e, he, hname, hjson⟩ := mem_writtenMembers.mp (mem_sortByKey hv)
    exact ⟨e, he, hname, e.reads v hjson _ harranges⟩
  · rw [hkeys.mem_iff, List.mem_map]
    constructor
    · rintro ⟨⟨key, v⟩, hm, hkey⟩
      obtain ⟨e', he', hname, hjson⟩ := mem_writtenMembers.mp hm
      rw [hn.eq he he' (hkey.symm.trans hname.symm), hjson]
      exact nofun
    · intro hjson
      obtain ⟨v, hv⟩ := Option.ne_none_iff_exists'.mp hjson
      exact ⟨(e.field.name, v), mem_writtenMembers.mpr ⟨e, he, rfl, hv⟩, rfl⟩

section Carries

variable {ms : List (String × Value)} (h : Carries entries ms)

include h

theorem Carries.ofMembers (hn : Apart entries) :
    Contents.ofMembers (entries.map fun e => e.field.slot) p.origin
      (Node.spelledMembers p.number ms) [] = .ok (p.contents ms) := by
  refine ofMembers_contents hn (by simpa using h.once) fun m hm => ?_
  obtain ⟨e, he, hname, hread⟩ := h.reads m hm
  refine ⟨e.field.slot, List.mem_map_of_mem he, hname, ?_⟩
  simp only [RecordField.slot, hread]
  rfl

/-- What is not written may be missing. -/
theorem Carries.firstMissing? :
    (p.contents ms).firstMissing? (entries.map fun e => e.field.slot) = none := by
  have hnone : (entries.map fun e => e.field.slot).find?
      (fun s => !s.mayBeMissing && ((p.contents ms).node? s.name).isNone) = none := by
    rw [List.find?_eq_none]
    intro s hs
    obtain ⟨e, he, rfl⟩ := List.mem_map.mp hs
    cases hjson : e.json with
    | none => simp [RecordField.slot, e.absent hjson]
    | some v =>
      have hhas : ((p.contents ms).node? e.field.name).isSome := by
        rw [node?_isSome_iff, contents_keys, h.has_iff e he, hjson]
        exact nofun
      obtain ⟨n, hn⟩ := Option.isSome_iff_exists.mp hhas
      simp [RecordField.slot, hn]
  rw [Contents.firstMissing?, hnone]
  rfl

theorem Carries.got (hn : Apart entries) {e : Entry p} (he : e ∈ entries) :
    e.Got ⟨p.origin, p.contents ms, false⟩ := by
  have hiff := h.has_iff e he
  rw [← contents_keys (p := p), ← node?_isSome_iff] at hiff
  cases hnode : (p.contents ms).node? e.field.name with
  | none =>
    rw [hnode] at hiff
    have hmissing := e.absent (by simpa using hiff)
    simp [Entry.Got, Fields.get, hnode, hmissing]
  | some n =>
    have hmem := (node?_eq_some_iff (by rw [contents_keys]; exact h.once)).mp hnode
    obtain ⟨m, hm, hpair⟩ := List.mem_map.mp hmem
    obtain ⟨hkey, rfl⟩ := Prod.mk.inj hpair
    obtain ⟨e', he', hname, hread⟩ := h.reads m hm
    obtain rfl := hn.eq he he' (hkey.symm.trans hname.symm)
    simp [Entry.Got, Fields.get, hnode, hread]

end Carries

/-- A record reads what was written for it, if no two of its fields share a name. -/
theorem reads_record (name : String) {build : Fields → Except Fault α} {a : α}
    (entries : List (Entry p)) (hslots : (entries.map fun e => e.field.slot) = slots)
    (hn : (slots.flatMap Slot.names).Nodup)
    (hbuild : ∀ fs : Fields, entries.Forall (Entry.Got fs) → build fs = .ok a) :
    (record name slots build).Reads p (.ofPresent (entries.map Entry.member)) a := by
  subst hslots
  intro w hw
  obtain ⟨ms, rfl, h⟩ := carries_of_arranges hn hw
  have hb := hbuild ⟨p.origin, p.contents ms, false⟩
    (List.forall_iff_forall_mem.mpr fun e he => h.got hn he)
  simp only [Passage.tree, Node.spelled, record, h.ofMembers hn, h.firstMissing?, bind, Except.bind]
  exact hb

end Record

section Tables

variable {α : Type} {p : Passage}

/-- Members that are all read as entries of a table give entries of it, with the same keys. -/
theorem entries_ok {d : Decoder α} {es : List (String × α)} {ms : List (String × Value)}
    (h : ∀ m ∈ ms, ∃ a, (m.1, a) ∈ es ∧ d p.origin (p.tree m.2) = .ok a) :
    ∃ found, Decode.entries d p.origin (Node.spelledMembers p.number ms) = .ok found ∧
      found.map Prod.fst = ms.map Prod.fst ∧ found ⊆ es := by
  induction ms with
  | nil => exact ⟨[], rfl, rfl, List.nil_subset _⟩
  | cons m ms ih =>
    obtain ⟨key, v⟩ := m
    obtain ⟨⟨a, ha, hread⟩, hms⟩ := List.forall_mem_cons.mp h
    obtain ⟨found, hfound, hkeys, hsub⟩ := ih hms
    rw [Passage.tree] at hread
    refine ⟨(key, a) :: found, ?_, congrArg (key :: ·) hkeys, List.cons_subset.mpr ⟨ha, hsub⟩⟩
    simp only [Node.spelledMembers, Decode.entries, Token.ofValue, hread, hfound, bind, Except.bind]

/-- A table is read whole: its keys are apart, and it puts them in order again. -/
theorem reads_table {d : Decoder α} {encode : α → Value} (t : Table α)
    (h : ∀ a, d.Reads p (encode a) a) :
    (Decode.table d).Reads p (.object (t.entries.map fun e => (e.1, encode e.2))) t := by
  rintro _ (_ | _ | _ | _ | _ | ⟨hperm, hmembers⟩)
  rename_i ms among
  have hkeys : (ms.map Prod.fst).Perm (t.entries.map Prod.fst) := by
    have hnames := hmembers.keys
    rw [List.map_map] at hnames
    exact hnames ▸ hperm.map Prod.fst
  have hread : ∀ m ∈ ms, ∃ a, (m.1, a) ∈ t.entries ∧ d p.origin (p.tree m.2) = .ok a := by
    intro m hm
    obtain ⟨v, hv, harranges⟩ := hmembers.of_mem_left (hperm.mem_iff.mp hm)
    obtain ⟨e, he, hpair⟩ := List.mem_map.mp hv
    obtain ⟨hkey, rfl⟩ := Prod.mk.inj hpair
    exact ⟨e.2, hkey ▸ he, h e.2 _ harranges⟩
  obtain ⟨found, hfound, hsame, hsub⟩ := entries_ok hread
  have honce : (found.map Prod.fst).Nodup := by
    rw [hsame, hkeys.nodup_iff]
    exact t.ascend.nodup
  have hlength : t.entries.length ≤ found.length := by
    have hsize := hkeys.length_eq
    rw [← hsame, List.length_map, List.length_map] at hsize
    exact hsize.ge
  have hall : found.Perm t.entries :=
    (List.subperm_of_subset honce.of_map hsub).perm_of_length_le hlength
  have hsorted : sortByKey found = t.entries :=
    (keysAscend_sortByKey found).eq_of_perm t.ascend ((sortByKey_perm honce).trans hall)
  have htable : Table.ofList found = t := by
    obtain ⟨entries, ascend⟩ := t
    exact Table.mk.injEq .. ▸ hsorted
  simp only [Passage.tree, Node.spelled, Decode.table, hfound, bind, Except.bind, htable]
  rfl

end Tables

end Larder.Json
