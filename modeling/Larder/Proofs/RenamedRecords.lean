import Larder.Proofs.RecordValues

namespace Larder

/-- The second gives a result just when the first does, and that one translated. -/
def Follows {ε δ α β : Type} (g : α → β) (x : Except ε α) (y : Except δ β) : Prop :=
  ∀ b, y = .ok b ↔ ∃ a, x = .ok a ∧ g a = b

section Follows

variable {ε δ α β α' β' : Type} {g : α → β} {x : Except ε α} {y : Except δ β}

theorem Follows.map (g : α → β) (x : Except ε α) : Follows g x (x.map g) := by
  intro b
  cases x <;> simp [Except.map]

theorem Follows.refl (x : Except ε α) : Follows id x x := by
  intro b
  simp

theorem Follows.ok (g : α → β) (a : α) :
    Follows g (.ok a : Except ε α) (.ok (g a) : Except δ β) := by
  intro b
  simp

theorem Follows.errors (g : α → β) (e : ε) (e' : δ) :
    Follows g (.error e : Except ε α) (.error e') := by
  intro b
  simp

theorem Follows.bind {k : α' → β'} {f : α → Except ε α'} {f' : β → Except δ β'}
    (h : Follows g x y) (hf : ∀ a, Follows k (f a) (f' (g a))) :
    Follows k (x >>= f) (y >>= f') := by
  intro c
  rw [bind_ok]
  constructor
  · rintro ⟨b, hy, hc⟩
    obtain ⟨a, hx, rfl⟩ := (h b).mp hy
    obtain ⟨a', ha', hk⟩ := (hf a c).mp hc
    exact ⟨a', bind_ok.mpr ⟨a, hx, ha'⟩, hk⟩
  · rintro ⟨a', hxf, hk⟩
    obtain ⟨a, hx, ha'⟩ := bind_ok.mp hxf
    exact ⟨g a, (h _).mpr ⟨a, hx, rfl⟩, (hf a c).mpr ⟨a', ha', hk⟩⟩

theorem Follows.both_map {k : α' → β'} {f : α → α'} {f' : β → β'} (h : Follows g x y)
    (hk : ∀ a, k (f a) = f' (g a)) : Follows k (x.map f) (y.map f') := by
  intro c
  constructor
  · intro hc
    obtain ⟨b, hy, rfl⟩ := (Follows.map f' y c).mp hc
    obtain ⟨a, hx, rfl⟩ := (h b).mp hy
    exact ⟨f a, (Follows.map f x _).mpr ⟨a, hx, rfl⟩, hk a⟩
  · rintro ⟨a', ha', rfl⟩
    obtain ⟨a, hx, rfl⟩ := (Follows.map f x a').mp ha'
    exact (Follows.map f' y _).mpr ⟨g a, (h _).mpr ⟨a, hx, rfl⟩, (hk a).symm⟩

theorem Follows.exists_iff (h : Follows g x y) : (∃ b, y = .ok b) ↔ ∃ a, x = .ok a := by
  constructor
  · rintro ⟨b, hy⟩
    obtain ⟨a, hx, _⟩ := (h b).mp hy
    exact ⟨a, hx⟩
  · rintro ⟨a, hx⟩
    exact ⟨g a, (h _).mpr ⟨a, hx, rfl⟩⟩

/-- What both need besides may be asked of both. -/
theorem Follows.and_iff {P : Prop} (h : P → Follows g x y) (b : β) :
    P ∧ y = .ok b ↔ ∃ a, (P ∧ x = .ok a) ∧ g a = b := by
  constructor
  · rintro ⟨hp, hy⟩
    obtain ⟨a, hx, hg⟩ := (h hp b).mp hy
    exact ⟨a, ⟨hp, hx⟩, hg⟩
  · rintro ⟨a, ⟨hp, hx⟩, rfl⟩
    exact ⟨hp, (h hp _).mpr ⟨a, hx, rfl⟩⟩

end Follows

namespace Json

/-- The field under another name. -/
def Slot.renamed (ρ : String → String) (s : Slot) : Slot :=
  { s with name := ρ s.name, otherNames := s.otherNames.map ρ }

def RecordField.renamed {α : Type} (ρ : String → String) (f : RecordField α) : RecordField α :=
  { f with name := ρ f.name, otherNames := f.otherNames.map ρ }

/-- The value is the same, but the members of an object have other keys, in whatever order. -/
inductive Value.Renamed (ρ : String → String) : Value → Value → Prop where
  | object {ms ns : List (String × Value)} (h : ns.Perm (ms.map (Prod.map ρ id))) :
      Renamed ρ (.object ms) (.object ns)
  | other {v : Value} (h : ∀ ms, v ≠ .object ms) : Renamed ρ v v

section Renamed

variable {ρ : String → String} (hρ : Function.Injective ρ) {slots : List Slot} {key name : String}
  {c : Contents} {ms ns : List (String × Value)} {vs : List Value}

include hρ

theorem hasName_renamed (s : Slot) : (s.renamed ρ).hasName (ρ key) = s.hasName key := by
  rw [Bool.eq_iff_iff]
  simp [Slot.hasName, Slot.renamed, hρ.eq_iff]

theorem find?_renamed : (slots.map (Slot.renamed ρ)).find? (·.hasName (ρ key)) =
    (slots.find? (·.hasName key)).map (Slot.renamed ρ) := by
  rw [List.find?_map]
  simp only [Function.comp_def, hasName_renamed hρ]

theorem node?_renamed : Contents.node? (c.map (Prod.map ρ id)) (ρ name) = c.node? name := by
  simp only [Contents.node?, List.find?_map, Function.comp_def, Prod.map_fst, hρ.eq_iff,
    Option.map_map, Prod.map_snd, id]

theorem taken_renamed : taken (slots.map (Slot.renamed ρ)) (ms.map (Prod.map ρ id)) =
    (taken slots ms).map (Prod.map ρ id) := by
  simp only [taken, List.filterMap_map, List.map_filterMap, Function.comp_def, Prod.map_fst,
    Prod.map_snd, find?_renamed hρ, Option.map_map, Slot.renamed, Prod.map_apply, id]

/-- What is taken is the same under the other names, in whatever order. -/
theorem taken_perm (h : ns.Perm (ms.map (Prod.map ρ id))) :
    (taken (slots.map (Slot.renamed ρ)) ns).Perm ((taken slots ms).map (Prod.map ρ id)) := by
  rw [← taken_renamed hρ]
  exact h.filterMap _

theorem nodup_renamed : ((c.map (Prod.map ρ id)).map Prod.fst).Nodup ↔ (c.map Prod.fst).Nodup := by
  have hnames : (c.map (Prod.map ρ id)).map Prod.fst = (c.map Prod.fst).map ρ := by simp
  rw [hnames, List.nodup_map_iff hρ]

theorem suits_renamed (h : ns.Perm (ms.map (Prod.map ρ id))) :
    Suits (slots.map (Slot.renamed ρ)) ns ↔ Suits slots ms := by
  have htakes : ∀ m : String × Value,
      (∀ s, (slots.map (Slot.renamed ρ)).find? (·.hasName (ρ m.1)) = some s → s.Takes m.2) ↔
      ∀ s, slots.find? (·.hasName m.1) = some s → s.Takes m.2 := by
    intro m
    rw [find?_renamed hρ]
    cases slots.find? (·.hasName m.1) with
    | none => simp
    | some s => simp [Slot.Takes, Slot.renamed]
  have hall : (∀ m ∈ ns, ∀ s, (slots.map (Slot.renamed ρ)).find? (·.hasName m.1) = some s →
      s.Takes m.2) ↔ ∀ m ∈ ms, ∀ s, slots.find? (·.hasName m.1) = some s → s.Takes m.2 := by
    simp only [h.mem_iff, List.forall_mem_map]
    exact forall₂_congr fun m _ => htakes m
  have honce : ((taken (slots.map (Slot.renamed ρ)) ns).map Prod.fst).Nodup ↔
      ((taken slots ms).map Prod.fst).Nodup :=
    ((taken_perm hρ h).map Prod.fst).nodup_iff.trans (nodup_renamed hρ)
  exact ⟨fun hs => ⟨hall.mp hs.takes, honce.mp hs.once⟩,
    fun hs => ⟨hall.mpr hs.takes, honce.mpr hs.once⟩⟩

omit hρ in
theorem takenItems_renamed :
    takenItems (slots.map (Slot.renamed ρ)) vs = (takenItems slots vs).map (Prod.map ρ id) := by
  simp only [takenItems, List.zip_map_left, List.map_map]
  rfl

omit hρ in
theorem suitsItems_renamed :
    SuitsItems (slots.map (Slot.renamed ρ)) vs ↔ SuitsItems slots vs := by
  have htakes : (∀ p ∈ (slots.map (Slot.renamed ρ)).zip vs, p.1.Takes p.2) ↔
      ∀ p ∈ slots.zip vs, p.1.Takes p.2 := by
    rw [List.zip_map_left, List.forall_mem_map]
    rfl
  have hcut : (∀ s ∈ (slots.map (Slot.renamed ρ)).drop vs.length, s.mayBeCut = true) ↔
      ∀ s ∈ slots.drop vs.length, s.mayBeCut = true := by
    rw [← List.map_drop, List.forall_mem_map]
    rfl
  have hlength : (slots.map (Slot.renamed ρ)).length = slots.length := List.length_map _
  exact ⟨fun hs => ⟨htakes.mp hs.takes, hcut.mp hs.cut, hlength ▸ hs.length_le⟩,
    fun hs => ⟨htakes.mpr hs.takes, hcut.mpr hs.cut, hlength.symm ▸ hs.length_le⟩⟩

omit hρ in
/-- A field with another name gets the same out of contents that have it under that name. -/
theorem get_follows {d : Contents} {isCut : Bool} {α : Type}
    (h : ∀ name, Contents.node? d (ρ name) = Contents.node? c name) (f : RecordField α) :
    Follows id (Fields.get ⟨.value, c, isCut⟩ f) (Fields.get ⟨.value, d, isCut⟩ (f.renamed ρ)) := by
  simp only [Fields.get, RecordField.renamed, h]
  cases c.node? f.name with
  | some n => exact .refl (f.decode .value n)
  | none =>
    cases (if isCut then f.cut else f.missing) with
    | some a => exact .ok id a
    | none => exact .errors id _ _

/-- The record with other names follows the record, if what they are built of does. -/
theorem record_follows {α β : Type} {g : α → β} {n n' : String} {build : Fields → Except Fault α}
    {build' : Fields → Except Fault β} (hslots : ∀ s ∈ slots, s.mayBeMissing = true)
    (hbuild : ∀ c d isCut, (∀ name, Contents.node? d (ρ name) = Contents.node? c name) →
      Follows g (build ⟨.value, c, isCut⟩) (build' ⟨.value, d, isCut⟩))
    {v w : Value} (h : v.Renamed ρ w) :
    Follows g ((record n slots build).ofValue v)
      ((record n' (slots.map (Slot.renamed ρ)) build').ofValue w) := by
  have hslots' : ∀ s ∈ slots.map (Slot.renamed ρ), s.mayBeMissing = true :=
    List.forall_mem_map.mpr hslots
  cases h with
  | @object ms ns h =>
    intro b
    simp only [record_object_ok_iff hslots, record_object_ok_iff hslots', suits_renamed hρ h]
    -- No name occurs twice in what is taken, so its order is of no account.
    refine Follows.and_iff (fun hs => hbuild _ _ false fun name => ?_) b
    have hperm : (taken (slots.map (Slot.renamed ρ)) ns).Perm _ := taken_perm hρ h
    have honce := (hperm.map Prod.fst).nodup_iff.mpr ((nodup_renamed hρ).mpr hs.once)
    rw [node?_perm hperm honce, node?_renamed hρ]
  | other h =>
    cases v with
    | object ms => exact absurd rfl (h ms)
    | sequence vs =>
      intro b
      simp only [record_sequence_ok_iff, suitsItems_renamed, takenItems_renamed]
      exact Follows.and_iff (fun _ => hbuild _ _ true fun name => node?_renamed hρ) b
    | _ => exact .errors g _ _

end Renamed

end Json

end Larder
