namespace Larder

/-- Set a key among entries in key order. -/
def setKey {α : Type} (key : String) (a : α) : List (String × α) → List (String × α)
  | [] => [(key, a)]
  | (k, b) :: r =>
    if key = k then (key, a) :: r
    else if key < k then (key, a) :: (k, b) :: r
    else (k, b) :: setKey key a r

/-- The entries in key order; of two with one key the later stays. -/
def sortByKey {α : Type} (entries : List (String × α)) : List (String × α) :=
  entries.foldl (fun sorted (k, a) => setKey k a sorted) []

/-- Strictly ascending keys. -/
def KeysAscend {α : Type} (entries : List (String × α)) : Prop :=
  entries.Pairwise fun a b => a.1 < b.1

theorem mem_setKey {α : Type} {key : String} {a : α} {l : List (String × α)} {p : String × α}
    (h : p ∈ setKey key a l) : p = (key, a) ∨ p ∈ l := by
  induction l with
  | nil => simpa [setKey] using h
  | cons q r ih =>
    obtain ⟨k, b⟩ := q
    simp only [setKey] at h
    split at h
    · rcases List.mem_cons.mp h with h | h
      · exact .inl h
      · exact .inr (List.mem_cons_of_mem _ h)
    · split at h
      · rcases List.mem_cons.mp h with h | h
        · exact .inl h
        · exact .inr h
      · rcases List.mem_cons.mp h with h | h
        · exact .inr (h ▸ List.mem_cons_self)
        · exact (ih h).imp id (List.mem_cons_of_mem _)

theorem KeysAscend.setKey {α : Type} {key : String} {a : α} {l : List (String × α)}
    (h : KeysAscend l) : KeysAscend (setKey key a l) := by
  induction l with
  | nil => simp [Larder.setKey, KeysAscend]
  | cons q r ih =>
    obtain ⟨k, b⟩ := q
    obtain ⟨hk, hr⟩ := List.pairwise_cons.mp h
    simp only [Larder.setKey]
    split
    · next e => exact List.pairwise_cons.mpr ⟨fun p hp => e ▸ hk p hp, hr⟩
    · split
      · next hlt =>
        refine List.pairwise_cons.mpr ⟨fun p hp => ?_, h⟩
        rcases List.mem_cons.mp hp with rfl | hp
        · exact hlt
        · exact String.lt_trans hlt (hk p hp)
      · next hne hlt =>
        refine List.pairwise_cons.mpr ⟨fun p hp => ?_, ih hr⟩
        rcases mem_setKey hp with rfl | hp
        · exact String.not_le.mp fun hle => hne (String.le_antisymm hle (String.not_lt.mp hlt))
        · exact hk p hp

theorem keysAscend_sortByKey {α : Type} (entries : List (String × α)) :
    KeysAscend (sortByKey entries) := by
  suffices h : ∀ sorted, KeysAscend sorted →
      KeysAscend (entries.foldl (fun sorted (k, a) => setKey k a sorted) sorted) from
    h [] List.Pairwise.nil
  induction entries with
  | nil => exact fun _ h => h
  | cons p r ih => exact fun sorted h => ih _ h.setKey

theorem mem_sortByKey {α : Type} {entries : List (String × α)} {p : String × α}
    (h : p ∈ sortByKey entries) : p ∈ entries := by
  suffices hs : ∀ sorted, p ∈ entries.foldl (fun sorted (k, a) => setKey k a sorted) sorted →
      p ∈ sorted ∨ p ∈ entries by simpa using hs [] h
  clear h
  induction entries with
  | nil => exact fun _ h => .inl h
  | cons q r ih =>
    intro sorted h
    rcases ih _ h with h | h
    · rcases mem_setKey h with rfl | h
      · exact .inr List.mem_cons_self
      · exact .inl h
    · exact .inr (List.mem_cons_of_mem _ h)

theorem setKey_ne_nil {α : Type} (key : String) (a : α) (l : List (String × α)) :
    setKey key a l ≠ [] := by
  cases l with
  | nil => simp [setKey]
  | cons q r =>
    simp only [setKey]
    repeat' split
    all_goals simp

theorem sortByKey_ne_nil {α : Type} {entries : List (String × α)} (h : entries ≠ []) :
    sortByKey entries ≠ [] := by
  have hfold : ∀ (r sorted : List (String × α)), sorted ≠ [] →
      r.foldl (fun sorted (k, a) => setKey k a sorted) sorted ≠ [] := by
    intro r
    induction r with
    | nil => exact fun _ h => h
    | cons p r ih => exact fun _ _ => ih _ (setKey_ne_nil _ _ _)
  cases entries with
  | nil => exact absurd rfl h
  | cons p r => exact hfold r _ (setKey_ne_nil _ _ _)

/-- Entries in key order, one for a key. -/
structure Table (α : Type) where
  entries : List (String × α)
  ascend : KeysAscend entries
  deriving Repr

namespace Table

variable {α : Type}

instance [DecidableEq α] : DecidableEq (Table α) := fun s t =>
  if h : s.entries = t.entries then
    isTrue (by cases s; cases t; cases h; rfl)
  else isFalse fun e => h (e ▸ rfl)

def empty : Table α := ⟨[], List.Pairwise.nil⟩

instance : Inhabited (Table α) := ⟨empty⟩

def isEmpty (t : Table α) : Bool := t.entries.isEmpty

def set (t : Table α) (key : String) (a : α) : Table α :=
  ⟨setKey key a t.entries, t.ascend.setKey⟩

/-- A table of entries in any order; of two with one key the later stays. -/
def ofList (entries : List (String × α)) : Table α :=
  ⟨sortByKey entries, keysAscend_sortByKey entries⟩

/-- The entries that the test accepts. -/
def filter (t : Table α) (test : String → α → Bool) : Table α :=
  ⟨t.entries.filter fun (k, a) => test k a, t.ascend.filter _⟩

end Table

end Larder
