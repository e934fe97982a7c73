import Larder.Storage.Disk

namespace Larder

theorem bind_ok {ε α β : Type} {x : Except ε α} {f : α → Except ε β} {b : β} :
    (x >>= f) = .ok b ↔ ∃ a, x = .ok a ∧ f a = .ok b := by
  cases x <;> simp [bind, Except.bind]

theorem toOption_eq_some_iff {ε α : Type} {x : Except ε α} {a : α} :
    x.toOption = some a ↔ x = .ok a := by
  cases x <;> simp [Except.toOption]

namespace Storage.Disk

@[simp] theorem fileSystem_makeDirectories (d : Disk) (r : Route) :
    FileSystem.makeDirectories d r = d.makeDirectories r := rfl

@[simp] theorem fileSystem_put (d : Disk) (r : Route) (text : Option String) :
    FileSystem.put d r text = d.put r text := rfl

@[simp] theorem fileSystem_rename (d : Disk) (source target : Route) :
    FileSystem.rename d source target = d.rename source target := rfl

@[simp] theorem fileSystem_removeFile (d : Disk) (r : Route) :
    FileSystem.removeFile d r = d.removeFile r := rfl

@[simp] theorem fileSystem_entry (d : Disk) (r : Route) :
    FileSystem.entry d r = d.entry r := rfl

@[simp] theorem entry?_root (d : Disk) : d.entry? [] = some .directory := rfl

theorem lookup_filter {α : Type} (es : List (Path × α)) (p q : Path) :
    (es.filter (·.1 ≠ p)).lookup q = if q = p then none else es.lookup q := by
  induction es with
  | nil => simp
  | cons e es ih =>
    obtain ⟨k, b⟩ := e
    by_cases hk : k = p
    · rw [List.filter_cons_of_neg (by simp [hk]), ih]
      split
      · rfl
      · rename_i hq
        rw [List.lookup_cons, beq_eq_false_iff_ne.mpr (by rw [hk]; exact hq)]
    · rw [List.filter_cons_of_pos (by simp [hk]), List.lookup_cons, List.lookup_cons, ih]
      by_cases hq : q = k
      · simp [hq, hk]
      · simp [beq_eq_false_iff_ne.mpr hq]

@[simp] theorem entry?_erase (d : Disk) (p q : Path) (hq : q ≠ []) :
    entry? (d.erase p) q = if q = p then none else d.entry? q := by
  unfold entry?
  rw [if_neg hq, if_neg hq]
  exact lookup_filter d.entries p q

@[simp] theorem entry?_set (d : Disk) (p q : Path) (e : Entry) (hq : q ≠ []) :
    entry? (d.set p e) q = if q = p then some e else d.entry? q := by
  unfold entry?
  rw [if_neg hq, if_neg hq]
  simp only [set, List.lookup_cons]
  by_cases h : q = p
  · simp [h]
  · rw [beq_eq_false_iff_ne.mpr h, if_neg h]
    exact (lookup_filter d.entries p q).trans (if_neg h)

theorem entry?_set_of_ne (d : Disk) {p q : Path} (e : Entry) (h : q ≠ p) :
    Disk.entry? (d.set p e) q = d.entry? q := by
  by_cases hroot : q = []
  · subst hroot
    rfl
  · rw [entry?_set _ _ _ _ hroot, if_neg h]

/-- Every directory of one disk is one of the other. -/
def KeepsDirectories (d d' : Disk) : Prop :=
  ∀ p, d.entry? p = some .directory → d'.entry? p = some .directory

theorem erase_keepsDirectories {d : Disk} {p : Path} (hp : d.entry? p ≠ some .directory) :
    d.KeepsDirectories (d.erase p) := by
  intro q hq
  by_cases h : q = []
  · subst h
    rfl
  · rw [entry?_erase d p q h, if_neg (by rintro rfl; exact hp hq), hq]

theorem set_keepsDirectories {d : Disk} {p : Path} (e : Entry)
    (hp : d.entry? p ≠ some .directory) : d.KeepsDirectories (d.set p e) := by
  intro q hq
  by_cases h : q = []
  · subst h
    rfl
  · rw [entry?_set d p q e h, if_neg (by rintro rfl; exact hp hq), hq]

theorem moved_keepsDirectories {d : Disk} {p q : Path} (e : Entry)
    (hp : d.entry? p ≠ some .directory) (hq : d.entry? q ≠ some .directory) :
    d.KeepsDirectories ((d.erase p).set q e) := by
  intro r hr
  by_cases h : r = []
  · subst h
    rfl
  · rw [entry?_set _ q r e h, if_neg (by rintro rfl; exact hq hr), entry?_erase d p r h,
      if_neg (by rintro rfl; exact hp hr), hr]

/-- Only the last name may lead to something other than a directory that is there. -/
theorem walk_cons {d : Disk} {p p' : Path} {name : String} {names : List String}
    (hn : names ≠ []) (hp : step p name = .ok p') (he : d.entry? p' = some .directory) :
    d.walk p (name :: names) = d.walk p' names := by
  cases names with
  | nil => exact absurd rfl hn
  | cons next names => simp [walk, hp, he, bind, Except.bind]

theorem walk_cons_ok {d : Disk} {p q : Path} {name : String} {names : List String}
    (hn : names ≠ []) (h : d.walk p (name :: names) = .ok q) : ∃ p', step p name = .ok p' ∧
      d.entry? p' = some .directory ∧ d.walk p' names = .ok q := by
  cases names with
  | nil => exact absurd rfl hn
  | cons next names =>
    simp only [walk, bind_ok] at h
    obtain ⟨p', hp, h⟩ := h
    cases he : d.entry? p' with
    | none => simp [he] at h
    | some e =>
      cases e with
      | directory =>
        rw [he] at h
        exact ⟨p', hp, he, h⟩
      | file text => simp [he] at h

theorem walk_mono {d d' : Disk} (hk : d.KeepsDirectories d') {p q : Path} {names : List String}
    (h : d.walk p names = .ok q) : d'.walk p names = .ok q := by
  induction names generalizing p with
  | nil => exact h
  | cons name names ih =>
    by_cases hn : names = []
    · subst hn
      exact h
    · obtain ⟨p', hp, he, h⟩ := walk_cons_ok hn h
      rw [walk_cons hn hp (hk p' he)]
      exact ih h

theorem place_mono {d d' : Disk} (hk : d.KeepsDirectories d') {r : Route} {p : Path}
    (h : d.place r = .ok p) : d'.place r = .ok p := by
  unfold place at h ⊢
  split
  · rename_i hc
    simp [hc] at h
  · rename_i hc
    rw [hc] at h
    exact walk_mono hk h

/-- All the names lead on to directories that are there. -/
def HasDirectories (d : Disk) : Path → List String → Prop
  | _, [] => True
  | p, name :: names => ∃ q, step p name = .ok q ∧ d.entry? q = some .directory ∧
      d.HasDirectories q names

theorem HasDirectories.mono {d d' : Disk} (hk : d.KeepsDirectories d') {p : Path}
    {names : List String} (h : d.HasDirectories p names) : d'.HasDirectories p names := by
  induction names generalizing p with
  | nil => trivial
  | cons name names ih =>
    obtain ⟨q, hq, he, h⟩ := h
    exact ⟨q, hq, hk q he, ih h⟩

/-- Where no directory is missing none is made. -/
theorem HasDirectories.makeBelow {d : Disk} {p : Path} {names : List String}
    (h : d.HasDirectories p names) : d.makeBelow p names = (.ok (), d) := by
  induction names generalizing p with
  | nil => rfl
  | cons name names ih =>
    obtain ⟨q, hq, he, h⟩ := h
    simp only [Disk.makeBelow, hq, he]
    exact ih h

/-- What a file that is put down leaves: it stands at the end of the route, where no directory
was. -/
theorem put_cases {d d' : Disk} {r : Route} {text : Option String} (h : d.put r text = .ok d') :
    ∃ p, d.place r = .ok p ∧ d.entry? p ≠ some .directory ∧ r.asksForDirectory = false ∧
      d' = d.set p (.file text) := by
  simp only [put, bind_ok] at h
  obtain ⟨p, hp, h⟩ := h
  split at h
  · cases h
  · rename_i hd
    simp only [isDirectory, Bool.or_eq_true, beq_iff_eq, not_or, Bool.not_eq_true] at hd
    cases h
    exact ⟨p, hp, hd.1, hd.2, rfl⟩

theorem put_of_place {d : Disk} {r : Route} {p : Path} (text : Option String)
    (hp : d.place r = .ok p) (hd : d.entry? p ≠ some .directory)
    (hr : r.asksForDirectory = false) : d.put r text = .ok (d.set p (.file text)) := by
  simp only [put, bind_ok]
  refine ⟨p, hp, ?_⟩
  rw [if_neg (by simp [isDirectory, hd, hr])]
  rfl

theorem entry_cases {d : Disk} {r : Route} {e : Entry} (h : d.entry r = .ok e) :
    ∃ p, d.place r = .ok p ∧ d.entry? p = some e ∧
      (e = .directory ∨ r.asksForDirectory = false) := by
  simp only [entry, bind_ok] at h
  obtain ⟨p, hp, h⟩ := h
  refine ⟨p, hp, ?_⟩
  split at h
  · cases h
  · rename_i text he
    split at h
    · cases h
    · rename_i hr
      cases h
      exact ⟨he, Or.inr (by simpa using hr)⟩
  · rename_i he
    cases h
    exact ⟨he, Or.inl rfl⟩

theorem entry_of_place {d : Disk} {r : Route} {p : Path} {text : Option String}
    (hp : d.place r = .ok p) (he : d.entry? p = some (.file text))
    (hr : r.asksForDirectory = false) : d.entry r = .ok (.file text) := by
  simp only [entry, bind_ok]
  exact ⟨p, hp, by simp [he, hr]; rfl⟩

theorem isThere_iff {d : Disk} {r : Route} : d.isThere r = true ↔ ∃ e, d.entry r = .ok e := by
  unfold isThere
  cases d.entry r <;> simp [Except.toBool]

/-- Only a file is removed, and nothing but that file. -/
theorem removeFile_cases {d d' : Disk} {r : Route} (h : d.removeFile r = .ok d') :
    ∃ p text, d.place r = .ok p ∧ d.entry? p = some (.file text) ∧ r.asksForDirectory = false ∧
      d' = d.erase p := by
  simp only [removeFile, bind_ok] at h
  obtain ⟨e, he, h⟩ := h
  obtain ⟨p, hp, hpe, hr⟩ := entry_cases he
  cases e with
  | directory => cases h
  | file text =>
    simp only [bind_ok] at h
    obtain ⟨q, hq, h⟩ := h
    rw [hp] at hq
    cases hq
    cases h
    exact ⟨p, text, hp, hpe, hr.resolve_left (by simp), rfl⟩

theorem removeFile_of_place {d : Disk} {r : Route} {p : Path} {text : Option String}
    (hp : d.place r = .ok p) (he : d.entry? p = some (.file text))
    (hr : r.asksForDirectory = false) : d.removeFile r = .ok (d.erase p) := by
  simp only [removeFile, bind_ok]
  exact ⟨_, entry_of_place hp he hr, bind_ok.mpr ⟨p, hp, rfl⟩⟩

/-- A file that is moved stands at the end of the other route with the text it had. -/
theorem rename_cases {d d' : Disk} {source target : Route} (h : d.rename source target = .ok d') :
    ∃ p q text, d.place source = .ok p ∧ d.entry? p = some (.file text) ∧
      d.place target = .ok q ∧ d.entry? q ≠ some .directory ∧ target.asksForDirectory = false ∧
      d' = (d.erase p).set q (.file text) := by
  simp only [rename, bind_ok] at h
  obtain ⟨e, he, h⟩ := h
  obtain ⟨p, hp, hpe, _⟩ := entry_cases he
  cases e with
  | directory => cases h
  | file text =>
    simp only [bind_ok] at h
    obtain ⟨q, hq, h⟩ := h
    split at h
    · cases h
    · rename_i hfree
      simp only [isDirectory, Bool.or_eq_true, beq_iff_eq, not_or, Bool.not_eq_true] at hfree
      obtain ⟨p', hp', h⟩ := bind_ok.mp h
      rw [hp] at hp'
      cases hp'
      cases h
      exact ⟨p, q, text, hp, hpe, hq, hfree.1, hfree.2, rfl⟩

theorem rename_of_place {d : Disk} {source target : Route} {p q : Path} {text : Option String}
    (hp : d.place source = .ok p) (he : d.entry? p = some (.file text))
    (hs : source.asksForDirectory = false) (hq : d.place target = .ok q)
    (hd : d.entry? q ≠ some .directory) (ht : target.asksForDirectory = false) :
    d.rename source target = .ok ((d.erase p).set q (.file text)) := by
  simp only [rename, bind_ok]
  refine ⟨.file text, entry_of_place hp he hs, ?_⟩
  simp only [bind_ok]
  refine ⟨q, hq, ?_⟩
  rw [if_neg (by simp [isDirectory, hd, ht])]
  exact bind_ok.mpr ⟨p, hp, rfl⟩

end Storage.Disk

end Larder
