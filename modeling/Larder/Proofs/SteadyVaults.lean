import Larder.Proofs.CredentialTexts

namespace Larder.Storage

/-- A name is its stem alone, or its stem and an extension without points. -/
theorem stem_cases (name : String) : stem name = name ∨
    ∃ extension, '.' ∉ extension ∧ name.toList = (stem name).toList ++ '.' :: extension := by
  have hsplit : name.toList.reverse.takeWhile (· != '.') ++
      name.toList.reverse.dropWhile (· != '.') = name.toList.reverse :=
    List.takeWhile_append_dropWhile
  unfold stem
  cases hrest : name.toList.reverse.dropWhile (· != '.') with
  | nil => exact Or.inl rfl
  | cons point front =>
    have hpoint : point = '.' := by
      have hhead := List.head_dropWhile_not (· != '.') (l := name.toList.reverse)
        (by rw [hrest]; exact List.cons_ne_nil _ _)
      simpa [hrest] using hhead
    simp only [List.drop_succ_cons, List.drop_zero]
    split
    · exact Or.inl rfl
    · right
      refine ⟨(name.toList.reverse.takeWhile (· != '.')).reverse, ?_, ?_⟩
      · intro hm
        have hall := List.all_takeWhile (p := (· != '.')) (l := name.toList.reverse)
        simpa using List.all_eq_true.mp hall '.' (List.mem_reverse.mp hm)
      · rw [hrest, hpoint] at hsplit
        have hname := congrArg List.reverse hsplit
        simpa using hname.symm

/-- An extension with a point in it is none that the name could have had. -/
theorem stem_append_ne {extension : String} (h : '.' ∈ extension.toList) (name : String) :
    stem name ++ "." ++ extension ≠ name := by
  intro he
  have hchars : (stem name).toList ++ '.' :: extension.toList = name.toList := by
    simpa using congrArg String.toList he
  rcases stem_cases name with hs | ⟨other, hother, hname⟩
  · rw [hs] at hchars
    have hlength := congrArg List.length hchars
    simp at hlength
  · rw [hname] at hchars
    have hsame : '.' :: extension.toList = '.' :: other := List.append_cancel_left hchars
    exact hother ((List.cons.inj hsame).2 ▸ h)

namespace Disk

variable {d d' : Disk}

/-- A directory that is there with all those above it. -/
def Inside (d : Disk) (p : Path) : Prop := ∀ q, q <+: p → d.entry? q = some .directory

theorem inside_root (d : Disk) : d.Inside [] := by
  intro q hq
  rw [List.prefix_nil.mp hq]
  rfl

theorem Inside.step {p q : Path} {name : String} (h : d.Inside p) (hs : Disk.step p name = .ok q)
    (hq : d.entry? q = some .directory) : d.Inside q := by
  unfold Disk.step at hs
  split at hs
  · cases hs
    exact fun r hr => h r (hr.trans p.dropLast_prefix)
  · split at hs
    · cases hs
    · cases hs
      intro r hr
      rcases List.prefix_concat_iff.mp hr with rfl | hr
      · exact hq
      · exact h r hr

/-- What is no directory has been reached by its own name. -/
theorem Inside.step_file {p q : Path} {name : String} (h : d.Inside p)
    (hs : Disk.step p name = .ok q) (hq : d.entry? q ≠ some .directory) :
    name ≠ upName ∧ q = p ++ [name] := by
  unfold Disk.step at hs
  split at hs
  · cases hs
    exact absurd (h _ p.dropLast_prefix) hq
  · rename_i hup
    split at hs
    · cases hs
    · cases hs
      exact ⟨hup, rfl⟩

/-- Where a name leads to behind others that lead on, they lead through directories that are there,
and every other name behind them is followed from the same directory. -/
theorem hasDirectories_of_walk {p q : Path} {names : List String} {name : String}
    (hp : d.Inside p) (h : d.walk p (names ++ [name]) = .ok q) : d.HasDirectories p names ∧
      ∃ p', d.Inside p' ∧ ∀ last, d.walk p (names ++ [last]) = step p' last := by
  induction names generalizing p with
  | nil => exact ⟨trivial, p, hp, fun _ => rfl⟩
  | cons first names ih =>
    have hmore : ∀ last : String, names ++ [last] ≠ [] := by simp
    obtain ⟨p₁, hstep, he, h⟩ := walk_cons_ok (hmore name) h
    obtain ⟨hdirs, p', hp', hall⟩ := ih (hp.step hstep he) h
    refine ⟨⟨p₁, hstep, he, hdirs⟩, p', hp', fun last => ?_⟩
    exact (walk_cons (hmore last) hstep he).trans (hall last)

theorem walk_of_place {r : Route} {p : Path} (h : d.place r = .ok p) :
    d.walk [] r.names = .ok p := by
  unfold place at h
  split at h
  · cases h
  · exact h

/-- A route leads to the same end where it leads to the same place and the same is there. -/
theorem entry_congr {r : Route} (hplace : d'.place r = d.place r)
    (he : ∀ p, d.place r = .ok p → d'.entry? p = d.entry? p) : d'.entry r = d.entry r := by
  unfold entry
  rw [hplace]
  cases hp : d.place r with
  | error x => rfl
  | ok p => simp only [bind, Except.bind, he p hp]

/-- Through directories that are there a last name leads to the same place on every disk that has
them. -/
theorem HasDirectories.walk_eq {p : Path} {names : List String} (h : d.HasDirectories p names)
    (hk : d.KeepsDirectories d') (last : String) :
    d'.walk p (names ++ [last]) = d.walk p (names ++ [last]) := by
  induction names generalizing p with
  | nil => rfl
  | cons first names ih =>
    obtain ⟨q, hstep, he, h⟩ := h
    have hmore : names ++ [last] ≠ [] := by simp
    rw [List.cons_append, walk_cons hmore hstep he, walk_cons hmore hstep (hk q he)]
    exact ih h

end Disk

namespace Vault

/-- A vault whose credential is not lost when another one is saved over it. -/
def Steady (v : Vault) : Prop :=
  ∀ (c : Credential) (d : Disk), c.refreshToken ≠ "" → (v.load d).isSome →
    v.load (v.save c d).2 = v.load d ∨ v.load (v.save c d).2 = some c

section Names

variable {v : Vault} {front : List String} {name : String}

theorem leads_front (h : v.route.names = front ++ [name]) : front.filter leads = front := by
  rw [List.filter_eq_self]
  intro part hpart
  have hmem : part ∈ v.route.names := h ▸ List.mem_append_left _ hpart
  exact (List.mem_filter.mp hmem).2

theorem parent_names (h : v.route.names = front ++ [name]) : v.route.parent.names = front := by
  rw [Route.parent, h, List.dropLast_concat]
  exact leads_front h

/-- The draft stands beside the file under another name, or its route leads up. -/
theorem draft_eq (h : v.route.names = front ++ [name]) (hup : name ≠ upName) :
    ∃ last, v.draft = ⟨front ++ [last]⟩ ∧ leads last = true ∧ last ≠ name := by
  have hmarked : leads (stem name ++ "." ++ "json.tmp") = true := by
    have hpoint : 9 ≤ (stem name ++ "." ++ "json.tmp").toList.length := by simp
    unfold leads
    rw [Bool.and_eq_true, bne_iff_ne, bne_iff_ne]
    refine ⟨?_, ?_⟩
    all_goals
      intro he
      rw [he] at hpoint
      revert hpoint
      decide
  simp only [draft, Route.withExtension, h, List.getLast?_concat, if_neg hup, List.dropLast_concat]
  split
  · exact ⟨upName, rfl, by decide, hup.symm⟩
  · exact ⟨stem name ++ "." ++ "json.tmp", rfl, hmarked, stem_append_ne (by decide) name⟩

theorem draft_names {last : String} (h : v.route.names = front ++ [name])
    (hdraft : v.draft = ⟨front ++ [last]⟩) (hlast : leads last = true) :
    v.draft.names = front ++ [last] := by
  simp [hdraft, Route.names, leads_front h, hlast]

theorem exists_draft_names (h : v.route.names = front ++ [name]) (hup : name ≠ upName) :
    ∃ last, v.draft.names = front ++ [last] := by
  obtain ⟨last, hdraft, hlast, -⟩ := draft_eq h hup
  exact ⟨last, draft_names h hdraft hlast⟩

theorem draft_plain (h : v.route.names = front ++ [name]) (hup : name ≠ upName) :
    v.draft.asksForDirectory = false := by
  obtain ⟨last, hdraft, hlast, -⟩ := draft_eq h hup
  simp [hdraft, Route.asksForDirectory, hlast]

/-- Whatever becomes of the draft, the file is where and what it was. -/
theorem entry_beside_draft {d d' : Disk} {q : Path} (h : v.route.names = front ++ [name])
    (hup : name ≠ upName) (hq : d.place v.draft = .ok q) (hqd : d.entry? q ≠ some .directory)
    (hk : d.KeepsDirectories d') (he : ∀ p, p ≠ q → d'.entry? p = d.entry? p) :
    d'.entry v.route = d.entry v.route := by
  obtain ⟨last, hdraft, hlast, hne⟩ := draft_eq h hup
  have hqwalk := Disk.walk_of_place hq
  rw [draft_names h hdraft hlast] at hqwalk
  obtain ⟨hdirs, p', hinside, hall⟩ := Disk.hasDirectories_of_walk (Disk.inside_root d) hqwalk
  have hplace : d'.place v.route = d.place v.route := by
    unfold Disk.place
    split
    · rfl
    · rw [h]
      exact hdirs.walk_eq hk name
  refine Disk.entry_congr hplace fun p hp => he p ?_
  -- both names are followed from the same directory, so they lead to different places
  have hpwalk := Disk.walk_of_place hp
  rw [h, hall] at hpwalk
  rw [hall] at hqwalk
  obtain ⟨-, rfl⟩ := hinside.step_file hqwalk hqd
  rintro rfl
  obtain ⟨-, hsame⟩ := hinside.step_file hpwalk hqd
  simp [hne] at hsame

end Names

/-- A credential is read from a file, and that has a name. -/
theorem file_of_load {v : Vault} {d : Disk} (h : (v.load d).isSome) : ∃ p text front name,
    d.place v.route = .ok p ∧ d.entry? p = some (.file text) ∧ v.route.names = front ++ [name] := by
  cases he : d.entry v.route with
  | error x =>
    have hthere : v.isThere d = false := by simp [isThere, he, Except.toBool]
    rw [load_of_not_there hthere] at h
    cases h
  | ok e =>
    obtain ⟨p, hp, hpe, _⟩ := Disk.entry_cases he
    cases e with
    | directory =>
      simp [load, he, Entry.text, bind, Except.bind, Except.toOption] at h
    | file text =>
      rcases List.eq_nil_or_concat v.route.names with hroot | ⟨front, name, hnames⟩
      · have hwalk := Disk.walk_of_place hp
        rw [hroot] at hwalk
        cases hwalk
        cases hpe
      · exact ⟨p, text, front, name, hp, hpe, hnames.trans List.concat_eq_append⟩

theorem load_congr {v : Vault} {D E : Type} [FileSystem D] [FileSystem E] {d : D} {e : E}
    (h : (FileSystem.entry e v.route).toOption = (FileSystem.entry d v.route).toOption) :
    v.load e = v.load d := by
  have hbind : ∀ x : Except Refusal Entry,
      (x >>= Entry.text).toOption = x.toOption.bind fun e => e.text.toOption := by
    intro x
    cases x <;> rfl
  unfold load
  rw [hbind, hbind, h]

theorem isThere_congr {v : Vault} {D E : Type} [FileSystem D] [FileSystem E] {d : D} {e : E}
    (h : (FileSystem.entry e v.route).toOption = (FileSystem.entry d v.route).toOption) :
    v.isThere e = v.isThere d := by
  have hsome : ∀ x : Except Refusal Entry, x.toBool = x.toOption.isSome := by
    intro x
    cases x <;> rfl
  unfold isThere
  rw [hsome, hsome, h]

/-- A refused save has made directories at most, or has put down the draft as well. -/
theorem save_failed {D : Type} [FileSystem D] {v : Vault} {c : Credential} {d d' : D}
    {x : Refusal} (h : v.save c d = (.error x, d')) : d' = (v.ensureDirectory d).2 ∨
      ∃ d₁, v.ensureDirectory d = (.ok (), d₁) ∧
        FileSystem.put d₁ v.draft (some c.fileText) = .ok d' ∧
        FileSystem.rename d' v.draft v.route = .error x := by
  unfold save at h
  split at h
  · rename_i hd
    cases h
    exact Or.inl (by rw [hd])
  · rename_i d₁ hd
    split at h
    · cases h
      exact Or.inl (by rw [hd])
    · rename_i hp
      split at h
      · rename_i hr
        cases h
        exact Or.inr ⟨d₁, hd, hp, hr⟩
      · cases h

/-- With or without the draft the same is loaded. -/
theorem load_put_draft {v : Vault} {d d' : Disk} {front : List String} {name : String}
    {text : Option String} (h : v.route.names = front ++ [name]) (hup : name ≠ upName)
    (hput : d.put v.draft text = .ok d') : v.load d' = v.load d := by
  obtain ⟨q, hq, hqd, _, rfl⟩ := Disk.put_cases hput
  exact load_congr (congrArg Except.toOption (entry_beside_draft h hup hq hqd
    (Disk.set_keepsDirectories _ hqd) fun p hp => Disk.entry?_set_of_ne d _ hp))

/-- The file that a credential is read from is in directories that are there. -/
theorem hasDirectories_of_load {v : Vault} {d : Disk} {front : List String} {name : String}
    (hnames : v.route.names = front ++ [name]) (h : (v.load d).isSome) :
    d.HasDirectories [] front ∧ name ≠ upName := by
  obtain ⟨p, text, _, _, hp, hpe, _⟩ := file_of_load h
  have hwalk := Disk.walk_of_place hp
  rw [hnames] at hwalk
  obtain ⟨hdirs, p', hinside, hall⟩ := Disk.hasDirectories_of_walk (Disk.inside_root d) hwalk
  rw [hall] at hwalk
  exact ⟨hdirs, (hinside.step_file hwalk (by simp [hpe])).1⟩

/-- No vault loses a credential by saving another. -/
theorem steady (v : Vault) : v.Steady := by
  intro c d hc hload
  obtain ⟨_, _, front, name, _, _, hnames⟩ := file_of_load hload
  obtain ⟨hdirs, hup⟩ := hasDirectories_of_load hnames hload
  have hdir : (v.ensureDirectory d).2 = d := by
    rw [ensureDirectory, Disk.fileSystem_makeDirectories, Disk.makeDirectories]
    split
    · rfl
    · rw [parent_names hnames, hdirs.makeBelow]
  cases hs : v.save c d with
  | mk result d' =>
    cases result with
    | ok u => exact Or.inr (load_of_saved hs hc)
    | error x =>
      refine Or.inl ?_
      rcases save_failed hs with rfl | ⟨d₁, hd, hput, -⟩
      · rw [hdir]
      · rw [hd] at hdir
        cases hdir
        exact load_put_draft hnames hup hput

end Vault

end Larder.Storage
