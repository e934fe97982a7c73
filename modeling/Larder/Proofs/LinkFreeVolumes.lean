import Larder.Proofs.MadeDirectories
import Larder.Proofs.Vaults

namespace Larder.Storage

/-- What one place to keep files in does is done by the other, with the same answers. -/
structure Carries {D E : Type} [FileSystem D] [FileSystem E] (f : D → E) : Prop where
  makeDirectories : ∀ d r, FileSystem.makeDirectories (f d) r =
    ((FileSystem.makeDirectories d r).1, f (FileSystem.makeDirectories d r).2)
  put : ∀ d r text, FileSystem.put (f d) r text = (FileSystem.put d r text).map f
  rename : ∀ d source target,
    FileSystem.rename (f d) source target = (FileSystem.rename d source target).map f
  removeFile : ∀ d r, FileSystem.removeFile (f d) r = (FileSystem.removeFile d r).map f
  entry : ∀ d r, FileSystem.entry (f d) r = FileSystem.entry d r

namespace Vault

variable {D E : Type} [FileSystem D] [FileSystem E] {f : D → E} {v : Vault} {d : D}

theorem save_carried (h : Carries f) (c : Credential) :
    v.save c (f d) = ((v.save c d).1, f (v.save c d).2) := by
  unfold save ensureDirectory
  rw [h.makeDirectories]
  obtain ⟨x, d₁⟩ := FileSystem.makeDirectories d v.route.parent
  cases x with
  | error x => rfl
  | ok _ =>
    dsimp only
    rw [h.put]
    cases FileSystem.put d₁ v.draft (some c.fileText) with
    | error x => rfl
    | ok d₂ =>
      dsimp only [Except.map]
      rw [h.rename]
      cases FileSystem.rename d₂ v.draft v.route <;> rfl

theorem load_carried (h : Carries f) : v.load (f d) = v.load d := by
  unfold load
  rw [h.entry]

theorem isThere_carried (h : Carries f) : v.isThere (f d) = v.isThere d := by
  unfold isThere
  rw [h.entry]

theorem delete_carried (h : Carries f) : v.delete (f d) = (v.delete d).map f := by
  unfold delete
  rw [isThere_carried h, h.removeFile]
  split <;> rfl

end Vault

namespace Volume

variable {d : Disk} {p q : Path} {names done : List String} {name : String}

theorem isDirectory_ofDisk (d : Disk) (p : Path) :
    (ofDisk d).isDirectory p = d.isDirectory p := by
  unfold isDirectory Disk.isDirectory
  rw [node?_ofDisk]
  cases d.entry? p with
  | none => rfl
  | some e => cases e <;> rfl

theorem erase_ofDisk (d : Disk) (p : Path) : (ofDisk d).erase p = ofDisk (d.erase p) := by
  simp only [ofDisk, erase, Disk.erase, List.filter_map]
  rfl

theorem set_ofDisk (d : Disk) (p : Path) (e : Entry) :
    (ofDisk d).set p (.ofEntry e) = ofDisk (d.set p e) := by
  unfold Volume.set
  rw [erase_ofDisk]
  rfl

theorem node?_ofDisk_eq_directory : (ofDisk d).node? p = some .directory ↔
    d.entry? p = some .directory := by
  rw [node?_ofDisk]
  cases d.entry? p with
  | none => simp
  | some e => cases e <;> simp [Node.ofEntry]

/-- Without links the names of a route are followed one after the other. -/
theorem walk_ofDisk (toEnd : Bool) (links : Nat) (hnames : ∀ name ∈ names, leads name = true) :
    (ofDisk d).walk toEnd links p names = d.walk p names := by
  induction names generalizing p with
  | nil =>
    rw [walk_eq]
    rfl
  | cons name names ih =>
    rw [List.forall_mem_cons] at hnames
    rw [walk_eq]
    simp only [walkWith, step, if_pos hnames.1]
    cases hs : Disk.step p name with
    | error x => cases names <;> simp [Disk.walk, hs, bind, Except.bind]
    | ok q =>
      simp only [bind, Except.bind]
      rw [← walk_eq, ih hnames.2, node?_ofDisk]
      cases names with
      | nil =>
        cases d.entry? q with
        | none => exact hs.symm
        | some e => cases e <;> exact hs.symm
      | cons next names =>
        simp only [Disk.walk, hs, bind, Except.bind]
        cases d.entry? q with
        | none => rfl
        | some e => cases e <;> rfl

theorem names_lead (r : Route) : ∀ name ∈ r.names, leads name = true :=
  fun _ hname => (List.mem_filter.mp hname).2

theorem place_ofDisk (r : Route) : (ofDisk d).place r = d.place r := by
  unfold place Disk.place
  cases Disk.complaint? r with
  | some x => rfl
  | none => exact walk_ofDisk false mostLinks (names_lead r)

theorem goal_ofDisk (r : Route) : (ofDisk d).goal r = d.place r := by
  unfold goal Disk.place
  cases Disk.complaint? r with
  | some x => rfl
  | none => exact walk_ofDisk true mostLinks (names_lead r)

theorem entry_ofDisk (r : Route) : (ofDisk d).entry r = d.entry r := by
  unfold entry Disk.entry
  rw [goal_ofDisk]
  cases d.place r with
  | error x => rfl
  | ok p =>
    simp only [bind, Except.bind]
    rw [node?_ofDisk]
    cases d.entry? p with
    | none => rfl
    | some e => cases e <;> rfl

theorem put_ofDisk (r : Route) (text : Option String) :
    (ofDisk d).put r text = (d.put r text).map ofDisk := by
  unfold put Disk.put
  rw [goal_ofDisk]
  cases d.place r with
  | error x => rfl
  | ok p =>
    simp only [bind, Except.bind, isDirectory_ofDisk]
    split
    · rfl
    · have hwrite : (ofDisk d).write p text = ofDisk (d.set p (.file text)) := by
        rw [← set_ofDisk]
        unfold write
        rw [node?_ofDisk]
        cases d.entry? p with
        | none => rfl
        | some e => cases e <;> rfl
      rw [hwrite]
      rfl

theorem isSameFile_ofDisk (d : Disk) (p q : Path) : (ofDisk d).isSameFile p q = false := by
  rw [← Bool.not_eq_true, isSameFile_iff]
  rintro ⟨_, _, _, hp, -⟩
  rw [node?_ofDisk] at hp
  cases he : d.entry? p with
  | none => simp [he] at hp
  | some e => cases e <;> simp [he, Node.ofEntry] at hp

theorem rename_ofDisk (source target : Route) :
    (ofDisk d).rename source target = (d.rename source target).map ofDisk := by
  unfold rename Disk.rename Disk.entry
  rw [place_ofDisk, place_ofDisk]
  cases d.place source with
  | error x => rfl
  | ok p =>
    simp only [bind, Except.bind]
    rw [node?_ofDisk]
    cases d.entry? p with
    | none => rfl
    | some e =>
      cases e with
      | directory => rfl
      | file text =>
        simp only [Option.map_some, Node.ofEntry]
        split
        · rfl
        · cases d.place target with
          | error x => rfl
          | ok q =>
            simp only [pure, Except.pure, isDirectory_ofDisk, isSameFile_ofDisk, erase_ofDisk]
            split
            · rfl
            · exact congrArg Except.ok (set_ofDisk (d.erase p) q (.file text))

theorem removeFile_ofDisk (r : Route) :
    (ofDisk d).removeFile r = (d.removeFile r).map ofDisk := by
  unfold removeFile Disk.removeFile Disk.entry
  rw [place_ofDisk]
  cases d.place r with
  | error x => rfl
  | ok p =>
    simp only [bind, Except.bind]
    rw [node?_ofDisk]
    cases d.entry? p with
    | none => rfl
    | some e =>
      cases e with
      | directory => rfl
      | file text =>
        simp only [Option.map_some, Node.ofEntry]
        split
        · rfl
        · exact congrArg Except.ok (erase_ofDisk d p)

/-- Directories are made one below the other on a disk, and by their whole routes on a volume. -/
theorem makeBelow_ofDisk {left : Nat} (hnames : ∀ name ∈ names, leads name = true)
    (hway : (ofDisk d).Way true mostLinks [] done p left) (hp : d.entry? p = some .directory) :
    (ofDisk d).makeBelow done names =
      ((d.makeBelow p names).1, ofDisk (d.makeBelow p names).2) := by
  induction names generalizing d done p left with
  | nil => rfl
  | cons name names ih =>
    rw [List.forall_mem_cons] at hnames
    have hwalk : ∀ toEnd, (ofDisk d).walk toEnd mostLinks [] (done ++ [name]) =
        Disk.step p name := by
      intro toEnd
      rw [hway.walk_append (node?_ofDisk_eq_directory.mpr hp) (by simp),
        walk_ofDisk toEnd left (by simp [hnames.1])]
      rfl
    have hstep : step p name = Disk.step p name := if_pos hnames.1
    rw [makeBelow, Disk.makeBelow]
    cases hs : Disk.step p name with
    | error x =>
      rw [hs] at hwalk
      simp [leadsToDirectory, hwalk]
    | ok q =>
      rw [hs] at hwalk hstep
      have hlead : (ofDisk d).leadsToDirectory (done ++ [name]) = d.isDirectory q := by
        rw [leadsToDirectory, hwalk]
        exact isDirectory_ofDisk d q
      rw [hlead, hwalk]
      dsimp only
      rw [node?_ofDisk]
      cases he : d.entry? q with
      | none =>
        have hfree : (ofDisk d).node? q = none := by
          rw [node?_ofDisk, he]
          rfl
        have hkeeps := (grown_set hfree).keepsWays
        have hset : (ofDisk d).set q .directory = ofDisk (d.set q .directory) :=
          set_ofDisk d q .directory
        rw [hset] at hkeeps
        have hself : Disk.entry? (d.set q .directory) q = some .directory := by
          have hroot : q ≠ [] := by
            rintro rfl
            cases he
          rw [Disk.entry?_set _ _ _ _ hroot, if_pos rfl]
        have hway' : (ofDisk (d.set q .directory)).Way true mostLinks [] (done ++ [name]) q left :=
          (hway.mono hkeeps).append (hkeeps.directory p (node?_ofDisk_eq_directory.mpr hp))
            (.into hstep (node?_ofDisk_eq_directory.mpr hself) .here) (by simp)
        simp only [Disk.isDirectory, he]
        rw [← ih hnames.2 hway' hself, ← hset]
        rfl
      | some e =>
        cases e with
        | directory =>
          simp only [Disk.isDirectory, he, BEq.rfl, ↓reduceIte]
          exact ih hnames.2 (hway.append (node?_ofDisk_eq_directory.mpr hp)
            (.into hstep (node?_ofDisk_eq_directory.mpr he) .here) (by simp)) he
        | file text =>
          have hsome : ((ofDisk d).node? q).isSome = true := by
            rw [node?_ofDisk, he]
            rfl
          simp [Disk.isDirectory, he, obstacle, hwalk, hsome]

theorem makeDirectories_ofDisk (r : Route) : (ofDisk d).makeDirectories r =
    ((d.makeDirectories r).1, ofDisk (d.makeDirectories r).2) := by
  unfold makeDirectories Disk.makeDirectories
  cases Disk.complaint? r with
  | some x => rfl
  | none => exact makeBelow_ofDisk (names_lead r) .here rfl

/-- A disk is a volume without links, on which no file has two names. -/
theorem carries_ofDisk : Carries ofDisk where
  makeDirectories _ := makeDirectories_ofDisk
  put _ := put_ofDisk
  rename _ := rename_ofDisk
  removeFile _ := removeFile_ofDisk
  entry _ := entry_ofDisk

end Volume

/-- Whatever a vault does on a disk it does on a volume that has no more on it. -/
theorem Vault.carried_ofDisk (v : Vault) (c : Credential) (d : Disk) :
    v.save c (Volume.ofDisk d) = ((v.save c d).1, .ofDisk (v.save c d).2) ∧
      v.load (Volume.ofDisk d) = v.load d ∧ v.isThere (Volume.ofDisk d) = v.isThere d ∧
      v.delete (Volume.ofDisk d) = (v.delete d).map .ofDisk :=
  ⟨save_carried Volume.carries_ofDisk c, load_carried Volume.carries_ofDisk,
    isThere_carried Volume.carries_ofDisk, delete_carried Volume.carries_ofDisk⟩

end Larder.Storage
