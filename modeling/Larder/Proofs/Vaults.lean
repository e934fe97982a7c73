import Larder.Proofs.Disks
import Larder.Storage.Vault

namespace Larder.Storage.Vault

theorem save_cases {D : Type} [FileSystem D] {v : Vault} {c : Credential} {d d' : D}
    (h : v.save c d = (.ok (), d')) : ∃ d₁ d₂, v.ensureDirectory d = (.ok (), d₁) ∧
      FileSystem.put d₁ v.draft (some c.fileText) = .ok d₂ ∧
      FileSystem.rename d₂ v.draft v.route = .ok d' := by
  unfold save at h
  split at h
  · cases h
  · rename_i d₁ hd
    split at h
    · cases h
    · rename_i d₂ hp
      split at h
      · cases h
      · rename_i d₃ hr
        cases h
        exact ⟨d₁, d₂, hd, hp, hr⟩

theorem save_of_steps {D : Type} [FileSystem D] {v : Vault} {c : Credential} {d d₁ d₂ d' : D}
    (hd : v.ensureDirectory d = (.ok (), d₁))
    (hp : FileSystem.put d₁ v.draft (some c.fileText) = .ok d₂)
    (hr : FileSystem.rename d₂ v.draft v.route = .ok d') : v.save c d = (.ok (), d') := by
  unfold save
  rw [hd]
  dsimp only
  rw [hp]
  dsimp only
  rw [hr]

/-- After a save the file holds the text of the credential. -/
theorem read_save {v : Vault} {c : Credential} {d d' : Disk} (h : v.save c d = (.ok (), d')) :
    d'.read v.route = .ok c.fileText := by
  obtain ⟨d₁, d₂, _, hput, hmove⟩ := save_cases h
  obtain ⟨p, hp, hpd, _, rfl⟩ := Disk.put_cases hput
  obtain ⟨p', q, text, hp', he, hq, hqd, hfile, rfl⟩ := Disk.rename_cases hmove
  have hkeep := Disk.set_keepsDirectories (.file (some c.fileText)) hpd
  rw [Disk.place_mono hkeep hp] at hp'
  cases hp'
  have hroot : p ≠ [] := by
    rintro rfl
    exact hpd rfl
  have htext : text = some c.fileText := by
    rw [Disk.entry?_set _ _ _ _ hroot, if_pos rfl] at he
    cases he
    rfl
  have hqroot : q ≠ [] := by
    rintro rfl
    exact hqd rfl
  have hpd' : Disk.entry? (d₁.set p (.file (some c.fileText))) p ≠ some .directory := by simp [he]
  have hplace := Disk.place_mono (Disk.moved_keepsDirectories (.file text) hpd' hqd) hq
  have hentry := Disk.entry_of_place hplace
    (by rw [Disk.entry?_set _ _ _ _ hqroot, if_pos rfl]) hfile
  simp only [Disk.read, bind_ok]
  exact ⟨_, hentry, by rw [htext]; rfl⟩

/-- After a deletion there is no file. -/
theorem isThere_delete {v : Vault} {d d' : Disk} (h : v.delete d = .ok d') :
    v.isThere d' = false := by
  unfold delete at h
  split at h
  · obtain ⟨p, text, hp, hpe, _, rfl⟩ := Disk.removeFile_cases h
    have hkeep : d.KeepsDirectories (d.erase p) :=
      Disk.erase_keepsDirectories (by rw [hpe]; simp)
    have hroot : p ≠ [] := by
      rintro rfl
      cases hpe
    apply Bool.eq_false_iff.mpr
    intro ht
    obtain ⟨e, he⟩ := Disk.isThere_iff.mp ht
    obtain ⟨p', hp', hpe', _⟩ := Disk.entry_cases he
    rw [Disk.place_mono hkeep hp] at hp'
    cases hp'
    rw [Disk.entry?_erase _ _ _ hroot, if_pos rfl] at hpe'
    cases hpe'
  · rename_i hn
    cases h
    simpa using hn

/-- Without a file there is no credential. -/
theorem load_of_not_there {D : Type} [FileSystem D] {v : Vault} {d : D}
    (h : v.isThere d = false) : v.load d = none := by
  unfold isThere at h
  unfold load
  cases he : FileSystem.entry d v.route with
  | error x => rfl
  | ok e => simp [he, Except.toBool] at h

/-- The disks that the vault's own doings lead to. -/
inductive Leads (v : Vault) (d : Disk) : Disk → Prop where
  | here : Leads v d d
  | save {d' : Disk} (c : Credential) (h : Leads v d d') : Leads v d (v.save c d').2
  | delete {d' d'' : Disk} (h : Leads v d d') (hd : v.delete d' = .ok d'') : Leads v d d''

/-- Nothing that the vault does is refused, from this disk on. -/
def ServedBy (v : Vault) (d : Disk) : Prop :=
  ∀ d', v.Leads d d' → (∀ c, (v.save c d').1 = .ok ()) ∧ ∃ d'', v.delete d' = .ok d''

theorem Leads.trans {v : Vault} {d d' d'' : Disk} (h : v.Leads d d') (h' : v.Leads d' d'') :
    v.Leads d d'' := by
  induction h' with
  | here => exact h
  | save c _ ih => exact .save c ih
  | delete _ hd ih => exact .delete ih hd

theorem ServedBy.leads {v : Vault} {d d' : Disk} (h : v.ServedBy d) (hl : v.Leads d d') :
    v.ServedBy d' := fun d'' hl' => h d'' (hl.trans hl')

theorem ServedBy.read_save {v : Vault} {d : Disk} (h : v.ServedBy d) (c : Credential) :
    (v.save c d).2.read v.route = .ok c.fileText :=
  Vault.read_save (Prod.ext ((h d .here).1 c) rfl)

/-- A vault in directories that are there: the file and its draft have places of their own, where
no directory stands. -/
structure Housed (v : Vault) (file draft : Path) (d : Disk) : Prop where
  named : Disk.complaint? v.route.parent = none
  directories : d.HasDirectories [] v.route.parent.names
  filePlace : d.place v.route = .ok file
  fileFree : d.entry? file ≠ some .directory
  filePlain : v.route.asksForDirectory = false
  draftPlace : d.place v.draft = .ok draft
  draftFree : d.entry? draft ≠ some .directory
  draftPlain : v.draft.asksForDirectory = false
  apart : file ≠ draft

theorem Housed.root {v : Vault} {file draft : Path} {d : Disk} (h : v.Housed file draft d) :
    file ≠ [] ∧ draft ≠ [] := by
  refine ⟨?_, ?_⟩
  · rintro rfl
    exact h.fileFree rfl
  · rintro rfl
    exact h.draftFree rfl

theorem Housed.mono {v : Vault} {file draft : Path} {d d' : Disk} (h : v.Housed file draft d)
    (hk : d.KeepsDirectories d') (hf : d'.entry? file ≠ some .directory)
    (hd : d'.entry? draft ≠ some .directory) : v.Housed file draft d' where
  named := h.named
  directories := h.directories.mono hk
  filePlace := Disk.place_mono hk h.filePlace
  fileFree := hf
  filePlain := h.filePlain
  draftPlace := Disk.place_mono hk h.draftPlace
  draftFree := hd
  draftPlain := h.draftPlain
  apart := h.apart

theorem Housed.set {v : Vault} {file draft p : Path} {d : Disk} (h : v.Housed file draft d)
    (text : Option String) (hp : d.entry? p ≠ some .directory) :
    v.Housed file draft (d.set p (.file text)) := by
  obtain ⟨hf, hd⟩ := h.root
  refine h.mono (Disk.set_keepsDirectories _ hp) ?_ ?_
  · rw [Disk.entry?_set _ _ _ _ hf]
    split
    · simp
    · exact h.fileFree
  · rw [Disk.entry?_set _ _ _ _ hd]
    split
    · simp
    · exact h.draftFree

theorem Housed.erase {v : Vault} {file draft p : Path} {d : Disk} (h : v.Housed file draft d)
    (hp : d.entry? p ≠ some .directory) : v.Housed file draft (d.erase p) := by
  obtain ⟨hf, hd⟩ := h.root
  refine h.mono (Disk.erase_keepsDirectories hp) ?_ ?_
  · rw [Disk.entry?_erase _ _ _ hf]
    split
    · simp
    · exact h.fileFree
  · rw [Disk.entry?_erase _ _ _ hd]
    split
    · simp
    · exact h.draftFree

theorem Housed.save {v : Vault} {file draft : Path} {d : Disk} (h : v.Housed file draft d)
    (c : Credential) : (v.save c d).1 = .ok () ∧ v.Housed file draft (v.save c d).2 := by
  have hdir : v.ensureDirectory d = (.ok (), d) := by
    rw [ensureDirectory, Disk.fileSystem_makeDirectories, Disk.makeDirectories, h.named]
    exact h.directories.makeBelow
  let text := some c.fileText
  let d₁ := d.set draft (.file text)
  have h₁ : v.Housed file draft d₁ := h.set text h.draftFree
  have hput : d.put v.draft text = .ok d₁ :=
    Disk.put_of_place text h.draftPlace h.draftFree h.draftPlain
  have hdraft : d₁.entry? draft = some (.file text) := by
    rw [Disk.entry?_set _ _ _ _ h.root.2, if_pos rfl]
  have h₂ : v.Housed file draft (d₁.erase draft) := h₁.erase h₁.draftFree
  have hmove : d₁.rename v.draft v.route = .ok ((d₁.erase draft).set file (.file text)) :=
    Disk.rename_of_place h₁.draftPlace hdraft h₁.draftPlain h₁.filePlace h₁.fileFree h₁.filePlain
  rw [save_of_steps hdir hput hmove]
  exact ⟨rfl, h₂.set text h₂.fileFree⟩

theorem Housed.delete {v : Vault} {file draft : Path} {d : Disk} (h : v.Housed file draft d) :
    ∃ d', v.delete d = .ok d' ∧ v.Housed file draft d' := by
  unfold Vault.delete
  split
  · rename_i hthere
    obtain ⟨e, he⟩ := Disk.isThere_iff.mp hthere
    obtain ⟨p, hp, hpe, _⟩ := Disk.entry_cases he
    rw [h.filePlace] at hp
    cases hp
    cases e with
    | directory => exact absurd hpe h.fileFree
    | file text =>
      exact ⟨d.erase file, Disk.removeFile_of_place h.filePlace hpe h.filePlain,
        h.erase h.fileFree⟩
  · exact ⟨d, rfl, h⟩

/-- A vault in directories that are there is never refused anything. -/
theorem Housed.servedBy {v : Vault} {file draft : Path} {d : Disk} (h : v.Housed file draft d) :
    v.ServedBy d := by
  have stays : ∀ d', v.Leads d d' → v.Housed file draft d' := by
    intro d' hl
    induction hl with
    | here => exact h
    | save c _ ih => exact (ih.save c).2
    | delete _ hd ih =>
      obtain ⟨e, he, hh⟩ := ih.delete
      rw [hd] at he
      cases he
      exact hh
  intro d' hl
  have h' := stays d' hl
  obtain ⟨d'', hd, _⟩ := h'.delete
  exact ⟨fun c => (h'.save c).1, d'', hd⟩

end Larder.Storage.Vault
