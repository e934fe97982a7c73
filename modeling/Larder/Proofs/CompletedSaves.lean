import Larder.Proofs.MadeDirectories
import Larder.Proofs.SteadyVaults

namespace Larder.Storage

namespace Volume

variable {d d' : Volume} {p q r f g : Path} {links left left' : Nat} {parts : List String}
  {name last target : String}

/-- A link that has been given another name in its directory leads on to what it has led to. -/
theorem Way.through_moved (ho : d.Orderly) (hl : d.node? q = some (.link target))
    (hway : d.Way true links [] parts p left) (hp : d.node? p = some .directory)
    (hlast : step p last = .ok q) (hgoal : d.Way true left p [last] g left')
    (hg : d.node? g ≠ some .directory) (hname : step p name = .ok f)
    (hk : ∀ r n, way? (d.erase q) r = some n → d'.way? r = some n)
    (hf : d'.node? f = some (.link target)) (hg' : ∀ other, d'.node? g ≠ some (.link other)) :
    d'.Way true links [] (parts ++ [name]) g left' := by
  cases hgoal with
  | into hs hdir _ =>
    cases hs.symm.trans hlast
    rw [hl] at hdir
    cases hdir
  | last hs _ hend =>
    cases hs.symm.trans hlast
    cases hend target hl
  | @along k _ _ _ _ _ other _ hs hlink _ hbehind =>
    cases hs.symm.trans hlast
    cases hlink.symm.trans hl
    rw [List.append_nil, ← ho.dropLast_of_step hp hlast (by simp [hl])] at hbehind
    -- neither the way to the directory nor what is behind the link leads through it
    have hbehind' := (hbehind.avoids_self ho hl hg).carry hk hg'
    have hpq : p ≠ q := by
      rintro rfl
      rw [hp] at hl
      cases hl
    have hp' : d'.node? p = some .directory := by
      rw [← way?_eq_some_iff rfl]
      apply hk
      rw [way?_eq_some_iff rfl, node?_erase_of_ne d hpq, hp]
    have hway' := (Way.avoids ho hl hbehind hg hway (node?_root d) hp).carry hk (by simp [hp'])
    rw [ho.dropLast_of_step hp hlast (by simp [hl])] at hbehind'
    refine hway'.append hp' (.along hname hf (fun _ => rfl) ?_) (by simp)
    rwa [List.append_nil]

end Volume

namespace Vault

variable {v : Vault} {c : Credential} {d d' : Volume} {p q f g : Path} {front : List String}
  {name : String}

/-- The way to the draft leads neither to the place of the file nor through it. -/
def Clear (v : Vault) (d : Volume) : Prop :=
  ∀ f g, d.place v.route = .ok f → d.goal v.draft = .ok g →
    g ≠ f ∧ Volume.goal (d.erase f) v.draft = .ok g

/-- The file and its draft have different places in one directory, or the draft has none. -/
theorem draft_apart (hnames : v.route.names = front ++ [name]) (hup : name ≠ upName) :
    v.draft ≠ v.route ∧
      ∀ p q, d.place v.route = .ok p → d.place v.draft = .ok q → p ≠ q := by
  obtain ⟨last, hdraft, hlast, hne⟩ := draft_eq hnames hup
  have hdnames := draft_names hnames hdraft hlast
  refine ⟨?_, ?_⟩
  · intro h
    rw [h, hnames] at hdnames
    simp [hne.symm] at hdnames
  · intro p q hp hq
    obtain ⟨-, r, _, hway, -, hstep⟩ := (Volume.place_eq_ok_iff hnames).mp hp
    obtain ⟨-, r', _, hway', -, hstep'⟩ := (Volume.place_eq_ok_iff hdnames).mp hq
    rw [(hway'.unique hway).1] at hstep'
    have hname : leads name = true :=
      (List.mem_filter.mp (show name ∈ v.route.names by simp [hnames])).2
    have hp := Volume.step_down hname hup hstep
    by_cases hlastUp : last = upName
    · -- a draft that leads up is above the directory, and the file is in it
      rw [hlastUp] at hstep'
      have hq : q = r.dropLast := by
        cases hstep'
        rfl
      intro h
      have hlength := congrArg List.length h
      simp [hp, hq] at hlength
      omega
    · have hq := Volume.step_down hlast hlastUp hstep'
      simp [hp, hq, hne.symm]

theorem ensureDirectory_orderly (v : Vault) (ho : d.Orderly) :
    Volume.Orderly (v.ensureDirectory d).2 := by
  rw [ensureDirectory, Volume.fileSystem_makeDirectories, Volume.makeDirectories]
  split
  · exact ho
  · exact ho.makeBelow [] _

theorem load_of_goal {number : Option Nat} (hg : d.goal v.route = .ok g)
    (hn : d.node? g = some (.file (some c.fileText) number))
    (hplain : v.route.asksForDirectory = false) (hc : c.refreshToken ≠ "") :
    v.load d = some c := by
  refine load_of_text ?_ hc
  rw [Volume.fileSystem_entry,
    Volume.entry_eq_ok_iff.mpr ⟨g, hg, .inr ⟨_, number, rfl, hn, hplain⟩⟩]
  rfl

/-- The directory that the file and its draft are looked up in, on a way that keeps clear of the
file's place. -/
structure Beside (v : Vault) (d : Volume) (front : List String) (name last : String)
    (f p g r : Path) (links left : Nat) : Prop where
  named : Disk.complaint? v.route = none
  way : Volume.Way (d.erase f) true Volume.mostLinks [] front r links
  directory : Volume.node? (d.erase f) r = some .directory
  file : Volume.step r name = .ok f
  draft : Volume.step r last = .ok p
  goal : Volume.Way (d.erase f) true links r [last] g left

theorem Clear.beside {last : String} (h : v.Clear d) (hnames : v.route.names = front ++ [name])
    (hdnames : v.draft.names = front ++ [last]) (hf : d.place v.route = .ok f)
    (hp : d.place v.draft = .ok p) (hg : d.goal v.draft = .ok g) :
    g ≠ f ∧ ∃ r links left, v.Beside d front name last f p g r links left := by
  obtain ⟨hgf, hgoal⟩ := h f g hf hg
  obtain ⟨hnamed, r, links, hway, -, hfile⟩ := (Volume.place_eq_ok_iff hnames).mp hf
  obtain ⟨-, r', _, hway', -, hdraft⟩ := (Volume.place_eq_ok_iff hdnames).mp hp
  rw [(hway'.unique hway).1] at hdraft
  obtain ⟨-, left, hall⟩ := Volume.goal_eq_ok_iff.mp hgoal
  rw [hdnames] at hall
  obtain ⟨r', links', hclear, hr, hlast⟩ := hall.split (Volume.node?_root _) (by simp)
  obtain ⟨rfl, rfl⟩ := (hclear.of_erase (Volume.node?_of_erase hr)).unique hway
  exact ⟨hgf, r', links', left, hnamed, hclear, hr, hfile, hdraft, hlast⟩

section Moved

variable {text : Option String} {number : Option Nat} {r : Path} {links left : Nat}
  {last target : String}

/-- A draft that is a file stands in the file's place when it has been moved. -/
theorem Beside.goal_of_file (h : v.Beside d front name last f p g r links left)
    (hnames : v.route.names = front ++ [name]) (hroot : f ≠ []) (hp : d.way? p = none) :
    Volume.goal (((d.write p text).erase p).set f (.file text number)) v.route = .ok f := by
  have hwrite := Volume.SameWays.write hp text
  have hgone := hwrite.trans (.erase ((hwrite p).trans hp))
  have hkeeps := (hgone.erase_set hroot text number).keepsWays
  have hplace := (Volume.place_eq_ok_iff hnames).mpr
    ⟨h.named, r, links, h.way.mono hkeeps, hkeeps.directory r h.directory, h.file⟩
  refine Volume.goal_of_place hnames hplace ?_
  rw [Volume.node?_set _ _ _ hroot, if_pos rfl]
  simp

/-- A draft that is a link leads from the file's place to what it has led to. -/
theorem Beside.goal_of_link (h : v.Beside d front name last f p g r links left)
    (hnames : v.route.names = front ++ [name]) (ho : d.Orderly)
    (hfd : d.node? f ≠ some .directory) (hpf : p ≠ f) (hgf : g ≠ f) (hg : d.way? g = none)
    (hl : d.node? p = some (.link target)) :
    Volume.goal (((d.write g text).erase p).set f (.link target)) v.route = .ok g := by
  have hroot := Volume.ne_nil_of_node? hfd
  have hproot : p ≠ [] := Volume.ne_nil_of_node? (d := d) (by simp [hl])
  have hwrite := Volume.SameWays.write hg text
  have hl' : Volume.node? (d.erase f) p = some (.link target) := by
    rw [Volume.node?_erase_of_ne d hpf, hl]
  have hgd : Volume.node? (d.erase f) g ≠ some .directory := by
    rw [Volume.node?_erase_of_ne d hgf]
    exact (Volume.way?_eq_none_iff.mp hg).1
  have hpg : g ≠ p := by
    rintro rfl
    simp [(Volume.way?_eq_none_iff.mp hg).2] at hl
  have hkeep : ∀ q n, Volume.way? (Volume.erase (d.erase f) p) q = some n →
      Volume.way? (((d.write g text).erase p).set f (.link target)) q = some n := by
    intro q n hq
    rw [Volume.way?_erase _ hproot, Volume.way?_erase d hroot] at hq
    rw [Volume.way?_set _ _ hroot, Volume.way?_erase _ hproot, hwrite q]
    split at hq
    · cases hq
    · rename_i hqp
      split at hq
      · cases hq
      · rename_i hqf
        rw [if_neg hqf, if_neg hqp, hq]
  have hend : ∀ other, Volume.node? (((d.write g text).erase p).set f (.link target)) g ≠
      some (.link other) := by
    intro other
    obtain ⟨_, htext⟩ := Volume.text_of_write hg text (.inl rfl)
    rw [Volume.node?_set_of_ne _ _ hgf, Volume.node?_erase_of_ne _ hpg, htext]
    simp
  refine Volume.goal_eq_ok_iff.mpr ⟨h.named, left, hnames ▸ ?_⟩
  refine Volume.Way.through_moved (ho.erase hfd) hl' h.way h.directory h.draft h.goal hgd h.file
    hkeep ?_ hend
  rw [Volume.node?_set _ _ _ hroot, if_pos rfl]

end Moved

/-- When the draft has been written and moved, the name of the file leads to what was written. -/
theorem goal_of_moved {text : Option String} {n : Node}
    (hnames : v.route.names = front ++ [name]) (hup : name ≠ upName) (ho : d.Orderly)
    (hclear : v.Clear d) (hgoal : d.goal v.draft = .ok g) (hway : d.way? g = none)
    (hp : d.place v.draft = .ok p) (hn : (d.write g text).node? p = some n)
    (hnd : n ≠ .directory) (hf : d.place v.route = .ok f) (hfd : d.node? f ≠ some .directory) :
    ∃ q number, Volume.goal (((d.write g text).erase p).set f n) v.route = .ok q ∧
      Volume.node? (((d.write g text).erase p).set f n) q = some (.file text number) := by
  obtain ⟨last, hdnames⟩ := exists_draft_names hnames hup
  obtain ⟨hgf, r, links, left, h⟩ := hclear.beside hnames hdnames hf hp hgoal
  have hpf : p ≠ f := ((draft_apart hnames hup).2 f p hf hp).symm
  have hroot := Volume.ne_nil_of_node? hfd
  obtain ⟨number, htext⟩ := Volume.text_of_write hway text (.inl rfl)
  have hlink := fun target => (Volume.SameWays.write hway text).keepsWays.link p target
  cases n with
  | directory => exact absurd rfl hnd
  | file text' number' =>
    have hgp := Volume.goal_of_place hdnames hp (by simp [hlink, hn])
    rw [hgoal] at hgp
    cases hgp
    rw [htext] at hn
    cases hn
    refine ⟨f, number, h.goal_of_file hnames hroot hway, ?_⟩
    rw [Volume.node?_set _ _ _ hroot, if_pos rfl]
  | link target =>
    have hpg : g ≠ p := by
      rintro rfl
      rw [htext] at hn
      cases hn
    refine ⟨g, number, h.goal_of_link hnames ho hfd hpf hgf hway ((hlink target).mpr hn), ?_⟩
    rw [Volume.node?_set_of_ne _ _ hgf, Volume.node?_erase_of_ne _ hpg, htext]

/-- After a save the name of the file leads to the text of the credential. -/
theorem load_of_saved_clear (hnames : v.route.names = front ++ [name]) (hup : name ≠ upName)
    (ho : d.Orderly) (h : v.save c d = (.ok (), d')) (hclear : v.Clear (v.ensureDirectory d).2)
    (hc : c.refreshToken ≠ "") : v.load d' = some c := by
  obtain ⟨last, hdnames⟩ := exists_draft_names hnames hup
  have ho₁ := ensureDirectory_orderly v ho
  obtain ⟨d₁, d₂, hdir, hput, hmove⟩ := save_cases h
  rw [hdir] at hclear ho₁
  obtain ⟨g, hgoal, hway, -, rfl⟩ := Volume.put_cases hput
  have hwrite := Volume.SameWays.write hway (some c.fileText)
  obtain ⟨p, f, n, hp, hn, hnd, hf, hfd, hplain, hd'⟩ := Volume.rename_cases hmove
  split at hd'
  · -- the draft is another name of the file, which has been rewritten already
    rename_i hsame
    subst hd'
    obtain ⟨text, text', number, hpfile, hffile⟩ := Volume.isSameFile_iff.mp hsame
    have hgp := Volume.goal_of_place hdnames hp (by simp [hpfile])
    rw [Volume.goal_mono hwrite.keepsWays hgoal] at hgp
    cases hgp
    obtain ⟨number', htext⟩ := Volume.text_of_write hway (some c.fileText) (.inr hsame)
    exact load_of_goal (Volume.goal_of_place hnames hf (by simp [htext])) htext hplain hc
  · subst hd'
    have hp₁ := Volume.place_mono hwrite.symm.keepsWays hdnames hp
    have hf₁ := Volume.place_mono hwrite.symm.keepsWays hnames hf
    have hfd₁ := fun hd => hfd (hwrite.keepsWays.directory f hd)
    obtain ⟨q, number, hgoal', hq⟩ :=
      goal_of_moved hnames hup ho₁ hclear hgoal hway hp₁ hn hnd hf₁ hfd₁
    exact load_of_goal hgoal' hq hplain hc

end Vault
end Larder.Storage
