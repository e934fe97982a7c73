import Larder.Proofs.LeftoverDrafts

namespace Larder.Storage

/-- A name that is one part of a route, and leads on from the directory that it is in. -/
structure IsFileName (name : String) : Prop where
  whole : '/' ∉ name.toList
  leads : leads name = true
  down : name ≠ upName

namespace Route

variable {name : String}

theorem front_names (r : Route) : r.front.filter leads = r.names := by
  unfold front names
  split
  · rename_i hlast
    obtain ⟨parts, hparts⟩ := List.getLast?_eq_some_iff.mp hlast
    simp [hparts, leads]
  · rfl

/-- The file stands in the directory, under its name. -/
theorem names_join (h : IsFileName name) (r : Route) :
    (r.join name).names = r.names ++ [name] := by
  have hparts : partsOf name = [name] := by
    have hsplit : name.toList.splitOn '/' = [name.toList] :=
      List.splitOnP_eq_singleton fun c hc => by
        rw [beq_eq_false_iff_ne]
        rintro rfl
        exact h.whole hc
    simp [partsOf, hsplit]
  have hstart : name.toList.head? ≠ some '/' :=
    fun hc => h.whole (List.mem_of_mem_head? hc)
  have hjoin : r.join name = ⟨r.front ++ [name]⟩ := by
    rw [join, if_neg hstart, hparts]
  rw [hjoin]
  simp only [names, List.filter_append, List.filter_cons, h.leads, ↓reduceIte, List.filter_nil]
  rw [front_names]
  rfl

end Route

namespace Vault

variable {v : Vault} {c : Credential} {d d' : Volume} {begun : Bool} {p q : Path}
  {front : List String} {name : String}

/-- The name of the file and that of its draft do not lead to one and the same file. -/
def Apart (v : Vault) (d : Volume) : Prop :=
  ∀ f g, d.goal v.route = .ok f → d.goal v.draft = .ok g → d.node? g ≠ some .directory →
    g ≠ f ∧ d.isSameFile g f = false

/-- The volumes that a save goes through before the draft is put in the place of the file, without a
draft first and then with one. That may hold anything, as it does when it has been written in
part. -/
inductive Midway (v : Vault) (d : Volume) : (begun : Bool) → Volume → Prop where
  | untouched : Midway v d false d
  | making {made : List String} (hc : Disk.complaint? v.route.parent = none)
      (h : made <+: v.route.parent.names) : Midway v d false (d.makeBelow [] made).2
  | drafting {d₁ d₂ : Volume} (text : Option String) (hd : v.ensureDirectory d = (.ok (), d₁))
      (hp : d₁.put v.draft text = .ok d₂) : Midway v d true d₂

theorem midway_ensureDirectory (v : Vault) (d : Volume) :
    v.Midway d false (v.ensureDirectory d).2 := by
  rw [ensureDirectory, Volume.fileSystem_makeDirectories, Volume.makeDirectories]
  split
  · exact .untouched
  · rename_i hc
    exact .making hc List.prefix_rfl

/-- A save that is refused ends where it could have been broken off. -/
theorem midway_of_refused {x : Refusal} (h : v.save c d = (.error x, d')) :
    ∃ begun, v.Midway d begun d' := by
  rcases save_failed h with rfl | ⟨d₁, hd, hput, -⟩
  · exact ⟨false, midway_ensureDirectory v d⟩
  · exact ⟨true, .drafting _ hd hput⟩

/-- One step is left when the draft has been written in full. -/
theorem midway_of_saved (h : v.save c d = (.ok (), d')) :
    ∃ d₂, v.Midway d true d₂ ∧ d₂.rename v.draft v.route = .ok d' := by
  obtain ⟨d₁, d₂, hd, hput, hmove⟩ := save_cases h
  exact ⟨d₂, .drafting _ hd hput, hmove⟩

/-- New directories bring no credential to light, and hide none. -/
theorem load_of_made {made : List String} (hnames : v.route.names = front ++ [name])
    (hup : name ≠ upName) (ho : d.Orderly) (hs : d.Stands front) (hmade : made <+: front) :
    v.load (d.makeBelow [] made).2 = v.load d := by
  obtain ⟨later, rfl⟩ := hmade
  have hstands : d.Stands ([] ++ made) := by
    intro front name rest p q left hmade hway hp hstep hq hmem
    rw [List.nil_append] at hmade
    subst hmade
    exact hs front name (rest ++ later) p q left (by simp) hway hp hstep hq (by simp [hmem])
  have hleads : ∀ name ∈ made, leads name = true := fun name hname =>
    (List.mem_filter.mp (show name ∈ v.route.names by simp [hnames, hname])).2
  rcases Volume.makeBelow_cases ho hstands hleads with hsame | ⟨way, missing, rest, q, hmade, h⟩
  · rw [hsame]
  · rw [List.nil_append] at hmade
    subst hmade
    obtain ⟨p, left, hway, hp, hstep⟩ := h.way
    have hrest := hs way missing (rest ++ later) p q left (by simp) hway hp hstep h.missing
    have hroute : v.route.names = way ++ missing :: (rest ++ (later ++ [name])) := by
      simp [hnames]
    obtain ⟨hbefore, hafter⟩ := h.nothing ho hroute (by simp) (by
      rw [← List.append_assoc]
      simpa [hup.symm] using hrest)
    exact load_congr (entry_toOption fun e => iff_of_false (hafter e) (hbefore e))

/-- Writing the draft leaves the file to which the other name leads. -/
theorem load_of_put {text : Option String} (hapart : v.Apart d)
    (hput : d.put v.draft text = .ok d') : v.load d' = v.load d := by
  obtain ⟨g, hg, hway, -, rfl⟩ := Volume.put_cases hput
  refine load_congr (entry_toOption fun e => ?_)
  refine Volume.entry_iff_of_sameWays (.write hway text) fun p hp => ?_
  obtain ⟨hne, hsame⟩ := hapart p g hp hg (Volume.way?_eq_none_iff.mp hway).1
  exact Volume.node?_write_of_ne text hne.symm hsame

theorem load_of_ensureDirectory (hnames : v.route.names = front ++ [name]) (hup : name ≠ upName)
    (ho : d.Orderly) (hs : d.Stands front) : v.load (v.ensureDirectory d).2 = v.load d := by
  rw [ensureDirectory, Volume.fileSystem_makeDirectories, Volume.makeDirectories]
  split
  · rfl
  · rw [parent_names hnames]
    exact load_of_made hnames hup ho hs List.prefix_rfl

theorem Midway.load (h : v.Midway d begun d') (hnames : v.route.names = front ++ [name])
    (hup : name ≠ upName) (ho : d.Orderly) (hs : d.Stands front)
    (hapart : begun = true → v.Apart (v.ensureDirectory d).2) : v.load d' = v.load d := by
  have hmade := load_of_ensureDirectory hnames hup ho hs
  cases h with
  | untouched => rfl
  | making _ h => exact load_of_made hnames hup ho hs (parent_names hnames ▸ h)
  | @drafting d₁ _ text hd hput =>
    rw [hd] at hapart hmade
    rw [load_of_put (hapart rfl) hput, hmade]

/-- The way to a credential that can be read leads up from no directory that is missing. -/
theorem stands_of_load (hnames : v.route.names = front ++ [name]) (h : v.load d = some c) :
    d.Stands front := by
  obtain ⟨g, _, _, hgoal, -, -⟩ := file_of_loaded h
  obtain ⟨-, left, hway⟩ := Volume.goal_eq_ok_iff.mp hgoal
  rw [hnames] at hway
  obtain ⟨p, k, hfront, -, -⟩ := hway.split (Volume.node?_root d) (by simp)
  exact Volume.stands_of_way hfront

/-- After a save that is refused the same is read as when the directories have been made. -/
theorem load_of_refused {x : Refusal} (hnames : v.route.names = front ++ [name])
    (hup : name ≠ upName) (h : v.save c d = (.error x, d')) :
    v.load d' = v.load (v.ensureDirectory d).2 := by
  rcases save_failed h with rfl | ⟨d₁, hd, hput, hmove⟩
  · rfl
  · rw [hd]
    obtain ⟨g, -, hway, -, rfl⟩ := Volume.put_cases hput
    rw [load_of_unmoved hnames hup hput hmove (.refl _),
      load_of_unmoved hnames hup hput hmove (.write hway _)]

theorem ensureDirectory_grown (v : Vault) (d : Volume) : d.Grown (v.ensureDirectory d).2 := by
  rw [ensureDirectory, Volume.fileSystem_makeDirectories, Volume.makeDirectories]
  split
  · exact fun p => .inl rfl
  · exact Volume.makeBelow_grown d [] _

/-- Whatever stands at the place of the file when a save is broken off, a file is what it was. -/
theorem Midway.file {text : Option String} {number : Option Nat} (h : v.Midway d begun d')
    (hnames : v.route.names = front ++ [name])
    (hapart : begun = true → v.Apart (v.ensureDirectory d).2) (hp : d'.place v.route = .ok p) :
    d'.node? p = some (.file text number) ↔ d.node? p = some (.file text number) := by
  cases h with
  | untouched => rfl
  | making _ _ => exact (Volume.makeBelow_grown d [] _).file
  | @drafting d₁ _ text' hd hput =>
    have hgrown := ensureDirectory_grown v d
    rw [hd] at hgrown hapart
    obtain ⟨g, hg, hway, -, rfl⟩ := Volume.put_cases hput
    have hwrite := Volume.SameWays.write hway text'
    have hp₁ := Volume.place_mono hwrite.symm.keepsWays hnames hp
    rw [← hgrown.file]
    by_cases hlink : ∃ target, d₁.node? p = some (.link target)
    · obtain ⟨target, hl⟩ := hlink
      simp [(hwrite.keepsWays.link p target).mp hl, hl]
    · have hgoal := Volume.goal_of_place hnames hp₁ fun target hl => hlink ⟨target, hl⟩
      obtain ⟨hne, hsame⟩ := hapart rfl p g hgoal hg (Volume.way?_eq_none_iff.mp hway).1
      rw [Volume.node?_write_of_ne text' hne.symm hsame]

/-- What becomes of the file when a credential is saved, wherever the save ends, and what a draft
that was left over has to do with it. -/
structure SavedWhole (v : Vault) (c : Credential) (d : Volume) : Prop where
  saved : v.Clear (v.ensureDirectory d).2 → ∀ d', v.save c d = (.ok (), d') →
    c.refreshToken ≠ "" → v.load d' = some c
  refused : ∀ x d', v.save c d = (.error x, d') → v.load d' = v.load (v.ensureDirectory d).2 ∧
    (d.Stands v.route.parent.names ∨ (v.load d).isSome → v.load d' = v.load d)
  brokenOff : ∀ begun d', v.Midway d begun d' → (begun = true → v.Apart (v.ensureDirectory d).2) →
    d.Stands v.route.parent.names ∨ (v.load d).isSome → v.load d' = v.load d
  untouched : ∀ begun d', v.Midway d begun d' → (begun = true → v.Apart (v.ensureDirectory d).2) →
    ∀ p text number, d'.place v.route = .ok p →
      (d'.node? p = some (.file text number) ↔ d.node? p = some (.file text number))
  stopped : ∀ x d', v.save c d = (.error x, d') → ∃ begun, v.Midway d begun d'
  lastStep : ∀ d', v.save c d = (.ok (), d') →
    ∃ d₂, v.Midway d true d₂ ∧ d₂.rename v.draft v.route = .ok d'
  apart : v.draft ≠ v.route ∧
    ∀ p q, d.place v.route = .ok p → d.place v.draft = .ok q → p ≠ q
  leftover : ∀ q text number, d.place v.draft = .ok q → d.node? q = some (.file text number) →
    d.goal v.route ≠ .ok q → v.load (d.erase q) = v.load d ∧
      v.isThere (d.erase q) = v.isThere d ∧
      v.delete (d.erase q) = (v.delete d).map (fun d' => d'.erase q)
  overwritten : ∀ q text number, d.place v.draft = .ok q → d.node? q = some (.file text number) →
    ∀ c', (v.save c' (d.erase q)).1 = (v.save c' d).1 ∧
      v.load (v.save c' (d.erase q)).2 = v.load (v.save c' d).2 ∧
      (number = none → v.save c' (d.erase q) = v.save c' d)

/-- Whatever plain name the file has, in whatever directory it stands: a save that comes to its end
leaves the new credential, one that does not leaves what was there, and a draft changes nothing. -/
theorem saved_whole (directory : Route) (hname : IsFileName name) (hd : d.Orderly)
    (c : Credential) : SavedWhole (under directory name) c d := by
  have hnames : (under directory name).route.names = directory.names ++ [name] :=
    directory.names_join hname
  have hstands : d.Stands (under directory name).route.parent.names ∨
      ((under directory name).load d).isSome → d.Stands directory.names := by
    rintro (hs | hs)
    · exact parent_names hnames ▸ hs
    · obtain ⟨c₀, hload⟩ := Option.isSome_iff_exists.mp hs
      exact stands_of_load hnames hload
  have hfree : ∀ {q text number}, d.node? q = some (.file text number) → d.way? q = none :=
    fun hfile => Volume.way?_eq_none_iff.mpr (by simp [hfile])
  exact {
    saved := fun hclear d' h hc => load_of_saved_clear hnames hname.down hd h hclear hc
    refused := by
      intro x d' h
      have hload := load_of_refused hnames hname.down h
      refine ⟨hload, fun hs => ?_⟩
      rw [hload, load_of_ensureDirectory hnames hname.down hd (hstands hs)]
    brokenOff := fun begun d' h hapart hs => h.load hnames hname.down hd (hstands hs) hapart
    untouched := fun begun d' h hapart p text number hp => h.file hnames hapart hp
    stopped := fun x d' h => midway_of_refused h
    lastStep := fun d' h => midway_of_saved h
    apart := draft_apart hnames hname.down
    leftover := by
      intro q text number hq hfile hgoal
      have hentry := entry_toOption (entry_without_draft hgoal (hfree hfile))
      exact ⟨load_congr hentry, isThere_congr hentry,
        delete_without_draft hnames hname.down hgoal hq (hfree hfile)⟩
    overwritten := by
      intro q text number hq hfile c'
      have hway := hfree hfile
      refine ⟨save_result_of_sameWays hnames hname.down hq hway (.erase hway) c',
        load_of_save_without_draft hnames hname.down hq hway c', ?_⟩
      rintro rfl
      exact save_without_draft hnames hname.down hq hfile c' }

theorem isFileName_sessionFile : IsFileName sessionFile := ⟨by decide, by decide, by decide⟩

def oldText : Option String := some (Credential.mk "f1" "r1").fileText

/-- A cache that a link leads to, with a credential in it. -/
def cached : Volume := ⟨[(["cache"], .link "data"), (["data"], .directory),
  (["data", sessionFile], .file oldText none)]⟩

/-- A draft of which one character has been written hides no credential, and a save that comes to
its end puts another one in its place. -/
theorem saved_whole_cached :
    let v := under ⟨["cache"]⟩ sessionFile
    let partly := cached.set ["data", "session.json.tmp"] (.file (some "\x7b") none)
    IsFileName sessionFile ∧ cached.Orderly ∧ SavedWhole v ⟨"f2", "r2"⟩ cached ∧
      v.load cached = some ⟨"f1", "r1"⟩ ∧ v.load partly = some ⟨"f1", "r1"⟩ ∧
      (v.save ⟨"f2", "r2"⟩ cached).1 = .ok () ∧
      v.load (v.save ⟨"f2", "r2"⟩ cached).2 = some ⟨"f2", "r2"⟩ := by
  intro v partly
  have horderly : cached.Orderly := Volume.orderly_of_nodes (by decide +kernel)
  have hwhole := saved_whole ⟨["cache"]⟩ isFileName_sessionFile horderly ⟨"f2", "r2"⟩
  have hload : v.load cached = some ⟨"f1", "r1"⟩ := by decide +kernel
  have hmade : v.ensureDirectory cached = (.ok (), cached) := by decide +kernel
  have hfile : cached.goal v.route = .ok ["data", sessionFile] := by decide +kernel
  have hplace : cached.place v.route = .ok ["data", sessionFile] := by decide +kernel
  have hdraft : cached.goal v.draft = .ok ["data", "session.json.tmp"] := by decide +kernel
  have hsaved : (v.save ⟨"f2", "r2"⟩ cached).1 = .ok () := by decide +kernel
  have hstands : cached.Stands v.route.parent.names := Volume.stands_of_down (by decide)
  have hapart : v.Apart (v.ensureDirectory cached).2 := by
    rw [hmade]
    intro f g hf hg _
    cases hfile.symm.trans hf
    cases hdraft.symm.trans hg
    exact ⟨by decide, by decide +kernel⟩
  have hclear : v.Clear (v.ensureDirectory cached).2 := by
    rw [hmade]
    intro f g hf hg
    cases hplace.symm.trans hf
    cases hdraft.symm.trans hg
    exact ⟨by decide, by decide +kernel⟩
  have hpartly : cached.put v.draft (some "\x7b") = .ok partly := by decide +kernel
  have hkept := hwhole.brokenOff true partly (.drafting _ hmade hpartly) (fun _ => hapart)
    (.inl hstands)
  have hall : v.save ⟨"f2", "r2"⟩ cached = (.ok (), (v.save ⟨"f2", "r2"⟩ cached).2) := by
    rw [← hsaved]
  exact ⟨isFileName_sessionFile, horderly, hwhole, hload, hkept.trans hload, hsaved,
    hwhole.saved hclear _ hall (by decide)⟩

/-- A cache with something under the name of the file and something under that of the draft. -/
def cacheOf (file draft : Node) : Volume := ⟨[(["cache"], .directory),
  (["cache", sessionFile], file), (["cache", "session.json.tmp"], draft)]⟩

theorem cacheOf_orderly (file draft : Node) : (cacheOf file draft).Orderly :=
  Volume.orderly_of_nodes fun e he => by
    simp only [cacheOf, List.mem_cons, List.not_mem_nil, or_false] at he
    rcases he with rfl | rfl | rfl <;> rfl

/-- A refused save makes the directory that the way leads up from, and a credential that could not
be read before is read from then on. A draft that is a link to the file is put in its place and
leads to itself from then on, and where the way leads through the file's own place it ends there. A
draft that is another name of the file, or the file that its name is a link to, is all that there is
of the old credential. -/
theorem saves_not_whole :
    let c : Credential := ⟨"f2", "r2"⟩
    let v := under ⟨["cache"]⟩ sessionFile
    let up := under ⟨["cache", "session.json.tmp", ".."]⟩ sessionFile
    let through := under ⟨["cache", sessionFile]⟩ sessionFile
    let draftLinks := cacheOf (.file oldText none) (.link sessionFile)
    let pathLinks : Volume := ⟨[(["cache"], .directory), (["cache", sessionFile], .link ".")]⟩
    let twoNames := cacheOf (.file oldText (some 0)) (.file oldText (some 0))
    let fileLinks := cacheOf (.link "session.json.tmp") (.file oldText none)
    IsFileName sessionFile ∧
      (cached.Orderly ∧ up.load cached = none ∧
        (up.save c cached).1 = .error .isADirectory ∧
        up.load (up.save c cached).2 = some ⟨"f1", "r1"⟩) ∧
      (draftLinks.Orderly ∧ (v.save c draftLinks).1 = .ok () ∧
        v.load (v.save c draftLinks).2 = none) ∧
      (pathLinks.Orderly ∧ (through.save c pathLinks).1 = .ok () ∧
        through.load (through.save c pathLinks).2 = none) ∧
      (twoNames.Orderly ∧ v.load twoNames = some ⟨"f1", "r1"⟩ ∧
        ∃ d', v.Midway twoNames true d' ∧ v.load d' = none) ∧
      (fileLinks.Orderly ∧ v.load fileLinks = some ⟨"f1", "r1"⟩ ∧
        fileLinks.place v.draft = .ok ["cache", "session.json.tmp"] ∧
        v.load (fileLinks.erase ["cache", "session.json.tmp"]) = none) := by
  intro c v up through draftLinks pathLinks twoNames fileLinks
  have hpartly : twoNames.put v.draft (some "\x7b") =
      .ok (cacheOf (.file (some "\x7b") (some 0)) (.file (some "\x7b") (some 0))) := by
    decide +kernel
  refine ⟨isFileName_sessionFile, ⟨Volume.orderly_of_nodes (by decide +kernel), by decide +kernel⟩,
    ⟨cacheOf_orderly _ _, by decide +kernel⟩,
    ⟨Volume.orderly_of_nodes (by decide +kernel), by decide +kernel⟩,
    ⟨cacheOf_orderly _ _, by decide +kernel, _, .drafting _ (by decide +kernel) hpartly,
      by decide +kernel⟩,
    ⟨cacheOf_orderly _ _, by decide +kernel⟩⟩

end Vault

end Larder.Storage
