import Larder.Proofs.CompletedSaves

namespace Larder.Storage

theorem prefix_intercalate (sep last : List Char) (parts : List (List Char)) :
    sep.intercalate parts <+: sep.intercalate (parts ++ [last]) := by
  induction parts with
  | nil => exact List.nil_prefix
  | cons part parts ih =>
    cases parts with
    | nil =>
      rw [List.singleton_append, List.intercalate_cons_cons, List.intercalate_singleton]
      exact ⟨_, (List.append_assoc ..).symm⟩
    | cons next parts =>
      simp only [List.cons_append, List.intercalate_cons_cons] at ih ⊢
      exact List.prefix_append_right_inj _ |>.mpr ih

/-- A route is not longer than one that goes on from its end. -/
theorem Disk.complaint?_front {front : List String} {last : String}
    (h : complaint? ⟨front ++ [last]⟩ = none) (hfront : front.filter leads = front) :
    complaint? ⟨front⟩ = none := by
  obtain ⟨rest, hrest⟩ := prefix_intercalate "/".toList last.toList (front.map String.toList)
  have htext : Route.text ⟨front ++ [last]⟩ = Route.text ⟨front⟩ ++ String.ofList rest := by
    apply String.toList_inj.mp
    simpa [Route.text, String.toList_intercalate] using hrest.symm
  have hnames : Route.names ⟨front ++ [last]⟩ = front ++ [last].filter leads := by
    simp [Route.names, hfront]
  unfold complaint? at h ⊢
  split at h
  · cases h
  · split at h
    · cases h
    · rename_i hnul hlong
      rw [hnames, List.any_append, Bool.or_eq_true, not_or] at hnul
      rw [htext, String.utf8ByteSize_append] at hlong
      have hnames' : Route.names ⟨front⟩ = front := hfront
      rw [if_neg (by rw [hnames']; exact hnul.1), if_neg (by omega)]

namespace Vault

variable {v : Vault} {c : Credential} {d d' : Volume} {q : Path} {front : List String}
  {name : String}

theorem entry_toOption (h : ∀ e, d'.entry v.route = .ok e ↔ d.entry v.route = .ok e) :
    (FileSystem.entry d' v.route).toOption = (FileSystem.entry d v.route).toOption := by
  refine Option.ext fun e => ?_
  rw [toOption_eq_some_iff, toOption_eq_some_iff]
  exact h e

theorem entry_of_isThere (h : v.isThere d = true) : ∃ e, d.entry v.route = .ok e := by
  unfold isThere at h
  rw [Volume.fileSystem_entry] at h
  cases he : d.entry v.route with
  | error x => simp [he, Except.toBool] at h
  | ok e => exact ⟨e, rfl⟩

theorem file_of_loaded (h : v.load d = some c) : ∃ g text number, d.goal v.route = .ok g ∧
    d.node? g = some (.file text number) ∧ v.route.asksForDirectory = false := by
  unfold load at h
  rw [Volume.fileSystem_entry] at h
  cases he : d.entry v.route with
  | error x => simp [he, bind, Except.bind, Except.toOption] at h
  | ok e =>
    cases e with
    | directory => simp [he, Entry.text, bind, Except.bind, Except.toOption] at h
    | file text =>
      obtain ⟨g, hgoal, ⟨he, -⟩ | ⟨_, number, -, hn, hplain⟩⟩ := Volume.entry_eq_ok_iff.mp he
      · cases he
      · exact ⟨g, _, number, hgoal, hn, hplain⟩

/-- Where a draft that has been written cannot be moved no credential can be read. -/
theorem load_of_unmoved {text : Option String} {x : Refusal} {e : Volume}
    (hnames : v.route.names = front ++ [name]) (hup : name ≠ upName)
    (hput : d.put v.draft text = .ok d') (hmove : d'.rename v.draft v.route = .error x)
    (he : e.SameWays d') : v.load e = none := by
  obtain ⟨last, hdnames⟩ := exists_draft_names hnames hup
  obtain ⟨p, n, hp, hn, hnd⟩ := Volume.place_of_put hdnames hput
  cases hload : v.load e with
  | none => rfl
  | some c =>
    obtain ⟨g', _, _, hgoal, hfile, hplain'⟩ := file_of_loaded hload
    obtain ⟨f, hf⟩ := Volume.place_of_goal hnames hgoal
    have hfd : d'.node? f ≠ some .directory := by
      intro hdir
      have hfe := he.symm.keepsWays.directory f hdir
      have hgf := Volume.goal_of_place hnames hf (by simp [hfe])
      rw [hgoal] at hgf
      cases hgf
      rw [hfe] at hfile
      cases hfile
    obtain ⟨d'', hmoved⟩ := Volume.rename_succeeds hp hn hnd (draft_plain hnames hup)
      (Volume.place_mono he.keepsWays hnames hf) hfd hplain'
    rw [hmove] at hmoved
    cases hmoved

/-- With a draft left over, the directories that a save asks for are there. -/
theorem ensureDirectory_of_draft (hnames : v.route.names = front ++ [name]) (hup : name ≠ upName)
    (hq : d.place v.draft = .ok q) : v.ensureDirectory d = (.ok (), d) := by
  obtain ⟨last, hdraft, hlast, -⟩ := draft_eq hnames hup
  obtain ⟨hclear, p, left, hway, hp, -⟩ :=
    (Volume.place_eq_ok_iff (draft_names hnames hdraft hlast)).mp hq
  have hparent : v.route.parent = ⟨front⟩ := by
    rw [Route.parent, hnames, List.dropLast_concat]
  rw [hdraft] at hclear
  rw [ensureDirectory, Volume.fileSystem_makeDirectories, Volume.makeDirectories, hparent,
    Disk.complaint?_front hclear (leads_front hnames)]
  change d.makeBelow [] (front.filter leads) = (.ok (), d)
  rw [leads_front hnames]
  exact Volume.makeBelow_of_way hway hp

theorem goal_of_draft (hnames : v.route.names = front ++ [name]) (hup : name ≠ upName)
    (hq : d.place v.draft = .ok q) (hway : d.way? q = none) : d.goal v.draft = .ok q := by
  obtain ⟨last, hdnames⟩ := exists_draft_names hnames hup
  exact Volume.goal_of_place hdnames hq (Volume.way?_eq_none_iff.mp hway).2

theorem put_over_draft (hnames : v.route.names = front ++ [name]) (hup : name ≠ upName)
    (hq : d.place v.draft = .ok q) (hway : d.way? q = none) (text : Option String) :
    d.put v.draft text = .ok (d.write q text) := by
  exact Volume.put_of_goal text (goal_of_draft hnames hup hq hway)
    (Volume.way?_eq_none_iff.mp hway).1 (draft_plain hnames hup)

/-- With a place for the draft a save writes it there and moves it. -/
theorem save_over_draft (hnames : v.route.names = front ++ [name]) (hup : name ≠ upName)
    (hq : d.place v.draft = .ok q) (hway : d.way? q = none) (c : Credential) :
    v.save c d = match (d.write q (some c.fileText)).rename v.draft v.route with
      | .error x => (.error x, d.write q (some c.fileText))
      | .ok d' => (.ok (), d') := by
  unfold save
  rw [ensureDirectory_of_draft hnames hup hq]
  dsimp only
  rw [Volume.fileSystem_put, put_over_draft hnames hup hq hway]
  dsimp only
  rw [Volume.fileSystem_rename]
  cases (d.write q (some c.fileText)).rename v.draft v.route <;> rfl

/-- Whether a save with a place for the draft is refused depends on nothing but the ways. -/
theorem save_result_of_sameWays (hnames : v.route.names = front ++ [name]) (hup : name ≠ upName)
    (hq : d.place v.draft = .ok q) (hway : d.way? q = none) (hs : d.SameWays d')
    (c : Credential) : (v.save c d').1 = (v.save c d).1 := by
  obtain ⟨last, hdnames⟩ := exists_draft_names hnames hup
  have hplain := draft_plain hnames hup
  have hq' := Volume.place_mono hs.keepsWays hdnames hq
  have hway' : d'.way? q = none := (hs q).trans hway
  have hwrite := Volume.SameWays.write hway (some c.fileText)
  have hwrite' := Volume.SameWays.write hway' (some c.fileText)
  have hboth := hwrite.symm.trans (hs.trans hwrite')
  obtain ⟨-, r, left, hfront, hr, -⟩ :=
    (Volume.place_eq_ok_iff hdnames).mp (Volume.place_mono hwrite.keepsWays hdnames hq)
  obtain ⟨number, hfile⟩ := Volume.text_of_write hway (some c.fileText) (.inl rfl)
  obtain ⟨number', hfile'⟩ := Volume.text_of_write hway' (some c.fileText) (.inl rfl)
  have hplace : Volume.place (d'.write q (some c.fileText)) v.route =
      Volume.place (d.write q (some c.fileText)) v.route := by
    rw [Volume.place_of_front hnames hfront hr, Volume.place_of_front hnames
      (hfront.mono hboth.keepsWays) (hboth.keepsWays.directory r hr)]
  rw [save_over_draft hnames hup hq hway, save_over_draft hnames hup hq' hway',
    Volume.rename_of_file (Volume.place_mono hwrite.keepsWays hdnames hq) hfile hplain,
    Volume.rename_of_file (Volume.place_mono hwrite'.keepsWays hdnames hq') hfile' hplain,
    hplace]
  cases (d.write q (some c.fileText)).place v.route with
  | error x => rfl
  | ok f =>
    simp only [bind, Except.bind, hboth.isDirectory f]
    split_ifs <;> rfl

/-- A draft that has been moved stands at the place of the file, where nothing leads through. -/
theorem moved_draft (hnames : v.route.names = front ++ [name]) (hup : name ≠ upName)
    (hq : d.place v.draft = .ok q) (hway : d.way? q = none) (h : v.save c d = (.ok (), d')) :
    ∃ f number, d.place v.route = .ok f ∧ v.route.asksForDirectory = false ∧
      d'.node? f = some (.file (some c.fileText) number) ∧
      ∀ r, d'.way? r = if r = f then none else d.way? r := by
  obtain ⟨last, hdnames⟩ := exists_draft_names hnames hup
  have hwrite := Volume.SameWays.write hway (some c.fileText)
  rw [save_over_draft hnames hup hq hway] at h
  split at h
  · cases h
  · rename_i hmove
    cases h
    obtain ⟨p, f, n, hp, hn, -, hf, hfd, hplain, hd'⟩ := Volume.rename_cases hmove
    rw [Volume.place_mono hwrite.keepsWays hdnames hq] at hp
    cases hp
    have hf' := Volume.place_mono hwrite.symm.keepsWays hnames hf
    split at hd'
    · rename_i hsame
      subst hd'
      obtain ⟨number, hfile⟩ := Volume.text_of_write hway (some c.fileText) (.inr hsame)
      refine ⟨f, number, hf', hplain, hfile, fun r => ?_⟩
      split
      · rename_i hrf
        rw [hrf]
        exact Volume.way?_eq_none_iff.mpr (by simp [hfile])
      · exact hwrite r
    · obtain ⟨number, hfile⟩ := Volume.text_of_write hway (some c.fileText) (.inl rfl)
      rw [hfile] at hn
      cases hn
      have hroot := Volume.ne_nil_of_node? hfd
      subst hd'
      refine ⟨f, number, hf', hplain, by rw [Volume.node?_set _ _ _ hroot, if_pos rfl], fun r => ?_⟩
      rw [Volume.way?_set _ _ hroot]
      split
      · rfl
      · exact (hwrite.trans (.erase ((hwrite q).trans hway))) r

/-- Whatever the name of the file leads to after a save over a draft, it is what was written. -/
theorem entry_of_moved (hnames : v.route.names = front ++ [name]) (hup : name ≠ upName)
    (hq : d.place v.draft = .ok q) (hway : d.way? q = none) (h : v.save c d = (.ok (), d'))
    (e : Entry) : d'.entry v.route = .ok e ↔
      e = .file (some c.fileText) ∧ ∃ p, d'.goal v.route = .ok p := by
  obtain ⟨f, number, hf, hplain, hfile, hways⟩ := moved_draft hnames hup hq hway h
  have hkeep : ∀ r n, d'.way? r = some n → d.way? r = some n := by
    intro r n hr
    rw [hways] at hr
    split at hr
    · cases hr
    · exact hr
  have hgoal : ∀ p, d'.goal v.route = .ok p → p = f := by
    intro p hp
    obtain ⟨f', hf'⟩ := Volume.place_of_goal hnames hp
    have hsame := Volume.place_carry hkeep hnames hf'
    rw [hf] at hsame
    cases hsame
    have hgoal := Volume.goal_of_place hnames hf' (by simp [hfile])
    rw [hp] at hgoal
    cases hgoal
    rfl
  rw [Volume.entry_eq_ok_iff]
  constructor
  · rintro ⟨p, hp, he⟩
    rw [hgoal p hp, hfile] at he
    rcases he with ⟨-, he⟩ | ⟨text, _, rfl, he, -⟩
    · cases he
    · cases he
      exact ⟨rfl, p, hp⟩
  · rintro ⟨rfl, p, hp⟩
    exact ⟨p, hp, .inr ⟨_, number, rfl, hgoal p hp ▸ hfile, hplain⟩⟩

theorem entry_without_draft (hgoal : d.goal v.route ≠ .ok q) (hway : d.way? q = none)
    (e : Entry) : Volume.entry (d.erase q) v.route = .ok e ↔ d.entry v.route = .ok e := by
  refine Volume.entry_iff_of_sameWays (.erase hway) fun p hp => Volume.node?_erase_of_ne d ?_
  rintro rfl
  exact hgoal hp

theorem load_of_refused_over {x : Refusal} (hnames : v.route.names = front ++ [name])
    (hup : name ≠ upName) (hq : d.place v.draft = .ok q) (hway : d.way? q = none)
    (h : v.save c d = (.error x, d')) : v.load d' = none := by
  have hput := put_over_draft hnames hup hq hway (some c.fileText)
  rw [save_over_draft hnames hup hq hway] at h
  split at h
  · rename_i hmove
    cases h
    exact load_of_unmoved hnames hup hput hmove (.refl _)
  · cases h

/-- What is loaded after another save does not depend on a draft that was left over. -/
theorem load_of_save_without_draft (hnames : v.route.names = front ++ [name])
    (hup : name ≠ upName) (hq : d.place v.draft = .ok q) (hway : d.way? q = none)
    (c : Credential) : v.load (v.save c (d.erase q)).2 = v.load (v.save c d).2 := by
  have hgone := Volume.SameWays.erase hway
  have hway' := (hgone q).trans hway
  obtain ⟨last, hdnames⟩ := exists_draft_names hnames hup
  have hq' := Volume.place_mono hgone.keepsWays hdnames hq
  have hresult := save_result_of_sameWays hnames hup hq hway hgone c
  rcases hsave : v.save c d with ⟨x, d₁⟩
  rcases hsave' : v.save c (d.erase q) with ⟨x', d₁'⟩
  rw [hsave, hsave'] at hresult
  dsimp only at hresult ⊢
  subst hresult
  cases x' with
  | error x =>
    rw [load_of_refused_over hnames hup hq hway hsave,
      load_of_refused_over hnames hup hq' hway' hsave']
  | ok _ =>
    obtain ⟨f, _, hf, -, -, hways⟩ := moved_draft hnames hup hq hway hsave
    obtain ⟨f', _, hf', -, -, hways'⟩ := moved_draft hnames hup hq' hway' hsave'
    rw [Volume.place_mono hgone.keepsWays hnames hf] at hf'
    cases hf'
    have hsame : d₁.SameWays d₁' := by
      intro r
      rw [hways, hways', hgone r]
    refine load_congr (entry_toOption fun e => ?_)
    rw [entry_of_moved hnames hup hq hway hsave, entry_of_moved hnames hup hq' hway' hsave']
    refine and_congr_right fun _ => exists_congr fun p => ?_
    exact ⟨Volume.goal_mono hsame.symm.keepsWays, Volume.goal_mono hsame.keepsWays⟩

/-- A save writes over a draft that was left over and has no other name. -/
theorem save_without_draft {text : Option String} (hnames : v.route.names = front ++ [name])
    (hup : name ≠ upName) (hq : d.place v.draft = .ok q)
    (hfile : d.node? q = some (.file text none)) (c : Credential) :
    v.save c (d.erase q) = v.save c d := by
  have hway : d.way? q = none := Volume.way?_eq_none_iff.mpr (by simp [hfile])
  have hgone := Volume.SameWays.erase hway
  obtain ⟨last, hdnames⟩ := exists_draft_names hnames hup
  have hq' := Volume.place_mono hgone.keepsWays hdnames hq
  have hfree : Volume.node? (d.erase q) q = none := by
    rw [Volume.node?_erase d q (Volume.ne_nil_of_way? hway), if_pos rfl]
  have hwrite : Volume.write (d.erase q) q (some c.fileText) = d.write q (some c.fileText) := by
    unfold Volume.write
    rw [hfile, hfree]
    simp [Volume.set, Volume.erase, List.filter_filter]
  rw [save_over_draft hnames hup hq hway, save_over_draft hnames hup hq' ((hgone q).trans hway),
    hwrite]

/-- A deletion leaves a draft that was left over where it is. -/
theorem delete_without_draft (hnames : v.route.names = front ++ [name]) (hup : name ≠ upName)
    (hgoal : d.goal v.route ≠ .ok q) (hq : d.place v.draft = .ok q) (hway : d.way? q = none) :
    v.delete (d.erase q) = (v.delete d).map fun d' => d'.erase q := by
  have hentry := entry_without_draft hgoal hway
  have hthere : v.isThere (d.erase q) = v.isThere d := isThere_congr (entry_toOption hentry)
  unfold delete
  rw [hthere]
  split
  · rename_i h
    obtain ⟨e, he⟩ := entry_of_isThere h
    obtain ⟨g, hgoal, -⟩ := Volume.entry_eq_ok_iff.mp he
    obtain ⟨p, hp⟩ := Volume.place_of_goal hnames hgoal
    have hp' := Volume.place_mono (Volume.SameWays.erase hway).keepsWays hnames hp
    have hne := (draft_apart hnames hup).2 p q hp hq
    rw [Volume.fileSystem_removeFile, Volume.fileSystem_removeFile]
    simp only [Volume.removeFile, hp, hp', bind, Except.bind, Volume.node?_erase_of_ne d hne]
    split
    · rfl
    · rfl
    · split
      · rfl
      · simp [Except.map, pure, Except.pure, Volume.erase, List.filter_filter, Bool.and_comm]
  · rfl

end Vault

end Larder.Storage
