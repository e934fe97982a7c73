import Larder.Proofs.VolumeWays

namespace Larder.Storage

/-- What a way can lead through. -/
def Node.way? : Node → Option Node
  | .file .. => none
  | n => some n

theorem Node.rewrite_way? (number : Nat) (text : Option String) (n : Node) :
    (n.rewrite number text).way? = n.way? := by
  cases n with
  | directory => rfl
  | link target => rfl
  | file old other => cases other <;> rfl

namespace Volume

variable {d d' : Volume} {p q : Path}

@[simp] theorem fileSystem_makeDirectories (d : Volume) (r : Route) :
    FileSystem.makeDirectories d r = d.makeDirectories r := rfl

@[simp] theorem fileSystem_put (d : Volume) (r : Route) (text : Option String) :
    FileSystem.put d r text = d.put r text := rfl

@[simp] theorem fileSystem_rename (d : Volume) (source target : Route) :
    FileSystem.rename d source target = d.rename source target := rfl

@[simp] theorem fileSystem_removeFile (d : Volume) (r : Route) :
    FileSystem.removeFile d r = d.removeFile r := rfl

@[simp] theorem fileSystem_entry (d : Volume) (r : Route) :
    FileSystem.entry d r = d.entry r := rfl

theorem node?_ofDisk (d : Disk) (p : Path) : node? (ofDisk d) p = (d.entry? p).map .ofEntry := by
  unfold node? Disk.entry?
  split
  · rfl
  · exact lookup_map Node.ofEntry d.entries p

def way? (d : Volume) (p : Path) : Option Node := (d.node? p).bind Node.way?

/-- Nothing but files differ. -/
def SameWays (d d' : Volume) : Prop := ∀ p, d'.way? p = d.way? p

theorem SameWays.refl (d : Volume) : d.SameWays d := fun _ => rfl

theorem SameWays.symm (h : d.SameWays d') : d'.SameWays d := fun p => (h p).symm

theorem SameWays.trans {d'' : Volume} (h : d.SameWays d') (h' : d'.SameWays d'') :
    d.SameWays d'' := fun p => (h' p).trans (h p)

theorem way?_eq_some_iff {n : Node} (hn : n.way? = some n) :
    d.way? p = some n ↔ d.node? p = some n := by
  unfold way?
  cases hp : d.node? p with
  | none => simp
  | some m =>
    cases m with
    | file text number =>
      cases n with
      | file text number => cases hn
      | directory => simp [Node.way?]
      | link target => simp [Node.way?]
    | directory => simp [Node.way?]
    | link target => simp [Node.way?]

theorem SameWays.keepsWays (h : d.SameWays d') : d.KeepsWays d' where
  directory p hp := (way?_eq_some_iff rfl).mp ((h p).trans ((way?_eq_some_iff rfl).mpr hp))
  link p target := by
    rw [← way?_eq_some_iff rfl, ← way?_eq_some_iff rfl, h p]

theorem SameWays.isDirectory (h : d.SameWays d') (p : Path) :
    d'.isDirectory p = d.isDirectory p := by
  have hiff : d'.node? p = some .directory ↔ d.node? p = some .directory :=
    ⟨h.symm.keepsWays.directory p, h.keepsWays.directory p⟩
  unfold Volume.isDirectory
  rw [Bool.eq_iff_iff, beq_iff_eq, beq_iff_eq, hiff]

theorem way?_eq_none_iff : d.way? p = none ↔
    d.node? p ≠ some .directory ∧ ∀ target, d.node? p ≠ some (.link target) := by
  unfold way?
  cases d.node? p with
  | none => simp
  | some n => cases n <;> simp [Node.way?]

theorem ne_nil_of_way? (h : d.way? p = none) : p ≠ [] := by
  rintro rfl
  cases h

theorem way?_erase (d : Volume) (hp : p ≠ []) :
    way? (d.erase p) q = if q = p then none else d.way? q := by
  unfold way?
  split
  · rename_i h
    rw [h, node?_erase d p hp, if_pos rfl]
    rfl
  · rename_i h
    rw [node?_erase_of_ne d h]

theorem way?_set (d : Volume) (n : Node) (hp : p ≠ []) :
    way? (d.set p n) q = if q = p then n.way? else d.way? q := by
  unfold way?
  split
  · rename_i h
    rw [h, node?_set d p n hp, if_pos rfl]
    rfl
  · rename_i h
    rw [node?_set_of_ne d n h]

/-- A way goes wherever its directories and links are. -/
theorem Way.carry {links left : Nat} {r : Path} {parts : List String}
    (hk : ∀ q n, d.way? q = some n → d'.way? q = some n) (h : d.Way true links p parts r left)
    (hr : ∀ target, d'.node? r ≠ some (.link target)) : d'.Way true links p parts r left := by
  have hnode : ∀ n : Node, n.way? = some n → ∀ q, d.node? q = some n → d'.node? q = some n := by
    intro n hn q hq
    rw [← way?_eq_some_iff hn] at hq ⊢
    exact hk q n hq
  exact h.transfer (hnode .directory rfl) (fun q target => hnode (.link target) rfl q)
    fun target hl => absurd hl (hr target)

theorem place_carry {route : Route} {front : List String} {name : String}
    (hk : ∀ r n, d.way? r = some n → d'.way? r = some n) (hr : route.names = front ++ [name])
    (h : d.place route = .ok q) : d'.place route = .ok q := by
  obtain ⟨hnamed, r, left, hway, hdir, hs⟩ := (place_eq_ok_iff hr).mp h
  have hdir' : d'.node? r = some .directory := by
    rw [← way?_eq_some_iff rfl] at hdir ⊢
    exact hk r _ hdir
  exact (place_eq_ok_iff hr).mpr ⟨hnamed, r, left, hway.carry hk (by simp [hdir']), hdir', hs⟩

theorem SameWays.set (hp : d.way? p = none) (text : Option String) (number : Option Nat) :
    d.SameWays (d.set p (.file text number)) := by
  intro q
  rw [way?_set d _ (ne_nil_of_way? hp)]
  split
  · rename_i h
    rw [h, hp]
    rfl
  · rfl

theorem SameWays.erase (hp : d.way? p = none) : d.SameWays (d.erase p) := by
  intro q
  rw [way?_erase d (ne_nil_of_way? hp)]
  split
  · rename_i h
    rw [h, hp]
  · rfl

/-- A file with several names is rewritten under each of them, every other one is put down anew. -/
theorem write_cases (d : Volume) (p : Path) (text : Option String) :
    (∃ old number, d.node? p = some (.file old (some number)) ∧
      ∀ q, node? (d.write p text) q = (d.node? q).map (Node.rewrite number text)) ∨
    (∀ old number, d.node? p ≠ some (.file old (some number))) ∧
      d.write p text = d.set p (.file text none) := by
  unfold write
  split
  · rename_i old number hp
    refine .inl ⟨old, number, hp, fun q => ?_⟩
    unfold node?
    split
    · rfl
    · exact lookup_map (Node.rewrite number text) d.nodes q
  · rename_i hp
    exact .inr ⟨hp, rfl⟩

theorem SameWays.write (hp : d.way? p = none) (text : Option String) :
    d.SameWays (d.write p text) := by
  rcases write_cases d p text with ⟨old, number, -, hnodes⟩ | ⟨-, hset⟩
  · intro q
    unfold way?
    rw [hnodes, Option.bind_map]
    congr 1
    funext n
    exact Node.rewrite_way? number text n
  · rw [hset]
    exact .set hp text none

theorem isSameFile_iff : d.isSameFile p q = true ↔ ∃ text text' number,
    d.node? p = some (.file text (some number)) ∧
      d.node? q = some (.file text' (some number)) := by
  unfold isSameFile
  constructor
  · intro h
    split at h
    · rename_i text m text' n hp hq
      have hmn : m = n := by simpa using h
      exact ⟨text, text', m, hp, hmn ▸ hq⟩
    · cases h
  · rintro ⟨text, text', number, hp, hq⟩
    simp [hp, hq]

/-- After a file has been written its text stands under its name, and under each other name of the
same file. -/
theorem text_of_write (hp : d.way? p = none) (text : Option String)
    (h : q = p ∨ isSameFile (d.write p text) p q = true) :
    ∃ number, node? (d.write p text) q = some (.file text number) := by
  rcases write_cases d p text with ⟨old, number, hfile, hnodes⟩ | ⟨-, hset⟩
  · have hself : node? (d.write p text) p = some (.file text (some number)) := by
      rw [hnodes, hfile]
      simp [Node.rewrite]
    rcases h with rfl | h
    · exact ⟨some number, hself⟩
    · unfold isSameFile at h
      rw [hself, hnodes] at h
      rw [hnodes]
      cases hq : d.node? q with
      | none => simp [hq] at h
      | some n =>
        cases n with
        | directory => simp [hq, Node.rewrite] at h
        | link target => simp [hq, Node.rewrite] at h
        | file old' other =>
          cases other with
          | none => simp [hq, Node.rewrite] at h
          | some other =>
            have hnumber : number = other := by simpa [hq, Node.rewrite] using h
            exact ⟨some other, by simp [Node.rewrite, hnumber]⟩
  · rw [hset] at h ⊢
    have hself : node? (d.set p (.file text none)) p = some (.file text none) := by
      rw [node?_set d p _ (ne_nil_of_way? hp), if_pos rfl]
    rcases h with rfl | h
    · exact ⟨none, hself⟩
    · simp [isSameFile, hself] at h

theorem node?_write_of_ne (text : Option String) (hq : q ≠ p)
    (hs : d.isSameFile p q = false) : node? (d.write p text) q = d.node? q := by
  rcases write_cases d p text with ⟨old, number, hp, hnodes⟩ | ⟨-, hset⟩
  · rw [hnodes]
    cases hn : d.node? q with
    | none => rfl
    | some n =>
      cases n with
      | directory => rfl
      | link target => rfl
      | file old' other =>
        cases other with
        | none => rfl
        | some other =>
          have hne : number ≠ other := by simpa [isSameFile, hp, hn] using hs
          simp [Node.rewrite, hne.symm]
  · rw [hset, node?_set_of_ne d _ hq]

theorem put_cases {route : Route} {text : Option String} (h : d.put route text = .ok d') :
    ∃ p, d.goal route = .ok p ∧ d.way? p = none ∧ route.asksForDirectory = false ∧
      d' = d.write p text := by
  simp only [put, bind_ok] at h
  obtain ⟨p, hp, h⟩ := h
  split at h
  · cases h
  · rename_i hd
    simp only [isDirectory, Bool.or_eq_true, beq_iff_eq, not_or, Bool.not_eq_true] at hd
    cases h
    exact ⟨p, hp, way?_eq_none_iff.mpr ⟨hd.1, goal_not_link hp⟩, hd.2, rfl⟩

theorem put_of_goal {route : Route} (text : Option String) (hp : d.goal route = .ok p)
    (hd : d.node? p ≠ some .directory) (hr : route.asksForDirectory = false) :
    d.put route text = .ok (d.write p text) := by
  simp only [put, bind_ok]
  refine ⟨p, hp, ?_⟩
  rw [if_neg (by simp [isDirectory, hd, hr])]
  rfl

/-- Where a file has been written there is one, or a link to it. -/
theorem place_of_put {route : Route} {front : List String} {name : String} {text : Option String}
    (hr : route.names = front ++ [name]) (h : d.put route text = .ok d') :
    ∃ p n, d'.place route = .ok p ∧ d'.node? p = some n ∧ n ≠ .directory := by
  obtain ⟨g, hg, hway, -, rfl⟩ := put_cases h
  have hg' := goal_mono (SameWays.write hway text).keepsWays hg
  obtain ⟨p, hp⟩ := place_of_goal hr hg'
  obtain ⟨number, htext⟩ := text_of_write hway text (.inl rfl)
  by_cases hl : ∃ target, (d.write g text).node? p = some (.link target)
  · obtain ⟨target, hl⟩ := hl
    exact ⟨p, .link target, hp, hl, by simp⟩
  · have hgp := goal_of_place hr hp fun target ht => hl ⟨target, ht⟩
    rw [hg'] at hgp
    cases hgp
    exact ⟨g, .file text number, hp, htext, by simp⟩

/-- What is given another name is a file or a link, and so is what had that name. -/
theorem rename_cases {source target : Route} (h : d.rename source target = .ok d') :
    ∃ p q n, d.place source = .ok p ∧ d.node? p = some n ∧ n ≠ .directory ∧
      d.place target = .ok q ∧ d.node? q ≠ some .directory ∧ target.asksForDirectory = false ∧
      d' = if d.isSameFile p q then d else (d.erase p).set q n := by
  simp only [rename, bind_ok] at h
  obtain ⟨p, hp, h⟩ := h
  split at h
  · cases h
  · cases h
  · rename_i n hnot hn
    split at h
    · cases h
    · simp only [bind_ok] at h
      obtain ⟨q, hq, h⟩ := h
      split at h
      · cases h
      · rename_i hd
        simp only [isDirectory, Bool.or_eq_true, beq_iff_eq, not_or, Bool.not_eq_true] at hd
        refine ⟨p, q, n, hp, hn, ?_, hq, hd.1, hd.2, ?_⟩
        · rintro rfl
          exact hnot rfl
        · split at h
          · rename_i hsame
            cases h
            rw [if_pos hsame]
          · rename_i hsame
            cases h
            rw [if_neg hsame]

theorem rename_succeeds {source target : Route} {n : Node} (hp : d.place source = .ok p)
    (hn : d.node? p = some n) (hnd : n ≠ .directory) (hs : source.asksForDirectory = false)
    (hq : d.place target = .ok q) (hqd : d.node? q ≠ some .directory)
    (ht : target.asksForDirectory = false) : ∃ d', d.rename source target = .ok d' := by
  have hfree : (d.isDirectory q || target.asksForDirectory) = false := by
    simp [isDirectory, hqd, ht]
  simp only [rename, hp, hn, hs, hq, bind, Except.bind, hfree]
  cases n with
  | directory => exact absurd rfl hnd
  | file _ _ | link _ =>
    simp only [Bool.false_eq_true, ↓reduceIte]
    split_ifs
    · exact ⟨d, rfl⟩
    · exact ⟨_, rfl⟩

theorem rename_of_file {source target : Route} {text : Option String} {number : Option Nat}
    (hp : d.place source = .ok p) (hn : d.node? p = some (.file text number))
    (hs : source.asksForDirectory = false) : d.rename source target = (do
      let q ← d.place target
      if d.isDirectory q || target.asksForDirectory then throw .isADirectory
      else if d.isSameFile p q then return d
      else return (d.erase p).set q (.file text number)) := by
  simp only [rename, hp, hn, hs, bind, Except.bind, Bool.false_eq_true, ↓reduceIte]

theorem entry_eq_ok_iff {route : Route} {e : Entry} : d.entry route = .ok e ↔
    ∃ p, d.goal route = .ok p ∧ (e = .directory ∧ d.node? p = some .directory ∨
      ∃ text number, e = .file text ∧ d.node? p = some (.file text number) ∧
        route.asksForDirectory = false) := by
  simp only [entry, bind_ok]
  refine exists_congr fun p => and_congr_right fun _ => ?_
  cases d.node? p with
  | none => exact ⟨fun h => (by cases h), by simp⟩
  | some n =>
    cases n with
    | directory =>
      constructor
      · intro h
        cases h
        simp
      · rintro (⟨rfl, -⟩ | ⟨_, _, -, h, -⟩)
        · rfl
        · cases h
    | link target => exact ⟨fun h => (by cases h), by simp⟩
    | file text number =>
      cases hr : route.asksForDirectory with
      | true => exact ⟨fun h => (by cases h), by simp⟩
      | false =>
        constructor
        · intro h
          cases h
          simp
        · rintro (⟨-, h⟩ | ⟨_, _, rfl, h, -⟩)
          · cases h
          · cases h
            rfl

/-- Where nothing but files differ, a route leads to the same if what it comes to is the same. -/
theorem entry_iff_of_sameWays {route : Route} {e : Entry} (h : d.SameWays d')
    (hn : ∀ p, d.goal route = .ok p → d'.node? p = d.node? p) :
    d'.entry route = .ok e ↔ d.entry route = .ok e := by
  have hgoal : ∀ p, d'.goal route = .ok p ↔ d.goal route = .ok p :=
    fun p => ⟨goal_mono h.symm.keepsWays, goal_mono h.keepsWays⟩
  rw [entry_eq_ok_iff, entry_eq_ok_iff]
  refine exists_congr fun p => ?_
  rw [hgoal]
  refine and_congr_right fun hp => ?_
  rw [hn p hp]

theorem SameWays.erase_set (h : d.SameWays d') (hp : p ≠ []) (text : Option String)
    (number : Option Nat) : SameWays (d.erase p) (d'.set p (.file text number)) := by
  intro q
  rw [way?_set d' _ hp, way?_erase d hp]
  split
  · rfl
  · exact h q

end Volume

end Larder.Storage
