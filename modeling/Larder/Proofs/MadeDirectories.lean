import Larder.Proofs.Volumes

namespace Larder.Storage.Volume

variable {d d' : Volume} {p q : Path} {toEnd : Bool} {links left left' : Nat}
  {name : String}
  {done names rest : List String}

/-- All that was there is as it was, and all that is new is a directory. -/
def Grown (d d' : Volume) : Prop :=
  ∀ p, d'.node? p = d.node? p ∨ d.node? p = none ∧ d'.node? p = some .directory

theorem Grown.keepsWays (h : d.Grown d') : d.KeepsWays d' where
  directory p hp := by
    rcases h p with he | ⟨-, hd⟩
    · rw [he, hp]
    · exact hd
  link p target := by
    rcases h p with he | ⟨hn, hd⟩
    · rw [he]
    · simp [hn, hd]

theorem Grown.trans {d'' : Volume} (h : d.Grown d') (h' : d'.Grown d'') : d.Grown d'' := by
  intro p
  rcases h p with hp | ⟨hp, hnew⟩
  · rw [← hp]
    exact h' p
  · rcases h' p with hp' | ⟨hp', -⟩
    · exact .inr ⟨hp, hp'.trans hnew⟩
    · rw [hnew] at hp'
      cases hp'

theorem Grown.file {text : Option String} {number : Option Nat} (h : d.Grown d') :
    d'.node? p = some (.file text number) ↔ d.node? p = some (.file text number) := by
  rcases h p with he | ⟨hn, hnew⟩
  · rw [he]
  · simp [hn, hnew]

theorem grown_set (hp : d.node? p = none) : d.Grown (d.set p .directory) := by
  intro q
  by_cases hq : q = p
  · subst hq
    have hroot : q ≠ [] := ne_nil_of_node? (d := d) (by simp [hp])
    exact .inr ⟨hp, by rw [node?_set d q _ hroot, if_pos rfl]⟩
  · exact .inl (node?_set_of_ne d _ hq)

theorem makeBelow_grown (d : Volume) (done names : List String) :
    d.Grown (d.makeBelow done names).2 := by
  induction names generalizing d done with
  | nil => exact fun p => .inl rfl
  | cons name names ih =>
    rw [makeBelow]
    split
    · exact ih d _
    · split
      · exact fun p => .inl rfl
      · split
        · rename_i hp
          exact (grown_set hp).trans (ih _ _)
        · exact fun p => .inl rfl

theorem Orderly.makeBelow (h : d.Orderly) (done names : List String) :
    Orderly (d.makeBelow done names).2 := by
  induction names generalizing d done with
  | nil => exact h
  | cons name names ih =>
    rw [Volume.makeBelow]
    split
    · exact ih h _
    · split
      · exact h
      · rename_i q hwalk
        split
        · rename_i hq
          obtain ⟨left, hwalk⟩ := way_of_walk hwalk
          obtain ⟨p, k, -, hp, hlast⟩ := hwalk.split (node?_root d) (by simp)
          have hfree : d.node? q ≠ some .directory := by simp [hq]
          refine ih (h.set _ hfree ?_) _
          rw [h.dropLast_of_step hp (step_of_way hlast) hfree, hp]
        · exact h

theorem leadsToDirectory_iff : d.leadsToDirectory names = true ↔
    ∃ p left, d.Way true mostLinks [] names p left ∧ d.node? p = some .directory := by
  unfold leadsToDirectory
  cases h : d.walk true mostLinks [] names with
  | error x =>
    refine ⟨fun h => (by cases h), ?_⟩
    rintro ⟨p, left, hway, -⟩
    rw [hway.walk_eq_ok] at h
    cases h
  | ok p =>
    obtain ⟨left, hway⟩ := way_of_walk h
    simp only [isDirectory, beq_iff_eq]
    refine ⟨fun hp => ⟨p, left, hway, hp⟩, ?_⟩
    rintro ⟨q, left', hway', hq⟩
    rw [(hway.unique hway').1, hq]

/-- Where the names lead to a directory none is made. -/
theorem makeBelow_of_way (h : d.Way true mostLinks [] (done ++ names) q left)
    (hq : d.node? q = some .directory) : d.makeBelow done names = (.ok (), d) := by
  induction names generalizing done with
  | nil => rfl
  | cons name names ih =>
    have hway : d.Way true mostLinks [] ((done ++ [name]) ++ names) q left := by simpa using h
    have hlead : d.leadsToDirectory (done ++ [name]) = true := by
      rw [leadsToDirectory_iff]
      by_cases hnil : names = []
      · subst hnil
        exact ⟨q, left, by simpa using hway, hq⟩
      · obtain ⟨p, k, hfront, hp, -⟩ := hway.split (node?_root d) hnil
        exact ⟨p, k, hfront, hp⟩
    rw [makeBelow, if_pos hlead]
    exact ih hway

/-- From a directory with nothing in it a name leads down to a free place. -/
theorem Way.last_of_fresh (h : d.Way toEnd links [] (done ++ [name]) p left)
    (hway : d.Way true links [] done q left') (hbelow : ∀ r, q <+: r → r ≠ q → d.node? r = none)
    (hname : leads name = true) (hup : name ≠ upName) :
    p = q ++ [name] ∧ step q name = .ok p ∧ d.node? p = none := by
  obtain ⟨q', k, hfront, -, hlast⟩ := h.split (node?_root d) (by simp)
  rw [(hfront.unique hway).1] at hlast
  have hfree : ∀ r, step q name = .ok r → r = q ++ [name] ∧ d.node? r = none := by
    intro r hs
    have hr := step_down hname hup hs
    exact ⟨hr, hr ▸ hbelow _ (List.prefix_append q [name]) (by simp)⟩
  cases hlast with
  | into hs hdir _ => simp [(hfree _ hs).2] at hdir
  | along hs hlink _ _ => simp [(hfree _ hs).2] at hlink
  | last hs _ _ => exact ⟨(hfree p hs).1, hs, (hfree p hs).2⟩

/-- What may have become of a volume when directories have been made at a place and below it, at
most so many parts deep. -/
def GrownBelow (d d' : Volume) (q : Path) (depth : Nat) : Prop :=
  ∀ r, d'.node? r = d.node? r ∨
    q <+: r ∧ r.length ≤ depth ∧ d.node? r = none ∧ d'.node? r = some .directory

/-- Below a directory with nothing in it the names that lead down are made, one after the other. -/
theorem makeBelow_fresh (hway : d.Way true mostLinks [] done q left)
    (hq : d.node? q = some .directory) (hbelow : ∀ r, q <+: r → r ≠ q → d.node? r = none)
    (hnames : ∀ name ∈ names, leads name = true) (hup : upName ∉ names) :
    d.GrownBelow (d.makeBelow done names).2 q (q.length + names.length) := by
  induction names generalizing d done q left with
  | nil => exact fun r => .inl rfl
  | cons name names ih =>
    rw [List.forall_mem_cons] at hnames
    rw [List.mem_cons, not_or] at hup
    rw [makeBelow]
    split
    · rename_i hlead
      obtain ⟨p, k, hway', hp⟩ := leadsToDirectory_iff.mp hlead
      obtain ⟨-, -, hfree⟩ := hway'.last_of_fresh hway hbelow hnames.1 (Ne.symm hup.1)
      rw [hp] at hfree
      cases hfree
    · split
      · exact fun r => .inl rfl
      · rename_i p hwalk
        obtain ⟨k, hwalk⟩ := way_of_walk hwalk
        obtain ⟨hp, hs, hfree⟩ := hwalk.last_of_fresh hway hbelow hnames.1 (Ne.symm hup.1)
        rw [hfree]
        have hroot : p ≠ [] := by simp [hp]
        have hself : node? (d.set p .directory) p = some .directory := by
          rw [node?_set d p _ hroot, if_pos rfl]
        have hkeeps := (grown_set hfree).keepsWays
        have hqp : q <+: p := hp ▸ List.prefix_append q [name]
        have hway' : Way (d.set p .directory) true mostLinks [] (done ++ [name]) p left :=
          (hway.mono hkeeps).append (hkeeps.directory q hq) (.into hs hself .here) (by simp)
        have hbelow' : ∀ r, p <+: r → r ≠ p → node? (d.set p .directory) r = none := by
          intro r hr hne
          rw [node?_set_of_ne d _ hne]
          refine hbelow r (hqp.trans hr) ?_
          rintro rfl
          have hlength := hr.length_le
          simp only [hp, List.length_append, List.length_singleton] at hlength
          omega
        have hmade := ih hway' hself hbelow' hnames.2 hup.2
        intro r
        by_cases hrp : r = p
        · subst hrp
          refine .inr ⟨hqp, by simp [hp], hfree, ?_⟩
          rcases hmade r with he | ⟨-, -, -, hd⟩
          · exact he.trans hself
          · exact hd
        · rcases hmade r with he | ⟨hpr, hlength, hn, hd⟩
          · exact .inl (he.trans (node?_set_of_ne d _ hrp))
          · rw [node?_set_of_ne d _ hrp] at hn
            refine .inr ⟨hqp.trans hpr, ?_, hn, hd⟩
            simp only [hp, List.length_append, List.length_cons, List.length_nil] at hlength ⊢
            omega

/-- The names lead up from no directory that is missing. -/
def Stands (d : Volume) (names : List String) : Prop :=
  ∀ front name rest p q left, names = front ++ name :: rest →
    d.Way true mostLinks [] front p left → d.node? p = some .directory →
    step p name = .ok q → d.node? q = none → upName ∉ rest

theorem stands_of_down (h : upName ∉ names) : d.Stands names := by
  rintro front name rest p q left rfl - - - -
  simp only [List.mem_append, List.mem_cons, not_or] at h
  exact h.2.2

/-- Names that lead to a place lead up from no directory that is missing. -/
theorem stands_of_way (h : d.Way true mostLinks [] names q left) : d.Stands names := by
  rintro front name rest p r k rfl hway hp hstep hr
  by_cases hrest : rest = []
  · simp [hrest]
  · obtain ⟨p', k', hfront, -, hlater⟩ := h.split (node?_root d) (by simp)
    rw [(hfront.unique hway).1] at hlater
    obtain ⟨hdir, -⟩ := hlater.goes_on hstep (by simp [hr]) hrest
    simp [hr] at hdir

/-- Directories have been made from the first of the names on that was missing, and nowhere else. -/
structure MadeFrom (d d' : Volume) (front : List String) (name : String) (rest : List String)
    (q : Path) : Prop where
  way : ∃ p left, d.Way true mostLinks [] front p left ∧ d.node? p = some .directory ∧
    step p name = .ok q
  missing : d.node? q = none
  grown : d.GrownBelow d' q (q.length + rest.length)

theorem makeBelow_cases (ho : d.Orderly) (hs : d.Stands (done ++ names))
    (hnames : ∀ name ∈ names, leads name = true) : (d.makeBelow done names).2 = d ∨
      ∃ front name rest q, done ++ names = front ++ name :: rest ∧
        d.MadeFrom (d.makeBelow done names).2 front name rest q := by
  induction names generalizing done with
  | nil => exact .inl rfl
  | cons name names ih =>
    have hnames' := List.forall_mem_cons.mp hnames
    have hall : done ++ name :: names = (done ++ [name]) ++ names := by simp
    rw [makeBelow]
    split
    · rw [hall] at hs ⊢
      exact ih hs hnames'.2
    · split
      · exact .inl rfl
      · rename_i q hwalk
        cases hq : d.node? q with
        | some n => exact .inl rfl
        | none =>
          right
          obtain ⟨left, hwalk⟩ := way_of_walk hwalk
          obtain ⟨p, k, hway, hp, hlast⟩ := hwalk.split (node?_root d) (by simp)
          have hstep := step_of_way hlast
          have hself : node? (d.set q .directory) q = some .directory := by
            rw [node?_set d q _ (ne_nil_of_node? (d := d) (by simp [hq])), if_pos rfl]
          have hkeeps := (grown_set hq).keepsWays
          have hway' : Way (d.set q .directory) true mostLinks [] (done ++ [name]) q k :=
            (hway.mono hkeeps).append (hkeeps.directory p hp) (.into hstep hself .here) (by simp)
          have hbelow : ∀ r, q <+: r → r ≠ q → node? (d.set q .directory) r = none := by
            intro r hr hne
            rw [node?_set_of_ne d _ hne]
            exact ho.none_below hq hr
          have hup : upName ∉ names := hs done name names p q k rfl hway hp hstep hq
          have hfresh := makeBelow_fresh hway' hself hbelow hnames'.2 hup
          refine ⟨done, name, names, q, rfl, ⟨p, k, hway, hp, hstep⟩, hq, fun r => ?_⟩
          by_cases hr : r = q
          · subst hr
            refine .inr ⟨List.prefix_rfl, by omega, hq, ?_⟩
            rcases hfresh r with he | ⟨-, -, -, hd⟩
            · exact he.trans hself
            · exact hd
          · rcases hfresh r with he | ⟨hqr, hlength, hn, hd⟩
            · exact .inl (he.trans (node?_set_of_ne d _ hr))
            · rw [node?_set_of_ne d _ hr] at hn
              exact .inr ⟨hqr, hlength, hn, hd⟩

theorem MadeFrom.keepsWays {front : List String} (h : d.MadeFrom d' front name rest q) :
    d.KeepsWays d' :=
  Grown.keepsWays fun r => (h.grown r).imp_right fun ⟨_, _, hn, hd⟩ => ⟨hn, hd⟩

/-- Directories that have been made lead to nothing that is further down than they are. -/
theorem MadeFrom.nothing {front more : List String} {route : Route}
    (h : d.MadeFrom d' front name rest q) (ho : d.Orderly)
    (hroute : route.names = front ++ name :: (rest ++ more)) (hmore : more ≠ [])
    (hup : upName ∉ rest ++ more) : (∀ e, d.entry route ≠ .ok e) ∧ ∀ e, d'.entry route ≠ .ok e := by
  obtain ⟨p, left, hway, hp, hstep⟩ := h.way
  have hleads : ∀ name ∈ route.names, leads name = true :=
    fun name hname => (List.mem_filter.mp hname).2
  have hlater : rest ++ more ≠ [] := by simp [hmore]
  refine ⟨fun e he => ?_, fun e he => ?_⟩
  · obtain ⟨g, hgoal, -⟩ := entry_eq_ok_iff.mp he
    obtain ⟨-, left', hall⟩ := goal_eq_ok_iff.mp hgoal
    rw [hroute] at hall
    obtain ⟨p', k, hfront, -, hrest⟩ := hall.split (node?_root d) (by simp)
    rw [(hfront.unique hway).1] at hrest
    obtain ⟨hdir, -⟩ := hrest.goes_on hstep (by simp [h.missing]) hlater
    rw [h.missing] at hdir
    cases hdir
  · obtain ⟨g, hgoal, hg⟩ := entry_eq_ok_iff.mp he
    obtain ⟨-, left', hall⟩ := goal_eq_ok_iff.mp hgoal
    rw [hroute] at hall hleads
    obtain ⟨p', k, hfront, -, hrest⟩ := hall.split (node?_root d') (by simp)
    rw [(hfront.unique (hway.mono h.keepsWays)).1] at hrest
    -- nothing but directories have been made where nothing was
    have hfree : ∀ r, q <+: r → ∀ target, d'.node? r ≠ some (.link target) := by
      intro r hr target hl
      rw [← h.keepsWays.link, ho.none_below h.missing hr] at hl
      cases hl
    obtain ⟨-, hbelow⟩ := hrest.goes_on hstep (hfree q List.prefix_rfl) hlater
    have hplace := hbelow.down (fun name hname => hleads name (by simp [hname])) hup hfree
    have hnone : d'.node? g = none := by
      rcases h.grown g with he | ⟨-, hlength, -⟩
      · rw [he, hplace]
        exact ho.none_below h.missing (List.prefix_append q _)
      · have hlong : 0 < more.length := List.length_pos_iff.mpr hmore
        simp only [hplace, List.length_append] at hlength
        omega
    simp [hnone] at hg

end Larder.Storage.Volume
