import Larder.Proofs.Disks
import Larder.Storage.Volume
import Mathlib.Data.List.Induction

namespace Larder.Storage.Volume

variable {d d' : Volume} {p q r : Path} {n : Node} {toEnd : Bool} {links left : Nat}
  {part name : String}
  {parts names rest : List String}

@[simp] theorem node?_root (d : Volume) : d.node? [] = some .directory := rfl

theorem ne_nil_of_node? (h : d.node? p ≠ some .directory) : p ≠ [] := by
  rintro rfl
  exact h rfl

theorem node?_erase (d : Volume) (p : Path) (hq : q ≠ []) :
    node? (d.erase p) q = if q = p then none else d.node? q := by
  unfold node?
  rw [if_neg hq, if_neg hq]
  exact Disk.lookup_filter d.nodes p q

theorem node?_set (d : Volume) (p : Path) (n : Node) (hq : q ≠ []) :
    node? (d.set p n) q = if q = p then some n else d.node? q := by
  unfold node?
  rw [if_neg hq, if_neg hq]
  simp only [set, List.lookup_cons]
  by_cases h : q = p
  · simp [h]
  · rw [beq_eq_false_iff_ne.mpr h, if_neg h]
    exact (Disk.lookup_filter d.nodes p q).trans (if_neg h)

theorem node?_erase_of_ne (d : Volume) (h : q ≠ p) : node? (d.erase p) q = d.node? q := by
  by_cases hroot : q = []
  · subst hroot
    rfl
  · rw [node?_erase d p hroot, if_neg h]

theorem node?_set_of_ne (d : Volume) (n : Node) (h : q ≠ p) :
    node? (d.set p n) q = d.node? q := by
  by_cases hroot : q = []
  · subst hroot
    rfl
  · rw [node?_set d p n hroot, if_neg h]

theorem lookup_map {α β : Type} (f : α → β) (es : List (Path × α)) (p : Path) :
    (es.map fun (q, a) => (q, f a)).lookup p = (es.lookup p).map f := by
  induction es with
  | nil => rfl
  | cons e es ih =>
    obtain ⟨q, a⟩ := e
    simp only [List.map_cons, List.lookup_cons, ih]
    split <;> rfl

theorem start_isDirectory (hp : d.node? p = some .directory) (target : String) :
    d.node? (start p target) = some .directory := by
  unfold start
  split
  · rfl
  · exact hp

/-- A way through directories and links, with the links that may still be followed at its end. The
place there may be free. -/
inductive Way (d : Volume) (toEnd : Bool) : Nat → Path → List String → Path → Nat → Prop where
  | here {links : Nat} {p : Path} : Way d toEnd links p [] p links
  | into {links left : Nat} {p q r : Path} {part : String} {parts : List String}
      (hs : step p part = .ok q) (hq : d.node? q = some .directory)
      (h : Way d toEnd links q parts r left) : Way d toEnd links p (part :: parts) r left
  | along {links left : Nat} {p q r : Path} {part target : String} {parts : List String}
      (hs : step p part = .ok q) (hq : d.node? q = some (.link target))
      (hmore : parts = [] → toEnd = true)
      (h : Way d toEnd links (start p target) (partsOf target ++ parts) r left) :
      Way d toEnd (links + 1) p (part :: parts) r left
  | last {links : Nat} {p q : Path} {part : String} (hs : step p part = .ok q)
      (hq : d.node? q ≠ some .directory)
      (hl : ∀ target, d.node? q = some (.link target) → toEnd = false) :
      Way d toEnd links p [part] q links

/-- What is followed behind a link, when so many links may still be followed. -/
def beyond (d : Volume) (toEnd : Bool) : Nat → Path → List String → Except Refusal Path
  | 0 => fun _ _ => .error .tooManyLinks
  | links + 1 => d.walk toEnd links

theorem walk_eq (d : Volume) (toEnd : Bool) (links : Nat) :
    d.walk toEnd links = d.walkWith toEnd (d.beyond toEnd links) := by
  cases links <;> rfl

theorem Way.walk_eq_ok (h : d.Way toEnd links p parts q left) :
    d.walk toEnd links p parts = .ok q := by
  induction h with
  | here =>
    rw [walk_eq]
    rfl
  | into hs hq _ ih =>
    rw [walk_eq] at ih ⊢
    simp only [walkWith, hs, hq, bind, Except.bind]
    exact ih
  | @along links left p q r part target parts hs hq hmore _ ih =>
    rw [walk_eq]
    have hmore' : (parts.isEmpty && !toEnd) = false := by
      cases parts with
      | nil => simp [hmore rfl]
      | cons part parts => rfl
    simp only [walkWith, hs, hq, bind, Except.bind, hmore', Bool.false_eq_true, ↓reduceIte]
    exact ih
  | @last links p q part hs hq hl =>
    rw [walk_eq]
    simp only [walkWith, hs, bind, Except.bind]
    cases hn : d.node? q with
    | none => rfl
    | some n =>
      cases n with
      | directory => exact absurd hn hq
      | file text number => rfl
      | link target =>
        rw [hl target hn]
        rfl

theorem way_of_walk (h : d.walk toEnd links p parts = .ok q) :
    ∃ left, d.Way toEnd links p parts q left := by
  induction links using Nat.strongRecOn generalizing p parts with
  | _ links ihLinks =>
  induction parts generalizing p with
  | nil =>
    rw [walk_eq] at h
    cases h
    exact ⟨links, .here⟩
  | cons part parts ih =>
    rw [walk_eq] at h
    simp only [walkWith, bind_ok] at h
    obtain ⟨q', hs, h⟩ := h
    cases hn : d.node? q' with
    | none =>
      rw [hn] at h
      cases parts with
      | nil =>
        cases h
        exact ⟨links, .last hs (by simp [hn]) (by simp [hn])⟩
      | cons next parts => cases h
    | some n =>
      rw [hn] at h
      cases n with
      | directory =>
        dsimp only at h
        rw [← walk_eq] at h
        obtain ⟨left, h⟩ := ih h
        exact ⟨left, .into hs hn h⟩
      | file text number =>
        cases parts with
        | nil =>
          cases h
          exact ⟨links, .last hs (by simp [hn]) (by simp [hn])⟩
        | cons next parts => cases h
      | link target =>
        dsimp only at h
        split at h
        · rename_i hend
          rw [Bool.and_eq_true, List.isEmpty_iff, Bool.not_eq_true'] at hend
          obtain ⟨rfl, hfalse⟩ := hend
          cases h
          exact ⟨links, .last hs (by simp [hn]) fun _ _ => hfalse⟩
        · rename_i hend
          have hmore : parts = [] → toEnd = true := by
            rintro rfl
            simpa using hend
          cases links with
          | zero => cases h
          | succ links =>
            obtain ⟨left, h⟩ := ihLinks links (by omega) h
            exact ⟨left, .along hs hn hmore h⟩

theorem walk_eq_ok_iff :
    d.walk toEnd links p parts = .ok q ↔ ∃ left, d.Way toEnd links p parts q left :=
  ⟨way_of_walk, fun ⟨_, h⟩ => h.walk_eq_ok⟩

/-- There is one way at most. -/
theorem Way.unique {left' : Nat} (h : d.Way toEnd links p parts q left)
    (h' : d.Way toEnd links p parts r left') : q = r ∧ left = left' := by
  induction h with
  | here =>
    cases h'
    exact ⟨rfl, rfl⟩
  | into hs hq _ ih =>
    cases h' with
    | into hs' _ h' =>
      cases hs.symm.trans hs'
      exact ih h'
    | along hs' hl _ _ =>
      cases hs.symm.trans hs'
      simp [hq] at hl
    | last hs' hn _ =>
      cases hs.symm.trans hs'
      exact absurd hq hn
  | along hs hq hmore _ ih =>
    cases h' with
    | into hs' hd _ =>
      cases hs.symm.trans hs'
      simp [hq] at hd
    | along hs' hl _ h' =>
      cases hs.symm.trans hs'
      cases hq.symm.trans hl
      exact ih h'
    | last hs' _ hl =>
      cases hs.symm.trans hs'
      simp [hl _ hq] at hmore
  | last hs hn hl =>
    cases h' with
    | into hs' hd _ =>
      cases hs.symm.trans hs'
      exact absurd hd hn
    | along hs' hq hmore _ =>
      cases hs.symm.trans hs'
      simp [hl _ hq] at hmore
    | last hs' _ _ =>
      cases hs.symm.trans hs'
      exact ⟨rfl, rfl⟩

/-- A name that leads to no link, or to one that is not to be followed. -/
theorem way_of_step (hs : step p part = .ok q)
    (hl : ∀ target, d.node? q = some (.link target) → toEnd = false) :
    d.Way toEnd links p [part] q links := by
  by_cases hq : d.node? q = some .directory
  · exact .into hs hq .here
  · exact .last hs hq hl

theorem step_of_way (h : d.Way false links p [part] q left) : step p part = .ok q := by
  cases h with
  | into hs _ h =>
    cases h
    exact hs
  | along _ _ hmore _ => cases hmore rfl
  | last hs _ _ => exact hs

/-- Where more is to come, a name that leads to no link leads to a directory. -/
theorem Way.goes_on (h : d.Way toEnd links p (name :: names) q left) (hs : step p name = .ok r)
    (hl : ∀ target, d.node? r ≠ some (.link target)) (hnames : names ≠ []) :
    d.node? r = some .directory ∧ d.Way toEnd links r names q left := by
  cases h with
  | into hs' hr h =>
    cases hs.symm.trans hs'
    exact ⟨hr, h⟩
  | along hs' hr _ _ =>
    cases hs.symm.trans hs'
    exact absurd hr (hl _)
  | last _ _ _ => exact absurd rfl hnames

/-- A way that is followed to its end does not end at a link. -/
theorem Way.not_link (h : d.Way true links p parts q left) (hp : d.node? p = some .directory)
    (target : String) : d.node? q ≠ some (.link target) := by
  induction h with
  | here => simp [hp]
  | into _ hq _ ih => exact ih hq
  | along _ _ _ _ ih => exact ih (start_isDirectory hp _)
  | last _ _ hl => exact fun hq => by cases hl target hq

/-- With more links to follow a way is the same. -/
theorem Way.more (h : d.Way toEnd links p parts q left) (k : Nat) :
    d.Way toEnd (links + k) p parts q (left + k) := by
  induction h with
  | here => exact .here
  | into hs hq _ ih => exact .into hs hq ih
  | along hs hq hmore _ ih =>
    rw [Nat.add_right_comm]
    exact .along hs hq hmore ih
  | last hs hq hl => exact .last hs hq hl

/-- A way that ends in a directory can be gone on from there. -/
theorem Way.append {left' : Nat} (h : d.Way true links p parts q left)
    (hq : d.node? q = some .directory) (h' : d.Way toEnd left q rest r left') (hrest : rest ≠ []) :
    d.Way toEnd links p (parts ++ rest) r left' := by
  induction h with
  | here => exact h'
  | into hs hq' _ ih => exact .into hs hq' (ih hq h')
  | along hs hq' _ _ ih =>
    refine .along hs hq' (by simp [hrest]) ?_
    have hbehind := ih hq h'
    rwa [List.append_assoc] at hbehind
  | last _ hnot _ => exact absurd hq hnot

/-- Parts behind a way to a directory are followed from there. -/
theorem Way.walk_append (h : d.Way true links p parts q left) (hq : d.node? q = some .directory)
    (hrest : rest ≠ []) : d.walk toEnd links p (parts ++ rest) = d.walk toEnd left q rest := by
  induction h with
  | here => rfl
  | into hs hq' _ ih =>
    rw [← ih hq, walk_eq]
    simp only [List.cons_append, walkWith, hs, hq', bind, Except.bind]
  | @along links left p q' q part target parts hs hq' _ _ ih =>
    have hmore : (parts ++ rest).isEmpty = false := by
      rw [List.isEmpty_eq_false_iff]
      simp [hrest]
    rw [← ih hq, walk_eq, List.append_assoc]
    simp only [List.cons_append, walkWith, hs, hq', bind, Except.bind, hmore, Bool.false_and,
      Bool.false_eq_true, ↓reduceIte]
    rfl
  | last _ hnot _ => exact absurd hq hnot

/-- Before its last parts a way has come to a directory. -/
theorem Way.split (h : d.Way toEnd links p (parts ++ rest) q left)
    (hp : d.node? p = some .directory) (hrest : rest ≠ []) :
    ∃ r k, d.Way true links p parts r k ∧ d.node? r = some .directory ∧
      d.Way toEnd k r rest q left := by
  generalize hall : parts ++ rest = all at h
  induction h generalizing parts with
  | here => simp [hrest] at hall
  | @into links left p q' q part _ hs hq h ih =>
    cases parts with
    | nil =>
      rw [List.nil_append] at hall
      rw [hall]
      exact ⟨p, links, .here, hp, .into hs hq h⟩
    | cons first parts =>
      rw [List.cons_append, List.cons.injEq] at hall
      obtain ⟨rfl, hall⟩ := hall
      obtain ⟨r, k, h, hr, hlater⟩ := ih hq hall
      exact ⟨r, k, .into hs hq h, hr, hlater⟩
  | @along links left p q' q part target later hs hq hmore h ih =>
    cases parts with
    | nil =>
      rw [List.nil_append] at hall
      rw [hall]
      exact ⟨p, links + 1, .here, hp, .along hs hq hmore h⟩
    | cons first parts =>
      rw [List.cons_append, List.cons.injEq] at hall
      obtain ⟨rfl, hall⟩ := hall
      have hbehind : (partsOf target ++ parts) ++ rest = partsOf target ++ later := by
        rw [List.append_assoc, hall]
      obtain ⟨r, k, h, hr, hlater⟩ := ih (start_isDirectory hp target) hbehind
      exact ⟨r, k, .along hs hq (fun _ => rfl) h, hr, hlater⟩
  | @last links p q part hs hq hl =>
    cases parts with
    | nil =>
      rw [List.nil_append] at hall
      rw [hall]
      exact ⟨p, links, .here, hp, .last hs hq hl⟩
    | cons first parts =>
      simp [hrest] at hall

/-- A way is the same where its directories and links are, unless there is a link where it ended. -/
theorem Way.transfer (hd : ∀ p, d.node? p = some .directory → d'.node? p = some .directory)
    (hl : ∀ p target, d.node? p = some (.link target) → d'.node? p = some (.link target))
    (h : d.Way toEnd links p parts q left)
    (hq : ∀ target, d'.node? q = some (.link target) → d.node? q = some (.link target)) :
    d'.Way toEnd links p parts q left := by
  induction h with
  | here => exact .here
  | into hs hdir _ ih => exact .into hs (hd _ hdir) (ih hq)
  | along hs hlink hmore _ ih => exact .along hs (hl _ _ hlink) hmore (ih hq)
  | last hs _ hend => exact way_of_step hs fun target ht => hend target (hq target ht)

/-- Every directory of one volume is one of the other, and they have the same links. -/
structure KeepsWays (d d' : Volume) : Prop where
  directory : ∀ p, d.node? p = some .directory → d'.node? p = some .directory
  link : ∀ p target, d.node? p = some (.link target) ↔ d'.node? p = some (.link target)

theorem Way.mono (hk : d.KeepsWays d') (h : d.Way toEnd links p parts q left) :
    d'.Way toEnd links p parts q left :=
  h.transfer hk.directory (fun p target => (hk.link p target).mp)
    fun target => (hk.link q target).mpr

theorem step_down (hname : leads name = true) (hup : name ≠ upName) (h : step p name = .ok q) :
    q = p ++ [name] := by
  rw [step, if_pos hname, Disk.step, if_neg hup] at h
  split at h
  · cases h
  · cases h
    rfl

/-- Where no link is in the way, names that lead down lead to the place that they name. -/
theorem Way.down (h : d.Way toEnd links p names q left)
    (hnames : ∀ name ∈ names, leads name = true) (hup : upName ∉ names)
    (hfree : ∀ r, p <+: r → ∀ target, d.node? r ≠ some (.link target)) : q = p ++ names := by
  induction h with
  | here => simp
  | @into links left p q r name names hs _ _ ih =>
    rw [List.forall_mem_cons] at hnames
    rw [List.mem_cons, not_or] at hup
    have hq := step_down hnames.1 (Ne.symm hup.1) hs
    rw [hq] at ih
    rw [ih hnames.2 hup.2 fun r hr => hfree r ((List.prefix_append p [name]).trans hr)]
    simp
  | @along links left p q r name target names hs hq _ _ _ =>
    rw [List.forall_mem_cons] at hnames
    rw [List.mem_cons, not_or] at hup
    have hplace := step_down hnames.1 (Ne.symm hup.1) hs
    exact absurd hq (hfree q (hplace ▸ List.prefix_append p [name]) target)
  | last hs _ _ => exact step_down (hnames _ List.mem_cons_self) (by simpa [eq_comm] using hup) hs

theorem node?_of_erase (h : node? (d.erase p) q = some n) : d.node? q = some n := by
  by_cases hq : q = []
  · subst hq
    exact h
  · rw [node?_erase d p hq] at h
    split at h
    · cases h
    · exact h

/-- What leads to a directory when nothing stands at a place leads there with it as well. -/
theorem Way.of_erase (h : Way (d.erase r) true links p parts q left)
    (hq : d.node? q = some .directory) : d.Way true links p parts q left :=
  h.transfer (fun _ hn => node?_of_erase hn) (fun _ _ hn => node?_of_erase hn) (by simp [hq])

/-- Everything stands in a directory. -/
def Orderly (d : Volume) : Prop := ∀ p, d.node? p ≠ none → d.node? p.dropLast = some .directory

theorem orderly_of_nodes (h : ∀ e ∈ d.nodes, d.node? e.1.dropLast = some .directory) :
    d.Orderly := by
  intro p hp
  by_cases hroot : p = []
  · subst hroot
    rfl
  · unfold node? at hp
    rw [if_neg hroot] at hp
    obtain ⟨n, hn⟩ := Option.ne_none_iff_exists'.mp hp
    obtain ⟨before, after, hnodes, -⟩ := List.lookup_eq_some_iff.mp hn
    exact h (p, n) (by simp [hnodes])

/-- Where nothing is there is nothing below. -/
theorem Orderly.none_below (h : d.Orderly) (hp : d.node? p = none) (hq : p <+: q) :
    d.node? q = none := by
  obtain ⟨rest, rfl⟩ := hq
  induction rest using List.reverseRecOn with
  | nil => simpa using hp
  | append_singleton rest name ih =>
    refine Classical.byContradiction fun hn => ?_
    have hdir := h _ hn
    rw [← List.append_assoc, List.dropLast_concat, ih] at hdir
    cases hdir

theorem Orderly.set (h : d.Orderly) (n : Node) (hp : d.node? p ≠ some .directory)
    (hin : d.node? p.dropLast = some .directory) : Orderly (d.set p n) := by
  have hkeep : ∀ q, d.node? q = some .directory → node? (d.set p n) q = some .directory := by
    intro q hq
    rw [node?_set_of_ne d n (by rintro rfl; exact hp hq), hq]
  intro q hq
  by_cases hqp : q = p
  · exact hkeep _ (hqp ▸ hin)
  · rw [node?_set_of_ne d n hqp] at hq
    exact hkeep _ (h q hq)

theorem Orderly.erase (h : d.Orderly) (hp : d.node? p ≠ some .directory) :
    Orderly (d.erase p) := by
  intro q hq
  have hne : q ≠ p := by
    rintro rfl
    rw [node?_erase d q (ne_nil_of_node? hp), if_pos rfl] at hq
    exact hq rfl
  rw [node?_erase_of_ne d hne] at hq
  have hdir := h q hq
  rw [node?_erase_of_ne d (by intro he; rw [he] at hdir; exact hp hdir), hdir]

/-- What is no directory stands in the directory that it is looked up in. -/
theorem Orderly.dropLast_of_step (h : d.Orderly) (hp : d.node? p = some .directory)
    (hs : step p part = .ok q) (hq : d.node? q ≠ some .directory) : q.dropLast = p := by
  unfold step at hs
  split at hs
  · unfold Disk.step at hs
    split at hs
    · cases hs
      exact absurd (h p (by simp [hp])) hq
    · split at hs
      · cases hs
      · cases hs
        exact List.dropLast_concat
  · cases hs
    exact absurd hp hq

/-- Behind parts that lead to no directory nothing follows. -/
theorem Way.stops {links' left' : Nat} (h : d.Way true links p parts q left)
    (hp : d.node? p = some .directory) (hq : d.node? q ≠ some .directory)
    (h' : d.Way true links' p (parts ++ rest) r left') : rest = [] ∧ r = q := by
  have hsame : ∀ {links' left' r}, d.Way true links' p parts r left' → r = q := by
    intro links' left' r h'
    have hmore := h'.more links
    rw [Nat.add_comm] at hmore
    exact (hmore.unique (h.more links')).1
  by_cases hrest : rest = []
  · subst hrest
    rw [List.append_nil] at h'
    exact ⟨rfl, hsame h'⟩
  · obtain ⟨r', k, hfront, hr', -⟩ := h'.split hp hrest
    rw [hsame hfront] at hr'
    exact absurd hr' hq

section Avoiding

variable {place : Path} {target : String}

/-- A way keeps clear of a link, or comes to what is behind it with fewer links left to follow. -/
theorem Way.avoids_or_meets (ho : d.Orderly) (hl : d.node? place = some (.link target))
    (h : d.Way true links p parts q left) (hp : d.node? p = some .directory) :
    Way (d.erase place) true links p parts q left ∨ ∃ k rest, k < links ∧
      d.Way true k (start place.dropLast target) (partsOf target ++ rest) q left := by
  induction h with
  | here => exact .inl .here
  | @into links left p q' q part parts hs hq _ ih =>
    refine (ih hq).imp_left fun h => .into hs ?_ h
    rw [node?_erase_of_ne d (by rintro rfl; rw [hq] at hl; cases hl), hq]
  | @along links left p q' q part other parts hs hq hmore h ih =>
    by_cases hplace : q' = place
    · subst hplace
      cases hq.symm.trans hl
      rw [← ho.dropLast_of_step hp hs (by simp [hq])] at h
      exact .inr ⟨links, parts, Nat.lt_succ_self links, h⟩
    · rcases ih (start_isDirectory hp other) with h | ⟨k, rest, hk, h⟩
      · exact .inl (.along hs (by rw [node?_erase_of_ne d hplace, hq]) hmore h)
      · exact .inr ⟨k, rest, Nat.lt_succ_of_lt hk, h⟩
  | @last links p q part hs hq hend =>
    refine .inl (.last hs ?_ ?_)
    · rw [node?_erase_of_ne d (by rintro rfl; cases hend target hl)]
      exact hq
    · intro other ho
      rw [node?_erase_of_ne d (by rintro rfl; cases hend target hl)] at ho
      exact hend other ho

variable {links' left' : Nat} {g : Path}

/-- A link that leads to no directory is on no way to a directory. -/
theorem Way.avoids (ho : d.Orderly) (hl : d.node? place = some (.link target))
    (hbehind : d.Way true links' (start place.dropLast target) (partsOf target) g left')
    (hg : d.node? g ≠ some .directory) (h : d.Way true links p parts q left)
    (hp : d.node? p = some .directory) (hq : d.node? q = some .directory) :
    Way (d.erase place) true links p parts q left := by
  rcases h.avoids_or_meets ho hl hp with h | ⟨k, rest, -, h⟩
  · exact h
  · obtain ⟨-, rfl⟩ := hbehind.stops
      (start_isDirectory (ho _ (by simp [hl])) target) hg h
    exact absurd hq hg

/-- What is behind a link does not lead back to it. -/
theorem Way.avoids_self (ho : d.Orderly) (hl : d.node? place = some (.link target))
    (h : d.Way true links (start place.dropLast target) (partsOf target) g left)
    (hg : d.node? g ≠ some .directory) :
    Way (d.erase place) true links (start place.dropLast target) (partsOf target) g left := by
  have hstart := start_isDirectory (ho place (by simp [hl])) target
  rcases h.avoids_or_meets ho hl hstart with h' | ⟨k, rest, hk, h'⟩
  · exact h'
  · obtain ⟨rfl, -⟩ := h.stops hstart hg h'
    rw [List.append_nil] at h'
    -- the same way with fewer links to follow has fewer links left at its end
    have hmore := h'.more (links - k)
    rw [Nat.add_sub_cancel' (Nat.le_of_lt hk)] at hmore
    have hleft := (h.unique hmore).2
    omega

end Avoiding

section Places

variable {route : Route} {front : List String}

/-- Where the other names lead to a directory the last one is looked up there, or refused. -/
theorem place_of_front (hr : route.names = front ++ [name])
    (h : d.Way true mostLinks [] front p left) (hp : d.node? p = some .directory) :
    d.place route = match Disk.complaint? route with
      | some x => .error x
      | none => step p name := by
  unfold place
  cases Disk.complaint? route with
  | some x => rfl
  | none =>
    dsimp only
    rw [hr, h.walk_append hp (by simp), walk_eq]
    cases hs : step p name with
    | error x => simp only [walkWith, hs, bind, Except.bind]
    | ok q =>
      rw [← walk_eq]
      exact (way_of_step hs fun _ _ => rfl).walk_eq_ok

/-- The last name of a route is looked up in a directory that the others lead to. -/
theorem place_eq_ok_iff (hr : route.names = front ++ [name]) : d.place route = .ok q ↔
    Disk.complaint? route = none ∧ ∃ p left, d.Way true mostLinks [] front p left ∧
      d.node? p = some .directory ∧ step p name = .ok q := by
  unfold place
  cases Disk.complaint? route with
  | some x => simp
  | none =>
    rw [hr]
    dsimp only
    rw [walk_eq_ok_iff]
    constructor
    · rintro ⟨left, h⟩
      obtain ⟨p, k, hway, hp, hlast⟩ := h.split (node?_root d) (by simp)
      exact ⟨rfl, p, k, hway, hp, step_of_way hlast⟩
    · rintro ⟨-, p, left, hway, hp, hs⟩
      exact ⟨left, hway.append hp (way_of_step hs fun _ _ => rfl) (by simp)⟩

theorem goal_eq_ok_iff : d.goal route = .ok q ↔
    Disk.complaint? route = none ∧ ∃ left, d.Way true mostLinks [] route.names q left := by
  unfold goal
  cases Disk.complaint? route with
  | some x => simp
  | none => simp [walk_eq_ok_iff]

theorem place_of_goal (hr : route.names = front ++ [name]) (h : d.goal route = .ok q) :
    ∃ p, d.place route = .ok p := by
  obtain ⟨hclear, left, hway⟩ := goal_eq_ok_iff.mp h
  rw [hr] at hway
  obtain ⟨p, k, hway, hp, hlast⟩ := hway.split (node?_root d) (by simp)
  have hstep : ∃ q', step p name = .ok q' := by
    cases hlast with
    | into hs _ _ => exact ⟨_, hs⟩
    | along hs _ _ _ => exact ⟨_, hs⟩
    | last hs _ _ => exact ⟨_, hs⟩
  obtain ⟨q', hs⟩ := hstep
  exact ⟨q', (place_eq_ok_iff hr).mpr ⟨hclear, p, k, hway, hp, hs⟩⟩

/-- A last name that is no link leads where it stands. -/
theorem goal_of_place (hr : route.names = front ++ [name]) (h : d.place route = .ok q)
    (hl : ∀ target, d.node? q ≠ some (.link target)) : d.goal route = .ok q := by
  obtain ⟨hclear, p, left, hway, hp, hs⟩ := (place_eq_ok_iff hr).mp h
  rw [goal_eq_ok_iff, hr]
  exact ⟨hclear, left,
    hway.append hp (way_of_step hs fun target ht => absurd ht (hl target)) (by simp)⟩

theorem goal_not_link (h : d.goal route = .ok q) (target : String) :
    d.node? q ≠ some (.link target) := by
  obtain ⟨-, left, hway⟩ := goal_eq_ok_iff.mp h
  exact hway.not_link (node?_root d) target

theorem place_mono (hk : d.KeepsWays d') (hr : route.names = front ++ [name])
    (h : d.place route = .ok q) : d'.place route = .ok q := by
  obtain ⟨hclear, p, left, hway, hp, hs⟩ := (place_eq_ok_iff hr).mp h
  exact (place_eq_ok_iff hr).mpr ⟨hclear, p, left, hway.mono hk, hk.directory p hp, hs⟩

theorem goal_mono (hk : d.KeepsWays d') (h : d.goal route = .ok q) : d'.goal route = .ok q := by
  obtain ⟨hclear, left, hway⟩ := goal_eq_ok_iff.mp h
  exact goal_eq_ok_iff.mpr ⟨hclear, left, hway.mono hk⟩

end Places

end Larder.Storage.Volume
