import Larder.Text.Blank
import Mathlib.Data.List.DropRight

namespace Larder.Text

/-- Nothing but blanks. -/
def IsBlanks (cs : List Char) : Prop := ∀ c ∈ cs, isBlank c = true

/-- What follows does not begin with a blank. -/
def NoBlank (cs : List Char) : Prop := ∀ c ∈ cs.head?, isBlank c = false

/-- The second text is the first without the blanks around it. -/
structure Trims (cs ds : List Char) : Prop where
  around : ∃ l r, IsBlanks l ∧ IsBlanks r ∧ cs = l ++ ds ++ r
  first : NoBlank ds
  last : NoBlank ds.reverse

theorem isBlank_digit {c : Char} (h : c.isDigit = true) : isBlank c = false := by
  have hlow : 48 ≤ c.toNat := (Char.isDigit_iff_toNat.mp h).1
  have hhigh : c.toNat ≤ 57 := (Char.isDigit_iff_toNat.mp h).2
  simp [isBlank]
  omega

section Between

variable {cs ds l r : List Char}

theorem IsBlanks.append (hl : IsBlanks l) (hr : IsBlanks r) : IsBlanks (l ++ r) :=
  List.forall_mem_append.mpr ⟨hl, hr⟩

theorem noBlank_dropBlanks (cs : List Char) : NoBlank (dropBlanks cs) := by
  intro c hc
  have hhead := List.head?_dropWhile_not isBlank cs
  rw [← dropBlanks, Option.mem_def.mp hc] at hhead
  exact hhead

theorem NoBlank.start (h : NoBlank ds) (hcs : cs <+: ds) : NoBlank cs := by
  intro c hc
  cases cs with
  | nil => cases hc
  | cons a cs =>
    obtain ⟨rest, rfl⟩ := hcs
    exact h c hc

theorem dropBlanks_cons {c : Char} (h : isBlank c = false) (cs : List Char) :
    dropBlanks (c :: cs) = c :: cs :=
  List.dropWhile_cons_of_neg (by simp [h])

theorem dropBlanks_append (hl : IsBlanks l) (h : NoBlank cs) : dropBlanks (l ++ cs) = cs := by
  rw [dropBlanks, List.dropWhile_append_of_pos hl, ← dropBlanks]
  cases cs with
  | nil => rfl
  | cons c cs => exact dropBlanks_cons (h c rfl) cs

theorem trims_trimChars (cs : List Char) : Trims cs (trimChars cs) where
  around := by
    refine ⟨cs.takeWhile isBlank, (dropBlanks cs).rtakeWhile isBlank, fun _ h => ?_, fun _ h => ?_,
      ?_⟩
    · exact List.mem_takeWhile_imp h
    · exact List.mem_rtakeWhile_imp (p := isBlank) h
    · calc cs
          = cs.takeWhile isBlank ++ dropBlanks cs := List.takeWhile_append_dropWhile.symm
        _ = cs.takeWhile isBlank ++ (trimChars cs ++ (dropBlanks cs).rtakeWhile isBlank) :=
          congrArg _ List.rdropWhile_append_rtakeWhile.symm
        _ = _ := (List.append_assoc ..).symm
  first := (noBlank_dropBlanks cs).start (List.rdropWhile_prefix isBlank (dropBlanks cs))
  last := by
    rw [trimChars, List.reverse_reverse]
    exact noBlank_dropBlanks _

theorem Trims.trimChars_eq (h : Trims cs ds) : trimChars cs = ds := by
  obtain ⟨⟨l, r, hl, hr, rfl⟩, hfirst, hlast⟩ := h
  cases ds with
  | nil =>
    have hnil : dropBlanks (l ++ [] ++ r) = [] := by
      simpa using dropBlanks_append (hl.append hr) hfirst
    rw [trimChars, hnil]
    rfl
  | cons c ds =>
    have hleft : dropBlanks (l ++ c :: ds ++ r) = c :: ds ++ r := by
      rw [List.append_assoc]
      exact dropBlanks_append hl hfirst
    -- Turned round, the text has the blanks behind it in front.
    have hblanks : IsBlanks r.reverse := fun b hb => hr b (List.mem_reverse.mp hb)
    rw [trimChars, hleft, List.reverse_append, dropBlanks_append hblanks hlast,
      List.reverse_reverse]

theorem trimChars_eq_iff : trimChars cs = ds ↔ Trims cs ds :=
  ⟨fun h => h ▸ trims_trimChars cs, Trims.trimChars_eq⟩

/-- What neither begins nor ends with a blank is left as it is. -/
theorem Trims.self (first : NoBlank cs) (last : NoBlank cs.reverse) : Trims cs cs :=
  ⟨⟨[], [], nofun, nofun, by simp⟩, first, last⟩

/-- More blanks around a text make no difference. -/
theorem Trims.surround (h : Trims cs ds) (hl : IsBlanks l) (hr : IsBlanks r) :
    Trims (l ++ cs ++ r) ds := by
  obtain ⟨⟨l', r', hl', hr', rfl⟩, hfirst, hlast⟩ := h
  exact ⟨⟨l ++ l', r' ++ r, hl.append hl', hr'.append hr, by simp⟩, hfirst, hlast⟩

end Between

theorem trimChars_eq_nil (cs : List Char) : trimChars cs = [] ↔ ∀ c ∈ cs, isBlank c = true := by
  rw [trimChars_eq_iff]
  constructor
  · rintro ⟨⟨l, r, hl, hr, rfl⟩, -, -⟩
    rw [List.append_nil]
    exact hl.append hr
  · intro h
    exact ⟨⟨cs, [], h, nofun, by simp⟩, nofun, nofun⟩

theorem trimChars_idem (cs : List Char) : trimChars (trimChars cs) = trimChars cs := by
  have h := trims_trimChars cs
  exact (Trims.self h.first h.last).trimChars_eq

theorem trim_eq_iff {s t : String} : trim s = t ↔ Trims s.toList t.toList := by
  rw [trim, ← String.toList_inj, String.toList_ofList, trimChars_eq_iff]

@[simp] theorem trim_trim (s : String) : trim (trim s) = trim s := by
  simp [trim, trimChars_idem]

theorem isBlanks_toList {s : String} (h : isBlankText s = true) : IsBlanks s.toList :=
  List.all_eq_true.mp h

theorem isBlankText_iff (s : String) : isBlankText s = true ↔ trimChars s.toList = [] := by
  simp [isBlankText, trimChars_eq_nil]

theorem isBlankText_eq (s : String) : isBlankText s = (trim s).isEmpty := by
  rw [Bool.eq_iff_iff, isBlankText_iff]
  simp [trim]

@[simp] theorem isBlankText_trim (s : String) : isBlankText (trim s) = isBlankText s := by
  rw [isBlankText_eq, isBlankText_eq, trim_trim]

end Larder.Text
