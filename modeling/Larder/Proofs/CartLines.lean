import Larder.Command.CartLine
import Larder.Proofs.Numerals
import Larder.Proofs.Trimming

namespace Larder.Command

open Text (Trims WritesCount)
open Wire (OrderLine)

section Sides

variable {cs l r : List Char} {s sku count : String}

/-- What stands in front of the first equals sign and behind it. Where there is none, all of the
text is in front, and one piece is meant. -/
inductive Cuts : List Char → List Char → List Char → Prop where
  | whole {cs : List Char} (h : '=' ∉ cs) : Cuts cs cs ['1']
  | between {l : List Char} (h : '=' ∉ l) (r : List Char) : Cuts (l ++ '=' :: r) l r

theorem ne_equals_of_notMem (h : '=' ∉ cs) : ∀ c ∈ cs, (c != '=') = true :=
  fun _ hc => bne_iff_ne.mpr fun he => h (he ▸ hc)

theorem cuts_cutAtEquals (cs : List Char) : Cuts cs (cutAtEquals cs).1 (cutAtEquals cs).2 := by
  have hfront : '=' ∉ cs.takeWhile (· != '=') := fun h => by simpa using List.mem_takeWhile_imp h
  have hall := List.takeWhile_append_dropWhile (p := (· != '=')) (l := cs)
  have hhead := List.head?_dropWhile_not (· != '=') cs
  unfold cutAtEquals
  split
  · rename_i hdrop
    rw [hdrop, List.append_nil] at hall
    exact .whole (hall ▸ hfront)
  · rename_i c r hdrop
    rw [hdrop] at hall hhead
    obtain rfl : c = '=' := by simpa using hhead
    have hcut := Cuts.between hfront r
    rw [hall] at hcut
    exact hcut

theorem Cuts.cutAtEquals_eq (h : Cuts cs l r) : cutAtEquals cs = (l, r) := by
  cases h with
  | whole h =>
    have hdrop := List.dropWhile_eq_nil_iff.mpr (ne_equals_of_notMem h)
    rw [cutAtEquals, hdrop]
  | between h r =>
    have hne := ne_equals_of_notMem h
    have hdrop : (l ++ '=' :: r).dropWhile (· != '=') = '=' :: r := by
      rw [List.dropWhile_append_of_pos hne, List.dropWhile_cons_of_neg (by decide)]
    have htake : (l ++ '=' :: r).takeWhile (· != '=') = l := by
      rw [List.takeWhile_append_of_pos hne, List.takeWhile_cons_of_neg (by decide), List.append_nil]
    rw [cutAtEquals, hdrop, htake]

/-- The SKU and the count of a text, without the blanks around them. -/
def HasSides (s sku count : String) : Prop :=
  ∃ l r, Cuts s.toList l r ∧ Trims l sku.toList ∧ Trims r count.toList

theorem exists_hasSides (s : String) : ∃ sku count, HasSides s sku count := by
  have hcut := cuts_cutAtEquals s.toList
  refine ⟨.ofList (Text.trimChars (cutAtEquals s.toList).1),
    .ofList (Text.trimChars (cutAtEquals s.toList).2), _, _, hcut, ?_, ?_⟩
  · rw [String.toList_ofList]
    exact Text.trims_trimChars _
  · rw [String.toList_ofList]
    exact Text.trims_trimChars _

/-- Nothing but the two sides decides how a line is read. -/
theorem HasSides.cartLine_eq (h : HasSides s sku count) : cartLine s =
    if sku = "" then .error ("missing SKU in '" ++ s ++ "'")
    else (Text.count? (UInt32.size - 1) count).elim
      (.error ("invalid quantity '" ++ count ++ "' for " ++ sku)) fun n =>
        .ok ⟨sku, UInt32.ofNat n⟩ := by
  obtain ⟨l, r, hcut, hl, hr⟩ := h
  simp only [cartLine, hcut.cutAtEquals_eq, hl.trimChars_eq, hr.trimChars_eq, String.ofList_toList,
    String.isEmpty_iff]
  cases Text.count? (UInt32.size - 1) count <;> rfl

end Sides

section Reading

variable {s why : String} {line : OrderLine}

/-- A text writes this SKU and this count. -/
structure WritesLine (s sku : String) (n : Nat) : Prop where
  sides : ∃ count, HasSides s sku count ∧ WritesCount count.toList n
  named : sku ≠ ""
  bound : n ≤ 2 ^ 32 - 1

/-- A text is no cart line for this reason. -/
inductive Refuses (s : String) : String → Prop where
  | unnamed {count : String} (h : HasSides s "" count) : Refuses s ("missing SKU in '" ++ s ++ "'")
  | uncounted {sku count : String} (h : HasSides s sku count) (named : sku ≠ "")
      (hcount : ∀ n ≤ 2 ^ 32 - 1, ¬ WritesCount count.toList n) :
      Refuses s ("invalid quantity '" ++ count ++ "' for " ++ sku)

theorem WritesLine.cartLine_eq {sku : String} {n : Nat} (h : WritesLine s sku n) :
    cartLine s = .ok ⟨sku, UInt32.ofNat n⟩ := by
  obtain ⟨⟨count, hsides, hcount⟩, hnamed, hbound⟩ := h
  have hread := Text.count?_eq_some_iff.mpr ⟨hcount, hbound⟩
  rw [hsides.cartLine_eq, if_neg hnamed, show UInt32.size - 1 = 2 ^ 32 - 1 from rfl, hread,
    Option.elim_some]

theorem Refuses.cartLine_eq (h : Refuses s why) : cartLine s = .error why := by
  cases h with
  | unnamed hsides => rw [hsides.cartLine_eq, if_pos rfl]
  | @uncounted sku count hsides hnamed hcount =>
    have hread : Text.count? (UInt32.size - 1) count = none := by
      rw [Option.eq_none_iff_forall_ne_some]
      intro n hn
      obtain ⟨hwrites, hbound⟩ := Text.count?_eq_some_iff.mp hn
      exact hcount n hbound hwrites
    rw [hsides.cartLine_eq, if_neg hnamed, hread, Option.elim_none]

/-- Every text is a cart line or is refused for a reason. -/
theorem writesLine_or_refuses (s : String) :
    (∃ sku n, WritesLine s sku n) ∨ ∃ why, Refuses s why := by
  obtain ⟨sku, count, h⟩ := exists_hasSides s
  by_cases hnamed : sku = ""
  · subst hnamed
    exact .inr ⟨_, .unnamed h⟩
  by_cases hcount : ∃ n ≤ 2 ^ 32 - 1, WritesCount count.toList n
  · obtain ⟨n, hbound, hwrites⟩ := hcount
    exact .inl ⟨sku, n, ⟨count, h, hwrites⟩, hnamed, hbound⟩
  · exact .inr ⟨_, .uncounted h hnamed fun n hn hw => hcount ⟨n, hn, hw⟩⟩

theorem cartLine_eq_ok_iff : cartLine s = .ok line ↔ WritesLine s line.sku line.quantity.toNat := by
  constructor
  · intro h
    -- What is read is not refused, so it is written, and what is written is what is read.
    rcases writesLine_or_refuses s with ⟨sku, n, hwrites⟩ | ⟨why, hrefuses⟩
    · obtain rfl : (⟨sku, UInt32.ofNat n⟩ : OrderLine) = line :=
        Except.ok.inj (hwrites.cartLine_eq.symm.trans h)
      have hn : (UInt32.ofNat n).toNat = n :=
        UInt32.toNat_ofNat_of_lt (Nat.lt_of_le_pred (by decide) hwrites.bound)
      rw [hn]
      exact hwrites
    · rw [hrefuses.cartLine_eq] at h
      cases h
  · intro h
    rw [h.cartLine_eq, UInt32.ofNat_toNat]

theorem cartLine_eq_error_iff : cartLine s = .error why ↔ Refuses s why := by
  constructor
  · intro h
    rcases writesLine_or_refuses s with ⟨sku, n, hwrites⟩ | ⟨why', hrefuses⟩
    · rw [hwrites.cartLine_eq] at h
      cases h
    · obtain rfl : why' = why := Except.error.inj (hrefuses.cartLine_eq.symm.trans h)
      exact hrefuses
  · exact Refuses.cartLine_eq

end Reading

section Writing

open Text (IsBlanks IsDigits isBlankText isBlanks_toList)

variable {cs : List Char} {b₁ b₂ b₃ b₄ : String}

/-- An equals sign is no blank. -/
theorem equals_notMem_of_isBlanks (h : IsBlanks cs) : '=' ∉ cs :=
  fun hmem => absurd (h '=' hmem) (by decide)

theorem trims_digits (h : IsDigits cs) : Trims cs cs :=
  .self (fun c hc => Text.isBlank_digit (h c (List.mem_of_mem_head? hc)))
    fun c hc => Text.isBlank_digit (h c (List.mem_reverse.mp (List.mem_of_mem_head? hc)))

/-- With blanks around its two sides or without, a line that is written is read. -/
theorem cartLine_written (line : OrderLine) (htrim : Text.trim line.sku = line.sku)
    (hnamed : line.sku ≠ "") (hequals : '=' ∉ line.sku.toList) (h₁ : isBlankText b₁ = true)
    (h₂ : isBlankText b₂ = true) (h₃ : isBlankText b₃ = true) (h₄ : isBlankText b₄ = true) :
    cartLine (b₁ ++ line.sku ++ b₂ ++ "=" ++ b₃ ++ toString line.quantity ++ b₄) = .ok line := by
  have hdigits : (toString line.quantity).toList = Nat.toDigits 10 line.quantity.toNat :=
    Text.toString_toList _
  have hfront : '=' ∉ b₁.toList ++ line.sku.toList ++ b₂.toList := by
    simp only [List.mem_append, not_or]
    exact ⟨⟨equals_notMem_of_isBlanks (isBlanks_toList h₁), hequals⟩,
      equals_notMem_of_isBlanks (isBlanks_toList h₂)⟩
  have hsku : Trims (b₁.toList ++ line.sku.toList ++ b₂.toList) line.sku.toList :=
    (Text.trim_eq_iff.mp htrim).surround (isBlanks_toList h₁) (isBlanks_toList h₂)
  have hcount : Trims (b₃.toList ++ (toString line.quantity).toList ++ b₄.toList)
      (toString line.quantity).toList := by
    rw [hdigits]
    exact (trims_digits (Text.isDigits_toDigits _)).surround (isBlanks_toList h₃)
      (isBlanks_toList h₄)
  refine cartLine_eq_ok_iff.mpr ⟨⟨_, ⟨_, _, ?_, hsku, hcount⟩, ?_⟩, hnamed,
    Nat.le_pred_of_lt line.quantity.toNat_lt⟩
  · convert Cuts.between hfront _ using 1
    simp
  · rw [hdigits]
    exact Text.writesCount_toDigits _

/-- Reading a cart line accepts what is written as one and takes from it what is written there.
Anything else it refuses, and says why. Each line whose SKU is in order is read back, whatever
blanks are put around its two sides. -/
theorem cartLine_accepts :
    (∀ s, (∃ line, cartLine s = .ok line) ↔ ∃ sku n, WritesLine s sku n) ∧
    (∀ s line, cartLine s = .ok line ↔ WritesLine s line.sku line.quantity.toNat) ∧
    (∀ s why, cartLine s = .error why ↔ Refuses s why) ∧
    ∀ line : OrderLine, Text.trim line.sku = line.sku → line.sku ≠ "" → '=' ∉ line.sku.toList →
      ∀ b₁ b₂ b₃ b₄, isBlankText b₁ = true → isBlankText b₂ = true → isBlankText b₃ = true →
        isBlankText b₄ = true →
        cartLine (b₁ ++ line.sku ++ b₂ ++ "=" ++ b₃ ++ toString line.quantity ++ b₄) =
          .ok line := by
  refine ⟨fun s => ⟨?_, ?_⟩, fun _ _ => cartLine_eq_ok_iff, fun _ _ => cartLine_eq_error_iff, ?_⟩
  · rintro ⟨line, h⟩
    exact ⟨_, _, cartLine_eq_ok_iff.mp h⟩
  · rintro ⟨sku, n, h⟩
    exact ⟨_, h.cartLine_eq⟩
  · intro line htrim hnamed hequals b₁ b₂ b₃ b₄ h₁ h₂ h₃ h₄
    exact cartLine_written line htrim hnamed hequals h₁ h₂ h₃ h₄

/-- The largest count, with blanks of several kinds. -/
theorem cartLine_accepts_milk :
    cartLine "\u2003MILK-1 =\t4294967295\n" = .ok ⟨"MILK-1", 4294967295⟩ :=
  cartLine_accepts.2.2.2 ⟨"MILK-1", 4294967295⟩ (by decide +kernel) (by decide) (by decide)
    "\u2003" " " "\t" "\n" (by decide +kernel) (by decide +kernel) (by decide +kernel)
    (by decide +kernel)

end Writing

end Larder.Command
