import Larder.Json.Printer
import Larder.Json.Reader

namespace Larder.Json

/-- The part into which a character is scanned that was written. -/
def writtenPart (c : Char) : StringPart :=
  if c.toNat < 0x20 ∧ c ∉ ['\x08', '\x0c', '\n', '\r', '\t'] then .escapedUnit c.toNat else .char c

theorem hexDigit?_hexDigit : ∀ n < 16, hexDigit? (Text.hexDigit n) = some n := by decide

/-- Two digits behind two zeros are enough for a control. -/
theorem hexUnit?_control {n : Nat} (h : n < 0x20) :
    hexUnit? ['0', '0', Text.hexDigit (n / 16), Text.hexDigit (n % 16)] = some n := by
  have hhigh := hexDigit?_hexDigit (n / 16) (by omega)
  have hlow := hexDigit?_hexDigit (n % 16) (by omega)
  have hzero : hexDigit? '0' = some 0 := by decide
  simp [hexUnit?, hhigh, hlow, hzero]
  omega

/-- A character that is neither the quote nor the backslash nor a control stands for itself. -/
theorem scanString_plain {c : Char} (hquote : c ≠ '"') (hslash : c ≠ '\\')
    (hcontrol : ¬ c.toNat < 0x20) (r : List Char) :
    scanString (c :: r) = (.char c :: (scanString r).1, (scanString r).2) := by
  rw [scanString.eq_def]
  split <;> simp_all

theorem scanString_escapedChar (c : Char) (r : List Char) :
    scanString (escapedChar c ++ r) = (writtenPart c :: (scanString r).1, (scanString r).2) := by
  unfold escapedChar
  split
  -- Without a letter of its own, a control is written in digits and all else as it is.
  case h_8 hquote hslash hback hfeed hline hreturn htab =>
    by_cases hcontrol : c.toNat < 0x20
    · have hpart : writtenPart c = .escapedUnit c.toNat := by
        simp [writtenPart, hcontrol]
        exact ⟨hback, hfeed, hline, hreturn, htab⟩
      have hunit := hexUnit?_control hcontrol
      simp [hcontrol, hpart, scanString, hunit]
    · have hpart : writtenPart c = .char c := by
        simp [writtenPart, hcontrol]
      simp [hcontrol, hpart, scanString_plain hquote hslash hcontrol]
  all_goals simp [scanString, escaped?, writtenPart]

theorem readParts_writtenPart (ending : StringEnd) (c : Char) (ps : List StringPart) :
    readParts ending (writtenPart c :: ps) = (readParts ending ps).map (c :: ·) := by
  unfold writtenPart
  split
  · rename_i h
    have htrail : isTrail c.toNat = false := by
      simp only [isTrail, Bool.and_eq_false_imp, decide_eq_true_eq, decide_eq_false_iff_not]
      omega
    have hlead : isLead c.toNat = false := by
      simp only [isLead, Bool.and_eq_false_imp, decide_eq_true_eq, decide_eq_false_iff_not]
      omega
    rw [readParts.eq_def]
    simp only [htrail, hlead, Char.ofNat_toNat]
    cases readParts ending ps <;> rfl
  · simp only [readParts]
    cases readParts ending ps <;> rfl

theorem scanString_written (cs rest : List Char) :
    scanString (cs.flatMap escapedChar ++ '"' :: rest) = (cs.map writtenPart, .closed rest) := by
  induction cs with
  | nil => simp [scanString]
  | cons c cs ih => simp [scanString_escapedChar, ih]

theorem readParts_written (rest cs : List Char) :
    readParts (.closed rest) (cs.map writtenPart) = .ok cs := by
  induction cs with
  | nil => rfl
  | cons c cs ih => rw [List.map_cons, readParts_writtenPart, ih, Except.map]

/-- A string that was written is read back, and what follows it is left. -/
theorem stringToken_written (s : String) (rest : List Char) :
    stringToken (s.toList.flatMap escapedChar ++ '"' :: rest) = (.ofValue s, some rest) := by
  simp [stringToken, scanString_written, readParts_written, Except.map, Token.ofValue,
    StringEnd.fault?, failIf]

theorem stringText_append (s : String) (cs : List Char) :
    (stringText s).toList ++ cs = '"' :: (s.toList.flatMap escapedChar ++ '"' :: cs) := by
  simp [stringText]

end Larder.Json
