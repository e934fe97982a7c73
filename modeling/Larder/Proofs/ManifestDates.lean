import Larder.Proofs.SoundBodies
import Larder.Proofs.StrictTimestamps

namespace Larder

namespace Calendar

/-- The first moment of the day. -/
def Date.midnight (d : Date) : Timestamp :=
  ⟨d, ⟨0, Nat.succ_pos _⟩, ⟨0, Nat.succ_pos _⟩, ⟨0, Nat.succ_pos _⟩⟩

/-- Earlier in time. -/
def Timestamp.before (t u : Timestamp) : Prop :=
  t.date.before u.date ∨ t.date = u.date ∧
    (t.minuteOfDay < u.minuteOfDay ∨ t.minuteOfDay = u.minuteOfDay ∧
      (t.second < u.second ∨ t.second = u.second ∧ t.nanosecond < u.nanosecond))

variable {d d' : Date}

@[simp] theorem Date.midnight_hour (d : Date) : d.midnight.hour = 0 := by
  simp [midnight, Timestamp.hour]

@[simp] theorem Date.midnight_minute (d : Date) : d.midnight.minute = 0 := by
  simp [midnight, Timestamp.minute]

theorem Date.midnightText_eq (d : Date) : d.midnightText = d.midnight.text := by
  have hclock : Text.padded 2 0 = "00" := by decide
  rw [Timestamp.text, midnight_hour, midnight_minute]
  simp [midnightText, midnight, Timestamp.fractionText, hclock, String.append_assoc]

theorem Date.midnight_before : d.midnight.before d'.midnight ↔ d.before d' := by
  simp [Timestamp.before, midnight]

/-- A year that is not plain is written with its sign in front. -/
theorem Date.plain_of_head (h : ∀ c ∈ d.midnightText.toList.head?, c.isDigit = true) :
    d.HasPlainYear := by
  by_contra hsigned
  unfold HasPlainYear at hsigned
  rw [midnightText, text, yearText, if_neg hsigned] at h
  split at h
  · exact absurd (h '-' (by simp)) (by decide)
  · exact absurd (h '+' (by simp)) (by decide)

theorem Date.denotes_midnight (h : d.HasPlainYear) : Denotes d.midnightText d.midnight := by
  have htwo : Numeral 2 0 ['0', '0'] := numeral_padded (by decide) (by decide)
  have hhour : Numeral 2 d.midnight.hour ['0', '0'] := d.midnight_hour ▸ htwo
  have hminute : Numeral 2 d.midnight.minute ['0', '0'] := d.midnight_minute ▸ htwo
  have hsecond : Numeral 2 d.midnight.second.val ['0', '0'] := htwo
  have hdenotes := Denotes.intro (fullDate_iff.mpr ⟨h, rfl⟩) (.inl rfl) hhour hminute hsecond
    .whole (.universal (.inl rfl)) (Timestamp.ofLocal?_universal d.midnight)
  convert hdenotes using 1
  rw [← String.toList_inj, String.toList_ofList]
  simp [midnightText, midnight]

/-- By RFC 3339 the text stands for midnight if the year is plain, else for nothing. -/
theorem Date.denotes_midnightText {t : Timestamp} :
    Denotes d.midnightText t ↔ d.HasPlainYear ∧ t = d.midnight := by
  constructor
  · intro h
    have hplain := plain_of_head h.head_digit
    exact ⟨hplain, h.unique (denotes_midnight hplain)⟩
  · rintro ⟨hplain, rfl⟩
    exact denotes_midnight hplain

/-- The text is read as midnight of the day, and stands for it where RFC 3339 has such a day. -/
structure Date.SentAs (d : Date) (s : String) : Prop where
  read : Timestamp.read s = .ok d.midnight
  denotes : ∀ t, Denotes s t ↔ d.HasPlainYear ∧ t = d.midnight

theorem Date.sentAs_midnightText (d : Date) : d.SentAs d.midnightText where
  read := by rw [midnightText_eq, Timestamp.read_text]
  denotes _ := denotes_midnightText

end Calendar

open Calendar (Denotes)

/-- Both dates of the line are in the item, and they are in order. -/
structure ManifestLine.DatesIn (l : ManifestLine) (i : Wire.RestockItem) : Prop where
  made : l.made.SentAs i.made
  expires : l.expires.SentAs i.expires
  inOrder : ¬ l.expires.midnight.before l.made.midnight

namespace Batch

theorem datesIn_item {l : ManifestLine} (h : l.complaint? = none) : l.DatesIn l.item where
  made := l.made.sentAs_midnightText
  expires := l.expires.sentAs_midnightText
  inOrder := by
    unfold ManifestLine.complaint? at h
    split_ifs at h with hsku hname hquantity hcost hdates
    rwa [Calendar.Date.midnight_before]

/-- In every batch that is taken on, each date is handed in as midnight of its day, and no item
expires before it was made. -/
theorem request_dates {b : Batch} {r : Wire.RestockRequest} (h : b.request = .ok r) :
    List.Forall₂ ManifestLine.DatesIn b.manifest r.items := by
  obtain ⟨hvalid, hitems⟩ := request_ok h
  rw [hitems, List.forall₂_map_right_iff]
  exact List.forall₂_same.mpr fun l hl => datesIn_item ((validate_ok hvalid).2 l hl)

/-- A batch of one line, with dates at the beginning of this year. -/
def milk (year : Int) (made : Calendar.IsDay year 1 1) (expires : Calendar.IsDay year 1 2) :
    Batch where
  supplierId := "SUP-1"
  supplierName := "Dairy Farm"
  truck := { truckId := "TRK-1", plateNumber := "AB-123", driverName := "Dana" }
  manifest := [{
    sku := "MILK-1"
    name := "Whole Milk"
    aisle := .dairy
    quantity := 24
    unitCost := (Decimal.ofText? "0.89").getD .zero
    made := ⟨year, 1, 1, made⟩
    expires := ⟨year, 1, 2, expires⟩ }]

theorem request_dates_milk : ∃ r, (milk 2025 (by decide) (by decide)).request = .ok r ∧
    List.Forall₂ ManifestLine.DatesIn (milk 2025 (by decide) (by decide)).manifest r.items := by
  have hrequest : ∃ r, (milk 2025 (by decide) (by decide)).request = .ok r := ⟨_, rfl⟩
  obtain ⟨r, hr⟩ := hrequest
  exact ⟨r, hr, request_dates hr⟩

/-- A batch is taken on with dates that become no timestamps by RFC 3339. -/
theorem request_signed_year : ∃ r, (milk 12025 (by decide) (by decide)).request = .ok r ∧
    ∃ i ∈ r.items, i.made = "+12025-01-01T00:00:00Z" ∧ i.expires = "+12025-01-02T00:00:00Z" ∧
      ∀ t, ¬ Denotes i.made t ∧ ¬ Denotes i.expires t := by
  have hsigned {month day : Nat} (h : Calendar.IsDay 12025 month day) :
      ∀ t, ¬ Denotes (Calendar.Date.midnightText ⟨12025, month, day, h⟩) t := by
    intro t ht
    obtain ⟨⟨-, hlast⟩, -⟩ := Calendar.Date.denotes_midnightText.mp ht
    exact absurd hlast (show ¬ (12025 : Int) ≤ 9999 by decide)
  refine ⟨_, rfl, _, List.mem_singleton_self _, by decide, by decide, fun t => ⟨?_, ?_⟩⟩
  · exact hsigned _ t
  · exact hsigned _ t

end Batch

end Larder
