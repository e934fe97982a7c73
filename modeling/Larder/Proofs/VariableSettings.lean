import Larder.Proofs.Numerals
import Larder.Proofs.Trimming
import Larder.Settings

namespace Larder.Settings

/-- A change that may be made to settings. -/
inductive Change where
  | baseUrl (url : String)
  | timeout (ms : Nat)
  | pollInterval (ms : Nat)
  | maxPollAttempts (attempts : UInt32)
  | refreshInterval (ms : Nat)
  | cacheDirectory (path : String)

def change (s : Settings) : Change → Settings
  | .baseUrl url => s.withBaseUrl url
  | .timeout ms => s.withTimeout ms
  | .pollInterval ms => s.withPollInterval ms
  | .maxPollAttempts attempts => s.withMaxPollAttempts attempts
  | .refreshInterval ms => s.withRefreshInterval ms
  | .cacheDirectory path => s.withCacheDirectory path

/-- What waits and addresses rely on. -/
structure Sound (s : Settings) : Prop where
  attempts : 1 ≤ s.maxPollAttempts.toNat ∧ s.maxPollAttempts.toNat ≤ 2 ^ 32 - 1
  timeout : s.timeout ≠ 0
  baseUrl : s.baseUrl.toList.getLast? ≠ some '/'

section Addresses

variable {v b : String}

/-- The address is what is written without the slashes at its end. -/
structure Bares (v b : String) : Prop where
  slashes : ∃ n, v.toList = b.toList ++ List.replicate n '/'
  bare : b.toList.getLast? ≠ some '/'

theorem dropAtEnd_toList (c : Char) (s : String) :
    (dropAtEnd c s).toList = s.toList.rdropWhile (· == c) :=
  String.toList_ofList

/-- Copies of a character are dropped from the end of what does not end in it. -/
theorem rdropWhile_append_replicate {c : Char} {cs : List Char} (h : cs.getLast? ≠ some c)
    (n : Nat) : (cs ++ List.replicate n c).rdropWhile (· == c) = cs := by
  induction n with
  | zero =>
    rw [List.replicate_zero, List.append_nil, List.rdropWhile_eq_self_iff]
    intro hne hl
    rw [List.getLast?_eq_some_getLast hne] at h
    exact h (congrArg some (beq_iff_eq.mp hl))
  | succ n ih =>
    rw [List.replicate_succ', ← List.append_assoc,
      List.rdropWhile_concat_pos (· == c) _ c (beq_self_eq_true c), ih]

theorem dropAtEnd_getLast? (c : Char) (s : String) : (dropAtEnd c s).toList.getLast? ≠ some c := by
  rw [dropAtEnd_toList]
  intro hl
  have hne : s.toList.rdropWhile (· == c) ≠ [] := by
    intro hn
    rw [hn] at hl
    cases hl
  have hlast := List.rdropWhile_last_not (· == c) s.toList hne
  rw [List.getLast?_eq_some_getLast hne, Option.some.injEq] at hl
  simp [hl] at hlast

theorem bares_iff : dropAtEnd '/' v = b ↔ Bares v b := by
  constructor
  · rintro rfl
    have hslash : ∀ c ∈ v.toList.rtakeWhile (· == '/'), c = '/' :=
      fun c hc => beq_iff_eq.mp (List.mem_rtakeWhile_imp (p := (· == '/')) hc)
    have hdropped := List.rdropWhile_append_rtakeWhile (p := (· == '/')) (l := v.toList)
    rw [← dropAtEnd_toList, List.eq_replicate_of_mem hslash] at hdropped
    exact ⟨⟨_, hdropped.symm⟩, dropAtEnd_getLast? '/' v⟩
  · rintro ⟨⟨n, hv⟩, hb⟩
    rw [← String.toList_inj, dropAtEnd_toList, hv, rdropWhile_append_replicate hb]

end Addresses

section Soundness

variable {s : Settings}

theorem ofBaseUrl_sound (url : String) : (ofBaseUrl url).Sound where
  attempts := ⟨by simp [ofBaseUrl], by simp [ofBaseUrl]⟩
  timeout := by simp [ofBaseUrl]
  baseUrl := dropAtEnd_getLast? '/' url

theorem atLeastOne_toNat (attempts : UInt32) :
    (if attempts = 0 then 1 else attempts).toNat = max 1 attempts.toNat := by
  split
  · rename_i h
    rw [h]
    rfl
  · rename_i h
    have hpos : attempts.toNat ≠ 0 := fun h₀ => h (UInt32.toNat_inj.mp h₀)
    omega

theorem Sound.change (h : s.Sound) (c : Change) : (s.change c).Sound := by
  cases c with
  | baseUrl url => exact { h with baseUrl := dropAtEnd_getLast? '/' url }
  | timeout ms =>
    simp only [Settings.change, withTimeout]
    split
    · exact h
    · rename_i hms
      exact { h with timeout := hms }
  | maxPollAttempts attempts =>
    have hbound : attempts.toNat < 2 ^ 32 := attempts.toNat_lt
    have hattempts : (s.change (.maxPollAttempts attempts)).maxPollAttempts.toNat =
        max 1 attempts.toNat := atLeastOne_toNat attempts
    exact { h with attempts := by omega }
  | _ => exact { h with }

/-- One change after the other keeps settings sound. -/
theorem Sound.changes (h : s.Sound) (cs : List Change) : (cs.foldl Settings.change s).Sound := by
  induction cs generalizing s with
  | nil => exact h
  | cons c cs ih => exact ih (h.change c)

/-- A change that is made only where something is found keeps settings sound. -/
theorem Sound.changed {α : Type} (h : s.Sound) (found : Option α) (c : α → Change) :
    ((found.map fun a => s.change (c a)).getD s).Sound := by
  cases found with
  | none => exact h
  | some a => exact h.change (c a)

theorem ofVariables_sound (lookup : String → Option String) : (ofVariables lookup).Sound :=
  (((((ofBaseUrl_sound _).changed _ .cacheDirectory).changed _ fun n => .timeout (1000 * n)).changed
    _ .pollInterval).changed _ fun n => .maxPollAttempts (clampCount n)).changed _
      fun n => .refreshInterval (1000 * n)

end Soundness

section Variables

variable {β : Type} {setting : Settings → β} {name : String} {Reads : String → β → Prop}
  {default : β} {v : String} {n : Nat}

/-- A setting that one variable decides: what is read in it is the setting, and the default is in
its place where nothing is. -/
structure ComesFrom (setting : Settings → β) (name : String) (Reads : String → β → Prop)
    (default : β) : Prop where
  read : ∀ lookup v a, lookup name = some v → Reads v a → setting (ofVariables lookup) = a
  otherwise : ∀ lookup, (∀ v a, lookup name = some v → ¬ Reads v a) →
    setting (ofVariables lookup) = default
  alone : ∀ lookup₁ lookup₂, lookup₁ name = lookup₂ name →
    setting (ofVariables lookup₁) = setting (ofVariables lookup₂)

/-- What a variable is read as, and the default where nothing is read, decide a setting. -/
theorem ComesFrom.of_reader {α : Type} {g : String → Option α} {f : α → β}
    (hread : ∀ v b, (∃ a, g v = some a ∧ f a = b) ↔ Reads v b)
    (h : ∀ lookup, setting (ofVariables lookup) =
      (((lookup name).bind g).map f).getD default) : ComesFrom setting name Reads default where
  read lookup v b hv hb := by
    obtain ⟨a, ha, rfl⟩ := (hread v b).mpr hb
    rw [h, hv, Option.bind_some, ha, Option.map_some, Option.getD_some]
  otherwise lookup hnone := by
    have hfound : (lookup name).bind g = none := by
      rw [Option.bind_eq_none_iff]
      intro v hv
      rw [Option.eq_none_iff_forall_ne_some]
      exact fun a ha => hnone v (f a) hv ((hread v _).mp ⟨a, ha, rfl⟩)
    rw [h, hfound, Option.map_none, Option.getD_none]
  alone lookup₁ lookup₂ hname := by
    rw [h, h, hname]

/-- A variable writes this number below `2 ^ 64`, with or without blanks around it. -/
def Spells (v : String) (n : Nat) : Prop := Text.WritesCount (Text.trim v).toList n ∧ n < 2 ^ 64

def text? (v : String) : Option String := if Text.trim v = "" then none else some v

def wholeNumber? (v : String) : Option Nat := Text.count? (UInt64.size - 1) (Text.trim v)

theorem text?_eq_some_iff {a : String} : text? v = some a ↔ Text.trim v ≠ "" ∧ a = v := by
  unfold text?
  split
  · rename_i h
    exact ⟨nofun, fun ha => absurd h ha.1⟩
  · rename_i h
    rw [Option.some.injEq, eq_comm]
    exact (and_iff_right h).symm

theorem wholeNumber?_eq_some_iff : wholeNumber? v = some n ↔ Spells v n := by
  rw [wholeNumber?, Text.count?_eq_some_iff, Spells]
  have hsize : UInt64.size = 2 ^ 64 := rfl
  refine and_congr_right fun _ => ?_
  omega

theorem present?_eq (lookup : String → Option String) :
    present? lookup name = (lookup name).bind text? := by
  unfold present? text?
  cases lookup name with
  | none => rfl
  | some v => simp [Option.filter, Text.isBlankText_eq]

/-- A blank text is no number. -/
theorem number?_eq (lookup : String → Option String) :
    number? lookup name = (lookup name).bind wholeNumber? := by
  rw [number?, present?_eq, Option.bind_assoc]
  refine Option.bind_congr fun v _ => ?_
  unfold text?
  split
  · rename_i h
    rw [Option.bind_none, eq_comm, Option.eq_none_iff_forall_ne_some]
    intro n hn
    have hwrites := (wholeNumber?_eq_some_iff.mp hn).1
    rw [h, String.toList_empty] at hwrites
    cases hwrites with
    | plain _ hne => exact hne rfl
  · rw [Option.bind_some, wholeNumber?]

section Found

variable (s : Settings) (found : Option Nat)

theorem withCacheDirectory_found (found : Option String) :
    (found.map s.withCacheDirectory).getD s =
      { s with cacheDirectory := found.getD s.cacheDirectory } := by
  cases found <;> rfl

theorem withTimeout_found : (found.map fun n => s.withTimeout (1000 * n)).getD s =
    { s with timeout := ((found.filter (· ≠ 0)).map (1000 * ·)).getD s.timeout } := by
  rcases found with _ | _ | n <;> rfl

theorem withPollInterval_found : (found.map s.withPollInterval).getD s =
    { s with pollInterval := found.getD s.pollInterval } := by
  cases found <;> rfl

/-- The attempts that are made when this number is asked for. -/
def attemptsOf (n : Nat) : UInt32 := if clampCount n = 0 then 1 else clampCount n

theorem attemptsOf_toNat (n : Nat) : (attemptsOf n).toNat = max 1 (min n (2 ^ 32 - 1)) := by
  have hclamp : (clampCount n).toNat = min n (2 ^ 32 - 1) :=
    UInt32.toNat_ofNat_of_lt (by simp only [UInt32.size]; omega)
  rw [attemptsOf, atLeastOne_toNat, hclamp]

theorem withMaxPollAttempts_found :
    (found.map fun n => s.withMaxPollAttempts (clampCount n)).getD s =
      { s with maxPollAttempts := (found.map (attemptsOf ·)).getD s.maxPollAttempts } := by
  cases found <;> rfl

theorem withRefreshInterval_found : (found.map fun n => s.withRefreshInterval (1000 * n)).getD s =
    { s with refreshInterval := (found.map (1000 * ·)).getD s.refreshInterval } := by
  cases found <;> rfl

end Found

theorem bind_filter {α : Type} (o : Option α) (g : α → Option Nat) (p : Nat → Bool) :
    (o.bind g).filter p = o.bind fun a => (g a).filter p := by
  cases o <;> rfl

theorem ofVariables_eq (lookup : String → Option String) : ofVariables lookup =
    { baseUrl := (((lookup "ORDERING_API_URL").bind text?).map (dropAtEnd '/')).getD defaultBaseUrl
      timeout := ((((lookup "GROCERY_HTTP_TIMEOUT_SECS").bind wholeNumber?).filter (· ≠ 0)).map
        (1000 * ·)).getD 10000
      pollInterval := ((lookup "GROCERY_POLL_INTERVAL_MS").bind wholeNumber?).getD 2000
      maxPollAttempts := (((lookup "GROCERY_MAX_POLL_ATTEMPTS").bind wholeNumber?).map
        attemptsOf).getD 120
      refreshInterval := (((lookup "GROCERY_REFRESH_INTERVAL_SECS").bind wholeNumber?).map
        (1000 * ·)).getD 240000
      cacheDirectory := ((lookup "GROCERY_CACHE_DIR").bind text?).getD ".grocery" } := by
  have hbare : dropAtEnd '/' defaultBaseUrl = defaultBaseUrl := by decide +kernel
  simp only [ofVariables, withCacheDirectory_found, withTimeout_found, withPollInterval_found,
    withMaxPollAttempts_found, withRefreshInterval_found, ofBaseUrl, present?_eq, number?_eq]
  rw [← hbare, Option.getD_map, hbare]

/-- Each setting comes from its own variable. -/
structure Decided : Prop where
  baseUrl : ComesFrom baseUrl "ORDERING_API_URL" (fun v b => Text.trim v ≠ "" ∧ Bares v b)
    "http://localhost:5050"
  cacheDirectory : ComesFrom cacheDirectory "GROCERY_CACHE_DIR"
    (fun v path => Text.trim v ≠ "" ∧ v = path) ".grocery"
  timeout : ComesFrom timeout "GROCERY_HTTP_TIMEOUT_SECS"
    (fun v ms => ∃ n, Spells v n ∧ n ≠ 0 ∧ 1000 * n = ms) 10000
  pollInterval : ComesFrom pollInterval "GROCERY_POLL_INTERVAL_MS" Spells 2000
  maxPollAttempts : ComesFrom maxPollAttempts "GROCERY_MAX_POLL_ATTEMPTS"
    (fun v attempts => ∃ n, Spells v n ∧ max 1 (min n (2 ^ 32 - 1)) = attempts.toNat) 120
  refreshInterval : ComesFrom refreshInterval "GROCERY_REFRESH_INTERVAL_SECS"
    (fun v ms => ∃ n, Spells v n ∧ 1000 * n = ms) 240000

theorem decided : Decided where
  baseUrl := by
    refine .of_reader (fun v b => ?_) fun lookup => congrArg baseUrl (ofVariables_eq lookup)
    simp only [text?_eq_some_iff, and_assoc, exists_and_left, exists_eq_left, bares_iff]
  cacheDirectory := by
    refine .of_reader (g := text?) (f := id) (fun v path => ?_) fun lookup => ?_
    · simp only [text?_eq_some_iff, id, exists_eq_right]
      exact and_congr_right fun _ => eq_comm
    · rw [Option.map_id]
      exact congrArg cacheDirectory (ofVariables_eq lookup)
  timeout := by
    refine .of_reader (g := fun v => (wholeNumber? v).filter (· ≠ 0)) (f := (1000 * ·))
      (fun v ms => ?_) fun lookup => ?_
    · simp only [Option.filter_eq_some_iff, wholeNumber?_eq_some_iff, decide_eq_true_eq, and_assoc]
    · rw [← bind_filter]
      exact congrArg timeout (ofVariables_eq lookup)
  pollInterval := by
    refine .of_reader (g := wholeNumber?) (f := id) (fun v ms => ?_) fun lookup => ?_
    · simp only [wholeNumber?_eq_some_iff, id, exists_eq_right]
    · rw [Option.map_id]
      exact congrArg pollInterval (ofVariables_eq lookup)
  maxPollAttempts := by
    refine .of_reader (fun v attempts => ?_) fun lookup =>
      congrArg maxPollAttempts (ofVariables_eq lookup)
    simp only [wholeNumber?_eq_some_iff, ← attemptsOf_toNat, UInt32.toNat_inj]
  refreshInterval := by
    refine .of_reader (fun v ms => ?_) fun lookup =>
      congrArg refreshInterval (ofVariables_eq lookup)
    simp only [wholeNumber?_eq_some_iff]

/-- Each variable decides one setting and no other, and settings stay sound whatever the variables
hold and whatever is changed afterwards. -/
theorem ofVariables_settings : Decided ∧
    ∀ lookup (changes : List Change), (changes.foldl change (ofVariables lookup)).Sound :=
  ⟨decided, fun lookup changes => (ofVariables_sound lookup).changes changes⟩

end Variables

end Larder.Settings
