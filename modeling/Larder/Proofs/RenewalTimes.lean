import Larder.Proofs.Stages

namespace Larder.Account

/-- What comes to pass with an account. -/
inductive Event where
  | operate (op : Operation)
  /-- Time passes, and another line and another disk are there when it is over. -/
  | meanwhile (wait : Nat) (line : Line) (disk : Storage.Disk)

def Event.after (a : Account) : Event → Account
  | operate op => op.after a
  | meanwhile wait line disk => { a with disk, line := line.startingAt (a.line.now + wait) }

/-- The stages of all operations in a row of events. -/
inductive Course : Account → List Event → List Stage → Account → Prop where
  | nil (a : Account) : Course a [] [] a
  | operate {a a' : Account} {op : Operation} {stages rest : List Stage} {events : List Event}
      (row : Row a stages (op.after a)) (takes : op.Takes (stages.map Stage.deed))
      (h : Course (op.after a) events rest a') :
      Course a (.operate op :: events) (stages ++ rest) a'
  | meanwhile {a a' : Account} {wait : Nat} {line : Line} {disk : Storage.Disk}
      {stages : List Stage} {events : List Event}
      (h : Course (Event.after a (.meanwhile wait line disk)) events stages a') :
      Course a (.meanwhile wait line disk :: events) stages a'

namespace Stage

/-- An access token is obtained. -/
def Obtains (s : Stage) : Prop :=
  (∃ l, s.deed = .login l) ∨ ∃ o, s.deed = .renewal o (.done .refreshed)

/-- The access token that was there is lost, with its session or before another one is obtained. -/
def Loses (s : Stage) : Prop := s.deed = .readBack ∨ s.deed = .ended

/-- Since when the access token is there that is held after a stage. -/
def obtained (since : Option Nat) (s : Stage) : Option Nat :=
  match s.deed with
  | .login _ => some s.after.line.now
  | .renewal _ e => if e = .done .refreshed then some s.after.line.now else since
  | .request _ => since
  | .readBack | .ended => none

theorem obtained_of_obtains {s : Stage} (h : s.Obtains) (since : Option Nat) :
    s.obtained since = some s.after.line.now := by
  unfold obtained
  rcases h with ⟨l, h⟩ | ⟨o, h⟩ <;> simp [h]

theorem obtained_of_not_loses {s : Stage} (h : ¬ s.Loses) (since : Option Nat) :
    s.obtained since = some s.after.line.now ∨ s.obtained since = since := by
  unfold obtained
  cases hd : s.deed with
  | login l => exact Or.inl rfl
  | renewal o e =>
    by_cases he : e = .done .refreshed
    · exact Or.inl (if_pos he)
    · exact Or.inr (if_neg he)
  | request r => exact Or.inr rfl
  | readBack => exact absurd (Or.inl hd) h
  | ended => exact absurd (Or.inr hd) h

end Stage

/-- Since when the access token is there that is held after some stages. -/
def obtainedAfter (stages : List Stage) : Option Nat := stages.foldl Stage.obtained none

/-- The session remembers since when its access token is there, and that is no time to come. -/
structure Timed (a : Account) (since : Option Nat) : Prop where
  ahead : a.line.Ahead
  proper : a.Proper
  stored : a.session.bind Session.refreshedAt = since
  past : ∀ t, since = some t → t ≤ a.line.now

section Timed

variable {a a' : Account} {since : Option Nat} {s : Stage}

theorem Timed.line {line : Line} (h : Timed a since) (hnow : a.line.now ≤ line.now)
    (hl : line.Ahead) : Timed { a with line } since :=
  ⟨hl, h.proper, h.stored, fun t ht => Nat.le_trans (h.past t ht) hnow⟩

theorem Timed.sent {line : Line} {r : Request} {x? : Option Response} (h : Timed a since)
    (hl : a.line.send r = (x?, line)) : a.line.now ≤ line.now ∧ Timed { a with line } since := by
  obtain ⟨hnow, hahead⟩ := h.ahead.send hl
  exact ⟨hnow, h.line hnow hahead⟩

/-- An access token is there since now. -/
theorem timed_of_now {session : Session} (hl : a.line.Ahead) (hs : a.session = some session)
    (hp : session.Proper) (hnow : session.refreshedAt = some a.line.now) :
    Timed a (some a.line.now) :=
  ⟨hl, proper_of_some hs hp, by simp [hs, hnow], fun t ht => by cases ht; exact Nat.le_refl _⟩

theorem timed_of_none (hl : a.line.Ahead) (hp : a.Proper)
    (hs : a.session.bind Session.refreshedAt = none) : Timed a none :=
  ⟨hl, hp, hs, by simp⟩

theorem Renewed.timed {o : Occasion} {x : Exchange} {e : Ended RefreshResult}
    (h : Renewed a (some x) e a') (ht : Timed a since) : a.line.now ≤ a'.line.now ∧
      Timed a' (Stage.obtained since ⟨a, .renewal o e, a'⟩) := by
  have hproper := h.proper ht.proper
  cases h with
  | unanswered _ _ hl => exact ht.sent hl
  | rejected _ _ hl => exact ht.sent hl
  | unavailable _ _ hl => exact ht.sent hl
  | refreshed hs _ hl hx =>
    obtain ⟨hnow, hahead⟩ := ht.ahead.send hl
    exact ⟨hnow, timed_of_now hahead rfl (hproper _ rfl) rfl⟩

/-- Each stage goes on in time, and the session after it remembers what has happened. -/
theorem Stage.Goes.timed (h : s.Goes) (ht : Timed s.before since) :
    s.before.line.now ≤ s.after.line.now ∧ Timed s.after (s.obtained since) := by
  cases h with
  | renewal hr => exact hr.timed ht
  | @login a l x tokens line hl hx =>
    obtain ⟨hnow, hahead⟩ := ht.ahead.send hl
    have hproper := Session.proper_ofLogin l.deviceId (loginTokens_access hx) line.now
    have hline := hold_line { a with line } (.ofLogin l.deviceId tokens line.now)
    have htimed := timed_of_now (a := { a with line }.hold (.ofLogin l.deviceId tokens line.now))
      (hline ▸ hahead) rfl hproper (by rw [hline]; rfl)
    exact ⟨hline ▸ hnow, htimed⟩
  | request _ hl => exact ht.sent hl
  | readBack hl =>
    refine ⟨Nat.le_refl _, timed_of_none ht.ahead (proper_of_some rfl ?_) rfl⟩
    exact Session.proper_ofCredential (Storage.Vault.load_refreshToken hl)
  | ended => exact ⟨Nat.le_refl _, timed_of_none ht.ahead (proper_of_none rfl) rfl⟩

theorem Stage.Goes.interval (h : s.Goes) : s.after.refreshInterval = s.before.refreshInterval := by
  cases h with
  | renewal hr => cases hr <;> rfl
  | login => exact hold_refreshInterval _ _
  | request => rfl
  | readBack => rfl
  | ended => rfl

theorem Timed.meanwhile (h : Timed a since) (wait : Nat) (line : Line) (disk : Storage.Disk) :
    Timed (Event.after a (.meanwhile wait line disk)) since where
  ahead := Line.startingAt_ahead _ line
  proper := h.proper
  stored := h.stored
  past t ht := Nat.le_trans (h.past t ht) (Nat.le_add_right _ wait)

/-- A renewal that is due has a refresh token to send, and no access token or one that has been
there for the interval. -/
theorem Timed.due (h : Timed a since) (hd : a.refreshDue = true) : ∃ session,
    a.session = some session ∧ session.refreshToken.isSome ∧ (session.accessToken = none ∨
      ∃ t, since = some t ∧ t + a.refreshInterval ≤ a.line.now) := by
  obtain ⟨session, hs, hneeds⟩ := (refreshDue_iff a).mp hd
  simp only [Session.needsRefresh, Bool.and_eq_true] at hneeds
  refine ⟨session, hs, hneeds.1, ?_⟩
  cases haccess : session.accessToken with
  | none => exact Or.inl rfl
  | some access =>
    have hdated := (h.proper session hs).dated
    rw [haccess] at hdated
    obtain ⟨t, ht⟩ := Option.isSome_iff_exists.mp hdated.symm
    have hsince : since = some t := by
      rw [← h.stored, hs]
      exact ht
    have hlong : a.refreshInterval ≤ a.line.now - t := by simpa [haccess, ht] using hneeds.2
    have hpast := h.past t hsince
    exact Or.inr ⟨t, hsince, by omega⟩

/-- With an access token the session knows since when it has it. -/
theorem Timed.accessToken {session : Session} {t : Nat} (h : Timed a (some t))
    (hs : a.session = some session) : session.accessToken.isSome := by
  have hstored := h.stored
  rw [hs] at hstored
  rw [(h.proper session hs).dated, show session.refreshedAt = some t from hstored]
  rfl

end Timed

/-- The stages go on in time from an instant, and each starts with what has happened before it. -/
inductive Dated (interval : Nat) : Nat → Option Nat → List Stage → Prop where
  | nil (now : Nat) (since : Option Nat) : Dated interval now since []
  | cons {now : Nat} {since : Option Nat} {s : Stage} {stages : List Stage} (goes : s.Goes)
      (timed : Timed s.before since) (hi : s.before.refreshInterval = interval)
      (hnow : now ≤ s.before.line.now)
      (rest : Dated interval s.after.line.now (s.obtained since) stages) :
      Dated interval now since (s :: stages)

section Dated

variable {a a' : Account} {events : List Event} {interval now : Nat} {since : Option Nat}
  {stages rest : List Stage} {s : Stage}

theorem Dated.earlier {now' : Nat} (h : Dated interval now since stages) (hle : now' ≤ now) :
    Dated interval now' since stages := by
  cases h with
  | nil => exact .nil _ _
  | cons goes timed hi hnow rest => exact .cons goes timed hi (Nat.le_trans hle hnow) rest

theorem Row.timed (h : Row a stages a') (ht : Timed a since) :
    Timed a' (stages.foldl Stage.obtained since) ∧ a'.refreshInterval = a.refreshInterval := by
  induction h generalizing since with
  | nil => exact ⟨ht, rfl⟩
  | cons first _ ih =>
    obtain ⟨hend, hi⟩ := ih (first.timed ht).2
    exact ⟨hend, hi.trans first.interval⟩

theorem Row.dated (h : Row a stages a') (ht : Timed a since) (hi : a.refreshInterval = interval)
    (hrest : Dated interval a'.line.now (stages.foldl Stage.obtained since) rest) :
    Dated interval a.line.now since (stages ++ rest) := by
  induction h generalizing since with
  | nil => exact hrest
  | cons first _ ih =>
    have hafter := ih (first.timed ht).2 (first.interval.trans hi) hrest
    exact .cons first ht hi (Nat.le_refl _) hafter

theorem Course.timed (h : Course a events stages a') (ht : Timed a since) :
    Timed a' (stages.foldl Stage.obtained since) := by
  induction h generalizing since with
  | nil => exact ht
  | operate row _ _ ih =>
    rw [List.foldl_append]
    exact ih (row.timed ht).1
  | meanwhile _ ih => exact ih (ht.meanwhile _ _ _)

theorem Course.dated (h : Course a events stages a') (ht : Timed a since)
    (hi : a.refreshInterval = interval) : Dated interval a.line.now since stages := by
  induction h generalizing since with
  | nil => exact .nil _ _
  | operate row _ _ ih =>
    obtain ⟨htimed, hinterval⟩ := row.timed ht
    exact row.dated ht hi (ih htimed (hinterval.trans hi))
  | meanwhile _ ih => exact (ih (ht.meanwhile _ _ _) hi).earlier (Nat.le_add_right _ _)

theorem exists_course (a : Account) (events : List Event) :
    ∃ stages, Course a events stages (events.foldl Event.after a) := by
  induction events generalizing a with
  | nil => exact ⟨[], .nil a⟩
  | cons event events ih =>
    obtain ⟨rest, hrest⟩ := ih (event.after a)
    cases event with
    | operate op =>
      obtain ⟨stages, hrow, htakes⟩ := op.row a
      exact ⟨_, .operate hrow htakes hrest⟩
    | meanwhile wait line disk => exact ⟨rest, .meanwhile hrest⟩

/-- What a stage starts from. -/
theorem Dated.split {early late : List Stage}
    (h : Dated interval now since (early ++ s :: late)) : s.Goes ∧
      Timed s.before (early.foldl Stage.obtained since) ∧ s.before.refreshInterval = interval ∧
      Dated interval s.after.line.now (s.obtained (early.foldl Stage.obtained since)) late := by
  induction early generalizing now since with
  | nil =>
    cases h with
    | cons goes timed hi _ rest => exact ⟨goes, timed, hi, rest⟩
  | cons first early ih =>
    cases h with
    | cons _ _ _ _ rest => exact ih rest

theorem Dated.forward (h : Dated interval now since stages) :
    ∀ s ∈ stages, now ≤ s.before.line.now ∧ s.before.line.now ≤ s.after.line.now := by
  induction h with
  | nil => simp
  | cons goes timed _ hnow _ ih =>
    have hfirst := (goes.timed timed).1
    rw [List.forall_mem_cons]
    refine ⟨⟨hnow, hfirst⟩, ?_⟩
    intro s hs
    obtain ⟨hafter, hs⟩ := ih s hs
    exact ⟨by omega, hs⟩

theorem Dated.ordered (h : Dated interval now since stages) :
    stages.Pairwise fun s u => s.after.line.now ≤ u.before.line.now := by
  induction h with
  | nil => exact .nil
  | cons _ _ _ _ rest ih => exact .cons (fun u hu => (rest.forward u hu).1) ih

/-- As long as the access token is not lost there is one, since that time or a later one. -/
theorem Dated.keeps {between late : List Stage} {t : Nat}
    (h : Dated interval now (some t) (between ++ late)) (ht : t ≤ now)
    (hkept : ∀ b ∈ between, ¬ b.Loses) :
    ∃ t', between.foldl Stage.obtained (some t) = some t' ∧ t ≤ t' := by
  induction between generalizing now t with
  | nil => exact ⟨t, rfl, Nat.le_refl t⟩
  | cons s between ih =>
    obtain ⟨hs, hkept⟩ := List.forall_mem_cons.mp hkept
    cases h with
    | cons goes timed _ hnow rest =>
      have hforward := (goes.timed timed).1
      have hlater : ∃ t₁, s.obtained (some t) = some t₁ ∧ t ≤ t₁ ∧ t₁ ≤ s.after.line.now := by
        rcases Stage.obtained_of_not_loses hs (some t) with he | he
        · exact ⟨_, he, by omega, Nat.le_refl _⟩
        · exact ⟨t, he, Nat.le_refl t, by omega⟩
      obtain ⟨t₁, hobtained, hle, hpast⟩ := hlater
      rw [hobtained] at rest
      obtain ⟨t', hfold, hle'⟩ := ih rest hpast hkept
      refine ⟨t', ?_, Nat.le_trans hle hle'⟩
      rw [List.foldl_cons, hobtained]
      exact hfold

end Dated

/-- When access tokens are obtained and renewed in a row of stages. -/
structure Timely (interval : Nat) (stages : List Stage) : Prop where
  forward : ∀ s ∈ stages, s.before.line.now ≤ s.after.line.now
  ordered : stages.Pairwise fun s u => s.after.line.now ≤ u.before.line.now
  /-- What the session remembers moves with its access token and only with it. -/
  stored : ∀ early s late, stages = early ++ s :: late →
    s.before.session.bind Session.refreshedAt = obtainedAfter early
  due : ∀ early s late e, stages = early ++ s :: late → s.deed = .renewal .due e →
    ∃ session, s.before.session = some session ∧ session.refreshToken.isSome ∧
      (session.accessToken = none ∨
        ∃ t, obtainedAfter early = some t ∧ t + interval ≤ s.before.line.now)
  /-- In particular from one renewal that was due to the next one. -/
  spaced : ∀ early s between u late e, stages = early ++ s :: (between ++ u :: late) →
    s.Obtains → (∀ b ∈ between, ¬ b.Loses) → u.deed = .renewal .due e →
    s.after.line.now + interval ≤ u.before.line.now
  failed : ∀ s ∈ stages, ∀ o e, s.deed = .renewal o e → e ≠ .done .refreshed →
    s.after.session = s.before.session

theorem Stage.Goes.due {s : Stage} {e : Ended RefreshResult} (h : s.Goes)
    (hs : s.deed = .renewal .due e) : s.before.refreshDue = true := by
  cases h with
  | renewal _ hd =>
    cases hs
    exact hd rfl
  | _ => cases hs

theorem Stage.Goes.failed {s : Stage} {o : Occasion} {e : Ended RefreshResult} (h : s.Goes)
    (hs : s.deed = .renewal o e) (he : e ≠ .done .refreshed) :
    s.after.session = s.before.session := by
  cases h with
  | renewal hr =>
    cases hs
    cases hr with
    | refreshed => exact absurd rfl he
    | _ => rfl
  | _ => cases hs

theorem Dated.timely {interval now : Nat} {stages : List Stage}
    (h : Dated interval now none stages) : Timely interval stages where
  forward s hs := (h.forward s hs).2
  ordered := h.ordered
  stored := by
    rintro early s late rfl
    exact h.split.2.1.stored
  due := by
    rintro early s late e rfl hs
    obtain ⟨goes, timed, hi, _⟩ := h.split
    rw [← hi]
    exact timed.due (goes.due hs)
  spaced := by
    rintro early s between u late e rfl hs hkept hu
    obtain ⟨_, _, _, hlater⟩ := h.split
    rw [Stage.obtained_of_obtains hs] at hlater
    obtain ⟨t, hsince, hle⟩ := hlater.keeps (Nat.le_refl _) hkept
    obtain ⟨goes, timed, hi, _⟩ := hlater.split
    rw [hsince] at timed
    obtain ⟨session, hsession, _, hdue⟩ := timed.due (goes.due hu)
    have haccess := timed.accessToken hsession
    rcases hdue with hnone | ⟨t', ht', hlong⟩
    · rw [hnone] at haccess
      cases haccess
    · cases ht'
      omega
  failed := by
    intro s hs o e hd he
    obtain ⟨early, late, rfl⟩ := List.append_of_mem hs
    exact h.split.1.failed hd he

/-- An account that has not been used yet. -/
def new (vault : Storage.Vault) (disk : Storage.Disk) (refreshInterval : Nat) : Account :=
  ⟨{}, disk, vault, refreshInterval, none⟩

/-- Whatever is done with an account and whatever comes to pass meanwhile, no renewal that nobody
asked for goes out before the access token has been there for the refresh interval. -/
theorem renewals_timely (vault : Storage.Vault) (disk : Storage.Disk) (refreshInterval : Nat)
    (events : List Event) : ∃ stages,
      Course (new vault disk refreshInterval) events stages
        (events.foldl Event.after (new vault disk refreshInterval)) ∧
      Timely refreshInterval stages ∧
      (events.foldl Event.after (new vault disk refreshInterval)).session.bind
        Session.refreshedAt = obtainedAfter stages := by
  obtain ⟨stages, hcourse⟩ := exists_course (new vault disk refreshInterval) events
  have htimed : Timed (new vault disk refreshInterval) none :=
    timed_of_none (by simp [Line.Ahead, new]) (proper_of_none rfl) rfl
  exact ⟨stages, hcourse, (hcourse.dated htimed rfl).timely, (hcourse.timed htimed).stored⟩

/-- A millisecond before the interval is over nothing is sent, and then the token is renewed. -/
example : [239999, 240000].map (fun wait =>
    ([Event.meanwhile 0 { replies := [⟨⟨200, Wire.Tokens.toJson ⟨"a", "r"⟩⟩, 0, false⟩] } ⟨[]⟩,
      .operate (.login ⟨"fridge", "secret"⟩), .meanwhile wait {} ⟨[]⟩,
      .operate .ensureFresh].foldl Event.after
        (new (.ofDirectory ⟨["cache"]⟩) ⟨[]⟩ 240000)).line.sent.length) = [0, 1] := by
  decide +kernel

end Larder.Account
