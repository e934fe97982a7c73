import Larder.Proofs.Turns

namespace Larder

/-- The two tokens of a session. -/
structure Keys where
  refresh : Option String
  access : Option String

def Session.keys (s : Session) : Keys := ⟨s.refreshToken, s.accessToken⟩

namespace Account

/-- The tokens of the session that is held. -/
def keys (a : Account) : Option Keys := a.session.map Session.keys

/-- The tokens after a response. -/
def keysAnswered (path : String) (x : Response) (keys : Option Keys) : Option Keys :=
  if path = loginPath then
    match loginTokens x with
    | .ok tokens => some ⟨Session.nonEmpty? tokens.refresh, some tokens.access⟩
    | .error _ => keys
  else if path = refreshPath then
    match freshToken x with
    | .ok token => keys.map fun k => { k with access := some token }
    | .error _ => keys
  else keys

/-- The tokens after a happening, told from what the account has seen only. -/
def keysAfter (keys : Option Keys) : Happening → Option Keys
  | .sent _ x => (x.response?.map (keysAnswered x.request.path · keys)).getD keys
  | .readBack c => some ⟨Session.nonEmpty? c.refreshToken, none⟩
  | .ended => none

/-- What a request carries when these are the tokens. -/
inductive Bears : Option Keys → Request → Prop where
  | credentials {keys : Option Keys} {r : Request} (hp : r.path = registerPath ∨ r.path = loginPath)
      (hb : r.bearer = none) : Bears keys r
  | renewal {k : Keys} {r : Request} {token : String} (hp : r.path = refreshPath)
      (hk : k.refresh = some token) (hb : r.bearer = some token) (hn : r.body = none) :
      Bears (some k) r
  | request {k : Keys} {r : Request} {token : String}
      (hp : r.path ∈ Fridge.protectedPaths)
      (hk : k.access = some token) (ht : token ≠ "") (hb : r.bearer = some token) :
      Bears (some k) r

theorem freshToken_eq {x : Response} {token : String} (h : x.Mints token) :
    freshToken x = .ok token := by
  have hv := freshToken_verdict x
  generalize freshToken x = verdict at hv
  cases hv with
  | rejected hx => exact absurd hx h.not_rejection
  | unavailable hx => exact absurd h (hx.not_mints token)
  | minted hx => rw [hx.unique h]

theorem freshToken_error {x : Response} (h : ∀ token, ¬ x.Mints token) :
    ∃ result, freshToken x = .error result := by
  have hv := freshToken_verdict x
  generalize freshToken x = verdict at hv
  cases hv with
  | rejected => exact ⟨_, rfl⟩
  | unavailable => exact ⟨_, rfl⟩
  | minted hx => exact absurd hx (h _)

section Keys

variable {a a' b : Account} {h : Happening} {hs : List Happening} {D : String → Prop}
  {op : Fridge.Operation} {o : Order}

theorem keysAnswered_refused {x : Response} {keys : Option Keys}
    (hx : ∀ token, ¬ x.Mints token) : keysAnswered refreshPath x keys = keys := by
  obtain ⟨result, he⟩ := freshToken_error hx
  have hp : ¬ refreshPath = loginPath := by decide
  simp [keysAnswered, hp, he]

/-- A renewal leaves the refresh token as it is, and brings an access token or nothing. -/
theorem Renewed.keys {x : Exchange} {e : Ended RefreshResult} (h : Renewed a (some x) e a') :
    a'.keys = keysAfter a.keys (.sent b x) := by
  cases h with
  | unanswered => rfl
  | rejected _ _ _ hx =>
    exact (keysAnswered_refused fun token ht => ht.not_rejection hx).symm
  | unavailable _ _ _ hx => exact (keysAnswered_refused hx.not_mints).symm
  | refreshed hs ht _ hx =>
    have hp : ¬ refreshPath = loginPath := by decide
    simp [Account.keys, keysAfter, keysAnswered, refreshRequest, Request.withBearer, Request.post,
      freshToken_eq hx, hs, hp, Session.keys, Session.withAccessToken]

/-- The answer to a request of another kind brings no token. -/
theorem keysAnswered_of_ne {path : String} (h : path ≠ loginPath ∧ path ≠ refreshPath)
    (x : Response) (keys : Option Keys) : keysAnswered path x keys = keys := by
  simp [keysAnswered, h.1, h.2]

theorem keysAfter_of_ne {x : Exchange}
    (h : x.request.path ≠ loginPath ∧ x.request.path ≠ refreshPath) (keys : Option Keys) :
    keysAfter keys (.sent b x) = keys := by
  simp only [keysAfter]
  cases x.response? with
  | none => rfl
  | some y => exact keysAnswered_of_ne h y keys

/-- The tokens that are held are those that were seen. -/
theorem Happens.keys (h₁ : Happens (Fridge.Calls op o) D a h a') :
    a'.keys = keysAfter a.keys h := by
  cases h₁ with
  | @registration r x? =>
    have hp : registerPath ≠ loginPath ∧ registerPath ≠ refreshPath := by decide
    exact (keysAfter_of_ne (x := ⟨registerRequest r, x?⟩) hp a.keys).symm
  | @loginRefused l x? line hl hx =>
    cases x? with
    | none => rfl
    | some x =>
      cases ht : loginTokens x with
      | ok tokens => exact absurd ht (hx x tokens rfl)
      | error f =>
        change a.keys = keysAnswered loginPath x a.keys
        rw [keysAnswered, if_pos rfl, ht]
  | @loggedIn l x tokens line hl hx =>
    change _ = keysAnswered loginPath x a.keys
    rw [keysAnswered, if_pos rfl, hx]
    rfl
  | renewal hr => exact Renewed.keys hr
  | @request r token x? line hr =>
    have hp := Fridge.protectedPaths_ne _ hr.path
    exact (keysAfter_of_ne (x := ⟨r.withBearer token, x?⟩) hp.2 a.keys).symm
  | readBack => rfl
  | ended => rfl

theorem Happens.proper {P : Request → Prop} (h₁ : Happens P D a h a') (ha : a.Proper) :
    a'.Proper := by
  cases h₁ with
  | registration => exact ha
  | loginRefused => exact ha
  | loggedIn _ hx => exact proper_of_some rfl (Session.proper_ofLogin _ (loginTokens_access hx) _)
  | renewal hr => exact hr.proper ha
  | request => exact ha
  | readBack hl =>
    exact proper_of_some rfl (Session.proper_ofCredential (Storage.Vault.load_refreshToken hl))
  | ended => exact proper_of_none rfl

theorem Sends.bears {r : Request} (h₁ : Sends (Fridge.Calls op o) a r) (ha : a.Proper) :
    Bears a.keys r := by
  cases h₁ with
  | registration r => exact .credentials (Or.inl rfl) rfl
  | login l => exact .credentials (Or.inr rfl) rfl
  | renewal ht =>
    obtain ⟨s, hs, ht⟩ := Option.bind_eq_some_iff.mp ht
    rw [keys, hs]
    exact .renewal rfl ht rfl rfl
  | @request r token hr ht =>
    obtain ⟨s, hs, ht⟩ := Option.bind_eq_some_iff.mp ht
    have hne : token ≠ "" := by
      rintro rfl
      exact (ha s hs).access ht
    rw [keys, hs]
    exact .request hr.path ht hne rfl

/-- Each request goes out when the account holds the tokens that were seen before, and carries what
they call for. -/
def Fitting : Option Keys → List Happening → Prop
  | _, [] => True
  | keys, h :: hs =>
    (∀ a x, h = .sent a x → a.keys = keys ∧ Bears keys x.request) ∧ Fitting (keysAfter keys h) hs

theorem Fitting.append {keys : Option Keys} {hs' : List Happening} (h₁ : Fitting keys hs)
    (h₂ : Fitting (hs.foldl keysAfter keys) hs') : Fitting keys (hs ++ hs') := by
  induction hs generalizing keys with
  | nil => exact h₂
  | cons h hs ih => exact ⟨h₁.1, ih h₁.2 h₂⟩

theorem Fitting.sent {keys : Option Keys} {before after : List Happening} {x : Exchange}
    (h₁ : Fitting keys (before ++ .sent a x :: after)) :
    a.keys = before.foldl keysAfter keys ∧ Bears a.keys x.request := by
  induction before generalizing keys with
  | nil =>
    obtain ⟨hkeys, hbears⟩ := h₁.1 a x rfl
    exact ⟨hkeys, hkeys ▸ hbears⟩
  | cons h before ih => exact ih h₁.2

theorem Story.fitting (h₁ : Story (Fridge.Calls op o) D a hs a') (ha : a.Proper) :
    Fitting a.keys hs ∧ hs.foldl keysAfter a.keys = a'.keys ∧ a'.Proper := by
  induction h₁ with
  | nil => exact ⟨trivial, rfl, ha⟩
  | @cons a a₁ a' h hs first rest ih =>
    obtain ⟨hfit, hkeys, hproper⟩ := ih (first.proper ha)
    rw [first.keys] at hfit hkeys
    refine ⟨⟨?_, hfit⟩, hkeys, hproper⟩
    rintro b x rfl
    obtain ⟨rfl, hsends⟩ := first.sends
    exact ⟨rfl, hsends.bears ha⟩

end Keys

end Account

namespace Fridge

open Account (Fitting keysAfter)

/-- So it is over all turns, for between two of them the session stays as it is. -/
theorem turns_fitting {p q : Order × Option Session} {turns : List Turn}
    (h : Joined p (turns.map Turn.toMove) q) (ht : ∀ t ∈ turns, t.Told)
    (hp : ∀ s, p.2 = some s → s.Proper) :
    Fitting (p.2.map Session.keys) (turns.flatMap Turn.happenings) ∧
      (turns.flatMap Turn.happenings).foldl keysAfter (p.2.map Session.keys) =
        q.2.map Session.keys := by
  induction turns generalizing p with
  | nil =>
    cases h with
    | nil => exact ⟨trivial, rfl⟩
  | cons t turns ih =>
    obtain ⟨ht, hts⟩ := List.forall_mem_cons.mp ht
    cases h with
    | cons h =>
      obtain ⟨hfirst, hkeys, hproper⟩ := ht.story.fitting hp
      obtain ⟨hrest, hend⟩ := ih h hts hproper
      rw [List.flatMap_cons, List.foldl_append]
      exact ⟨hfirst.append (hkeys ▸ hrest), hkeys ▸ hend⟩

/-- Whatever is done with a new fridge, every request carries the token that it is for, as it was
seen last, and the fridge holds no other tokens than those. -/
theorem requests_bear (settings : Settings) (vault : Storage.Vault) (disk : Storage.Disk)
    (line : Line) (events : List Event) : ∃ turns : List Turn,
      Course (new settings vault disk line) events (turns.map Turn.toMove)
        (events.foldl Event.after (new settings vault disk line)) ∧
      (∀ t ∈ turns, t.Told ∧
        t.after.line.sent = t.before.line.sent ++ t.exchanges.map Exchange.request) ∧
      (turns.flatMap Turn.happenings).foldl keysAfter none =
        (events.foldl Event.after (new settings vault disk line)).account.keys ∧
      ∀ before a x after, turns.flatMap Turn.happenings = before ++ .sent a x :: after →
        a.keys = before.foldl keysAfter none ∧ Account.Bears a.keys x.request := by
  obtain ⟨turns, hcourse, htold⟩ := exists_course (new settings vault disk line) events
  obtain ⟨hfit, hend⟩ := turns_fitting hcourse.joined htold (by simp [standing, new])
  refine ⟨turns, hcourse, fun t ht => ⟨htold t ht, (htold t ht).sent_eq⟩, hend, ?_⟩
  intro before a x after hsplit
  rw [hsplit] at hfit
  exact hfit.sent

end Fridge

end Larder
