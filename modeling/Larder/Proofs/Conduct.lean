import Larder.Proofs.CallTraces
import Larder.Proofs.KeptSessions
import Larder.Proofs.OrderRequests
import Larder.Proofs.SteadyVaults
import Larder.Proofs.SupplierOperations

namespace Larder

/-- A relation between a state, what is sent from then on and the state after it, that holds where
nothing happens and of one thing after the other. -/
structure Trail {σ : Type} (R : σ → List Exchange → σ → Prop) : Prop where
  nil : ∀ s, R s [] s
  append : ∀ {s t u xs ys}, R s xs t → R t ys u → R s (xs ++ ys) u

/-- A part of the state stays as it is. -/
theorem Trail.same {σ τ : Type} (part : σ → τ) :
    Trail fun (s : σ) (_ : List Exchange) (t : σ) => part t = part s where
  nil _ := rfl
  append h h' := h'.trans h

/-- However the call ends, the relation holds of the states around it. -/
def Call.Leaves {σ α : Type} (R : σ → List Exchange → σ → Prop) (c : Call σ α) : Prop :=
  ∀ s e s', c.run s = (e, s') → ∃ xs, R s xs s'

section Leaves

variable {σ α β : Type} {R : σ → List Exchange → σ → Prop}

theorem Call.Leaves.view (hR : Trail R) (f : σ → α) : Call.Leaves R (Call.view f) := by
  intro s e s' h
  cases h
  exact ⟨[], hR.nil s⟩

theorem Call.Leaves.modify {f : σ → σ} (hf : ∀ s, R s [] (f s)) :
    Call.Leaves R (Call.modify f) := by
  intro s e s' h
  cases h
  exact ⟨[], hf s⟩

theorem Call.Leaves.ofExcept (hR : Trail R) (x : Except Failure α) :
    Call.Leaves R (Call.ofExcept x : Call σ α) := by
  intro s e s' h
  cases x <;> cases h <;> exact ⟨[], hR.nil s⟩

theorem Call.Leaves.bind (hR : Trail R) {c : Call σ α} {f : α → Call σ β} (hc : Call.Leaves R c)
    (hf : ∀ a, Call.Leaves R (f a)) : Call.Leaves R (c >>= f) := by
  intro s e s' h
  rcases Call.bind_cases h with ⟨a, t, ha, he⟩ | ⟨x, hx, _⟩ | ⟨hd, _⟩
  · obtain ⟨xs, hxs⟩ := hc s _ t ha
    obtain ⟨ys, hys⟩ := hf a t e s' he
    exact ⟨xs ++ ys, hR.append hxs hys⟩
  · exact hc s _ s' hx
  · exact hc s _ s' hd

theorem Call.Leaves.forget {c : Call σ α} (hc : Call.Leaves R c) : Call.Leaves R c.forget := by
  intro s e s' h
  obtain ⟨ended, hr, _⟩ := Call.forget_ended h
  exact hc s ended s' hr

/-- A watch leaves what its pauses and its polls do. -/
theorem Polling.Watch.Rounds.leaves {ω : Type} {w : Watch σ ω} (hR : Trail R)
    (hpause : ∀ interval, Call.Leaves R (w.pause interval)) (hpoll : Call.Leaves R w.poll)
    {interval left made : Nat} {s s' : σ} {polls : List (Asked σ)} {e : Ended (WatchEnd ω)}
    (h : w.Rounds interval left made s polls e s') : ∃ xs, R s xs s' := by
  induction h with
  | exhausted => exact ⟨[], hR.nil _⟩
  | cancelled => exact ⟨[], hR.nil _⟩
  | settled hp => exact hpoll _ _ _ hp.ran
  | fatal hp => exact hpoll _ _ _ hp.ran
  | dropped hp => exact hpoll _ _ _ hp.ran
  | last hp => exact hpoll _ _ _ hp.ran
  | again hp _ hs _ ih =>
    obtain ⟨xs, hxs⟩ := hpoll _ _ _ hp.ran
    obtain ⟨ys, hys⟩ := hpause _ _ _ _ hs
    obtain ⟨zs, hzs⟩ := ih
    exact ⟨_, hR.append (hR.append hxs hys) hzs⟩
  | interrupted hp _ hs =>
    obtain ⟨xs, hxs⟩ := hpoll _ _ _ hp.ran
    obtain ⟨ys, hys⟩ := hpause _ _ _ _ hs
    exact ⟨_, hR.append hxs hys⟩
  | pauseDropped hp _ hs =>
    obtain ⟨xs, hxs⟩ := hpoll _ _ _ hp.ran
    obtain ⟨ys, hys⟩ := hpause _ _ _ _ hs
    exact ⟨_, hR.append hxs hys⟩

end Leaves

/-- The service turns a refresh token down. -/
def Exchange.EndsSession (x : Exchange) : Prop :=
  x.request.path = Account.refreshPath ∧ ∃ y, x.response? = some y ∧ y.IsRejection

namespace Line

/-- The exchanges on the way from one state of a line to another, which may sleep between them. -/
inductive Conducts : Line → List Exchange → Line → Prop where
  | nil (l : Line) : Conducts l [] l
  | sent {l m n : Line} {r : Request} {x? : Option Response} {xs : List Exchange}
      (hs : l.send r = (x?, m)) (rest : Conducts m xs n) : Conducts l (⟨r, x?⟩ :: xs) n
  | slept {l m n : Line} {interval : Nat} {o : Option Bool} {xs : List Exchange}
      (hs : l.sleep interval = (o, m)) (rest : Conducts m xs n) : Conducts l xs n

section Conducts

variable {l m n : Line} {xs ys : List Exchange}

theorem Conducts.append (h : l.Conducts xs m) (h' : m.Conducts ys n) :
    l.Conducts (xs ++ ys) n := by
  induction h with
  | nil => exact h'
  | sent hs _ ih => exact .sent hs (ih h')
  | slept hs _ ih => exact .slept hs (ih h')

/-- The record of all requests grows by just those of the exchanges. -/
theorem Conducts.sent_eq (h : l.Conducts xs m) :
    m.sent = l.sent ++ xs.map Exchange.request := by
  induction h with
  | nil => simp
  | sent hs _ ih => simp [ih, send_sent hs]
  | slept hs _ ih =>
    obtain ⟨t, rfl, _⟩ := sleep_cases hs
    exact ih

end Conducts

end Line

namespace Account

/-- How an operation of an account goes, where `P` says which requests it sends. -/
structure Conducts (P : Request → Prop) (a : Account) (xs : List Exchange) (a' : Account) :
    Prop where
  conducted : a.line.Conducts xs a'.line
  requests : ∀ x ∈ xs, P x.request
  vault : a'.vault = a.vault
  proper : a.Proper → a'.Proper
  kept : a.vault.Steady → a.Proper → a.kept?.isSome →
    a'.kept?.isSome ∨ ∃ x ∈ xs, x.EndsSession

section Conducts

variable {P : Request → Prop} {a a₁ a' : Account} {xs ys : List Exchange} {r : Request}
  {lead : Option Exchange}

/-- Where nothing goes out and the credential that is kept can still be read. -/
theorem Conducts.silent (hline : a'.line = a.line) (hvault : a'.vault = a.vault)
    (hproper : a.Proper → a'.Proper)
    (hkept : a.vault.Steady → a.Proper → a.kept?.isSome → a'.kept?.isSome) :
    Conducts P a [] a' where
  conducted := hline ▸ .nil a.line
  requests := by simp
  vault := hvault
  proper := hproper
  kept hs ha hk := Or.inl (hkept hs ha hk)

theorem Conducts.nil (a : Account) : Conducts P a [] a :=
  .silent rfl rfl id fun _ _ h => h

theorem Conducts.append (h : Conducts P a xs a₁) (h' : Conducts P a₁ ys a') :
    Conducts P a (xs ++ ys) a' where
  conducted := h.conducted.append h'.conducted
  requests := List.forall_mem_append.mpr ⟨h.requests, h'.requests⟩
  vault := h'.vault.trans h.vault
  proper ha := h'.proper (h.proper ha)
  kept := by
    intro hs ha hk
    rcases h.kept hs ha hk with hk₁ | ⟨x, hx, he⟩
    · rcases h'.kept (h.vault ▸ hs) (h.proper ha) hk₁ with hk' | ⟨x, hx, he⟩
      · exact Or.inl hk'
      · exact Or.inr ⟨x, List.mem_append_right xs hx, he⟩
    · exact Or.inr ⟨x, List.mem_append_left ys hx, he⟩

theorem Conducts.sent {x? : Option Response} {line : Line} (hr : P r)
    (hl : a.line.send r = (x?, line)) : Conducts P a [⟨r, x?⟩] { a with line } where
  conducted := .sent hl (.nil line)
  requests := by simpa using hr
  vault := rfl
  proper := id
  kept _ _ hk := Or.inl hk

theorem Conducts.slept {interval : Nat} {o : Option Bool} {line : Line}
    (hl : a.line.sleep interval = (o, line)) : Conducts P a [] { a with line } where
  conducted := .slept hl (.nil line)
  requests := by simp
  vault := rfl
  proper := id
  kept _ _ hk := Or.inl hk

/-- Holding a session saves its credential over the one that is kept. -/
theorem Conducts.held {s : Session} (hs : a.Proper → s.Proper) : Conducts P a [] (a.hold s) := by
  refine .silent (hold_line a s) (hold_vault a s) (fun ha => proper_of_some rfl (hs ha)) ?_
  intro hv ha hk
  have hproper := hs ha
  unfold kept?
  rw [hold_vault]
  cases ht : s.refreshToken with
  | none =>
    have hdisk : (a.hold s).disk = a.disk := by simp [hold, keep, Session.credential?, ht]
    rw [hdisk]
    exact hk
  | some token =>
    have hdisk : (a.hold s).disk = (a.vault.save ⟨s.deviceId, token⟩ a.disk).2 := by
      simp [hold, keep, Session.credential?, ht]
    have htoken : token ≠ "" := by
      rintro rfl
      exact hproper.refresh ht
    rw [hdisk]
    rcases hv ⟨s.deviceId, token⟩ a.disk htoken hk with hsame | hnew
    · rw [hsame]
      exact hk
    · rw [hnew]
      rfl

theorem Renewed.conducts {x : Option Exchange} {e : Ended RefreshResult}
    (hP : ∀ token, P (refreshRequest token)) (h : Renewed a x e a') : Conducts P a x.toList a' := by
  cases h with
  | tokenless => exact .nil a
  | unanswered _ _ hl => exact .sent (hP _) hl
  | rejected _ _ hl => exact .sent (hP _) hl
  | unavailable _ _ hl => exact .sent (hP _) hl
  | @refreshed s token access y l hs ht hl hx =>
    have hheld : Conducts P { a with line := l } []
        (Account.hold (s.withAccessToken access l.now) { a with line := l }) :=
      .held fun ha => (ha s hs).withAccessToken hx.2.2 l.now
    have hafter : Account.hold (s.withAccessToken access l.now) { a with line := l } = { a with
        line := l
        disk := (a.vault.save ⟨s.deviceId, token⟩ a.disk).2
        session := some (s.withAccessToken access l.now) } := by
      simp [hold, keep, Session.credential?, Session.withAccessToken, ht]
    rw [hafter] at hheld
    exact (Conducts.sent (hP token) hl).append hheld

/-- A session is discarded once its refresh token has been turned down. -/
theorem Renewed.conducts_discard {x : Option Exchange} {m : String}
    (hP : ∀ token, P (refreshRequest token)) (h : Renewed a x (.done (.rejected m)) a') :
    Conducts P a x.toList a'.discard := by
  have hconducts := h.conducts hP
  cases h with
  | rejected _ _ _ hx =>
    exact {
      conducted := hconducts.conducted
      requests := hconducts.requests
      vault := rfl
      proper := fun _ => proper_of_none rfl
      kept := fun _ _ _ => Or.inr ⟨_, List.mem_singleton_self _, rfl, _, rfl, hx⟩ }

theorem Led.conducts {e : Ended (Option RefreshResult)} (hP : ∀ token, P (refreshRequest token))
    (h : Led a lead e a') : Conducts P a lead.toList a' := by
  cases h with
  | notDue => exact .nil a
  | due _ hr => exact hr.conducts hP
  | dropped _ hr => exact hr.conducts hP

theorem Asked.conducts {first : Exchange} (hP : ∀ token, P (refreshRequest token))
    (hr : ∀ token, P (r.withBearer token)) (h : Asked a r lead first a') :
    Conducts P a (lead.toList ++ [first]) a' := by
  obtain ⟨_, hled, _, hsent, hrequest, rfl⟩ := h
  obtain ⟨request, response?⟩ := first
  dsimp only at hrequest
  subst hrequest
  exact (hled.conducts hP).append (.sent (hr _) hsent)

/-- A protected call sends renewals and its own request. -/
theorem Called.conducts {t : CallTrace} {e : Ended Response}
    (hP : ∀ token, P (refreshRequest token)) (hr : ∀ token, P (r.withBearer token))
    (h : Called a r t e a') : Conducts P a t.exchanges a' := by
  simp only [CallTrace.exchanges_eq]
  cases h with
  | loggedOut => exact .nil a
  | leadDropped _ hl => simpa using hl.conducts hP
  | leadUnavailable _ _ hl => simpa using hl.conducts hP
  | leadRejected _ _ hl =>
    cases hl with
    | due _ hl => simpa using hl.conducts_discard hP
  | tokenless _ _ hl => simpa using hl.conducts hP
  | firstDropped ha => simpa using ha.conducts hP hr
  | answered ha => simpa using ha.conducts hP hr
  | secondDropped ha _ _ hs => simpa using (ha.conducts hP hr).append (hs.conducts hP)
  | secondRejected ha _ _ hs => simpa using (ha.conducts hP hr).append (hs.conducts_discard hP)
  | secondUnavailable ha _ _ hs => simpa using (ha.conducts hP hr).append (hs.conducts hP)
  | secondTokenless ha _ _ hs => simpa using (ha.conducts hP hr).append (hs.conducts hP)
  | retryDropped ha _ _ hs _ hl =>
    simpa using ((ha.conducts hP hr).append (hs.conducts hP)).append (.sent (hr _) hl)
  | retried ha _ _ hs _ hl =>
    simpa using ((ha.conducts hP hr).append (hs.conducts hP)).append (.sent (hr _) hl)

theorem authorizedCall_conducts {e : Ended Response} (hP : ∀ token, P (refreshRequest token))
    (hr : ∀ token, P (r.withBearer token)) (h : (authorizedCall r).run a = (e, a')) :
    ∃ xs, Conducts P a xs a' := by
  obtain ⟨t, hc⟩ := authorizedCall_cases h
  exact ⟨_, hc.conducts hP hr⟩

/-- A session that is read back can go on from its refresh token. -/
theorem Conducts.readBack {c : Storage.Credential} (hl : a.vault.load a.disk = some c) :
    Conducts P a [] { a with session := some (.ofCredential c) } :=
  .silent rfl rfl (fun _ => proper_of_some rfl
    (Session.proper_ofCredential (Storage.Vault.load_refreshToken hl))) fun _ _ hk => hk

theorem Conducts.setAside (a : Account) : Conducts P a [] { a with session := none } :=
  .silent rfl rfl (fun _ => proper_of_none rfl) fun _ _ hk => hk

/-- A session that has been read back is renewed with the refresh token that was kept. -/
theorem Renewed.readBack_request {c : Storage.Credential} {x : Option Exchange}
    {e : Ended RefreshResult} (hl : a.vault.load a.disk = some c)
    (h : Renewed { a with session := some (.ofCredential c) } x e a') :
    ∃ y?, x = some ⟨refreshRequest c.refreshToken, y?⟩ := by
  have htoken : refreshToken? { a with session := some (.ofCredential c) } =
      some c.refreshToken := by
    have hne := Storage.Vault.load_refreshToken hl
    simp [refreshToken?, Session.ofCredential, Session.nonEmpty?, hne]
  have hsome : x.isSome := by
    rw [h.isSome_iff, htoken]
    rfl
  obtain ⟨⟨request, y?⟩, rfl⟩ := Option.isSome_iff_exists.mp hsome
  obtain ⟨token, ht, hrequest⟩ := h.request rfl
  rw [htoken] at ht
  cases ht
  exact ⟨y?, by rw [← hrequest]⟩

/-- Where nothing is kept, nothing is sent and there is no session. -/
theorem Restored.of_none {e : Ended Bool} (hl : a.vault.load a.disk = none)
    (h : Restored a e a') : e = .done false ∧ a' = a := by
  cases h with
  | nothing => exact ⟨rfl, rfl⟩
  | refreshed hc => simp [hl] at hc
  | unavailable hc => simp [hl] at hc
  | rejected hc => simp [hl] at hc
  | dropped hc => simp [hl] at hc

/-- Where a credential is kept, its refresh token is sent, and there is a session when that has
brought an access token. -/
theorem Restored.of_some {e : Ended Bool} {c : Storage.Credential}
    (hP : ∀ token, P (refreshRequest token)) (hl : a.vault.load a.disk = some c)
    (h : Restored a e a') : ∃ y?, Conducts P a [⟨refreshRequest c.refreshToken, y?⟩] a' ∧
      (e = .done true → ∃ y token, y? = some y ∧ y.Mints token) := by
  cases h with
  | nothing hn => simp [hl] at hn
  | refreshed hc hr =>
    rw [hl] at hc
    cases hc
    obtain ⟨y?, rfl⟩ := hr.readBack_request hl
    obtain ⟨token, ⟨_, y, hy, hm⟩, _⟩ := hr.minted
    cases hy
    exact ⟨_, (Conducts.readBack hl).append (hr.conducts hP), fun _ => ⟨y, token, rfl, hm⟩⟩
  | unavailable hc hr =>
    rw [hl] at hc
    cases hc
    obtain ⟨y?, rfl⟩ := hr.readBack_request hl
    have hconducts := ((Conducts.readBack hl).append (hr.conducts hP)).append (.setAside _)
    exact ⟨y?, hconducts, by simp⟩
  | rejected hc hr =>
    rw [hl] at hc
    cases hc
    obtain ⟨y?, rfl⟩ := hr.readBack_request hl
    exact ⟨y?, (Conducts.readBack hl).append (hr.conducts_discard hP), by simp⟩
  | dropped hc hr =>
    rw [hl] at hc
    cases hc
    obtain ⟨y?, rfl⟩ := hr.readBack_request hl
    exact ⟨y?, (Conducts.readBack hl).append (hr.conducts hP), by simp⟩

theorem Restored.conducts {e : Ended Bool} (hP : ∀ token, P (refreshRequest token))
    (h : Restored a e a') : ∃ xs, Conducts P a xs a' := by
  cases hl : a.vault.load a.disk with
  | none =>
    obtain ⟨_, rfl⟩ := h.of_none hl
    exact ⟨[], .nil a'⟩
  | some c =>
    obtain ⟨y?, hc, _⟩ := h.of_some hP hl
    exact ⟨_, hc⟩

theorem logout_line {e : Ended Unit} (h : logout.run a = (e, a')) : a'.line = a.line := by
  unfold logout at h
  rw [Call.run_modify_bind, Call.run_view_bind] at h
  split at h <;> cases h <;> rfl

theorem register_conducts {r : Wire.Registration} {e : Ended Unit}
    (hP : checkCredentials r.deviceId r.password = .ok () → P (registerRequest r))
    (h : (register r).run a = (e, a')) : ∃ xs, Conducts P a xs a' := by
  rcases register_sends h with rfl | ⟨hc, _, _, hl, rfl⟩
  · exact ⟨[], .nil _⟩
  · exact ⟨_, .sent (hP hc) hl⟩

theorem login_conducts {l : Wire.Login} {e : Ended Unit}
    (hP : checkCredentials l.deviceId l.password = .ok () → P (loginRequest l))
    (h : (login l).run a = (e, a')) : ∃ xs, Conducts P a xs a' := by
  cases login_sends h with
  | unchecked => exact ⟨[], .nil a⟩
  | refused hc hl => exact ⟨_, .sent (hP hc) hl⟩
  | @accepted _ _ line hc hl hx =>
    have hs := Session.proper_ofLogin l.deviceId (loginTokens_access hx) line.now
    exact ⟨_, (Conducts.sent (hP hc) hl).append (.held fun _ => hs)⟩

end Conducts

end Account

namespace Fridge

/-- How an operation of a fridge goes for its account. -/
def Conducts (P : Request → Prop) (f : Fridge) (xs : List Exchange) (f' : Fridge) : Prop :=
  f.account.Conducts P xs f'.account

section Conducts

variable {P : Request → Prop} {α : Type}

theorem conducts_trail : Trail (Conducts P) where
  nil f := .nil f.account
  append h h' := Account.Conducts.append h h'

theorem onAccount_leaves {c : Call Account α} (hc : c.Leaves (Account.Conducts P)) :
    (onAccount c).Leaves (Conducts P) := by
  intro f e f' h
  obtain ⟨account, ha, rfl⟩ := onAccount_cases h
  exact hc f.account e account ha

theorem setOrder_leaves (order : Order) : (setOrder order).Leaves (Conducts P) :=
  .modify fun f => .nil f.account

theorem advance_leaves (step : Order.Step α) :
    (advance step).Leaves (Conducts P) :=
  .bind conducts_trail (.view conducts_trail _) fun _ =>
    .bind conducts_trail (setOrder_leaves _) fun _ => .ofExcept conducts_trail _

/-- An errand sends renewals and the request that its order calls for. -/
theorem Errand.Goes.conducts {r : Errand α} {f f' : Fridge} {e : Ended α}
    (hP : ∀ token, P (Account.refreshRequest token))
    (hr : ∀ q, r.request f.order = .ok q → ∀ token, P (q.withBearer token))
    (h : r.Goes f e f') : ∃ xs, Conducts P f xs f' := by
  cases h with
  | refused => exact ⟨[], .nil f.account⟩
  | failed hq hc => exact Account.authorizedCall_conducts hP (hr _ hq) hc
  | dropped hq hc => exact Account.authorizedCall_conducts hP (hr _ hq) hc
  | unsettled hq hc => exact Account.authorizedCall_conducts hP (hr _ hq) hc
  | settled hq hc => exact Account.authorizedCall_conducts hP (hr _ hq) hc

theorem Errand.leaves {r : Errand α} (hP : ∀ token, P (Account.refreshRequest token))
    (hr : ∀ o q, r.request o = .ok q → ∀ token, P (q.withBearer token)) :
    r.call.Leaves (Conducts P) :=
  fun f _ _ h => (Errand.call_cases h).conducts hP (hr f.order)

theorem restore_leaves (hP : ∀ token, P (Account.refreshRequest token)) :
    restore.Leaves (Conducts P) :=
  onAccount_leaves fun _ _ _ h => (Account.restore_cases h).conducts hP

/-- Asking for something sends renewals and that question. -/
theorem query_leaves {path : String} {read : Response → Except Failure α}
    (hP : ∀ token, P (Account.refreshRequest token))
    (hr : ∀ token, P ((Request.get path).withBearer token)) :
    (query path read).call.Leaves (Conducts P) := by
  refine Errand.leaves hP ?_
  intro o q hq
  cases hq
  exact hr

theorem preview_leaves {cart : List Wire.OrderLine}
    (hP : ∀ token, P (Account.refreshRequest token))
    (hr : ∀ body token, P (((Request.post previewPath).withBody body).withBearer token)) :
    (preview cart).Leaves (Conducts P) := by
  rw [preview_eq]
  refine Errand.leaves hP ?_
  intro o q hq
  simp only [previewErrand, bind_ok] at hq
  obtain ⟨_, _, _, _, hq⟩ := hq
  cases hq
  exact hr _

/-- What is done with a reservation sends renewals and the order's id to one path. -/
theorem reservedErrand_leaves {path wording : String} {step : Order.Step α}
    {hs : step.Restores} (hP : ∀ token, P (Account.refreshRequest token))
    (hr : ∀ body token, P (((Request.post path).withBody body).withBearer token)) :
    (reservedErrand path wording step hs).call.Leaves (Conducts P) := by
  refine Errand.leaves hP ?_
  intro o q hq
  simp only [reservedErrand, bind_ok] at hq
  obtain ⟨_, _, hq⟩ := hq
  cases hq
  exact hr _

theorem poll_leaves (hP : ∀ token, P (Account.refreshRequest token))
    (hr : ∀ token, P ((Request.get lastOrderPath).withBearer token)) :
    poll.Leaves (Conducts P) := by
  rw [poll_eq]
  refine Errand.leaves hP ?_
  intro o q hq
  simp only [pollErrand, bind_ok] at hq
  obtain ⟨_, _, hq⟩ := hq
  cases hq
  exact hr

theorem waitForCompletion_leaves (hP : ∀ token, P (Account.refreshRequest token))
    (hr : ∀ token, P ((Request.get lastOrderPath).withBearer token)) :
    waitForCompletion.Leaves (Conducts P) := by
  intro f e f' h
  rcases waitForCompletion_cases h with ⟨_, _, _, rfl⟩ | ⟨_, polls, hrounds⟩
  · exact ⟨[], .nil f'.account⟩
  · refine hrounds.leaves conducts_trail ?_ (poll_leaves hP hr).forget
    intro interval g b g' hs
    obtain ⟨o, l, hl, rfl, _⟩ := Polling.Watch.pause_cases hs
    exact ⟨[], .slept hl⟩

end Conducts

end Fridge

namespace Supplier

/-- How an operation of a supplier goes, where `P` says which requests it sends. -/
structure Conducts (P : Request → Prop) (s : Supplier) (xs : List Exchange) (s' : Supplier) :
    Prop where
  conducted : s.line.Conducts xs s'.line
  requests : ∀ x ∈ xs, P x.request

section Conducts

variable {P : Request → Prop} {s s' : Supplier} {r : Request} {x? : Option Response} {line : Line}

theorem Conducts.nil (s : Supplier) : Conducts P s [] s := ⟨.nil s.line, by simp⟩

theorem conducts_trail : Trail (Conducts P) where
  nil := .nil
  append h h' := ⟨h.conducted.append h'.conducted,
    List.forall_mem_append.mpr ⟨h.requests, h'.requests⟩⟩

theorem Conducts.sent (hr : P r) (hl : s.line.send r = (x?, line)) (hs : s'.line = line) :
    Conducts P s [⟨r, x?⟩] s' where
  conducted := hs ▸ .sent hl (.nil line)
  requests := by simpa using hr

theorem register_leaves {t : Truck} (hP : t.validate = .ok () → P (registrationRequest t)) :
    (register t).Leaves (Conducts P) := by
  intro s e s' h
  unfold register at h
  cases ht : t.validate with
  | error x =>
    rw [ht] at h
    cases h
    exact ⟨[], .nil s⟩
  | ok u =>
    rw [ht, Call.ofExcept_ok_bind] at h
    rcases send_bind_cases h with ⟨x, line, hl, hx⟩ | ⟨line, hl, _, rfl⟩
    · have hafter : s' = { s with line } := by
        cases hs : x.success <;> rw [hs] at hx <;> cases hx <;> rfl
      rw [hafter]
      exact ⟨_, .sent (hP ht) hl rfl⟩
    · exact ⟨_, .sent (hP ht) hl rfl⟩

theorem submit_leaves {b : Batch}
    (hP : ∀ request, b.request = .ok request → P (restockRequest request)) :
    (submit b).Leaves (Conducts P) := by
  intro s e s' h
  cases submit_cases h with
  | unfinished => exact ⟨[], .nil s⟩
  | invalid => exact ⟨[], .nil s⟩
  | dropped _ hb hl => exact ⟨_, .sent (hP _ hb) hl rfl⟩
  | declined _ hb hl => exact ⟨_, .sent (hP _ hb) hl rfl⟩
  | accepted _ hb hl => exact ⟨_, .sent (hP _ hb) hl rfl⟩

theorem poll_leaves (hP : ∀ r, P (statusRequest r)) : poll.Leaves (Conducts P) := by
  intro s e s' h
  cases poll_cases h with
  | untracked => exact ⟨[], .nil s⟩
  | dropped _ hl => exact ⟨_, .sent (hP _) hl rfl⟩
  | unreadable _ hl => exact ⟨_, .sent (hP _) hl rfl⟩
  | nothing _ hl => exact ⟨_, .sent (hP _) hl rfl⟩
  | noted _ hl => exact ⟨_, .sent (hP _) hl rfl⟩

theorem waitForCompletion_leaves (hP : ∀ r, P (statusRequest r)) :
    waitForCompletion.Leaves (Conducts P) := by
  intro s e s' h
  rcases waitForCompletion_cases h with ⟨_, _, _, rfl⟩ | ⟨_, polls, hrounds⟩
  · exact ⟨[], .nil s'⟩
  · refine hrounds.leaves conducts_trail ?_ (poll_leaves hP).forget
    intro interval t b t' hs
    obtain ⟨o, l, hl, rfl, _⟩ := Polling.Watch.pause_cases hs
    exact ⟨[], .slept hl (.nil l), by simp⟩

end Conducts

end Supplier

end Larder
