import Larder.Proofs.AlikeResponses
import Larder.Proofs.Turns

namespace Larder

/-- The requests are the same but for the access token that a protected one carries. -/
inductive Request.Alike : Request → Request → Prop where
  | same (r : Request) : Alike r r
  | bearers {r : Request} (hr : r.path ∈ Fridge.protectedPaths) (s t : String) :
      Alike (r.withBearer s) (r.withBearer t)

structure Reply.Alike (p q : Reply) : Prop where
  response : p.response.Alike q.response
  delay : p.delay = q.delay
  interrupts : p.interrupts = q.interrupts

/-- The outlet refuses no request for the access token that it carries. -/
def Outlet.IsBlind (o : Outlet) : Prop :=
  ∀ r s, Request.Alike r s → o.refusal? r = o.refusal? s

theorem Outlet.direct_isBlind : Outlet.direct.IsBlind := fun _ _ _ => rfl

/-- The lines are the same but for the replies to come and the requests so far, which are alike. -/
structure Line.Alike (l m : Line) : Prop where
  same : m = { l with replies := m.replies, sent := m.sent }
  blind : l.outlet.IsBlind
  replies : List.Forall₂ Reply.Alike l.replies m.replies
  sent : List.Forall₂ Request.Alike l.sent m.sent

/-- The sessions are the same but for the access token, which both have or neither has. -/
structure Session.Alike (s t : Session) : Prop where
  deviceId : s.deviceId = t.deviceId
  accessToken : s.accessToken.isSome = t.accessToken.isSome
  refreshToken : s.refreshToken = t.refreshToken
  refreshedAt : s.refreshedAt = t.refreshedAt

structure Account.Alike (a b : Account) : Prop where
  line : a.line.Alike b.line
  disk : a.disk = b.disk
  vault : a.vault = b.vault
  refreshInterval : a.refreshInterval = b.refreshInterval
  session : Option.Rel Session.Alike a.session b.session

namespace Line

variable {l m : Line} {r s : Request}

theorem Alike.answer (h : l.Alike m) (hr : r.Alike s) :
    Option.Rel Reply.Alike (l.answer r).1 (m.answer s).1 ∧
      List.Forall₂ Reply.Alike (l.answer r).2 (m.answer s).2 := by
  have hrefl : ∀ p : Reply, p.Alike p := fun p => ⟨.refl _, rfl, rfl⟩
  have houtlet : m.outlet = l.outlet := by rw [h.same]
  have hreplies := h.replies
  unfold Line.answer
  rw [houtlet, h.blind r s hr]
  generalize l.replies = ps at hreplies
  generalize m.replies = qs at hreplies
  cases l.outlet.refusal? s with
  | some refusal => exact ⟨.some (hrefl _), hreplies⟩
  | none =>
    cases hreplies with
    | nil =>
      refine ⟨?_, .nil⟩
      cases l.outlet.whenEmpty? with
      | none => exact .none
      | some p => exact .some (hrefl p)
    | cons hp hps => exact ⟨.some hp, hps⟩

theorem Alike.waitUntil (h : l.Alike m) (t : Nat) :
    (l.waitUntil t).1 = (m.waitUntil t).1 ∧ (l.waitUntil t).2.Alike (m.waitUntil t).2 := by
  obtain ⟨hsame, hblind, hreplies, hsent⟩ := h
  generalize m.replies = replies at hsame hreplies
  generalize m.sent = sent at hsame hsent
  subst hsame
  unfold Line.waitUntil
  dsimp only
  split
  · split
    · exact ⟨rfl, rfl, hblind, hreplies, hsent⟩
    · exact ⟨rfl, rfl, hblind, hreplies, hsent⟩
  · exact ⟨rfl, rfl, hblind, hreplies, hsent⟩

/-- What is waited for until an instant, unless the operation is dropped before it. -/
theorem Alike.awaited {α : Type} {R : α → α → Prop} {a b : α} (h : l.Alike m) (t : Nat)
    (hab : R a b) :
    Option.Rel R
      (match l.waitUntil t with
      | (some (), l) => (some a, l)
      | (none, l) => (none, l)).1
      (match m.waitUntil t with
      | (some (), m) => (some b, m)
      | (none, m) => (none, m)).1 ∧
    Line.Alike
      (match l.waitUntil t with
      | (some (), l) => (some a, l)
      | (none, l) => (none, l)).2
      (match m.waitUntil t with
      | (some (), m) => (some b, m)
      | (none, m) => (none, m)).2 := by
  obtain ⟨hwaited, hend⟩ := h.waitUntil t
  cases hl : l.waitUntil t with
  | mk o l' =>
    cases hm : m.waitUntil t with
    | mk o' m' =>
      rw [hl, hm] at hwaited hend
      obtain rfl : o = o' := hwaited
      cases o with
      | none => exact ⟨.none, hend⟩
      | some u => exact ⟨.some hab, hend⟩

theorem Alike.interrupted (h : l.Alike m) : l.interrupted.Alike m.interrupted := by
  obtain ⟨hsame, hblind, hreplies, hsent⟩ := h
  generalize m.replies = replies at hsame hreplies
  generalize m.sent = sent at hsame hsent
  subst hsame
  exact ⟨rfl, hblind, hreplies, hsent⟩

theorem Alike.now (h : l.Alike m) : l.now = m.now := by rw [h.same]

theorem Alike.isCancelled (h : l.Alike m) : l.isCancelled = m.isCancelled := by
  rw [h.same]
  rfl

/-- A request goes out, and another list of replies is left. -/
theorem Alike.out (h : l.Alike m) (hr : r.Alike s) {ps qs : List Reply}
    (hp : List.Forall₂ Reply.Alike ps qs) : Line.Alike
      { l with sent := l.sent ++ [r], replies := ps }
      { m with sent := m.sent ++ [s], replies := qs } where
  same := by rw [h.same]
  blind := h.blind
  replies := hp
  sent := List.rel_append h.sent (.cons hr .nil)

theorem Alike.send (h : l.Alike m) (hr : r.Alike s) :
    Option.Rel Response.Alike (l.send r).1 (m.send s).1 ∧ (l.send r).2.Alike (m.send s).2 := by
  obtain ⟨hreply, hleft⟩ := h.answer hr
  unfold Line.send
  cases ha : l.answer r with
  | mk p? ps =>
    cases hb : m.answer s with
    | mk q? qs =>
      rw [ha, hb] at hreply hleft
      have hout := h.out hr hleft
      cases hreply with
      | none => exact ⟨.none, hout⟩
      | @some p q hpq =>
        -- The waits for both replies begin on alike lines and end at the same instant.
        dsimp only
        generalize ({ l with sent := l.sent ++ [r], replies := ps } : Line) = l₁ at hout ⊢
        generalize ({ m with sent := m.sent ++ [s], replies := qs } : Line) = m₁ at hout ⊢
        have hline : Line.Alike (if p.interrupts then l₁.interrupted else l₁)
            (if q.interrupts then m₁.interrupted else m₁) := by
          rw [hpq.interrupts]
          split
          · exact hout.interrupted
          · exact hout
        generalize (if p.interrupts then _ else _ : Line) = l' at hline ⊢
        generalize (if q.interrupts then _ else _ : Line) = m' at hline ⊢
        have hafter : l'.after p.delay = m'.after q.delay := by
          simp only [Line.after, hline.now, hpq.delay]
        rw [hafter]
        exact hline.awaited _ hpq.response

theorem Alike.sleep (h : l.Alike m) (interval : Nat) :
    Option.Rel Eq (l.sleep interval).1 (m.sleep interval).1 ∧
      (l.sleep interval).2.Alike (m.sleep interval).2 := by
  have hcancel : m.cancelAt = l.cancelAt := by rw [h.same]
  unfold Line.sleep Line.after
  rw [hcancel, h.now]
  dsimp only
  split
  · split
    · exact h.awaited _ rfl
    · exact h.awaited _ rfl
  · exact h.awaited _ rfl

end Line

namespace Session

variable {s t : Session}

theorem Alike.credential? (h : s.Alike t) : s.credential? = t.credential? := by
  simp only [Session.credential?, h.refreshToken, h.deviceId]

theorem Alike.accessTokens (h : s.Alike t) :
    Option.Rel (fun _ _ => True) s.accessToken t.accessToken := by
  have haccess := h.accessToken
  cases hs : s.accessToken <;> cases ht : t.accessToken <;> simp_all

theorem Alike.needsRefresh (h : s.Alike t) (interval now : Nat) :
    s.needsRefresh interval now = t.needsRefresh interval now := by
  have htokens := h.accessTokens
  unfold Session.needsRefresh
  rw [h.refreshToken, h.refreshedAt]
  generalize s.accessToken = token at htokens
  generalize t.accessToken = token' at htokens
  cases htokens with
  | none => rfl
  | some => cases t.refreshedAt <;> rfl

theorem Alike.withAccessToken (h : s.Alike t) (token token' : String) (now : Nat) :
    (s.withAccessToken token now).Alike (t.withAccessToken token' now) :=
  ⟨h.deviceId, rfl, h.refreshToken, rfl⟩

/-- Diagnostics show no more of an access token than that it is there. -/
theorem Alike.diagnosticText (h : s.Alike t) : s.diagnosticText = t.diagnosticText := by
  have htokens := h.accessTokens
  unfold Session.diagnosticText
  rw [h.deviceId, h.refreshToken]
  generalize s.accessToken = token at htokens
  generalize t.accessToken = token' at htokens
  cases htokens with
  | none => rfl
  | some => rfl

end Session

namespace Account

open Call (Relates)

section Alike

variable {a b : Account} {s t : Session} {x y : Response} {r r' : Request}

theorem Alike.with_line {l m : Line} (h : a.Alike b) (hl : l.Alike m) :
    Account.Alike { a with line := l } { b with line := m } :=
  ⟨hl, h.disk, h.vault, h.refreshInterval, h.session⟩

theorem Alike.with_session {s? t? : Option Session} (h : a.Alike b)
    (hs : Option.Rel Session.Alike s? t?) :
    Account.Alike { a with session := s? } { b with session := t? } :=
  ⟨h.line, h.disk, h.vault, h.refreshInterval, hs⟩

/-- What is the same for alike sessions is the same for the sessions of alike accounts. -/
theorem Alike.session_eq {α : Type} (h : a.Alike b) {f : Option Session → α}
    (hf : ∀ s t, Session.Alike s t → f (some s) = f (some t)) : f a.session = f b.session := by
  have hsession := h.session
  generalize a.session = s? at hsession
  generalize b.session = t? at hsession
  cases hsession with
  | none => rfl
  | some hst => exact hf _ _ hst

theorem Alike.refreshToken? (h : a.Alike b) : a.refreshToken? = b.refreshToken? :=
  h.session_eq (f := (Option.bind · Session.refreshToken)) fun _ _ hst => hst.refreshToken

theorem Alike.refreshDue (h : a.Alike b) : a.refreshDue = b.refreshDue := by
  unfold Account.refreshDue
  rw [h.refreshInterval, h.line.now]
  have hsession := h.session
  generalize a.session = s? at hsession
  generalize b.session = t? at hsession
  cases hsession with
  | none => rfl
  | some hst => exact hst.needsRefresh _ _

theorem Alike.session_isNone (h : a.Alike b) : a.session.isNone = b.session.isNone :=
  h.session_eq fun _ _ _ => rfl

theorem Alike.accessToken? (h : a.Alike b) :
    Option.Rel (fun _ _ => True) a.accessToken? b.accessToken? := by
  have hsession := h.session
  unfold Account.accessToken?
  generalize a.session = s? at hsession
  generalize b.session = t? at hsession
  cases hsession with
  | none => exact .none
  | some hst => exact hst.accessTokens

/-- What is saved of a session is the same. -/
theorem Alike.hold (h : a.Alike b) (hs : s.Alike t) : (a.hold s).Alike (b.hold t) := by
  unfold Account.hold keep
  rw [hs.credential?]
  cases t.credential? with
  | none => exact h.with_session (.some hs)
  | some c =>
    -- The credential has no access token in it, so the same is written.
    refine ⟨h.line, ?_, h.vault, h.refreshInterval, .some hs⟩
    dsimp only
    rw [h.vault, h.disk]

theorem Alike.withAccessToken (h : a.Alike b) (token token' : String) :
    (a.withAccessToken token).Alike (b.withAccessToken token') := by
  have hsession := h.session
  unfold Account.withAccessToken
  rw [h.line.now]
  generalize a.session = s? at hsession
  generalize b.session = t? at hsession
  cases hsession with
  | none => exact h
  | some hst => exact h.hold (hst.withAccessToken _ _ _)

theorem Alike.discard (h : a.Alike b) : a.discard.Alike b.discard := by
  refine ⟨h.line, ?_, h.vault, h.refreshInterval, .none⟩
  simp only [Account.discard, h.vault, h.disk]

theorem loginTokens_agree (h : x.Alike y) :
    Agree (fun u v => u.refresh = v.refresh) (loginTokens x) (loginTokens y) := by
  unfold loginTokens
  refine (h.content Wire.tokens_agree).bind ?_
  rintro u v ⟨hrefresh, haccess⟩
  rw [haccess]
  split
  · exact .error _
  · exact .ok hrefresh

theorem freshToken_agree (h : x.Alike y) :
    Agree (fun _ _ => True) (freshToken x) (freshToken y) := by
  have hcontent := h.content Wire.freshToken_agree
  unfold freshToken
  rw [h.status, h.errorText?]
  split
  · exact .error _
  · generalize x.content Wire.FreshToken.decode = u at hcontent
    generalize y.content Wire.FreshToken.decode = v at hcontent
    cases hcontent with
    | error e => exact .error _
    | ok haccess =>
      dsimp only
      rw [haccess]
      split
      · exact .error _
      · exact .ok trivial

end Alike

section Relates

variable {r r' : Request}

theorem send_relates (hr : r.Alike r') : Relates Alike Response.Alike (send r) (send r') := by
  refine .wait fun a b h => ?_
  obtain ⟨hx, hline⟩ := h.line.send hr
  exact ⟨hx, h.with_line hline⟩

theorem register_relates (r : Wire.Registration) : Relates Alike Eq (register r) (register r) :=
  (Relates.ofExcept (.of_eq rfl)).bind fun _ _ _ =>
    (send_relates (.same _)).bind fun _ _ hxy =>
      (Relates.ofExcept hxy.success).bind fun _ _ _ => .pure rfl

theorem login_relates (l : Wire.Login) : Relates Alike Eq (login l) (login l) := by
  refine (Relates.ofExcept (.of_eq rfl)).bind fun _ _ _ => ?_
  refine (send_relates (.same _)).bind fun x y hxy => ?_
  refine (Relates.ofExcept (loginTokens_agree hxy)).bind fun u v huv => ?_
  refine .modify fun a b h => h.hold ?_
  exact ⟨rfl, rfl, congrArg Session.nonEmpty? huv, congrArg some h.line.now⟩

theorem renew_relates : Relates Alike Eq renew renew := by
  refine (Relates.view fun _ _ h => h.refreshToken?).bind ?_
  rintro token _ rfl
  cases token with
  | none => exact .pure rfl
  | some token =>
    refine (send_relates (.same _)).bind fun x y hxy => ?_
    have hfresh := freshToken_agree hxy
    generalize freshToken x = u at hfresh
    generalize freshToken y = v at hfresh
    cases hfresh with
    | error result => exact .pure rfl
    | ok => exact (Relates.modify fun _ _ h => h.withAccessToken _ _).bind fun _ _ _ => .pure rfl

theorem restore_relates : Relates Alike Eq restore restore := by
  have hload : Relates Alike Eq (Call.view fun a => a.vault.load a.disk)
      (Call.view fun a => a.vault.load a.disk) :=
    .view fun _ _ h => by rw [h.vault, h.disk]
  refine hload.bind ?_
  rintro credential _ rfl
  cases credential with
  | none => exact .pure rfl
  | some c =>
    have hread : Session.Alike (.ofCredential c) (.ofCredential c) := ⟨rfl, rfl, rfl, rfl⟩
    refine (Relates.modify fun _ _ h => h.with_session (.some hread)).bind fun _ _ _ => ?_
    refine renew_relates.bind ?_
    rintro result _ rfl
    cases result with
    | refreshed => exact .pure rfl
    | unavailable e =>
      exact (Relates.modify fun _ _ h => h.with_session .none).bind fun _ _ _ => .fail e
    | rejected => exact (Relates.modify fun _ _ h => h.discard).bind fun _ _ _ => .pure rfl
    | noRefreshToken => exact (Relates.modify fun _ _ h => h.discard).bind fun _ _ _ => .pure rfl

theorem renewIfDue_relates : Relates Alike Eq renewIfDue renewIfDue := by
  refine (Relates.view fun _ _ h => h.refreshDue).bind ?_
  rintro due _ rfl
  split
  · refine renew_relates.bind ?_
    rintro result _ rfl
    exact .pure rfl
  · exact .pure rfl

theorem expire_relates {α β : Type} {R : α → β → Prop} :
    Relates Alike R (expire : Call Account α) (expire : Call Account β) :=
  (Relates.modify fun _ _ h => h.discard).bind fun _ _ _ => .fail _

theorem token_relates (p : Option RefreshResult) :
    Relates Alike (fun _ _ => True) (token p) (token p) := by
  refine (Relates.view fun _ _ h => h.accessToken?).bind ?_
  intro token token' h
  cases h with
  | some => exact .pure trivial
  | none =>
    cases p with
    | none => exact .fail _
    | some result =>
      cases result with
      | unavailable e => exact .fail e
      | rejected => exact expire_relates
      | refreshed => exact .fail _
      | noRefreshToken => exact .fail _

theorem retry_relates {r : Request} (hr : r.path ∈ Fridge.protectedPaths) {x y : Response}
    (hxy : x.Alike y) : Relates Alike Response.Alike (retry r x) (retry r y) := by
  refine renew_relates.bind ?_
  rintro result _ rfl
  cases result with
  | rejected => exact expire_relates
  | unavailable e => exact .fail e
  | noRefreshToken =>
    dsimp only
    rw [hxy.failure]
    exact .fail _
  | refreshed =>
    refine (Relates.view fun _ _ h => h.accessToken?).bind ?_
    intro token token' h
    cases h with
    | none => exact .fail _
    | @some token token' =>
      refine (send_relates (.bearers hr token token')).bind fun x' y' h => ?_
      rw [h.isUnauthorized, h.failure]
      exact .ite (.fail _) (.pure h)

/-- A protected call goes the same way but for the bearers of its request. -/
theorem authorizedCall_relates {r : Request} (hr : r.path ∈ Fridge.protectedPaths) :
    Relates Alike Response.Alike (authorizedCall r) (authorizedCall r) := by
  refine (Relates.view (R := fun s t => s.isNone = t.isNone) fun _ _ h => h.session_isNone).bind ?_
  intro session session' h
  rw [h]
  refine .ite (.fail _) (renewIfDue_relates.bind ?_)
  rintro p _ rfl
  refine (token_relates p).bind fun token token' _ => ?_
  refine (send_relates (.bearers hr token token')).bind fun x y hxy => ?_
  rw [hxy.isUnauthorized]
  exact .ite (retry_relates hr hxy) (.pure hxy)

theorem logout_relates : Relates Alike Eq logout logout := by
  refine (Relates.modify fun _ _ h => h.with_session .none).bind fun _ _ _ => ?_
  have hdelete : Relates Alike Eq (Call.view fun a => a.vault.delete a.disk)
      (Call.view fun a => a.vault.delete a.disk) :=
    .view fun _ _ h => by rw [h.vault, h.disk]
  refine hdelete.bind ?_
  rintro deleted _ rfl
  cases deleted with
  | ok disk => exact .modify fun _ _ h => ⟨h.line, rfl, h.vault, h.refreshInterval, h.session⟩
  | error e => exact .fail _

end Relates

end Account

end Larder
