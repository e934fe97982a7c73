import Larder.Proofs.DeliveryCourse

namespace Larder.Supplier

open Polling (Asked Watch WatchEnd)

/-- The supplier follows a restock with this id that is not settled yet. -/
def Awaits (s : Supplier) (orderId : String) : Prop :=
  ∃ r, s.current = some r ∧ r.isTerminal = false ∧ r.orderId = orderId

theorem awaits_iff {s : Supplier} {r : Restock} {orderId : String} (hc : s.current = some r)
    (hid : r.orderId = orderId) :
    s.Awaits orderId ↔ s.current.bind Restock.outcome? = none := by
  rw [hc, Option.bind_some, ← Option.not_isSome_iff_eq_none, ← Restock.isTerminal_iff,
    Bool.not_eq_true]
  constructor
  · rintro ⟨r', hr', hu, _⟩
    rw [hc] at hr'
    cases hr'
    exact hu
  · exact fun hu => ⟨r, hc, hu, hid⟩

theorem Awaits.outcome {s : Supplier} {orderId : String} (h : s.Awaits orderId) :
    s.current.bind Restock.outcome? = none := by
  obtain ⟨r, hc, _, hid⟩ := id h
  exact (awaits_iff hc hid).mp h

/-- Inquiries about the same id are the same. -/
theorem statusRequest_congr {r r' : Restock} (h : r.orderId = r'.orderId) :
    statusRequest r = statusRequest r' := by
  unfold statusRequest
  rw [h]

section Polls

variable {p : Asked Supplier} {r : Restock}

/-- What a poll does that is made while a restock is unfinished. -/
structure Inquires (p : Asked Supplier) (r : Restock) : Prop where
  sent : p.after.line.sent = p.before.line.sent ++ [statusRequest r]
  followed : ∃ r', p.after.current = some r' ∧ r'.orderId = r.orderId
  allowed : ∀ x, p.ended = .failed x → x.isNotAllowed = false
  undone : p.ended ≠ .done () → p.after.Awaits r.orderId

theorem poll_inquires (hp : watch.Asks p) (hb : p.before.Awaits r.orderId) : Inquires p r := by
  obtain ⟨r₀, hc, _, hid⟩ := id hb
  have hsame : ∀ {r'}, p.before.current = some r' → statusRequest r' = statusRequest r := by
    intro r' hr'
    rw [hc] at hr'
    cases hr'
    exact statusRequest_congr hid
  obtain ⟨ended, hran, hended⟩ := Call.forget_ended hp.ran
  replace hran := poll_cases hran
  clear hp
  obtain ⟨before, _, after⟩ := p
  dsimp only at hran hc hb hsame hended
  subst hended
  cases hran with
  | untracked hn => exact absurd (hc.symm.trans hn) (by simp)
  | dropped hr hl =>
    exact ⟨hsame hr ▸ Line.send_sent hl, ⟨r₀, hc, hid⟩, by simp, fun _ => hb⟩
  | unreadable hr hl hy =>
    refine ⟨hsame hr ▸ Line.send_sent hl, ⟨r₀, hc, hid⟩, ?_, fun _ => hb⟩
    rintro x ⟨⟩
    exact reported_isNotAllowed hy
  | nothing hr hl =>
    exact ⟨hsame hr ▸ Line.send_sent hl, ⟨r₀, hc, hid⟩, by simp, fun h => absurd rfl h⟩
  | noted hr hl =>
    refine ⟨hsame hr ▸ Line.send_sent hl, ⟨_, rfl, ?_⟩, by simp, fun h => absurd rfl h⟩
    rw [Restock.orderId_afterPoll]
    rw [hc] at hr
    cases hr
    exact hid

/-- A poll brings nothing just when it is answered and leaves the restock unfinished. -/
theorem bare_iff (hp : watch.Asks p) (hb : p.before.Awaits r.orderId) :
    watch.Bare p ↔ p.ended ≠ .dropped ∧ p.after.Awaits r.orderId := by
  have hi := poll_inquires hp hb
  obtain ⟨r', hc, hid⟩ := hi.followed
  constructor
  · rintro (⟨he, ho⟩ | ⟨x, hx, _⟩)
    · exact ⟨by simp [he], (awaits_iff hc hid).mpr ho⟩
    · exact ⟨by simp [hx], hi.undone (by simp [hx])⟩
  · rintro ⟨hd, ha⟩
    cases he : p.ended with
    | dropped => exact absurd he hd
    | done u => exact Or.inl ⟨he, ha.outcome⟩
    | failed x => exact Or.inr ⟨x, he, hi.allowed x he⟩

theorem settles_iff (hp : watch.Asks p) (hb : p.before.Awaits r.orderId) (o : RestockOutcome) :
    watch.Settles o p ↔ p.after.current.bind Restock.outcome? = some o := by
  constructor
  · rintro ⟨_, ho⟩
    exact ho
  · intro ho
    refine ⟨?_, ho⟩
    by_cases hd : p.ended = .done ()
    · exact hd
    · have hn := ((poll_inquires hp hb).undone hd).outcome
      rw [hn] at ho
      cases ho

end Polls

/-- How often a supplier polls at most. -/
def attempts (s : Supplier) : Nat := max s.settings.maxPollAttempts.toNat 1

/-- How waiting for a restock goes, with the polls that were made. -/
structure Waited (s : Supplier) (r : Restock) (polls : List (Asked Supplier))
    (e : Ended (WatchEnd RestockOutcome)) (s' : Supplier) : Prop where
  rounds : watch.Rounds s.settings.pollInterval s.attempts 0 s polls e s'
  count : polls.length ≤ s.attempts
  sent : s'.line.sent = s.line.sent ++ List.replicate polls.length (statusRequest r)
  polled : ∀ p ∈ polls, p.before.line.isCancelled = false ∧ p.before.Awaits r.orderId ∧
    poll.forget.run p.before = (p.ended, p.after)
  unfinished : ∀ p ∈ polls.dropLast, p.after.Awaits r.orderId
  settled : ∀ o, e = .done (.settled o) ↔
    ∃ p, polls.getLast? = some p ∧ p.after.current.bind Restock.outcome? = some o
  outcome : ∀ o, e = .done (.settled o) → s'.current.bind Restock.outcome? = some o
  unfailed : ∀ x, e ≠ .failed x
  cancelled : ∀ n, e = .done (.cancelled n) →
    n = polls.length ∧ n < s.attempts ∧ s'.line.isCancelled = true
  timedOut : ∀ n, e = .done (.timedOut n) ↔ n = s.attempts ∧ polls.length = s.attempts ∧
    ∀ p ∈ polls, p.ended ≠ .dropped ∧ p.after.Awaits r.orderId
  unsettled : (∀ o, e ≠ .done (.settled o)) → s'.Awaits r.orderId
  again : ∀ o, e = .done (.settled o) →
    waitForCompletion.run s' = (.done (.settled o), s')

theorem watch_line (l : Line) (s : Supplier) : watch.line (watch.withLine l s) = l := rfl

/-- What is settled is not asked for. -/
theorem waitForCompletion_of_settled {s : Supplier} {o : RestockOutcome}
    (h : s.current.bind Restock.outcome? = some o) :
    waitForCompletion.run s = (.done (.settled o), s) := by
  rcases waitForCompletion_cases (Prod.eta (waitForCompletion.run s)).symm with
    ⟨o', ho, he, hs⟩ | ⟨hn, _⟩
  · rw [h] at ho
    cases ho
    exact Prod.ext he hs
  · rw [h] at hn
    cases hn

theorem waited_of_rounds {s s' : Supplier} {r : Restock} {polls : List (Asked Supplier)}
    {e : Ended (WatchEnd RestockOutcome)} (hs : s.Awaits r.orderId)
    (h : watch.Rounds s.settings.pollInterval s.attempts 0 s polls e s') :
    s.Waited r polls e s' := by
  obtain ⟨hbefore, hend⟩ := h.invariant (P := fun t => t.Awaits r.orderId) (fun _ _ ht => ht)
    (fun p hp hb hn => by
      have hi := poll_inquires hp hb
      obtain ⟨r', hc, hid⟩ := hi.followed
      by_cases hd : p.ended = .done ()
      · exact (awaits_iff hc hid).mpr (hn hd)
      · exact hi.undone hd) hs
  have hlast : ∀ {p}, polls.getLast? = some p → watch.Asks p ∧ p.before.Awaits r.orderId := by
    intro p hp
    have hm := List.mem_of_getLast? hp
    exact ⟨h.asks p hm, hbefore p hm⟩
  exact {
    rounds := h
    count := h.length_le
    sent := h.sent_eq watch_line fun p hp => (poll_inquires (h.asks p hp) (hbefore p hp)).sent
    polled := fun p hp => ⟨(h.asks p hp).waiting, hbefore p hp, (h.asks p hp).ran⟩
    unfinished := by
      intro p hp
      have hm := List.dropLast_subset polls hp
      exact ((bare_iff (h.asks p hm) (hbefore p hm)).mp (h.bare p hp)).2
    settled := by
      intro o
      rw [h.settled_iff]
      refine exists_congr fun p => and_congr_right fun hp => ?_
      exact settles_iff (hlast hp).1 (hlast hp).2 o
    outcome := fun o he => h.outcome he
    unfailed := by
      intro x he
      obtain ⟨p, hp, hended, hfatal⟩ := (h.failed_iff x).mp he
      have hallowed := (poll_inquires (hlast hp).1 (hlast hp).2).allowed x hended
      exact Bool.noConfusion (hallowed.symm.trans hfatal)
    cancelled := by
      intro n he
      obtain ⟨hn, hl, hc⟩ := h.cancelled_cases watch_line he
      exact ⟨by omega, by omega, hc⟩
    timedOut := by
      intro n
      rw [h.timedOut_iff, Nat.zero_add]
      refine and_congr_right fun _ => and_congr_right fun _ => forall₂_congr fun p hp => ?_
      exact bare_iff (h.asks p hp) (hbefore p hp)
    unsettled := hend
    again := fun o he => waitForCompletion_of_settled (h.outcome he) }

theorem send_finishes (r : Request) :
    Call.Finishes (fun s => (watch.line s).Attended) (send r) :=
  Call.Finishes.wait fun s o t hs h => by
    obtain ⟨ho, rfl⟩ := Prod.mk.inj h
    have hsent := hs.send (Prod.eta (s.line.send r)).symm
    exact ⟨ho ▸ hsent.1, hsent.2⟩

theorem track_finishes (current : Option Restock) :
    Call.Finishes (fun s => (watch.line s).Attended) (track current) :=
  .modify fun _ hs => hs

theorem poll_finishes : Call.Finishes (fun s => (watch.line s).Attended) poll := by
  have htracked : Call.Finishes (fun s => (watch.line s).Attended) tracked :=
    (Call.Finishes.view _).bind fun c => by
      cases c with
      | none => exact .fail _
      | some r => exact .pure r
  refine htracked.bind fun r => (send_finishes _).bind fun y =>
    (Call.Finishes.ofExcept _).bind fun envelope => ?_
  cases envelope.data with
  | none => exact .pure r.status
  | some record => exact (track_finishes _).bind fun _ => .pure _

/-- Waiting for an unfinished restock ends when the line answers, never in a failure, and as its
polls say. -/
theorem waitForCompletion_awaits {s s' : Supplier} {r : Restock}
    {e : Ended (WatchEnd RestockOutcome)} (hc : s.current = some r) (hr : r.isTerminal = false)
    (h : waitForCompletion.run s = (e, s')) :
    (s.line.Attended → ∃ w, e = .done w) ∧ ∃ polls, s.Waited r polls e s' := by
  have hs : s.Awaits r.orderId := ⟨r, hc, hr, rfl⟩
  obtain ⟨polls, hw⟩ : ∃ polls, s.Waited r polls e s' := by
    rcases waitForCompletion_cases h with ⟨o, ho, _⟩ | ⟨_, polls, hrounds⟩
    · rw [hs.outcome] at ho
      cases ho
    · exact ⟨polls, waited_of_rounds hs hrounds⟩
  refine ⟨?_, polls, hw⟩
  intro hl
  have hfinishes : Call.Finishes (fun s => (watch.line s).Attended) waitForCompletion :=
    (Call.Finishes.view _).bind fun settings => (Call.Finishes.view _).bind fun outcome => by
      cases outcome with
      | some o => exact .pure _
      | none => exact Watch.rounds_finishes watch_line poll_finishes.forget _ _
  cases e with
  | done w => exact ⟨w, rfl⟩
  | failed x => exact absurd rfl (hw.unfailed x)
  | dropped => exact absurd rfl (hfinishes s _ s' hl h).1

/-- A supplier whose first inquiry is turned down and whose second one is answered. -/
def inquirer : Supplier where
  settings := Settings.default
  line := { replies := [⟨⟨401, .object []⟩, 5, false⟩,
    ⟨⟨200, .object [("data", .object [("status", .text "COMPLETED")])]⟩, 0, false⟩] }
  current := some (.submitted "R1")

theorem waitForCompletion_awaits_inquirer :
    Restock.isTerminal (.submitted "R1") = false ∧ inquirer.line.Attended ∧
    (∃ w, (waitForCompletion.run inquirer).1 = .done w) ∧
    ∃ polls, inquirer.Waited (.submitted "R1") polls (waitForCompletion.run inquirer).1
      (waitForCompletion.run inquirer).2 := by
  have hl : inquirer.line.Attended := ⟨rfl, rfl⟩
  obtain ⟨hd, hw⟩ := waitForCompletion_awaits (s := inquirer) rfl rfl
    (Prod.eta (waitForCompletion.run inquirer)).symm
  exact ⟨rfl, hl, hd hl, hw⟩

end Larder.Supplier
