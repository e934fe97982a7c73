import Larder.Proofs.DeliveryRecords
import Larder.Proofs.OrderPolls
import Larder.Proofs.SteadyPolls

namespace Larder

/-- The replies are the same but for the keys in their records. The first one does not turn the
token down, and a record in it is about the order with the ticket. -/
structure Reply.Renamed (t : Ticket) (a b : Reply) : Prop where
  delay : b.delay = a.delay
  interrupts : b.interrupts = a.interrupts
  response : a.response.Renamed b.response
  granted : a.response.status ≠ 401
  concerns : ∀ record, Fridge.lastRecord a.response = .ok (some record) → t.Matches record

namespace Line

/-- Two lines that carry all requests and bring the same replies at the same times. -/
structure Beside (t : Ticket) (l m : Line) : Prop where
  now : m.now = l.now
  cancelAt : m.cancelAt = l.cancelAt
  dropAt : m.dropAt = l.dropAt
  carries : ∀ r, l.outlet.refusal? r = none ∧ m.outlet.refusal? r = none
  replies : List.Forall₂ (Reply.Renamed t) l.replies m.replies
  whenEmpty : Option.Rel (Reply.Renamed t) l.outlet.whenEmpty? m.outlet.whenEmpty?

section Beside

variable {t : Ticket} {l m : Line}

theorem granted_of_mem {as bs : List Reply} (h : List.Forall₂ (Reply.Renamed t) as bs) :
    ∀ a ∈ as, a.response.status ≠ 401 := by
  induction h with
  | nil => simp
  | cons ha _ ih => exact List.forall_mem_cons.mpr ⟨ha.granted, ih⟩

theorem any_interrupts {a b : Option Reply} (h : Option.Rel (Reply.Renamed t) a b) :
    b.any Reply.interrupts = a.any Reply.interrupts := by
  cases h with
  | none => rfl
  | some hab => exact hab.interrupts

theorem Beside.grants (h : l.Beside t m) : l.Grants := by
  refine ⟨fun r y hy => ?_, fun reply hb => ?_⟩
  · rw [(h.carries r).1] at hy
    cases hy
  · rcases hb with hm | hempty
    · exact granted_of_mem h.replies reply hm
    · have hrel := h.whenEmpty
      rw [hempty] at hrel
      generalize m.outlet.whenEmpty? = b at hrel
      cases hrel with
      | some hab => exact hab.granted

theorem Beside.isCancelled (h : l.Beside t m) : l.isCancelled = m.isCancelled := by
  simp only [Line.isCancelled, h.now, h.cancelAt]

theorem Beside.after (h : l.Beside t m) (n : Nat) : m.after n = l.after n := by
  simp only [Line.after, h.now]

theorem Beside.pauseEnd (h : l.Beside t m) (interval : Nat) :
    m.pauseEnd interval = l.pauseEnd interval := by
  simp only [Line.pauseEnd, h.cancelAt, h.after, h.now]

theorem Beside.answer (h : l.Beside t m) (r q : Request) :
    Option.Rel (Reply.Renamed t) (l.answer r).1 (m.answer q).1 ∧
      List.Forall₂ (Reply.Renamed t) (l.answer r).2 (m.answer q).2 := by
  unfold Line.answer
  rw [(h.carries r).1, (h.carries q).2]
  have hreplies := h.replies
  generalize l.replies = as at hreplies
  generalize m.replies = bs at hreplies
  cases hreplies with
  | nil => exact ⟨h.whenEmpty, .nil⟩
  | cons ha hrest => exact ⟨.some ha, hrest⟩

theorem Beside.with_now (h : l.Beside t m) (n : Nat) :
    Beside t { l with now := n } { m with now := n } :=
  ⟨rfl, h.cancelAt, h.dropAt, h.carries, h.replies, h.whenEmpty⟩

theorem Beside.interrupted (h : l.Beside t m) : l.interrupted.Beside t m.interrupted :=
  ⟨h.now, by simp only [Line.interrupted, h.now, h.cancelAt], h.dropAt, h.carries, h.replies,
    h.whenEmpty⟩

theorem Beside.posted (h : l.Beside t m) (r q : Request) : (l.posted r).Beside t (m.posted q) := by
  obtain ⟨hanswer, hrest⟩ := h.answer r q
  have hsent : Beside t { l with sent := l.sent ++ [r], replies := (l.answer r).2 }
      { m with sent := m.sent ++ [q], replies := (m.answer q).2 } :=
    ⟨h.now, h.cancelAt, h.dropAt, h.carries, hrest, h.whenEmpty⟩
  unfold Line.posted
  dsimp only
  rw [any_interrupts hanswer]
  split
  · exact hsent.interrupted
  · exact hsent

theorem Beside.waitUntil (h : l.Beside t m) (n : Nat) :
    (m.waitUntil n).1 = (l.waitUntil n).1 ∧ (l.waitUntil n).2.Beside t (m.waitUntil n).2 := by
  have hend : waitEnd m.dropAt n = waitEnd l.dropAt n := by rw [h.dropAt]
  rw [waitUntil_eq, waitUntil_eq, hend]
  exact ⟨rfl, h.with_now _⟩

theorem Beside.sleep (h : l.Beside t m) (interval : Nat) :
    (m.sleep interval).1 = (l.sleep interval).1 ∧
      (l.sleep interval).2.Beside t (m.sleep interval).2 := by
  obtain ⟨hwait, hbeside⟩ := h.waitUntil (l.pauseEnd interval).2
  rw [sleep_eq, sleep_eq, h.pauseEnd]
  exact ⟨by rw [hwait], hbeside⟩

/-- Both wait for a reply equally long, and it is the same. -/
theorem Beside.send (h : l.Beside t m) (r q : Request) : ∃ l' m', l'.Beside t m' ∧
    ((l.send r = (none, l') ∧ m.send q = (none, m')) ∨
      ∃ a b, Reply.Renamed t a b ∧ l.send r = (some a.response, l') ∧
        m.send q = (some b.response, m')) := by
  obtain ⟨hanswer, _⟩ := h.answer r q
  have hposted := h.posted r q
  generalize ha : (l.answer r).1 = reply? at hanswer
  generalize hb : (m.answer q).1 = reply?' at hanswer
  cases hanswer with
  | none => exact ⟨_, _, hposted, Or.inl ⟨send_of_unanswered ha, send_of_unanswered hb⟩⟩
  | @some a b hab =>
    obtain ⟨hwait, hbeside⟩ := hposted.waitUntil ((l.posted r).after a.delay)
    rw [send_of_answered ha, send_of_answered hb, hab.delay, hposted.after, hwait]
    refine ⟨_, _, hbeside, ?_⟩
    cases ((l.posted r).waitUntil ((l.posted r).after a.delay)).1 with
    | none => exact Or.inl ⟨rfl, rfl⟩
    | some u => exact Or.inr ⟨a, b, hab, rfl, rfl⟩

end Beside

end Line

end Larder
