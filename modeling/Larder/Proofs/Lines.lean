import Larder.Line

namespace Larder

/-- A request that was sent, with the response to it if there was one. -/
structure Exchange where
  request : Request
  response? : Option Response

/-- There was an exchange, and it brought a response with the property. -/
def Exchange.Brings (x : Option Exchange) (p : Response → Prop) : Prop :=
  ∃ r y, x = some ⟨r, some y⟩ ∧ p y

section Brings

variable (r : Request) (y : Response) (p : Response → Prop)

@[simp] theorem Exchange.brings_none : ¬ Exchange.Brings none p := by
  rintro ⟨_, _, h, _⟩
  cases h

@[simp] theorem Exchange.brings_unanswered : ¬ Exchange.Brings (some ⟨r, none⟩) p := by
  rintro ⟨_, _, h, _⟩
  cases h

@[simp] theorem Exchange.brings_answered : Exchange.Brings (some ⟨r, some y⟩) p ↔ p y := by
  constructor
  · rintro ⟨_, _, h, hp⟩
    cases h
    exact hp
  · intro hp
    exact ⟨r, y, rfl, hp⟩

end Brings

theorem Exchange.brings_iff {x : Exchange} {y : Response} (h : x.response? = some y)
    (p : Response → Prop) : Exchange.Brings (some x) p ↔ p y := by
  obtain ⟨r, response?⟩ := x
  cases h
  exact brings_answered r y p

theorem Exchange.Brings.isSome {x : Option Exchange} {p : Response → Prop}
    (h : Exchange.Brings x p) : x.isSome := by
  obtain ⟨r, y, rfl, _⟩ := h
  rfl

/-- An exchange brings one response only. -/
theorem Exchange.Brings.both {x : Option Exchange} {p q : Response → Prop}
    (hp : Exchange.Brings x p) (hq : Exchange.Brings x q) : ∃ y, p y ∧ q y := by
  obtain ⟨r, y, rfl, hp⟩ := hp
  exact ⟨y, hp, (Exchange.brings_answered ..).mp hq⟩

theorem Exchange.Brings.excludes {x : Option Exchange} {p q : Response → Prop}
    (hp : Exchange.Brings x p) (hpq : ∀ y, p y → ¬ q y) : ¬ Exchange.Brings x q := by
  intro hq
  obtain ⟨y, hy, hy'⟩ := hp.both hq
  exact hpq y hy hy'

namespace Line

/-- The exchanges that lead from one state of a line to another, the first one first. -/
inductive Carries : Line → List Exchange → Line → Prop where
  | nil (l : Line) : Carries l [] l
  | answered {l m n : Line} {r : Request} {x : Response} {xs : List Exchange}
      (sent : l.send r = (some x, m)) (rest : Carries m xs n) : Carries l (⟨r, some x⟩ :: xs) n
  | unanswered {l m : Line} {r : Request} (sent : l.send r = (none, m)) :
      Carries l [⟨r, none⟩] m

/-- The line when a request has just gone out. -/
def posted (r : Request) (l : Line) : Line :=
  let l' := { l with sent := l.sent ++ [r], replies := (l.answer r).2 }
  if (l.answer r).1.any Reply.interrupts then l'.interrupted else l'

@[simp] theorem posted_sent (r : Request) (l : Line) : (l.posted r).sent = l.sent ++ [r] := by
  unfold posted
  dsimp only
  split <;> rfl

@[simp] theorem posted_dropAt (r : Request) (l : Line) : (l.posted r).dropAt = l.dropAt := by
  unfold posted
  dsimp only
  split <;> rfl

@[simp] theorem posted_outlet (r : Request) (l : Line) : (l.posted r).outlet = l.outlet := by
  unfold posted
  dsimp only
  split <;> rfl

theorem waitUntil_cases {l m : Line} {t : Nat} {o : Option Unit} (h : l.waitUntil t = (o, m)) :
    (o = some () ∧ m = { l with now := t }) ∨
    (o = none ∧ ∃ d, l.dropAt = some d ∧ m = { l with now := d }) := by
  unfold waitUntil at h
  split at h
  · rename_i d hd
    split at h <;> cases h
    · exact Or.inr ⟨rfl, d, hd, rfl⟩
    · exact Or.inl ⟨rfl, rfl⟩
  · cases h
    exact Or.inl ⟨rfl, rfl⟩

theorem waitUntil_some {l m : Line} {t : Nat} (h : l.waitUntil t = (some (), m)) :
    m = { l with now := t } := by
  rcases waitUntil_cases h with ⟨_, hm⟩ | ⟨hn, _⟩
  · exact hm
  · cases hn

theorem waitUntil_none {l m : Line} {t : Nat} (h : l.waitUntil t = (none, m)) :
    ∃ d, m = { l with now := d } ∧ l.dropAt.isSome := by
  rcases waitUntil_cases h with ⟨hn, _⟩ | ⟨_, d, hd, hm⟩
  · cases hn
  · exact ⟨d, hm, by simp [hd]⟩

/-- Nothing but the clock changes while a response is on its way. -/
theorem send_cases {r : Request} {l m : Line} {x? : Option Response}
    (h : l.send r = (x?, m)) :
    (∃ n, m = { l.posted r with now := n }) ∧
    ((∃ reply, (l.answer r).1 = some reply ∧ x? = some reply.response) ∨
     (x? = none ∧ ((l.answer r).1 = none ∨ l.dropAt.isSome))) := by
  cases ha : l.answer r with
  | mk reply? replies =>
    unfold send at h
    rw [ha] at h
    cases reply? with
    | none =>
      cases h
      exact ⟨⟨l.now, by simp [posted, ha]⟩, Or.inr ⟨rfl, Or.inl rfl⟩⟩
    | some reply =>
      have hp : (if reply.interrupts = true then
          ({ l with sent := l.sent ++ [r], replies } : Line).interrupted
          else { l with sent := l.sent ++ [r], replies }) = l.posted r := by
        simp [posted, ha]
      simp only [hp] at h
      split at h <;> cases h
      · rename_i hw
        exact ⟨⟨_, waitUntil_some hw⟩, Or.inl ⟨reply, rfl, rfl⟩⟩
      · rename_i hw
        obtain ⟨d, hm, hd⟩ := waitUntil_none hw
        exact ⟨⟨d, hm⟩, Or.inr ⟨rfl, Or.inr (by simpa using hd)⟩⟩

theorem send_sent {r : Request} {l m : Line} {x? : Option Response} (h : l.send r = (x?, m)) :
    m.sent = l.sent ++ [r] := by
  obtain ⟨⟨n, rfl⟩, _⟩ := send_cases h
  exact posted_sent r l

/-- The record of all requests grows by just those that the line carries. -/
theorem Carries.sent {l l' : Line} {xs : List Exchange} (h : l.Carries xs l') :
    l'.sent = l.sent ++ xs.map Exchange.request := by
  induction h with
  | nil => simp
  | answered hs _ ih => simp [ih, send_sent hs]
  | unanswered hs => simpa using send_sent hs

theorem Carries.append {l m n : Line} {xs ys : List Exchange} (h : l.Carries xs m)
    (ha : ∀ x ∈ xs, x.response?.isSome) (h' : m.Carries ys n) : l.Carries (xs ++ ys) n := by
  induction h with
  | nil => exact h'
  | answered hs _ ih => exact .answered hs (ih (fun x hx => ha x (by simp [hx])) h')
  | unanswered hs => simp at ha

/-- How a wait ends on a line that may be dropped, and when. -/
def waitEnd (dropAt : Option Nat) (n : Nat) : Option Unit × Nat :=
  match dropAt with
  | some d => if d < n then (none, d) else (some (), n)
  | none => (some (), n)

theorem waitUntil_eq (n : Nat) (l : Line) :
    l.waitUntil n = ((waitEnd l.dropAt n).1, { l with now := (waitEnd l.dropAt n).2 }) := by
  obtain ⟨outlet, now, replies, sent, cancelAt, dropAt⟩ := l
  unfold waitUntil waitEnd
  cases dropAt with
  | none => rfl
  | some d =>
    dsimp only
    split <;> rfl

/-- A request without an answer is never over. -/
theorem send_of_unanswered {l : Line} {r : Request} (h : (l.answer r).1 = none) :
    l.send r = (none, l.posted r) := by
  unfold send posted
  generalize l.answer r = a at h ⊢
  obtain ⟨reply?, replies⟩ := a
  cases h
  rfl

/-- A request with an answer is over when the delay of that is. -/
theorem send_of_answered {l : Line} {r : Request} {reply : Reply}
    (h : (l.answer r).1 = some reply) :
    l.send r = (((l.posted r).waitUntil ((l.posted r).after reply.delay)).1.map
      fun _ => reply.response, ((l.posted r).waitUntil ((l.posted r).after reply.delay)).2) := by
  unfold send posted
  generalize l.answer r = a at h ⊢
  obtain ⟨reply?, replies⟩ := a
  cases h
  dsimp only [Option.any]
  generalize waitUntil _ _ = w
  obtain ⟨_ | _, m⟩ := w <;> rfl

/-- When a pause ends that nothing drops, and whether it has been in full then. -/
def pauseEnd (interval : Nat) (l : Line) : Bool × Nat :=
  match l.cancelAt with
  | some c => if c ≤ l.after interval then (false, max c l.now) else (true, l.after interval)
  | none => (true, l.after interval)

/-- A pause is a wait until its end. -/
theorem sleep_eq (interval : Nat) (l : Line) : l.sleep interval =
    ((l.waitUntil (l.pauseEnd interval).2).1.map fun _ => (l.pauseEnd interval).1,
      (l.waitUntil (l.pauseEnd interval).2).2) := by
  unfold sleep pauseEnd
  cases l.cancelAt with
  | none =>
    dsimp only
    generalize l.waitUntil (l.after interval) = w
    obtain ⟨_ | _, m⟩ := w <;> rfl
  | some c =>
    dsimp only
    by_cases hc : c ≤ l.after interval
    · simp only [hc, if_true]
      generalize l.waitUntil (max c l.now) = w
      obtain ⟨_ | _, m⟩ := w <;> rfl
    · simp only [hc, if_false]
      generalize l.waitUntil (l.after interval) = w
      obtain ⟨_ | _, m⟩ := w <;> rfl

/-- A pause is over after its interval, or the longest wait, whatever ends it. -/
theorem sleep_now_le {l m : Line} {interval : Nat} {o : Option Bool}
    (h : l.sleep interval = (o, m)) : m.now ≤ l.now + min interval longestWait := by
  have hwait : (waitEnd l.dropAt (l.pauseEnd interval).2).2 ≤ (l.pauseEnd interval).2 := by
    unfold waitEnd
    split
    · split
      · rename_i hlt
        exact Nat.le_of_lt hlt
      · exact Nat.le_refl _
    · exact Nat.le_refl _
  have hpause : (l.pauseEnd interval).2 ≤ l.after interval := by
    unfold pauseEnd after
    split
    · split
      · rename_i hle
        exact Nat.max_le.mpr ⟨hle, Nat.le_add_right _ _⟩
      · exact Nat.le_refl _
    · exact Nat.le_refl _
  rw [sleep_eq, waitUntil_eq, Prod.mk.injEq] at h
  obtain ⟨_, rfl⟩ := h
  exact Nat.le_trans hwait hpause

/-- A pause ends in one of three ways: in full, cut short by the caller, or dropped. -/
theorem sleep_cases {l m : Line} {interval : Nat} {o : Option Bool}
    (h : l.sleep interval = (o, m)) : ∃ n, m = { l with now := n } ∧
      ((o = some true ∧ n = l.now + min interval longestWait) ∨
       (o = some false ∧ n ≤ l.now + min interval longestWait ∧ m.isCancelled = true) ∨
       (o = none ∧ l.dropAt.isSome)) := by
  unfold sleep at h
  dsimp only at h
  split at h
  · rename_i c hc
    split at h
    · rename_i hle
      split at h <;> cases h <;> rename_i hw
      · cases waitUntil_some hw
        refine ⟨_, rfl, Or.inr (Or.inl ⟨rfl, ?_, ?_⟩)⟩
        · simp only [after] at hle
          omega
        · simp only [isCancelled, hc, decide_eq_true_eq]
          omega
      · obtain ⟨d, hm, hd⟩ := waitUntil_none hw
        exact ⟨d, hm, Or.inr (Or.inr ⟨rfl, hd⟩)⟩
    · split at h <;> cases h <;> rename_i hw
      · exact ⟨_, waitUntil_some hw, Or.inl ⟨rfl, rfl⟩⟩
      · obtain ⟨d, hm, hd⟩ := waitUntil_none hw
        exact ⟨d, hm, Or.inr (Or.inr ⟨rfl, hd⟩)⟩
  · split at h <;> cases h <;> rename_i hw
    · exact ⟨_, waitUntil_some hw, Or.inl ⟨rfl, rfl⟩⟩
    · obtain ⟨d, hm, hd⟩ := waitUntil_none hw
      exact ⟨d, hm, Or.inr (Or.inr ⟨rfl, hd⟩)⟩

/-- The line is never dropped and has an answer when no reply is left. -/
structure Attended (l : Line) : Prop where
  kept : l.dropAt = none
  answers : l.outlet.whenEmpty?.isSome

theorem Attended.answer {l : Line} (h : l.Attended) (r : Request) : (l.answer r).1.isSome := by
  unfold Line.answer
  repeat' split
  · rfl
  · exact h.answers
  · rfl

theorem Attended.send {l m : Line} {r : Request} {x? : Option Response} (h : l.Attended)
    (hs : l.send r = (x?, m)) : x?.isSome ∧ m.Attended := by
  obtain ⟨⟨n, rfl⟩, hx⟩ := send_cases hs
  refine ⟨?_, by simpa using h.kept, by simpa using h.answers⟩
  rcases hx with ⟨reply, _, rfl⟩ | ⟨rfl, hn | hd⟩
  · rfl
  · have ha := h.answer r
    rw [hn] at ha
    exact ha
  · rw [h.kept] at hd
    cases hd

theorem Attended.sleep {l m : Line} {interval : Nat} {o : Option Bool} (h : l.Attended)
    (hs : l.sleep interval = (o, m)) : o.isSome ∧ m.Attended := by
  obtain ⟨n, rfl, ⟨rfl, _⟩ | ⟨rfl, _⟩ | ⟨_, hd⟩⟩ := sleep_cases hs
  · exact ⟨rfl, h.kept, h.answers⟩
  · exact ⟨rfl, h.kept, h.answers⟩
  · rw [h.kept] at hd
    cases hd

end Line

end Larder
