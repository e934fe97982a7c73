import Larder.Proofs.Conduct
import Larder.Proofs.UsableSessions

namespace Larder

namespace Storage.Vault

/-- A credential that can be read can be deleted. -/
theorem delete_of_load {v : Vault} {d : Disk} (h : (v.load d).isSome) :
    ∃ d', v.delete d = .ok d' := by
  obtain ⟨p, text, _, _, hp, hpe, _⟩ := file_of_load h
  unfold delete
  split
  · rename_i hthere
    obtain ⟨e, he⟩ := Disk.isThere_iff.mp hthere
    obtain ⟨q, hq, hqe, hr⟩ := Disk.entry_cases he
    rw [hp] at hq
    cases hq
    rw [hpe] at hqe
    cases hqe
    exact ⟨d.erase p, Disk.removeFile_of_place hp hpe (hr.resolve_left (by simp))⟩
  · exact ⟨d, rfl⟩

end Storage.Vault

namespace Account

variable {a a' : Account} {c : Storage.Credential} {x : Response} {l : Line}

/-- What becomes of the session and of the file when this is the answer to the refresh token of a
credential. -/
structure Settled (a : Account) (c : Storage.Credential) (x : Response) (now : Nat)
    (e : Ended Bool) (a' : Account) : Prop where
  minted : ∀ token, x.Mints token → e = .done true ∧
    a'.session = some ⟨c.deviceId, some token, some c.refreshToken, some now⟩ ∧
    a'.vault.load a'.disk = some c
  rejected : x.IsRejection → e = .done false ∧ a'.session = none ∧
    a'.vault.isThere a'.disk = false
  troubled : ¬ x.IsRejection → (∀ token, ¬ x.Mints token) →
    (∃ f, e = .failed f ∧ f.isUnauthorized = false) ∧ a'.session = none ∧ a'.disk = a.disk

/-- How a session that has been read back is renewed when this is the answer. -/
inductive ReadBack (a : Account) (c : Storage.Credential) (x : Response) (l : Line) :
    RefreshResult → Account → Prop where
  | rejected {m : String} (hx : x.IsRejection) : ReadBack a c x l (.rejected m)
      { a with line := l, session := some (.ofCredential c) }
  | unavailable {f : Failure} (hx : x.IsTrouble) (hf : f.isUnauthorized = false) :
      ReadBack a c x l (.unavailable f) { a with line := l, session := some (.ofCredential c) }
  | refreshed {token : String} (hx : x.Mints token) : ReadBack a c x l .refreshed { a with
      line := l
      disk := (a.vault.save c a.disk).2
      session := some ⟨c.deviceId, some token, some c.refreshToken, some l.now⟩ }

theorem Renewed.readBack {y : Option Exchange} {e : Ended RefreshResult}
    (hc : c.refreshToken ≠ "")
    (hsend : a.line.send (refreshRequest c.refreshToken) = (some x, l))
    (h : Renewed { a with session := some (.ofCredential c) } y e a') :
    ∃ result, e = .done result ∧ ReadBack a c x l result a' := by
  have htoken : Session.nonEmpty? c.refreshToken = some c.refreshToken := by
    simp [Session.nonEmpty?, hc]
  have hread : ∀ {s : Session} {token : String}, some (Session.ofCredential c) = some s →
      s.refreshToken = some token →
      s = ⟨c.deviceId, none, some c.refreshToken, none⟩ ∧ token = c.refreshToken := by
    intro s token hs ht
    rw [Session.ofCredential, htoken] at hs
    cases hs
    cases ht
    exact ⟨rfl, rfl⟩
  cases h with
  | tokenless ht =>
    rw [refreshToken?, Option.bind_some, Session.ofCredential, htoken] at ht
    cases ht
  | unanswered hs ht hl =>
    obtain ⟨rfl, rfl⟩ := hread hs ht
    cases hsend.symm.trans hl
  | rejected hs ht hl hx =>
    obtain ⟨rfl, rfl⟩ := hread hs ht
    cases hsend.symm.trans hl
    exact ⟨_, rfl, .rejected hx⟩
  | unavailable hs ht hl hx hf =>
    obtain ⟨rfl, rfl⟩ := hread hs ht
    cases hsend.symm.trans hl
    exact ⟨_, rfl, .unavailable hx hf⟩
  | refreshed hs ht hl hx =>
    obtain ⟨rfl, rfl⟩ := hread hs ht
    cases hsend.symm.trans hl
    exact ⟨_, rfl, .refreshed hx⟩

theorem restore_run {result : RefreshResult} {a₁ : Account}
    (hload : a.vault.load a.disk = some c)
    (hr : renew.run { a with session := some (.ofCredential c) } = (.done result, a₁)) :
    restore.run a = match result with
      | .refreshed => (.done true, a₁)
      | .unavailable f => (.failed f, { a₁ with session := none })
      | .rejected _ | .noRefreshToken => (.done false, a₁.discard) := by
  unfold restore
  rw [Call.run_view_bind, hload]
  dsimp only
  rw [Call.run_modify_bind, Call.bind_done hr]
  cases result <;> rfl

theorem restore_settled {e : Ended Bool} (hload : a.vault.load a.disk = some c)
    (hsend : a.line.send (refreshRequest c.refreshToken) = (some x, l))
    (h : restore.run a = (e, a')) : a'.line = l ∧ Settled a c x l.now e a' := by
  have htoken := Storage.Vault.load_refreshToken hload
  have hsome : (a.vault.load a.disk).isSome := by simp [hload]
  let begun : Account := { a with session := some (.ofCredential c) }
  obtain ⟨ended, a₁, hrun⟩ : ∃ ended a₁, renew.run begun = (ended, a₁) := ⟨_, _, rfl⟩
  obtain ⟨y, hrenewed⟩ := renew_cases hrun
  obtain ⟨result, rfl, hread⟩ := hrenewed.readBack htoken hsend
  rw [restore_run hload hrun] at h
  cases hread with
  | rejected hx =>
    obtain ⟨d, hd⟩ := Storage.Vault.delete_of_load hsome
    cases h
    refine ⟨rfl, fun _ hm => absurd hx hm.not_rejection, fun _ => ⟨rfl, rfl, ?_⟩,
      fun hn => absurd hx hn⟩
    simp only [discard, hd]
    exact Storage.Vault.isThere_delete hd
  | unavailable hx hf =>
    cases h
    exact ⟨rfl, fun token hm => absurd hm (hx.not_mints token),
      fun hr => absurd hr hx.not_rejection, fun _ _ => ⟨⟨_, rfl, hf⟩, rfl, rfl⟩⟩
  | refreshed hx =>
    cases h
    refine ⟨rfl, fun token hm => ⟨rfl, by rw [hm.unique hx], ?_⟩,
      fun hr => absurd hr hx.not_rejection, fun _ hn => absurd hx (hn _)⟩
    rcases a.vault.steady c a.disk htoken hsome with hsame | hnew
    · exact hsame.trans hload
    · exact hnew

/-- Reading a session back: nothing happens where no credential can be read, and else its refresh
token is sent once and the answer settles the rest. -/
theorem restore_settles (a : Account) :
    (a.vault.load a.disk = none → restore.run a = (.done false, a)) ∧
    ∀ c, a.vault.load a.disk = some c → ∃ e a', restore.run a = (e, a') ∧
      a'.line.sent =
        a.line.sent ++ [⟨"POST", "/api/client/refresh", [], none, some c.refreshToken⟩] ∧
      ∀ x l, a.line.send ⟨"POST", "/api/client/refresh", [], none, some c.refreshToken⟩ =
        (some x, l) → a'.line = l ∧ Settled a c x l.now e a' := by
  obtain ⟨e, a', h⟩ : ∃ e a', restore.run a = (e, a') := ⟨_, _, rfl⟩
  have hrestored := restore_cases h
  constructor
  · intro hnone
    obtain ⟨he, ha⟩ := hrestored.of_none hnone
    rw [h, he, ha]
  · intro c hload
    obtain ⟨y?, hconducts, -⟩ := hrestored.of_some (P := fun _ => True) (fun _ => trivial) hload
    exact ⟨e, a', h, hconducts.conducted.sent_eq, fun x l hsend => restore_settled hload hsend h⟩

/-- The device that comes back, to a service that gives one answer. -/
def returningTo (x : Response) : Account :=
  { returning with line := { replies := [⟨x, 10, false⟩] } }

/-- An answer of each kind, and a disk that has lost the file. -/
theorem restore_settles_returning :
    (∃ a', restore.run (returningTo ⟨200, Wire.FreshToken.toJson ⟨"b"⟩⟩) = (.done true, a') ∧
      a'.session = some ⟨"fridge", some "b", some "r", some 10⟩ ∧
      a'.vault.load a'.disk = some ⟨"fridge", "r"⟩) ∧
    (∃ a', restore.run (returningTo ⟨403, .null⟩) = (.done false, a') ∧ a'.session = none ∧
      a'.vault.isThere a'.disk = false) ∧
    (∃ f a', restore.run (returningTo ⟨503, .null⟩) = (.failed f, a') ∧
      f.isUnauthorized = false ∧ a'.session = none ∧ a'.disk = returning.disk) ∧
    restore.run { returning with disk := .empty } = (.done false, { returning with disk := .empty })
    := by
  have hload : ∀ x, (returningTo x).vault.load (returningTo x).disk = some ⟨"fridge", "r"⟩ :=
    fun _ => returning_load
  refine ⟨?_, ?_, ?_, (restore_settles _).1 (by decide +kernel)⟩
  · obtain ⟨e, a', h, -, hsettles⟩ :=
      (restore_settles (returningTo ⟨200, Wire.FreshToken.toJson ⟨"b"⟩⟩)).2 _ (hload _)
    obtain ⟨-, hsettled⟩ := hsettles _ _ rfl
    obtain ⟨rfl, hsession, hkept⟩ := hsettled.minted "b" ⟨by decide, rfl, by decide⟩
    exact ⟨a', h, hsession, hkept⟩
  · obtain ⟨e, a', h, -, hsettles⟩ :=
      (restore_settles (returningTo ⟨403, .null⟩)).2 _ (hload _)
    obtain ⟨-, hsettled⟩ := hsettles _ _ rfl
    obtain ⟨rfl, hsession, hgone⟩ := hsettled.rejected (Or.inr rfl)
    exact ⟨a', h, hsession, hgone⟩
  · obtain ⟨e, a', h, -, hsettles⟩ :=
      (restore_settles (returningTo ⟨503, .null⟩)).2 _ (hload _)
    obtain ⟨-, hsettled⟩ := hsettles _ _ rfl
    obtain ⟨⟨f, rfl, hf⟩, hsession, hdisk⟩ := hsettled.troubled
      (by rintro (h | h) <;> cases h) fun token hm => absurd hm.1 (by decide)
    exact ⟨f, a', h, hf, hsession, hdisk⟩

end Account

end Larder
