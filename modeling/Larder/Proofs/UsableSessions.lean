import Larder.Proofs.CallOutcomes
import Larder.Proofs.CredentialTexts

namespace Larder

theorem Session.Proper.authState {s : Session} (h : s.Proper) : s.authState ≠ .unauthenticated := by
  unfold Session.authState
  cases ha : s.accessToken with
  | some token => simp
  | none =>
    obtain ⟨token, hr⟩ := Option.isSome_iff_exists.mp (h.usable ha)
    simp [hr]

namespace Account

theorem renew_ofCredential {a a' : Account} {c : Storage.Credential} {e : Ended RefreshResult}
    (hl : a.vault.load a.disk = some c)
    (h : renew.run { a with session := some (.ofCredential c) } = (e, a')) :
    e ≠ .done .noRefreshToken := by
  rintro rfl
  obtain ⟨x, hr⟩ := renew_cases h
  have hnone : (Session.ofCredential c).refreshToken = none := hr.nothing_sent.2.1
  have hsome := (Session.proper_ofCredential (Storage.Vault.load_refreshToken hl)).usable rfl
  rw [hnone] at hsome
  cases hsome

/-- Every session that is held is as it should be. The renewal before a protected call says why
there is no access token after it, and a refresh token is left then; and the renewal of a session
that is read back has a refresh token to send. -/
theorem session_usable {a : Account} (ha : a.Reachable) :
    (∀ s, a.session = some s → s.Proper ∧ s.authState ≠ .unauthenticated) ∧
    (∀ p a', renewIfDue.run a = (.done p, a') → a.session.isSome → a'.accessToken? = none →
      a'.refreshToken?.isSome ∧
        ((∃ m, p = some (.rejected m)) ∨ ∃ f, p = some (.unavailable f))) ∧
    ∀ c e a', a.vault.load a.disk = some c →
      renew.run { a with session := some (.ofCredential c) } = (e, a') →
      e ≠ .done .noRefreshToken := by
  refine ⟨?_, ?_, fun _ _ _ => renew_ofCredential⟩
  · intro s hs
    have hproper := ha.proper s hs
    exact ⟨hproper, hproper.authState⟩
  · intro p a' h hs ht
    obtain ⟨x, hl⟩ := renewIfDue_cases h
    exact hl.tokenless ha.proper hs ht

/-- A device that is about to read back a session that `stale`'s vault keeps, and that will be
interrupted. -/
def returning : Account where
  line := { replies := [⟨⟨200, .null⟩, 10, false⟩], dropAt := some 5 }
  disk := (stale.vault.save ⟨"fridge", "r"⟩ stale.disk).2
  vault := stale.vault
  refreshInterval := 240000
  session := none

theorem returning_load : returning.vault.load returning.disk = some ⟨"fridge", "r"⟩ :=
  stale_housed.servedBy.load_save (by simp)

/-- The same device after the interruption, when the service is out of order. -/
def halfway : Account :=
  { Operation.after returning .restore with line := { replies := [⟨⟨503, .null⟩, 0, false⟩] } }

theorem halfway_reachable : halfway.Reachable := .line _ (.operate .restore (.new _ _ _ _))

theorem halfway_eq : halfway = { returning with
    line := { replies := [⟨⟨503, .null⟩, 0, false⟩] }
    session := some ⟨"fridge", none, some "r", none⟩ } := by
  unfold halfway Operation.after restore
  -- What is read back is known, so the text on the disk need not be evaluated.
  simp only [Call.run_view_bind, returning_load]
  rfl

theorem session_usable_halfway : halfway.Reachable ∧
    (∃ s, halfway.session = some s ∧ s.accessToken = none ∧ s.Proper ∧
      s.authState ≠ .unauthenticated) ∧
    (∃ p a', renewIfDue.run halfway = (.done p, a') ∧ a'.accessToken? = none ∧
      a'.refreshToken?.isSome ∧
      ((∃ m, p = some (.rejected m)) ∨ ∃ f, p = some (.unavailable f))) ∧
    ∃ c e a', halfway.vault.load halfway.disk = some c ∧
      renew.run { halfway with session := some (.ofCredential c) } = (e, a') ∧
      e ≠ .done .noRefreshToken := by
  obtain ⟨hproper, hlead, hback⟩ := session_usable halfway_reachable
  have hsession : halfway.session = some ⟨"fridge", none, some "r", none⟩ := by rw [halfway_eq]
  have hload : halfway.vault.load halfway.disk = some ⟨"fridge", "r"⟩ := by
    rw [halfway_eq]
    exact returning_load
  have hrun : renewIfDue.run halfway = (.done (some (.unavailable (.refused 503 ""))),
      (renewIfDue.run halfway).2) := by
    rw [halfway_eq]
    exact Prod.ext (by decide +kernel) rfl
  have htoken : (renewIfDue.run halfway).2.accessToken? = none := by
    rw [halfway_eq]
    decide +kernel
  refine ⟨halfway_reachable, ⟨_, hsession, rfl, hproper _ hsession⟩, ⟨_, _, hrun, htoken, ?_⟩, ?_⟩
  · exact hlead _ _ hrun (by simp [hsession]) htoken
  · exact ⟨_, _, _, hload, (Prod.eta _).symm, hback _ _ _ hload (Prod.eta _).symm⟩

end Account

end Larder
