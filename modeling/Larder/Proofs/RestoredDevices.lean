import Larder.Proofs.KeptSessions

namespace Larder

namespace Account

variable {a a' : Account}

/-- A session that is read back is the one that was kept, or there is none in the end. -/
theorem Restored.identity {e : Ended Bool} {c : Storage.Credential} (h : Restored a e a')
    (hc : a.kept? = some c) :
    a'.session = none ∨ a'.session.map Session.identity = some (c.deviceId, some c.refreshToken) := by
  have hload : a.vault.load a.disk = some c := hc
  have hread : ∀ {c' x e a'}, a.vault.load a.disk = some c' →
      Renewed { a with session := some (.ofCredential c') } x e a' →
      a'.session.map Session.identity = some (c.deviceId, some c.refreshToken) := by
    intro c' x e a' hl hr
    rw [hload] at hl
    cases hl
    rw [hr.kept.identity]
    have hne := Storage.Vault.load_refreshToken hc
    simp [Session.identity, Session.ofCredential, Session.nonEmpty?, hne]
  cases h with
  | nothing hl => simp [hload] at hl
  | refreshed hl hr => exact Or.inr (hread hl hr)
  | unavailable => exact Or.inl rfl
  | rejected => exact Or.inl rfl
  | dropped hl hr => exact Or.inr (hread hl hr)

end Account

namespace Fridge

/-- A new fridge on the disk of another. -/
def successor (f : Fridge) (settings : Settings) (line : Line) : Fridge :=
  new settings f.account.vault f.account.disk line

/-- As long as a session has a refresh token, a later fridge that reads its session back ends with
that device's session or with none, whatever the service answers and wherever it is interrupted. -/
theorem restored_device {f : Fridge} {s : Session} {token : String} (hf : f.Alone)
    (hs : f.account.session = some s) (ht : s.refreshToken = some token) (settings : Settings)
    (line : Line) :
    (restore.run (f.successor settings line)).2.account.session = none ∨
    ∃ s', (restore.run (f.successor settings line)).2.account.session = some s' ∧
      s'.deviceId = s.deviceId ∧ s'.refreshToken = some token := by
  have hkept : (f.successor settings line).account.kept? = some ⟨s.deviceId, token⟩ :=
    hf.inStep.backed s token hs ht
  obtain ⟨account, ha, hafter⟩ :=
    onAccount_cases (Prod.eta (restore.run (f.successor settings line))).symm
  rw [hafter]
  rcases (Account.restore_cases ha).identity hkept with hnone | hsame
  · exact Or.inl hnone
  · obtain ⟨s', hs', hid⟩ := Option.map_eq_some_iff.mp hsame
    obtain ⟨hdevice, hrefresh⟩ := Prod.mk.inj hid
    exact Or.inr ⟨s', hs', hdevice, hrefresh⟩

/-- A line on which the service gives a new access token. -/
def renewing : Line := { replies := [⟨⟨200, Wire.FreshToken.toJson ⟨"p3"⟩⟩, 0, false⟩] }

theorem restored_device_signedIn :
    signedIn.Alone ∧ signedIn.account.session = some ⟨"pantry", some "p1", some "q1", some 0⟩ ∧
    ((restore.run (signedIn.successor .default renewing)).2.account.session = none ∨
      ∃ s', (restore.run (signedIn.successor .default renewing)).2.account.session = some s' ∧
        s'.deviceId = "pantry" ∧ s'.refreshToken = some "q1") := by
  have hback := restored_device signedIn_alone signedIn_session rfl .default renewing
  exact ⟨signedIn_alone, signedIn_session, hback⟩

/-- The fridge after another device has logged in on it and got no refresh token. -/
def renamed (f : Fridge) : Fridge :=
  (Deed.operate (.login ⟨"shelf", "secret"⟩)).after
    ((Deed.line { replies := [⟨⟨200, Wire.Tokens.toJson ⟨"p2", ""⟩⟩, 0, false⟩] }).after f)

section Renamed

variable {f : Fridge}

theorem Alone.renamed (h : f.Alone) : f.renamed.Alone :=
  .deed (.operate (.login ⟨"shelf", "secret"⟩)) (.deed (.line _) h)

theorem renamed_session : f.renamed.account.session = some ⟨"shelf", some "p2", none, some 0⟩ := rfl

theorem renamed_kept : f.renamed.account.kept? = f.account.kept? := rfl

theorem successor_session (h : f.account.kept? = some ⟨"pantry", "q1"⟩) :
    (restore.run (f.successor .default renewing)).2.account.session =
      some ⟨"pantry", some "p3", some "q1", some 0⟩ := by
  have hload : (f.successor .default renewing).account.vault.load
      (f.successor .default renewing).account.disk = some ⟨"pantry", "q1"⟩ := h
  obtain ⟨account, ha, hafter⟩ :=
    onAccount_cases (Prod.eta (restore.run (f.successor .default renewing))).symm
  unfold Account.restore at ha
  rw [Call.run_view_bind, hload] at ha
  have hend := congrArg (·.2.session) ha
  rw [hafter]
  exact hend.symm

end Renamed

/-- The vault still gives back the session of the device before. -/
theorem renamed_restores_another : signedIn.renamed.Alone ∧
    signedIn.renamed.account.session = some ⟨"shelf", some "p2", none, some 0⟩ ∧
    (restore.run (signedIn.renamed.successor .default renewing)).2.account.session =
      some ⟨"pantry", some "p3", some "q1", some 0⟩ := by
  have hkept : signedIn.renamed.account.kept? = some ⟨"pantry", "q1"⟩ :=
    renamed_kept.trans (signedIn_alone.inStep.backed _ _ signedIn_session rfl)
  exact ⟨signedIn_alone.renamed, renamed_session, successor_session hkept⟩

end Fridge

end Larder
