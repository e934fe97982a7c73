import Larder.Proofs.AccountUse
import Larder.Proofs.CallOutcomes
import Larder.Proofs.CredentialTexts

namespace Larder

namespace Account

/-- What the vault gives back. -/
def kept? (a : Account) : Option Storage.Credential := a.vault.load a.disk

/-- The vault gives back the credential of the session. -/
def Backed (a : Account) : Prop := ∀ s token, a.session = some s → s.refreshToken = some token →
  a.kept? = some ⟨s.deviceId, token⟩

structure InStep (a : Account) : Prop where
  proper : a.Proper
  served : a.vault.ServedBy a.disk
  backed : a.Backed

/-- The vault gives nothing back either when there is no session. -/
structure Exact (a : Account) : Prop extends InStep a where
  empty : a.session = none → a.kept? = none

section Steps

variable {a a' : Account} {s : Session} {c : Storage.Credential} {x : Option Exchange}

theorem backed_of_none (h : a.session = none) : a.Backed := by
  intro s token hs
  rw [h] at hs
  cases hs

theorem InStep.line (h : a.InStep) (line : Line) : InStep { a with line } :=
  ⟨h.proper, h.served, h.backed⟩

theorem InStep.setAside (h : a.InStep) : InStep { a with session := none } :=
  ⟨proper_of_none rfl, h.served, backed_of_none rfl⟩

theorem InStep.hold (h : a.InStep) (hs : s.Proper) : (a.hold s).InStep := by
  cases ht : s.refreshToken with
  | none =>
    have hkeep : a.keep s = a := by simp [keep, Session.credential?, ht]
    refine ⟨proper_of_some rfl hs, ?_, ?_⟩
    · simpa [Account.hold, hkeep] using h.served
    · rintro s' token ⟨rfl⟩ ht'
      rw [ht] at ht'
      cases ht'
  | some token =>
    have hkeep : a.keep s = { a with disk := (a.vault.save ⟨s.deviceId, token⟩ a.disk).2 } := by
      simp [keep, Session.credential?, ht]
    have hne : token ≠ "" := by
      rintro rfl
      exact hs.refresh ht
    refine ⟨proper_of_some rfl hs, ?_, ?_⟩
    · rw [Account.hold, hkeep]
      exact h.served.leads (.save _ .here)
    · rintro s' token' ⟨rfl⟩ ht'
      rw [ht] at ht'
      cases ht'
      rw [Account.hold, hkeep]
      exact h.served.load_save hne

theorem InStep.renewed {e : Ended RefreshResult} (hr : Renewed a x e a') (h : a.InStep) :
    a'.InStep := by
  cases hr with
  | tokenless => exact h
  | unanswered => exact h.line _
  | rejected => exact h.line _
  | unavailable => exact h.line _
  | @refreshed s token access y l hs ht _ hx =>
    have hproper := (h.proper s hs).withAccessToken hx.2.2 l.now
    have hheld := (h.line l).hold hproper
    have heq := withAccessToken_eq (a := { a with line := l }) access hs ht
    simp only [withAccessToken, hs] at heq hheld
    exact heq ▸ hheld

theorem discard_kept (h : a.vault.ServedBy a.disk) : a.discard.kept? = none :=
  Storage.Vault.load_of_not_there (discard_isThere h)

theorem InStep.discard (h : a.InStep) : a.discard.InStep := by
  obtain ⟨d, hd⟩ := (h.served a.disk .here).2
  have hdisk : a.discard.disk = d := by simp [Account.discard, hd, Except.toOption]
  refine ⟨proper_of_none rfl, ?_, backed_of_none rfl⟩
  rw [hdisk]
  exact h.served.leads (.delete .here hd)

theorem Exact.discard (h : a.Exact) : a.discard.Exact :=
  ⟨h.toInStep.discard, fun _ => discard_kept h.served⟩

/-- Logging out discards the session, when the disk does not refuse. -/
theorem logout_discard (h : a.vault.ServedBy a.disk) : logout.run a = (.done (), a.discard) := by
  obtain ⟨d, hd⟩ := (h a.disk .here).2
  unfold logout
  simp only [Call.run_modify_bind, Call.run_view_bind, hd, Account.discard, Except.toOption,
    Option.getD_some]
  rfl

theorem inStep_preserved : Preserved InStep where
  line line h := h.line line
  hold hs h := h.hold hs
  renewed := InStep.renewed
  discard h := h.discard
  logout h := by
    rw [Operation.after, logout_discard h.served]
    exact h.discard

theorem exact_preserved : Preserved Exact where
  line line h := ⟨h.toInStep.line line, h.empty⟩
  hold hs h := ⟨h.toInStep.hold hs, by simp [Account.hold]⟩
  renewed hr h := by
    refine ⟨h.toInStep.renewed hr, ?_⟩
    cases hr with
    | tokenless => exact h.empty
    | unanswered => exact h.empty
    | rejected => exact h.empty
    | unavailable => exact h.empty
    | refreshed => simp
  discard h := h.discard
  logout h := by
    rw [Operation.after, logout_discard h.served]
    exact h.discard

theorem InStep.readBack (h : a.InStep) (hl : a.kept? = some c) :
    InStep { a with session := some (.ofCredential c) } := by
  have hne := Storage.Vault.load_refreshToken hl
  refine ⟨proper_of_some rfl (Session.proper_ofCredential hne), h.served, ?_⟩
  rintro s token ⟨rfl⟩ ht
  have htoken : c.refreshToken = token := by
    simpa [Session.ofCredential, Session.nonEmpty?, hne] using ht
  rw [← htoken]
  exact hl

theorem InStep.after (h : a.InStep) (o : Operation) : (o.after a).InStep :=
  inStep_preserved.always InStep.setAside (fun hl h => h.readBack hl) o h

end Steps

end Account

namespace Fridge

/-- Something that is done with a fridge or with its account, while nobody else writes to its
disk. -/
inductive Deed where
  | operate (op : Operation)
  | account (o : Account.Operation)
  | line (l : Line)

/-- The fridge after a deed, however an operation ended. -/
def Deed.after (f : Fridge) : Deed → Fridge
  | operate op => (op.call.run f).2
  | account o => { f with account := o.after f.account }
  | line l => f.withLine l

def Deed.IsLogout : Deed → Prop
  | operate op => op = .logout
  | account o => o = .logout
  | line _ => False

def Deed.IsRestore : Deed → Prop
  | operate op => op = .restore
  | account o => o = .restore
  | line _ => False

theorem Deed.inStep (d : Deed) {f : Fridge} (h : f.account.InStep) : (d.after f).account.InStep := by
  cases d with
  | operate op =>
    have hkeeps : Keeps Account.InStep op.call :=
      Operation.keeps (fun _ l ha => ha.line l) fun o _ _ ha => ha.after o
    exact hkeeps f h
  | account o => exact h.after o
  | line l => exact h.line l

theorem Deed.exact {d : Deed} {f : Fridge} (hd : ¬ d.IsRestore) (h : f.account.Exact) :
    (d.after f).account.Exact := by
  cases d with
  | operate op =>
    have hkeeps : Keeps Account.Exact op.call :=
      Operation.keeps (fun _ l ha => Account.exact_preserved.line l ha) fun o ho _ ha =>
        Account.exact_preserved.after (ho.ne_restore hd) ha
    exact hkeeps f h
  | account o => exact Account.exact_preserved.after hd h
  | line l => exact Account.exact_preserved.line l h

theorem Deed.logout {d : Deed} {f : Fridge} (hd : d.IsLogout) (h : f.account.InStep) :
    (d.after f).account = f.account.discard := by
  have hrun := Account.logout_discard h.served
  cases d with
  | operate op =>
    cases hd
    have hlogout : (Fridge.logout.run f).2.account = (Account.logout.run f.account).2 := rfl
    exact hlogout.trans (congrArg Prod.snd hrun)
  | account o =>
    cases hd
    exact congrArg Prod.snd hrun
  | line l => cases hd

/-- The fridges that a new one can become whose disk refuses nothing and is written to by nobody
else. -/
inductive Alone : Fridge → Prop where
  | new (settings : Settings) {vault : Storage.Vault} {disk : Storage.Disk} (line : Line)
      (hv : vault.ServedBy disk) : Alone (new settings vault disk line)
  | deed {f : Fridge} (d : Deed) (h : Alone f) : Alone (d.after f)

theorem Alone.inStep {f : Fridge} (h : f.Alone) : f.account.InStep := by
  induction h with
  | new _ _ hv => exact ⟨Account.proper_of_none rfl, hv, Account.backed_of_none rfl⟩
  | deed d _ ih => exact d.inStep ih

/-- What the vault gives back agrees with the session, whatever is done next. -/
structure KeepsUp (f : Fridge) : Prop where
  held : ∀ s token, f.account.session = some s → s.refreshToken = some token →
    f.account.kept? = some ⟨s.deviceId, token⟩
  loggedOut : ∀ d : Deed, d.IsLogout →
    (d.after f).account.session = none ∧ (d.after f).account.kept? = none
  /-- Only reading it back sets a session aside. Everything else ends it for good. -/
  ended : ∀ d : Deed, ¬ d.IsRestore → f.account.session.isSome →
    (d.after f).account.session = none → (d.after f).account.kept? = none
  turnedDown : ∀ f', restore.run f = (.done false, f') → f'.account.kept? = none
  unavailable : ∀ x f', restore.run f = (.failed x, f') → f'.account.disk = f.account.disk

/-- Whatever is done with a fridge, the vault keeps up with the session. -/
theorem vault_keeps_up {f : Fridge} (hf : f.Alone) : f.KeepsUp := by
  have h := hf.inStep
  exact {
    held := h.backed
    loggedOut := by
      intro d hd
      rw [Deed.logout hd h]
      exact ⟨rfl, Account.discard_kept h.served⟩
    ended := by
      intro d hd hs hnone
      -- A session is held now, so the vault is exact already.
      have hexact : f.account.Exact := ⟨h, fun hn => by simp [hn] at hs⟩
      exact (Deed.exact hd hexact).empty hnone
    turnedDown := by
      intro f' hrun
      obtain ⟨account, ha, rfl⟩ := onAccount_cases hrun
      cases Account.restore_cases ha with
      | nothing hl => exact hl
      | rejected hl hr => exact Account.discard_kept ((h.readBack hl).renewed hr).served
    unavailable := by
      intro x f' hrun
      obtain ⟨account, ha, rfl⟩ := onAccount_cases hrun
      cases Account.restore_cases ha with
      | unavailable hl hr =>
        cases hr with
        | unavailable => rfl }

/-- A new fridge that has logged in on the disk of `stale`, where there was a credential of another
device. -/
def signedIn : Fridge :=
  (Deed.operate (.login ⟨"pantry", "secret"⟩)).after
    (new .default Account.stale.vault Account.stale.disk
      { replies := [⟨⟨200, Wire.Tokens.toJson ⟨"p1", "q1"⟩⟩, 0, false⟩] })

theorem signedIn_alone : signedIn.Alone := .deed _ (.new _ _ Account.stale_housed.servedBy)

theorem signedIn_session :
    signedIn.account.session = some ⟨"pantry", some "p1", some "q1", some 0⟩ := by
  decide +kernel

theorem vault_keeps_up_signedIn : signedIn.Alone ∧ signedIn.KeepsUp ∧
    signedIn.account.session = some ⟨"pantry", some "p1", some "q1", some 0⟩ ∧
    signedIn.account.kept? = some ⟨"pantry", "q1"⟩ := by
  have hup := vault_keeps_up signedIn_alone
  exact ⟨signedIn_alone, hup, signedIn_session, hup.held _ _ signedIn_session rfl⟩

end Fridge

end Larder
