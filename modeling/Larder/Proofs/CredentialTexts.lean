import Larder.Proofs.Vaults
import Larder.Proofs.WrittenRecords

namespace Larder.Storage

open Json

theorem Credential.reads (p : Passage) (c : Credential) : Credential.decode.Reads p c.toJson c := by
  refine reads_record _
    [.always deviceIdField (reads_text c.deviceId),
      .always refreshTokenField (reads_text c.refreshToken)]
    rfl (by decide) fun fs ⟨hdevice, htoken⟩ => ?_
  simp only [bind_ok]
  exact ⟨_, hdevice, _, htoken, rfl⟩

theorem Credential.decode_fileText (c : Credential) :
    Credential.decode.ofText c.fileText = .ok c :=
  (ofText_printLines_eq _ _).trans (Credential.reads .written c _ (.refl _))

namespace Vault

variable {v : Vault} {c : Credential} {d d' : Disk}

theorem load_of_text {D : Type} [FileSystem D] {d : D}
    (h : (FileSystem.entry d v.route >>= Entry.text) = .ok c.fileText)
    (hc : c.refreshToken ≠ "") : v.load d = some c := by
  simp [load, h, Credential.decode_fileText, Except.toOption, hc]

/-- A vault that has saved a credential with a refresh token loads that credential. -/
theorem load_of_saved (h : v.save c d = (.ok (), d')) (hc : c.refreshToken ≠ "") :
    v.load d' = some c :=
  load_of_text (read_save h) hc

theorem ServedBy.load_save (h : v.ServedBy d) (hc : c.refreshToken ≠ "") :
    v.load (v.save c d).2 = some c :=
  load_of_saved (Prod.ext ((h d .here).1 c) rfl) hc

end Vault

end Larder.Storage
