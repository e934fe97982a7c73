import Larder.Proofs.Disks
import Larder.Proofs.Tables
import Larder.Service.Response

namespace Larder

namespace Failure

theorem userMessage_unauthorized (m : String) :
    (unauthorized m).userMessage = "Authentication failed: " ++ m := rfl

theorem userMessage_refused (status : Nat) (m : String) : (refused status m).userMessage =
    if m.isEmpty then "Request failed (HTTP " ++ toString status ++ ")" else m := rfl

/-- The kind of failure that a status stands for, with these words. -/
inductive Reports : Nat → String → Failure → Prop where
  | unreachable (m : String) : Reports 0 m (.unreachable m)
  | unauthorized (m : String) : Reports 401 m (.unauthorized m)
  | refused {status : Nat} (h₀ : status ≠ 0) (h₁ : status ≠ 401) (m : String) :
      Reports status m (.refused status m)

namespace Reports

variable {status : Nat} {m : String} {x : Failure}

/-- The person at the terminal is told these very words. -/
theorem verbatim (h : Reports status m x) : ∃ opening, x.userMessage = opening ++ m := by
  cases h with
  | unreachable => exact ⟨"", String.empty_append.symm⟩
  | unauthorized => exact ⟨"Authentication failed: ", userMessage_unauthorized m⟩
  | refused =>
    rw [userMessage_refused]
    split
    · rename_i hm
      rw [String.isEmpty_iff.mp hm]
      exact ⟨_, String.append_empty.symm⟩
    · exact ⟨"", String.empty_append.symm⟩

/-- Something is told in any case but that of a service out of reach without words. -/
theorem shown (h : Reports status m x) (hm : m = "" → status ≠ 0) : x.userMessage ≠ "" := by
  intro he
  obtain ⟨opening, ho⟩ := h.verbatim
  obtain rfl : m = "" := (String.append_eq_empty_iff.mp (ho.symm.trans he)).2
  cases h with
  | unreachable => exact hm rfl rfl
  | unauthorized =>
    rw [userMessage_unauthorized, String.append_eq_empty_iff] at he
    exact absurd he.1 (by decide)
  | refused =>
    rw [userMessage_refused, if_pos (by decide), String.append_eq_empty_iff] at he
    exact absurd he.2 (by decide)

end Reports

end Failure

/-- The words that a value holds: a text is words itself, and an object holds them under one of two
keys. -/
inductive Json.Value.Says : Value → String → Prop where
  | text {s : String} (hne : s ≠ "") : Says (.text s) s
  | error {ms : List (String × Value)} {s : String} (hm : ("error", .text s) ∈ ms) (hne : s ≠ "") :
      Says (.object ms) s
  /-- The second key counts where there are no words under the first. -/
  | message {ms : List (String × Value)} {s : String}
      (hfirst : ∀ t, ("error", .text t) ∈ ms → t = "") (hm : ("message", .text s) ∈ ms)
      (hne : s ≠ "") : Says (.object ms) s

namespace Response

open Failure (Reports)

/-- The words that the body of a reply carries, once it is trimmed: what is no JSON is all words. -/
inductive Carries (body : String) : String → Prop where
  | plain {x : Json.Fault} (h : Json.Value.ofText body = .error x) (hne : body ≠ "") :
      Carries body body
  | json {v : Json.Value} {s : String} (h : Json.Value.ofText body = .ok v) (hs : v.Says s) :
      Carries body s

/-- What is said of a reply that carries no words. -/
def ownWords (status : Nat) : String :=
  if status = 0 then "Connection to ordering service failed"
  else if status = 401 then "Unauthorized"
  else ""

/-- How a reply of this status and text is reported. -/
structure Reported (status : Nat) (text : String) (x : Failure) : Prop where
  carried : ∀ s, Carries (Text.trim text) s → Reports status s x
  silent : (∀ s, ¬ Carries (Text.trim text) s) → Reports status (ownWords status) x
  shown : x.userMessage ≠ ""
  verbatim : ∀ s, Carries (Text.trim text) s → ∃ opening, x.userMessage = opening ++ s

section Words

variable {s body : String} {key : String} {ms : List (String × Json.Value)} {v : Json.Value}

theorem nonEmpty?_eq_some_iff (t : String) : nonEmpty? t = some s ↔ s = t ∧ s ≠ "" := by
  unfold nonEmpty?
  split
  · rename_i he
    rw [String.isEmpty_iff.mp he]
    simp
  · rename_i hne
    have ht : t ≠ "" := by simpa using hne
    constructor
    · rintro ⟨⟩
      exact ⟨rfl, ht⟩
    · rintro ⟨rfl, _⟩
      rfl

theorem memberText?_eq_some_iff (h : KeysAscend ms) :
    memberText? (.object ms) key = some s ↔ (key, .text s) ∈ ms ∧ s ≠ "" := by
  have hmember : ∀ v, (Json.Value.object ms).member? key = some v ↔ (key, v) ∈ ms :=
    fun v => find?_key_eq_some_iff h.nodup
  have hbind : memberText? (.object ms) key =
      ((Json.Value.object ms).member? key).bind fun v => v.text?.bind nonEmpty? := rfl
  simp only [hbind, Option.bind_eq_some_iff, hmember]
  constructor
  · rintro ⟨v, hv, t, ht, hs⟩
    obtain ⟨rfl, hne⟩ := (nonEmpty?_eq_some_iff t).mp hs
    cases v with
    | text u =>
      cases ht
      exact ⟨hv, hne⟩
    | _ => cases ht
  · rintro ⟨hm, hne⟩
    exact ⟨_, hm, s, rfl, (nonEmpty?_eq_some_iff s).mpr ⟨rfl, hne⟩⟩

theorem memberText?_eq_none_iff (h : KeysAscend ms) :
    memberText? (.object ms) key = none ↔ ∀ t, (key, .text t) ∈ ms → t = "" := by
  rw [Option.eq_none_iff_forall_ne_some]
  simp only [ne_eq, memberText?_eq_some_iff h, not_and, not_not]

/-- An object that is read has its members in the order of their keys, one for a key. -/
theorem keysAscend_of_value {n : Json.Node} {room : Nat} (h : n.value room = .ok (.object ms)) :
    KeysAscend ms := by
  cases n with
  | object tokens ending =>
    cases room with
    | zero => cases h
    | succ room =>
      simp only [Json.Node.value, bind_ok] at h
      obtain ⟨values, _, _, _, h⟩ := h
      cases h
      exact keysAscend_sortByKey values
  | sequence items ending =>
    cases room with
    | zero => cases h
    | succ room =>
      simp only [Json.Node.value, bind_ok] at h
      obtain ⟨_, _, _, _, h⟩ := h
      cases h
  | number n =>
    simp only [Json.Node.value] at h
    cases hn : n.read <;> rw [hn] at h <;> cases h
  | text t =>
    simp only [Json.Node.value] at h
    cases ht : t.read <;> rw [ht] at h <;> cases h
  | _ => cases h

theorem keysAscend_of_ofText (h : Json.Value.ofText body = .ok (.object ms)) : KeysAscend ms := by
  simp only [Json.Value.ofText, Json.Document.value, Json.Document.read, bind_ok] at h
  obtain ⟨v, hv, h⟩ := h
  split at h <;> cases h
  exact keysAscend_of_value hv

/-- The words of a value are found in a body that is this value. -/
theorem errorText?_eq_some_iff (h : ∀ ms, v = .object ms → KeysAscend ms) (status : Nat) :
    (Response.mk status v).errorText? = some s ↔ v.Says s := by
  cases v with
  | text t =>
    refine (nonEmpty?_eq_some_iff t).trans ⟨?_, ?_⟩
    · rintro ⟨rfl, hne⟩
      exact .text hne
    · rintro ⟨hne⟩
      exact ⟨rfl, hne⟩
  | object ms =>
    have hms : KeysAscend ms := h ms rfl
    refine Option.or_eq_some_iff.trans ?_
    rw [memberText?_eq_some_iff hms, memberText?_eq_none_iff hms, memberText?_eq_some_iff hms]
    constructor
    · rintro (⟨hm, hne⟩ | ⟨hfirst, hm, hne⟩)
      · exact .error hm hne
      · exact .message hfirst hm hne
    · intro hs
      cases hs with
      | error hm hne => exact Or.inl ⟨hm, hne⟩
      | message hfirst hm hne => exact Or.inr ⟨hfirst, hm, hne⟩
  | _ => exact ⟨nofun, nofun⟩

theorem Carries.ne_empty (h : Carries body s) : s ≠ "" := by
  cases h with
  | plain _ hne => exact hne
  | json _ hs => cases hs <;> assumption

theorem errorText?_errorBody (status : Nat) (hne : body ≠ "") :
    (Response.mk status (errorBody body)).errorText? = some body := by
  refine (errorText?_eq_some_iff (fun ms hms => ?_) status).mpr
    (.error (List.mem_singleton_self _) hne)
  cases hms
  exact List.pairwise_singleton _ _

/-- The words that a reply is found to carry are those that its text carries. -/
theorem errorText?_ofText (status : Nat) (text : String) :
    (ofText status text).errorText? = some s ↔ Carries (Text.trim text) s := by
  unfold ofText
  generalize Text.trim text = body
  dsimp only
  split
  · rename_i he
    rw [String.isEmpty_iff.mp he]
    have hend : Json.Value.ofText "" = .error .endOfValue := rfl
    refine ⟨nofun, fun hc => ?_⟩
    cases hc with
    | plain _ hne => exact absurd rfl hne
    | json h => cases hend.symm.trans h
  · rename_i he
    have hne : body ≠ "" := fun h => he (String.isEmpty_iff.mpr h)
    split
    · rename_i v h
      rw [errorText?_eq_some_iff fun ms hms => keysAscend_of_ofText (hms ▸ h)]
      refine ⟨.json h, fun hc => ?_⟩
      cases hc with
      | plain hx => cases h.symm.trans hx
      | json hv hs =>
        cases h.symm.trans hv
        exact hs
    · rename_i x h
      rw [errorText?_errorBody status hne, Option.some.injEq]
      constructor
      · rintro rfl
        exact .plain h hne
      · intro hc
        cases hc with
        | plain => rfl
        | json hv => cases h.symm.trans hv

end Words

/-- A failure has the words that were found, or else words of its own. -/
theorem failure_reports (r : Response) :
    Reports r.status (r.errorText?.getD (ownWords r.status)) r.failure := by
  unfold failure
  split
  · rename_i h
    rw [h]
    exact .unreachable _
  · rename_i h₀
    split
    · rename_i h₁
      rw [h₁]
      exact .unauthorized _
    · rename_i h₁
      have hown : ownWords r.status = "" := (if_neg h₀).trans (if_neg h₁)
      rw [hown]
      exact .refused h₀ h₁ _

theorem status_ofText (status : Nat) (text : String) : (ofText status text).status = status := by
  unfold ofText
  dsimp only
  repeat' split
  all_goals rfl

theorem success_eq_failure_iff (r : Response) :
    r.success = .error r.failure ↔ ¬ (200 ≤ r.status ∧ r.status ≤ 299) := by
  have hsuccess : r.isSuccess = true ↔ 200 ≤ r.status ∧ r.status ≤ 299 := by
    simp only [isSuccess, Bool.and_eq_true, decide_eq_true_eq]
    omega
  rw [← hsuccess, success]
  cases r.isSuccess <;> simp

/-- Whatever the text of a reply is, the failure that it is reported as has the service's own words
if there are any, and tells the person at the terminal something. It comes of all statuses but
those from 200 to 299. -/
theorem ofText_reported (status : Nat) (text : String) :
    Reported status text (ofText status text).failure ∧
      ((ofText status text).success = .error (ofText status text).failure ↔
        ¬ (200 ≤ status ∧ status ≤ 299)) := by
  have hsuccess := success_eq_failure_iff (ofText status text)
  have hreports := failure_reports (ofText status text)
  rw [status_ofText] at hsuccess hreports
  refine ⟨?_, hsuccess⟩
  cases hw : (ofText status text).errorText? with
  | some s =>
    rw [hw, Option.getD_some] at hreports
    have hs : Carries (Text.trim text) s := (errorText?_ofText status text).mp hw
    have hcarried : ∀ t, Carries (Text.trim text) t →
        Reports status t (ofText status text).failure := by
      intro t ht
      have hwt := hw.symm.trans ((errorText?_ofText status text).mpr ht)
      rwa [Option.some.inj hwt] at hreports
    exact {
      carried := hcarried
      silent := fun hnone => absurd hs (hnone s)
      shown := hreports.shown fun he => absurd he hs.ne_empty
      verbatim := fun t ht => (hcarried t ht).verbatim }
  | none =>
    rw [hw, Option.getD_none] at hreports
    have hnone : ∀ s, ¬ Carries (Text.trim text) s := by
      intro s hs
      cases hw.symm.trans ((errorText?_ofText status text).mpr hs)
    exact {
      carried := fun s hs => absurd hs (hnone s)
      silent := fun _ => hreports
      shown := hreports.shown fun he h₀ => by
        rw [h₀] at he
        exact absurd he (by decide)
      verbatim := fun s hs => absurd hs (hnone s) }

example : (ofText 409 " Reservation failed\n").failure = .refused 409 "Reservation failed" := by
  decide +kernel

end Response

end Larder
