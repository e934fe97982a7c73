import Larder.Proofs.PairedCalls
import Larder.Proofs.Renewals
import Larder.Wire.Envelope
import Larder.Wire.Order
import Mathlib.Data.List.Forall2

namespace Larder

namespace Json

/-- The key under which a body carries an access token. -/
def tokenKey : String := "access_token"

/-- The member is the same, or it is an access token in both objects. -/
inductive AlikeMember : String × Value → String × Value → Prop where
  | same (m : String × Value) : AlikeMember m m
  | token {s t : String} (hs : s ≠ "") (ht : t ≠ "") :
      AlikeMember (tokenKey, .text s) (tokenKey, .text t)

/-- The value is the same but for access tokens that an object has as its members. -/
inductive Value.Alike : Value → Value → Prop where
  | same (v : Value) : Alike v v
  | object {ms ns : List (String × Value)} (h : List.Forall₂ AlikeMember ms ns) :
      Alike (.object ms) (.object ns)

/-- The same for what a record has got. -/
inductive AlikeContent : String × Node → String × Node → Prop where
  | same (p : String × Node) : AlikeContent p p
  | token {s t : String} (hs : s ≠ "") (ht : t ≠ "") :
      AlikeContent (tokenKey, .text (.ofValue s)) (tokenKey, .text (.ofValue t))

/-- A record knows access tokens by their key, if it knows them at all, and takes any text for
one. -/
def TakesTokens (slots : List Slot) : Prop :=
  ∀ s ∈ slots, s.hasName tokenKey = true →
    s.name = tokenKey ∧ ∀ t, s.check .value (.text (.ofValue t)) = .ok ()

/-- A record that has no field for an access token. -/
def PassesTokens (slots : List Slot) : Prop := ∀ s ∈ slots, s.hasName tokenKey = false

instance (slots : List Slot) : Decidable (PassesTokens slots) :=
  inferInstanceAs (Decidable (∀ s ∈ slots, s.hasName tokenKey = false))

theorem PassesTokens.takes {slots : List Slot} (h : PassesTokens slots) : TakesTokens slots := by
  intro s hs hn
  rw [h s hs] at hn
  cases hn

section Contents

variable {slots : List Slot} {ms ns : List (String × Value)} {c d : Contents}

/-- What alike contents have under a name is the same, or it is an access token in both. -/
theorem node?_cases (h : List.Forall₂ AlikeContent c d) (name : String) :
    c.node? name = d.node? name ∨ (name = tokenKey ∧ ∃ s t, s ≠ "" ∧ t ≠ "" ∧
      c.node? name = some (.text (.ofValue s)) ∧ d.node? name = some (.text (.ofValue t))) := by
  unfold Contents.node?
  induction h with
  | nil => exact Or.inl rfl
  | @cons p q c d hp _ ih =>
    cases hp with
    | same =>
      by_cases hn : p.1 = name
      · simp [hn]
      · simpa [List.find?_cons, hn] using ih
    | @token s t hs ht =>
      by_cases hn : tokenKey = name
      · exact Or.inr ⟨hn.symm, s, t, hs, ht, by simp [hn], by simp [hn]⟩
      · simpa [List.find?_cons, hn] using ih

theorem node?_eq (h : List.Forall₂ AlikeContent c d) {name : String} (hn : name ≠ tokenKey) :
    c.node? name = d.node? name :=
  (node?_cases h name).resolve_right fun hr => hn hr.1

theorem node?_isSome (h : List.Forall₂ AlikeContent c d) (name : String) :
    (c.node? name).isSome = (d.node? name).isSome := by
  rcases node?_cases h name with he | ⟨_, s, t, _, _, hc, hd⟩
  · rw [he]
  · rw [hc, hd]
    rfl

theorem firstMissing?_eq (h : List.Forall₂ AlikeContent c d) :
    c.firstMissing? slots = d.firstMissing? slots := by
  have hnone : ∀ name, (c.node? name).isNone = (d.node? name).isNone := by
    intro name
    have hsome := node?_isSome h name
    cases hc : c.node? name <;> cases hd : d.node? name <;> simp_all
  unfold Contents.firstMissing?
  simp only [hnone]

theorem ofMembers_cons (key : String) (v : Value) (ms : List (String × Value)) (c : Contents) :
    Contents.ofMembers slots .value (Node.ofMembers ((key, v) :: ms)) c =
      (match slots.find? (·.hasName key) with
      | none => do
        (Node.ofValue v).pass
        Contents.ofMembers slots .value (Node.ofMembers ms) c
      | some s => do
        if (c.node? s.name).isSome then throw (.duplicate s.name)
        s.check .value (.ofValue v)
        Contents.ofMembers slots .value (Node.ofMembers ms) (c ++ [(s.name, .ofValue v)])) :=
  rfl

/-- Taking alike members in turn meets the same fault, or gives alike contents. -/
theorem ofMembers_agree (hslots : TakesTokens slots) (hm : List.Forall₂ AlikeMember ms ns)
    (hc : List.Forall₂ AlikeContent c d) : Agree (List.Forall₂ AlikeContent)
      (Contents.ofMembers slots .value (Node.ofMembers ms) c)
      (Contents.ofMembers slots .value (Node.ofMembers ns) d) := by
  induction hm generalizing c d with
  | nil => exact .ok hc
  | @cons m n ms ns hmn _ ih =>
    cases hmn with
    | same =>
      obtain ⟨key, v⟩ := m
      rw [ofMembers_cons, ofMembers_cons]
      cases slots.find? (·.hasName key) with
      | none => exact Agree.bind (.of_eq rfl) fun _ _ _ => ih hc
      | some s =>
        dsimp only
        rw [node?_isSome hc s.name]
        split
        · exact .error _
        · exact Agree.bind (.of_eq rfl) fun _ _ _ =>
            ih (List.rel_append hc (.cons (.same _) .nil))
    | @token s t hs ht =>
      rw [ofMembers_cons, ofMembers_cons]
      cases hfind : slots.find? (·.hasName tokenKey) with
      | none => exact ih hc
      | some slot =>
        have hkey : slot.hasName tokenKey = true := by simpa using List.find?_some hfind
        obtain ⟨hname, hcheck⟩ := hslots slot (List.mem_of_find?_eq_some hfind) hkey
        dsimp only
        rw [node?_isSome hc slot.name]
        split
        · exact .error _
        · simp only [Node.ofValue, hcheck, hname]
          exact ih (List.rel_append hc (.cons (.token hs ht) .nil))

end Contents

section Record

variable {α : Type} {name : String} {slots : List Slot} {build : Fields → Except Fault α}
  {R : α → α → Prop} {v w : Value}

theorem get_eq {c d : Contents} (h : List.Forall₂ AlikeContent c d) {β : Type}
    {f : RecordField β} (hf : f.name ≠ tokenKey) :
    Fields.get ⟨.value, c, false⟩ f = Fields.get ⟨.value, d, false⟩ f := by
  simp only [Fields.get, node?_eq h hf]

/-- Of alike objects a record makes the same fault, or what it makes of alike contents. -/
theorem record_agree (hslots : TakesTokens slots) (hR : ∀ a, R a a)
    (hbuild : ∀ c d, List.Forall₂ AlikeContent c d →
      Agree R (build ⟨.value, c, false⟩) (build ⟨.value, d, false⟩))
    (h : v.Alike w) :
    Agree R ((record name slots build).ofValue v) ((record name slots build).ofValue w) := by
  cases h with
  | same =>
    refine Agree.mono ?_ (.of_eq rfl)
    rintro a _ rfl
    exact hR a
  | @object ms ns hm =>
    unfold Decoder.ofValue record Node.ofValue
    refine (ofMembers_agree hslots hm .nil).bind ?_
    intro c d hcd
    rw [firstMissing?_eq hcd]
    refine Agree.bind (.of_eq rfl) fun _ _ _ => ?_
    refine Agree.bind (.of_eq rfl) fun _ _ _ => ?_
    exact hbuild c d hcd

/-- The decoder makes nothing of access tokens. -/
def IsBlind (d : Decoder α) : Prop := ∀ v w, Value.Alike v w → d.ofValue v = d.ofValue w

theorem record_blind (hslots : PassesTokens slots)
    (hbuild : ∀ c d, List.Forall₂ AlikeContent c d →
      build ⟨.value, c, false⟩ = build ⟨.value, d, false⟩) :
    IsBlind (record name slots build) := by
  intro v w h
  exact (record_agree hslots.takes (fun _ => rfl) (fun c d hcd => .of_eq (hbuild c d hcd)) h).eq

/-- Where one object has an access token that is not empty, so has the other. -/
theorem get_token {c d : Contents} (h : List.Forall₂ AlikeContent c d) {f : RecordField String}
    (hf : f.decode = Decode.text) : Agree (fun s t => s.isEmpty = t.isEmpty)
      (Fields.get ⟨.value, c, false⟩ f) (Fields.get ⟨.value, d, false⟩ f) := by
  rcases node?_cases h f.name with he | ⟨_, s, t, hs, ht, hc, hd⟩
  · simp only [Fields.get, he]
    exact (Agree.of_eq rfl).mono fun _ _ hst => congrArg String.isEmpty hst
  · simp only [Fields.get, hc, hd, hf]
    have hempty : s.isEmpty = t.isEmpty :=
      (String.isEmpty_eq_false_iff.mpr hs).trans (String.isEmpty_eq_false_iff.mpr ht).symm
    exact Agree.ok hempty

theorem member?_eq (h : v.Alike w) {key : String} (hk : key ≠ tokenKey) :
    v.member? key = w.member? key := by
  cases h with
  | same => rfl
  | object hm =>
    simp only [Value.member?]
    induction hm with
    | nil => rfl
    | @cons m n ms ns hmn _ ih =>
      cases hmn with
      | same =>
        by_cases hn : m.1 = key
        · simp [hn]
        · simpa [List.find?_cons, hn] using ih
      | token => simpa [List.find?_cons, hk.symm] using ih

end Record

end Json

namespace Wire

open Json (PassesTokens TakesTokens IsBlind get_eq get_token record_agree record_blind)

theorem preview_blind : IsBlind Preview.decode := by
  apply record_blind (by decide)
  intro c d h
  rw [get_eq h (f := Preview.orderIdField) (by decide),
    get_eq h (f := Preview.itemsField) (by decide), get_eq h (f := Preview.statusField) (by decide),
    get_eq h (f := Preview.messageField) (by decide)]

theorem envelope_blind {α : Type} (d : Json.Decoder α) : IsBlind (Envelope.decode d) := by
  have hslots : PassesTokens
      [Envelope.statusField.slot, Envelope.messageField.slot, (Envelope.dataField d).slot] := by
    intro s hs
    simp only [List.mem_cons, List.not_mem_nil, or_false] at hs
    rcases hs with rfl | rfl | rfl <;> rfl
  apply record_blind hslots
  intro c e h
  rw [get_eq h (f := Envelope.statusField) (by decide),
    get_eq h (f := Envelope.messageField) (by decide),
    get_eq h (f := Envelope.dataField d) (show ¬ "data" = Json.tokenKey by decide)]

theorem tokens_agree {v w : Json.Value} (h : v.Alike w) :
    Agree (fun s t => s.refresh = t.refresh ∧ s.access.isEmpty = t.access.isEmpty)
      (Tokens.decode.ofValue v) (Tokens.decode.ofValue w) := by
  have hslots : TakesTokens [Tokens.accessField.slot, Tokens.refreshField.slot] := by
    intro s hs hn
    simp only [List.mem_cons, List.not_mem_nil, or_false] at hs
    rcases hs with rfl | rfl
    · exact ⟨rfl, fun _ => rfl⟩
    · exact absurd hn (by decide)
  refine record_agree hslots (fun _ => ⟨rfl, rfl⟩) ?_ h
  intro c d hcd
  rw [get_eq hcd (f := Tokens.refreshField) (by decide)]
  refine (get_token hcd rfl).bind fun s t hst => ?_
  refine Agree.bind (.of_eq rfl) ?_
  rintro r _ rfl
  exact .ok ⟨rfl, hst⟩

theorem freshToken_agree {v w : Json.Value} (h : v.Alike w) :
    Agree (fun s t => s.access.isEmpty = t.access.isEmpty)
      (FreshToken.decode.ofValue v) (FreshToken.decode.ofValue w) := by
  have hslots : TakesTokens [FreshToken.accessField.slot] := by
    intro s hs _
    rw [List.mem_singleton.mp hs]
    exact ⟨rfl, fun _ => rfl⟩
  refine record_agree hslots (fun _ => rfl) ?_ h
  intro c d hcd
  exact (get_token hcd rfl).bind fun s t hst => .ok hst

end Wire

/-- The responses are the same but for access tokens in their bodies. -/
structure Response.Alike (x y : Response) : Prop where
  status : x.status = y.status
  body : x.body.Alike y.body

namespace Response

variable {x y : Response}

theorem Alike.refl (x : Response) : x.Alike x := ⟨rfl, .same _⟩

theorem Alike.isSuccess (h : x.Alike y) : x.isSuccess = y.isSuccess := by
  simp only [Response.isSuccess, h.status]

theorem Alike.isUnauthorized (h : x.Alike y) : x.isUnauthorized = y.isUnauthorized := by
  simp only [Response.isUnauthorized, h.status]

/-- Errors are told under other keys than access tokens. -/
theorem Alike.errorText? (h : x.Alike y) : x.errorText? = y.errorText? := by
  obtain ⟨status, body⟩ := x
  obtain ⟨status', body'⟩ := y
  have hbody : body.Alike body' := h.body
  have herror := Json.member?_eq hbody (show ¬ "error" = Json.tokenKey by decide)
  have hmessage := Json.member?_eq hbody (show ¬ "message" = Json.tokenKey by decide)
  cases hbody with
  | same => rfl
  | object => simp only [Response.errorText?, memberText?, herror, hmessage]

theorem Alike.failure (h : x.Alike y) : x.failure = y.failure := by
  simp only [Response.failure, h.status, h.errorText?]

theorem Alike.success (h : x.Alike y) : Agree Alike x.success y.success := by
  unfold Response.success
  rw [h.isSuccess, h.failure]
  split
  · exact .ok h
  · exact .error _

theorem Alike.content {α : Type} {d : Json.Decoder α} {R : α → α → Prop} (h : x.Alike y)
    (hd : ∀ {v w : Json.Value}, v.Alike w → Agree R (d.ofValue v) (d.ofValue w)) :
    Agree R (x.content d) (y.content d) :=
  h.success.bind fun _ _ hxy => (hd hxy.body).mapError _

theorem Alike.content_eq {α : Type} {d : Json.Decoder α} (h : x.Alike y) (hd : Json.IsBlind d) :
    x.content d = y.content d :=
  (h.content fun hvw => .of_eq (hd _ _ hvw)).eq

end Response

end Larder
