import Larder.Proofs.Scripts
import Larder.Proofs.Waiting

namespace Larder

open Polling (WatchEnd)

namespace Fridge

/-- Waiting gives the outcome that the order has then. -/
theorem waitForCompletion_outcome {f f' : Fridge} {o : OrderOutcome}
    (h : waitForCompletion.run f = (.done (.settled o), f')) : f'.order.outcome? = some o := by
  rcases waitForCompletion_cases h with ⟨o', ho, he, rfl⟩ | ⟨_, polls, hr⟩
  · cases he
    exact ho
  · exact hr.outcome rfl

/-- A poll that moves an order keeps its ticket. -/
theorem poll_ticket {f f' : Fridge} {e : Ended Unit} (h : poll.forget.run f = (e, f')) :
    f'.order.ticket? = f.order.ticket? := by
  rcases poll_moves.forget.order h with hs | ⟨_, record, happly⟩
  · rw [hs]
  · obtain ⟨t, ho, hpolled⟩ := Order.applyPoll_cases happly
    rw [hpolled.ticket]
    rcases ho with ho | ⟨status, ho⟩ <;> rw [ho] <;> rfl

theorem waitForCompletion_ticket {f f' : Fridge} {e : Ended (WatchEnd OrderOutcome)}
    (h : waitForCompletion.run f = (e, f')) : f'.order.ticket? = f.order.ticket? := by
  rcases waitForCompletion_cases h with ⟨_, _, _, rfl⟩ | ⟨_, polls, hr⟩
  · rfl
  · refine hr.preserves (P := fun g => g.order.ticket? = f.order.ticket?) (fun _ _ hg => hg) ?_ rfl
    intro p hp hg
    exact (poll_ticket hp.ran).trans hg

theorem confirm_ticket {f f' : Fridge} {e : Ended Unit} (h : confirm.run f = (e, f')) :
    f'.order.ticket? = f.order.ticket? := by
  rcases confirm_moves.order h with hs | ⟨_, hstep⟩
  · rw [hs]
  · obtain ⟨t, ho, ho'⟩ := Order.confirm_cases hstep
    rw [ho, ho']
    rfl

/-- A settled order can be acknowledged, and then there is none. -/
theorem acknowledge_settled {f : Fridge} {o : OrderOutcome} (h : f.order.outcome? = some o) :
    acknowledge.run f = (.done o, { f with order := .idle }) := by
  have hs : f.order.acknowledge = (.ok o, .idle) := by
    unfold Order.acknowledge
    rw [h]
  exact advance_ok hs

/-- The id of a failed outcome is that of the order. -/
theorem outcome_failed {o : Order} {orderId status : String}
    (h : o.outcome? = some (.failed orderId status)) : o.orderId? = some orderId := by
  cases o with
  | failed t s =>
    cases h
    rfl
  | _ => cases h

end Fridge

namespace Command

variable {settings : Settings} {site : Site}

/-- The fridge that a task starts with. -/
def Site.fridge (settings : Settings) (site : Site) : Fridge :=
  .new settings (.ofDirectory (.ofText site.workingDirectory settings.cacheDirectory))
    site.disk site.line

/-- The supplier that a task starts with. -/
def Site.supplier (settings : Settings) (site : Site) : Supplier := .new settings site.line

theorem Report.exitCode_eq_zero {r : Report} : r.exitCode = 0 ↔ r.result = .ok () := by
  unfold Report.exitCode
  cases r.result with
  | ok u => simp
  | error h => simp

section RunFridge

variable (script : Script Fridge Unit)

theorem runFridge_result : (runFridge settings site script).result =
    (script.run ⟨site.fridge settings, []⟩).1 := rfl

theorem runFridge_sent : (runFridge settings site script).sent =
    (script.run ⟨site.fridge settings, []⟩).2.state.line.sent := rfl

end RunFridge

theorem runFridge_exitCode (script : Script Fridge Unit) :
    (runFridge settings site script).exitCode = 0 ↔
      script.Completes ⟨site.fridge settings, []⟩ := Report.exitCode_eq_zero

theorem runSupplier_exitCode (script : Script Supplier Unit) :
    (runSupplier settings site script).exitCode = 0 ↔
      script.Completes ⟨site.supplier settings, []⟩ := Report.exitCode_eq_zero

section Order

variable {items : List Wire.OrderLine} {cancel : Bool} {c : Console Fridge}

theorem tellOutcome_completes (orderId : String) (o : OrderOutcome) :
    (tellOutcome orderId o).Completes c ↔ ∀ id status, o ≠ .failed id status := by
  cases o with
  | completed t total => simp [tellOutcome]
  | failed id status => simp [tellOutcome]
  | cancelled id => simp [tellOutcome]

/-- Following an order succeeds when it is confirmed and the wait does not find that it failed. -/
theorem followOrder_completes (orderId : String) : (followOrder orderId).Completes c ↔
    ∃ f w f', Fridge.confirm.run c.state = (.done (), f) ∧
      Fridge.waitForCompletion.run f = (.done w, f') ∧
      ∀ id status, w ≠ .settled (.failed id status) := by
  unfold followOrder
  simp only [Script.completes_call_bind, Script.completes_print_bind]
  constructor
  · rintro ⟨_, f, hconfirm, w, f', hwait, h⟩
    refine ⟨f, w, f', hconfirm, hwait, ?_⟩
    cases w with
    | settled o =>
      obtain ⟨o', f'', hack, h⟩ := Script.completes_call_bind.mp h
      rw [Fridge.acknowledge_settled (Fridge.waitForCompletion_outcome hwait)] at hack
      cases hack
      simpa using (tellOutcome_completes orderId o).mp h
    | timedOut n => simp
    | cancelled n => simp
  · rintro ⟨f, w, f', hconfirm, hwait, h⟩
    refine ⟨(), f, hconfirm, w, f', hwait, ?_⟩
    cases w with
    | settled o =>
      have hack := Fridge.acknowledge_settled (Fridge.waitForCompletion_outcome hwait)
      refine Script.completes_call_bind.mpr ⟨o, _, hack, (tellOutcome_completes orderId o).mpr ?_⟩
      simpa using h
    | timedOut n => simp
    | cancelled n => simp

/-- An order that has failed ends the script with its id and its status. -/
theorem followOrder_failed (orderId : String) {f f' : Fridge} {id status : String}
    (hconfirm : Fridge.confirm.run c.state = (.done (), f))
    (hwait : Fridge.waitForCompletion.run f = (.done (.settled (.failed id status)), f')) :
    ((followOrder orderId).run c).1 = .error (.told ("Order " ++ id ++ " failed: " ++ status)) := by
  have hack := Fridge.acknowledge_settled (Fridge.waitForCompletion_outcome hwait)
  let c₁ : Console Fridge := ⟨f, c.printed ++
    ["Order " ++ orderId ++ " confirmed, waiting for robots..."]⟩
  let c₂ : Console Fridge := { c₁ with state := f' }
  have hc₁ : (followOrder orderId).run c = (Script.call Fridge.waitForCompletion >>= _).run c₁ :=
    Script.bind_ok (Script.call_done hconfirm)
  have hc₂ : (Script.call Fridge.waitForCompletion).run c₁ = (.ok _, c₂) := Script.call_done hwait
  have hc₃ : (Script.call Fridge.acknowledge).run c₂ = (.ok _, _) := Script.call_done hack
  rw [hc₁, Script.bind_ok hc₂]
  dsimp only
  rw [Script.bind_ok hc₃]
  rfl

/-- A reservation is released, or it is confirmed and followed to an end that is no failure. -/
def DealtWith (cancel : Bool) (f : Fridge) : Prop :=
  if cancel = true then ∃ orderId f', Fridge.cancel.run f = (.done orderId, f')
  else ∃ f₁ w f₂, Fridge.confirm.run f = (.done (), f₁) ∧
    Fridge.waitForCompletion.run f₁ = (.done w, f₂) ∧
    ∀ orderId status, w ≠ .settled (.failed orderId status)

/-- What is done with a reservation. -/
def settleReserved (orderId : String) (cancel : Bool) : Script Fridge Unit :=
  if cancel then do
    let _ ← Script.call Fridge.cancel
    Script.print ("Reservation " ++ orderId ++ " released")
  else followOrder orderId

/-- Once the items are reserved, all that is left is to release them or to follow the order. -/
theorem orderItems_reserved (cancel : Bool) {f₀ f₁ : Fridge}
    (hrestore : Fridge.restore.run c.state = (.done true, f₀))
    (hpreview : (Fridge.preview items).run f₀ = (.done (), f₁)) : ∃ printed,
    (orderItems items cancel).run c =
      (settleReserved (f₁.order.orderId?.getD "") cancel).run ⟨f₁, printed⟩ := by
  have hrestored : restored.run c = (.ok (), { c with state := f₀ }) := by
    unfold restored
    rw [Script.bind_ok (Script.call_done hrestore)]
    rfl
  obtain ⟨printed, hprinted⟩ := printItems_run (f₁.order.items?.getD .empty).entries
    ⟨f₁, c.printed ++ ["Reserved order " ++ f₁.order.orderId?.getD "" ++ ":"]⟩
  refine ⟨printed, ?_⟩
  unfold orderItems
  rw [Script.bind_ok hrestored, Script.bind_ok (Script.call_done hpreview)]
  exact Script.bind_ok hprinted

theorem settleReserved_completes (orderId : String) :
    (settleReserved orderId cancel).Completes c ↔ DealtWith cancel c.state := by
  unfold settleReserved DealtWith
  cases cancel with
  | true => simp [Script.completes_call_bind]
  | false => simpa using followOrder_completes orderId

/-- Ordering succeeds when the session is restored, the items are reserved and the reservation is
dealt with. -/
theorem orderItems_completes : (orderItems items cancel).Completes c ↔
    ∃ f₀ f₁, Fridge.restore.run c.state = (.done true, f₀) ∧
      (Fridge.preview items).run f₀ = (.done (), f₁) ∧ DealtWith cancel f₁ := by
  have hreserved : ∀ {f₀ f₁}, Fridge.restore.run c.state = (.done true, f₀) →
      (Fridge.preview items).run f₀ = (.done (), f₁) →
      ((orderItems items cancel).Completes c ↔ DealtWith cancel f₁) := by
    intro f₀ f₁ hrestore hpreview
    obtain ⟨printed, hrun⟩ := orderItems_reserved cancel hrestore hpreview
    unfold Script.Completes
    rw [hrun]
    exact settleReserved_completes (f₁.order.orderId?.getD "")
  constructor
  · intro h
    obtain ⟨_, m, hm, hrest⟩ := Script.completes_bind.mp h
    rcases restored_cases hm with ⟨f₀, hrestore, _, rfl⟩ | ⟨_, _, _, _, ⟨_, hx⟩, _⟩
    · obtain ⟨_, f₁, hpreview, _⟩ := Script.completes_call_bind.mp hrest
      exact ⟨f₀, f₁, hrestore, hpreview, (hreserved hrestore hpreview).mp h⟩
    · cases hx
  · rintro ⟨f₀, f₁, hrestore, hpreview, h⟩
    exact (hreserved hrestore hpreview).mpr h

/-- An order that is released is neither confirmed nor asked for. -/
def SparesOrder (r : Request) : Prop := r.path ≠ Fridge.confirmPath ∧ r.path ≠ Fridge.lastOrderPath

section Leaves

variable {P : Request → Prop}

theorem restored_leaves (hP : ∀ token, P (Account.refreshRequest token)) :
    restored.Leaves (Fridge.Conducts P) := by
  refine .bind Fridge.conducts_trail (.call (Fridge.restore_leaves hP)) fun b => ?_
  cases b with
  | true => exact .pure Fridge.conducts_trail ()
  | false => exact .stop Fridge.conducts_trail _

theorem printItems_leaves (items : List (String × UInt32)) :
    (printItems items).Leaves (Fridge.Conducts P) :=
  .of_printed Fridge.conducts_trail (printItems_run items)

/-- Reserve items, then release them again or follow the order. -/
def reserveItems (items : List Wire.OrderLine) (cancel : Bool) : Script Fridge Unit := do
  Script.call (Fridge.preview items)
  let order ← Script.view Fridge.order
  let orderId := order.orderId?.getD ""
  Script.print ("Reserved order " ++ orderId ++ ":")
  printItems (order.items?.getD .empty).entries
  settleReserved orderId cancel

theorem orderItems_eq (items : List Wire.OrderLine) (cancel : Bool) :
    orderItems items cancel = restored >>= fun _ => reserveItems items cancel := rfl

theorem reserveItems_leaves (hP : ∀ token, P (Account.refreshRequest token))
    (hr : ∀ body token, P (((Request.post Fridge.previewPath).withBody body).withBearer token))
    (hs : ∀ orderId, (settleReserved orderId cancel).Leaves (Fridge.Conducts P)) :
    (reserveItems items cancel).Leaves (Fridge.Conducts P) := by
  have htrail := Fridge.conducts_trail (P := P)
  refine .bind htrail (.call (Fridge.preview_leaves hP hr)) fun _ => ?_
  refine .bind htrail (.view htrail _) fun order => ?_
  refine .bind htrail (.print htrail _) fun _ => ?_
  exact .bind htrail (printItems_leaves _) fun _ => hs _

/-- Releasing a reservation sends renewals and the order's id to one path. -/
theorem settleReserved_leaves (hP : ∀ token, P (Account.refreshRequest token))
    (hr : ∀ body token, P (((Request.post Fridge.cancelPath).withBody body).withBearer token))
    (orderId : String) : (settleReserved orderId true).Leaves (Fridge.Conducts P) := by
  have hcancel : Fridge.cancel.Leaves (Fridge.Conducts P) := by
    rw [Fridge.cancel_eq]
    exact Fridge.reservedErrand_leaves hP hr
  exact .bind Fridge.conducts_trail (.call hcancel) fun _ => .print Fridge.conducts_trail _

/-- Following an order sends renewals, the order's id to one path, and polls. -/
theorem followOrder_leaves (hP : ∀ token, P (Account.refreshRequest token))
    (hr : ∀ body token, P (((Request.post Fridge.confirmPath).withBody body).withBearer token))
    (hp : ∀ token, P ((Request.get Fridge.lastOrderPath).withBearer token)) (orderId : String) :
    (followOrder orderId).Leaves (Fridge.Conducts P) := by
  have htrail := Fridge.conducts_trail (P := P)
  have hconfirm : Fridge.confirm.Leaves (Fridge.Conducts P) := by
    rw [Fridge.confirm_eq]
    exact Fridge.reservedErrand_leaves hP hr
  refine .bind htrail (.call hconfirm) fun _ => ?_
  refine .bind htrail (.print htrail _) fun _ => ?_
  refine .bind htrail (.call (Fridge.waitForCompletion_leaves hP hp)) fun w => ?_
  cases w with
  | settled o =>
    refine .bind htrail (.call (Fridge.advance_leaves _)) fun o' => ?_
    cases o' with
    | completed t total => exact .print htrail _
    | failed id status => exact .stop htrail _
    | cancelled id => exact .print htrail _
  | timedOut n => exact .bind htrail (.print htrail _) fun _ => .print htrail _
  | cancelled n => exact .print htrail _

theorem orderItems_spares : (orderItems items true).Leaves (Fridge.Conducts SparesOrder) := by
  have hrefresh : ∀ token, SparesOrder (Account.refreshRequest token) := by
    intro token
    change Account.refreshPath ≠ Fridge.confirmPath ∧ Account.refreshPath ≠ Fridge.lastOrderPath
    decide
  have hpreview : ∀ body token, SparesOrder
      (((Request.post Fridge.previewPath).withBody body).withBearer token) := by
    intro body token
    change Fridge.previewPath ≠ Fridge.confirmPath ∧ Fridge.previewPath ≠ Fridge.lastOrderPath
    decide
  have hcancel : ∀ body token, SparesOrder
      (((Request.post Fridge.cancelPath).withBody body).withBearer token) := by
    intro body token
    change Fridge.cancelPath ≠ Fridge.confirmPath ∧ Fridge.cancelPath ≠ Fridge.lastOrderPath
    decide
  rw [orderItems_eq]
  refine .bind Fridge.conducts_trail (restored_leaves hrefresh) fun _ => ?_
  exact reserveItems_leaves hrefresh hpreview (settleReserved_leaves hrefresh hcancel)

end Leaves

end Order

/-- Restocking succeeds when the batch is taken on and the wait does not find that it failed. -/
theorem restockBatch_completes {b : Batch} {c : Console Supplier} :
    (restockBatch b).Completes c ↔
    ∃ orderId s w s', (Supplier.submit b).run c.state = (.done orderId, s) ∧
      Supplier.waitForCompletion.run s = (.done w, s') ∧
      ∀ id status, w ≠ .settled (.failed id status) := by
  unfold restockBatch
  simp only [Script.completes_call_bind, Script.completes_print_bind]
  constructor
  · rintro ⟨orderId, s, hsubmit, w, s', hwait, h⟩
    refine ⟨orderId, s, w, s', hsubmit, hwait, ?_⟩
    rcases w with (⟨_, total⟩ | ⟨_, status⟩) | n | n
    · simp
    · exact absurd h (Script.not_completes_stop _)
    · simp
    · simp
  · rintro ⟨orderId, s, w, s', hsubmit, hwait, hw⟩
    refine ⟨orderId, s, hsubmit, w, s', hwait, ?_⟩
    rcases w with (⟨_, total⟩ | ⟨id, status⟩) | n | n
    · simp
    · exact absurd rfl (hw id status)
    · simp
    · simp

theorem runTask_restock (file : String) : runTask settings site (.restock file) =
    match loadBatch site file with
    | .ok b => runSupplier settings site (restockBatch b)
    | .error m => ⟨[], .error (.told m), [], site.disk, site.line.now⟩ := rfl

/-- How ordering ends. -/
structure OrderEnds (settings : Settings) (site : Site) (items : List Wire.OrderLine)
    (cancel : Bool) : Prop where
  exitCode : (runTask settings site (.order items cancel)).exitCode = 0 ↔
    ∃ f₀ f₁, Fridge.restore.run (site.fridge settings) = (.done true, f₀) ∧
      (Fridge.preview items).run f₀ = (.done (), f₁) ∧ DealtWith cancel f₁
  /-- An order that is released is neither confirmed nor asked for. -/
  released : cancel = true → ∃ rs, (runTask settings site (.order items cancel)).sent =
    site.line.sent ++ rs ∧ ∀ r ∈ rs, SparesOrder r
  /-- A failed order ends the task with a message that names it and its status. -/
  failed : ∀ f₀ f₁ f₂ f₃ orderId status, cancel = false →
    Fridge.restore.run (site.fridge settings) = (.done true, f₀) →
    (Fridge.preview items).run f₀ = (.done (), f₁) →
    Fridge.confirm.run f₁ = (.done (), f₂) →
    Fridge.waitForCompletion.run f₂ = (.done (.settled (.failed orderId status)), f₃) →
    f₁.order.orderId? = some orderId ∧
    (runTask settings site (.order items cancel)).exitCode = 1 ∧
    (runTask settings site (.order items cancel)).complaint? =
      some ("Error: Order " ++ orderId ++ " failed: " ++ status)

theorem order_ends (settings : Settings) (site : Site) (items : List Wire.OrderLine)
    (cancel : Bool) : OrderEnds settings site items cancel := by
  have htask : runTask settings site (.order items cancel) =
      runFridge settings site (orderItems items cancel) := rfl
  constructor
  · rw [htask]
    exact (runFridge_exitCode _).trans orderItems_completes
  · rintro rfl
    rw [htask, runFridge_sent]
    generalize hrun : (orderItems items true).run ⟨site.fridge settings, []⟩ = p
    obtain ⟨xs, hxs⟩ := orderItems_spares _ p.1 p.2 hrun
    refine ⟨xs.map Exchange.request, hxs.conducted.sent_eq, ?_⟩
    intro r hr
    obtain ⟨x, hx, rfl⟩ := List.mem_map.mp hr
    exact hxs.requests x hx
  · rintro f₀ f₁ f₂ f₃ orderId status rfl hrestore hpreview hconfirm hwait
    obtain ⟨printed, hrun⟩ := orderItems_reserved false
      (c := ⟨site.fridge settings, []⟩) hrestore hpreview
    have hresult : (runTask settings site (.order items false)).result =
        .error (.told ("Order " ++ orderId ++ " failed: " ++ status)) := by
      rw [htask, runFridge_result, hrun]
      exact followOrder_failed _ hconfirm hwait
    have hticket : f₃.order.ticket? = f₁.order.ticket? :=
      (Fridge.waitForCompletion_ticket hwait).trans (Fridge.confirm_ticket hconfirm)
    refine ⟨?_, ?_, ?_⟩
    · rw [Order.orderId?, ← hticket]
      exact Fridge.outcome_failed (Fridge.waitForCompletion_outcome hwait)
    · simp only [Report.exitCode, hresult]
    · have hjoin : "Error: " ++ "Order " = "Error: Order " := rfl
      simp only [Report.complaint?, hresult, ← String.append_assoc, hjoin]

/-- Ordering and restocking exit with zero just when all that they are for has come off, and an
order that has failed is told. -/
theorem order_and_restock_exit (settings : Settings) (site : Site) :
    (∀ items cancel, OrderEnds settings site items cancel) ∧
    (∀ f f' o, Fridge.waitForCompletion.run f = (.done (.settled o), f') →
      Fridge.acknowledge.run f' = (.done o, { f' with order := .idle })) ∧
    ∀ file, (runTask settings site (.restock file)).exitCode = 0 ↔
      ∃ b orderId s w s', loadBatch site file = .ok b ∧
        (Supplier.submit b).run (site.supplier settings) = (.done orderId, s) ∧
        Supplier.waitForCompletion.run s = (.done w, s') ∧
        ∀ id status, w ≠ .settled (.failed id status) := by
  refine ⟨order_ends settings site, ?_, ?_⟩
  · intro f f' o h
    exact Fridge.acknowledge_settled (Fridge.waitForCompletion_outcome h)
  · intro file
    cases hb : loadBatch site file with
    | error m =>
      rw [runTask_restock, hb]
      constructor
      · intro h
        cases h
      · rintro ⟨b, _, _, _, _, hb', _⟩
        cases hb'
    | ok b =>
      rw [runTask_restock, hb]
      refine ((runSupplier_exitCode _).trans restockBatch_completes).trans ?_
      constructor
      · rintro ⟨orderId, s, w, s', hsubmit, hwait, hw⟩
        exact ⟨b, orderId, s, w, s', rfl, hsubmit, hwait, hw⟩
      · rintro ⟨_, orderId, s, w, s', hb', hsubmit, hwait, hw⟩
        cases hb'
        exact ⟨orderId, s, w, s', hsubmit, hwait, hw⟩

/-- A device that is logged in, and a service that takes its order on and lets it fail. -/
def failingSite : Site where
  disk := ⟨[([".grocery"], .directory), ([".grocery", "session.json"],
    .file (some (Storage.Credential.mk "f1" "r1").fileText))]⟩
  workingDirectory := []
  line := { replies := [⟨⟨200, .object [("access_token", .text "a1")]⟩, 0, false⟩,
    ⟨⟨201, .object [("order_id", .text "o1")]⟩, 0, false⟩, ⟨⟨200, .object []⟩, 0, false⟩,
    ⟨⟨200, .object [("data", .object [("order_id", .text "o1"), ("status", .text "FAILED")])]⟩,
      0, false⟩] }

/-- The order there is restored for, reserved, confirmed and found to have failed. -/
theorem order_and_restock_exit_failing :
    (runTask .default failingSite (.order [⟨"MILK-1", 2⟩] false)).exitCode = 1 ∧
    (runTask .default failingSite (.order [⟨"MILK-1", 2⟩] false)).complaint? =
      some "Error: Order o1 failed: FAILED" := by
  have hran : ∀ {α : Type} {c : Call Fridge α} {f : Fridge} {e : Ended α},
      (c.run f).1 = e → c.run f = (e, (c.run f).2) := fun h => Prod.ext h rfl
  have hends := (order_and_restock_exit .default failingSite).1 [⟨"MILK-1", 2⟩] false
  have hfailed := hends.failed _ _ _ _ "o1" "FAILED" rfl (hran (by decide +kernel))
    (hran (by decide +kernel)) (hran (by decide +kernel)) (hran (by decide +kernel))
  exact hfailed.2

end Command

end Larder
