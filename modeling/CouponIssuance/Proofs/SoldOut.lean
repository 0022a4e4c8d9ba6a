import CouponIssuance.Proofs.Service.Admission
import CouponIssuance.Proofs.Service.Follow
import CouponIssuance.Proofs.Service.Outcome
import CouponIssuance.Proofs.Service.Serving
/-!
# Sold out until the next reset

A unit goes back only in the turn that took it, so once nothing remains of a campaign, nothing
remains until its stock is reset, and nobody wins. That is why a request may be turned away at the
door: it would have ended the same way in the queue.
-/
namespace CouponIssuance

namespace Service

variable {s s' : Service} {e : Event} {requests : List RequestId} {coupons : List CouponId}
  {o : RequesterId} {c : CampaignId} {r : IssuanceRequest} {minted : Except Refusal CouponId}
  {stores : Stores} {resolution : Resolution}

theorem Effect.exhausted (h : Effect s e s') (hs : s.stores.Stocked) (hreset : s.reset? e ≠ some c)
    (h0 : s.stores.ledger.peek c = some 0) : s'.stores.ledger.peek c = some 0 := by
  obtain ⟨stock, hstock, hnone⟩ := Option.map_eq_some_iff.1 h0
  rcases h.stock_cases hs hreset hstock with hkept | ⟨hleft, -⟩
  · rw [Ledger.peek, hkept]
    exact congrArg some hnone
  · exact absurd hnone hleft

private theorem Effect.held_of_exhausted (h : Effect s e s') (hb : s.stores.coupons.Sound)
    (h0 : s.stores.ledger.peek c = some 0) {id : CouponId} {k : Coupon}
    (hk : s'.stores.coupons.coupons.get? id = some k) (hc : k.campaign = c) :
    ∃ k', s.stores.coupons.coupons.get? id = some k' ∧ k.Alike k' := by
  cases h with
  | nothing _ _ hbook => rw [hbook] at hk; exact ⟨k, hk, .refl k⟩
  | reset _ _ hbook => rw [hbook] at hk; exact ⟨k, hk, .refl k⟩
  | registered _ _ hbook => rw [hbook] at hk; exact ⟨k, hk, .refl k⟩
  | redeemed _ _ hbook _ _ hheld => rw [hbook] at hk; exact hb.get?_of_spend hheld hk
  | awarded _ _ hbook _ _ _ _ hstock hleft =>
    rw [hbook, award, CouponBook.get?_enter] at hk
    split at hk
    · cases hk
      subst hc
      -- whoever wins takes a unit, and there is none
      exact absurd (Ledger.remaining_of_peek h0 hstock) hleft
    · exact ⟨k, hk, .refl k⟩

private theorem Outcome.lost_of_exhausted (h : s.Outcome r minted stores resolution)
    (h0 : s.stores.ledger.peek r.campaign = some 0) : resolution.state ≠ .issued := by
  intro hissued
  rcases h.cases with ⟨-, hlost⟩ | ⟨stock, won, hstock, hleft, -⟩
  · cases resolution with
    | issued won => exact hlost won rfl
    | soldOut => cases hissued
    | failed reason => cases hissued
  · exact hleft (Ledger.remaining_of_peek h0 hstock)

private theorem Move.issued_of_exhausted (hmove : Move s e s') (h0 : s.stores.ledger.peek c = some 0)
    {id : RequestId} {held : StatusEntry} (hheld : s'.stores.status.held? id = some held)
    (hissued : held.record.state = .issued) (hc : held.record.campaign = c) :
    s.stores.status.held? id = some held := by
  cases hmove.origin hheld with
  | kept hkept => exact hkept
  | turnedAway _ _ _ hentry => subst hentry; cases hissued
  | queued _ _ hentry => subst hentry; cases hissued
  | ended _ _ houtcome hentry =>
    subst hentry
    rw [StatusRecord.resolved_state] at hissued
    rw [StatusRecord.resolved_campaign] at hc
    subst hc
    exact absurd hissued (houtcome.lost_of_exhausted h0)

private theorem Sound.follow_exhausted {events : List Event} (h : s.Sound requests coupons)
    (hfresh : Fresh requests coupons events)
    (hreset : ∀ i e, events[i]? = some e → (s.follow (events.take i)).reset? e ≠ some c)
    (h0 : s.stores.ledger.peek c = some 0) : (s.follow events).stores.ledger.peek c = some 0 := by
  induction events generalizing s requests coupons with
  | nil => exact h0
  | cons e events ih =>
    obtain ⟨hmove, hnext⟩ := h.step hfresh
    have heffect := h.effect hmove fun _ => hfresh.coupon
    have hfirst : s.reset? e ≠ some c := hreset 0 e rfl
    exact ih hnext hfresh.tail (fun i => hreset (i + 1)) (heffect.exhausted h.stocked hfirst h0)

private theorem exhausted_of_told {minted : Except Refusal RequestId} {t : Ticket}
    (htold : (s.issue o c minted).2 = .ok (.resolved t)) (hstate : t.state = .soldOut) :
    (s.issue o c minted).1.stores.ledger.peek c = some 0 := by
  have hspec := issue_spec s o c minted
  generalize s.issue o c minted = issued at hspec htold ⊢
  cases hspec with
  | answered hanswer =>
    subst htold
    have hissued := issued_of_answer hanswer
    rw [hstate] at hissued
    cases hissued
  | unnamed => cases htold
  | turnedAway _ h0 => exact h0
  | queued => cases htold
  | rejected => cases htold

private theorem Outcome.exhausted_of_lost (h : s.Outcome r minted stores resolution)
    (hs : s.stores.Stocked) (hlost : resolution.state = .soldOut) :
    stores.ledger.peek r.campaign = some 0 := by
  cases h with
  | abandoned => cases hlost
  | attempted _ ha =>
    cases ha with
    | closed => cases hlost
    | exhausted hactive hnone =>
      obtain ⟨hlisted, -⟩ := Stores.activeCampaign_eq_ok_iff.1 hactive
      obtain ⟨stock, hstock, -⟩ := hs.stocked hlisted
      rw [Ledger.peek, hstock]
      exact congrArg some (hnone stock hstock)
    | unrecorded => cases hlost
    | issued => cases hlost

/-- A new request that finds the campaign open, but nothing left of it. -/
structure TurnsAway (s : Service) (r : IssuanceRequest) : Prop where
  admits : s.Admits r.campaign
  unowned : s.stores.coupons.owned r.requester r.campaign = none
  unasked : s.liveRecord r.key = none
  exhausted : s.stores.ledger.peek r.campaign = some 0
  now : r.submittedAt = s.now

private theorem issue_of_turnsAway (h : s.TurnsAway r) : s.issue r.requester r.campaign (.ok r.id) =
    (s.keep (r.record.resolved .soldOut s.now), .ok (.resolved ⟨r.id, .soldOut, none⟩)) := by
  have hanswer := answer?_of_new h.admits h.unowned h.unasked
  simp only [issue, hanswer, takeIn, h.exhausted, if_true]
  rw [IssuanceRequest.record, h.now]

/-- The other way for such a request: it is queued, and after some more events a turn of a worker
takes it. Until then the stock has not been reset, and when it is taken the work goes on and the
campaign is open. -/
structure Detour (s : Service) (r : IssuanceRequest) (queued : Service) (events : List Event)
    (turn : Event) : Prop where
  submitted : (s.keep r.record).submit r = .ok queued
  unreset : ∀ i e, events[i]? = some e →
    (queued.follow (events.take i)).reset? e ≠ some r.campaign
  taken : (queued.follow events).takes turn = some r
  working : (queued.follow events).cancelled = false
  opened : ∃ campaign, (queued.follow events).campaign r.campaign = .ok campaign ∧
    campaign.window.isOpen (queued.follow events).now = true

/-- A request that would be turned away ends in the queue as it would have ended at the door. -/
private theorem Sound.status_of_detour (h : s.Sound requests coupons) (hnew : r.id ∉ requests)
    (haway : s.TurnsAway r) {queued : Service} {events : List Event} {turn : Event}
    (hdetour : s.Detour r queued events turn)
    (hfresh : Fresh (requests ++ [r.id]) coupons (events ++ [turn])) :
    ((queued.follow events).step turn).status r.id =
      .ok (r.record.resolved .soldOut (queued.follow events).now) := by
  have hanswer := answer?_of_new haway.admits haway.unowned haway.unasked
  obtain ⟨queue, hqueue, rfl⟩ := submit_eq_ok hdetour.submitted
  -- the service with the request in line is sound, though no run leads to it: it would not have been
  -- let in, but what is kept for it is what is kept for any request that waits
  have hqueued := h.enqueue (h.unknown hanswer hnew) haway.unowned hqueue
  obtain ⟨requests', coupons', hbefore, hturn⟩ := hqueued.follow hfresh
  have h0 := hqueued.follow_exhausted hfresh.init hdetour.unreset haway.exhausted
  obtain ⟨hmove, -⟩ := hbefore.step hturn
  obtain ⟨p, minted, stores, resolution, -, -, houtcome, hnext⟩ :=
    hmove.served_of_takes hdetour.taken
  obtain ⟨campaign, hlisted, hopen⟩ := hdetour.opened
  have hactive := Stores.activeCampaign_eq_ok_iff.2 ⟨campaign_eq_ok_iff.1 hlisted, hopen⟩
  obtain ⟨stock, hstock, hnone⟩ := Option.map_eq_some_iff.1 h0
  obtain ⟨rfl, -⟩ := houtcome.of_exhausted hdetour.working hactive hstock hnone
  rw [hnext]
  exact status_conclude ..

end Service

namespace Run

/-- After `n` events it is known that nothing remains of a campaign: the ledger says so, or who just
asked was told so, or a worker has just found so. -/
inductive SoldOut (run : Run) (c : CampaignId) : Nat → Prop
  | empty {n} (hpeek : (run.after n).stores.ledger.peek c = some 0) : SoldOut run c n
  | told {n o minted t} (hevent : run.events[n]? = some (.issue o c minted))
      (hanswer : ((run.after n).issue o c minted).2 = .ok (.resolved t))
      (hstate : t.state = .soldOut) : SoldOut run c (n + 1)
  | found {n r record} (htaken : run.taken n = some r) (hcampaign : r.campaign = c)
      (hstatus : (run.after (n + 1)).status r.id = .ok record)
      (hstate : record.state = .soldOut) : SoldOut run c (n + 1)

variable {run : Run} {m n : Nat} {c : CampaignId}

theorem SoldOut.exhausted (h : run.SoldOut c n) :
    (run.after n).stores.ledger.peek c = some 0 := by
  cases h with
  | empty hpeek => exact hpeek
  | told hevent hanswer hstate =>
    rw [after_succ hevent]
    exact Service.exhausted_of_told hanswer hstate
  | @found n r record htaken hcampaign hstatus hstate =>
    subst hcampaign
    obtain ⟨minted, stores, resolution, hturn⟩ := turn_of_taken htaken
    obtain ⟨p, hnext⟩ := hturn.next
    rw [hnext, Service.status_conclude] at hstatus
    cases hstatus
    rw [StatusRecord.resolved_state] at hstate
    have h0 := hturn.outcome.exhausted_of_lost (run.sound n).stocked hstate
    rw [hnext]
    exact h0

private theorem SoldOut.lasts (h : run.SoldOut c m) (hmn : m ≤ n)
    (hreset : ∀ i, m ≤ i → i < n → run.reset? i ≠ some c) :
    (run.after n).stores.ledger.peek c = some 0 ∧
    (∀ id held, (run.after n).stores.status.held? id = some held → held.record.state = .issued →
      held.record.campaign = c → (run.after m).stores.status.held? id = some held) ∧
    ∀ id k, (run.after n).stores.coupons.coupons.get? id = some k → k.campaign = c →
      ∃ k', (run.after m).stores.coupons.coupons.get? id = some k' ∧ k.Alike k' := by
  apply along (P := fun s => s.stores.ledger.peek c = some 0 ∧
    (∀ id held, s.stores.status.held? id = some held → held.record.state = .issued →
      held.record.campaign = c → (run.after m).stores.status.held? id = some held) ∧
    ∀ id k, s.stores.coupons.coupons.get? id = some k → k.campaign = c →
      ∃ k', (run.after m).stores.coupons.coupons.get? id = some k' ∧ k.Alike k') hmn
  · exact ⟨h.exhausted, fun id held hheld _ _ => hheld, fun id k hk _ => ⟨k, hk, .refl k⟩⟩
  · rintro i e hmi hin he ⟨h0, hrecords, hcoupons⟩
    have hunfilled : (run.after i).reset? e ≠ some c := by
      rw [← reset?_of_some he]
      exact hreset i hmi hin
    refine ⟨(effect he).exhausted (run.sound i).stocked hunfilled h0, ?_, ?_⟩
    · intro id held hheld hissued hc
      exact hrecords id held ((run.move he).issued_of_exhausted h0 hheld hissued hc) hissued hc
    · intro id k hk hc
      obtain ⟨k', hk', halike⟩ := (effect he).held_of_exhausted (run.sound i).book h0 hk hc
      obtain ⟨k'', hk'', halike'⟩ := hcoupons id k' hk' (halike.campaign ▸ hc)
      exact ⟨k'', hk'', halike.trans halike'⟩

variable (run) in
/-- Once nothing remains of a campaign, or someone was told so, nothing remains and no request is
issued until its stock is reset. So a request that is turned away ends as it would have ended in the
queue, and stock and coupons are left alone. -/
theorem sold_out_absorbing (c : CampaignId) :
    (∀ m n, run.SoldOut c m → m ≤ n → (∀ i, m ≤ i → i < n → run.reset? i ≠ some c) →
      (run.after n).stores.ledger.peek c = some 0 ∧
      (∀ id held, (run.after n).stores.status.held? id = some held → held.record.state = .issued →
        held.record.campaign = c → (run.after m).stores.status.held? id = some held) ∧
      ∀ id k, (run.after n).stores.coupons.coupons.get? id = some k → k.campaign = c →
        ∃ k', (run.after m).stores.coupons.coupons.get? id = some k' ∧ k.Alike k') ∧
    ∀ n r, r.campaign = c → r.id ∉ run.requestNames n → (run.after n).TurnsAway r →
      ∃ away, (run.after n).issue r.requester c (.ok r.id) =
          (away, .ok (.resolved ⟨r.id, .soldOut, none⟩)) ∧
        away.status r.id = .ok ⟨r.id, c, r.requester, .soldOut, none, some "stock exhausted",
          (run.after n).now, some (run.after n).now⟩ ∧
        away.stores.ledger = (run.after n).stores.ledger ∧
        away.stores.coupons = (run.after n).stores.coupons ∧
        ∀ queued events turn, (run.after n).Detour r queued events turn →
          Service.Fresh (run.requestNames n ++ [r.id]) (run.couponNames n) (events ++ [turn]) →
          ((queued.follow events).step turn).status r.id =
            .ok ⟨r.id, c, r.requester, .soldOut, none, some "stock exhausted",
              (run.after n).now, some (queued.follow events).now⟩ := by
  refine ⟨fun m n h hmn hreset => h.lasts hmn hreset, ?_⟩
  rintro n r rfl hnew haway
  have hrecord (now : Millis) : r.record.resolved .soldOut now = ⟨r.id, r.campaign, r.requester,
      .soldOut, none, some "stock exhausted", (run.after n).now, some now⟩ := by
    rw [← haway.now]
    rfl
  refine ⟨_, Service.issue_of_turnsAway haway, ?_, rfl, rfl, ?_⟩
  · rw [← hrecord]
    exact Service.status_keep_resolved r .soldOut
  · intro queued events turn hdetour hfresh
    rw [← hrecord]
    exact (run.sound n).status_of_detour hnew haway hdetour hfresh

/-- The only unit is won; a second requester is turned away, and a second passes. -/
def wonAtOnce : Run :=
  small [.issue ⟨1⟩ ⟨1⟩ (.ok ⟨"a"⟩), .turn 0 (.ok ⟨"x"⟩), .issue ⟨2⟩ ⟨1⟩ (.ok ⟨"b"⟩), .wait 1000]
    (by decide) (by decide)

theorem sold_out_absorbing_wonAtOnce :
    (wonAtOnce.after 4).stores.ledger.peek ⟨1⟩ = some 0 ∧
    (wonAtOnce.after 3).status ⟨"b"⟩ = .ok ⟨⟨"b"⟩, ⟨1⟩, ⟨2⟩, .soldOut, none,
      some "stock exhausted", 0, some 0⟩ ∧
    ∃ queued, (wonAtOnce.after 2).Detour ⟨⟨"b"⟩, ⟨1⟩, ⟨2⟩, 0⟩ queued [.wait 1000, .sweep]
        (.turn 0 (.ok ⟨"y"⟩)) ∧
      ((queued.follow [.wait 1000, .sweep]).step (.turn 0 (.ok ⟨"y"⟩))).status ⟨"b"⟩ =
        .ok ⟨⟨"b"⟩, ⟨1⟩, ⟨2⟩, .soldOut, none, some "stock exhausted", 0, some 1000⟩ := by
  obtain ⟨hlasts, haway⟩ := wonAtOnce.sold_out_absorbing ⟨1⟩
  have htold : wonAtOnce.SoldOut ⟨1⟩ 3 := .told (n := 2) (by rfl) (by rfl) rfl
  have hunreset : ∀ i, 3 ≤ i → i < 4 → wonAtOnce.reset? i ≠ some ⟨1⟩ := by
    intro i hi hn
    obtain rfl : i = 3 := by omega
    decide
  have hturns : (wonAtOnce.after 2).TurnsAway ⟨⟨"b"⟩, ⟨1⟩, ⟨2⟩, 0⟩ :=
    ⟨⟨by rfl, _, by rfl, by rfl⟩, by rfl, by rfl, by rfl, by rfl⟩
  obtain ⟨away, hissue, hseen, -, -, hslow⟩ := haway 2 ⟨⟨"b"⟩, ⟨1⟩, ⟨2⟩, 0⟩ rfl (by decide) hturns
  -- the second requester had the request been queued: it would have been taken a second later
  obtain ⟨queued, hdetour, hnow⟩ : ∃ queued, (wonAtOnce.after 2).Detour ⟨⟨"b"⟩, ⟨1⟩, ⟨2⟩, 0⟩ queued
      [.wait 1000, .sweep] (.turn 0 (.ok ⟨"y"⟩)) ∧
      (queued.follow [.wait 1000, .sweep]).now = 1000 := by
    refine ⟨_, ⟨by rfl, ?_, by rfl, by rfl, _, by rfl, by rfl⟩, by rfl⟩
    intro i e he
    match i with
    | 0 => cases he; decide
    | 1 => cases he; decide
    | i + 2 => cases he
  have hfresh : Service.Fresh (wonAtOnce.requestNames 2 ++ [⟨"b"⟩]) (wonAtOnce.couponNames 2)
      ([.wait 1000, .sweep] ++ [.turn 0 (.ok ⟨"y"⟩)]) := ⟨by decide, by decide⟩
  have hlate := hslow queued _ _ hdetour hfresh
  rw [hnow] at hlate
  refine ⟨(hlasts 3 4 htold (by decide) hunreset).1, ?_, queued, hdetour, hlate⟩
  have hafter : wonAtOnce.after 3 = away := congrArg Prod.fst hissue
  rw [hafter]
  exact hseen

end Run
end CouponIssuance
