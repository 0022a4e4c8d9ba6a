import CouponIssuance.Proofs.Discount
import CouponIssuance.Proofs.Http.Reasons
import CouponIssuance.Proofs.RecordsAndCoupons
import CouponIssuance.Proofs.Windows
/-!
# A preview tells what redeeming would do

Whoever asks whether a coupon could be redeemed is told what a call to redeem it would come to at that
time: the same discount, or the same reason against it, which is the first that there is. To ask changes
nothing, so it can be done any number of times before.
-/
namespace CouponIssuance

namespace Service

/-- The service as it stands at another time, if nothing happens before. -/
def asOf (s : Service) (now : Millis) : Service := { s with now := now }

/-- What speaks against redeeming a coupon. Each reason counts only if those before it do not apply. -/
inductive Objection (s : Service) (o : RequesterId) (id : CouponId) (order : UInt64) : Refusal → Prop
  | unknown (hunknown : s.stores.coupons.coupons.get? id = none) :
      Objection s o id order (.couponNotFound id)
  | notOwned {k : Coupon} (hheld : s.stores.coupons.coupons.get? id = some k) (howner : k.owner ≠ o) :
      Objection s o id order (.couponNotOwned id)
  | redeemed {k : Coupon} {r : Redemption} (hheld : s.stores.coupons.coupons.get? id = some k)
      (howner : k.owner = o) (hspent : k.redemption = some r) :
      Objection s o id order (.couponAlreadyRedeemed id)
  | ended {k : Coupon} {campaign : Campaign} {ending : UInt64}
      (hheld : s.stores.coupons.coupons.get? id = some k) (howner : k.owner = o)
      (hunspent : k.redemption = none)
      (hlisted : s.stores.catalog.campaigns.get? k.campaign = some campaign)
      (hends : campaign.window.endsAt = some ending) (hended : ending.toNat ≤ s.now) :
      Objection s o id order (.campaignInactive k.campaign "coupon expired")
  | tooSmall {k : Coupon} {campaign : Campaign}
      (hheld : s.stores.coupons.coupons.get? id = some k) (howner : k.owner = o)
      (hunspent : k.redemption = none)
      (hlisted : s.stores.catalog.campaigns.get? k.campaign = some campaign)
      (hrunning : ∀ ending, campaign.window.endsAt = some ending → s.now < ending.toNat)
      (hsmall : order < campaign.discount.minOrderAmount) :
      Objection s o id order (.orderBelowMinimum order campaign.discount.minOrderAmount)

variable {s : Service} {o : RequesterId} {id : CouponId} {order : UInt64} {k : Coupon}
  {campaign : Campaign} {why : Refusal} {quote : Quote}

private theorem preview_of_unknown (hunknown : s.stores.coupons.coupons.get? id = none) :
    s.preview o id order = .error (.couponNotFound id) := by
  simp only [preview, campaignOf, CouponBook.get, hunknown, bind, Except.bind]

private theorem preview_of_held (hheld : s.stores.coupons.coupons.get? id = some k)
    (hlisted : s.stores.catalog.campaigns.get? k.campaign = some campaign) :
    s.preview o id order =
      (k.discountFor o order campaign s.now).map fun discount => ⟨id, discount, order - discount⟩ := by
  simp only [preview, campaignOf, CouponBook.get, CouponBook.preview, Catalog.get, hheld, hlisted,
    bind, Except.bind]
  cases k.discountFor o order campaign s.now <;> rfl

private theorem preview_of_objection (hb : s.stores.coupons.Sound) (hs : s.stores.Stocked)
    (h : s.Objection o id order why) : s.preview o id order = .error why := by
  cases h with
  | unknown hunknown => exact preview_of_unknown hunknown
  | notOwned hheld howner =>
    obtain ⟨campaign, hlisted⟩ := hs.offered hheld
    have hname := hb.named hheld
    simp [preview_of_held hheld hlisted, Coupon.discountFor, howner, hname, Except.map]
  | redeemed hheld howner hspent =>
    obtain ⟨campaign, hlisted⟩ := hs.offered hheld
    have hname := hb.named hheld
    simp [preview_of_held hheld hlisted, Coupon.discountFor, Coupon.isRedeemed, howner, hspent, hname,
      Except.map]
  | ended hheld howner hunspent hlisted hends hended =>
    have hover := Window.hasEnded_iff.2 ⟨_, hends, hended⟩
    have hnumber := hs.listed hlisted
    simp [preview_of_held hheld hlisted, Coupon.discountFor, Coupon.isRedeemed, howner, hunspent, hover,
      hnumber, Except.map]
  | tooSmall hheld howner hunspent hlisted hrunning hsmall =>
    have hopen := Window.hasEnded_eq_false_iff.2 hrunning
    simp [preview_of_held hheld hlisted, Coupon.discountFor, Coupon.isRedeemed, howner, hunspent, hopen,
      Discount.amountFor_of_small hsmall, Except.map]

private theorem objection_or_quote (hs : s.stores.Stocked) (o : RequesterId) (id : CouponId) (order : UInt64) :
    (∃ why, s.Objection o id order why) ∨ ∃ quote, s.preview o id order = .ok quote := by
  cases hheld : s.stores.coupons.coupons.get? id with
  | none => exact .inl ⟨_, .unknown hheld⟩
  | some k =>
    obtain ⟨campaign, hlisted⟩ := hs.offered hheld
    by_cases howner : k.owner = o
    · cases hspent : k.redemption with
      | some r => exact .inl ⟨_, .redeemed hheld howner hspent⟩
      | none =>
        cases hended : campaign.window.hasEnded s.now with
        | true =>
          obtain ⟨ending, hends, hreached⟩ := Window.hasEnded_iff.1 hended
          exact .inl ⟨_, .ended hheld howner hspent hlisted hends hreached⟩
        | false =>
          by_cases hsmall : order < campaign.discount.minOrderAmount
          · have hrunning := Window.hasEnded_eq_false_iff.1 hended
            exact .inl ⟨_, .tooSmall hheld howner hspent hlisted hrunning hsmall⟩
          · obtain ⟨amount, hgranted, -⟩ := Discount.amountFor_of_reached (UInt64.not_lt.1 hsmall)
            have hdiscount := Coupon.discountFor_eq_ok_iff.2 ⟨howner, hspent, hended, hgranted⟩
            right
            rw [preview_of_held hheld hlisted, hdiscount]
            exact ⟨_, rfl⟩
    · exact .inl ⟨_, .notOwned hheld howner⟩

private theorem preview_eq_error_iff (hb : s.stores.coupons.Sound) (hs : s.stores.Stocked) :
    s.preview o id order = .error why ↔ s.Objection o id order why := by
  constructor
  · intro hrefused
    rcases objection_or_quote hs o id order with ⟨why', hobjection⟩ | ⟨quote, hquote⟩
    · -- the reason that is given is that of the objection
      cases hrefused.symm.trans (preview_of_objection hb hs hobjection)
      exact hobjection
    · cases hrefused.symm.trans hquote
  · exact preview_of_objection hb hs

/-- A quote divides the order into what is taken off and what is left to pay. -/
theorem quote_of_preview (h : s.preview o id order = .ok quote) :
    quote.coupon = id ∧ quote.discount.toNat + quote.payable.toNat = order.toNat := by
  cases hcampaign : s.campaignOf id with
  | error why =>
    simp [preview, hcampaign, bind, Except.bind] at h
  | ok campaign =>
    simp only [preview, hcampaign, bind, Except.bind] at h
    obtain ⟨amount, hgranted, hquote⟩ := CouponBook.quote_of_preview h
    subst hquote
    exact ⟨rfl, Discount.pay_whole (Discount.takes_of_granted hgranted).whole⟩

end Service

namespace Http

/-- The request is for the resource that tells whether a coupon could be redeemed. -/
def Request.Asks (r : Request) : Prop :=
  ∀ emptyParameters,
    Resource.ofPath emptyParameters (Target.ofText r.target.toList).path = some .validate

private theorem respond_of_asks {r : Request} (h : r.Asks) (s : Server) : (respond r s).1 = s := by
  have hform (handle : ValidateForm → Server → Response) :
      (given (form ValidateForm.read r) (fun f s => (s, handle f s)) s).1 = s := by
    cases hread : form ValidateForm.read r <;> simp only [given]
  have hpath := h s.platform.emptyParameters
  simp only [respond, respondFor, Request.resource?, hpath, Resource.get, Resource.post, Option.map_none, Option.map_some,
    Option.getD_none, Option.getD_some, apply_ite Prod.fst, hform, ite_self]

end Http

namespace Server

/-- The server as it stands at another time, if nothing happens before. -/
def asOf (s : Server) (now : Millis) : Server := { s with service := s.service.asOf now }

/-- The server after it has responded to some requests, each at its time. -/
def afterResponses (s : Server) (requests : List (Millis × Http.Request)) : Server :=
  requests.foldl (fun s request => (Http.respond request.2 (s.asOf request.1)).1) s

private theorem afterResponses_of_asks {asked : List (Millis × Http.Request)} (h : ∀ a ∈ asked, a.2.Asks)
    (s : Server) : ∃ now, s.afterResponses asked = s.asOf now := by
  induction asked generalizing s with
  | nil => exact ⟨s.service.now, rfl⟩
  | cons first rest ih =>
    obtain ⟨now, hnow⟩ := ih (fun a ha => h a (List.mem_cons_of_mem _ ha)) (s.asOf first.1)
    refine ⟨now, ?_⟩
    have hfirst := Http.respond_of_asks (h first List.mem_cons_self) (s.asOf first.1)
    simp only [afterResponses, List.foldl_cons, hfirst] at hnow ⊢
    exact hnow

end Server

namespace Run

variable (run : Run)

/-- At any time after any part of a run, a preview says what a call to redeem the coupon would come to.
It calls the coupon usable exactly if the call would succeed, and then gives the same discount and the
same amount to pay. If not, it gives the message of the refusal, which is for the first objection that
there is. Discount and amount to pay make up the order. Whoever asks for previews before, however
often and at whatever times, finds and leaves the server as it is, and the call to redeem the coupon is
answered as if nobody had asked. -/
theorem preview_foretells (n : Nat) (now : Millis) (o : RequesterId) (id : CouponId) (order : UInt64)
    (orderId : Option String) :
    let s := (run.after n).asOf now
    let verdict := s.validate o id order
    let answer := (s.redeem o id order orderId).2
    (verdict.isUsable = true ↔ ∃ quote, answer = .ok quote) ∧
    (∀ quote, answer = .ok quote → verdict = ⟨id, o, true, quote.discount, quote.payable, none⟩) ∧
    (∀ why, answer = .error why → verdict = ⟨id, o, false, 0, order, some why.message⟩) ∧
    (∀ why, answer = .error why ↔ s.Objection o id order why) ∧
    verdict.discount.toNat + verdict.payable.toNat = order.toNat ∧
    ∀ (server : Server) (asked : List (Millis × Http.Request)),
      server.service = run.after n → (∀ a ∈ asked, a.2.Asks) →
      (∃ later, server.afterResponses asked = server.asOf later) ∧
      ((server.afterResponses asked).asOf now).service.redeem o id order orderId =
        s.redeem o id order orderId := by
  intro s verdict answer
  have hsound := run.sound n
  have hanswer : answer = s.preview o id order := s.redeem_answer o id order orderId
  have hverdict : verdict = s.validate o id order := rfl
  refine ⟨?_, ?_, ?_, ?_, ?_, ?_⟩
  · rw [hanswer, hverdict, Service.validate]
    cases s.preview o id order <;> simp [Verdict.usable, Verdict.unusable]
  · intro quote hquote
    rw [hanswer] at hquote
    obtain ⟨hname, -⟩ := Service.quote_of_preview hquote
    rw [hverdict, Service.validate, hquote, ← hname]
    rfl
  · intro why hwhy
    rw [hanswer] at hwhy
    rw [hverdict, Service.validate, hwhy]
    rfl
  · intro why
    rw [hanswer]
    exact Service.preview_eq_error_iff hsound.book hsound.stocked
  · cases hpreview : s.preview o id order with
    | ok quote =>
      obtain ⟨-, hsum⟩ := Service.quote_of_preview hpreview
      rw [hverdict, Service.validate, hpreview]
      exact hsum
    | error why =>
      rw [hverdict, Service.validate, hpreview]
      exact Nat.zero_add _
  · intro server asked hserver hasks
    obtain ⟨later, hlater⟩ := server.afterResponses_of_asks hasks
    refine ⟨⟨later, hlater⟩, ?_⟩
    rw [hlater]
    show (server.service.asOf now).redeem o id order orderId = _
    rw [hserver]

/-- A coupon is won and redeemed. -/
def wonThenSpent : Run :=
  small [.issue ⟨1⟩ ⟨1⟩ (.ok ⟨"a"⟩), .turn 0 (.ok ⟨"x"⟩), .redeem ⟨1⟩ ⟨"x"⟩ 5000 none]
    (by decide) (by decide)

/-- Asks whether the coupon could be redeemed. -/
def asksForX : Http.Request :=
  ⟨"POST", "/coupons/validate", [("content-type", Text.utf8 "application/json".toList)],
    Text.utf8 "[1, \"x\", 5000]".toList⟩

theorem preview_foretells_wonThenSpent :
    (∃ quote, (((wonThenSpent.after 2).asOf 7).redeem ⟨1⟩ ⟨"x"⟩ 5000 none).2 = .ok quote) ∧
    ((wonThenSpent.after 2).asOf 7).validate ⟨1⟩ ⟨"x"⟩ 5000 = ⟨⟨"x"⟩, ⟨1⟩, true, 1000, 4000, none⟩ ∧
    ((wonThenSpent.after 3).asOf 7).validate ⟨1⟩ ⟨"x"⟩ 5000 =
      ⟨⟨"x"⟩, ⟨1⟩, false, 0, 5000, some "Coupon x was already redeemed"⟩ ∧
    ((wonThenSpent.after 3).asOf 7).Objection ⟨1⟩ ⟨"x"⟩ 5000 (.couponAlreadyRedeemed ⟨"x"⟩) ∧
    ∀ server : Server, server.service = wonThenSpent.after 2 →
      ((server.afterResponses [(2, asksForX), (5, asksForX)]).asOf 7).service.redeem ⟨1⟩ ⟨"x"⟩ 5000 none =
        ((wonThenSpent.after 2).asOf 7).redeem ⟨1⟩ ⟨"x"⟩ 5000 none := by
  have hgranted : (((wonThenSpent.after 2).asOf 7).redeem ⟨1⟩ ⟨"x"⟩ 5000 none).2 =
      .ok ⟨⟨"x"⟩, 1000, 4000⟩ := by rfl
  have hrefused : (((wonThenSpent.after 3).asOf 7).redeem ⟨1⟩ ⟨"x"⟩ 5000 none).2 =
      .error (.couponAlreadyRedeemed ⟨"x"⟩) := by rfl
  have hasks : asksForX.Asks := by
    unfold Http.Request.Asks
    decide
  obtain ⟨hiff, husable, -, -, -, hunchanged⟩ :=
    wonThenSpent.preview_foretells 2 7 ⟨1⟩ ⟨"x"⟩ 5000 none
  obtain ⟨-, -, hunusable, hobjection, -, -⟩ :=
    wonThenSpent.preview_foretells 3 7 ⟨1⟩ ⟨"x"⟩ 5000 none
  have hverdict := husable _ hgranted
  refine ⟨hiff.1 (by rw [hverdict]), hverdict, hunusable _ hrefused, (hobjection _).1 hrefused, ?_⟩
  intro server hserver
  refine (hunchanged server _ hserver ?_).2
  intro a ha
  rcases List.mem_cons.1 ha with rfl | ha
  · exact hasks
  · exact List.mem_singleton.1 ha ▸ hasks

end Run
end CouponIssuance
