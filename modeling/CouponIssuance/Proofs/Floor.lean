import CouponIssuance.Proofs.CouponBook.Growth
import CouponIssuance.Proofs.Ledger
import CouponIssuance.Proofs.Tally
/-!
# Attempts side by side

Any number of workers at once, each at its own stage of an attempt. A worker takes a request, and as
long as it holds on to it, the request counts as being processed; meanwhile it sets a unit aside,
enters the coupon or gives the unit back, and in the end lets go of the request. Between any two such
steps clients queue requests, and the stock of a campaign is filled up if nobody is at work on the
campaign.
-/
namespace CouponIssuance

/-- How far the attempt for a request has come. -/
inductive Stage where
  | taken
  /-- A unit is set aside, neither used up nor given back. -/
  | holding
  | done
  deriving DecidableEq

/-- A request that a worker has taken and not let go of. -/
structure Claim where
  request : IssuanceRequest
  stage : Stage

namespace Claim

def isOf (c : CampaignId) (k : Claim) : Bool := k.request.campaign = c

/-- Whether a unit of a campaign is set aside for this claim. -/
def holds (c : CampaignId) (k : Claim) : Bool := k.stage = .holding && k.request.campaign = c

@[simp] theorem holds_taken (c : CampaignId) (r : IssuanceRequest) : holds c ⟨r, .taken⟩ = false := rfl

@[simp] theorem holds_done (c : CampaignId) (r : IssuanceRequest) : holds c ⟨r, .done⟩ = false := rfl

private theorem holds_of_ne {c : CampaignId} {r : IssuanceRequest} (hc : r.campaign ≠ c) (stage : Stage) :
    holds c ⟨r, stage⟩ = false := by
  simp [holds, hc]

@[simp] theorem holds_holding (r : IssuanceRequest) : holds r.campaign ⟨r, .holding⟩ = true := by
  simp [holds]

end Claim

structure Floor where
  queue : Queue
  ledger : Ledger
  coupons : CouponBook
  claims : List Claim

namespace Floor

/-- A step of a client or of a worker. The worker's claim is named by its place. -/
inductive Act where
  | enqueue (r : IssuanceRequest)
  | register (c : CampaignId) (total : UInt64)
  | reset (c : CampaignId) (total : UInt64)
  | dequeue (p : Nat)
  | reserve (i : Nat)
  | record (i : Nat) (coupon : CouponId) (now : Millis)
  | restore (i : Nat)
  | drop (i : Nat)

def Act.coupon? : Act → Option CouponId
  | .record _ coupon _ => some coupon
  | _ => none

/-- What a step does. A worker does nothing that is not its turn: it sets one unit aside at most, and
does not let go of the request while the unit is neither used up nor given back. -/
def step (s : Floor) : Act → Floor
  | .enqueue r =>
    match s.queue.enqueue r with
    | .ok queue => { s with queue := queue }
    | .error _ => s
  | .register c total => { s with ledger := (s.ledger.register c total).1 }
  | .reset c total =>
    match s.queue.whenIdle c (s.ledger.reset c total) with
    | .ok (ledger, _) => { s with ledger := ledger }
    | .error _ => s
  | .dequeue p =>
    match s.queue.dequeue p with
    | (queue, .request r) => { s with queue := queue, claims := s.claims ++ [⟨r, .taken⟩] }
    | (queue, _) => { s with queue := queue }
  | .reserve i =>
    match s.claims[i]? with
    | some ⟨r, .taken⟩ =>
      let (ledger, reserved) := s.ledger.tryReserve r.campaign
      { s with
        ledger := ledger
        claims := s.claims.set i ⟨r, if reserved then .holding else .done⟩ }
    | _ => s
  | .record i coupon now =>
    match s.claims[i]? with
    | some ⟨r, .holding⟩ =>
      match s.coupons.issue coupon r.campaign r.requester r.id now with
      | .ok (coupons, _) => { s with coupons := coupons, claims := s.claims.set i ⟨r, .done⟩ }
      | .error _ => s
    | _ => s
  | .restore i =>
    match s.claims[i]? with
    | some ⟨r, .holding⟩ =>
      { s with
        ledger := (s.ledger.restore r.campaign).1
        claims := s.claims.set i ⟨r, .done⟩ }
    | _ => s
  | .drop i =>
    match s.claims[i]? with
    | some ⟨r, stage⟩ =>
      if stage = .holding then s
      else { s with queue := s.queue.release r.campaign, claims := s.claims.eraseIdx i }
    | none => s

/-- The campaign whose stock a step fills up. -/
def fills? (s : Floor) : Act → Option CampaignId
  | .register c total => if (s.ledger.register c total).2 then some c else none
  | .reset c total => if (s.queue.whenIdle c (s.ledger.reset c total)).isOk then some c else none
  | _ => none

/-- How many requests of a campaign wait in the lines. -/
def queued (s : Floor) (c : CampaignId) : Nat := s.queue.waiting.countP (·.campaign = c)

/-- How many requests of a campaign workers hold on to. -/
def claimed (s : Floor) (c : CampaignId) : Nat := s.claims.countP (Claim.isOf c)

/-- No request of a campaign waits, and none is held by a worker. -/
def Idle (s : Floor) (c : CampaignId) : Prop :=
  (∀ p, ∀ r ∈ s.queue.requests p, r.campaign ≠ c) ∧ ∀ k ∈ s.claims, k.request.campaign ≠ c

/-- How many units of a campaign are set aside, neither used up nor given back. -/
def held (s : Floor) (c : CampaignId) : Nat := s.claims.countP (Claim.holds c)

/-- How many coupons of a campaign are recorded. -/
def couponCount (s : Floor) (c : CampaignId) : Nat := s.coupons.countOf c

/-- Nobody is at work without a claim, and every unit that is gone can come back. -/
structure Sound (s : Floor) : Prop where
  placed : ∀ {p r}, r ∈ s.queue.requests p → s.queue.partitionOf r.campaign = p
  lanes : ∀ c, s.queue.lane c = ⟨(s.queue.line c).length, s.claimed c⟩
  unknown : ∀ {c}, s.ledger.snapshot c = none → s.held c = 0
  room : ∀ {c stock}, s.ledger.snapshot c = some stock →
    s.held c + stock.remaining.toNat ≤ stock.total.toNat

/-- What a step does to the floor. -/
inductive Moved (s : Floor) : Act → Floor → Prop
  | idle {a} (hfills : s.fills? a = none) : Moved s a s
  | enqueued {r queue} (hqueue : s.queue.enqueue r = .ok queue) :
      Moved s (.enqueue r) { s with queue := queue }
  | filled {a c total} (hfills : s.fills? a = some c) (hfree : s.held c = 0) :
      Moved s a { s with ledger := (s.ledger.reset c total).1 }
  | taken {p r rest} (hattended : (s.queue.channel p).attended = true)
      (hhead : (s.queue.channel p).messages = .issue r :: rest) :
      Moved s (.dequeue p)
        { s with queue := (s.queue.dequeue p).1, claims := s.claims ++ [⟨r, .taken⟩] }
  | passed {p marker rest} (hattended : (s.queue.channel p).attended = true)
      (hhead : (s.queue.channel p).messages = .stop marker :: rest) :
      Moved s (.dequeue p) { s with queue := (s.queue.dequeue p).1 }
  | reserved {i r stock} (hclaim : s.claims[i]? = some ⟨r, .taken⟩)
      (hstock : s.ledger.snapshot r.campaign = some stock) (hremaining : stock.remaining ≠ 0) :
      Moved s (.reserve i) { s with
        ledger := (s.ledger.tryReserve r.campaign).1, claims := s.claims.set i ⟨r, .holding⟩ }
  | exhausted {i r} (hclaim : s.claims[i]? = some ⟨r, .taken⟩) :
      Moved s (.reserve i) { s with claims := s.claims.set i ⟨r, .done⟩ }
  | recorded {i r coupon now} (hclaim : s.claims[i]? = some ⟨r, .holding⟩) :
      Moved s (.record i coupon now) { s with
        coupons := s.coupons.enter ⟨coupon, r.campaign, r.requester, r.id, now, none⟩
        claims := s.claims.set i ⟨r, .done⟩ }
  | restored {i r stock} (hclaim : s.claims[i]? = some ⟨r, .holding⟩)
      (hstock : s.ledger.snapshot r.campaign = some stock)
      (hroom : stock.remaining < stock.total) :
      Moved s (.restore i) { s with
        ledger := (s.ledger.restore r.campaign).1, claims := s.claims.set i ⟨r, .done⟩ }
  | dropped {i r stage} (hclaim : s.claims[i]? = some ⟨r, stage⟩) (hstage : stage ≠ .holding) :
      Moved s (.drop i)
        { s with queue := s.queue.release r.campaign, claims := s.claims.eraseIdx i }

variable {s s' : Floor} {a : Act} {c : CampaignId} {i : Nat} {r : IssuanceRequest} {stage : Stage}

section Counts

private theorem countP_set {l : List Claim} {k : Claim} (h : l[i]? = some k) (k' : Claim)
    (test : Claim → Bool) : (l.set i k').countP test + (if test k then 1 else 0) =
      l.countP test + if test k' then 1 else 0 := by
  obtain ⟨hi, rfl⟩ := List.getElem?_eq_some_iff.1 h
  rw [List.countP_set hi]
  by_cases htest : test l[i] = true
  · have hpos : 0 < l.countP test := List.countP_pos_iff.2 ⟨_, List.getElem_mem hi, htest⟩
    simp only [htest, if_true]
    omega
  · simp [htest]

private theorem held_le_claimed (s : Floor) (c : CampaignId) : s.held c ≤ s.claimed c := by
  apply List.countP_mono_left
  intro k _ hk
  rw [Claim.holds, Bool.and_eq_true] at hk
  exact hk.2

private theorem held_pos (hclaim : s.claims[i]? = some ⟨r, .holding⟩) : 0 < s.held r.campaign :=
  List.countP_pos_iff.2 ⟨_, List.mem_of_getElem? hclaim, Claim.holds_holding r⟩

private theorem held_append_taken (s : Floor) (r : IssuanceRequest) (c : CampaignId) :
    (s.claims ++ [(⟨r, .taken⟩ : Claim)]).countP (Claim.holds c) = s.held c := by
  simp [held]

private theorem held_eraseIdx (hclaim : s.claims[i]? = some ⟨r, stage⟩) (hstage : stage ≠ .holding)
    (c : CampaignId) : (s.claims.eraseIdx i).countP (Claim.holds c) = s.held c := by
  have hnone : Claim.holds c ⟨r, stage⟩ = false := by simp [Claim.holds, hstage]
  simpa [held, hnone] using countP_eraseIdx hclaim (Claim.holds c)

private theorem claimed_set (hclaim : s.claims[i]? = some ⟨r, stage⟩) (next : Stage) (c : CampaignId) :
    (s.claims.set i ⟨r, next⟩).countP (Claim.isOf c) = s.claimed c :=
  Nat.add_right_cancel (countP_set hclaim ⟨r, next⟩ (Claim.isOf c))

private theorem held_set_of_ne (hclaim : s.claims[i]? = some ⟨r, stage⟩) (next : Stage)
    (hc : r.campaign ≠ c) : (s.claims.set i ⟨r, next⟩).countP (Claim.holds c) = s.held c := by
  simpa [held, Claim.holds_of_ne hc] using countP_set hclaim ⟨r, next⟩ (Claim.holds c)

private theorem held_set_holding (hclaim : s.claims[i]? = some ⟨r, .taken⟩) :
    (s.claims.set i ⟨r, .holding⟩).countP (Claim.holds r.campaign) = s.held r.campaign + 1 := by
  simpa [held] using countP_set hclaim ⟨r, .holding⟩ (Claim.holds r.campaign)

private theorem held_set_exhausted (hclaim : s.claims[i]? = some ⟨r, .taken⟩) (c : CampaignId) :
    (s.claims.set i ⟨r, .done⟩).countP (Claim.holds c) = s.held c := by
  simpa [held] using countP_set hclaim ⟨r, .done⟩ (Claim.holds c)

private theorem held_set_done (hclaim : s.claims[i]? = some ⟨r, .holding⟩) :
    (s.claims.set i ⟨r, .done⟩).countP (Claim.holds r.campaign) + 1 = s.held r.campaign := by
  simpa [held] using countP_set hclaim ⟨r, .done⟩ (Claim.holds r.campaign)

end Counts

/-! ## Every step is sound -/

theorem idle_iff : s.Idle c ↔ s.queued c + s.claimed c = 0 := by
  rw [Nat.add_eq_zero_iff, queued, claimed, List.countP_eq_zero, List.countP_eq_zero]
  constructor
  · rintro ⟨hwaiting, hclaims⟩
    refine ⟨fun r hr hc => ?_, fun k hk hc => hclaims k hk (of_decide_eq_true hc)⟩
    obtain ⟨p, hp⟩ := Queue.mem_waiting_iff.1 hr
    exact hwaiting p r hp (of_decide_eq_true hc)
  · rintro ⟨hwaiting, hclaims⟩
    refine ⟨fun p r hr hc => ?_, fun k hk hc => hclaims k hk (decide_eq_true hc)⟩
    exact hwaiting r (Queue.mem_waiting_iff.2 ⟨p, hr⟩) (decide_eq_true hc)

theorem Sound.tallied (h : s.Sound) : s.queue.Tallied s.claimed := ⟨h.placed, h.lanes⟩

theorem Sound.inFlight_eq (h : s.Sound) (c : CampaignId) :
    s.queue.inFlight c = s.queued c + s.claimed c :=
  h.tallied.inFlight_eq c

private theorem Sound.free_of_idle (h : s.Sound) (hidle : s.queue.inFlight c = 0) : s.held c = 0 := by
  rw [h.inFlight_eq] at hidle
  have hle := s.held_le_claimed c
  omega

/-- While a worker holds a unit, there is room for it in the ledger. -/
theorem Sound.room_of_holding (h : s.Sound) (hclaim : s.claims[i]? = some ⟨r, .holding⟩) :
    ∃ stock, s.ledger.snapshot r.campaign = some stock ∧ stock.remaining < stock.total := by
  have hpos := held_pos hclaim
  cases hstock : s.ledger.snapshot r.campaign with
  | none =>
    rw [h.unknown hstock] at hpos
    cases hpos
  | some stock =>
    have hroom := h.room hstock
    exact ⟨stock, rfl, UInt64.lt_iff_toNat_lt.2 (by omega)⟩

/-- The claim that a step of a worker is about, and the stages at which it may take the step. -/
def Act.turn? : Act → Option (Nat × (Stage → Bool))
  | .reserve i => some (i, (· = .taken))
  | .record i _ _ | .restore i => some (i, (· = .holding))
  | .drop i => some (i, (· ≠ .holding))
  | _ => none

private theorem moved_of_not_due {due : Stage → Bool} (hturn : a.turn? = some (i, due))
    (hnot : ∀ r stage, s.claims[i]? = some ⟨r, stage⟩ → due stage = false) : Moved s a (s.step a) := by
  have hidle : s.fills? a = none ∧ s.step a = s := by
    cases a with
    | enqueue | register | reset | dequeue => cases hturn
    | reserve | record | restore | drop =>
      cases hturn
      refine ⟨rfl, ?_⟩
      cases hclaim : s.claims[i]? with
      | none => simp only [step, hclaim]
      | some k =>
        have hstage := hnot _ _ hclaim
        obtain ⟨r, stage⟩ := k
        cases stage <;> simp_all [step]
  rw [hidle.2]
  exact .idle hidle.1

private theorem Sound.moved_register (h : s.Sound) (c : CampaignId) (total : UInt64) :
    Moved s (.register c total) (s.step (.register c total)) := by
  cases hknown : s.ledger.snapshot c with
  | none =>
    have hfills : s.fills? (.register c total) = some c := by
      simp [fills?, Ledger.register_new hknown]
    simp only [step, Ledger.register_new hknown]
    exact .filled hfills (h.unknown hknown)
  | some stock =>
    have hcontains : s.ledger.stocks.contains c = true := by
      simp [Table.contains, ← Ledger.snapshot.eq_1, hknown]
    have hsame : s.ledger.register c total = (s.ledger, false) := by
      simp [Ledger.register, hcontains]
    simp only [step, hsame]
    exact .idle (by simp [fills?, hsame])

private theorem Sound.moved_reset (h : s.Sound) (c : CampaignId) (total : UInt64) :
    Moved s (.reset c total) (s.step (.reset c total)) := by
  by_cases hidle : s.queue.inFlight c = 0
  · have hfills : s.fills? (.reset c total) = some c := by
      simp [fills?, Queue.whenIdle, hidle, Except.isOk, Except.toBool]
    simp only [step, Queue.whenIdle, hidle, if_true]
    exact .filled hfills (h.free_of_idle hidle)
  · simp only [step, Queue.whenIdle, hidle, if_false]
    exact .idle (by simp [fills?, Queue.whenIdle, hidle, Except.isOk, Except.toBool])

private theorem moved_dequeue (s : Floor) (p : Nat) : Moved s (.dequeue p) (s.step (.dequeue p)) := by
  cases hattended : (s.queue.channel p).attended with
  | false =>
    simp only [step, Queue.dequeue, hattended]
    exact .idle rfl
  | true =>
    cases hhead : (s.queue.channel p).messages with
    | nil =>
      simp only [step, Queue.dequeue, hattended, hhead]
      cases s.queue.released <;> exact .idle rfl
    | cons m rest =>
      cases m with
      | issue r =>
        have hstep : s.step (.dequeue p) =
            { s with queue := (s.queue.dequeue p).1, claims := s.claims ++ [⟨r, .taken⟩] } := by
          simp only [step, Queue.dequeue_request hattended hhead]
        rw [hstep]
        exact .taken hattended hhead
      | stop marker =>
        have hstep : s.step (.dequeue p) = { s with queue := (s.queue.dequeue p).1 } := by
          simp only [step, Queue.dequeue_stop hattended hhead]
        rw [hstep]
        exact .passed hattended hhead

private theorem moved_reserve (hclaim : s.claims[i]? = some ⟨r, .taken⟩) :
    Moved s (.reserve i) (s.step (.reserve i)) := by
  simp only [step, hclaim]
  by_cases hnone : ∀ stock, s.ledger.snapshot r.campaign = some stock → stock.remaining = 0
  · simp only [Ledger.tryReserve_of_exhausted hnone, Bool.false_eq_true, if_false]
    exact .exhausted hclaim
  · obtain ⟨stock, hstock, hremaining⟩ : ∃ stock,
        s.ledger.snapshot r.campaign = some stock ∧ stock.remaining ≠ 0 := by
      simpa using hnone
    have hmoved := Moved.reserved hclaim hstock hremaining
    rw [Ledger.tryReserve_of_remaining hstock hremaining] at hmoved ⊢
    exact hmoved

private theorem moved_record (hclaim : s.claims[i]? = some ⟨r, .holding⟩) (coupon : CouponId) (now : Millis) :
    Moved s (.record i coupon now) (s.step (.record i coupon now)) := by
  simp only [step, hclaim]
  cases hissue : s.coupons.issue coupon r.campaign r.requester r.id now with
  | error why => exact .idle rfl
  | ok entered =>
    obtain ⟨book, k⟩ := entered
    rw [CouponBook.issue_eq_ok hissue]
    exact .recorded hclaim

private theorem Sound.moved_restore (h : s.Sound) (hclaim : s.claims[i]? = some ⟨r, .holding⟩) :
    Moved s (.restore i) (s.step (.restore i)) := by
  obtain ⟨stock, hstock, hroom⟩ := h.room_of_holding hclaim
  simp only [step, hclaim]
  exact .restored hclaim hstock hroom

private theorem moved_drop (hclaim : s.claims[i]? = some ⟨r, stage⟩) (hstage : stage ≠ .holding) :
    Moved s (.drop i) (s.step (.drop i)) := by
  simp only [step, hclaim, hstage, if_false]
  exact .dropped hclaim hstage

theorem Sound.step_moved (h : s.Sound) (a : Act) : Moved s a (s.step a) := by
  cases a with
  | enqueue r =>
    simp only [step]
    cases hqueue : s.queue.enqueue r with
    | error why => exact .idle rfl
    | ok queue => exact .enqueued hqueue
  | register c total => exact h.moved_register c total
  | reset c total => exact h.moved_reset c total
  | dequeue p => exact moved_dequeue s p
  | reserve i =>
    by_cases hdue : ∃ r, s.claims[i]? = some ⟨r, .taken⟩
    · obtain ⟨r, hclaim⟩ := hdue
      exact moved_reserve hclaim
    · exact moved_of_not_due rfl fun r stage hclaim =>
        decide_eq_false fun hstage => hdue ⟨r, hstage ▸ hclaim⟩
  | record i coupon now =>
    by_cases hdue : ∃ r, s.claims[i]? = some ⟨r, .holding⟩
    · obtain ⟨r, hclaim⟩ := hdue
      exact moved_record hclaim coupon now
    · exact moved_of_not_due rfl fun r stage hclaim =>
        decide_eq_false fun hstage => hdue ⟨r, hstage ▸ hclaim⟩
  | restore i =>
    by_cases hdue : ∃ r, s.claims[i]? = some ⟨r, .holding⟩
    · obtain ⟨r, hclaim⟩ := hdue
      exact h.moved_restore hclaim
    · exact moved_of_not_due rfl fun r stage hclaim =>
        decide_eq_false fun hstage => hdue ⟨r, hstage ▸ hclaim⟩
  | drop i =>
    by_cases hdue : ∃ r stage, s.claims[i]? = some ⟨r, stage⟩ ∧ stage ≠ .holding
    · obtain ⟨r, stage, hclaim, hstage⟩ := hdue
      exact moved_drop hclaim hstage
    · exact moved_of_not_due rfl fun r stage hclaim =>
        decide_eq_false fun hstage => hdue ⟨r, stage, hclaim, hstage⟩

private theorem Sound.of_stock (h : s.Sound) {stock : Stock} {ledger : Ledger} {claims : List Claim}
    (hledger : ∀ c', ledger.snapshot c' = if c = c' then some stock else s.ledger.snapshot c')
    (hclaimed : ∀ c', claims.countP (Claim.isOf c') = s.claimed c')
    (hheld : ∀ c', c ≠ c' → claims.countP (Claim.holds c') = s.held c')
    (hroom : claims.countP (Claim.holds c) + stock.remaining.toNat ≤ stock.total.toNat)
    (coupons : CouponBook) : Sound { s with ledger := ledger, claims := claims, coupons := coupons } where
  placed := h.placed
  lanes c' := by
    show s.queue.lane c' = ⟨(s.queue.line c').length, claims.countP (Claim.isOf c')⟩
    rw [hclaimed]
    exact h.lanes c'
  unknown := by
    intro c' hnone
    change ledger.snapshot c' = none at hnone
    rw [hledger] at hnone
    split at hnone
    · cases hnone
    · next hc => exact (hheld c' hc).trans (h.unknown hnone)
  room := by
    intro c' stock' hstock
    change ledger.snapshot c' = some stock' at hstock
    rw [hledger] at hstock
    split at hstock
    · next hc =>
      cases hstock
      exact hc ▸ hroom
    · next hc =>
      show claims.countP (Claim.holds c') + _ ≤ _
      rw [hheld c' hc]
      exact h.room hstock

private theorem Sound.of_claims (h : s.Sound) {queue : Queue} {claims : List Claim}
    (htallied : queue.Tallied fun c => claims.countP (Claim.isOf c))
    (hheld : ∀ c, claims.countP (Claim.holds c) ≤ s.held c) (coupons : CouponBook) :
    Sound { s with queue := queue, claims := claims, coupons := coupons } where
  placed := htallied.placed
  lanes := htallied.lanes
  unknown hnone := Nat.eq_zero_of_le_zero (h.unknown hnone ▸ hheld _)
  room hstock := Nat.le_trans (Nat.add_le_add_right (hheld _) _) (h.room hstock)

theorem Moved.sound (hmove : Moved s a s') (h : s.Sound) : s'.Sound := by
  cases hmove with
  | idle => exact h
  | enqueued hqueue =>
    exact h.of_claims (h.tallied.enqueue hqueue) (fun c => Nat.le_refl _) s.coupons
  | @filled a c total _ hfree =>
    refine h.of_stock (fun c' => Ledger.snapshot_reset ..) (fun _ => rfl) (fun _ _ => rfl) ?_ s.coupons
    rw [← held, hfree, Nat.zero_add]
    exact Nat.le_refl _
  | @taken p r rest ha hm =>
    refine h.of_claims (h.tallied.dequeue ha hm fun c => ?_) (fun c => ?_) s.coupons
    · simp [claimed, Claim.isOf, List.countP_append, List.countP_singleton]
    · exact Nat.le_of_eq (held_append_taken s r c)
  | passed ha hm =>
    exact h.of_claims (h.tallied.dequeue_stop ha hm) (fun c => Nat.le_refl _) s.coupons
  | @reserved i r stock hclaim hstock hremaining =>
    refine h.of_stock (Ledger.snapshot_tryReserve hstock hremaining) (claimed_set hclaim .holding)
      (fun c hc => held_set_of_ne hclaim .holding hc) ?_ s.coupons
    have hroom := h.room hstock
    have hpos : stock.remaining.toNat ≠ 0 := fun h0 => hremaining (UInt64.toNat_inj.1 h0)
    rw [held_set_holding hclaim]
    show _ + (stock.remaining - 1).toNat ≤ stock.total.toNat
    rw [Ledger.toNat_remaining_sub_one hremaining]
    omega
  | @exhausted i r hclaim =>
    refine h.of_claims ?_ (fun c => ?_) s.coupons
    · rw [funext (claimed_set hclaim .done)]
      exact h.tallied
    · exact Nat.le_of_eq (held_set_exhausted hclaim c)
  | @recorded i r coupon now hclaim =>
    refine h.of_claims ?_ (fun c => ?_) _
    · rw [funext (claimed_set hclaim .done)]
      exact h.tallied
    · by_cases hc : r.campaign = c
      · subst hc
        have hheld := held_set_done hclaim
        omega
      · exact Nat.le_of_eq (held_set_of_ne hclaim .done hc)
  | @restored i r stock hclaim hstock hroom =>
    refine h.of_stock (Ledger.snapshot_restore hstock hroom) (claimed_set hclaim .done)
      (fun c hc => held_set_of_ne hclaim .done hc) ?_ s.coupons
    have hheld := held_set_done hclaim
    have hbefore := h.room hstock
    show _ + (stock.remaining + 1).toNat ≤ stock.total.toNat
    rw [Ledger.toNat_remaining_add_one hroom]
    omega
  | @dropped i r stage hclaim hstage =>
    refine h.of_claims (h.tallied.release fun c => ?_) (fun c => ?_) s.coupons
    · simpa [claimed, Claim.isOf] using countP_eraseIdx hclaim (Claim.isOf c)
    · exact Nat.le_of_eq (held_eraseIdx hclaim hstage c)

theorem sound_open {partitions : Nat} {limits : QueueLimits} {queue : Queue}
    (h : Queue.create partitions limits = .ok queue) : Sound ⟨queue, .empty, .empty, []⟩ where
  placed := by
    intro p r hr
    change r ∈ queue.requests p at hr
    rw [Queue.requests_create h] at hr
    cases hr
  lanes := Queue.counted_create h
  unknown _ := rfl
  room := by rintro c stock ⟨⟩

theorem Moved.coupons (hmove : Moved s a s') : s'.coupons = s.coupons ∨
    ∃ k, a.coupon? = some k.id ∧ s'.coupons = s.coupons.enter k := by
  cases hmove with
  | recorded => exact .inr ⟨_, rfl, rfl⟩
  | _ => exact .inl rfl

private theorem balanced_of_units {stock' : Stock} (hstock' : s.ledger.snapshot c = some stock')
    (hunits : s'.couponCount c + s'.held c = s.couponCount c + s.held c) :
    ∃ stock, s.ledger.snapshot c = some stock ∧ stock'.total = stock.total ∧
      s'.couponCount c + s'.held c + stock'.remaining.toNat =
        s.couponCount c + s.held c + stock.remaining.toNat :=
  ⟨stock', hstock', rfl, by rw [hunits]⟩

private theorem balanced_of_stock {ledger : Ledger} {claims : List Claim} {stock next stock' : Stock}
    {stage' : Stage} (hclaim : s.claims[i]? = some ⟨r, stage⟩)
    (hclaims : claims = s.claims.set i ⟨r, stage'⟩)
    (hstock : s.ledger.snapshot r.campaign = some stock)
    (hledger : ∀ c', ledger.snapshot c' = if r.campaign = c' then some next else s.ledger.snapshot c')
    (htotal : next.total = stock.total)
    (hunit : claims.countP (Claim.holds r.campaign) + next.remaining.toNat =
      s.held r.campaign + stock.remaining.toNat)
    (hstock' : ledger.snapshot c = some stock') :
    ∃ stock, s.ledger.snapshot c = some stock ∧ stock'.total = stock.total ∧
      s.couponCount c + claims.countP (Claim.holds c) + stock'.remaining.toNat =
        s.couponCount c + s.held c + stock.remaining.toNat := by
  rw [hledger] at hstock'
  split at hstock'
  · next hc =>
    subst hc
    cases hstock'
    exact ⟨stock, hstock, htotal, by rw [Nat.add_assoc, hunit, ← Nat.add_assoc]⟩
  · next hc =>
    refine ⟨stock', hstock', rfl, ?_⟩
    rw [hclaims, held_set_of_ne hclaim stage' hc]

private theorem units_of_recorded {coupon : CouponId} {now : Millis}
    (hclaim : s.claims[i]? = some ⟨r, .holding⟩) (hnew : s.coupons.coupons.get? coupon = none)
    (c : CampaignId) :
    (s.coupons.enter ⟨coupon, r.campaign, r.requester, r.id, now, none⟩).countOf c +
        (s.claims.set i ⟨r, .done⟩).countP (Claim.holds c) = s.couponCount c + s.held c := by
  rw [CouponBook.countOf_enter hnew]
  by_cases hc : r.campaign = c
  · subst hc
    have hheld := held_set_done hclaim
    simp only [if_true]
    change s.couponCount _ + 1 + _ = _
    omega
  · simp only [held_set_of_ne hclaim .done hc, hc, if_false]
    rfl

/-- A step fills up the stock of a campaign while no unit is set aside, or it takes from one of the
three, the units that remain, those set aside and the coupons, what it adds to another. -/
theorem Moved.balance (hmove : Moved s a s')
    (hnew : ∀ id, a.coupon? = some id → s.coupons.coupons.get? id = none) {stock' : Stock}
    (hstock' : s'.ledger.snapshot c = some stock') :
    (s.fills? a = some c ∧ stock'.remaining = stock'.total ∧ s'.held c = 0 ∧
      s'.couponCount c = s.couponCount c) ∨
    (s.fills? a ≠ some c ∧ ∃ stock, s.ledger.snapshot c = some stock ∧ stock'.total = stock.total ∧
      s'.couponCount c + s'.held c + stock'.remaining.toNat =
        s.couponCount c + s.held c + stock.remaining.toNat) := by
  cases hmove with
  | idle hfills => exact .inr ⟨by rw [hfills]; simp, balanced_of_units hstock' rfl⟩
  | enqueued | passed => exact .inr ⟨by simp [fills?], balanced_of_units hstock' rfl⟩
  | @filled a c' total hfills hfree =>
    change (s.ledger.reset c' total).1.snapshot c = _ at hstock'
    rw [Ledger.snapshot_reset] at hstock'
    split at hstock'
    · next hc =>
      subst hc
      cases hstock'
      exact .inl ⟨hfills, rfl, hfree, rfl⟩
    · next hc => exact .inr ⟨by rw [hfills]; simpa using hc, balanced_of_units hstock' rfl⟩
  | @taken p r =>
    exact .inr ⟨by simp [fills?],
      balanced_of_units hstock' (congrArg (s.couponCount c + ·) (held_append_taken s r c))⟩
  | @reserved i r stock hclaim hstock hremaining =>
    refine .inr ⟨by simp [fills?], balanced_of_stock hclaim rfl hstock
      (Ledger.snapshot_tryReserve hstock hremaining) rfl ?_ hstock'⟩
    have hpos : stock.remaining.toNat ≠ 0 := fun h0 => hremaining (UInt64.toNat_inj.1 h0)
    show (s.claims.set i ⟨r, .holding⟩).countP _ + (stock.remaining - 1).toNat = _
    rw [held_set_holding hclaim, Ledger.toNat_remaining_sub_one hremaining]
    omega
  | exhausted hclaim =>
    exact .inr ⟨by simp [fills?],
      balanced_of_units hstock' (congrArg (s.couponCount c + ·) (held_set_exhausted hclaim c))⟩
  | recorded hclaim =>
    exact .inr ⟨by simp [fills?],
      balanced_of_units hstock' (units_of_recorded hclaim (hnew _ rfl) c)⟩
  | @restored i r stock hclaim hstock hroom =>
    refine .inr ⟨by simp [fills?], balanced_of_stock hclaim rfl hstock
      (Ledger.snapshot_restore hstock hroom) rfl ?_ hstock'⟩
    have hheld := held_set_done hclaim
    show (s.claims.set i ⟨r, .done⟩).countP _ + (stock.remaining + 1).toNat = _
    rw [Ledger.toNat_remaining_add_one hroom]
    omega
  | dropped hclaim hstage =>
    exact .inr ⟨by simp [fills?],
      balanced_of_units hstock' (congrArg (s.couponCount c + ·) (held_eraseIdx hclaim hstage c))⟩

end Floor
end CouponIssuance
