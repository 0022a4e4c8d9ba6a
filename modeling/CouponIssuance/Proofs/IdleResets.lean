import CouponIssuance.Proofs.Floor
import CouponIssuance.Proofs.Run
/-!
# Resets never overlap an attempt

A campaign's stock is filled up only while no request of the campaign waits or is held by a worker.
So a reset never comes between the moment a unit is set aside and the moment it is used up or given
back: units, coupons and what is set aside always add up, and a unit that is given back is never
lost at the upper bound.
-/
namespace CouponIssuance

/-- A floor as it opens, with nothing in its stores, and what clients and workers do on it. -/
structure Shift where
  partitions : Nat
  limits : QueueLimits
  queue : Queue
  created : Queue.create partitions limits = .ok queue
  acts : List Floor.Act
  couponsDistinct : (acts.filterMap Floor.Act.coupon?).Nodup

namespace Shift

variable (shift : Shift)

/-- What happens on the floor. -/
def course : Course Floor Floor.Act := ⟨Floor.step, ⟨shift.queue, .empty, .empty, []⟩, shift.acts⟩

/-- The floor after the first `n` steps. -/
def after (n : Nat) : Floor := shift.course.after n

/-- The names given to coupons in the first `n` steps. -/
def couponNames (n : Nat) : List CouponId := shift.course.names Floor.Act.coupon? n

/-- The campaign whose stock is filled up in step `n`. -/
def fills? (n : Nat) : Option CampaignId := shift.acts[n]?.bind (shift.after n).fills?

/-- When the stock of a campaign was last filled up, by its registration or by a reset. -/
def filledAt (c : CampaignId) (n : Nat) : Nat := lastAt (fun i => shift.fills? i = some c) n

/-- How many coupons of a campaign were recorded from one moment to a later one: those held then
whose names were not held before. -/
def recorded (c : CampaignId) (m n : Nat) : Nat :=
  (shift.after n).coupons.countNew (shift.after m).coupons c

variable {shift} {m n : Nat} {a : Floor.Act} {c : CampaignId} {stock : Stock}

theorem after_succ (h : shift.acts[n]? = some a) : shift.after (n + 1) = (shift.after n).step a :=
  shift.course.after_succ h

theorem after_succ_of_none (h : shift.acts[n]? = none) : shift.after (n + 1) = shift.after n :=
  shift.course.after_succ_of_none h

theorem sound (n : Nat) : (shift.after n).Sound := by
  refine shift.course.along (Nat.zero_le n) (P := Floor.Sound) (Floor.sound_open shift.created) ?_
  intro k a _ _ ha hsound
  rw [shift.course.after_succ ha]
  exact (hsound.step_moved a).sound hsound

theorem moved (ha : shift.acts[n]? = some a) : (shift.after n).Moved a (shift.after (n + 1)) := by
  rw [after_succ ha]
  exact (sound n).step_moved a

private theorem booked {id : CouponId} {k : Coupon} (hk : (shift.after n).coupons.coupons.get? id = some k) :
    k.id = id ∧ id ∈ shift.couponNames n := by
  induction n with
  | zero => cases hk
  | succ n ih =>
    cases ha : shift.acts[n]? with
    | none =>
      rw [after_succ_of_none ha] at hk
      rw [couponNames, shift.course.names_succ_of_none ha]
      exact ih hk
    | some a =>
      rw [couponNames, shift.course.names_succ ha, List.mem_append]
      rcases (moved ha).coupons with hsame | ⟨new, hname, henter⟩
      · rw [hsame] at hk
        exact ⟨(ih hk).1, .inl (ih hk).2⟩
      · rw [henter, CouponBook.get?_enter] at hk
        split at hk
        · next hid =>
          cases hk
          exact ⟨hid, .inr (by simp [hname, hid])⟩
        · exact ⟨(ih hk).1, .inl (ih hk).2⟩

theorem coupon_new (ha : shift.acts[n]? = some a) {id : CouponId} (hid : a.coupon? = some id) :
    (shift.after n).coupons.coupons.get? id = none := by
  cases hk : (shift.after n).coupons.coupons.get? id with
  | none => rfl
  | some k => exact absurd (booked hk).2 (shift.course.not_mem_names shift.couponsDistinct ha hid)

theorem grows (n : Nat) : (shift.after n).coupons.Grows (shift.after (n + 1)).coupons := by
  cases ha : shift.acts[n]? with
  | none => rw [after_succ_of_none ha]; exact .kept
  | some a =>
    rcases (moved ha).coupons with hsame | ⟨k, hname, henter⟩
    · exact hsame ▸ .kept
    · exact henter ▸ .entered (coupon_new ha hname)

variable (shift c) in
theorem recorded_add_couponCount (hmn : m ≤ n) :
    shift.recorded c m n + (shift.after m).couponCount c = (shift.after n).couponCount c :=
  CouponBook.countNew_add_countOf (fun i => (shift.after i).coupons) hmn (fun hk => (booked hk).1)
    (fun i _ => grows i) c

theorem filledAt_succ (n : Nat) : shift.filledAt c (n + 1) =
    if shift.fills? n = some c then n + 1 else shift.filledAt c n := rfl

private theorem fills?_of_some (ha : shift.acts[n]? = some a) : shift.fills? n = (shift.after n).fills? a := by
  simp [fills?, ha]

/-- Since the stock was last filled up, coupons, units set aside and remaining units have made up the
total. -/
private theorem couponCount_add_held (n : Nat) (hstock : (shift.after n).ledger.snapshot c = some stock) :
    (shift.after n).couponCount c + (shift.after n).held c + stock.remaining.toNat =
      (shift.after (shift.filledAt c n)).couponCount c + stock.total.toNat := by
  induction n generalizing stock with
  | zero => cases hstock
  | succ n ih =>
    cases ha : shift.acts[n]? with
    | none =>
      rw [after_succ_of_none ha] at hstock ⊢
      rw [filledAt_succ, if_neg (by simp [fills?, ha])]
      exact ih hstock
    | some a =>
      rw [filledAt_succ, fills?_of_some ha]
      rcases (moved ha).balance (fun id => coupon_new ha) hstock with
        ⟨hfills, hfull, hheld, -⟩ | ⟨hfills, before, hbefore, htotal, hsum⟩
      · rw [if_pos hfills, hheld, hfull, Nat.add_zero]
      · rw [if_neg hfills, hsum, ih hbefore, htotal]

variable (shift) in
/-- However the steps of clients and workers follow each other: the stock of a campaign is filled up
just if no request of the campaign waits or is held by a worker, and else the client is told how many
are and nothing changes. The coupons recorded since the stock was last filled up and the units set
aside are the units that are gone. And a unit that a worker gives back is taken back. -/
theorem resets_apart (n : Nat) (c : CampaignId) :
    (∀ {α : Type} (work : α),
      ((shift.after n).queue.whenIdle c work = .ok work ↔ (shift.after n).Idle c) ∧
      (¬(shift.after n).Idle c → (shift.after n).queue.whenIdle c work =
        .error ((shift.after n).queued c + (shift.after n).claimed c))) ∧
    (∀ total, ((shift.after n).Idle c → (shift.after n).step (.reset c total) =
        { shift.after n with ledger := ((shift.after n).ledger.reset c total).1 }) ∧
      (¬(shift.after n).Idle c → (shift.after n).step (.reset c total) = shift.after n)) ∧
    (∀ stock, (shift.after n).ledger.snapshot c = some stock → stock.remaining ≤ stock.total ∧
      shift.recorded c (shift.filledAt c n) n + (shift.after n).held c =
        stock.total.toNat - stock.remaining.toNat) ∧
    ∀ (i : Nat) (r : IssuanceRequest), (shift.after n).claims[i]? = some ⟨r, .holding⟩ →
      ((shift.after n).ledger.restore r.campaign).2 = true := by
  have hs := shift.sound n
  have hidle : (shift.after n).queue.inFlight c = 0 ↔ (shift.after n).Idle c := by
    rw [Floor.idle_iff, hs.inFlight_eq]
  refine ⟨fun work => ⟨?_, fun hbusy => ?_⟩, fun total => ⟨fun hfree => ?_, fun hbusy => ?_⟩, ?_, ?_⟩
  · rw [← hidle, Queue.whenIdle]
    by_cases hfree : (shift.after n).queue.inFlight c = 0 <;> simp [hfree]
  · rw [Queue.whenIdle, if_neg (mt hidle.1 hbusy), hs.inFlight_eq]
  · simp only [Floor.step, Queue.whenIdle, hidle.2 hfree, if_true]
  · simp only [Floor.step, Queue.whenIdle, mt hidle.1 hbusy, if_false]
  · intro stock hstock
    have hroom := hs.room hstock
    have hsum := couponCount_add_held n hstock
    have hfilled : shift.filledAt c n ≤ n := lastAt_le ..
    have hsince := recorded_add_couponCount shift c hfilled
    exact ⟨UInt64.le_iff_toNat_le.2 (by omega), by omega⟩
  · intro i r hclaim
    obtain ⟨stock, hstock, hroom⟩ := hs.room_of_holding hclaim
    rw [Ledger.restore_of_room hstock hroom]

/-- Two workers hold a request each, and one of them has set the only unit aside, when a client asks for a
reset. -/
def busy : Shift where
  partitions := 1
  limits := ⟨10, 10, 1, 1000⟩
  queue := _
  created := rfl
  acts := [.register ⟨1⟩ 1, .enqueue ⟨⟨"a"⟩, ⟨1⟩, ⟨1⟩, 0⟩, .enqueue ⟨⟨"b"⟩, ⟨1⟩, ⟨2⟩, 0⟩, .dequeue 0,
    .dequeue 0, .reserve 0, .reset ⟨1⟩ 5]
  couponsDistinct := by decide

theorem resets_apart_busy :
    (busy.after 6).queue.whenIdle ⟨1⟩ () = .error 2 ∧ busy.after 7 = busy.after 6 ∧
    busy.recorded ⟨1⟩ (busy.filledAt ⟨1⟩ 7) 7 + (busy.after 7).held ⟨1⟩ = 1 ∧
    (((busy.after 7).ledger.restore ⟨1⟩).2 = true) := by
  have hclaimed : ¬(busy.after 6).Idle ⟨1⟩ := by
    intro hidle
    exact hidle.2 ⟨⟨⟨"a"⟩, ⟨1⟩, ⟨1⟩, 0⟩, .holding⟩ (.head _) rfl
  obtain ⟨hgate, hreset, -, -⟩ := busy.resets_apart 6 ⟨1⟩
  obtain ⟨-, -, hbalance, hrestore⟩ := busy.resets_apart 7 ⟨1⟩
  refine ⟨(hgate ()).2 hclaimed, (hreset 5).2 hclaimed, (hbalance ⟨1, 0⟩ (by rfl)).2, ?_⟩
  exact hrestore 0 ⟨⟨"a"⟩, ⟨1⟩, ⟨1⟩, 0⟩ (by rfl)

end Shift
end CouponIssuance
