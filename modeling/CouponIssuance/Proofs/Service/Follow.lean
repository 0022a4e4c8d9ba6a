import CouponIssuance.Proofs.Service.Effect
/-!
# What follows from a sound service

From any sound service, not only from one that was set up, events lead on to sound services as long
as the names they bring in are new.
-/
namespace CouponIssuance

namespace Service

/-- The service after some more events. -/
def follow (s : Service) (events : List Event) : Service := events.foldl step s

/-- The names that these events bring in are new beside those minted already. -/
structure Fresh (requests : List RequestId) (coupons : List CouponId) (events : List Event) : Prop where
  requests : (requests ++ events.filterMap Event.request?).Nodup
  coupons : (coupons ++ events.filterMap Event.coupon?).Nodup

variable {s : Service} {requests : List RequestId} {coupons : List CouponId} {e : Event}
  {events : List Event}

private theorem filterMap_cons_toList {α : Type} (f : Event → Option α) (e : Event)
    (events : List Event) : (e :: events).filterMap f = (f e).toList ++ events.filterMap f := by
  cases h : f e <;> simp [h]

theorem Fresh.request (h : Fresh requests coupons (e :: events)) {id : RequestId}
    (hid : e.request? = some id) : id ∉ requests := by
  intro hm
  have hd := h.requests
  rw [filterMap_cons_toList, hid, List.nodup_append] at hd
  exact hd.2.2 id hm id (by simp) rfl

theorem Fresh.coupon (h : Fresh requests coupons (e :: events)) {id : CouponId}
    (hid : e.coupon? = some id) : id ∉ coupons := by
  intro hm
  have hd := h.coupons
  rw [filterMap_cons_toList, hid, List.nodup_append] at hd
  exact hd.2.2 id hm id (by simp) rfl

theorem Fresh.tail (h : Fresh requests coupons (e :: events)) :
    Fresh (requests ++ e.request?.toList) (coupons ++ e.coupon?.toList) events where
  requests := by
    rw [List.append_assoc, ← filterMap_cons_toList]
    exact h.requests
  coupons := by
    rw [List.append_assoc, ← filterMap_cons_toList]
    exact h.coupons

theorem Sound.step (h : s.Sound requests coupons) (hfresh : Fresh requests coupons (e :: events)) :
    s.Move e (s.step e) ∧
      (s.step e).Sound (requests ++ e.request?.toList) (coupons ++ e.coupon?.toList) := by
  have hmove := h.move_step e fun _ => hfresh.request
  exact ⟨hmove, h.move hmove (fun _ => hfresh.request) fun _ => hfresh.coupon⟩

theorem Fresh.init {later : List Event} (h : Fresh requests coupons (events ++ later)) :
    Fresh requests coupons events where
  requests := by
    have hd := h.requests
    rw [List.filterMap_append, ← List.append_assoc] at hd
    exact (List.nodup_append.1 hd).1
  coupons := by
    have hd := h.coupons
    rw [List.filterMap_append, ← List.append_assoc] at hd
    exact (List.nodup_append.1 hd).1

/-- The service before the last event is sound, and what the last event brings in is new to it. -/
theorem Sound.follow (h : s.Sound requests coupons) (hfresh : Fresh requests coupons (events ++ [e])) :
    ∃ requests' coupons', (s.follow events).Sound requests' coupons' ∧
      Fresh requests' coupons' [e] := by
  induction events generalizing s requests coupons with
  | nil => exact ⟨requests, coupons, h, hfresh⟩
  | cons first events ih => exact ih (h.step hfresh).2 hfresh.tail

end Service
end CouponIssuance
