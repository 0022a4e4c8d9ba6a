import CouponIssuance.Proofs.Preview
import CouponIssuance.Proofs.RefusedAdmission
import CouponIssuance.Proofs.Registration
import CouponIssuance.Proofs.Service.Outcome
/-!
# What is listed as available can be asked for

The listing looks at windows and stock, and admission decides by itself whom to let in. While the service
goes on they agree at every moment: a campaign is listed just if a newcomer is not turned away from it, and
a campaign that is not listed gives out no coupon.
-/
namespace CouponIssuance

namespace Queue

/-- While admission goes on, every line has its worker. -/
def Manned (q : Queue) : Prop :=
  q.closed = false → ∀ p, p < q.partitions → (q.channel p).attended = true

variable {q q' : Queue} {p marker : Nat} {r : IssuanceRequest} {rest : List Message}

theorem Manned.enqueue (hq : q.Manned) (h : q.enqueue r = .ok q') : q'.Manned := by
  intro hopen p hp
  rw [closed_enqueue h] at hopen
  rw [partitions_enqueue h] at hp
  have hattended := hq hopen p hp
  rw [channel_enqueue h]
  split
  · exact hattended
  · exact hattended

theorem Manned.serve (hq : q.Manned) (ha : (q.channel p).attended = true)
    (hm : (q.channel p).messages = .issue r :: rest) : (q.serve p r).Manned := by
  intro hopen p' hp'
  rw [closed_serve ha hm] at hopen
  rw [partitions_serve ha hm] at hp'
  rw [channel_serve ha hm]
  split
  · exact ha
  · exact hq hopen p' hp'

private theorem Orderly.closed_of_marker (ho : q.Orderly) (hm : (q.channel p).messages = .stop marker :: rest) :
    q.closed = true := by
  obtain ⟨rs, markers, hs, hclosed⟩ := ho p
  cases hopen : q.closed with
  | true => rfl
  | false =>
    rw [hm, hclosed hopen] at hs
    cases rs <;> simp at hs

private theorem manned_of_closed (h : q.closed = true) : q.Manned := by
  intro hopen
  rw [h] at hopen
  cases hopen

private theorem manned_create {partitions : Nat} {limits : QueueLimits} (h : create partitions limits = .ok q) :
    q.Manned := by
  intro _ p hp
  obtain ⟨-, hchannels, -⟩ := create_eq_ok h
  rw [Queue.partitions, hchannels, List.length_replicate] at hp
  rw [channel, hchannels, List.getElem?_replicate, if_pos hp]
  rfl

end Queue

namespace Service

variable {s s' : Service} {e : Event} {requests : List RequestId} {coupons : List CouponId}
  {o : RequesterId} {c : CampaignId} {campaign : Campaign} {minted : Except Refusal RequestId}

theorem Sound.manned (h : s.Sound requests coupons) (hmove : Move s e s') (hs : s.queue.Manned) :
    s'.queue.Manned := by
  cases hmove with
  | queued _ _ hqueue => exact hs.enqueue hqueue
  | served ha hm => exact hs.serve ha hm
  | dismissed ha hm =>
    apply Queue.manned_of_closed
    rw [Queue.closed_dismiss ha hm]
    exact h.orderly.closed_of_marker hm
  | closed => exact Queue.manned_of_closed rfl
  | stopSent hcancelled =>
    apply Queue.manned_of_closed
    rw [Queue.closed_sendStop]
    exact h.halted hcancelled
  | _ => exact hs

theorem Sound.asOf (h : s.Sound requests coupons) (now : Millis) : (s.asOf now).Sound requests coupons :=
  ⟨h.book, h.stocked, h.tracked, h.orderly, h.halted, h.named⟩

end Service

namespace Run

variable (run : Run)

theorem manned (n : Nat) : (run.after n).queue.Manned := by
  apply run.always n (P := fun s => s.queue.Manned)
  · exact Queue.manned_create (Service.create_eq_ok run.created).1
  · exact fun {k _} he hmanned => (run.sound k).manned (run.move he) hmanned

end Run
end CouponIssuance
