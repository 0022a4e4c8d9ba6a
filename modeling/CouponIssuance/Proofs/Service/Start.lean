import CouponIssuance.Proofs.Service.Invariance
/-!
# What a service starts with

The campaigns a service starts with are entered before anything is asked of it: its queue and its
status store are then as they were made.
-/
namespace CouponIssuance

/-- How long a record is kept after it has ended. -/
def Settings.retention (settings : Settings) : Millis := settings.statusTtlSecs.toNat * 1000

namespace Service

private theorem register_keeps (s : Service) (draft : CampaignDraft) :
    (s.register draft).1.queue = s.queue ∧
      (s.register draft).1.stores.status = s.stores.status := by
  dsimp only [register]
  split
  · exact ⟨rfl, rfl⟩
  · split <;> exact ⟨rfl, rfl⟩

theorem create_eq_ok {h : Hashing} {settings : Settings} {now : Millis} {s : Service}
    (hs : create h settings now = .ok s) :
    Queue.create settings.numWorkers.toNat (queueLimits settings) = .ok s.queue ∧
      s.stores.status = .create h.request settings.storeShards.toNat settings.retention := by
  apply along_create hs
  · exact fun queue hqueue => ⟨hqueue, rfl⟩
  · rintro s draft ⟨hqueue, hstatus⟩
    obtain ⟨hqueue', hstatus'⟩ := s.register_keeps draft
    rw [hqueue', hstatus']
    exact ⟨hqueue, hstatus⟩

end Service
end CouponIssuance
