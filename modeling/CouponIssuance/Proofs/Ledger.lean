import CouponIssuance.Ledger
import CouponIssuance.Proofs.Table.Writing
/-!
# Reserving and giving back

What the operations of the ledger do to its accounts. A unit that was reserved can be given back as
long as no more remains than there was, and then the ledger is as before.
-/
namespace CouponIssuance.Ledger

@[simp] theorem snapshot_reset (l : Ledger) (c c' : CampaignId) (total : UInt64) :
    (l.reset c total).1.snapshot c' = if c = c' then some (.full total) else l.snapshot c' :=
  Table.get?_insert ..

theorem remaining_of_peek {l : Ledger} {c : CampaignId} {s : Stock} {units : UInt64}
    (h : l.peek c = some units) (hs : l.snapshot c = some s) : s.remaining = units := by
  rw [peek, hs] at h
  exact Option.some.inj h

theorem register_new {l : Ledger} {c : CampaignId} (h : l.snapshot c = none) (total : UInt64) :
    l.register c total = ((l.reset c total).1, true) := by
  have hc : l.stocks.contains c = false := by simp [Table.contains, ← snapshot.eq_1, h]
  simp [register, reset, hc]

theorem tryReserve_of_remaining {l : Ledger} {c : CampaignId} {s : Stock}
    (h : l.snapshot c = some s) (h0 : s.remaining ≠ 0) :
    l.tryReserve c = (⟨l.stocks.insert c { s with remaining := s.remaining - 1 }⟩, true) := by
  simp [tryReserve, h, h0]

theorem tryReserve_of_exhausted {l : Ledger} {c : CampaignId}
    (h : ∀ s, l.snapshot c = some s → s.remaining = 0) : l.tryReserve c = (l, false) := by
  cases hs : l.snapshot c with
  | none => simp [tryReserve, hs]
  | some s => simp [tryReserve, hs, h s hs]

theorem snapshot_tryReserve {l : Ledger} {c : CampaignId} {s : Stock}
    (h : l.snapshot c = some s) (h0 : s.remaining ≠ 0) (c' : CampaignId) :
    (l.tryReserve c).1.snapshot c' =
      if c = c' then some { s with remaining := s.remaining - 1 } else l.snapshot c' := by
  rw [tryReserve_of_remaining h h0]
  exact Table.get?_insert ..

theorem toNat_remaining_sub_one {n : UInt64} (h : n ≠ 0) : (n - 1).toNat = n.toNat - 1 := by
  have hpos : 0 < n.toNat := by
    have : n.toNat ≠ 0 := fun e => h (UInt64.toNat_inj.1 e)
    omega
  have hle : (1 : UInt64) ≤ n := by
    rw [UInt64.le_iff_toNat_le]
    exact hpos
  rw [UInt64.toNat_sub_of_le _ _ hle]
  rfl

/-- What was reserved can be given back, and nothing of it is left in the ledger. -/
theorem restore_tryReserve {l : Ledger} {c : CampaignId} {s : Stock}
    (h : l.snapshot c = some s) (h0 : s.remaining ≠ 0) (hle : s.remaining ≤ s.total) :
    (l.tryReserve c).1.restore c = (l, true) := by
  have hpos : 0 < s.remaining.toNat := by
    have : s.remaining.toNat ≠ 0 := fun e => h0 (UInt64.toNat_inj.1 e)
    omega
  have hroom : s.remaining - 1 < s.total := by
    rw [UInt64.lt_iff_toNat_lt, toNat_remaining_sub_one h0]
    rw [UInt64.le_iff_toNat_le] at hle
    omega
  have hheld := snapshot_tryReserve h h0 c
  simp only [if_true] at hheld
  simp only [restore, hheld, hroom, if_true, UInt64.sub_add_cancel]
  rw [tryReserve_of_remaining h h0]
  simp only [Table.insert_insert]
  rw [Table.insert_of_get? h]

theorem restore_of_room {l : Ledger} {c : CampaignId} {s : Stock} (h : l.snapshot c = some s)
    (hroom : s.remaining < s.total) :
    l.restore c = (⟨l.stocks.insert c { s with remaining := s.remaining + 1 }⟩, true) := by
  simp only [restore, h, hroom, if_true]

theorem snapshot_restore {l : Ledger} {c : CampaignId} {s : Stock} (h : l.snapshot c = some s)
    (hroom : s.remaining < s.total) (c' : CampaignId) : (l.restore c).1.snapshot c' =
      if c = c' then some { s with remaining := s.remaining + 1 } else l.snapshot c' := by
  rw [restore_of_room h hroom]
  exact Table.get?_insert ..

theorem toNat_remaining_add_one {n total : UInt64} (h : n < total) :
    (n + 1).toNat = n.toNat + 1 := by
  have hlt := UInt64.lt_iff_toNat_lt.1 h
  have hbound := total.toNat_lt
  rw [UInt64.toNat_add]
  show (n.toNat + 1) % 2 ^ 64 = _
  omega

end CouponIssuance.Ledger
