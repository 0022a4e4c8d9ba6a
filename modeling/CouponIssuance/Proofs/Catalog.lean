import CouponIssuance.Catalog
import CouponIssuance.Proofs.Table.Writing
/-!
# Campaigns fit to be listed

A draft is refused just if the campaign it describes is not fit. Once each campaign stands under its own
number, the listing names every campaign once, in the order of their numbers.
-/
namespace CouponIssuance

/-- What a campaign has to be: there is some stock, its window is not over before it starts, and its
discount takes something off and no more than all. -/
structure Campaign.Fit (c : Campaign) : Prop where
  stock : 1 ≤ c.totalStock
  window : ∀ start ending, c.window.startsAt = some start → c.window.endsAt = some ending →
    start < ending
  fixed : c.discount.kind = .fixed → 1 ≤ c.discount.value
  percentage : c.discount.kind = .percentage → 1 ≤ c.discount.value ∧ c.discount.value ≤ 100

theorem one_le_amount_iff {n : UInt64} : 1 ≤ n ↔ n ≠ 0 := by
  rw [UInt64.le_iff_toNat_le, Ne, ← UInt64.toNat_inj]
  show 1 ≤ n.toNat ↔ ¬n.toNat = 0
  omega

private theorem Discount.validate_eq_ok_iff {d : Discount} : d.validate = .ok () ↔
    (d.kind = .fixed → 1 ≤ d.value) ∧
      (d.kind = .percentage → 1 ≤ d.value ∧ d.value ≤ 100) := by
  rw [validate]
  cases hkind : d.kind with
  | fixed => simp [one_le_amount_iff]
  | percentage => simp

private theorem Discount.validate_eq_error {d : Discount} {why : Refusal} (h : d.validate = .error why) :
    ∃ reason, why = .invalidRequest reason := by
  unfold validate at h
  split at h
  · split at h
    · exact ⟨_, (Except.error.inj h).symm⟩
    · cases h
  · split at h
    · cases h
    · exact ⟨_, (Except.error.inj h).symm⟩

namespace CampaignDraft

/-- The campaign that a draft describes. -/
def drawn (d : CampaignDraft) (now : Millis) (defaultDiscount : UInt64) : Campaign where
  id := d.campaign
  name := d.name.getD s!"campaign-{d.campaign}"
  totalStock := d.totalStock
  window := d.window
  discount := d.discount.getD (.fixed defaultDiscount)
  createdAt := now

private theorem checkWindow_eq_ok_iff {w : Window} : checkWindow w = .ok () ↔
    ∀ start ending, w.startsAt = some start → w.endsAt = some ending → start < ending := by
  obtain ⟨startsAt, endsAt⟩ := w
  cases startsAt with
  | none => simp [checkWindow]
  | some start =>
    cases endsAt with
    | none => simp [checkWindow]
    | some ending => simp [checkWindow]

private theorem checkWindow_eq_error {w : Window} {why : Refusal} (h : checkWindow w = .error why) :
    ∃ reason, why = .invalidRequest reason := by
  unfold checkWindow at h
  split at h
  · split at h
    · exact ⟨_, (Except.error.inj h).symm⟩
    · cases h
  · cases h

variable {d : CampaignDraft} {now : Millis} {discount : UInt64}

theorem build_eq_ok_iff {campaign : Campaign} : d.build now discount = .ok campaign ↔
    (d.drawn now discount).Fit ∧ campaign = d.drawn now discount := by
  have hfit : (d.drawn now discount).Fit ↔ d.totalStock ≠ 0 ∧ checkWindow d.window = .ok () ∧
      (d.discount.getD (.fixed discount)).validate = .ok () := by
    rw [checkWindow_eq_ok_iff, Discount.validate_eq_ok_iff, ← one_le_amount_iff]
    constructor
    · exact fun h => ⟨h.stock, h.window, h.fixed, h.percentage⟩
    · exact fun ⟨hstock, hwindow, hfixed, hpercentage⟩ => ⟨hstock, hwindow, hfixed, hpercentage⟩
  rw [hfit, build]
  by_cases hstock : d.totalStock = 0
  · simp [hstock]
  · cases hwindow : checkWindow d.window with
    | error why => simp [hstock, bind, Except.bind]
    | ok =>
      cases hvalid : (d.discount.getD (.fixed discount)).validate with
      | error why => simp [hstock, hvalid, bind, Except.bind]
      | ok => simp [hstock, hvalid, bind, Except.bind, pure, Except.pure, drawn, eq_comm]

theorem build_eq_error {why : Refusal} (h : d.build now discount = .error why) :
    ∃ reason, why = .invalidRequest reason := by
  unfold build at h
  split at h
  · exact ⟨_, (Except.error.inj h).symm⟩
  · cases hwindow : checkWindow d.window with
    | error why' =>
      simp only [hwindow, bind, Except.bind, Except.error.injEq] at h
      exact h ▸ checkWindow_eq_error hwindow
    | ok =>
      cases hvalid : (d.discount.getD (.fixed discount)).validate with
      | error why' =>
        simp only [hwindow, hvalid, bind, Except.bind, Except.error.injEq] at h
        exact h ▸ Discount.validate_eq_error hvalid
      | ok => simp [hwindow, hvalid, bind, Except.bind, pure, Except.pure] at h

end CampaignDraft

namespace Catalog

variable {catalog : Catalog}

theorem get_eq_ok_iff {c : CampaignId} {campaign : Campaign} :
    catalog.get c = .ok campaign ↔ catalog.campaigns.get? c = some campaign := by
  unfold get
  split <;> simp [*]

theorem mem_list_iff {campaign : Campaign} :
    campaign ∈ catalog.list ↔ ∃ c, catalog.get c = .ok campaign := by
  rw [list, List.mem_mergeSort, Table.mem_values_iff]
  simp only [get_eq_ok_iff]

theorem pairwise_list (h : ∀ c campaign, catalog.get c = .ok campaign → campaign.id = c) :
    (catalog.list.map fun campaign => campaign.id.value).Pairwise (· < ·) := by
  have hsorted : catalog.list.Pairwise fun a b => a.id.value ≤ b.id.value := by
    refine (List.pairwise_mergeSort ?_ ?_ catalog.campaigns.values).imp of_decide_eq_true
    · intro a b c hab hbc
      simp only [decide_eq_true_eq] at hab hbc ⊢
      exact UInt64.le_trans hab hbc
    · intro a b
      simp only [Bool.or_eq_true, decide_eq_true_eq]
      exact UInt64.le_total ..
  have hkeys : catalog.campaigns.values.map Campaign.id = catalog.campaigns.keys :=
    Table.map_values_of_named fun c campaign hlisted => h c campaign (get_eq_ok_iff.2 hlisted)
  have hdistinct : (catalog.list.map Campaign.id).Nodup := by
    refine ((List.mergeSort_perm ..).map Campaign.id).nodup_iff.2 ?_
    rw [hkeys]
    exact catalog.campaigns.distinct
  rw [List.pairwise_map]
  refine hsorted.imp₂ ?_ (List.pairwise_map.1 hdistinct)
  intro a b hle hne
  refine UInt64.lt_of_le_of_ne hle fun heq => hne ?_
  exact congrArg CampaignId.mk heq

end Catalog
end CouponIssuance
