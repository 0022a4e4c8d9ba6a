import CouponIssuance.Proofs.Service.Effect
/-!
# Registration is all or nothing

The catalog and the ledger are written one after the other, and the second could refuse what the first has
taken in. It never does, since in every state of a run both know the same campaigns.
-/
namespace CouponIssuance

namespace Service

variable {s s' : Service} {e : Event} {draft : CampaignDraft}

/-- Every listed campaign is fit. -/
def Selective (s : Service) : Prop :=
  ∀ c campaign, s.campaign c = .ok campaign → campaign.Fit

private theorem Move.selective (h : Move s e s') (hs : s.Selective) : s'.Selective := by
  cases h with
  | idle => exact hs
  | turnedAway => exact hs
  | queued => exact hs
  | rejected => exact hs
  | filled => exact hs
  | @registered draft campaign hbuild =>
    intro c other hlisted
    replace hlisted := campaign_eq_ok_iff.1 hlisted
    change (s.stores.catalog.campaigns.insert campaign.id campaign).get? c = some other at hlisted
    rw [Table.get?_insert] at hlisted
    split at hlisted
    · cases hlisted
      obtain ⟨hfit, rfl⟩ := CampaignDraft.build_eq_ok_iff.1 hbuild
      exact hfit
    · exact hs c other (campaign_eq_ok_iff.2 hlisted)
  | redeemed => exact hs
  | served _ _ houtcome =>
    rcases houtcome.cases with ⟨rfl, -⟩ | ⟨_, _, _, _, _, _, _, rfl⟩
    · exact hs
    · exact hs
  | dismissed => exact hs
  | swept => exact hs
  | waited => exact hs
  | closed => exact hs
  | cancelled => exact hs
  | stopSent => exact hs

theorem stocked_register (h : s.stores.Stocked) (draft : CampaignDraft) :
    (s.register draft).1.stores.Stocked := by
  have hspec := register_spec h draft
  generalize s.register draft = registered at hspec
  cases hspec with
  | unfit => exact h
  | taken => exact h
  | entered _ hnew => exact h.register hnew

private theorem selective_of_create {h : Hashing} {settings : Settings} {now : Millis}
    (hs : create h settings now = .ok s) : s.Selective := by
  suffices hboth : s.stores.Stocked ∧ s.Selective from hboth.2
  apply along_create hs
  · exact fun _ _ => ⟨Stores.stocked_create .., fun c campaign hlisted => by cases hlisted⟩
  · rintro s draft ⟨hstocked, hselective⟩
    exact ⟨stocked_register hstocked draft, (move_register hstocked draft).selective hselective⟩

/-- `campaign` is entered in the catalog, with its whole stock in the ledger, and nothing else
changes. -/
structure Enters (s : Service) (campaign : Campaign) (s' : Service) : Prop where
  rest : ∃ catalog ledger,
    s' = s.withStores { s.stores with catalog := catalog, ledger := ledger }
  listed : ∀ c, s'.campaign c = if campaign.id = c then .ok campaign else s.campaign c
  stocked : ∀ c, s'.stock c =
    if campaign.id = c then .ok (.full campaign.totalStock) else s.stock c

private theorem campaign_eq_error_iff {c : CampaignId} :
    s.campaign c = .error (.campaignNotFound c) ↔ s.stores.catalog.campaigns.get? c = none := by
  unfold Service.campaign Catalog.get
  split <;> simp [*]

private theorem stock_eq_error_iff {c : CampaignId} :
    s.stock c = .error (.campaignNotFound c) ↔ s.stores.ledger.snapshot c = none := by
  unfold Service.stock
  split <;> simp [*]

private theorem enters_register (s : Service) (campaign : Campaign) :
    s.Enters campaign (s.withStores { s.stores with
      catalog := ⟨s.stores.catalog.campaigns.insert campaign.id campaign⟩
      ledger := (s.stores.ledger.reset campaign.id campaign.totalStock).1 }) where
  rest := ⟨_, _, rfl⟩
  listed := by
    intro c
    simp only [Service.campaign, withStores, Catalog.get, Table.get?_insert]
    by_cases hc : campaign.id = c <;> simp only [hc, if_true, if_false]
  stocked := by
    intro c
    simp only [Service.stock, withStores, Ledger.snapshot_reset]
    by_cases hc : campaign.id = c <;> simp only [hc, if_true, if_false]

/-- The campaign that a draft describes, if it is registered now. -/
def drawn (s : Service) (draft : CampaignDraft) : Campaign :=
  draft.drawn s.now s.settings.defaultDiscount

private theorem register_of_unfit (h : s.stores.Stocked) (hunfit : ¬ (s.drawn draft).Fit) :
    ∃ reason, s.register draft = (s, .error (.invalidRequest reason)) := by
  have hspec := register_spec h draft
  generalize s.register draft = registered at hspec
  cases hspec with
  | unfit hbuild =>
    obtain ⟨reason, rfl⟩ := CampaignDraft.build_eq_error hbuild
    exact ⟨reason, rfl⟩
  | taken hbuild => exact absurd (CampaignDraft.build_eq_ok_iff.1 hbuild).1 hunfit
  | entered hbuild => exact absurd (CampaignDraft.build_eq_ok_iff.1 hbuild).1 hunfit

private theorem register_of_taken (h : s.stores.Stocked) (hfit : (s.drawn draft).Fit) {other : Campaign}
    (htaken : s.campaign draft.campaign = .ok other) :
    s.register draft = (s, .error (.campaignExists draft.campaign)) := by
  have hbuilt := CampaignDraft.build_eq_ok_iff.2 ⟨hfit, rfl⟩
  have hspec := register_spec h draft
  generalize s.register draft = registered at hspec
  cases hspec with
  | unfit hbuild => cases hbuilt.symm.trans hbuild
  | taken hbuild =>
    cases hbuilt.symm.trans hbuild
    rfl
  | entered hbuild hnew =>
    cases hbuilt.symm.trans hbuild
    cases hnew.symm.trans (campaign_eq_ok_iff.1 htaken)

theorem register_of_free (h : s.stores.Stocked) (hfit : (s.drawn draft).Fit)
    (hfree : s.campaign draft.campaign = .error (.campaignNotFound draft.campaign)) :
    (s.register draft).2 = .ok (s.drawn draft) ∧
      s.Enters (s.drawn draft) (s.register draft).1 := by
  have hbuilt := CampaignDraft.build_eq_ok_iff.2 ⟨hfit, rfl⟩
  have hspec := register_spec h draft
  generalize s.register draft = registered at hspec
  cases hspec with
  | unfit hbuild => cases hbuilt.symm.trans hbuild
  | taken hbuild htaken =>
    cases hbuilt.symm.trans hbuild
    cases htaken.symm.trans (campaign_eq_error_iff.1 hfree)
  | entered hbuild =>
    cases hbuilt.symm.trans hbuild
    exact ⟨rfl, s.enters_register _⟩

private theorem register_ne_internal (h : s.stores.Stocked) (draft : CampaignDraft) (context : String) :
    (s.register draft).2 ≠ .error (.internal context) := by
  have hspec := register_spec h draft
  generalize s.register draft = registered at hspec
  cases hspec with
  | unfit hbuild =>
    obtain ⟨reason, rfl⟩ := CampaignDraft.build_eq_error hbuild
    simp
  | taken => simp
  | entered => simp

end Service

namespace Run

variable (run : Run)

private theorem selective (n : Nat) : (run.after n).Selective :=
  run.always n (Service.selective_of_create run.created) fun he h => (run.move he).selective h

/-- Catalog and ledger know the same campaigns, each fit and there for good. A draft is refused as
invalid just if its campaign is not fit, and otherwise as taken just if its number is; any other
draft is entered in both stores, and nothing else changes. -/
theorem registration_atomic (n : Nat) :
    (∀ c campaign, (run.after n).campaign c = .ok campaign →
      campaign.id = c ∧ campaign.Fit ∧
      (∃ stock, (run.after n).stock c = .ok stock ∧ stock.total = campaign.totalStock) ∧
      ∀ later, n ≤ later → (run.after later).campaign c = .ok campaign) ∧
    (∀ c, (run.after n).stock c = .error (.campaignNotFound c) ↔
      (run.after n).campaign c = .error (.campaignNotFound c)) ∧
    (∀ campaign, campaign ∈ (run.after n).stores.catalog.list ↔
      (run.after n).campaign campaign.id = .ok campaign) ∧
    ((run.after n).stores.catalog.list.map fun campaign => campaign.id.value).Pairwise (· < ·) ∧
    ∀ draft,
      (¬ ((run.after n).drawn draft).Fit →
        ∃ reason, (run.after n).register draft = (run.after n, .error (.invalidRequest reason))) ∧
      (((run.after n).drawn draft).Fit →
        ∀ other, (run.after n).campaign draft.campaign = .ok other →
          (run.after n).register draft = (run.after n, .error (.campaignExists draft.campaign))) ∧
      (((run.after n).drawn draft).Fit →
        (run.after n).campaign draft.campaign = .error (.campaignNotFound draft.campaign) →
          ((run.after n).register draft).2 = .ok ((run.after n).drawn draft) ∧
          (run.after n).Enters ((run.after n).drawn draft) ((run.after n).register draft).1) ∧
      ∀ context, ((run.after n).register draft).2 ≠ .error (.internal context) := by
  have hstocked := (run.sound n).stocked
  have hlisted {c campaign} (h : (run.after n).campaign c = .ok campaign) : campaign.id = c :=
    hstocked.listed (Service.campaign_eq_ok_iff.1 h)
  refine ⟨?_, ?_, ?_, Catalog.pairwise_list fun c campaign => hlisted, fun draft => ?_⟩
  · intro c campaign hcampaign
    have hc := Service.campaign_eq_ok_iff.1 hcampaign
    obtain ⟨stock, hstock, htotal, -⟩ := hstocked.stocked hc
    refine ⟨hlisted hcampaign, run.selective n c campaign hcampaign, ?_, fun later hle => ?_⟩
    · exact ⟨stock, Service.stock_eq_ok_iff.2 hstock, htotal⟩
    · exact Service.campaign_eq_ok_iff.2 (listed_of_le hle hc)
  · intro c
    rw [Service.stock_eq_error_iff, Service.campaign_eq_error_iff, ← Option.not_isSome_iff_eq_none,
      ← Option.not_isSome_iff_eq_none, Option.isSome_iff_exists, Option.isSome_iff_exists]
    refine not_congr ⟨fun ⟨stock, hstock⟩ => hstocked.known hstock, fun ⟨campaign, hc⟩ => ?_⟩
    obtain ⟨stock, hstock, -⟩ := hstocked.stocked hc
    exact ⟨stock, hstock⟩
  · intro campaign
    rw [Catalog.mem_list_iff]
    constructor
    · rintro ⟨c, hc⟩
      cases hlisted hc
      exact hc
    · exact fun hc => ⟨campaign.id, hc⟩
  · exact ⟨Service.register_of_unfit hstocked, fun hfit _ => Service.register_of_taken hstocked hfit,
      Service.register_of_free hstocked, Service.register_ne_internal hstocked draft⟩

/-- A quarter off, in a window with both ends. -/
def quarterOff : CampaignDraft :=
  ⟨⟨2⟩, some "summer", 3, ⟨some 10, some 90⟩, some ⟨.percentage, 25, none, 0⟩⟩

/-- A second campaign is registered and gives out a coupon. -/
def secondCampaign : Run :=
  small [.initializeStock ⟨1⟩, .register quarterOff, .wait 20, .issue ⟨7⟩ ⟨2⟩ (.ok ⟨"a"⟩),
    .turn 0 (.ok ⟨"x"⟩)] (by decide) (by decide)

theorem registration_atomic_secondCampaign :
    ((secondCampaign.after 1).register quarterOff).2 =
      .ok ((secondCampaign.after 1).drawn quarterOff) ∧
    (secondCampaign.after 2).stock ⟨2⟩ = .ok ⟨3, 3⟩ ∧
    (secondCampaign.after 5).stock ⟨2⟩ = .ok ⟨3, 2⟩ ∧
    (secondCampaign.after 5).campaign ⟨2⟩ = .ok ((secondCampaign.after 1).drawn quarterOff) ∧
    (secondCampaign.after 5).register quarterOff =
      (secondCampaign.after 5, .error (.campaignExists ⟨2⟩)) ∧
    ∃ reason, (secondCampaign.after 5).register { quarterOff with window := ⟨some 10, some 10⟩ } =
      (secondCampaign.after 5, .error (.invalidRequest reason)) := by
  have hfit (n : Nat) : ((secondCampaign.after n).drawn quarterOff).Fit :=
    (CampaignDraft.build_eq_ok_iff.1 (by rfl)).1
  obtain ⟨-, -, -, -, hregister⟩ := secondCampaign.registration_atomic 1
  obtain ⟨-, -, hfree, -⟩ := hregister quarterOff
  obtain ⟨hanswer, henters⟩ := hfree (hfit 1) (by rfl)
  obtain ⟨hlisted, -⟩ := secondCampaign.registration_atomic 2
  obtain ⟨-, -, -, hstays⟩ := hlisted ⟨2⟩ _ (henters.listed ⟨2⟩)
  have hstock : (secondCampaign.after 2).stock ⟨2⟩ = _ := henters.stocked ⟨2⟩
  obtain ⟨-, -, -, -, hlater⟩ := secondCampaign.registration_atomic 5
  obtain ⟨-, htaken, -⟩ := hlater quarterOff
  obtain ⟨hunfit, -⟩ := hlater { quarterOff with window := ⟨some 10, some 10⟩ }
  have hsame := hstays 5 (by decide)
  refine ⟨hanswer, hstock, by rfl, hsame, htaken (hfit 5) _ hsame, hunfit fun h => ?_⟩
  exact absurd (h.window 10 10 rfl rfl) (by decide)

end Run
end CouponIssuance
