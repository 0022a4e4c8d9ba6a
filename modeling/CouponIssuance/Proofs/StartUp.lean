import CouponIssuance.Proofs.Registration
import CouponIssuance.Proofs.Service.Start
import CouponIssuance.Proofs.Settings.SeedList
import CouponIssuance.Server
/-!
# Starting from accepted settings

Settings are checked before the service starts, seeds for their form and the rest for being in range. What
is left to go wrong at the start is a seed without stock, or a discount that takes nothing off. Otherwise
the service has the campaigns of the seeds, and nothing else.
-/
namespace CouponIssuance

private theorem Settings.ofArguments_eq_ok {a : Arguments} {settings : Settings}
    (h : ofArguments a = .ok settings) :
    settings.toArguments = a ∧ Seeds.parse a.seedCampaigns.toList = .ok settings.seeds := by
  unfold ofArguments at h
  split at h
  · cases h
  · cases hparse : Seeds.parse a.seedCampaigns.toList with
    | error fault =>
      rw [hparse] at h
      cases h
    | ok seeds =>
      rw [hparse] at h
      cases h
      exact ⟨rfl, rfl⟩

private theorem Arguments.in_range {a : Arguments} (h : a.fault? = none) :
    (∀ setting value, (setting, value) ∈ a.positive → 0 < value.toNat) ∧
      a.machineId.toNat ≤ Mint.maxMachine := by
  unfold fault? at h
  split at h
  · cases h
  · next hpositive =>
    split at h
    · cases h
    · next hmachine =>
      refine ⟨fun setting value hmem => ?_, Nat.not_lt.1 hmachine⟩
      have hnonzero := List.find?_eq_none.1 hpositive _ hmem
      rw [decide_eq_true_eq] at hnonzero
      exact Nat.pos_of_ne_zero fun hzero => hnonzero (UInt64.toNat_inj.1 hzero)

namespace Seeds

/-- The campaign that a seed sets up. -/
def campaignFor (discount : UInt64) (now : Millis) (seed : Seed) : Campaign where
  id := seed.1
  name := s!"campaign-{seed.1}"
  totalStock := seed.2
  window := .unlimited
  discount := .fixed discount
  createdAt := now

/-- What keeps a seed from being set up. The stock is looked at first. -/
inductive Unfit (discount : UInt64) (seed : Seed) : String → Prop
  | noStock (h : seed.2 = 0) : Unfit discount seed "totalStock must be greater than 0"
  | noDiscount (hstock : seed.2 ≠ 0) (h : discount = 0) :
      Unfit discount seed "fixed discount must be greater than 0"

end Seeds

namespace Service

open Seeds

variable {s s' : Service} {seed : Seed} {seeds : List Seed} {reason : String}

/-- The draft of a seed. -/
def draftOf (s : Service) (seed : Seed) : CampaignDraft :=
  .seeded seed.1 seed.2 s.settings.defaultDiscount

private theorem registerSeeds_cons (s : Service) (seed : Seed) (seeds : List Seed) :
    s.registerSeeds (seed :: seeds) = match s.register (s.draftOf seed) with
      | (s', .ok _) => s'.registerSeeds seeds
      | (_, .error why) => .error why := by
  rw [registerSeeds, draftOf]
  cases s.register (.seeded seed.1 seed.2 s.settings.defaultDiscount) with
  | mk s' answer => cases answer <;> rfl

private theorem drawn_fit_iff : (s.drawn (s.draftOf seed)).Fit ↔
    0 < seed.2 ∧ 0 < s.settings.defaultDiscount := by
  rw [UInt64.pos_iff_ne_zero, UInt64.pos_iff_ne_zero, ← one_le_amount_iff, ← one_le_amount_iff]
  constructor
  · intro h
    exact ⟨h.stock, h.fixed rfl⟩
  · intro h
    refine ⟨h.1, ?_, fun _ => h.2, ?_⟩
    · intro start ending hstart
      cases hstart
    · intro hkind
      cases hkind

private theorem unfit_of_not_fit (h : ¬ (0 < seed.2 ∧ 0 < s.settings.defaultDiscount)) :
    ∃ reason, Unfit s.settings.defaultDiscount seed reason := by
  simp only [UInt64.pos_iff_ne_zero, not_and, not_not] at h
  by_cases hstock : seed.2 = 0
  · exact ⟨_, .noStock hstock⟩
  · exact ⟨_, .noDiscount hstock (h hstock)⟩

private theorem register_of_unfit_seed (h : Unfit s.settings.defaultDiscount seed reason) :
    s.register (s.draftOf seed) = (s, .error (.invalidRequest reason)) := by
  cases h with
  | noStock hstock =>
    simp [register, draftOf, CampaignDraft.seeded, CampaignDraft.build, hstock, bind, Except.bind]
  | noDiscount hstock hdiscount =>
    simp [register, draftOf, CampaignDraft.seeded, CampaignDraft.build, CampaignDraft.checkWindow,
      Window.unlimited, Discount.validate, Discount.fixed, hstock, hdiscount, bind, Except.bind]

/-- The campaigns of the seeds are entered, with their whole stock, and nothing else changes. -/
structure Seeded (s : Service) (seeds : List Seed) (s' : Service) : Prop where
  rest : ∃ catalog ledger,
    s' = s.withStores { s.stores with catalog := catalog, ledger := ledger }
  entered : ∀ seed ∈ seeds, s'.campaign seed.1 = .ok (campaignFor s.settings.defaultDiscount s.now seed) ∧
    s'.stock seed.1 = .ok (.full seed.2)
  others : ∀ c, c ∉ seeds.map Prod.fst → s'.campaign c = s.campaign c ∧ s'.stock c = s.stock c

/-- How seeds are registered: all of them, or up to the first that is not fit. -/
inductive Seeding (s : Service) (seeds : List Seed) : Except Refusal Service → Prop
  | whole {after} (hfit : ∀ seed ∈ seeds, 0 < seed.2 ∧ 0 < s.settings.defaultDiscount)
      (hseeded : s.Seeded seeds after) : Seeding s seeds (.ok after)
  | stopped {before unfit later why} (hcut : seeds = before ++ unfit :: later)
      (hfit : ∀ seed ∈ before, 0 < seed.2 ∧ 0 < s.settings.defaultDiscount)
      (hunfit : Unfit s.settings.defaultDiscount unfit why) :
      Seeding s seeds (.error (.invalidRequest why))

theorem Seeded.cons {next : Service} (henters : s.Enters (s.drawn (s.draftOf seed)) next)
    (hseeded : next.Seeded seeds s') (hnew : seed.1 ∉ seeds.map Prod.fst) :
    s.Seeded (seed :: seeds) s' := by
  obtain ⟨⟨catalog, ledger, rfl⟩, hlisted, hstocked⟩ := henters
  obtain ⟨⟨catalog', ledger', rfl⟩, hentered, hothers⟩ := hseeded
  refine ⟨⟨catalog', ledger', rfl⟩, List.forall_mem_cons.2 ⟨?_, hentered⟩, fun c hc => ?_⟩
  · obtain ⟨hcampaign, hstock⟩ := hothers seed.1 hnew
    exact ⟨hcampaign.trans ((hlisted seed.1).trans (if_pos rfl)),
      hstock.trans ((hstocked seed.1).trans (if_pos rfl))⟩
  · rw [List.map_cons, List.mem_cons, not_or] at hc
    obtain ⟨hcampaign, hstock⟩ := hothers c hc.2
    exact ⟨hcampaign.trans ((hlisted c).trans (if_neg (Ne.symm hc.1))),
      hstock.trans ((hstocked c).trans (if_neg (Ne.symm hc.1)))⟩

/-- Seeds of distinct campaigns, none of which is registered, are registered one after another. -/
private theorem registerSeeds_spec (h : s.stores.Stocked) (hdistinct : (seeds.map Prod.fst).Nodup)
    (hfree : ∀ seed ∈ seeds, s.campaign seed.1 = .error (.campaignNotFound seed.1)) :
    Seeding s seeds (s.registerSeeds seeds) := by
  induction seeds generalizing s with
  | nil => exact .whole (by simp) ⟨⟨_, _, rfl⟩, by simp, fun _ _ => ⟨rfl, rfl⟩⟩
  | cons seed seeds ih =>
    rw [List.map_cons, List.nodup_cons] at hdistinct
    obtain ⟨hseedFree, hrestFree⟩ := List.forall_mem_cons.1 hfree
    rw [registerSeeds_cons]
    by_cases hfit : 0 < seed.2 ∧ 0 < s.settings.defaultDiscount
    · obtain ⟨hanswer, henters⟩ := register_of_free h (drawn_fit_iff.2 hfit) hseedFree
      have hnext := stocked_register h (s.draftOf seed)
      generalize s.register (s.draftOf seed) = registered at hanswer henters hnext
      obtain ⟨next, answer⟩ := registered
      subst hanswer
      have hsame : next.settings = s.settings := by
        obtain ⟨⟨catalog, ledger, rfl⟩, -⟩ := henters
        rfl
      have hlater := ih hnext hdistinct.2 fun other hother => by
        have hne : seed.1 ≠ other.1 := fun heq => hdistinct.1 (heq ▸ List.mem_map_of_mem hother)
        exact (henters.listed other.1).trans ((if_neg hne).trans (hrestFree other hother))
      show Seeding s (seed :: seeds) (next.registerSeeds seeds)
      generalize next.registerSeeds seeds = result at hlater
      cases hlater with
      | whole hfits hseeded =>
        rw [hsame] at hfits
        exact .whole (List.forall_mem_cons.2 ⟨hfit, hfits⟩) (.cons henters hseeded hdistinct.1)
      | @stopped before unfit later why hcut hfits hunfit =>
        rw [hsame] at hfits hunfit
        have hcut' : seed :: seeds = (seed :: before) ++ unfit :: later := by rw [hcut]; rfl
        exact .stopped hcut' (List.forall_mem_cons.2 ⟨hfit, hfits⟩) hunfit
    · obtain ⟨reason, hunfit⟩ := unfit_of_not_fit hfit
      rw [register_of_unfit_seed hunfit]
      have hcut : seed :: seeds = [] ++ seed :: seeds := rfl
      exact .stopped hcut (by simp) hunfit

private theorem queue_of_settings (settings : Settings)
    (hroom : settings.partitionBuffer.toNat ≤ QueueLimits.largestBuffer) :
    ∃ queue, Queue.create settings.numWorkers.toNat (queueLimits settings) = .ok queue := by
  obtain ⟨hpositive, -⟩ := Arguments.in_range settings.sound
  have hworkers := hpositive .numWorkers settings.numWorkers (by simp [Arguments.positive])
  have hbuffer : 0 < (queueLimits settings).buffer :=
    hpositive .partitionBuffer settings.partitionBuffer (by simp [Arguments.positive])
  rcases Queue.create_cases hworkers hbuffer with ⟨hlarge, -⟩ | hqueue
  · exact absurd hroom (Nat.not_le.2 hlarge)
  · exact hqueue

/-- A service without campaigns, requests and coupons, before a queue. -/
def blank (h : Hashing) (settings : Settings) (now : Millis) (queue : Queue) : Service where
  stores := .create h settings.storeShards.toNat settings.retention
  queue := queue
  settings := settings
  cancelled := false
  now := now

private theorem create_of_queue {h : Hashing} {settings : Settings} {now : Millis} {queue : Queue}
    (hqueue : Queue.create settings.numWorkers.toNat (queueLimits settings) = .ok queue) :
    create h settings now =
      ((blank h settings now queue).registerSeeds settings.seeds).mapError .seed := by
  rw [create, hqueue]
  dsimp only
  split
  · next why hseeds =>
    have hstopped : (blank h settings now queue).registerSeeds settings.seeds = .error why := hseeds
    rw [hstopped]
    rfl
  · next s hseeds =>
    have hregistered : (blank h settings now queue).registerSeeds settings.seeds = .ok s := hseeds
    rw [hregistered]
    rfl

private theorem create_spec (h : Hashing) {a : Arguments} {settings : Settings} (now : Millis)
    (haccepted : Settings.ofArguments a = .ok settings)
    (hroom : settings.partitionBuffer.toNat ≤ QueueLimits.largestBuffer) :
    ∃ queue, Queue.create settings.numWorkers.toNat (queueLimits settings) = .ok queue ∧
      ∃ registered, (blank h settings now queue).Seeding settings.seeds registered ∧
        create h settings now = registered.mapError .seed := by
  obtain ⟨queue, hqueue⟩ := queue_of_settings settings hroom
  obtain ⟨-, hseeds⟩ := Settings.ofArguments_eq_ok haccepted
  have hseeding : (blank h settings now queue).Seeding settings.seeds _ :=
    registerSeeds_spec (Stores.stocked_create ..) (distinct_of_parse hseeds) fun _ _ => rfl
  exact ⟨queue, hqueue, _, hseeding, create_of_queue hqueue⟩

end Service

namespace Server

open Seeds

/-- A server just started from settings: it knows the campaigns of the seeds and no others, each with its
whole stock. No coupon has been issued, no request is recorded or waits, every partition has its worker,
and the machine's number has room in the names that are minted. -/
structure JustStarted (settings : Settings) (now : Millis) (s : Server) : Prop where
  told : s.service.settings = settings
  clock : s.service.now = now
  listed : ∀ seed ∈ settings.seeds,
    s.service.campaign seed.1 = .ok (campaignFor settings.defaultDiscount now seed)
  stocked : ∀ seed ∈ settings.seeds, s.service.stock seed.1 = .ok ⟨seed.2, seed.2⟩
  unlisted : ∀ c, c ∉ settings.seeds.map Prod.fst →
    s.service.campaign c = .error (.campaignNotFound c) ∧ s.service.stock c = .error (.campaignNotFound c)
  couponless : s.service.stores.coupons = .empty
  unrecorded : ∀ id, s.service.stores.status.held? id = none
  unticketed : ∀ key, s.service.stores.tickets.current key = none
  lines : s.service.queue.channels = List.replicate settings.numWorkers.toNat .empty
  lanes : s.service.queue.lanes = Table.empty
  serving : s.service.isServing = true ∧ s.service.cancelled = false
  machine : s.mint.machine = settings.machineId.toNat ∧ settings.machineId.toNat ≤ Mint.maxMachine

private theorem start_eq (platform : Platform) (settings : Settings) (now : Millis) :
    start platform settings now = (Service.create platform.hashing settings now).map fun service => {
      platform := platform
      service := service
      mint := .create platform.generator settings.machineId.toNat
      due := List.range service.queue.partitions
      nextSweep := some (now + sweepPeriod platform settings) } := by
  rw [start]
  cases Service.create platform.hashing settings now <;> rfl

private theorem justStarted_of_seeded {h : Hashing} {settings : Settings} {now : Millis} {queue : Queue}
    {s : Server} (hqueue : Queue.create settings.numWorkers.toNat (Service.queueLimits settings) = .ok queue)
    (hseeded : (Service.blank h settings now queue).Seeded settings.seeds s.service)
    (hmint : s.mint.machine = settings.machineId.toNat) : s.JustStarted settings now := by
  obtain ⟨-, hmachine⟩ := Arguments.in_range settings.sound
  obtain ⟨-, hchannels, hlanes, hclosed, -⟩ := Queue.create_eq_ok hqueue
  obtain ⟨⟨catalog, ledger, hservice⟩, hentered, hothers⟩ := hseeded
  refine {
    told := by rw [hservice]; rfl
    clock := by rw [hservice]; rfl
    listed := fun seed hseed => (hentered seed hseed).1
    stocked := fun seed hseed => (hentered seed hseed).2
    unlisted := hothers
    couponless := by rw [hservice]; rfl
    unrecorded := fun id => by rw [hservice]; exact StatusStore.held?_create ..
    unticketed := fun key => by rw [hservice]; exact TicketIndex.current_create ..
    lines := by rw [hservice]; exact hchannels
    lanes := by rw [hservice]; exact hlanes
    serving := by rw [hservice]; exact ⟨congrArg not hclosed, rfl⟩
    machine := ⟨hmint, hmachine⟩ }

/-- Settings that are accepted start a server just if every seed has some stock and, if there are seeds, the
default discount takes something off. It then has the campaigns of the seeds, open at any time and with that
discount fixed, and nothing else. Otherwise the first seed that is not fit is refused as invalid, and for
nothing else, and the start never fails otherwise, as long as the lines are not too long to be made. -/
theorem starts_as_configured {a : Arguments} {settings : Settings}
    (haccepted : Settings.ofArguments a = .ok settings)
    (hroom : a.partitionBuffer.toNat ≤ QueueLimits.largestBuffer) (platform : Platform) (now : Millis) :
    (∀ fault, start platform settings now ≠ .error (.queue fault)) ∧
    ((∃ s, start platform settings now = .ok s) ↔
      (∀ seed ∈ settings.seeds, 0 < seed.2) ∧ (settings.seeds ≠ [] → 0 < a.defaultDiscount)) ∧
    (∀ s, start platform settings now = .ok s → s.JustStarted settings now) ∧
    ∀ why, start platform settings now = .error (.seed why) →
      ∃ before unfit later reason, settings.seeds = before ++ unfit :: later ∧
        (∀ seed ∈ before, 0 < seed.2 ∧ 0 < a.defaultDiscount) ∧
        Unfit a.defaultDiscount unfit reason ∧ why = .invalidRequest reason := by
  obtain ⟨rfl, -⟩ := Settings.ofArguments_eq_ok haccepted
  obtain ⟨queue, hqueue, registered, hseeding, hcreate⟩ := Service.create_spec platform.hashing now haccepted hroom
  rw [start_eq, hcreate]
  cases hseeding with
  | whole hfit hseeded =>
    refine ⟨?_, ?_, ?_, ?_⟩
    · intro fault hfault
      cases hfault
    · refine iff_of_true ⟨_, rfl⟩ ⟨fun seed hseed => (hfit seed hseed).1, fun hsome => ?_⟩
      obtain ⟨seed, hseed⟩ := List.exists_mem_of_ne_nil _ hsome
      exact (hfit seed hseed).2
    · intro s hs
      cases hs
      exact justStarted_of_seeded hqueue hseeded rfl
    · intro why hwhy
      cases hwhy
  | @stopped before unfit later reason hcut hfit hunfit =>
    refine ⟨?_, ?_, ?_, ?_⟩
    · intro fault hfault
      cases hfault
    · have hlists : unfit ∈ settings.seeds := by simp [hcut]
      refine iff_of_false ?_ ?_
      · rintro ⟨s, hs⟩
        cases hs
      · intro hall
        cases hunfit with
        | noStock hnone => exact UInt64.pos_iff_ne_zero.1 (hall.1 unfit hlists) hnone
        | noDiscount _ hnone =>
          have hsome := hall.2 (List.ne_nil_of_mem hlists)
          exact UInt64.pos_iff_ne_zero.1 hsome hnone
    · intro s hs
      cases hs
    · intro why hwhy
      cases hwhy
      exact ⟨before, unfit, later, reason, hcut, hfit, hunfit, rfl⟩

/-- Arguments with one worker and these seeds. -/
def seedsGiven (text : String) : Arguments :=
  { numWorkers := 1, storeShards := 1, seedCampaigns := text }

/-- A platform without names. -/
def nameless : Platform := ⟨.standard, fun _ _ => [], 128, 2, 1000, true⟩

theorem starts_as_configured_twoSeeds :
    ∃ settings settings', Settings.ofArguments (seedsGiven "1=5, 02 = 3") = .ok settings ∧
      Settings.ofArguments (seedsGiven "1=5, 2=0") = .ok settings' ∧
      (∃ s, start nameless settings 7 = .ok s ∧ s.JustStarted settings 7 ∧
        s.service.stock ⟨2⟩ = .ok ⟨3, 3⟩) ∧
      ¬ ∃ s, start nameless settings' 7 = .ok s := by
  have haccepted : Settings.ofArguments (seedsGiven "1=5, 02 = 3") =
      .ok ⟨seedsGiven "1=5, 02 = 3", [(⟨1⟩, 5), (⟨2⟩, 3)], by decide⟩ := by rfl
  have haccepted' : Settings.ofArguments (seedsGiven "1=5, 2=0") =
      .ok ⟨seedsGiven "1=5, 2=0", [(⟨1⟩, 5), (⟨2⟩, 0)], by decide⟩ := by rfl
  refine ⟨_, _, haccepted, haccepted', ?_, ?_⟩
  · obtain ⟨-, hstarts, hstarted, -⟩ := starts_as_configured haccepted (by decide) nameless 7
    obtain ⟨s, hs⟩ := hstarts.2 (by decide)
    have hjust := hstarted s hs
    exact ⟨s, hs, hjust, hjust.stocked (⟨2⟩, 3) (by simp)⟩
  · obtain ⟨-, hstarts, -⟩ := starts_as_configured haccepted' (by decide) nameless 7
    rw [hstarts]
    decide

end Server
end CouponIssuance
