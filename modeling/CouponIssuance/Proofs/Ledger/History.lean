import CouponIssuance.Proofs.Ledger
/-!
# A ledger after any calls

The account of a campaign is filled up by its first registration and by every reset. From then on each
reservation that succeeds takes a unit and each restoration that succeeds brings one back, so the calls
tell what remains. That is `accounts_tell_calls`, proved from what one call does.
-/
namespace CouponIssuance.Ledger

inductive Call where
  | register (campaign : CampaignId) (total : UInt64)
  | reserve (campaign : CampaignId)
  | restore (campaign : CampaignId)
  | reset (campaign : CampaignId) (total : UInt64)
  | peek (campaign : CampaignId)
  | snapshot (campaign : CampaignId)
  deriving DecidableEq

def Call.campaign : Call → CampaignId
  | .register c _ | .reserve c | .restore c | .reset c _ | .peek c | .snapshot c => c

/-- The ledger after a call. -/
def call (l : Ledger) : Call → Ledger
  | .register c total => (l.register c total).1
  | .reserve c => (l.tryReserve c).1
  | .restore c => (l.restore c).1
  | .reset c total => (l.reset c total).1
  | .peek _ | .snapshot _ => l

/-- Whether a call succeeds. A look at an account succeeds if there is one. -/
def grants (l : Ledger) : Call → Bool
  | .register c total => (l.register c total).2
  | .reserve c => (l.tryReserve c).2
  | .restore c => (l.restore c).2
  | .reset .. => true
  | .peek c => (l.peek c).isSome
  | .snapshot c => (l.snapshot c).isSome

def run (l : Ledger) (calls : List Call) : Ledger := calls.foldl call l

/-- How often the call `a` is made and succeeds. -/
def successes (a : Call) : Ledger → List Call → Nat
  | _, [] => 0
  | l, b :: calls => (if b = a ∧ l.grants b = true then 1 else 0) + successes a (l.call b) calls

/-- The account of `c` was last filled up to `total` at the end of the calls `upTo`, before the calls
`later`: by its last reset, or by its first registration if it was never reset. -/
inductive Filled (c : CampaignId) (calls : List Call) :
    (upTo : List Call) → (total : UInt64) → (later : List Call) → Prop
  | reset {before later total} (hcalls : calls = before ++ .reset c total :: later)
      (hlast : ∀ t, .reset c t ∉ later) : Filled c calls (before ++ [.reset c total]) total later
  | registered {before later total} (hcalls : calls = before ++ .register c total :: later)
      (hfirst : ∀ t, .register c t ∉ before) (hunreset : ∀ t, .reset c t ∉ calls) :
      Filled c calls (before ++ [.register c total]) total later

/-- What an account says that was filled up to `filled` when so many units were taken and given back
since. -/
structure Balanced (stock : Stock) (filled : UInt64) (taken returned : Nat) : Prop where
  total : stock.total = filled
  bounded : stock.remaining ≤ stock.total
  remaining : (stock.remaining.toNat : Int) = filled.toNat - taken + returned
  reserved : (stock.reserved.toNat : Int) = taken - returned

/-- When the calls of a ledger succeed, and what they leave alone. -/
structure Careful (l : Ledger) : Prop where
  register_iff : ∀ c total, (l.register c total).2 = true ↔ l.snapshot c = none
  reserve_iff : ∀ c, (l.tryReserve c).2 = true ↔
    ∃ stock, l.snapshot c = some stock ∧ 0 < stock.remaining
  restore_iff : ∀ c, (l.restore c).2 = true ↔
    ∃ stock, l.snapshot c = some stock ∧ stock.remaining < stock.total
  failed : ∀ a, l.grants a = false → l.call a = l
  apart : ∀ a c, a.campaign ≠ c → (l.call a).snapshot c = l.snapshot c

/-- Whether a call succeeds, for what reason, and what ledger it leaves. -/
inductive Change (l : Ledger) : Call → Bool → Ledger → Prop
  | opened {c total} (hnew : l.snapshot c = none) :
      Change l (.register c total) true (l.reset c total).1
  | known {c total stock} (hstock : l.snapshot c = some stock) : Change l (.register c total) false l
  | taken {c stock} (hstock : l.snapshot c = some stock) (hleft : stock.remaining ≠ 0) :
      Change l (.reserve c) true ⟨l.stocks.insert c { stock with remaining := stock.remaining - 1 }⟩
  | exhausted {c} (hnone : ∀ stock, l.snapshot c = some stock → stock.remaining = 0) :
      Change l (.reserve c) false l
  | returned {c stock} (hstock : l.snapshot c = some stock) (hroom : stock.remaining < stock.total) :
      Change l (.restore c) true ⟨l.stocks.insert c { stock with remaining := stock.remaining + 1 }⟩
  | whole {c} (hwhole : ∀ stock, l.snapshot c = some stock → ¬ stock.remaining < stock.total) :
      Change l (.restore c) false l
  | filled {c total} : Change l (.reset c total) true (l.reset c total).1
  | peeked {c found} : Change l (.peek c) found l
  | shown {c found} : Change l (.snapshot c) found l

variable {l l' : Ledger} {a : Call} {granted : Bool} {c : CampaignId} {stock : Stock}
  {calls later upTo : List Call} {total : UInt64}

private theorem change_register (l : Ledger) (c : CampaignId) (total : UInt64) :
    Change l (.register c total) (l.register c total).2 (l.register c total).1 := by
  cases h : l.snapshot c with
  | none =>
    rw [register_new h]
    exact .opened h
  | some stock =>
    have hc : l.stocks.contains c = true := by simp [Table.contains, ← snapshot.eq_1, h]
    have hkept : l.register c total = (l, false) := by simp [register, hc]
    rw [hkept]
    exact .known h

private theorem change_tryReserve (l : Ledger) (c : CampaignId) :
    Change l (.reserve c) (l.tryReserve c).2 (l.tryReserve c).1 := by
  cases h : l.snapshot c with
  | none =>
    have hnone : ∀ stock, l.snapshot c = some stock → stock.remaining = 0 :=
      fun stock hstock => by cases h.symm.trans hstock
    rw [tryReserve_of_exhausted hnone]
    exact .exhausted hnone
  | some stock =>
    by_cases h0 : stock.remaining = 0
    · have hnone : ∀ stock, l.snapshot c = some stock → stock.remaining = 0 :=
        fun stock' hstock => by cases h.symm.trans hstock; exact h0
      rw [tryReserve_of_exhausted hnone]
      exact .exhausted hnone
    · rw [tryReserve_of_remaining h h0]
      exact .taken h h0

private theorem change_restore (l : Ledger) (c : CampaignId) :
    Change l (.restore c) (l.restore c).2 (l.restore c).1 := by
  cases h : l.snapshot c with
  | none =>
    simp only [restore, h]
    exact .whole fun stock hstock => by cases h.symm.trans hstock
  | some stock =>
    by_cases hroom : stock.remaining < stock.total
    · rw [restore_of_room h hroom]
      exact .returned h hroom
    · simp only [restore, h, hroom, if_false]
      exact .whole fun stock' hstock => by cases h.symm.trans hstock; exact hroom

theorem change_call (l : Ledger) (a : Call) : Change l a (l.grants a) (l.call a) := by
  cases a with
  | register c total => exact l.change_register c total
  | reserve c => exact l.change_tryReserve c
  | restore c => exact l.change_restore c
  | reset c total => exact .filled
  | peek c => exact .peeked
  | snapshot c => exact .shown

private theorem snapshot_insert (l : Ledger) (c c' : CampaignId) (stock : Stock) :
    (⟨l.stocks.insert c stock⟩ : Ledger).snapshot c' =
      if c = c' then some stock else l.snapshot c' := Table.get?_insert ..

theorem Change.apart (h : Change l a granted l') (hc : a.campaign ≠ c) :
    l'.snapshot c = l.snapshot c := by
  have hinsert (stock : Stock) :
      (⟨l.stocks.insert a.campaign stock⟩ : Ledger).snapshot c = l.snapshot c := by
    rw [snapshot_insert, if_neg hc]
  cases h with
  | opened => exact hinsert _
  | taken => exact hinsert _
  | returned => exact hinsert _
  | filled => exact hinsert _
  | known | exhausted | whole | peeked | shown => rfl

private theorem careful (l : Ledger) : l.Careful where
  register_iff c total := by
    have h := l.change_register c total
    generalize l.register c total = registered at h
    obtain ⟨l', granted⟩ := registered
    cases h with
    | opened hnew => simp [hnew]
    | known hstock => simp [hstock]
  reserve_iff c := by
    have h := l.change_tryReserve c
    generalize l.tryReserve c = reserved at h
    obtain ⟨l', granted⟩ := reserved
    cases h with
    | taken hstock hleft => simp [hstock, UInt64.pos_iff_ne_zero, hleft]
    | exhausted hnone =>
      refine iff_of_false (by simp) fun ⟨stock, hstock, hleft⟩ => ?_
      exact UInt64.pos_iff_ne_zero.1 hleft (hnone stock hstock)
  restore_iff c := by
    have h := l.change_restore c
    generalize l.restore c = restored at h
    obtain ⟨l', granted⟩ := restored
    cases h with
    | returned hstock hroom => simp [hstock, hroom]
    | whole hwhole =>
      exact iff_of_false (by simp) fun ⟨stock, hstock, hroom⟩ => hwhole stock hstock hroom
  failed a hfailed := by
    have h := l.change_call a
    rw [hfailed] at h
    generalize l.call a = l' at h
    cases h with
    | known | exhausted | whole | peeked | shown => rfl
  apart a c := (l.change_call a).apart

private theorem Change.account (h : Change l a granted l') (hstock : l.snapshot c = some stock)
    (hle : stock.remaining ≤ stock.total) (hreset : ∀ t, a ≠ .reset c t) :
    ∃ stock', l'.snapshot c = some stock' ∧ stock'.total = stock.total ∧
      stock'.remaining ≤ stock'.total ∧
      stock'.remaining.toNat + (if a = .reserve c ∧ granted = true then 1 else 0) =
        stock.remaining.toNat + if a = .restore c ∧ granted = true then 1 else 0 := by
  by_cases hc : a.campaign = c
  · subst hc
    cases h with
    | opened hnew => cases hnew.symm.trans hstock
    | taken hheld hleft =>
      cases hheld.symm.trans hstock
      have hpos : stock.remaining.toNat ≠ 0 := fun h => hleft (UInt64.toNat_inj.1 h)
      have hless := toNat_remaining_sub_one hleft
      refine ⟨{ stock with remaining := stock.remaining - 1 }, ?_, rfl, ?_, ?_⟩
      · exact (snapshot_insert ..).trans (if_pos rfl)
      · rw [UInt64.le_iff_toNat_le] at hle ⊢
        show (stock.remaining - 1).toNat ≤ stock.total.toNat
        omega
      · show (stock.remaining - 1).toNat + _ = _
        simp [Call.campaign, hless]
        omega
    | returned hheld hroom =>
      cases hheld.symm.trans hstock
      have hmore := toNat_remaining_add_one hroom
      refine ⟨{ stock with remaining := stock.remaining + 1 }, ?_, rfl, ?_, ?_⟩
      · exact (snapshot_insert ..).trans (if_pos rfl)
      · rw [UInt64.lt_iff_toNat_lt] at hroom
        rw [UInt64.le_iff_toNat_le]
        show (stock.remaining + 1).toNat ≤ stock.total.toNat
        omega
      · show (stock.remaining + 1).toNat + _ = _
        simp [Call.campaign, hmore]
    | filled => exact absurd rfl (hreset _)
    | known | exhausted | whole | peeked | shown => exact ⟨stock, hstock, rfl, hle, by simp⟩
  · have hreserve : a ≠ .reserve c := fun ha => hc (congrArg Call.campaign ha)
    have hrestore : a ≠ .restore c := fun ha => hc (congrArg Call.campaign ha)
    exact ⟨stock, (h.apart hc).trans hstock, rfl, hle, by simp [hreserve, hrestore]⟩

private theorem account_run (hstock : l.snapshot c = some stock) (hle : stock.remaining ≤ stock.total)
    (hreset : ∀ t, .reset c t ∉ later) :
    ∃ stock', (l.run later).snapshot c = some stock' ∧ stock'.total = stock.total ∧
      stock'.remaining ≤ stock'.total ∧
      stock'.remaining.toNat + l.successes (.reserve c) later =
        stock.remaining.toNat + l.successes (.restore c) later := by
  induction later generalizing l stock with
  | nil => exact ⟨stock, hstock, rfl, hle, rfl⟩
  | cons a later ih =>
    have hfirst : ∀ t, a ≠ .reset c t := fun t ha => hreset t (ha ▸ List.mem_cons_self)
    have hrest : ∀ t, .reset c t ∉ later := fun t ht => hreset t (List.mem_cons_of_mem a ht)
    obtain ⟨stock', hstock', htotal, hle', hstep⟩ := (l.change_call a).account hstock hle hfirst
    obtain ⟨stock'', hstock'', htotal', hle'', hrun⟩ := ih hstock' hle' hrest
    refine ⟨stock'', hstock'', htotal'.trans htotal, hle'', ?_⟩
    simp only [successes]
    omega

theorem Change.unknown (h : Change l a granted l') (hunknown : l.snapshot c = none)
    (hregister : ∀ t, a ≠ .register c t) (hreset : ∀ t, a ≠ .reset c t) :
    l'.snapshot c = none ∧ ¬ (a = .reserve c ∧ granted = true) ∧
      ¬ (a = .restore c ∧ granted = true) := by
  have hnone : ∀ stock, l.snapshot c ≠ some stock := by simp [hunknown]
  by_cases hc : a.campaign = c
  · subst hc
    cases h with
    | opened => exact absurd rfl (hregister _)
    | filled => exact absurd rfl (hreset _)
    | known hstock => exact absurd hstock (hnone _)
    | taken hstock => exact absurd hstock (hnone _)
    | returned hstock => exact absurd hstock (hnone _)
    | exhausted | whole | peeked | shown => exact ⟨hunknown, by simp, by simp⟩
  · refine ⟨(h.apart hc).trans hunknown, ?_, ?_⟩
    · exact fun ha => hc (congrArg Call.campaign ha.1)
    · exact fun ha => hc (congrArg Call.campaign ha.1)

private theorem unknown_run (hunknown : l.snapshot c = none) (hregister : ∀ t, .register c t ∉ calls)
    (hreset : ∀ t, .reset c t ∉ calls) :
    (l.run calls).snapshot c = none ∧ l.successes (.reserve c) calls = 0 ∧
      l.successes (.restore c) calls = 0 := by
  induction calls generalizing l with
  | nil => exact ⟨hunknown, rfl, rfl⟩
  | cons a calls ih =>
    obtain ⟨hstill, hreserve, hrestore⟩ := (l.change_call a).unknown hunknown
      (fun t ha => hregister t (ha ▸ List.mem_cons_self))
      (fun t ha => hreset t (ha ▸ List.mem_cons_self))
    obtain ⟨hend, hreserves, hrestores⟩ := ih hstill
      (fun t ht => hregister t (List.mem_cons_of_mem a ht))
      (fun t ht => hreset t (List.mem_cons_of_mem a ht))
    refine ⟨hend, ?_, ?_⟩
    · simp only [successes, if_neg hreserve, hreserves]
    · simp only [successes, if_neg hrestore, hrestores]

private theorem successes_append (a : Call) (l : Ledger) (earlier later : List Call) :
    l.successes a (earlier ++ later) = l.successes a earlier + (l.run earlier).successes a later := by
  induction earlier generalizing l with
  | nil => exact (Nat.zero_add _).symm
  | cons b earlier ih =>
    simp only [List.cons_append, successes, ih]
    exact (Nat.add_assoc ..).symm

private theorem exists_last_reset {t : UInt64} (h : .reset c t ∈ calls) :
    ∃ before t' later, calls = before ++ .reset c t' :: later ∧ ∀ t'', .reset c t'' ∉ later := by
  induction calls generalizing t with
  | nil => cases h
  | cons a calls ih =>
    by_cases hlater : ∃ t', .reset c t' ∈ calls
    · obtain ⟨t', ht'⟩ := hlater
      obtain ⟨before, t'', later, rfl, hlast⟩ := ih ht'
      exact ⟨a :: before, t'', later, rfl, hlast⟩
    · rcases List.mem_cons.1 h with rfl | ht
      · exact ⟨[], t, calls, rfl, fun t' ht' => hlater ⟨t', ht'⟩⟩
      · exact absurd ⟨t, ht⟩ hlater

private theorem exists_first_registration {t : UInt64} (h : .register c t ∈ calls) :
    ∃ before t' later, calls = before ++ .register c t' :: later ∧
      ∀ t'', .register c t'' ∉ before := by
  induction calls generalizing t with
  | nil => cases h
  | cons a calls ih =>
    by_cases hfirst : ∃ t', a = .register c t'
    · obtain ⟨t', rfl⟩ := hfirst
      exact ⟨[], t', calls, rfl, fun t'' h => by cases h⟩
    · rcases List.mem_cons.1 h with ha | ht
      · exact absurd ⟨t, ha.symm⟩ hfirst
      · obtain ⟨before, t', later, rfl, hbefore⟩ := ih ht
        refine ⟨a :: before, t', later, rfl, fun t'' ht'' => ?_⟩
        rcases List.mem_cons.1 ht'' with ha | hm
        · exact hfirst ⟨t'', ha.symm⟩
        · exact hbefore t'' hm

private theorem exists_filled (h : ∃ t, .register c t ∈ calls ∨ .reset c t ∈ calls) :
    ∃ upTo total later, Filled c calls upTo total later := by
  by_cases hreset : ∃ t, .reset c t ∈ calls
  · obtain ⟨t, ht⟩ := hreset
    obtain ⟨before, total, later, hcalls, hlast⟩ := exists_last_reset ht
    exact ⟨_, total, later, .reset hcalls hlast⟩
  · obtain ⟨t, hregister | ht⟩ := h
    · obtain ⟨before, total, later, hcalls, hfirst⟩ := exists_first_registration hregister
      exact ⟨_, total, later, .registered hcalls hfirst fun t ht => hreset ⟨t, ht⟩⟩
    · exact absurd ⟨t, ht⟩ hreset

private theorem Filled.calls_eq (h : Filled c calls upTo total later) : calls = upTo ++ later := by
  cases h with
  | reset hcalls => simp [hcalls]
  | registered hcalls => simp [hcalls]

private theorem run_append (l : Ledger) (earlier later : List Call) :
    l.run (earlier ++ later) = (l.run earlier).run later := List.foldl_append

theorem Filled.unreset (h : Filled c calls upTo total later) (t : UInt64) : .reset c t ∉ later := by
  cases h with
  | reset _ hlast => exact hlast t
  | registered hcalls _ hunreset =>
    intro ht
    apply hunreset t
    rw [hcalls]
    exact List.mem_append_right _ (List.mem_cons_of_mem _ ht)

theorem Filled.full (h : Filled c calls upTo total later) :
    (empty.run upTo).snapshot c = some (.full total) := by
  cases h with
  | @reset before =>
    rw [run_append]
    exact (snapshot_reset ..).trans (if_pos rfl)
  | @registered before _ _ hcalls hfirst hunreset =>
    have hbefore : ∀ t, .reset c t ∉ before := by
      intro t ht
      apply hunreset t
      rw [hcalls]
      exact List.mem_append_left _ ht
    have hnew := (unknown_run (l := empty) rfl hfirst hbefore).1
    rw [run_append]
    show ((empty.run before).register c total).1.snapshot c = _
    rw [register_new hnew]
    exact (snapshot_reset ..).trans (if_pos rfl)

private theorem Filled.balanced (h : Filled c calls upTo total later) :
    ∃ stock, (empty.run calls).snapshot c = some stock ∧
      Balanced stock total ((empty.run upTo).successes (.reserve c) later)
        ((empty.run upTo).successes (.restore c) later) := by
  obtain ⟨stock, hstock, htotal, hle, hsum⟩ :=
    account_run h.full (UInt64.le_refl total) h.unreset
  rw [h.calls_eq, run_append]
  change stock.total = total at htotal
  change _ = total.toNat + _ at hsum
  have hgone : stock.reserved.toNat = stock.total.toNat - stock.remaining.toNat :=
    UInt64.toNat_sub_of_le _ _ hle
  have hbound := UInt64.le_iff_toNat_le.1 hle
  rw [htotal] at hgone hbound
  exact ⟨stock, hstock, htotal, hle, by omega, by omega⟩

private theorem known_iff (calls : List Call) (c : CampaignId) :
    (∃ stock, (empty.run calls).snapshot c = some stock) ↔
      ∃ t, .register c t ∈ calls ∨ .reset c t ∈ calls := by
  constructor
  · rintro ⟨stock, hstock⟩
    apply Classical.byContradiction
    intro hnone
    have hregister (t : UInt64) : .register c t ∉ calls := fun ht => hnone ⟨t, .inl ht⟩
    have hreset (t : UInt64) : .reset c t ∉ calls := fun ht => hnone ⟨t, .inr ht⟩
    have hunknown : (empty.run calls).snapshot c = none := (unknown_run rfl hregister hreset).1
    cases hunknown.symm.trans hstock
  · intro h
    obtain ⟨upTo, total, later, hfilled⟩ := exists_filled h
    obtain ⟨stock, hstock, -⟩ := hfilled.balanced
    exact ⟨stock, hstock⟩

private theorem taken_le_of_unreset (hreset : ∀ t, .reset c t ∉ calls)
    (hstock : (empty.run calls).snapshot c = some stock) :
    empty.successes (.reserve c) calls ≤
      stock.total.toNat + empty.successes (.restore c) calls := by
  obtain ⟨upTo, total, later, hfilled⟩ := exists_filled ((known_iff calls c).1 ⟨stock, hstock⟩)
  obtain ⟨stock', hstock', hbalanced⟩ := hfilled.balanced
  cases hstock'.symm.trans hstock
  have hsplit (a : Call) : empty.successes a calls =
      empty.successes a upTo + (empty.run upTo).successes a later := by
    rw [← successes_append, ← hfilled.calls_eq]
  -- nothing was taken or given back before there was an account
  have hopening : empty.successes (.reserve c) upTo = 0 ∧ empty.successes (.restore c) upTo = 0 := by
    cases hfilled with
    | reset hcalls => exact absurd (by simp [hcalls]) (hreset total)
    | @registered before _ _ hcalls hfirst =>
      have hbefore : ∀ t, .reset c t ∉ before := fun t ht => hreset t (by simp [hcalls, ht])
      obtain ⟨-, htaken, hreturned⟩ := unknown_run (l := empty) rfl hfirst hbefore
      rw [successes_append, successes_append, htaken, hreturned]
      simp [successes]
  have hremaining := hbalanced.remaining
  have htotal := hbalanced.total
  rw [hsplit, hsplit, hopening.1, hopening.2, htotal]
  omega

/-- After any calls of a ledger that was empty at first, with any totals, a campaign has an account just
if it was registered or reset. Its total is that of its last reset, or of its first registration if it was
never reset; of that, what remains is what was not taken or came back since, and there is never more of
it than the total. Whatever comes next, a unit is reserved just if one remains, and given back just if
one is missing; a call that fails, among them the registration of a campaign that has an account, changes
nothing, and none changes the account of another campaign. So where nothing is reset no more units are
taken and kept than there were. -/
theorem accounts_tell_calls (calls : List Call) (c : CampaignId) :
    ((∃ stock, (empty.run calls).snapshot c = some stock) ↔
      ∃ t, .register c t ∈ calls ∨ .reset c t ∈ calls) ∧
    ((∃ stock, (empty.run calls).snapshot c = some stock) →
      ∃ upTo total later, Filled c calls upTo total later) ∧
    (∀ upTo total later, Filled c calls upTo total later →
      ∃ stock, (empty.run calls).snapshot c = some stock ∧
        (empty.run calls).peek c = some stock.remaining ∧
        Balanced stock total ((empty.run upTo).successes (.reserve c) later)
          ((empty.run upTo).successes (.restore c) later)) ∧
    (empty.run calls).Careful ∧
    ((∀ t, .reset c t ∉ calls) →
      ((empty.run calls).snapshot c = none → empty.successes (.reserve c) calls = 0) ∧
      ∀ stock, (empty.run calls).snapshot c = some stock →
        empty.successes (.reserve c) calls ≤
          stock.total.toNat + empty.successes (.restore c) calls) := by
  refine ⟨known_iff calls c, fun hknown => exists_filled ((known_iff calls c).1 hknown), ?_,
    careful _, fun hreset => ⟨fun hunknown => ?_, fun stock => taken_le_of_unreset hreset⟩⟩
  · intro upTo total later hfilled
    obtain ⟨stock, hstock, hbalanced⟩ := hfilled.balanced
    refine ⟨stock, hstock, ?_, hbalanced⟩
    rw [peek, hstock, Option.map_some]
  · have hregister : ∀ t, .register c t ∉ calls := by
      intro t ht
      obtain ⟨stock, hstock⟩ := (known_iff calls c).2 ⟨t, .inl ht⟩
      cases hunknown.symm.trans hstock
    exact (unknown_run (l := empty) rfl hregister hreset).2.1

/-- Two units, of which one comes back; a third is asked for in vain. -/
def opening : List Call :=
  [.register ⟨1⟩ 2, .reserve ⟨1⟩, .reserve ⟨1⟩, .reserve ⟨1⟩, .restore ⟨1⟩]

/-- A reset to less than is taken, and then one unit too many is asked for and given back. -/
def reopening : List Call :=
  [.reserve ⟨1⟩, .reset ⟨1⟩ 1, .reserve ⟨1⟩, .reserve ⟨1⟩, .register ⟨1⟩ 9, .reset ⟨2⟩ 0,
    .restore ⟨1⟩, .restore ⟨1⟩, .peek ⟨1⟩, .reserve ⟨1⟩, .reserve ⟨2⟩]

theorem accounts_tell_calls_resetBelow :
    empty.successes (.reserve ⟨1⟩) opening = 2 ∧
    empty.successes (.reserve ⟨1⟩) opening ≤ 2 + empty.successes (.restore ⟨1⟩) opening ∧
    (∃ stock, (empty.run (opening ++ reopening)).snapshot ⟨1⟩ = some stock ∧
      Balanced stock 1 2 1) ∧
    ((empty.run (opening ++ reopening)).tryReserve ⟨1⟩).2 = false ∧
    ((empty.run (opening ++ reopening)).restore ⟨2⟩).2 = false := by
  obtain ⟨-, -, -, -, hunreset⟩ := accounts_tell_calls opening ⟨1⟩
  obtain ⟨-, hle⟩ := hunreset (by simp [opening])
  obtain ⟨-, -, hbalanced, hcareful, -⟩ := accounts_tell_calls (opening ++ reopening) ⟨1⟩
  have hfilled : Filled ⟨1⟩ (opening ++ reopening) ((opening ++ [.reserve ⟨1⟩]) ++ [.reset ⟨1⟩ 1]) 1
      (reopening.drop 2) := .reset rfl (by simp [reopening])
  obtain ⟨stock, hstock, -, hbalance⟩ := hbalanced _ _ _ hfilled
  have hopened : (empty.run opening).snapshot ⟨1⟩ = some ⟨2, 1⟩ := by decide
  have hleft : (empty.run (opening ++ reopening)).snapshot ⟨1⟩ = some ⟨1, 0⟩ := by decide
  have hnone : (empty.run (opening ++ reopening)).snapshot ⟨2⟩ = some ⟨0, 0⟩ := by decide
  refine ⟨by decide, hle _ hopened, ⟨stock, hstock, hbalance⟩, ?_, ?_⟩
  · rw [Bool.eq_false_iff, Ne, hcareful.reserve_iff, hleft]
    simp
  · rw [Bool.eq_false_iff, Ne, hcareful.restore_iff, hnone]
    simp

end CouponIssuance.Ledger
