import CouponIssuance.Proofs.Service.Admission
import CouponIssuance.Proofs.Service.Outcome
import CouponIssuance.Proofs.Service.Serving
/-!
# First come, first served

The requests of a campaign that wait are taken in their order, whatever the workers do in between.
So while the campaign is open, how each of them ends depends on its place and on the stock alone:
the first ones win, as many as there are units, and the others find the campaign sold out. While
the campaign is closed they all fail.
-/
namespace CouponIssuance

namespace Run

section Premises

variable (run : Run)

/-- Of the campaign `c` there is `stock` after `m` events, and it is not reset from then to `n`,
when all requests that waited have been taken. -/
structure Drains (c : CampaignId) (m n : Nat) (stock : Stock) : Prop where
  le : m ≤ n
  stock : (run.after m).stock c = .ok stock
  unreset : ∀ i, m ≤ i → i < n → run.reset? i ≠ some c
  drained : ∀ x ∈ (run.after m).queue.line c, x ∉ (run.after n).queue.line c

/-- Whenever a request of the campaign is taken, work is not cancelled, the campaign is open, and a
name can be minted. -/
def Unhindered (c : CampaignId) (m n : Nat) : Prop :=
  ∀ i p minted x, m ≤ i → i < n → run.events[i]? = some (.turn p minted) →
    run.taken i = some x → x.campaign = c →
    (run.after i).cancelled = false ∧
    (∃ campaign, (run.after i).campaign c = .ok campaign ∧
      campaign.window.isOpen (run.after i).now = true) ∧
    ∃ id, minted = .ok id

/-- Whenever a request of the campaign is taken, the campaign is closed. -/
def Shut (c : CampaignId) (m n : Nat) : Prop :=
  ∀ i x, m ≤ i → i < n → run.taken i = some x → x.campaign = c →
    ∀ campaign, (run.after i).campaign c = .ok campaign →
      campaign.window.isOpen (run.after i).now = false

end Premises

variable {run : Run} {m n : Nat} {c : CampaignId} {stock : Stock}

/-- Between its resets, the stock of a campaign changes only in the turns that take one of its
requests. What such turns keep is kept all along. -/
private theorem along_turns (hmn : m ≤ n) (hstock : (run.after m).stores.ledger.snapshot c = some stock)
    (hreset : ∀ i, m ≤ i → i < n → run.reset? i ≠ some c)
    {P : List IssuanceRequest → Stock → Nat → Prop} (start : P [] stock m)
    (later : ∀ {served now k}, P served now k → P served now (k + 1))
    (turn : ∀ {k served now x minted stores resolution}, m ≤ k → k < n →
      run.Turn k x minted stores resolution → x.campaign = c →
      (run.after k).stores.ledger.snapshot c = some now → P served now k →
      ∃ now', stores.ledger.snapshot c = some now' ∧ P (served ++ [x]) now' (k + 1)) :
    ∃ now, (run.after n).stores.ledger.snapshot c = some now ∧ P (run.served c m n) now n := by
  induction hmn with
  | refl => exact ⟨stock, hstock, by rw [served_self]; exact start⟩
  | @step n hmn ih =>
    obtain ⟨now, hnow, hP⟩ := ih (fun i hi hn => hreset i hi (Nat.lt_succ_of_lt hn))
      fun hk hkn => turn hk (Nat.lt_succ_of_lt hkn)
    have hkeep : (∀ x, run.taken n = some x → x.campaign ≠ c) →
        ∃ now, (run.after (n + 1)).stores.ledger.snapshot c = some now ∧
          P (run.served c m (n + 1)) now (n + 1) := by
      intro hother
      have hserved : run.served c m (n + 1) = run.served c m n := by
        rw [served_succ hmn]
        cases hx : run.taken n with
        | none => simp
        | some x => simp [hother x hx]
      refine ⟨now, ?_, by rw [hserved]; exact later hP⟩
      cases he : run.events[n]? with
      | none => rw [after_succ_of_none he]; exact hnow
      | some e =>
        apply (effect he).stock_kept (run.sound n).stocked ?_ ?_ hnow
        · rw [← reset?_of_some he]
          exact hreset n hmn (Nat.lt_succ_self n)
        · intro x hx
          exact hother x (by rw [taken_of_some he]; exact hx)
    cases hx : run.taken n with
    | none => exact hkeep (by simp [hx])
    | some x =>
      by_cases hc : x.campaign = c
      · obtain ⟨minted, stores, resolution, hturn⟩ := turn_of_taken hx
        obtain ⟨now', hnow', hP'⟩ := turn hmn (Nat.lt_succ_self n) hturn hc hnow hP
        refine ⟨now', by rw [hturn.snapshot]; exact hnow', ?_⟩
        rw [served_succ hmn, hx]
        simpa [hc] using hP'
      · exact hkeep (by simp [hx, hc])

/-- How the request at a place in the line ends, when so many units remain. -/
def EndsByPlace (run : Run) (m n : Nat) (remaining : UInt64) (place : Nat) (x : IssuanceRequest) :
    Prop :=
  if place < remaining.toNat then ∃ id, run.Ends m n x (.issued id) else run.Ends m n x .soldOut

theorem EndsByPlace.mono {n' : Nat} {remaining : UInt64} {place : Nat} {x : IssuanceRequest}
    (h : run.EndsByPlace m n remaining place x) (hn : n ≤ n') :
    run.EndsByPlace m n' remaining place x := by
  unfold EndsByPlace at h ⊢
  split
  · next hlt =>
    rw [if_pos hlt] at h
    obtain ⟨id, hid⟩ := h
    exact ⟨id, hid.mono hn⟩
  · next hge =>
    rw [if_neg hge] at h
    exact h.mono hn

private theorem getElem?_concat {α : Type} {P : Nat → α → Prop} {xs : List α} {x : α}
    (h : ∀ j y, xs[j]? = some y → P j y) (hx : P xs.length x) :
    ∀ j y, (xs ++ [x])[j]? = some y → P j y := by
  intro j y hy
  rcases Nat.lt_trichotomy j xs.length with hlt | heq | hgt
  · rw [List.getElem?_append_left hlt] at hy
    exact h j y hy
  · subst heq
    rw [List.getElem?_concat_length] at hy
    cases hy
    exact hx
  · rw [List.getElem?_eq_none (by simp; omega)] at hy
    cases hy

private theorem served_of_unhindered (hmn : m ≤ n)
    (hstock : (run.after m).stores.ledger.snapshot c = some stock)
    (hreset : ∀ i, m ≤ i → i < n → run.reset? i ≠ some c) (hfree : run.Unhindered c m n) :
    ∃ now, (run.after n).stores.ledger.snapshot c = some now ∧
      (now.total = stock.total ∧
        now.remaining.toNat = stock.remaining.toNat - (run.served c m n).length ∧
        ∀ j x, (run.served c m n)[j]? = some x → run.EndsByPlace m n stock.remaining j x) := by
  apply along_turns (P := fun served now k => now.total = stock.total ∧
    now.remaining.toNat = stock.remaining.toNat - served.length ∧
    ∀ j x, served[j]? = some x → run.EndsByPlace m k stock.remaining j x) hmn hstock hreset
  · exact ⟨rfl, rfl, fun j x hx => by cases hx⟩
  · rintro served now k ⟨htotal, hremaining, hends⟩
    exact ⟨htotal, hremaining, fun j x hx => (hends j x hx).mono (Nat.le_succ k)⟩
  · rintro k served now x minted stores resolution hmk hkn hturn rfl hnow ⟨htotal, hremaining, hends⟩
    obtain ⟨p, he⟩ := hturn.event
    obtain ⟨hcancelled, ⟨campaign, hlisted, hopen⟩, id, rfl⟩ :=
      hfree k p minted x hmk hkn he hturn.taken rfl
    have hactive := Stores.activeCampaign_eq_ok_iff.2
      ⟨Service.campaign_eq_ok_iff.1 hlisted, hopen⟩
    have hbefore := fun j y hy => (hends j y hy).mono (Nat.le_succ k)
    by_cases h0 : now.remaining = 0
    · obtain ⟨rfl, rfl⟩ := hturn.outcome.of_exhausted hcancelled hactive hnow h0
      rw [h0] at hremaining
      have hnone : stock.remaining.toNat - served.length = 0 := hremaining.symm
      refine ⟨now, hnow, htotal, ?_, getElem?_concat hbefore ?_⟩
      · rw [h0, List.length_append, List.length_singleton]
        show 0 = _
        omega
      · rw [EndsByPlace, if_neg (by omega)]
        exact hturn.ends hmk
    · obtain ⟨p', hwaits⟩ := hturn.waits
      have hunowned := ((run.sound k).tracked.waiting hwaits).unowned
      obtain ⟨rfl, rfl⟩ := hturn.outcome.of_remaining hcancelled hactive hnow h0 hunowned
      have hpos : now.remaining.toNat ≠ 0 := fun h => h0 (UInt64.toNat_inj.1 h)
      refine ⟨{ now with remaining := now.remaining - 1 }, ?_, htotal, ?_,
        getElem?_concat hbefore ?_⟩
      · rw [Service.award, Ledger.snapshot_tryReserve hnow h0, if_pos rfl]
      · show (now.remaining - 1).toNat = _
        rw [Ledger.toNat_remaining_sub_one h0, hremaining, List.length_append,
          List.length_singleton]
        omega
      · rw [EndsByPlace, if_pos (by omega)]
        exact ⟨id, hturn.ends hmk⟩

private theorem served_of_shut (hmn : m ≤ n)
    (hstock : (run.after m).stores.ledger.snapshot c = some stock)
    (hreset : ∀ i, m ≤ i → i < n → run.reset? i ≠ some c) (hshut : run.Shut c m n) :
    ∃ now, (run.after n).stores.ledger.snapshot c = some now ∧
      (now = stock ∧ ∀ x ∈ run.served c m n, ∃ reason, run.Ends m n x (.failed reason)) := by
  apply along_turns (P := fun served now k => now = stock ∧
    ∀ x ∈ served, ∃ reason, run.Ends m k x (.failed reason)) hmn hstock hreset
  · exact ⟨rfl, fun x hx => by cases hx⟩
  · rintro served now k ⟨hsame, hends⟩
    refine ⟨hsame, fun x hx => ?_⟩
    obtain ⟨reason, hfailed⟩ := hends x hx
    exact ⟨reason, hfailed.mono (Nat.le_succ k)⟩
  · rintro k served now x minted stores resolution hmk hkn hturn rfl hnow ⟨rfl, hends⟩
    have hclosed (campaign : Campaign) :
        (run.after k).stores.activeCampaign x.campaign (run.after k).now ≠ .ok campaign := by
      intro hactive
      obtain ⟨hlisted, hopen⟩ := Stores.activeCampaign_eq_ok_iff.1 hactive
      have := hshut k x hmk hkn hturn.taken rfl campaign (Service.campaign_eq_ok_iff.2 hlisted)
      rw [hopen] at this
      cases this
    obtain ⟨⟨reason, rfl⟩, rfl⟩ := hturn.outcome.of_shut hclosed
    refine ⟨now, hnow, rfl, fun y hy => ?_⟩
    rcases List.mem_append.1 hy with hold | hnew
    · obtain ⟨why, hfailed⟩ := hends y hold
      exact ⟨why, hfailed.mono (Nat.le_succ k)⟩
    · rw [List.mem_singleton.1 hnew]
      exact ⟨reason, hturn.ends hmk⟩

private theorem Drains.line_prefix (h : run.Drains c m n stock) :
    ∃ others, run.served c m n = (run.after m).queue.line c ++ others := by
  obtain ⟨arrivals, hline, -⟩ := line_append_arrivals run c h.le
  rcases List.append_eq_append_iff.1 hline with ⟨others, hserved, -⟩ | ⟨left, hsplit, hrest⟩
  · exact ⟨others, hserved⟩
  · -- what is left of the line would still wait
    cases left with
    | nil => exact ⟨[], by rw [List.append_nil, hsplit, List.append_nil]⟩
    | cons x left =>
      have hwaited : x ∈ (run.after m).queue.line c := by rw [hsplit]; simp
      have hwaits : x ∈ (run.after n).queue.line c := by rw [hrest]; simp
      exact absurd hwaits (h.drained x hwaited)

theorem Drains.snapshot (h : run.Drains c m n stock) :
    (run.after m).stores.ledger.snapshot c = some stock := Service.stock_eq_ok_iff.1 h.stock

/-- How a request that waited ends depends on its place and on the stock. -/
private theorem Drains.ends_by_place (h : run.Drains c m n stock) (hfree : run.Unhindered c m n) {j : Nat}
    {x : IssuanceRequest} (hx : ((run.after m).queue.line c)[j]? = some x) :
    run.EndsByPlace m n stock.remaining j x := by
  obtain ⟨now, -, -, -, hends⟩ := served_of_unhindered h.le h.snapshot h.unreset hfree
  obtain ⟨others, hserved⟩ := h.line_prefix
  have hlt : j < ((run.after m).queue.line c).length := (List.getElem?_eq_some_iff.1 hx).1
  apply hends j x
  rw [hserved, List.getElem?_append_left hlt]
  exact hx

theorem EndsByPlace.state_eq {other : Run} {m' n' place : Nat} {remaining : UInt64}
    {x : IssuanceRequest} {resolution resolution' : Resolution}
    (h : run.EndsByPlace m n remaining place x) (h' : other.EndsByPlace m' n' remaining place x)
    (hx : run.Ends m n x resolution) (hx' : other.Ends m' n' x resolution') :
    resolution.state = resolution'.state := by
  unfold EndsByPlace at h h'
  split at h
  · next hlt =>
    rw [if_pos hlt] at h'
    obtain ⟨id, hid⟩ := h
    obtain ⟨id', hid'⟩ := h'
    exact (hx.state_eq hid).trans (hid'.state_eq hx')
  · next hge =>
    rw [if_neg hge] at h'
    exact (hx.state_eq h).trans (h'.state_eq hx')

/-- When all that wait have been taken, and the stock was not reset, the first of them in the order
of their admission are issued, as many as there are units, and the others are sold out, in this and
in every run with the same line and units. If the campaign is closed, all fail and the stock is as
it was. -/
theorem first_come_first_served (h : run.Drains c m n stock) :
    (((run.after m).queue.line c).map IssuanceRequest.id).Sublist (run.requestNames m) ∧
    (run.Unhindered c m n →
      (∀ j x, ((run.after m).queue.line c)[j]? = some x →
        (j < stock.remaining.toNat → ∃ id k, run.Ends m n x (.issued id) ∧
          (run.after n).stores.coupons.coupons.get? id = some k ∧
          k.owner = x.requester ∧ k.campaign = c ∧ k.request = x.id) ∧
        (stock.remaining.toNat ≤ j → run.Ends m n x .soldOut ∧
          ∀ id k, (run.after n).stores.coupons.coupons.get? id = some k → k.request ≠ x.id)) ∧
      (run.served c m n = (run.after m).queue.line c →
        ∃ now, (run.after n).stock c = .ok now ∧ now.total = stock.total ∧
          now.remaining.toNat = stock.remaining.toNat -
            min stock.remaining.toNat ((run.after m).queue.line c).length) ∧
      ∀ (other : Run) (m' n' : Nat) (stock' : Stock), other.Drains c m' n' stock' →
        other.Unhindered c m' n' → stock'.remaining = stock.remaining →
        (other.after m').queue.line c = (run.after m).queue.line c →
        ∀ x ∈ (run.after m).queue.line c, ∀ resolution resolution',
          run.Ends m n x resolution → other.Ends m' n' x resolution' →
          resolution.state = resolution'.state) ∧
    (run.Shut c m n →
      (∀ x ∈ (run.after m).queue.line c, ∃ reason, run.Ends m n x (.failed reason)) ∧
      (run.after n).stock c = .ok stock) := by
  refine ⟨run.line_in_order m c, fun hfree => ⟨?_, ?_, ?_⟩, fun hshut => ?_⟩
  · intro j x hx
    have hends := h.ends_by_place hfree hx
    unfold EndsByPlace at hends
    constructor
    · intro hlt
      rw [if_pos hlt] at hends
      obtain ⟨id, hid⟩ := hends
      obtain ⟨k, hk, howner, hcampaign, hrequest⟩ := hid.won
      have hc : x.campaign = c := by
        have hmem := (List.mem_filter.1 (List.mem_of_getElem? hx)).2
        exact of_decide_eq_true hmem
      exact ⟨id, k, hid, hk, howner, hcampaign.trans hc, hrequest⟩
    · intro hge
      rw [if_neg (by omega)] at hends
      exact ⟨hends, hends.unwon (by simp [Resolution.state])⟩
  · intro hserved
    obtain ⟨now, hnow, htotal, hremaining, -⟩ :=
      served_of_unhindered h.le h.snapshot h.unreset hfree
    refine ⟨now, Service.stock_eq_ok_iff.2 hnow, htotal, ?_⟩
    rw [hremaining, hserved]
    omega
  · intro other m' n' stock' h' hfree' hunits hline x hx resolution resolution' hends hends'
    obtain ⟨j, hj⟩ := List.getElem?_of_mem hx
    have hplace' := h'.ends_by_place hfree' (hline ▸ hj)
    rw [hunits] at hplace'
    exact (h.ends_by_place hfree hj).state_eq hplace' hends hends'
  · obtain ⟨now, hnow, rfl, hends⟩ := served_of_shut h.le h.snapshot h.unreset hshut
    obtain ⟨others, hserved⟩ := h.line_prefix
    refine ⟨fun x hx => hends x ?_, Service.stock_eq_ok_iff.2 hnow⟩
    rw [hserved]
    exact List.mem_append_left _ hx

/-- Two requests for the only unit of a campaign, and between them one for another campaign. -/
def twoForOne : Run :=
  small [.register ⟨⟨2⟩, none, 1, .unlimited, none⟩, .issue ⟨1⟩ ⟨1⟩ (.ok ⟨"a"⟩),
    .issue ⟨1⟩ ⟨2⟩ (.ok ⟨"b"⟩), .issue ⟨2⟩ ⟨1⟩ (.ok ⟨"c"⟩), .turn 0 (.ok ⟨"x"⟩),
    .turn 0 (.ok ⟨"y"⟩), .sweep, .turn 0 (.ok ⟨"z"⟩)] (by decide) (by decide)

theorem first_come_first_served_twoForOne :
    twoForOne.Drains ⟨1⟩ 4 8 ⟨1, 1⟩ ∧ twoForOne.Unhindered ⟨1⟩ 4 8 ∧
    (∃ id, twoForOne.Ends 4 8 ⟨⟨"a"⟩, ⟨1⟩, ⟨1⟩, 0⟩ (.issued id)) ∧
    twoForOne.Ends 4 8 ⟨⟨"c"⟩, ⟨1⟩, ⟨2⟩, 0⟩ .soldOut := by
  have hline : (twoForOne.after 4).queue.line ⟨1⟩ =
      [⟨⟨"a"⟩, ⟨1⟩, ⟨1⟩, 0⟩, ⟨⟨"c"⟩, ⟨1⟩, ⟨2⟩, 0⟩] := by rfl
  have hdone : (twoForOne.after 8).queue.line ⟨1⟩ = [] := by rfl
  have hdrains : twoForOne.Drains ⟨1⟩ 4 8 ⟨1, 1⟩ := by
    refine ⟨by decide, by rfl, ?_, by simp [hdone]⟩
    intro i hi hn
    match i, hi, hn with
    | 4, _, _ => decide
    | 5, _, _ => decide
    | 6, _, _ => decide
    | 7, _, _ => decide
  have hfree : twoForOne.Unhindered ⟨1⟩ 4 8 := by
    intro i p minted x hi hn he _ _
    match i, hi, hn with
    | 4, _, _ => cases he; exact ⟨by rfl, ⟨_, by rfl, by rfl⟩, _, rfl⟩
    | 5, _, _ => cases he; exact ⟨by rfl, ⟨_, by rfl, by rfl⟩, _, rfl⟩
    | 6, _, _ => cases he
    | 7, _, _ => cases he; exact ⟨by rfl, ⟨_, by rfl, by rfl⟩, _, rfl⟩
  obtain ⟨-, hopen, -⟩ := first_come_first_served hdrains
  obtain ⟨hplaces, -, -⟩ := hopen hfree
  obtain ⟨id, -, hwon, -⟩ := (hplaces 0 _ (by rw [hline]; rfl)).1 (by decide)
  obtain ⟨hlost, -⟩ := (hplaces 1 _ (by rw [hline]; rfl)).2 (by decide)
  exact ⟨hdrains, hfree, ⟨id, hwon⟩, hlost⟩

end Run
end CouponIssuance
