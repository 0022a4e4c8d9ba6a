import CouponIssuance.Proofs.Service.Invariance
/-!
# Where records come from, and where they go

A record comes in when a request is turned away or queued, and is written once more when a worker
takes the request and it ends. It goes when it is swept, and only after it has expired.
-/
namespace CouponIssuance.Service

variable {s s' : Service} {e : Event} {requests : List RequestId} {coupons : List CouponId}
  {id : RequestId} {held : StatusEntry} {r : IssuanceRequest}

theorem held?_conclude (p : Nat) (r : IssuanceRequest) (stores : Stores) (resolution : Resolution) :
    (s.conclude p r stores resolution).stores.status.held? r.id =
      some ⟨r.record.resolved resolution s.now, some s.now⟩ := by
  show (s.stores.status.put s.now _).held? r.id = _
  rw [Stores.held?_put_resolved, if_pos rfl]

private theorem status_of_resolved {record : StatusRecord}
    (hheld : s.stores.status.held? id = some ⟨record, some s.now⟩) : s.status id = .ok record := by
  rw [status_eq_ok_iff]
  apply StatusStore.get_eq_some_iff.2
  exact ⟨_, hheld, StatusEntry.isExpired_at_once .., rfl⟩

theorem status_conclude (p : Nat) (r : IssuanceRequest) (stores : Stores) (resolution : Resolution) :
    (s.conclude p r stores resolution).status r.id = .ok (r.record.resolved resolution s.now) :=
  status_of_resolved (held?_conclude p r stores resolution)

theorem status_keep_resolved (r : IssuanceRequest) (resolution : Resolution) :
    (s.keep (r.record.resolved resolution s.now)).status r.id =
      .ok (r.record.resolved resolution s.now) := by
  apply status_of_resolved
  show (s.stores.status.put s.now _).held? r.id = _
  rw [Stores.held?_put_resolved, if_pos rfl]
  rfl

theorem Move.served_of_takes (hmove : Move s e s') (htakes : s.takes e = some r) :
    ∃ p minted stores resolution, e = .turn p minted ∧ r ∈ s.queue.requests p ∧
      s.Outcome r minted stores resolution ∧ s' = s.conclude p r stores resolution := by
  cases hmove with
  | idle hnone => rw [hnone] at htakes; cases htakes
  | @served p minted r' rest stores resolution ha hm houtcome =>
    rw [takes_of_head ha hm] at htakes
    cases htakes
    exact ⟨p, minted, stores, resolution, rfl, Stores.Tracked.mem_requests_head hm, houtcome, rfl⟩
  | dismissed ha hm => rw [takes_of_marker ha hm] at htakes; cases htakes
  | _ => cases htakes

theorem Move.waits_of_takes (hmove : Move s e s') (htakes : s.takes e = some r) :
    ∃ p, r ∈ s.queue.requests p := by
  obtain ⟨p, -, -, -, -, hwaits, -, -⟩ := hmove.served_of_takes htakes
  exact ⟨p, hwaits⟩

/-- Where an entry that is held after an event comes from. -/
inductive Origin (s : Service) (e : Event) (id : RequestId) (held : StatusEntry) : Prop
  | kept (hheld : s.stores.status.held? id = some held)
  | turnedAway {o c} (hevent : e = .issue o c (.ok id)) (hanswer : s.answer? o c = none)
      (hstock : s.stores.ledger.peek c = some 0)
      (hentry : held = ⟨(StatusRecord.pending id c o s.now).resolved .soldOut s.now, some s.now⟩)
  | queued {o c} (hevent : e = .issue o c (.ok id)) (hanswer : s.answer? o c = none)
      (hentry : held = ⟨.pending id c o s.now, none⟩)
  | ended {p} {r : IssuanceRequest} {minted stores resolution} (hwaits : r ∈ s.queue.requests p)
      (hid : r.id = id) (houtcome : s.Outcome r minted stores resolution)
      (hentry : held = ⟨r.record.resolved resolution s.now, some s.now⟩)

theorem Move.origin (hmove : Move s e s') (hheld : s'.stores.status.held? id = some held) :
    Origin s e id held := by
  cases hmove with
  | turnedAway hanswer hstock =>
    change (s.stores.status.put _ _).held? id = some held at hheld
    rw [StatusStore.held?_put] at hheld
    split at hheld
    · next hid =>
      cases hid
      cases hheld
      exact .turnedAway rfl hanswer hstock rfl
    · exact .kept hheld
  | queued hanswer =>
    change (s.stores.status.put _ _).held? id = some held at hheld
    rw [StatusStore.held?_put] at hheld
    split at hheld
    · next hid =>
      cases hid
      cases hheld
      exact .queued rfl hanswer rfl
    · exact .kept hheld
  | served ha hm houtcome =>
    change (s.stores.status.put _ _).held? id = some held at hheld
    rw [Stores.held?_put_resolved] at hheld
    split at hheld
    · next hid =>
      cases hheld
      exact .ended (Stores.Tracked.mem_requests_head hm) hid houtcome rfl
    · exact .kept hheld
  | swept =>
    change (s.stores.status.purge _).1.held? id = some held at hheld
    rw [StatusStore.held?_purge] at hheld
    exact .kept (Option.filter_eq_some_iff.1 hheld).1
  | _ => exact .kept hheld

/-- An entry under a name that was minted before was held before, or its request waited and has
ended now. -/
theorem Sound.origin (h : s.Sound requests coupons) (hmove : Move s e s')
    (hfresh : ∀ id, e.request? = some id → id ∉ requests) (hid : id ∈ requests)
    (hheld : s'.stores.status.held? id = some held) :
    s.stores.status.held? id = some held ∨ ∃ r resolution, s.stores.status.held? id =
      some (IssuanceRequest.entry r) ∧ held = ⟨r.record.resolved resolution s.now, some s.now⟩ := by
  cases hmove.origin hheld with
  | kept hkept => exact .inl hkept
  | turnedAway hevent => exact absurd hid (hfresh id (by rw [hevent]; rfl))
  | queued hevent => exact absurd hid (hfresh id (by rw [hevent]; rfl))
  | @ended _ r _ _ resolution hwaits hr _ hentry =>
    exact .inr ⟨r, resolution, hr ▸ (h.tracked.waiting hwaits).held, hentry⟩

/-- What becomes of an entry in an event. -/
inductive Fate (s : Service) (e : Event) (s' : Service) (id : RequestId) (held : StatusEntry) : Prop
  | kept (hheld : s'.stores.status.held? id = some held)
  | swept (hexpired : held.isExpired s.stores.status.ttl s.now = true)
      (hgone : s'.stores.status.held? id = none)
  | ended {r : IssuanceRequest} {resolution} (htakes : s.takes e = some r) (hid : r.id = id) (hwaited : held = r.entry)
      (hheld : s'.stores.status.held? id = some ⟨r.record.resolved resolution s.now, some s.now⟩)

theorem Sound.fate (h : s.Sound requests coupons) (hmove : Move s e s')
    (hfresh : ∀ id, e.request? = some id → id ∉ requests)
    (hheld : s.stores.status.held? id = some held) : Fate s e s' id held := by
  have hold {o c new} (hname : e.request? = some new) :
      (StatusRecord.pending new c o s.now).request ≠ id := by
    rintro rfl
    exact hfresh new hname (h.named.record hheld)
  cases hmove with
  | turnedAway =>
    refine .kept ?_
    show (s.stores.status.put _ _).held? id = _
    rw [StatusStore.held?_put, StatusRecord.resolved_request, if_neg (hold rfl)]
    exact hheld
  | queued =>
    refine .kept ?_
    show (s.stores.status.put _ _).held? id = _
    rw [StatusStore.held?_put, if_neg (hold rfl)]
    exact hheld
  | @served p minted r rest stores resolution ha hm =>
    by_cases hid : r.id = id
    · subst hid
      have hwaits := (h.tracked.waiting (Stores.Tracked.mem_requests_head hm)).held
      have hwaited : held = r.entry := Option.some.inj (hheld.symm.trans hwaits)
      exact .ended (takes_of_head ha hm minted) rfl hwaited (held?_conclude ..)
    · refine .kept ?_
      show (s.stores.status.put _ _).held? id = _
      rw [Stores.held?_put_resolved, if_neg hid]
      exact hheld
  | swept =>
    have hpurged : (s.stores.status.purge s.now).1.held? id =
        (some held).filter fun x => !x.isExpired s.stores.status.ttl s.now := by
      rw [StatusStore.held?_purge, hheld]
    cases hexpired : held.isExpired s.stores.status.ttl s.now with
    | true => exact .swept hexpired (hpurged.trans (by simp [hexpired]))
    | false => exact .kept (hpurged.trans (by simp [hexpired]))
  | _ => exact .kept hheld

theorem Move.ttl (hmove : Move s e s') : s'.stores.status.ttl = s.stores.status.ttl := by
  cases hmove <;> rfl

theorem Move.now_le (hmove : Move s e s') : s.now ≤ s'.now := by
  cases hmove with
  | waited => exact Nat.le_add_right ..
  | _ => exact Nat.le_refl _

end CouponIssuance.Service
