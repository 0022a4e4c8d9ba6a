import CouponIssuance.Proofs.LiveTicket
import CouponIssuance.Proofs.Service.Start
/-!
# The life of a request, as its callers see it

Nothing is known of a request before it is admitted. Then its record is shown: pending until the
request has ended, and as it ended until it has been kept long enough. After that it is unknown
again, for good.
-/
namespace CouponIssuance

namespace StatusRecord

/-- What a record tells fits its state: of an end it tells only when there was one, and then when,
and either the coupon or the reason. -/
def WellFormed (r : StatusRecord) : Prop :=
  match r.state with
  | .pending | .processing => r.coupon = none ∧ r.reason = none ∧ r.resolvedAt = none
  | .issued => r.coupon.isSome ∧ r.reason = none ∧ r.resolvedAt.any (r.requestedAt ≤ ·)
  | .soldOut | .failed => r.coupon = none ∧ r.reason.isSome ∧ r.resolvedAt.any (r.requestedAt ≤ ·)

/-- Two records tell of the same request. -/
structure Same (r r' : StatusRecord) : Prop where
  request : r.request = r'.request
  campaign : r.campaign = r'.campaign
  requester : r.requester = r'.requester
  requestedAt : r.requestedAt = r'.requestedAt

variable {r r' r'' : StatusRecord}

theorem Same.refl (r : StatusRecord) : r.Same r := ⟨rfl, rfl, rfl, rfl⟩

theorem Same.trans (h : r.Same r') (h' : r'.Same r'') : r.Same r'' :=
  ⟨h.request.trans h'.request, h.campaign.trans h'.campaign, h.requester.trans h'.requester,
    h.requestedAt.trans h'.requestedAt⟩

private theorem same_resolved (r : StatusRecord) (resolution : Resolution) (now : Millis) :
    (r.resolved resolution now).Same r := by
  constructor <;> simp

private theorem WellFormed.resolvedAt_isSome (h : r.WellFormed) (hend : r.state.isTerminal = true) :
    r.resolvedAt.isSome = true := by
  have hdated : r.resolvedAt.any (r.requestedAt ≤ ·) = true := by
    unfold WellFormed at h
    split at h
    · next hstate => rw [hstate] at hend; cases hend
    · next hstate => rw [hstate] at hend; cases hend
    · exact h.2.2
    · exact h.2.2
    · exact h.2.2
  cases ht : r.resolvedAt with
  | none => rw [ht] at hdated; cases hdated
  | some t => rfl

end StatusRecord

private theorem IssuanceRequest.wellFormed_processing (r : IssuanceRequest) :
    ({ r.record with state := .processing } : StatusRecord).WellFormed := ⟨rfl, rfl, rfl⟩

private theorem IssuanceRequest.wellFormed_resolved {r : IssuanceRequest} {now : Millis}
    (h : r.submittedAt ≤ now) (resolution : Resolution) :
    (r.record.resolved resolution now).WellFormed := by
  have hdated : (some now).any (r.submittedAt ≤ ·) = true := decide_eq_true h
  cases resolution with
  | issued id => exact ⟨rfl, rfl, hdated⟩
  | soldOut => exact ⟨rfl, rfl, hdated⟩
  | failed reason => exact ⟨rfl, rfl, hdated⟩

/-- An entry with a well-formed record, asked for in the past, and kept from the end it tells of. -/
structure StatusEntry.Dated (e : StatusEntry) (now : Millis) : Prop where
  wellFormed : e.record.WellFormed
  requested : e.record.requestedAt ≤ now
  resolved : e.resolved = e.record.resolvedAt

private theorem IssuanceRequest.dated_resolved {r : IssuanceRequest} {now : Millis}
    (h : r.submittedAt ≤ now) (resolution : Resolution) :
    StatusEntry.Dated ⟨r.record.resolved resolution now, some now⟩ now where
  wellFormed := wellFormed_resolved h resolution
  requested := by
    rw [StatusRecord.resolved_requestedAt]
    exact h
  resolved := by rw [StatusRecord.resolved_resolvedAt]

namespace Service

variable {s s' : Service} {e : Event} {requests : List RequestId} {coupons : List CouponId}
  {o : RequesterId} {c : CampaignId} {id : RequestId} {held : StatusEntry}

theorem Sound.dated (h : s.Sound requests coupons) (hmove : Move s e s')
    (hdated : ∀ {id held}, s.stores.status.held? id = some held → held.Dated s.now)
    (hheld : s'.stores.status.held? id = some held) : held.Dated s'.now := by
  suffices hnow : held.Dated s.now from
    ⟨hnow.wellFormed, Nat.le_trans hnow.requested hmove.now_le, hnow.resolved⟩
  cases hmove.origin hheld with
  | kept hkept => exact hdated hkept
  | @turnedAway o c _ _ _ hentry =>
    rw [hentry]
    exact IssuanceRequest.dated_resolved (r := ⟨id, c, o, s.now⟩) (Nat.le_refl _) .soldOut
  | queued _ _ hentry =>
    rw [hentry]
    exact ⟨⟨rfl, rfl, rfl⟩, Nat.le_refl _, rfl⟩
  | ended hwaits _ _ hentry =>
    rw [hentry]
    exact IssuanceRequest.dated_resolved (hdated (h.tracked.waiting hwaits).held).requested _

private theorem Sound.status_of_waiting (h : s.Sound requests coupons) {p : Nat} {r : IssuanceRequest}
    (hr : r ∈ s.queue.requests p) : s.status r.id = .ok r.record :=
  status_eq_ok_iff.2 (StatusStore.get_of_unresolved (h.tracked.waiting hr).held)

private theorem told_of_held (hnew : s.stores.status.held? id = none)
    (hheld : (s.issue o c (.ok id)).1.stores.status.held? id = some held) :
    ∃ answer, (s.issue o c (.ok id)).2 = .ok answer ∧ answer.ticket.request = id := by
  have hspec := issue_spec s o c (.ok id)
  generalize s.issue o c (.ok id) = issued at hspec hheld ⊢
  cases hspec with
  | answered => exact nomatch hnew.symm.trans hheld
  | turnedAway => exact ⟨_, rfl, rfl⟩
  | queued => exact ⟨_, rfl, rfl⟩
  | rejected =>
    rw [withdraw_keep (by exact hnew)] at hheld
    exact nomatch hnew.symm.trans hheld

private theorem status_keep_pending (r : IssuanceRequest) (queue : Queue) :
    ({ s.keep r.record with queue := queue } : Service).status r.id = .ok r.record := by
  apply status_eq_ok_iff.2
  apply StatusStore.get_of_unresolved
  show (s.stores.status.put s.now r.record).held? r.id = _
  rw [Stores.held?_put_record]
  exact if_pos rfl

private theorem Sound.told_cases (h : s.Sound requests coupons) {minted : Except Refusal RequestId}
    {answer : Admission} (htold : (s.issue o c minted).2 = .ok answer) :
    (∃ held, s.stores.status.held? answer.ticket.request = some held) ∨
    (∃ i k, s.stores.coupons.coupons.get? i = some k ∧ k.request = answer.ticket.request) ∨
    ∃ record, (s.issue o c minted).1.status answer.ticket.request = .ok record ∧
      (record.state = .pending ∨ record.state = .soldOut) := by
  have hspec := issue_spec s o c minted
  generalize s.issue o c minted = issued at hspec htold ⊢
  cases hspec with
  | answered hanswer =>
    subst htold
    rcases answer?_eq_ok hanswer with ⟨k, hk, rfl⟩ | ⟨record, hlive, rfl⟩
    · obtain ⟨hheld, -, -⟩ := h.book.owned_eq_some_iff.1 hk
      exact .inr (.inl ⟨k.id, k, hheld, rfl⟩)
    · obtain ⟨id, held, -, hheld, -, rfl, -⟩ := held_of_liveRecord hlive
      have hid : (Admission.ofRecord held.record).ticket.request = id := by
        unfold Admission.ofRecord
        dsimp only
        split <;> exact (h.tracked.held hheld).1
      exact .inl ⟨held, by rw [hid]; exact hheld⟩
  | unnamed => cases htold
  | @turnedAway id =>
    cases htold
    exact .inr (.inr ⟨_, status_keep_resolved ⟨id, c, o, s.now⟩ .soldOut, .inr rfl⟩)
  | @queued id queue =>
    cases htold
    exact .inr (.inr ⟨_, status_keep_pending ⟨id, c, o, s.now⟩ queue, .inl rfl⟩)
  | rejected => cases htold

end Service

namespace Run

variable {run : Run} {m n : Nat} {id : RequestId} {held later : StatusEntry}
  {record record' : StatusRecord}

variable (run) in
/-- Event `i` is a call that is answered with this name. -/
def Grants (i : Nat) (id : RequestId) : Prop :=
  ∃ o c minted answer, run.events[i]? = some (.issue o c minted) ∧
    ((run.after i).issue o c minted).2 = .ok answer ∧ answer.ticket.request = id

variable (run) in
theorem ttl (n : Nat) : (run.after n).stores.status.ttl = run.settings.retention := by
  apply always (P := fun s => s.stores.status.ttl = run.settings.retention)
  · rw [(Service.create_eq_ok run.created).2]
    rfl
  · exact fun he hkept => (run.move he).ttl.trans hkept

theorem dated (hheld : (run.after n).stores.status.held? id = some held) :
    held.Dated (run.after n).now := by
  suffices h : ∀ {id held}, (run.after n).stores.status.held? id = some held →
      held.Dated (run.after n).now from h hheld
  apply always (P := fun s => ∀ {id held}, s.stores.status.held? id = some held → held.Dated s.now)
  · intro id held hheld
    cases run.new.sound.named.record hheld
  · exact fun he hdated => (run.sound _).dated (run.move he) hdated

/-- What is kept under a name, be it a record or a coupon, is kept since the name was told to a
caller. -/
private theorem told_before (n : Nat) :
    (∀ id held, (run.after n).stores.status.held? id = some held → ∃ i, i < n ∧ run.Grants i id) ∧
    ∀ j k, (run.after n).stores.coupons.coupons.get? j = some k →
      ∃ i, i < n ∧ run.Grants i k.request := by
  induction n with
  | zero =>
    refine ⟨fun id held hheld => ?_, fun j k hk => ?_⟩
    · cases run.new.sound.named.record hheld
    · cases run.new.sound.named.request hk
  | succ n ih =>
    obtain ⟨hrecords, hcoupons⟩ := ih
    have hearlier {id : RequestId} : (∃ i, i < n ∧ run.Grants i id) →
        ∃ i, i < n + 1 ∧ run.Grants i id :=
      fun ⟨i, hi, hgrant⟩ => ⟨i, Nat.lt_succ_of_lt hi, hgrant⟩
    cases he : run.events[n]? with
    | none =>
      rw [after_succ_of_none he]
      exact ⟨fun id held hheld => hearlier (hrecords id held hheld),
        fun j k hk => hearlier (hcoupons j k hk)⟩
    | some e =>
      -- a record under a new name comes in with the call that is told the name
      have hnow {o c id held} (hevent : e = .issue o c (.ok id))
          (hheld : (run.after (n + 1)).stores.status.held? id = some held) :
          ∃ i, i < n + 1 ∧ run.Grants i id := by
        have hnew := (run.sound n).unheld (request_fresh he (by rw [hevent]; rfl))
        rw [after_succ he, hevent] at hheld
        obtain ⟨answer, htold, hid⟩ := Service.told_of_held hnew hheld
        exact ⟨n, Nat.lt_succ_self n, o, c, .ok id, answer, hevent ▸ he, htold, hid⟩
      constructor
      · intro id held hheld
        cases (run.move he).origin hheld with
        | kept hkept => exact hearlier (hrecords id held hkept)
        | turnedAway hevent => exact hnow hevent hheld
        | queued hevent => exact hnow hevent hheld
        | ended hwaits hid =>
          exact hearlier (hrecords id _ (hid ▸ ((run.sound n).tracked.waiting hwaits).held))
      · intro j k hk
        rcases (effect he).held_of (run.sound n).book hk with ⟨k', hk', halike⟩ | ⟨r, htakes, hr⟩
        · rw [halike.request]
          exact hearlier (hcoupons j k' hk')
        · obtain ⟨p, hwaits⟩ := (run.move he).waits_of_takes htakes
          rw [hr]
          exact hearlier (hrecords r.id _ ((run.sound n).tracked.waiting hwaits).held)

private theorem status_of_untold (huntold : ∀ i, i < n → ¬ run.Grants i id) :
    (run.after n).status id = .error (.requestNotFound id) := by
  apply Service.status_eq_error_iff.2
  cases hget : (run.after n).stores.status.get (run.after n).now id with
  | none => rfl
  | some record =>
    obtain ⟨held, hheld, -, -⟩ := StatusStore.get_eq_some_iff.1 hget
    obtain ⟨i, hi, hgrant⟩ := (told_before n).1 id held hheld
    exact absurd hgrant (huntold i hi)

private theorem status_of_told (htold : run.Grants n id) (hfirst : ∀ i, i < n → ¬ run.Grants i id) :
    ∃ record, (run.after (n + 1)).status id = .ok record ∧
      (record.state = .pending ∨ record.state = .soldOut) := by
  obtain ⟨o, c, minted, answer, hevent, hanswer, rfl⟩ := htold
  rcases (run.sound n).told_cases hanswer with ⟨held, hheld⟩ | ⟨j, k, hk, hrequest⟩ | hnew
  · obtain ⟨i, hi, hgrant⟩ := (told_before n).1 _ held hheld
    exact absurd hgrant (hfirst i hi)
  · obtain ⟨i, hi, hgrant⟩ := (told_before n).2 j k hk
    exact absurd (hrequest ▸ hgrant) (hfirst i hi)
  · rw [after_succ hevent]
    exact hnew

private theorem waiting_of_open (hseen : (run.after n).status id = .ok record)
    (hopen : record.state.isTerminal = false) : ∃ p, ∃ r ∈ (run.after n).queue.requests p,
      r.id = id ∧ record = r.record := by
  obtain ⟨held, hheld, -, rfl⟩ := StatusStore.get_eq_some_iff.1 (Service.status_eq_ok_iff.1 hseen)
  obtain ⟨p, r, hr, rfl, hid⟩ := (run.sound n).waiting_of_held hheld hopen
  exact ⟨p, r, hr, hid, rfl⟩

private theorem shown_until_ended (hmn : m ≤ n) (hseen : (run.after m).status id = .ok record) :
    (run.after n).status id = .ok record ∧ record.state.isTerminal = false ∨
      ∃ k ended, m ≤ k ∧ k ≤ n ∧ (run.after k).status id = .ok ended ∧
        ended.state.isTerminal = true := by
  cases hend : record.state.isTerminal with
  | true => exact .inr ⟨m, record, Nat.le_refl m, hmn, hseen, hend⟩
  | false =>
    obtain ⟨p, r, hr, rfl, rfl⟩ := waiting_of_open hseen hend
    by_cases hended : ∃ k ended, m ≤ k ∧ k ≤ n ∧ (run.after k).status r.id = .ok ended ∧
        ended.state.isTerminal = true
    · exact .inr hended
    · have hwaits := waits_until_resolved hmn hr fun i hi hn ended hseen' => by
        cases hopen : ended.state.isTerminal with
        | false => rfl
        | true => exact absurd ⟨i, ended, Nat.le_of_lt hi, hn, hseen', hopen⟩ hended
      exact .inl ⟨(run.sound n).status_of_waiting hwaits, rfl⟩

private theorem kept_or_expired (hmn : m ≤ n) {t : Millis}
    (hheld : (run.after m).stores.status.held? id = some ⟨record, some t⟩) :
    (run.after n).stores.status.held? id = some ⟨record, some t⟩ ∨
      (run.after n).stores.status.held? id = none ∧ t + run.settings.retention < (run.after n).now := by
  have hnamed : id ∈ run.requestNames m := (run.sound m).named.record hheld
  apply along (P := fun s => s.stores.status.held? id = some ⟨record, some t⟩ ∨
    s.stores.status.held? id = none ∧ t + run.settings.retention < s.now) hmn (.inl hheld)
  intro k e hmk _ he hbefore
  have hmove := run.move he
  rcases hbefore with hkept | ⟨hgone, hlate⟩
  · cases (run.sound k).fate hmove (fun _ => request_fresh he) hkept with
    | kept hkept' => exact .inl hkept'
    | swept hexpired hgone =>
      rw [ttl] at hexpired
      have hlate := StatusEntry.isExpired_iff.1 hexpired
      exact .inr ⟨hgone, Nat.lt_of_lt_of_le hlate hmove.now_le⟩
    | ended _ _ hwaited => cases hwaited
  · refine .inr ⟨?_, Nat.lt_of_lt_of_le hlate hmove.now_le⟩
    -- what is gone is not written again, since no name is minted twice
    cases hback : (run.after (k + 1)).stores.status.held? id with
    | none => rfl
    | some held =>
      have hid := named_of_le hmk hnamed
      rcases (run.sound k).origin hmove (fun _ => request_fresh he) hid hback with
        hheld' | ⟨r, resolution, hheld', -⟩
      · exact nomatch hgone.symm.trans hheld'
      · exact nomatch hgone.symm.trans hheld'

/-- A record that is shown as ended stays the same for as long as it is kept, and is unknown after
that. -/
private theorem status_of_ended (hseen : (run.after m).status id = .ok record)
    (hend : record.state.isTerminal = true) : ∃ t, record.resolvedAt = some t ∧
      ∀ n, m ≤ n → (run.after n).status id =
        if (run.after n).now ≤ t + run.settings.retention then .ok record
        else .error (.requestNotFound id) := by
  obtain ⟨⟨record, resolved⟩, hheld, -, rfl⟩ :=
    StatusStore.get_eq_some_iff.1 (Service.status_eq_ok_iff.1 hseen)
  have hdated := dated hheld
  obtain ⟨t, ht⟩ := Option.isSome_iff_exists.1 (hdated.wellFormed.resolvedAt_isSome hend)
  have hresolved : resolved = some t := hdated.resolved.trans ht
  subst hresolved
  refine ⟨t, ht, fun n hmn => ?_⟩
  rcases kept_or_expired hmn hheld with hkept | ⟨hgone, hlate⟩
  · have hget : (run.after n).stores.status.get (run.after n).now id = _ :=
      StatusStore.get_of_held? hkept
    rw [ttl] at hget
    split
    · next hfresh =>
      rw [Service.status_eq_ok_iff, hget, if_neg]
      exact fun hexpired => Nat.not_lt.2 hfresh (StatusEntry.isExpired_iff.1 hexpired)
    · next hold =>
      rw [Service.status_eq_error_iff, hget, if_pos]
      exact StatusEntry.isExpired_iff.2 (Nat.lt_of_not_le hold)
  · rw [if_neg (Nat.not_le.2 hlate), Service.status_eq_error_iff, StatusStore.get, hgone]
    rfl

private theorem rank_le (hmn : m ≤ n) (hseen : (run.after m).status id = .ok record)
    (hlater : (run.after n).status id = .ok record') : record.state.rank ≤ record'.state.rank := by
  cases hend : record.state.isTerminal with
  | true =>
    obtain ⟨t, -, hshown⟩ := status_of_ended hseen hend
    have hsame := (hshown n hmn).symm.trans hlater
    split at hsame
    · cases hsame
      exact Nat.le_refl _
    · cases hsame
  | false =>
    obtain ⟨p, r, -, -, rfl⟩ := waiting_of_open hseen hend
    exact Nat.zero_le _

private theorem same_of_held (hmn : m ≤ n) (hheld : (run.after m).stores.status.held? id = some held)
    (hlater : (run.after n).stores.status.held? id = some later) : later.record.Same held.record := by
  have hnamed : id ∈ run.requestNames m := (run.sound m).named.record hheld
  suffices h : ∀ later, (run.after n).stores.status.held? id = some later →
      later.record.Same held.record from h later hlater
  apply along (P := fun s => ∀ later, s.stores.status.held? id = some later →
    later.record.Same held.record) hmn
  · intro later hlater
    rw [hheld] at hlater
    cases hlater
    exact .refl _
  · intro k e hmk _ he hsame later hlater
    have hid := named_of_le hmk hnamed
    rcases (run.sound k).origin (run.move he) (fun _ => request_fresh he) hid hlater with
      hbefore | ⟨r, resolution, hbefore, rfl⟩
    · exact hsame later hbefore
    · exact (StatusRecord.same_resolved r.record resolution _).trans (hsame _ hbefore)

private theorem processing_of_taken {r : IssuanceRequest} (htaken : run.taken n = some r) :
    ∃ status moved, (run.after n).stores.status.advance (run.after n).now r.id .processing =
        .ok (status, moved) ∧
      moved.state = .processing ∧ moved.WellFormed ∧ moved.Same r.record := by
  obtain ⟨minted, stores, resolution, hturn⟩ := turn_of_taken htaken
  obtain ⟨p, hwaits⟩ := hturn.waits
  have hheld := ((run.sound n).tracked.waiting hwaits).held
  exact ⟨_, _, StatusStore.advance_of_held? hheld rfl rfl, rfl, r.wellFormed_processing,
    ⟨rfl, rfl, rfl, rfl⟩⟩

variable (run) in
/-- A name is unknown until a caller is told it. Then its record is shown, well formed and of one
request, in states whose rank never falls, and once it has ended it stays as it is until it has been
kept for as long as the settings say. -/
theorem request_lifecycle (id : RequestId) :
    (∀ n, (∀ i, i < n → ¬ run.Grants i id) →
      (run.after n).status id = .error (.requestNotFound id)) ∧
    (∀ i, run.Grants i id → (∀ j, j < i → ¬ run.Grants j id) →
      ∃ record, (run.after (i + 1)).status id = .ok record ∧
        (record.state = .pending ∨ record.state = .soldOut) ∧
        ∀ n, i < n →
          ((run.after n).status id = .ok record ∧ record.state.isTerminal = false) ∨
          ∃ k ended, i < k ∧ k ≤ n ∧ (run.after k).status id = .ok ended ∧
            ended.state.isTerminal = true) ∧
    (∀ m n record record', m ≤ n → (run.after m).status id = .ok record →
      (run.after n).status id = .ok record' → record.state.rank ≤ record'.state.rank) ∧
    (∀ m record, (run.after m).status id = .ok record → record.state.isTerminal = true →
      ∃ t, record.resolvedAt = some t ∧ ∀ n, m ≤ n → (run.after n).status id =
        if (run.after n).now ≤ t + run.settings.retention then .ok record
        else .error (.requestNotFound id)) ∧
    (∀ n held, (run.after n).stores.status.held? id = some held →
      held.record.request = id ∧ held.record.WellFormed ∧
      ∀ m earlier, m ≤ n → (run.after m).stores.status.held? id = some earlier →
        held.record.Same earlier.record) ∧
    ∀ n r, run.taken n = some r → r.id = id → ∃ status moved,
      (run.after n).stores.status.advance (run.after n).now id .processing = .ok (status, moved) ∧
      moved.state = .processing ∧ moved.WellFormed ∧ moved.Same r.record := by
  refine ⟨fun n huntold => status_of_untold huntold, ?_, ?_, ?_, ?_, ?_⟩
  · intro i htold hfirst
    obtain ⟨record, hseen, hstate⟩ := status_of_told htold hfirst
    exact ⟨record, hseen, hstate, fun n hin => shown_until_ended hin hseen⟩
  · exact fun m n record record' hmn hseen hlater => rank_le hmn hseen hlater
  · exact fun m record hseen hend => status_of_ended hseen hend
  · intro n held hheld
    refine ⟨((run.sound n).tracked.held hheld).1, (dated hheld).wellFormed, ?_⟩
    exact fun m earlier hmn hearlier => same_of_held hmn hearlier hheld
  · rintro n r htaken rfl
    exact processing_of_taken htaken

/-- The winner's record is kept for an hour; the sweeper comes an instant later. -/
def keptAnHour : Run :=
  small [.sweep, .issue ⟨1⟩ ⟨1⟩ (.ok ⟨"a"⟩), .wait 500, .turn 0 (.ok ⟨"x"⟩), .wait 3600000, .wait 1,
    .sweep] (by decide) (by decide)

theorem request_lifecycle_keptAnHour :
    (keptAnHour.after 1).status ⟨"a"⟩ = .error (.requestNotFound ⟨"a"⟩) ∧
    (∃ record, (keptAnHour.after 2).status ⟨"a"⟩ = .ok record ∧
      (record.state = .pending ∨ record.state = .soldOut)) ∧
    (keptAnHour.after 5).status ⟨"a"⟩ =
      .ok ⟨⟨"a"⟩, ⟨1⟩, ⟨1⟩, .issued, some ⟨"x"⟩, none, 0, some 500⟩ ∧
    (keptAnHour.after 6).status ⟨"a"⟩ = .error (.requestNotFound ⟨"a"⟩) ∧
    (keptAnHour.after 7).status ⟨"a"⟩ = .error (.requestNotFound ⟨"a"⟩) ∧
    (∃ status moved, (keptAnHour.after 3).stores.status.advance 500 ⟨"a"⟩ .processing =
      .ok (status, moved) ∧ moved.WellFormed) := by
  obtain ⟨huntold, htold, -, hended, -, hmoved⟩ := keptAnHour.request_lifecycle ⟨"a"⟩
  have hquiet : ∀ i, i < 1 → ¬ keptAnHour.Grants i ⟨"a"⟩ := by
    rintro i hi ⟨o, c, minted, answer, hevent, -, -⟩
    obtain rfl : i = 0 := by omega
    cases hevent
  have hgrant : keptAnHour.Grants 1 ⟨"a"⟩ := ⟨_, _, _, _, by rfl, by rfl, by rfl⟩
  have hseen : (keptAnHour.after 4).status ⟨"a"⟩ =
      .ok ⟨⟨"a"⟩, ⟨1⟩, ⟨1⟩, .issued, some ⟨"x"⟩, none, 0, some 500⟩ := by rfl
  obtain ⟨record, hrecord, hstate, -⟩ := htold 1 hgrant hquiet
  obtain ⟨t, ht, hshown⟩ := hended 4 _ hseen rfl
  cases ht
  obtain ⟨status, moved, hadvance, -, hwell, -⟩ := hmoved 3 ⟨⟨"a"⟩, ⟨1⟩, ⟨1⟩, 0⟩ (by rfl) rfl
  refine ⟨huntold 1 hquiet, ⟨record, hrecord, hstate⟩, ?_, ?_, ?_, status, moved, hadvance, hwell⟩
  · rw [hshown 5 (by decide), if_pos (by decide)]
  · rw [hshown 6 (by decide), if_neg (by decide)]
  · rw [hshown 7 (by decide), if_neg (by decide)]

end Run
end CouponIssuance
