import CouponIssuance.Proofs.Server.Shutdown
import CouponIssuance.Proofs.Text.Decimal
/-!
# Shutting down

A shutdown ends admission, cancels what the workers have not come to by then, and tells each worker
to stop. Once all workers have answered, every request has ended: by an attempt if it was taken before
the cancellation, without one and without a trace in the stock if it was taken after. The service
stays shut down, and to shut it down again changes nothing.
-/
namespace CouponIssuance

/-- Whether who told a worker to stop has heard of it: the worker had left before, or its marker does
not wait any more. -/
def StopSent.Answered (q : Queue) : StopSent → Prop
  | .placed marker => q.mark marker ≠ .waiting
  | .blocked => False
  | .refused _ => True

/-- Whether an event is a phase of a shutdown, or a turn of a worker. -/
def Event.ofShutdown : Event → Bool
  | .close | .cancel | .sendStop _ | .turn _ _ => true
  | _ => false

/-- What there is left to look at for who shuts down a service whose workers have all left. -/
def Phase.Untold (now : Millis) : Phase → Prop
  | .draining _ check => check ≤ now
  | .telling _ _ told _ | .hearing _ told _ => told = []
  | _ => True

namespace Service

variable {s s' : Service} {e : Event} {requests : List RequestId} {coupons : List CouponId}
  {p : Nat} {r : IssuanceRequest} {minted : Except Refusal CouponId} {phase next : Phase}

private theorem issue_of_closed (h : s.queue.closed = true) (o : RequesterId) (c : CampaignId)
    (minted : Except Refusal RequestId) : s.issue o c minted = (s, .error .shuttingDown) := by
  simp only [issue, answer?, h, if_true]

private theorem stores_turn (h : s.takes (.turn p minted) = some r) : (s.turn p minted).stores =
    if s.cancelled then s.stores.abandon s.now r else s.stores.dispatch s.now r minted := by
  obtain ⟨ha, rest, hm⟩ := takes_turn_eq_some h
  simp only [turn, Office.turn, Queue.dequeue_request ha hm]

private theorem Sound.held?_turn (h : s.Sound requests coupons) (htakes : s.takes (.turn p minted) = some r)
    (hc : s.cancelled = false) : (s.turn p minted).stores.status.held? r.id =
      some ⟨r.record.resolved (s.stores.attempt s.now r minted).2 s.now, some s.now⟩ := by
  obtain ⟨ha, rest, hm⟩ := takes_turn_eq_some htakes
  have hheld := (h.tracked.waiting (Stores.Tracked.mem_requests_head hm)).held
  rw [stores_turn htakes, hc, if_neg Bool.false_ne_true,
    Stores.dispatch_of_pending s.now hheld rfl rfl]
  exact (Stores.held?_put_resolved ..).trans (if_pos rfl)

private theorem step_of_deserted (hclosed : s.queue.closed = true) (hcancelled : s.cancelled = true)
    (hleft : s.queue.Deserted) (he : e.ofShutdown = true) : s.step e = s := by
  have hclose : s.queue.close = s.queue := by rw [Queue.close, ← hclosed]
  have hcancel : s.cancel = s := by rw [cancel, ← hcancelled]
  cases e with
  | turn p minted => simp [step, turn, Office.turn, Queue.dequeue, hleft p]
  | close => rw [step, close, hclose]
  | cancel => rw [step, if_pos hclosed, hcancel]
  | sendStop p => rw [step, if_pos hcancelled, Queue.sendStop_of_left (hleft p)]
  | _ => cases he

private theorem Stop.eq_of_deserted (h : s.Stop phase s' next) (hclosed : s.queue.closed = true)
    (hcancelled : s.cancelled = true) (hleft : s.queue.Deserted) : s' = s := by
  rcases h.event (fun _ => hclosed) (fun _ => hcancelled) with rfl | ⟨e, he, rfl⟩
  · rfl
  · apply step_of_deserted hclosed hcancelled hleft
    rcases he with rfl | rfl | ⟨p, rfl⟩ <;> rfl

private theorem stop_of_deserted (hleft : s.queue.Deserted) (hidle : s.queue.totalInFlight = 0)
    (hphase : phase.Untold s.now) (hgoes : ∀ lost, phase ≠ .finished lost) :
    ∃ s' next, s.stop phase = some (s', next) ∧ next.Untold s'.now := by
  cases phase with
  | begun => exact ⟨_, _, rfl, Nat.le_refl _⟩
  | draining deadline check =>
    have hstop : s.stop (.draining deadline check) = some (s, .cancelling) := by
      simp [stop, hidle, show check ≤ s.now from hphase]
    exact ⟨s, _, hstop, trivial⟩
  | cancelling => exact ⟨_, _, rfl, rfl⟩
  | telling p deadline told lost =>
    obtain rfl := hphase
    by_cases hp : p < s.queue.partitions
    · have hstop : s.stop (.telling p deadline [] lost) =
          some (s, .telling (p + 1) (s.now + Phase.patience) [] (lost ++ [p])) := by
        simp only [stop, hp, if_true, Queue.sendStop_of_left (hleft p)]
      exact ⟨s, _, hstop, rfl⟩
    · have hstop : s.stop (.telling p deadline [] lost) =
          some (s, .hearing (s.now + Phase.patience) [] lost) := by
        simp only [stop, hp, if_false]
      exact ⟨s, _, hstop, rfl⟩
  | hearing deadline told lost =>
    obtain rfl := hphase
    have hstop : s.stop (.hearing deadline [] lost) = some (s, .finished lost) := by simp [stop]
    exact ⟨s, _, hstop, trivial⟩
  | finished lost => exact absurd rfl (hgoes lost)

end Service

namespace Server

variable {s : Server} {phase : Phase}

private theorem stopWithin_of_deserted (fuel : Nat) (hclosed : s.service.queue.closed = true)
    (hcancelled : s.service.cancelled = true) (hleft : s.service.queue.Deserted)
    (hidle : s.service.queue.totalInFlight = 0) (hphase : phase.Untold s.service.now) :
    (stopWithin fuel s phase).1 = s := by
  induction fuel generalizing phase with
  | zero => rfl
  | succ fuel ih =>
    by_cases hfinished : ∃ lost, phase = .finished lost
    · obtain ⟨lost, rfl⟩ := hfinished
      rfl
    · have hgoes (lost : List Nat) : phase ≠ .finished lost := fun h => hfinished ⟨lost, h⟩
      obtain ⟨service, next, hstop, hnext⟩ := Service.stop_of_deserted hleft hidle hphase hgoes
      obtain rfl := (Service.stop_spec hstop).eq_of_deserted hclosed hcancelled hleft
      have hawaiting : s.awaiting phase = s := by rw [awaiting, hstop]; rfl
      rw [stopWithin_succ fuel hgoes, stopOnce_eq (by rw [hawaiting]; exact hstop), hawaiting]
      exact ih hnext

private theorem shutdown_of_deserted (hclosed : s.service.queue.closed = true)
    (hcancelled : s.service.cancelled = true) (hleft : s.service.queue.Deserted)
    (hidle : s.service.queue.totalInFlight = 0) : s.shutdown = { s with nextSweep := none } :=
  stopWithin_of_deserted (s := { s with nextSweep := none }) _ hclosed hcancelled hleft hidle trivial

end Server

namespace Service

/-- Every request has ended, and no other is taken. Another shutdown changes nothing. -/
structure Resolved (s : Service) : Prop where
  ended : ∀ id held, s.stores.status.held? id = some held → held.record.state.isTerminal = true
  lanes : ∀ c, s.queue.depth c = 0 ∧ s.queue.inFlight c = 0
  totals : s.systemStatus.queueDepth = 0 ∧ s.systemStatus.inFlight = 0
  refuses : ∀ o c minted, s.issue o c minted = (s, .error .shuttingDown)
  events : ∀ e, e.ofShutdown = true → s.step e = s
  phases : ∀ phase s' next, s.stop phase = some (s', next) → s' = s
  servers : ∀ server : Server, server.service = s →
    server.shutdown = { server with nextSweep := none }

end Service

namespace Run

variable {run : Run} {i k m n p : Nat} {x : IssuanceRequest} {minted : Except Refusal CouponId}

private theorem attempted_of_taken (htaken : run.taken i = some x)
    (he : run.events[i]? = some (.turn p minted)) (hc : (run.after i).cancelled = false) :
    (run.after (i + 1)).stores = (run.after i).stores.dispatch (run.after i).now x minted ∧
    run.Ends i (i + 1) x ((run.after i).stores.attempt (run.after i).now x minted).2 := by
  have htakes := (taken_of_some he).symm.trans htaken
  have hheld := (run.sound i).held?_turn htakes hc
  have hstores := Service.stores_turn htakes
  rw [hc, if_neg Bool.false_ne_true] at hstores
  refine ⟨by rw [after_succ he]; exact hstores, ?_⟩
  obtain ⟨_, _, resolution, hturn⟩ := turn_of_taken htaken
  -- the end that is recorded is the one of the attempt
  have hrecord : x.record.resolved resolution (run.after i).now =
      x.record.resolved ((run.after i).stores.attempt (run.after i).now x minted).2
        (run.after i).now := by
    have hsame := hturn.held
    rw [after_succ he] at hsame
    exact congrArg StatusEntry.record (Option.some.inj (hsame.symm.trans hheld))
  obtain ⟨j, hij, hji, htaken', hseen, hfinal⟩ := hturn.ends (Nat.le_refl i)
  obtain rfl : j = i := by omega
  rw [hrecord] at hseen hfinal
  exact ⟨j, hij, hji, htaken', hseen, hfinal⟩

private theorem abandoned_of_taken (htaken : run.taken i = some x) (hc : (run.after i).cancelled = true) :
    (run.after (i + 1)).stores.ledger = (run.after i).stores.ledger ∧
    (run.after (i + 1)).stores.coupons = (run.after i).stores.coupons ∧
    run.Ends i (i + 1) x (.failed "service shutting down") := by
  obtain ⟨minted, stores, resolution, hturn⟩ := turn_of_taken htaken
  obtain ⟨p, hnext⟩ := hturn.next
  cases hturn.outcome with
  | attempted hworking =>
    rw [hc] at hworking
    cases hworking
  | abandoned =>
    refine ⟨?_, ?_, hturn.ends (Nat.le_refl i)⟩ <;> rw [hnext] <;> rfl

private theorem requests_eq_nil (hleft : (run.after m).queue.Deserted) (p : Nat) :
    (run.after m).queue.requests p = [] := by
  rw [Queue.requests, Channel.requests, run.staffed m p (hleft p)]
  rfl

private theorem pending_eq_nil (hleft : (run.after m).queue.Deserted) :
    (run.after m).stores.status.pending = [] := by
  rw [List.eq_nil_iff_forall_not_mem]
  intro record hrecord
  obtain ⟨p, r, hr, -⟩ := (run.sound m).mem_pending_iff.1 hrecord
  rw [requests_eq_nil hleft p] at hr
  cases hr

private theorem resolved_of_deserted (hleft : (run.after m).queue.Deserted)
    (hclosed : (run.after m).queue.closed = true) (hcancelled : (run.after m).cancelled = true) :
    (run.after m).Resolved := by
  have hnone := pending_eq_nil hleft
  have hidle : (run.after m).queue.totalInFlight = 0 := by
    rw [(run.sound m).totalInFlight_eq (run.counted m), hnone, List.length_nil]
  refine ⟨fun id held hheld => ?_, fun c => ⟨?_, ?_⟩, ⟨?_, hidle⟩, Service.issue_of_closed hclosed,
    fun e he => Service.step_of_deserted hclosed hcancelled hleft he,
    fun phase s' next hstop => (Service.stop_spec hstop).eq_of_deserted hclosed hcancelled hleft, ?_⟩
  · cases hend : held.record.state.isTerminal with
    | true => rfl
    | false =>
      obtain ⟨p, r, hr, -, -⟩ := (run.sound m).waiting_of_held hheld hend
      rw [requests_eq_nil hleft p] at hr
      cases hr
  · rw [(run.sound m).depth_eq (run.counted m), hnone, List.countP_nil]
  · rw [(run.sound m).inFlight_eq (run.counted m), hnone, List.countP_nil]
  · show (run.after m).queue.totalDepth = 0
    rw [(run.sound m).totalDepth_eq (run.counted m), hnone, List.length_nil]
  · intro server hserver
    rw [← hserver] at hclosed hcancelled hleft hidle
    exact Server.shutdown_of_deserted hclosed hcancelled hleft hidle

namespace Stops

theorem resolved (h : run.Stops n m (.finished [])) (hmk : m ≤ k) : (run.after k).Resolved :=
  resolved_of_deserted (h.deserted hmk) (closed_of_le hmk (h.closed trivial))
    (cancelled_of_le hmk (h.cancelled trivial))

theorem taken (h : run.Stops n m (.finished [])) (hkm : k ≤ m) (hx : x ∈ (run.after k).queue.requests p) :
    ∃ i, k ≤ i ∧ i < m ∧ run.taken i = some x := by
  obtain ⟨place, hplace⟩ := List.mem_iff_getElem?.1 hx
  rcases taken_or_waits hkm hplace with htaken | ⟨-, hwaits⟩
  · exact htaken
  · rw [requests_eq_nil (h.deserted (Nat.le_refl m)) p] at hwaits
    cases hwaits

end Stops

private theorem answered_of_turns (hc : (run.after i).cancelled = true) (he : run.events[i]? = some (.sendStop p))
    (hroom : ((run.after i).queue.sendStop p).2 ≠ .blocked) (hik : i < k)
    (hturns : ((run.after i).queue.channel p).messages.length < run.turns p (i + 1) k) :
    ((run.after i).queue.sendStop p).2.Answered (run.after k).queue := by
  cases hstop : ((run.after i).queue.sendStop p).2 with
  | blocked => exact absurd hstop hroom
  | refused why => trivial
  | placed marker => exact heard_of_turns hik he hc hstop hturns

/-- What a run has come to after `n` events, as a run. -/
def upTo (run : Run) (n : Nat) : Run := { run with
  events := run.events.take n
  requestsDistinct := List.Nodup.sublist ((List.take_sublist n run.events).filterMap _) run.requestsDistinct
  couponsDistinct := List.Nodup.sublist ((List.take_sublist n run.events).filterMap _) run.couponsDistinct }

/-- A server that is shut down at some point of a run goes on that run to the end of the shutdown. -/
private theorem shutdown_of_open {server : Server} (hn : n ≤ run.events.length)
    (hservice : server.service = run.after n) (hopen : (run.after n).queue.closed = false)
    (hfresh : ∀ k, (run.couponNames n ++ server.mint.coupons k).Nodup) :
    ∃ (run' : Run) (m : Nat), run'.initial = run.initial ∧ run'.events.take n = run.events.take n ∧
      run'.Stops n m (.finished []) ∧ server.shutdown.service = run'.after m ∧
      server.shutdown.service.Resolved := by
  have hlength : (run.upTo n).events.length = n := List.length_take_of_le hn
  have hat : server.At (run.upTo n) := by
    refine ⟨?_, hfresh⟩
    rw [hservice, after_length]
    rfl
  obtain ⟨run', hext, hat', hstops⟩ := Server.shutdown_spec hat (by rw [hservice]; exact hopen)
  rw [hlength] at hstops
  refine ⟨run', run'.events.length, hext.initial, ?_, hstops, hat'.service, ?_⟩
  · rw [hext.take (Nat.le_of_eq hlength.symm)]
    exact List.take_of_length_le (Nat.le_of_eq hlength)
  · rw [hat'.service]
    exact hstops.resolved (Nat.le_refl _)

/-- However a shutdown that began after `n` events is interleaved with calls, turns and sweeps: once it is
over and no worker is lost, every record that is held has ended, nothing is queued or in flight, and to shut
down again changes nothing. What was queued has been taken, before the cancellation like any other request,
after it to fail and to cost no stock. A server that is shut down gets there. -/
theorem shutdown_resolves (run : Run) (n : Nat) :
    (∀ k phase, run.Stops n k phase → ∀ j, k ≤ j →
      (phase.Closed → (run.after j).queue.closed = true) ∧
      (phase.Cancelled → (run.after j).cancelled = true)) ∧
    (∀ m, run.Stops n m (.finished []) →
      (∀ j, m ≤ j → (run.after j).Resolved) ∧
      ∀ k p x, k ≤ m → x ∈ (run.after k).queue.requests p →
        ∃ i, k ≤ i ∧ i < m ∧ run.taken i = some x) ∧
    (∀ i p x minted, run.taken i = some x → run.events[i]? = some (.turn p minted) →
      (run.after i).cancelled = false →
      (run.after (i + 1)).stores = (run.after i).stores.dispatch (run.after i).now x minted ∧
      run.Ends i (i + 1) x ((run.after i).stores.attempt (run.after i).now x minted).2) ∧
    (∀ i x, run.taken i = some x → (run.after i).cancelled = true →
      (run.after (i + 1)).stores.ledger = (run.after i).stores.ledger ∧
      (run.after (i + 1)).stores.coupons = (run.after i).stores.coupons ∧
      run.Ends i (i + 1) x (.failed "service shutting down")) ∧
    (∀ j o c minted, (run.after j).queue.closed = true →
      (run.after j).issue o c minted = (run.after j, .error .shuttingDown)) ∧
    (∀ p i k, (run.after i).cancelled = true → run.events[i]? = some (.sendStop p) →
      ((run.after i).queue.sendStop p).2 ≠ .blocked → i < k →
      ((run.after i).queue.channel p).messages.length < run.turns p (i + 1) k →
      ((run.after i).queue.sendStop p).2.Answered (run.after k).queue) ∧
    ∀ server : Server, n ≤ run.events.length → server.service = run.after n →
      (run.after n).queue.closed = false →
      (∀ k, (run.couponNames n ++ server.mint.coupons k).Nodup) →
      ∃ (run' : Run) (m : Nat), run'.initial = run.initial ∧
        run'.events.take n = run.events.take n ∧ run'.Stops n m (.finished []) ∧
        server.shutdown.service = run'.after m ∧ server.shutdown.service.Resolved := by
  refine ⟨?_, ?_, ?_, ?_, ?_, ?_, ?_⟩
  · intro k phase h j hkj
    exact ⟨fun hphase => closed_of_le hkj (h.closed hphase),
      fun hphase => cancelled_of_le hkj (h.cancelled hphase)⟩
  · intro m h
    exact ⟨fun j hmj => h.resolved hmj, fun k p x hkm hx => h.taken hkm hx⟩
  · intro i p x minted htaken he hc
    exact attempted_of_taken htaken he hc
  · intro i x htaken hc
    exact abandoned_of_taken htaken hc
  · intro j o c minted hclosed
    exact Service.issue_of_closed hclosed o c minted
  · intro p i k hc he hroom hik hturns
    exact answered_of_turns hc he hroom hik hturns
  · intro server hn hservice hopen hfresh
    exact shutdown_of_open hn hservice hopen hfresh

/-- A service with two workers, and a campaign for each. -/
def twoLines : { s : Service // Service.create ⟨fun _ => 0, fun _ => 0⟩
    { numWorkers := 2, storeShards := 1, seeds := [(⟨1⟩, 2), (⟨2⟩, 2)], sound := by decide } 0 = .ok s } :=
  ⟨_, rfl⟩

/-- Of three requests in two lines one is served in time. -/
def halfDone : Run where
  hashing := _
  settings := _
  start := _
  initial := twoLines.1
  created := twoLines.2
  events := [.issue ⟨1⟩ ⟨1⟩ (.ok ⟨"a"⟩), .issue ⟨2⟩ ⟨1⟩ (.ok ⟨"b"⟩), .issue ⟨3⟩ ⟨2⟩ (.ok ⟨"c"⟩),
    .close, .turn 1 (.ok ⟨"x"⟩), .wait 10000, .cancel, .sendStop 0, .sendStop 1, .turn 1 (.ok ⟨"y"⟩),
    .turn 0 (.ok ⟨"z"⟩), .turn 0 (.error .shuttingDown), .turn 1 (.error .shuttingDown)]
  requestsDistinct := by decide
  couponsDistinct := by decide

private theorem stops_halfDone_cancelled : halfDone.Stops 3 7 (.telling 0 13000 [] []) := by
  have hclosed : halfDone.Stops 3 4 (.draining 10000 0) := Stops.begun.own (.inr rfl) rfl
  have hchecked : halfDone.Stops 3 4 (.draining 10000 50) := hclosed.own (.inl rfl) rfl
  have hdeadline : halfDone.Stops 3 6 .cancelling :=
    (hchecked.stay (k := 6) (by decide)).own (.inl rfl) rfl
  exact hdeadline.own (.inr rfl) rfl

private theorem stops_halfDone : halfDone.Stops 3 13 (.finished []) := by
  have hfirst : halfDone.Stops 3 8 (.telling 1 13000 [(0, 0)] []) :=
    stops_halfDone_cancelled.own (.inr rfl) rfl
  have hboth : halfDone.Stops 3 9 (.telling 2 13000 [(0, 0), (1, 1)] []) := hfirst.own (.inr rfl) rfl
  have htold : halfDone.Stops 3 9 (.hearing 13000 [(0, 0), (1, 1)] []) := hboth.own (.inl rfl) rfl
  exact (htold.stay (k := 13) (by decide)).own (.inl rfl) rfl

/-- The service before the shutdown, with a mint that counts. -/
def busyServer : Server where
  platform := ⟨⟨fun _ => 0, fun _ => 0⟩, fun _ n => [.ready n], 128, 2, 1000, true⟩
  service := halfDone.after 3
  mint := .create (fun _ n => [.ready n]) 0
  due := [0, 1]
  nextSweep := some 1000

private theorem coupons_busyServer (k : Nat) : (busyServer.mint.coupons k).Nodup := by
  have hnames : busyServer.mint.coupons k =
      (List.range' 0 k).map fun i => ⟨String.ofList (Decimal.render i)⟩ :=
    congrFun List.filterMap_eq_map _
  rw [hnames]
  refine List.Pairwise.map _ (fun i j hne heq => hne ?_) (List.nodup_range')
  have htext : Decimal.render i = Decimal.render j :=
    String.ofList_injective (CouponId.mk.inj heq)
  rw [← Decimal.ofDigits_render i, htext, Decimal.ofDigits_render]

theorem shutdown_resolves_halfDone :
    halfDone.Stops 3 13 (.finished []) ∧ (halfDone.after 13).Resolved ∧
    (∃ i, 3 ≤ i ∧ i < 13 ∧ halfDone.taken i = some ⟨⟨"b"⟩, ⟨1⟩, ⟨2⟩, 0⟩) ∧
    halfDone.Ends 4 5 ⟨⟨"a"⟩, ⟨1⟩, ⟨1⟩, 0⟩ (.issued ⟨"x"⟩) ∧
    halfDone.Ends 9 10 ⟨⟨"b"⟩, ⟨1⟩, ⟨2⟩, 0⟩ (.failed "service shutting down") ∧
    halfDone.Ends 10 11 ⟨⟨"c"⟩, ⟨2⟩, ⟨3⟩, 0⟩ (.failed "service shutting down") ∧
    (halfDone.after 4).issue ⟨3⟩ ⟨1⟩ (.ok ⟨"d"⟩) = (halfDone.after 4, .error .shuttingDown) ∧
    (.placed 1 : StopSent).Answered (halfDone.after 13).queue ∧
    busyServer.shutdown.service.Resolved := by
  obtain ⟨hphases, hover, hattempted, habandoned, hrefused, hanswered, hserver⟩ :=
    shutdown_resolves halfDone 3
  have hcancelled (j : Nat) (hj : 7 ≤ j) : (halfDone.after j).cancelled = true :=
    (hphases 7 _ stops_halfDone_cancelled j hj).2 trivial
  have hclosed : (halfDone.after 4).queue.closed = true :=
    (hphases 4 (.draining 10000 0) (Stops.begun.own (.inr rfl) rfl) 4 (Nat.le_refl 4)).1 trivial
  obtain ⟨hresolved, htaken⟩ := hover 13 stops_halfDone
  refine ⟨stops_halfDone, hresolved 13 (Nat.le_refl 13), htaken 3 1 _ (by decide) ?_, ?_, ?_, ?_,
    hrefused 4 _ _ _ hclosed, ?_, ?_⟩
  · exact List.mem_of_getElem? (i := 1) (by rfl)
  · exact (hattempted 4 1 _ (.ok ⟨"x"⟩) (by rfl) (by rfl) (by rfl)).2
  · exact (habandoned 9 _ (by rfl) (hcancelled 9 (by decide))).2.2
  · exact (habandoned 10 _ (by rfl) (hcancelled 10 (by decide))).2.2
  · exact hanswered 1 8 13 (hcancelled 8 (by decide)) (by rfl) (by decide) (by decide) (by decide)
  · obtain ⟨_, _, -, -, -, -, hresolved⟩ :=
      hserver busyServer (by decide) rfl (by rfl) coupons_busyServer
    exact hresolved

end Run
end CouponIssuance
