import CouponIssuance.Proofs.Availability
import CouponIssuance.Proofs.Phases
import CouponIssuance.Proofs.Server.Events
/-!
# How a server shuts down

A server that is shut down goes through the phases of a shutdown, with turns of its workers between them,
until all workers have acknowledged their markers. While it tells one worker after another to stop, those
that it has not told yet are there, and the others have left or come to their marker as the only one in
their line.
-/
namespace CouponIssuance

namespace Queue

variable {q q' : Queue} {p m marker : Nat} {rest : List Message}

/-- The worker of a partition is there and has not been told to stop. -/
structure Ready (q : Queue) (p : Nat) : Prop where
  attended : (q.channel p).attended = true
  unmarked : (q.channel p).markers = []

/-- The worker of a partition was told to stop once. It has the marker before it, or has acknowledged it. -/
structure Told (q : Queue) (p m : Nat) : Prop where
  sent : q.Sent p m
  comes_or_heard : (q.channel p).attended = true ∧ (q.channel p).markers = [m] ∨
    (q.channel p).markers = [] ∧ q.mark m = .acknowledged

/-- Nothing is left to do for the worker of a partition. -/
def Idle (q : Queue) (p : Nat) : Prop := (q.channel p).attended = true → (q.channel p).messages = []

theorem Told.acknowledged (h : q.Told p m) (hheard : q.mark m ≠ .waiting) : q.mark m = .acknowledged := by
  rcases h.comes_or_heard with ⟨hattended, -⟩ | ⟨-, hmark⟩
  · rcases h.sent.waits_or_heard with ⟨hwaits, -⟩ | ⟨-, hleft⟩
    · exact absurd hwaits hheard
    · exact absurd (hattended.symm.trans hleft) Bool.true_eq_false.mp
  · exact hmark

private theorem Told.heard_of_idle (h : q.Told p m) (hidle : q.Idle p) : q.mark m ≠ .waiting := by
  rcases h.comes_or_heard with ⟨hattended, hmarkers⟩ | ⟨-, hmark⟩
  · simp [Channel.markers, hidle hattended] at hmarkers
  · rw [hmark]
    decide

theorem Ready.told (h : q.Ready p) (hn : q.Numbered) (hplaced : (q.sendStop p).2 = .placed m) :
    (q.sendStop p).1.Told p m := by
  obtain ⟨ha, -, hq⟩ := sendStop_eq_placed hplaced
  refine ⟨sent_of_placed hn hplaced, .inl ?_⟩
  rw [channel_placed ha hq, if_pos rfl]
  refine ⟨ha, ?_⟩
  have hunmarked := h.unmarked
  simp only [Channel.markers] at hunmarked ⊢
  simp [Channel.push, hunmarked]

private theorem Ready.placed_of_idle (h : q.Ready p) (hidle : q.Idle p) (hroom : 0 < q.limits.buffer) :
    ∃ marker, (q.sendStop p).2 = .placed marker := by
  have hfull : q.isFull p = false := by simp [isFull, hidle h.attended, Nat.ne_of_gt hroom]
  exact ⟨_, by rw [sendStop_of_room h.attended hfull]⟩

/-- What happens to one line leaves markers and worker alone, unless the worker comes to a marker. -/
inductive Kept (q : Queue) (p : Nat) (q' : Queue) : Prop
  | same (hmarkers : (q'.channel p).markers = (q.channel p).markers)
      (hattended : (q'.channel p).attended = (q.channel p).attended)
  | dismissed {marker : Nat} {rest : List Message} (ha : (q.channel p).attended = true)
      (hm : (q.channel p).messages = .stop marker :: rest) (hq : q' = q.dismiss p marker)

theorem Ready.kept (h : q.Ready p) (hkept : q.Kept p q') : q'.Ready p := by
  cases hkept with
  | same hmarkers hattended => exact ⟨hattended.trans h.attended, hmarkers.trans h.unmarked⟩
  | dismissed _ hm =>
    have hunmarked := h.unmarked
    simp [Channel.markers, hm] at hunmarked

theorem Told.kept (h : q.Told p m) (ho : q.Onward q') (hkept : q.Kept p q') : q'.Told p m := by
  refine ⟨h.sent.onward ho, ?_⟩
  cases hkept with
  | same hmarkers hattended =>
    rcases h.comes_or_heard with ⟨hthere, hcomes⟩ | ⟨hnone, hheard⟩
    · exact .inl ⟨hattended.trans hthere, hmarkers.trans hcomes⟩
    · refine .inr ⟨hmarkers.trans hnone, ?_⟩
      rcases ho.stays_or_goes h.sent.numbered with ⟨hmark, -⟩ | ⟨p', hin, -, -⟩
      · exact hmark.trans hheard
      · -- it stands in no line any more
        obtain rfl := h.sent.place p' hin
        rw [← Channel.mem_markers_iff, hnone] at hin
        exact absurd hin List.not_mem_nil
  | @dismissed marker rest ha hm hq =>
    rcases h.comes_or_heard with ⟨-, hcomes⟩ | ⟨hnone, -⟩
    · obtain ⟨rfl, hrest⟩ : marker = m ∧ ∀ m', .stop m' ∉ rest := by
        simp only [Channel.markers, hm, List.filterMap_cons, List.cons.injEq] at hcomes
        refine ⟨hcomes.1, fun m' hin => ?_⟩
        have hmem := Channel.mem_markers_iff (c := ⟨rest, true⟩).2 hin
        rw [show (⟨rest, true⟩ : Channel).markers = [] from hcomes.2] at hmem
        exact absurd hmem List.not_mem_nil
      have hwaits : q.mark marker = .waiting := by
        rcases h.sent.waits_or_heard with ⟨hwaits, -⟩ | ⟨-, hleft⟩
        · exact hwaits
        · exact absurd (ha.symm.trans hleft) Bool.true_eq_false.mp
      subst hq
      refine .inr ⟨by rw [channel_dismiss ha hm, if_pos rfl]; rfl, ?_⟩
      rw [mark_dismiss ha hm, if_neg (hrest marker), if_pos ⟨rfl, hwaits⟩]
    · simp [Channel.markers, hm] at hnone

private theorem limits_serve {r : IssuanceRequest} (ha : (q.channel p).attended = true)
    (hm : (q.channel p).messages = .issue r :: rest) : (q.serve p r).limits = q.limits := by
  rw [serve, dequeue_request ha hm]
  rfl

private theorem limits_dismiss (ha : (q.channel p).attended = true)
    (hm : (q.channel p).messages = .stop marker :: rest) :
    (q.dismiss p marker).limits = q.limits := by
  rw [dismiss, dequeue_stop ha hm]
  show (acknowledge _ marker).1.limits = q.limits
  unfold acknowledge
  split <;> rfl

private theorem limits_sendStop (q : Queue) (p : Nat) : (q.sendStop p).1.limits = q.limits := by
  rcases sendStop_cases q p with h | ⟨-, h⟩ <;> rw [h]
  rfl

private theorem buffer_pos_of_create {partitions : Nat} {limits : QueueLimits}
    (h : create partitions limits = .ok q) : 0 < q.limits.buffer := by
  rw [(create_eq_ok h).1]
  unfold create at h
  split at h
  · split at h
    · cases h
    · next hbuffer => exact Nat.pos_of_ne_zero hbuffer
  · cases h

end Queue

namespace Service

variable {s s' : Service} {e : Event} {p : Nat}

theorem Move.limits (hmove : Move s e s') : s'.queue.limits = s.queue.limits := by
  cases hmove with
  | queued _ _ hqueue =>
    obtain ⟨-, -, rfl⟩ := Queue.enqueue_eq_ok hqueue
    rfl
  | served ha hm => exact Queue.limits_serve ha hm
  | dismissed ha hm => exact Queue.limits_dismiss ha hm
  | stopSent => exact Queue.limits_sendStop ..
  | _ => rfl

/-- Only who tells a worker to stop puts a marker into its line. -/
theorem Move.kept (hmove : Move s e s') (hne : e ≠ .sendStop p) : s.queue.Kept p s'.queue := by
  cases hmove with
  | queued _ _ hqueue =>
    have hchannel := Queue.channel_enqueue hqueue p
    split at hchannel
    · exact .same (by rw [hchannel]; simp [Channel.markers, Channel.push]) (by rw [hchannel]; rfl)
    · exact .same (by rw [hchannel]) (by rw [hchannel])
  | @served p' minted r rest stores resolution ha hm =>
    have hchannel : (s.conclude p' r stores resolution).queue.channel p = _ :=
      Queue.channel_serve ha hm p
    split at hchannel
    · next hp =>
      subst hp
      exact .same (by rw [hchannel]; simp [Channel.markers, hm]) (by rw [hchannel])
    · exact .same (by rw [hchannel]) (by rw [hchannel])
  | @dismissed p' minted marker rest ha hm =>
    by_cases hp : p' = p
    · subst hp
      exact .dismissed ha hm rfl
    · have hchannel := Queue.channel_dismiss ha hm p
      rw [if_neg hp] at hchannel
      exact .same (by rw [hchannel]) (by rw [hchannel])
  | @stopSent p' =>
    have hchannel : (s.queue.sendStop p').1.channel p = s.queue.channel p := by
      rcases Queue.sendStop_cases s.queue p' with h | ⟨ha, h⟩
      · rw [h]
      · rw [Queue.channel_placed ha h, if_neg]
        rintro rfl
        exact hne rfl
    exact .same (by rw [hchannel]) (by rw [hchannel])
  | _ => exact .same rfl rfl

private theorem channel_turn_of_ne {p' : Nat} (hp : p ≠ p') (minted : Except Refusal CouponId) :
    (s.turn p minted).queue.channel p' = s.queue.channel p' := by
  cases ha : (s.queue.channel p).attended with
  | false => simp [turn, Office.turn, Queue.dequeue, ha]
  | true =>
    cases hm : (s.queue.channel p).messages with
    | nil => cases hreleased : s.queue.released <;> simp [turn, Office.turn, Queue.dequeue, ha, hm, hreleased]
    | cons first rest =>
      cases first with
      | issue r =>
        have hqueue : (s.turn p minted).queue = s.queue.serve p r := by
          simp only [turn, Office.turn, Queue.serve, Queue.dequeue_request ha hm]
        rw [hqueue, Queue.channel_serve ha hm, if_neg hp]
      | stop marker =>
        rw [turn_of_marker ha hm]
        exact (Queue.channel_dismiss ha hm p').trans (if_neg hp)

private theorem channel_turn (minted : Except Refusal CouponId)
    (ha : ((s.turn p minted).queue.channel p).attended = true) :
    (s.queue.channel p).attended = true ∧
      ((s.turn p minted).queue.channel p).messages = (s.queue.channel p).messages.tail := by
  cases hbefore : (s.queue.channel p).attended with
  | false => simp [turn, Office.turn, Queue.dequeue, hbefore] at ha
  | true =>
    refine ⟨rfl, ?_⟩
    cases hm : (s.queue.channel p).messages with
    | nil =>
      cases hreleased : s.queue.released <;>
        simp [turn, Office.turn, Queue.dequeue, hbefore, hm, hreleased]
    | cons first rest =>
      cases first with
      | issue r =>
        have hqueue : (s.turn p minted).queue = s.queue.serve p r := by
          simp only [turn, Office.turn, Queue.serve, Queue.dequeue_request hbefore hm]
        rw [hqueue, Queue.channel_serve hbefore hm, if_pos rfl]
        rfl
      | stop marker =>
        rw [left_of_marker hbefore hm] at ha
        cases ha

end Service

namespace Server

private theorem channel_work_of_ne (s : Server) {p p' : Nat} (hp : p ≠ p') (n : Nat) :
    (s.work p n).service.queue.channel p' = s.service.queue.channel p' := by
  induction n generalizing s with
  | zero => rfl
  | succ n ih => exact (ih (s.takeTurn p)).trans (Service.channel_turn_of_ne hp _)

private theorem idle_work (s : Server) (p : Nat) {n : Nat}
    (hn : (s.service.queue.channel p).attended = true → s.lineLength p ≤ n) :
    (s.work p n).service.queue.Idle p := by
  induction n generalizing s with
  | zero => exact fun ha => List.eq_nil_of_length_eq_zero (Nat.le_zero.1 (hn ha))
  | succ n ih =>
    refine ih (s.takeTurn p) fun ha => ?_
    obtain ⟨hbefore, hline⟩ := Service.channel_turn _ ha
    rw [lineLength, show ((s.takeTurn p).service.queue.channel p).messages = _ from hline,
      List.length_tail]
    exact Nat.sub_le_of_le_add (hn hbefore)

private theorem idle_of_idle (lines : List Nat) (s : Server) {p : Nat} (h : s.service.queue.Idle p) :
    (lines.foldl (fun s p => s.work p (s.lineLength p)) s).service.queue.Idle p := by
  induction lines generalizing s with
  | nil => exact h
  | cons p' lines ih =>
    apply ih
    by_cases hp : p' = p
    · subst hp
      exact idle_work s p' fun _ => Nat.le_refl _
    · rw [Queue.Idle, channel_work_of_ne s hp]
      exact h

private theorem idle_of_mem (lines : List Nat) (s : Server) {p : Nat} (hp : p ∈ lines) :
    (lines.foldl (fun s p => s.work p (s.lineLength p)) s).service.queue.Idle p := by
  induction lines generalizing s with
  | nil => exact absurd hp List.not_mem_nil
  | cons p' lines ih =>
    rcases List.mem_cons.1 hp with rfl | hlater
    · exact idle_of_idle lines _ (idle_work s p fun _ => Nat.le_refl _)
    · exact ih (s.work p' (s.lineLength p')) hlater

private theorem idle_workThrough (s : Server) (p : Nat) : s.workThrough.service.queue.Idle p := by
  by_cases hp : p < s.service.queue.partitions
  · exact idle_of_mem _ s (List.mem_range.2 hp)
  · exact idle_of_idle _ s fun ha => absurd (Queue.lt_partitions_of_attended ha) hp

/-! ## Going on from the end of a run -/

/-- A server at the end of a run, with a mint that gives names which are new there. -/
structure At (s : Server) (run : Run) : Prop where
  service : s.service = run.after run.events.length
  fresh : ∀ k, (run.events.filterMap Event.coupon? ++ s.mint.coupons k).Nodup

end Server

namespace Run

/-- A run goes on after another. -/
structure Extends (run' run : Run) : Prop where
  initial : run'.initial = run.initial
  events : run.events <+: run'.events

variable {run run' run'' : Run} {n : Nat}

theorem Extends.refl (run : Run) : run.Extends run := ⟨rfl, List.prefix_refl _⟩

theorem Extends.trans (h : run'.Extends run) (h' : run''.Extends run') : run''.Extends run :=
  ⟨h'.initial.trans h.initial, h.events.trans h'.events⟩

theorem Extends.length_le (h : run'.Extends run) : run.events.length ≤ run'.events.length :=
  h.events.length_le

theorem Extends.take (h : run'.Extends run) (hn : n ≤ run.events.length) :
    run'.events.take n = run.events.take n := by
  obtain ⟨more, hmore⟩ := h.events
  rw [← hmore, List.take_append_of_le_length hn]

theorem Extends.after (h : run'.Extends run) (hn : n ≤ run.events.length) :
    run'.after n = run.after n := by
  show run'.initial.follow (run'.events.take n) = run.initial.follow (run.events.take n)
  rw [h.take hn, h.initial]

theorem after_length (run : Run) : run.after run.events.length = run.initial.follow run.events := by
  show run.initial.follow (run.events.take run.events.length) = _
  rw [List.take_length]

/-- What a shutdown has come to in a run it has come to in a longer one, which it lets go on. -/
theorem Stops.extends {m : Nat} {phase : Phase} (h : run.Stops n m phase) (hext : run'.Extends run)
    (hm : m ≤ run.events.length) : run'.Stops n m phase :=
  h.congr fun _ hi => hext.after (Nat.le_trans hi hm)

end Run

namespace Server

variable {s t : Server} {run : Run} {kind : Event → Prop}

private theorem At.does (hat : s.At run) (h : Does kind s t) (hkind : ∀ e, kind e → e.request? = none) :
    ∃ run' : Run, run'.Extends run ∧ t.At run' ∧
      ∀ i e, run.events.length ≤ i → run'.events[i]? = some e → kind e := by
  obtain ⟨events, k, hevents, hservice, hmint, hnames⟩ := h
  have hrequests : events.filterMap Event.request? = [] :=
    List.filterMap_eq_nil_iff.2 fun e he => hkind e (hevents e he)
  have hfresh (j : Nat) : ((run.events ++ events).filterMap Event.coupon? ++ t.mint.coupons j).Nodup := by
    rw [List.filterMap_append, hnames, hmint, List.append_assoc, ← Mint.coupons_add]
    exact hat.fresh (k + j)
  refine ⟨{ run with
    events := run.events ++ events
    requestsDistinct := by
      rw [List.filterMap_append, hrequests, List.append_nil]
      exact run.requestsDistinct
    couponsDistinct := (List.nodup_append.1 (hfresh 0)).1 }, ⟨rfl, List.prefix_append ..⟩, ⟨?_, hfresh⟩, ?_⟩
  · rw [Run.after_length, hservice, hat.service, Run.after_length]
    exact (List.foldl_append ..).symm
  · intro i e hi he
    rw [List.getElem?_append_right hi] at he
    exact hevents e (List.mem_of_getElem? he)

/-- What each event of a kind keeps is kept by a server that does nothing else. -/
theorem At.keeps (hat : s.At run) (h : Does kind s t) (hkind : ∀ e, kind e → e.request? = none)
    {P : Service → Prop} (hkeep : ∀ {s e s'}, Service.Move s e s' → kind e → P s → P s')
    (hstart : P s.service) : P t.service := by
  obtain ⟨run', hext, hat', hevents⟩ := hat.does h hkind
  rw [hat'.service]
  apply Run.along hext.length_le
  · rw [hext.after (Nat.le_refl _), ← hat.service]
    exact hstart
  · exact fun hk _ he hbefore => hkeep (run'.move he) (hevents _ _ hk he) hbefore

private theorem request?_of_ofServer (e : Event) (h : e.OfServer) : e.request? = none := by
  cases e <;> first | rfl | cases h

end Server

/-! ## No worker is lost -/

namespace Phase

/-- No worker has been lost so far. Those that have not been told to stop are there, and the others will
acknowledge their markers or have. -/
def Whole (q : Queue) : Phase → Prop
  | .telling p _ told lost => lost = [] ∧ (∀ t ∈ told, t.1 < p ∧ q.Told t.1 t.2) ∧
    ∀ i, p ≤ i → i < q.partitions → q.Ready i
  | .hearing _ told lost => lost = [] ∧ ∀ t ∈ told, q.Told t.1 t.2
  | .finished lost => lost = []
  | _ => ∀ i, i < q.partitions → q.Ready i

/-- The time for a worker is not up yet. -/
def Timely (now : Millis) : Phase → Prop
  | .telling _ deadline _ _ | .hearing deadline _ _ => now < deadline
  | _ => True

end Phase

namespace Service

variable {s s' : Service} {e : Event} {phase next : Phase} {p : Nat}

theorem Move.ready (hmove : Move s e s') (hne : e ≠ .sendStop p) (h : s.queue.Ready p) :
    s'.queue.Ready p := h.kept (hmove.kept hne)

theorem Move.told {m : Nat} (hmove : Move s e s') (hne : e ≠ .sendStop p) (h : s.queue.Told p m) :
    s'.queue.Told p m := h.kept hmove.onward (hmove.kept hne)

theorem Move.whole (hmove : Move s e s') (hown : e.OfServer) (h : phase.Whole s.queue) :
    phase.Whole s'.queue := by
  have hne (i : Nat) : e ≠ .sendStop i := by
    rintro rfl
    exact hown
  have hready {i : Nat} (hi : i < s'.queue.partitions)
      (h : i < s.queue.partitions → s.queue.Ready i) : s'.queue.Ready i :=
    hmove.ready (hne i) (h (hmove.partitions ▸ hi))
  cases phase with
  | begun | draining | cancelling => exact fun i hi => hready hi (h i)
  | telling =>
    obtain ⟨hlost, htold, hleft⟩ := h
    exact ⟨hlost, fun t ht => ⟨(htold t ht).1, hmove.told (hne _) (htold t ht).2⟩,
      fun i hp hi => hready hi (hleft i hp)⟩
  | hearing =>
    exact ⟨h.1, fun t ht => hmove.told (hne _) (h.2 t ht)⟩
  | finished => exact h

private theorem later_patience (now : Millis) : now < now + Phase.patience :=
  Nat.lt_add_of_pos_right (by decide)

/-- A step of a shutdown loses no worker as long as its time is not up. -/
theorem Stop.whole (h : s.Stop phase s' next) (hn : s.queue.Numbered)
    (hcancelled : phase.Cancelled → s.cancelled = true) (hwhole : phase.Whole s.queue)
    (htimely : phase.Timely s.now) : next.Whole s'.queue ∧ next.Timely s'.now := by
  cases h with
  | closed => exact ⟨fun i hi => Move.closed.ready nofun (hwhole i hi), trivial⟩
  | drained | checked => exact ⟨hwhole, trivial⟩
  | cancelled =>
    exact ⟨⟨rfl, fun t ht => absurd ht List.not_mem_nil, fun i _ hi => hwhole i hi⟩, later_patience _⟩
  | @told p deadline told lost marker hp hplaced =>
    obtain ⟨hlost, htold, hleft⟩ := hwhole
    have hmove := Move.stopSent (p := p) (hcancelled trivial)
    refine ⟨⟨hlost, fun t ht => ?_, fun i hi hlt => ?_⟩, later_patience _⟩
    · rcases List.mem_append.1 ht with hold | hnew
      · obtain ⟨hbefore, hold⟩ := htold t hold
        refine ⟨Nat.lt_succ_of_lt hbefore, hmove.told ?_ hold⟩
        rintro ⟨⟩
        exact Nat.lt_irrefl _ hbefore
      · rw [List.mem_singleton.1 hnew]
        exact ⟨Nat.lt_succ_self p, (hleft p (Nat.le_refl p) hp).told hn hplaced⟩
    · refine hmove.ready ?_ (hleft i (Nat.le_of_succ_le hi) (hmove.partitions ▸ hlt))
      rintro ⟨⟩
      exact Nat.not_succ_le_self _ hi
  | @lost p deadline _ _ hp hnot =>
    rcases hnot with hleft | hover
    · rw [(hwhole.2.2 p (Nat.le_refl p) hp).attended] at hleft
      cases hleft
    · exact absurd htimely (Nat.not_lt.2 hover)
  | toldAll hp =>
    obtain ⟨hlost, htold, -⟩ := hwhole
    exact ⟨⟨hlost, fun t ht => (htold t ht).2⟩, later_patience _⟩
  | @heard deadline told lost hend =>
    refine ⟨?_, trivial⟩
    have hall : ∀ t ∈ told, s.queue.mark t.2 ≠ .waiting :=
      hend.resolve_right (Nat.not_le.2 htimely)
    have hunheard : (told.filter fun t => s.queue.mark t.2 ≠ .acknowledged) = [] := by
      rw [List.filter_eq_nil_iff]
      intro t ht
      simp [(hwhole.2 t ht).acknowledged (hall t ht)]
    show lost ++ _ = []
    rw [hunheard, hwhole.1]
    rfl

/-- How many steps a shutdown takes at most from a phase on. -/
def stepsFrom (partitions timeout : Nat) : Phase → Nat
  | .begun => timeout / Phase.checkPeriod + partitions + 6
  | .draining deadline check =>
    (deadline - check + (Phase.checkPeriod - 1)) / Phase.checkPeriod + partitions + 4
  | .cancelling => partitions + 3
  | .telling p _ _ _ => partitions - p + 2
  | .hearing .. => 1
  | .finished _ => 0

private theorem checks_lt {deadline check now : Nat} (hcheck : check ≤ now) (hbefore : now < deadline) :
    (deadline - (now + 50) + 49) / 50 < (deadline - check + 49) / 50 := by
  omega

private theorem Stop.steps_lt (h : s.Stop phase s' next) {timeout : Nat}
    (htimeout : phase = .begun → timeout = s.settings.shutdownTimeoutSecs.toNat * 1000) :
    stepsFrom s.queue.partitions timeout next < stepsFrom s.queue.partitions timeout phase := by
  cases h with
  | closed =>
    obtain rfl := htimeout rfl
    have hspan := Nat.add_sub_cancel_left (n := s.now) (m := s.settings.shutdownTimeoutSecs.toNat * 1000)
    simp only [stepsFrom, Phase.checkPeriod, hspan]
    generalize s.settings.shutdownTimeoutSecs.toNat * 1000 = timeout
    omega
  | drained => exact Nat.lt_of_lt_of_le (Nat.lt_succ_self _) (Nat.add_le_add_right (Nat.le_add_left ..) 4)
  | checked hcheck hbefore =>
    have hlt := checks_lt hcheck hbefore
    simp only [stepsFrom, Phase.checkPeriod]
    omega
  | cancelled | told | lost | toldAll | heard => simp only [stepsFrom]; omega

private theorem Stop.next_ne_begun (h : s.Stop phase s' next) : next ≠ .begun := by
  cases h <;> exact nofun

end Service

namespace Server

variable {s t : Server} {run : Run} {phase : Phase} {n : Nat}

/-- The server at the next step of a shutdown, for which it may have had to wait. -/
def awaiting (s : Server) (phase : Phase) : Server :=
  if (s.service.stop phase).isSome then s else s.abide phase

private theorem does_abide (s : Server) (phase : Phase) : Does Event.OfServer s (s.abide phase) := by
  have hworks := (does_workThrough s).mono fun _ => Event.IsTurn.ofServer
  have hpasses (s : Server) (duration : Millis) :=
    (does_pass s duration).mono fun _ => Event.IsIdle.ofServer
  have htells (deadline : Millis) : Does Event.OfServer s
      (if (s.workThrough.service.stop phase).isSome then s.workThrough
        else s.workThrough.pass (deadline - s.workThrough.service.now)) := by
    split
    · exact hworks
    · exact hworks.trans (hpasses _ _)
  cases phase with
  | begun | cancelling | finished => exact .refl s
  | draining => exact ((does_workUntil s _).mono fun _ => Event.IsTurn.ofServer).trans (hpasses _ _)
  | telling _ deadline | hearing deadline => exact htells deadline

private theorem does_awaiting (s : Server) (phase : Phase) : Does Event.OfServer s (s.awaiting phase) := by
  unfold awaiting
  split
  · exact .refl s
  · exact does_abide s phase

private theorem now_of_turns (h : Does Event.IsTurn s t) : t.service.now = s.service.now := by
  obtain ⟨events, -, hturns, hservice, -, -⟩ := h
  rw [hservice]
  exact Service.now_follow_of_turns hturns

private theorem awaiting_draining (s : Server) (deadline check : Millis) :
    ∃ stopped, (s.awaiting (.draining deadline check)).service.stop (.draining deadline check) =
      some stopped := by
  unfold awaiting
  split
  · next hgoes => exact Option.isSome_iff_exists.1 hgoes
  · have hnow : (s.abide (.draining deadline check)).service.now =
        s.service.now + (min deadline check - s.service.now) := by
      show (s.drain.pass _).service.now = _
      rw [now_pass, show s.drain.service.now = s.service.now from now_of_turns (does_workUntil s _)]
    have hdue : deadline ≤ (s.abide (.draining deadline check)).service.now ∨
        check ≤ (s.abide (.draining deadline check)).service.now := by
      have hle := Nat.sub_le_iff_le_add'.1 (Nat.le_refl (min deadline check - s.service.now))
      rw [← hnow] at hle
      rcases Nat.le_total deadline check with hfirst | hfirst
      · exact .inl (by rwa [Nat.min_eq_left hfirst] at hle)
      · exact .inr (by rwa [Nat.min_eq_right hfirst] at hle)
    simp only [Service.stop]
    split
    · exact ⟨_, rfl⟩
    · next hopen =>
      rcases hdue with hover | hcheck
      · simp [hover] at hopen
      · rw [if_pos hcheck]
        exact ⟨_, rfl⟩

private theorem stop_telling_of_idle {s : Service} {p : Nat} {deadline : Millis} {told : List (Nat × Nat)}
    {lost : List Nat} (hready : p < s.queue.partitions → s.queue.Ready p) (hidle : s.queue.Idle p)
    (hroom : 0 < s.queue.limits.buffer) :
    ∃ stopped, s.stop (.telling p deadline told lost) = some stopped := by
  simp only [Service.stop]
  split
  · next hp =>
    obtain ⟨marker, hplaced⟩ := (hready hp).placed_of_idle hidle hroom
    cases hsent : s.queue.sendStop p with
    | mk queue sent =>
      rw [hsent] at hplaced
      cases hplaced
      exact ⟨_, rfl⟩
  · exact ⟨_, rfl⟩

private theorem stop_hearing_of_idle {s : Service} {deadline : Millis} {told : List (Nat × Nat)}
    {lost : List Nat} (htold : ∀ t ∈ told, s.queue.Told t.1 t.2) (hidle : ∀ p, s.queue.Idle p) :
    ∃ stopped, s.stop (.hearing deadline told lost) = some stopped := by
  have hheard : (told.all fun t => s.queue.mark t.2 ≠ .waiting) = true := by
    rw [List.all_eq_true]
    exact fun t ht => decide_eq_true ((htold t ht).heard_of_idle (hidle t.1))
  simp only [Service.stop, hheard, Bool.true_or, if_true]
  exact ⟨_, rfl⟩

private theorem awaiting_of_turns (htimely : phase.Timely s.service.now)
    (habide : s.abide phase = if (s.workThrough.service.stop phase).isSome then s.workThrough
      else s.workThrough.pass (match phase with
        | .telling _ deadline _ _ | .hearing deadline _ _ => deadline - s.workThrough.service.now
        | _ => 0))
    (hgoes : ∃ stopped, s.workThrough.service.stop phase = some stopped) :
    phase.Timely (s.awaiting phase).service.now ∧
      ∃ stopped, (s.awaiting phase).service.stop phase = some stopped := by
  unfold awaiting
  split
  · next hnow => exact ⟨htimely, Option.isSome_iff_exists.1 hnow⟩
  · rw [habide, if_pos (Option.isSome_iff_exists.2 hgoes)]
    exact ⟨by rw [now_of_turns (does_workThrough s)]; exact htimely, hgoes⟩

private theorem buffer_pos (run : Run) (m : Nat) : 0 < (run.after m).queue.limits.buffer := by
  apply run.always (P := fun s => 0 < s.queue.limits.buffer)
  · exact Queue.buffer_pos_of_create (Service.create_eq_ok run.created).1
  · exact fun he hbuffer => (run.move he).limits ▸ hbuffer

/-- If a shutdown has to wait, then not for long: the time comes at which it looks whether work is in flight,
and the workers come to what it waits for. -/
private theorem awaiting_spec (hat : s.At run) (hwhole : phase.Whole s.service.queue)
    (htimely : phase.Timely s.service.now) (hgoes : ∀ lost, phase ≠ .finished lost) :
    phase.Timely (s.awaiting phase).service.now ∧
      ∃ stopped, (s.awaiting phase).service.stop phase = some stopped := by
  have hworks := (does_workThrough s).mono fun _ => Event.IsTurn.ofServer
  obtain ⟨run', -, hat', -⟩ := hat.does hworks request?_of_ofServer
  have hwhole' : phase.Whole s.workThrough.service.queue :=
    hat.keeps (P := fun t => phase.Whole t.queue) hworks request?_of_ofServer
      (fun hmove hown h => hmove.whole hown h) hwhole
  cases phase with
  | begun => exact ⟨trivial, _, rfl⟩
  | draining deadline check => exact ⟨trivial, awaiting_draining s deadline check⟩
  | cancelling => exact ⟨trivial, _, rfl⟩
  | telling p deadline told lost =>
    refine awaiting_of_turns htimely rfl (stop_telling_of_idle (fun hp => ?_) (idle_workThrough s p) ?_)
    · exact hwhole'.2.2 p (Nat.le_refl p) hp
    · rw [hat'.service]
      exact buffer_pos run' _
  | hearing deadline told lost =>
    exact awaiting_of_turns htimely rfl (stop_hearing_of_idle hwhole'.2 (idle_workThrough s))
  | finished lost => exact absurd rfl (hgoes lost)

theorem stopOnce_eq {service : Service} {next : Phase}
    (h : (s.awaiting phase).service.stop phase = some (service, next)) :
    s.stopOnce phase = ({ s.awaiting phase with service := service }, next) := by
  simp only [awaiting] at h ⊢
  simp only [stopOnce, h]

theorem At.step (hat : s.At run) {e : Event} (hrequest : e.request? = none) (hcoupon : e.coupon? = none) :
    ∃ run' : Run, run'.Extends run ∧ run'.events.length = run.events.length + 1 ∧
      At { s with service := s.service.step e } run' := by
  refine ⟨{ run with
    events := run.events ++ [e]
    requestsDistinct := by simpa [hrequest] using run.requestsDistinct
    couponsDistinct := by simpa [hcoupon] using run.couponsDistinct },
    ⟨rfl, List.prefix_append ..⟩, by simp, ?_, ?_⟩
  · rw [Run.after_length]
    show s.service.step e = run.initial.follow (run.events ++ [e])
    rw [Service.follow_append, ← Run.after_length, ← hat.service]
    rfl
  · simpa [hcoupon] using hat.fresh

private theorem stopOnce_spec (hat : s.At run) (hstops : run.Stops n run.events.length phase)
    (hwhole : phase.Whole s.service.queue) (htimely : phase.Timely s.service.now)
    (hgoes : ∀ lost, phase ≠ .finished lost) :
    ∃ run' : Run, run'.Extends run ∧ (s.stopOnce phase).1.At run' ∧
      run'.Stops n run'.events.length (s.stopOnce phase).2 ∧
      (s.stopOnce phase).2.Whole (s.stopOnce phase).1.service.queue ∧
      (s.stopOnce phase).2.Timely (s.stopOnce phase).1.service.now ∧
      (awaiting s phase).service.Stop phase (s.stopOnce phase).1.service (s.stopOnce phase).2 := by
  obtain ⟨htimely', ⟨service, next⟩, hstop⟩ := awaiting_spec hat hwhole htimely hgoes
  rw [stopOnce_eq hstop]
  have hwaits := does_awaiting s phase
  obtain ⟨run', hext, hat', -⟩ := hat.does hwaits request?_of_ofServer
  have hwhole' : phase.Whole (s.awaiting phase).service.queue :=
    hat.keeps (P := fun t => phase.Whole t.queue) hwaits request?_of_ofServer
      (fun hmove hown h => hmove.whole hown h) hwhole
  have hstops' : run'.Stops n run'.events.length phase :=
    (hstops.extends hext (Nat.le_refl _)).stay hext.length_le
  have hspec := Service.stop_spec hstop
  have hclosed (h : phase.Closed) : (s.awaiting phase).service.queue.closed = true := by
    rw [hat'.service]
    exact hstops'.closed h
  have hcancelled (h : phase.Cancelled) : (s.awaiting phase).service.cancelled = true := by
    rw [hat'.service]
    exact hstops'.cancelled h
  obtain ⟨hwholeNext, htimelyNext⟩ := hspec.whole (by rw [hat'.service]; exact run'.numbered _)
    hcancelled hwhole' htimely'
  rcases hspec.event hclosed hcancelled with rfl | ⟨e, he, rfl⟩
  · refine ⟨run', hext, hat', hstops'.own (.inl rfl) ?_, hwholeNext, htimelyNext, hspec⟩
    rw [← hat'.service]
    exact hstop
  · obtain ⟨hrequest, hcoupon⟩ : e.request? = none ∧ e.coupon? = none := by
      rcases he with rfl | rfl | ⟨p, rfl⟩ <;> exact ⟨rfl, rfl⟩
    obtain ⟨run'', hext', hlength, hat''⟩ := hat'.step hrequest hcoupon
    refine ⟨run'', hext.trans hext', hat'', ?_, hwholeNext, htimelyNext, hspec⟩
    refine (hstops'.extends hext' (Nat.le_refl _)).own (.inr hlength) ?_
    rw [← hat''.service, hext'.after (Nat.le_refl _), ← hat'.service]
    exact hstop

theorem At.partitions (hat : s.At run) :
    s.service.queue.partitions = run.initial.queue.partitions := by
  rw [hat.service]
  exact run.always (P := fun t => t.queue.partitions = run.initial.queue.partitions) _ rfl
    fun he hbefore => (run.move he).partitions.trans hbefore

private theorem stopWithin_of_over (fuel : Nat) (s : Server) (lost : List Nat) :
    stopWithin fuel s (.finished lost) = (s, .finished lost) := by
  cases fuel <;> rfl

theorem stopWithin_succ (fuel : Nat) (hgoes : ∀ lost, phase ≠ .finished lost) :
    stopWithin (fuel + 1) s phase = stopWithin fuel (s.stopOnce phase).1 (s.stopOnce phase).2 := by
  cases phase with
  | finished lost => exact absurd rfl (hgoes lost)
  | _ => rfl

/-- As many steps as a shutdown can take are enough for it to be over, and it has lost no worker. -/
private theorem stopWithin_spec (fuel : Nat) {timeout : Nat} (hat : s.At run)
    (hstops : run.Stops n run.events.length phase) (hwhole : phase.Whole s.service.queue)
    (htimely : phase.Timely s.service.now)
    (htimeout : phase = .begun → timeout = s.service.settings.shutdownTimeoutSecs.toNat * 1000)
    (hfuel : Service.stepsFrom run.initial.queue.partitions timeout phase ≤ fuel) :
    ∃ run' : Run, run'.Extends run ∧ (stopWithin fuel s phase).1.At run' ∧
      run'.Stops n run'.events.length (.finished []) := by
  induction fuel generalizing s run phase with
  | zero =>
    cases phase with
    | finished lost =>
      obtain rfl := hwhole
      exact ⟨run, .refl run, hat, hstops⟩
    | _ => exact absurd hfuel (by simp [Service.stepsFrom])
  | succ fuel ih =>
    by_cases hfinished : ∃ lost, phase = .finished lost
    · obtain ⟨lost, rfl⟩ := hfinished
      obtain rfl := hwhole
      rw [stopWithin_of_over]
      exact ⟨run, .refl run, hat, hstops⟩
    · have hgoes (lost : List Nat) : phase ≠ .finished lost := fun h => hfinished ⟨lost, h⟩
      obtain ⟨run', hext, hat', hstops', hwhole', htimely', hstep⟩ :=
        stopOnce_spec hat hstops hwhole htimely hgoes
      have hpartitions : (s.awaiting phase).service.queue.partitions = run.initial.queue.partitions := by
        obtain ⟨waited, hwaited, hatWaited, -⟩ := hat.does (does_awaiting s phase) request?_of_ofServer
        rw [hatWaited.partitions, hwaited.initial]
      have hstart : phase = .begun →
          timeout = (s.awaiting phase).service.settings.shutdownTimeoutSecs.toNat * 1000 := by
        rintro rfl
        exact htimeout rfl
      have hless := hstep.steps_lt hstart
      rw [hpartitions] at hless
      rw [stopWithin_succ fuel hgoes]
      obtain ⟨run'', hext', hdone⟩ := ih hat' hstops' hwhole' htimely'
        (fun hbegun => absurd hbegun hstep.next_ne_begun)
        (by rw [hext.initial]; exact Nat.le_of_lt_succ (Nat.lt_of_lt_of_le hless hfuel))
      exact ⟨run'', hext.trans hext', hdone⟩

private theorem ready_of_open {m i : Nat} (hopen : (run.after m).queue.closed = false)
    (hi : i < (run.after m).queue.partitions) : (run.after m).queue.Ready i := by
  refine ⟨run.manned m hopen i hi, ?_⟩
  obtain ⟨rs, markers, hline, hnone⟩ := (run.sound m).orderly i
  rw [hnone hopen] at hline
  simp [Channel.markers, hline]

/-- To shut a server down that takes requests is to go through the phases of a shutdown, to the end and without
the loss of a worker. -/
theorem shutdown_spec (hat : s.At run) (hopen : s.service.queue.closed = false) :
    ∃ run' : Run, run'.Extends run ∧ s.shutdown.At run' ∧
      run'.Stops run.events.length run'.events.length (.finished []) := by
  have hat' : At { s with nextSweep := none } run := ⟨hat.service, hat.fresh⟩
  refine stopWithin_spec s.stopSteps hat' .begun (fun i hi => ?_) trivial (fun _ => rfl) ?_
  · change i < s.service.queue.partitions at hi
    show s.service.queue.Ready i
    rw [hat.service] at hi hopen ⊢
    exact ready_of_open hopen hi
  · rw [← hat.partitions]
    exact Nat.le_refl _

end Server
end CouponIssuance
