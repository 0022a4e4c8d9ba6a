import CouponIssuance.Proofs.CouponBook
import CouponIssuance.Proofs.Table.Listing
import Mathlib.Algebra.GroupWithZero.Nat
import Mathlib.Data.Set.Function
/-!
# A book after any calls

A book is written by two kinds of calls, those that enter a coupon and those that redeem one. It does not
look whether the name of a new coupon is taken; but as long as no two coupons are entered under one name,
its index, its counts and its listings say of the stored coupons what is true of them.
-/
namespace CouponIssuance

namespace Coupon

/-- A coupon stands before another in a listing: it is older, or as old and first by name. -/
def Before (k l : Coupon) : Prop :=
  k.issuedAt < l.issuedAt ∨ k.issuedAt = l.issuedAt ∧ k.id.text < l.id.text

private theorem Before.asymm {k l : Coupon} (h : k.Before l) : ¬ l.Before k := by
  intro h'
  rcases h with hlt | ⟨heq, htext⟩
  · rcases h' with hgt | ⟨heq, -⟩
    · exact Nat.lt_asymm hlt hgt
    · exact Nat.ne_of_lt hlt heq.symm
  · rcases h' with hgt | ⟨-, htext'⟩
    · exact Nat.ne_of_lt hgt heq.symm
    · exact String.lt_irrefl _ (String.lt_trans htext htext')

private theorem precedes_iff {k l : Coupon} : k.precedes l = true ↔
    k.issuedAt < l.issuedAt ∨ k.issuedAt = l.issuedAt ∧ k.id.text ≤ l.id.text := by
  simp [Coupon.precedes]

private theorem precedes_trans (k l m : Coupon) (hkl : k.precedes l = true)
    (hlm : l.precedes m = true) : k.precedes m = true := by
  rw [precedes_iff] at hkl hlm ⊢
  rcases hkl with hkl | ⟨hkl, htext⟩
  · rcases hlm with hlm | ⟨hlm, -⟩
    · exact .inl (Nat.lt_trans hkl hlm)
    · exact .inl (hlm ▸ hkl)
  · rcases hlm with hlm | ⟨hlm, htext'⟩
    · exact .inl (hkl ▸ hlm)
    · exact .inr ⟨hkl.trans hlm, String.le_trans htext htext'⟩

private theorem precedes_total (k l : Coupon) : (k.precedes l || l.precedes k) = true := by
  rw [Bool.or_eq_true, precedes_iff, precedes_iff]
  have htext := String.le_total k.id.text l.id.text
  rcases Nat.lt_trichotomy k.issuedAt l.issuedAt with hlt | heq | hgt
  · exact .inl (.inl hlt)
  · rcases htext with hle | hge
    · exact .inl (.inr ⟨heq, hle⟩)
    · exact .inr (.inr ⟨heq.symm, hge⟩)
  · exact .inr (.inl hgt)

end Coupon

namespace CouponBook

/-- A call that may write in a book, or a preview. -/
inductive Call where
  | issue (id : CouponId) (campaign : CampaignId) (owner : RequesterId) (request : RequestId)
      (now : Millis)
  | redeem (requester : RequesterId) (id : CouponId) (order : UInt64) (orderId : Option String)
      (campaign : Campaign) (now : Millis)
  | preview (requester : RequesterId) (id : CouponId) (order : UInt64) (campaign : Campaign)
      (now : Millis)

/-- The book after a call. A call that is refused leaves it as it was. -/
def call (b : CouponBook) : Call → CouponBook
  | .issue id campaign owner request now =>
    match b.issue id campaign owner request now with
    | .ok (b, _) => b
    | .error _ => b
  | .redeem requester id order orderId campaign now =>
    match b.redeem requester id order orderId campaign now with
    | .ok (b, _) => b
    | .error _ => b
  | .preview .. => b

/-- The name under which a call enters a coupon, if it enters one. -/
def issued? (b : CouponBook) : Call → Option CouponId
  | .issue id campaign owner request now =>
    if (b.issue id campaign owner request now).isOk then some id else none
  | _ => none

def run (b : CouponBook) (calls : List Call) : CouponBook := calls.foldl call b

/-- The names under which coupons are entered, call by call. -/
def issued : CouponBook → List Call → List CouponId
  | _, [] => []
  | b, a :: calls => (b.issued? a).toList ++ issued (b.call a) calls

/-- The requesters and campaigns of the stored coupons. -/
def holdings (b : CouponBook) : Set (RequesterId × CampaignId) :=
  { p | ∃ k ∈ b.coupons.values, (k.owner, k.campaign) = p }

/-- The names of the stored coupons. -/
def names (b : CouponBook) : Set CouponId := { id | ∃ k ∈ b.coupons.values, k.id = id }

/-- What a book says of its coupons is true, and it says all there is. -/
structure Faithful (b : CouponBook) : Prop where
  named : ∀ id k, b.coupons.get? id = some k → k.id = id
  indexed : ∀ k ∈ b.coupons.values, b.owners.get? (k.owner, k.campaign) = some k.id
  unindexed : ∀ p, p ∉ b.holdings → b.owners.get? p = none
  bijective : Set.BijOn b.owners.get? b.holdings (some '' b.names)
  /-- A coupon is entered if its owner has none of the campaign. -/
  issue_of_free : ∀ id c o request now, (o, c) ∉ b.holdings → ∃ b',
    b.issue id c o request now = .ok (b', ⟨id, c, o, request, now, none⟩) ∧
      ∀ i, b'.coupons.get? i =
        if id = i then some ⟨id, c, o, request, now, none⟩ else b.coupons.get? i
  issue_of_taken : ∀ id c o request now, (o, c) ∈ b.holdings →
    b.issue id c o request now = .error (.couponAlreadyIssued c o) ∧
      b.call (.issue id c o request now) = b
  owned_iff : ∀ o c k, b.owned o c = some k ↔
    k ∈ b.coupons.values ∧ k.owner = o ∧ k.campaign = c
  count_eq : ∀ c, b.countFor c = b.coupons.values.countP fun k => k.campaign = c
  /-- The counts of all campaigns add up to the size of the book. -/
  sum_counts : ∀ cs : List CampaignId, cs.Nodup → (∀ k ∈ b.coupons.values, k.campaign ∈ cs) →
    (cs.map b.countFor).sum = b.size
  mem_list_iff : ∀ o k, k ∈ b.listFor o ↔ k ∈ b.coupons.values ∧ k.owner = o
  once : ∀ o, (b.listFor o).Nodup
  ordered : ∀ o, (b.listFor o).Pairwise Coupon.Before

/-- What becomes of a book in a call, with the name of the coupon that is entered. -/
inductive Change (b : CouponBook) : Option CouponId → CouponBook → Prop
  | kept : Change b none b
  | entered {k : Coupon} (hfree : b.owned k.owner k.campaign = none) :
      Change b (some k.id) (b.enter k)
  | spent {id : CouponId} {k : Coupon} (hheld : b.coupons.get? id = some k) (r : Redemption) :
      Change b none (b.spend k r)

variable {b b' : CouponBook} {k : Coupon}

theorem Sound.issue_of_owned (h : b.Sound) {o : RequesterId} {c : CampaignId}
    (howned : b.owned o c = some k) (id : CouponId) (request : RequestId) (now : Millis) :
    b.issue id c o request now = .error (.couponAlreadyIssued c o) := by
  simp [issue, h.contains_owners_iff, howned]

private theorem Sound.change_issue (h : b.Sound) (id : CouponId) (c : CampaignId) (o : RequesterId)
    (request : RequestId) (now : Millis) :
    Change b (b.issued? (.issue id c o request now)) (b.call (.issue id c o request now)) := by
  cases howned : b.owned o c with
  | none =>
    have hissue := h.issue_of_unowned howned id request now
    simp only [issued?, call, hissue, Except.isOk, Except.toBool, if_true]
    exact .entered (k := ⟨id, c, o, request, now, none⟩) howned
  | some k =>
    have hissue := h.issue_of_owned howned id request now
    simp only [issued?, call, hissue, Except.isOk, Except.toBool, Bool.false_eq_true, if_false]
    exact .kept

theorem Sound.change_call (h : b.Sound) (a : Call) : Change b (b.issued? a) (b.call a) := by
  cases a with
  | issue id c o request now => exact h.change_issue id c o request now
  | redeem o id order orderId campaign now =>
    cases hredeem : b.redeem o id order orderId campaign now with
    | error why =>
      simp only [issued?, call, hredeem]
      exact .kept
    | ok redeemed =>
      obtain ⟨k, hheld, hbook⟩ := redeem_eq_ok h hredeem
      simp only [issued?, call, hredeem, hbook]
      exact .spent hheld _
  | preview => exact .kept

/-- A sound book that counts its coupons right, and in which the stored coupons have these names. -/
structure Kept (names : List CouponId) (b : CouponBook) : Prop where
  sound : b.Sound
  known : ∀ {id k}, b.coupons.get? id = some k → id ∈ names
  counted : ∀ c, b.countFor c = b.coupons.count fun k => k.campaign = c

private theorem kept_empty : empty.Kept [] where
  sound := sound_empty
  known h := by cases h
  counted _ := rfl

variable {names : List CouponId} {new : Option CouponId}

theorem Kept.change (h : b.Kept names) (hchange : Change b new b')
    (hnew : ∀ id, new = some id → id ∉ names) : b'.Kept (names ++ new.toList) := by
  cases hchange with
  | kept =>
    rw [Option.toList_none, List.append_nil]
    exact h
  | @entered k hfree =>
    have hunused : b.coupons.get? k.id = none := by
      apply Option.eq_none_iff_forall_ne_some.2
      intro l hl
      exact hnew k.id rfl (h.known hl)
    refine ⟨h.sound.enter hunused hfree, ?_, ?_⟩
    · intro id l hl
      rw [get?_enter] at hl
      split at hl
      · next hid => simp [hid]
      · exact List.mem_append_left _ (h.known hl)
    · intro c
      have hcount := Table.count_insert_new hunused k fun l : Coupon => l.campaign = c
      rw [countFor_enter, h.counted]
      show _ = (b.coupons.insert k.id k).count _
      simp [hcount]
  | @spent id k hheld r =>
    rw [Option.toList_none, List.append_nil]
    refine ⟨h.sound.spend hheld r, ?_, ?_⟩
    · intro i l hl
      obtain ⟨l', hl', -⟩ := h.sound.get?_of_spend hheld hl
      exact h.known hl'
    · intro c
      have hstored : b.coupons.get? k.id = some k := by
        rw [h.sound.named hheld]
        exact hheld
      have hcount : (b.coupons.insert k.id { k with redemption := some r }).count
          (fun l => l.campaign = c) = b.coupons.count fun l => l.campaign = c :=
        Table.count_insert_held hstored rfl
      exact (h.counted c).trans hcount.symm

theorem Kept.run {calls : List Call} (h : b.Kept names) (hnew : (names ++ b.issued calls).Nodup) :
    (b.run calls).Kept (names ++ b.issued calls) := by
  induction calls generalizing b names with
  | nil =>
    rw [issued, List.append_nil]
    exact h
  | cons a calls ih =>
    rw [issued, ← List.append_assoc] at hnew ⊢
    apply ih (h.change (h.sound.change_call a) _) hnew
    intro id hid hmem
    have happart := (List.nodup_append.1 (List.nodup_append.1 hnew).1).2.2
    exact happart id hmem id (by simp [hid]) rfl

theorem Sound.mem_values_iff (h : b.Sound) : k ∈ b.coupons.values ↔ b.coupons.get? k.id = some k := by
  rw [Table.mem_values_iff]
  constructor
  · intro hk
    obtain ⟨id, hid⟩ := hk
    rw [h.named hid]
    exact hid
  · exact fun hk => ⟨k.id, hk⟩

private theorem Sound.owned_iff (h : b.Sound) (o : RequesterId) (c : CampaignId) (k : Coupon) :
    b.owned o c = some k ↔ k ∈ b.coupons.values ∧ k.owner = o ∧ k.campaign = c := by
  rw [h.owned_eq_some_iff, h.mem_values_iff]

private theorem Sound.owned_of_free (h : b.Sound) {o : RequesterId} {c : CampaignId}
    (hfree : (o, c) ∉ b.holdings) : b.owned o c = none := by
  apply Option.eq_none_iff_forall_ne_some.2
  intro k hk
  obtain ⟨hstored, howner, hcampaign⟩ := (h.owned_iff o c k).1 hk
  exact hfree ⟨k, hstored, Prod.ext howner hcampaign⟩

private theorem Sound.owned_of_taken (h : b.Sound) {o : RequesterId} {c : CampaignId}
    (htaken : (o, c) ∈ b.holdings) : ∃ k, b.owned o c = some k := by
  obtain ⟨k, hstored, hpair⟩ := htaken
  exact ⟨k, (h.owned_iff o c k).2 ⟨hstored, congrArg Prod.fst hpair, congrArg Prod.snd hpair⟩⟩

private theorem Sound.get?_owners (h : b.Sound) (hk : k ∈ b.coupons.values) :
    b.owners.get? (k.owner, k.campaign) = some k.id :=
  h.indexed.2 ⟨k, h.mem_values_iff.1 hk, rfl, rfl⟩

private theorem Sound.get?_owners_of_free (h : b.Sound) {p : RequesterId × CampaignId} (hp : p ∉ b.holdings) :
    b.owners.get? p = none := by
  apply Option.eq_none_iff_forall_ne_some.2
  intro id hid
  obtain ⟨k, hk, howner, hcampaign⟩ := h.indexed.1 hid
  exact hp ⟨k, Table.mem_values_iff.2 ⟨id, hk⟩, Prod.ext howner hcampaign⟩

private theorem Sound.bijOn_owners (h : b.Sound) : Set.BijOn b.owners.get? b.holdings (some '' b.names) := by
  refine ⟨?_, ?_, ?_⟩
  · intro p hp
    obtain ⟨k, hk, rfl⟩ := hp
    exact ⟨k.id, ⟨k, hk, rfl⟩, (h.get?_owners hk).symm⟩
  · intro p hp q hq heq
    obtain ⟨k, hk, rfl⟩ := hp
    obtain ⟨l, hl, rfl⟩ := hq
    rw [h.get?_owners hk, h.get?_owners hl] at heq
    have hsame : b.coupons.get? k.id = some l := by
      rw [Option.some.inj heq]
      exact h.mem_values_iff.1 hl
    rw [h.mem_values_iff.1 hk] at hsame
    rw [Option.some.inj hsame]
  · intro name hname
    obtain ⟨id, ⟨k, hk, rfl⟩, rfl⟩ := hname
    exact ⟨(k.owner, k.campaign), ⟨k, hk, rfl⟩, h.get?_owners hk⟩

private theorem Kept.sum_counts (h : b.Kept names) {cs : List CampaignId} (hcs : cs.Nodup)
    (hall : ∀ k ∈ b.coupons.values, k.campaign ∈ cs) : (cs.map b.countFor).sum = b.size := by
  have htotal := totalBy_countP_key Coupon.campaign hcs hall
  have hcount : totalBy b.countFor cs = totalBy (fun c => b.coupons.values.countP fun k =>
      k.campaign = c) cs := totalBy_congr fun c _ => h.counted c
  have hsize : b.coupons.values.length = b.size := List.length_map ..
  rw [← hsize, ← htotal, ← hcount, totalBy, List.sum, List.foldr_map]

private theorem mem_listFor_iff (b : CouponBook) (o : RequesterId) (k : Coupon) :
    k ∈ b.listFor o ↔ k ∈ b.coupons.values ∧ k.owner = o := by
  simp [listFor]

private theorem Sound.nodup_names (h : b.Sound) (o : RequesterId) : ((b.listFor o).map Coupon.id).Nodup := by
  have hall : (b.coupons.values.map Coupon.id).Nodup := by
    rw [Table.map_values_of_named fun id k hk => h.named hk]
    exact b.coupons.distinct
  have hkept : ((b.coupons.values.filter (·.owner = o)).map Coupon.id).Nodup :=
    hall.sublist (List.filter_sublist.map Coupon.id)
  exact ((List.mergeSort_perm ..).map Coupon.id).nodup_iff.2 hkept

private theorem Sound.pairwise_listFor (h : b.Sound) (o : RequesterId) :
    (b.listFor o).Pairwise Coupon.Before := by
  have hsorted : (b.listFor o).Pairwise fun k l => k.precedes l = true :=
    List.pairwise_mergeSort Coupon.precedes_trans Coupon.precedes_total _
  have hdistinct := List.pairwise_map.1 (h.nodup_names o)
  refine hsorted.imp₂ ?_ hdistinct
  intro k l hle hne
  rcases Coupon.precedes_iff.1 hle with hlt | ⟨heq, htext⟩
  · exact .inl hlt
  · refine .inr ⟨heq, ?_⟩
    apply Decidable.byContradiction
    intro hnot
    exact hne (congrArg CouponId.mk (String.le_antisymm htext (String.not_lt.1 hnot)))

private theorem Sound.nodup_listFor (h : b.Sound) (o : RequesterId) : (b.listFor o).Nodup :=
  List.Pairwise.of_map Coupon.id (fun _ _ hne heq => hne (congrArg Coupon.id heq)) (h.nodup_names o)

private theorem Sound.listFor_eq (h : b.Sound) (h' : b'.Sound)
    (hsame : ∀ k, k ∈ b'.coupons.values ↔ k ∈ b.coupons.values) (o : RequesterId) :
    b'.listFor o = b.listFor o := by
  have hperm : (b'.listFor o).Perm (b.listFor o) := by
    rw [List.perm_ext_iff_of_nodup (h'.nodup_listFor o) (h.nodup_listFor o)]
    intro k
    rw [mem_listFor_iff, mem_listFor_iff, hsame]
  apply hperm.eq_of_pairwise _ (h'.pairwise_listFor o) (h.pairwise_listFor o)
  intro k l _ _ hkl hlk
  exact absurd hlk hkl.asymm

private theorem Kept.faithful (h : b.Kept names) : b.Faithful where
  named _ _ := h.sound.named
  indexed _ := h.sound.get?_owners
  unindexed _ := h.sound.get?_owners_of_free
  bijective := h.sound.bijOn_owners
  issue_of_free id c o request now hfree :=
    ⟨_, h.sound.issue_of_unowned (h.sound.owned_of_free hfree) id request now, get?_enter b _⟩
  issue_of_taken id c o request now htaken := by
    obtain ⟨k, howned⟩ := h.sound.owned_of_taken htaken
    have hissue : b.issue id c o request now = .error (.couponAlreadyIssued c o) :=
      h.sound.issue_of_owned howned ..
    exact ⟨hissue, by simp only [call, hissue]⟩
  owned_iff := h.sound.owned_iff
  count_eq := h.counted
  sum_counts _ := h.sum_counts
  mem_list_iff := b.mem_listFor_iff
  once := h.sound.nodup_listFor
  ordered := h.sound.pairwise_listFor

private theorem kept_run {calls : List Call} (hnew : (empty.issued calls).Nodup) :
    (empty.run calls).Kept (empty.issued calls) := kept_empty.run hnew

/-- Whatever is asked of a book that was empty at first, and however the calls go, it is faithful as long as
no two coupons are entered under one name. Its index leads from each pair of a requester and a campaign
of which there is a coupon to the name of that coupon, and this is a bijection; no second coupon is
entered for a pair. The counts by campaign are right and add up, and a requester's coupons are listed
once each, the oldest first; how they are listed depends on nothing but which coupons are stored. -/
theorem faithful_run (calls : List Call) (hnew : (empty.issued calls).Nodup) :
    (empty.run calls).Faithful ∧
    ∀ calls', (empty.issued calls').Nodup →
      (∀ k, k ∈ (empty.run calls').coupons.values ↔ k ∈ (empty.run calls).coupons.values) →
      ∀ o, (empty.run calls').listFor o = (empty.run calls).listFor o :=
  ⟨(kept_run hnew).faithful, fun _ hnew' hsame =>
    (kept_run hnew).sound.listFor_eq (kept_run hnew').sound hsame⟩

/-- A campaign without an end that takes a thousand off every order. -/
def openCampaign : Campaign := ⟨⟨1⟩, "first", 10, .unlimited, .fixed 1000, 0⟩

/-- Two coupons of one instant, the second first by name; then a coupon that is refused, though its name
would have been used twice, and one that is entered late but is older. -/
def outOfOrder : List Call :=
  [.issue ⟨"y"⟩ ⟨1⟩ ⟨1⟩ ⟨"a"⟩ 5, .issue ⟨"x"⟩ ⟨2⟩ ⟨1⟩ ⟨"b"⟩ 5, .issue ⟨"x"⟩ ⟨1⟩ ⟨1⟩ ⟨"c"⟩ 6,
    .redeem ⟨1⟩ ⟨"y"⟩ 5000 none openCampaign 7, .preview ⟨1⟩ ⟨"x"⟩ 5000 openCampaign 7,
    .issue ⟨"w"⟩ ⟨3⟩ ⟨1⟩ ⟨"d"⟩ 3]

/-- The same coupons in another order. -/
def inOrder : List Call :=
  [.issue ⟨"w"⟩ ⟨3⟩ ⟨1⟩ ⟨"d"⟩ 3, .issue ⟨"x"⟩ ⟨2⟩ ⟨1⟩ ⟨"b"⟩ 5, .issue ⟨"y"⟩ ⟨1⟩ ⟨1⟩ ⟨"a"⟩ 5,
    .redeem ⟨1⟩ ⟨"y"⟩ 5000 none openCampaign 7]

theorem faithful_run_outOfOrder :
    (empty.issued outOfOrder).Nodup ∧ (empty.issued inOrder).Nodup ∧
    ((empty.run outOfOrder).listFor ⟨1⟩).Pairwise Coupon.Before ∧
    (empty.run inOrder).listFor ⟨1⟩ = (empty.run outOfOrder).listFor ⟨1⟩ ∧
    ([⟨1⟩, ⟨2⟩, ⟨3⟩].map (empty.run outOfOrder).countFor).sum = 3 ∧
    (empty.run outOfOrder).call (.issue ⟨"z"⟩ ⟨2⟩ ⟨1⟩ ⟨"e"⟩ 9) = empty.run outOfOrder := by
  have hnew : (empty.issued outOfOrder).Nodup := by decide
  have hnew' : (empty.issued inOrder).Nodup := by decide
  have hstored : (empty.run outOfOrder).coupons.values =
      [⟨⟨"y"⟩, ⟨1⟩, ⟨1⟩, ⟨"a"⟩, 5, some ⟨7, none⟩⟩, ⟨⟨"x"⟩, ⟨2⟩, ⟨1⟩, ⟨"b"⟩, 5, none⟩,
        ⟨⟨"w"⟩, ⟨3⟩, ⟨1⟩, ⟨"d"⟩, 3, none⟩] := by decide
  have hstored' : (empty.run inOrder).coupons.values =
      [⟨⟨"w"⟩, ⟨3⟩, ⟨1⟩, ⟨"d"⟩, 3, none⟩, ⟨⟨"x"⟩, ⟨2⟩, ⟨1⟩, ⟨"b"⟩, 5, none⟩,
        ⟨⟨"y"⟩, ⟨1⟩, ⟨1⟩, ⟨"a"⟩, 5, some ⟨7, none⟩⟩] := by decide
  obtain ⟨hfaithful, hlisted⟩ := faithful_run outOfOrder hnew
  have htaken : (⟨1⟩, ⟨2⟩) ∈ (empty.run outOfOrder).holdings := by
    refine ⟨⟨⟨"x"⟩, ⟨2⟩, ⟨1⟩, ⟨"b"⟩, 5, none⟩, ?_, rfl⟩
    simp [hstored]
  refine ⟨hnew, hnew', hfaithful.ordered ⟨1⟩, hlisted inOrder hnew' ?_ ⟨1⟩, ?_, ?_⟩
  · intro k
    rw [hstored, hstored']
    simp only [List.mem_cons, List.not_mem_nil, or_false]
    tauto
  · exact hfaithful.sum_counts _ (by decide) (by rw [hstored]; decide)
  · exact (hfaithful.issue_of_taken _ _ _ _ _ htaken).2

end CouponBook
end CouponIssuance
