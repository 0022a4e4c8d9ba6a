import CouponIssuance.Api.Answer
import CouponIssuance.Proofs.Json.Records
import Mathlib.Tactic.SplitIfs
/-!
# Reading discounts and windows

What the members of an object say of a discount, and that it is read from them in any order. Of a window,
that what the service writes is read as it was.
-/
namespace CouponIssuance

open Json Json.Read

namespace Discount

def requiredNames : List String := ["kind", "value"]

def names : List String := requiredNames ++ ["maxDiscount", "minOrderAmount"]

/-- What may stand in an object that is read as a discount: scalars, and a text for its kind. -/
structure Fit (m : String × Json) : Prop where
  scalar : IsScalar m.2
  kind : m.1 = "kind" → ∃ name, m.2 = .text name

/-- The members say the discount, in any order and among scalars of other names. The least order amount
may be left out if it is zero. -/
structure Told (d : Discount) (ms : List (String × Json)) : Prop where
  kind : valuesOf "kind" ms = [.text d.kind.name]
  value : valuesOf "value" ms = [ofAmount d.value]
  maxDiscount : Optionally (fun n v => v = ofAmount n) d.maxDiscount (valuesOf "maxDiscount" ms)
  minOrderAmount : valuesOf "minOrderAmount" ms = [ofAmount d.minOrderAmount] ∨
    d.minOrderAmount = 0 ∧ valuesOf "minOrderAmount" ms = []
  others : ∀ m ∈ ms, m.1 ∉ names → IsScalar m.2

def kind? (v : Json) : Option DiscountKind := (text? v).bind DiscountKind.ofName?

def fields : List (RecordField Parts) :=
  [.single "kind" kind? Parts.kind fun p v => { p with kind := v },
    .single "value" amount? Parts.value fun p v => { p with value := v },
    .single "maxDiscount" (nullable? amount?) Parts.maxDiscount fun p v => { p with maxDiscount := some v },
    .single "minOrderAmount" amount? Parts.minOrderAmount fun p v => { p with minOrderAmount := v }]

/-- The discount that a value says. -/
def ofJson? : Json → Option Discount := ofObject? (gather fields) {} ofParts

theorem reads : Reads Discount.read ofJson? (Legible Fit) := by
  have hamount (name : String) : Reads amount amount? fun v => Fit (name, v) :=
    reads_amount.mono fun _ hv => hv.scalar
  have hkind : Reads DiscountKind.read kind? fun v => Fit ("kind", v) :=
    (reads_choice _).mono fun _ hv => hv.kind rfl
  refine reads_record (Slot.gathers_select ?_ fun m (hm : Fit m) _ => hm.scalar) {} ofParts
  exact .cons (Slot.fits_required hkind _ _) (.cons (Slot.fits_required (hamount _) _ _)
    (.cons (Slot.fits_optional (hamount _) _ _) (.cons (Slot.fits_spare (hamount _) _ _) .nil)))

private theorem kind?_eq_some_iff {v : Json} {kind : DiscountKind} : kind? v = some kind ↔ v = .text kind.name := by
  have hnamed (s : String) : DiscountKind.ofName? s = some kind ↔ s = kind.name := by
    constructor
    · intro h
      have hfound : kind.name = s := by simpa using List.find?_some h
      exact hfound.symm
    · rintro rfl
      cases kind <;> decide
  cases v with
  | text s => simp [kind?, text?, hnamed]
  | _ => simp [kind?, text?]

theorem gather_fields (p : Parts) (k : String) (v : Json) : gather fields p (k, v) =
    if k = "kind" then (once kind? p.kind v).map fun a => { p with kind := a }
    else if k = "value" then (once amount? p.value v).map fun a => { p with value := a }
    else if k = "maxDiscount" then
      (once (nullable? amount?) p.maxDiscount v).map fun a => { p with maxDiscount := some a }
    else if k = "minOrderAmount" then
      (once amount? p.minOrderAmount v).map fun a => { p with minOrderAmount := a }
    else some p := by
  rw [fields, gather_cons, gather_cons, gather_cons, gather_cons, gather_nil]
  rfl

theorem foldlM_gather_eq_some_iff {ms : List (String × Json)} {p q : Parts} :
    ms.foldlM (gather fields) p = some q ↔
      fill kind? p.kind (valuesOf "kind" ms) = some q.kind ∧
      fill amount? p.value (valuesOf "value" ms) = some q.value ∧
      fill (nullable? amount?) p.maxDiscount (valuesOf "maxDiscount" ms) = some q.maxDiscount ∧
      fill amount? p.minOrderAmount (valuesOf "minOrderAmount" ms) = some q.minOrderAmount := by
  induction ms generalizing p with
  | nil => cases p; cases q; simp
  | cons m ms ih =>
    obtain ⟨k, v⟩ := m
    rw [List.foldlM_cons, gather_fields]
    -- The field of the first member's name takes its value in, and the others keep what they hold.
    split_ifs with hkind hvalue hmax hmin
    · cases h : once kind? p.kind v <;> simp [hkind, valuesOf_cons, fill_cons, h, ih]
    · cases h : once amount? p.value v <;> simp [hvalue, valuesOf_cons, fill_cons, h, ih]
    · cases h : once (nullable? amount?) p.maxDiscount v <;> simp [hmax, valuesOf_cons, fill_cons, h, ih]
    · cases h : once amount? p.minOrderAmount v <;> simp [hmin, valuesOf_cons, fill_cons, h, ih]
    · simp [hkind, hvalue, hmax, hmin, valuesOf_cons, ih]

variable {d : Discount} {ms : List (String × Json)}

theorem ofJson?_eq_some_iff : ofJson? (.object ms) = some d ↔
    valuesOf "kind" ms = [.text d.kind.name] ∧ valuesOf "value" ms = [ofAmount d.value] ∧
    Optionally (fun n v => v = ofAmount n) d.maxDiscount (valuesOf "maxDiscount" ms) ∧
    (valuesOf "minOrderAmount" ms = [ofAmount d.minOrderAmount] ∨
      d.minOrderAmount = 0 ∧ valuesOf "minOrderAmount" ms = []) := by
  have hfinish (q : Parts) : ofParts q = some d ↔ q.kind = some d.kind ∧ q.value = some d.value ∧
      q.maxDiscount.join = d.maxDiscount ∧ q.minOrderAmount.getD 0 = d.minOrderAmount := by
    obtain ⟨kind, value, most, least⟩ := q
    cases d
    cases kind <;> cases value <;> simp [ofParts]
  have hkind : fill kind? none (valuesOf "kind" ms) = some (some d.kind) ↔ _ :=
    fill_eq_some_some_iff fun _ => kind?_eq_some_iff
  have hvalue : fill amount? none (valuesOf "value" ms) = some (some d.value) ↔ _ :=
    fill_eq_some_some_iff (amount?_eq_some_iff _)
  have hmost : _ ↔ Optionally _ d.maxDiscount (valuesOf "maxDiscount" ms) :=
    fill_join_iff amount?_eq_some_iff rfl
  have hleast : (∃ o, fill amount? none (valuesOf "minOrderAmount" ms) = some o ∧
      o.getD 0 = d.minOrderAmount) ↔ _ := fill_getD_iff (amount?_eq_some_iff _)
  rw [← hkind, ← hvalue, ← hmost, ← hleast]
  simp only [ofJson?, ofObject?, Option.bind_eq_some_iff, foldlM_gather_eq_some_iff, hfinish]
  constructor
  · rintro ⟨q, ⟨hk, hv, hm, hl⟩, hqk, hqv, hqm, hql⟩
    exact ⟨hqk ▸ hk, hqv ▸ hv, ⟨_, hm, hqm⟩, ⟨_, hl, hql⟩⟩
  · rintro ⟨hk, hv, ⟨most, hm, hqm⟩, ⟨least, hl, hql⟩⟩
    exact ⟨⟨some d.kind, some d.value, most, least⟩, ⟨hk, hv, hm, hl⟩, rfl, rfl, hqm, hql⟩

theorem Told.ofJson? (h : Told d ms) : ofJson? (.object ms) = some d :=
  ofJson?_eq_some_iff.2 ⟨h.kind, h.value, h.maxDiscount, h.minOrderAmount⟩

theorem Told.fit (h : Told d ms) : ∀ m ∈ ms, Fit m := by
  have hplain {k : String} {v : Json} (hk : k ≠ "kind") (hv : IsScalar v) : Fit (k, v) :=
    ⟨hv, fun h => absurd h hk⟩
  have hamount (n : UInt64) (v : Json) (hv : v = ofAmount n) : IsScalar v := hv ▸ .amount n
  refine forall_mem_of_valuesOf names ?_ fun (k, v) hm hnew => ?_
  · simp only [names, requiredNames, List.cons_append, List.nil_append, List.forall_mem_cons, h.kind,
      h.value]
    refine ⟨⟨⟨.text _, fun _ => ⟨_, rfl⟩⟩, nofun⟩, ⟨hplain (by decide) (.amount _), nofun⟩, ?_, ?_, nofun⟩
    · exact fun v hv => hplain (by decide) (h.maxDiscount.isScalar_of_mem hamount hv)
    · rcases h.minOrderAmount with hone | ⟨-, hnone⟩
      · rw [hone]
        exact fun v hv => hplain (by decide) (hamount _ v (List.mem_singleton.1 hv))
      · rw [hnone]
        exact nofun
  · refine hplain ?_ (h.others _ hm hnew)
    rintro rfl
    exact hnew (by simp [names, requiredNames])

theorem once_of_ofJson? (h : ofJson? (.object ms) = some d) : Once requiredNames names ms := by
  obtain ⟨hkind, hvalue, hmost, hleast⟩ := ofJson?_eq_some_iff.1 h
  have hmost := hmost.length_le
  have hleast : (valuesOf "minOrderAmount" ms).length ≤ 1 := by
    rcases hleast with h | ⟨-, h⟩ <;> simp [h]
  constructor <;> simp [requiredNames, names, hkind, hvalue, hmost, hleast]

theorem told_toJson (d : Discount) : ∃ ms, d.toJson = .object ms ∧ d.Told ms := by
  refine ⟨_, rfl, ?_⟩
  obtain ⟨kind, value, most, least⟩ := d
  have hmost : Optionally (fun n v => v = ofAmount n) most (most.map ofAmount).toList :=
    optionally_toList_map ofAmount fun _ => rfl
  constructor
  · simp [valuesOf_cons, valuesOf_optional]
  · simp [valuesOf_cons, valuesOf_optional]
  · simpa [valuesOf_cons, valuesOf_optional] using hmost
  · simp [valuesOf_cons, valuesOf_optional]
  · intro m hm hnew
    refine absurd ?_ hnew
    simp only [List.mem_append, List.mem_cons, List.not_mem_nil, or_false, mem_optional_iff] at hm
    rcases hm with ((rfl | rfl) | ⟨_, -, rfl⟩) | rfl <;> simp [names, requiredNames]

end Discount

namespace Window

def fields : List (RecordField Parts) :=
  [.single "startsAt" (nullable? amount?) Parts.startsAt fun p v => { p with startsAt := some v },
    .single "endsAt" (nullable? amount?) Parts.endsAt fun p v => { p with endsAt := some v }]

/-- The window that a value says. -/
def ofJson? : Json → Option Window :=
  ofObject? (gather fields) {} fun p => some (ofParts p)

theorem reads : Reads Window.read ofJson? (Legible fun m => IsScalar m.2) := by
  refine reads_record (Slot.gathers_select ?_ fun _ hm _ => hm) ({} : Parts) _
  exact .cons (Slot.fits_optional reads_amount _ _) (.cons (Slot.fits_optional reads_amount _ _) .nil)

theorem gather_fields (p : Parts) (k : String) (v : Json) : gather fields p (k, v) =
    if k = "startsAt" then
      (once (nullable? amount?) p.startsAt v).map fun a => { p with startsAt := some a }
    else if k = "endsAt" then
      (once (nullable? amount?) p.endsAt v).map fun a => { p with endsAt := some a }
    else some p := by
  rw [fields, gather_cons, gather_cons, gather_nil]
  rfl

theorem foldlM_gather_eq_some_iff {ms : List (String × Json)} {p q : Parts} :
    ms.foldlM (gather fields) p = some q ↔
      fill (nullable? amount?) p.startsAt (valuesOf "startsAt" ms) = some q.startsAt ∧
      fill (nullable? amount?) p.endsAt (valuesOf "endsAt" ms) = some q.endsAt := by
  induction ms generalizing p with
  | nil => cases p; cases q; simp
  | cons m ms ih =>
    obtain ⟨k, v⟩ := m
    rw [List.foldlM_cons, gather_fields]
    split_ifs with hstarts hends
    · cases h : once (nullable? amount?) p.startsAt v <;> simp [hstarts, valuesOf_cons, fill_cons, h, ih]
    · cases h : once (nullable? amount?) p.endsAt v <;> simp [hends, valuesOf_cons, fill_cons, h, ih]
    · simp [hstarts, hends, valuesOf_cons, ih]

theorem optionally_members (w : Window) :
    Optionally (fun n v => v = ofAmount n) w.startsAt (valuesOf "startsAt" w.members) ∧
      Optionally (fun n v => v = ofAmount n) w.endsAt (valuesOf "endsAt" w.members) := by
  obtain ⟨starts, ends⟩ := w
  have hgiven (x : Option UInt64) : Optionally (fun n v => v = ofAmount n) x (x.map ofAmount).toList :=
    optionally_toList_map ofAmount fun _ => rfl
  constructor
  · simpa [members, valuesOf_optional] using hgiven starts
  · simpa [members, valuesOf_optional] using hgiven ends

theorem ofJson?_toJson (w : Window) : ofJson? w.toJson = some w := by
  obtain ⟨hstarts, hends⟩ := w.optionally_members
  obtain ⟨starts, hs, hqs⟩ := (fill_join_iff amount?_eq_some_iff rfl).2 hstarts
  obtain ⟨ends, he, hqe⟩ := (fill_join_iff amount?_eq_some_iff rfl).2 hends
  have hgathered : w.members.foldlM (gather fields) {} = some ⟨starts, ends⟩ :=
    foldlM_gather_eq_some_iff.2 ⟨hs, he⟩
  simp only [toJson, ofJson?, ofObject?, hgathered, Option.bind_some, ofParts, hqs, hqe]

theorem legible_toJson (w : Window) : Legible (fun m => IsScalar m.2) w.toJson := by
  refine .object fun m hm => ?_
  simp only [members, List.mem_append, mem_optional_iff, Option.map_eq_some_iff] at hm
  rcases hm with ⟨_, ⟨n, -, rfl⟩, rfl⟩ | ⟨_, ⟨n, -, rfl⟩, rfl⟩ <;> exact .amount n

end Window

end CouponIssuance
