import CouponIssuance.Proofs.Api.Terms
/-!
# Campaigns are read as they are written

The members of an object say a draft whatever their order, with an optional one left out or `null`, the ends
of the window among the others, and scalars of any other name in between. However such an object is written,
the draft is read from it. With a required member dropped or a known one repeated, in the draft or in its
discount, the object has another form than expected.
-/
namespace CouponIssuance

open Json Json.Read

namespace CampaignDraft

def requiredNames : List String := ["campaignId", "totalStock"]

def names : List String := requiredNames ++ ["name", "startsAt", "endsAt", "discount"]

/-- What may stand in an object that is read as a draft: scalars, and an object for its discount. -/
structure Fit (m : String × Json) : Prop where
  scalar : m.1 ≠ "discount" → IsScalar m.2
  discount : m.1 = "discount" → Legible Discount.Fit m.2

/-- The members say the draft, in any order and among scalars of other names. The ends of the window
stand among them. -/
structure Told (d : CampaignDraft) (ms : List (String × Json)) : Prop where
  campaign : valuesOf "campaignId" ms = [ofAmount d.campaign.value]
  name : Optionally (fun s v => v = .text s) d.name (valuesOf "name" ms)
  totalStock : valuesOf "totalStock" ms = [ofAmount d.totalStock]
  startsAt : Optionally (fun n v => v = ofAmount n) d.window.startsAt (valuesOf "startsAt" ms)
  endsAt : Optionally (fun n v => v = ofAmount n) d.window.endsAt (valuesOf "endsAt" ms)
  discount : Optionally (fun c v => ∃ inner, v = .object inner ∧ c.Told inner) d.discount
    (valuesOf "discount" ms)
  others : ∀ m ∈ ms, m.1 ∉ names → IsScalar m.2

/-- The fields whose values are read as they come. -/
def slotFields : List (RecordField Parts) :=
  [.single "campaignId" amount? Parts.campaign fun p v => { p with campaign := v },
    .single "name" (nullable? text?) Parts.name fun p v => { p with name := some v },
    .single "totalStock" amount? Parts.totalStock fun p v => { p with totalStock := v },
    .single "discount" (nullable? Discount.ofJson?) Parts.discount fun p v => { p with discount := some v }]

/-- The fields whose values are put aside until all has been read. -/
def asideFields : List (RecordField Parts) :=
  [⟨"startsAt", fun p v => some { p with startsAt := gistOf .amount v :: p.startsAt }⟩,
    ⟨"endsAt", fun p v => some { p with endsAt := gistOf .amount v :: p.endsAt }⟩]

def fields : List (RecordField Parts) := slotFields ++ asideFields

def ofJson? : Json → Option CampaignDraft := ofObject? (gather fields) {} ofParts

private theorem fits_slots : List.Forall₂ (Slot.Fits Fit) slots slotFields := by
  have hscalar {name : String} (h : name ≠ "discount") (v : Json) (hv : Fit (name, v)) : IsScalar v :=
    hv.scalar h
  have hdiscount : Reads Discount.read Discount.ofJson? fun v => Fit ("discount", v) :=
    Discount.reads.mono fun _ hv => hv.discount rfl
  exact .cons (Slot.fits_required (reads_amount.mono (hscalar (by decide))) _ _)
    (.cons (Slot.fits_optional (reads_text.mono (hscalar (by decide))) _ _)
    (.cons (Slot.fits_required (reads_amount.mono (hscalar (by decide))) _ _)
    (.cons (Slot.fits_optional hdiscount _ _) .nil)))

private theorem gathers_member (m : String × Json) (hm : Fit m) : Gathers member (gather fields) m := by
  obtain ⟨k, v⟩ := m
  intro acc s u t hs h ht
  rw [member, String.ofList_toList]
  rcases Slot.find?_fits fits_slots k with ⟨hslot, hfield⟩ | ⟨slot, f, hslot, hfield, hfits, rfl⟩
  · -- Without a slot the value is put aside, and if it is no end of the window it is forgotten.
    have hgather : gather fields acc (k, v) = gather asideFields acc (k, v) := by
      simp only [gather, fields, List.find?_append, hfield, Option.none_or]
    have hscalar : IsScalar v := by
      refine hm.scalar ?_
      rintro rfl
      simp [slotFields, RecordField.single] at hfield
    have hgist := gist_eq hscalar hs h ht
    simp only [hslot, hgather, asideFields, gather_cons, gather_nil, String.toList_inj]
    split_ifs <;> simp [Except.bind, hgist, Except.map]
  · simp only [hslot, gather, fields, List.find?_append, hfield, Option.some_or]
    rw [← hfits.read acc hm hs h ht]
    split <;> rfl

theorem reads : Reads CampaignDraft.read ofJson? (Legible Fit) :=
  reads_object gathers_member {} ofParts

theorem gather_fields (p : Parts) (k : String) (v : Json) : gather fields p (k, v) =
    if k = "campaignId" then (once amount? p.campaign v).map fun a => { p with campaign := a }
    else if k = "name" then (once (nullable? text?) p.name v).map fun a => { p with name := some a }
    else if k = "totalStock" then (once amount? p.totalStock v).map fun a => { p with totalStock := a }
    else if k = "discount" then
      (once (nullable? Discount.ofJson?) p.discount v).map fun a => { p with discount := some a }
    else if k = "startsAt" then some { p with startsAt := gistOf .amount v :: p.startsAt }
    else if k = "endsAt" then some { p with endsAt := gistOf .amount v :: p.endsAt }
    else some p := by
  show gather [_, _, _, _, _, _] p (k, v) = _
  rw [gather_cons, gather_cons, gather_cons, gather_cons, gather_cons, gather_cons, gather_nil]
  rfl

theorem foldlM_gather_eq_some_iff {ms : List (String × Json)} {p q : Parts} :
    ms.foldlM (gather fields) p = some q ↔
      fill amount? p.campaign (valuesOf "campaignId" ms) = some q.campaign ∧
      fill (nullable? text?) p.name (valuesOf "name" ms) = some q.name ∧
      fill amount? p.totalStock (valuesOf "totalStock" ms) = some q.totalStock ∧
      fill (nullable? Discount.ofJson?) p.discount (valuesOf "discount" ms) = some q.discount ∧
      ((valuesOf "startsAt" ms).map (gistOf .amount)).reverse ++ p.startsAt = q.startsAt ∧
      ((valuesOf "endsAt" ms).map (gistOf .amount)).reverse ++ p.endsAt = q.endsAt := by
  induction ms generalizing p with
  | nil => cases p; cases q; simp
  | cons m ms ih =>
    obtain ⟨k, v⟩ := m
    rw [List.foldlM_cons, gather_fields]
    -- As for a discount, but the ends of the window are kept to the last, the later first.
    split_ifs with hcampaign hname htotal hdiscount hstarts hends
    · cases h : once amount? p.campaign v <;> simp [hcampaign, valuesOf_cons, fill_cons, h, ih]
    · cases h : once (nullable? text?) p.name v <;> simp [hname, valuesOf_cons, fill_cons, h, ih]
    · cases h : once amount? p.totalStock v <;> simp [htotal, valuesOf_cons, fill_cons, h, ih]
    · cases h : once (nullable? Discount.ofJson?) p.discount v <;>
        simp [hdiscount, valuesOf_cons, fill_cons, h, ih]
    · simp [hstarts, valuesOf_cons, ih]
    · simp [hends, valuesOf_cons, ih]
    · simp [hcampaign, hname, htotal, hdiscount, hstarts, hends, valuesOf_cons, ih]

private theorem gistOf_eq_null_iff {v : Json} : gistOf .amount v = .null ↔ v = .null := by
  unfold gistOf
  split
  · simp
  next hv =>
    have hnot : v ≠ .null := hv
    cases amount? v <;> simp [hnot]

private theorem gistOf_eq_amount_iff {v : Json} {n : UInt64} : gistOf .amount v = .amount n ↔ v = ofAmount n := by
  rw [← amount?_eq_some_iff]
  unfold gistOf
  split
  · simp [amount?]
  · cases h : amount? v <;> simp

private theorem instant?_of_length {gists : List Gist} (h : 2 ≤ gists.length) : instant? gists = none := by
  rcases gists with - | ⟨g, - | ⟨g', gists⟩⟩
  · cases h
  · simp at h
  · cases g <;> rfl

private theorem instant?_eq_some_iff {vs : List Json} {x : Option UInt64} :
    instant? (vs.map (gistOf .amount)).reverse = some x ↔ Optionally (fun n v => v = ofAmount n) x vs := by
  constructor
  · intro h
    rcases vs with - | ⟨v, - | ⟨w, vs⟩⟩
    · cases h
      exact .omitted
    · rw [List.map_singleton, List.reverse_singleton] at h
      cases hv : gistOf .amount v with
      | null =>
        cases gistOf_eq_null_iff.1 hv
        rw [hv] at h
        cases h
        exact .null
      | amount n =>
        rw [hv] at h
        cases h
        exact .given (gistOf_eq_amount_iff.1 hv)
      | other =>
        rw [hv] at h
        cases h
    · rw [instant?_of_length (by simp)] at h
      cases h
  · rintro (⟨rfl⟩ | - | -)
    · rw [List.map_singleton, List.reverse_singleton, gistOf_eq_amount_iff.2 rfl]
      rfl
    · rfl
    · rfl

variable {d : CampaignDraft} {ms ms' : List (String × Json)}

private theorem ofParts_eq_some_iff {q : Parts} : ofParts q = some d ↔
    q.campaign = some d.campaign.value ∧ q.name.join = d.name ∧ q.totalStock = some d.totalStock ∧
    instant? q.startsAt = some d.window.startsAt ∧ instant? q.endsAt = some d.window.endsAt ∧
    q.discount.join = d.discount := by
  obtain ⟨⟨campaign⟩, name, total, ⟨starts, ends⟩, discount⟩ := d
  obtain ⟨campaign', name', total', discount', starts', ends'⟩ := q
  cases campaign' <;> cases total' <;> cases h : instant? starts' <;> cases h' : instant? ends' <;>
    simp [ofParts, h, h', and_assoc]

theorem ofJson?_eq_some_iff : ofJson? (.object ms) = some d ↔
    valuesOf "campaignId" ms = [ofAmount d.campaign.value] ∧
    Optionally (fun x v => v = .text x) d.name (valuesOf "name" ms) ∧
    valuesOf "totalStock" ms = [ofAmount d.totalStock] ∧
    Optionally (fun n v => v = ofAmount n) d.window.startsAt (valuesOf "startsAt" ms) ∧
    Optionally (fun n v => v = ofAmount n) d.window.endsAt (valuesOf "endsAt" ms) ∧
    Optionally (fun c v => Discount.ofJson? v = some c) d.discount (valuesOf "discount" ms) := by
  have hcampaign : fill amount? none (valuesOf "campaignId" ms) = some (some d.campaign.value) ↔ _ :=
    fill_eq_some_some_iff (amount?_eq_some_iff _)
  have hname : _ ↔ Optionally _ d.name (valuesOf "name" ms) := fill_join_iff text?_eq_some_iff rfl
  have htotal : fill amount? none (valuesOf "totalStock" ms) = some (some d.totalStock) ↔ _ :=
    fill_eq_some_some_iff (amount?_eq_some_iff _)
  have hdiscount : _ ↔ Optionally _ d.discount (valuesOf "discount" ms) :=
    fill_join_iff (fun c v => Iff.refl (Discount.ofJson? v = some c)) rfl
  rw [← hcampaign, ← hname, ← htotal, ← instant?_eq_some_iff, ← instant?_eq_some_iff, ← hdiscount]
  simp only [ofJson?, ofObject?, Option.bind_eq_some_iff, foldlM_gather_eq_some_iff, ofParts_eq_some_iff]
  constructor
  · rintro ⟨q, ⟨hc, hn, ht, hd, hs, he⟩, hqc, hqn, hqt, hqs, hqe, hqd⟩
    rw [List.append_nil] at hs he
    exact ⟨hqc ▸ hc, ⟨_, hn, hqn⟩, hqt ▸ ht, hs ▸ hqs, he ▸ hqe, ⟨_, hd, hqd⟩⟩
  · rintro ⟨hc, ⟨name, hn, hqn⟩, ht, hs, he, ⟨discount, hd, hqd⟩⟩
    refine ⟨⟨some d.campaign.value, name, some d.totalStock, discount, _, _⟩,
      ⟨hc, hn, ht, hd, rfl, rfl⟩, rfl, hqn, rfl, ?_, ?_, hqd⟩
    · simpa using hs
    · simpa using he

theorem Told.ofJson? (h : Told d ms) : ofJson? (.object ms) = some d := by
  refine ofJson?_eq_some_iff.2 ⟨h.campaign, h.name, h.totalStock, h.startsAt, h.endsAt, ?_⟩
  refine h.discount.mono ?_
  rintro c v ⟨inner, rfl, hinner⟩
  exact hinner.ofJson?

theorem Told.fit (h : Told d ms) : ∀ m ∈ ms, Fit m := by
  have hplain {k : String} {v : Json} (hk : k ≠ "discount") (hv : IsScalar v) : Fit (k, v) :=
    ⟨fun _ => hv, fun h => absurd h hk⟩
  have hamount (n : UInt64) (v : Json) (hv : v = ofAmount n) : IsScalar v := hv ▸ .amount n
  refine forall_mem_of_valuesOf names ?_ fun (k, v) hm hnew => ?_
  · simp only [names, requiredNames, List.cons_append, List.nil_append, List.forall_mem_cons, h.campaign,
      h.totalStock]
    refine ⟨⟨hplain (by decide) (.amount _), nofun⟩, ⟨hplain (by decide) (.amount _), nofun⟩, ?_, ?_, ?_, ?_,
      nofun⟩
    · exact fun v hv => hplain (by decide) (h.name.isScalar_of_mem (fun x v hx => hx ▸ .text x) hv)
    · exact fun v hv => hplain (by decide) (h.startsAt.isScalar_of_mem hamount hv)
    · exact fun v hv => hplain (by decide) (h.endsAt.isScalar_of_mem hamount hv)
    · refine fun v hv => ⟨fun h => absurd rfl h, fun _ => ?_⟩
      rcases h.discount.of_mem hv with rfl | ⟨c, inner, rfl, hinner⟩
      · exact .scalar .null
      · exact .object hinner.fit
  · refine hplain ?_ (h.others _ hm hnew)
    rintro rfl
    exact hnew (by simp [names, requiredNames])

theorem once_of_ofJson? (h : ofJson? (.object ms) = some d) : Once requiredNames names ms := by
  obtain ⟨hcampaign, hname, htotal, hstarts, hends, hdiscount⟩ := ofJson?_eq_some_iff.1 h
  constructor <;> simp [requiredNames, names, hcampaign, htotal, hname.length_le, hstarts.length_le,
    hends.length_le, hdiscount.length_le]

private theorem exists_discount {inner : List (String × Json)} (h : ofJson? (.object ms) = some d)
    (hinner : ("discount", .object inner) ∈ ms) : ∃ c, Discount.ofJson? (.object inner) = some c := by
  obtain ⟨-, -, -, -, -, hgiven⟩ := ofJson?_eq_some_iff.1 h
  exact (hgiven.of_mem (mem_valuesOf hinner)).resolve_left nofun

/-- One member too few or too many, in the draft or in the discount that it holds. -/
inductive Spoilt : List (String × Json) → List (String × Json) → Prop
  | outside {told spoilt : List (String × Json)} (h : Spoils requiredNames names Fit told spoilt) :
      Spoilt told spoilt
  | inside {before after told spoilt : List (String × Json)}
      (h : Spoils Discount.requiredNames Discount.names Discount.Fit told spoilt) :
      Spoilt (before ++ ("discount", .object told) :: after)
        (before ++ ("discount", .object spoilt) :: after)

theorem Spoilt.ofJson? (h : Spoilt ms ms') (hms : ofJson? (.object ms) = some d) :
    ofJson? (.object ms') = none := by
  -- Were it read, it would have each required member once and no known one twice, as before.
  cases hms' : CampaignDraft.ofJson? (.object ms') with
  | none => rfl
  | some d' =>
    exfalso
    cases h with
    | outside h => exact h.not_once (once_of_ofJson? hms) (once_of_ofJson? hms')
    | @inside before after told spoilt h =>
      obtain ⟨c, hc⟩ := exists_discount hms (List.mem_append_right _ List.mem_cons_self)
      obtain ⟨c', hc'⟩ := exists_discount hms' (List.mem_append_right _ List.mem_cons_self)
      exact h.not_once (Discount.once_of_ofJson? hc) (Discount.once_of_ofJson? hc')

theorem Spoilt.fit (h : Spoilt ms ms') (hms : ∀ m ∈ ms, Fit m) : ∀ m ∈ ms', Fit m := by
  cases h with
  | outside h => exact h.forall_fits hms
  | @inside before after told spoilt h =>
    intro m hm
    simp only [List.mem_append, List.mem_cons] at hm hms
    rcases hm with hm | rfl | hm
    · exact hms m (.inl hm)
    · refine ⟨fun h => absurd rfl h, fun _ => ?_⟩
      cases (hms _ (.inr (.inl rfl))).discount rfl with
      | scalar hscalar => cases hscalar
      | object hinner => exact .object (h.forall_fits hinner)
    · exact hms m (.inr (.inr hm))

/-- The members of a draft, those that it has no value for left out. -/
def members (d : CampaignDraft) : List (String × Json) :=
  [("campaignId", ofAmount d.campaign.value)] ++ Json.optional "name" (d.name.map .text) ++
  [("totalStock", ofAmount d.totalStock)] ++ d.window.members ++
  Json.optional "discount" (d.discount.map Discount.toJson)

private theorem told_members (d : CampaignDraft) : d.Told d.members := by
  obtain ⟨hstarts, hends⟩ := d.window.optionally_members
  constructor
  · simp [members, Window.members, valuesOf_cons, valuesOf_optional]
  · have hname : Optionally (fun x v => v = .text x) d.name (d.name.map .text).toList :=
      optionally_toList_map _ fun _ => rfl
    simpa [members, Window.members, valuesOf_cons, valuesOf_optional] using hname
  · simp [members, Window.members, valuesOf_cons, valuesOf_optional]
  · simpa [members, valuesOf_cons, valuesOf_optional] using hstarts
  · simpa [members, valuesOf_cons, valuesOf_optional] using hends
  · simpa [members, Window.members, valuesOf_cons, valuesOf_optional] using
      optionally_toList_map Discount.toJson Discount.told_toJson
  · intro m hm hnew
    refine absurd ?_ hnew
    simp only [members, Window.members, List.mem_append, List.mem_singleton, mem_optional_iff] at hm
    rcases hm with (((rfl | ⟨_, -, rfl⟩) | rfl) | ⟨_, -, rfl⟩ | ⟨_, -, rfl⟩) | ⟨_, -, rfl⟩ <;>
      simp [names, requiredNames]

end CampaignDraft

/-- What the service writes of a discount or of a window is read as it was. Every draft of a campaign can be
said by the members of an object, and is read from them, in whatever order and however they are written,
and whatever scalars stand among them under other names. With a required member dropped, or a known one
repeated, the object has another form than expected. -/
theorem CampaignDraft.read_as_written :
    (∀ d : Discount, parse Discount.read d.toJson.render = .ok d) ∧
    (∀ w : Window, parse Window.read w.toJson.render = .ok w) ∧
    (∀ d : CampaignDraft, d.Told d.members) ∧
    (∀ (d : CampaignDraft) ms s, d.Told ms → Grammar.Document (.object ms) s →
      parse CampaignDraft.read s = .ok d) ∧
    ∀ (d : CampaignDraft) ms ms' s, d.Told ms → Spoilt ms ms' → Grammar.Document (.object ms') s →
      parse CampaignDraft.read s = .error .mismatch := by
  refine ⟨fun d => ?_, fun w => ?_, fun d => ?_, fun d ms s hd hs => ?_, fun d ms ms' s hd hms' hs => ?_⟩
  · obtain ⟨ms, hms, htold⟩ := d.told_toJson
    rw [hms, parse_eq Discount.reads (.object htold.fit) (Grammar.document_render _), htold.ofJson?]
    rfl
  · rw [parse_eq Window.reads w.legible_toJson (Grammar.document_render _), w.ofJson?_toJson]
    rfl
  · exact d.told_members
  · rw [parse_eq reads (.object hd.fit) hs, hd.ofJson?]
    rfl
  · rw [parse_eq reads (.object (hms'.fit hd.fit)) hs, hms'.ofJson? hd.ofJson?]
    rfl

namespace CampaignDraft

/-- A draft that leaves something out everywhere. -/
def evening : CampaignDraft where
  campaign := ⟨7⟩
  name := some "😀 \"A\""
  totalStock := 0
  window := ⟨none, some 20⟩
  discount := some ⟨.percentage, 10, none, 0⟩

def eveningTerms : List (String × Json) :=
  [("value", ofAmount 10), ("note", .text "kind"), ("maxDiscount", .null), ("kind", .text "PERCENTAGE")]

/-- The members after the name, with these in the discount. -/
def eveningRest (terms : List (String × Json)) : List (String × Json) :=
  [("startsAt", .null), ("note", .bool true), ("totalStock", ofAmount 0), ("discount", .object terms),
    ("endsAt", ofAmount 20), ("note", .null), ("campaignId", ofAmount 7)]

def eveningMembers (terms : List (String × Json)) : List (String × Json) :=
  ("name", .text "😀 \"A\"") :: eveningRest terms

/-- The name is written with blanks around it and with a pair of surrogates. -/
def eveningText (terms : List (String × Json)) : List Char :=
  " \x7b \"name\": \"\\ud83d\\ude00 \\\"A\\\"\",".toList ++
    (renderMembers (eveningRest terms) ++ ['}', '\n'])

private theorem told_evening : evening.Told (eveningMembers eveningTerms) where
  campaign := rfl
  name := .given rfl
  totalStock := rfl
  startsAt := .null
  endsAt := .given rfl
  discount := by
    refine .given ⟨_, rfl, rfl, rfl, .null, .inr ⟨rfl, rfl⟩, ?_⟩
    simp only [eveningTerms, List.forall_mem_cons]
    exact ⟨fun _ => .amount 10, fun _ => .text _, fun _ => .null, fun _ => .text _, nofun⟩
  others := by
    simp only [eveningMembers, eveningRest, List.forall_mem_cons]
    refine ⟨fun _ => .text _, fun _ => .null, fun _ => .bool _, fun _ => .amount 0, ?_, fun _ => .amount 20,
      fun _ => .null, fun _ => .amount 7, nofun⟩
    exact fun hnew => absurd (by simp [names, requiredNames]) hnew

open Grammar in
private theorem document_eveningText (terms : List (String × Json)) :
    Document (.object (eveningMembers terms)) (eveningText terms) := by
  have hdigit {d : Nat} (h : d < 16) : Digit (hexDigit d) d := digit_hexDigit h
  have hhigh (t : List Sign) : Hex 0xD83D ('d' :: '8' :: '3' :: 'd' :: t) t :=
    .mk (hdigit (d := 13) (by decide)) (hdigit (d := 8) (by decide)) (hdigit (d := 3) (by decide))
      (hdigit (d := 13) (by decide)) rfl t
  have hlow (t : List Sign) : Hex 0xDE00 ('d' :: 'e' :: '0' :: '0' :: t) t :=
    .mk (hdigit (d := 13) (by decide)) (hdigit (d := 14) (by decide)) (hdigit (d := 0) (by decide))
      (hdigit (d := 0) (by decide)) rfl t
  have hspace (t : List Sign) : Blanks (' ' :: t) t := .cons (by decide) (.none t)
  have hrest := (members_render (eveningRest terms) [some '\n']).after_comma
  have hkey (t : List Sign) : Inside "name".toList ('n' :: 'a' :: 'm' :: 'e' :: '"' :: t) t :=
    inside_escape "name".toList t
  have hname (t : List Sign) : Inside "😀 \"A\"".toList ('\\' :: 'u' :: 'd' :: '8' :: '3' :: 'd' ::
      '\\' :: 'u' :: 'd' :: 'e' :: '0' :: '0' :: ' ' :: '\\' :: '"' :: 'A' :: '\\' :: '"' :: '"' :: t) t :=
    .cons (.pair (c := '😀') (by decide) (hhigh _) (hlow _)) (inside_escape " \"A\"".toList t)
  have hmembers : Members true (eveningMembers terms) _ [some '\n'] :=
    .cons (.first (hspace _)) (hkey _) (.none _) (hspace _) (.text (hname _)) hrest
  have hhead : " \x7b \"name\": \"\\ud83d\\ude00 \\\"A\\\"\",".toList = [' ', '{', ' ', '"', 'n',
      'a', 'm', 'e', '"', ':', ' ', '"', '\\', 'u', 'd', '8', '3', 'd', '\\', 'u', 'd', 'e', '0', '0',
      ' ', '\\', '"', 'A', '\\', '"', '"', ','] := by decide
  delta Document eveningText
  rw [hhead, List.map_append, List.map_append]
  exact ⟨_, _, hspace _, .object hmembers, .cons (by decide) (.none _)⟩

theorem read_as_written_evening :
    evening.Told (eveningMembers eveningTerms) ∧
    Grammar.Document (.object (eveningMembers eveningTerms)) (eveningText eveningTerms) ∧
    parse CampaignDraft.read (eveningText eveningTerms) = .ok evening ∧
    Spoilt (eveningMembers eveningTerms) (eveningMembers (eveningTerms.take 3)) ∧
    Grammar.Document (.object (eveningMembers (eveningTerms.take 3))) (eveningText (eveningTerms.take 3)) ∧
    parse CampaignDraft.read (eveningText (eveningTerms.take 3)) = .error .mismatch ∧
    Spoilt (eveningMembers eveningTerms) (("endsAt", .null) :: eveningMembers eveningTerms) ∧
    parse CampaignDraft.read (render (.object (("endsAt", .null) :: eveningMembers eveningTerms))) =
      .error .mismatch := by
  have hdropped : Spoilt (eveningMembers eveningTerms) (eveningMembers (eveningTerms.take 3)) :=
    @Spoilt.inside ((eveningMembers []).take 4) ((eveningMembers []).drop 5) _ _
      (@Spoils.dropped _ _ _ (eveningTerms.take 3) [] "kind" (.text "PERCENTAGE") (by decide))
  have hrepeated : Spoilt (eveningMembers eveningTerms) (("endsAt", .null) :: eveningMembers eveningTerms) :=
    .outside (@Spoils.repeated _ _ _ [] _ "endsAt" .null (by decide) (by decide)
      ⟨fun _ => .null, fun h => absurd h (by decide)⟩)
  have hdocument := document_eveningText
  refine ⟨told_evening, hdocument _, ?_, hdropped, hdocument _, ?_, hrepeated, ?_⟩
  · exact read_as_written.2.2.2.1 _ _ _ told_evening (hdocument _)
  · exact read_as_written.2.2.2.2 _ _ _ _ told_evening hdropped (hdocument _)
  · exact read_as_written.2.2.2.2 _ _ _ _ told_evening hrepeated (Grammar.document_render _)

end CampaignDraft
end CouponIssuance
