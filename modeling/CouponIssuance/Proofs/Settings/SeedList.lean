import CouponIssuance.Proofs.Text.Decimal
import CouponIssuance.Proofs.Text.Splitting
import CouponIssuance.Settings.Seeds
import Mathlib.Data.List.Forall2
/-!
# Which texts are seed lists

A text is a seed list just if each of its entries can be read and no campaign comes twice. Otherwise it is
refused for its first entry that offends. However a list of seeds is written, it is read back as it was.
-/
namespace CouponIssuance.Seeds

open Text

/-- The entries of a text: what stands between its commas, without the white space around it, where anything
is left. -/
def Lists (raw : List Char) (entries : List (List Char)) : Prop :=
  ∃ parts trimmed, Joins ',' parts raw ∧ List.Forall₂ Trims parts trimmed ∧
    entries = trimmed.filter (· ≠ [])

/-- The first equals sign of an entry stands between these two texts, white space around them aside. -/
def Divides (entry campaign total : List Char) : Prop :=
  ∃ before after, '=' ∉ before ∧ entry = before ++ '=' :: after ∧
    Trims before campaign ∧ Trims after total

def Reads (entry : List Char) (seed : Seed) : Prop :=
  ∃ campaign total, Divides entry campaign total ∧
    Decimal.Spells campaign seed.1.value.toNat ∧ Decimal.Spells total seed.2.toNat

/-- Why an entry cannot be read. -/
inductive Unreadable (entry : List Char) : Fault → Prop
  | noEquals (h : '=' ∉ entry) : Unreadable entry (.noEquals entry)
  | badCampaign {campaign total why} (hdivides : Divides entry campaign total)
      (h : Decimal.Misspelt campaign why) : Unreadable entry (.badCampaign entry why)
  | badTotal {campaign total why} {number : UInt64} (hdivides : Divides entry campaign total)
      (hcampaign : Decimal.Spells campaign number.toNat) (h : Decimal.Misspelt total why) :
      Unreadable entry (.badTotal entry why)

/-- What is wrong with an entry that comes after those of the campaigns `seen`: it cannot be read, or its
campaign is one of them. -/
inductive Offends (seen : List CampaignId) (entry : List Char) : Fault → Prop
  | unreadable {fault} (h : Unreadable entry fault) : Offends seen entry fault
  | repeated {seed} (hreads : Reads entry seed) (hseen : seed.1 ∈ seen) :
      Offends seen entry (.repeated seed.1)

/-- How an entry is read: as the seed it tells of, or not at all. -/
inductive EntryRead (entry : List Char) : Except Fault Seed → Prop
  | seed {seed} (h : Reads entry seed) : EntryRead entry (.ok seed)
  | fault {fault} (h : Unreadable entry fault) : EntryRead entry (.error fault)

/-- The seeds are of distinct campaigns, and none of those seen before. -/
structure Fresh (seen : List CampaignId) (seeds : List Seed) : Prop where
  distinct : (seeds.map Prod.fst).Nodup
  unseen : ∀ seed ∈ seeds, seed.1 ∉ seen

/-- How entries are read after those of the campaigns `seen`: all of them, or up to the first that
offends. -/
inductive ListRead (seen : List CampaignId) (es : List (List Char)) : Except Fault (List Seed) → Prop
  | whole {seeds} (hreads : List.Forall₂ Reads es seeds) (hfresh : Fresh seen seeds) :
      ListRead seen es (.ok seeds)
  | stopped {before entry later seeds fault} (hcut : es = before ++ entry :: later)
      (hreads : List.Forall₂ Reads before seeds) (hfresh : Fresh seen seeds)
      (hoffends : Offends (seeds.map Prod.fst ++ seen) entry fault) : ListRead seen es (.error fault)

variable {raw entry campaign total : List Char} {es : List (List Char)} {seen : List CampaignId}
  {seed : Seed} {seeds : List Seed} {fault : Fault}

private theorem forall₂_trims_iff {parts trimmed : List (List Char)} :
    List.Forall₂ Trims parts trimmed ↔ parts.map trim = trimmed := by
  have htrims : Trims = fun text core => trim text = core := by
    funext text core
    exact propext trims_iff
  rw [htrims, ← List.forall₂_map_left_iff, List.forall₂_eq_eq_eq]

private theorem lists_iff : Lists raw es ↔ entries raw = es := by
  simp only [Lists, joins_iff, forall₂_trims_iff]
  constructor
  · rintro ⟨_, _, rfl, rfl, rfl⟩
    rfl
  · rintro rfl
    exact ⟨_, _, rfl, rfl, rfl⟩

private theorem divides_iff : Divides entry campaign total ↔
    ∃ before after, splitFirst '=' entry = some (before, after) ∧
      trim before = campaign ∧ trim after = total := by
  simp only [Divides, splitFirst_eq_some_iff, trims_iff, and_assoc]

private theorem readEntry_spec (entry : List Char) : EntryRead entry (readEntry entry) := by
  cases hsplit : splitFirst '=' entry with
  | none =>
    simp only [readEntry, hsplit]
    exact .fault (.noEquals (splitFirst_eq_none_iff.1 hsplit))
  | some sides =>
    obtain ⟨before, after⟩ := sides
    have hdivides : Divides entry (trim before) (trim after) :=
      divides_iff.2 ⟨before, after, hsplit, rfl, rfl⟩
    cases hcampaign : Decimal.parse (trim before) with
    | error why =>
      simp only [readEntry, hsplit, hcampaign]
      exact .fault (.badCampaign hdivides (Decimal.parse_eq_error_iff.1 hcampaign))
    | ok campaign =>
      have hspells := Decimal.parse_eq_ok_iff.1 hcampaign
      cases htotal : Decimal.parse (trim after) with
      | error why =>
        simp only [readEntry, hsplit, hcampaign, htotal]
        exact .fault (.badTotal hdivides hspells (Decimal.parse_eq_error_iff.1 htotal))
      | ok total =>
        simp only [readEntry, hsplit, hcampaign, htotal]
        exact .seed ⟨_, _, hdivides, hspells, Decimal.parse_eq_ok_iff.1 htotal⟩

private theorem EntryRead.readEntry_eq {answer : Except Fault Seed} (h : EntryRead entry answer) :
    readEntry entry = answer := by
  cases h with
  | seed hreads =>
    obtain ⟨campaign, total, hdivides, hcampaign, htotal⟩ := hreads
    obtain ⟨before, after, hsplit, rfl, rfl⟩ := divides_iff.1 hdivides
    simp only [readEntry, hsplit, Decimal.parse_eq_ok_iff.2 hcampaign, Decimal.parse_eq_ok_iff.2 htotal]
  | fault hunreadable =>
    cases hunreadable with
    | noEquals hnone => simp only [readEntry, splitFirst_eq_none_iff.2 hnone]
    | badCampaign hdivides hmisspelt =>
      obtain ⟨before, after, hsplit, rfl, rfl⟩ := divides_iff.1 hdivides
      simp only [readEntry, hsplit, Decimal.parse_eq_error_iff.2 hmisspelt]
    | badTotal hdivides hcampaign hmisspelt =>
      obtain ⟨before, after, hsplit, rfl, rfl⟩ := divides_iff.1 hdivides
      simp only [readEntry, hsplit, Decimal.parse_eq_ok_iff.2 hcampaign,
        Decimal.parse_eq_error_iff.2 hmisspelt]

private theorem fresh_nil (seen : List CampaignId) : Fresh seen [] := ⟨List.nodup_nil, by simp⟩

private theorem fresh_cons : Fresh seen (seed :: seeds) ↔ seed.1 ∉ seen ∧ Fresh (seed.1 :: seen) seeds := by
  constructor
  · rintro ⟨hdistinct, hunseen⟩
    rw [List.map_cons, List.nodup_cons] at hdistinct
    obtain ⟨hfirst, hrest⟩ := List.forall_mem_cons.1 hunseen
    refine ⟨hfirst, hdistinct.2, fun other hother => ?_⟩
    refine List.not_mem_cons_of_ne_of_not_mem (fun hsame => hdistinct.1 ?_) (hrest other hother)
    exact hsame ▸ List.mem_map_of_mem hother
  · rintro ⟨hfirst, hdistinct, hunseen⟩
    refine ⟨List.nodup_cons.2 ⟨fun hmem => ?_, hdistinct⟩, List.forall_mem_cons.2 ⟨hfirst, ?_⟩⟩
    · obtain ⟨other, hother, hsame⟩ := List.mem_map.1 hmem
      exact hunseen other hother (hsame ▸ List.mem_cons_self)
    · exact fun other hother => List.not_mem_of_not_mem_cons (hunseen other hother)

theorem Offends.of_mem {seen' : List CampaignId} (h : Offends seen entry fault)
    (hseen : ∀ c, c ∈ seen → c ∈ seen') : Offends seen' entry fault := by
  cases h with
  | unreadable hunreadable => exact .unreadable hunreadable
  | repeated hreads hmem => exact .repeated hreads (hseen _ hmem)

private theorem readEntries_cons_of_reads (hreads : Reads entry seed) (hnew : seed.1 ∉ seen)
    (es : List (List Char)) : readEntries seen (entry :: es) =
      (readEntries (seed.1 :: seen) es).map (seed :: ·) := by
  rw [readEntries, (EntryRead.seed hreads).readEntry_eq]
  simp only [bind, Except.bind, if_neg hnew]
  cases readEntries (seed.1 :: seen) es <;> rfl

private theorem readEntries_cons_of_offends (hoffends : Offends seen entry fault) (es : List (List Char)) :
    readEntries seen (entry :: es) = .error fault := by
  rw [readEntries]
  cases hoffends with
  | unreadable hunreadable =>
    rw [(EntryRead.fault hunreadable).readEntry_eq]
    rfl
  | repeated hreads hseen =>
    rw [(EntryRead.seed hreads).readEntry_eq]
    simp only [bind, Except.bind, if_pos hseen]

private theorem readEntries_spec (seen : List CampaignId) (es : List (List Char)) :
    ListRead seen es (readEntries seen es) := by
  induction es generalizing seen with
  | nil => exact .whole .nil (fresh_nil seen)
  | cons entry es ih =>
    have hhere {fault : Fault} (hoffends : Offends seen entry fault) :
        ListRead seen (entry :: es) (readEntries seen (entry :: es)) := by
      rw [readEntries_cons_of_offends hoffends]
      have hcut : entry :: es = [] ++ entry :: es := rfl
      exact .stopped hcut .nil (fresh_nil seen) hoffends
    have hentry := readEntry_spec entry
    generalize readEntry entry = answer at hentry
    cases hentry with
    | fault hunreadable => exact hhere (.unreadable hunreadable)
    | @seed seed hreads =>
      by_cases hseen : seed.1 ∈ seen
      · exact hhere (.repeated hreads hseen)
      · rw [readEntries_cons_of_reads hreads hseen]
        have hlater := ih (seed.1 :: seen)
        generalize readEntries (seed.1 :: seen) es = answer at hlater
        cases hlater with
        | whole hreads' hfresh => exact .whole (.cons hreads hreads') (fresh_cons.2 ⟨hseen, hfresh⟩)
        | @stopped before offender later seeds fault hcut hreads' hfresh hoffends =>
          have hcut' : entry :: es = (entry :: before) ++ offender :: later := by rw [hcut]; rfl
          refine .stopped hcut' (.cons hreads hreads') (fresh_cons.2 ⟨hseen, hfresh⟩) ?_
          exact hoffends.of_mem fun c => by simp [or_left_comm]

private theorem readEntries_append {before : List (List Char)} (hreads : List.Forall₂ Reads before seeds)
    (hfresh : Fresh seen seeds) (es : List (List Char)) : readEntries seen (before ++ es) =
      (readEntries ((seeds.map Prod.fst).reverse ++ seen) es).map (seeds ++ ·) := by
  induction hreads generalizing seen with
  | nil =>
    simp only [List.nil_append, List.map_nil, List.reverse_nil]
    cases readEntries seen es <;> rfl
  | @cons entry seed before seeds hread _ ih =>
    obtain ⟨hnew, hrest⟩ := fresh_cons.1 hfresh
    rw [List.cons_append, readEntries_cons_of_reads hread hnew, ih hrest, List.map_cons,
      List.reverse_cons, List.append_assoc, List.singleton_append]
    cases readEntries ((seeds.map Prod.fst).reverse ++ seed.1 :: seen) es <;> rfl

private theorem ListRead.readEntries_eq {answer : Except Fault (List Seed)} (h : ListRead seen es answer) :
    readEntries seen es = answer := by
  cases h with
  | whole hreads hfresh =>
    have hall := readEntries_append hreads hfresh []
    simpa [readEntries, Except.map] using hall
  | @stopped before offender later seeds fault hcut hreads hfresh hoffends =>
    have hstops : Offends ((seeds.map Prod.fst).reverse ++ seen) offender fault :=
      hoffends.of_mem fun c hc => by simpa using hc
    rw [hcut, readEntries_append hreads hfresh, readEntries_cons_of_offends hstops]
    rfl

private theorem parse_eq_iff (h : Lists raw es) {answer : Except Fault (List Seed)} :
    parse raw = answer ↔ ListRead [] es answer := by
  rw [parse, lists_iff.1 h]
  constructor
  · rintro rfl
    exact readEntries_spec [] es
  · exact ListRead.readEntries_eq

theorem parse_eq_ok_iff (h : Lists raw es) : parse raw = .ok seeds ↔
    List.Forall₂ Reads es seeds ∧ (seeds.map Prod.fst).Nodup := by
  rw [parse_eq_iff h]
  constructor
  · rintro ⟨hreads, hfresh⟩
    exact ⟨hreads, hfresh.distinct⟩
  · rintro ⟨hreads, hdistinct⟩
    exact .whole hreads ⟨hdistinct, fun _ _ => List.not_mem_nil⟩

theorem parse_eq_error_iff (h : Lists raw es) : parse raw = .error fault ↔
    ∃ before entry later seeds, es = before ++ entry :: later ∧ List.Forall₂ Reads before seeds ∧
      (seeds.map Prod.fst).Nodup ∧ Offends (seeds.map Prod.fst) entry fault := by
  rw [parse_eq_iff h]
  constructor
  · intro hread
    cases hread with
    | stopped hcut hreads hfresh hoffends =>
      rw [List.append_nil] at hoffends
      exact ⟨_, _, _, _, hcut, hreads, hfresh.distinct, hoffends⟩
  · rintro ⟨before, entry, later, seeds, hcut, hreads, hdistinct, hoffends⟩
    rw [← List.append_nil (seeds.map Prod.fst)] at hoffends
    exact .stopped hcut hreads ⟨hdistinct, fun _ _ => List.not_mem_nil⟩ hoffends

theorem distinct_of_parse (h : parse raw = .ok seeds) : (seeds.map Prod.fst).Nodup :=
  ((parse_eq_ok_iff (lists_iff.2 rfl)).1 h).2

/-- A way to write a number: a plus sign or none, leading zeros, and white space around. -/
structure Figure where
  left : List Char
  plus : Bool
  zeros : Nat
  right : List Char
  leftBlank : Blank left
  rightBlank : Blank right

namespace Figure

/-- The number without the white space. -/
def core (f : Figure) (n : UInt64) : List Char :=
  (if f.plus then ['+'] else []) ++ (List.replicate f.zeros '0' ++ Decimal.render n.toNat)

def write (f : Figure) (n : UInt64) : List Char := f.left ++ (f.core n ++ f.right)

end Figure

/-- What may stand between two commas: white space, or a seed, written in some way. -/
inductive Item where
  | blank (text : List Char) (h : Blank text)
  | seed (campaign total : Figure) (seed : Seed)

namespace Item

def write : Item → List Char
  | .blank text _ => text
  | .seed campaign total seed => campaign.write seed.1.value ++ '=' :: total.write seed.2

def seed? : Item → Option Seed
  | .blank _ _ => none
  | .seed _ _ seed => some seed

/-- What is read of an item: nothing, or the seed without the white space around it. -/
def core? : Item → Option (List Char)
  | .blank _ _ => none
  | .seed campaign total seed => some
    (campaign.core seed.1.value ++ campaign.right ++ '=' :: (total.left ++ total.core seed.2))

end Item

/-- The text of a list: its items with commas between them. -/
def write (items : List Item) : List Char := [','].intercalate (items.map Item.write)

/-- The seeds that a list tells of, in their order. -/
def seedsOf (items : List Item) : List Seed := items.filterMap Item.seed?

section Write

variable {f : Figure} {n : UInt64} {item : Item} {items : List Item} {ch : Char}

private theorem not_isBlank_of_isDigit (h : Decimal.isDigit ch = true) : isBlank ch = false := by
  obtain ⟨hlow, hhigh⟩ := Decimal.toNat_of_isDigit h
  simp [isBlank]
  omega

private theorem mem_core (h : ch ∈ f.core n) : ch = '+' ∨ Decimal.isDigit ch = true := by
  rw [Figure.core, List.mem_append, List.mem_append] at h
  rcases h with hsign | hzero | hdigit
  · split at hsign
    · exact .inl (List.mem_singleton.1 hsign)
    · cases hsign
  · rw [List.eq_of_mem_replicate hzero]
    exact .inr (by decide)
  · exact .inr (Decimal.isDigit_of_mem_render hdigit)

private theorem solid_core (h : ch ∈ f.core n) : isBlank ch = false := by
  rcases mem_core h with rfl | hdigit
  · decide
  · exact not_isBlank_of_isDigit hdigit

private theorem not_mem_core {sep : Char} (hplus : sep ≠ '+') (hdigit : Decimal.isDigit sep = false) :
    sep ∉ f.core n := by
  intro hmem
  rcases mem_core hmem with hsign | hdigit'
  · exact hplus hsign
  · rw [hdigit] at hdigit'
    cases hdigit'

private theorem core_ne_nil (f : Figure) (n : UInt64) : f.core n ≠ [] := by
  simp [Figure.core, Decimal.render_ne_nil]

private theorem spells_core (f : Figure) (n : UInt64) : Decimal.Spells (f.core n) n.toNat := by
  refine ⟨List.replicate f.zeros '0' ++ Decimal.render n.toNat, ?_, ?_, ?_, ?_⟩
  · simp [Decimal.render_ne_nil]
  · intro c hc
    rcases List.mem_append.1 hc with hzero | hdigit
    · rw [List.eq_of_mem_replicate hzero]
      decide
    · exact Decimal.isDigit_of_mem_render hdigit
  · cases hplus : f.plus <;> simp [Figure.core, hplus]
  · rw [Decimal.ofDigits_zeros, Decimal.ofDigits_render]

private theorem comma_not_mem_write (item : Item) : ',' ∉ item.write := by
  cases item with
  | blank text h => exact not_mem_of_blank h (by decide)
  | seed campaign total seed =>
    have hfigure (f : Figure) (n : UInt64) : ',' ∉ f.write n := by
      have hleft := not_mem_of_blank f.leftBlank (by decide : isBlank ',' = false)
      have hcore : ',' ∉ f.core n := not_mem_core (by decide) (by decide)
      have hright := not_mem_of_blank f.rightBlank (by decide : isBlank ',' = false)
      simp [Figure.write, hleft, hcore, hright]
    simp [Item.write, hfigure]

private theorem reads_entry (campaign total : Figure) (seed : Seed) :
    Reads (campaign.core seed.1.value ++ campaign.right ++ '=' :: (total.left ++ total.core seed.2))
      seed := by
  refine ⟨campaign.core seed.1.value, total.core seed.2, ?_, spells_core _ _, spells_core _ _⟩
  refine ⟨campaign.core seed.1.value ++ campaign.right, total.left ++ total.core seed.2, ?_, rfl, ?_, ?_⟩
  · have hcore : '=' ∉ campaign.core seed.1.value := not_mem_core (by decide) (by decide)
    have hright := not_mem_of_blank campaign.rightBlank (by decide : isBlank '=' = false)
    simp [hcore, hright]
  · have htrims : Trims ([] ++ (campaign.core seed.1.value ++ campaign.right)) _ :=
      trims_of_solid blank_nil campaign.rightBlank fun _ => solid_core
    exact htrims
  · have htrims : Trims (total.left ++ (total.core seed.2 ++ [])) _ :=
      trims_of_solid total.leftBlank blank_nil fun _ => solid_core
    rw [List.append_nil] at htrims
    exact htrims

private theorem trim_write (item : Item) : trim item.write = item.core?.getD [] := by
  cases item with
  | blank text h => exact trims_iff.1 (trims_of_blank h)
  | seed campaign total seed =>
    refine trims_iff.1 ⟨⟨campaign.left, total.right, ?_, campaign.leftBlank, total.rightBlank⟩, ?_, ?_⟩
    · simp [Item.write, Item.core?, Figure.write]
    · intro c hc
      obtain ⟨d, ds, hcore⟩ := List.exists_cons_of_ne_nil (core_ne_nil campaign seed.1.value)
      simp only [Item.core?, Option.getD_some, hcore, List.cons_append, List.head?_cons,
        Option.some.injEq] at hc
      have hd : d ∈ campaign.core seed.1.value := hcore ▸ List.mem_cons_self
      exact hc ▸ solid_core hd
    · intro c hc
      have hsplit : (Item.seed campaign total seed).core?.getD [] =
          (campaign.core seed.1.value ++ campaign.right ++ '=' :: total.left) ++ total.core seed.2 := by
        simp [Item.core?]
      rw [hsplit, List.getLast?_append_of_ne_nil _ (core_ne_nil total seed.2)] at hc
      exact solid_core (List.mem_of_getLast? hc)

private theorem core?_ne_nil {core : List Char} (h : item.core? = some core) : core ≠ [] := by
  cases item with
  | blank => cases h
  | seed =>
    cases h
    simp

private theorem entries_write (items : List Item) : entries (write items) = items.filterMap Item.core? := by
  have hparts (rest : List Item) : ((rest.map Item.write).map trim).filter (· ≠ []) =
      rest.filterMap Item.core? := by
    induction rest with
    | nil => rfl
    | cons item rest ih =>
      rw [List.map_cons, List.map_cons, trim_write]
      cases hcore : item.core? with
      | none =>
        rw [List.filterMap_cons_none hcore, ← ih]
        rfl
      | some core =>
        rw [List.filterMap_cons_some hcore, ← ih]
        simp [core?_ne_nil hcore]
  cases items with
  | nil => rfl
  | cons item rest =>
    have hjoins : Joins ',' ((item :: rest).map Item.write) (write (item :: rest)) := by
      refine ⟨by simp, fun part hpart => ?_, rfl⟩
      obtain ⟨item', -, rfl⟩ := List.mem_map.1 hpart
      exact comma_not_mem_write item'
    rw [entries, joins_iff.1 hjoins, hparts]

private theorem reads_entries (items : List Item) :
    List.Forall₂ Reads (items.filterMap Item.core?) (seedsOf items) := by
  induction items with
  | nil => exact .nil
  | cons item items ih =>
    cases item with
    | blank => exact ih
    | seed campaign total seed => exact .cons (reads_entry campaign total seed) ih

end Write

/-- A text is read as a list of seeds just if each of its entries, in their order, says a seed, and the
campaigns of these are distinct. Otherwise it is refused, for what is wrong with the first entry that
cannot be read or whose campaign came before. And however seeds of distinct campaigns are written, with
white space, signs, leading zeros and empty entries, the text is read as just these seeds. -/
theorem language_of_parse :
    (∀ raw, ∃ es, Lists raw es ∧ (∀ es', Lists raw es' → es' = es) ∧
      (∀ seeds, parse raw = .ok seeds ↔
        List.Forall₂ Reads es seeds ∧ (seeds.map Prod.fst).Nodup) ∧
      ∀ fault, parse raw = .error fault ↔
        ∃ before entry later seeds, es = before ++ entry :: later ∧ List.Forall₂ Reads before seeds ∧
          (seeds.map Prod.fst).Nodup ∧ Offends (seeds.map Prod.fst) entry fault) ∧
    ∀ items seeds, seedsOf items = seeds → (seeds.map Prod.fst).Nodup →
      parse (write items) = .ok seeds := by
  constructor
  · intro raw
    have hlists : Lists raw (entries raw) := lists_iff.2 rfl
    refine ⟨entries raw, hlists, fun es' hes' => (lists_iff.1 hes').symm, ?_, ?_⟩
    · exact fun seeds => parse_eq_ok_iff hlists
    · exact fun fault => parse_eq_error_iff hlists
  · intro items seeds hseeds hdistinct
    subst hseeds
    have hlists : Lists (write items) (items.filterMap Item.core?) := lists_iff.2 (entries_write items)
    exact (parse_eq_ok_iff hlists).2 ⟨reads_entries items, hdistinct⟩

/-- Two seeds, with everything between that does not count. -/
def loosely : List Item :=
  let spaced : Figure := ⟨[' '], true, 2, ['\t'], by simp [Blank, isBlank], by simp [Blank, isBlank]⟩
  let plain : Figure := ⟨[], false, 0, [], blank_nil, blank_nil⟩
  [.blank [' '] (by simp [Blank, isBlank]), .seed spaced plain (⟨1⟩, 20), .blank [] blank_nil,
    .seed plain spaced (⟨2⟩, 0)]

theorem language_of_parse_loosely : write loosely = " , +001\t=20,,2= +000\t".toList ∧
    seedsOf loosely = [(⟨1⟩, 20), (⟨2⟩, 0)] ∧
    parse (write loosely) = .ok [(⟨1⟩, 20), (⟨2⟩, 0)] :=
  ⟨by decide, rfl, language_of_parse.2 loosely _ rfl (by decide)⟩

/-- The first entry that offends is named, here after one that can be read. -/
example : parse "1=5,x=2,1=".toList = .error (.badCampaign "x=2".toList .badDigit) := by decide

end CouponIssuance.Seeds
