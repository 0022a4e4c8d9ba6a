import CouponIssuance.Api.Form
import CouponIssuance.Proofs.Json.Reading
/-!
# Reading records off a text

The members of an object are read one after another, and each either goes into what is gathered or is a
fault of form. So an object is read as what its members come to, in whatever order and however they are
written.
-/
namespace CouponIssuance.Json.Read

open Grammar

variable {α σ : Type} {s t u : List Sign} {k : String} {v : Json} {ms : List (String × Json)}
  {first : Bool}

private theorem colon_eq (h : Blanks s (some ':' :: t)) : colon s = .ok t := by
  rw [colon, skipBlank_cons h (by decide)]
  rfl

section Members

variable {key : Reader (List Char)} {field : σ → List Char → Except Fault (Reader σ)}
  {step : σ → String × Json → Option σ} {fuel : Nat} {acc : σ}

private theorem members_close (h : Blanks s (some '}' :: t)) :
    members key field (fuel + 1) first acc s = .ok (acc, t) := by
  rw [members, skipBlank_cons h (by decide)]
  rfl

private theorem members_next (h : Next first s (some '"' :: u)) :
    members key field (fuel + 1) first acc s = (do
      let (k, t) ← key u
      let read ← field acc k
      let t ← colon t
      let (acc, t) ← read t
      members key field fuel false acc t) := by
  cases h with
  | first h =>
    rw [members, skipBlank_cons h (by decide)]
    rfl
  | later hcomma h =>
    rw [members, skipBlank_cons hcomma (by decide)]
    simp only [skipBlank_cons h (by decide)]
    rfl

private theorem members_member {w x : List Sign} (hnext : Next first s (some '"' :: u))
    (hkey : Inside k.toList u w) (hcolon : Blanks w (some ':' :: x)) :
    members string field (fuel + 1) first acc s =
      ((field acc k.toList).bind fun read => read x).bind fun p =>
        members string field fuel false p.1 p.2 := by
  rw [members_next hnext, string_inside hkey]
  simp only [bind, Except.bind, colon_eq hcolon]
  cases field acc k.toList <;> rfl

/-- However this member is written, `field` takes it in as `step` says, or has the form refused. -/
def Gathers (field : σ → List Char → Except Fault (Reader σ)) (step : σ → String × Json → Option σ)
    (m : String × Json) : Prop :=
  ∀ acc ⦃s u t⦄, Blanks s u → Value m.2 u t → Stops t →
    (field acc m.1.toList).bind (fun read => read s) = outcome (step acc m) t

private theorem members_eq (hfield : ∀ m ∈ ms, Gathers field step m) (h : Members first ms s t)
    (hfuel : ms.length < fuel) :
    members string field fuel first acc s = outcome (ms.foldlM step acc) t := by
  induction ms generalizing first s fuel acc with
  | nil =>
    obtain ⟨fuel, rfl⟩ := Nat.exists_eq_add_one_of_ne_zero (Nat.ne_of_gt hfuel)
    cases h with
    | close hblank => exact members_close hblank
  | cons m ms ih =>
    obtain ⟨fuel, rfl⟩ := Nat.exists_eq_add_one_of_ne_zero (Nat.ne_of_gt (Nat.zero_lt_of_lt hfuel))
    obtain ⟨hhere, hlater⟩ := List.forall_mem_cons.1 hfield
    cases h with
    | cons hnext hkey hcolon hblank hv hms =>
      rw [members_member hnext hkey hcolon, hhere acc hblank hv hms.stops, List.foldlM_cons]
      cases step acc _ with
      | none => rfl
      | some acc => exact ih hlater hms (by simpa using hfuel)

end Members

/-- What an object comes to when its members are gathered; other values come to nothing. -/
def ofObject? (step : σ → String × Json → Option σ) (start : σ) (finish : σ → Option α) :
    Json → Option α
  | .object ms => (ms.foldlM step start).bind finish
  | _ => none

/-- A scalar, or an object with members of this kind. -/
inductive Legible (kind : String × Json → Prop) : Json → Prop
  | scalar {value : Json} (h : IsScalar value) : Legible kind value
  | object {members : List (String × Json)} (h : ∀ m ∈ members, kind m) : Legible kind (.object members)

private theorem complete_outcome (finish : σ → Option α) (said : Option σ) (t : List Sign) :
    (outcome said t).bind (complete finish) = outcome (said.bind finish) t := by
  cases said with
  | none => rfl
  | some p =>
    simp only [outcome_some, Except.bind, complete, Option.bind_some]
    cases finish p <;> rfl

section Object

variable {kind : String × Json → Prop} {field : σ → List Char → Except Fault (Reader σ)}
  {step : σ → String × Json → Option σ}

theorem reads_object (hfield : ∀ m, kind m → Gathers field step m) (start : σ) (finish : σ → Option α) :
    Reads (object field start finish) (ofObject? step start finish) (Legible kind) := by
  intro v s u t hv hs h ht
  cases hv with
  | scalar hscalar =>
    have hwrong := wrongForm_eq (α := α) hscalar h ht
    obtain ⟨c, w, rfl, hskip, hform⟩ := exists_eq_cons hs h
    have hother : some Form.object ≠ some (formOf v) := by cases hscalar <;> exact nofun
    have hbrace : c ≠ '{' := ne_of_formAt hform rfl hother
    have hsaid : ofObject? step start finish v = none := by cases hscalar <;> rfl
    rw [hsaid]
    unfold object
    rw [hskip]
    split
    next heq => exact absurd (Option.some.inj (List.cons.inj heq).1) hbrace
    next => exact hwrong
  | @object ms hms =>
    cases h with
    | @object _ u _ h =>
      -- Every member takes a character at least.
      have hfuel : ms.length < u.length + 1 := by
        have hlength := h.length_le
        omega
      unfold object
      rw [skipBlank_cons hs (by decide)]
      show (members string field (u.length + 1) true start u).bind (complete finish) = _
      rw [members_eq (fun m hm => hfield m (hms m hm)) h hfuel, complete_outcome]
      rfl

theorem reads_record {slots : List (Slot σ)} (hfield : ∀ m, kind m → Gathers (Slot.select slots) step m)
    (start : σ) (finish : σ → Option α) :
    Reads (record slots start finish) (ofObject? step start finish) (Legible kind) := by
  intro v s u t hv hs h ht
  obtain ⟨c, w, rfl, hskip, hform⟩ := exists_eq_cons hs h
  have hother : some Form.array ≠ some (formOf v) := by
    cases hv with
    | scalar hscalar => cases hscalar <;> exact nofun
    | object => exact nofun
  have hbracket : c ≠ '[' := ne_of_formAt hform rfl hother
  rw [← reads_object hfield start finish hv (.none _) h ht]
  unfold record
  rw [hskip]
  split
  next heq => exact absurd (Option.some.inj (List.cons.inj heq).1) hbracket
  next => rfl

end Object

/-- However a value under the name of the slot is written, the slot takes it in as the field does. -/
structure Slot.Fits (kind : String × Json → Prop) (slot : Slot σ) (f : RecordField σ) : Prop where
  name : slot.name = f.name
  read : ∀ acc ⦃v s u t⦄, kind (f.name, v) → Blanks s u → Value v u t → Stops t →
    (if slot.isHeld acc then .error .mismatch else slot.read acc s) = outcome (f.take acc v) t

section Slot

variable {kind : String × Json → Prop} {slots : List (Slot σ)} {fields : List (RecordField σ)}

theorem Slot.fits_required {name : String} {value : Reader α} {decode : Json → Option α}
    (h : Reads value decode fun v => kind (name, v)) (get : σ → Option α) (put : σ → α → σ) :
    (required name value get put).Fits kind (.single name decode get put) where
  name := rfl
  read acc v s u t hv hs hvalue ht := by
    have hread : (value s).map (fun p => (put acc p.1, p.2)) = outcome ((decode v).map (put acc)) t := by
      rw [h hv hs hvalue ht, outcome_map]
    cases hget : get acc with
    | some => simp [required, RecordField.single, once, hget]
    | none => simp [required, RecordField.single, once, hget, hread]

theorem Slot.fits_spare {name : String} {value : Reader α} {decode : Json → Option α}
    (h : Reads value decode fun v => kind (name, v)) (get : σ → Option α) (put : σ → α → σ) :
    (spare name value get put).Fits kind (.single name decode get put) :=
  have hfits := fits_required h get put
  ⟨hfits.name, hfits.read⟩

theorem Slot.fits_optional {name : String} {value : Reader α} {decode : Json → Option α}
    (h : Reads value decode fun v => kind (name, v)) (get : σ → Option (Option α))
    (put : σ → Option α → σ) :
    (optional name value get put).Fits kind (.single name (nullable? decode) get put) :=
  fits_spare h.nullable get put

theorem Slot.find?_fits (h : List.Forall₂ (Fits kind) slots fields) (k : String) :
    (slots.find? (fun slot => slot.name = k) = none ∧ fields.find? (fun f => f.name = k) = none) ∨
    ∃ slot f, slots.find? (fun slot => slot.name = k) = some slot ∧
      fields.find? (fun f => f.name = k) = some f ∧ slot.Fits kind f ∧ f.name = k := by
  induction h with
  | nil => exact .inl ⟨rfl, rfl⟩
  | @cons slot f _ _ hfits _ ih =>
    by_cases hname : f.name = k
    · have hname' : slot.name = k := hfits.name.trans hname
      refine .inr ⟨slot, f, ?_, ?_, hfits, hname⟩
      · exact List.find?_cons_of_pos (by simp [hname'])
      · exact List.find?_cons_of_pos (by simp [hname])
    · have hname' : slot.name ≠ k := hfits.name.symm ▸ hname
      rw [List.find?_cons_of_neg (by simp [hname']), List.find?_cons_of_neg (by simp [hname])]
      exact ih

theorem Slot.gathers_select (hslots : List.Forall₂ (Fits kind) slots fields)
    (hother : ∀ m, kind m → m.1 ∉ fields.map RecordField.name → IsScalar m.2) (m : String × Json)
    (hm : kind m) : Gathers (select slots) (gather fields) m := by
  obtain ⟨k, v⟩ := m
  intro acc s u t hs h ht
  rw [select, String.ofList_toList]
  rcases find?_fits hslots k with ⟨hslot, hfield⟩ | ⟨slot, f, hslot, hfield, hfits, rfl⟩
  · have hnew : k ∉ fields.map RecordField.name := by
      simpa [List.find?_eq_none] using hfield
    simp only [hslot, gather, hfield, Except.bind, ignore_eq (hother _ hm hnew) hs h ht]
    rfl
  · simp only [hslot, gather, hfield]
    rw [← hfits.read acc hm hs h ht]
    split <;> rfl

end Slot

theorem parse_eq {reader : Reader α} {decode : Json → Option α} {kind : Json → Prop} {s : List Char}
    (hreader : Reads reader decode kind) (hv : kind v) (h : Document v s) :
    parse reader s = (outcome (decode v) []).map Prod.fst := by
  obtain ⟨u, t, hs, hvalue, ht⟩ := h
  have hend : skipBlank t = [] := skipBlank_eq ht nofun
  have hstops : Stops t := ht.stops nofun
  simp only [parse, parseSigns, hreader hv hs hvalue hstops, bind, Except.bind]
  cases decode v with
  | none => rfl
  | some a =>
    simp only [outcome_some, hend]
    rfl

end CouponIssuance.Json.Read
