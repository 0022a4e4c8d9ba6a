import CouponIssuance.Json.Value
/-!
# What values say

Values taken for amounts, texts and records, without regard to how they are written. The members of a
record are gathered one after another, each into the field of its name and no field twice; `fill` tells
what one field comes to by the values under its name alone.
-/
namespace CouponIssuance.Json

variable {α σ : Type}

/-- A value without parts: `null`, a truth value, a string or an amount. -/
inductive IsScalar : Json → Prop
  | null : IsScalar .null
  | bool (b) : IsScalar (.bool b)
  | text (s) : IsScalar (.text s)
  | amount (n : UInt64) : IsScalar (.number n.toNat)

def amount? : Json → Option UInt64
  | .number n => if n < UInt64.size then some (UInt64.ofNat n) else none
  | _ => none

def text? : Json → Option String
  | .text s => some s
  | _ => none

/-- A value that may be missing, which `null` says. -/
def nullable? (decode : Json → Option α) : Json → Option (Option α)
  | .null => some none
  | v => (decode v).map some

section Scalars

variable {decode : Json → Option α} {v : Json}

theorem amount?_eq_some_iff (n : UInt64) (v : Json) : amount? v = some n ↔ v = ofAmount n := by
  constructor
  · intro h
    cases v with
    | number m =>
      rw [amount?] at h
      split at h
      next hm =>
        cases h
        exact congrArg Json.number (UInt64.toNat_ofNat_of_lt hm).symm
      next => cases h
    | _ => cases h
  · rintro rfl
    rw [ofAmount, amount?, if_pos n.toNat_lt, UInt64.ofNat_toNat]

theorem text?_eq_some_iff (s : String) (v : Json) : text? v = some s ↔ v = .text s := by
  cases v <;> simp [text?]

theorem nullable?_of_ne_null (h : v ≠ .null) : nullable? decode v = (decode v).map some := by
  unfold nullable?
  split
  · exact absurd rfl h
  · rfl

end Scalars

/-- The values of the members of a name, in their order. -/
def valuesOf (name : String) (ms : List (String × Json)) : List Json :=
  (ms.filter fun m => m.1 = name).map Prod.snd

/-- How an optional member is written: with its value, or, if it has none, as `null` or not at all. -/
inductive Optionally (tells : α → Json → Prop) : Option α → List Json → Prop
  | given {a v} (h : tells a v) : Optionally tells (some a) [v]
  | null : Optionally tells none [.null]
  | omitted : Optionally tells none []

/-- Each required name comes once, and none of the known ones twice. -/
structure Once (required known : List String) (ms : List (String × Json)) : Prop where
  required : ∀ k ∈ required, (valuesOf k ms).length = 1
  known : ∀ k ∈ known, (valuesOf k ms).length ≤ 1

/-- One member too few or one too many: a required one is dropped, or a known one comes again, with a
value that fits it. -/
inductive Spoils (required known : List String) (fits : String × Json → Prop) :
    List (String × Json) → List (String × Json) → Prop
  | dropped {before after k v} (h : k ∈ required) :
      Spoils required known fits (before ++ (k, v) :: after) (before ++ after)
  | repeated {before after k v} (hknown : k ∈ known) (hthere : k ∈ (before ++ after).map Prod.fst)
      (hfits : fits (k, v)) : Spoils required known fits (before ++ after) (before ++ (k, v) :: after)

section Members

variable {tells : α → Json → Prop} {x : Option α} {name k : String} {v : Json} {vs : List Json}
  {required known : List String} {fits : String × Json → Prop} {ms ms' : List (String × Json)}

@[simp] theorem valuesOf_nil (name : String) : valuesOf name [] = [] := rfl

theorem valuesOf_cons : valuesOf name ((k, v) :: ms) =
    if k = name then v :: valuesOf name ms else valuesOf name ms := by
  by_cases h : k = name <;> simp [valuesOf, h]

@[simp] theorem valuesOf_append (name : String) (ms ns : List (String × Json)) :
    valuesOf name (ms ++ ns) = valuesOf name ms ++ valuesOf name ns := by
  simp [valuesOf]

theorem valuesOf_optional (o : Option Json) :
    valuesOf name (Json.optional k o) = if k = name then o.toList else [] := by
  cases o <;> simp [Json.optional, valuesOf_cons]

theorem mem_valuesOf (h : (name, v) ∈ ms) : v ∈ valuesOf name ms :=
  List.mem_map.2 ⟨_, List.mem_filter.2 ⟨h, by simp⟩, rfl⟩

private theorem valuesOf_ne_nil_iff : valuesOf name ms ≠ [] ↔ name ∈ ms.map Prod.fst := by
  simp [valuesOf, List.filter_eq_nil_iff]

theorem mem_optional_iff {m : String × Json} {o : Option Json} :
    m ∈ Json.optional k o ↔ ∃ v, o = some v ∧ m = (k, v) := by
  cases o <;> simp [Json.optional]

theorem forall_mem_of_valuesOf (names : List String)
    (hnamed : ∀ k ∈ names, ∀ v ∈ valuesOf k ms, fits (k, v)) (hothers : ∀ m ∈ ms, m.1 ∉ names → fits m) : ∀ m ∈ ms, fits m := by
  rintro ⟨k, v⟩ hm
  by_cases hk : k ∈ names
  · exact hnamed k hk v (mem_valuesOf hm)
  · exact hothers _ hm hk

theorem optionally_toList_map (f : α → Json) (h : ∀ a, tells a (f a)) :
    Optionally tells x (x.map f).toList := by
  cases x with
  | none => exact .omitted
  | some a => exact .given (h a)

theorem Optionally.of_mem (h : Optionally tells x vs) (hv : v ∈ vs) : v = .null ∨ ∃ a, tells a v := by
  cases h with
  | given h =>
    cases List.mem_singleton.1 hv
    exact .inr ⟨_, h⟩
  | null => exact .inl (List.mem_singleton.1 hv)
  | omitted => cases hv

theorem Optionally.isScalar_of_mem (h : Optionally tells x vs) (htells : ∀ a v, tells a v → IsScalar v)
    (hv : v ∈ vs) : IsScalar v := by
  rcases h.of_mem hv with rfl | ⟨a, ha⟩
  · exact .null
  · exact htells a v ha

theorem Optionally.mono {tells' : α → Json → Prop} (h : Optionally tells x vs)
    (himp : ∀ a v, tells a v → tells' a v) : Optionally tells' x vs := by
  cases h with
  | given h => exact .given (himp _ _ h)
  | null => exact .null
  | omitted => exact .omitted

theorem Optionally.length_le (h : Optionally tells x vs) : vs.length ≤ 1 := by
  cases h <;> simp

theorem Spoils.forall_fits (h : Spoils required known fits ms ms') (hms : ∀ m ∈ ms, fits m) :
    ∀ m ∈ ms', fits m := by
  cases h with
  | dropped =>
    intro m hm
    refine hms m ?_
    simp only [List.mem_append, List.mem_cons] at hm ⊢
    exact hm.imp_right .inr
  | repeated _ _ hfits =>
    intro m hm
    simp only [List.mem_append, List.mem_cons] at hm hms
    rcases hm with hm | rfl | hm
    · exact hms m (.inl hm)
    · exact hfits
    · exact hms m (.inr hm)

theorem Spoils.not_once (h : Spoils required known fits ms ms') (hms : Once required known ms) :
    ¬ Once required known ms' := by
  intro hms'
  cases h with
  | @dropped before after k v hk =>
    have hbefore := hms.required k hk
    have hafter := hms'.required k hk
    simp [valuesOf_cons] at hbefore hafter
    omega
  | @repeated before after k v hk hthere =>
    have hone := List.length_pos_iff.2 (valuesOf_ne_nil_iff.2 hthere)
    have htwo := hms'.known k hk
    simp [valuesOf_cons] at hone htwo
    omega

end Members

/-- A field of a record: its name, and how a value under that name is taken in. -/
structure RecordField (σ : Type) where
  name : String
  take : σ → Json → Option σ

/-- Takes a value in unless there is one. -/
def once (decode : Json → Option α) (held : Option α) (v : Json) : Option α :=
  match held with
  | some _ => none
  | none => decode v

/-- A field that takes one value. -/
def RecordField.single (name : String) (decode : Json → Option α) (get : σ → Option α) (put : σ → α → σ) :
    RecordField σ where
  name := name
  take p v := (once decode (get p) v).map (put p)

/-- Takes a member into the field of its name; one of any other name is passed over. -/
def gather (fields : List (RecordField σ)) (p : σ) (m : String × Json) : Option σ :=
  match fields.find? fun f => f.name = m.1 with
  | some f => f.take p m.2
  | none => some p

theorem gather_cons (f : RecordField σ) (fields : List (RecordField σ)) (p : σ) (k : String) (v : Json) :
    gather (f :: fields) p (k, v) = if k = f.name then f.take p v else gather fields p (k, v) := by
  by_cases h : f.name = k <;> simp [gather, h, eq_comm (a := k)]

@[simp] theorem gather_nil (p : σ) (m : String × Json) : gather [] p m = some p := rfl

/-- What a field holds after it has taken in these values. -/
def fill (decode : Json → Option α) (held : Option α) (vs : List Json) : Option (Option α) :=
  vs.foldlM (fun held v => (once decode held v).map some) held

section Fill

variable {decode : Json → Option α} {tells : α → Json → Prop} {held o x : Option α} {a : α} {v : Json}
  {vs : List Json}

@[simp] theorem fill_nil (decode : Json → Option α) (held : Option α) :
    fill decode held [] = some held := rfl

theorem fill_cons (decode : Json → Option α) (held : Option α) (v : Json) (vs : List Json) :
    fill decode held (v :: vs) = (once decode held v).bind fun a => fill decode (some a) vs := by
  simp only [fill, List.foldlM_cons]
  cases once decode held v <;> rfl

private theorem fill_none_eq_some_iff : fill decode none vs = some o ↔
    (vs = [] ∧ o = none) ∨ ∃ v a, vs = [v] ∧ decode v = some a ∧ o = some a := by
  rcases vs with - | ⟨v, - | ⟨w, vs⟩⟩
  · simp [eq_comm]
  · cases h : decode v <;> simp [fill_cons, once, h, eq_comm]
  · cases h : decode v <;> simp [fill_cons, once, h]

theorem fill_eq_some_some_iff (hdecode : ∀ w, decode w = some a ↔ w = v) :
    fill decode none vs = some (some a) ↔ vs = [v] := by
  simp [fill_none_eq_some_iff, hdecode]

/-- A field with a default value is filled just if its value stands there once, or is the default. -/
theorem fill_getD_iff {default : α} (hdecode : ∀ w, decode w = some a ↔ w = v) :
    (∃ o, fill decode none vs = some o ∧ o.getD default = a) ↔ vs = [v] ∨ a = default ∧ vs = [] := by
  simp only [fill_none_eq_some_iff]
  constructor
  · rintro ⟨o, ⟨rfl, rfl⟩ | ⟨w, b, rfl, hw, rfl⟩, rfl⟩
    · exact .inr ⟨rfl, rfl⟩
    · exact .inl (by rw [(hdecode w).1 hw])
  · rintro (rfl | ⟨rfl, rfl⟩)
    · exact ⟨some a, .inr ⟨v, a, rfl, (hdecode v).2 rfl, rfl⟩, rfl⟩
    · exact ⟨none, .inl ⟨rfl, rfl⟩, rfl⟩

/-- An optional field is filled just if it is written as optional members are. -/
theorem fill_join_iff (htells : ∀ a v, decode v = some a ↔ tells a v) (hnull : decode .null = none) :
    (∃ o, fill (nullable? decode) none vs = some o ∧ o.join = x) ↔ Optionally tells x vs := by
  constructor
  · rintro ⟨o, h, rfl⟩
    rcases fill_none_eq_some_iff.1 h with ⟨rfl, rfl⟩ | ⟨v, y, rfl, hv, rfl⟩
    · exact .omitted
    · by_cases hvnull : v = .null
      · subst hvnull
        cases hv
        exact .null
      · rw [nullable?_of_ne_null hvnull, Option.map_eq_some_iff] at hv
        obtain ⟨a, ha, rfl⟩ := hv
        exact .given ((htells a v).1 ha)
  · rintro (⟨h⟩ | - | -)
    next a v =>
      have hv := (htells a v).2 h
      have hvnull : v ≠ .null := by
        rintro rfl
        rw [hnull] at hv
        cases hv
      refine ⟨some (some a), fill_none_eq_some_iff.2 (.inr ⟨v, some a, rfl, ?_, rfl⟩), rfl⟩
      rw [nullable?_of_ne_null hvnull, hv]
      rfl
    · exact ⟨_, fill_none_eq_some_iff.2 (.inr ⟨_, _, rfl, rfl, rfl⟩), rfl⟩
    · exact ⟨none, rfl, rfl⟩

end Fill

end CouponIssuance.Json
