import CouponIssuance.Json.Reader
import CouponIssuance.Proofs.Json.Decoding
import CouponIssuance.Proofs.Json.Grammar
import CouponIssuance.Proofs.Text.Decimal
import Mathlib.Data.List.TakeDrop
/-!
# Reading values off a text

However a value is written, a reader finds it at the front of a text, gives what the value says, or reports
that it has another form, and leaves the rest. Values that nobody asked for are passed over.
-/
namespace CouponIssuance.Json.Read

open Grammar

variable {α : Type} {c : Char} {cs : List Char} {s t u : List Sign} {n : Nat} {v : Json}

private theorem isBlank_of_mem (h : c ∈ blanks) : isBlank c = true := by
  simpa [blanks, isBlank, or_assoc] using h

theorem skipBlank_eq (h : Blanks s t) (ht : ∀ d, t.head? = some d → isBlank d = false) :
    skipBlank s = t := by
  induction h with
  | none t =>
    cases t with
    | nil => rfl
    | cons c t => exact List.dropWhile_cons_of_neg (by simp [ht c rfl])
  | cons hc _ ih => exact (List.dropWhile_cons_of_pos (isBlank_of_mem hc)).trans (ih ht)

theorem skipBlank_cons (h : Blanks s (some c :: t)) (hc : isBlank c = false) :
    skipBlank s = some c :: t :=
  skipBlank_eq h fun _ hd => Option.some.inj hd ▸ hc

private theorem digits_append (hcs : ∀ c ∈ cs, Decimal.isDigit c = true) (ht : Stops t) :
    digits (cs.map some ++ t) = (cs, t) := by
  induction cs with
  | nil =>
    rcases t with - | ⟨- | d, t⟩
    · rfl
    · rfl
    · rw [List.map_nil, List.nil_append, digits, if_neg (by simp [(ht d rfl).1])]
  | cons c cs ih =>
    have hc : Decimal.isDigit c = true := hcs c List.mem_cons_self
    rw [List.map_cons, List.cons_append, digits, if_pos hc,
      ih fun d hd => hcs d (List.mem_cons_of_mem c hd)]

private theorem exponent_eq (n : Numeral) (ht : Stops t) : exponent n t = .ok (n, t) := by
  rcases t with - | ⟨- | d, t⟩
  · rfl
  · rfl
  · simp [exponent, ht d rfl]

private theorem fraction_eq (n : Numeral) (ht : Stops t) : fraction n t = .ok (n, t) := by
  unfold fraction
  split
  · exact absurd rfl (ht '.' rfl).2.1
  · exact exponent_eq n ht

private theorem ne_of_isDigit {d : Char} (hc : Decimal.isDigit c = true) (hd : Decimal.isDigit d = false) :
    c ≠ d := by
  rintro rfl
  rw [hc] at hd
  cases hd

private theorem startsNumber_of_isDigit (h : Decimal.isDigit c = true) : startsNumber c = true := by
  simp [startsNumber, h]

private theorem isBlank_of_isDigit (h : Decimal.isDigit c = true) : isBlank c = false := by
  have hne {d : Char} (hd : Decimal.isDigit d = false) : some c ≠ some d :=
    fun hcd => ne_of_isDigit h hd (Option.some.inj hcd)
  simp only [isBlank, hne (by decide : Decimal.isDigit ' ' = false),
    hne (by decide : Decimal.isDigit '\n' = false), hne (by decide : Decimal.isDigit '\t' = false),
    hne (by decide : Decimal.isDigit '\r' = false), decide_false, Bool.or_self]

private theorem exists_render_eq_cons (n : Nat) :
    ∃ d ds, Decimal.render n = d :: ds ∧ Decimal.isDigit d = true := by
  obtain ⟨d, ds, hcut⟩ := List.exists_cons_of_ne_nil (Decimal.render_ne_nil n)
  exact ⟨d, ds, hcut, Decimal.isDigit_of_mem_render (hcut ▸ List.mem_cons_self)⟩

private theorem numeral_render (n : Nat) (ht : Stops t) :
    numeral ((Decimal.render n).map some ++ t) = .ok (⟨false, Decimal.render n, [], none⟩, t) := by
  have hdigits := digits_append (fun _ => Decimal.isDigit_of_mem_render (n := n)) ht
  obtain ⟨d, ds, hcut, hd⟩ := exists_render_eq_cons n
  have hwhole : whole false ((Decimal.render n).map some ++ t) = .ok (⟨false, Decimal.render n, [], none⟩, t) := by
    unfold whole
    rw [hdigits, hcut]
    split
    next h => cases h
    next h => cases h
    next h =>
      cases h
      cases Decimal.eq_nil_of_render_eq_zero_cons hcut
    next h =>
      cases h
      exact fraction_eq _ ht
  rw [hcut, List.map_cons, List.cons_append] at hwhole ⊢
  unfold numeral
  split
  next h =>
    cases h
    cases hd
  next => exact hwhole

private theorem Numeral.gather_eq {m : Nat} (h : Decimal.ofDigits m cs < UInt64.size) :
    gather m cs = (Decimal.ofDigits m cs, 0) := by
  induction cs generalizing m with
  | nil => rfl
  | cons c cs ih =>
    have hfits : m * 10 + Decimal.digitValue c < UInt64.size :=
      Nat.lt_of_le_of_lt (Decimal.le_ofDigits _ cs) h
    rw [gather, if_pos hfits]
    exact ih h

private theorem isFiniteProduct_one (h : n < UInt64.size) : Double.isFiniteProduct n 1 = true := by
  have hone : Double.round 1 = 1 := by decide
  have hlog : n.log2 < 64 := by
    rcases Nat.eq_zero_or_pos n with rfl | hpos
    · decide
    · exact (Nat.log2_lt (Nat.ne_of_gt hpos)).2 h
  have hspacing : Double.spacing n ≤ 2 ^ 11 :=
    Nat.pow_le_pow_right (by decide) (by unfold Double.precision; omega)
  have hround : Double.round n ≤ n + Double.spacing n := by
    have hdivide : Double.divideNearest n (Double.spacing n) ≤ n / Double.spacing n + 1 := by
      unfold Double.divideNearest
      dsimp only
      split <;> omega
    calc Double.round n ≤ (n / Double.spacing n + 1) * Double.spacing n :=
          Nat.mul_le_mul_right _ hdivide
      _ ≤ n + Double.spacing n := by
        rw [Nat.add_mul, Nat.one_mul]
        exact Nat.add_le_add_right (Nat.div_mul_le_self ..) _
  have hlimit : UInt64.size + 2 ^ 11 ≤ Double.limit := by decide +kernel
  rw [Double.isFiniteProduct, hone, Nat.mul_one, decide_eq_true_eq]
  omega

private theorem Numeral.isFinite_of_digits (h : Decimal.ofDigits 0 cs < UInt64.size) :
    isFinite ⟨false, cs, [], none⟩ = true := by
  have hfinite := isFiniteProduct_one h
  simp [isFinite, gather_eq h, gather, power, largestPower, hfinite]

private theorem number_render (n : UInt64) (ht : Stops t) :
    number ((Decimal.render n.toNat).map some ++ t) = .ok (some n, t) := by
  have hfits : Decimal.ofDigits 0 (Decimal.render n.toNat) < UInt64.size := by
    rw [Decimal.ofDigits_render]
    exact n.toNat_lt
  have hamount : Numeral.amount? ⟨false, Decimal.render n.toNat, [], none⟩ = some n := by
    simp [Numeral.amount?, Decimal.ofDigits_render, n.toNat_lt]
  unfold number
  simp only [numeral_render _ ht, bind, Except.bind, Numeral.isFinite_of_digits hfits, if_true, hamount]

/-! ## Strings -/

private theorem hexValue?_eq {d : Nat} (h : Digit c d) : hexValue? c = some d := by
  cases h with
  | decimal h =>
    have hall : ∀ d < 10, hexValue? (Char.ofNat (0x30 + d)) = some d := by decide
    exact hall _ h
  | lower h =>
    have hall : ∀ d < 6, hexValue? (Char.ofNat (0x61 + d)) = some (10 + d) := by decide
    exact hall _ h
  | upper h =>
    have hall : ∀ d < 6, hexValue? (Char.ofNat (0x41 + d)) = some (10 + d) := by decide
    exact hall _ h

private theorem hex4_eq (h : Hex n s t) : hex4 s = .ok n ∧ 4 ≤ s.length ∧ s.drop 4 = t := by
  cases h with
  | mk ha hb hc hd hn =>
    subst hn
    simp [hex4, hexValue?_eq ha, hexValue?_eq hb, hexValue?_eq hc, hexValue?_eq hd]

variable {how : Quoting} {k : Nat}

private theorem stringFrom_eq_drop (h : k ≤ s.length) :
    stringFrom how k s = stringFrom how 0 (s.drop k) := by
  induction k generalizing s with
  | zero => rfl
  | succ k ih =>
    cases s with
    | nil => cases h
    | cons c s => exact ih (Nat.le_of_succ_le_succ h)

private theorem stringFrom_hex (h : Hex n s t) : stringFrom how 5 (some 'u' :: s) = stringFrom how 0 t := by
  obtain ⟨-, hlen, hdrop⟩ := hex4_eq h
  rw [stringFrom, stringFrom_eq_drop hlen, hdrop]

private theorem stringFrom_escape (h : how.escape s = .ok (c, k)) :
    stringFrom how 0 ('\\' :: s) = (stringFrom how k s).map fun p => (c :: p.1, p.2) := by
  rw [stringFrom]
  simp only [h, bind, Except.bind, Char.reduceEq, if_false, if_true]
  cases stringFrom how k s <;> rfl

private theorem stringFrom_plain (hquote : c ≠ '"') (hslash : c ≠ '\\') (hcontrol : 0x20 ≤ c.toNat) :
    stringFrom how 0 (some c :: t) = (stringFrom how 0 t).map fun p => (c :: p.1, p.2) := by
  rw [stringFrom]
  simp only [hquote, hslash, Nat.not_lt.2 hcontrol, if_false, bind, Except.bind]
  cases stringFrom how 0 t <;> rfl

private theorem letterEscape?_eq {l : Char} (h : (l, c) ∈ letters) : l ≠ 'u' ∧ letterEscape? l = some c := by
  have hall : ∀ p ∈ letters, p.1 ≠ 'u' ∧ letterEscape? p.1 = some p.2 := by decide
  exact hall _ h

private theorem toNat_not_surrogate (c : Char) : c.toNat < 0xD800 ∨ 0xDFFF < c.toNat := by
  rcases c.valid with h | h
  · exact .inl h
  · exact .inr h.1

private theorem strictEscape_unit (h : Hex c.toNat s t) : strictEscape ('u' :: s) = .ok (c, 5) := by
  have hvalid := toNat_not_surrogate c
  have hlow : ¬ (0xDC00 ≤ c.toNat ∧ c.toNat ≤ 0xDFFF) := by omega
  have hhigh : ¬ (0xD800 ≤ c.toNat ∧ c.toNat ≤ 0xDBFF) := by omega
  simp [strictEscape, (hex4_eq h).1, bind, Except.bind, hlow, hhigh]

private theorem strictEscape_pair (hlarge : 0x10000 ≤ c.toNat)
    (hhigh : Hex (0xD800 + (c.toNat - 0x10000) / 0x400) s ('\\' :: 'u' :: u))
    (hlow : Hex (0xDC00 + (c.toNat - 0x10000) % 0x400) u t) :
    strictEscape ('u' :: s) = .ok (c, 11) := by
  have hsmall : c.toNat < 0x110000 := by
    rcases c.valid with h | h
    · exact Nat.lt_trans h (by decide)
    · exact h.2
  obtain ⟨hhex, -, hdrop⟩ := hex4_eq hhigh
  generalize hhi : 0xD800 + (c.toNat - 0x10000) / 0x400 = hi at hhex
  generalize hlo : 0xDC00 + (c.toNat - 0x10000) % 0x400 = lo at hlow
  have hnotLow : ¬ (0xDC00 ≤ hi ∧ hi ≤ 0xDFFF) := by omega
  have hisHigh : 0xD800 ≤ hi ∧ hi ≤ 0xDBFF := by omega
  have hisLow : 0xDC00 ≤ lo ∧ lo ≤ 0xDFFF := by omega
  have hc : (hi - 0xD800) * 0x400 + (lo - 0xDC00) + 0x10000 = c.toNat := by omega
  simp [strictEscape, hhex, hdrop, (hex4_eq hlow).1, bind, Except.bind, hnotLow, hisHigh, hisLow, hc]

private theorem string_symbol (h : Symbol c s t) : string s = (string t).map fun p => (c :: p.1, p.2) := by
  cases h with
  | plain hquote hslash hcontrol => exact stringFrom_plain hquote hslash hcontrol
  | @letter l hl =>
    obtain ⟨hu, hletter⟩ := letterEscape?_eq hl
    exact stringFrom_escape (k := 1) (by simp [Quoting.kept, strictEscape, hu, hletter])
  | unit hunit =>
    rw [string, stringFrom_escape (strictEscape_unit hunit), stringFrom_hex hunit]
  | @pair s u _ hlarge hhigh hlow =>
    -- Four digits, a backslash, a letter and four digits more come after the first letter.
    have hrest : stringFrom .kept 11 ('u' :: s) = stringFrom .kept 0 t := by
      obtain ⟨-, hlen, hdrop⟩ := hex4_eq hhigh
      obtain ⟨-, hlen', hdrop'⟩ := hex4_eq hlow
      have hlength : s.length = 4 + (u.length + 2) := by
        have hcut := congrArg List.length hdrop
        simp only [List.length_drop, List.length_cons] at hcut
        omega
      have htail : s.drop 10 = t := by
        rw [show 10 = 4 + 6 from rfl, ← List.drop_drop, hdrop]
        exact hdrop'
      rw [stringFrom, stringFrom_eq_drop (by omega), htail]
    rw [string, stringFrom_escape (strictEscape_pair hlarge hhigh hlow), hrest]

theorem string_inside (h : Inside cs s t) : string s = .ok (cs, t) := by
  induction h with
  | close => rfl
  | cons hc _ ih =>
    rw [string_symbol hc, ih]
    rfl

private theorem lax_string_symbol (h : Symbol c s t) : lax.string s = lax.string t := by
  have hmap (d : Char) (r : Except Fault (List Char × List Sign)) :
      ((r.map fun p => (d :: p.1, p.2)).map fun p => ((), p.2)) = r.map fun p => ((), p.2) := by
    cases r <;> rfl
  have hunit {n : Nat} {s t : List Sign} (h : Hex n s t) : lax.string ('\\' :: 'u' :: s) = lax.string t := by
    have hescape : Quoting.skipped.escape ('u' :: s) = .ok ('u', 5) := by
      simp [Quoting.skipped, laxEscape, (hex4_eq h).1, bind, Except.bind]
    simp only [lax, stringFrom_escape hescape, stringFrom_hex h, hmap]
  cases h with
  | plain hquote hslash hcontrol => simp only [lax, stringFrom_plain hquote hslash hcontrol, hmap]
  | @letter l hl =>
    obtain ⟨hu, hletter⟩ := letterEscape?_eq hl
    have hescape : Quoting.skipped.escape (some l :: t) = .ok (c, 1) := by
      simp [Quoting.skipped, laxEscape, hu, hletter]
    simp only [lax, stringFrom_escape hescape, hmap]
    rfl
  | unit h => exact hunit h
  | pair _ hhigh hlow => rw [hunit hhigh, hunit hlow]

private theorem lax_string_inside (h : Inside cs s t) : lax.string s = .ok ((), t) := by
  induction h with
  | close => rfl
  | cons hc _ ih => rw [lax_string_symbol hc, ih]

/-- What is kept of a value whose amount `amount` is kept. -/
def gistOf (amount : UInt64 → Gist) : Json → Gist
  | .null => .null
  | v =>
    match amount? v with
    | some n => amount n
    | none => .other

/-- A way to skip values gets over every string and every amount. -/
structure Skimming.Passes (how : Skimming) (amount : UInt64 → Gist) : Prop where
  string : ∀ {cs s t}, Inside cs s t → how.string s = .ok ((), t)
  number : ∀ (n : UInt64) {t}, Stops t → how.number ((Decimal.render n.toNat).map some ++ t) = .ok (amount n, t)

private theorem lax_passes : lax.Passes fun _ => .other where
  string := lax_string_inside
  number n t ht := by simp only [lax, passNumber, numeral_render _ ht, Except.map]

private theorem strict_passes : strict.Passes .amount where
  string h := by simp only [strict, string_inside h, Except.map]
  number n t ht := by simp only [strict, number_render n ht, Except.map]

private theorem skip_eq {how : Skimming} {amount : UInt64 → Gist} (hhow : how.Passes amount) (fuel : Nat)
    (depth : Option Nat) (hv : IsScalar v) (hs : Blanks s u) (h : Value v u t) (ht : Stops t) :
    skip how (fuel + 1) depth s = .ok (gistOf amount v, t) := by
  cases hv with
  | null =>
    cases h
    rw [skip, skipBlank_cons hs (by decide)]
    rfl
  | bool b =>
    cases h with
    | yes =>
      rw [skip, skipBlank_cons hs (by decide)]
      rfl
    | no =>
      rw [skip, skipBlank_cons hs (by decide)]
      rfl
  | text x =>
    cases h with
    | text hinside =>
      rw [skip, skipBlank_cons hs (by decide)]
      simp only [if_true, hhow.string hinside, Except.map]
      rfl
  | amount n =>
    cases h with
    | number =>
      have hread := hhow.number n ht
      obtain ⟨d, ds, hcut, hd⟩ := exists_render_eq_cons n.toNat
      rw [hcut, List.map_cons, List.cons_append] at hs hread
      rw [skip, skipBlank_cons hs (isBlank_of_isDigit hd)]
      have hsaid : amount? (.number n.toNat) = some n := (amount?_eq_some_iff n _).2 rfl
      simp only [Option.some.injEq, ne_of_isDigit hd (by decide : Decimal.isDigit '"' = false),
        startsNumber_of_isDigit hd, if_true, if_false, hread, gistOf, hsaid]

theorem ignore_eq (hv : IsScalar v) (hs : Blanks s u) (h : Value v u t) (ht : Stops t) :
    ignore s = .ok ((), t) := by
  rw [ignore, skip_eq lax_passes _ _ hv hs h ht]
  rfl

theorem gist_eq (hv : IsScalar v) (hs : Blanks s u) (h : Value v u t) (ht : Stops t) :
    gist s = .ok (gistOf .amount v, t) :=
  skip_eq strict_passes _ _ hv hs h ht

/-! ## Values of a given form -/

/-- What a reader gives for a value that says this, or says nothing to it. -/
def outcome (said : Option α) (t : List Sign) : Except Fault (α × List Sign) :=
  match said with
  | some a => .ok (a, t)
  | none => .error .mismatch

@[simp] theorem outcome_some (a : α) (t : List Sign) : outcome (some a) t = .ok (a, t) := rfl

@[simp] theorem outcome_none (t : List Sign) :
    outcome (none : Option α) t = .error .mismatch := rfl

theorem outcome_map {β : Type} (f : α → β) (said : Option α) (t : List Sign) :
    outcome (said.map f) t = (outcome said t).map fun p => (f p.1, p.2) := by
  cases said <;> rfl

/-- However a value of this kind is written, the reader gives what `decode` says of it. -/
def Reads (reader : Reader α) (decode : Json → Option α) (kind : Json → Prop) : Prop :=
  ∀ ⦃v s u t⦄, kind v → Blanks s u → Value v u t → Stops t → reader s = outcome (decode v) t

theorem Reads.mono {reader : Reader α} {decode : Json → Option α} {kind kind' : Json → Prop}
    (h : Reads reader decode kind) (hkind : ∀ v, kind' v → kind v) : Reads reader decode kind' :=
  fun _ _ _ _ hv => h (hkind _ hv)

theorem wrongForm_eq (hv : IsScalar v) (h : Value v u t) (ht : Stops t) :
    (wrongForm u : Except Fault (α × List Sign)) = .error .mismatch := by
  cases hv with
  | null =>
    cases h
    rfl
  | bool b => cases h <;> rfl
  | text x =>
    cases h with
    | text hinside => simp only [wrongForm, if_true, string_inside hinside]
  | amount n =>
    cases h with
    | number =>
      have hread := number_render n ht
      obtain ⟨d, ds, hcut, hd⟩ := exists_render_eq_cons n.toNat
      rw [hcut, List.map_cons, List.cons_append] at hread ⊢
      simp only [wrongForm, Option.some.injEq, ne_of_isDigit hd (by decide : Decimal.isDigit '"' = false),
        startsNumber_of_isDigit hd, if_true, if_false, hread]

/-- The forms of values that their first characters tell apart. -/
inductive Form where
  | null
  | truth
  | number
  | text
  | array
  | object
  deriving DecidableEq

def formOf : Json → Form
  | .null => .null
  | .bool _ => .truth
  | .number _ => .number
  | .text _ => .text
  | .array _ => .array
  | .object _ => .object

/-- The form of the value that begins with a character. -/
def formAt (c : Char) : Option Form :=
  if Decimal.isDigit c then some .number
  else if c = '"' then some .text
  else if c = 'n' then some .null
  else if c = 't' ∨ c = 'f' then some .truth
  else if c = '[' then some .array
  else if c = '{' then some .object
  else none

theorem ne_of_formAt {d : Char} {form : Option Form} (hc : formAt c = some (formOf v))
    (hd : formAt d = form) (hform : form ≠ some (formOf v)) : c ≠ d := by
  rintro rfl
  exact hform (hd ▸ hc)

private theorem isDigit_of_formAt (hc : formAt c = some (formOf v)) (hv : formOf v ≠ .number) :
    Decimal.isDigit c = false := by
  cases hd : Decimal.isDigit c with
  | false => rfl
  | true =>
    rw [formAt, if_pos hd] at hc
    exact absurd (Option.some.inj hc).symm hv

theorem exists_eq_cons (hs : Blanks s u) (h : Value v u t) :
    ∃ c w, u = some c :: w ∧ skipBlank s = some c :: w ∧ formAt c = some (formOf v) := by
  have hstarts {c : Char} {w : List Sign} (hu : u = some c :: w) (hc : isBlank c = false)
      (hform : formAt c = some (formOf v)) :
      ∃ c w, u = some c :: w ∧ skipBlank s = some c :: w ∧ formAt c = some (formOf v) :=
    ⟨c, w, hu, skipBlank_cons (hu ▸ hs) hc, hform⟩
  cases h with
  | number n =>
    obtain ⟨d, ds, hcut, hd⟩ := exists_render_eq_cons n
    exact hstarts (by rw [hcut, List.map_cons, List.cons_append]) (isBlank_of_isDigit hd) (if_pos hd)
  | null => exact hstarts rfl rfl rfl
  | yes => exact hstarts rfl rfl rfl
  | no => exact hstarts rfl rfl rfl
  | text => exact hstarts rfl rfl rfl
  | array => exact hstarts rfl rfl rfl
  | object => exact hstarts rfl rfl rfl

theorem reads_amount : Reads amount amount? IsScalar := by
  intro v s u t hv hs h ht
  have hwrong := wrongForm_eq (α := UInt64) hv h ht
  obtain ⟨c, w, rfl, hskip, hform⟩ := exists_eq_cons hs h
  have hother (hv : formOf v ≠ .number) : amount s = .error .mismatch := by
    have hminus : c ≠ '-' := ne_of_formAt hform rfl nofun
    have hstart : startsNumber c = false := by
      simp [startsNumber, hminus, isDigit_of_formAt hform hv]
    simp only [amount, hskip, hstart, Bool.false_eq_true, if_false, hwrong]
  cases hv with
  | null => exact hother nofun
  | bool => exact hother nofun
  | text => exact hother nofun
  | amount n =>
    obtain ⟨d, ds, hcut, hd⟩ := exists_render_eq_cons n.toNat
    have hread := number_render n ht
    generalize hrest : some c :: w = rest at h hskip
    cases h with
    | number =>
      have hsaid : amount? (.number n.toNat) = some n := (amount?_eq_some_iff n _).2 rfl
      rw [hcut, List.map_cons, List.cons_append] at hread hskip
      simp only [amount, hskip, startsNumber_of_isDigit hd, if_true, hread, bind, Except.bind, hsaid,
        outcome_some]

theorem reads_text : Reads text text? IsScalar := by
  intro v s u t hv hs h ht
  have hwrong := wrongForm_eq (α := String) hv h ht
  obtain ⟨c, w, rfl, hskip, hform⟩ := exists_eq_cons hs h
  have hother (hv : some Form.text ≠ some (formOf v)) : text s = .error .mismatch := by
    have hquote : c ≠ '"' := ne_of_formAt hform rfl hv
    unfold text
    rw [hskip]
    split
    next heq => exact absurd (Option.some.inj (List.cons.inj heq).1) hquote
    next => exact hwrong
  cases hv with
  | null => exact hother nofun
  | bool => exact hother nofun
  | amount => exact hother nofun
  | text x =>
    cases h with
    | text hinside =>
      rw [text, hskip]
      simp only [string_inside hinside, Except.map, String.ofList_toList]
      rfl

theorem Reads.nullable {reader : Reader α} {decode : Json → Option α} {kind : Json → Prop}
    (h : Reads reader decode kind) : Reads (nullable reader) (nullable? decode) kind := by
  intro v s u t hv hs hvalue ht
  obtain ⟨c, w, rfl, hskip, hform⟩ := exists_eq_cons hs hvalue
  by_cases hnull : v = .null
  · subst hnull
    cases hvalue
    rw [Read.nullable, hskip]
    rfl
  · have hother : some Form.null ≠ some (formOf v) := by
      cases v with
      | null => exact absurd rfl hnull
      | _ => exact nofun
    have hn : c ≠ 'n' := ne_of_formAt hform rfl hother
    rw [nullable?_of_ne_null hnull, outcome_map, ← h hv (.none _) hvalue ht]
    unfold Read.nullable
    rw [hskip]
    split
    next heq => exact absurd (Option.some.inj (List.cons.inj heq).1) hn
    next => rfl

theorem reads_choice (named : String → Option α) :
    Reads (choice named) (fun v => (text? v).bind named) (fun v => ∃ x, v = .text x) := by
  rintro v s u t ⟨x, rfl⟩ hs h ht
  have hread := reads_text (.text x) (.none u) h ht
  cases h with
  | text hinside =>
    unfold choice
    rw [skipBlank_cons hs (by decide)]
    simp only [hread, text?, outcome_some, bind, Except.bind, Option.bind_some]
    cases named x <;> rfl

end CouponIssuance.Json.Read
