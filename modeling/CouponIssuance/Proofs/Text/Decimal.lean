import CouponIssuance.Text.Decimal
/-!
# Which texts are numbers

A text is read as a number just if it spells that number in decimal, perhaps after a plus sign. Otherwise
it is refused for the first thing that is wrong with it.
-/
namespace CouponIssuance.Decimal

variable {text ds : List Char} {acc n : Nat} {why : Fault}

/-- The text is made of digits, perhaps after a plus sign, and `n` is the number they spell. -/
def Spells (text : List Char) (n : Nat) : Prop :=
  ∃ ds, ds ≠ [] ∧ (∀ c ∈ ds, isDigit c = true) ∧ (text = ds ∨ text = '+' :: ds) ∧ ofDigits 0 ds = n

/-- Reading goes well up to a character: the digits before it spell a number that fits. -/
structure Reaches (acc : Nat) (ds good : List Char) (c : Char) (rest : List Char) : Prop where
  cut : ds = good ++ c :: rest
  digits : ∀ d ∈ good, isDigit d = true
  fits : ofDigits acc good < UInt64.size

/-- How reading ends: at the end of the digits, or at the first character that is no digit or is one too
many. -/
inductive Reading (acc : Nat) (ds : List Char) : Except Fault Nat → Prop
  | whole (hdigits : ∀ d ∈ ds, isDigit d = true) (hfits : ofDigits acc ds < UInt64.size) :
      Reading acc ds (.ok (ofDigits acc ds))
  | badDigit {good c rest} (hreaches : Reaches acc ds good c rest) (hbad : isDigit c = false) :
      Reading acc ds (.error .badDigit)
  | tooLarge {good c rest} (hreaches : Reaches acc ds good c rest) (hdigit : isDigit c = true)
      (hlarge : UInt64.size ≤ ofDigits acc (good ++ [c])) : Reading acc ds (.error .tooLarge)

/-- What is wrong with a text that is not read as a number: there is none, or it cannot be read to its
end. -/
inductive Misspelt (text : List Char) : Fault → Prop
  | empty (h : text = []) : Misspelt text .empty
  | stopped {fault} (hnonempty : text ≠ []) (h : Reading 0 (unsigned text) (.error fault)) :
      Misspelt text fault

theorem toNat_of_isDigit {c : Char} (h : isDigit c = true) : 48 ≤ c.toNat ∧ c.toNat ≤ 57 := by
  simpa [isDigit, Char.le_def, UInt32.le_iff_toNat_le] using h

private theorem ofDigits_append (acc : Nat) (ds cs : List Char) :
    ofDigits acc (ds ++ cs) = ofDigits (ofDigits acc ds) cs :=
  List.foldl_append ..

theorem le_ofDigits (acc : Nat) (ds : List Char) : acc ≤ ofDigits acc ds := by
  induction ds generalizing acc with
  | nil => exact Nat.le_refl acc
  | cons c cs ih =>
    have hstep : acc ≤ acc * 10 + digitValue c := by omega
    exact Nat.le_trans hstep (ih _)

private theorem readFrom_append (hdigits : ∀ d ∈ ds, isDigit d = true) (hfits : ofDigits acc ds < UInt64.size)
    (cs : List Char) : readFrom acc (ds ++ cs) = readFrom (ofDigits acc ds) cs := by
  induction ds generalizing acc with
  | nil => rfl
  | cons d ds ih =>
    have hd : isDigit d = true := hdigits d List.mem_cons_self
    have hsmall : ¬ UInt64.size ≤ acc * 10 + digitValue d :=
      Nat.not_le.2 (Nat.lt_of_le_of_lt (le_ofDigits _ ds) hfits)
    rw [List.cons_append, readFrom, if_neg (by simp [hd]), if_neg hsmall]
    exact ih (fun d hd => hdigits d (List.mem_cons_of_mem _ hd)) hfits

theorem Reaches.cons {c d : Char} {good rest : List Char}
    (h : Reaches (acc * 10 + digitValue d) ds good c rest) (hd : isDigit d = true) :
    Reaches acc (d :: ds) (d :: good) c rest where
  cut := by rw [h.cut, List.cons_append]
  digits := List.forall_mem_cons.2 ⟨hd, h.digits⟩
  fits := h.fits

private theorem readFrom_spec (ds : List Char) (hacc : acc < UInt64.size) :
    Reading acc ds (readFrom acc ds) := by
  induction ds generalizing acc with
  | nil => exact .whole (by simp) hacc
  | cons d ds ih =>
    have hhere : Reaches acc (d :: ds) [] d ds := ⟨rfl, by simp, hacc⟩
    rw [readFrom]
    cases hd : isDigit d with
    | false => exact .badDigit hhere hd
    | true =>
      by_cases hlarge : UInt64.size ≤ acc * 10 + digitValue d
      · rw [if_neg (by simp), if_pos hlarge]
        exact .tooLarge hhere hd hlarge
      · rw [if_neg (by simp), if_neg hlarge]
        have hlater := ih (Nat.not_le.1 hlarge)
        generalize readFrom (acc * 10 + digitValue d) ds = answer at hlater
        cases hlater with
        | whole hdigits hfits => exact .whole (List.forall_mem_cons.2 ⟨hd, hdigits⟩) hfits
        | badDigit hreaches hbad => exact .badDigit (hreaches.cons hd) hbad
        | tooLarge hreaches hdigit hlarge => exact .tooLarge (hreaches.cons hd) hdigit hlarge

private theorem Reading.readFrom_eq {answer : Except Fault Nat} (h : Reading acc ds answer) :
    readFrom acc ds = answer := by
  cases h with
  | whole hdigits hfits =>
    have hread := readFrom_append hdigits hfits []
    rw [List.append_nil] at hread
    exact hread
  | badDigit hreaches hbad =>
    rw [hreaches.cut, readFrom_append hreaches.digits hreaches.fits, readFrom]
    simp [hbad]
  | @tooLarge good c rest hreaches hdigit hlarge =>
    replace hlarge : UInt64.size ≤ ofDigits acc good * 10 + digitValue c := by
      rw [ofDigits_append] at hlarge
      exact hlarge
    rw [hreaches.cut, readFrom_append hreaches.digits hreaches.fits, readFrom,
      if_neg (by simp [hdigit]), if_pos hlarge]

private theorem spells_iff : Spells text n ↔
    text ≠ [] ∧ (∀ c ∈ unsigned text, isDigit c = true) ∧ ofDigits 0 (unsigned text) = n := by
  constructor
  · rintro ⟨ds, hnonempty, hdigits, rfl | rfl, rfl⟩
    · have hplain : unsigned text = text := by
        unfold unsigned
        split
        · cases hdigits '+' List.mem_cons_self
        · rfl
      rw [hplain]
      exact ⟨hnonempty, hdigits, rfl⟩
    · obtain ⟨d, ds, rfl⟩ := List.exists_cons_of_ne_nil hnonempty
      exact ⟨List.cons_ne_nil _ _, hdigits, rfl⟩
  · rintro ⟨hnonempty, hdigits, hn⟩
    have hsign : unsigned text ≠ [] ∧ (text = unsigned text ∨ text = '+' :: unsigned text) := by
      unfold unsigned
      split
      · exact ⟨List.cons_ne_nil _ _, .inr rfl⟩
      · exact ⟨hnonempty, .inl rfl⟩
    exact ⟨unsigned text, hsign.1, hdigits, hsign.2, hn⟩

private theorem parse_of_ne_nil (h : text ≠ []) :
    parse text = (readFrom 0 (unsigned text)).map UInt64.ofNat := by
  rw [parse, if_neg h]

/-- A text is read as a number just if it spells the number. -/
theorem parse_eq_ok_iff {n : UInt64} : parse text = .ok n ↔ Spells text n.toNat := by
  rw [spells_iff]
  by_cases hempty : text = []
  · simp [parse, hempty]
  · rw [parse_of_ne_nil hempty]
    constructor
    · intro hread
      have hspec : Reading 0 _ _ := readFrom_spec (unsigned text) (by decide)
      generalize readFrom 0 (unsigned text) = answer at hread hspec
      cases hspec with
      | whole hdigits hfits =>
        cases hread
        exact ⟨hempty, hdigits, (UInt64.toNat_ofNat_of_lt hfits).symm⟩
      | badDigit => cases hread
      | tooLarge => cases hread
    · rintro ⟨-, hdigits, hn⟩
      have hfits : ofDigits 0 (unsigned text) < UInt64.size := hn ▸ n.toNat_lt
      rw [(Reading.whole hdigits hfits).readFrom_eq, hn]
      simp [Except.map]

/-- A text is not read as a number just if it is misspelt, and then it is told how. -/
theorem parse_eq_error_iff : parse text = .error why ↔ Misspelt text why := by
  by_cases hempty : text = []
  · rw [parse, if_pos hempty]
    constructor
    · rintro ⟨⟩
      exact .empty hempty
    · rintro (⟨-⟩ | ⟨hnonempty, -⟩)
      · rfl
      · exact absurd hempty hnonempty
  · rw [parse_of_ne_nil hempty]
    constructor
    · intro hread
      have hspec : Reading 0 _ _ := readFrom_spec (unsigned text) (by decide)
      cases hanswer : readFrom 0 (unsigned text) with
      | ok n =>
        rw [hanswer] at hread
        cases hread
      | error why' =>
        rw [hanswer] at hread hspec
        cases hread
        exact .stopped hempty hspec
    · rintro (hnone | ⟨-, hreading⟩)
      · exact absurd hnone hempty
      · rw [hreading.readFrom_eq]
        rfl

theorem isDigit_of_mem_render {c : Char} (h : c ∈ render n) : isDigit c = true := by
  have hdigit : c.isDigit = true := Nat.isDigit_of_mem_toDigits (by decide) (by decide) h
  simpa [Char.isDigit, isDigit, Char.le_def] using hdigit

private theorem render_append_digit (h : 10 ≤ n) : render n = render (n / 10) ++ [(n % 10).digitChar] := by
  have hlast : n % 10 < 10 := Nat.mod_lt _ (by decide)
  rw [render, render, ← Nat.toDigits_of_lt_base hlast,
    Nat.toDigits_append_toDigits (by decide) (by omega) hlast, Nat.div_add_mod]

theorem ofDigits_render (n : Nat) : ofDigits 0 (render n) = n := by
  induction n using Nat.strongRecOn with
  | ind n ih =>
    have hdigit (d : Nat) (hd : d < 10) : digitValue d.digitChar = d := by
      rw [digitValue, Nat.toNat_digitChar_of_lt_ten hd]
      exact Nat.add_sub_cancel_left ..
    by_cases hsmall : n < 10
    · rw [render, Nat.toDigits_of_lt_base hsmall]
      simp [ofDigits, hdigit n hsmall]
    · rw [render_append_digit (Nat.not_lt.1 hsmall), ofDigits_append, ih (n / 10) (by omega)]
      show n / 10 * 10 + digitValue _ = n
      rw [hdigit _ (Nat.mod_lt _ (by decide))]
      omega

theorem render_ne_nil (n : Nat) : render n ≠ [] := Nat.toDigits_ne_nil

theorem eq_nil_of_render_eq_zero_cons (h : render n = '0' :: ds) : ds = [] := by
  induction n using Nat.strongRecOn generalizing ds with
  | ind n ih =>
    by_cases hsmall : n < 10
    · rw [render, Nat.toDigits_of_lt_base hsmall] at h
      exact (List.cons.inj h).2.symm
    · rw [render_append_digit (Nat.not_lt.1 hsmall)] at h
      obtain ⟨d, cs, hcut⟩ := List.exists_cons_of_ne_nil (render_ne_nil (n / 10))
      rw [hcut, List.cons_append] at h
      obtain ⟨rfl, -⟩ := List.cons.inj h
      -- The tenth would be written as a zero alone, and so be zero.
      have hzero := ofDigits_render (n / 10)
      rw [hcut, ih (n / 10) (by omega) hcut] at hzero
      have hnone : ofDigits 0 ['0'] = 0 := by decide
      omega

theorem ofDigits_zeros (k : Nat) (ds : List Char) :
    ofDigits 0 (List.replicate k '0' ++ ds) = ofDigits 0 ds := by
  induction k with
  | zero => rfl
  | succ k ih => exact ih

end CouponIssuance.Decimal
