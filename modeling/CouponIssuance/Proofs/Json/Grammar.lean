import CouponIssuance.Json.Value
import CouponIssuance.Text.Sign
/-!
# The grammar of JSON

Which texts a value is written as. Each relation is between signs and what is left of them once a part
has been taken off their front. Blanks may stand between the parts, and a character of a string may be
written as it is or as an escape. What `render` writes is one of these texts.
-/
namespace CouponIssuance.Json.Grammar

def blanks : List Char := [' ', '\n', '\t', '\r']

/-- Blanks, or none. -/
inductive Blanks : List Sign → List Sign → Prop
  | none (t) : Blanks t t
  | cons {c s t} (hc : c ∈ blanks) (h : Blanks s t) : Blanks (some c :: s) t

/-- The letters that stand for a character after a backslash. -/
def letters : List (Char × Char) :=
  [('"', '"'), ('\\', '\\'), ('/', '/'), ('b', '\x08'), ('f', '\x0c'), ('n', '\n'), ('r', '\r'),
    ('t', '\t')]

/-- A hexadecimal digit, in lower or in upper case. -/
inductive Digit : Char → Nat → Prop
  | decimal {d} (h : d < 10) : Digit (Char.ofNat (0x30 + d)) d
  | lower {d} (h : d < 6) : Digit (Char.ofNat (0x61 + d)) (10 + d)
  | upper {d} (h : d < 6) : Digit (Char.ofNat (0x41 + d)) (10 + d)

/-- Four hexadecimal digits. -/
inductive Hex (n : Nat) : List Sign → List Sign → Prop
  | mk {a b c d w x y z} (ha : Digit a w) (hb : Digit b x) (hc : Digit c y) (hd : Digit d z)
      (hn : ((w * 16 + x) * 16 + y) * 16 + z = n) (t) :
      Hex n (some a :: some b :: some c :: some d :: t) t

/-- A character of a string: as it is, by a letter, by its number, or by a pair of surrogates. -/
inductive Symbol (c : Char) : List Sign → List Sign → Prop
  | plain (hquote : c ≠ '"') (hslash : c ≠ '\\') (hcontrol : 0x20 ≤ c.toNat) (t) :
      Symbol c (some c :: t) t
  | letter {l} (h : (l, c) ∈ letters) (t) : Symbol c ('\\' :: some l :: t) t
  | unit {s t} (h : Hex c.toNat s t) : Symbol c ('\\' :: 'u' :: s) t
  | pair {s u t} (hlarge : 0x10000 ≤ c.toNat)
      (hhigh : Hex (0xD800 + (c.toNat - 0x10000) / 0x400) s ('\\' :: 'u' :: u))
      (hlow : Hex (0xDC00 + (c.toNat - 0x10000) % 0x400) u t) : Symbol c ('\\' :: 'u' :: s) t

/-- What follows the opening quote of a string, the closing one included. -/
inductive Inside : List Char → List Sign → List Sign → Prop
  | close (t) : Inside [] ('"' :: t) t
  | cons {c cs s u t} (hc : Symbol c s u) (hcs : Inside cs u t) : Inside (c :: cs) s t

/-- What stands before the first item of a container, or before a later one. -/
inductive Next : Bool → List Sign → List Sign → Prop
  | first {s t} (h : Blanks s t) : Next true s t
  | later {s u t} (hcomma : Blanks s (',' :: u)) (h : Blanks u t) : Next false s t

mutual

inductive Value : Json → List Sign → List Sign → Prop
  | null (t) : Value .null ('n' :: 'u' :: 'l' :: 'l' :: t) t
  | yes (t) : Value (.bool true) ('t' :: 'r' :: 'u' :: 'e' :: t) t
  | no (t) : Value (.bool false) ('f' :: 'a' :: 'l' :: 's' :: 'e' :: t) t
  | number (n t) : Value (.number n) ((Decimal.render n).map some ++ t) t
  | text {s u t} (h : Inside s.toList u t) : Value (.text s) ('"' :: u) t
  | array {vs s t} (h : Items true vs s t) : Value (.array vs) ('[' :: s) t
  | object {ms s t} (h : Members true ms s t) : Value (.object ms) ('{' :: s) t

/-- What follows the bracket of an array, or one of its items. -/
inductive Items : Bool → List Json → List Sign → List Sign → Prop
  | close {first s t} (h : Blanks s (']' :: t)) : Items first [] s t
  | cons {first v vs s u w t} (hnext : Next first s u) (hv : Value v u w) (hvs : Items false vs w t) :
      Items first (v :: vs) s t

/-- What follows the brace of an object, or one of its members. -/
inductive Members : Bool → List (String × Json) → List Sign → List Sign → Prop
  | close {first s t} (h : Blanks s ('}' :: t)) : Members first [] s t
  | cons {first k v ms s u w x y z t} (hnext : Next first s ('"' :: u)) (hkey : Inside k.toList u w)
      (hcolon : Blanks w (':' :: x)) (hblank : Blanks x y) (hv : Value v y z)
      (hms : Members false ms z t) : Members first ((k, v) :: ms) s t

end

/-- A whole text, with blanks around the value. -/
def Document (v : Json) (s : List Char) : Prop :=
  ∃ u t, Blanks (s.map some) u ∧ Value v u t ∧ Blanks t []

theorem digit_hexDigit {d : Nat} (h : d < 16) : Digit (hexDigit d) d := by
  by_cases hdecimal : d < 10
  · rw [hexDigit, if_pos hdecimal]
    exact .decimal hdecimal
  · obtain ⟨e, rfl⟩ := Nat.exists_eq_add_of_le (Nat.not_lt.1 hdecimal)
    rw [hexDigit, if_neg hdecimal, show 0x57 + (10 + e) = 0x61 + e by omega]
    exact .lower (by omega)

private theorem symbol_escape (c : Char) (t : List Sign) : Symbol c ((escape c).map some ++ t) t := by
  have hletter {l d : Char} (hc : c = d) (h : (l, d) ∈ letters) :
      Symbol c ('\\' :: some l :: t) t :=
    hc ▸ .letter h t
  fun_cases escape c with
  | case1 h => exact hletter h (by decide)
  | case2 _ h => exact hletter h (by decide)
  | case3 _ _ h => exact hletter h (by decide)
  | case4 _ _ _ h => exact hletter h (by decide)
  | case5 _ _ _ _ h => exact hletter h (by decide)
  | case6 _ _ _ _ _ h => exact hletter h (by decide)
  | case7 _ _ _ _ _ _ h => exact hletter h (by decide)
  | case8 _ _ _ _ _ _ _ hcontrol =>
    have hzero : Digit '0' 0 := .decimal (d := 0) (by decide)
    have hhigh := digit_hexDigit (d := c.toNat / 16) (by omega)
    have hlow := digit_hexDigit (d := c.toNat % 16) (by omega)
    exact .unit (.mk hzero hzero hhigh hlow (by omega) t)
  | case9 hquote hslash _ _ _ _ _ hcontrol => exact .plain hquote hslash (Nat.not_lt.1 hcontrol) t

theorem inside_escape (cs : List Char) (t : List Sign) :
    Inside cs ((cs.flatMap escape).map some ++ some '"' :: t) t := by
  induction cs with
  | nil => exact .close t
  | cons c cs ih =>
    rw [List.flatMap_cons, List.map_append, List.append_assoc]
    exact .cons (symbol_escape c _) ih

theorem Items.after_comma {v : Json} {vs : List Json} {s t : List Sign}
    (h : Items true (v :: vs) s t) : Items false (v :: vs) (',' :: s) t := by
  cases h with
  | cons hnext hv hvs =>
    cases hnext with
    | first hblank => exact .cons (.later (.none _) hblank) hv hvs

theorem Members.after_comma {m : String × Json} {ms : List (String × Json)} {s t : List Sign}
    (h : Members true (m :: ms) s t) : Members false (m :: ms) (',' :: s) t := by
  cases h with
  | cons hnext hkey hcolon hblank hv hms =>
    cases hnext with
    | first hfirst => exact .cons (.later (.none _) hfirst) hkey hcolon hblank hv hms

mutual

private theorem value_render : ∀ (v : Json) (t : List Sign), Value v ((render v).map some ++ t) t
  | .null, t => .null t
  | .bool true, t => .yes t
  | .bool false, t => .no t
  | .number n, t => .number n t
  | .text s, t => by
    simp only [render, quoted, List.map_cons, List.map_append, List.cons_append, List.append_assoc]
    exact .text (inside_escape _ t)
  | .array vs, t => by
    simp only [render, List.map_cons, List.map_append, List.cons_append, List.append_assoc]
    exact .array (items_render vs t)
  | .object ms, t => by
    simp only [render, List.map_cons, List.map_append, List.cons_append, List.append_assoc]
    exact .object (members_render ms t)

private theorem items_render : ∀ (vs : List Json) (t : List Sign),
    Items true vs ((renderItems vs).map some ++ some ']' :: t) t
  | [], t => .close (.none _)
  | [v], t => .cons (.first (.none _)) (value_render v _) (.close (.none _))
  | v :: w :: vs, t => by
    rw [renderItems, List.map_append, List.append_assoc, List.map_cons, List.cons_append]
    exact .cons (.first (.none _)) (value_render v _) (items_render (w :: vs) t).after_comma

theorem members_render : ∀ (ms : List (String × Json)) (t : List Sign),
    Members true ms ((renderMembers ms).map some ++ some '}' :: t) t
  | [], t => .close (.none _)
  | [(k, v)], t => by
    simp only [renderMembers, quoted, List.map_cons, List.map_append, List.cons_append, List.append_assoc]
    exact .cons (.first (.none _)) (inside_escape _ _) (.none _) (.none _) (value_render v _)
      (.close (.none _))
  | (k, v) :: m :: ms, t => by
    simp only [renderMembers, quoted, List.map_cons, List.map_append, List.cons_append, List.append_assoc]
    exact .cons (.first (.none _)) (inside_escape _ _) (.none _) (.none _) (value_render v _)
      (members_render (m :: ms) t).after_comma

end

theorem document_render (v : Json) : Document v (render v) := by
  have hv := value_render v []
  rw [List.append_nil] at hv
  exact ⟨_, _, .none _, hv, .none _⟩

variable {v : Json} {vs : List Json} {ms : List (String × Json)} {first : Bool} {s t : List Sign}

theorem Blanks.length_le (h : Blanks s t) : t.length ≤ s.length := by
  induction h with
  | none => exact Nat.le_refl _
  | cons _ _ ih => exact Nat.le_succ_of_le ih

/-- What cannot go on with a number. -/
def Stops (s : List Sign) : Prop :=
  ∀ c, s.head? = some (some c) → Decimal.isDigit c = false ∧ c ≠ '.' ∧ c ≠ 'e' ∧ c ≠ 'E'

theorem Blanks.stops (h : Blanks s t) (ht : Stops t) : Stops s := by
  cases h with
  | none => exact ht
  | @cons c s t hc hs =>
    intro d hd
    cases hd
    simp only [blanks, List.mem_cons, List.not_mem_nil, or_false] at hc
    rcases hc with rfl | rfl | rfl | rfl <;> decide

theorem Members.stops (h : Members false ms s t) : Stops s := by
  cases h with
  | close hblank => exact hblank.stops (by simp [Stops]; decide)
  | cons hnext =>
    cases hnext with
    | later hcomma => exact hcomma.stops (by simp [Stops]; decide)

theorem Next.length_le (h : Next first s t) : t.length ≤ s.length := by
  cases h with
  | first hblank => exact hblank.length_le
  | later hcomma hblank =>
    have hlater := hcomma.length_le
    rw [List.length_cons] at hlater
    have hhere := hblank.length_le
    omega

theorem Symbol.length_le {c : Char} (h : Symbol c s t) : t.length ≤ s.length := by
  have hhex {n : Nat} {s t : List Sign} (h : Hex n s t) : t.length ≤ s.length := by
    cases h with
    | mk => simp only [List.length_cons]; omega
  cases h with
  | plain => simp
  | letter => simp only [List.length_cons]; omega
  | unit hunit =>
    have hlen := hhex hunit
    simp only [List.length_cons]
    omega
  | pair _ hhigh hlow =>
    have hlen := hhex hhigh
    have hlen' := hhex hlow
    simp only [List.length_cons] at hlen ⊢
    omega

theorem Inside.length_le {cs : List Char} (h : Inside cs s t) : t.length ≤ s.length := by
  induction h with
  | close => simp
  | cons hc _ ih => exact Nat.le_trans ih hc.length_le

mutual

theorem Value.length_le : ∀ {v : Json} {s t : List Sign}, Value v s t → t.length ≤ s.length
  | _, _, _, .null _ => by simp only [List.length_cons]; omega
  | _, _, _, .yes _ => by simp only [List.length_cons]; omega
  | _, _, _, .no _ => by simp only [List.length_cons]; omega
  | _, _, _, .number _ _ => by simp
  | _, _, _, .text h => Nat.le_succ_of_le h.length_le
  | _, _, _, .array h => Nat.le_succ_of_le h.length_le
  | _, _, _, .object h => by
    have := h.length_le
    simp only [List.length_cons]
    omega

theorem Items.length_le : ∀ {first : Bool} {vs : List Json} {s t : List Sign},
    Items first vs s t → t.length ≤ s.length
  | _, _, _, _, .close h => by
    have := h.length_le
    simp only [List.length_cons] at this
    omega
  | _, _, _, _, .cons hnext hv hvs =>
    Nat.le_trans hvs.length_le (Nat.le_trans hv.length_le hnext.length_le)

theorem Members.length_le : ∀ {first : Bool} {ms : List (String × Json)} {s t : List Sign},
    Members first ms s t → ms.length + t.length ≤ s.length
  | _, _, _, _, .close h => by
    have := h.length_le
    simp only [List.length_cons, List.length_nil] at this ⊢
    omega
  | _, _, _, _, .cons hnext hkey hcolon hblank hv hms => by
    have h1 := hnext.length_le
    have h2 := hkey.length_le
    have h3 := hcolon.length_le
    have h4 := hblank.length_le
    have h5 := hv.length_le
    have h6 := hms.length_le
    simp only [List.length_cons] at h1 h3 ⊢
    omega

end

end CouponIssuance.Json.Grammar
