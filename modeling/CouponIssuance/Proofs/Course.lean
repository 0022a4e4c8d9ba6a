/-!
# The course of things

A state as it starts, and what happens to it, one step after another.
-/
namespace CouponIssuance

structure Course (σ ε : Type) where
  step : σ → ε → σ
  start : σ
  steps : List ε

namespace Course

variable {σ ε α : Type} (course : Course σ ε)

/-- The state after the first `n` steps. -/
def after (n : Nat) : σ := (course.steps.take n).foldl course.step course.start

/-- What is named in the first `n` steps. -/
def names (name? : ε → Option α) (n : Nat) : List α := (course.steps.take n).filterMap name?

variable {name? : ε → Option α} {n : Nat} {e : ε}

theorem after_succ (h : course.steps[n]? = some e) :
    course.after (n + 1) = course.step (course.after n) e := by
  simp [after, List.take_add_one, h]

theorem after_succ_of_none (h : course.steps[n]? = none) : course.after (n + 1) = course.after n := by
  simp [after, List.take_add_one, h]

/-- What holds at one moment and is kept by every step holds at every later moment. -/
theorem along {m : Nat} (hmn : m ≤ n) {P : σ → Prop} (start : P (course.after m))
    (keep : ∀ {k e}, m ≤ k → k < n → course.steps[k]? = some e → P (course.after k) →
      P (course.after (k + 1))) : P (course.after n) := by
  induction hmn with
  | refl => exact start
  | @step n hmn ih =>
    have hbefore := ih fun hk hkn => keep hk (Nat.lt_succ_of_lt hkn)
    cases he : course.steps[n]? with
    | none => rw [course.after_succ_of_none he]; exact hbefore
    | some e => exact keep hmn (Nat.lt_succ_self n) he hbefore

theorem names_succ (h : course.steps[n]? = some e) :
    course.names name? (n + 1) = course.names name? n ++ (name? e).toList := by
  cases ha : name? e <;> simp [names, List.take_add_one, h, ha]

theorem names_succ_of_none (h : course.steps[n]? = none) :
    course.names name? (n + 1) = course.names name? n := by
  simp [names, List.take_add_one, h]

theorem not_mem_names (hd : (course.steps.filterMap name?).Nodup) (h : course.steps[n]? = some e)
    {a : α} (ha : name? e = some a) : a ∉ course.names name? n := by
  intro hm
  have hsplit : (course.steps.take (n + 1)).filterMap name? ++
      (course.steps.drop (n + 1)).filterMap name? = course.steps.filterMap name? := by
    rw [← List.filterMap_append, List.take_append_drop]
  rw [← hsplit, List.take_add_one, h] at hd
  have hfirst := (List.nodup_append.1 hd).1
  simp only [Option.toList_some, List.filterMap_append, List.nodup_append] at hfirst
  exact hfirst.2.2 a hm a (by simp [ha]) rfl

end Course

/-- The moment after the last of the first `n` steps in which something happens; the start if it
does not. -/
def lastAt (happens : Nat → Prop) [DecidablePred happens] : Nat → Nat
  | 0 => 0
  | n + 1 => if happens n then n + 1 else lastAt happens n

theorem lastAt_le (happens : Nat → Prop) [DecidablePred happens] (n : Nat) : lastAt happens n ≤ n := by
  induction n with
  | zero => exact Nat.le_refl 0
  | succ n ih =>
    rw [lastAt]
    split
    · exact Nat.le_refl _
    · exact Nat.le_succ_of_le ih

end CouponIssuance
