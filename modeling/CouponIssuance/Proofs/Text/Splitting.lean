import CouponIssuance.Text.Blank
/-!
# Cutting texts apart

Splitting and trimming, each said by how the text is made up of the parts it is cut into. There is one way
only to make it up so, which is the way it is cut.
-/
namespace CouponIssuance.Text

variable {sep : Char} {text core before after : List Char} {parts : List (List Char)}

private theorem splitOn_eq (sep : Char) (text : List Char) : splitOn sep text = List.splitOn sep text := by
  rw [List.splitOn_eq_splitOnP]
  induction text with
  | nil => rw [splitOn, List.splitOnP_nil]
  | cons c cs ih =>
    rw [splitOn, ih, List.splitOnP_cons_eq_if_modifyHead]
    obtain ⟨part, parts, hparts⟩ :=
      List.exists_cons_of_ne_nil (List.splitOnP_ne_nil (fun x => x == sep) cs)
    rw [hparts]
    by_cases hc : c = sep <;> simp [hc]

private theorem not_mem_of_mem_splitOn {part : List Char} (h : part ∈ splitOn sep text) : sep ∉ part := by
  induction text generalizing part with
  | nil =>
    rw [splitOn, List.mem_singleton] at h
    rw [h]
    exact List.not_mem_nil
  | cons c cs ih =>
    rw [splitOn] at h
    split at h
    · rcases List.mem_cons.1 h with rfl | h
      · exact List.not_mem_nil
      · exact ih h
    · next hc =>
      split at h
      · rw [List.mem_singleton] at h
        subst h
        simpa using Ne.symm hc
      · next first parts hparts =>
        -- the first part has become longer by a character that does not separate
        rcases List.mem_cons.1 h with rfl | h
        · have hfirst := ih (hparts ▸ List.mem_cons_self : first ∈ splitOn sep cs)
          exact List.not_mem_cons_of_ne_of_not_mem (Ne.symm hc) hfirst
        · exact ih (hparts ▸ List.mem_cons_of_mem _ h)

/-- The text is made up of the parts, with a separator between any two and no others. -/
structure Joins (sep : Char) (parts : List (List Char)) (text : List Char) : Prop where
  nonempty : parts ≠ []
  clean : ∀ part ∈ parts, sep ∉ part
  whole : text = [sep].intercalate parts

theorem joins_iff : Joins sep parts text ↔ splitOn sep text = parts := by
  constructor
  · rintro ⟨hnonempty, hclean, rfl⟩
    rw [splitOn_eq]
    exact List.splitOn_intercalate sep hclean hnonempty
  · rintro rfl
    refine ⟨?_, fun part => not_mem_of_mem_splitOn, ?_⟩
    · rw [splitOn_eq]
      exact List.splitOn_ne_nil sep text
    · rw [splitOn_eq]
      exact (List.intercalate_splitOn sep).symm

theorem splitFirst_eq_none_iff : splitFirst sep text = none ↔ sep ∉ text := by
  induction text with
  | nil => simp [splitFirst]
  | cons c cs ih =>
    by_cases hc : c = sep
    · simp [splitFirst, hc]
    · simp [splitFirst, hc, ih, Ne.symm hc]

theorem splitFirst_eq_some_iff :
    splitFirst sep text = some (before, after) ↔ sep ∉ before ∧ text = before ++ sep :: after := by
  induction text generalizing before with
  | nil => simp [splitFirst]
  | cons c cs ih =>
    by_cases hc : c = sep
    · -- nothing stands before a separator that comes first
      cases before with
      | nil => simp [splitFirst, hc]
      | cons d before => simp +contextual [splitFirst, hc, eq_comm]
    · simp only [splitFirst, if_neg hc, Option.map_eq_some_iff]
      constructor
      · rintro ⟨⟨before', after'⟩, hrest, heq⟩
        cases heq
        obtain ⟨hclean, rfl⟩ := ih.1 hrest
        exact ⟨List.not_mem_cons_of_ne_of_not_mem (Ne.symm hc) hclean, rfl⟩
      · rintro ⟨hclean, heq⟩
        cases before with
        | nil => exact absurd (List.cons.inj heq).1 hc
        | cons d before =>
          cases heq
          exact ⟨(before, after), ih.2 ⟨List.not_mem_of_not_mem_cons hclean, rfl⟩, rfl⟩

/-- There is nothing but white space. -/
def Blank (text : List Char) : Prop := ∀ c ∈ text, isBlank c = true

/-- `core` is the text without the white space at its two ends. -/
structure Trims (text core : List Char) : Prop where
  around : ∃ left right, text = left ++ (core ++ right) ∧ Blank left ∧ Blank right
  first : ∀ c, core.head? = some c → isBlank c = false
  last : ∀ c, core.getLast? = some c → isBlank c = false

private theorem trimStart_eq_iff : trimStart text = core ↔
    (∃ left, text = left ++ core ∧ Blank left) ∧ ∀ c, core.head? = some c → isBlank c = false := by
  rw [trimStart]
  constructor
  · rintro rfl
    refine ⟨⟨text.takeWhile isBlank, List.takeWhile_append_dropWhile.symm, ?_⟩, ?_⟩
    · exact List.all_eq_true.1 List.all_takeWhile
    · intro c hc
      have hfirst := List.head?_dropWhile_not isBlank text
      rw [hc] at hfirst
      exact hfirst
  · rintro ⟨⟨left, rfl, hleft⟩, hfirst⟩
    rw [List.dropWhile_append_of_pos hleft]
    cases core with
    | nil => rfl
    | cons c cs => rw [List.dropWhile_cons_of_neg (by simp [hfirst c rfl])]

private theorem trimEnd_eq_iff : trimEnd text = core ↔
    (∃ right, text = core ++ right ∧ Blank right) ∧ ∀ c, core.getLast? = some c → isBlank c = false := by
  rw [trimEnd, List.reverse_eq_iff, ← trimStart, trimStart_eq_iff, List.head?_reverse]
  refine and_congr_left fun _ => ⟨?_, ?_⟩
  · rintro ⟨left, htext, hleft⟩
    refine ⟨left.reverse, ?_, fun c hc => hleft c (List.mem_reverse.1 hc)⟩
    rw [← List.reverse_reverse text, htext, List.reverse_append, List.reverse_reverse]
  · rintro ⟨right, rfl, hright⟩
    exact ⟨right.reverse, List.reverse_append .., fun c hc => hright c (List.mem_reverse.1 hc)⟩

theorem trims_iff : Trims text core ↔ trim text = core := by
  constructor
  · rintro ⟨⟨left, right, rfl, hleft, hright⟩, hfirst, hlast⟩
    cases core with
    | nil =>
      have hstart : trimStart (left ++ ([] ++ right)) = [] := by
        refine trimStart_eq_iff.2 ⟨⟨left ++ right, by simp, fun c hc => ?_⟩, by simp⟩
        exact (List.mem_append.1 hc).elim (hleft c) (hright c)
      rw [trim, hstart]
      rfl
    | cons c cs =>
      have hstart : trimStart (left ++ (c :: cs ++ right)) = c :: cs ++ right :=
        trimStart_eq_iff.2 ⟨⟨left, rfl, hleft⟩, hfirst⟩
      rw [trim, hstart]
      exact trimEnd_eq_iff.2 ⟨⟨right, rfl, hright⟩, hlast⟩
  · rintro rfl
    obtain ⟨⟨left, hstart, hleft⟩, hfirst⟩ := trimStart_eq_iff.1 (rfl : trimStart text = _)
    obtain ⟨⟨right, hend, hright⟩, hlast⟩ := trimEnd_eq_iff.1 (rfl : trimEnd (trimStart text) = _)
    refine ⟨⟨left, right, ?_, hleft, hright⟩, fun c hc => hfirst c ?_, hlast⟩
    · rw [trim, ← hend]
      exact hstart
    · rw [trim] at hc
      rw [hend, List.head?_append, hc]
      rfl

theorem blank_nil : Blank [] := fun _ hc => by cases hc

theorem not_mem_of_blank (h : Blank text) (hsep : isBlank sep = false) : sep ∉ text := by
  intro hmem
  rw [h sep hmem] at hsep
  cases hsep

theorem trims_of_blank (h : Blank text) : Trims text [] where
  around := ⟨text, [], by simp, h, blank_nil⟩
  first c hc := by cases hc
  last c hc := by cases hc

theorem trims_of_solid {left right : List Char} (hleft : Blank left) (hright : Blank right)
    (hcore : ∀ c ∈ core, isBlank c = false) : Trims (left ++ (core ++ right)) core where
  around := ⟨left, right, rfl, hleft, hright⟩
  first c hc := hcore c (List.mem_of_mem_head? hc)
  last c hc := hcore c (List.mem_of_getLast? hc)

end CouponIssuance.Text
