/-!
# Finite tables

A table is a list of keyed entries in which no key occurs twice. Inserting under a held key
replaces the value in place; a new key goes to the end. Every operation is described by the view
`get?` and by `size`, so nothing else needs to look at the entries.
-/
namespace CouponIssuance

/-- The sum of what is counted in the parts of a list. -/
def totalBy {α : Type} (count : α → Nat) (parts : List α) : Nat :=
  parts.foldr (fun a n => count a + n) 0

/-- A finite map as a list of entries with distinct keys. -/
structure Table (κ : Type) (ν : Type) where
  entries : List (κ × ν)
  distinct : (entries.map Prod.fst).Nodup

namespace Table

variable {κ ν : Type} [DecidableEq κ]

omit [DecidableEq κ] in
theorem ext_entries {s t : Table κ ν} (h : s.entries = t.entries) : s = t := by
  cases s; cases t; cases h; rfl

instance [DecidableEq ν] : DecidableEq (Table κ ν) := fun s t =>
  if h : s.entries = t.entries then isTrue (ext_entries h)
  else isFalse fun e => h (congrArg entries e)

def empty : Table κ ν := ⟨[], .nil⟩

instance : Inhabited (Table κ ν) := ⟨empty⟩

/-- The value of the first entry under a key. -/
def find (k : κ) : List (κ × ν) → Option ν
  | [] => none
  | e :: es => if e.1 = k then some e.2 else find k es

def get? (t : Table κ ν) (k : κ) : Option ν := find k t.entries

def keys (t : Table κ ν) : List κ := t.entries.map Prod.fst

def values (t : Table κ ν) : List ν := t.entries.map Prod.snd

def size (t : Table κ ν) : Nat := t.entries.length

def contains (t : Table κ ν) (k : κ) : Bool := (t.get? k).isSome

/-- Replaces the value of an entry under `k`, wherever it stands. -/
def replace (k : κ) (v : ν) (es : List (κ × ν)) : List (κ × ν) :=
  es.map fun e => if e.1 = k then (k, v) else e

omit [DecidableEq κ] in
private theorem nodup_of_sublist {l m : List κ} (h : l.Sublist m) (hm : m.Nodup) : l.Nodup :=
  List.Pairwise.sublist h hm

private theorem map_fst_replace (k : κ) (v : ν) (es : List (κ × ν)) :
    (replace k v es).map Prod.fst = es.map Prod.fst := by
  induction es with
  | nil => rfl
  | cons e es ih =>
    simp only [replace, List.map_cons, List.map_map] at ih ⊢
    by_cases h : e.1 = k <;> simp [h, ih]

theorem find_eq_none_iff {k : κ} {es : List (κ × ν)} :
    find k es = none ↔ k ∉ es.map Prod.fst := by
  induction es with
  | nil => simp [find]
  | cons e es ih =>
    by_cases h : e.1 = k
    · simp [find, h]
    · simp [find, h, ih, Ne.symm h]

omit [DecidableEq κ] in
private theorem nodup_append_single {k : κ} {v : ν} {es : List (κ × ν)}
    (hes : (es.map Prod.fst).Nodup) (hk : k ∉ es.map Prod.fst) :
    ((es ++ [(k, v)]).map Prod.fst).Nodup := by
  rw [List.map_append, List.nodup_append]
  refine ⟨hes, by simp, ?_⟩
  intro a ha b hb hab
  simp only [List.map_cons, List.map_nil, List.mem_singleton] at hb
  exact hk (hb ▸ hab ▸ ha)

/-- Puts a value under a key: in place of the old one, or at the end if the key is new. -/
def insert (t : Table κ ν) (k : κ) (v : ν) : Table κ ν :=
  if h : find k t.entries = none then
    ⟨t.entries ++ [(k, v)], nodup_append_single t.distinct (find_eq_none_iff.1 h)⟩
  else
    ⟨replace k v t.entries, by rw [map_fst_replace]; exact t.distinct⟩

def filter (t : Table κ ν) (p : κ → ν → Bool) : Table κ ν :=
  ⟨t.entries.filter fun e => p e.1 e.2,
    nodup_of_sublist (List.filter_sublist.map Prod.fst) t.distinct⟩

def erase (t : Table κ ν) (k : κ) : Table κ ν := t.filter fun k' _ => k' ≠ k

def getD (t : Table κ ν) (k : κ) (v : ν) : ν := (t.get? k).getD v

/-! ## What the operations do to the view -/

private theorem find_replace (k k' : κ) (v : ν) (es : List (κ × ν)) :
    find k' (replace k v es) =
      if k = k' then (find k es).map (fun _ => v) else find k' es := by
  induction es with
  | nil => by_cases h : k = k' <;> simp [replace, find, h]
  | cons e es ih =>
    simp only [replace, List.map_cons] at ih ⊢
    by_cases he : e.1 = k
    · by_cases h : k = k'
      · simp [find, he, h]
      · simp only [he, if_pos, find, h, if_false, ih]
    · by_cases h : k = k'
      · subst h; simp only [he, if_false, find, ih, if_pos]
      · simp only [he, if_false, find, h, ih]

private theorem find_append_single (k k' : κ) (v : ν) (es : List (κ × ν)) (hk : find k es = none) :
    find k' (es ++ [(k, v)]) = if k = k' then some v else find k' es := by
  induction es with
  | nil => simp [find]
  | cons e es ih =>
    have he : e.1 ≠ k := by intro h; simp [find, h] at hk
    have hes : find k es = none := by simpa [find, he] using hk
    by_cases h : k = k'
    · subst h; simp [find, he, ih hes]
    · simp only [List.cons_append, find, ih hes, h, if_false]

@[simp] theorem get?_empty (k : κ) : (empty : Table κ ν).get? k = none := rfl

@[simp] theorem get?_insert (t : Table κ ν) (k k' : κ) (v : ν) :
    (t.insert k v).get? k' = if k = k' then some v else t.get? k' := by
  unfold insert get?
  split
  · next h => exact find_append_single k k' v t.entries h
  · next h =>
    rw [find_replace]
    by_cases hk : k = k'
    · obtain ⟨w, hw⟩ := Option.ne_none_iff_exists'.1 h
      simp [hk ▸ hw, hk]
    · simp [hk]

private theorem find_eq_some_iff {k : κ} {v : ν} {es : List (κ × ν)} (hd : (es.map Prod.fst).Nodup) :
    find k es = some v ↔ (k, v) ∈ es := by
  induction es with
  | nil => simp [find]
  | cons e es ih =>
    obtain ⟨hn, hes⟩ := List.nodup_cons.1 hd
    by_cases h : e.1 = k
    · have hk : ∀ w, (k, w) ∉ es := fun w hw => hn (h ▸ List.mem_map_of_mem (f := Prod.fst) hw)
      simp only [find, h, if_pos, Option.some.injEq, List.mem_cons, hk, or_false]
      constructor
      · rintro rfl; rw [← h]
      · intro he; rw [← he]
    · simp only [find, h, if_false, ih hes, List.mem_cons]
      constructor
      · exact .inr
      · rintro (he | he)
        · exact absurd (congrArg Prod.fst he).symm h
        · exact he

theorem get?_eq_some_iff {t : Table κ ν} {k : κ} {v : ν} :
    t.get? k = some v ↔ (k, v) ∈ t.entries := find_eq_some_iff t.distinct

theorem get?_eq_none_iff {t : Table κ ν} {k : κ} : t.get? k = none ↔ k ∉ t.keys :=
  find_eq_none_iff

theorem contains_iff {t : Table κ ν} {k : κ} : t.contains k = true ↔ k ∈ t.keys := by
  unfold contains
  cases h : t.get? k with
  | none => simp [get?_eq_none_iff.1 h]
  | some v =>
    have := get?_eq_some_iff.1 h
    simp only [Option.isSome_some, true_iff]
    exact List.mem_map_of_mem (f := Prod.fst) this

@[simp] theorem get?_filter (t : Table κ ν) (p : κ → ν → Bool) (k : κ) :
    (t.filter p).get? k = (t.get? k).filter (p k) := by
  cases h : t.get? k with
  | none =>
    rw [Option.filter_none, get?_eq_none_iff]
    intro hk
    obtain ⟨e, he, rfl⟩ := List.mem_map.1 hk
    exact get?_eq_none_iff.1 h (List.mem_map_of_mem (f := Prod.fst) (List.mem_filter.1 he).1)
  | some v =>
    have hv := get?_eq_some_iff.1 h
    by_cases hp : p k v = true
    · rw [Option.filter_some_pos hp]
      exact get?_eq_some_iff.2 (List.mem_filter.2 ⟨hv, hp⟩)
    · rw [Option.filter_some_neg (by simpa using hp), get?_eq_none_iff]
      intro hk
      obtain ⟨e, he, hek⟩ := List.mem_map.1 hk
      obtain ⟨hm, hpe⟩ := List.mem_filter.1 he
      have : t.get? e.1 = some e.2 := get?_eq_some_iff.2 hm
      rw [hek, h] at this
      rw [hek, ← Option.some.inj this] at hpe
      exact hp hpe

@[simp] theorem get?_erase (t : Table κ ν) (k k' : κ) :
    (t.erase k).get? k' = if k = k' then none else t.get? k' := by
  unfold erase
  rw [get?_filter]
  by_cases h : k = k'
  · subst h; cases t.get? k <;> simp [Option.filter]
  · cases t.get? k' <;> simp [Option.filter, h, Ne.symm h]

/-! ## Sizes -/

private theorem length_replace (k : κ) (v : ν) (es : List (κ × ν)) :
    (replace k v es).length = es.length := by simp [replace]

theorem size_insert (t : Table κ ν) (k : κ) (v : ν) :
    (t.insert k v).size = if t.contains k then t.size else t.size + 1 := by
  unfold insert contains size get?
  split
  · next h => simp [h]
  · next h =>
    obtain ⟨w, hw⟩ := Option.ne_none_iff_exists'.1 h
    simp [hw, length_replace]

omit [DecidableEq κ] in
theorem size_filter_le (t : Table κ ν) (p : κ → ν → Bool) : (t.filter p).size ≤ t.size :=
  List.length_filter_le ..

theorem erase_insert_of_not_contains {t : Table κ ν} {k : κ} {v : ν} (h : t.contains k = false) :
    (t.insert k v).erase k = t := by
  have hf : find k t.entries = none := by simpa [contains, get?] using h
  apply ext_entries
  have hk := find_eq_none_iff.1 hf
  simp only [insert, hf, dite_true, erase, filter, List.filter_append]
  rw [List.filter_eq_self.2]
  · simp
  · intro e he
    simp only [decide_eq_true_eq]
    exact fun hek => hk (hek ▸ List.mem_map_of_mem (f := Prod.fst) he)

end Table
end CouponIssuance
