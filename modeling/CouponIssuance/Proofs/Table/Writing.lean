import CouponIssuance.Table.Sharded
/-!
# Writing to tables

A key written twice keeps the second value, and to write the value that is held changes nothing.
A count over the values changes by what the new value adds.
-/
namespace CouponIssuance

namespace Table

variable {κ ν : Type} [DecidableEq κ]

private theorem replace_of_not_mem {k : κ} {v : ν} {es : List (κ × ν)}
    (h : k ∉ es.map Prod.fst) : replace k v es = es := by
  induction es with
  | nil => rfl
  | cons e es ih =>
    simp only [List.map_cons, List.mem_cons, not_or] at h
    have he : e.1 ≠ k := Ne.symm h.1
    simp only [replace, List.map_cons, he, if_false] at ih ⊢
    rw [ih h.2]

private theorem replace_replace (k : κ) (v w : ν) (es : List (κ × ν)) :
    replace k w (replace k v es) = replace k w es := by
  simp only [replace, List.map_map]
  apply List.map_congr_left
  intro e _
  by_cases he : e.1 = k <;> simp [he]

private theorem replace_of_find {k : κ} {v : ν} {es : List (κ × ν)}
    (hd : (es.map Prod.fst).Nodup) (h : find k es = some v) : replace k v es = es := by
  induction es with
  | nil => rfl
  | cons e es ih =>
    obtain ⟨hn, hes⟩ := List.nodup_cons.1 hd
    by_cases he : e.1 = k
    · have hv : e.2 = v := by simpa [find, he] using h
      have hrest : replace k v es = es := replace_of_not_mem (he ▸ hn)
      simp only [replace, List.map_cons, he, if_true] at hrest ⊢
      rw [hrest, ← he, ← hv]
    · have hrest := ih hes (by simpa [find, he] using h)
      simp only [replace, List.map_cons, he, if_false] at hrest ⊢
      rw [hrest]

theorem insert_insert (t : Table κ ν) (k : κ) (v w : ν) :
    (t.insert k v).insert k w = t.insert k w := by
  have held : find k (t.insert k v).entries ≠ none := by
    have := get?_insert t k k v
    simp only [if_true] at this
    simp only [get?] at this
    simp [this]
  apply ext_entries
  rw [insert, dif_neg held]
  by_cases h : find k t.entries = none
  · have hk := find_eq_none_iff.1 h
    have hrest : replace k w t.entries = t.entries := replace_of_not_mem hk
    simp only [insert, h, dite_true]
    simp only [replace, List.map_append, List.map_cons, List.map_nil, if_true] at hrest ⊢
    rw [hrest]
  · simp only [insert, h, dite_false, replace_replace]

theorem insert_of_get? {t : Table κ ν} {k : κ} {v : ν} (h : t.get? k = some v) :
    t.insert k v = t := by
  apply ext_entries
  have held : find k t.entries ≠ none := by
    intro hn
    simp only [get?, hn] at h
    cases h
  rw [insert, dif_neg held]
  exact replace_of_find t.distinct h

/-- How many values pass a test. -/
def count (t : Table κ ν) (p : ν → Bool) : Nat := t.values.countP p

theorem count_insert_new {t : Table κ ν} {k : κ} (h : t.get? k = none) (v : ν) (p : ν → Bool) :
    (t.insert k v).count p = t.count p + if p v then 1 else 0 := by
  have hf : find k t.entries = none := h
  simp only [count, values, insert, hf, dite_true, List.map_append, List.countP_append]
  simp [List.countP_cons]

private theorem countP_replace {k : κ} {v w : ν} {es : List (κ × ν)} (p : ν → Bool)
    (hd : (es.map Prod.fst).Nodup) (h : find k es = some v) (hp : p w = p v) :
    ((replace k w es).map Prod.snd).countP p = (es.map Prod.snd).countP p := by
  induction es with
  | nil => rfl
  | cons e es ih =>
    obtain ⟨hn, hes⟩ := List.nodup_cons.1 hd
    by_cases he : e.1 = k
    · have hv : e.2 = v := by simpa [find, he] using h
      have hrest : replace k w es = es := replace_of_not_mem (he ▸ hn)
      simp only [replace, List.map_cons, he, if_true, List.countP_cons] at hrest ⊢
      rw [hrest, hp, hv]
    · have hrest := ih hes (by simpa [find, he] using h)
      simp only [replace, List.map_cons, he, if_false, List.countP_cons] at hrest ⊢
      rw [hrest]

theorem count_insert_held {t : Table κ ν} {k : κ} {v w : ν} {p : ν → Bool}
    (h : t.get? k = some v) (hp : p w = p v) : (t.insert k w).count p = t.count p := by
  have held : find k t.entries ≠ none := by
    intro hn
    simp only [get?, hn] at h
    cases h
  simp only [count, values, insert, held, dite_false]
  exact countP_replace p t.distinct h hp

theorem mem_values_iff {t : Table κ ν} {v : ν} : v ∈ t.values ↔ ∃ k, t.get? k = some v := by
  constructor
  · intro h
    obtain ⟨e, he, rfl⟩ := List.mem_map.1 h
    exact ⟨e.1, get?_eq_some_iff.2 he⟩
  · rintro ⟨k, hk⟩
    exact List.mem_map_of_mem (f := Prod.snd) (get?_eq_some_iff.1 hk)

theorem map_values_of_named {t : Table κ ν} {name : ν → κ}
    (h : ∀ k v, t.get? k = some v → name v = k) : t.values.map name = t.keys := by
  rw [values, keys, List.map_map]
  apply List.map_congr_left
  intro entry hentry
  exact h entry.1 entry.2 (get?_eq_some_iff.2 hentry)

theorem count_eq_zero {t : Table κ ν} {p : ν → Bool} (h : ∀ k v, t.get? k = some v → p v = false) :
    t.count p = 0 := by
  apply List.countP_eq_zero.2
  intro v hv
  obtain ⟨k, hk⟩ := mem_values_iff.1 hv
  simp [h k v hk]

end Table

namespace Sharded

variable {κ ν : Type} [DecidableEq κ]

theorem insert_insert (s : Sharded κ ν) (k : κ) (v w : ν) :
    (s.insert k v).insert k w = s.insert k w := by
  have hshard : (s.insert k v).shard k = (s.shard k).insert k v := by
    simp [shard, insert, setShard, home]
  obtain ⟨hash, shards, h0, hh⟩ := s
  rw [insert]
  simp only [hshard, Table.insert_insert, setShard]
  simp [insert, setShard, home, shard]

section Home

variable (s : Sharded κ ν) (k : κ)

@[simp] theorem home_insert (v : ν) (k' : κ) : (s.insert k v).home k' = s.home k' := by
  simp [home, insert, setShard]

@[simp] theorem home_erase (k' : κ) : (s.erase k).home k' = s.home k' := by
  simp [home, erase, setShard]

omit [DecidableEq κ] in
@[simp] theorem home_filter (p : κ → ν → Bool) : (s.filter p).home k = s.home k := by
  simp [home, filter]

end Home
end Sharded
end CouponIssuance
