import CouponIssuance.Table.Sharded
/-!
# Listing all entries

The listing of a sharded table has one entry for each key that is held, and a sum over distinct keys
of what there is of each key counts everything once.
-/
namespace CouponIssuance

namespace Sharded

variable {κ ν : Type} [DecidableEq κ]

theorem mem_toList_iff {s : Sharded κ ν} {k : κ} {v : ν} : (k, v) ∈ s.toList ↔ s.get? k = some v := by
  rw [toList, List.mem_flatMap]
  constructor
  · rintro ⟨t, ht, he⟩
    obtain ⟨i, hi, rfl⟩ := List.getElem_of_mem ht
    have hhome : s.home k = i := s.homed i hi k (List.mem_map_of_mem (f := Prod.fst) he)
    subst hhome
    exact Table.get?_eq_some_iff.2 he
  · intro h
    have hentry : (k, v) ∈ (s.shard k).entries := Table.get?_eq_some_iff.1 h
    exact ⟨s.shard k, List.get_mem .., hentry⟩

omit [DecidableEq κ] in
/-- No key is listed twice: not in one shard, and not in two, since each key has one home. -/
theorem nodup_keys_toList (s : Sharded κ ν) : (s.toList.map Prod.fst).Nodup := by
  rw [toList, List.map_flatMap, List.Nodup, List.pairwise_flatMap]
  refine ⟨fun t _ => t.distinct, ?_⟩
  rw [List.pairwise_iff_getElem]
  intro i j hi hj hij k hk k' hk' heq
  have hi' : s.hash k % s.shards.length = i := s.homed i hi k hk
  have hj' : s.hash k' % s.shards.length = j := s.homed j hj k' hk'
  rw [heq, hj'] at hi'
  omega

end Sharded

section Total

variable {α κ : Type}

theorem totalBy_congr {f g : α → Nat} {l : List α} (h : ∀ a ∈ l, f a = g a) :
    totalBy f l = totalBy g l := by
  induction l with
  | nil => rfl
  | cons a l ih =>
    have hrest : totalBy f l = totalBy g l := ih fun b hb => h b (List.mem_cons_of_mem a hb)
    have hhead : f a = g a := h a List.mem_cons_self
    simp only [totalBy, List.foldr_cons] at hrest ⊢
    rw [hrest, hhead]

private theorem totalBy_map {β : Type} (f : β → Nat) (g : α → β) (l : List α) :
    totalBy f (l.map g) = totalBy (fun a => f (g a)) l := by
  simp only [totalBy, List.foldr_map]

private theorem totalBy_zero (l : List α) : totalBy (fun _ => 0) l = 0 := by
  induction l with
  | nil => rfl
  | cons a l ih => exact (Nat.zero_add _).trans ih

private theorem totalBy_perm (f : α → Nat) {l l' : List α} (h : l.Perm l') : totalBy f l = totalBy f l' := by
  induction h with
  | nil => rfl
  | cons a _ ih => exact congrArg (f a + ·) ih
  | swap a b l => exact Nat.add_left_comm (f b) (f a) (totalBy f l)
  | trans _ _ ih ih' => exact ih.trans ih'

private theorem totalBy_filter (f : α → Nat) (l : List α) :
    totalBy f (l.filter fun a => f a ≠ 0) = totalBy f l := by
  induction l with
  | nil => rfl
  | cons a l ih =>
    by_cases h : f a = 0
    · rw [List.filter_cons_of_neg (by simp [h]), ih]
      show totalBy f l = f a + totalBy f l
      rw [h, Nat.zero_add]
    · rw [List.filter_cons_of_pos (by simp [h])]
      exact congrArg (f a + ·) ih

variable [DecidableEq κ]

omit [DecidableEq κ] in
theorem totalBy_eq_of_support (f : κ → Nat) {ks cs : List κ} (hks : ks.Nodup) (hcs : cs.Nodup)
    (hmem : ∀ k, f k ≠ 0 → (k ∈ ks ↔ k ∈ cs)) : totalBy f ks = totalBy f cs := by
  rw [← totalBy_filter f ks, ← totalBy_filter f cs]
  apply totalBy_perm
  rw [List.perm_ext_iff_of_nodup (hks.filter _) (hcs.filter _)]
  intro k
  rw [List.mem_filter, List.mem_filter, decide_eq_true_iff]
  exact and_congr_left (hmem k)

theorem Table.totalBy_values {ν : Type} (t : Table κ ν) (count : ν → Nat) (v : ν) :
    totalBy count t.values = totalBy (fun k => count (t.getD k v)) t.keys := by
  rw [values, keys, totalBy_map, totalBy_map]
  apply totalBy_congr
  rintro ⟨k, w⟩ he
  have hw : t.getD k v = w := by
    rw [getD, get?_eq_some_iff.2 he]
    rfl
  exact congrArg count hw.symm

private theorem totalBy_add_one (g : κ → Nat) {ks : List κ} (hd : ks.Nodup) {k : κ} (hk : k ∈ ks) :
    totalBy (fun k' => g k' + if k = k' then 1 else 0) ks = totalBy g ks + 1 := by
  induction ks with
  | nil => cases hk
  | cons k' ks ih =>
    obtain ⟨hn, hks⟩ := List.nodup_cons.1 hd
    simp only [totalBy, List.foldr_cons] at ih ⊢
    rcases List.mem_cons.1 hk with rfl | hrest
    · have hsame : totalBy (fun k' => g k' + if k = k' then 1 else 0) ks = totalBy g ks := by
        apply totalBy_congr
        intro k' hk'
        have hne : k ≠ k' := fun h => hn (h ▸ hk')
        rw [if_neg hne, Nat.add_zero]
      simp only [totalBy] at hsame
      rw [hsame, if_pos rfl]
      omega
    · have hne : k ≠ k' := fun h => hn (h ▸ hrest)
      rw [ih hks hrest, if_neg hne]
      omega

/-- What is counted key by key, over distinct keys that miss none, is the whole. -/
theorem totalBy_countP_key (f : α → κ) {ks : List κ} (hd : ks.Nodup) {l : List α}
    (h : ∀ a ∈ l, f a ∈ ks) : totalBy (fun k => l.countP fun a => f a = k) ks = l.length := by
  induction l with
  | nil => exact totalBy_zero ks
  | cons a l ih =>
    have hrest := ih fun b hb => h b (List.mem_cons_of_mem a hb)
    have hmore := totalBy_add_one (fun k => l.countP fun b => f b = k) hd (h a List.mem_cons_self)
    simp only [List.countP_cons, decide_eq_true_eq, List.length_cons]
    rw [hmore, hrest]

end Total
end CouponIssuance
