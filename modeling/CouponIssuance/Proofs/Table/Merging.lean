import CouponIssuance.Proofs.Table.Listing
/-!
# A sharded table as one table

A table that looks every key up as a sharded one does holds the same entries, in whatever order. So
the two have the same size, and a filter takes as many entries from the one as from the other: what it
takes from all shards together is what it takes from each.
-/
namespace CouponIssuance

section Filter

variable {κ ν : Type}

theorem Table.size_sub_filter (t : Table κ ν) (p : κ → ν → Bool) :
    t.size - (t.filter p).size = t.entries.countP fun e => !p e.1 e.2 := by
  have hkept : (t.filter p).size = t.entries.countP fun e => p e.1 e.2 :=
    List.countP_eq_length_filter.symm
  have hparts : t.size = t.entries.countP (fun e => p e.1 e.2) +
      t.entries.countP fun e => !p e.1 e.2 := by
    simpa [size] using List.length_eq_countP_add_countP (fun e => p e.1 e.2) (l := t.entries)
  omega

end Filter

namespace Sharded

variable {κ ν : Type} [DecidableEq κ]

/-- A table that looks every key up alike. -/
def Matches (s : Sharded κ ν) (t : Table κ ν) : Prop := ∀ k, s.get? k = t.get? k

variable {s : Sharded κ ν} {t : Table κ ν}

theorem matches_create (hash : κ → Nat) (count : Nat) :
    (create hash count : Sharded κ ν).Matches Table.empty := by
  intro k
  rw [get?_create, Table.get?_empty]

theorem Matches.insert (h : s.Matches t) (k : κ) (v : ν) : (s.insert k v).Matches (t.insert k v) := by
  intro k'
  rw [get?_insert, Table.get?_insert, h]

theorem Matches.erase (h : s.Matches t) (k : κ) : (s.erase k).Matches (t.erase k) := by
  intro k'
  rw [get?_erase, Table.get?_erase, h]

theorem Matches.filter (h : s.Matches t) (p : κ → ν → Bool) : (s.filter p).Matches (t.filter p) := by
  intro k
  rw [get?_filter, Table.get?_filter, h]

private theorem Matches.perm (h : s.Matches t) : s.toList.Perm t.entries := by
  have apart : ∀ e e' : κ × ν, e.1 ≠ e'.1 → e ≠ e' := fun _ _ hne heq => hne (congrArg Prod.fst heq)
  have hs : s.toList.Nodup := List.Pairwise.of_map Prod.fst apart s.nodup_keys_toList
  have ht : t.entries.Nodup := List.Pairwise.of_map Prod.fst apart t.distinct
  rw [List.perm_ext_iff_of_nodup hs ht]
  rintro ⟨k, v⟩
  rw [mem_toList_iff, h, Table.get?_eq_some_iff]

omit [DecidableEq κ] in
private theorem countP_toList (s : Sharded κ ν) (p : κ × ν → Bool) :
    s.toList.countP p = totalBy (fun t => t.entries.countP p) s.shards := by
  rw [toList, List.countP_flatMap, totalBy, List.sum, List.foldr_map]
  rfl

omit [DecidableEq κ] in
private theorem size_eq_length (s : Sharded κ ν) : s.size = s.toList.length := by
  rw [← List.countP_true, countP_toList]
  apply totalBy_congr
  intro t _
  rw [List.countP_true, Table.size]

theorem Matches.size (h : s.Matches t) : s.size = t.size := by
  rw [size_eq_length, h.perm.length_eq, Table.size]

omit [DecidableEq κ] in
theorem size_sub_filter (s : Sharded κ ν) (p : κ → ν → Bool) :
    s.size - (s.filter p).size = totalBy (fun t => t.size - (t.filter p).size) s.shards := by
  have hparts : totalBy Table.size s.shards = totalBy (fun t => t.size - (t.filter p).size) s.shards +
      totalBy Table.size (s.shards.map (·.filter p)) := by
    induction s.shards with
    | nil => rfl
    | cons t ts ih =>
      have hle := t.size_filter_le p
      simp only [totalBy, List.map_cons, List.foldr_cons] at ih ⊢
      omega
  simp only [size, filter]
  omega

/-- A filter takes as many entries from the shards as do not pass it in the table. -/
theorem Matches.size_sub_filter (h : s.Matches t) (p : κ → ν → Bool) :
    s.size - (s.filter p).size = t.entries.countP fun e => !p e.1 e.2 := by
  rw [h.size, (h.filter p).size, Table.size_sub_filter]

end Sharded
end CouponIssuance
