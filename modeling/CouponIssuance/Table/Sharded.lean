import CouponIssuance.Table.Basic
/-!
# Sharded tables

A sharded table spreads its keys over a fixed number of tables by a hash function. Each key lives
in the shard its hash names and nowhere else, which is part of the type; so a lookup needs one
shard, and the whole is read like one table through `get?`.
-/
namespace CouponIssuance

/-- Tables that share the keys among them by hash. -/
structure Sharded (κ : Type) (ν : Type) where
  hash : κ → Nat
  shards : List (Table κ ν)
  nonempty : 0 < shards.length
  homed : ∀ i (h : i < shards.length), ∀ k ∈ shards[i].keys, hash k % shards.length = i

namespace Sharded

variable {κ ν : Type} [DecidableEq κ]

/-- `count` empty shards, but at least one. -/
def create (hash : κ → Nat) (count : Nat) : Sharded κ ν where
  hash := hash
  shards := List.replicate (max count 1) Table.empty
  nonempty := by rw [List.length_replicate]; omega
  homed := by
    intro i h k hk
    rw [List.getElem_replicate] at hk
    simp [Table.keys, Table.empty] at hk

/-- The number of the shard a key belongs to. -/
def home (s : Sharded κ ν) (k : κ) : Nat := s.hash k % s.shards.length

omit [DecidableEq κ] in
private theorem home_lt (s : Sharded κ ν) (k : κ) : s.home k < s.shards.length :=
  Nat.mod_lt _ s.nonempty

def shard (s : Sharded κ ν) (k : κ) : Table κ ν := s.shards.get ⟨s.home k, s.home_lt k⟩

def get? (s : Sharded κ ν) (k : κ) : Option ν := (s.shard k).get? k

def contains (s : Sharded κ ν) (k : κ) : Bool := (s.get? k).isSome

/-- Exchanges the shard of `k` for a table whose keys are its old ones and perhaps `k`. -/
def setShard (s : Sharded κ ν) (k : κ) (t : Table κ ν)
    (ht : ∀ k' ∈ t.keys, k' = k ∨ k' ∈ (s.shard k).keys) : Sharded κ ν where
  hash := s.hash
  shards := s.shards.set (s.home k) t
  nonempty := by simpa using s.nonempty
  homed := by
    intro i h k' hk'
    rw [List.length_set] at h ⊢
    by_cases hi : s.home k = i
    · subst hi
      rw [List.getElem_set_self] at hk'
      rcases ht k' hk' with rfl | hk'
      · rfl
      · exact s.homed _ h k' hk'
    · rw [List.getElem_set_ne hi] at hk'
      exact s.homed i h k' hk'

private theorem mem_keys_insert {t : Table κ ν} {k k' : κ} {v : ν}
    (h : k' ∈ (t.insert k v).keys) : k' = k ∨ k' ∈ t.keys := by
  by_cases hk : k = k'
  · exact .inl hk.symm
  · rw [← Table.contains_iff, Table.contains, Table.get?_insert, if_neg hk] at h
    exact .inr (Table.contains_iff.1 h)

omit [DecidableEq κ] in
private theorem mem_keys_filter {t : Table κ ν} {p : κ → ν → Bool} {k : κ}
    (h : k ∈ (t.filter p).keys) : k ∈ t.keys := by
  obtain ⟨e, he, rfl⟩ := List.mem_map.1 h
  exact List.mem_map_of_mem (f := Prod.fst) (List.mem_filter.1 he).1

def insert (s : Sharded κ ν) (k : κ) (v : ν) : Sharded κ ν :=
  s.setShard k ((s.shard k).insert k v) fun _ => mem_keys_insert

def erase (s : Sharded κ ν) (k : κ) : Sharded κ ν :=
  s.setShard k ((s.shard k).erase k) fun _ h => .inr (mem_keys_filter h)

/-- Keeps the entries that pass a test, shard by shard. -/
def filter (s : Sharded κ ν) (p : κ → ν → Bool) : Sharded κ ν where
  hash := s.hash
  shards := s.shards.map (·.filter p)
  nonempty := by simpa using s.nonempty
  homed := by
    intro i h k hk
    rw [List.length_map] at h ⊢
    rw [List.getElem_map] at hk
    exact s.homed i h k (mem_keys_filter hk)

/-- How many entries there are in all shards together. -/
def size (s : Sharded κ ν) : Nat := totalBy Table.size s.shards

def toList (s : Sharded κ ν) : List (κ × ν) := s.shards.flatMap (·.entries)

private theorem get?_setShard (s : Sharded κ ν) (k : κ) (t : Table κ ν)
    (ht : ∀ k' ∈ t.keys, k' = k ∨ k' ∈ (s.shard k).keys)
    (hkeep : ∀ k', k' ≠ k → t.get? k' = (s.shard k).get? k') (k' : κ) :
    (s.setShard k t ht).get? k' = if k = k' then t.get? k else s.get? k' := by
  have hlen : (s.setShard k t ht).home k' = s.home k' := by simp [home, setShard]
  simp only [get?, shard, hlen]
  by_cases hk : k = k'
  · subst hk; simp [setShard]
  · by_cases hh : s.home k = s.home k'
    · have := hkeep k' (Ne.symm hk)
      simp only [shard, List.get_eq_getElem] at this ⊢
      simp only [setShard, hh, List.getElem_set_self, this, hk, if_false]
    · simp [setShard, List.getElem_set_ne hh, hk]

@[simp] theorem get?_create (hash : κ → Nat) (count : Nat) (k : κ) :
    (create hash count : Sharded κ ν).get? k = none := by
  simp [get?, shard, create]

@[simp] theorem get?_insert (s : Sharded κ ν) (k k' : κ) (v : ν) :
    (s.insert k v).get? k' = if k = k' then some v else s.get? k' := by
  unfold insert
  rw [get?_setShard _ _ _ _ (fun k' h => by simp [Ne.symm h])]
  simp

@[simp] theorem get?_erase (s : Sharded κ ν) (k k' : κ) :
    (s.erase k).get? k' = if k = k' then none else s.get? k' := by
  unfold erase
  rw [get?_setShard _ _ _ _ (fun k' h => by simp [Ne.symm h])]
  simp

@[simp] theorem get?_filter (s : Sharded κ ν) (p : κ → ν → Bool) (k : κ) :
    (s.filter p).get? k = (s.get? k).filter (p k) := by
  simp [get?, shard, home, filter]

theorem erase_insert_of_not_contains {s : Sharded κ ν} {k : κ} {v : ν}
    (h : s.contains k = false) : (s.insert k v).erase k = s := by
  have hs : ((s.shard k).insert k v).erase k = s.shard k :=
    Table.erase_insert_of_not_contains h
  have hshard : (s.insert k v).shard k = (s.shard k).insert k v := by
    simp [shard, insert, setShard, home]
  obtain ⟨hash, shards, h0, hh⟩ := s
  simp only [erase, hshard, hs, setShard, Sharded.mk.injEq]
  simp [insert, setShard, home, shard]

end Sharded
end CouponIssuance
