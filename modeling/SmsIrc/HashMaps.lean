import Mathlib.Data.List.AList
import Mathlib.Data.List.Rotate

/-!
Hash maps as association lists with distinct keys. The order in which a map is
iterated is not part of this: whoever iterates passes the entries through an
arbitrary permutation.
-/

namespace SmsIrc.HashMaps

universe u v

abbrev HashMap (κ : Type u) (ν : Type v) := AList fun _ : κ => ν

variable {κ : Type u} {ν : Type v}

/-- A rearrangement of lists, for orders that a program may not rely on. -/
structure Shuffle where
  run : {α : Type} → List α → List α
  perm : ∀ {α : Type} (xs : List α), (run xs).Perm xs

/-- The order that happens to be the stored one. -/
def Shuffle.stored : Shuffle where
  run xs := xs
  perm _ := .refl _

theorem Shuffle.mem_run (o : Shuffle) {α : Type} {xs : List α} {x : α} :
    x ∈ o.run xs ↔ x ∈ xs := (o.perm xs).mem_iff

/-- The stored order, entered at another place. -/
def Shuffle.rotated (k : Nat) : Shuffle where
  run xs := xs.rotate k
  perm xs := List.rotate_perm xs k

/-- If what is read off the chosen elements is the same in every order, it is the same for
all of them. -/
theorem Shuffle.eq_of_forall {α β : Type} {p : α → Bool} {f : α → β} {xs : List α} {ys : List β}
    (h : ∀ o : Shuffle, ((o.run xs).filter p).map f = ys) {x y : α} (hx : x ∈ xs.filter p)
    (hy : y ∈ xs.filter p) : f x = f y := by
  have hstored : (xs.filter p).map f = ys := h .stored
  cases hsplit : xs.filter p with
  | nil =>
      rw [hsplit] at hx
      cases hx
  | cons a rest =>
      obtain ⟨before, after, rfl, hbefore, ha, hafter⟩ := List.filter_eq_cons_iff.mp hsplit
      -- enter the list after the first chosen element
      have hrun : (Shuffle.rotated (before ++ [a]).length).run (before ++ a :: after) =
          after ++ (before ++ [a]) := by
        rw [List.append_cons before a after]
        exact List.rotate_append_length_eq _ _
      have hrotated := h (.rotated (before ++ [a]).length)
      have hnone : before.filter p = [] := List.filter_eq_nil_iff.mpr hbefore
      have hrest : ((after ++ (before ++ [a])).filter p).map f = rest.map f ++ [f a] := by
        simp [hnone, ha, hafter]
      rw [hrun, ← hstored, hsplit, hrest] at hrotated
      have hone : (f a :: rest.map f).rotate 1 = f a :: rest.map f := by
        rw [List.rotate_cons_succ, List.rotate_zero, hrotated, List.map_cons]
      have : Nonempty β := ⟨f a⟩
      obtain ⟨b, hb⟩ := List.rotate_one_eq_self_iff_eq_replicate.mp hone
      have hall : ∀ z ∈ (before ++ a :: after).filter p, f z = b := by
        intro z hz
        rw [hsplit] at hz
        have hmem : f z ∈ f a :: rest.map f := List.mem_map_of_mem hz
        rw [hb] at hmem
        exact List.eq_of_mem_replicate hmem
      rw [hall x hx, hall y hy]

/-- What is read off the chosen elements of a list does not depend on its order exactly
if the same is read off all of them. -/
theorem Shuffle.forall_map_filter_iff {α β : Type} {p : α → Bool} {f : α → β} {xs : List α}
    {ys : List β} (hys : ys.Perm ((xs.filter p).map f)) :
    (∀ o : Shuffle, ((o.run xs).filter p).map f = ys) ↔
      ∀ x ∈ xs.filter p, ∀ y ∈ xs.filter p, f x = f y := by
  refine ⟨fun h x hx y hy => Shuffle.eq_of_forall h hx hy, fun h o => ?_⟩
  have hperm : (((o.run xs).filter p).map f).Perm ys :=
    (((o.perm xs).filter p).map f).trans hys.symm
  cases hsplit : xs.filter p with
  | nil =>
      rw [hsplit] at hys
      rw [hys.eq_nil] at hperm ⊢
      exact hperm.eq_nil
  | cons a rest =>
      have ha : a ∈ xs.filter p := by
        rw [hsplit]
        exact List.mem_cons_self
      have hrep : ys = List.replicate ys.length (f a) := by
        refine List.eq_replicate_of_mem fun b hb => ?_
        obtain ⟨z, hz, rfl⟩ := List.mem_map.mp (hys.mem_iff.mp hb)
        exact h z hz a ha
      rw [hrep] at hperm ⊢
      exact List.perm_replicate.mp hperm

/-- The entries as pairs. -/
def pairs (m : HashMap κ ν) : List (κ × ν) :=
  m.entries.map fun e => (e.1, e.2)

theorem mem_pairs [DecidableEq κ] {m : HashMap κ ν} {k : κ} {v : ν} :
    (k, v) ∈ pairs m ↔ m.lookup k = some v := by
  rw [← Option.mem_def, AList.mem_lookup_iff]
  simp only [pairs, List.mem_map, Prod.mk.injEq]
  constructor
  · rintro ⟨⟨k', v'⟩, he, rfl, rfl⟩
    exact he
  · intro he
    exact ⟨⟨k, v⟩, he, rfl, rfl⟩

/-- Keep the entries that satisfy `p`. -/
def retain (p : κ → ν → Bool) (m : HashMap κ ν) : HashMap κ ν where
  entries := m.entries.filter fun e => p e.1 e.2
  nodupKeys := m.nodupKeys.sublist List.filter_sublist

theorem lookup_retain_eq_some [DecidableEq κ] {p : κ → ν → Bool}
    {m : HashMap κ ν} {k : κ} {v : ν} :
    (retain p m).lookup k = some v ↔ m.lookup k = some v ∧ p k v = true := by
  rw [← Option.mem_def, AList.mem_lookup_iff, ← Option.mem_def,
    AList.mem_lookup_iff]
  simp [retain, List.mem_filter]

theorem mem_retain [DecidableEq κ] {p : κ → ν → Bool} {m : HashMap κ ν}
    {k : κ} : k ∈ retain p m ↔ ∃ v, m.lookup k = some v ∧ p k v = true := by
  rw [← AList.lookup_isSome, Option.isSome_iff_exists]
  simp only [lookup_retain_eq_some]

theorem mem_iff_lookup [DecidableEq κ] {m : HashMap κ ν} {k : κ} :
    k ∈ m ↔ ∃ v, m.lookup k = some v := by
  rw [← AList.lookup_isSome, Option.isSome_iff_exists]

/-- `iter_mut`: change each value. -/
def mapValues (f : κ → ν → ν) (m : HashMap κ ν) : HashMap κ ν where
  entries := m.entries.map fun e => ⟨e.1, f e.1 e.2⟩
  nodupKeys := by
    have h := m.nodupKeys
    rw [List.NodupKeys, List.keys] at h ⊢
    rwa [List.map_map]

theorem pairs_mapValues (f : κ → ν → ν) (m : HashMap κ ν) :
    pairs (mapValues f m) = (pairs m).map fun e => (e.1, f e.1 e.2) := by
  simp [pairs, mapValues]

theorem pairs_retain (p : κ → ν → Bool) (m : HashMap κ ν) :
    pairs (retain p m) = (pairs m).filter fun e => p e.1 e.2 := by
  rw [pairs, retain, pairs, List.filter_map]
  rfl

theorem lookup_insert [DecidableEq κ] (m : HashMap κ ν) (k j : κ) (v : ν) :
    (m.insert k v).lookup j = if j = k then some v else m.lookup j := by
  split
  · rename_i h
    subst h
    exact AList.lookup_insert m
  · rename_i h
    exact AList.lookup_insert_ne h

theorem lookup_erase [DecidableEq κ] (m : HashMap κ ν) (k j : κ) :
    (m.erase k).lookup j = if j = k then none else m.lookup j := by
  split
  · rename_i h
    subst h
    exact AList.lookup_erase j m
  · rename_i h
    exact AList.lookup_erase_ne h

theorem nodup_keys_pairs (m : HashMap κ ν) : ((pairs m).map Prod.fst).Nodup := by
  have h := m.nodupKeys
  rw [List.NodupKeys, List.keys] at h
  rw [pairs, List.map_map]
  exact h

theorem pairs_insert [DecidableEq κ] (m : HashMap κ ν) (k : κ) (v : ν) :
    pairs (m.insert k v) = (k, v) :: pairs (m.erase k) := rfl

theorem pairs_erase_of_notMem [DecidableEq κ] {m : HashMap κ ν} {k : κ} (h : k ∉ m) :
    pairs (m.erase k) = pairs m := by
  have hentries : (m.erase k).entries = m.entries := List.kerase_of_notMem_keys h
  rw [pairs, hentries, pairs]

/-- The entry of a key, and the others. -/
theorem pairs_perm_of_lookup [DecidableEq κ] {m : HashMap κ ν} {k : κ} {v : ν}
    (h : m.lookup k = some v) : (pairs m).Perm ((k, v) :: pairs (m.erase k)) := by
  have hkey : k ∈ m.keys := AList.mem_keys.mp (mem_iff_lookup.mpr ⟨v, h⟩)
  obtain ⟨w, before, after, -, hentries, herase⟩ := List.exists_of_kerase hkey
  have hw : (k, w) ∈ pairs m := by
    rw [pairs, hentries]
    simp
  rw [mem_pairs, h, Option.some.injEq] at hw
  subst hw
  have heq : (m.erase k).entries = before ++ after := herase
  rw [pairs, pairs, hentries, heq, List.map_append, List.map_append, List.map_cons]
  exact List.perm_middle

theorem lookup_mapValues [DecidableEq κ] (f : κ → ν → ν) (m : HashMap κ ν) (k : κ) :
    (mapValues f m).lookup k = (m.lookup k).map (f k) := by
  cases h : m.lookup k with
  | some v =>
      rw [Option.map_some, ← mem_pairs, pairs_mapValues, List.mem_map]
      exact ⟨(k, v), mem_pairs.mpr h, rfl⟩
  | none =>
      rw [Option.map_none, AList.lookup_eq_none, ← AList.lookup_isSome, Option.isSome_iff_exists]
      rintro ⟨v, hv⟩
      rw [← mem_pairs, pairs_mapValues, List.mem_map] at hv
      obtain ⟨⟨j, w⟩, hjw, heq⟩ := hv
      cases heq
      rw [mem_pairs.mp hjw] at h
      cases h

end SmsIrc.HashMaps
