import Mathlib.Data.List.Nodup

/-!
A database table with a `SERIAL` primary key. The key of every row lies below
the next value of the sequence, so a new row never collides with a stored one;
both facts are fields, so no operation can leave a table without them.
-/

namespace SmsIrc.SerialTable

universe u

/-- Rows in the order of their insertion, and the next value of the sequence. -/
structure Table (ρ : Type u) (key : ρ → Nat) where
  rows : List ρ
  next : Nat
  nodup : (rows.map key).Nodup
  lt_next : ∀ r ∈ rows, key r < next

variable {ρ : Type u} {key : ρ → Nat}

/-- A table without rows. Sequences start at one. -/
def Table.empty : Table ρ key := ⟨[], 1, by simp, by simp⟩

/-- Insert the row that `mk` makes of the next key. -/
def Table.insert (t : Table ρ key) (mk : Nat → ρ) (hmk : ∀ n, key (mk n) = n) :
    Table ρ key where
  rows := t.rows ++ [mk t.next]
  next := t.next + 1
  nodup := by
    rw [List.map_append, List.nodup_append]
    refine ⟨t.nodup, by simp, ?_⟩
    intro a ha b hb
    obtain ⟨r, hr, rfl⟩ := List.mem_map.mp ha
    have := t.lt_next r hr
    simp only [List.map_cons, List.map_nil, List.mem_singleton, hmk] at hb
    omega
  lt_next := by
    intro r hr
    rcases List.mem_append.mp hr with hr | hr
    · have := t.lt_next r hr
      omega
    · rw [List.mem_singleton.mp hr, hmk]
      omega

/-- Keep the rows that satisfy `p`. -/
def Table.keep (t : Table ρ key) (p : ρ → Bool) : Table ρ key where
  rows := t.rows.filter p
  next := t.next
  nodup := t.nodup.sublist (List.filter_sublist.map key)
  lt_next r hr := t.lt_next r (List.mem_of_mem_filter hr)

/-- Change every row by `f`, which leaves the keys alone. -/
def Table.update (t : Table ρ key) (f : ρ → ρ) (hf : ∀ r, key (f r) = key r) :
    Table ρ key where
  rows := t.rows.map f
  next := t.next
  nodup := by
    rw [List.map_map, show key ∘ f = key from funext hf]
    exact t.nodup
  lt_next := by
    intro r hr
    obtain ⟨q, hq, rfl⟩ := List.mem_map.mp hr
    rw [hf]
    exact t.lt_next q hq

@[simp] theorem Table.rows_empty : (Table.empty : Table ρ key).rows = [] := rfl

@[simp] theorem Table.rows_insert (t : Table ρ key) (mk : Nat → ρ)
    (hmk : ∀ n, key (mk n) = n) :
    (t.insert mk hmk).rows = t.rows ++ [mk t.next] := rfl

@[simp] theorem Table.rows_keep (t : Table ρ key) (p : ρ → Bool) :
    (t.keep p).rows = t.rows.filter p := rfl

@[simp] theorem Table.rows_update (t : Table ρ key) (f : ρ → ρ)
    (hf : ∀ r, key (f r) = key r) : (t.update f hf).rows = t.rows.map f := rfl

/-- The key determines the row. -/
theorem Table.eq_of_key_eq (t : Table ρ key) {r q : ρ} (hr : r ∈ t.rows)
    (hq : q ∈ t.rows) (h : key r = key q) : r = q :=
  List.inj_on_of_nodup_map t.nodup hr hq h

theorem Table.rows_nodup (t : Table ρ key) : t.rows.Nodup := t.nodup.of_map key

end SmsIrc.SerialTable
