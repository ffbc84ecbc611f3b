import Mathlib.Data.List.Perm.Basic
import SmsIrc.SerialTable

/-!
What becomes of the rows of a table over time. Keys are never given to another row, so
each row that there has been is there, has been taken, or is lost, and only one of these.
-/

namespace SmsIrc.TableHistory

open SmsIrc.SerialTable

universe u

variable {ρ : Type u} {key : ρ → Nat}

/-- From one state of a table to a later one, with the rows that have been taken in between
and those that are lost otherwise; `new` are the rows that have been added. -/
structure Passage (t t' : Table ρ key) (new taken lost : List ρ) : Prop where
  next : t.next ≤ t'.next
  added : ∀ r ∈ new, t.next ≤ key r ∧ key r < t'.next
  nodup : (new.map key).Nodup
  conserved : (t.rows ++ new).Perm (t'.rows ++ taken ++ lost)

theorem passage_refl (t : Table ρ key) : Passage t t [] [] [] := by
  constructor
  · exact Nat.le_refl _
  · simp
  · simp
  · simp

theorem passage_of_eq {t t' : Table ρ key} (h : t' = t) : Passage t t' [] [] [] :=
  h ▸ passage_refl t

namespace Passage

variable {t t' t'' : Table ρ key} {new new' taken taken' lost lost' : List ρ}

/-- The rows there were and those that have been added all have keys of their own. -/
theorem nodup_keys (h : Passage t t' new taken lost) : ((t.rows ++ new).map key).Nodup := by
  rw [List.map_append, List.nodup_append']
  refine ⟨t.nodup, h.nodup, ?_⟩
  intro k hold hnew
  obtain ⟨r, hr, rfl⟩ := List.mem_map.mp hold
  obtain ⟨q, hq, hkey⟩ := List.mem_map.mp hnew
  have := t.lt_next r hr
  have := (h.added q hq).1
  omega

theorem trans (h : Passage t t' new taken lost) (h' : Passage t' t'' new' taken' lost') :
    Passage t t'' (new ++ new') (taken ++ taken') (lost ++ lost') := by
  constructor
  · exact Nat.le_trans h.next h'.next
  · intro r hr
    have := h.next
    have := h'.next
    rcases List.mem_append.mp hr with hr | hr
    · have := h.added r hr
      omega
    · have := h'.added r hr
      omega
  · rw [List.map_append, List.nodup_append']
    refine ⟨h.nodup, h'.nodup, ?_⟩
    intro k hold hnew
    obtain ⟨r, hr, rfl⟩ := List.mem_map.mp hold
    obtain ⟨q, hq, hkey⟩ := List.mem_map.mp hnew
    have := (h.added r hr).2
    have := (h'.added q hq).1
    omega
  · classical
    rw [List.perm_iff_count]
    intro r
    have hfirst := h.conserved.count_eq r
    have hsecond := h'.conserved.count_eq r
    simp only [List.count_append] at hfirst hsecond ⊢
    omega

theorem mem_of_now (h : Passage t t' new taken lost) {r : ρ} (hr : r ∈ t'.rows) :
    r ∈ t.rows ++ new :=
  h.conserved.mem_iff.mpr (List.mem_append_left _ (List.mem_append_left _ hr))

end Passage

section Operations

theorem passage_insert (t : Table ρ key) (mk : Nat → ρ) (hmk : ∀ n, key (mk n) = n) :
    Passage t (t.insert mk hmk) [mk t.next] [] [] := by
  constructor
  · exact Nat.le_succ _
  · intro r hr
    rw [List.mem_singleton.mp hr, hmk]
    exact ⟨Nat.le_refl _, Nat.lt_succ_self _⟩
  · simp
  · rw [List.append_nil, List.append_nil]
    rfl

/-- Rows that are not kept are lost. -/
theorem passage_keep (t : Table ρ key) (p : ρ → Bool) :
    Passage t (t.keep p) [] [] (t.rows.filter fun r => !p r) := by
  constructor
  · exact Nat.le_refl _
  · simp
  · simp
  · rw [List.append_nil, List.append_nil, Table.rows_keep]
    exact (List.filter_append_perm p t.rows).symm

/-- The rows without some of them, and those. -/
theorem perm_take [DecidableEq ρ] (t : Table ρ key) {taken : List ρ} (hnodup : taken.Nodup)
    (hstored : ∀ r ∈ taken, r ∈ t.rows) :
    t.rows.Perm ((t.rows.filter fun r => r ∉ taken) ++ taken) := by
  refine ((List.perm_ext_iff_of_nodup ?_ t.rows_nodup).mpr fun r => ?_).symm
  · refine List.nodup_append'.mpr ⟨t.rows_nodup.filter _, hnodup, ?_⟩
    intro r hr htaken
    simpa [htaken] using (List.mem_filter.mp hr).2
  · rw [List.mem_append, List.mem_filter]
    constructor
    · rintro (hr | hr)
      · exact hr.1
      · exact hstored r hr
    · intro hr
      by_cases htaken : r ∈ taken
      · exact .inr htaken
      · exact .inl ⟨hr, by simpa using htaken⟩

theorem passage_take [DecidableEq ρ] {t t' : Table ρ key} {taken : List ρ}
    (hnext : t'.next = t.next) (hleft : t'.rows = t.rows.filter fun r => r ∉ taken)
    (hnodup : taken.Nodup) (hstored : ∀ r ∈ taken, r ∈ t.rows) : Passage t t' [] taken [] := by
  constructor
  · exact Nat.le_of_eq hnext.symm
  · simp
  · simp
  · rw [List.append_nil, List.append_nil, hleft]
    exact perm_take t hnodup hstored

end Operations

end SmsIrc.TableHistory
