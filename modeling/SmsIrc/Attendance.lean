import Mathlib.Data.List.Basic

/-!
Who is where after a sequence of arrivals and departures, replayed in order.
-/

namespace SmsIrc.Attendance

universe u

inductive Move (κ : Type u) where
  | join (place : κ)
  | part (place : κ)
  | quit
deriving DecidableEq

variable {κ : Type u} [DecidableEq κ]

def attend (places : List κ) : Move κ → List κ
  | .join p => if p ∈ places then places else places ++ [p]
  | .part p => places.filter fun q => q ≠ p
  | .quit => []

/-- The places after a sequence of moves. -/
def replay (places : List κ) (moves : List (Move κ)) : List κ := moves.foldl attend places

theorem replay_append (places : List κ) (ms ns : List (Move κ)) :
    replay places (ms ++ ns) = replay (replay places ms) ns := List.foldl_append

omit [DecidableEq κ] in
theorem filterMap_moves {α : Type*} {make : κ → α} {read : α → Option (Move κ)}
    {move : κ → Move κ} (h : ∀ p, read (make p) = some (move p)) (ps : List κ) :
    (ps.map make).filterMap read = ps.map move := by
  rw [List.filterMap_map, ← List.filterMap_eq_map]
  exact List.filterMap_congr fun p _ => h p

theorem mem_attend_join {places : List κ} {p q : κ} :
    q ∈ attend places (.join p) ↔ q ∈ places ∨ q = p := by
  rw [attend]
  split
  · rename_i hp
    exact ⟨.inl, fun h => h.elim id fun heq => heq ▸ hp⟩
  · rw [List.mem_append, List.mem_singleton]

theorem mem_attend_part {places : List κ} {p q : κ} :
    q ∈ attend places (.part p) ↔ q ∈ places ∧ q ≠ p := by
  simp only [attend, List.mem_filter, decide_eq_true_eq]

theorem mem_replay_joins {places ps : List κ} {q : κ} :
    q ∈ replay places (ps.map .join) ↔ q ∈ places ∨ q ∈ ps := by
  induction ps generalizing places with
  | nil => simp [replay]
  | cons p ps ih =>
      change q ∈ replay (attend places (.join p)) (ps.map .join) ↔ _
      rw [ih, mem_attend_join, List.mem_cons, or_assoc]

theorem mem_replay_parts {places ps : List κ} {q : κ} :
    q ∈ replay places (ps.map .part) ↔ q ∈ places ∧ q ∉ ps := by
  induction ps generalizing places with
  | nil => simp [replay]
  | cons p ps ih =>
      change q ∈ replay (attend places (.part p)) (ps.map .part) ↔ _
      rw [ih, mem_attend_part, List.mem_cons, not_or, and_assoc]

/-- Someone who joins what is wanted and parts from what was and is not leaves nothing
else, and stays nowhere else. -/
theorem mem_replay_exchange {places old wanted : List κ} {unwanted : κ → Bool} {q : κ}
    (h : unwanted q = true ↔ q ∉ wanted) :
    q ∈ replay places (wanted.map .join ++ (old.filter unwanted).map .part) ↔
      q ∈ wanted ∨ q ∈ places ∧ q ∉ old := by
  rw [replay_append, mem_replay_parts, mem_replay_joins, List.mem_filter, h]
  constructor
  · rintro ⟨hplaces | hwanted, hstays⟩
    · by_cases hq : q ∈ wanted
      · exact .inl hq
      · exact .inr ⟨hplaces, fun hold => hstays ⟨hold, hq⟩⟩
    · exact .inl hwanted
  · rintro (hwanted | ⟨hplaces, hold⟩)
    · exact ⟨.inr hwanted, fun h => h.2 hwanted⟩
    · exact ⟨.inl hplaces, fun h => hold h.1⟩

theorem mem_replay_of_stays {places : List κ} {ms : List (Move κ)} {q : κ} (hq : q ∈ places)
    (hms : ∀ m ∈ ms, m ≠ .part q ∧ m ≠ .quit) : q ∈ replay places ms := by
  induction ms generalizing places with
  | nil => exact hq
  | cons m ms ih =>
      refine ih ?_ fun n hn => hms n (List.mem_cons_of_mem m hn)
      obtain ⟨hpart, hquit⟩ := hms m List.mem_cons_self
      cases m with
      | join p => exact mem_attend_join.mpr (.inl hq)
      | part p => exact mem_attend_part.mpr ⟨hq, fun h => hpart (h ▸ rfl)⟩
      | quit => exact absurd rfl hquit

end SmsIrc.Attendance
