import Mathlib.Tactic.Common
import SmsIrc.SenderCommon

/-!
What the iterator over the fragments of a line produces: the cutting positions
described without byte offsets, and the lines whose last piece is dropped.
-/

namespace SmsIrc.Fragments

open SmsIrc.SenderCommon SmsIrc.Text

/-- The fragments of `cur ++ rest`, where `cur` has been read since the last
cut. -/
def cut : Str → Str → List Str
  | _, [] => []
  | cur, c :: cs =>
      if messageMaxLen ≤ byteLen cur then cur :: cut [c] cs
      else if byteLen (cur ++ c :: cs) ≤ messageMaxLen then [cur ++ c :: cs]
      else cut (cur ++ [c]) cs

/-- The fragments of a line that are handed on. -/
def chunks (line : Str) : List Str := (fragments line).filter fun p => byteLen p > 0

theorem filter_flatMap_fragments (ls : List Str) :
    ((ls.flatMap fragments).filter fun p => byteLen p > 0) = ls.flatMap chunks := by
  rw [List.filter_flatMap]
  rfl

theorem fragmentsFrom_end (line : Str) (ics : List (Nat × Char))
    (h : ∀ ic ∈ ics, ic.1 < byteLen line) :
    (fragmentsFrom line (byteLen line) ics).filter (fun p => byteLen p > 0) = [] := by
  induction ics with
  | nil => rfl
  | cons ic ics ih =>
      have hic := h ic (by simp)
      have hempty : slice line (byteLen line) (byteLen line) = [] := by
        simpa using slice_append line [] []
      rw [fragmentsFrom, if_neg (by omega), if_pos (by omega), hempty]
      simpa using ih fun jc hjc => h jc (by simp [hjc])

theorem fragmentsFrom_eq_cut (done cur rest : Str) :
    (fragmentsFrom (done ++ cur ++ rest) (byteLen done)
      (charIndicesFrom (byteLen done + byteLen cur) rest)).filter
        (fun p => byteLen p > 0) = cut cur rest := by
  induction rest generalizing done cur with
  | nil => rfl
  | cons c cs ih =>
      have hc := c.utf8Size_pos
      have hstep : byteLen done + byteLen cur + c.utf8Size =
          byteLen done + byteLen (cur ++ [c]) := by
        simp only [byteLen_append, byteLen_cons, byteLen_nil]
        omega
      rw [charIndicesFrom, fragmentsFrom, cut]
      by_cases hcur : messageMaxLen ≤ byteLen cur
      · rw [if_pos (by omega), if_pos hcur, slice_append]
        have hpos : 0 < byteLen cur := by
          unfold messageMaxLen at hcur
          omega
        have hrec := ih (done ++ cur) [c]
        rw [List.append_assoc _ [c], List.singleton_append] at hrec
        simp only [byteLen_append, byteLen_cons, byteLen_nil, Nat.add_zero] at hrec
        rw [List.filter_cons_of_pos (by simpa using hpos), hrec]
      · rw [if_neg (by omega), if_neg hcur]
        by_cases hall : byteLen (cur ++ c :: cs) ≤ messageMaxLen
        · rw [if_pos (by
            rw [List.append_assoc, byteLen_append]
            omega), if_pos hall]
          have hslice : slice (done ++ cur ++ c :: cs) (byteLen done)
              (byteLen (done ++ cur ++ c :: cs)) = cur ++ c :: cs := by
            have hs := slice_append done (cur ++ c :: cs) []
            rwa [List.append_nil, ← byteLen_append, ← List.append_assoc] at hs
          have hpos : 0 < byteLen (cur ++ c :: cs) := byteLen_pos (by simp)
          rw [hslice, List.filter_cons_of_pos (by simpa using hpos), fragmentsFrom_end]
          intro ic hic
          have := le_of_mem_charIndicesFrom hic
          simp only [byteLen_append, byteLen_cons]
          omega
        · rw [if_neg (by
            rw [List.append_assoc, byteLen_append]
            omega), if_neg hall]
          have hrec := ih done (cur ++ [c])
          rw [← hstep, ← List.append_assoc, List.append_assoc _ [c],
            List.singleton_append] at hrec
          exact hrec

theorem chunks_eq_cut (line : Str) : chunks line = cut [] line :=
  fragmentsFrom_eq_cut [] [] line

/-- A piece that the iterator cuts off: it reaches the limit with its last
character. -/
def Full (piece : Str) : Prop :=
  messageMaxLen ≤ byteLen piece ∧ byteLen piece.dropLast < messageMaxLen

/-- The text after a cut ends in full pieces and then in one that the iterator
never hands on: a single character, or a full piece that exceeds the limit. -/
def LosesAfterCut (text : Str) : Prop :=
  ∃ (blocks : List Str) (tail : Str), text = blocks.flatten ++ tail ∧ (∀ b ∈ blocks, Full b) ∧
    (tail.length = 1 ∨ Full tail ∧ messageMaxLen < byteLen tail)

/-- The line, cut into full pieces, leaves a last piece that is never handed
on: a single character after at least one cut, or a full piece that exceeds the
limit. -/
def LosesTail (line : Str) : Prop :=
  ∃ (blocks : List Str) (tail : Str), line = blocks.flatten ++ tail ∧ (∀ b ∈ blocks, Full b) ∧
    (blocks ≠ [] ∧ tail.length = 1 ∨ Full tail ∧ messageMaxLen < byteLen tail)

theorem cut_remainder (cur : Str) {rest : Str} (hrest : rest ≠ [])
    (h : byteLen (cur ++ rest) ≤ messageMaxLen) : cut cur rest = [cur ++ rest] := by
  cases rest with
  | nil => exact absurd rfl hrest
  | cons c cs =>
      have hc := c.utf8Size_pos
      rw [cut, if_neg (by
        simp only [byteLen_append, byteLen_cons] at h
        omega), if_pos h]

theorem byteLen_dropLast_append (cur : Str) {rest : Str} (h : rest ≠ []) :
    byteLen cur ≤ byteLen (cur ++ rest).dropLast := by
  rw [List.dropLast_append_of_ne_nil h, byteLen_append]
  omega

theorem cut_eq_nil (cur : Str) {rest : Str} (h : messageMaxLen < byteLen (cur ++ rest))
    (hlast : byteLen (cur ++ rest).dropLast < messageMaxLen) : cut cur rest = [] := by
  induction rest generalizing cur with
  | nil => rfl
  | cons c cs ih =>
      have hcur : byteLen cur ≤ byteLen (cur ++ c :: cs).dropLast :=
        byteLen_dropLast_append cur (by simp)
      rw [cut, if_neg (by omega), if_neg (by omega)]
      rw [List.append_cons] at h hlast
      exact ih _ h hlast

theorem cut_block (cur : Str) {piece rest : Str} (hfull : Full (cur ++ piece))
    (hcur : piece = [] ∨ byteLen cur < messageMaxLen) (c : Char) :
    cut cur (piece ++ c :: rest) = (cur ++ piece) :: cut [c] rest := by
  induction piece generalizing cur with
  | nil =>
      rw [List.append_nil] at hfull ⊢
      rw [List.nil_append, cut, if_pos hfull.1]
  | cons d piece ih =>
      have hc := c.utf8Size_pos
      have hlt : byteLen cur < messageMaxLen := hcur.resolve_left (by simp)
      have hge := hfull.1
      rw [List.cons_append, cut, if_neg (by omega), if_neg (by
        simp only [byteLen_append, byteLen_cons] at hge ⊢
        omega)]
      rw [List.append_cons cur d piece] at hfull ⊢
      apply ih (cur ++ [d]) hfull
      by_cases hp : piece = []
      · exact .inl hp
      · have := byteLen_dropLast_append (cur ++ [d]) hp
        exact .inr (this.trans_lt hfull.2)

/-- The fragments of what follows a cut: its first character has been read. -/
def afterCut : Str → List Str
  | [] => []
  | c :: cs => cut [c] cs

theorem utf8Size_lt_messageMaxLen (c : Char) : c.utf8Size < messageMaxLen :=
  c.utf8Size_le_four.trans_lt (by decide)

theorem Full.ne_nil {piece : Str} (h : Full piece) : piece ≠ [] := by
  rintro rfl
  have := h.1
  simp [messageMaxLen] at this

theorem Full.two_le_length {piece : Str} (h : Full piece) : 2 ≤ piece.length := by
  match piece, h with
  | [], h => exact absurd rfl h.ne_nil
  | [c], h =>
      have hge := h.1
      have := utf8Size_lt_messageMaxLen c
      simp only [byteLen_cons, byteLen_nil] at hge
      omega
  | _ :: _ :: _, _ => simp

theorem afterCut_block {block rest : Str} (hfull : Full block) (hrest : rest ≠ []) :
    afterCut (block ++ rest) = block :: afterCut rest := by
  cases block with
  | nil => exact absurd rfl hfull.ne_nil
  | cons d piece =>
      cases rest with
      | nil => exact absurd rfl hrest
      | cons c cs =>
          have hd : byteLen [d] < messageMaxLen := by
            simpa using utf8Size_lt_messageMaxLen d
          exact cut_block [d] hfull (.inr hd) c

theorem afterCut_blocks {blocks : List Str} (hfull : ∀ b ∈ blocks, Full b)
    {tail : Str} (htail : tail ≠ []) :
    afterCut (blocks.flatten ++ tail) = blocks ++ afterCut tail := by
  induction blocks with
  | nil => rfl
  | cons b blocks ih =>
      rw [List.flatten_cons, List.append_assoc,
        afterCut_block (hfull b (by simp)) (by simp [htail]),
        ih fun b hb => hfull b (by simp [hb])]
      rfl

theorem afterCut_lost {tail : Str}
    (h : tail.length = 1 ∨ Full tail ∧ messageMaxLen < byteLen tail) :
    afterCut tail = [] := by
  cases tail with
  | nil => rfl
  | cons c cs =>
      rcases h with h | ⟨hfull, hlong⟩
      · have hcs : cs = [] := by simpa using h
        rw [hcs]
        rfl
      · exact cut_eq_nil [c] hlong hfull.2

theorem exists_full_prefix (cur : Str) {rest : Str} (hcur : byteLen cur < messageMaxLen)
    (h : messageMaxLen ≤ byteLen (cur ++ rest)) :
    ∃ piece after, rest = piece ++ after ∧ Full (cur ++ piece) := by
  induction rest generalizing cur with
  | nil =>
      rw [List.append_nil] at h
      omega
  | cons c cs ih =>
      by_cases hc : messageMaxLen ≤ byteLen (cur ++ [c])
      · exact ⟨[c], cs, rfl, hc, by simpa using hcur⟩
      · obtain ⟨piece, after, rfl, hfull⟩ := ih (cur ++ [c]) (by omega) (by
          rw [List.append_assoc]
          exact h)
        exact ⟨c :: piece, after, rfl, by simpa using hfull⟩

theorem losesAfterCut_block {block rest : Str} (hfull : Full block)
    (h : LosesAfterCut rest) : LosesAfterCut (block ++ rest) := by
  obtain ⟨blocks, tail, rfl, hblocks, htail⟩ := h
  refine ⟨block :: blocks, tail, by simp, ?_, htail⟩
  simpa using ⟨hfull, hblocks⟩

theorem flatten_afterCut_isPrefix (text : Str) : (afterCut text).flatten <+: text := by
  suffices h : ∀ cur rest, (cut cur rest).flatten <+: cur ++ rest by
    cases text with
    | nil => exact List.prefix_rfl
    | cons c cs => exact h [c] cs
  intro cur rest
  induction rest generalizing cur with
  | nil => exact List.nil_prefix
  | cons c cs ih =>
      rw [cut]
      split
      · rw [List.flatten_cons, List.prefix_append_right_inj]
        exact ih [c]
      · split
        · simp
        · simpa using ih (cur ++ [c])

theorem flatten_afterCut_of_not_loses {text : Str} (h : ¬ LosesAfterCut text) :
    (afterCut text).flatten = text := by
  induction hn : text.length using Nat.strong_induction_on generalizing text with
  | _ n ih =>
      cases text with
      | nil => rfl
      | cons c cs =>
          by_cases hcs : cs = []
          · exact absurd ⟨[], [c], rfl, by simp, .inl rfl⟩ (hcs ▸ h)
          by_cases hshort : byteLen (c :: cs) ≤ messageMaxLen
          · change (cut [c] cs).flatten = _
            rw [cut_remainder [c] hcs hshort]
            simp
          obtain ⟨piece, after, hrest, hfull⟩ := exists_full_prefix []
            (by decide) (show messageMaxLen ≤ byteLen ([] ++ c :: cs) by
              rw [List.nil_append]
              omega)
          rw [List.nil_append] at hfull
          by_cases hafter : after = []
          · refine absurd ⟨[], c :: cs, rfl, by simp, .inr ⟨?_, by omega⟩⟩ h
            rwa [hrest, hafter, List.append_nil]
          · rw [hrest] at h ⊢
            rw [afterCut_block hfull hafter, List.flatten_cons]
            have hlen := hfull.two_le_length
            have hlen' := congrArg List.length hrest
            rw [List.length_append] at hlen'
            rw [ih after.length (by omega) (fun hl => h (losesAfterCut_block hfull hl)) rfl]

theorem flatten_afterCut_iff (text : Str) :
    (afterCut text).flatten = text ↔ ¬ LosesAfterCut text := by
  refine ⟨?_, flatten_afterCut_of_not_loses⟩
  rintro h ⟨blocks, tail, rfl, hblocks, htail⟩
  have hne : tail ≠ [] := by
    rcases htail with htail | ⟨hfull, _⟩
    · rintro rfl
      simp at htail
    · exact hfull.ne_nil
  rw [afterCut_blocks hblocks hne, afterCut_lost htail, List.append_nil] at h
  exact hne (List.self_eq_append_right.mp h)

theorem losesTail_iff_of_two_le {line : Str} (h : 2 ≤ line.length) :
    LosesTail line ↔ LosesAfterCut line := by
  constructor
  · rintro ⟨blocks, tail, hline, hblocks, ⟨_, htail⟩ | htail⟩
    · exact ⟨blocks, tail, hline, hblocks, .inl htail⟩
    · exact ⟨blocks, tail, hline, hblocks, .inr htail⟩
  · rintro ⟨blocks, tail, hline, hblocks, htail | htail⟩
    · refine ⟨blocks, tail, hline, hblocks, .inl ⟨?_, htail⟩⟩
      rintro rfl
      rw [hline] at h
      simp [htail] at h
    · exact ⟨blocks, tail, hline, hblocks, .inr htail⟩

theorem not_losesTail_of_length_lt_two {line : Str} (h : line.length < 2) :
    ¬ LosesTail line := by
  rintro ⟨blocks, tail, hline, hblocks, ⟨hne, htail⟩ | ⟨hfull, _⟩⟩
  · obtain ⟨b, bs, rfl⟩ := List.exists_cons_of_ne_nil hne
    have := (hblocks b (by simp)).two_le_length
    simp only [hline, List.flatten_cons, List.length_append] at h
    omega
  · have := hfull.two_le_length
    simp only [hline, List.length_append] at h
    omega

theorem cut_nil_eq_afterCut {line : Str} (h : 2 ≤ line.length) :
    cut [] line = afterCut line := by
  match line, h with
  | c :: d :: cs, _ =>
      rw [cut, if_neg (by decide)]
      split
      · rename_i hshort
        exact (cut_remainder [c] (by simp) hshort).symm
      · rfl

theorem flatten_chunks_isPrefix (line : Str) : (chunks line).flatten <+: line := by
  rw [chunks_eq_cut]
  match line with
  | [] => exact List.nil_prefix
  | [c] =>
      rw [cut_remainder [] (by simp) (by simpa using (utf8Size_lt_messageMaxLen c).le)]
      simp
  | c :: d :: cs =>
      rw [cut_nil_eq_afterCut (by simp)]
      exact flatten_afterCut_isPrefix _

/-- The fragments of a line give it back, unless its tail is dropped. -/
theorem flatten_chunks_iff (line : Str) :
    (chunks line).flatten = line ↔ ¬ LosesTail line := by
  rw [chunks_eq_cut]
  by_cases h : 2 ≤ line.length
  · rw [losesTail_iff_of_two_le h, cut_nil_eq_afterCut h, flatten_afterCut_iff]
  · refine iff_of_true ?_ (not_losesTail_of_length_lt_two (by omega))
    match line, h with
    | [], _ => rfl
    | [c], _ =>
        rw [cut_remainder [] (by simp) (by simpa using (utf8Size_lt_messageMaxLen c).le)]
        simp
    | _ :: _ :: _, h => simp at h

/-- Chunks, in order, that are a partition of each of the lines. -/
def Partitions (cs ls : List Str) : Prop :=
  ∃ groups : List (List Str), groups.flatten = cs ∧ groups.map List.flatten = ls

theorem partitions_iff (ls : List Str) :
    Partitions (ls.flatMap chunks) ls ↔ ∀ line ∈ ls, ¬ LosesTail line := by
  constructor
  · rintro ⟨groups, hcs, hls⟩
    have htext : ls.flatten = (ls.map fun line => (chunks line).flatten).flatten := by
      rw [← hls, ← List.flatten_flatten, hcs, hls, List.flatMap_def, List.flatten_flatten,
        List.map_map]
      rfl
    have hlen := congrArg List.length htext
    clear hcs hls htext
    induction ls with
    | nil => simp
    | cons line ls ih =>
        have hle : ∀ l : Str, (chunks l).flatten.length ≤ l.length :=
          fun l => (flatten_chunks_isPrefix l).length_le
        have hsum : (ls.map fun line => (chunks line).flatten).flatten.length ≤
            ls.flatten.length := by
          clear ih hlen
          induction ls with
          | nil => simp
          | cons l ls ih =>
              simp only [List.map_cons, List.flatten_cons, List.length_append]
              exact Nat.add_le_add (hle l) ih
        have hfirst := hle line
        simp only [List.map_cons, List.flatten_cons, List.length_append] at hlen
        rw [List.forall_mem_cons]
        refine ⟨?_, ih (by omega)⟩
        rw [← flatten_chunks_iff]
        exact (flatten_chunks_isPrefix line).eq_of_length (by omega)
  · intro h
    refine ⟨ls.map chunks, by rw [List.flatMap_def], ?_⟩
    rw [List.map_map]
    conv_rhs => rw [← List.map_id ls]
    exact List.map_congr_left fun line hline => (flatten_chunks_iff line).mpr (h line hline)

end SmsIrc.Fragments
