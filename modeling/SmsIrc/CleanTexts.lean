import SmsIrc.ChunkSizes

/-!
Texts that fit on one line of the protocol, and what splitting a text into lines makes of
its carriage returns.
-/

namespace SmsIrc.CleanTexts

open SmsIrc.ChunkSizes SmsIrc.External SmsIrc.Fragments SmsIrc.SenderCommon SmsIrc.Text
open SmsIrc.Util

/-- A text without carriage returns and line feeds. -/
def Clean (s : Str) : Prop := '\r' ∉ s ∧ '\n' ∉ s

instance (s : Str) : Decidable (Clean s) := inferInstanceAs (Decidable (_ ∧ _))

theorem Clean.of_subset {s t : Str} (h : Clean t) (hst : s ⊆ t) : Clean s :=
  ⟨fun hs => h.1 (hst hs), fun hs => h.2 (hst hs)⟩

theorem clean_nil : Clean [] := ⟨List.not_mem_nil, List.not_mem_nil⟩

theorem Clean.append {s t : Str} (hs : Clean s) (ht : Clean t) : Clean (s ++ t) := by
  constructor <;> rw [List.mem_append, not_or]
  · exact ⟨hs.1, ht.1⟩
  · exact ⟨hs.2, ht.2⟩

theorem Clean.cons {c : Char} {s : Str} (hc : Clean [c]) (hs : Clean s) : Clean (c :: s) :=
  Clean.append (s := [c]) hc hs

theorem clean_decimal (n : Nat) : Clean (decimal n) := by
  have hdigit : ∀ c ∈ decimal n, c.isDigit = true := fun c hc =>
    Nat.isDigit_of_mem_toDigits (by decide) (by decide) hc
  exact ⟨fun h => absurd (hdigit _ h) (by decide), fun h => absurd (hdigit _ h) (by decide)⟩

theorem clean_decimalInt (i : Int) : Clean (decimalInt i) := by
  unfold decimalInt
  split
  · exact clean_decimal _
  · exact Clean.cons (by decide) (clean_decimal _)

theorem clean_zeroPadded (width n : Nat) : Clean (zeroPadded width n) := by
  refine Clean.append ?_ (clean_decimal n)
  constructor <;> intro h <;> exact absurd (List.eq_of_mem_replicate h) (by decide)

theorem clean_hex (n : Nat) : Clean (hex n) := by
  have hlow : ∀ k < 16, Clean [Nat.digitChar k] := by decide
  induction n using Nat.strongRecOn with
  | ind n ih =>
      unfold hex
      rw [Nat.toDigits_eq_if (by decide)]
      split
      · rename_i hlt
        exact hlow n hlt
      · rename_i hge
        exact (ih (n / 16) (by omega)).append (hlow _ (Nat.mod_lt n (by decide)))

theorem clean_escapeDebug (printed : Char → Bool) (c : Char) :
    Clean (escapeDebug printed c) := by
  unfold escapeDebug
  repeat' split
  any_goals decide
  · rename_i h
    rcases h with rfl | rfl <;> decide
  · rename_i hr hn _ _
    simp only [Clean, List.mem_singleton]
    exact ⟨Ne.symm hr, Ne.symm hn⟩
  · exact ((by decide : Clean ("\\u\x7b" : Str)).append (clean_hex _)).append (by decide)

theorem clean_debugStr (printed : Char → Bool) (s : Str) : Clean (debugStr printed s) := by
  refine (Clean.cons (by decide) ?_).append (by decide)
  constructor <;> intro h <;> obtain ⟨c, -, hc⟩ := List.mem_flatMap.mp h
  · exact (clean_escapeDebug printed c).1 hc
  · exact (clean_escapeDebug printed c).2 hc

theorem mem_of_mem_splitOn {sep : Char} {s piece : Str} (h : piece ∈ splitOn sep s) :
    piece ⊆ s := by
  induction s generalizing piece with
  | nil =>
      rw [splitOn, List.mem_singleton] at h
      exact h ▸ List.Subset.refl _
  | cons c cs ih =>
      rw [splitOn] at h
      split at h
      · rcases List.mem_cons.mp h with rfl | h
        · exact List.nil_subset _
        · exact List.Subset.trans (ih h) (List.subset_cons_self c cs)
      · split at h
        · rw [List.mem_singleton.mp h]
          exact List.cons_subset_cons c (List.nil_subset cs)
        · rename_i first pieces heq
          rcases List.mem_cons.mp h with rfl | h
          · refine List.cons_subset_cons c (ih ?_)
            rw [heq]
            exact List.mem_cons_self
          · have hmem : piece ∈ splitOn sep cs := heq ▸ List.mem_cons_of_mem _ h
            exact List.Subset.trans (ih hmem) (List.subset_cons_self c cs)

theorem clean_join {sep : Str} (hsep : Clean sep) {parts : List Str}
    (h : ∀ p ∈ parts, Clean p) : Clean (join sep parts) := by
  induction parts with
  | nil => exact clean_nil
  | cons p ps ih =>
      cases ps with
      | nil => exact h p List.mem_cons_self
      | cons q qs =>
          refine ((h p List.mem_cons_self).append hsep).append (ih fun r hr => ?_)
          exact h r (List.mem_cons_of_mem p hr)

/-- A carriage return is not followed by a line feed. -/
def strayCr : Str → Bool
  | [] => false
  | c :: cs => (c = '\r' && cs.head? ≠ some '\n') || strayCr cs

theorem strayCr_of_append {s t : Str} (h : strayCr (s ++ t) = false) : strayCr t = false := by
  induction s with
  | nil => exact h
  | cons c cs ih =>
      rw [List.cons_append, strayCr, Bool.or_eq_false_iff] at h
      exact ih h.2

theorem strayCr_append {s t : Str} (hs : '\r' ∉ s) : strayCr (s ++ t) = strayCr t := by
  induction s with
  | nil => rfl
  | cons c cs ih =>
      rw [List.mem_cons, not_or] at hs
      rw [List.cons_append, strayCr, ih hs.2, decide_eq_false (Ne.symm hs.1), Bool.false_and,
        Bool.false_or]

theorem strayCr_drop {s : Str} (h : strayCr s = false) (k : Nat) : strayCr (s.drop k) = false := by
  rw [← List.take_append_drop k s] at h
  exact strayCr_of_append h

theorem notMem_stripCr {line rest : Str} (hline : '\n' ∉ line)
    (h : strayCr (line ++ '\n' :: rest) = false) : '\r' ∉ stripCr line := by
  induction line with
  | nil => exact List.not_mem_nil
  | cons c cs ih =>
      rw [List.mem_cons, not_or] at hline
      rw [List.cons_append, strayCr, Bool.or_eq_false_iff] at h
      cases cs with
      | nil =>
          by_cases hc : c = '\r'
          · subst hc
            exact List.not_mem_nil
          · rw [stripCr, List.getLast?_singleton, if_neg (by simpa using hc), List.mem_singleton]
            exact Ne.symm hc
      | cons d ds =>
          have hc : c ≠ '\r' := by
            rintro rfl
            have hd : some d = some '\n' := by simpa using h.1
            exact hline.2 (Option.some.inj hd ▸ List.mem_cons_self)
          have hrest := ih hline.2 h.2
          rw [stripCr, List.getLast?_cons_cons]
          unfold stripCr at hrest
          split
          · rename_i hlast
            rw [if_pos hlast] at hrest
            rw [List.dropLast_cons_cons, List.mem_cons, not_or]
            exact ⟨Ne.symm hc, hrest⟩
          · rename_i hlast
            rw [if_neg hlast] at hrest
            rw [List.mem_cons, not_or]
            exact ⟨Ne.symm hc, hrest⟩

theorem notMem_of_strayCr {s : Str} (hs : '\n' ∉ s) (h : strayCr s = false) : '\r' ∉ s := by
  induction s with
  | nil => exact List.not_mem_nil
  | cons c cs ih =>
      rw [List.mem_cons, not_or] at hs
      rw [strayCr, Bool.or_eq_false_iff] at h
      rw [List.mem_cons, not_or]
      refine ⟨?_, ih hs.2 h.2⟩
      rintro rfl
      have hhead : cs.head? = some '\n' := by simpa using h.1
      exact hs.2 (List.mem_of_head? hhead)

theorem notMem_linesFrom {line s l : Str} (hline : '\n' ∉ line)
    (h : strayCr (line ++ s) = false) (hl : l ∈ linesFrom line s) : '\r' ∉ l := by
  induction s generalizing line with
  | nil =>
      rw [List.append_nil] at h
      rw [linesFrom] at hl
      split at hl
      · cases hl
      · rw [List.mem_singleton.mp hl]
        exact notMem_of_strayCr hline h
  | cons c cs ih =>
      rw [linesFrom] at hl
      split at hl
      · rename_i hc
        subst hc
        rcases List.mem_cons.mp hl with rfl | hl
        · exact notMem_stripCr hline h
        · refine ih List.not_mem_nil ?_ hl
          exact strayCr_of_append (s := ['\n']) (strayCr_of_append h)
      · rename_i hc
        have hnone : '\n' ∉ line ++ [c] := by
          rw [List.mem_append, List.mem_singleton, not_or]
          exact ⟨hline, Ne.symm hc⟩
        have hstray : strayCr (line ++ [c] ++ cs) = false := by
          rw [List.append_assoc]
          exact h
        exact ih hnone hstray hl

/-- If every carriage return belongs to the end of a line, the lines are clean. -/
theorem clean_of_mem_lines {s l : Str} (h : strayCr s = false) (hl : l ∈ lines s) : Clean l :=
  ⟨notMem_linesFrom List.not_mem_nil h hl, newline_notMem_lines hl⟩

theorem clean_of_mem_fragments {line chunk : Str} (h : Clean line)
    (hchunk : chunk ∈ fragments line) (hlen : byteLen chunk > 0) : Clean chunk := by
  have hmem : chunk ∈ chunks line := List.mem_filter.mpr ⟨hchunk, decide_eq_true hlen⟩
  exact h.of_subset (infix_of_mem_chunks hmem).2.subset

theorem clean_of_lines_of_clean {s l : Str} (h : '\r' ∉ s) (hl : l ∈ lines s) : Clean l :=
  ⟨fun hmem => h (mem_of_mem_lines hl hmem), newline_notMem_lines hl⟩

theorem notMem_of_chars {text : String} {c : Char} (chars : List Char)
    (h : text = String.ofList chars) (hchars : (chars.all fun d => d ≠ c) = true) :
    c ∉ text.toList := by
  subst h
  rw [String.toList_ofList]
  intro hc
  have hne := List.all_eq_true.mp hchars c hc
  simp at hne

end SmsIrc.CleanTexts
