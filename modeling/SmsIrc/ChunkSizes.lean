import SmsIrc.SenderRuns

/-!
The sizes of the chunks that a text is sent in, in bytes.
-/

namespace SmsIrc.ChunkSizes

open SmsIrc.Database SmsIrc.External SmsIrc.Fragments SmsIrc.Program SmsIrc.SenderCommon
open SmsIrc.SenderRuns SmsIrc.Text SmsIrc.Util

/-- A character that more text follows has bytes on both sides of a multiple of the limit,
counted from `n` bytes before the text. -/
def CrossesFrom (n : Nat) (text : Str) : Prop :=
  ∃ before c after, text = before ++ c :: after ∧ after ≠ [] ∧
    (n + byteLen before) / messageMaxLen ≠ (n + byteLen before + c.utf8Size - 1) / messageMaxLen

/-- A character of a line that is not its last one is on both sides of a multiple. -/
def Crosses (line : Str) : Prop := CrossesFrom 0 line

theorem not_crossesFrom_nil (n : Nat) : ¬ CrossesFrom n [] := by
  rintro ⟨before, c, after, h, -⟩
  exact absurd h (by simp)

theorem crossesFrom_cons (n : Nat) (c : Char) (text : Str) :
    CrossesFrom n (c :: text) ↔
      (text ≠ [] ∧ n / messageMaxLen ≠ (n + c.utf8Size - 1) / messageMaxLen) ∨
        CrossesFrom (n + c.utf8Size) text := by
  constructor
  · rintro ⟨before, d, after, htext, hafter, hne⟩
    cases before with
    | nil =>
        rw [List.nil_append, List.cons.injEq] at htext
        obtain ⟨rfl, rfl⟩ := htext
        exact .inl ⟨hafter, hne⟩
    | cons b before =>
        rw [List.cons_append, List.cons.injEq] at htext
        obtain ⟨rfl, htext⟩ := htext
        refine .inr ⟨before, d, after, htext, hafter, ?_⟩
        rwa [byteLen_cons, ← Nat.add_assoc] at hne
  · rintro (⟨htext, hne⟩ | ⟨before, d, after, rfl, hafter, hne⟩)
    · exact ⟨[], c, text, rfl, htext, hne⟩
    · refine ⟨c :: before, d, after, rfl, hafter, ?_⟩
      rwa [byteLen_cons, ← Nat.add_assoc]

theorem crossesFrom_add (n : Nat) (text : Str) :
    CrossesFrom (messageMaxLen + n) text ↔ CrossesFrom n text := by
  unfold messageMaxLen
  induction text generalizing n with
  | nil => exact iff_of_false (not_crossesFrom_nil _) (not_crossesFrom_nil _)
  | cons c text ih =>
      have hpos := c.utf8Size_pos
      rw [crossesFrom_cons, crossesFrom_cons, Nat.add_assoc 350 n, ih]
      unfold messageMaxLen
      refine or_congr (and_congr_right fun _ => not_congr ?_) Iff.rfl
      omega

theorem not_crossesFrom_of_le {n : Nat} {text : Str} (h : n + byteLen text ≤ messageMaxLen) :
    ¬ CrossesFrom n text := by
  rintro ⟨before, c, after, rfl, -, hne⟩
  have hpos := c.utf8Size_pos
  rw [byteLen_append, byteLen_cons] at h
  unfold messageMaxLen at h hne
  omega

theorem not_crosses_of_ascii {line : Str} (h : ∀ c ∈ line, c.utf8Size = 1) : ¬ Crosses line := by
  rintro ⟨before, c, after, rfl, -, hne⟩
  rw [h c (by simp), Nat.add_sub_cancel] at hne
  exact hne rfl

/-- The chunks of a line are no longer than the limit exactly if no character crosses. -/
theorem cut_le_iff {cur : Str} (hcur : byteLen cur ≤ messageMaxLen) (rest : Str) :
    (∀ chunk ∈ cut cur rest, byteLen chunk ≤ messageMaxLen) ↔
      ¬ CrossesFrom (byteLen cur) rest := by
  induction rest generalizing cur with
  | nil => exact iff_of_true (by simp [cut]) (not_crossesFrom_nil _)
  | cons c rest ih =>
      have hpos := c.utf8Size_pos
      have hsize := utf8Size_lt_messageMaxLen c
      have hone : byteLen [c] = c.utf8Size := by rw [byteLen_cons, byteLen_nil, Nat.add_zero]
      rw [cut]
      by_cases hfull : messageMaxLen ≤ byteLen cur
      · -- a cut at the limit
        have heq : byteLen cur = messageMaxLen + 0 := by omega
        rw [if_pos hfull, List.forall_mem_cons, ih (by omega), hone, heq, crossesFrom_add,
          crossesFrom_cons, and_iff_right (by omega), Nat.zero_add]
        refine not_congr (or_iff_right fun h => h.2 ?_).symm
        unfold messageMaxLen at hsize ⊢
        omega
      · rw [if_neg hfull]
        by_cases hshort : byteLen (cur ++ c :: rest) ≤ messageMaxLen
        · rw [if_pos hshort]
          refine iff_of_true (fun chunk hchunk => ?_) (not_crossesFrom_of_le ?_)
          · rw [List.mem_singleton.mp hchunk]
            exact hshort
          · rwa [byteLen_append] at hshort
        · rw [if_neg hshort]
          have hnext : byteLen (cur ++ [c]) = byteLen cur + c.utf8Size := by
            rw [byteLen_append, hone]
          by_cases hover : byteLen cur + c.utf8Size ≤ messageMaxLen
          · rw [ih (by omega), hnext, crossesFrom_cons]
            refine not_congr (or_iff_right fun h => h.2 ?_).symm
            unfold messageMaxLen at hfull hover ⊢
            omega
          · -- the character crosses, and is handed on if another one follows
            cases rest with
            | nil =>
                refine iff_of_true (by simp [cut]) fun h => ?_
                rcases (crossesFrom_cons _ _ _).mp h with h | h
                · exact h.1 rfl
                · exact not_crossesFrom_nil _ h
            | cons d rest =>
                refine iff_of_false (fun h => ?_) (not_not.mpr ?_)
                · rw [cut, if_pos (by omega)] at h
                  have hlong := h _ List.mem_cons_self
                  omega
                · refine (crossesFrom_cons _ _ _).mpr (.inl ⟨by simp, ?_⟩)
                  unfold messageMaxLen at hfull hover ⊢
                  omega

theorem chunks_le_iff (line : Str) :
    (∀ chunk ∈ chunks line, byteLen chunk ≤ messageMaxLen) ↔ ¬ Crosses line := by
  rw [chunks_eq_cut]
  exact cut_le_iff (by decide) line

theorem infix_of_mem_chunks {line chunk : Str} (h : chunk ∈ chunks line) :
    chunk ≠ [] ∧ chunk <:+: line := by
  refine ⟨?_, (List.infix_of_mem_flatten h).trans (flatten_chunks_isPrefix line).isInfix⟩
  rintro rfl
  exact absurd (List.mem_filter.mp h).2 (by simp)

/-- What is sent is a piece of a line, and fits. -/
structure Fits (msg chunk : Str) : Prop where
  ne_nil : chunk ≠ []
  piece : ∃ line ∈ lines msg, chunk <:+: line
  short : byteLen chunk ≤ messageMaxLen

theorem fits_iff (msg : Str) :
    (∀ chunk ∈ (lines msg).flatMap chunks, Fits msg chunk) ↔ ∀ line ∈ lines msg, ¬ Crosses line := by
  constructor
  · intro h line hline
    exact (chunks_le_iff line).mp fun chunk hchunk =>
      (h chunk (List.mem_flatMap.mpr ⟨line, hline, hchunk⟩)).short
  · intro h chunk hchunk
    obtain ⟨line, hline, hchunk⟩ := List.mem_flatMap.mp hchunk
    obtain ⟨hne, hpiece⟩ := infix_of_mem_chunks hchunk
    exact ⟨hne, ⟨line, hline, hpiece⟩, (chunks_le_iff line).mpr (h line hline) chunk hchunk⟩

section Senders

variable [Crates] {σ : Type} [HasStore σ] [Sender σ]

open HasCalls in
/-- Whatever becomes of a text, what has been sent of it are its chunks, from the first one. -/
theorem wp_handedOn [Observed σ] (fromNick msg : Str) (gt : Option Nat) (s : σ) :
    wp (sendRawMessage fromNick msg gt)
      (fun _ t => ∃ made, calls t = calls s ++ made ∧ handedOn made = (lines msg).flatMap chunks)
      (fun _ t => ∃ made, calls t = calls s ++ made ∧
        handedOn made <+: (lines msg).flatMap chunks) s := by
  have hdest : wp (destination gt) (fun _ _ => True) (fun _ _ => True)
      (exec (Sender.record (.sendRawMessage fromNick msg gt)) s).2 :=
    wp_mono (sameCalls_destination gt _) (fun _ _ _ => trivial) fun _ _ _ => trivial
  have hmade : ∀ (dest : Str) (sent : List Str),
      handedOn (.sendRawMessage fromNick msg gt :: sent.map (.sendIrcMessage fromNick dest)) =
        sent := fun dest sent => handedOn_map fromNick dest sent
  refine wp_mono (wp_sendRawMessage_to fromNick msg hdest) ?_ ?_
  · rintro _ t ⟨dest, -, hcalls⟩
    exact ⟨_, hcalls, hmade dest _⟩
  · rintro _ t ⟨dest, sent, hsent, hcalls⟩
    refine ⟨_, hcalls, ?_⟩
    rw [hmade]
    exact hsent

/-- For every sender, all that is sent of a text fits if no line has a character that crosses,
and only then, once the whole text is sent. -/
theorem sendRawMessage_fits_iff (fromNick msg : Str) (gt : Option Nat) (s t : Recorded σ)
    (r : Except Failure Unit) (hrun : exec (sendRawMessage fromNick msg gt) s = (r, t)) :
    ∃ made, t.calls = s.calls ++ made ∧
      ((∀ line ∈ lines msg, ¬ Crosses line) → ∀ chunk ∈ handedOn made, Fits msg chunk) ∧
      (r = .ok () → (∀ chunk ∈ handedOn made, Fits msg chunk) →
        ∀ line ∈ lines msg, ¬ Crosses line) := by
  cases r with
  | ok _ =>
      obtain ⟨made, hcalls, hall⟩ := wp_of_ok hrun (wp_handedOn fromNick msg gt s)
      refine ⟨made, hcalls, ?_⟩
      rw [hall, fits_iff]
      exact ⟨id, fun _ => id⟩
  | error e =>
      obtain ⟨made, hcalls, hsent⟩ := wp_of_error hrun (wp_handedOn fromNick msg gt s)
      refine ⟨made, hcalls, fun h chunk hchunk => ?_, nofun⟩
      exact (fits_iff msg).mpr h chunk (hsent.subset hchunk)

end Senders

section Samples

attribute [local instance] Sample.crates Sample.hasStore Sample.sender

theorem fits_longText : ∃ made, longCalls = [] ++ made ∧
    ∀ chunk ∈ handedOn made, Fits longText chunk := by
  obtain ⟨t, hrun, hcalls⟩ := exec_longText
  obtain ⟨made, hmade, hfits, -⟩ := sendRawMessage_fits_iff ['u'] longText none _ t _ hrun
  rw [hcalls] at hmade
  refine ⟨made, hmade, hfits fun line hline => not_crosses_of_ascii fun c hc => ?_⟩
  have hlines : lines longText = [List.replicate 400 'a', ['b']] := by decide +kernel
  rw [hlines] at hline
  rcases List.mem_pair.mp hline with rfl | rfl
  · rw [List.eq_of_mem_replicate hc]
    rfl
  · rw [List.mem_singleton.mp hc]
    rfl

/-- A character of two bytes at the limit is sent with the chunk before it. -/
theorem sends_long_chunk :
    ¬ ∀ (fromNick msg : Str) (gt : Option Nat) (s t : Recorded Database.Store),
      exec (sendRawMessage fromNick msg gt) s = (.ok (), t) →
      ∃ made, t.calls = s.calls ++ made ∧ ∀ chunk ∈ handedOn made, Fits msg chunk := by
  intro h
  obtain ⟨sent, hsent⟩ : ∃ sent : Str, sent = List.replicate 349 'a' ++ ['\xe9'] := ⟨_, rfl⟩
  have hok : (exec (sendRawMessage ['u'] (sent ++ ['b', 'c']) none)
      (⟨Sample.store, []⟩ : Recorded Database.Store)).1.isOk = true := by
    rw [hsent]
    decide +kernel
  have hcalls : (exec (sendRawMessage ['u'] (sent ++ ['b', 'c']) none)
      (⟨Sample.store, []⟩ : Recorded Database.Store)).2.calls =
        [.sendRawMessage ['u'] (sent ++ ['b', 'c']) none,
          .sendIrcMessage ['u'] ("admin" : Str) sent,
          .sendIrcMessage ['u'] ("admin" : Str) ['b', 'c']] := by
    rw [hsent]
    decide +kernel
  obtain ⟨made, hmade, hfits⟩ :=
    h ['u'] (sent ++ ['b', 'c']) none _ _ (exec_eq_of_isOk hok)
  rw [hcalls, List.nil_append] at hmade
  have hshort := (hfits sent (by rw [← hmade]; simp [handedOn])).short
  rw [hsent] at hshort
  exact absurd hshort (by decide +kernel)

end Samples

end SmsIrc.ChunkSizes
