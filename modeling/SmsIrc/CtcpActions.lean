import SmsIrc.ChunkSizes
import SmsIrc.MessageTexts
import SmsIrc.Replacement

/-!
What becomes of a CTCP ACTION that is sent in chunks.
-/

namespace SmsIrc.CtcpActions

open SmsIrc.ChunkSizes SmsIrc.Database SmsIrc.External SmsIrc.Fragments SmsIrc.MessageTexts
open SmsIrc.Models SmsIrc.Program SmsIrc.SenderCommon SmsIrc.SenderRuns SmsIrc.Text SmsIrc.Util
open SmsIrc.Replacement (eq_of_append_cons)

def ctcpAction (body : Str) : Str := ("\x01ACTION" : Str) ++ body ++ ['\x01']

def IsAction (msg : Str) : Prop := ∃ body : Str, '\x01' ∉ body ∧ msg = ctcpAction body

theorem IsAction.count {msg : Str} (h : IsAction msg) : msg.count '\x01' = 2 := by
  obtain ⟨body, hbody, rfl⟩ := h
  have hnone := List.count_eq_zero_of_not_mem hbody
  unfold ctcpAction
  rw [List.count_append, List.count_append, hnone, List.count_singleton_self]
  decide

theorem IsAction.head {msg : Str} (h : IsAction msg) : ∃ rest, msg = '\x01' :: rest := by
  obtain ⟨body, -, rfl⟩ := h
  exact ⟨_, rfl⟩

theorem startsWith_ctcpAction (body : Str) :
    startsWith (ctcpAction body) ("\x01ACTION " : Str) = true ↔ body.head? = some ' ' := by
  unfold startsWith ctcpAction
  cases body with
  | nil => decide
  | cons c body =>
      rw [List.head?_cons, Option.some.injEq]
      change (' ' == c && true) = true ↔ _
      rw [Bool.and_true, beq_iff_eq, eq_comm]

theorem newline_notMem_ctcpAction (body : Str) : '\n' ∉ ctcpAction body ↔ '\n' ∉ body := by
  have hword : '\n' ∉ ("\x01ACTION" : Str) := by decide
  have hend : '\n' ∉ ['\x01'] := by decide
  unfold ctcpAction
  rw [List.mem_append, List.mem_append, not_or, not_or]
  exact ⟨fun h => h.1.2, fun h => ⟨⟨hword, h⟩, hend⟩⟩

section Lines

theorem linesFrom_of_no_newline {line s : Str} (hs : '\n' ∉ s) (hne : line ++ s ≠ []) :
    linesFrom line s = [line ++ s] := by
  induction s generalizing line with
  | nil =>
      rw [List.append_nil] at hne ⊢
      rw [linesFrom, if_neg hne]
  | cons c s ih =>
      have hc : c ≠ '\n' := fun h => hs (h ▸ List.mem_cons_self)
      rw [List.append_cons] at hne ⊢
      rw [linesFrom, if_neg hc, ih (List.not_mem_of_not_mem_cons hs) hne]

theorem stripCr_isPrefix (line : Str) : stripCr line <+: line := by
  unfold stripCr
  split
  · exact List.dropLast_prefix line
  · exact List.prefix_rfl

theorem split_of_mem_linesFrom {line s l : Str} (h : l ∈ linesFrom line s) :
    ∃ x y, line ++ s = x ++ l ++ y ∧ (x = [] ∨ '\n' ∈ x) := by
  induction s generalizing line with
  | nil =>
      rw [linesFrom] at h
      split at h
      · cases h
      · rw [List.mem_singleton.mp h]
        exact ⟨[], [], by simp, .inl rfl⟩
  | cons c s ih =>
      rw [linesFrom] at h
      split at h
      · rename_i hc
        rcases List.mem_cons.mp h with rfl | h
        · obtain ⟨z, hz⟩ := stripCr_isPrefix line
          refine ⟨[], z ++ c :: s, ?_, .inl rfl⟩
          rw [List.nil_append, ← List.append_assoc, hz]
        · obtain ⟨x, y, hxy, -⟩ := ih h
          refine ⟨line ++ c :: x, y, ?_, .inr (by simp [hc])⟩
          rw [List.nil_append] at hxy
          rw [hxy]
          simp
      · obtain ⟨x, y, hxy, hx⟩ := ih h
        exact ⟨x, y, by rw [List.append_cons, hxy], hx⟩

theorem exists_last_line (line s : Str) {c : Char} (hc : c ≠ '\n') :
    ∃ l ∈ linesFrom line (s ++ [c]), l.getLast? = some c := by
  induction s generalizing line with
  | nil =>
      refine ⟨line ++ [c], ?_, List.getLast?_concat⟩
      rw [linesFrom_of_no_newline (by simpa using hc.symm) (by simp)]
      exact List.mem_singleton_self _
  | cons d s ih =>
      rw [List.cons_append, linesFrom]
      split
      · obtain ⟨l, hl, hlast⟩ := ih []
        exact ⟨l, List.mem_cons_of_mem _ hl, hlast⟩
      · exact ih (line ++ [d])

end Lines

section Chunks

theorem cut_ne_nil (cur : Str) {rest : Str} {c : Char} (h : rest.getLast? = some c)
    (hc : c.utf8Size = 1) : cut cur rest ≠ [] := by
  induction rest generalizing cur with
  | nil => cases h
  | cons d rest ih =>
      rw [cut]
      split
      · simp
      · split
        · simp
        · rename_i hlow hlong
          cases rest with
          | nil =>
              obtain rfl : d = c := Option.some.inj h
              rw [byteLen_append, byteLen_cons, byteLen_nil, hc] at hlong
              omega
          | cons e rest => exact ih _ (by rwa [List.getLast?_cons_cons] at h)

theorem short_or_shorter_of_mem_cut (cur rest : Str) {chunk : Str} (h : chunk ∈ cut cur rest) :
    byteLen chunk ≤ messageMaxLen ∨ chunk.length < (cur ++ rest).length := by
  induction rest generalizing cur with
  | nil => cases h
  | cons c rest ih =>
      rw [cut] at h
      split at h
      · rw [List.length_append, List.length_cons]
        rcases List.mem_cons.mp h with rfl | h
        · exact .inr (by omega)
        · refine (ih [c] h).imp_right fun hlt => hlt.trans_le ?_
          rw [List.singleton_append, List.length_cons]
          omega
      · split at h
        · rename_i hshort
          rw [List.mem_singleton.mp h]
          exact .inl hshort
        · rw [List.append_cons]
          exact ih _ h

theorem short_of_mem_chunks {line : Str} (h : line ∈ chunks line) :
    byteLen line ≤ messageMaxLen := by
  rw [chunks_eq_cut] at h
  exact (short_or_shorter_of_mem_cut [] line h).resolve_right (lt_irrefl _)

/-- The chunk of a text that has two `\x01`, the last one at its end, if it is an action: it
is the whole text, unless what is before the first one is lines that are not sent. -/
theorem action_chunks_iff {pre mid out : Str} (hpre : '\x01' ∉ pre) (hline : '\n' ∉ pre)
    (hmid : '\x01' ∉ mid) (hout : out = pre ++ '\x01' :: (mid ++ ['\x01'])) :
    (∀ chunk ∈ (lines out).flatMap chunks, IsAction chunk) ↔
      IsAction out ∧ '\n' ∉ out ∧ byteLen out ≤ messageMaxLen := by
  have hne : out ≠ [] := by simp [hout]
  constructor
  · intro h
    have hcount : out.count '\x01' = 2 := by
      rw [hout, List.count_append, List.count_cons_self, List.count_append,
        List.count_eq_zero_of_not_mem hpre, List.count_eq_zero_of_not_mem hmid]
      rfl
    -- the last line is sent
    obtain ⟨l, hl, hlast⟩ := exists_last_line [] (pre ++ '\x01' :: mid) (c := '\x01') (by decide)
    have hends : pre ++ '\x01' :: mid ++ ['\x01'] = out := by rw [hout]; simp
    rw [hends] at hl
    obtain ⟨x, y, hsplit, hx⟩ := split_of_mem_linesFrom hl
    rw [List.nil_append] at hsplit
    have hchunks : chunks l ≠ [] := by
      rw [chunks_eq_cut]
      exact cut_ne_nil [] hlast (by decide)
    obtain ⟨c, cs, hcs⟩ := List.exists_cons_of_ne_nil hchunks
    have hmem : c ∈ chunks l := hcs ▸ List.mem_cons_self
    have hc : IsAction c := h c (List.mem_flatMap.mpr ⟨l, hl, hmem⟩)
    obtain ⟨z, hz⟩ : c <+: l := by
      have hflat := flatten_chunks_isPrefix l
      rw [hcs, List.flatten_cons] at hflat
      exact (List.prefix_append _ _).trans hflat
    -- all the others of its characters are elsewhere
    have hrest : x.count '\x01' = 0 ∧ (z ++ y).count '\x01' = 0 := by
      rw [hsplit, ← hz, List.count_append, List.count_append, List.count_append, hc.count] at hcount
      rw [List.count_append]
      omega
    have hzy : z ++ y = [] := by
      by_contra hzy
      obtain ⟨w, d, hw⟩ := List.eq_nil_or_concat' (z ++ y) |>.resolve_left hzy
      have hd : '\x01' = d := by
        have heq : pre ++ '\x01' :: mid ++ ['\x01'] = x ++ c ++ w ++ [d] := by
          rw [hends, hsplit, ← hz, List.append_assoc _ w, ← hw]
          simp
        exact List.singleton_inj.mp (List.append_inj' heq rfl).2
      rw [hw, ← hd, List.count_append] at hrest
      have hone : ['\x01'].count '\x01' = 1 := rfl
      omega
    obtain ⟨rfl, rfl⟩ := List.append_eq_nil_iff.mp hzy
    rw [List.append_nil] at hz
    subst hz
    rw [List.append_nil] at hsplit
    obtain ⟨rest, hrestc⟩ := hc.head
    have hsame : x ++ '\x01' :: rest = pre ++ '\x01' :: (mid ++ ['\x01']) := by
      rw [← hrestc, ← hsplit, hout]
    have hxpre : x = pre := eq_of_append_cons (List.count_eq_zero.mp hrest.1) hpre hsame
    have hxnil : x = [] := hx.resolve_right (hxpre ▸ hline)
    rw [hxnil, List.nil_append] at hsplit
    rw [hsplit]
    exact ⟨hc, newline_notMem_lines hl, short_of_mem_chunks hmem⟩
  · rintro ⟨haction, hnewline, hshort⟩ chunk hchunk
    have hline : lines out = [[] ++ out] := linesFrom_of_no_newline hnewline hne
    rw [hline, List.nil_append, List.flatMap_singleton,
      chunks_eq_cut, cut_remainder [] hne hshort, List.nil_append, List.mem_singleton] at hchunk
    rw [hchunk]
    exact haction

end Chunks

section Rendering

variable [Crates]

/-- The dates and times that messages are stamped with have neither. -/
structure Stamps : Prop where
  dates : ∀ ts, '\x01' ∉ Crates.localDate ts ∧ '\n' ∉ Crates.localDate ts
  times : ∀ ts, '\x01' ∉ Crates.localTime ts ∧ '\n' ∉ Crates.localTime ts

theorem notMem_stamp {c : Char} (hc : c = '\x01' ∨ c = '\n')
    (hdate : ∀ ts, c ∉ Crates.localDate ts) (htime : ∀ ts, c ∉ Crates.localTime ts)
    (now ts : NaiveDateTime) : c ∉ stamp now ts := by
  have hopen : c ∉ ("\x0315\x02[\x02" : Str) := by
    rcases hc with rfl | rfl <;> decide
  have hclose : c ∉ ("\x02]\x02\x0f " : Str) := by
    rcases hc with rfl | rfl <;> decide
  have hblank : c ∉ (" " : Str) := by
    rcases hc with rfl | rfl <;> decide
  unfold stamp
  split
  · simp only [List.mem_append, not_or]
    refine ⟨⟨⟨hopen, ?_⟩, htime ts⟩, hclose⟩
    split
    · rw [List.mem_append, not_or]
      exact ⟨hdate ts, hblank⟩
    · exact List.not_mem_nil
  · exact List.not_mem_nil

theorem byteLen_renderPlain (now ts : NaiveDateTime) (text : Str) :
    byteLen (renderPlain now ts text) = byteLen (stamp now ts) + byteLen text := by
  rw [renderPlain_eq]
  split
  · rename_i haction
    obtain ⟨body, rfl⟩ := List.isPrefixOf_iff_prefix.mp haction
    change byteLen (("\x01ACTION " : Str) ++ stamp now ts ++ body) = _
    simp only [byteLen_append]
    omega
  · rw [byteLen_append]

theorem renderPlain_blank (now ts : NaiveDateTime) (body : Str) :
    renderPlain now ts (ctcpAction (' ' :: body)) =
      ctcpAction (' ' :: (stamp now ts ++ body)) := by
  rw [renderPlain_eq, if_pos ((startsWith_ctcpAction _).mpr rfl)]
  change ("\x01ACTION " : Str) ++ stamp now ts ++ (body ++ ['\x01']) =
    ("\x01ACTION " : Str) ++ (stamp now ts ++ body) ++ ['\x01']
  simp only [List.append_assoc]

theorem renderPlain_other (now ts : NaiveDateTime) {body : Str} (h : body.head? ≠ some ' ') :
    renderPlain now ts (ctcpAction body) = stamp now ts ++ ctcpAction body := by
  rw [renderPlain_eq, if_neg (mt (startsWith_ctcpAction body).mp h)]

/-- When an action stays one: the stamp has a place in it, there is no line feed in it, and
it is short enough with the stamp. -/
structure StaysWhole (now ts : NaiveDateTime) (body : Str) : Prop where
  place : secondsBetween now ts ≤ 5 ∨ body.head? = some ' '
  oneLine : '\n' ∉ body
  short : byteLen (stamp now ts) + byteLen (ctcpAction body) ≤ messageMaxLen

/-- Only a message that is older than five seconds has a time put before it. -/
theorem isAction_stamped_iff (now ts : NaiveDateTime) {body : Str} (hbody : '\x01' ∉ body) :
    IsAction (stamp now ts ++ ctcpAction body) ↔ secondsBetween now ts ≤ 5 := by
  constructor
  · intro haction
    by_contra hold
    obtain ⟨rest, hrest⟩ := haction.head
    rw [stamp, if_pos (by omega)] at hrest
    have hhead : some '\x03' = some '\x01' := congrArg List.head? hrest
    exact absurd hhead (by decide)
  · intro hfresh
    rw [stamp, if_neg (by omega)]
    exact ⟨body, hbody, rfl⟩

theorem rendered_blank_iff {now ts : NaiveDateTime} {rest : Str} (hrest : '\x01' ∉ rest)
    (hctl : '\x01' ∉ stamp now ts) (hline : '\n' ∉ stamp now ts) :
    (∀ chunk ∈ (lines (renderPlain now ts (ctcpAction (' ' :: rest)))).flatMap chunks,
      IsAction chunk) ↔ StaysWhole now ts (' ' :: rest) := by
  have hlen := byteLen_renderPlain now ts (ctcpAction (' ' :: rest))
  have hstamped : '\x01' ∉ (' ' :: (stamp now ts ++ rest) : Str) := by
    rw [List.mem_cons, List.mem_append, not_or, not_or]
    exact ⟨by decide, hctl, hrest⟩
  have hmid : '\x01' ∉ ("ACTION" : Str) ++ ' ' :: (stamp now ts ++ rest) := by
    rw [List.mem_append, not_or]
    exact ⟨by decide, hstamped⟩
  have hout : ctcpAction (' ' :: (stamp now ts ++ rest)) =
      [] ++ '\x01' :: (("ACTION" : Str) ++ ' ' :: (stamp now ts ++ rest) ++ ['\x01']) := rfl
  have hnewline : '\n' ∉ (' ' :: (stamp now ts ++ rest) : Str) ↔ '\n' ∉ (' ' :: rest : Str) := by
    simp only [List.mem_cons, List.mem_append, not_or]
    exact ⟨fun h => ⟨h.1, h.2.2⟩, fun h => ⟨h.1, hline, h.2⟩⟩
  rw [renderPlain_blank, action_chunks_iff List.not_mem_nil List.not_mem_nil hmid hout,
    newline_notMem_ctcpAction, hnewline]
  constructor
  · rintro ⟨-, hone, hshort⟩
    exact ⟨.inr rfl, hone, by rwa [← hlen, renderPlain_blank]⟩
  · rintro ⟨-, hone, hshort⟩
    rw [← hlen, renderPlain_blank] at hshort
    exact ⟨⟨_, hstamped, rfl⟩, hone, hshort⟩

theorem rendered_other_iff {now ts : NaiveDateTime} {body : Str} (hbody : '\x01' ∉ body)
    (hblank : body.head? ≠ some ' ') (hctl : '\x01' ∉ stamp now ts)
    (hline : '\n' ∉ stamp now ts) :
    (∀ chunk ∈ (lines (renderPlain now ts (ctcpAction body))).flatMap chunks, IsAction chunk) ↔
      StaysWhole now ts body := by
  have hlen := byteLen_renderPlain now ts (ctcpAction body)
  have hmid : '\x01' ∉ ("ACTION" : Str) ++ body := by
    rw [List.mem_append, not_or]
    exact ⟨by decide, hbody⟩
  have hout : stamp now ts ++ ctcpAction body =
      stamp now ts ++ '\x01' :: (("ACTION" : Str) ++ body ++ ['\x01']) := rfl
  have hnewline : '\n' ∉ stamp now ts ++ ctcpAction body ↔ '\n' ∉ body := by
    rw [List.mem_append, not_or, newline_notMem_ctcpAction]
    exact and_iff_right hline
  rw [renderPlain_other now ts hblank, action_chunks_iff hctl hline hmid hout,
    isAction_stamped_iff now ts hbody, hnewline]
  constructor
  · rintro ⟨hfresh, hone, hshort⟩
    exact ⟨.inl hfresh, hone, by rwa [← hlen, renderPlain_other now ts hblank]⟩
  · rintro ⟨hfresh, hone, hshort⟩
    rw [← hlen, renderPlain_other now ts hblank] at hshort
    exact ⟨hfresh.resolve_right hblank, hone, hshort⟩

theorem rendered_iff (hstamps : Stamps) (now ts : NaiveDateTime) {body : Str}
    (hbody : '\x01' ∉ body) :
    (∀ chunk ∈ (lines (renderPlain now ts (ctcpAction body))).flatMap chunks, IsAction chunk) ↔
      StaysWhole now ts body := by
  have hctl : '\x01' ∉ stamp now ts :=
    notMem_stamp (.inl rfl) (fun ts => (hstamps.dates ts).1) (fun ts => (hstamps.times ts).1) now ts
  have hline : '\n' ∉ stamp now ts :=
    notMem_stamp (.inr rfl) (fun ts => (hstamps.dates ts).2) (fun ts => (hstamps.times ts).2) now ts
  by_cases hblank : body.head? = some ' '
  · cases body with
    | nil => cases hblank
    | cons c rest =>
        obtain rfl : c = ' ' := Option.some.inj hblank
        exact rendered_blank_iff (List.not_mem_of_not_mem_cons hbody) hctl hline
  · exact rendered_other_iff hbody hblank hctl hline

end Rendering

section Senders

variable [Crates] {σ : Type} [HasStore σ] [Sender σ]

open HasCalls Observed in
/-- What is sent for a plain message are the chunks of its rendering at the time it is read. -/
theorem wp_processMsgPlain [Observed σ] (nick : Str) {msg : Message} {text : Str}
    (htext : msg.text = some text) {now : NaiveDateTime} {s s' : σ}
    (hnow : exec Sender.utcNow s = (.ok now, s')) :
    wp (processMsgPlain nick msg)
      (fun _ t => ∃ made, calls t = calls s ++ made ∧
        handedOn made = (lines (renderPlain now msg.ts text)).flatMap chunks)
      (fun _ t => ∃ made, calls t = calls s ++ made ∧
        handedOn made <+: (lines (renderPlain now msg.ts text)).flatMap chunks) s := by
  have hsame : calls s' = calls s :=
    wp_of_ok (Q := fun _ t => SameCalls s t) hnow (utcNow_calls s)
  have hdelete : ∀ cs : List SenderCall,
      handedOn (cs ++ [.deleteMessage msg.id]) = handedOn cs := by
    intro cs
    rw [handedOn, List.filterMap_append]
    exact List.append_nil _
  rw [processMsgPlain, htext, wp_bind, wp_unwrap_some, wp_bind, wp, hnow]
  dsimp only
  rw [wp_bind]
  refine wp_mono (wp_handedOn nick _ msg.groupTarget s') ?_ ?_
  · rintro _ t ⟨made, hmade, hall⟩
    rw [removeMessage, wp_bind]
    refine wp_mono (wp_record t) (fun _ u hu => ?_) fun _ _ he => he
    have hcalls : calls u = calls s ++ (made ++ [.deleteMessage msg.id]) := by
      rw [hu, hmade, hsame, List.append_assoc]
    refine wp_mono (sameCalls_store _ u) (fun _ v hv => ?_) fun _ v hv => ?_
    · exact ⟨_, Eq.trans hv hcalls, by rw [hdelete, hall]⟩
    · exact ⟨_, Eq.trans hv.1 hcalls, by rw [hdelete, hall]⟩
  · rintro _ t ⟨made, hmade, hsent⟩
    exact ⟨made, by rw [hmade, hsame], hsent⟩

/-- For every sender, all that is sent for an action is an action if the action stays whole,
and only then, once it has been sent. -/
theorem processMsgPlain_actions_iff (hstamps : Stamps) (nick : Str) (msg : Message) (body : Str)
    (hbody : '\x01' ∉ body) (htext : msg.text = some (ctcpAction body)) (now : NaiveDateTime)
    (s s' t : Recorded σ) (r : Except Failure Unit)
    (hnow : exec Sender.utcNow s = (.ok now, s'))
    (hrun : exec (processMsgPlain nick msg) s = (r, t)) :
    ∃ made, t.calls = s.calls ++ made ∧
      (StaysWhole now msg.ts body → ∀ chunk ∈ handedOn made, IsAction chunk) ∧
      (r = .ok () → (∀ chunk ∈ handedOn made, IsAction chunk) → StaysWhole now msg.ts body) := by
  have hiff := rendered_iff hstamps now msg.ts hbody
  cases r with
  | ok _ =>
      obtain ⟨made, hcalls, hall⟩ := wp_of_ok hrun (wp_processMsgPlain nick htext hnow)
      refine ⟨made, hcalls, ?_⟩
      rw [hall, hiff]
      exact ⟨id, fun _ => id⟩
  | error e =>
      obtain ⟨made, hcalls, hsent⟩ := wp_of_error hrun (wp_processMsgPlain nick htext hnow)
      refine ⟨made, hcalls, fun h chunk hchunk => ?_, nofun⟩
      exact hiff.mpr h chunk (hsent.subset hchunk)

end Senders

section Samples

attribute [local instance] Sample.crates Sample.hasStore Sample.sender

theorem decimalInt_chars (n : Int) : ∀ c ∈ decimalInt n, c.isDigit = true ∨ c = '-' := by
  cases n with
  | ofNat n => exact fun c hc => .inl (Nat.isDigit_of_mem_toDigits (by decide) (by decide) hc)
  | negSucc n =>
      intro c hc
      rcases List.mem_cons.mp hc with rfl | hc
      · exact .inr rfl
      · exact .inl (Nat.isDigit_of_mem_toDigits (by decide) (by decide) hc)

theorem stamps_sample : Stamps := by
  have hno : ∀ n : Int, '\x01' ∉ decimalInt n ∧ '\n' ∉ decimalInt n := by
    refine fun n => ⟨fun h => ?_, fun h => ?_⟩
    · exact absurd (decimalInt_chars n _ h) (by decide)
    · exact absurd (decimalInt_chars n _ h) (by decide)
  exact ⟨fun ts => hno _, fun ts => hno _⟩

/-- A database with one message, an action. -/
def withAction (body : Str) : Database.Store :=
  (exec (storeWaMessage Sample.alice (ctcpAction body) none 0) Sample.store).2

def actionRow (body : Str) : Message where
  id := 1
  phoneNumber := normalizeAddress Sample.alice
  pdu := none
  csmsData := none
  groupTarget := none
  text := some (ctcpAction body)
  source := sourceWa
  ts := 0

/-- An action that stays whole. -/
theorem waves_whole : ∃ t : Recorded Database.Store,
    exec (processMsgPlain ['u'] (actionRow " waves")) ⟨withAction " waves", []⟩ = (.ok (), t) ∧
      ∃ made, t.calls = [] ++ made ∧ ∀ chunk ∈ handedOn made, IsAction chunk := by
  have hok : (exec (processMsgPlain ['u'] (actionRow " waves"))
      (⟨withAction " waves", []⟩ : Recorded Database.Store)).1.isOk = true := by decide +kernel
  have hbody : '\x01' ∉ (" waves" : Str) := by decide
  obtain ⟨made, hcalls, hstays, -⟩ := processMsgPlain_actions_iff stamps_sample ['u']
    (actionRow " waves") " waves" hbody rfl 0 _ _ _ _ rfl (exec_eq_of_isOk hok)
  exact ⟨_, exec_eq_of_isOk hok, made, hcalls,
    hstays ⟨.inl (by decide), by decide, by decide +kernel⟩⟩

def brokenRun : Except Failure Unit × Recorded Database.Store :=
  exec (processMsgPlain ['u'] (actionRow " a\nb")) ⟨withAction " a\nb", []⟩

theorem brokenRun_ok : brokenRun.1.isOk = true := by decide +kernel

theorem handedOn_brokenRun :
    handedOn brokenRun.2.calls = [("\x01ACTION a" : Str), ("b\x01" : Str)] := by decide +kernel

/-- An action with a line break is sent in two pieces, neither of which is one. -/
theorem sends_broken_action :
    ¬ ∀ (body : Str) (s t : Recorded Database.Store), '\x01' ∉ body → s.calls = [] →
      exec (processMsgPlain ['u'] (actionRow body)) s = (.ok (), t) →
        ∀ chunk ∈ handedOn t.calls, IsAction chunk := by
  intro h
  have hrun : exec (processMsgPlain ['u'] (actionRow " a\nb"))
      (⟨withAction " a\nb", []⟩ : Recorded Database.Store) = (.ok (), brokenRun.2) :=
    exec_eq_of_isOk brokenRun_ok
  have hactions := h " a\nb" _ _ (by decide) rfl hrun
  rw [handedOn_brokenRun] at hactions
  obtain ⟨rest, hrest⟩ := (hactions _ (List.mem_cons_of_mem _ List.mem_cons_self)).head
  have hhead : some 'b' = some '\x01' := congrArg List.head? hrest
  exact absurd hhead (by decide)

end Samples

end SmsIrc.CtcpActions
