import SmsIrc.Sample
import SmsIrc.WaAck

/-!
What a check of the acknowledgements warns about and removes, at any time of the clock.
-/

namespace SmsIrc.AckWarnings

open SmsIrc.Comm SmsIrc.External SmsIrc.HashMaps SmsIrc.Text SmsIrc.WaAck
open SmsIrc.WaAck.WaAckTracker

/-- The warning for a message that has not been acknowledged. -/
def unackedText (mid : Str) (isUnsent : Bool) : Str :=
  if isUnsent then
    ("Warning: Message ID " : Str) ++ mid ++
      (" is still unsent, because we aren't connected to WhatsApp Web." : Str)
  else
    ("Warning: Sending message ID " : Str) ++ mid ++
      (" has failed, or is taking longer than usual!" : Str)

def pendingText (mid : Str) : Str :=
  ("Warning: Sending message ID " : Str) ++ mid ++
    (" is still pending. Is WhatsApp running and connected?" : Str)

section Texts

theorem unackedText_inj {mid mid' : Str} {b b' : Bool}
    (h : unackedText mid b = unackedText mid' b') : mid = mid' ∧ b = b' := by
  unfold unackedText at h
  cases b with
  | true =>
      cases b' with
      | true =>
          rw [if_pos rfl, if_pos rfl] at h
          exact ⟨List.append_cancel_left (List.append_cancel_right h), rfl⟩
      | false =>
          have hninth : some 'M' = some 'S' := congrArg (fun s => s[9]?) h
          exact absurd hninth (by decide)
  | false =>
      cases b' with
      | true =>
          have hninth : some 'S' = some 'M' := congrArg (fun s => s[9]?) h
          exact absurd hninth (by decide)
      | false =>
          rw [if_neg Bool.false_ne_true, if_neg Bool.false_ne_true] at h
          exact ⟨List.append_cancel_left (List.append_cancel_right h), rfl⟩

theorem pendingText_inj {mid mid' : Str} (h : pendingText mid = pendingText mid') : mid = mid' :=
  List.append_cancel_left (List.append_cancel_right h)

/-- The two kinds of warnings are never the same. -/
theorem unackedText_ne_pendingText (mid mid' : Str) (b : Bool) :
    unackedText mid b ≠ pendingText mid' := by
  intro h
  cases b with
  | true =>
      have hninth : some 'M' = some 'S' := congrArg (fun s => s[9]?) h
      exact absurd hninth (by decide)
  | false =>
      have hlast := congrArg List.getLast? h
      unfold unackedText pendingText at hlast
      rw [if_neg Bool.false_ne_true, List.getLast?_append_of_ne_nil _ (by decide),
        List.getLast?_append_of_ne_nil _ (by decide)] at hlast
      exact absurd hlast (by decide)

end Texts

section Times

theorem millisBetween_mul_le {now ts : NaiveDateTime} (h : ts ≤ now) :
    (millisBetween now ts : Int) * 1000000 ≤ now - ts := by
  have hmillis : ∀ d : Int, 0 ≤ d → ((d.tdiv 1000000 % 2 ^ 64).toNat : Int) * 1000000 ≤ d := by
    intro d hd
    rw [Int.tdiv_eq_ediv_of_nonneg hd]
    omega
  exact hmillis (now - ts) (Int.sub_nonneg_of_le h)

/-- How far apart two times of the clock can be, in nanoseconds: the years of the crate are
less than 2^63 milliseconds. -/
def InRange (ts now : NaiveDateTime) : Prop := now - ts < 2 ^ 63 * 1000000

theorem le_millisBetween {now ts : NaiveDateTime} {n : Nat} (hrange : InRange ts now)
    (h : (n : Int) * 1000000 ≤ now - ts) : n ≤ millisBetween now ts := by
  have hmillis : ∀ d : Int, d < 2 ^ 63 * 1000000 → (n : Int) * 1000000 ≤ d →
      n ≤ (d.tdiv 1000000 % 2 ^ 64).toNat := by
    intro d hd hn
    rw [Int.tdiv_eq_ediv_of_nonneg (by omega)]
    omega
  exact hmillis (now - ts) hrange h

/-- The difference is what it is as a `u64` unless the message is sent later than now. -/
theorem reached {now ts : NaiveDateTime} {n : Nat} (hle : n ≤ millisBetween now ts)
    (hlate : ¬ now < ts) : (n : Int) * 1000000 ≤ now - ts := by
  have hmul := millisBetween_mul_le (not_lt.mp hlate)
  omega

theorem not_late {now ts : NaiveDateTime} {n : Nat} (h : (n : Int) * 1000000 ≤ now - ts) :
    ¬ now < ts := by
  have hnonneg : (0 : Int) ≤ n * 1000000 := by omega
  exact not_lt_of_ge (Int.sub_nonneg.mp (hnonneg.trans h))

end Times

section Checks

theorem entryWarnings_eq (t : WaAckTracker) (now : NaiveDateTime) (mid : Str)
    (mss : MessageSendStatus) :
    t.entryWarnings now mid mss =
      (if t.warns now mss then [.reportFailure (unackedText mid mss.isUnsent)] else []) ++
        if t.warnsPending now mss then [.reportFailure (pendingText mid)] else [] := by
  unfold entryWarnings unackedText pendingText
  cases mss.isUnsent <;> rfl

theorem warns_iff {t : WaAckTracker} {now : NaiveDateTime} {mss : MessageSendStatus} :
    t.warns now mss = true ↔ mss.ackLevel = none ∧ mss.alerted = false ∧
      t.ackWarn ≤ millisBetween now mss.sentTs := by
  rw [warns, Bool.and_eq_true, Bool.and_eq_true, decide_eq_true_eq, Option.isNone_iff_eq_none,
    Bool.not_eq_true', and_assoc, and_comm (b := mss.alerted = false)]

theorem warnsPending_iff {t : WaAckTracker} {now : NaiveDateTime} {mss : MessageSendStatus} :
    t.warnsPending now mss = true ↔ mss.ackLevel = some .pendingSend ∧
      mss.alertedPending = false ∧ t.ackWarnPending ≤ millisBetween now mss.sentTs := by
  rw [warnsPending, Bool.and_eq_true, Bool.and_eq_true, decide_eq_true_eq, decide_eq_true_eq,
    Bool.not_eq_true', and_assoc, and_comm (b := mss.alertedPending = false)]

theorem not_retained_iff {t : WaAckTracker} {now : NaiveDateTime} {mss : MessageSendStatus} :
    t.retained now mss = false ↔ ∃ level, mss.ackLevel = some level ∧ level ≠ .pendingSend ∧
      t.ackExpiry ≤ millisBetween now mss.sentTs := by
  rw [retained]
  cases mss.ackLevel with
  | none => simp
  | some level => cases level <;> simp

variable [Crates]

theorem mem_checkAcks {t : WaAckTracker} {now : NaiveDateTime} {c : ControlBotCommand} :
    c ∈ (t.checkAcks now).2 ↔ ∃ mid mss, t.outgoingMessages.lookup mid = some mss ∧
      (t.warns now mss = true ∧ c = .reportFailure (unackedText mid mss.isUnsent) ∨
        t.warnsPending now mss = true ∧ c = .reportFailure (pendingText mid)) := by
  have hentry : ∀ mid mss, c ∈ t.entryWarnings now mid mss ↔
      t.warns now mss = true ∧ c = .reportFailure (unackedText mid mss.isUnsent) ∨
        t.warnsPending now mss = true ∧ c = .reportFailure (pendingText mid) := by
    intro mid mss
    rw [entryWarnings_eq, List.mem_append]
    refine or_congr ?_ ?_ <;> split <;> simp [*]
  constructor
  · intro h
    obtain ⟨⟨mid, mss⟩, he, hc⟩ := List.mem_flatMap.mp h
    exact ⟨mid, mss, mem_pairs.mp ((Shuffle.mem_run _).mp he), (hentry mid mss).mp hc⟩
  · rintro ⟨mid, mss, hmss, hc⟩
    refine List.mem_flatMap.mpr ⟨(mid, mss), (Shuffle.mem_run _).mpr (mem_pairs.mpr hmss), ?_⟩
    exact (hentry mid mss).mpr hc

theorem unacked_mem_checkAcks {t : WaAckTracker} {now : NaiveDateTime} {mid : Str} {b : Bool} :
    .reportFailure (unackedText mid b) ∈ (t.checkAcks now).2 ↔
      ∃ mss, t.outgoingMessages.lookup mid = some mss ∧ mss.isUnsent = b ∧
        t.warns now mss = true := by
  rw [mem_checkAcks]
  constructor
  · rintro ⟨mid', mss, hmss, ⟨hwarns, heq⟩ | ⟨-, heq⟩⟩
    · obtain ⟨rfl, rfl⟩ := unackedText_inj (ControlBotCommand.reportFailure.inj heq)
      exact ⟨mss, hmss, rfl, hwarns⟩
    · exact absurd (ControlBotCommand.reportFailure.inj heq) (unackedText_ne_pendingText _ _ _)
  · rintro ⟨mss, hmss, rfl, hwarns⟩
    exact ⟨mid, mss, hmss, .inl ⟨hwarns, rfl⟩⟩

theorem pending_mem_checkAcks {t : WaAckTracker} {now : NaiveDateTime} {mid : Str} :
    .reportFailure (pendingText mid) ∈ (t.checkAcks now).2 ↔
      ∃ mss, t.outgoingMessages.lookup mid = some mss ∧ t.warnsPending now mss = true := by
  rw [mem_checkAcks]
  constructor
  · rintro ⟨mid', mss, hmss, ⟨-, heq⟩ | ⟨hwarns, heq⟩⟩
    · exact absurd (ControlBotCommand.reportFailure.inj heq).symm (unackedText_ne_pendingText _ _ _)
    · obtain rfl := pendingText_inj (ControlBotCommand.reportFailure.inj heq)
      exact ⟨mss, hmss, hwarns⟩
  · rintro ⟨mss, hmss, hwarns⟩
    exact ⟨mid, mss, hmss, .inr ⟨hwarns, rfl⟩⟩

theorem lookup_checkAcks {t : WaAckTracker} {now : NaiveDateTime} {mid : Str}
    {mss' : MessageSendStatus} :
    (t.checkAcks now).1.outgoingMessages.lookup mid = some mss' ↔
      ∃ mss, t.outgoingMessages.lookup mid = some mss ∧ t.retained now mss = true ∧
        mss' = t.checkEntry now mss := by
  rw [checkAcks, lookup_retain_eq_some, lookup_mapValues, Option.map_eq_some_iff]
  constructor
  · rintro ⟨⟨mss, hmss, rfl⟩, hkept⟩
    exact ⟨mss, hmss, hkept, rfl⟩
  · rintro ⟨mss, hmss, hkept, rfl⟩
    exact ⟨⟨mss, hmss, rfl⟩, hkept⟩

/-- Warnings are sent, and messages are removed, only when it is time for it. -/
structure InTime (t : WaAckTracker) (now : NaiveDateTime) : Prop where
  unacked : ∀ mid isUnsent, .reportFailure (unackedText mid isUnsent) ∈ (t.checkAcks now).2 →
    ∃ mss, t.outgoingMessages.lookup mid = some mss ∧ t.ackWarn * 1000000 ≤ now - mss.sentTs
  pending : ∀ mid, .reportFailure (pendingText mid) ∈ (t.checkAcks now).2 →
    ∃ mss, t.outgoingMessages.lookup mid = some mss ∧
      t.ackWarnPending * 1000000 ≤ now - mss.sentTs
  removed : ∀ mid mss, t.outgoingMessages.lookup mid = some mss →
    (t.checkAcks now).1.outgoingMessages.lookup mid = none →
      t.ackExpiry * 1000000 ≤ now - mss.sentTs

/-- Nothing is done about a message: what the difference of the times is as a `u64` is less
than what would matter for it, or it has been warned about. -/
structure LeftAlone (t : WaAckTracker) (now : NaiveDateTime) (mss : MessageSendStatus) : Prop where
  unacked : mss.ackLevel = none →
    mss.alerted = true ∨ millisBetween now mss.sentTs < t.ackWarn
  pending : mss.ackLevel = some .pendingSend →
    mss.alertedPending = true ∨ millisBetween now mss.sentTs < t.ackWarnPending
  acked : ∀ level, mss.ackLevel = some level → level ≠ .pendingSend →
    millisBetween now mss.sentTs < t.ackExpiry

omit [Crates] in
theorem leftAlone_iff {t : WaAckTracker} {now : NaiveDateTime} {mss : MessageSendStatus} :
    LeftAlone t now mss ↔
      t.warns now mss ≠ true ∧ t.warnsPending now mss ≠ true ∧ t.retained now mss ≠ false := by
  rw [ne_eq, ne_eq, ne_eq, warns_iff, warnsPending_iff, not_retained_iff]
  constructor
  · rintro ⟨hunacked, hpending, hacked⟩
    refine ⟨?_, ?_, ?_⟩
    · rintro ⟨hlevel, halerted, hle⟩
      rcases hunacked hlevel with h | h
      · exact Bool.false_ne_true (halerted.symm.trans h)
      · exact absurd h (Nat.not_lt.mpr hle)
    · rintro ⟨hlevel, halerted, hle⟩
      rcases hpending hlevel with h | h
      · exact Bool.false_ne_true (halerted.symm.trans h)
      · exact absurd h (Nat.not_lt.mpr hle)
    · rintro ⟨level, hlevel, hne, hle⟩
      exact absurd (hacked level hlevel hne) (Nat.not_lt.mpr hle)
  · rintro ⟨hwarns, hwarnsPending, hretained⟩
    refine ⟨fun hlevel => ?_, fun hlevel => ?_, fun level hlevel hne => ?_⟩
    · by_contra h
      rw [not_or, Bool.not_eq_true, Nat.not_lt] at h
      exact hwarns ⟨hlevel, h⟩
    · by_contra h
      rw [not_or, Bool.not_eq_true, Nat.not_lt] at h
      exact hwarnsPending ⟨hlevel, h⟩
    · by_contra h
      exact hretained ⟨level, hlevel, hne, Nat.not_lt.mp h⟩

theorem removed_iff {t : WaAckTracker} {now : NaiveDateTime} {mid : Str} {mss : MessageSendStatus}
    (hmss : t.outgoingMessages.lookup mid = some mss) :
    (t.checkAcks now).1.outgoingMessages.lookup mid = none ↔ t.retained now mss = false := by
  rw [← Bool.not_eq_true, ← not_iff_not, not_not, ← ne_eq, Option.ne_none_iff_exists']
  constructor
  · rintro ⟨_, hmss'⟩
    obtain ⟨mss', hlookup, hkept, -⟩ := lookup_checkAcks.mp hmss'
    rw [hmss, Option.some.injEq] at hlookup
    exact hlookup ▸ hkept
  · intro hkept
    exact ⟨_, lookup_checkAcks.mpr ⟨mss, hmss, hkept, rfl⟩⟩

/-- A check is in time exactly if it leaves all messages alone that have been sent later than
now. -/
theorem inTime_iff (t : WaAckTracker) (now : NaiveDateTime) :
    InTime t now ↔ ∀ mid mss, t.outgoingMessages.lookup mid = some mss → now < mss.sentTs →
      LeftAlone t now mss := by
  constructor
  · intro h mid mss hmss hlate
    have hsame : ∀ {mss' : MessageSendStatus} {n : Nat},
        t.outgoingMessages.lookup mid = some mss' → ¬ (n : Int) * 1000000 ≤ now - mss'.sentTs := by
      intro mss' n hmss' hle
      rw [hmss, Option.some.injEq] at hmss'
      exact not_late (hmss' ▸ hle) hlate
    refine leftAlone_iff.mpr ⟨fun hwarns => ?_, fun hwarns => ?_, fun hgone => ?_⟩
    · obtain ⟨mss', hmss', hle⟩ := h.unacked mid mss.isUnsent
        (unacked_mem_checkAcks.mpr ⟨mss, hmss, rfl, hwarns⟩)
      exact hsame hmss' hle
    · obtain ⟨mss', hmss', hle⟩ := h.pending mid (pending_mem_checkAcks.mpr ⟨mss, hmss, hwarns⟩)
      exact hsame hmss' hle
    · exact hsame hmss (h.removed mid mss hmss ((removed_iff hmss).mpr hgone))
  · intro h
    have halone : ∀ {mid : Str} {mss : MessageSendStatus},
        t.outgoingMessages.lookup mid = some mss → now < mss.sentTs →
          t.warns now mss ≠ true ∧ t.warnsPending now mss ≠ true ∧ t.retained now mss ≠ false :=
      fun hmss hlate => leftAlone_iff.mp (h _ _ hmss hlate)
    refine ⟨fun mid b hmem => ?_, fun mid hmem => ?_, fun mid mss hmss hnone => ?_⟩
    · obtain ⟨mss, hmss, -, hwarns⟩ := unacked_mem_checkAcks.mp hmem
      exact ⟨mss, hmss, reached (warns_iff.mp hwarns).2.2 fun hlate => (halone hmss hlate).1 hwarns⟩
    · obtain ⟨mss, hmss, hwarns⟩ := pending_mem_checkAcks.mp hmem
      exact ⟨mss, hmss,
        reached (warnsPending_iff.mp hwarns).2.2 fun hlate => (halone hmss hlate).2.1 hwarns⟩
    · have hgone := (removed_iff hmss).mp hnone
      obtain ⟨level, -, -, hle⟩ := not_retained_iff.mp hgone
      exact reached hle fun hlate => (halone hmss hlate).2.2 hgone

end Checks

section Samples

attribute [local instance] Sample.crates

/-- A tracker with a message that was sent ten seconds after the epoch. -/
def sampleTracker : WaAckTracker :=
  (WaAckTracker.new none none none).registerSend 10000000000 ⟨['a'], false⟩ .audio ['m'] false

/-- The clock has been set back by five seconds. -/
theorem warns_early : ¬ InTime sampleTracker 5000000000 := by
  intro h
  have hmem : .reportFailure (unackedText ['m'] false) ∈
      (sampleTracker.checkAcks 5000000000).2 := by decide +kernel
  obtain ⟨mss, hmss, hle⟩ := h.unacked ['m'] false hmem
  have hlookup : sampleTracker.outgoingMessages.lookup ['m'] =
      some ⟨none, 10000000000, .audio, ⟨['a'], false⟩, false, false, false⟩ :=
    AList.lookup_insert _
  rw [hlookup, Option.some.injEq] at hmss
  subst hmss
  exact absurd hle (by decide)

end Samples

end SmsIrc.AckWarnings
