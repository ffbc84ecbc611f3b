import SmsIrc.AckWarnings
import SmsIrc.Transition

/-!
Runs of the tracker of the acknowledgements: the warnings that are sent for a message, and
the messages that are listed.
-/

namespace SmsIrc.AckRuns

open SmsIrc.AckWarnings SmsIrc.Comm SmsIrc.External SmsIrc.HashMaps SmsIrc.Text
open SmsIrc.Transition SmsIrc.WaAck SmsIrc.WaAck.WaAckTracker

/-- What happens to the tracker; the times are those of the clock. -/
inductive Event where
  | registerSend (now : NaiveDateTime) (dest : Jid) (content : ChatMessageContent) (mid : Str)
      (isUnsent : Bool)
  | extractUnsent
  | onMessageAck (ack : MessageAck)
  | checkAcks (now : NaiveDateTime)

/-- The tracker with what has happened: the messages that have been registered, those that
have been registered as sent, the last acknowledgement of each since then, and all that the
control bot has been told. -/
structure Session where
  tracker : WaAckTracker
  registered : List Str
  sent : List Str
  latest : Str → Option MessageAckLevel
  told : List ControlBotCommand

def started (ackWarnMs ackWarnPendingMs ackExpiryMs : Option Nat) : Session where
  tracker := WaAckTracker.new ackWarnMs ackWarnPendingMs ackExpiryMs
  registered := []
  sent := []
  latest := fun _ => none
  told := []

section Steps

variable [Crates]

def step (s : Session) : Event → Session
  | .registerSend now dest content mid isUnsent =>
      { s with
        tracker := s.tracker.registerSend now dest content mid isUnsent
        registered := mid :: s.registered
        sent := if isUnsent then s.sent else mid :: s.sent
        latest := Function.update s.latest mid none }
  | .extractUnsent => { s with tracker := s.tracker.extractUnsent.2 }
  | .onMessageAck ack =>
      { s with
        tracker := (s.tracker.onMessageAck ack).1
        latest := Function.update s.latest ack.id (some ack.level)
        told := s.told ++ (s.tracker.onMessageAck ack).2 }
  | .checkAcks now =>
      { s with
        tracker := (s.tracker.checkAcks now).1
        told := s.told ++ (s.tracker.checkAcks now).2 }

def next (s : Session) (e : Event) : Option Session := some (step s e)

omit [Crates] in
theorem lookup_registerSend (t : WaAckTracker) (now : NaiveDateTime) (dest : Jid)
    (content : ChatMessageContent) (mid mid' : Str) (isUnsent : Bool) :
    (t.registerSend now dest content mid isUnsent).outgoingMessages.lookup mid' =
      if mid' = mid then some ⟨none, now, content, dest, isUnsent, false, false⟩
      else t.outgoingMessages.lookup mid' := lookup_insert _ _ _ _

theorem lookup_extractUnsent {t : WaAckTracker} {mid : Str} {mss : MessageSendStatus} :
    t.extractUnsent.2.outgoingMessages.lookup mid = some mss ↔
      t.outgoingMessages.lookup mid = some mss ∧ mss.isUnsent = false := by
  rw [extractUnsent, lookup_retain_eq_some, Bool.not_eq_true']

omit [Crates] in
theorem lookup_onMessageAck (t : WaAckTracker) (ack : MessageAck) (mid : Str) :
    (t.onMessageAck ack).1.outgoingMessages.lookup mid =
      (t.outgoingMessages.lookup mid).map fun mss =>
        if mid = ack.id then { mss with ackLevel := some ack.level } else mss := by
  rw [onMessageAck]
  cases hmss : t.outgoingMessages.lookup ack.id with
  | none =>
      dsimp only
      by_cases hid : mid = ack.id
      · rw [hid, hmss]
        rfl
      · simp only [if_neg hid, Option.map_id']
  | some mss =>
      dsimp only
      rw [lookup_insert]
      by_cases hid : mid = ack.id
      · rw [if_pos hid, hid, hmss, Option.map_some, if_pos rfl]
      · simp only [if_neg hid, Option.map_id']

/-- An entry tells the last acknowledgement of its message. -/
def Levelled (s : Session) : Prop :=
  ∀ mid mss, s.tracker.outgoingMessages.lookup mid = some mss → mss.ackLevel = s.latest mid

theorem levelled_step {s : Session} (e : Event) (h : Levelled s) : Levelled (step s e) := by
  intro mid mss' hmss'
  cases e with
  | registerSend now dest content mid' isUnsent =>
      dsimp only [step] at hmss' ⊢
      rw [lookup_registerSend] at hmss'
      rw [Function.update_apply]
      split at hmss'
      · cases hmss'
        rename_i hid
        rw [if_pos hid]
      · rename_i hid
        rw [if_neg hid]
        exact h mid mss' hmss'
  | extractUnsent => exact h mid mss' (lookup_extractUnsent.mp hmss').1
  | onMessageAck ack =>
      dsimp only [step] at hmss' ⊢
      rw [lookup_onMessageAck, Option.map_eq_some_iff] at hmss'
      obtain ⟨mss, hmss, rfl⟩ := hmss'
      rw [Function.update_apply]
      split
      · rfl
      · exact h mid mss hmss
  | checkAcks now =>
      obtain ⟨mss, hmss, -, rfl⟩ := lookup_checkAcks.mp hmss'
      exact h mid mss hmss

end Steps

section Warnings

/-- A kind of warnings: which ones they are, the mark of the messages that have been warned
about, and when that is due. -/
structure Kind where
  warning : Str → ControlBotCommand → Bool
  alerted : MessageSendStatus → Bool
  due : WaAckTracker → NaiveDateTime → MessageSendStatus → Bool
  alerted_of_due : ∀ t now mss, due t now mss = true → alerted mss = false
  alerted_checkEntry : ∀ t now mss, alerted (t.checkEntry now mss) = (alerted mss || due t now mss)
  alerted_level : ∀ mss level, alerted { mss with ackLevel := level } = alerted mss
  alerted_new : ∀ now content dest isUnsent,
    alerted ⟨none, now, content, dest, isUnsent, false, false⟩ = false
  countP_entry : ∀ t now mid mid' mss, (WaAckTracker.entryWarnings t now mid' mss).countP
    (warning mid) = if mid' = mid then (due t now mss).toNat else 0
  countP_ack : ∀ t ack mid, (WaAckTracker.onMessageAck t ack).2.countP (warning mid) = 0

theorem countP_onMessageAck {p : ControlBotCommand → Bool} (t : WaAckTracker) (ack : MessageAck)
    (hp : ∀ text, p (.reportFailure text) = true → text.head? = some 'W') :
    (t.onMessageAck ack).2.countP p = 0 := by
  rw [List.countP_eq_zero]
  intro c hc hpc
  rw [onMessageAck] at hc
  split at hc
  · dsimp only at hc
    split at hc
    · rw [List.mem_singleton] at hc
      subst hc
      have hfirst : some 'E' = some 'W' := hp _ hpc
      exact absurd hfirst (by decide)
    · cases hc
  · cases hc

def unacked : Kind where
  warning mid c := c = .reportFailure (unackedText mid true) ∨
    c = .reportFailure (unackedText mid false)
  alerted := MessageSendStatus.alerted
  due := WaAckTracker.warns
  alerted_of_due t now mss h := by
    rw [warns, Bool.and_eq_true, Bool.not_eq_true'] at h
    exact h.2
  alerted_checkEntry _ _ _ := rfl
  alerted_level _ _ := rfl
  alerted_new _ _ _ _ := rfl
  countP_entry t now mid mid' mss := by
    rw [entryWarnings_eq, List.countP_append]
    have hpending : ∀ b : Bool, (if b then [ControlBotCommand.reportFailure (pendingText mid')]
        else []).countP (fun c => decide (c = .reportFailure (unackedText mid true) ∨
          c = .reportFailure (unackedText mid false))) = 0 := by
      intro b
      rw [List.countP_eq_zero]
      intro c hc hp
      cases b with
      | true =>
          rw [if_pos rfl, List.mem_singleton] at hc
          subst hc
          rcases of_decide_eq_true hp with heq | heq <;>
            exact unackedText_ne_pendingText _ _ _ (ControlBotCommand.reportFailure.inj heq).symm
      | false => cases hc
    rw [hpending, Nat.add_zero]
    by_cases hid : mid' = mid
    · subst hid
      cases t.warns now mss <;> cases mss.isUnsent <;> simp
    · rw [if_neg hid, List.countP_eq_zero]
      intro c hc hp
      split at hc
      · rw [List.mem_singleton] at hc
        subst hc
        rcases of_decide_eq_true hp with heq | heq <;>
          exact hid (unackedText_inj (ControlBotCommand.reportFailure.inj heq)).1
      · cases hc
  countP_ack t ack mid := countP_onMessageAck t ack fun text h => by
    rcases of_decide_eq_true h with heq | heq <;>
      · rw [ControlBotCommand.reportFailure.inj heq]
        rfl

def pending : Kind where
  warning mid c := c = .reportFailure (pendingText mid)
  alerted := MessageSendStatus.alertedPending
  due := WaAckTracker.warnsPending
  alerted_of_due t now mss h := by
    rw [warnsPending, Bool.and_eq_true, Bool.not_eq_true'] at h
    exact h.2
  alerted_checkEntry _ _ _ := rfl
  alerted_level _ _ := rfl
  alerted_new _ _ _ _ := rfl
  countP_entry t now mid mid' mss := by
    rw [entryWarnings_eq, List.countP_append]
    have hunacked : ∀ b b' : Bool, (if b then
        [ControlBotCommand.reportFailure (unackedText mid' b')] else []).countP
          (fun c => decide (c = .reportFailure (pendingText mid))) = 0 := by
      intro b b'
      rw [List.countP_eq_zero]
      intro c hc hp
      cases b with
      | true =>
          rw [if_pos rfl, List.mem_singleton] at hc
          subst hc
          exact unackedText_ne_pendingText _ _ _
            (ControlBotCommand.reportFailure.inj (of_decide_eq_true hp))
      | false => cases hc
    rw [hunacked, Nat.zero_add]
    by_cases hid : mid' = mid
    · subst hid
      cases t.warnsPending now mss <;> simp
    · rw [if_neg hid, List.countP_eq_zero]
      intro c hc hp
      split at hc
      · rw [List.mem_singleton] at hc
        subst hc
        exact hid (pendingText_inj (ControlBotCommand.reportFailure.inj (of_decide_eq_true hp)))
      · cases hc
  countP_ack t ack mid := countP_onMessageAck t ack fun text h => by
    rw [ControlBotCommand.reportFailure.inj (of_decide_eq_true h)]
    rfl

variable [Crates]

theorem countP_checkAcks (kind : Kind) (t : WaAckTracker) (now : NaiveDateTime) (mid : Str) :
    (t.checkAcks now).2.countP (kind.warning mid) =
      ((t.outgoingMessages.lookup mid).elim false (kind.due t now)).toNat := by
  have hothers : ∀ es : List (Str × MessageSendStatus), (∀ e ∈ es, e.1 ≠ mid) →
      (es.flatMap fun e => t.entryWarnings now e.1 e.2).countP (kind.warning mid) = 0 := by
    intro es hes
    rw [List.countP_flatMap, List.sum_eq_zero]
    intro n hn
    obtain ⟨e, he, rfl⟩ := List.mem_map.mp hn
    exact (kind.countP_entry t now mid e.1 e.2).trans (if_neg (hes e he))
  have hperm := ((Crates.hashOrder.perm (pairs t.outgoingMessages)).flatMap_right
    fun e => t.entryWarnings now e.1 e.2)
  rw [checkAcks]
  dsimp only
  rw [hperm.countP_eq]
  cases hmss : t.outgoingMessages.lookup mid with
  | none =>
      refine hothers _ fun e he hid => ?_
      obtain ⟨mid', mss⟩ := e
      rw [mem_pairs] at he
      dsimp only at hid
      rw [hid, hmss] at he
      cases he
  | some mss =>
      rw [((pairs_perm_of_lookup hmss).flatMap_right _).countP_eq, List.flatMap_cons,
        List.countP_append, kind.countP_entry, if_pos rfl, Option.elim_some, hothers, Nat.add_zero]
      rintro ⟨mid', mss'⟩ he hid
      rw [mem_pairs, lookup_erase, if_pos hid] at he
      cases he

/-- The marks tell how often there has been a warning. -/
structure Counted (kind : Kind) (s : Session) : Prop where
  tracked : ∀ mid mss, s.tracker.outgoingMessages.lookup mid = some mss →
    s.told.countP (kind.warning mid) = (kind.alerted mss).toNat
  once : ∀ mid, s.told.countP (kind.warning mid) ≤ 1
  unknown : ∀ mid, mid ∉ s.registered → s.told.countP (kind.warning mid) = 0

/-- The messages that are tracked have been registered. -/
def Known (s : Session) : Prop :=
  ∀ mid mss, s.tracker.outgoingMessages.lookup mid = some mss → mid ∈ s.registered

/-- A message id is registered once. -/
def Fresh (s : Session) : Event → Prop
  | .registerSend _ _ _ mid _ => mid ∉ s.registered
  | _ => True

theorem known_step {s : Session} (e : Event) (h : Known s) : Known (step s e) := by
  intro mid mss' hmss'
  cases e with
  | registerSend now dest content mid' isUnsent =>
      dsimp only [step] at hmss' ⊢
      rw [lookup_registerSend] at hmss'
      split at hmss'
      · rename_i hid
        exact List.mem_cons.mpr (.inl hid)
      · exact List.mem_cons_of_mem _ (h mid mss' hmss')
  | extractUnsent => exact h mid mss' (lookup_extractUnsent.mp hmss').1
  | onMessageAck ack =>
      dsimp only [step] at hmss' ⊢
      rw [lookup_onMessageAck, Option.map_eq_some_iff] at hmss'
      obtain ⟨mss, hmss, rfl⟩ := hmss'
      exact h mid mss hmss
  | checkAcks now =>
      obtain ⟨mss, hmss, -, rfl⟩ := lookup_checkAcks.mp hmss'
      exact h mid mss hmss

theorem countP_told_checkAcks (kind : Kind) (s : Session) (now : NaiveDateTime) (mid : Str) :
    (step s (.checkAcks now)).told.countP (kind.warning mid) =
      s.told.countP (kind.warning mid) +
        ((s.tracker.outgoingMessages.lookup mid).elim false (kind.due s.tracker now)).toNat := by
  rw [← countP_checkAcks, ← List.countP_append]
  rfl

theorem Counted.told_checkAcks {kind : Kind} {s : Session} (h : Counted kind s)
    (now : NaiveDateTime) {mid : Str} {mss : MessageSendStatus}
    (hmss : s.tracker.outgoingMessages.lookup mid = some mss) :
    (step s (.checkAcks now)).told.countP (kind.warning mid) =
      (kind.alerted (s.tracker.checkEntry now mss)).toNat := by
  rw [countP_told_checkAcks, h.tracked mid mss hmss, hmss, Option.elim_some,
    kind.alerted_checkEntry]
  cases hdue : kind.due s.tracker now mss with
  | true =>
      rw [kind.alerted_of_due _ _ _ hdue]
      rfl
  | false => rw [Bool.or_false, Bool.toNat_false, Nat.add_zero]

theorem counted_checkAcks {kind : Kind} {s : Session} (now : NaiveDateTime) (hknown : Known s)
    (h : Counted kind s) : Counted kind (step s (.checkAcks now)) := by
  refine ⟨fun mid mss' hmss' => ?_, fun mid => ?_, fun mid hmid => ?_⟩
  · obtain ⟨mss, hmss, -, rfl⟩ := lookup_checkAcks.mp hmss'
    exact h.told_checkAcks now hmss
  · cases hmss : s.tracker.outgoingMessages.lookup mid with
    | none =>
        rw [countP_told_checkAcks, hmss]
        exact h.once mid
    | some mss =>
        rw [h.told_checkAcks now hmss]
        exact Bool.toNat_le _
  · cases hmss : s.tracker.outgoingMessages.lookup mid with
    | none =>
        rw [countP_told_checkAcks, hmss]
        exact h.unknown mid hmid
    | some mss => exact absurd (hknown mid mss hmss) hmid

theorem counted_step {kind : Kind} {s : Session} {e : Event} (hfresh : Fresh s e)
    (hknown : Known s) (h : Counted kind s) : Counted kind (step s e) := by
  cases e with
  | registerSend now dest content mid isUnsent =>
      refine ⟨fun mid' mss hmss => ?_, h.once, fun mid' hmid' => ?_⟩
      · dsimp only [step] at hmss ⊢
        rw [lookup_registerSend] at hmss
        split at hmss
        · rename_i hid
          cases hmss
          rw [hid, h.unknown mid hfresh, kind.alerted_new]
          rfl
        · exact h.tracked mid' mss hmss
      · exact h.unknown mid' (List.not_mem_of_not_mem_cons hmid')
  | extractUnsent =>
      exact ⟨fun mid mss hmss => h.tracked mid mss (lookup_extractUnsent.mp hmss).1,
        h.once, h.unknown⟩
  | onMessageAck ack =>
      have hcount : ∀ mid, (step s (.onMessageAck ack)).told.countP (kind.warning mid) =
          s.told.countP (kind.warning mid) := by
        intro mid
        rw [step, List.countP_append, kind.countP_ack, Nat.add_zero]
      refine ⟨fun mid mss' hmss' => ?_, fun mid => ?_, fun mid hmid => ?_⟩
      · dsimp only [step] at hmss'
        rw [lookup_onMessageAck, Option.map_eq_some_iff] at hmss'
        obtain ⟨mss, hmss, rfl⟩ := hmss'
        rw [hcount, h.tracked mid mss hmss]
        split
        · exact congrArg Bool.toNat (kind.alerted_level mss (some ack.level)).symm
        · rfl
      · rw [hcount]
        exact h.once mid
      · rw [hcount]
        exact h.unknown mid hmid
  | checkAcks now => exact counted_checkAcks now hknown h

omit [Crates] in
theorem counted_started (kind : Kind) (ackWarnMs ackWarnPendingMs ackExpiryMs : Option Nat) :
    Counted kind (started ackWarnMs ackWarnPendingMs ackExpiryMs) where
  tracked _ _ h := by cases h
  once _ := Nat.zero_le 1
  unknown _ _ := rfl

/-- A message that is due in a check, or has been before, has been warned about after it. -/
theorem Counted.warned {kind : Kind} {s : Session} (h : Counted kind s) {now : NaiveDateTime}
    {mid : Str} {mss : MessageSendStatus}
    (hmss : s.tracker.outgoingMessages.lookup mid = some mss)
    (hdue : kind.alerted mss = false → kind.due s.tracker now mss = true) :
    ∃ c ∈ (step s (.checkAcks now)).told, kind.warning mid c = true := by
  have halerted : kind.alerted (s.tracker.checkEntry now mss) = true := by
    rw [kind.alerted_checkEntry, Bool.or_eq_true]
    cases hmark : kind.alerted mss with
    | true => exact .inl rfl
    | false => exact .inr (hdue hmark)
  have hcount := h.told_checkAcks now hmss
  rw [halerted] at hcount
  exact List.countP_pos_iff.mp (by rw [hcount]; exact Nat.one_pos)

/-- The years of the crate's times are less than 2^18 in either direction. -/
def Datable (ts : NaiveDateTime) : Prop :=
  -(2 ^ 18 * 366 * 86400000000000) ≤ ts ∧ ts ≤ 2 ^ 18 * 366 * 86400000000000

omit [Crates] in
theorem inRange_of_datable {ts now : NaiveDateTime} (hts : Datable ts) (hnow : Datable now) :
    InRange ts now := by
  have hdiff : ∀ a b : Int, -(2 ^ 18 * 366 * 86400000000000) ≤ a →
      b ≤ 2 ^ 18 * 366 * 86400000000000 → b - a < 2 ^ 63 * 1000000 := by
    intro a b ha hb
    omega
  exact hdiff ts now hts.1 hnow.2

/-- A message id is registered once, and the clock's times are those of the crate. -/
structure Orderly (s : Session) (e : Event) : Prop where
  fresh : Fresh s e
  datable : ∀ now, (∃ dest content mid isUnsent,
    e = .registerSend now dest content mid isUnsent) ∨ e = .checkAcks now → Datable now

def Dated (s : Session) : Prop :=
  ∀ mid mss, s.tracker.outgoingMessages.lookup mid = some mss → Datable mss.sentTs

theorem dated_step {s : Session} {e : Event} (hC : Orderly s e) (h : Dated s) :
    Dated (step s e) := by
  intro mid mss' hmss'
  cases e with
  | registerSend now dest content mid' isUnsent =>
      dsimp only [step] at hmss'
      rw [lookup_registerSend] at hmss'
      split at hmss'
      · cases hmss'
        exact hC.datable now (.inl ⟨dest, content, mid', isUnsent, rfl⟩)
      · exact h mid mss' hmss'
  | extractUnsent => exact h mid mss' (lookup_extractUnsent.mp hmss').1
  | onMessageAck ack =>
      dsimp only [step] at hmss'
      rw [lookup_onMessageAck, Option.map_eq_some_iff] at hmss'
      obtain ⟨mss, hmss, rfl⟩ := hmss'
      have hts := h mid mss hmss
      split
      · exact hts
      · exact hts
  | checkAcks now =>
      obtain ⟨mss, hmss, -, rfl⟩ := lookup_checkAcks.mp hmss'
      exact h mid mss hmss

/-- What holds of the tracker after every run. -/
structure Tracked (s : Session) : Prop where
  levelled : Levelled s
  known : Known s
  dated : Dated s
  unacked : Counted unacked s
  pending : Counted pending s

theorem tracked_step {s : Session} {e : Event} (hC : Orderly s e) (h : Tracked s) :
    Tracked (step s e) where
  levelled := levelled_step e h.levelled
  known := known_step e h.known
  dated := dated_step hC h.dated
  unacked := counted_step hC.fresh h.known h.unacked
  pending := counted_step hC.fresh h.known h.pending

omit [Crates] in
theorem tracked_started (ackWarnMs ackWarnPendingMs ackExpiryMs : Option Nat) :
    Tracked (started ackWarnMs ackWarnPendingMs ackExpiryMs) where
  levelled _ _ h := by cases h
  known _ _ h := by cases h
  dated _ _ h := by cases h
  unacked := counted_started _ _ _ _
  pending := counted_started _ _ _ _

/-- There is at most one warning of each kind for a message. -/
def AtMostOnce (s : Session) : Prop :=
  ∀ mid, s.told.countP (unacked.warning mid) ≤ 1 ∧ s.told.countP (pending.warning mid) ≤ 1

/-- A message that is old enough in a check has been warned about after it. -/
structure NeverMissed (s : Session) (now : NaiveDateTime) : Prop where
  unacked : ∀ mid mss, s.tracker.outgoingMessages.lookup mid = some mss →
    s.tracker.ackWarn * 1000000 ≤ now - mss.sentTs → s.latest mid = none →
      ∃ c ∈ (step s (.checkAcks now)).told, unacked.warning mid c = true
  pending : ∀ mid mss, s.tracker.outgoingMessages.lookup mid = some mss →
    s.tracker.ackWarnPending * 1000000 ≤ now - mss.sentTs → s.latest mid = some .pendingSend →
      ∃ c ∈ (step s (.checkAcks now)).told, pending.warning mid c = true

theorem neverMissed_of_tracked {s : Session} {now : NaiveDateTime} (hnow : Datable now)
    (h : Tracked s) : NeverMissed s now where
  unacked mid mss hmss hold hlatest := by
    refine h.unacked.warned hmss fun hmark => ?_
    have hle := le_millisBetween (inRange_of_datable (h.dated mid mss hmss) hnow) hold
    have hlevel : mss.ackLevel = none := (h.levelled mid mss hmss).trans hlatest
    have halerted : mss.alerted = false := hmark
    change s.tracker.warns now mss = true
    rw [warns, hlevel, halerted, decide_eq_true hle]
    rfl
  pending mid mss hmss hold hlatest := by
    refine h.pending.warned hmss fun hmark => ?_
    have hle := le_millisBetween (inRange_of_datable (h.dated mid mss hmss) hnow) hold
    have hlevel : mss.ackLevel = some .pendingSend := (h.levelled mid mss hmss).trans hlatest
    have halerted : mss.alertedPending = false := hmark
    change s.tracker.warnsPending now mss = true
    rw [warnsPending, hlevel, halerted, decide_eq_true hle]
    rfl

/-- Warnings come at most once in a run, and each check sends those that are missing. -/
theorem warned_in_run {ackWarnMs ackWarnPendingMs ackExpiryMs : Option Nat} {es : List Event}
    (hC : AllSteps next Orderly (started ackWarnMs ackWarnPendingMs ackExpiryMs) es) :
    AllSteps next (fun s e => AtMostOnce (step s e) ∧
      ∀ now, e = .checkAcks now → NeverMissed s now)
        (started ackWarnMs ackWarnPendingMs ackExpiryMs) es := by
  refine hC.imp (I := Tracked) (fun s e t hC h ht => ?_) (fun s e hC h => ?_)
    (tracked_started _ _ _)
  · cases ht
    exact tracked_step hC h
  · have ht := tracked_step hC h
    refine ⟨fun mid => ⟨ht.unacked.once mid, ht.pending.once mid⟩, ?_⟩
    rintro now rfl
    exact neverMissed_of_tracked (hC.datable now (.inr rfl)) h

end Warnings

section Listings

/-- The line with the id of a message. -/
def idLine (mid : Str) : Str := ("  (message ID \x11" : Str) ++ mid ++ ("\x0f)" : Str)

variable [Crates]

theorem mem_entryLines {now : NaiveDateTime} {mid mid' : Str} {mss : MessageSendStatus} :
    idLine mid ∈ entryLines now mid' mss ↔ mid = mid' := by
  rw [entryLines, List.mem_cons, List.mem_singleton]
  constructor
  · rintro (heq | heq)
    · have hfirst : some ' ' = some '-' := congrArg List.head? heq
      exact absurd hfirst (by decide)
    · exact List.append_cancel_left (List.append_cancel_right heq)
  · rintro rfl
    exact .inr rfl

theorem mem_printAcks {t : WaAckTracker} {now : NaiveDateTime} {mid : Str} :
    idLine mid ∈ t.printAcks now ↔ ∃ mss, t.outgoingMessages.lookup mid = some mss := by
  have hlines : idLine mid ∈ ((Crates.hashOrder.run (pairs t.outgoingMessages)).flatMap
      fun e => entryLines now e.1 e.2) ↔
        ∃ mss, t.outgoingMessages.lookup mid = some mss := by
    rw [List.mem_flatMap]
    constructor
    · rintro ⟨⟨mid', mss⟩, he, hline⟩
      obtain rfl := mem_entryLines.mp hline
      exact ⟨mss, mem_pairs.mp ((Shuffle.mem_run _).mp he)⟩
    · rintro ⟨mss, hmss⟩
      exact ⟨(mid, mss), (Shuffle.mem_run _).mpr (mem_pairs.mpr hmss), mem_entryLines.mpr rfl⟩
  rw [← hlines, printAcks]
  split
  · rename_i hnone
    rw [hnone]
    refine iff_of_false (fun h => ?_) List.not_mem_nil
    have hfirst : some ' ' = some 'N' := congrArg List.head? (List.mem_singleton.mp h)
    exact absurd hfirst (by decide)
  · exact Iff.rfl

/-- It is not known that the message has got there. -/
def Failing (level : Option MessageAckLevel) : Prop :=
  level = none ∨ level = some .pendingSend ∨ level = some .error

/-- All messages that have been sent and have not got there are listed at all times. -/
def Visible (s : Session) : Prop :=
  ∀ mid ∈ s.sent, Failing (s.latest mid) → ∀ now, idLine mid ∈ s.tracker.printAcks now

theorem visible_iff {s : Session} : Visible s ↔ ∀ mid ∈ s.sent, Failing (s.latest mid) →
    ∃ mss, s.tracker.outgoingMessages.lookup mid = some mss :=
  ⟨fun h mid hmid hlatest => mem_printAcks.mp (h mid hmid hlatest 0),
    fun h mid hmid hlatest _ => mem_printAcks.mpr (h mid hmid hlatest)⟩

/-- No failure is taken from the list, and none is reported that is no longer on it. -/
def Spares (s : Session) : Event → Prop
  | .registerSend _ _ _ _ _ => True
  | .extractUnsent => ∀ mid ∈ s.sent, ∀ mss,
      s.tracker.outgoingMessages.lookup mid = some mss → Failing mss.ackLevel →
        mss.isUnsent = false
  | .onMessageAck ack => ack.id ∈ s.sent → Failing (some ack.level) →
      ack.id ∈ s.tracker.outgoingMessages
  | .checkAcks now => ∀ mid ∈ s.sent, ∀ mss,
      s.tracker.outgoingMessages.lookup mid = some mss → mss.ackLevel = some .error →
        millisBetween now mss.sentTs < s.tracker.ackExpiry

theorem visible_registerSend {s : Session} (h : Visible s) (now : NaiveDateTime) (dest : Jid)
    (content : ChatMessageContent) (mid : Str) (isUnsent : Bool) :
    Visible (step s (.registerSend now dest content mid isUnsent)) := by
  rw [visible_iff] at h ⊢
  intro mid' hmid' hlatest
  dsimp only [step] at hmid' hlatest ⊢
  rw [lookup_registerSend]
  split
  · exact ⟨_, rfl⟩
  · rename_i hid
    refine h mid' ?_ ?_
    · split at hmid'
      · exact hmid'
      · exact (List.mem_cons.mp hmid').resolve_left hid
    · rwa [Function.update_of_ne hid] at hlatest

theorem visible_extractUnsent_iff {s : Session} (hlevelled : Levelled s) (h : Visible s) :
    Visible (step s .extractUnsent) ↔ Spares s .extractUnsent := by
  rw [visible_iff] at h ⊢
  constructor
  · intro hafter mid hmid mss hmss hlevel
    rw [hlevelled mid mss hmss] at hlevel
    obtain ⟨mss', hmss'⟩ := hafter mid hmid hlevel
    obtain ⟨hbefore, hunsent⟩ := lookup_extractUnsent.mp hmss'
    rw [hmss, Option.some.injEq] at hbefore
    exact hbefore ▸ hunsent
  · intro hC mid hmid hlatest
    obtain ⟨mss, hmss⟩ := h mid hmid hlatest
    refine ⟨mss, lookup_extractUnsent.mpr ⟨hmss, hC mid hmid mss hmss ?_⟩⟩
    rw [hlevelled mid mss hmss]
    exact hlatest

/-- An acknowledgement changes no entry into nothing, nor nothing into an entry. -/
theorem tracked_onMessageAck {s : Session} {ack : MessageAck} (mid : Str) :
    (∃ mss, (step s (.onMessageAck ack)).tracker.outgoingMessages.lookup mid = some mss) ↔
      ∃ mss, s.tracker.outgoingMessages.lookup mid = some mss := by
  dsimp only [step]
  rw [lookup_onMessageAck]
  cases s.tracker.outgoingMessages.lookup mid with
  | none => exact Iff.rfl
  | some mss => exact iff_of_true ⟨_, rfl⟩ ⟨_, rfl⟩

theorem visible_onMessageAck_iff {s : Session} (h : Visible s) (ack : MessageAck) :
    Visible (step s (.onMessageAck ack)) ↔ Spares s (.onMessageAck ack) := by
  rw [visible_iff] at h ⊢
  constructor
  · intro hafter hid hlevel
    refine mem_iff_lookup.mpr ((tracked_onMessageAck _).mp (hafter ack.id hid ?_))
    dsimp only [step]
    rwa [Function.update_self]
  · intro hC mid hmid hlatest
    rw [tracked_onMessageAck]
    dsimp only [step] at hmid hlatest
    by_cases hid : mid = ack.id
    · subst hid
      rw [Function.update_self] at hlatest
      exact mem_iff_lookup.mp (hC hmid hlatest)
    · rw [Function.update_of_ne hid] at hlatest
      exact h mid hmid hlatest

theorem visible_checkAcks_iff {s : Session} (hlevelled : Levelled s) (h : Visible s)
    (now : NaiveDateTime) : Visible (step s (.checkAcks now)) ↔ Spares s (.checkAcks now) := by
  rw [visible_iff] at h ⊢
  constructor
  · intro hafter mid hmid mss hmss hlevel
    have hlatest : s.latest mid = some .error := (hlevelled mid mss hmss).symm.trans hlevel
    obtain ⟨mss', hmss'⟩ := hafter mid hmid (.inr (.inr hlatest))
    obtain ⟨mss'', hbefore, hkept, -⟩ := lookup_checkAcks.mp hmss'
    rw [hmss, Option.some.injEq] at hbefore
    subst hbefore
    rw [retained, hlevel] at hkept
    exact of_decide_eq_true hkept
  · intro hC mid hmid hlatest
    obtain ⟨mss, hmss⟩ := h mid hmid hlatest
    refine ⟨_, lookup_checkAcks.mpr ⟨mss, hmss, ?_, rfl⟩⟩
    have hlevel : Failing mss.ackLevel := by
      rw [hlevelled mid mss hmss]
      exact hlatest
    rw [retained]
    rcases hlevel with hlevel | hlevel | hlevel
    · rw [hlevel]
    · rw [hlevel]
    · rw [hlevel]
      exact decide_eq_true (hC mid hmid mss hmss hlevel)

theorem visible_step_iff {s : Session} (e : Event) (hlevelled : Levelled s) (h : Visible s) :
    Visible (step s e) ↔ Spares s e := by
  cases e with
  | registerSend now dest content mid isUnsent =>
      exact iff_of_true (visible_registerSend h now dest content mid isUnsent) trivial
  | extractUnsent => exact visible_extractUnsent_iff hlevelled h
  | onMessageAck ack => exact visible_onMessageAck_iff h ack
  | checkAcks now => exact visible_checkAcks_iff hlevelled h now

/-- Failures stay on the list in exactly those runs in which no step takes one from it. -/
theorem visible_iff_spares {ackWarnMs ackWarnPendingMs ackExpiryMs : Option Nat}
    {es : List Event} {t : Session}
    (hrun : run next (started ackWarnMs ackWarnPendingMs ackExpiryMs) es = some t) :
    (∀ k u, run next (started ackWarnMs ackWarnPendingMs ackExpiryMs) (es.take k) = some u →
      Visible u) ↔ AllSteps next Spares (started ackWarnMs ackWarnPendingMs ackExpiryMs) es := by
  have hlevelled : Levelled (started ackWarnMs ackWarnPendingMs ackExpiryMs) := by
    intro _ _ h
    cases h
  have hvisible : Visible (started ackWarnMs ackWarnPendingMs ackExpiryMs) := by
    intro _ h
    cases h
  have hsteps : ∀ s e t, Levelled s → next s e = some t → Levelled t := by
    intro s e t h ht
    cases ht
    exact levelled_step e h
  rw [← forall_take_iff_allSteps (P := fun s => Levelled s ∧ Visible s) ?_
    ⟨hlevelled, hvisible⟩ hrun]
  · refine forall_congr' fun k => forall_congr' fun u => imp_congr_right fun hu => ?_
    rw [and_iff_right (invariant hsteps hlevelled hu)]
  · rintro s e t ⟨hlev, hvis⟩ ht
    cases ht
    rw [and_iff_right (levelled_step e hlev), visible_step_iff e hlev hvis]

end Listings

section Samples

attribute [local instance] Sample.crates

/-- A message is sent, and is pending for ten minutes. -/
def pendingRun : List Event :=
  [.registerSend 0 ⟨['a'], false⟩ .audio ['m'] false, .checkAcks 6000000000,
    .onMessageAck ⟨.pendingSend, ['m']⟩, .checkAcks 600000000000]

theorem warned_pendingRun : AllSteps next Orderly (started none none none) pendingRun ∧
    AllSteps next (fun s e => AtMostOnce (step s e) ∧
      ∀ now, e = .checkAcks now → NeverMissed s now) (started none none none) pendingRun := by
  have hsend : ∀ s, ['m'] ∉ s.registered →
      Orderly s (.registerSend 0 ⟨['a'], false⟩ .audio ['m'] false) := by
    refine fun s hfresh => ⟨hfresh, ?_⟩
    rintro now (⟨_, _, _, _, h⟩ | h)
    · cases h
      exact ⟨by decide, by decide⟩
    · cases h
  have hcheck : ∀ s now, Datable now → Orderly s (.checkAcks now) := by
    refine fun s now hnow => ⟨trivial, ?_⟩
    rintro now' (⟨_, _, _, _, h⟩ | h)
    · cases h
    · cases h
      exact hnow
  have hack : ∀ s ack, Orderly s (.onMessageAck ack) := by
    refine fun s ack => ⟨trivial, ?_⟩
    rintro now (⟨_, _, _, _, h⟩ | h) <;> cases h
  have hC : AllSteps next Orderly (started none none none) pendingRun :=
    allSteps_cons (hsend _ List.not_mem_nil) rfl <|
      allSteps_cons (hcheck _ _ ⟨by decide, by decide⟩) rfl <|
        allSteps_cons (hack _ _) rfl <|
          allSteps_cons (hcheck _ _ ⟨by decide, by decide⟩) rfl trivial
  exact ⟨hC, warned_in_run hC⟩

/-- It is listed all the time. -/
theorem visible_pendingRun : AllSteps next Spares (started none none none) pendingRun ∧
    ∀ k u, run next (started none none none) (pendingRun.take k) = some u → Visible u := by
  have hrun : run next (started none none none) pendingRun =
      some ((run next (started none none none) pendingRun).get rfl) := (Option.some_get _).symm
  apply (and_iff_left_of_imp (visible_iff_spares hrun).mpr).mpr
  refine allSteps_cons trivial rfl (allSteps_cons (fun mid hmid mss hmss hlevel => ?_) rfl
    (allSteps_cons (fun _ _ => ?_) rfl
      (allSteps_cons (fun mid hmid mss hmss hlevel => ?_) rfl trivial)))
  · obtain rfl := List.mem_singleton.mp hmid
    cases hmss
    cases hlevel
  · exact AList.mem_keys.mp (by decide)
  · obtain rfl := List.mem_singleton.mp hmid
    cases hmss
    cases hlevel

/-- An error is reported for a message, and it is gone from the list after a minute. -/
theorem hides_error : ∃ s, run next (started none none none)
    [.registerSend 0 ⟨['a'], false⟩ .audio ['m'] false, .onMessageAck ⟨.error, ['m']⟩,
      .checkAcks 60000000000] = some s ∧ ¬ Visible s := by
  refine ⟨_, rfl, fun h => ?_⟩
  obtain ⟨mss, hmss⟩ := visible_iff.mp h ['m'] List.mem_cons_self (.inr (.inr rfl))
  cases hmss

end Samples

end SmsIrc.AckRuns
