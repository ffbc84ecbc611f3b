import SmsIrc.Settling
import SmsIrc.SmsAccounts

/-!
The messages on the wire: those of stored messages, each in the name of a ghost, and the
failures that the other parts report.
-/

namespace SmsIrc.Wire

open SmsIrc.Comm SmsIrc.Database SmsIrc.External SmsIrc.Link SmsIrc.LinkDeeds
open SmsIrc.LinkEvents SmsIrc.LinkSpeech SmsIrc.LinkTold SmsIrc.Main SmsIrc.MainViews
open SmsIrc.Models SmsIrc.PartFrames SmsIrc.Program SmsIrc.SenderCommon SmsIrc.Settling
open SmsIrc.SmsAccounts SmsIrc.Text SmsIrc.Transition SmsIrc.Util
open SmsIrc.LinkRuns (Session outcome_of_next perform)

section Utterances

/-- What the bridge says: a stored message that it deals with, or a failure that another
part reports. -/
inductive Utterance where
  | deed (d : Deed)
  | report (line : IrcMessage)

def Utterance.lines : Utterance → List IrcMessage
  | .deed d => linesOf d
  | .report line => [line]

def Utterance.asDeed : Utterance → Option Deed
  | .deed d => some d
  | .report _ => none

def Utterance.asReport : Utterance → Option IrcMessage
  | .deed _ => none
  | .report line => some line

theorem asDeed_map (ds : List Deed) : (ds.map Utterance.deed).filterMap Utterance.asDeed = ds := by
  rw [List.filterMap_map]
  exact List.filterMap_some

theorem asReport_deeds (ds : List Deed) :
    (ds.map Utterance.deed).filterMap Utterance.asReport = [] := by
  rw [List.filterMap_map]
  exact List.filterMap_eq_nil_iff.mpr fun _ _ => rfl

theorem asDeed_reports (ls : List IrcMessage) :
    (ls.map Utterance.report).filterMap Utterance.asDeed = [] := by
  rw [List.filterMap_map]
  exact List.filterMap_eq_nil_iff.mpr fun _ _ => rfl

theorem asReport_map (ls : List IrcMessage) :
    (ls.map Utterance.report).filterMap Utterance.asReport = ls := by
  rw [List.filterMap_map]
  exact List.filterMap_some

theorem lines_reports (ls : List IrcMessage) :
    (ls.map Utterance.report).flatMap Utterance.lines = ls := by
  rw [List.flatMap_map]
  exact List.flatMap_singleton' ls

theorem lines_deeds (ds : List Deed) :
    (ds.map Utterance.deed).flatMap Utterance.lines = ds.flatMap linesOf :=
  List.flatMap_map ..

end Utterances

section Program

variable [Crates]

/-- The line that reports a failure to the admin. -/
def failureLine (l : InspLink) (admu fail : Str) : IrcMessage :=
  .new (some l.cfg.sid) ("PRIVMSG" : Str) [admu]
    (some (l.cfg.adminNick ++ (": \x02\x0304" : Str) ++ fail ++ ['\x0f']))

/-- A failure is reported to the admin, and to nobody without one. -/
def reportLines (l : InspLink) : ControlBotCommand → List IrcMessage
  | .reportFailure fail => (adminUuid l).toList.map fun admu => failureLine l admu fail
  | _ => []

def reportedIn (s : Parts) : Main.Event → List IrcMessage
  | .receiveCb => (s.cbRx.take 1).flatMap (reportLines s.link.link)
  | _ => []

def reportedOver : Parts → List Main.Event → List IrcMessage
  | _, [] => []
  | s, e :: es =>
      reportedIn s e ++
        match Main.next s e with
        | some t => reportedOver t es
        | none => []

theorem reportFailure_next {s t : Session} {fail : Str}
    (ht : LinkRuns.next s (.cb (.reportFailure fail)) = some t) :
    t.link = { s.link with
      outbox := s.link.outbox ++ reportLines s.link (.reportFailure fail) } := by
  obtain rfl : t = perform s (handleCbCommand (.reportFailure fail)) := by
    rw [LinkRuns.next, outcome_of_next ht] at ht
    simp only [LinkRuns.step] at ht
    split at ht
    · exact (Option.some.inj ht).symm
    · cases ht
  refine wp_exec_snd (p := handleCbCommand (.reportFailure fail)) (P := fun t => t = _) ?_
  rw [handleCbCommand, wp_bind, wp_get, reportLines]
  cases adminUuid s.link with
  | some admu => rfl
  | none => exact (congrArg (fun ls => { s.link with outbox := ls }) (List.append_nil _)).symm

theorem isMessage_reportLines (l : InspLink) (c : ControlBotCommand) :
    (reportLines l c).filter isMessage = reportLines l c := by
  rw [List.filter_eq_self]
  intro m hm
  cases c with
  | reportFailure fail =>
      obtain ⟨admu, -, rfl⟩ := List.mem_map.mp hm
      rfl
  | _ => cases hm

/-- What the bridge has said. -/
structure Heard (w : World) (s : Parts) (us : List Utterance) : Prop where
  account : Account w s (us.filterMap Utterance.asDeed)
  lines : s.link.link.outbox.filter isMessage = us.flatMap Utterance.lines

theorem Heard.of_link {w : World} {s t : Parts} {us : List Utterance} (h : Heard w s us)
    {e : LinkRuns.Event} (hnext : LinkRuns.next s.link e = some t.link)
    (hstore : ∀ op, e ≠ .storeOp op) (hclock : ∀ now dbNow, e ≠ .clock now dbNow)
    (hraw : ¬ Raws s.link.link e) (hreport : ∀ fail, e ≠ .cb (.reportFailure fail))
    (hout : t.link.outcome = none)
    (hstored : t.modem.manager.stored = s.modem.manager.stored) :
    ∃ ds : List Deed, Heard w t (us ++ ds.map Utterance.deed) ∧
      ∀ d ∈ ds, Told s.link.link t.link.link d := by
  obtain ⟨ds, hsends⟩ := sends_of_next hnext hstore hout
  obtain ⟨ls, hls, hsub, hsaid⟩ :=
    lines_of_next (r := False) hnext hstore hclock hraw hreport hout hsends
  refine ⟨ds, ⟨?_, ?_⟩, hsends.told⟩
  · rw [List.filterMap_append, asDeed_map]
    exact h.account.of_sends hsends ⟨ls, hls, hsub⟩ hstored
  · rw [hls, messages_append, h.lines, hsaid id, List.flatMap_append, lines_deeds]

theorem Heard.of_report {w : World} {s t : Parts} {us : List Utterance} (h : Heard w s us)
    {fail : Str} (hlink : t.link.link = { s.link.link with
      outbox := s.link.link.outbox ++ reportLines s.link.link (.reportFailure fail) })
    (hstored : t.modem.manager.stored = s.modem.manager.stored) :
    Heard w t
      (us ++ (reportLines s.link.link (.reportFailure fail)).map Utterance.report) := by
  refine ⟨?_, ?_⟩
  · rw [List.filterMap_append, asDeed_reports, List.append_nil]
    refine h.account.of_sameSms (by rw [hlink]) ?_ fun p => by rw [hlink, hstored]
    rw [hlink]
    exact List.prefix_append _ _
  · rw [hlink, messages_append, h.lines, List.flatMap_append, lines_reports,
      isMessage_reportLines]

theorem heard_stepped {w : World} {s t : Parts} {e : Main.Event} {us : List Utterance}
    (hs : Shared s) (h : Stepped s e t) (hraw : RawFree s e) (hout : t.link.outcome = none)
    (hus : Heard w s us) :
    ∃ vs, Heard w t (us ++ vs) ∧ vs.filterMap Utterance.asReport = reportedIn s e ∧
      ∀ d ∈ vs.filterMap Utterance.asDeed, Told s.link.link t.link.link d := by
  have hsilent : isLink e = false → t.link.link.outbox = s.link.link.outbox →
      reportedIn s e = [] → ∃ vs, Heard w t (us ++ vs) ∧
        vs.filterMap Utterance.asReport = reportedIn s e ∧
        ∀ d ∈ vs.filterMap Utterance.asDeed, Told s.link.link t.link.link d := by
    intro he houtbox hnone
    refine ⟨[], ⟨?_, ?_⟩, hnone.symm, by simp⟩
    · rw [List.append_nil]
      exact account_apart hs h he hus.account
    · rw [List.append_nil, houtbox]
      exact hus.lines
  have hlink : ∀ {f : LinkRuns.Event}, LinkRuns.next s.link f = some t.link →
      (∀ op, f ≠ .storeOp op) → (∀ now dbNow, f ≠ .clock now dbNow) → ¬ Raws s.link.link f →
      (∀ fail, f ≠ .cb (.reportFailure fail)) →
      t.modem.manager.stored = s.modem.manager.stored → reportedIn s e = [] →
      ∃ vs, Heard w t (us ++ vs) ∧ vs.filterMap Utterance.asReport = reportedIn s e ∧
        ∀ d ∈ vs.filterMap Utterance.asDeed, Told s.link.link t.link.link d := by
    intro f hnext hstore hclock hraw hreport hstored hnone
    obtain ⟨ds, hheard, htold⟩ := hus.of_link hnext hstore hclock hraw hreport hout hstored
    refine ⟨ds.map Utterance.deed, hheard, ?_, ?_⟩
    · rw [asReport_deeds, hnone]
    · rwa [asDeed_map]
  cases h with
  | modem hown h => exact hsilent rfl rfl rfl
  | whatsapp hown h => exact hsilent rfl rfl rfl
  | log => exact hsilent rfl rfl rfl
  | clock => exact hsilent rfl rfl rfl
  | connect h => exact hlink h (by simp) (by simp) id (by simp) rfl rfl
  | remote h => exact hlink h (by simp) (by simp) (hraw _ rfl) (by simp) rfl rfl
  | cf hrx h => exact hlink h (by simp) (by simp) id (by simp) rfl rfl
  | cb hrx h =>
      rename_i c rest u
      have hreported : reportedIn s .receiveCb = reportLines s.link.link c := by
        rw [reportedIn, hrx, List.take_one, List.head?_cons, Option.toList_some,
          List.flatMap_singleton]
      by_cases hc : ∃ fail, c = .reportFailure fail
      · obtain ⟨fail, rfl⟩ := hc
        rw [hreported]
        refine ⟨_, hus.of_report (reportFailure_next h) rfl, asReport_map _, ?_⟩
        rw [asDeed_reports]
        simp
      · refine hlink h (by simp) (by simp) id
          (fun fail heq => hc ⟨fail, by simpa using heq⟩) rfl ?_
        rw [hreported, reportLines]
        exact fun fail heq => hc ⟨fail, heq⟩

theorem heard_of_run {w : World} {s t : Parts} {es : List Main.Event} {us : List Utterance}
    (hs : Shared s) (hes : AllSteps Main.next RawFree s es) (hrun : run Main.next s es = some t)
    (ht : running t = true) (hus : Heard w s us) :
    ∃ vs, Heard w t (us ++ vs) ∧ vs.filterMap Utterance.asReport = reportedOver s es ∧
      ∀ d ∈ vs.filterMap Utterance.asDeed, ToldIn s es d := by
  induction es generalizing s us with
  | nil =>
      cases hrun
      exact ⟨[], by rwa [List.append_nil], rfl, by simp⟩
  | cons e es ih =>
      rw [run_cons, Option.bind_eq_some_iff] at hrun
      obtain ⟨u, hu, hrest⟩ := hrun
      have hstep := stepped_of_next hu
      have hrunning := running_of_run hrest ht
      simp only [running, Bool.and_eq_true, Option.isNone_iff_eq_none] at hrunning
      obtain ⟨vs, hvs, hreports, htold⟩ := heard_stepped hs hstep hes.1 hrunning.2 hus
      obtain ⟨xs, hxs, hreports', htold'⟩ := ih (shared_stepped hs hstep) (hes.2 u hu) hrest hvs
      refine ⟨vs ++ xs, by rwa [← List.append_assoc], ?_, fun d hd => ?_⟩
      · rw [List.filterMap_append, hreports, hreports', reportedOver, hu]
      · rw [List.filterMap_append] at hd
        exact toldIn_cons hu ((List.mem_append.mp hd).imp (htold d) (htold' d))

/-- The messages on the wire are, in their order, what stored rows say, each in the name of the
ghost of their number, and the failures that are reported while the admin is online. The SMS
that are no longer stored are among those rows. -/
theorem messages_on_wire {cfg : Config} {w : World} {s : Parts} {es : List Main.Event}
    (hes : AllSteps Main.next RawFree (start cfg w) es)
    (hrun : run Main.next (start cfg w) es = some s) (hs : running s = true) :
    ∃ us : List Utterance, s.link.link.outbox.filter isMessage = us.flatMap Utterance.lines ∧
      s.link.link.calls = (us.filterMap Utterance.asDeed).flatMap Deed.calls ∧
      us.filterMap Utterance.asReport = reportedOver (start cfg w) es ∧
      (∀ d ∈ us.filterMap Utterance.asDeed, ToldIn (start cfg w) es d) ∧
      ∀ p, smsRows p s.link.link.store.messages.rows +
          smsRows p ((us.filterMap Utterance.asDeed).flatMap Deed.rows) =
        smsRows p w.store.messages.rows + s.modem.manager.stored.count p := by
  have hstart : Heard w (start cfg w) [] := ⟨account_start cfg w, rfl⟩
  obtain ⟨us, hus, hreports, htold⟩ := heard_of_run (shared_start cfg w) hes hrun hs hstart
  rw [List.nil_append] at hus
  exact ⟨us, hus.lines, hus.account.calls, hreports, htold, hus.account.rows⟩

end Program

section Samples

attribute [local instance] Sample.crates

theorem messages_on_wire_delivering :
    ∃ us : List Utterance,
      delivered.link.link.outbox.filter isMessage = us.flatMap Utterance.lines ∧
      delivered.link.link.calls = (us.filterMap Utterance.asDeed).flatMap Deed.calls ∧
      us.filterMap Utterance.asReport =
        reportedOver (start sampleConfig sampleWorld) (linking ++ receiving ++ delivering) ∧
      (∀ d ∈ us.filterMap Utterance.asDeed,
        ToldIn (start sampleConfig sampleWorld) (linking ++ receiving ++ delivering) d) ∧
      ∀ p, smsRows p delivered.link.link.store.messages.rows +
          smsRows p ((us.filterMap Utterance.asDeed).flatMap Deed.rows) =
        smsRows p sampleWorld.store.messages.rows + delivered.modem.manager.stored.count p := by
  have hraw : ∀ e ∈ linking ++ receiving ++ delivering, ∀ s, RawFree s e := by
    intro e he s
    simp only [linking, receiving, delivering, List.cons_append, List.nil_append, List.mem_cons,
      List.not_mem_nil, or_false] at he
    rcases he with rfl | rfl | rfl | rfl | rfl | rfl | rfl | rfl | rfl | rfl | rfl | rfl | rfl |
      rfl | rfl
    all_goals
      rintro m hm
      cases hm
    all_goals exact id
  exact messages_on_wire (allSteps_of_forall_mem hraw _) run_delivered running_delivered

/-- The SMS is on the wire. -/
example : delivered.link.link.outbox.filter isMessage =
    [chunkLine ("00AZ00001" : Str) ("00BAAAAAA" : Str) ("hi" : Str)] := by decide +kernel

end Samples

end SmsIrc.Wire
