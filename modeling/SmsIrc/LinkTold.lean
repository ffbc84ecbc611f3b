import SmsIrc.LinkDelivery
import SmsIrc.LinkHistory
import SmsIrc.LinkSpeech

/-!
What a step of the link tells: for the rows that it takes from the database, what they say,
in the name of whom they are from, to where they are for.
-/

namespace SmsIrc.LinkTold

open SmsIrc.Database SmsIrc.External SmsIrc.Link SmsIrc.LinkDeeds SmsIrc.LinkDelivery
open SmsIrc.LinkEvents SmsIrc.LinkHistory SmsIrc.LinkSpeech SmsIrc.LinkSteady
open SmsIrc.MessageTexts SmsIrc.Models SmsIrc.SenderCommon SmsIrc.Text SmsIrc.Util

section Lines

/-- The lines of a text: one for each of its pieces. -/
def speak (nick dest text : Str) : List IrcMessage := (pieces text).map (chunkLine nick dest)

/-- The messages that a deed puts on the wire. -/
def linesOf : Deed → List IrcMessage
  | .alone nick text dest _ => speak nick dest text
  | .joined nick text dest _ _ => speak nick dest text
  | .reported _ _ => []

theorem lineOf_calls (d : Deed) : d.calls.filterMap lineOf = linesOf d := by
  have hsend : ∀ nick text target dest (rows : List Message),
      (sendCalls nick text target dest ++ deletions rows).filterMap lineOf =
        speak nick dest text := by
    intro nick text target dest rows
    have hdel : (deletions rows).filterMap lineOf = [] := by
      rw [deletions, List.filterMap_map]
      exact List.filterMap_eq_nil_iff.mpr fun _ _ => rfl
    rw [List.filterMap_append, hdel, List.append_nil, sendCalls, List.filterMap_cons_none rfl,
      List.filterMap_map, speak]
    exact congrFun List.filterMap_eq_map _
  cases d with
  | alone nick text dest row => exact hsend _ _ _ _ _
  | joined nick text dest target parts => exact hsend _ _ _ _ _
  | reported nick err => rfl

theorem lineOf_deeds (ds : List Deed) :
    (ds.flatMap Deed.calls).filterMap lineOf = ds.flatMap linesOf := by
  induction ds with
  | nil => rfl
  | cons d ds ih =>
      rw [List.flatMap_cons, List.filterMap_append, ih, lineOf_calls, List.flatMap_cons]

end Lines

section Told

variable [Crates]

/-- Where a text has gone: to the channel of its group, or to the admin, or to the log channel
if there is none. An admin whose UUID has been given to a ghost in the same step is no longer
to be found. -/
def Went (s t : InspLink) : Option Nat → Str → Prop
  | some g, dest => ∃ grp ∈ t.store.groups.rows, grp.id = g ∧ grp.channel = dest
  | none, dest => IsAdmin t dest ∨ Issues s t dest ∨ dest = t.cfg.logChan ∧ ∀ u, ¬ IsAdmin t u

/-- A deed tells what its row says, or what all the parts of a message say together, in the
name of the ghost of their number. -/
inductive Told (s t : InspLink) : Deed → Prop
  | alone {nick text dest : Str} {row : Message} (htext : OwnText t.now row text)
      (hnick : FromGhost t row nick) (hdest : Went s t row.groupTarget dest) :
      Told s t (.alone nick text dest row)
  | joined {nick text dest : Str} {msg : Message} {parts : List Message}
      (hmsg : msg ∈ s.store.messages.rows) (hparts : AllParts msg parts)
      (htext : Joined parts text) (hnick : FromGhost t msg nick)
      (hdest : Went s t msg.groupTarget dest) :
      Told s t (.joined nick text dest msg.groupTarget parts)
  | reported {nick err : Str} {msg : Message} (hmsg : msg ∈ s.store.messages.rows)
      (hnone : ∀ d, ¬ Carries msg d) (hnick : FromGhost t msg nick) :
      Told s t (.reported nick err)

theorem went_of_goesTo {s w t : InspLink} (hsw : Steady s w) (hwt : Steady w t)
    {target : Option Nat} {dest : Str} (h : GoesTo w target dest) : Went s t target dest := by
  cases target with
  | none =>
      rcases h with hadmin | ⟨rfl, hnone⟩
      · refine (hwt.kept dest hadmin).imp_right fun ⟨n, hn, hlt, hdest⟩ => .inl ?_
        exact ⟨n, hsw.next.trans hn, hlt, by rw [hdest, hsw.cfg]⟩
      · exact .inr (.inr ⟨by rw [hwt.cfg], fun u hu => hnone u (hwt.admin u hu)⟩)
  | some g =>
      obtain ⟨grp, hgrp, hrest⟩ := h
      exact ⟨grp, hwt.groups ▸ hgrp, hrest⟩

theorem told_of_meant {s u t : InspLink} {msg : Message} {d : Deed} (hut : Steady u t)
    (hmsg : msg ∈ s.store.messages.rows) (hmeant : Meant u msg d)
    (hghost : FromGhost t msg d.nick) (hsent : SentIn s t d) : Told s t d := by
  obtain ⟨w, hsw, hwt, hto⟩ := hsent
  cases d with
  | alone nick text dest row =>
      obtain ⟨rfl, htext⟩ := hmeant
      rw [← hut.now] at htext
      exact .alone htext hghost (went_of_goesTo hsw hwt hto)
  | joined nick text dest target parts =>
      have hparts := allParts_of_meant hmeant
      obtain ⟨rfl, d, cd, -, -, -, -, hjoin⟩ := hmeant
      exact .joined hmsg hparts (joined_of_joinParts hjoin) hghost (went_of_goesTo hsw hwt hto)
  | reported nick err =>
      obtain ⟨e, herror⟩ := hmeant
      refine .reported hmsg (fun d hd => ?_) hghost
      rw [decodePart_eq_ok.mpr hd] at herror
      cases herror

theorem told_of_processed {msgs : List Message} {s t : InspLink} {ds : List Deed}
    (h : Processed msgs s t ds) (hmsgs : ∀ m ∈ msgs, m ∈ s.store.messages.rows) :
    ∀ d ∈ ds, Told s t d := by
  intro d hd
  obtain ⟨msg, hmsg, u, -, hut, -, hmeant, hghost, hsent⟩ := deed_of_processed h d hd
  exact told_of_meant hut (hmsgs msg hmsg) hmeant hghost hsent

theorem Told.before {s s' t : InspLink} {d : Deed} (h : Told s' t d)
    (hrows : s'.store.messages = s.store.messages) (hcfg : s'.cfg = s.cfg)
    (hnext : s.nextUserId ≤ s'.nextUserId) : Told s t d := by
  have hwent : ∀ {target dest}, Went s' t target dest → Went s t target dest := by
    intro target dest hwent
    cases target with
    | none =>
        refine hwent.imp_right fun hrest => hrest.imp_left fun ⟨n, hn, hlt, hdest⟩ => ?_
        exact ⟨n, hnext.trans hn, hlt, by rw [hdest, hcfg]⟩
    | some g => exact hwent
  cases h with
  | alone htext hnick hdest => exact .alone htext hnick (hwent hdest)
  | joined hmsg hparts htext hnick hdest =>
      exact .joined (hrows ▸ hmsg) hparts htext hnick (hwent hdest)
  | reported hmsg hnone hnick => exact .reported (hrows ▸ hmsg) hnone hnick

/-- What the link sends in a step, and takes from the database for it. -/
structure Sends (s t : InspLink) (ds : List Deed) : Prop where
  told : ∀ d ∈ ds, Told s t d
  calls : t.calls = s.calls ++ ds.flatMap Deed.calls
  left : t.store.messages.rows = s.store.messages.rows.filter fun m => m ∉ ds.flatMap Deed.rows
  nodup : (ds.flatMap Deed.rows).Nodup
  stored : ∀ m ∈ ds.flatMap Deed.rows, m ∈ s.store.messages.rows

theorem sends_of_next {s t : LinkRuns.Session} {e : LinkRuns.Event}
    (hnext : LinkRuns.next s e = some t) (hstore : ∀ op, e ≠ .storeOp op)
    (hout : t.outcome = none) : ∃ ds : List Deed, Sends s.link t.link ds := by
  rcases happened_of_next hstore hnext with ⟨hsame, -⟩ | ⟨u, v, ds, es, hsame, hpass, hend, hhap⟩
  · refine ⟨[], by simp, by simp [hsame.calls], ?_, by simp, by simp⟩
    rw [hsame.messages, List.flatMap_nil, List.filter_eq_self.mpr]
    simp
  · obtain ⟨rfl, rfl⟩ := hend hout
    rw [List.append_nil] at hhap
    obtain ⟨msgs, hmsgs, u', hidle, hprocessed⟩ := hpass.pass
    have htold := told_of_processed hprocessed fun m hm => by
      rw [hidle.messages]
      exact hmsgs m hm
    refine ⟨ds, fun d hd => ?_, hhap.calls hout, ?_, hpass.did.nodup, ?_⟩
    · exact (htold d hd).before (hidle.messages.trans hsame.messages)
        (hidle.cfg.trans hsame.cfg) (hsame.next.trans hidle.next)
    · rw [← hsame.messages]
      exact hpass.did.left
    · rw [← hsame.messages]
      exact hpass.did.stored

/-- The lines of such a step: those of its deeds are among them, in their order, and they are
all its messages unless other ones are allowed. -/
theorem lines_of_next {r : Prop} {s t : LinkRuns.Session} {e : LinkRuns.Event} {ds : List Deed}
    (hnext : LinkRuns.next s e = some t) (hstore : ∀ op, e ≠ .storeOp op)
    (hclock : ∀ now dbNow, e ≠ .clock now dbNow) (hraw : Raws s.link e → r)
    (hreport : ∀ fail, e = .cb (.reportFailure fail) → r) (hout : t.outcome = none)
    (hsends : Sends s.link t.link ds) : ∃ ls, t.link.outbox = s.link.outbox ++ ls ∧
      (ds.flatMap linesOf).Sublist ls ∧ (¬ r → ls.filter isMessage = ds.flatMap linesOf) := by
  obtain ⟨cs, ls, hcalls, hls, hsub, hsaid⟩ :=
    (speaks_next hnext hstore hclock hraw hreport hout).said
  obtain rfl : cs = ds.flatMap Deed.calls :=
    List.append_cancel_left (hcalls.symm.trans hsends.calls)
  rw [lineOf_deeds] at hsub hsaid
  exact ⟨ls, hls, hsub, hsaid⟩

end Told

end SmsIrc.LinkTold
