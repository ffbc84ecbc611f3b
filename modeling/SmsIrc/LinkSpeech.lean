import SmsIrc.LinkEvents
import SmsIrc.LinkFrame

/-!
The lines of a link that are messages: those that are called for when stored messages are
processed, lines that the admin has sent as they are, and reports of failures.
-/

namespace SmsIrc.LinkSpeech

open SmsIrc.Comm SmsIrc.Composition SmsIrc.ControlCommands SmsIrc.Database SmsIrc.External
open SmsIrc.InspUsers SmsIrc.Link SmsIrc.LinkEffects SmsIrc.LinkEvents SmsIrc.LinkFrame
open SmsIrc.LinkWalk SmsIrc.Models SmsIrc.Program SmsIrc.SenderCommon SmsIrc.Text
open SmsIrc.Transition SmsIrc.Util
open SmsIrc.LinkRuns (Session exec_of_perform outcome_of_next perform)

def isMessage (m : IrcMessage) : Bool := wordOf m = ("PRIVMSG" : Str)

/-- The line of a chunk of text. -/
def chunkLine (nick dest chunk : Str) : IrcMessage :=
  .new (some nick) ("PRIVMSG" : Str) [dest] (some chunk)

/-- The line that a call of a sender leads to. -/
def lineOf : SenderCall → Option IrcMessage
  | .sendIrcMessage nick dest chunk => some (chunkLine nick dest chunk)
  | _ => none

theorem messages_append (xs ys : List IrcMessage) :
    (xs ++ ys).filter isMessage = xs.filter isMessage ++ ys.filter isMessage :=
  List.filter_append ..

section Speaking

variable [Crates]

/-- The lines of a step hold those that are called for, in their order; there are no other
messages among them, unless `r` allows it. -/
structure Speaks (r : Prop) (s t : InspLink) : Prop where
  said : ∃ cs ls, t.calls = s.calls ++ cs ∧ t.outbox = s.outbox ++ ls ∧
    (cs.filterMap lineOf).Sublist ls ∧ (¬ r → ls.filter isMessage = cs.filterMap lineOf)

variable {r : Prop}

instance isPreorder_speaks : IsPreorder InspLink (Speaks r) where
  refl _ := ⟨[], [], by simp, by simp, List.Sublist.slnil, fun _ => rfl⟩
  trans _ _ _ hst htu := by
    obtain ⟨cs, ls, hcalls, hout, hsub, hsaid⟩ := hst.said
    obtain ⟨ds, ms, hcalls', hout', hsub', hsaid'⟩ := htu.said
    refine ⟨cs ++ ds, ls ++ ms, ?_, ?_, ?_, fun hr => ?_⟩
    · rw [hcalls', hcalls, List.append_assoc]
    · rw [hout', hout, List.append_assoc]
    · rw [List.filterMap_append]
      exact hsub.append hsub'
    · rw [messages_append, List.filterMap_append, hsaid hr, hsaid' hr]

theorem speaks_of_eq {s t : InspLink} (hcalls : t.calls = s.calls) (hout : t.outbox = s.outbox) :
    Speaks r s t := ⟨[], [], by simp [hcalls], by simp [hout], List.Sublist.slnil, fun _ => rfl⟩

theorem speaks_line {m : IrcMessage} (hm : ¬ r → isMessage m = false) (l : InspLink) :
    Speaks r l { l with outbox := l.outbox ++ [m] } :=
  ⟨[], [m], by simp, rfl, List.nil_sublist _, fun hr => by simp [hm hr]⟩

theorem speaks_call {c : SenderCall} (hc : lineOf c = none) (l : InspLink) :
    Speaks r l { l with calls := l.calls ++ [c] } :=
  ⟨[c], [], rfl, by simp, by simp [hc], fun _ => by simp [hc]⟩

theorem leads_store {α : Type} (p : StoreM α) : Leads (Speaks r) (store p : LinkM α) :=
  leads_of_moves (moves_zoom p fun _ _ => speaks_of_eq rfl rfl)

theorem leads_silent {f : InspLink → InspLink}
    (hf : ∀ l, (f l).calls = l.calls ∧ (f l).outbox = l.outbox) :
    Leads (Speaks r) (modify f : LinkM PUnit) :=
  leads_modify fun l => speaks_of_eq (hf l).1 (hf l).2

theorem leads_push (u : Str) {cmd : String} (args : List Str) (suffix : Option Str)
    (hcmd : cmd ≠ "PRIVMSG") : Leads (Speaks r) (push u cmd args suffix) := by
  refine leads_modify fun l => speaks_line (fun _ => ?_) l
  exact decide_eq_false fun heq => hcmd (String.toList_inj.mp heq)

theorem leads_send (hr : r) (m : IrcMessage) : Leads (Speaks r) (send m) :=
  leads_modify fun l => speaks_line (fun h => absurd hr h) l

theorem pieces_speaks : Pieces fun {α : Type} (p : LinkM α) => Leads (Speaks r) p where
  toComposes := composes_leads
  within f hf := leads_silent fun l => ⟨(hf l).calls, (hf l).outbox⟩
  push u cmd args suffix hcmd := leads_push u args suffix hcmd
  introduce u := by
    intro l
    rw [wp_bind, makeUidLine, wp_bind, wp_get]
    cases l.users.lookup u with
    | some user => exact speaks_line (fun _ => rfl) l
    | none => trivial
  query _ := leads_store _
  nick _ _ _ := leads_store _
  mode _ _ := leads_store _
  dropRecipient _ := leads_store _
  askModem _ := leads_silent fun _ => ⟨rfl, rfl⟩
  askWhatsapp _ := leads_silent fun _ => ⟨rfl, rfl⟩
  subscribe _ := leads_silent fun _ => ⟨rfl, rfl⟩
  respond _ := leads_silent fun _ => ⟨rfl, rfl⟩

/-- A chunk that is called for is sent, unless there is no such user. -/
theorem leads_sendFragment (nick dest chunk : Str) :
    Leads (Speaks r) (sendFragment nick dest chunk : LinkM Unit) := by
  intro l
  rw [sendFragment]
  split
  · rw [wp_bind]
    change wp (contactMessage nick "PRIVMSG" dest chunk) _ _
      { l with calls := l.calls ++ [.sendIrcMessage nick dest chunk] }
    rw [contactMessage, wp_bind, wp_get, wp_ite, wp_ite]
    split
    · trivial
    split
    · trivial
    · exact ⟨[.sendIrcMessage nick dest chunk], [chunkLine nick dest chunk], rfl, rfl,
        List.Sublist.refl _, fun _ => rfl⟩
  · exact Std.Refl.refl (r := Speaks r) l

theorem leads_record {c : SenderCall} (hc : lineOf c = none) :
    Leads (Speaks r) (Sender.record c : LinkM Unit) := leads_modify fun l => speaks_call hc l

theorem leads_sendRawMessage (nick text : Str) (target : Option Nat) :
    Leads (Speaks r) (sendRawMessage nick text target : LinkM Unit) := by
  have hdest : Leads (Speaks r) (destination target : LinkM Str) := by
    cases target with
    | none => exact composes_leads.getBind fun l => composes_leads.pure _
    | some g =>
        refine composes_leads.bind (pieces_speaks.getGroupById g) fun grp => ?_
        exact composes_leads.bind (pieces_speaks.ensureJoined _) fun _ => composes_leads.pure _
  refine composes_leads.bind (leads_record rfl) fun _ => composes_leads.bind hdest fun dest => ?_
  refine composes_leads.forM fun line _ => composes_leads.forM fun chunk _ => ?_
  exact leads_sendFragment nick dest chunk

theorem leads_removeMessage (id : Nat) : Leads (Speaks r) (removeMessage id : LinkM Unit) :=
  composes_leads.bind (leads_record rfl) fun _ => leads_store _

theorem leads_processMsgPlain (nick : Str) (msg : Message) :
    Leads (Speaks r) (processMsgPlain nick msg : LinkM Unit) := by
  refine composes_leads.bind (composes_unwrap composes_leads _ _) fun text => ?_
  refine composes_leads.bind (composes_leads.getBind fun l => composes_leads.pure _) fun now => ?_
  exact composes_leads.bind (leads_sendRawMessage _ _ _) fun _ => leads_removeMessage _

theorem leads_reportError (nick err : Str) :
    Leads (Speaks r) (do
      Sender.record (.reportError nick err)
      Sender.reportError nick err : LinkM Unit) := by
  refine composes_leads.bind (leads_record rfl) fun _ => composes_leads.getBind fun l => ?_
  refine composes_leads.getBind fun l => ?_
  split
  · exact composes_leads.throw _
  · split
    · exact composes_leads.throw _
    · exact leads_push _ _ _ (by decide)

theorem leads_processMsgPdu (nick : Str) (msg : Message) (pdu : DeliverPdu) :
    Leads (Speaks r) (processMsgPdu nick msg pdu : LinkM Unit) := by
  unfold processMsgPdu
  split
  · split
    · refine composes_leads.bind (leads_store _) fun msgs => ?_
      split
      · exact composes_leads.pure _
      · refine composes_leads.bind ?_ fun text => ?_
        · cases joinParts msgs with
          | ok a => exact composes_leads.pure a
          | error e => exact composes_leads.throw e
        · refine composes_leads.bind (leads_sendRawMessage _ _ _) fun _ => ?_
          exact composes_leads.forM fun m _ => leads_removeMessage m.id
    · exact composes_leads.bind (leads_sendRawMessage _ _ _) fun _ => leads_removeMessage _
  · exact leads_reportError _ _

theorem walk_speaks : Walk fun {α : Type} (p : LinkM α) => Leads (Speaks r) p :=
  pieces_speaks.walk leads_processMsgPdu leads_processMsgPlain

theorem commands_speaks : Commands fun {α : Type} (p : LinkM α) => Leads (Speaks r) p where
  toWalk := walk_speaks
  modem _ := leads_silent fun _ => ⟨rfl, rfl⟩
  whatsapp _ := leads_silent fun _ => ⟨rfl, rfl⟩
  group _ := leads_silent fun _ => ⟨rfl, rfl⟩
  ghost _ _ := leads_silent fun _ => ⟨rfl, rfl⟩
  contact _ := leads_silent fun _ => ⟨rfl, rfl⟩

theorem speaks_handlePrivmsg {l : InspLink} {source target msg : Str}
    (hraw : Raws l (.remote ⟨some source, .privmsg target msg⟩) → r) :
    wp (handlePrivmsg source target msg) (fun _ t => Speaks r l t) (fun _ _ => True) l := by
  by_cases hasks : AsksRaw msg ∧ ¬ r
  · obtain ⟨hasks, hr⟩ := hasks
    rw [handlePrivmsg, wp_bind, wp_get, wp_ite, wp_ite, wp_ite]
    split
    · exact Std.Refl.refl (r := Speaks r) l
    rename_i hadmin
    split
    · rename_i htarget
      exact absurd (hraw ⟨(not_not.mp hadmin).symm, htarget, hasks⟩) hr
    split
    · exact speaks_of_eq rfl rfl
    · cases l.contactsUuidPdua.lookup target with
      | none => exact Std.Refl.refl (r := Speaks r) l
      | some a =>
          dsimp only
          cases l.contacts.lookup a with
          | none => exact Std.Refl.refl (r := Speaks r) l
          | some ct =>
              dsimp only
              split
              · exact speaks_of_eq rfl rfl
              · exact speaks_of_eq rfl rfl
  · refine commands_speaks.handlePrivmsg source target msg (fun h => ?_) ?_ (fun _ => ?_)
      (fun _ => ?_) l
    · exact leads_send (by_contra fun hr => hasks ⟨h, hr⟩)
    all_goals exact leads_silent fun _ => ⟨rfl, rfl⟩

theorem leads_reportFailure (hr : r) (fail : Str) :
    Leads (Speaks r) (Link.handleCbCommand (.reportFailure fail)) := by
  refine composes_leads.getBind fun l => ?_
  cases adminUuid l with
  | some admu => exact leads_send hr _
  | none => exact composes_leads.pure _

/-- What an event of the link sends: other messages only if it has a line sent as it is, or
reports a failure. -/
theorem speaks_next {s t : Session} {e : LinkRuns.Event} (ht : LinkRuns.next s e = some t)
    (hstore : ∀ op, e ≠ .storeOp op) (hclock : ∀ now dbNow, e ≠ .clock now dbNow)
    (hraw : Raws s.link e → r) (hreport : ∀ fail, e = .cb (.reportFailure fail) → r)
    (hout : t.outcome = none) : Speaks r s.link t.link := by
  by_cases hpriv : ∃ source target msg, e = .remote ⟨some source, .privmsg target msg⟩
  · obtain ⟨source, target, msg, rfl⟩ := hpriv
    have hperform : t = perform s (handlePrivmsg source target msg) := by
      rw [LinkRuns.next, outcome_of_next ht] at ht
      simp only [LinkRuns.step] at ht
      split at ht
      · cases ht
      · exact (Option.some.inj ht).symm
    subst hperform
    exact wp_of_ok (Q := fun _ t => Speaks r s.link t) (E := fun _ _ => True)
      (exec_of_perform hout) (speaks_handlePrivmsg hraw)
  · obtain ⟨p, hp, rfl⟩ := walk_speaks.of_next ht
      (fun source target msg he => absurd ⟨source, target, msg, he⟩ hpriv)
      (fun fail he => leads_reportFailure (hreport fail he) fail) hstore hclock
    exact hp.exec (exec_of_perform hout)

end Speaking

end SmsIrc.LinkSpeech
