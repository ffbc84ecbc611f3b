import SmsIrc.Sample
import SmsIrc.Transition
import SmsIrc.Whatsapp

/-!
Runs of the WhatsApp side: what its connection and its downloads yield, commands
of the other parts of the program, and what those parts do to the database, in any
order.
-/

namespace SmsIrc.WhatsappRuns

open SmsIrc.Comm SmsIrc.Database SmsIrc.External SmsIrc.HashMaps SmsIrc.Models SmsIrc.Program
open SmsIrc.SenderCommon SmsIrc.SerialTable SmsIrc.Text SmsIrc.Transition SmsIrc.Util
open SmsIrc.WaAck SmsIrc.WaConn SmsIrc.Whatsapp SmsIrc.WhatsappMsg

section Runs

variable [Crates]

/-- The uses that other parts of the program make of the database. -/
inductive OtherOp where
  | smsMessage (addr : PduAddress) (pdu : List UInt8) (csmsData : Option Nat)
  | recipient (addr : PduAddress) (nick : Str)
  | dropRecipient (addr : PduAddress)
  | recipientNick (addr : PduAddress) (nick : Str) (src : Int)
  | recipientWa (addr : PduAddress) (wa : Bool)
  | deleteMessage (id : Nat)

def OtherOp.run : OtherOp → StoreM Unit
  | .smsMessage addr pdu csmsData => storeSmsMessage addr pdu csmsData
  | .recipient addr nick => do
      let _ ← storeRecipient addr nick
  | .dropRecipient addr => deleteRecipientWithAddr addr
  | .recipientNick addr nick src => updateRecipientNick addr nick src
  | .recipientWa addr wa => updateRecipientWa addr wa
  | .deleteMessage id => Database.deleteMessage id

/-- A manager, and what ended it, if anything has. -/
structure Session where
  manager : WhatsappManager
  outcome : Option Failure

inductive Event where
  /-- The connection is polled. -/
  | poll (answers : List Answer)
  /-- A command is taken from the queue. -/
  | handle
  /-- Another part of the program sends a command. -/
  | request (c : WhatsappCommand)
  /-- A download ends. -/
  | finished (i : Nat) (result : Except Str Str)
  | drain (answers : List SendAnswer)
  | complete (done : Bool)
  /-- The timer of the tracker fires. -/
  | check
  | otherOp (op : OtherOp)
  /-- Time passes, here and in the database. -/
  | clock (now dbNow : NaiveDateTime) (instant : Nat)

/-- Let a handler run; a failure ends the manager. -/
def perform (s : Session) (p : WaM Unit) : Session where
  manager := (exec p s.manager).2
  outcome := match (exec p s.manager).1 with
    | .ok _ => none
    | .error e => some e

/-- Commands that do not come from the manager's own downloads. -/
def isRequest : WhatsappCommand → Bool
  | .mediaFinished _ => false
  | _ => true

def setStore (m : WhatsappManager) (st : Store) : WhatsappManager :=
  { m with msgproc := { m.msgproc with store := st } }

/-- The end of a download, which is put in the queue. -/
def finish (m : WhatsappManager) (i : Nat) (mi : MediaInfo) (result : Except Str Str) :
    WhatsappManager :=
  { m with
    rx := m.rx ++ [.mediaFinished (mi.finished result)]
    msgproc := { m.msgproc with downloads := m.msgproc.downloads.eraseIdx i } }

/-- What an event does to a manager that has not ended. -/
def step (s : Session) : Event → Option Session
  | .poll answers => some (perform s (pollConn answers))
  | .handle => some (perform s handleNext)
  | .request c =>
      if isRequest c then some { s with manager := { s.manager with rx := s.manager.rx ++ [c] } }
      else none
  | .finished i result =>
      (s.manager.msgproc.downloads[i]?).map fun mi =>
        { s with manager := finish s.manager i mi result }
  | .drain answers => some (perform s (drainOutbox answers))
  | .complete done => some (perform s (pollComplete done))
  | .check => some (perform s checkAcks)
  | .otherOp op =>
      some { s with manager := setStore s.manager (exec op.run s.manager.msgproc.store).2 }
  | .clock now dbNow instant =>
      some { s with
        manager := { setStore s.manager { s.manager.msgproc.store with now := dbNow } with
          now := now, instant := instant } }

def next (s : Session) (e : Event) : Option Session :=
  match s.outcome with
  | none => step s e
  | some _ => none

theorem next_eq_some {s t : Session} {e : Event} (h : next s e = some t) :
    s.outcome = none ∧ step s e = some t := by
  unfold next at h
  split at h
  · exact ⟨by assumption, h⟩
  · cases h

theorem perform_manager (s : Session) (p : WaM Unit) :
    (perform s p).manager = (exec p s.manager).2 := rfl

theorem perform_pollConn (s : Session) (answers : List Answer) :
    perform s (pollConn answers) =
      perform { s with manager := { s.manager with conn := (s.manager.conn.poll answers).2 } }
        (handlePolled (s.manager.conn.poll answers).1) := rfl

theorem exec_of_perform {s : Session} {p : WaM Unit} (h : (perform s p).outcome = none) :
    exec p s.manager = (.ok (), (perform s p).manager) := by
  unfold perform at h ⊢
  rcases hp : exec p s.manager with ⟨_ | _, m⟩
  · rw [hp] at h
    cases h
  · rfl

end Runs

section Samples

attribute [local instance] Sample.crates

def sampleConfig : WhatsappConfig where
  mediaPath := none
  dlPath := none
  autocreatePrefix := none
  backlogStart := none
  markRead := false
  autoupdateNicks := true
  trackPresence := false
  ackWarnMs := none
  ackWarnPendingMs := none
  ackExpiryMs := none

def sampleManager : WhatsappManager :=
  .new sampleConfig Sample.store 0 0 decimal (fun n => .ok (decimal n)) none ("error" : Str)

/-- The connection is set up. -/
def connecting : List Event := [.handle, .request .startRegistration, .handle, .poll [.ready]]

example : ((Transition.run next ⟨sampleManager, none⟩ connecting).map fun t =>
    (t.manager.conn.isConnected, t.outcome.isNone)) = some (true, true) := by decide +kernel

end Samples

end SmsIrc.WhatsappRuns
