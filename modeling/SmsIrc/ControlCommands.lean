import SmsIrc.Admin
import SmsIrc.Comm
import SmsIrc.Program

/-!
`src/control_common.rs`: common behaviours for the control bot.
-/

namespace SmsIrc.ControlCommands

open SmsIrc.Admin SmsIrc.Comm SmsIrc.External SmsIrc.Models SmsIrc.Program
open SmsIrc.Text SmsIrc.Util

variable [Crates]

class ControlCommon (σ : Type) where
  waSend : Comm.WhatsappCommand → Prog Failure σ Unit
  cfSend : ContactFactoryCommand → Prog Failure σ Unit
  mSend : Comm.ModemCommand → Prog Failure σ Unit
  /-- Process the InspIRCd-specific command specified, if this is an InspIRCd
  link. -/
  processInsp : InspCommand → Prog Failure σ Bool
  /-- Send a response message to the administrator. -/
  controlResponse : Str → Prog Failure σ Unit

/-- The command that `MODEM` sends to the modem manager. -/
def toModem : Admin.ModemCommand → Comm.ModemCommand
  | .getCsq => .requestCsq
  | .getReg => .requestReg
  | .reinit => .forceReinit
  | .tempPath s => .updatePath s

/-- The command that `WHATSAPP` sends to the WhatsApp manager. -/
def toWhatsapp : Admin.WhatsappCommand → Comm.WhatsappCommand
  | .setup => .startRegistration
  | .logon => .logonIfSaved
  | .chatList => .groupList
  | .updateAll => .groupUpdateAll
  | .printAcks => .printAcks

/-- The command that `GROUP` sends to the WhatsApp manager. -/
def groupToWhatsapp : GroupCommand → Comm.WhatsappCommand
  | .bridgeWhatsapp jid chan => .groupAssociate jid chan
  | .unbridge ch => .groupRemove ch

/-- The query that `CONTACT` makes. -/
def toQuery : ContactCommand → ContactFactoryCommand
  | .newSms a => .queryContact a sourceSms
  | .newWhatsapp a => .queryContact a sourceWa

/-- The command that `GHOST` sends to the contact factory. -/
def ghostToFactory (nick : Str) : GhostCommand → ContactFactoryCommand
  | .changeNick n => .forwardCommandByNick nick (.changeNick n nicksrcUser)
  | .setWhatsapp n => .forwardCommandByNick nick (.setWhatsapp n)
  | .presenceSubscribe => .subscribePresenceByNick nick
  | .remove => .dropContactByNick nick

variable {σ : Type} [ControlCommon σ]

/-- What a parsed command does. -/
def executeAdminCommand : AdminCommand → Prog Failure σ Unit
  | .ghost nick gc => do
      ControlCommon.cfSend (ghostToFactory nick gc)
      ControlCommon.controlResponse ("Ghost command executed." : Str)
  | .modem mc => ControlCommon.mSend (toModem mc)
  | .whatsapp wac => ControlCommon.waSend (toWhatsapp wac)
  | .group gc => ControlCommon.waSend (groupToWhatsapp gc)
  | .contact cc => ControlCommon.cfSend (toQuery cc)
  | .insp ic => do
      let processed ← ControlCommon.processInsp ic
      when (!processed)
        (ControlCommon.controlResponse ("Error: InspIRCd link inactive!" : Str))
  | .help qry =>
      match helpPage qry with
      | some hp => forM (lines hp.toList) ControlCommon.controlResponse
      | none => ControlCommon.controlResponse ("No help page found for that topic." : Str)

/-- Process a message sent to the control bot or user. -/
def processAdminCommand (mesg : Str) : Prog Failure σ Unit :=
  if mesg = [] then pure ()
  else
    match AdminCommand.parse (splitOn ' ' mesg) with
    | .error e => throw e
    | .ok none =>
        ControlCommon.controlResponse
          ("Invalid command. Try \x02HELP\x0f for a command listing." : Str)
    | .ok (some ac) => executeAdminCommand ac

section Relations

variable {R : σ → σ → Prop} [IsPreorder σ R]

theorem moves_processAdminCommand
    (hmodem : ∀ c, Moves R (ControlCommon.mSend (toModem c) : Prog Failure σ Unit))
    (hwhatsapp : ∀ c, Moves R (ControlCommon.waSend (toWhatsapp c) : Prog Failure σ Unit))
    (hgroup : ∀ c, Moves R (ControlCommon.waSend (groupToWhatsapp c) : Prog Failure σ Unit))
    (hfactory : ∀ c, Moves R (ControlCommon.cfSend c : Prog Failure σ Unit))
    (hresponse : ∀ msg, Moves R (ControlCommon.controlResponse msg : Prog Failure σ Unit))
    {mesg : Str} (hinsp : ∀ ic, AdminCommand.parse (splitOn ' ' mesg) = .ok (some (.insp ic)) →
      Moves R (ControlCommon.processInsp ic : Prog Failure σ Bool)) :
    Moves R (processAdminCommand mesg : Prog Failure σ Unit) := by
  unfold processAdminCommand
  split
  · exact steps_pure _
  · split
    · exact steps_throw trivial
    · exact hresponse _
    · rename_i ac hparse
      cases ac with
      | ghost nick gc => exact Steps.bind (hfactory _) fun _ => hresponse _
      | modem mc => exact hmodem _
      | whatsapp wac => exact hwhatsapp _
      | group gc => exact hgroup _
      | contact cc => exact hfactory _
      | insp ic => exact Steps.bind (hinsp ic hparse) fun _ => Steps.when (hresponse _)
      | help qry =>
          rw [executeAdminCommand]
          cases helpPage qry with
          | some hp => exact Steps.forM fun _ _ => hresponse _
          | none => exact hresponse _

end Relations

end SmsIrc.ControlCommands
