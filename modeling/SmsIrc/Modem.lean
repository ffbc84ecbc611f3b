import SmsIrc.Comm
import SmsIrc.SenderCommon

/-!
`src/modem.rs`: modem management. What the modem, its timers and its
notifications do is given to each method from outside.
-/

namespace SmsIrc.Modem

open SmsIrc.Comm SmsIrc.Database SmsIrc.External SmsIrc.Models SmsIrc.Program
open SmsIrc.SenderCommon SmsIrc.Text SmsIrc.Util

/-- The states of the connection to the modem. -/
inductive ModemInner where
  | uninitialized
  | disabled
  | waiting
  | initializing
  | running
deriving DecidableEq

/-- What a timer or an initialisation that has come to an end yields. -/
inductive Ready where
  | done
  | failed
deriving DecidableEq

/-- An unsolicited result code, or the end of their stream. -/
inductive Urc where
  | cmti
  | other
  | closed
deriving DecidableEq

/-- What polling the modem finds: the futures of the connection that have come
to an end, one after the other, and the result codes received since. -/
structure Poll where
  inner : List Ready
  urcs : List Urc

variable [Crates]

/-- The AT commands that the manager gives to the modem. -/
inductive AtCommand where
  | listSms
  | delSms
  | getRegistration
  | getSignalQuality
  | sendSms (addr : PduAddress) (msg : Str)

/-- What the modem answers to a command that it has executed. -/
inductive AtAnswer where
  | listed (msgs : List SmsMessage)
  | done
  | registration (state : Str)
  | signalQuality (rssi ber : Str)

/-- A command that the modem may still execute or has executed, with its
answer, and whether its future still waits for that. -/
structure Pending where
  command : AtCommand
  answer : Option AtAnswer
  waiting : Bool

structure ModemManager where
  inner : ModemInner
  store : Store
  modemPath : Option Str
  /-- Both the queue from the other parts and `int_tx`. -/
  rx : List ModemCommand
  cfTx : List ContactFactoryCommand
  cbTx : List ControlBotCommand
  /-- The commands given to the modem. -/
  commands : List Pending
  /-- Not in the source: the PDUs that `store_sms_message` has stored. -/
  stored : List (List UInt8)

abbrev ModemM := Prog Failure ModemManager

instance : HasStore ModemManager where
  getStore mgr := mgr.store
  setStore mgr st := { mgr with store := st }

/-- A new manager, which lists the messages as its first command. -/
def ModemManager.new (store : Store) (modemPath : Option Str) : ModemManager where
  inner := .uninitialized
  store := store
  modemPath := modemPath
  rx := [.doCmgl]
  cfTx := []
  cbTx := []
  commands := []
  stored := []

/-- `ModemInner::poll`; the result tells whether the modem was just freshly
reinitialized. -/
def ModemInner.poll (modemPath : Option Str) :
    ModemInner → List Ready → Bool × ModemInner
  | .uninitialized, ready =>
      match modemPath, ready with
      | none, _ => (false, .disabled)
      | some _, [] => (false, .initializing)
      | some _, .done :: _ => (true, .running)
      | some _, .failed :: rest => ModemInner.poll modemPath .waiting rest
  | .waiting, [] => (false, .waiting)
  | .waiting, .done :: rest => ModemInner.poll modemPath .uninitialized rest
  | .waiting, .failed :: rest => ModemInner.poll modemPath .waiting rest
  | .initializing, [] => (false, .initializing)
  | .initializing, .done :: _ => (true, .running)
  | .initializing, .failed :: rest => ModemInner.poll modemPath .waiting rest
  | inner, _ => (false, inner)

/-- `hdl.spawn` of the future of a command. -/
def spawn (c : AtCommand) : ModemM Unit :=
  modify fun mgr => { mgr with commands := mgr.commands ++ [⟨c, none, true⟩] }

def cbSend (c : ControlBotCommand) : ModemM Unit :=
  modify fun mgr => { mgr with cbTx := mgr.cbTx ++ [c] }

def cfSend (c : ContactFactoryCommand) : ModemM Unit :=
  modify fun mgr => { mgr with cfTx := mgr.cfTx ++ [c] }

/-- `cmgl`: ask for all messages, whatever their status. -/
def cmgl : ModemM Unit := do
  let mgr ← get
  when (mgr.inner = .running) (spawn .listSms)

/-- `ModemInner::report_error`. -/
def waitAgain : ModemM Unit := modify fun mgr => { mgr with inner := .waiting }

/-- `poll_urc_rx`; the result tells whether the stream of codes has ended. -/
def pollUrcRx (urcs : List Urc) : ModemM Bool := do
  let mgr ← get
  if mgr.inner = .running then
    if .closed ∈ urcs then pure true
    else do
      when (.cmti ∈ urcs) cmgl
      pure false
  else pure false

/-- One pass of `poll_modem`, up to the report of an error. -/
def pollModemOnce (p : Poll) : ModemM Bool := do
  let mgr ← get
  let (fresh, inner) := ModemInner.poll mgr.modemPath mgr.inner p.inner
  set { mgr with inner := inner }
  when fresh cmgl
  pollUrcRx p.urcs

/-- `poll_modem`, which `report_modem_error` starts again. -/
def pollModem : List Poll → ModemM Unit
  | [] => do
      let _ ← pollModemOnce ⟨[], []⟩
  | p :: ps => do
      let again ← pollModemOnce p
      when again do
        waitAgain
        pollModem ps

/-- `reinit_modem`, `command_timeout` and `report_modem_error`. -/
def reinitModem (ps : List Poll) : ModemM Unit := do
  waitAgain
  pollModem ps

def makeContact (addr : PduAddress) : ModemM Unit := do
  match ← store (getRecipientByAddrOpt addr) with
  | some _ => pure ()
  | none => do
      let _ ← store (storeRecipient addr (makeNickForAddress addr))
      cfSend (.setupContact addr)
      cfSend .processMessages

def updatePath (path : Option Str) (ps : List Poll) : ModemM Unit := do
  modify fun mgr => { mgr with modemPath := path }
  reinitModem ps

/-- The macro `get_modem!`, and then a command for the modem. -/
def withModem (desc : Str) (c : AtCommand) : ModemM Unit := do
  let mgr ← get
  if mgr.inner = .running then spawn c
  else
    cbSend (.reportFailure (desc ++ (" failed: Modem is not initialized" : Str)))

def requestReg : ModemM Unit :=
  withModem ("Getting registration" : Str) .getRegistration

def requestCsq : ModemM Unit :=
  withModem ("Getting signal quality" : Str) .getSignalQuality

def sendMessage (addr : PduAddress) (msg : Str) : ModemM Unit :=
  withModem ("Sending message" : Str) (.sendSms addr msg)

/-- The reference that is stored with a message, if it is a part. -/
def csmsDataOf (pdu : DeliverPdu) : Option Nat :=
  match pdu.decodeMessage with
  | .ok m => (concatenation m).map fun x => x.reference.toNat
  | .error _ => none

/-- The body of the loop of `cmgl_complete`. -/
def storeListed (msg : SmsMessage) : ModemM Unit :=
  if msg.status ≠ .receivedUnread then pure ()
  else do
    store (storeSmsMessage msg.pdu.originatingAddress msg.rawPdu (csmsDataOf msg.pdu))
    modify fun mgr => { mgr with stored := mgr.stored ++ [msg.rawPdu] }

def cmglComplete (msgs : List SmsMessage) : ModemM Unit := do
  forM msgs storeListed
  cfSend .processMessages
  let mgr ← get
  when (mgr.inner = .running) (spawn .delSms)

/-- The command at the head of the queue. -/
def handleCommand (ps : List Poll) : ModemCommand → ModemM Unit
  | .doCmgl => cmgl
  | .cmglComplete msgs => cmglComplete msgs
  | .cmglFailed _ => reinitModem ps
  | .sendMessage addr msg => sendMessage addr msg
  | .requestCsq => requestCsq
  | .requestReg => requestReg
  | .forceReinit => reinitModem ps
  | .updatePath p => updatePath p ps
  | .commandTimeout => reinitModem ps
  | .makeContact a => makeContact a

def handleNext (ps : List Poll) : ModemM Unit := do
  let mgr ← get
  match mgr.rx with
  | [] => pure ()
  | c :: rest => do
      set { mgr with rx := rest }
      handleCommand ps c

def intSend (cs : List ModemCommand) : ModemM Unit :=
  modify fun mgr => { mgr with rx := mgr.rx ++ cs }

/-- What the future of a command does with its answer. -/
def commandAnswered : AtCommand → AtAnswer → ModemM Unit
  | .listSms, .listed msgs => intSend [.cmglComplete msgs]
  | .getRegistration, .registration state =>
      cbSend (.commandResponse (("Registration state: \x02" : Str) ++ state ++ ['\x0f']))
  | .getSignalQuality, .signalQuality rssi ber =>
      cbSend (.commandResponse (("RSSI: \x02" : Str) ++ rssi ++ ("\x0f | BER: \x02" : Str) ++
        ber ++ ['\x0f']))
  | _, _ => pure ()

/-- What the future of a command does when the command has failed, or when its
timeout is reached first; `command_timeout!` treats both alike. -/
def commandFailed (e : Str) : AtCommand → ModemM Unit
  | .listSms =>
      intSend [.commandTimeout, .cmglFailed ("Modem command timeout reached" : Str)]
  | .sendSms addr _ =>
      cbSend (.reportFailure (("Failed to send message to " : Str) ++
        Crates.displayAddress addr ++ (": " : Str) ++ e))
  | _ => intSend [.commandTimeout]

end SmsIrc.Modem
