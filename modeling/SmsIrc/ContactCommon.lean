import SmsIrc.Comm
import SmsIrc.SenderCommon

/-!
`src/contact_common.rs`: shared behaviour for contact stores. The trait is
given as two classes, since a store may use the methods of the first one to
implement those of the second.
-/

namespace SmsIrc.ContactCommon

open SmsIrc.Comm SmsIrc.Database SmsIrc.External SmsIrc.Models SmsIrc.Program
open SmsIrc.SenderCommon SmsIrc.Text SmsIrc.Util

variable [Crates]

class ContactSetup (σ : Type) [HasStore σ] where
  waSend : WhatsappCommand → Prog Failure σ Unit
  mSend : ModemCommand → Prog Failure σ Unit
  cbSend : ControlBotCommand → Prog Failure σ Unit
  setupContactFor : Recipient → PduAddress → Prog Failure σ Unit
  hasContact : PduAddress → Prog Failure σ Bool

class ContactManagerManager (σ : Type) [HasStore σ] [ContactSetup σ] where
  removeContactFor : PduAddress → Prog Failure σ Unit
  forwardCmd : PduAddress → ContactManagerCommand → Prog Failure σ Unit
  resolveNick : Str → Prog Failure σ (Option PduAddress)

section Setup

variable {σ : Type} [HasStore σ] [ContactSetup σ]

def setupRecipient (recip : Recipient) : Prog Failure σ Unit := do
  let addr ← recip.getAddr
  let present ← ContactSetup.hasContact addr
  when (!present) (ContactSetup.setupContactFor recip addr)

def setupContact (a : PduAddress) : Prog Failure σ Unit := do
  match ← store (getRecipientByAddrOpt a) with
  | some recip => setupRecipient recip
  | none => pure ()

/-- Ask for the creation of a recipient, in the place that a message came from. -/
def requestCreation (a : PduAddress) (src : Nat) : Prog Failure σ Unit :=
  if src = sourceSms then ContactSetup.mSend (.makeContact a)
  else if src = sourceWa then ContactSetup.waSend (.makeContact a)
  else pure ()

def requestContact (a : PduAddress) (src : Nat) : Prog Failure σ Bool := do
  match ← store (getRecipientByAddrOpt a) with
  | some recip => do
      setupRecipient recip
      pure true
  | none => do
      requestCreation a src
      pure false

def queryContact (a : PduAddress) (src : Nat) : Prog Failure σ Unit := do
  match ← store (getRecipientByAddrOpt a) with
  | some recip => do
      ContactSetup.cbSend (.commandResponse
        (("Ghost exists already; nickname is \x60" : Str) ++ recip.nick ++ ("\x60." : Str)))
      setupRecipient recip
  | none => do
      ContactSetup.cbSend (.commandResponse
        (("Setting up a ghost for number \x60" : Str) ++ Crates.displayAddress a ++
          ("\x60..." : Str)))
      let _ ← requestContact a src

end Setup

section Manager

variable {σ : Type} [HasStore σ] [ContactSetup σ] [ContactManagerManager σ]

def dropContact (addr : PduAddress) : Prog Failure σ Unit := do
  store (deleteRecipientWithAddr addr)
  ContactManagerManager.removeContactFor addr

def subscribePresenceByNick (nick : Str) : Prog Failure σ Unit := do
  match ← ContactManagerManager.resolveNick nick with
  | some a => ContactSetup.waSend (.subscribePresence a)
  | none => pure ()

def dropContactByNick (nick : Str) : Prog Failure σ Unit := do
  match ← ContactManagerManager.resolveNick nick with
  | some a => dropContact a
  | none => pure ()

def forwardCmdByNick (nick : Str) (cmd : ContactManagerCommand) : Prog Failure σ Unit := do
  match ← ContactManagerManager.resolveNick nick with
  | some a => ContactManagerManager.forwardCmd a cmd
  | none => pure ()

end Manager

end SmsIrc.ContactCommon
