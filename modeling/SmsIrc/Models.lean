import SmsIrc.Util

/-!
`src/models.rs`: the rows of the database.
-/

namespace SmsIrc.Models

open SmsIrc.External SmsIrc.Program SmsIrc.Text SmsIrc.Util

structure Recipient where
  id : Nat
  phoneNumber : Str
  nick : Str
  whatsapp : Bool
  avatarUrl : Option Str
  notify : Option Str
  nicksrc : Int
deriving DecidableEq

/-- Nick source: migrated from previous sms-irc install. -/
def nicksrcMigrated : Int := -1
/-- Nick source: autogenerated from phone number. -/
def nicksrcAuto : Int := 0
/-- Nick source: renamed by user. -/
def nicksrcUser : Int := 1
/-- Nick source: from WhatsApp contact name. -/
def nicksrcWaContact : Int := 2
/-- Nick source: from WhatsApp notify. -/
def nicksrcWaNotify : Int := 3
/-- Nick source: from a nick collision. -/
def nicksrcCollision : Int := 4

structure Message where
  id : Nat
  phoneNumber : Str
  pdu : Option (List UInt8)
  csmsData : Option Nat
  groupTarget : Option Nat
  text : Option Str
  source : Nat
  ts : NaiveDateTime
deriving DecidableEq

def sourceSms : Nat := 0
def sourceWa : Nat := 1

structure Group where
  id : Nat
  jid : Str
  channel : Str
  participants : List Nat
  admins : List Nat
  topic : Str
deriving DecidableEq

variable [Crates] {σ : Type}

/-- `get_addr` of recipients and of messages. -/
def getAddr (phoneNumber : Str) : Prog Failure σ PduAddress :=
  match unNormalizeAddress phoneNumber with
  | some addr => pure addr
  | none => throw (.error (("invalid address " : Str) ++ phoneNumber ++ (" in db" : Str)))

theorem steps_getAddr {R : σ → σ → Prop} [IsPreorder σ R] {P : Failure → Prop}
    (hP : ∀ msg, P (.error msg)) (phoneNumber : Str) :
    Steps R P (getAddr phoneNumber : Prog Failure σ PduAddress) := by
  unfold getAddr
  cases unNormalizeAddress phoneNumber with
  | some a => exact steps_pure a
  | none => exact steps_throw (hP _)

theorem preserves_getAddr {I : σ → Prop} {P : Failure → Prop} (hP : ∀ msg, P (.error msg))
    (phoneNumber : Str) : Preserves I P (getAddr phoneNumber : Prog Failure σ PduAddress) := by
  unfold getAddr
  cases unNormalizeAddress phoneNumber with
  | some a => exact preserves_pure a
  | none => exact preserves_throw (hP _)

def Recipient.getAddr (r : Recipient) : Prog Failure σ PduAddress :=
  Models.getAddr r.phoneNumber

def Message.getAddr (m : Message) : Prog Failure σ PduAddress :=
  Models.getAddr m.phoneNumber

end SmsIrc.Models
