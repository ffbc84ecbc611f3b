import SmsIrc.SenderCommon

/-!
One instance of the foreign functions, computable and small, on which general
results can be tried. It agrees with the crates on ASCII text, on decimal phone
numbers and on UCS-2 `SMS-DELIVER` PDUs of ASCII text.
-/

namespace SmsIrc.Sample

open SmsIrc.Database SmsIrc.External SmsIrc.HashMaps SmsIrc.Program
open SmsIrc.SenderCommon SmsIrc.SerialTable SmsIrc.Text SmsIrc.Util

/-- The type-of-address octet of international numbers. -/
def international : UInt8 := 0x91

/-- The same for numbers of unknown type. -/
def unknown : UInt8 := 0x81

def hexDigit (c : Char) : Option Nat :=
  if c.isDigit then some (c.toNat - 48)
  else if 'A' ≤ c ∧ c ≤ 'F' then some (c.toNat - 55)
  else if 'a' ≤ c ∧ c ≤ 'f' then some (c.toNat - 87)
  else none

def hexDecode : Str → Option (List UInt8)
  | [] => some []
  | [_] => none
  | a :: b :: rest => do
      let hi ← hexDigit a
      let lo ← hexDigit b
      let bytes ← hexDecode rest
      pure (UInt8.ofNat (16 * hi + lo) :: bytes)

def displayAddress (addr : PduAddressOf UInt8) : Str :=
  (if addr.typeAddr = international then ['+'] else []) ++
    addr.number.map fun b => Nat.digitChar b.toNat

def parseAddress (s : Str) : Option (PduAddressOf UInt8) := do
  let (toa, digits) := match s with
    | '+' :: digits => (international, digits)
    | digits => (unknown, digits)
  let number ← digits.mapM fun c =>
    if c.isDigit then some (UInt8.ofNat (c.toNat - 48)) else none
  pure ⟨toa, number⟩

/-- The two digits of each octet, the low one first. -/
def semiOctets (bytes : List UInt8) : List UInt8 :=
  bytes.flatMap fun b => [b % 16, b / 16]

def ucs2 : List UInt8 → Str
  | hi :: lo :: rest => Char.ofNat (256 * hi.toNat + lo.toNat) :: ucs2 rest
  | _ => []

/-- The user data of a PDU, with a concatenation header if there is one. -/
def decodeUserData (coding : UInt8) (udhi : Bool) (ud : List UInt8) : Except Str DecodedMessage :=
  if coding ≠ 8 then .error ("unsupported encoding" : Str)
  else if udhi then
    match ud with
    | 5 :: 0 :: 3 :: rf :: parts :: seq :: text =>
        .ok ⟨ucs2 text, some ⟨some ⟨rf.toUInt16, parts, seq⟩⟩⟩
    | _ => .error ("unsupported header" : Str)
  else .ok ⟨ucs2 ud, none⟩

/-- A number that has no digits is not accepted. -/
def deliverPduTryFrom (pdu : List UInt8) : Except Str (DeliverPduOf UInt8) :=
  match pdu with
  | 0 :: first :: digits :: toa :: rest =>
      let octets := (digits.toNat + 1) / 2
      let number := (semiOctets (rest.take octets)).take digits.toNat
      match rest.drop octets with
      | _ :: coding :: _ :: _ :: _ :: _ :: _ :: _ :: _ :: _ :: ud =>
          if number = [] then .error ("number too short" : Str)
          else .ok ⟨⟨toa, number⟩, decodeUserData coding (first / 64 % 2 = 1) ud⟩
      | _ => .error ("unsupported PDU" : Str)
  | _ => .error ("unsupported PDU" : Str)

def takeCaption : ChatMessageContent → Option Str
  | .image caption => caption
  | .video caption => caption
  | _ => none

def quotedDescription : ChatMessageContent → Str
  | .text s => s
  | .image _ => ("[image]" : Str)
  | .video _ => ("[video]" : Str)
  | .audio => ("[audio]" : Str)
  | _ => ("[message]" : Str)

@[reducible] def crates : Crates where
  AddressType := UInt8
  toaToU8 toa := toa
  toaTryFrom toa := if toa = international ∨ toa = unknown then some toa else none
  hexDisplay bytes := bytes.flatMap hexByte
  hexDecode := hexDecode
  displayAddress := displayAddress
  parseAddress := parseAddress
  deliverPduTryFrom := deliverPduTryFrom
  displayJid jid := jid.id ++ (if jid.isGroup then ("@g.us" : Str) else ("@c.us" : Str))
  parseJid s := match splitOn '@' s with
    | [id, server] => some ⟨id, server = ("g.us" : Str)⟩
    | _ => none
  phonenumber jid := if jid.isGroup then none else some ('+' :: jid.id)
  fromPhonenumber
    | '+' :: id => .ok ⟨id, false⟩
    | _ => .error ("not a phone number" : Str)
  takeCaption := takeCaption
  quotedDescription := quotedDescription
  PersistentSession := Unit
  parseMessage _ := .error ("invalid message" : Str)
  unidecode s := s
  graphemes s := s.map fun c => [c]
  cased := Char.isAlpha
  caseIgnorable c := c ∈ (".':^`" : Str)
  regexDigit := Char.isDigit
  printed _ := true
  localDate t := decimalInt (date t)
  localTime t := decimalInt t
  hashOrder := .stored
  scanOrder := .stored

attribute [local instance] crates

/-- A database without rows that never fails. -/
def store : Store where
  recipients := .empty
  messages := .empty
  groups := .empty
  waMsgids := []
  waPersistence := none
  now := 0
  dbDown _ := false
  queries := 0

/-- The number +44123. -/
def alice : PduAddress := ⟨international, [4, 4, 1, 2, 3]⟩

/-- An `SMS-DELIVER` PDU from `alice` with a text, and with a concatenation
header where `part` gives one. -/
def pdu (part : Option (UInt8 × UInt8 × UInt8)) (text : Str) : List UInt8 :=
  let ud : List UInt8 := (match part with
    | some (rf, parts, seq) => [5, 0, 3, rf, parts, seq]
    | none => []) ++ text.flatMap fun c => [UInt8.ofNat (c.toNat / 256), UInt8.ofNat c.toNat]
  [0, if part.isSome then 0x44 else 0x04, 5, international, 0x44, 0x21, 0xF3, 0, 8,
    0x02, 0x11, 0x81, 0x51, 0x74, 0x90, 0x40, UInt8.ofNat ud.length] ++ ud

theorem hexDigit_upper : ∀ n < 16, hexDigit (Nat.digitChar n).toUpper = some n := by
  decide

theorem hexDecode_bytes (bytes : List UInt8) :
    hexDecode (bytes.flatMap hexByte) = some bytes := by
  induction bytes with
  | nil => rfl
  | cons b bytes ih =>
      have hb : b.toNat < 256 := b.toNat_lt
      have hback : UInt8.ofNat (16 * (b.toNat / 16) + b.toNat % 16) = b := by
        rw [Nat.div_add_mod, UInt8.ofNat_toNat]
      rw [List.flatMap_cons]
      change hexDecode (_ :: _ :: bytes.flatMap hexByte) = _
      rw [hexDecode, hexDigit_upper _ (by omega), hexDigit_upper _ (by omega), ih]
      simp only [Option.bind_eq_bind, Option.bind_some, hback]
      rfl

theorem readsBack_alice : ReadsBack alice := by
  unfold ReadsBack
  decide

example : (deliverPduTryFrom (pdu (some (7, 2, 1)) ("hi" : Str))).toOption.map
    (fun p => (p.originatingAddress, p.decodeMessage.toOption)) =
      some (alice, some ⟨("hi" : Str), some ⟨some ⟨7, 2, 1⟩⟩⟩) := by decide

/-- A sender that prints nowhere. -/
@[reducible] def hasStore : HasStore Store where
  getStore st := st
  setStore _ st := st

attribute [local instance] hasStore

@[reducible] def sender : Sender Store where
  reportError _ _ := pure ()
  privateTarget := pure ("admin" : Str)
  sendIrcMessage _ _ _ := pure ()
  ensureJoined _ := pure ()
  utcNow := pure 0
  record _ := pure ()

end SmsIrc.Sample
