import SmsIrc.Util

/-!
`src/insp_user.rs`: InspIRCd user tracking.
-/

namespace SmsIrc.InspUsers

open SmsIrc.External SmsIrc.Text SmsIrc.Util

structure InspUser where
  ts : Int
  nick : Str
  hostname : Str
  displayedHostname : Str
  ident : Str
  ip : Str
  signonTime : Int
  /-- Modes in `+abc [args]` format. -/
  modes : Str
  gecos : Str
  ours : Bool
deriving DecidableEq

/-- `chrono::Utc::now().timestamp()`. -/
def timestamp (now : NaiveDateTime) : Int := now.fdiv 1000000000

def newForControlbot (now : NaiveDateTime) (nick hostname : Str) : InspUser where
  ts := timestamp now
  nick := nick
  hostname := hostname
  displayedHostname := hostname
  ident := "~control"
  ip := "0.0.0.0"
  signonTime := timestamp now
  modes := "+i"
  gecos := "sms-irc control bot"
  ours := true

variable [Crates]

/-- `{:?}` of a list of strings. -/
def debugList (xs : List Str) : Str :=
  '[' :: join (", " : Str) (xs.map (debugStr Crates.printed)) ++ [']']

def newFromUidLine (args : List Str) (suffix : Option Str) : Except Failure (Str × InspUser) :=
  match args with
  | uuid :: ts :: nick :: hostname :: displayedHostname :: ident :: ip :: signonTime ::
      mode :: modes =>
      match suffix with
      | none => .error (.error ("UID with no suffix" : Str))
      | some gecos =>
          match parseI64 ts, parseI64 signonTime with
          | .error e, _ => .error (.error e)
          | _, .error e => .error (.error e)
          | .ok ts, .ok signonTime =>
              .ok (uuid,
                { ts := ts, nick := nick, hostname := hostname,
                  displayedHostname := displayedHostname, ident := ident, ip := ip,
                  signonTime := signonTime, modes := join (" " : Str) (mode :: modes),
                  gecos := gecos, ours := false })
  | _ => .error (.error (("UID with invalid args: " : Str) ++ debugList args))

def newFromRecipient (now : NaiveDateTime) (a : PduAddress) (nick hostname : Str) :
    InspUser where
  ts := timestamp now
  nick := nick
  hostname := hostname
  displayedHostname := hostname
  ident := stringToIrcNick (Crates.displayAddress a)
  ip := "0.0.0.0"
  signonTime := timestamp now
  modes := "+i"
  gecos := Crates.displayAddress a
  ours := true

/-- `{:#?}` of a user that may not be there. -/
def debugPretty : Option InspUser → Str
  | none => "None"
  | some u =>
      ("Some(\n    InspUser \x7b\n        ts: " : Str) ++ decimalInt u.ts ++
        (",\n        nick: " : Str) ++ debugStr Crates.printed u.nick ++
        (",\n        hostname: " : Str) ++ debugStr Crates.printed u.hostname ++
        (",\n        displayed_hostname: " : Str) ++ debugStr Crates.printed u.displayedHostname ++
        (",\n        ident: " : Str) ++ debugStr Crates.printed u.ident ++
        (",\n        ip: " : Str) ++ debugStr Crates.printed u.ip ++
        (",\n        signon_time: " : Str) ++ decimalInt u.signonTime ++
        (",\n        modes: " : Str) ++ debugStr Crates.printed u.modes ++
        (",\n        gecos: " : Str) ++ debugStr Crates.printed u.gecos ++
        (",\n        ours: " : Str) ++ (if u.ours then ("true" : Str) else ("false" : Str)) ++
        (",\n    \x7d,\n)" : Str)

end SmsIrc.InspUsers
