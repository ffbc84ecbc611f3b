import SmsIrc.Lowercase
import SmsIrc.Models

/-!
`src/admin.rs`: the commands of the administrator. Command words are matched
after `to_lowercase`.
-/

namespace SmsIrc.Admin

open SmsIrc.External SmsIrc.Lowercase SmsIrc.Text SmsIrc.Util

inductive GhostCommand where
  | changeNick (newNick : Str)
  | setWhatsapp (value : Bool)
  | presenceSubscribe
  | remove
deriving DecidableEq

inductive ModemCommand where
  | getCsq
  | getReg
  | reinit
  | tempPath (path : Option Str)
deriving DecidableEq

inductive ContactCommand [Crates] where
  | newSms (addr : PduAddress)
  | newWhatsapp (addr : PduAddress)
deriving DecidableEq

inductive WhatsappCommand where
  | setup
  | logon
  | chatList
  | updateAll
  | printAcks
deriving DecidableEq

inductive GroupCommand where
  | bridgeWhatsapp (jid : Jid) (chan : Str)
  | unbridge (chan : Str)
deriving DecidableEq

inductive InspCommand where
  | raw (line : Str)
  | queryUuid (uuid : Str)
  | queryNickUuid (nick : Str)
deriving DecidableEq

inductive AdminCommand [Crates] where
  | ghost (nick : Str) (c : GhostCommand)
  | contact (c : ContactCommand)
  | whatsapp (c : WhatsappCommand)
  | modem (c : ModemCommand)
  | group (c : GroupCommand)
  | insp (c : InspCommand)
  | help (page : Option Str)
deriving DecidableEq

def ghostHelp : String :=
  "\x02*** GHOST subcommand ***\x0f
The following commands are available:
\x02RENAME\x0f \x1dnew_nick\x0f
    Change the ghost's nickname to \x1dnew_nick\x0f.
\x02WHATSAPP\x0f \x1dtrue|false\x0f
    Enable or disable WhatsApp mode for this recipient.
\x02REMOVE\x0f \x0307(aliases \x02KILL\x02, \x02DIE\x02)\x0f
    Remove this recipient, causing them to disconnect.
\x02PRESUB\x0f
    \x02Sub\x0fscribe to updates about the user's \x02pre\x0fsence, if they're using WhatsApp.
    This command will usually not be required, and is mainly useful for debugging.
\x02*** End of subcommand help ***\x0f"

def modemHelp : String :=
  "\x02*** MODEM subcommand ***\x0f
The following commands are available:
\x02SIGNAL\x0f \x0307(alias \x02CSQ\x02)\x0f
    Get the current signal strength, as reported by the modem.
\x02REGISTRATION\x0f \x0307(alias \x02REG\x02)\x0f
    Get the modem's registration state.
\x02RESTART\x0f
    Reinitialize the connection to the modem.
\x02PATH\x0f \x1d[temp_path]\x0f
    \x1f\x02Temporarily\x0f sets the modem path to \x1dtemp_path\x0f.
    Not specifying a value for \x1dtemp_path\x0f will disable the modem.
    \x1fTip: Change the \x11modem_path\x11 option in the configuration to make this permanent.\x1f
\x02*** End of subcommand help ***\x0f"

def contactHelp : String :=
  "\x02*** CONTACT subcommand ***\x0f
The following commands are available:
\x02WHATSAPP\x0f \x1dnumber\x0f
    Contact someone new, with the phone number \x1dnumber\x0f, via WhatsApp.
\x02SMS\x0f \x1dnumber\x0f
    Contact someone new, with the phone number \x1dnumber\x0f, via SMS.
\x02*** End of subcommand help ***\x0f"

def whatsappHelp : String :=
  "\x02*** WHATSAPP subcommand ***\x0f
The following commands are available:
\x02SETUP\x0f
    Begin the WhatsApp registration process. This requires you to have your phone ready, in order to scan a QR code.
    \x1f\x02Warning:\x02 This command will \x02erase\x02 your existing WhatsApp credentials.\x1f
\x02LOGON\x0f
    Log on to WhatsApp Web using stored credentials.
    This command will usually not be required, but is helpful if the bridge appears stuck.
\x02CHATS\x0f
    List all WhatsApp chats you're currently part of.
\x02RECEIPTS\x0f \x0307(alias \x02ACKS\x02)\x0f
    Print delivery reports for recently sent messages.
\x02REBUILD\x0f
    Refresh group metadata for all WhatsApp groups you're currently in.
    This command will usually not be required, and is mainly useful for debugging.
\x02*** End of subcommand help ***\x0f"

def groupHelp : String :=
  "\x02*** GROUP subcommand ***\x0f
The following commands are available:
\x02BRIDGE\x0f \x1djid\x0f \x1dchan\x0f
    Bridges the WhatsApp groupchat with JID \x1djid\x0f to the IRC channel \x1dchan\x0f.
\x02UNBRIDGE\x0f \x1dchan\x0f
    Unbridges the IRC channel \x1dchan\x0f.
\x02*** End of subcommand help ***\x0f"

def inspHelp : String :=
  "\x02*** INSP subcommand ***\x0f
The following commands are available:
\x02RAW\x0f \x1draw IRC line\x0f
    Sends the \x1draw IRC line\x0f to the linked IRC server.
    \x1f\x02Warning:\x02 This command is very technical, and only intended for debugging. Misuse can cause the bridge to be disconnected!\x02
\x02UUQUERY\x0f \x1duuid\x0f
    Returns the nickname associated with UUID \x1duuid\x0f, if there is one.
\x02NICKQUERY\x0f \x1dnick\x0f
    Returns the UUID for the nickname \x1dnick\x0f, if we know it.
\x02*** End of subcommand help ***\x0f"

def adminHelp : String :=
  "\x02*** sms-irc help ***\x0f
The following commands are available. Use \x02HELP\x02 \x1dcommand\x0f to get more information on each subcommand.
\x02GHOST\x02 \x1dnickname subcommand\x0f
    Manages ghosts (i.e. IRC users that represent a message recipient).
    Here, \x1dnickname\x0f represents the nickname of the ghost you're trying to manage.
    \x1dFor example, \x11GHOST user REMOVE\x11 would remove the ghost named \x11user\x11.\x1d
\x02CONTACT\x0f \x1dsubcommand\x0f
    Allows establishing contact with new people.
\x02WHATSAPP\x0f \x1dsubcommand\x0f
    Manages WhatsApp registration, login and more.
\x02MODEM\x0f \x1dsubcommand\x0f
    Queries the modem state and provides other management commands.
\x02GROUP\x0f \x1dsubcommand\x0f
    Used to bridge and unbridge group chats to/from IRC channels.
    (Currently, only WhatsApp group chats are supported.)
\x02INSP\x0f \x1dsubcommand\x0f
    If sms-irc is using the InspIRCd server-to-server link, provides some debug commands.
\x02HELP\x0f \x1d[command]\x0f
    Shows this help.
    If a \x1dcommand\x0f is provided, shows help for that command.
\x02*** End of help ***\x0f"

variable [Crates]

/-- The lower-case form of a token is a word. -/
def isWord (token : Str) (word : String) : Bool :=
  toLowercase Crates.cased Crates.caseIgnorable token = word.toList

/-- `str::parse::<bool>`. -/
def parseBool (s : Str) : Option Bool :=
  if s = ("true" : Str) then some true
  else if s = ("false" : Str) then some false
  else none

/-- The commands for a ghost that ignore their arguments. -/
def ghostWord (cmd : Str) : Option GhostCommand :=
  if isWord cmd "presub" then some .presenceSubscribe
  else if isWord cmd "die" || isWord cmd "kill" || isWord cmd "remove" then some .remove
  else none

def GhostCommand.parse : List Str → Option GhostCommand
  | [] => none
  | cmd :: rest =>
      match rest with
      | [arg] =>
          if isWord cmd "rename" then some (.changeNick arg)
          else if isWord cmd "whatsapp" then (parseBool arg).map .setWhatsapp
          else ghostWord cmd
      | _ => ghostWord cmd

def ModemCommand.parse : List Str → Option ModemCommand
  | [] => none
  | cmd :: rest =>
      if isWord cmd "signal" || isWord cmd "csq" then some .getCsq
      else if isWord cmd "registration" || isWord cmd "reg" then some .getReg
      else if isWord cmd "restart" then some .reinit
      else if isWord cmd "path" then
        match rest with
        | [path] => some (.tempPath (some path))
        | _ => some (.tempPath none)
      else none

def ContactCommand.parse : List Str → Option ContactCommand
  | [cmd, num] =>
      if isWord cmd "whatsapp" then (Crates.parseAddress num).map .newWhatsapp
      else if isWord cmd "sms" then (Crates.parseAddress num).map .newSms
      else none
  | _ => none

def WhatsappCommand.parse : List Str → Option WhatsappCommand
  | [] => none
  | cmd :: _ =>
      if isWord cmd "setup" then some .setup
      else if isWord cmd "logon" then some .logon
      else if isWord cmd "chats" then some .chatList
      else if isWord cmd "rebuild" then some .updateAll
      else if isWord cmd "receipts" || isWord cmd "acks" then some .printAcks
      else none

def GroupCommand.parse : List Str → Option GroupCommand
  | [cmd, jid, chan] =>
      if isWord cmd "bridge" then
        match Crates.parseJid jid with
        | some j => if startsWith chan ['#'] then some (.bridgeWhatsapp j chan) else none
        | none => none
      else none
  | [cmd, chan] =>
      if isWord cmd "unbridge" then
        if startsWith chan ['#'] then some (.unbridge chan) else none
      else none
  | _ => none

/-- The arguments of `RAW` are sliced from the second one on, which panics when
there are none. -/
def InspCommand.parse : List Str → Except Failure (Option InspCommand)
  | [] => .ok none
  | cmd :: rest =>
      if isWord cmd "raw" then
        match rest with
        | [] => .error (.panic .inspRawArgs)
        | _ :: args => .ok (some (.raw (join (" " : Str) args)))
      else
        match rest with
        | [arg] =>
            if isWord cmd "uuquery" then .ok (some (.queryUuid arg))
            else if isWord cmd "nickquery" then .ok (some (.queryNickUuid arg))
            else .ok none
        | _ => .ok none

def AdminCommand.parse : List Str → Except Failure (Option AdminCommand)
  | [] => .ok none
  | cmd :: rest =>
      if isWord cmd "contact" then .ok ((ContactCommand.parse rest).map .contact)
      else if isWord cmd "whatsapp" then .ok ((WhatsappCommand.parse rest).map .whatsapp)
      else if isWord cmd "group" then .ok ((GroupCommand.parse rest).map .group)
      else if isWord cmd "modem" then .ok ((ModemCommand.parse rest).map .modem)
      else if isWord cmd "insp" then do
        let ic ← InspCommand.parse rest
        pure (ic.map .insp)
      else if isWord cmd "ghost" then
        match rest with
        | tgt :: gc :: args => .ok ((GhostCommand.parse (gc :: args)).map (.ghost tgt))
        | _ => .ok none
      else if isWord cmd "help" then .ok (some (.help rest.head?))
      else .ok none

def helpPage : Option Str → Option String
  | none => some adminHelp
  | some query =>
      if isWord query "ghost" then some ghostHelp
      else if isWord query "modem" then some modemHelp
      else if isWord query "contact" then some contactHelp
      else if isWord query "whatsapp" then some whatsappHelp
      else if isWord query "group" then some groupHelp
      else if isWord query "insp" then some inspHelp
      else none

end SmsIrc.Admin
