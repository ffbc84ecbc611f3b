import SmsIrc.Comm

/-!
`src/logging.rs`: log records, as far as they go to the control bot.
-/

namespace SmsIrc.Logging

open SmsIrc.Comm SmsIrc.External SmsIrc.Text

inductive Level where
  | error
  | warn
  | info
  | debug
  | trace
deriving DecidableEq

/-- More verbose levels are greater. -/
def Level.rank : Level → Nat
  | error => 1
  | warn => 2
  | info => 3
  | debug => 4
  | trace => 5

/-- The levels up to one are on; they may all be off. -/
def enabled (most : Option Level) (level : Level) : Bool :=
  match most with
  | some most => level.rank ≤ most.rank
  | none => false

/-- `Logger::register`: what `log::max_level` is afterwards. -/
def maxLevel : Option Level → Option Level → Option Level
  | none, sll => sll
  | cll, none => cll
  | some cll, some sll => some (if sll.rank ≤ cll.rank then cll else sll)

def Level.colour : Level → Str
  | error => ("04" : Str)
  | warn => ("07" : Str)
  | info => ("09" : Str)
  | debug => ("10" : Str)
  | trace => ("11" : Str)

def Level.name : Level → Str
  | error => ("ERROR" : Str)
  | warn => ("WARN" : Str)
  | info => ("INFO" : Str)
  | debug => ("DEBUG" : Str)
  | trace => ("TRACE" : Str)

/-- The line for the control channel. -/
def logLine (target : Str) (level : Level) (args : Str) : Str :=
  ("[\x0302" : Str) ++ target ++ ("\x0f] \x02\x03" : Str) ++ level.colour ++ level.name ++
    ("\x0f -- " : Str) ++ args

variable [Crates]

/-- `Logger::log`, for the records of the program itself; the channel takes those
up to a level, or none. -/
def log (chanLoglevel : Option Level) (target : Str) (level : Level) (args : Str) :
    List ControlBotCommand :=
  if enabled chanLoglevel level then [.log (logLine target level args)] else []

end SmsIrc.Logging
