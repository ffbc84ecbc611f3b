import SmsIrc.External
import SmsIrc.Program

/-!
`src/util.rs`: results, addresses and the names that the bridge derives from
other names.
-/

namespace SmsIrc.Util

open SmsIrc.External SmsIrc.HashMaps SmsIrc.Program SmsIrc.Text

/-- The places where the source unwraps, expects or indexes, and a recursion that
is too deep. -/
inductive PanicSite where
  | forwardCmdContact
  | forwardCmdUser
  | setWaStateContact
  | processGroupsContact
  | processMessagesContact
  | serverSuffix
  | messageText
  | concatenatedPdu
  | concatenatedHeader
  | inspRawArgs
  | jidAddress
  | mentionAddress
  | autocreatePrefix
  | groupJid
  | ourOwnSink
  | disconnectedSink
  | stackOverflow
  | wrapperEnded
  | connectionEnded
  | registrationField
deriving DecidableEq

/-- What ends a handler early: an error of the database, the error of
`get_groups_for_recipient`, another `Err` with its text, or a panic. -/
inductive Failure where
  | db
  | missingRecipient
  | error (msg : Str)
  | panic (site : PanicSite)
deriving DecidableEq

/-- A panicking `unwrap`. -/
def unwrap {σ α : Type} (site : PanicSite) : Option α → Prog Failure σ α
  | some a => pure a
  | none => throw (.panic site)

/-- `match p { Ok(x) => .., Err(e) => .. }`: an `Err` is a value, a panic is not. -/
def attempt {σ α : Type} (p : Prog Failure σ α) : Prog Failure σ (Except Failure α) :=
  ExceptT.mk fun s =>
    match exec p s with
    | (.error (.panic site), t) => (.error (.panic site), t)
    | (r, t) => (.ok r, t)

section Wp

variable {σ α : Type} {E : Failure → σ → Prop} {s : σ}

@[simp] theorem wp_unwrap_some {Q : α → σ → Prop} (site : PanicSite) (a : α) :
    wp (unwrap site (some a) : Prog Failure σ α) Q E s ↔ Q a s := Iff.rfl

@[simp] theorem wp_unwrap_none {Q : α → σ → Prop} (site : PanicSite) :
    wp (unwrap site none : Prog Failure σ α) Q E s ↔ E (.panic site) s := Iff.rfl

theorem exec_attempt (p : Prog Failure σ α) (s : σ) :
    exec (attempt p) s =
      ((match (exec p s).1 with
        | .error (.panic site) => .error (.panic site)
        | r => .ok r), (exec p s).2) := by
  have hexec : exec (attempt p) s = attempt p s := rfl
  rw [hexec, attempt, ExceptT.mk]
  rcases exec p s with ⟨e | a, t⟩
  · cases e <;> rfl
  · rfl

theorem wp_attempt {p : Prog Failure σ α} {Q : Except Failure α → σ → Prop}
    (h : wp p (fun a t => Q (.ok a) t)
      (fun e t => (∀ site, e ≠ .panic site) → Q (.error e) t) s)
    (hE : wp p (fun _ _ => True) (fun e t => ∀ site, e = .panic site → E (.panic site) t) s) :
    wp (attempt p) Q E s := by
  unfold wp at h hE ⊢
  rw [exec_attempt]
  rcases hp : exec p s with ⟨e | a, t⟩
  · rw [hp] at h hE
    cases e with
    | panic site => exact hE site rfl
    | db => exact h (by simp)
    | missingRecipient => exact h (by simp)
    | error msg => exact h (by simp)
  · rw [hp] at h
    exact h

/-- A relation that a computation keeps is kept however its `Err` is handled. -/
theorem Steps.attempt {R : σ → σ → Prop} {P : Failure → Prop} {p : Prog Failure σ α}
    (h : Steps R P p) : Steps R P (attempt p) := by
  intro s
  apply wp_attempt (wp_mono (h s) (fun _ _ ht => ht) fun _ _ he _ => he.1)
  apply wp_mono (h s) (fun _ _ _ => trivial)
  rintro e t ⟨ht, he⟩ site rfl
  exact ⟨ht, he⟩

theorem moves_unwrap {R : σ → σ → Prop} [IsPreorder σ R] (site : PanicSite) (o : Option α) :
    Moves R (unwrap site o : Prog Failure σ α) := by
  cases o with
  | some a => exact steps_pure a
  | none => exact steps_throw trivial

theorem Preserves.attempt {I : σ → Prop} {P : Failure → Prop} {p : Prog Failure σ α}
    (h : Preserves I P p) : Preserves I P (attempt p) := by
  intro s hs
  apply wp_attempt (wp_mono (h s hs) (fun _ _ ht => ht) fun _ _ he _ => he.1)
  apply wp_mono (h s hs) (fun _ _ _ => trivial)
  rintro e t ⟨ht, he⟩ site rfl
  exact ⟨ht, he⟩

end Wp

variable [Crates]

def jidToAddress {σ : Type} (jid : Jid) : Prog Failure σ (Option PduAddress) :=
  match Crates.phonenumber jid with
  | some pn => do
      let ret ← unwrap .jidAddress (Crates.parseAddress pn)
      pure (if ret.number.length > 0 then some ret else none)
  | none => pure none

def addressToJid (addr : PduAddress) : Except Str Jid :=
  Crates.fromPhonenumber (Crates.displayAddress addr)

def normalizeAddress (addr : PduAddress) : Str :=
  hexByte (Crates.toaToU8 addr.typeAddr) ++ Crates.hexDisplay addr.number

def unNormalizeAddress (addr : Str) : Option PduAddress :=
  if byteLen addr < 3 then none
  else
    match Crates.hexDecode addr with
    | some (toa :: data) => (Crates.toaTryFrom toa).map fun toa => ⟨toa, data⟩
    | _ => none

/-- The addresses that survive being written to the database and read back. -/
def ReadsBack (addr : PduAddress) : Prop :=
  unNormalizeAddress (normalizeAddress addr) = some addr

def ircChanChar (c : Char) : Str :=
  if c = '_' then ['_']
  else if c = '-' then ['-']
  else if c = '#' then ['#']
  else if c = ' ' then ['-']
  else if isAsciiAlphanumeric c then [c.toLower]
  else []

def stringToIrcChan (inp : Str) : Str := (Crates.unidecode inp).flatMap ircChanChar

def ircNickChar (c : Char) : Char :=
  if c = '+' then 'I'
  else if c ∈ ['_', '-', '\\', '[', ']', '\x7b', '\x7d', '^', '\x60', '|'] then c
  else if isAsciiAlphanumeric c then c
  else '_'

def stringToIrcNick (inp : Str) : Str :=
  let ret := (Crates.unidecode inp).map ircNickChar
  match ret.head? with
  | some c => if c.isAlpha then ret else 'S' :: ret
  | none => ['S']

def makeNickForAddress (addr : PduAddress) : Str :=
  stringToIrcNick (Crates.displayAddress addr)

end SmsIrc.Util
