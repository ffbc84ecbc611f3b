import SmsIrc.Composition
import SmsIrc.FactoryRuns

/-!
What a contact with a connection of its own leaves alone: a relation that is kept by its
primitive steps is kept by its handlers.
-/

namespace SmsIrc.ContactFrame

open SmsIrc.Comm SmsIrc.Composition SmsIrc.Contact SmsIrc.Database SmsIrc.External SmsIrc.Models
open SmsIrc.Program SmsIrc.SenderCommon SmsIrc.SenderRuns SmsIrc.Text SmsIrc.Util

/-- The calls that tell nobody where the contact is. -/
def isPlain : ClientCall → Bool
  | .join _ => false
  | .part _ => false
  | .away _ => false
  | _ => true

section Frame

variable [Crates]

/-- A step of which neither the rest of the program nor the network learns. -/
structure Within (s t : ContactManager) : Prop where
  addr : t.addr = s.addr
  admin : t.admin = s.admin
  store : t.store = s.store
  sent : t.sent = s.sent
  adminIsOnline : t.adminIsOnline = s.adminIsOnline
  connected : t.connected = s.connected
  presence : t.presence = s.presence
  channels : t.channels = s.channels
  waTx : t.waTx = s.waTx
  mTx : t.mTx = s.mTx
  rx : t.rx = s.rx

theorem store_bind {α β : Type} (p : StoreM α) (k : α → StoreM β) :
    (store (p >>= k) : ContactM β) = store p >>= fun a => store (k a) :=
  @zoom_bind _ _ _ _ _ HasStore.getStore HasStore.setStore (fun _ _ => rfl) (fun _ _ _ => rfl) p k

/-- A relation that is kept by such steps, by the uses of the database, and by what is said
to the others. -/
structure Frame (R : ContactManager → ContactManager → Prop) : Prop where
  within : ∀ s t, Within s t → R s t
  call : ∀ k, isPlain k = true → Moves R (call k)
  sighted : ∀ online c, R c { c with adminIsOnline := online }
  query : ∀ {α : Type} (f : Store → α), Moves R (store (query f) : ContactM α)
  nick : ∀ a n src, Moves R (store (updateRecipientNick a n src) : ContactM Unit)
  mode : ∀ a wa, Moves R (store (updateRecipientWa a wa) : ContactM Unit)
  deleteMessage : ∀ id, Moves R (store (deleteMessage id) : ContactM Unit)
  direct : ∀ a text c, R c { c with waTx := c.waTx ++ [.sendDirectMessage a text] }
  sms : ∀ a text c, R c { c with mTx := c.mTx ++ [.sendMessage a text] }

theorem moves_drive {R : ContactManager → ContactManager → Prop} [IsPreorder ContactManager R]
    (r : Except Str Unit) : Moves R (drive r) := by
  cases r with
  | ok _ => exact steps_pure _
  | error e => exact steps_throw trivial

namespace Frame

variable {R : ContactManager → ContactManager → Prop} [IsPreorder ContactManager R] (h : Frame R)
include h

theorem getGroupById (g : Nat) : Moves R (store (getGroupById g) : ContactM Group) := by
  rw [Database.getGroupById, store_bind]
  refine Steps.bind (h.query _) fun grp => ?_
  cases grp with
  | some grp => exact steps_pure _
  | none => exact steps_throw trivial

theorem senderSteps : SenderSteps ContactManager R fun _ => True where
  record _ := steps_pure _
  getGroupById g := h.getGroupById g
  privateTarget := Steps.bind steps_get fun _ => steps_pure _
  sendIrcMessage _ _ _ := h.call _ rfl
  ensureJoined _ := steps_pure _
  getAllConcatenated _ _ := h.query _
  deleteMessage id := h.deleteMessage id
  reportError _ _ := Steps.bind steps_get fun _ => h.call _ rfl
  utcNow := Steps.bind steps_get fun _ => steps_pure _
  error _ := trivial
  messageText := trivial
  concatenatedPdu := trivial
  concatenatedHeader := trivial

theorem switchMode (wa : Bool) : Moves R (switchMode wa) := by
  refine steps_get_bind fun c => ?_
  rw [wp_when]
  split
  · rw [wp_bind, wp_set]
    apply Steps.after (Steps.bind (h.mode _ _) fun _ => h.call _ rfl)
    exact h.within _ _ ⟨rfl, rfl, rfl, rfl, rfl, rfl, rfl, rfl, rfl, rfl, rfl⟩
  · exact refl c

theorem processMessage (msg : Message) : Moves R (Contact.processMessage msg) := by
  unfold Contact.processMessage
  split
  · split
    · exact steps_throw trivial
    · exact Steps.bind (h.switchMode _) fun _ => h.senderSteps.processMsgPdu _ _ _
  · exact Steps.bind (h.switchMode _) fun _ => h.senderSteps.processMsgPlain _ _

theorem processMessages : Moves R Contact.processMessages := by
  refine Steps.bind steps_get fun c => Steps.when ?_
  exact Steps.bind (h.query _) fun msgs => Steps.forM fun msg _ => h.processMessage msg

theorem initializeWatch : Moves R initializeWatch := Steps.bind steps_get fun _ => h.call _ rfl

theorem identify : Moves R identify := by
  refine Steps.bind steps_get fun c => Steps.when (Steps.bind ?_ fun _ => ?_)
  · cases hpw : c.webircPassword with
    | some pw =>
        simp only [sendWebirc, hpw]
        exact h.call _ rfl
    | none =>
        simp only [sendWebirc, hpw]
        exact steps_pure _
  · refine Steps.bind (h.call _ rfl) fun _ => steps_modify fun c => h.within _ _ ?_
    exact ⟨rfl, rfl, rfl, rfl, rfl, rfl, rfl, rfl, rfl, rfl, rfl⟩

theorem handlePrivmsg (source target mesg : Str) : Moves R (handlePrivmsg source target mesg) := by
  refine Steps.bind steps_get fun c => ?_
  split
  · exact h.call _ rfl
  · split
    · split
      · exact steps_modify fun t => h.direct _ _ t
      · exact steps_modify fun t => h.sms _ _ t
    · exact steps_pure _

theorem handleRaw (cmd : Str) (args : List Str) : Moves R (handleRaw cmd args) := by
  refine steps_get_bind fun c => ?_
  split
  · exact (refl c : R c c)
  · split
    · rw [wp_when]
      split
      · rw [wp_bind, wp_set]
        exact h.processMessages.after (h.sighted true c)
      · exact (refl c : R c c)
    · split
      · exact h.sighted false c
      · exact (refl c : R c c)

theorem handleNick (source : Option Str) (nick : Str) :
    Moves R (handleIrcMessage ⟨source, .nick nick⟩) := by
  cases source with
  | none => exact steps_pure _
  | some source =>
      refine steps_modify fun c => ?_
      split
      · exact h.within _ _ ⟨rfl, rfl, rfl, rfl, rfl, rfl, rfl, rfl, rfl, rfl, rfl⟩
      · exact (refl c : R c c)

theorem handleIrcMessage {m : ContactMessage} (hm : m.command ≠ .endOfMotd) :
    Moves R (handleIrcMessage m) := by
  obtain ⟨source, command⟩ := m
  cases command with
  | endOfMotd => exact absurd rfl hm
  | nick nick => exact h.handleNick source nick
  | privmsg target mesg =>
      cases source with
      | none => exact steps_pure _
      | some source => exact h.handlePrivmsg _ _ _
  | raw cmd args => exact h.handleRaw cmd args
  | error msg => exact steps_throw trivial
  | other => exact steps_pure _

theorem handleIntRx {cmd : ContactManagerCommand} (hgroups : cmd ≠ .processGroups)
    (haway : ∀ text, cmd ≠ .updateAway text) : Moves R (handleIntRx cmd) := by
  cases cmd with
  | processMessages => exact h.processMessages
  | processGroups => exact absurd rfl hgroups
  | updateAway text => exact absurd rfl (haway text)
  | changeNick nick src =>
      exact Steps.bind steps_get fun c => Steps.bind (h.nick _ _ _) fun _ => h.call _ rfl
  | setWhatsapp wam =>
      refine Steps.bind (steps_modify fun c => h.within _ _ ?_) fun _ => ?_
      · exact ⟨rfl, rfl, rfl, rfl, rfl, rfl, rfl, rfl, rfl, rfl, rfl⟩
      · exact Steps.bind steps_get fun c => h.mode _ _

end Frame

/-- A step that the rest of the program cannot see. -/
structure Inside (s t : ContactManager) : Prop where
  store : t.store = s.store
  waTx : t.waTx = s.waTx
  mTx : t.mTx = s.mTx

/-- A relation that is kept by such steps, and by those that the others are concerned with. -/
structure Coarse (R : ContactManager → ContactManager → Prop) : Prop where
  inside : ∀ s t, Inside s t → R s t
  query : ∀ {α : Type} (f : Store → α), Moves R (store (query f) : ContactM α)
  nick : ∀ a n src, Moves R (store (updateRecipientNick a n src) : ContactM Unit)
  mode : ∀ a wa, Moves R (store (updateRecipientWa a wa) : ContactM Unit)
  deleteMessage : ∀ id, Moves R (store (deleteMessage id) : ContactM Unit)
  direct : ∀ a text c, R c { c with waTx := c.waTx ++ [.sendDirectMessage a text] }
  sms : ∀ a text c, R c { c with mTx := c.mTx ++ [.sendMessage a text] }

namespace Coarse

variable {R : ContactManager → ContactManager → Prop} [IsPreorder ContactManager R] (h : Coarse R)
include h

omit [IsPreorder ContactManager R] in
theorem call (k : ClientCall) : Moves R (call k) := by
  refine steps_get_bind fun c => ?_
  rw [wp_bind, wp_set]
  cases c.refuses c.calls with
  | some e => exact ⟨h.inside _ _ ⟨rfl, rfl, rfl⟩, trivial⟩
  | none => exact h.inside _ _ ⟨rfl, rfl, rfl⟩

omit [IsPreorder ContactManager R] in
theorem frame : Frame R where
  within s t hst := h.inside s t ⟨hst.store, hst.waTx, hst.mTx⟩
  call k _ := h.call k
  sighted _ _ := h.inside _ _ ⟨rfl, rfl, rfl⟩
  query := h.query
  nick := h.nick
  mode := h.mode
  deleteMessage := h.deleteMessage
  direct := h.direct
  sms := h.sms

theorem getGroupsForRecipient (a : PduAddress) :
    Moves R (store (getGroupsForRecipient a) : ContactM (List Group)) := by
  rw [Database.getGroupsForRecipient, store_bind]
  refine Steps.bind (h.query _) fun row => ?_
  cases row with
  | some r => exact h.query _
  | none => exact steps_throw trivial

theorem processGroups : Moves R Contact.processGroups := by
  refine Steps.bind steps_get fun c => Steps.when ?_
  refine Steps.bind (h.getGroupsForRecipient _) fun grps => ?_
  refine Steps.bind (Steps.forM fun ch _ => h.call _) fun _ => ?_
  refine Steps.bind (steps_modify fun c => h.inside _ _ ⟨rfl, rfl, rfl⟩) fun _ => ?_
  exact Steps.forM fun ch _ => Steps.when (h.call _)

theorem updateAway : Moves R Contact.updateAway :=
  Steps.bind steps_get fun _ => Steps.when (h.call _)

theorem handleIrcMessage (m : ContactMessage) : Moves R (handleIrcMessage m) := by
  obtain ⟨source, command⟩ := m
  by_cases hm : command = .endOfMotd
  · subst hm
    refine Steps.bind (steps_modify fun c => h.inside _ _ ⟨rfl, rfl, rfl⟩) fun _ => ?_
    refine Steps.bind h.frame.processMessages fun _ => ?_
    refine Steps.bind h.frame.initializeWatch fun _ => ?_
    exact Steps.bind h.updateAway fun _ => h.processGroups
  · exact h.frame.handleIrcMessage hm

theorem handleIntRx (cmd : ContactManagerCommand) : Moves R (handleIntRx cmd) := by
  by_cases hgroups : cmd = .processGroups
  · subst hgroups
    exact h.processGroups
  · by_cases haway : ∃ text, cmd = .updateAway text
    · obtain ⟨text, rfl⟩ := haway
      refine Steps.bind (steps_modify fun c => h.inside _ _ ⟨rfl, rfl, rfl⟩) fun _ => ?_
      exact h.updateAway
    · exact h.frame.handleIntRx hgroups fun text heq => haway ⟨text, heq⟩

theorem poll (i : Activity) : Moves R (Contact.poll i) := by
  refine Steps.bind h.frame.identify fun _ => Steps.bind (moves_drive _) fun _ => ?_
  refine Steps.bind (Steps.forM fun item _ => ?_) fun _ => Steps.bind ?_ fun _ => moves_drive _
  · cases item with
    | message m => exact h.handleIrcMessage m
    | stopped => exact steps_throw trivial
    | failed e => exact steps_throw trivial
  · refine steps_get_bind fun c => ?_
    rw [wp_bind, wp_set]
    apply (Steps.forM fun cmd _ => h.handleIntRx cmd).after
    exact h.inside _ _ ⟨rfl, rfl, rfl⟩

end Coarse

end Frame

end SmsIrc.ContactFrame
