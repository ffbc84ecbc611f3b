import SmsIrc.LinkGhosts
import SmsIrc.LinkWalk

/-!
What the handlers of a link leave alone: a relation that is kept by the steps in which
the rest of the program has a part is kept by the handlers that are made of them.
-/

namespace SmsIrc.LinkFrame

open SmsIrc.Comm SmsIrc.Composition SmsIrc.ContactCommon SmsIrc.ControlCommands
open SmsIrc.Database SmsIrc.External SmsIrc.HashMaps SmsIrc.InspUsers SmsIrc.Link
open SmsIrc.LinkGhosts SmsIrc.LinkRuns SmsIrc.LinkWalk SmsIrc.Models SmsIrc.Program
open SmsIrc.SenderCommon SmsIrc.SenderRuns SmsIrc.Text SmsIrc.Util

section Frame

variable [Crates]

/-- A step that the rest of the program cannot see. -/
structure Inside (s t : InspLink) : Prop where
  store : t.store = s.store
  waTx : t.waTx = s.waTx
  mTx : t.mTx = s.mTx
  cfTx : t.cfTx = s.cfTx
  cbTx : t.cbTx = s.cbTx

/-- Nor does the other side see it. -/
structure Within (s t : InspLink) : Prop extends Inside s t where
  cfg : t.cfg = s.cfg
  outbox : t.outbox = s.outbox
  calls : t.calls = s.calls

theorem within_refl (l : InspLink) : Within l l :=
  ⟨⟨rfl, rfl, rfl, rfl, rfl⟩, rfl, rfl, rfl⟩

/-- Such steps have the property, and so do the lines that are no messages, and what the
ghosts need of the others. -/
structure Pieces (W : ∀ {α : Type}, LinkM α → Prop) : Prop extends Composes W where
  within : ∀ f : InspLink → InspLink, (∀ l, Within l (f l)) → W (modify f : LinkM PUnit)
  push : ∀ u cmd args suffix, cmd ≠ "PRIVMSG" → W (push u cmd args suffix)
  introduce : ∀ u, W (makeUidLine u >>= send)
  query : ∀ {α : Type} (f : Store → α), W (store (query f) : LinkM α)
  nick : ∀ a n src, W (store (updateRecipientNick a n src) : LinkM Unit)
  mode : ∀ a wa, W (store (updateRecipientWa a wa) : LinkM Unit)
  dropRecipient : ∀ a, W (store (deleteRecipientWithAddr a) : LinkM Unit)
  askModem : ∀ a, W (mSend (.makeContact a))
  askWhatsapp : ∀ a, W (waSend (.makeContact a))
  subscribe : ∀ a, W (waSend (.subscribePresence a))
  respond : ∀ resp, W (cbSend (.commandResponse resp))

theorem store_bind {α β : Type} (p : StoreM α) (k : α → StoreM β) :
    (store (p >>= k) : LinkM β) = store p >>= fun a => store (k a) :=
  @zoom_bind _ _ _ _ _ HasStore.getStore HasStore.setStore (fun _ _ => rfl) (fun _ _ _ => rfl) p k

namespace Pieces

variable {W : ∀ {α : Type}, LinkM α → Prop} (h : Pieces W)
include h

theorem sendSidLine (cmd : String) (args : List Str) (suffix : Option Str)
    (hcmd : cmd ≠ "PRIVMSG") : W (sendSidLine cmd args suffix) :=
  h.getBind fun _ => h.push _ _ _ _ hcmd

theorem insertUser (u : Str) (user : InspUser) : W (insertUser u user) :=
  h.within _ fun _ => ⟨⟨rfl, rfl, rfl, rfl, rfl⟩, rfl, rfl, rfl⟩

theorem updateUser (u : Str) (f : InspUser → InspUser) : W (updateUser u f) := by
  apply h.within
  intro l
  split
  · exact ⟨⟨rfl, rfl, rfl, rfl, rfl⟩, rfl, rfl, rfl⟩
  · exact within_refl l

theorem getUuid : W getUuid := by
  have hmodify : Link.getUuid = MonadState.get >>= fun l =>
      if l.nextUserId > 99999 then throw (.error ("UUIDs exhausted" : Str))
      else (modify fun l => { l with
          nextUserId := l.nextUserId + 1
          issued := l.issued ++ [uuidOf l.cfg.sid l.nextUserId] } : LinkM PUnit) >>= fun _ =>
        pure (uuidOf l.cfg.sid l.nextUserId) := by
    apply get_bind_congr
    intro l
    split <;> rfl
  rw [hmodify]
  refine h.getBind fun l => ?_
  split
  · exact h.throw _
  · refine h.bind (h.within _ fun _ => ?_) fun _ => h.pure _
    exact ⟨⟨rfl, rfl, rfl, rfl, rfl⟩, rfl, rfl, rfl⟩

theorem newUser (user : InspUser) : W (newUser user) := by
  refine h.bind h.getUuid fun u => h.bind (h.insertUser _ _) fun _ => ?_
  have hline := h.bind (h.introduce u) fun _ => h.pure u
  rwa [bind_assoc] at hline

theorem getGroupsForRecipient (a : PduAddress) :
    W (store (getGroupsForRecipient a) : LinkM (List Group)) := by
  rw [Database.getGroupsForRecipient, getRecipientByAddrOpt, store_bind]
  refine h.bind (h.query _) fun row => ?_
  cases row with
  | none => exact h.throw _
  | some r => exact h.query _

theorem processGroupsForRecipient (a : PduAddress) : W (processGroupsForRecipient a) := by
  refine h.getBind fun l => h.bind (composes_unwrap h.toComposes _ _) fun ct => ?_
  refine h.bind (getGroupsForRecipient h a) fun grps => ?_
  refine h.bind (h.forM fun grp _ => h.bind (h.push _ _ _ _ (by decide)) fun _ => ?_) fun _ => ?_
  · exact h.within _ fun _ => ⟨⟨rfl, rfl, rfl, rfl, rfl⟩, rfl, rfl, rfl⟩
  refine h.bind (h.when (h.push _ _ _ _ (by decide))) fun _ => ?_
  refine h.bind (h.forM fun ch _ => h.when (h.push _ _ _ _ (by decide))) fun _ => ?_
  exact h.within _ fun _ => ⟨⟨rfl, rfl, rfl, rfl, rfl⟩, rfl, rfl, rfl⟩

theorem nickFor (recip : Recipient) (a : PduAddress) : W (nickFor recip a) := by
  refine h.getBind fun l => ?_
  cases checkNickForCollisions l recip.nick with
  | some n => exact h.bind (h.nick _ _ _) fun _ => h.pure _
  | none => exact h.pure _

theorem setupContactFor (recip : Recipient) (a : PduAddress) : W (setupContactFor recip a) := by
  refine h.bind (h.nickFor recip a) fun nick => h.getBind fun l => ?_
  refine h.bind (h.newUser _) fun u => ?_
  refine h.bind (h.within _ fun _ => ⟨⟨rfl, rfl, rfl, rfl, rfl⟩, rfl, rfl, rfl⟩) fun _ => ?_
  exact h.when (h.processGroupsForRecipient a)

theorem removeUser (u : Str) (recreate : Bool)
    (hsetup : recreate = true → ∀ a, W (setupContact a : LinkM Unit)) :
    W (removeUser u recreate) := by
  refine h.getSet (h.within _ fun _ => ⟨⟨rfl, rfl, rfl, rfl, rfl⟩, rfl, rfl, rfl⟩) fun l => ?_
  cases l.contactsUuidPdua.lookup u with
  | none => exact h.pure _
  | some a =>
      cases recreate with
      | true => exact h.when (hsetup rfl a)
      | false => exact h.pure _

theorem removeContactFor (a : PduAddress) : W (removeContactFor a) := by
  refine h.getBind fun l => h.bind ?_ fun _ => ?_
  · cases l.contacts.lookup a with
    | some ct => exact h.bind (h.push _ _ _ _ (by decide)) fun _ => h.removeUser _ _ (by simp)
    | none => exact h.pure _
  · exact h.within _ fun _ => ⟨⟨rfl, rfl, rfl, rfl, rfl⟩, rfl, rfl, rfl⟩

theorem dropContact (a : PduAddress) : W (dropContact a : LinkM Unit) :=
  h.bind (h.dropRecipient a) fun _ => h.removeContactFor a

theorem setWaState (a : PduAddress) (wa : Bool) : W (setWaState a wa) := by
  refine h.getBind fun l => h.bind (composes_unwrap h.toComposes _ _) fun ct => ?_
  refine h.bind (h.within _ fun _ => ⟨⟨rfl, rfl, rfl, rfl, rfl⟩, rfl, rfl, rfl⟩) fun _ => ?_
  refine h.bind (h.mode a wa) fun _ => h.bind (h.push _ _ _ _ (by decide)) fun _ => ?_
  exact h.updateUser _ _

theorem changeNick (a : PduAddress) (ct : InspContact) (st : Str) (src : Int) :
    W (changeNick a ct st src) := by
  refine h.getBind fun l => h.bind (composes_unwrap h.toComposes _ _) fun u => ?_
  split
  · exact h.pure _
  · refine h.bind (h.insertUser _ _) fun _ => ?_
    exact h.bind (h.push _ _ _ _ (by decide)) fun _ => h.nick _ _ _

theorem forwardCmd (a : PduAddress) (cmd : ContactManagerCommand) : W (forwardCmd a cmd) := by
  refine h.getBind fun l => ?_
  split
  · cases cmd with
    | processMessages => exact h.pure _
    | processGroups => exact h.pure _
    | updateAway text =>
        refine h.bind (composes_unwrap h.toComposes _ _) fun ct => ?_
        exact h.push _ _ _ _ (by decide)
    | changeNick st src =>
        exact h.bind (composes_unwrap h.toComposes _ _) fun ct => h.changeNick _ _ _ _
    | setWhatsapp wam =>
        refine h.bind (composes_unwrap h.toComposes _ _) fun ct => ?_
        refine h.bind (h.within _ fun _ => ?_) fun _ => h.setWaState a wam
        exact ⟨⟨rfl, rfl, rfl, rfl, rfl⟩, rfl, rfl, rfl⟩
  · exact h.pure _

theorem getGroupById (g : Nat) : W (store (getGroupById g) : LinkM Group) := by
  rw [Database.getGroupById, store_bind]
  refine h.bind (h.query _) fun grp => ?_
  cases grp with
  | some grp => exact h.pure _
  | none => exact h.throw _

theorem ensureJoined (ch : Str) : W (Sender.ensureJoined ch : LinkM Unit) := by
  refine h.getBind fun l => ?_
  split
  · cases adminUuid l with
    | some admu => exact h.sendSidLine _ _ _ (by decide)
    | none => exact h.pure _
  · exact h.pure _

theorem connect : W connect := by
  refine h.bind ?_ fun _ => h.within _ fun _ => ⟨⟨rfl, rfl, rfl, rfl, rfl⟩, rfl, rfl, rfl⟩
  refine h.bind (h.sendSidLine _ _ _ (by decide)) fun _ => ?_
  refine h.bind (h.forM fun capab _ => h.sendSidLine _ _ _ (by decide)) fun _ => ?_
  refine h.bind (h.sendSidLine _ _ _ (by decide)) fun _ => ?_
  exact h.getBind fun l => h.push _ _ _ _ (by decide)

theorem doBurst : W doBurst := by
  refine h.getBind fun l => h.bind (h.sendSidLine _ _ _ (by decide)) fun _ => ?_
  refine h.bind (h.insertUser _ _) fun _ => ?_
  have hline := h.bind (h.introduce l.controlUuid) fun _ =>
    h.sendSidLine "ENDBURST" [] none (by decide)
  rwa [bind_assoc] at hline

theorem handleServer (args : List Str) (suffix : Option Str) : W (handleServer args suffix) := by
  refine h.getBind fun l => ?_
  split
  · split
    · exact h.throw _
    · split
      · exact h.throw _
      · refine h.bind (h.getBind fun l => h.when ?_) fun _ => ?_
        · exact h.bind (composes_unwrap h.toComposes _ _) fun _ => h.pure _
        refine h.bind (h.within _ fun _ => ⟨⟨rfl, rfl, rfl, rfl, rfl⟩, rfl, rfl, rfl⟩) fun _ => ?_
        refine h.bind h.doBurst fun _ => h.within _ fun _ => ?_
        exact ⟨⟨rfl, rfl, rfl, rfl, rfl⟩, rfl, rfl, rfl⟩
  · exact h.throw _

theorem handleEndburst (source : Str) (hsetup : ∀ recip, W (setupRecipient recip : LinkM Unit))
    (hgroups : W processGroups) (hmessages : W processMessages) : W (handleEndburst source) := by
  refine h.getBind fun l => h.when (h.bind ?_ fun _ => ?_)
  · exact h.bind (h.query _) fun recips => h.forM fun recip _ => hsetup recip
  · refine h.bind (h.within _ fun _ => ⟨⟨rfl, rfl, rfl, rfl, rfl⟩, rfl, rfl, rfl⟩) fun _ => ?_
    refine h.getBind fun l => h.bind (h.push _ _ _ _ (by decide)) fun _ => ?_
    exact h.bind hgroups fun _ => hmessages

theorem walk (hpdu : ∀ u msg pdu, W (processMsgPdu u msg pdu : LinkM Unit))
    (hplain : ∀ u msg, W (processMsgPlain u msg : LinkM Unit)) : Walk W where
  toComposes := h.toComposes
  push := h.push
  query := h.query
  insertUser := h.insertUser
  updateUser := h.updateUser
  setupFor := h.setupContactFor
  regroup := h.processGroupsForRecipient
  noChannels := h.within _ fun _ => ⟨⟨rfl, rfl, rfl, rfl, rfl⟩, rfl, rfl, rfl⟩
  topic _ _ := h.within _ fun _ => ⟨⟨rfl, rfl, rfl, rfl, rfl⟩, rfl, rfl, rfl⟩
  removeUser u recreate hsetup := h.removeUser u recreate fun _ => hsetup
  drop := h.dropContact
  mode := h.setWaState
  forward := h.forwardCmd
  pdu := hpdu
  plain := hplain
  askModem := h.askModem
  askWhatsapp := h.askWhatsapp
  subscribe := h.subscribe
  respond := h.respond
  squit _ := h.within _ fun _ => ⟨⟨rfl, rfl, rfl, rfl, rfl⟩, rfl, rfl, rfl⟩
  connect := h.connect
  server := h.handleServer
  endburst := h.handleEndburst

end Pieces

/-- A relation that is kept by what the rest of the program cannot see, and by what the
ghosts need of the others. -/
structure Frame (R : InspLink → InspLink → Prop) : Prop where
  inside : ∀ s t, Inside s t → R s t
  query : ∀ {α : Type} (f : Store → α), Moves R (store (query f) : LinkM α)
  nick : ∀ a n src, Moves R (store (updateRecipientNick a n src) : LinkM Unit)
  mode : ∀ a wa, Moves R (store (updateRecipientWa a wa) : LinkM Unit)
  dropRecipient : ∀ a, Moves R (store (deleteRecipientWithAddr a) : LinkM Unit)
  deleteMessage : ∀ id, Moves R (store (deleteMessage id) : LinkM Unit)
  askModem : ∀ a, Moves R (mSend (.makeContact a))
  askWhatsapp : ∀ a, Moves R (waSend (.makeContact a))
  subscribe : ∀ a, Moves R (waSend (.subscribePresence a))
  respond : ∀ resp, Moves R (cbSend (.commandResponse resp))

/-- So do the commands of the admin. -/
structure Commanding (R : InspLink → InspLink → Prop) : Prop extends Frame R where
  modem : ∀ c, Moves R (mSend (toModem c))
  whatsapp : ∀ c, Moves R (waSend (toWhatsapp c))
  group : ∀ c, Moves R (waSend (groupToWhatsapp c))
  ghost : ∀ nick c, Moves R (cfSend (ghostToFactory nick c))
  contact : ∀ c, Moves R (cfSend (toQuery c))

namespace Frame

variable {R : InspLink → InspLink → Prop} [IsPreorder InspLink R] (h : Frame R)
include h

omit [IsPreorder InspLink R] in
theorem modify {f : InspLink → InspLink} (hf : ∀ l, Inside l (f l)) :
    Moves R (modify f : LinkM PUnit) := steps_modify fun l => h.inside l (f l) (hf l)

omit [IsPreorder InspLink R] in
theorem push (u : Str) (cmd : String) (args : List Str) (suffix : Option Str) :
    Moves R (push u cmd args suffix) := h.modify fun _ => ⟨rfl, rfl, rfl, rfl, rfl⟩

omit [IsPreorder InspLink R] in
theorem send (m : IrcMessage) : Moves R (Link.send m) := h.modify fun _ => ⟨rfl, rfl, rfl, rfl, rfl⟩

theorem pieces : Pieces fun {α : Type} (p : LinkM α) => Moves R p where
  toComposes := composes_moves
  within _ hf := h.modify fun l => (hf l).toInside
  push u cmd args suffix _ := h.push u cmd args suffix
  introduce u := by
    refine Steps.bind (Steps.bind steps_get fun l => ?_) fun m => h.send m
    cases l.users.lookup u with
    | some user => exact steps_pure _
    | none => exact steps_throw trivial
  query := h.query
  nick := h.nick
  mode := h.mode
  dropRecipient := h.dropRecipient
  askModem := h.askModem
  askWhatsapp := h.askWhatsapp
  subscribe := h.subscribe
  respond := h.respond

theorem contactMessage (u : Str) (kind : String) (target message : Str) :
    Moves R (contactMessage u kind target message) := by
  refine Steps.bind steps_get fun l => ?_
  split
  · exact steps_throw trivial
  · split
    · exact steps_throw trivial
    · exact h.push _ _ _ _

theorem senderSteps : SenderSteps InspLink R fun _ => True where
  record _ := h.modify fun _ => ⟨rfl, rfl, rfl, rfl, rfl⟩
  getGroupById g := h.pieces.getGroupById g
  privateTarget := Steps.bind steps_get fun _ => steps_pure _
  sendIrcMessage _ _ _ := h.contactMessage _ _ _ _
  ensureJoined ch := h.pieces.ensureJoined ch
  getAllConcatenated _ _ := h.query _
  deleteMessage id := h.deleteMessage id
  reportError _ _ := Steps.bind steps_get fun _ => h.contactMessage _ _ _ _
  utcNow := Steps.bind steps_get fun _ => steps_pure _
  error _ := trivial
  messageText := trivial
  concatenatedPdu := trivial
  concatenatedHeader := trivial

theorem walk : Walk fun {α : Type} (p : LinkM α) => Moves R p :=
  h.pieces.walk h.senderSteps.processMsgPdu h.senderSteps.processMsgPlain

theorem reportFailure (fail : Str) : Moves R (Link.handleCbCommand (.reportFailure fail)) := by
  refine Steps.bind steps_get fun l => ?_
  cases adminUuid l with
  | some admu => exact h.push _ _ _ _
  | none => exact steps_pure _

theorem of_next {s t : Session} {e : Event} (hnext : next s e = some t)
    (hpriv : ∀ source target msg, e = .remote ⟨some source, .privmsg target msg⟩ →
      Moves R (Link.handlePrivmsg source target msg))
    (hstore : ∀ op, e ≠ .storeOp op) (hclock : ∀ now dbNow, e ≠ .clock now dbNow) :
    R s.link t.link := by
  obtain ⟨p, hp, rfl⟩ := h.walk.of_next hnext hpriv (fun fail _ => h.reportFailure fail)
    hstore hclock
  exact hp.exec s.link

end Frame

namespace Commanding

variable {R : InspLink → InspLink → Prop} [IsPreorder InspLink R] (h : Commanding R)
include h

theorem commands : Commands fun {α : Type} (p : LinkM α) => Moves R p where
  toWalk := h.toFrame.walk
  modem := h.modem
  whatsapp := h.whatsapp
  group := h.group
  ghost := h.ghost
  contact := h.contact

theorem processAdminCommand (mesg : Str) : Moves R (processAdminCommand mesg : LinkM Unit) :=
  h.commands.processAdminCommand mesg fun _ m => h.toFrame.send m

theorem handlePrivmsg (source target msg : Str)
    (hgroup : Moves R (waSend (.sendGroupMessage target msg)))
    (hdirect : ∀ a, Moves R (waSend (.sendDirectMessage a msg)))
    (hsms : ∀ a, Moves R (mSend (.sendMessage a msg))) :
    Moves R (handlePrivmsg source target msg) :=
  h.commands.handlePrivmsg source target msg (fun _ m => h.toFrame.send m) hgroup hdirect hsms

end Commanding

end Frame

end SmsIrc.LinkFrame
