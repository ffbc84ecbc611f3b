import SmsIrc.SafeNames
import SmsIrc.WhatsappRuns

/-!
What the handlers of the WhatsApp side leave alone: a relation that is kept by the
primitive steps is kept by the methods that are made of them.
-/

namespace SmsIrc.WhatsappFrame

open SmsIrc.Comm SmsIrc.Database SmsIrc.External SmsIrc.HashMaps SmsIrc.Logging SmsIrc.Models
open SmsIrc.Program SmsIrc.SafeNames SmsIrc.SenderCommon SmsIrc.Text SmsIrc.Util SmsIrc.WaAck
open SmsIrc.WaConn SmsIrc.Whatsapp SmsIrc.WhatsappMsg SmsIrc.WhatsappRuns

section Frame

variable [Crates]

/-- The command that renames a contact. -/
def isRename : ContactFactoryCommand → Bool
  | .forwardCommand _ (.changeNick _ _) => true
  | _ => false

/-- Looking up recipients keeps the relation. -/
structure Lookups (R : WhatsappManager → WhatsappManager → Prop) : Prop where
  query : ∀ {α : Type} (f : Store → α), Moves R (store (query f) : WaM α)
  newRecipient : ∀ addr nick ntf src, FromName nick →
    Moves R (store (storeWaRecipient addr nick ntf src) : WaM Recipient)
  cf : ∀ c, isRename c = false → Moves R (cfSend c)

/-- So does bridging a group. -/
structure Bridging (R : WhatsappManager → WhatsappManager → Prop) : Prop
    extends Lookups R where
  newGroup : ∀ jid chan topic, Moves R (store (storeGroup jid chan [] [] topic) : WaM Group)
  cb : ∀ cs m, R m { m with cbTx := m.cbTx ++ cs }
  metadata : ∀ jid, Moves R (pushBack (.getGroupMetadata jid))

/-- So does what names contacts. -/
structure Renaming (R : WhatsappManager → WhatsappManager → Prop) : Prop
    extends Lookups R where
  contacts : ∀ cts m, R m { m with contacts := cts }
  ntf : ∀ addr n, Moves R (store (updateRecipientNotify addr n) : WaM Unit)
  rename : ∀ addr nick src, FromName nick →
    Moves R (cfSend (.forwardCommand addr (.changeNick nick src)))

/-- So does what the other handlers do, but for those that send, track, name or
bridge messages, remove groups or change the connection. -/
structure Handlers (R : WhatsappManager → WhatsappManager → Prop) : Prop
    extends Bridging R where
  insert : ∀ addr text group ts, Moves R (store (storeWaMessage addr text group ts) : WaM Unit)
  updated : ∀ grp, Moves R (updateFromMetadata grp)
  subscribe : ∀ jid, Moves R (pushBack (.subscribePresence jid))
  chats : ∀ chats m, R m { m with chats := chats }

/-- So does what changes the connection. -/
structure Frame (R : WhatsappManager → WhatsappManager → Prop) : Prop
    extends Handlers R where
  conn : ∀ c m, R m { m with conn := c }
  session : ∀ ourJid connected m, R m { m with ourJid := ourJid, connected := connected }

/-- So does what sends messages. -/
structure Sending (R : WhatsappManager → WhatsappManager → Prop) : Prop
    extends Handlers R where
  generate : ∀ m, R m { m with generations := m.generations + 1 }
  ackp : ∀ a m, R m { m with ackp := a }
  accept : ∀ xs m, R m { m with accepted := xs }
  presence : ∀ p m, R m { m with presenceRequests := p }
  send : ∀ msg, Moves R (pushBack (.sendMessage msg))
  msgid : ∀ id, Moves R (store (storeWaMsgid id) : WaM Unit)

/-- So does what sends and tracks messages. -/
structure Tracking (R : WhatsappManager → WhatsappManager → Prop) : Prop
    extends Frame R, Sending R where
  expire : ∀ xs m, R m { m with expired := xs }
  persistence : ∀ ps, Moves R (store (storeWaPersistence ps) : WaM Unit)
  established : ∀ prev m, R m { m with prevJid := prev, connected := true }

/-- So does all that has no part in bridging messages. -/
structure Naming (R : WhatsappManager → WhatsappManager → Prop) : Prop
    extends Tracking R, Renaming R

/-- So does marking messages as seen. -/
structure Marking (R : WhatsappManager → WhatsappManager → Prop) : Prop
    extends Handlers R where
  msgid : ∀ id, Moves R (store (storeWaMsgid id) : WaM Unit)
  read : ∀ mid peer, Moves R (pushBack (.messageRead mid peer))

/-- So does what bridges messages. -/
structure Reception (R : WhatsappManager → WhatsappManager → Prop) : Prop
    extends Marking R, Renaming R where
  process : ∀ inc, Moves R (withMsgproc (processWaIncoming inc))

/-- So does all that has no part in sending and tracking messages. -/
structure Receiving (R : WhatsappManager → WhatsappManager → Prop) : Prop
    extends Frame R, Reception R

/-- So does all that leaves the connection alone. -/
structure Conversing (R : WhatsappManager → WhatsappManager → Prop) : Prop
    extends Sending R, Reception R

theorem moves_store {R : WhatsappManager → WhatsappManager → Prop} {S : Store → Store → Prop}
    {α : Type} {p : StoreM α} (hp : Moves S p)
    (hR : ∀ m st, S m.msgproc.store st → R m (setStore m st)) : Moves R (store p : WaM α) :=
  Steps.zoom hp hR

theorem wp_store {α : Type} {p : StoreM α} {Q : α → WhatsappManager → Prop}
    {E : Failure → WhatsappManager → Prop} {m : WhatsappManager} :
    wp (store p : WaM α) Q E m ↔
      wp p (fun a st => Q a (setStore m st)) (fun e st => E e (setStore m st))
        m.msgproc.store := wp_zoom p

/-- The address that a JID is translated to. -/
def HasAddress (jid : Jid) (addr : PduAddress) : Prop :=
  ∃ pn, Crates.phonenumber jid = some pn ∧ Crates.parseAddress pn = some addr ∧ addr.number ≠ []

/-- A JID that cannot be translated to an address. -/
def addressless (jid : Jid) : Bool :=
  match Crates.phonenumber jid with
  | none => true
  | some pn =>
      match Crates.parseAddress pn with
      | some a => a.number.isEmpty
      | none => false

theorem HasAddress.not_addressless {jid : Jid} {addr : PduAddress} (h : HasAddress jid addr) :
    addressless jid = false := by
  obtain ⟨pn, hpn, haddr, hne⟩ := h
  rw [addressless, hpn]
  dsimp only
  rw [haddr]
  simpa using hne

theorem wp_jidToAddress {σ : Type} (jid : Jid) (s : σ) :
    wp (jidToAddress jid : Prog Failure σ (Option PduAddress))
      (fun found t => t = s ∧ (∀ addr, found = some addr → HasAddress jid addr) ∧
        (found = none → addressless jid = true))
      (fun _ t => t = s ∧ ∃ pn, Crates.phonenumber jid = some pn ∧ Crates.parseAddress pn = none)
      s := by
  unfold jidToAddress addressless
  cases hpn : Crates.phonenumber jid with
  | none => exact ⟨rfl, by simp, fun _ => rfl⟩
  | some pn =>
      cases hparse : Crates.parseAddress pn with
      | none =>
          dsimp only
          rw [hparse, wp_bind, wp_unwrap_none]
          exact ⟨rfl, pn, rfl, hparse⟩
      | some a =>
          dsimp only
          rw [hparse, wp_bind, wp_unwrap_some, wp_pure]
          refine ⟨rfl, fun addr haddr => ?_, fun hnone => ?_⟩
          · split at haddr
            · rename_i hlen
              cases haddr
              exact ⟨pn, hpn, hparse, List.ne_nil_of_length_pos hlen⟩
            · cases haddr
          · split at hnone
            · cases hnone
            · rename_i hlen
              exact List.isEmpty_iff_length_eq_zero.mpr (Nat.eq_zero_of_not_pos hlen)

/-- Looking at a message keeps the relation. -/
structure Reading (S : WaMessageProcessor → WaMessageProcessor → Prop) : Prop where
  query : ∀ {α : Type} (f : Store → α), Moves S (store (query f) : MsgM α)
  contactFiles : ∀ n p, S p { p with contactFiles := n }

/-- So does starting downloads. -/
structure Processing (S : WaMessageProcessor → WaMessageProcessor → Prop) : Prop
    extends Reading S where
  downloads : ∀ ds p, S p { p with downloads := ds }

section Processing

variable {S : WaMessageProcessor → WaMessageProcessor → Prop} [IsPreorder WaMessageProcessor S]

namespace Reading

variable (h : Reading S)
include h

theorem replacePiece (piece : Piece) : Moves S (replacePiece piece) := by
  cases piece with
  | plain c => exact steps_pure _
  | mention digits =>
      have hparse : Moves S (unwrap .mentionAddress (Crates.parseAddress ('+' :: digits)) :
          MsgM PduAddress) := by
        cases Crates.parseAddress ('+' :: digits) with
        | none => exact steps_throw trivial
        | some a => exact steps_pure a
      refine Steps.bind hparse fun a => ?_
      refine Steps.bind (Util.Steps.attempt (h.query _)) fun r => ?_
      match r with
      | .ok (some recip) => exact steps_pure _
      | .ok none => exact steps_pure _
      | .error e => exact steps_pure _

theorem processWaTextMessage (msg : Str) : Moves S (processWaTextMessage msg) :=
  Steps.bind (Steps.mapM h.replacePiece) fun _ => steps_pure _

theorem jidToNick (jid : Jid) : Moves S (jidToNick jid) := by
  unfold WhatsappMsg.jidToNick
  split
  · split
    · exact Steps.bind (h.query _) fun _ => steps_pure _
    · exact steps_pure _
  · exact steps_pure _

theorem quoteLine (inc : IncomingMessage) (qm : QuotedChatMessage) :
    Moves S (quoteLine inc qm) := by
  refine Steps.bind ?_ fun _ => steps_pure _
  unfold quotedNick
  split
  · exact Steps.bind (h.jidToNick _) fun _ => steps_pure _
  · exact steps_pure _

omit [IsPreorder WaMessageProcessor S] in
theorem storeContact : Moves S storeContact := steps_get_bind fun p => h.contactFiles _ p

end Reading

variable (h : Processing S)
include h

theorem Processing.contentText (inc : IncomingMessage) : Moves S (contentText inc) := by
  have hmedia : Moves S (contentText.mediaText inc) :=
    Steps.bind (steps_modify fun p => h.downloads _ p) fun _ => steps_pure _
  unfold WhatsappMsg.contentText
  split
  · rw [map_eq_pure_bind]
    exact Steps.bind (h.processWaTextMessage _) fun _ => steps_pure _
  · exact steps_pure _
  · exact steps_pure _
  · exact steps_pure _
  · exact steps_pure _
  · refine Steps.bind h.storeContact fun r => ?_
    cases r with
    | ok link => exact steps_pure _
    | error e => exact steps_pure _
  · exact hmedia
  · exact hmedia
  · exact hmedia
  · exact hmedia

theorem Processing.processWaIncoming (inc : IncomingMessage) :
    Moves S (processWaIncoming inc) := by
  refine Steps.bind (h.contentText inc) fun text => ?_
  cases text with
  | none => exact steps_pure _
  | some text =>
      dsimp only
      cases inc.quoted with
      | none => exact steps_pure _
      | some qm => exact Steps.bind (h.quoteLine inc qm) fun _ => steps_pure _

end Processing

variable {R : WhatsappManager → WhatsappManager → Prop} [IsPreorder WhatsappManager R]

theorem moves_jidToAddress (jid : Jid) : Moves R (jidToAddress jid : WaM (Option PduAddress)) := by
  unfold jidToAddress
  split
  · exact Steps.bind (moves_unwrap _ _) fun _ => steps_pure _
  · exact steps_pure _

theorem wp_getNickForJid (jid : Jid) (m : WhatsappManager) :
    wp (getNickForJid jid) (fun r t => FromName r.1 ∧ m = t) (fun _ t => m = t) m := by
  rw [getNickForJid, wp_bind, wp_get]
  dsimp only
  split
  · exact ⟨⟨_, rfl⟩, rfl⟩
  · exact ⟨⟨_, rfl⟩, rfl⟩
  · rw [wp_bind]
    refine wp_mono (moves_jidToAddress (R := Eq) jid m) (fun addr t ht => ?_) fun _ _ ht => ht.1
    cases addr with
    | none => exact ht
    | some a => exact ⟨⟨_, rfl⟩, ht⟩

theorem moves_getNickForJid {α : Type} {jid : Jid} {p : Str × Int → WaM α}
    (hp : ∀ nick src, FromName nick → Moves R (p (nick, src))) :
    Moves R (getNickForJid jid >>= p) := by
  intro m
  rw [wp_bind]
  refine wp_mono (wp_getNickForJid jid m) ?_ ?_
  · rintro r _ ⟨hnick, rfl⟩
    exact hp r.1 r.2 hnick m
  · rintro _ _ rfl
    exact ⟨refl m, trivial⟩

namespace Lookups

variable (h : Lookups R)
include h

theorem recipientFor (jid : Jid) (addr : PduAddress) : Moves R (recipientFor jid addr) := by
  refine Steps.bind (h.query _) fun recip => ?_
  cases recip with
  | some r => exact steps_pure r
  | none =>
      refine moves_getNickForJid fun nick src hnick => Steps.bind steps_get fun _ => ?_
      exact Steps.bind (h.newRecipient _ _ _ _ hnick) fun _ =>
        Steps.bind (h.cf _ rfl) fun _ => steps_pure _

theorem getWaRecipient (jid : Jid) : Moves R (getWaRecipient jid) := by
  refine Steps.bind (moves_jidToAddress jid) fun addr => ?_
  cases addr with
  | some a => exact h.recipientFor jid a
  | none => exact steps_throw trivial

theorem participantOf (p : Jid × Bool) : Moves R (participantOf p) :=
  Steps.bind (h.getWaRecipient p.1) fun _ => steps_pure _

theorem participantsText (change : GroupParticipantsChange) (inducer : Jid)
    (participants : List Jid) : Moves R (participantsText change inducer participants) := by
  unfold Whatsapp.participantsText
  split
  · exact steps_pure _
  · refine Steps.bind (Steps.mapM fun p => ?_) fun _ => steps_pure _
    exact Steps.bind (h.getWaRecipient p) fun _ => steps_pure _

theorem makeContact (addr : PduAddress) : Moves R (makeContact addr) := by
  unfold Whatsapp.makeContact
  split
  · exact Steps.bind (h.getWaRecipient _) fun _ => h.cf _ rfl
  · exact steps_pure _

theorem onPresenceChange (jid : Jid) (presence : PresenceStatus) (ts : Option Str) :
    Moves R (onPresenceChange jid presence ts) := by
  refine Steps.bind (moves_jidToAddress jid) fun addr => ?_
  cases addr with
  | some a => exact h.cf _ rfl
  | none => exact steps_pure _

end Lookups

namespace Bridging

variable (h : Bridging R)
include h

omit [IsPreorder WhatsappManager R] in
theorem cbSend (c : ControlBotCommand) : Moves R (cbSend c) := steps_modify fun m => h.cb [c] m

omit [IsPreorder WhatsappManager R] in
theorem cbRespond (s : Str) : Moves R (cbRespond s) := h.cbSend _

omit [IsPreorder WhatsappManager R] in
theorem logRecord (level : Level) (args : Str) : Moves R (logRecord level args) :=
  steps_modify fun m => h.cb _ m

theorem onGroupsChanged : Moves R onGroupsChanged :=
  Steps.bind (h.cf _ rfl) fun _ => h.cbSend _

theorem checkUnbridged (jid : Jid) : Moves R (checkUnbridged jid) := by
  refine Steps.bind (h.query _) fun grp => ?_
  cases grp with
  | some g => exact steps_throw trivial
  | none => exact steps_pure _

theorem checkUnused (chan : Str) : Moves R (checkUnused chan) := by
  refine Steps.bind (h.query _) fun grp => ?_
  cases grp with
  | some g => exact steps_throw trivial
  | none => exact steps_pure _

omit h in
theorem checkOnline (jid : Jid) : Moves R (checkOnline jid) := by
  refine Steps.bind steps_get fun m => ?_
  split
  · exact steps_throw trivial
  · split
    · exact steps_throw trivial
    · exact steps_pure _

theorem groupAssociate (jid : Jid) (chan : Str) (update : Bool) :
    Moves R (groupAssociate jid chan update) := by
  refine Steps.bind (h.checkUnbridged jid) fun _ => Steps.bind (h.checkUnused chan) fun _ => ?_
  refine Steps.bind (checkOnline jid) fun _ => Steps.bind (h.newGroup _ _ _) fun _ => ?_
  exact Steps.bind (Steps.when (h.metadata jid)) fun _ =>
    Steps.bind h.onGroupsChanged fun _ => steps_pure _

theorem groupAssociateHandler (jid : Jid) (chan : Str) :
    Moves R (groupAssociateHandler jid chan) := by
  refine Steps.bind (Util.Steps.attempt (h.groupAssociate jid chan true)) fun r => ?_
  cases r with
  | ok _ => exact h.cbRespond _
  | error e => exact Steps.bind steps_get fun _ => h.cbRespond _

omit h in
theorem autocreateChan (subject : Str) : Moves R (autocreateChan subject) :=
  Steps.bind steps_get fun _ => Steps.bind (moves_unwrap _ _) fun _ => steps_pure _

theorem groupAutocreateFromUnbridged (jid : Jid) :
    Moves R (groupAutocreateFromUnbridged jid) := by
  refine Steps.bind steps_get fun m => ?_
  split
  · exact steps_throw trivial
  · split
    · exact steps_throw trivial
    · exact Steps.bind (autocreateChan _) fun _ => h.groupAssociate _ _ _

theorem bridgedGroup (gid : Jid) : Moves R (bridgedGroup gid) := by
  unfold Whatsapp.bridgedGroup
  split
  · exact steps_pure _
  refine Steps.bind (h.query _) fun grp => ?_
  cases grp with
  | some g => exact steps_pure _
  | none =>
      refine Steps.bind steps_get fun m => ?_
      split
      · refine Steps.bind (Util.Steps.attempt (h.groupAutocreateFromUnbridged gid)) fun r => ?_
        cases r with
        | ok id => exact steps_pure _
        | error e => exact Steps.bind (h.metadata gid) fun _ => steps_pure _
      · exact steps_pure _

theorem targetOf (group : Option Jid) : Moves R (targetOf group) := by
  cases group with
  | some gid => exact Steps.bind (h.bridgedGroup gid) fun _ => steps_pure _
  | none => exact steps_pure _

omit [IsPreorder WhatsappManager R] in
theorem reportAutocreation (grp : GroupMetadata) (r : Except Failure (Nat × Str)) :
    Moves R (reportAutocreation grp r) := by
  cases r with
  | ok r => exact h.cbRespond _
  | error e => exact h.cbRespond _

theorem groupAutocreate {gotMetadata : GroupMetadata → WaM Unit} (grp : GroupMetadata)
    (hgot : ∀ grp, Moves R (gotMetadata grp)) : Moves R (groupAutocreate gotMetadata grp) :=
  Steps.bind (autocreateChan _) fun _ => Steps.bind (h.groupAssociate _ _ _) fun _ =>
    Steps.bind (hgot grp) fun _ => steps_pure _

theorem bridgeFromMetadata {gotMetadata : GroupMetadata → WaM Unit} (grp : GroupMetadata)
    (hgot : ∀ grp, Moves R (gotMetadata grp)) :
    Moves R (bridgeFromMetadata gotMetadata grp) := by
  refine Steps.bind (h.query _) fun g => ?_
  cases g with
  | some g => exact h.logRecord _ _
  | none =>
      refine Steps.bind (h.logRecord _ _) fun _ => Steps.bind steps_get fun _ => Steps.when ?_
      exact Steps.bind (Util.Steps.attempt (h.groupAutocreate grp hgot)) fun _ =>
        h.reportAutocreation _ _

theorem printAcks : Moves R printAcks :=
  Steps.bind steps_get fun _ => Steps.forM fun _ _ => h.cbRespond _

theorem onQr (saved : Bool) : Moves R (onQr saved) := by
  refine Steps.bind steps_get fun m => ?_
  split
  · exact Steps.bind (h.cbRespond _) fun _ => h.cbRespond _
  · exact steps_throw trivial

theorem groupList : Moves R groupList := by
  refine Steps.bind steps_get fun m => Steps.bind (Steps.mapM fun e => ?_) fun _ => ?_
  · refine Steps.bind (Steps.bind (h.query _) fun grp => ?_) fun _ => steps_pure _
    cases grp with
    | some g => exact steps_pure _
    | none => exact steps_pure _
  · exact Steps.bind (h.cbRespond _) fun _ => Steps.forM fun _ _ => h.cbRespond _

theorem groupUpdateAll : Moves R groupUpdateAll := by
  refine Steps.bind (h.query _) fun groups => Steps.forM fun grp _ => ?_
  split
  · exact h.metadata _
  · exact steps_pure _

theorem onProfileStatus (jid : Jid) (status : Str) (wasRequest : Bool) :
    Moves R (onProfileStatus jid status wasRequest) := by
  unfold Whatsapp.onProfileStatus
  split
  · exact steps_pure _
  · exact Steps.bind (h.getWaRecipient jid) fun _ => Steps.when (h.logRecord _ _)

theorem onPictureChange (jid : Jid) (removed : Bool) :
    Moves R (onPictureChange jid removed) := by
  unfold Whatsapp.onPictureChange
  split
  · exact steps_pure _
  · exact Steps.bind (h.getWaRecipient jid) fun _ => h.logRecord _ _

theorem updateFromMetadata (grp : GroupMetadata)
    (hupdate : ∀ jid parts adms topic,
      Moves R (store (updateGroup jid parts adms topic) : WaM Group)) :
    Moves R (updateFromMetadata grp) :=
  Steps.bind (Steps.mapM fun p => h.participantOf p) fun _ =>
    Steps.bind (hupdate _ _ _ _) fun _ => h.onGroupsChanged

theorem groupRemove (chan : Str)
    (hdelete : ∀ id, Moves R (store (deleteGroupWithId id) : WaM Unit)) :
    Moves R (groupRemove chan) := by
  refine Steps.bind (h.query _) fun grp => ?_
  cases grp with
  | some g =>
      exact Steps.bind (hdelete _) fun _ => Steps.bind h.onGroupsChanged fun _ =>
        h.cbRespond _
  | none => exact h.cbRespond _

end Bridging

namespace Handlers

variable (h : Handlers R)
include h

theorem storeMessage (jid : Jid) (text : Str) (group : Option Nat) (ts : NaiveDateTime) :
    Moves R (storeMessage jid text group ts) := by
  refine Steps.bind (moves_jidToAddress jid) fun addr => ?_
  cases addr with
  | some a =>
      exact Steps.bind (h.getWaRecipient jid) fun _ =>
        Steps.bind (h.insert _ _ _ _) fun _ => h.cf _ rfl
  | none => exact steps_pure _

theorem onGotGroupMetadata (depth : Nat) (grp : GroupMetadata) :
    Moves R (onGotGroupMetadata depth grp) := by
  induction depth generalizing grp with
  | zero => exact steps_throw trivial
  | succ depth ih =>
      exact Steps.bind (h.bridgeFromMetadata grp ih) fun _ => h.updated grp

theorem groupAutocreateFromIntro (grp : GroupMetadata) :
    Moves R (groupAutocreateFromIntro grp) :=
  Steps.bind (Util.Steps.attempt (h.groupAutocreate grp (h.onGotGroupMetadata _))) fun _ =>
    h.reportAutocreation _ _

theorem onGroupIntroduce (newlyCreated : Bool) (grp : GroupMetadata) :
    Moves R (onGroupIntroduce newlyCreated grp) :=
  Steps.bind (h.logRecord _ _) fun _ => Steps.bind steps_get fun _ =>
    Steps.when (h.groupAutocreateFromIntro grp)

theorem onGroupSubjectChange (jid : Jid) (subject : Str) (inducer : Jid) :
    Moves R (onGroupSubjectChange jid subject inducer) := by
  refine Steps.bind (h.query _) fun grp => ?_
  cases grp with
  | some g =>
      exact Steps.bind steps_get fun _ => Steps.bind (h.storeMessage _ _ _ _) fun _ =>
        h.metadata _
  | none => exact steps_pure _

theorem onGroupParticipantsChange (jid : Jid) (change : GroupParticipantsChange)
    (inducer : Option Jid) (participants : List Jid) :
    Moves R (onGroupParticipantsChange jid change inducer participants) := by
  refine Steps.bind steps_get fun m => Steps.bind (h.query _) fun grp => ?_
  cases grp with
  | none => exact steps_pure _
  | some g =>
      refine Steps.bind ?_ fun _ => h.metadata _
      cases inducer with
      | none => exact steps_pure _
      | some j =>
          exact Steps.bind (h.participantsText _ _ _) fun _ => h.storeMessage _ _ _ _

theorem subscribePresence (addr : PduAddress) : Moves R (subscribePresence addr) := by
  unfold Whatsapp.subscribePresence
  split
  · refine Steps.bind (h.getWaRecipient _) fun _ => Steps.bind steps_get fun m => ?_
    split
    · exact Steps.bind (h.cbRespond _) fun _ => h.subscribe _
    · exact h.cbRespond _
  · exact h.cbRespond _

theorem handleIntRx (c : WhatsappCommand)
    (hregister : c = .startRegistration → Moves R startRegistration)
    (hlogon : c = .logonIfSaved → Moves R logonIfSaved)
    (hfinished : ∀ r, c = .mediaFinished r → Moves R (mediaFinished r))
    (hdirect : ∀ addr text, c = .sendDirectMessage addr text →
      Moves R (sendDirectMessage addr text))
    (hgroup : ∀ chan text, c = .sendGroupMessage chan text →
      Moves R (sendGroupMessage chan text))
    (hremove : ∀ chan, c = .groupRemove chan → Moves R (groupRemove chan)) :
    Moves R (handleIntRx c) := by
  cases c with
  | startRegistration => exact hregister rfl
  | logonIfSaved => exact hlogon rfl
  | sendGroupMessage chan text => exact hgroup chan text rfl
  | sendDirectMessage addr text => exact hdirect addr text rfl
  | groupAssociate jid chan => exact h.groupAssociateHandler jid chan
  | groupList => exact h.groupList
  | groupRemove chan => exact hremove chan rfl
  | groupUpdateAll => exact h.groupUpdateAll
  | mediaFinished r => exact hfinished r rfl
  | printAcks => exact h.printAcks
  | makeContact addr => exact h.makeContact addr
  | subscribePresence addr => exact h.subscribePresence addr

theorem onWaEvent (e : WaEvent) (hcontact : ∀ ct, Moves R (onContactChange ct))
    (hmessage : ∀ msg isNew, e = .message isNew msg → Moves R (onMessage msg isNew))
    (hestablished : ∀ jid ps, e = .sessionEstablished jid ps → Moves R (onEstablished jid ps))
    (hack : ∀ ack, e = .messageAck ack → Moves R (onMessageAck ack)) :
    Moves R (onWaEvent e) := by
  cases e with
  | scanCode saved => exact h.onQr saved
  | sessionEstablished jid ps => exact hestablished jid ps rfl
  | message isNew msg => exact hmessage msg isNew rfl
  | initialContacts cts => exact Steps.forM fun ct _ => hcontact ct
  | addContact ct => exact hcontact ct
  | initialChats cts => exact Steps.forM fun _ _ => steps_modify fun m => h.chats _ m
  | chatRemoved jid => exact steps_modify fun m => h.chats _ m
  | presenceChange jid presence ts => exact h.onPresenceChange jid presence ts
  | messageAck ack => exact hack ack rfl
  | groupIntroduce newlyCreated grp => exact h.onGroupIntroduce newlyCreated grp
  | groupMetadata metadata =>
      cases metadata with
      | ok grp => exact h.onGotGroupMetadata _ grp
      | error e => exact steps_pure _
  | groupSubjectChange jid subject inducer => exact h.onGroupSubjectChange jid subject inducer
  | groupParticipantsChange jid change inducer participants =>
      exact h.onGroupParticipantsChange jid change inducer participants
  | profileStatus jid status wasRequest => exact h.onProfileStatus jid status wasRequest
  | pictureChange jid removed => exact h.onPictureChange jid removed
  | messageSendFail mid status => exact h.cbSend _
  | websocketConnected => exact steps_pure _
  | deleteContact jid => exact steps_pure _
  | chatAction jid => exact steps_pure _
  | batteryLevel level => exact steps_pure _
  | other => exact steps_pure _

end Handlers

namespace Frame

variable (h : Frame R)
include h

omit [IsPreorder WhatsappManager R] in
theorem setConn (f : WebConnectionWrapper → WebConnectionWrapper) : Moves R (setConn f) :=
  steps_modify fun m => h.conn _ m

theorem logonIfSaved : Moves R logonIfSaved := by
  refine Steps.bind (h.query _) fun wap => ?_
  cases wap with
  | some w => exact h.setConn _
  | none => exact steps_pure _

omit [IsPreorder WhatsappManager R] in
theorem startRegistration : Moves R startRegistration := h.setConn _

theorem onWaError (err : WaError) : Moves R (onWaError err) := by
  refine Steps.bind ?_ fun _ => steps_modify fun m => h.session none false m
  unfold disableOn
  split
  · exact Steps.bind (h.cbSend _) fun _ => h.setConn _
  · exact steps_pure _

section Outbox

variable (hout : ∀ outbox sent m, R m { m with outbox := outbox, sent := sent })
include hout

theorem startSend (req : WaRequest) (a : SendAnswer) : Moves R (startSend req a) := by
  refine steps_get_bind fun m => ?_
  split
  · cases a with
    | ready => exact hout m.outbox _ m
    | notReady => exact (steps_pure (R := R) none) m
    | failed e => exact h.conn _ m
  · exact (steps_throw (R := R) trivial) m

theorem sendQueued (reqs : List WaRequest) (answers : List SendAnswer) :
    Moves R (sendQueued reqs answers) := by
  induction reqs generalizing answers with
  | nil => exact steps_pure _
  | cons req rest ih =>
      refine Steps.bind (steps_modify fun m => hout rest m.sent m) fun _ => ?_
      refine Steps.bind (h.startSend hout req _) fun e => ?_
      cases e with
      | some e => exact h.onWaError e
      | none => exact ih _

theorem drainOutbox (answers : List SendAnswer) : Moves R (drainOutbox answers) := by
  refine steps_get_bind fun m => ?_
  split
  · exact h.sendQueued hout _ _ m
  · exact hout [] m.sent m

end Outbox

omit h in
theorem pollComplete (done : Bool) : Moves R (pollComplete done) :=
  Steps.bind steps_get fun _ => Steps.when (steps_throw trivial)

theorem handleIntRx (c : WhatsappCommand)
    (hfinished : ∀ r, c = .mediaFinished r → Moves R (mediaFinished r))
    (hdirect : ∀ addr text, c = .sendDirectMessage addr text →
      Moves R (sendDirectMessage addr text))
    (hgroup : ∀ chan text, c = .sendGroupMessage chan text →
      Moves R (sendGroupMessage chan text))
    (hremove : ∀ chan, c = .groupRemove chan → Moves R (groupRemove chan)) :
    Moves R (handleIntRx c) :=
  h.toHandlers.handleIntRx c (fun _ => h.startRegistration) (fun _ => h.logonIfSaved) hfinished
    hdirect hgroup hremove

end Frame

namespace Sending

variable (h : Sending R)
include h

omit [IsPreorder WhatsappManager R] in
theorem generateId : Moves R generateId :=
  steps_get_bind fun m => h.generate m

omit [IsPreorder WhatsappManager R] in
theorem registerSend (dest : Jid) (content : ChatMessageContent) (mid : Str) (isUnsent : Bool) :
    Moves R (registerSend dest content mid isUnsent) :=
  steps_modify fun m => h.ackp _ m

theorem queueMessage (content : ChatMessageContent) (jid : Jid) :
    Moves R (queueMessage content jid) :=
  Steps.bind h.generateId fun _ => Steps.bind (h.registerSend _ _ _ _) fun _ =>
    Steps.bind steps_get fun _ => Steps.when (h.cbSend _)

theorem subscribePresenceOf (jid : Jid) : Moves R (subscribePresenceOf jid) :=
  Steps.bind steps_get fun _ => Steps.when
    (Steps.bind (steps_modify fun m => h.presence _ m) fun _ => h.subscribe _)

theorem sendMessage (content : ChatMessageContent) (jid : Jid) :
    Moves R (sendMessage content jid) :=
  Steps.bind h.generateId fun _ => Steps.bind (h.msgid _) fun _ =>
    Steps.bind (h.registerSend _ _ _ _) fun _ => Steps.bind steps_get fun _ =>
      Steps.bind (h.send _) fun _ => h.subscribePresenceOf jid

theorem acceptMessage (content : ChatMessageContent) (jid : Jid) :
    Moves R (acceptMessage content jid) := by
  refine steps_get_bind fun m => ?_
  rw [wp_bind, wp_set]
  have hm := h.accept (m.accepted ++ [(jid, content)]) m
  split
  · exact (h.sendMessage content jid).after hm
  · exact (h.queueMessage content jid).after hm

theorem sendDirectMessage (addr : PduAddress) (content : Str) :
    Moves R (sendDirectMessage addr content) := by
  unfold Whatsapp.sendDirectMessage
  split
  · exact h.acceptMessage _ _
  · exact h.cbSend _

theorem sendGroupMessage (chan content : Str) : Moves R (sendGroupMessage chan content) := by
  refine Steps.bind (h.query _) fun grp => ?_
  cases grp with
  | some g => exact Steps.bind (moves_unwrap _ _) fun _ => h.acceptMessage _ _
  | none => exact steps_pure _

theorem onMessageAck (ack : MessageAck) : Moves R (onMessageAck ack) :=
  steps_modify fun m => IsTrans.trans _ _ _ (h.ackp _ m)
    (h.cb (m.ackp.onMessageAck ack).2 { m with ackp := (m.ackp.onMessageAck ack).1 })

end Sending

namespace Tracking

variable (h : Tracking R)
include h

theorem onEstablished (jid : Jid) (ps : Crates.PersistentSession) :
    Moves R (onEstablished jid ps) := by
  refine steps_get_bind fun m => ?_
  rw [wp_bind, wp_set]
  refine Steps.after ?_ (h.session (some jid) m.connected m)
  refine Steps.bind (Steps.when (h.cbSend _)) fun _ => ?_
  refine Steps.bind (steps_get_bind fun m => h.ackp _ m) fun unsent => ?_
  refine Steps.bind (Steps.forM fun _ _ => h.sendMessage _ _) fun _ => ?_
  exact Steps.bind (h.persistence ps) fun _ => Steps.bind (h.setConn _) fun _ =>
    steps_modify fun m => h.established _ m

theorem checkAcks : Moves R checkAcks :=
  steps_modify fun m => IsTrans.trans _ _ _
    (IsTrans.trans _ _ _ (h.ackp _ m)
      (h.cb (m.ackp.checkAcks m.now).2 { m with ackp := (m.ackp.checkAcks m.now).1 }))
    (h.expire _ { m with
      ackp := (m.ackp.checkAcks m.now).1
      cbTx := m.cbTx ++ (m.ackp.checkAcks m.now).2 })

theorem handleIntRx (c : WhatsappCommand)
    (hfinished : ∀ r, c = .mediaFinished r → Moves R (mediaFinished r))
    (hremove : ∀ chan, c = .groupRemove chan → Moves R (groupRemove chan)) :
    Moves R (handleIntRx c) :=
  h.toFrame.handleIntRx c hfinished (fun _ _ _ => h.sendDirectMessage _ _)
    (fun _ _ _ => h.sendGroupMessage _ _) hremove

theorem onWaEvent (e : WaEvent) (hcontact : ∀ ct, Moves R (onContactChange ct))
    (hmessage : ∀ msg isNew, e = .message isNew msg → Moves R (onMessage msg isNew)) :
    Moves R (onWaEvent e) :=
  h.toFrame.onWaEvent e hcontact hmessage (fun _ _ _ => h.onEstablished _ _)
    fun _ _ => h.onMessageAck _

end Tracking

namespace Renaming

variable (h : Renaming R)
include h

theorem onContactChange (ct : WaContact) : Moves R (onContactChange ct) := by
  unfold Whatsapp.onContactChange
  split
  · exact steps_pure _
  refine Steps.bind (moves_jidToAddress _) fun addr => ?_
  cases addr with
  | none => exact steps_pure _
  | some a =>
      refine Steps.bind (steps_modify fun m => h.contacts _ m) fun _ => ?_
      refine Steps.bind (h.getWaRecipient _) fun _ => ?_
      refine moves_getNickForJid fun nick src hnick => ?_
      exact Steps.bind (Steps.when (h.ntf _ _)) fun _ => Steps.bind steps_get fun _ =>
        Steps.when (h.rename _ _ _ hnick)

end Renaming

namespace Marking

variable (h : Marking R)
include h

theorem markAsRead (mid : Str) (peer : Option Peer) : Moves R (markAsRead mid peer) := by
  cases peer with
  | none => exact steps_pure _
  | some p => exact h.read mid p

theorem mediaFinished (r : MediaResult) : Moves R (mediaFinished r) :=
  Steps.bind (h.storeMessage _ _ _ _) fun _ => Steps.bind (h.msgid _) fun _ =>
    Steps.bind steps_get fun _ => Steps.when (h.markAsRead _ _)

theorem senderOf (msg : WaMessage) : Moves R (senderOf msg) := by
  unfold Whatsapp.senderOf
  split
  · refine Steps.bind steps_get fun m => ?_
    split
    · exact steps_throw trivial
    · split
      · exact steps_pure _
      · exact Steps.bind (h.msgid _) fun _ => steps_pure _
  · exact steps_pure _
  · exact steps_pure _

end Marking

namespace Reception

variable (h : Reception R)
include h

theorem bridgeMessage (msg : WaMessage) (sender : Sender) (group : Option Nat) :
    Moves R (bridgeMessage msg sender group) := by
  refine Steps.bind (h.process _) fun r => ?_
  refine Steps.bind (Steps.forM fun _ _ => h.storeMessage _ _ _ _) fun _ => ?_
  exact Steps.bind (Steps.when (h.msgid _)) fun _ => Steps.bind steps_get fun _ =>
    Steps.when (h.markAsRead _ _)

theorem onMessage (msg : WaMessage) (isNew : Bool) : Moves R (onMessage msg isNew) := by
  refine Steps.bind ?_ fun known => Steps.bind steps_get fun m => ?_
  · refine Steps.bind steps_get fun m => ?_
    split
    · exact h.query _
    · exact steps_pure _
  · split
    · exact steps_pure _
    refine Steps.bind (h.senderOf msg) fun sender => ?_
    cases sender with
    | none => exact steps_pure _
    | some sender =>
        refine Steps.bind (h.targetOf sender.group) fun group => ?_
        cases group with
        | none => exact steps_pure _
        | some group => exact h.bridgeMessage _ _ _

end Reception

namespace Conversing

variable (h : Conversing R)
include h

theorem handleIntRx (c : WhatsappCommand)
    (hregister : c = .startRegistration → Moves R startRegistration)
    (hlogon : c = .logonIfSaved → Moves R logonIfSaved)
    (hremove : ∀ chan, c = .groupRemove chan → Moves R (groupRemove chan)) :
    Moves R (handleIntRx c) :=
  h.toHandlers.handleIntRx c hregister hlogon (fun r _ => h.mediaFinished r)
    (fun _ _ _ => h.sendDirectMessage _ _) (fun _ _ _ => h.sendGroupMessage _ _) hremove

theorem onWaEvent (e : WaEvent)
    (hestablished : ∀ jid ps, e = .sessionEstablished jid ps → Moves R (onEstablished jid ps)) :
    Moves R (onWaEvent e) :=
  h.toHandlers.onWaEvent e h.onContactChange (fun msg isNew _ => h.onMessage msg isNew)
    hestablished fun _ _ => h.onMessageAck _

end Conversing

end Frame

end SmsIrc.WhatsappFrame
