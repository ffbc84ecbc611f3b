import SmsIrc.Composition
import SmsIrc.LinkEffects
import SmsIrc.LinkRuns

/-!
A property that is kept when computations are put together, and that the pieces of a link
have, is one of all its handlers.
-/

namespace SmsIrc.LinkWalk

open SmsIrc.Admin SmsIrc.Comm SmsIrc.Composition SmsIrc.ContactCommon SmsIrc.ControlCommands
open SmsIrc.Database SmsIrc.External SmsIrc.InspUsers SmsIrc.Link SmsIrc.LinkEffects
open SmsIrc.LinkRuns SmsIrc.Models SmsIrc.Program SmsIrc.SenderCommon SmsIrc.Text SmsIrc.Util

section Walk

variable [Crates]

section Pieces

variable {W : ∀ {α : Type}, LinkM α → Prop}

theorem composes_unwrap (h : Composes W) {α : Type} (site : PanicSite) (o : Option α) :
    W (unwrap site o : LinkM α) := by
  cases o with
  | some a => exact h.pure a
  | none => exact h.throw _

theorem composes_getAddr (h : Composes W) (num : Str) :
    W (Models.getAddr num : LinkM PduAddress) := by
  unfold Models.getAddr
  cases unNormalizeAddress num with
  | some a => exact h.pure a
  | none => exact h.throw _

end Pieces

/-- The pieces, each with what it is made of where that is looked at. -/
structure Walk (W : ∀ {α : Type}, LinkM α → Prop) : Prop extends Composes W where
  push : ∀ u cmd args suffix, cmd ≠ "PRIVMSG" → W (push u cmd args suffix)
  query : ∀ {α : Type} (f : Store → α), W (store (query f) : LinkM α)
  insertUser : ∀ u user, W (insertUser u user)
  updateUser : ∀ u f, W (updateUser u f)
  setupFor : ∀ recip a, W (setupContactFor recip a)
  regroup : ∀ a, W (processGroupsForRecipient a)
  noChannels : W (modify fun l => { l with channels := [] } : LinkM PUnit)
  topic : ∀ ch topic,
    W (modify fun l => { l with channelTopics := l.channelTopics.insert ch topic } : LinkM PUnit)
  removeUser : ∀ u recreate, (∀ a, W (setupContact a : LinkM Unit)) → W (removeUser u recreate)
  drop : ∀ a, W (dropContact a : LinkM Unit)
  mode : ∀ a wa, W (setWaState a wa)
  forward : ∀ a cmd, W (forwardCmd a cmd)
  pdu : ∀ u msg pdu, W (processMsgPdu u msg pdu : LinkM Unit)
  plain : ∀ u msg, W (processMsgPlain u msg : LinkM Unit)
  askModem : ∀ a, W (mSend (.makeContact a))
  askWhatsapp : ∀ a, W (waSend (.makeContact a))
  subscribe : ∀ a, W (waSend (.subscribePresence a))
  respond : ∀ resp, W (cbSend (.commandResponse resp))
  squit : ∀ server, W (handleSquit server)
  connect : W connect
  server : ∀ args suffix, W (handleServer args suffix)
  endburst : ∀ source, (∀ recip, W (setupRecipient recip : LinkM Unit)) → W processGroups →
    W processMessages → W (handleEndburst source)

namespace Walk

variable {W : ∀ {α : Type}, LinkM α → Prop} (h : Walk W)
include h

theorem sendSidLine (cmd : String) (args : List Str) (suffix : Option Str)
    (hcmd : cmd ≠ "PRIVMSG") : W (sendSidLine cmd args suffix) :=
  h.getBind fun _ => h.push _ _ _ _ hcmd

theorem setupRecipient (recip : Recipient) : W (setupRecipient recip : LinkM Unit) := by
  refine h.bind (composes_getAddr h.toComposes _) fun a => ?_
  refine h.bind (h.getBind fun l => h.pure _) fun present => ?_
  exact h.when (h.setupFor recip a)

theorem setupContact (a : PduAddress) : W (setupContact a : LinkM Unit) := by
  refine h.bind (h.query _) fun row => ?_
  cases row with
  | some recip => exact h.setupRecipient recip
  | none => exact h.pure _

theorem requestCreation (a : PduAddress) (src : Nat) :
    W (requestCreation a src : LinkM Unit) := by
  unfold ContactCommon.requestCreation
  split
  · exact h.askModem a
  · split
    · exact h.askWhatsapp a
    · exact h.pure _

theorem requestContact (a : PduAddress) (src : Nat) : W (requestContact a src : LinkM Bool) := by
  refine h.bind (h.query _) fun row => ?_
  cases row with
  | some recip => exact h.bind (h.setupRecipient recip) fun _ => h.pure _
  | none => exact h.bind (h.requestCreation a src) fun _ => h.pure _

theorem queryContact (a : PduAddress) (src : Nat) : W (queryContact a src : LinkM Unit) := by
  refine h.bind (h.query _) fun row => ?_
  cases row with
  | some recip => exact h.bind (h.respond _) fun _ => h.setupRecipient recip
  | none =>
      refine h.bind (h.respond _) fun _ => ?_
      exact h.bind (h.requestContact a src) fun _ => h.pure _

theorem byNick (nick : Str) {p : Option PduAddress → LinkM Unit} (hnone : W (p none))
    (hsome : ∀ a, W (p (some a))) : W (resolveNick nick >>= p) := by
  refine h.bind (h.getBind fun l => h.pure _) fun a => ?_
  cases a with
  | some a => exact hsome a
  | none => exact hnone

theorem controlResponse (msg : Str) : W (controlResponse msg) := by
  refine h.getBind fun l => ?_
  cases adminUuid l with
  | some admu => exact h.push _ _ _ _ (by decide)
  | none => exact h.pure _

theorem contactMessage (u : Str) (kind : String) (target message : Str)
    (hkind : kind ≠ "PRIVMSG") : W (contactMessage u kind target message) := by
  refine h.getBind fun l => ?_
  split
  · exact h.throw _
  · split
    · exact h.throw _
    · exact h.push _ _ _ _ hkind

theorem processGroup (grp : Group) : W (processGroup grp) := by
  refine h.bind (h.forM fun part _ => h.bind (h.query _) fun row => ?_) fun _ => ?_
  · cases row with
    | none => exact h.pure _
    | some recip =>
        refine h.bind (composes_getAddr h.toComposes _) fun a => h.getBind fun l => ?_
        cases l.contacts.lookup a with
        | none => exact h.pure _
        | some ct => exact h.push _ _ _ _ (by decide)
  · refine h.getBind fun l => h.when (h.getBind fun l => ?_)
    dsimp only
    split
    · exact h.bind (h.push _ _ _ _ (by decide)) fun _ => h.topic _ _
    · exact h.topic _ _

theorem processGroups : W processGroups := by
  refine h.bind h.noChannels fun _ => h.getBind fun l => ?_
  refine h.bind (h.forM fun a _ => h.regroup a) fun _ => ?_
  exact h.bind (h.query _) fun grps => h.forM fun grp _ => h.processGroup grp

theorem switchMode (a : PduAddress) (auid : Str) (ct : InspContact) (wa : Bool) :
    W (switchMode a auid ct wa) :=
  h.when (h.bind (h.mode a wa) fun _ => h.contactMessage _ _ _ _ (by decide))

theorem processMessage (auid : Str) (msg : Message) : W (processMessage auid msg) := by
  refine h.bind (composes_getAddr h.toComposes _) fun a => h.bind ?_ fun ready => ?_
  · refine h.bind (h.getBind fun l => h.pure _) fun present => ?_
    split
    · exact h.pure _
    · exact h.requestContact a _
  · refine h.when (h.getBind fun l => h.bind (composes_unwrap h.toComposes _ _) fun ct => ?_)
    split
    · split
      · exact h.throw _
      · exact h.bind (h.switchMode _ _ _ _) fun _ => h.pdu _ _ _
    · exact h.bind (h.switchMode _ _ _ _) fun _ => h.plain _ _

theorem processMessages : W processMessages := by
  refine h.getBind fun l => ?_
  cases adminUuid l with
  | none => exact h.pure _
  | some auid => exact h.bind (h.query _) fun msgs => h.forM fun msg _ => h.processMessage _ _

theorem processInsp (ic : InspCommand) (hraw : ∀ line, ic = .raw line → ∀ m, W (send m)) :
    W (processInsp ic) := by
  cases ic with
  | raw line =>
      refine h.bind ?_ fun _ => h.pure _
      unfold sendRaw
      split
      · exact hraw line rfl _
      · exact h.controlResponse _
  | queryUuid uu =>
      refine h.getBind fun l => ?_
      exact h.bind (h.forM fun line _ => h.controlResponse line) fun _ => h.pure _
  | queryNickUuid qnu =>
      exact h.getBind fun l => h.bind (h.controlResponse _) fun _ => h.pure _

theorem handleRaw (source cmd : Str) (args : List Str) (suffix : Option Str) :
    W (handleRaw source cmd args suffix) := by
  unfold Link.handleRaw
  split
  · unfold handleUid
    split
    · exact h.throw _
    · refine h.bind (h.insertUser _ _) fun _ => h.getBind fun l => ?_
      exact h.when h.processMessages
  split
  · split
    · exact h.pure _
    · exact h.updateUser _ _
  split
  · split
    · exact h.topic _ _
    · exact h.pure _
  split
  · split
    · exact h.pure _
    · exact h.updateUser _ _
  split
  · exact h.endburst source h.setupRecipient h.processGroups h.processMessages
  · exact h.pure _

theorem handleRemoteMessage {m : IrcMessage}
    (hpriv : ∀ source target msg, m = ⟨some source, .privmsg target msg⟩ →
      W (handlePrivmsg source target msg)) : W (handleRemoteMessage m) := by
  obtain ⟨prefixStr, command⟩ := m
  cases prefixStr with
  | none =>
      cases command with
      | error details => exact h.throw _
      | raw cmd args suffix => exact h.when (h.server args suffix)
      | _ => exact h.pure _
  | some source =>
      cases command with
      | privmsg target msg => exact hpriv source target msg rfl
      | error details => exact h.throw _
      | kill uuid reason => exact h.removeUser uuid true h.setupContact
      | quit reason => exact h.removeUser source true h.setupContact
      | ping data dest =>
          cases dest with
          | none => exact h.sendSidLine _ _ _ (by decide)
          | some dest => exact h.sendSidLine _ _ _ (by decide)
      | squit server reason => exact h.squit server
      | raw cmd args suffix => exact h.handleRaw source cmd args suffix
      | other params => exact h.pure _

theorem handleCfCommand (c : ContactFactoryCommand) : W (handleCfCommand c) := by
  cases c with
  | processMessages => exact h.processMessages
  | processGroups => exact h.processGroups
  | setupContact a => exact h.setupContact a
  | queryContact a src => exact h.queryContact a src
  | dropContact a => exact h.drop a
  | dropContactByNick nick => exact h.byNick nick (h.pure _) h.drop
  | loadRecipients => exact h.pure _
  | forwardCommand a cmd => exact h.forward a cmd
  | forwardCommandByNick nick cmd => exact h.byNick nick (h.pure _) fun a => h.forward a cmd
  | subscribePresenceByNick nick => exact h.byNick nick (h.pure _) h.subscribe
  | processAvatars => exact h.pure _

theorem handleCbCommand (c : ControlBotCommand)
    (hreport : ∀ fail, c = .reportFailure fail → W (handleCbCommand (.reportFailure fail))) :
    W (handleCbCommand c) := by
  cases c with
  | log line => exact h.getBind fun l => h.push _ _ _ _ (by decide)
  | reportFailure fail => exact hreport fail rfl
  | commandResponse resp => exact h.controlResponse resp
  | processGroups => exact h.processGroups

theorem of_next {s t : Session} {e : Event} (hnext : next s e = some t)
    (hpriv : ∀ source target msg, e = .remote ⟨some source, .privmsg target msg⟩ →
      W (handlePrivmsg source target msg))
    (hreport : ∀ fail, e = .cb (.reportFailure fail) →
      W (Link.handleCbCommand (.reportFailure fail)))
    (hstore : ∀ op, e ≠ .storeOp op) (hclock : ∀ now dbNow, e ≠ .clock now dbNow) :
    ∃ p : LinkM Unit, W p ∧ t = perform s p := by
  rw [next, outcome_of_next hnext] at hnext
  cases e with
  | connect =>
      simp only [step] at hnext
      split at hnext
      · exact ⟨_, h.connect, (Option.some.inj hnext).symm⟩
      · cases hnext
  | remote m =>
      simp only [step] at hnext
      split at hnext
      · cases hnext
      · refine ⟨_, h.handleRemoteMessage ?_, (Option.some.inj hnext).symm⟩
        rintro source target msg rfl
        exact hpriv source target msg rfl
  | cb c =>
      simp only [step] at hnext
      split at hnext
      · refine ⟨_, h.handleCbCommand c ?_, (Option.some.inj hnext).symm⟩
        rintro fail rfl
        exact hreport fail rfl
      · cases hnext
  | cf c =>
      simp only [step] at hnext
      split at hnext
      · exact ⟨_, h.handleCfCommand c, (Option.some.inj hnext).symm⟩
      · cases hnext
  | storeOp op => exact absurd rfl (hstore op)
  | clock now dbNow => exact absurd rfl (hclock now dbNow)

end Walk

/-- The pieces that commands of the admin are made of have the property too. -/
structure Commands (W : ∀ {α : Type}, LinkM α → Prop) : Prop extends Walk W where
  modem : ∀ c, W (mSend (toModem c))
  whatsapp : ∀ c, W (waSend (toWhatsapp c))
  group : ∀ c, W (waSend (groupToWhatsapp c))
  ghost : ∀ nick c, W (cfSend (ghostToFactory nick c))
  contact : ∀ c, W (cfSend (toQuery c))

namespace Commands

variable {W : ∀ {α : Type}, LinkM α → Prop} (h : Commands W)
include h

theorem processAdminCommand (mesg : Str) (hraw : AsksRaw mesg → ∀ m, W (send m)) :
    W (processAdminCommand mesg : LinkM Unit) := by
  unfold ControlCommands.processAdminCommand
  split
  · exact h.pure _
  split
  · exact h.throw _
  · exact h.controlResponse _
  rename_i ac hparse
  cases ac with
  | ghost nick gc => exact h.bind (h.ghost nick gc) fun _ => h.controlResponse _
  | modem mc => exact h.modem mc
  | whatsapp wac => exact h.whatsapp wac
  | group gc => exact h.group gc
  | contact cc => exact h.contact cc
  | insp ic =>
      refine h.bind (h.processInsp ic ?_) fun _ => h.when (h.controlResponse _)
      rintro line rfl
      exact hraw ⟨line, hparse⟩
  | help qry =>
      rw [executeAdminCommand]
      cases helpPage qry with
      | some hp => exact h.forM fun _ _ => h.controlResponse _
      | none => exact h.controlResponse _

theorem handlePrivmsg (source target msg : Str) (hraw : AsksRaw msg → ∀ m, W (send m))
    (hgroup : W (waSend (.sendGroupMessage target msg)))
    (hdirect : ∀ a, W (waSend (.sendDirectMessage a msg)))
    (hsms : ∀ a, W (mSend (.sendMessage a msg))) : W (handlePrivmsg source target msg) := by
  refine h.getBind fun l => ?_
  split
  · exact h.pure _
  split
  · exact h.processAdminCommand msg hraw
  split
  · exact hgroup
  split
  · exact h.pure _
  split
  · exact h.pure _
  split
  · exact hdirect _
  · exact hsms _

end Commands

end Walk

end SmsIrc.LinkWalk
