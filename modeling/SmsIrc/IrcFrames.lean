import SmsIrc.IrcS2c

/-!
Changes of a connection of an IRC client that its handlers do not notice: what has been read,
written and handed on before.
-/

namespace SmsIrc.IrcFrames

open SmsIrc.Comm SmsIrc.ControlCommands SmsIrc.Database SmsIrc.External SmsIrc.HashMaps
open SmsIrc.IrcS2c SmsIrc.Models SmsIrc.Outbox SmsIrc.Program SmsIrc.Registration
open SmsIrc.SenderCommon SmsIrc.Text SmsIrc.Util

/-- An outbox of which nothing has been written. -/
def unwritten {μ : Type} (o : Socket μ) : Socket μ := ⟨o.pushed, [], o.pushed⟩

theorem push_unwritten {μ : Type} (o : Socket μ) (m : μ) :
    push (unwritten o) m = unwritten (push o m) := rfl

theorem exec_sinkOutbox_writable {μ : Type} (o : Socket μ) : ∃ out,
    exec (sinkOutbox Wire.writable.startSend Wire.writable.complete) o = (.ok (), out) ∧
      out.pushed = o.pushed := by
  have hwp : wp (sinkOutbox Wire.writable.startSend Wire.writable.complete)
      (fun _ out => out.pushed = o.pushed) (fun _ _ => False) o := by
    unfold sinkOutbox
    rw [wp_bind, wp_get, wp_bind, wp_set, wp_bind]
    refine wp_mono (wp_forM (I := fun out : Socket μ => out.pushed = o.pushed)
      (E := fun _ _ => False) (fun x _ s hs => ?_) rfl) (fun _ s hs => ?_) fun _ _ he => he
    · exact hs
    · exact hs
  unfold wp at hwp
  rcases hexec : exec (sinkOutbox Wire.writable.startSend Wire.writable.complete) o
    with ⟨e | _, out⟩
  · rw [hexec] at hwp
    exact hwp.elim
  · rw [hexec] at hwp
    exact ⟨out, rfl, hwp⟩

theorem readAll_messages {σ : Type} (serve : ClientMessage → Prog Failure σ Unit)
    (batch : List ClientMessage) : readAll serve (batch.map .message) = forM batch serve := by
  unfold readAll
  induction batch with
  | nil => rfl
  | cons msg batch ih =>
      rw [List.map_cons, List.forM_cons, List.forM_cons, ih]

section Pending

/-- A change that the handlers of a pending connection do not notice. -/
structure PendingBlind (N : PendingIrcConnection → PendingIrcConnection) : Prop where
  caps : ∀ p, (N p).caps = p.caps
  new : ∀ p, (N p).new = p.new
  push : ∀ p m, { N p with outbox := push (N p).outbox m } =
    N { p with outbox := push p.outbox m }
  setCaps : ∀ p cs, { N p with caps := cs } = N { p with caps := cs }
  setNew : ∀ p b, { N p with new := b } = N { p with new := b }
  setNick : ∀ p n, { N p with nick := n } = N { p with nick := n }
  setUser : ∀ p u r, { N p with user := u, realname := r } = N { p with user := u, realname := r }
  setCapEnded : ∀ p b, { N p with capEnded := b } = N { p with capEnded := b }
  handled : ∀ p m, { N p with handled := (N p).handled ++ [m] } =
    N { p with handled := p.handled ++ [m] }

variable {N : PendingIrcConnection → PendingIrcConnection}

theorem PendingBlind.reply (h : PendingBlind N) (cmd : String) (args : List Str)
    (suffix : Option Str) : Ignores N (reply cmd args suffix) :=
  ignores_modify fun p => h.push p _

theorem PendingBlind.requestCap (h : PendingBlind N) (cap : Str) : Ignores N (requestCap cap) := by
  unfold Registration.requestCap
  cases IrcCap.fromCapName cap with
  | some c =>
      refine Ignores.bind (ignores_modify fun p => ?_) fun _ => h.reply _ _ _
      rw [h.caps, h.setCaps]
  | none => exact h.reply _ _ _

theorem PendingBlind.handleRemoteMessage (h : PendingBlind N) (msg : ClientMessage) :
    Ignores N (Registration.handleRemoteMessage msg) := by
  have hnot : Ignores N notRegistered := h.reply _ _ _
  have huser : ∀ u r, Ignores N (Registration.setUser u r) :=
    fun u r => ignores_modify fun p => h.setUser p _ _
  unfold Registration.handleRemoteMessage
  split
  · exact ignores_modify fun p => h.setNick p _
  · exact huser _ _
  · exact Ignores.bind (ignores_modify fun p => h.setCapEnded p _) fun _ => h.reply _ _ _
  · exact Ignores.forM fun cap _ => h.requestCap cap
  · exact Ignores.forM fun cap _ => h.requestCap cap
  · exact ignores_get_bind (fun p => by rw [h.caps]) fun _ => h.reply _ _ _
  · exact ignores_modify fun p => h.setCapEnded p _
  · exact ignores_pure _
  · exact ignores_throw _
  · split
    · exact huser _ _
    · exact hnot
  · exact hnot

theorem PendingBlind.serve (h : PendingBlind N) (msg : ClientMessage) :
    Ignores N (Registration.serve msg) :=
  Ignores.bind (ignores_modify fun p => h.handled p msg) fun _ => h.handleRemoteMessage msg

theorem PendingBlind.greet (h : PendingBlind N) : Ignores N greet := by
  refine ignores_get_bind (fun p => by rw [h.new]) fun p => Ignores.when ?_
  exact Ignores.bind (ignores_modify fun q => h.setNew q _) fun _ => h.reply _ _ _

theorem pendingBlind_sock (items : List Readable) :
    PendingBlind fun p => { p with sock := items } := by
  constructor <;> intros <;> rfl

/-- The connection with nothing written to its socket. -/
def heldPending (p : PendingIrcConnection) : PendingIrcConnection :=
  { p with outbox := unwritten p.outbox }

theorem pendingBlind_held : PendingBlind heldPending := by
  constructor <;> intros <;> rfl

end Pending

section Connections

variable [Crates]

/-- A change that the handlers of a connection do not notice. -/
structure ConnBlind (N : IrcConnection → IrcConnection) : Prop where
  reginfo : ∀ c, (N c).reginfo = c.reginfo
  addr : ∀ c, (N c).addr = c.addr
  new : ∀ c, (N c).new = c.new
  store : ∀ c, (N c).store = c.store
  groups : ∀ c, (N c).joinedGroups = c.joinedGroups
  push : ∀ c m, { N c with outbox := push (N c).outbox m } =
    N { c with outbox := push c.outbox m }
  waSend : ∀ c cmd, { N c with waOutbox := (N c).waOutbox ++ [cmd] } =
    N { c with waOutbox := c.waOutbox ++ [cmd] }
  mSend : ∀ c cmd, { N c with mOutbox := (N c).mOutbox ++ [cmd] } =
    N { c with mOutbox := c.mOutbox ++ [cmd] }
  cfSend : ∀ c cmd, { N c with cfOutbox := (N c).cfOutbox ++ [cmd] } =
    N { c with cfOutbox := c.cfOutbox ++ [cmd] }
  setReginfo : ∀ c r, { N c with reginfo := r } = N { c with reginfo := r }
  setNew : ∀ c b, { N c with new := b } = N { c with new := b }
  setStore : ∀ c st, { N c with store := st } = N { c with store := st }
  setGroups : ∀ c gs, { N c with joinedGroups := gs } = N { c with joinedGroups := gs }
  handled : ∀ c m, { N c with handled := (N c).handled ++ [m] } =
    N { c with handled := c.handled ++ [m] }

variable {N : IrcConnection → IrcConnection}

theorem ConnBlind.store_ignores (h : ConnBlind N) {α : Type} (p : StoreM α) :
    Ignores N (SenderCommon.store p : ConnM α) :=
  ignores_zoom p h.store fun c st => h.setStore c st

theorem ConnBlind.queueReply (h : ConnBlind N) (prefixStr : Str) (cmd : String)
    (args : List Str) (suffix : Option Str) : Ignores N (queueReply prefixStr cmd args suffix) :=
  ignores_modify fun c => h.push c _

theorem ConnBlind.replyS2c (h : ConnBlind N) (cmd : String) (args : List Str)
    (suffix : Option Str) : Ignores N (replyS2c cmd args suffix) :=
  ignores_get_bind (fun c => by rw [h.reginfo]) fun _ => h.queueReply _ _ _ _

theorem ConnBlind.replyFromUser (h : ConnBlind N) (cmd : String) (args : List Str)
    (suffix : Option Str) : Ignores N (replyFromUser cmd args suffix) :=
  ignores_get_bind (fun c => by rw [h.reginfo, h.addr]) fun _ => h.queueReply _ _ _ _

theorem ConnBlind.setupGroup (h : ConnBlind N) (grp : Group) : Ignores N (setupGroup grp) := by
  refine Ignores.bind (h.replyFromUser _ _ _) fun _ => ?_
  refine Ignores.bind (h.replyS2c _ _ _) fun _ => ?_
  refine ignores_get_bind (fun c => by rw [h.reginfo]) fun c => ?_
  refine Ignores.bind (h.replyS2c _ _ _) fun _ => ?_
  refine Ignores.bind (Ignores.mapM fun id _ => ?_) fun recips => ?_
  · refine Ignores.bind (h.store_ignores _) fun r => ?_
    cases r with
    | some recip => exact ignores_pure _
    | none => exact ignores_throw _
  · refine Ignores.bind (Ignores.forM fun rs _ => h.replyS2c _ _ _) fun _ => ?_
    refine Ignores.bind (h.replyS2c _ _ _) fun _ => ignores_modify fun c => ?_
    rw [h.groups, h.setGroups]

theorem ConnBlind.setupControlChannel (h : ConnBlind N) : Ignores N setupControlChannel := by
  refine Ignores.bind (h.replyFromUser _ _ _) fun _ => ?_
  refine Ignores.bind (h.replyS2c _ _ _) fun _ => ?_
  refine ignores_get_bind (fun c => by rw [h.reginfo]) fun c => ?_
  refine Ignores.bind (h.replyS2c _ _ _) fun _ => ?_
  refine Ignores.bind (h.store_ignores _) fun recips => ?_
  refine Ignores.bind (Ignores.forM fun rs _ => h.replyS2c _ _ _) fun _ => ?_
  exact Ignores.bind (h.replyS2c _ _ _) fun _ => h.replyS2c _ _ _

theorem ConnBlind.sendMotd (h : ConnBlind N) : Ignores N sendMotd :=
  Ignores.bind (h.replyS2c _ _ _) fun _ =>
    Ignores.bind (Ignores.forM fun _ _ => h.replyS2c _ _ _) fun _ => h.replyS2c _ _ _

theorem ConnBlind.onNew (h : ConnBlind N) : Ignores N IrcS2c.onNew := by
  refine Ignores.bind (h.replyS2c _ _ _) fun _ => Ignores.bind (h.replyS2c _ _ _) fun _ => ?_
  refine Ignores.bind (h.replyS2c _ _ _) fun _ => Ignores.bind (h.replyS2c _ _ _) fun _ => ?_
  refine Ignores.bind (h.replyS2c _ _ _) fun _ => Ignores.bind h.sendMotd fun _ => ?_
  refine Ignores.bind h.setupControlChannel fun _ => ?_
  exact Ignores.bind (h.store_ignores _) fun grps => Ignores.forM fun grp _ => h.setupGroup grp

theorem ConnBlind.welcome (h : ConnBlind N) : Ignores N welcome := by
  refine ignores_get_bind (fun c => by rw [h.new]) fun c => Ignores.when ?_
  exact Ignores.bind (ignores_modify fun d => h.setNew d _) fun _ => h.onNew

theorem ConnBlind.processAdminCommand (h : ConnBlind N) (msg : Str) :
    Ignores N (processAdminCommand msg : ConnM Unit) := by
  have hresponse : ∀ line, Ignores N (controlMessage line) := fun _ => h.queueReply _ _ _ _
  unfold ControlCommands.processAdminCommand
  split
  · exact ignores_pure _
  · split
    · exact ignores_throw _
    · exact hresponse _
    · rename_i ac _
      cases ac with
      | ghost nick gc =>
          exact Ignores.bind (ignores_modify fun c => h.cfSend c _) fun _ => hresponse _
      | contact cc => exact ignores_modify fun c => h.cfSend c _
      | whatsapp wac => exact ignores_modify fun c => h.waSend c _
      | modem mc => exact ignores_modify fun c => h.mSend c _
      | group gc => exact ignores_modify fun c => h.waSend c _
      | insp ic => exact Ignores.bind (ignores_pure false) fun _ => Ignores.when (hresponse _)
      | help qry =>
          rw [executeAdminCommand]
          cases Admin.helpPage qry with
          | some hp => exact Ignores.forM fun line _ => hresponse line
          | none => exact hresponse _

theorem ConnBlind.sendDirect (h : ConnBlind N) (target msg : Str) :
    Ignores N (sendDirect target msg) := by
  refine Ignores.bind (h.store_ignores _) fun r => ?_
  cases r with
  | none => exact h.replyS2c _ _ _
  | some recip =>
      refine Ignores.bind ?_ fun addr => ?_
      · unfold Recipient.getAddr Models.getAddr
        cases unNormalizeAddress recip.phoneNumber with
        | some a => exact ignores_pure a
        | none => exact ignores_throw _
      · split
        · exact ignores_modify fun c => h.waSend c _
        · exact ignores_modify fun c => h.mSend c _

theorem ConnBlind.handleRemoteMessage (h : ConnBlind N) (msg : ClientMessage) :
    Ignores N (IrcS2c.handleRemoteMessage msg) := by
  unfold IrcS2c.handleRemoteMessage
  split
  · exact h.replyS2c _ _ _
  · exact ignores_throw _
  · refine Ignores.bind (h.replyFromUser _ _ _) fun _ => ignores_modify fun c => ?_
    rw [h.reginfo, h.setReginfo]
  · exact ignores_pure _
  · exact h.replyS2c _ _ _
  · split
    · exact h.replyS2c _ _ _
    · exact h.replyS2c _ _ _
  · unfold handlePrivmsg
    split
    · exact h.processAdminCommand _
    · split
      · exact ignores_modify fun c => h.waSend c _
      · exact h.sendDirect _ _
  · exact h.replyS2c _ _ _

theorem ConnBlind.serve (h : ConnBlind N) (msg : ClientMessage) : Ignores N (IrcS2c.serve msg) :=
  Ignores.bind (ignores_modify fun c => h.handled c msg) fun _ => h.handleRemoteMessage msg

/-- The connection with nothing to read and nothing written to its socket, and with commands
that have been handed on before still in its queues. -/
def held (wa : List Comm.WhatsappCommand) (m : List Comm.ModemCommand) (c : IrcConnection) :
    IrcConnection :=
  { c with
    sock := []
    outbox := unwritten c.outbox
    waOutbox := wa ++ c.waOutbox
    mOutbox := m ++ c.mOutbox }

theorem connBlind_held (wa : List Comm.WhatsappCommand) (m : List Comm.ModemCommand) :
    ConnBlind (held wa m) := by
  constructor <;> intros <;> simp [held, push_unwritten]

/-- What handling a message leaves alone. -/
structure Touched (c d : IrcConnection) : Prop where
  sock : d.sock = c.sock
  addr : d.addr = c.addr
  now : d.now = c.now
  registered : d.registered = c.registered
  before : d.before = c.before
  handled : d.handled = c.handled
  new : d.new = c.new ∨ d.new = false

instance : IsPreorder IrcConnection Touched where
  refl _ := ⟨rfl, rfl, rfl, rfl, rfl, rfl, .inl rfl⟩
  trans _ _ _ hst htu :=
    ⟨htu.sock.trans hst.sock, htu.addr.trans hst.addr, htu.now.trans hst.now,
      htu.registered.trans hst.registered, htu.before.trans hst.before,
      htu.handled.trans hst.handled,
      htu.new.elim (fun h => hst.new.elim (fun h' => .inl (h.trans h')) fun h' => .inr (h.trans h'))
        .inr⟩

theorem touched_queueReply (prefixStr : Str) (cmd : String) (args : List Str)
    (suffix : Option Str) : Moves Touched (queueReply prefixStr cmd args suffix) :=
  steps_modify fun _ => ⟨rfl, rfl, rfl, rfl, rfl, rfl, .inl rfl⟩

theorem touched_replyS2c (cmd : String) (args : List Str) (suffix : Option Str) :
    Moves Touched (replyS2c cmd args suffix) :=
  Steps.bind steps_get fun _ => touched_queueReply _ _ _ _

theorem touched_replyFromUser (cmd : String) (args : List Str) (suffix : Option Str) :
    Moves Touched (replyFromUser cmd args suffix) :=
  Steps.bind steps_get fun _ => touched_queueReply _ _ _ _

theorem touched_store {α : Type} (p : StoreM α) :
    Moves Touched (SenderCommon.store p : ConnM α) := by
  refine Steps.zoom (S := fun _ _ => True) (fun st => ?_)
    fun _ _ _ => ⟨rfl, rfl, rfl, rfl, rfl, rfl, .inl rfl⟩
  exact wp_mono (wp_exec p st) (fun _ _ _ => trivial) fun _ _ _ => ⟨trivial, trivial⟩

theorem touched_waSend (cmd : Comm.WhatsappCommand) : Moves Touched (waSend cmd) :=
  steps_modify fun _ => ⟨rfl, rfl, rfl, rfl, rfl, rfl, .inl rfl⟩

theorem touched_mSend (cmd : Comm.ModemCommand) : Moves Touched (mSend cmd) :=
  steps_modify fun _ => ⟨rfl, rfl, rfl, rfl, rfl, rfl, .inl rfl⟩

theorem touched_cfSend (cmd : ContactFactoryCommand) : Moves Touched (cfSend cmd) :=
  steps_modify fun _ => ⟨rfl, rfl, rfl, rfl, rfl, rfl, .inl rfl⟩

theorem touched_setupGroup (grp : Group) : Moves Touched (setupGroup grp) := by
  refine Steps.bind (touched_replyFromUser _ _ _) fun _ => ?_
  refine Steps.bind (touched_replyS2c _ _ _) fun _ => Steps.bind steps_get fun c => ?_
  refine Steps.bind (touched_replyS2c _ _ _) fun _ => ?_
  refine Steps.bind (Steps.mapM fun id => ?_) fun recips => ?_
  · refine Steps.bind (touched_store _) fun r => ?_
    cases r with
    | some recip => exact steps_pure _
    | none => exact steps_throw trivial
  · refine Steps.bind (Steps.forM fun _ _ => touched_replyS2c _ _ _) fun _ => ?_
    refine Steps.bind (touched_replyS2c _ _ _) fun _ => ?_
    exact steps_modify fun _ => ⟨rfl, rfl, rfl, rfl, rfl, rfl, .inl rfl⟩

theorem touched_setupControlChannel : Moves Touched setupControlChannel := by
  refine Steps.bind (touched_replyFromUser _ _ _) fun _ => ?_
  refine Steps.bind (touched_replyS2c _ _ _) fun _ => Steps.bind steps_get fun c => ?_
  refine Steps.bind (touched_replyS2c _ _ _) fun _ => ?_
  refine Steps.bind (touched_store _) fun recips => ?_
  refine Steps.bind (Steps.forM fun _ _ => touched_replyS2c _ _ _) fun _ => ?_
  exact Steps.bind (touched_replyS2c _ _ _) fun _ => touched_replyS2c _ _ _

theorem touched_onNew : Moves Touched IrcS2c.onNew := by
  have hreply := touched_replyS2c
  refine Steps.bind (hreply _ _ _) fun _ => Steps.bind (hreply _ _ _) fun _ => ?_
  refine Steps.bind (hreply _ _ _) fun _ => Steps.bind (hreply _ _ _) fun _ => ?_
  refine Steps.bind (hreply _ _ _) fun _ => Steps.bind ?_ fun _ => ?_
  · exact Steps.bind (hreply _ _ _) fun _ =>
      Steps.bind (Steps.forM fun _ _ => hreply _ _ _) fun _ => hreply _ _ _
  · refine Steps.bind touched_setupControlChannel fun _ => ?_
    exact Steps.bind (touched_store _) fun grps => Steps.forM fun grp _ => touched_setupGroup grp

-- a lemma about it that is applied to a state would have the greeting evaluated
attribute [local irreducible] IrcS2c.onNew

theorem touched_welcome : Moves Touched welcome := by
  refine Steps.bind steps_get fun c => Steps.when ?_
  refine Steps.bind (steps_modify fun d => ?_) fun _ => touched_onNew
  exact ⟨rfl, rfl, rfl, rfl, rfl, rfl, .inr rfl⟩

theorem touched_processAdminCommand (msg : Str) :
    Moves Touched (ControlCommands.processAdminCommand msg : ConnM Unit) := by
  have hresponse : ∀ line, Moves Touched (controlMessage line) :=
    fun _ => touched_queueReply _ _ _ _
  unfold ControlCommands.processAdminCommand
  split
  · exact steps_pure _
  · split
    · exact steps_throw trivial
    · exact hresponse _
    · rename_i ac _
      cases ac with
      | ghost nick gc => exact Steps.bind (touched_cfSend _) fun _ => hresponse _
      | contact cc => exact touched_cfSend _
      | whatsapp wac => exact touched_waSend _
      | modem mc => exact touched_mSend _
      | group gc => exact touched_waSend _
      | insp ic => exact Steps.bind (steps_pure false) fun _ => Steps.when (hresponse _)
      | help qry =>
          rw [executeAdminCommand]
          cases Admin.helpPage qry with
          | some hp => exact Steps.forM fun line _ => hresponse line
          | none => exact hresponse _

theorem touched_sendDirect (target msg : Str) : Moves Touched (sendDirect target msg) := by
  refine Steps.bind (touched_store _) fun r => ?_
  cases r with
  | none => exact touched_replyS2c _ _ _
  | some recip =>
      refine Steps.bind ?_ fun addr => ?_
      · exact steps_getAddr (fun _ => trivial) _
      · split
        · exact touched_waSend _
        · exact touched_mSend _

theorem touched_handleRemoteMessage (msg : ClientMessage) :
    Moves Touched (IrcS2c.handleRemoteMessage msg) := by
  unfold IrcS2c.handleRemoteMessage
  split
  · exact touched_replyS2c _ _ _
  · exact steps_throw trivial
  · exact Steps.bind (touched_replyFromUser _ _ _) fun _ =>
      steps_modify fun _ => ⟨rfl, rfl, rfl, rfl, rfl, rfl, .inl rfl⟩
  · exact steps_pure _
  · exact touched_replyS2c _ _ _
  · split
    · exact touched_replyS2c _ _ _
    · exact touched_replyS2c _ _ _
  · unfold handlePrivmsg
    split
    · exact touched_processAdminCommand _
    · split
      · exact touched_waSend _
      · exact touched_sendDirect _ _
  · exact touched_replyS2c _ _ _

/-- The messages of a batch are served in turn, up to one that ends the connection. -/
theorem wp_serveAll (batch : List ClientMessage) (c : IrcConnection) :
    wp (forM batch IrcS2c.serve)
      (fun _ d => Touched { c with handled := c.handled ++ batch } d)
      (fun _ d => ∃ done, done <+: batch ∧ Touched { c with handled := c.handled ++ done } d)
      c := by
  refine wp_forM_prefix (fun done d => Touched { c with handled := c.handled ++ done } d) ?_ ?_
  · intro done msg rest hbatch d hd
    have hnext : Touched { c with handled := c.handled ++ (done ++ [msg]) }
        { d with handled := d.handled ++ [msg] } := by
      refine ⟨hd.sock, hd.addr, hd.now, hd.registered, hd.before, ?_, hd.new⟩
      change d.handled ++ [msg] = c.handled ++ (done ++ [msg])
      rw [hd.handled, List.append_assoc]
    rw [IrcS2c.serve, wp_bind, wp_modify]
    apply wp_mono ((touched_handleRemoteMessage msg).after hnext) (fun _ _ h => h)
    intro _ _ h
    exact ⟨done ++ [msg], ⟨rest, by simp [hbatch]⟩, h.1⟩
  · have hsame : { c with handled := c.handled ++ [] } = c := by rw [List.append_nil]
    rw [hsame]
    exact Std.Refl.refl (r := Touched) c

/-- A client is served: it is welcomed, if it has not been, and its messages are handled. -/
def serveClient (batch : List ClientMessage) : ConnM Unit := do
  welcome
  forM batch IrcS2c.serve

theorem wp_welcome_new (c : IrcConnection) :
    wp welcome (fun _ d => d.new = false) (fun _ _ => True) c := by
  rw [welcome, wp_bind, wp_get, wp_when]
  split
  · rw [wp_bind, wp_modify]
    exact wp_mono (touched_onNew _) (fun _ _ hd => hd.new.elim id id) fun _ _ _ => trivial
  · rename_i hnew
    exact Bool.eq_false_of_not_eq_true hnew

theorem held_outbox (wa : List Comm.WhatsappCommand) (m : List Comm.ModemCommand)
    {c : IrcConnection} {out : Socket IrcMessage} (h : out.pushed = c.outbox.pushed) :
    held wa m { c with outbox := out } = held wa m c := by
  unfold held unwritten
  rw [h]

/-- Polling a connection serves its client, whatever has been written and handed on before. -/
theorem exec_pollConn (wa : List Comm.WhatsappCommand) (m : List Comm.ModemCommand)
    {c : IrcConnection} {batch : List ClientMessage} (hsock : c.sock = batch.map .message) :
    ∃ d, exec (pollConn .writable) c = ((exec (serveClient batch) (held wa m c)).1, d) ∧
      held wa m d = (exec (serveClient batch) (held wa m c)).2 ∧ d.addr = c.addr ∧ d.now = c.now ∧
      ((exec (serveClient batch) (held wa m c)).1 = .ok () → d.sock = [] ∧ d.new = false) := by
  have hblind := connBlind_held wa m
  rw [serveClient, exec_bind, hblind.welcome c, pollConn, exec_bind]
  have htouched := touched_welcome.exec c
  have hnew := wp_welcome_new c
  unfold wp at hnew
  rcases hwelcome : exec welcome c with ⟨e | _, c₁⟩
  · rw [hwelcome] at htouched
    exact ⟨c₁, rfl, rfl, htouched.addr, htouched.now, fun h => by cases h⟩
  rw [hwelcome] at htouched hnew
  have hread : exec IrcS2c.readSock c₁ = exec (forM batch IrcS2c.serve) { c₁ with sock := [] } := by
    rw [IrcS2c.readSock, exec_bind, exec_get]
    dsimp only
    rw [exec_bind, exec_set, htouched.sock, hsock, readAll_messages]
  have hserve : exec (forM batch IrcS2c.serve) (held wa m c₁) = _ :=
    (Ignores.forM fun msg _ => hblind.serve msg) { c₁ with sock := [] }
  have htouched' := wp_serveAll batch { c₁ with sock := [] }
  unfold wp at htouched'
  dsimp only
  rw [exec_bind, hread, hserve]
  rcases hrest : exec (forM batch IrcS2c.serve) { c₁ with sock := [] } with ⟨e | _, c₂⟩
  · rw [hrest] at htouched'
    obtain ⟨done, -, htouched'⟩ := htouched'
    exact ⟨c₂, rfl, rfl, htouched'.addr.trans htouched.addr, htouched'.now.trans htouched.now,
      fun h => by cases h⟩
  · rw [hrest] at htouched'
    obtain ⟨out, hout, hpushed⟩ := exec_sinkOutbox_writable c₂.outbox
    refine ⟨{ c₂ with outbox := out }, ?_, held_outbox wa m hpushed,
      htouched'.addr.trans htouched.addr, htouched'.now.trans htouched.now, fun _ => ?_⟩
    · dsimp only
      rw [exec_sinkInto, hout]
    · exact ⟨htouched'.sock, htouched'.new.elim (fun h => h.trans hnew) id⟩

end Connections

section Servers

variable [Crates]

theorem exec_onConnection_ok {s : IrcServer} {c d : IrcConnection} {p : ConnM Unit}
    (h : exec p { c with store := s.store, now := s.now } = (.ok (), d)) :
    exec (onConnection c p) s = (.ok (.ok (), d), { s with store := d.store }) := by
  rw [onConnection, exec_bind, exec_get]
  dsimp only
  rw [h]
  rfl

theorem exec_onConnection_error {s : IrcServer} {c d : IrcConnection} {p : ConnM Unit}
    {e : Failure} (h : exec p { c with store := s.store, now := s.now } = (.error e, d))
    (he : ∀ site, e ≠ .panic site) :
    exec (onConnection c p) s = (.ok (.error e, d), { s with store := d.store }) := by
  rw [onConnection, exec_bind, exec_get]
  dsimp only
  rw [h]
  cases e with
  | panic site => exact absurd rfl (he site)
  | _ => rfl

theorem exec_onConnection_panic {s : IrcServer} {c d : IrcConnection} {p : ConnM Unit}
    {site : PanicSite}
    (h : exec p { c with store := s.store, now := s.now } = (.error (.panic site), d)) :
    exec (onConnection c p) s =
      (.error (.panic site), { s with store := d.store, closed := s.closed ++ [d] }) := by
  rw [onConnection, exec_bind, exec_get]
  dsimp only
  rw [h]
  rfl

/-- A connection whose commands have been handed on. -/
def drained (c : IrcConnection) : IrcConnection := { c with waOutbox := [], mOutbox := [] }

section OneConnection

variable {w : Wire} {s : IrcServer} {c d : IrcConnection}

theorem exec_pollConnection_ok
    (h : exec (pollConn w) { c with store := s.store, now := s.now } = (.ok (), d)) :
    exec (pollConnection w c) s = (.ok (some (drained d)), { s with
      store := d.store
      waTx := s.waTx ++ d.waOutbox
      mTx := s.mTx ++ d.mOutbox }) := by
  simp only [pollConnection, exec_bind, exec_onConnection_ok h, exec_pure, exec_modify]
  rfl

theorem exec_pollConnection_error {e : Failure}
    (h : exec (pollConn w) { c with store := s.store, now := s.now } = (.error e, d))
    (he : ∀ site, e ≠ .panic site) :
    exec (pollConnection w c) s = (.ok none, { s with
      store := d.store
      closed := s.closed ++ [drained d]
      waTx := s.waTx ++ d.waOutbox
      mTx := s.mTx ++ d.mOutbox }) := by
  simp only [pollConnection, exec_bind, exec_onConnection_error h he, exec_pure, exec_modify]
  rfl

theorem exec_pollConnection_panic {site : PanicSite}
    (h : exec (pollConn w) { c with store := s.store, now := s.now } = (.error (.panic site), d)) :
    exec (pollConnection w c) s =
      (.error (.panic site), { s with store := d.store, closed := s.closed ++ [d] }) := by
  simp only [pollConnection, exec_bind, exec_onConnection_panic h]

end OneConnection

/-- Polling a connection that has nothing to read writes its outbox to the socket. -/
theorem exec_pollConn_quiet (w : Wire) {c : IrcConnection} (hsock : c.sock = [])
    (hnew : c.new = false) : exec (pollConn w) c =
      exec (sinkInto IrcConnection.outbox (fun c out => { c with outbox := out }) w) c := by
  have hwelcome : exec welcome c = (.ok (), c) := by
    rw [welcome, exec_bind, exec_get]
    simp only [hnew, Program.when, Bool.false_eq_true, if_false, exec_pure]
  have hread : exec IrcS2c.readSock c = (.ok (), c) := by
    have hsame : { c with sock := [] } = c := by rw [← hsock]
    rw [IrcS2c.readSock, exec_bind, exec_get]
    dsimp only
    rw [exec_bind, exec_set, hsame, hsock]
    rfl
  rw [pollConn, exec_bind_ok hwelcome, exec_bind_ok hread]

theorem exec_acceptAll_quiet {s : IrcServer} (hincoming : s.incoming = []) :
    exec acceptAll s = (.ok (), s) := by
  have hsame : { s with incoming := [] } = s := by rw [← hincoming]
  rw [acceptAll, exec_bind, exec_get]
  dsimp only
  rw [exec_bind, exec_set, hsame, hincoming]
  rfl

theorem exec_receive_quiet {s : IrcServer} (hcb : s.cbRx = []) (hcf : s.cfRx = []) :
    exec IrcS2c.receive s = (.ok (), s) := by
  have hsame : { s with cbRx := [], cfRx := [] } = s := by rw [← hcb, ← hcf]
  rw [IrcS2c.receive, exec_bind, exec_get]
  dsimp only
  rw [exec_bind, exec_set, hsame, hcb, hcf]
  rfl

theorem exec_poll_quiet (wire : SocketAddr → Wire) {s : IrcServer} (hincoming : s.incoming = [])
    (hpending : s.pending = []) (hcb : s.cbRx = []) (hcf : s.cfRx = []) :
    exec (IrcS2c.poll wire) s = exec (pollConnections wire) s := by
  have hpendings : exec (pollPendings wire) s = (.ok (), s) := by
    have hsame : { s with pending := [] } = s := by rw [← hpending]
    rw [pollPendings, exec_bind, exec_get]
    dsimp only
    rw [hpending]
    exact congrArg (Prod.mk _) hsame
  rw [IrcS2c.poll, exec_bind_ok (exec_acceptAll_quiet hincoming), exec_bind_ok hpendings,
    exec_bind_ok (exec_receive_quiet hcb hcf)]

theorem exec_pollConnections_single (wire : SocketAddr → Wire) {s t : IrcServer}
    {c : IrcConnection} {kept : Option IrcConnection} (hc : s.connections = [c])
    (h : exec (pollConnection (wire c.addr) c) s = (.ok kept, t)) :
    exec (pollConnections wire) s = (.ok (), { t with connections := kept.toList }) := by
  rw [pollConnections, exec_bind, exec_get]
  dsimp only
  rw [hc, List.mapM_cons, List.mapM_nil]
  simp only [exec_bind, h, exec_pure, exec_modify]
  cases kept with
  | none => rfl
  | some d => rfl

end Servers

end SmsIrc.IrcFrames
