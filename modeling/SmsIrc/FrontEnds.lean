import SmsIrc.ControlBot
import SmsIrc.IrcFrames
import SmsIrc.LinkRuns

/-!
The three front ends that take admin commands, and where the commands go from each.
-/

namespace SmsIrc.FrontEnds

open SmsIrc.Admin SmsIrc.Comm SmsIrc.ControlBot SmsIrc.ControlCommands SmsIrc.Database
open SmsIrc.External SmsIrc.IrcFrames SmsIrc.IrcS2c SmsIrc.Link SmsIrc.LinkRuns SmsIrc.Outbox
open SmsIrc.Program SmsIrc.Registration SmsIrc.SenderCommon SmsIrc.Text SmsIrc.Util

section Orders

variable [Crates]

/-- Commands for the modem manager, for the WhatsApp manager and for the contact factory. -/
@[ext]
structure Orders where
  modem : List Comm.ModemCommand
  whatsapp : List Comm.WhatsappCommand
  factory : List ContactFactoryCommand

def Orders.none : Orders := ⟨[], [], []⟩

def Orders.append (a b : Orders) : Orders :=
  ⟨a.modem ++ b.modem, a.whatsapp ++ b.whatsapp, a.factory ++ b.factory⟩

/-- What has been added. -/
def Orders.since (before after : Orders) : Orders :=
  ⟨after.modem.drop before.modem.length, after.whatsapp.drop before.whatsapp.length,
    after.factory.drop before.factory.length⟩

@[simp] theorem Orders.append_none (a : Orders) : a.append .none = a := by
  simp [Orders.append, Orders.none]

@[simp] theorem Orders.since_append (a b : Orders) : a.since (a.append b) = b := by
  simp [Orders.since, Orders.append]

@[simp] theorem Orders.since_self (a : Orders) : a.since a = .none := by
  simp [Orders.since, Orders.none]

/-- The commands that a command of the admin stands for. -/
def ordersOf : AdminCommand → Orders
  | .ghost nick gc => ⟨[], [], [ghostToFactory nick gc]⟩
  | .contact cc => ⟨[], [], [toQuery cc]⟩
  | .whatsapp wac => ⟨[], [toWhatsapp wac], []⟩
  | .modem mc => ⟨[toModem mc], [], []⟩
  | .group gc => ⟨[], [groupToWhatsapp gc], []⟩
  | .insp _ => .none
  | .help _ => .none

/-- The commands go to the ends of the lists that `view` gives; answers to the admin go
nowhere near them, and fail only with a `P`. -/
structure Collects {σ : Type} [ControlCommon σ] (view : σ → Orders) (P : Failure → Prop) :
    Prop where
  modem : ∀ c s, wp (ControlCommon.mSend c)
    (fun _ t => view t = (view s).append ⟨[c], [], []⟩) (fun _ _ => False) s
  whatsapp : ∀ c s, wp (ControlCommon.waSend c)
    (fun _ t => view t = (view s).append ⟨[], [c], []⟩) (fun _ _ => False) s
  factory : ∀ c s, wp (ControlCommon.cfSend c)
    (fun _ t => view t = (view s).append ⟨[], [], [c]⟩) (fun _ _ => False) s
  response : ∀ msg s, wp (ControlCommon.controlResponse msg)
    (fun _ t => view t = view s) (fun e t => view t = view s ∧ P e) s

/-- A line that is neither for `INSP` nor for `HELP`, and what it is parsed to. -/
structure Stands (msg : Str) (ac : AdminCommand) : Prop where
  parsed : AdminCommand.parse (splitOn ' ' msg) = .ok (some ac)
  not_insp : ∀ ic, ac ≠ .insp ic
  not_help : ∀ qry, ac ≠ .help qry

/-- A single word is a command only if it asks for help. -/
theorem parse_word {cmd : Str} {ac : AdminCommand}
    (h : AdminCommand.parse [cmd] = .ok (some ac)) : ac = .help none := by
  simp only [AdminCommand.parse, ContactCommand.parse, WhatsappCommand.parse, GroupCommand.parse,
    Admin.ModemCommand.parse, InspCommand.parse, Option.map_none] at h
  repeat' split at h
  all_goals cases h
  rfl

theorem Stands.ne_nil {msg : Str} {ac : AdminCommand} (h : Stands msg ac) : msg ≠ [] := by
  rintro rfl
  exact h.not_help none (parse_word h.parsed)

section Collects

variable {σ : Type} [ControlCommon σ] {view : σ → Orders} {P : Failure → Prop}

theorem Collects.execute (h : Collects view P) {msg : Str} {ac : AdminCommand}
    (hmsg : Stands msg ac) (s : σ) :
    wp (executeAdminCommand ac) (fun _ t => view t = (view s).append (ordersOf ac))
      (fun e t => view t = (view s).append (ordersOf ac) ∧ P e) s := by
  cases ac with
  | ghost nick gc =>
      rw [executeAdminCommand, wp_bind]
      refine wp_mono (h.factory _ s) (fun _ t ht => ?_) fun _ _ he => he.elim
      exact wp_mono (h.response _ t) (fun _ _ hu => hu.trans ht) fun _ _ hu => ⟨hu.1.trans ht, hu.2⟩
  | contact cc => exact wp_mono (h.factory _ s) (fun _ _ ht => ht) fun _ _ he => he.elim
  | whatsapp wac => exact wp_mono (h.whatsapp _ s) (fun _ _ ht => ht) fun _ _ he => he.elim
  | modem mc => exact wp_mono (h.modem _ s) (fun _ _ ht => ht) fun _ _ he => he.elim
  | group gc => exact wp_mono (h.whatsapp _ s) (fun _ _ ht => ht) fun _ _ he => he.elim
  | insp ic => exact absurd rfl (hmsg.not_insp ic)
  | help qry => exact absurd rfl (hmsg.not_help qry)

theorem Collects.processAdminCommand (h : Collects view P) {msg : Str} {ac : AdminCommand}
    (hmsg : Stands msg ac) (s : σ) :
    wp (processAdminCommand msg) (fun _ t => view t = (view s).append (ordersOf ac))
      (fun e t => view t = (view s).append (ordersOf ac) ∧ P e) s := by
  unfold ControlCommands.processAdminCommand
  rw [if_neg hmsg.ne_nil, hmsg.parsed]
  exact h.execute hmsg s

theorem Collects.exec_processAdminCommand (h : Collects view P) {msg : Str} {ac : AdminCommand}
    (hmsg : Stands msg ac) (s : σ) :
    view (exec (ControlCommands.processAdminCommand msg) s).2 =
      (view s).append (ordersOf ac) := by
  have hrun := h.processAdminCommand hmsg s
  unfold wp at hrun
  rcases hp : exec (ControlCommands.processAdminCommand msg) s with ⟨e | _, t⟩
  · rw [hp] at hrun
    exact hrun.1
  · rw [hp] at hrun
    exact hrun

/-- What sending and answering leave alone is left alone by the whole command. -/
theorem Stands.steps {R : σ → σ → Prop} [IsPreorder σ R] {msg : Str} {ac : AdminCommand}
    (hmsg : Stands msg ac) (hmodem : ∀ c, Steps R P (ControlCommon.mSend c : Prog Failure σ Unit))
    (hwhatsapp : ∀ c, Steps R P (ControlCommon.waSend c : Prog Failure σ Unit))
    (hfactory : ∀ c, Steps R P (ControlCommon.cfSend c : Prog Failure σ Unit))
    (hresponse : ∀ msg, Steps R P (ControlCommon.controlResponse msg : Prog Failure σ Unit)) :
    Steps R P (ControlCommands.processAdminCommand msg : Prog Failure σ Unit) := by
  unfold ControlCommands.processAdminCommand
  rw [if_neg hmsg.ne_nil, hmsg.parsed]
  dsimp only
  cases ac with
  | ghost nick gc => exact Steps.bind (hfactory _) fun _ => hresponse _
  | contact cc => exact hfactory _
  | whatsapp wac => exact hwhatsapp _
  | modem mc => exact hmodem _
  | group gc => exact hwhatsapp _
  | insp ic => exact absurd rfl (hmsg.not_insp ic)
  | help qry => exact absurd rfl (hmsg.not_help qry)

end Collects

/-- The channels of the control bot, which the managers and the contact factory read. -/
def botOrders (b : Bot) : Orders := ⟨b.mTx, b.waTx, b.cfTx⟩

/-- The channels of a link. The last one ends in its own `cf_rx`, from which `poll` hands the
commands to `handle_cf_command`. -/
def linkOrders (l : InspLink) : Orders := ⟨l.mTx, l.waTx, l.cfTx⟩

/-- The queues of a connection, which nobody reads but `IrcServer::poll`. -/
def connOrders (c : IrcConnection) : Orders := ⟨c.mOutbox, c.waOutbox, c.cfOutbox⟩

/-- The channels of the control bot are as they were. -/
def SameOrders (b b' : Bot) : Prop := botOrders b' = botOrders b

instance : IsPreorder Bot SameOrders where
  refl _ := rfl
  trans _ _ _ hst htu := Eq.trans htu hst

theorem moves_call {R : Bot → Bot → Prop} (hR : ∀ b n xs, R b { b with calls := n, sent := xs })
    (c : ClientCall) : Moves R (call c) := by
  refine steps_get_bind fun b => ?_
  rw [wp_bind, wp_set]
  cases b.refuses b.calls with
  | some e => exact ⟨hR b _ b.sent, trivial⟩
  | none => exact hR b _ _

theorem sameOrders_call (c : ClientCall) : Moves SameOrders (call c) :=
  moves_call (fun _ _ _ => rfl) c

theorem sameOrders_controlResponse (msg : Str) :
    Moves SameOrders (ControlBot.controlResponse msg) :=
  Steps.bind steps_get fun _ => sameOrders_call _

theorem botCollects : Collects botOrders fun _ => True where
  modem _ b := by simp [botOrders, Orders.append, ControlCommon.mSend, ControlBot.mSend]
  whatsapp _ b := by simp [botOrders, Orders.append, ControlCommon.waSend, ControlBot.waSend]
  factory _ b := by simp [botOrders, Orders.append, ControlCommon.cfSend, ControlBot.cfSend]
  response msg b := sameOrders_controlResponse msg b

theorem linkCollects : Collects linkOrders fun _ => False where
  modem _ l := by simp [linkOrders, Orders.append, ControlCommon.mSend, Link.mSend]
  whatsapp _ l := by simp [linkOrders, Orders.append, ControlCommon.waSend, Link.waSend]
  factory _ l := by simp [linkOrders, Orders.append, ControlCommon.cfSend, Link.cfSend]
  response msg l := by
    change wp (Link.controlResponse msg) _ _ l
    rw [Link.controlResponse, wp_bind, wp_get]
    cases adminUuid l with
    | some admu => rfl
    | none => rfl

theorem connCollects : Collects connOrders fun _ => False where
  modem _ c := by simp [connOrders, Orders.append, ControlCommon.mSend, IrcS2c.mSend]
  whatsapp _ c := by simp [connOrders, Orders.append, ControlCommon.waSend, IrcS2c.waSend]
  factory _ c := by simp [connOrders, Orders.append, ControlCommon.cfSend, IrcS2c.cfSend]
  response _ c := rfl

/-- What a line makes the control bot send until it has been polled again. -/
def botReach (msg : Str) (driver : Except Str Unit) (b : Bot) : Orders :=
  (botOrders b).since (botOrders (exec (do
    ControlCommands.processAdminCommand msg
    ControlBot.poll driver) b).2)

/-- What a line makes a link send. -/
def linkReach (msg : Str) (l : InspLink) : Orders :=
  (linkOrders l).since (linkOrders (exec (ControlCommands.processAdminCommand msg) l).2)

/-- The server when its clients have sent a line. -/
def ordered (msg : Str) (s : IrcServer) : IrcServer :=
  (exec (eachConnection (ControlCommands.processAdminCommand msg)) s).2

/-- The server when it has been polled then. -/
def carriedOut (msg : Str) (wire : SocketAddr → Wire) (s : IrcServer) : IrcServer :=
  (exec (IrcS2c.poll wire) (ordered msg s)).2

/-- What a line makes the server send until it has been polled, and what it then hands to
`handle_contact`. -/
def serverReach (msg : Str) (wire : SocketAddr → Wire) (s : IrcServer) : Orders :=
  ⟨(carriedOut msg wire s).mTx.drop s.mTx.length, (carriedOut msg wire s).waTx.drop s.waTx.length,
    (ordered msg s).cfRx⟩

/-- One client is connected, and everything has been read and handed on. -/
structure Idle (s : IrcServer) (c : IrcConnection) : Prop where
  connections : s.connections = [c]
  incoming : s.incoming = []
  pending : s.pending = []
  cbRx : s.cbRx = []
  cfRx : s.cfRx = []
  sock : c.sock = []
  new : c.new = false
  modem : c.mOutbox = []
  whatsapp : c.waOutbox = []

/-- Nothing more can be read from the stream of the control bot. -/
def SameStream (b b' : Bot) : Prop := b'.stream = b.stream

instance : IsPreorder Bot SameStream where
  refl _ := rfl
  trans _ _ _ hst htu := Eq.trans htu hst

theorem sameStream_processAdminCommand {msg : Str} {ac : AdminCommand} (hmsg : Stands msg ac) :
    Moves SameStream (ControlCommands.processAdminCommand msg : BotM Unit) :=
  hmsg.steps (fun _ => steps_modify fun _ => rfl) (fun _ => steps_modify fun _ => rfl)
    (fun _ => steps_modify fun _ => rfl)
    fun _ => Steps.bind steps_get fun _ => moves_call (fun _ _ _ => rfl) _

theorem sameOrders_processGroups : Moves SameOrders ControlBot.processGroups := by
  refine Steps.bind (Steps.zoom (S := fun _ _ => True) (fun _ => ?_) fun _ _ _ => rfl)
    fun grps => ?_
  · exact wp_query_of ⟨trivial, trivial⟩ trivial
  refine Steps.bind (Steps.forM fun _ _ => sameOrders_call _) fun _ => ?_
  refine steps_get_bind fun b => ?_
  rw [wp_bind, wp_set]
  exact (Steps.forM fun _ _ => Steps.when (sameOrders_call _)).after (rfl : SameOrders b _)

theorem sameOrders_handleIntRx (m : ControlBotCommand) : Moves SameOrders (handleIntRx m) := by
  cases m with
  | log log =>
      refine steps_get_bind fun b => ?_
      split
      · exact sameOrders_call _ b
      · exact (rfl : SameOrders b _)
  | reportFailure err => exact Steps.bind steps_get fun _ => sameOrders_call _
  | commandResponse resp => exact sameOrders_controlResponse resp
  | processGroups => exact sameOrders_processGroups

theorem sameOrders_identify : Moves SameOrders identify := by
  refine Steps.bind steps_get fun b => Steps.when (Steps.bind ?_ fun _ => ?_)
  · cases b.webircPassword with
    | some pw => exact sameOrders_call _
    | none => exact steps_pure _
  · exact Steps.bind (sameOrders_call _) fun _ => steps_modify fun _ => rfl

theorem sameOrders_poll (driver : Except Str Unit) {b : Bot} (hb : b.stream = []) :
    SameOrders b (exec (ControlBot.poll driver) b).2 := by
  have hidentify : Moves SameStream identify := by
    have hcall : ∀ c, Moves SameStream (call c) := moves_call fun _ _ _ => rfl
    refine Steps.bind steps_get fun b => Steps.when (Steps.bind ?_ fun _ => ?_)
    · cases b.webircPassword with
      | some pw => exact hcall _
      | none => exact steps_pure _
    · exact Steps.bind (hcall _) fun _ => steps_modify fun _ => rfl
  have hreceive : Moves SameOrders ControlBot.receive := by
    refine steps_get_bind fun b => ?_
    rw [wp_bind, wp_set]
    exact (Steps.forM fun m _ => sameOrders_handleIntRx m).after (rfl : SameOrders b _)
  have hpoll : wp (ControlBot.poll driver) (fun _ t => SameOrders b t)
      (fun _ t => SameOrders b t) b := by
    rw [ControlBot.poll, wp_bind]
    refine wp_mono (wp_and (sameOrders_identify b) (hidentify b)) ?_ fun _ _ he => he.1.1
    rintro _ t ⟨horders, hstream⟩
    rw [wp_bind]
    cases driver with
    | error e => exact horders
    | ok _ =>
        change wp (do readStream; ControlBot.receive) _ _ t
        rw [wp_bind, readStream, wp_bind, wp_get, wp_bind, wp_set,
          show t.stream = [] from hstream.trans hb]
        change wp ControlBot.receive _ _ { t with stream := [] }
        exact wp_mono (hreceive.after (horders : SameOrders b { t with stream := [] }))
          (fun _ _ hu => hu) fun _ _ hu => hu.1
  unfold wp at hpoll
  rcases hp : exec (ControlBot.poll driver) b with ⟨e | _, t⟩
  all_goals
    rw [hp] at hpoll
    exact hpoll

theorem botReach_eq {msg : Str} {ac : AdminCommand} (hmsg : Stands msg ac)
    (driver : Except Str Unit) {b : Bot} (hb : b.stream = []) :
    botReach msg driver b = ordersOf ac := by
  have horders := botCollects.exec_processAdminCommand hmsg b
  have hstream : (exec (ControlCommands.processAdminCommand msg) b).2.stream = [] :=
    ((sameStream_processAdminCommand hmsg).exec b).trans hb
  rw [botReach, exec_bind]
  rcases hp : exec (ControlCommands.processAdminCommand msg : BotM Unit) b with ⟨e | _, t⟩
  · rw [hp] at horders
    rw [horders, Orders.since_append]
  · rw [hp] at horders hstream
    have hpoll := sameOrders_poll driver hstream
    rw [SameOrders, horders] at hpoll
    exact (congrArg (botOrders b).since hpoll).trans (Orders.since_append _ _)

theorem linkReach_eq {msg : Str} {ac : AdminCommand} (hmsg : Stands msg ac) (l : InspLink) :
    linkReach msg l = ordersOf ac := by
  rw [linkReach, linkCollects.exec_processAdminCommand hmsg, Orders.since_append]

/-- What taking down a line leaves alone. -/
def SameSocket (c d : IrcConnection) : Prop := d.sock = c.sock ∧ d.new = c.new

instance : IsPreorder IrcConnection SameSocket where
  refl _ := ⟨rfl, rfl⟩
  trans _ _ _ hst htu := ⟨htu.1.trans hst.1, htu.2.trans hst.2⟩

theorem sameSocket_processAdminCommand {msg : Str} {ac : AdminCommand} (hmsg : Stands msg ac) :
    Steps SameSocket (fun _ => False) (ControlCommands.processAdminCommand msg : ConnM Unit) :=
  hmsg.steps (fun _ => steps_modify fun _ => ⟨rfl, rfl⟩) (fun _ => steps_modify fun _ => ⟨rfl, rfl⟩)
    (fun _ => steps_modify fun _ => ⟨rfl, rfl⟩) fun _ => steps_modify fun _ => ⟨rfl, rfl⟩

theorem ordered_eq {msg : Str} {ac : AdminCommand} (hmsg : Stands msg ac) {s : IrcServer}
    {c : IrcConnection} (hs : Idle s c) :
    ∃ d : IrcConnection, connOrders d = (connOrders c).append (ordersOf ac) ∧ SameSocket c d ∧
      ordered msg s = { s with store := d.store, connections := [d] } := by
  have hrun := wp_and
    (connCollects.processAdminCommand hmsg { c with store := s.store, now := s.now })
    (sameSocket_processAdminCommand hmsg { c with store := s.store, now := s.now })
  unfold wp at hrun
  rcases hp : exec (ControlCommands.processAdminCommand msg)
    { c with store := s.store, now := s.now } with ⟨e | _, d⟩
  · rw [hp] at hrun
    exact hrun.1.2.elim
  · rw [hp] at hrun
    refine ⟨d, hrun.1, hrun.2, ?_⟩
    rw [ordered, eachConnection, exec_bind, exec_get]
    dsimp only
    rw [hs.connections, List.mapM_cons, List.mapM_nil]
    simp only [exec_bind, exec_onConnection_ok hp, exec_pure, exec_modify]

theorem carriedOut_eq {msg : Str} {ac : AdminCommand} (hmsg : Stands msg ac)
    (wire : SocketAddr → Wire) {s : IrcServer} {c : IrcConnection} (hs : Idle s c) :
    (carriedOut msg wire s).mTx = s.mTx ++ (ordersOf ac).modem ∧
      (carriedOut msg wire s).waTx = s.waTx ++ (ordersOf ac).whatsapp ∧
      ∀ d ∈ (carriedOut msg wire s).connections,
        connOrders d = ⟨[], [], c.cfOutbox ++ (ordersOf ac).factory⟩ := by
  obtain ⟨d, horders, ⟨hsock, hnew⟩, hordered⟩ := ordered_eq hmsg hs
  obtain ⟨hm, hw, hf⟩ := Orders.mk.inj horders
  have hm : d.mOutbox = (ordersOf ac).modem := by simpa [connOrders, hs.modem] using hm
  have hw : d.waOutbox = (ordersOf ac).whatsapp := by simpa [connOrders, hs.whatsapp] using hw
  have hf : d.cfOutbox = c.cfOutbox ++ (ordersOf ac).factory := hf
  have hdsock : d.sock = [] := hsock.trans hs.sock
  have hdnew : d.new = false := hnew.trans hs.new
  rw [carriedOut, hordered, exec_poll_quiet wire
    (s := { s with store := d.store, connections := [d] }) hs.incoming hs.pending hs.cbRx hs.cfRx]
  have hpoll := exec_pollConn_quiet (wire d.addr) (c := { d with now := s.now }) hdsock hdnew
  rw [exec_sinkInto] at hpoll
  rcases hsink : exec (sinkOutbox (wire d.addr).startSend (wire d.addr).complete) d.outbox
    with ⟨e | _, out⟩
  · rw [hsink] at hpoll
    rw [exec_pollConnections_single wire (s := { s with store := d.store, connections := [d] }) rfl
      (exec_pollConnection_error hpoll fun _ h => by cases h)]
    exact ⟨by rw [hm], by rw [hw], fun e he => absurd he List.not_mem_nil⟩
  · rw [hsink] at hpoll
    rw [exec_pollConnections_single wire (s := { s with store := d.store, connections := [d] }) rfl
      (exec_pollConnection_ok hpoll)]
    refine ⟨by rw [hm], by rw [hw], fun e he => ?_⟩
    rw [List.mem_singleton.mp he, connOrders, drained, hf]

theorem serverReach_eq {msg : Str} {ac : AdminCommand} (hmsg : Stands msg ac)
    (wire : SocketAddr → Wire) {s : IrcServer} {c : IrcConnection} (hs : Idle s c) :
    serverReach msg wire s = ⟨(ordersOf ac).modem, (ordersOf ac).whatsapp, []⟩ := by
  obtain ⟨hm, hw, -⟩ := carriedOut_eq hmsg wire hs
  obtain ⟨d, -, -, hordered⟩ := ordered_eq hmsg hs
  have hcf : (ordered msg s).cfRx = [] := by rw [hordered, ← hs.cfRx]
  rw [serverReach, hm, hw, List.drop_left, List.drop_left, hcf]

/-- A command about a ghost or a new contact, which is one for the contact factory. -/
def ForFactory (ac : AdminCommand) : Prop :=
  (∃ nick gc, ac = .ghost nick gc) ∨ ∃ cc, ac = .contact cc

theorem factory_eq_nil_iff {ac : AdminCommand} : (ordersOf ac).factory = [] ↔ ¬ ForFactory ac := by
  cases ac with
  | ghost nick gc => simp [ordersOf, ForFactory]
  | contact cc => simp [ordersOf, ForFactory]
  | _ => simp [ordersOf, ForFactory, Orders.none]

/-- The commands of the line have left the queues of the connections. -/
def NothingLeft (c : IrcConnection) (t : IrcServer) : Prop :=
  ∀ d ∈ t.connections, (connOrders c).since (connOrders d) = .none

/-- The front ends carry out the same commands, exactly if these are not for the contact
factory. -/
theorem fronts_agree_iff {msg : Str} {ac : AdminCommand} (hmsg : Stands msg ac)
    (driver : Except Str Unit) {b : Bot} (hb : b.stream = []) (l : InspLink)
    (wire : SocketAddr → Wire) {s : IrcServer} {c : IrcConnection} (hs : Idle s c) :
    (botReach msg driver b = linkReach msg l ∧ linkReach msg l = serverReach msg wire s ∧
      NothingLeft c (carriedOut msg wire s)) ↔ ¬ ForFactory ac := by
  rw [botReach_eq hmsg driver hb, linkReach_eq hmsg, serverReach_eq hmsg wire hs,
    ← factory_eq_nil_iff]
  constructor
  · rintro ⟨-, hsame, -⟩
    rw [hsame]
  · intro hnil
    refine ⟨rfl, Orders.ext rfl rfl hnil, fun d hd => ?_⟩
    obtain ⟨-, -, hleft⟩ := carriedOut_eq hmsg wire hs
    rw [hleft d hd, hnil, List.append_nil]
    simp [Orders.since, Orders.none, connOrders]

end Orders

section Samples

attribute [local instance] Sample.crates

def sampleBot : Bot where
  sent := []
  refuses _ := none
  calls := 0
  stream := []
  chan := "#control"
  admin := "admin"
  channels := []
  logBacklog := []
  store := Sample.store
  id := true
  connected := true
  webircPassword := none
  rx := []
  cfTx := []
  waTx := []
  mTx := []

def sampleClient : IrcConnection :=
  { fromPending (fromIncoming [] ⟨("192.0.2.1" : Str), 40000⟩)
      ⟨("admin" : Str), ['u'], ['r'], []⟩ Sample.store 0 with
    new := false }

def sampleServer : IrcServer where
  cfRx := []
  cbRx := []
  waTx := []
  mTx := []
  store := Sample.store
  incoming := []
  connections := [sampleClient]
  pending := []
  now := 0
  closed := []

theorem idle_sampleServer : Idle sampleServer sampleClient :=
  ⟨rfl, rfl, rfl, rfl, rfl, rfl, rfl, rfl, rfl⟩

def csqLine : Str := "MODEM CSQ"

theorem stands_csqLine : Stands csqLine (.modem .getCsq) :=
  ⟨by decide, fun _ h => (by cases h), fun _ h => (by cases h)⟩

theorem fronts_agree_csq :
    botReach csqLine (.ok ()) sampleBot = linkReach csqLine sampleStart.link ∧
      linkReach csqLine sampleStart.link =
        serverReach csqLine (fun _ => .writable) sampleServer ∧
      NothingLeft sampleClient (carriedOut csqLine (fun _ => .writable) sampleServer) := by
  refine (fronts_agree_iff stands_csqLine (.ok ()) rfl sampleStart.link (fun _ => .writable)
    idle_sampleServer).mpr ?_
  rintro (⟨nick, gc, h⟩ | ⟨cc, h⟩)
  all_goals cases h

def removeLine : Str := "GHOST a REMOVE"

theorem stands_removeLine : Stands removeLine (.ghost ['a'] .remove) :=
  ⟨by decide, fun _ h => (by cases h), fun _ h => (by cases h)⟩

/-- The removal of a ghost gets no further than the queue of the connection. -/
theorem removal_stays : ¬ ∀ (msg : Str) (ac : AdminCommand), Stands msg ac →
    botReach msg (.ok ()) sampleBot = linkReach msg sampleStart.link ∧
      linkReach msg sampleStart.link = serverReach msg (fun _ => .writable) sampleServer ∧
      NothingLeft sampleClient (carriedOut msg (fun _ => .writable) sampleServer) := by
  intro h
  have hsame := (h removeLine _ stands_removeLine).2.1
  rw [linkReach_eq stands_removeLine, serverReach_eq stands_removeLine _ idle_sampleServer] at hsame
  cases (Orders.mk.inj hsame).2.2

end Samples

end SmsIrc.FrontEnds
