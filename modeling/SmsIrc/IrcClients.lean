import Mathlib.Data.List.ReduceOption
import SmsIrc.IrcFrames

/-!
An IRC server on which one new client sends messages, in batches that are readable in
successive polls, while the other clients are idle.
-/

namespace SmsIrc.IrcClients

open SmsIrc.Comm SmsIrc.Database SmsIrc.External SmsIrc.IrcFrames SmsIrc.IrcS2c SmsIrc.Outbox
open SmsIrc.Program SmsIrc.Registration SmsIrc.SenderCommon SmsIrc.Text SmsIrc.Util

section Others

variable [Crates] {addr : SocketAddr}

/-- A connection of another client, of which nothing is to be read or handed on. -/
structure IdleConn (addr : SocketAddr) (c : IrcConnection) : Prop where
  elsewhere : c.addr ≠ addr
  sock : c.sock = []
  new : c.new = false
  waOutbox : c.waOutbox = []
  mOutbox : c.mOutbox = []

/-- A pending connection of another client, which stays one. -/
structure IdlePending (addr : SocketAddr) (p : PendingIrcConnection) : Prop where
  elsewhere : p.addr ≠ addr
  sock : p.sock = []
  new : p.new = false
  incomplete : p.complete = false

/-- The other clients of a server. -/
structure Others (addr : SocketAddr) where
  pending : List PendingIrcConnection
  connections : List IrcConnection
  pending_idle : ∀ p ∈ pending, IdlePending addr p
  connections_idle : ∀ c ∈ connections, IdleConn addr c

omit [Crates] in
theorem IdlePending.poll {p : PendingIrcConnection} (h : IdlePending addr p) : ∃ q,
    exec (Registration.poll .writable) p = (.ok false, q) ∧ IdlePending addr q := by
  have hgreet : exec greet p = (.ok (), p) := by
    rw [greet, exec_bind, exec_get]
    simp only [h.new, Program.when, Bool.false_eq_true, if_false, exec_pure]
  have hread : exec Registration.readSock p = (.ok (), p) := by
    have hsame : { p with sock := [] } = p := by rw [← h.sock]
    rw [Registration.readSock, exec_bind, exec_get]
    dsimp only
    rw [exec_bind, exec_set, hsame, h.sock]
    rfl
  obtain ⟨out, hout, -⟩ := exec_sinkOutbox_writable p.outbox
  refine ⟨{ p with outbox := out }, ?_, h.elsewhere, h.sock, h.new, h.incomplete⟩
  have hincomplete : PendingIrcConnection.complete { p with outbox := out } = false := h.incomplete
  rw [Registration.poll, exec_bind_ok hgreet, exec_bind_ok hread, exec_bind, exec_sinkInto, hout]
  dsimp only
  rw [isDone, exec_bind, exec_get]
  dsimp only
  rw [hincomplete]
  rfl

theorem IdlePending.pollPending {p : PendingIrcConnection} (h : IdlePending addr p)
    (s : IrcServer) : ∃ q,
      exec (IrcS2c.pollPending .writable p) s = (.ok (some q), s) ∧ IdlePending addr q := by
  obtain ⟨q, hq, hidle⟩ := h.poll
  exact ⟨q, by rw [IrcS2c.pollPending, hq, exec_pure], hidle⟩

theorem IdleConn.pollConnection {c : IrcConnection} (h : IdleConn addr c) (s : IrcServer) : ∃ d,
    exec (IrcS2c.pollConnection .writable c) s = (.ok (some d), s) ∧ IdleConn addr d := by
  obtain ⟨out, hout, -⟩ := exec_sinkOutbox_writable c.outbox
  have hpoll := exec_pollConn_quiet .writable (c := { c with store := s.store, now := s.now })
    h.sock h.new
  rw [exec_sinkInto, hout] at hpoll
  refine ⟨drained { c with store := s.store, now := s.now, outbox := out }, ?_, h.elsewhere, h.sock,
    h.new, rfl, rfl⟩
  rw [exec_pollConnection_ok hpoll, h.waOutbox, h.mOutbox, List.append_nil, List.append_nil]

theorem exec_mapM_kept {α : Type} {I : α → Prop} {f : α → ServerM (Option α)} {s : IrcServer}
    (hf : ∀ a, I a → ∃ b, exec (f a) s = (.ok (some b), s) ∧ I b) {as : List α}
    (has : ∀ a ∈ as, I a) :
    ∃ bs : List α, exec (as.mapM f) s = (.ok (bs.map some), s) ∧ ∀ b ∈ bs, I b := by
  induction as with
  | nil => exact ⟨[], rfl, has⟩
  | cons a as ih =>
      obtain ⟨b, hb, hIb⟩ := hf a (has a List.mem_cons_self)
      obtain ⟨bs, hbs, hIbs⟩ := ih fun x hx => has x (List.mem_cons_of_mem a hx)
      refine ⟨b :: bs, ?_, List.forall_mem_cons.mpr ⟨hIb, hIbs⟩⟩
      rw [List.mapM_cons, exec_bind_ok hb, exec_bind_ok hbs, exec_pure]
      rfl

omit [Crates] in
theorem reduceOption_map_some_append {α : Type} (as : List α) (bs : List (Option α)) :
    (as.map some ++ bs).reduceOption = as ++ bs.reduceOption := by
  rw [List.reduceOption_append, List.reduceOption, List.filterMap_map, Function.id_comp,
    List.filterMap_some]

theorem exec_pollPendings_others {s t : IrcServer} {o : Others addr}
    {ps : List PendingIrcConnection} {kept : List (Option PendingIrcConnection)}
    (hp : s.pending = o.pending ++ ps)
    (hpolled : exec (ps.mapM (IrcS2c.pollPending .writable)) s = (.ok kept, t)) :
    ∃ o₁ : Others addr, o₁.connections = o.connections ∧
      exec (pollPendings fun _ => .writable) s =
        (.ok (), { t with pending := o₁.pending ++ kept.reduceOption }) := by
  obtain ⟨qs, hqs, hidle⟩ :=
    exec_mapM_kept (fun p hp => IdlePending.pollPending hp s) o.pending_idle
  refine ⟨⟨qs, o.connections, hidle, o.connections_idle⟩, rfl, ?_⟩
  rw [pollPendings, exec_bind, exec_get]
  dsimp only
  rw [hp, List.mapM_append, exec_bind, exec_bind_ok hqs, exec_bind_ok hpolled, exec_pure]
  dsimp only
  rw [exec_modify, reduceOption_map_some_append]

theorem exec_pollConnections_others {s : IrcServer} {o : Others addr} (cs : List IrcConnection)
    (hc : s.connections = o.connections ++ cs) :
    ∃ o₁ : Others addr, o₁.pending = o.pending ∧
      exec (pollConnections fun _ => .writable) s =
        match exec (cs.mapM (IrcS2c.pollConnection .writable)) s with
        | (.ok stay, u) => (.ok (), { u with connections := o₁.connections ++ stay.reduceOption })
        | (.error e, u) => (.error e, u) := by
  obtain ⟨ds, hds, hidle⟩ :=
    exec_mapM_kept (fun c hc => IdleConn.pollConnection hc s) o.connections_idle
  refine ⟨⟨o.pending, ds, o.pending_idle, hidle⟩, rfl, ?_⟩
  rw [pollConnections, exec_bind, exec_get]
  dsimp only
  rw [hc, List.mapM_append, exec_bind, exec_bind_ok hds, exec_bind]
  rcases exec (cs.mapM (IrcS2c.pollConnection .writable)) s with ⟨e | stay, u⟩
  · rfl
  · dsimp only
    rw [exec_pure]
    dsimp only
    rw [exec_modify, reduceOption_map_some_append]

/-- Polling a server whose other clients are idle: the pending connections `ps` are polled, and
then the connections `cs`. -/
theorem exec_poll_others {s t : IrcServer} {o : Others addr} (ps : List PendingIrcConnection)
    (cs : List IrcConnection) (kept : List (Option PendingIrcConnection))
    (hincoming : s.incoming = []) (hp : s.pending = o.pending ++ ps)
    (hpolled : exec (ps.mapM (IrcS2c.pollPending .writable)) s = (.ok kept, t))
    (hc : t.connections = o.connections ++ cs) (hcb : t.cbRx = []) (hcf : t.cfRx = []) :
    ∃ o₁ o₂ : Others addr, o₁.connections = o.connections ∧ o₂.pending = o₁.pending ∧
      exec (IrcS2c.poll fun _ => .writable) s =
        match exec (cs.mapM (IrcS2c.pollConnection .writable))
            { t with pending := o₁.pending ++ kept.reduceOption } with
        | (.ok stay, u) => (.ok (), { u with connections := o₂.connections ++ stay.reduceOption })
        | (.error e, u) => (.error e, u) := by
  obtain ⟨o₁, ho₁, hpendings⟩ := exec_pollPendings_others hp hpolled
  obtain ⟨o₂, ho₂, hconnections⟩ := exec_pollConnections_others (o := o₁) cs
    (s := { t with pending := o₁.pending ++ kept.reduceOption }) (by rw [ho₁, ← hc])
  refine ⟨o₁, o₂, ho₁, ho₂, ?_⟩
  rw [IrcS2c.poll, exec_bind_ok (exec_acceptAll_quiet hincoming), exec_bind_ok hpendings,
    exec_bind_ok (exec_receive_quiet (s := { t with pending := o₁.pending ++ kept.reduceOption })
      hcb hcf), hconnections]

end Others

section Sessions

variable [Crates] {addr : SocketAddr}

/-- A server, and what ended it, if anything has. -/
structure Session where
  server : IrcServer
  outcome : Option Failure

/-- Poll a server whose clients' sockets are writable. -/
def polled (s : IrcServer) : Session where
  server := (exec (IrcS2c.poll fun _ => .writable) s).2
  outcome := match (exec (IrcS2c.poll fun _ => .writable) s).1 with
    | .ok _ => none
    | .error e => some e

/-- Messages become readable on a client's socket. -/
def arrive (addr : SocketAddr) (items : List Readable) (s : IrcServer) : IrcServer :=
  { s with
    incoming := s.incoming.map fun inc => inc.map fun x =>
      if x.1 = addr then (x.1, x.2 ++ items) else x
    pending := s.pending.map fun p =>
      if p.addr = addr then { p with sock := p.sock ++ items } else p
    connections := s.connections.map fun c =>
      if c.addr = addr then { c with sock := c.sock ++ items } else c }

/-- A batch of messages is readable when the server is polled. -/
def pollBatch (addr : SocketAddr) (s : Session) (batch : List ClientMessage) : Session :=
  match s.outcome with
  | none => polled (arrive addr (batch.map .message) s.server)
  | some _ => s

/-- A client has connected, and the listener has not been polled since. -/
def connecting (srv : IrcServer) (addr : SocketAddr) : Session :=
  ⟨{ srv with incoming := [.ok (addr, [])] }, none⟩

/-- A client connects and sends messages, which are readable in batches. -/
def runBatches (srv : IrcServer) (addr : SocketAddr) (d : List (List ClientMessage)) : Session :=
  d.foldl (pollBatch addr) (connecting srv addr)

/-- A server on which nothing but one new client does anything. -/
structure Idle (addr : SocketAddr) (srv : IrcServer) : Prop where
  cfRx : srv.cfRx = []
  cbRx : srv.cbRx = []
  closed : srv.closed = []
  pending : ∀ p ∈ srv.pending, IdlePending addr p
  connections : ∀ c ∈ srv.connections, IdleConn addr c

def Idle.others {srv : IrcServer} (h : Idle addr srv) : Others addr :=
  ⟨srv.pending, srv.connections, h.pending, h.connections⟩

/-- The server before the registration of the client. -/
def lobby (srv : IrcServer) (o : Others addr) (ps : List PendingIrcConnection) : IrcServer :=
  { srv with incoming := [], pending := o.pending ++ ps, connections := o.connections }

/-- The server with the client registered. -/
def withClient (srv : IrcServer) (o : Others addr) (c : IrcConnection)
    (wa : List Comm.WhatsappCommand) (m : List Comm.ModemCommand) : IrcServer :=
  { srv with
    incoming := []
    store := c.store
    pending := o.pending
    connections := o.connections ++ [c]
    waTx := wa
    mTx := m }

/-- The server when the registered client has gone. -/
def withoutClient (srv : IrcServer) (o : Others addr) (c : IrcConnection)
    (wa : List Comm.WhatsappCommand) (m : List Comm.ModemCommand) : IrcServer :=
  { srv with
    incoming := []
    store := c.store
    pending := o.pending
    connections := o.connections
    closed := [c]
    waTx := wa
    mTx := m }

/-- A session shows a registered connection that has been served with some result: commands
that have been handed on are seen as still queued, lines that have been written as not. -/
inductive Shows (srv : IrcServer) (addr : SocketAddr) :
    Session → Except Failure Unit × IrcConnection → Prop
  | connected {o : Others addr} {c : IrcConnection} {wa : List Comm.WhatsappCommand}
      {m : List Comm.ModemCommand} (haddr : c.addr = addr) (hsock : c.sock = [])
      (hnew : c.new = false) (hnow : c.now = srv.now) :
      Shows srv addr ⟨withClient srv o c wa m, none⟩ (.ok (), held wa m c)
  | ended {o : Others addr} {c : IrcConnection} {wa : List Comm.WhatsappCommand}
      {m : List Comm.ModemCommand} {e : Failure} (haddr : c.addr = addr)
      (he : ∀ site, e ≠ .panic site) :
      Shows srv addr ⟨withoutClient srv o c wa m, none⟩ (.error e, held wa m c)
  | panicked {s : IrcServer} {c : IrcConnection} {site : PanicSite} (haddr : c.addr = addr)
      (hclosed : s.closed = [c]) (hstore : s.store = c.store) :
      Shows srv addr ⟨s, some (.panic site)⟩ (.error (.panic site), held s.waTx s.mTx c)

/-- A client that has been served gets more messages served, unless its connection has ended. -/
def serveOn (batch : List ClientMessage) (x : Except Failure Unit × IrcConnection) :
    Except Failure Unit × IrcConnection :=
  match x.1 with
  | .ok _ => exec (forM batch IrcS2c.serve) x.2
  | .error _ => x

theorem exec_serveClient_append (rest batch : List ClientMessage) (c : IrcConnection) :
    exec (serveClient (rest ++ batch)) c = serveOn batch (exec (serveClient rest) c) := by
  rw [serveClient, serveClient, List.forM_append, ← bind_assoc, exec_bind]
  rcases exec (welcome >>= fun _ => forM rest IrcS2c.serve) c with ⟨e | _, d⟩
  · rfl
  · rfl

theorem polled_of_ok {s t : IrcServer} (h : exec (IrcS2c.poll fun _ => .writable) s = (.ok (), t)) :
    polled s = ⟨t, none⟩ := by
  unfold polled
  rw [h]

theorem polled_of_error {s t : IrcServer} {e : Failure}
    (h : exec (IrcS2c.poll fun _ => .writable) s = (.error e, t)) :
    polled s = ⟨t, some e⟩ := by
  unfold polled
  rw [h]

theorem shows_polled {srv s : IrcServer} (hsrv : Idle addr srv) {o o₁ : Others addr}
    (ho : o₁.pending = o.pending) {c : IrcConnection} {wa : List Comm.WhatsappCommand}
    {m : List Comm.ModemCommand} {batch : List ClientMessage} (haddr : c.addr = addr)
    (hsock : c.sock = batch.map .message) (hnow : c.now = srv.now)
    (hpoll : exec (IrcS2c.poll fun _ => .writable) s =
      match exec ([c].mapM (IrcS2c.pollConnection .writable)) (withClient srv o c wa m) with
      | (.ok stay, u) => (.ok (), { u with connections := o₁.connections ++ stay.reduceOption })
      | (.error e, u) => (.error e, u)) :
    Shows srv addr (polled s) (exec (serveClient batch) (held wa m c)) := by
  obtain ⟨d, hd, hheld, hdaddr, hdnow, hok⟩ := exec_pollConn wa m hsock
  have hsame : { c with store := c.store, now := srv.now } = c := by rw [← hnow]
  have hdrained : held (wa ++ d.waOutbox) (m ++ d.mOutbox) (drained d) = held wa m d := by
    unfold held drained
    simp only [List.append_nil]
  rw [List.mapM_cons, List.mapM_nil] at hpoll
  rcases hserve : exec (serveClient batch) (held wa m c) with ⟨e | _, x⟩
  · rw [hserve] at hd hheld
    dsimp only at hd hheld
    subst hheld
    by_cases he : ∃ site, e = .panic site
    · obtain ⟨site, rfl⟩ := he
      rw [exec_bind_error (exec_pollConnection_panic (s := withClient srv o c wa m)
        (hsame.symm ▸ hd))] at hpoll
      rw [polled_of_error hpoll]
      refine Shows.panicked (hdaddr.trans haddr) ?_ rfl
      change srv.closed ++ [d] = [d]
      rw [hsrv.closed, List.nil_append]
    · have he' : ∀ site, e ≠ .panic site := fun site h => he ⟨site, h⟩
      rw [exec_bind_ok (exec_pollConnection_error (s := withClient srv o c wa m)
        (hsame.symm ▸ hd) he')] at hpoll
      rw [polled_of_ok hpoll, ← hdrained]
      have hafter : { withClient srv o c wa m with
          store := d.store
          connections := o₁.connections ++ [none].reduceOption
          closed := srv.closed ++ [drained d]
          waTx := wa ++ d.waOutbox
          mTx := m ++ d.mOutbox } =
          withoutClient srv o₁ (drained d) (wa ++ d.waOutbox) (m ++ d.mOutbox) := by
        unfold withClient withoutClient drained
        simp only [hsrv.closed, ho, List.nil_append, List.reduceOption_cons_of_none,
          List.reduceOption_nil, List.append_nil]
      exact hafter ▸ Shows.ended (hdaddr.trans haddr) he'
  · rw [hserve] at hd hheld hok
    dsimp only at hd hheld hok
    subst hheld
    rw [exec_bind_ok (exec_pollConnection_ok (s := withClient srv o c wa m)
      (hsame.symm ▸ hd))] at hpoll
    rw [polled_of_ok hpoll, ← hdrained]
    have hafter : { withClient srv o c wa m with
        store := d.store
        connections := o₁.connections ++ [some (drained d)].reduceOption
        waTx := wa ++ d.waOutbox
        mTx := m ++ d.mOutbox } =
        withClient srv o₁ (drained d) (wa ++ d.waOutbox) (m ++ d.mOutbox) := by
      unfold withClient drained
      simp only [ho, List.reduceOption_cons_of_some, List.reduceOption_nil]
    exact hafter ▸ Shows.connected (c := drained d) (hdaddr.trans haddr) (hok rfl).1 (hok rfl).2
      (hdnow.trans hnow)

section Arrivals

variable {srv : IrcServer} (o : Others addr) (items : List Readable)

theorem Others.arrive_pending : (o.pending.map fun p =>
    if p.addr = addr then { p with sock := p.sock ++ items } else p) = o.pending := by
  conv_rhs => rw [← List.map_id o.pending]
  exact List.map_congr_left fun p hp => if_neg (o.pending_idle p hp).elsewhere

theorem Others.arrive_connections : (o.connections.map fun c =>
    if c.addr = addr then { c with sock := c.sock ++ items } else c) = o.connections := by
  conv_rhs => rw [← List.map_id o.connections]
  exact List.map_congr_left fun c hc => if_neg (o.connections_idle c hc).elsewhere

theorem arrive_lobby_nil : arrive addr items (lobby srv o []) = lobby srv o [] := by
  unfold arrive lobby
  simp only [List.append_nil, o.arrive_pending, o.arrive_connections, List.map_nil]

theorem arrive_lobby {p : PendingIrcConnection} (haddr : p.addr = addr) (hsock : p.sock = []) :
    arrive addr items (lobby srv o [p]) = lobby srv o [{ p with sock := items }] := by
  unfold arrive lobby
  simp only [List.map_append, o.arrive_pending, o.arrive_connections, List.map_nil, List.map_cons,
    if_pos haddr, hsock, List.nil_append]

variable {c : IrcConnection} {wa : List Comm.WhatsappCommand} {m : List Comm.ModemCommand}

theorem arrive_withClient (haddr : c.addr = addr) (hsock : c.sock = []) :
    arrive addr items (withClient srv o c wa m) =
      withClient srv o { c with sock := items } wa m := by
  unfold arrive withClient
  simp only [List.map_append, o.arrive_pending, o.arrive_connections, List.map_nil, List.map_cons,
    if_pos haddr, hsock, List.nil_append]

theorem arrive_withoutClient :
    arrive addr items (withoutClient srv o c wa m) = withoutClient srv o c wa m := by
  unfold arrive withoutClient
  simp only [o.arrive_pending, o.arrive_connections, List.map_nil]

end Arrivals

section Lobby

variable {srv : IrcServer} (hsrv : Idle addr srv) {o : Others addr}

include hsrv

/-- Polling a server on which the client is not registered, and does not register. -/
theorem polled_unregistered {ps : List PendingIrcConnection}
    (kept : List (Option PendingIrcConnection))
    (h : exec (ps.mapM (IrcS2c.pollPending .writable)) (lobby srv o ps) =
      (.ok kept, lobby srv o ps)) : ∃ o₁ : Others addr,
    polled (lobby srv o ps) = ⟨lobby srv o₁ kept.reduceOption, none⟩ := by
  obtain ⟨o₁, o₂, -, ho, hpoll⟩ := exec_poll_others (s := lobby srv o ps) (o := o) ps [] kept
    rfl rfl h (List.append_nil _).symm hsrv.cbRx hsrv.cfRx
  rw [List.mapM_nil, exec_pure] at hpoll
  refine ⟨o₂, ?_⟩
  rw [polled_of_ok hpoll]
  unfold lobby
  simp only [ho, List.append_nil, List.reduceOption_nil]

theorem polled_lobby_nil : ∃ o₁ : Others addr,
    polled (lobby srv o []) = ⟨lobby srv o₁ [], none⟩ :=
  polled_unregistered hsrv [] rfl

theorem polled_lobby_stays {p q : PendingIrcConnection}
    (h : exec (Registration.poll .writable) p = (.ok false, q)) : ∃ o₁ : Others addr,
    polled (lobby srv o [p]) = ⟨lobby srv o₁ [q], none⟩ :=
  polled_unregistered hsrv [some q] (by
    rw [List.mapM_cons, List.mapM_nil, exec_bind, IrcS2c.pollPending, h]
    rfl)

theorem polled_lobby_ends {p q : PendingIrcConnection} {e : Failure}
    (h : exec (Registration.poll .writable) p = (.error e, q)) (he : ∀ site, e ≠ .panic site) :
    ∃ o₁ : Others addr, polled (lobby srv o [p]) = ⟨lobby srv o₁ [], none⟩ :=
  polled_unregistered hsrv [none] (by
    rw [List.mapM_cons, List.mapM_nil, exec_bind, IrcS2c.pollPending, h]
    cases e with
    | panic site => exact absurd rfl (he site)
    | _ => rfl)

theorem shows_registered {p q : PendingIrcConnection} {info : RegistrationInformation}
    (h : exec (Registration.poll .writable) p = (.ok true, q))
    (hinfo : registrationInformation q = some info) (haddr : q.addr = addr) (hsock : q.sock = []) :
    Shows srv addr (polled (lobby srv o [p]))
      (exec (serveClient []) (held srv.waTx srv.mTx (fromPending q info srv.store srv.now))) := by
  have hpolled : exec ([p].mapM (IrcS2c.pollPending .writable)) (lobby srv o [p]) =
      (.ok [none], { lobby srv o [p] with
        connections := o.connections ++ [fromPending q info srv.store srv.now] }) := by
    rw [List.mapM_cons, List.mapM_nil, exec_bind, IrcS2c.pollPending, h]
    dsimp only
    rw [hinfo]
    rfl
  obtain ⟨o₁, o₂, ho₁, ho, hpoll⟩ := exec_poll_others (s := lobby srv o [p]) (o := o)
    [p] [fromPending q info srv.store srv.now] [none] rfl rfl hpolled rfl hsrv.cbRx hsrv.cfRx
  have hafter : { lobby srv o [p] with
      pending := o₁.pending ++ [none].reduceOption
      connections := o.connections ++ [fromPending q info srv.store srv.now] } =
      withClient srv o₁ (fromPending q info srv.store srv.now) srv.waTx srv.mTx := by
    unfold lobby withClient fromPending
    simp only [ho₁, List.reduceOption_cons_of_none, List.reduceOption_nil, List.append_nil]
  have hsock' : (fromPending q info srv.store srv.now).sock =
      ([] : List ClientMessage).map .message := hsock
  refine shows_polled hsrv ho haddr hsock' rfl (hpoll.trans ?_)
  rw [← hafter]

theorem polled_withoutClient (o : Others addr) (c : IrcConnection)
    (wa : List Comm.WhatsappCommand) (m : List Comm.ModemCommand) : ∃ o₁ : Others addr,
    polled (withoutClient srv o c wa m) = ⟨withoutClient srv o₁ c wa m, none⟩ := by
  obtain ⟨o₁, o₂, -, ho, hpoll⟩ := exec_poll_others (s := withoutClient srv o c wa m) (o := o)
    [] [] [] rfl (List.append_nil _).symm rfl (List.append_nil _).symm
    hsrv.cbRx hsrv.cfRx
  rw [List.mapM_nil, exec_pure] at hpoll
  refine ⟨o₂, ?_⟩
  rw [polled_of_ok hpoll]
  unfold withoutClient
  simp only [ho, List.append_nil, List.reduceOption_nil]

theorem polled_connecting (items : List Readable) :
    polled (arrive addr items (connecting srv addr).server) =
      polled (lobby srv hsrv.others [fromIncoming items addr]) := by
  have harrive : arrive addr items (connecting srv addr).server =
      { srv with incoming := [.ok (addr, items)] } := by
    have hpending := hsrv.others.arrive_pending items
    have hconnections := hsrv.others.arrive_connections items
    unfold Idle.others at hpending hconnections
    dsimp only at hpending hconnections
    unfold arrive connecting
    simp only [hpending, hconnections, List.map_cons, List.map_nil, Except.map, if_true,
      List.nil_append]
  have haccept : exec acceptAll { srv with incoming := [.ok (addr, items)] } =
      (.ok (), lobby srv hsrv.others [fromIncoming items addr]) := by
    rw [acceptAll, exec_bind, exec_get]
    dsimp only
    rw [exec_bind, exec_set]
    rfl
  have hpoll : exec (IrcS2c.poll fun _ => .writable) { srv with incoming := [.ok (addr, items)] } =
      exec (IrcS2c.poll fun _ => .writable) (lobby srv hsrv.others [fromIncoming items addr]) := by
    rw [IrcS2c.poll, exec_bind_ok haccept,
      exec_bind_ok (exec_acceptAll_quiet (s := lobby srv _ _) rfl)]
  rw [harrive, polled, hpoll, ← polled]

/-- A client that has registered is served in each poll while its connection lasts. -/
theorem Shows.pollBatch {t : Session} {x : Except Failure Unit × IrcConnection}
    (h : Shows srv addr t x) (batch : List ClientMessage) :
    Shows srv addr (pollBatch addr t batch) (serveOn batch x) := by
  cases h with
  | @connected o c wa m haddr hsock hnew hnow =>
      obtain ⟨o₁, o₂, ho₁, ho, hpoll⟩ := exec_poll_others
        (s := withClient srv o { c with sock := batch.map .message } wa m) (o := o) []
        [{ c with sock := batch.map .message }] [] rfl
        (List.append_nil _).symm rfl rfl hsrv.cbRx hsrv.cfRx
      have hafter : { withClient srv o { c with sock := batch.map .message } wa m with
          pending := o₁.pending ++ ([] : List (Option PendingIrcConnection)).reduceOption } =
          withClient srv o₁ { c with sock := batch.map .message } wa m := by
        unfold withClient
        simp only [ho₁, List.reduceOption_nil, List.append_nil]
      rw [hafter] at hpoll
      have hserve : exec (serveClient batch) (held wa m { c with sock := batch.map .message }) =
          serveOn batch (.ok (), held wa m c) := by
        have hwelcome : exec welcome (held wa m c) = (.ok (), held wa m c) := by
          rw [welcome, exec_bind, exec_get]
          simp only [held, hnew, Program.when, Bool.false_eq_true, if_false, exec_pure]
        exact exec_bind_ok hwelcome
      unfold IrcClients.pollBatch
      dsimp only
      rw [arrive_withClient o _ haddr hsock, ← hserve]
      exact shows_polled (c := { c with sock := batch.map .message }) hsrv ho haddr rfl hnow hpoll
  | @ended o c wa m e haddr he =>
      obtain ⟨o₁, ho₁⟩ := polled_withoutClient hsrv o c wa m
      unfold IrcClients.pollBatch
      dsimp only
      rw [arrive_withoutClient, ho₁]
      exact .ended haddr he
  | panicked haddr hclosed hstore => exact .panicked haddr hclosed hstore

end Lobby

section Views

variable {srv : IrcServer}

/-- The registered connection of a client, if it has one: commands that have been handed on are
seen as still queued, and lines that have been written as not. -/
def client (addr : SocketAddr) (t : Session) : Option IrcConnection :=
  ((t.server.closed ++ t.server.connections).find? fun c => c.addr = addr).map
    (held t.server.waTx t.server.mTx)

/-- A session shows a client that is served with some result. -/
structure Seen (addr : SocketAddr) (t : Session) (x : Except Failure Unit × IrcConnection) :
    Prop where
  client : client addr t = some x.2
  store : t.server.store = x.2.store
  closed : t.server.closed = [] ↔ x.1 = .ok ()
  outcome : t.outcome = match x.1 with
    | .error (.panic site) => some (.panic site)
    | _ => none

theorem Others.find_none (o : Others addr) :
    o.connections.find? (fun c => c.addr = addr) = none :=
  List.find?_eq_none.mpr fun c hc => by simpa using (o.connections_idle c hc).elsewhere

theorem Shows.seen (hsrv : Idle addr srv) {t : Session} {x : Except Failure Unit × IrcConnection}
    (h : Shows srv addr t x) : Seen addr t x := by
  cases h with
  | @connected o c wa m haddr hsock hnew hnow =>
      have hfind : (srv.closed ++ (o.connections ++ [c])).find? (fun c => c.addr = addr) =
          some c := by
        rw [hsrv.closed, List.nil_append, List.find?_append, o.find_none]
        simp [haddr]
      exact ⟨congrArg (Option.map (held wa m)) hfind, rfl, iff_of_true hsrv.closed rfl, rfl⟩
  | @ended o c wa m e haddr he =>
      have hfind : ([c] ++ o.connections).find? (fun c => c.addr = addr) = some c := by
        simp [haddr]
      refine ⟨congrArg (Option.map (held wa m)) hfind, rfl, iff_of_false (by simp [withoutClient])
        (by simp), ?_⟩
      cases e with
      | panic site => exact absurd rfl (he site)
      | _ => rfl
  | @panicked s c site haddr hclosed hstore =>
      have hfind : (s.closed ++ s.connections).find? (fun c => c.addr = addr) = some c := by
        rw [hclosed]
        simp [haddr]
      exact ⟨congrArg (Option.map (held s.waTx s.mTx)) hfind, hstore,
        iff_of_false (by simp [hclosed]) (by simp), rfl⟩

theorem client_lobby (hsrv : Idle addr srv) (o : Others addr) (ps : List PendingIrcConnection) :
    client addr ⟨lobby srv o ps, none⟩ = none := by
  have hfind : (srv.closed ++ o.connections).find? (fun c => c.addr = addr) = none := by
    rw [hsrv.closed, List.nil_append, o.find_none]
  exact congrArg (Option.map (held srv.waTx srv.mTx)) hfind

end Views

end Sessions

end SmsIrc.IrcClients
