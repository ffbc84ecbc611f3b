import SmsIrc.IrcClients
import SmsIrc.RegistrationMessages
import SmsIrc.Sample

/-!
Registration of IRC clients, for every way of dividing what a client sends into the batches
that are readable in successive polls.
-/

namespace SmsIrc.RegistrationBatches

open SmsIrc.Comm SmsIrc.Database SmsIrc.External SmsIrc.IrcClients SmsIrc.IrcFrames
open SmsIrc.IrcS2c SmsIrc.Program SmsIrc.Registration SmsIrc.RegistrationMessages
open SmsIrc.SenderCommon SmsIrc.Text SmsIrc.Util

section Stages

variable [Crates] {srv : IrcServer} {addr : SocketAddr}

/-- How far a client has come when it has sent some batches. -/
inductive Stage (srv : IrcServer) (addr : SocketAddr) (d : List (List ClientMessage)) :
    Session → Prop
  | connecting (hd : d = []) : Stage srv addr d (connecting srv addr)
  | pending {o : Others addr} {p : PendingIrcConnection} (hp : Waits addr d.flatten p)
      (hopen : Unregistered d) : Stage srv addr d ⟨lobby srv o [p], none⟩
  | gone {o : Others addr} (hquit : ∃ m ∈ d.flatten, Quits m)
      (hopen : Unregistered d) : Stage srv addr d ⟨lobby srv o [], none⟩
  | registered {t : Session} {k : Nat} (info : RegistrationInformation) (hk : k ≤ d.length)
      (hcomplete : Complete (d.take k).flatten)
      (hfirst : ∀ j < k, ¬ Complete (d.take j).flatten)
      (hlearned : Learned addr (d.take k).flatten (pendingRun addr (d.take k).flatten).2)
      (hinfo : registrationInformation (pendingRun addr (d.take k).flatten).2 = some info)
      (hshows : Shows srv addr t (exec (serveClient (d.drop k).flatten)
        (held srv.waTx srv.mTx
          (fromPending (pendingRun addr (d.take k).flatten).2 info srv.store srv.now)))) :
      Stage srv addr d t

theorem stage_polled (hsrv : Idle addr srv) {o : Others addr} {d : List (List ClientMessage)}
    {p : PendingIrcConnection} (hp : Waits addr d.flatten p)
    (hopen : Unregistered d) (batch : List ClientMessage) :
    Stage srv addr (d ++ [batch])
      (polled (lobby srv o [{ p with sock := batch.map .message }])) := by
  have hflatten : (d ++ [batch]).flatten = d.flatten ++ batch := by
    rw [List.flatten_append, List.flatten_singleton]
  obtain ⟨q, hq, hpoll⟩ := hp.poll batch
  have hlearn := wp_pendingRun addr (d.flatten ++ batch)
  unfold wp at hlearn
  rcases hrun : pendingRun addr (d.flatten ++ batch) with ⟨e | _, r⟩
  · rw [pendingRun] at hrun
    rw [hrun] at hlearn
    obtain ⟨hquit, text, rfl⟩ := hlearn
    rw [← pendingRun] at hrun
    rw [hrun] at hpoll
    obtain ⟨o₁, ho₁⟩ := polled_lobby_ends hsrv (o := o) hpoll fun _ h => by cases h
    rw [ho₁]
    obtain ⟨m, hm, hquits⟩ := hquit
    refine .gone ⟨m, hflatten ▸ hm, hquits⟩ (hopen.concat fun h => h.stays m hm hquits)
  · rw [pendingRun] at hrun
    rw [hrun] at hlearn
    dsimp only at hlearn
    rw [← pendingRun] at hrun
    rw [hrun] at hpoll hq
    dsimp only at hpoll hq
    subst hq
    have hcomplete : q.complete = true ↔ Complete (d.flatten ++ batch) := hlearn.complete_iff
    cases hq : q.complete with
    | false =>
        rw [hq] at hpoll hcomplete
        obtain ⟨o₁, ho₁⟩ := polled_lobby_stays hsrv (o := o) hpoll
        rw [ho₁]
        refine .pending (hflatten ▸ hlearn.waits hrun) (hopen.concat fun h => ?_)
        exact absurd (hcomplete.mpr h) (by simp)
    | true =>
        rw [hq] at hpoll hcomplete
        obtain ⟨info, hinfo⟩ := exists_registrationInformation hq
        have hshows := shows_registered hsrv (o := o) hpoll hinfo hlearn.addr hlearn.sock
        have hlen : (d ++ [batch]).take (d.length + 1) = d ++ [batch] :=
          List.take_of_length_le (by simp)
        refine .registered (k := d.length + 1) info (by simp) ?_ (fun j hj => ?_) ?_ ?_ ?_
        · rw [hlen, hflatten]
          exact hcomplete.mp rfl
        · rw [List.take_append_of_le_length (by omega)]
          exact hopen j
        · rw [hlen, hflatten, hrun]
          exact hlearn
        · rw [hlen, hflatten, hrun]
          exact hinfo
        · rw [hlen, hflatten, hrun, List.drop_of_length_le (by simp)]
          exact hshows

theorem Stage.pollBatch (hsrv : Idle addr srv) {d : List (List ClientMessage)} {t : Session}
    (h : Stage srv addr d t) (batch : List ClientMessage) :
    Stage srv addr (d ++ [batch]) (pollBatch addr t batch) := by
  cases h with
  | connecting hd =>
      subst hd
      change Stage srv addr ([] ++ [batch])
        (polled (arrive addr (batch.map .message) (IrcClients.connecting srv addr).server))
      have hwaits : Waits addr ([] : List (List ClientMessage)).flatten (fromIncoming [] addr) :=
        waits_fromIncoming addr
      have hopen : Unregistered [] := fun k h => not_complete_nil (by simpa using h)
      rw [polled_connecting hsrv]
      exact stage_polled hsrv (o := hsrv.others) hwaits hopen batch
  | @pending o p hp hopen =>
      unfold IrcClients.pollBatch
      dsimp only
      rw [arrive_lobby o _ hp.addr hp.sock]
      exact stage_polled hsrv hp hopen batch
  | @gone o hquit hopen =>
      obtain ⟨o₁, ho₁⟩ := polled_lobby_nil hsrv (o := o)
      unfold IrcClients.pollBatch
      dsimp only
      rw [arrive_lobby_nil, ho₁]
      obtain ⟨m, hm, hquits⟩ := hquit
      refine .gone ⟨m, ?_, hquits⟩ (hopen.concat fun h => ?_)
      · rw [List.flatten_append]
        exact List.mem_append_left _ hm
      · exact h.stays m (List.mem_append_left _ hm) hquits
  | @registered t k info hk hcomplete hfirst hlearned hinfo hshows =>
      have htake : (d ++ [batch]).take k = d.take k := List.take_append_of_le_length hk
      have hdrop : ((d ++ [batch]).drop k).flatten = (d.drop k).flatten ++ batch := by
        rw [List.drop_append_of_le_length hk, List.flatten_append, List.flatten_singleton]
      refine .registered (k := k) info (by simp; omega) (htake ▸ hcomplete)
        (fun j hj => ?_) (htake ▸ hlearned) (htake ▸ hinfo) ?_
      · rw [List.take_append_of_le_length (by omega)]
        exact hfirst j hj
      · rw [htake, hdrop, exec_serveClient_append]
        exact hshows.pollBatch hsrv batch

/-- Every way of dividing the messages leads the client through these stages. -/
theorem stage_runBatches (hsrv : Idle addr srv) (d : List (List ClientMessage)) :
    Stage srv addr d (runBatches srv addr d) := by
  induction d using List.reverseRecOn with
  | nil => exact .connecting rfl
  | append_singleton d batch ih =>
      unfold runBatches at ih ⊢
      rw [List.foldl_append, List.foldl_cons, List.foldl_nil]
      exact ih.pollBatch hsrv batch

theorem wp_serveClient (rest : List ClientMessage) (c : IrcConnection) :
    wp (serveClient rest) (fun _ d => d.before = c.before ∧ d.handled = c.handled ++ rest)
      (fun _ d => d.before = c.before) c := by
  rw [serveClient, wp_bind]
  refine wp_mono (touched_welcome c) (fun _ d hd => ?_) fun _ _ hd => hd.1.before
  refine wp_mono (wp_serveAll rest d) (fun _ x hx => ?_) fun _ x hx => ?_
  · exact ⟨hx.before.trans hd.before, hx.handled.trans (congrArg (· ++ rest) hd.handled)⟩
  · obtain ⟨done, -, hx⟩ := hx
    exact hx.before.trans hd.before

theorem exec_serveClient_before (rest : List ClientMessage) (c : IrcConnection) :
    (exec (serveClient rest) c).2.before = c.before := by
  have hserved := wp_serveClient rest c
  unfold wp at hserved
  rcases hrun : exec (serveClient rest) c with ⟨e | _, d⟩
  · rw [hrun] at hserved
    exact hserved
  · rw [hrun] at hserved
    exact hserved.1

/-- Two sessions show the same registration, served to the same effect; or none. -/
structure Alike (addr : SocketAddr) (t u : Session) : Prop where
  client : client addr t = client addr u
  store : t.server.store = u.server.store
  closed : t.server.closed = [] ↔ u.server.closed = []
  outcome : t.outcome = u.outcome

/-- The registered connection has handled the messages after the one that completes the
registration: all of them, unless it has ended. -/
def HandlesRest (addr : SocketAddr) (ms : List ClientMessage) (t : Session) : Prop :=
  ∀ before, Completing ms before → ∃ c, client addr t = some c ∧ c.before = before ∧
    (t.server.closed = [] → before ++ c.handled = ms)

/-- Two ways of dividing what a client sends lead to the same registration. -/
structure RegistersAlike (srv : IrcServer) (addr : SocketAddr) (ms : List ClientMessage)
    (d e : List (List ClientMessage)) : Prop where
  alike : Alike addr (runBatches srv addr d) (runBatches srv addr e)
  left : HandlesRest addr ms (runBatches srv addr d)
  right : HandlesRest addr ms (runBatches srv addr e)

/-- A client that registers with the message that completes its registration, when `rest`
comes after. -/
theorem Stage.seen_registered (hsrv : Idle addr srv) {d : List (List ClientMessage)} {t : Session}
    (h : Stage srv addr d t) {before rest : List ClientMessage}
    (hbefore : Completing d.flatten before) (hends : ∃ k, (d.take k).flatten = before)
    (hrest : d.flatten = before ++ rest) :
    ∃ info, Learned addr before (pendingRun addr before).2 ∧
      registrationInformation (pendingRun addr before).2 = some info ∧
      Seen addr t (exec (serveClient rest) (held srv.waTx srv.mTx
        (fromPending (pendingRun addr before).2 info srv.store srv.now))) := by
  obtain ⟨j, hj⟩ := hends
  have hcompletes : Complete (d.take j).flatten := hj ▸ hbefore.complete
  cases h with
  | connecting hd =>
      subst hd
      exact absurd hcompletes (by simpa using not_complete_nil)
  | pending hp hopen => exact absurd hcompletes (hopen j)
  | gone hquit hopen => exact absurd hcompletes (hopen j)
  | @registered t k info hk hcomplete hfirst hlearned hinfo hshows =>
      have htake := take_eq_before hbefore hcomplete hfirst ⟨j, hj⟩
      have hdrop : (d.drop k).flatten = rest := by
        have hsplit : (d.take k).flatten ++ (d.drop k).flatten = d.flatten := by
          rw [← List.flatten_append, List.take_append_drop]
        rw [htake, hrest] at hsplit
        exact List.append_cancel_left hsplit
      rw [htake, hdrop] at hshows
      rw [htake] at hinfo hlearned
      exact ⟨info, hlearned, hinfo, hshows.seen hsrv⟩

theorem Stage.seen_unregistered (hsrv : Idle addr srv) {d : List (List ClientMessage)} {t : Session}
    (h : Stage srv addr d t) (hnone : ∀ before, ¬ Completing d.flatten before) :
    client addr t = none ∧ t.server.store = srv.store ∧ t.server.closed = [] ∧
      t.outcome = none := by
  cases h with
  | connecting hd => exact ⟨client_lobby hsrv hsrv.others [], rfl, hsrv.closed, rfl⟩
  | pending hp hopen => exact ⟨client_lobby hsrv _ _, rfl, hsrv.closed, rfl⟩
  | gone hquit hopen => exact ⟨client_lobby hsrv _ _, rfl, hsrv.closed, rfl⟩
  | registered info hk hcomplete =>
      obtain ⟨before, hbefore, -⟩ := exists_completing (isPrefix_flatten_take _ _) hcomplete
      exact absurd hbefore (hnone before)

theorem handlesRest_of_endsBatch (hsrv : Idle addr srv) {d : List (List ClientMessage)}
    (hends : EndsBatch d.flatten d) : HandlesRest addr d.flatten (runBatches srv addr d) := by
  intro before hbefore
  obtain ⟨rest, hrest⟩ := hbefore.isPrefix
  obtain ⟨info, hlearned, -, hseen⟩ := (stage_runBatches hsrv d).seen_registered hsrv hbefore
    (hends before hbefore) hrest.symm
  have hbefore' := exec_serveClient_before rest (held srv.waTx srv.mTx
    (fromPending (pendingRun addr before).2 info srv.store srv.now))
  refine ⟨_, hseen.client, hbefore'.trans hlearned.handled, fun hclosed => ?_⟩
  have hok := hseen.closed.mp hclosed
  have hserved := wp_serveClient rest (held srv.waTx srv.mTx
    (fromPending (pendingRun addr before).2 info srv.store srv.now))
  unfold wp at hserved
  rcases hrun : exec (serveClient rest) (held srv.waTx srv.mTx
    (fromPending (pendingRun addr before).2 info srv.store srv.now)) with ⟨e | _, c⟩
  · rw [hrun] at hok
    cases hok
  · rw [hrun] at hserved
    rw [hserved.2, ← hrest]
    rfl

theorem endsBatch_of_handlesRest (hsrv : Idle addr srv) {d : List (List ClientMessage)}
    (h : HandlesRest addr d.flatten (runBatches srv addr d)) : EndsBatch d.flatten d := by
  intro before hbefore
  obtain ⟨c, hc, hcbefore, -⟩ := h before hbefore
  generalize ht : runBatches srv addr d = t at hc
  have hstage := stage_runBatches hsrv d
  rw [ht] at hstage
  cases hstage with
  | connecting hd => exact absurd (hc.symm.trans (client_lobby hsrv hsrv.others [])) (by simp)
  | pending hp hopen => exact absurd (hc.symm.trans (client_lobby hsrv _ _)) (by simp)
  | gone hquit hopen => exact absurd (hc.symm.trans (client_lobby hsrv _ _)) (by simp)
  | @registered t k info hk hcomplete hfirst hlearned hinfo hshows =>
      refine ⟨k, ?_⟩
      have hserved := exec_serveClient_before (d.drop k).flatten (held srv.waTx srv.mTx
        (fromPending (pendingRun addr (d.take k).flatten).2 info srv.store srv.now))
      rw [← Option.some.inj (hc.symm.trans (hshows.seen hsrv).client), hcbefore] at hserved
      exact (hserved.trans hlearned.handled).symm

/-- Two ways of dividing what a client sends lead to the same registration if and only if the
message that completes it ends a batch in both. -/
theorem registersAlike_iff {ms : List ClientMessage} {d e : List (List ClientMessage)}
    (hsrv : Idle addr srv) (hd : d.flatten = ms) (he : e.flatten = ms) :
    RegistersAlike srv addr ms d e ↔ EndsBatch ms d ∧ EndsBatch ms e := by
  constructor
  · intro h
    have hleft := h.left
    have hright := h.right
    rw [← hd] at hleft
    rw [← he] at hright
    exact ⟨hd ▸ endsBatch_of_handlesRest hsrv hleft, he ▸ endsBatch_of_handlesRest hsrv hright⟩
  · rintro ⟨hdends, heends⟩
    refine ⟨?_, hd ▸ handlesRest_of_endsBatch hsrv (hd.symm ▸ hdends),
      he ▸ handlesRest_of_endsBatch hsrv (he.symm ▸ heends)⟩
    have hdstage := stage_runBatches hsrv d
    have hestage := stage_runBatches hsrv e
    by_cases hsome : ∃ before, Completing ms before
    · obtain ⟨before, hbefore⟩ := hsome
      obtain ⟨rest, hrest⟩ := hbefore.isPrefix
      obtain ⟨info, -, hinfo, hdseen⟩ := hdstage.seen_registered hsrv (hd.symm ▸ hbefore)
        (hdends before hbefore) (hd.trans hrest.symm)
      obtain ⟨info', -, hinfo', heseen⟩ := hestage.seen_registered hsrv (he.symm ▸ hbefore)
        (heends before hbefore) (he.trans hrest.symm)
      obtain rfl : info = info' := Option.some.inj (hinfo.symm.trans hinfo')
      exact ⟨hdseen.client.trans heseen.client.symm, hdseen.store.trans heseen.store.symm,
        hdseen.closed.trans heseen.closed.symm, hdseen.outcome.trans heseen.outcome.symm⟩
    · have hnone : ∀ before, ¬ Completing ms before := fun before h => hsome ⟨before, h⟩
      obtain ⟨hdc, hds, hdcl, hdo⟩ := hdstage.seen_unregistered hsrv (hd.symm ▸ hnone)
      obtain ⟨hec, hes, hecl, heo⟩ := hestage.seen_unregistered hsrv (he.symm ▸ hnone)
      exact ⟨hdc.trans hec.symm, hds.trans hes.symm, iff_of_true hdcl hecl, hdo.trans heo.symm⟩

end Stages

section Samples

attribute [local instance] Sample.crates

def sampleAddr : SocketAddr := ⟨("192.0.2.1" : Str), 40000⟩

/-- Another client, which is registered. -/
def sampleOther : IrcConnection :=
  { fromPending (fromIncoming [] ⟨("192.0.2.2" : Str), 40000⟩) ⟨['o'], ['u'], ['r'], []⟩
      Sample.store 0 with
    new := false }

def sampleServer : IrcServer where
  cfRx := []
  cbRx := []
  waTx := []
  mTx := []
  store := Sample.store
  incoming := []
  connections := [sampleOther]
  pending := []
  now := 0
  closed := []

theorem idle_sampleServer : Idle sampleAddr sampleServer where
  cfRx := rfl
  cbRx := rfl
  closed := rfl
  pending := fun _ hp => absurd hp List.not_mem_nil
  connections := fun c hc => by
    rw [List.mem_singleton.mp hc]
    exact ⟨by decide, rfl, rfl, rfl, rfl⟩

def sampleNick : ClientMessage := ⟨.nick ['n'], "NICK n"⟩

def sampleUser : ClientMessage := ⟨.user ['u'] ['0'] ['r'], "USER u 0 * r"⟩

def samplePing : ClientMessage := ⟨.ping ['t'] none, "PING t"⟩

theorem completing_sample :
    Completing [sampleNick, sampleUser, samplePing] [sampleNick, sampleUser] := by
  refine ⟨⟨[samplePing], rfl⟩, ⟨?_, ⟨sampleNick, by simp, ['n'], rfl⟩, ⟨sampleUser, by simp, rfl⟩,
    rfl⟩, fun earlier hpre hcomplete => ?_⟩
  · rintro m hm ⟨reason, hreason⟩
    rcases List.mem_cons.mp hm with rfl | hm
    · cases hreason
    · rw [List.mem_singleton.mp hm] at hreason
      cases hreason
  · refine hpre.eq_of_length_le (not_lt.mp fun hlt => ?_)
    have hnick : earlier <+: [sampleNick] :=
      List.prefix_of_prefix_length_le hpre ⟨[sampleUser], rfl⟩ (Nat.lt_succ_iff.mp hlt)
    obtain ⟨m, hm, htold⟩ := hcomplete.introduced
    rw [List.mem_singleton.mp (hnick.subset hm)] at htold
    cases htold

theorem registersAlike_sample :
    RegistersAlike sampleServer sampleAddr [sampleNick, sampleUser, samplePing]
      [[sampleNick], [sampleUser], [samplePing]] [[sampleNick, sampleUser], [samplePing]] := by
  have hd : [[sampleNick], [sampleUser], [samplePing]].flatten =
      [sampleNick, sampleUser, samplePing] := rfl
  have he : [[sampleNick, sampleUser], [samplePing]].flatten =
      [sampleNick, sampleUser, samplePing] := rfl
  refine (registersAlike_iff idle_sampleServer hd he).mpr ⟨fun before h => ⟨2, ?_⟩,
    fun before h => ⟨1, ?_⟩⟩
  · rw [h.unique completing_sample]
    rfl
  · rw [h.unique completing_sample]
    rfl

/-- A ping that is read together with what completes the registration is not answered by the
registered connection. -/
theorem ping_unregistered : ¬ ∀ d e : List (List ClientMessage), d.flatten = e.flatten →
    RegistersAlike sampleServer sampleAddr d.flatten d e := by
  intro h
  have halike := (h [[sampleNick, sampleUser], [samplePing]]
    [[sampleNick, sampleUser, samplePing]] rfl).alike.client
  exact absurd (congrArg (Option.map IrcConnection.handled) halike) (by decide +kernel)

end Samples

end SmsIrc.RegistrationBatches
