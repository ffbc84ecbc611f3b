import SmsIrc.RegistrationMessages
import SmsIrc.Sample

/-!
What becomes of the replies that a client has been sent when its connection is registered, for
every way in which its socket takes them.
-/

namespace SmsIrc.Handover

open SmsIrc.Database SmsIrc.External SmsIrc.IrcFrames SmsIrc.IrcS2c SmsIrc.Outbox SmsIrc.Program
open SmsIrc.Registration SmsIrc.RegistrationMessages SmsIrc.Text SmsIrc.Transition SmsIrc.Util

section Sinks

variable {μ : Type}

/-- None of the first answers of a sink is an error. -/
def Works (answer : Nat → SinkAnswer) (n : Nat) : Prop := ∀ i < n, ∀ err, answer i ≠ .failed err

theorem polled_congr {answer answer' : Nat → SinkAnswer} {s : Socket μ}
    (h : ∀ i < s.outbox.length, answer i = answer' i) :
    Outbox.polled answer s = Outbox.polled answer' s := by
  have hsame : ∀ a, answered answer a s.outbox.zipIdx = answered answer' a s.outbox.zipIdx := by
    intro a
    refine congrArg (List.map Prod.fst) (List.filter_congr fun e he => ?_)
    rw [h e.2 (List.snd_lt_of_mem_zipIdx he)]
  rw [Outbox.polled, Outbox.polled, hsame, hsame]

theorem kept_polled {s : Socket μ} (h : Kept s) {answer : Nat → SinkAnswer}
    (hworks : Works answer s.outbox.length) : Kept (Outbox.polled answer s) := by
  have hsame : ∀ i < s.outbox.length,
      answer i = if i < s.outbox.length then answer i else .ready := by
    intro i hi
    rw [if_pos hi]
  rw [polled_congr hsame]
  refine h.polled fun i err => ?_
  split
  · rename_i hi
    exact hworks i hi err
  · exact nofun

/-- A poll fails exactly if the sink does. -/
theorem wp_sinkOutbox_works (answer : Nat → SinkAnswer) (complete : Except Str Unit)
    (s : Socket μ) :
    wp (sinkOutbox answer complete)
      (fun _ t => Works answer s.outbox.length ∧ complete = .ok () ∧ t = Outbox.polled answer s)
      (fun _ _ => Works answer s.outbox.length → complete ≠ .ok ()) s := by
  unfold sinkOutbox
  rw [wp_bind, wp_get, wp_bind, wp_set, wp_bind]
  refine wp_mono ( wp_forM_prefix (E := fun _ _ => ¬ Works answer s.outbox.length)
    (fun done t => (∀ e ∈ done, ∀ err, answer e.2 ≠ .failed err) ∧ t =
      { s with
        accepted := s.accepted ++ answered answer .ready done
        outbox := answered answer .notReady done }) ?_ ?_) ?_ fun _ _ h hworks => (h hworks).elim
  · rintro done x rest hxs t ⟨hdone, rfl⟩
    have hmem : x ∈ s.outbox.zipIdx := by
      rw [hxs]
      exact List.mem_append_right _ List.mem_cons_self
    have hlt : x.2 < s.outbox.length := List.snd_lt_of_mem_zipIdx hmem
    have hmore : (∀ err, answer x.2 ≠ .failed err) →
        ∀ e ∈ done ++ [x], ∀ err, answer e.2 ≠ .failed err := by
      intro hx e he
      rcases List.mem_append.mp he with he | he
      · exact hdone e he
      · rwa [List.mem_singleton.mp he]
    rw [sinkOne]
    cases hx : answer x.2 with
    | ready => exact ⟨hmore (by simp [hx]), by simp [answered, hx]⟩
    | notReady => exact ⟨hmore (by simp [hx]), by simp [answered, hx]⟩
    | failed err => exact fun hworks => hworks x.2 hlt err hx
  · exact ⟨by simp, by simp [answered]⟩
  · rintro _ t ⟨hall, rfl⟩
    have hworks : Works answer s.outbox.length := by
      intro i hi
      exact hall (s.outbox[i], i) (List.mk_mem_zipIdx_iff_getElem?.mpr (List.getElem?_eq_getElem hi))
    cases complete with
    | ok _ => exact ⟨hworks, rfl, rfl⟩
    | error err => exact fun _ h => by cases h

theorem outbox_polled_eq_nil_iff {answer : Nat → SinkAnswer} {s : Socket μ} :
    (Outbox.polled answer s).outbox = [] ↔ ∀ i < s.outbox.length, answer i ≠ .notReady := by
  rw [List.eq_nil_iff_forall_not_mem]
  constructor
  · intro h i hi hrefused
    exact h s.outbox[i] (mem_answered.mpr ⟨i, List.getElem?_eq_getElem hi, hrefused⟩)
  · intro h x hx
    obtain ⟨i, hi, hrefused⟩ := mem_answered.mp hx
    obtain ⟨hlt, -⟩ := List.getElem?_eq_some_iff.mp hi
    exact h i hlt hrefused

theorem notMem_accepted {s : Socket μ} (h : Kept s) {x : Pushed μ} (hx : x ∈ s.outbox) :
    x ∉ s.accepted := by
  have hnodup : s.pushed.Nodup := h.pushed.imp fun hlt heq => by
    rw [heq] at hlt
    exact absurd hlt (Nat.lt_irrefl _)
  intro hacc
  exact (List.nodup_append.mp (h.perm.nodup_iff.mpr hnodup)).2.2 x hacc x hx rfl

end Sinks

section Replies

/-- How many replies a message gets before the registration. -/
def replyCount (m : ClientMessage) : Nat :=
  match m.command with
  | .nick _ => 0
  | .user _ _ _ => 0
  | .cap _ .req (some caps) none => (splitOn ' ' caps).length
  | .cap _ .req none (some caps) => (splitOn ' ' caps).length
  | .cap _ .capEnd _ _ => 0
  | .pass _ => 0
  | .quit _ => 0
  | .raw cmd args trailing => if (rawUser cmd args trailing).isSome then 0 else 1
  | _ => 1

/-- Some replies have been queued. -/
def Queues (n : Nat) (p q : PendingIrcConnection) : Prop :=
  (Kept p.outbox → Kept q.outbox) ∧ q.outbox.outbox.length = p.outbox.outbox.length + n

theorem queues_of_eq {p q : PendingIrcConnection} (h : q.outbox = p.outbox) : Queues 0 p q :=
  ⟨fun hkept => h ▸ hkept, by rw [h, Nat.add_zero]⟩

theorem Queues.trans {n k : Nat} {p q r : PendingIrcConnection} (h : Queues n p q)
    (h' : Queues k q r) : Queues (n + k) p r :=
  ⟨fun hkept => h'.1 (h.1 hkept), by rw [h'.2, h.2, Nat.add_assoc]⟩

theorem wp_reply_queues (cmd : String) (args : List Str) (suffix : Option Str)
    {p q : PendingIrcConnection} (h : q.outbox = p.outbox) :
    wp (reply cmd args suffix) (fun _ r => Queues 1 p r) (fun _ _ => False) q := by
  refine ⟨fun hkept => Kept.push (h ▸ hkept) _, ?_⟩
  change (q.outbox.outbox ++ [_]).length = _
  rw [h, List.length_append, List.length_singleton]

theorem wp_requestCap_queues (cap : Str) (p : PendingIrcConnection) :
    wp (requestCap cap) (fun _ q => Queues 1 p q) (fun _ _ => False) p := by
  unfold requestCap
  cases IrcCap.fromCapName cap with
  | some c =>
      dsimp only
      rw [wp_bind, wp_modify]
      exact wp_reply_queues _ _ _ rfl
  | none => exact wp_reply_queues _ _ _ rfl

theorem wp_requestCaps_queues (caps : List Str) (p : PendingIrcConnection) :
    wp (forM caps requestCap) (fun _ q => Queues caps.length p q) (fun _ _ => False) p := by
  refine wp_forM_prefix (fun done q => Queues done.length p q) (fun done cap rest _ q hq => ?_)
    (queues_of_eq rfl)
  refine wp_mono (wp_requestCap_queues cap q) (fun _ r hr => ?_) fun _ _ h => h
  rw [List.length_append, List.length_singleton]
  exact hq.trans hr

theorem wp_serve_queues (m : ClientMessage) (p : PendingIrcConnection) :
    wp (Registration.serve m) (fun _ q => Queues (replyCount m) p q) (fun _ _ => True) p := by
  obtain ⟨command, line⟩ := m
  have hreply : ∀ {r : PendingM Unit} {n : Nat} {q : PendingIrcConnection},
      wp r (fun _ u => Queues n p u) (fun _ _ => False) q →
        wp r (fun _ u => Queues n p u) (fun _ _ => True) q :=
    fun h => wp_mono h (fun _ _ hu => hu) fun _ _ _ => trivial
  rw [Registration.serve, wp_bind, wp_modify]
  cases command with
  | nick name => exact queues_of_eq rfl
  | user user mode realname => exact queues_of_eq rfl
  | quit reason => trivial
  | pass password => exact queues_of_eq rfl
  | raw cmd args trailing =>
      unfold Registration.handleRemoteMessage replyCount
      dsimp only
      cases rawUser cmd args trailing with
      | some u => exact queues_of_eq rfl
      | none => exact hreply (wp_reply_queues _ _ _ rfl)
  | cap target sub code params =>
      have hcaps : ∀ (caps : List Str) (q : PendingIrcConnection), q.outbox = p.outbox →
          wp (forM caps requestCap) (fun _ u => Queues caps.length p u) (fun _ _ => False) q := by
        intro caps q hq
        refine wp_mono (wp_requestCaps_queues caps q) (fun _ u hu => ?_) fun _ _ h => h
        have := (queues_of_eq hq).trans hu
        rwa [Nat.zero_add] at this
      cases sub with
      | ls =>
          change wp (do
            modify fun p => { p with capEnded := false }
            reply "CAP" [("LS" : Str)] (some supportedCaps)) _ _ _
          rw [wp_bind, wp_modify]
          exact hreply (wp_reply_queues _ _ _ rfl)
      | capEnd => exact queues_of_eq rfl
      | list =>
          change wp (do
            let p ← get
            reply "CAP" [("LIST" : Str)] (some (join [' '] (p.caps.map IrcCap.capName)))) _ _ _
          rw [wp_bind, wp_get]
          exact hreply (wp_reply_queues _ _ _ rfl)
      | req =>
          cases code with
          | none =>
              cases params with
              | none => exact hreply (wp_reply_queues _ _ _ rfl)
              | some caps => exact hreply (hcaps _ _ rfl)
          | some caps =>
              cases params with
              | none => exact hreply (hcaps _ _ rfl)
              | some more => exact hreply (wp_reply_queues _ _ _ rfl)
      | other => exact hreply (wp_reply_queues _ _ _ rfl)
  | _ => exact hreply (wp_reply_queues _ _ _ rfl)

/-- A connection when it has been greeted. -/
def greeted (p : PendingIrcConnection) : PendingIrcConnection :=
  (exec greet p).2

theorem wp_greet (items : List Readable) (p : PendingIrcConnection) :
    wp greet (fun _ q => q = { greeted p with sock := items }) (fun _ _ => False)
      { p with sock := items } := by
  obtain ⟨g, hg⟩ := exec_greet p
  have hsame := (pendingBlind_sock items).greet p
  unfold wp greeted
  rw [hsame, hg]

theorem queues_greeted (p : PendingIrcConnection) :
    Queues (if p.new then 1 else 0) p (greeted p) := by
  have hwp : wp greet (fun _ q => Queues (if p.new then 1 else 0) p q) (fun _ _ => False) p := by
    rw [greet, wp_bind, wp_get]
    cases hnew : p.new with
    | true =>
        rw [wp_when, if_pos rfl, wp_bind, wp_modify]
        exact wp_reply_queues _ _ _ rfl
    | false => exact queues_of_eq rfl
  exact wp_exec_snd (wp_mono hwp (fun _ _ h => h) fun _ _ h => h.elim)

/-- A connection that has handled its messages, between two polls. -/
structure Waiting (addr : SocketAddr) (p : PendingIrcConnection) : Prop where
  learned : Learned addr p.handled (greeted p)
  kept : Kept p.outbox

theorem waiting_incoming (addr : SocketAddr) : Waiting addr (fromIncoming [] addr) where
  learned := by
    have hrun : wp (do
          greet
          forM [] Registration.serve)
        (fun _ p => Learned addr [] p) (fun _ p => Learned addr [] p) (fromIncoming [] addr) := by
      apply wp_mono (wp_pendingRun addr []) (fun _ _ h => h)
      rintro e p ⟨⟨m, hm, -⟩, -⟩
      cases hm
    exact wp_exec_snd hrun
  kept := .new

theorem waiting_of_learned {addr : SocketAddr} {ms : List ClientMessage}
    {p : PendingIrcConnection} (h : Learned addr ms p) (hkept : Kept p.outbox) :
    Waiting addr p := by
  refine ⟨?_, hkept⟩
  have hgreet : greeted p = p := by
    rw [greeted, greet, exec_bind, exec_get]
    simp only [h.new, Program.when, Bool.false_eq_true, if_false, exec_pure]
  rw [hgreet, h.handled]
  exact h

theorem learned_outbox {addr : SocketAddr} {ms : List ClientMessage} {p : PendingIrcConnection}
    (h : Learned addr ms p) (out : Socket IrcMessage) :
    Learned addr ms { p with outbox := out } := { h with }

theorem wp_sinkInto {σ : Type} {get : σ → Socket IrcMessage}
    {set : σ → Socket IrcMessage → σ} {w : Wire} {Q : Unit → σ → Prop} {E : Failure → σ → Prop}
    {s : σ} (h : wp (sinkOutbox w.startSend w.complete) (fun r out => Q r (set s out))
      (fun e out => E (.error e) (set s out)) (get s)) : wp (sinkInto get set w) Q E s := by
  unfold wp at h ⊢
  rw [exec_sinkInto]
  rcases hout : exec (sinkOutbox w.startSend w.complete) (get s) with ⟨e | _, out⟩
  · rw [hout] at h
    exact h
  · rw [hout] at h
    exact h

/-- What is readable is handled: if it is all messages, and the client does not quit. -/
theorem wp_readSock {addr : SocketAddr} {ms : List ClientMessage}
    {g : PendingIrcConnection} (h : Learned addr ms g) (items : List Readable) :
    wp Registration.readSock
      (fun _ q => ∃ batch : List ClientMessage, items = batch.map .message ∧
        Learned addr (ms ++ batch) q ∧ Queues (batch.map replyCount).sum g q)
      (fun _ _ => ∀ batch : List ClientMessage, items = batch.map .message →
        ¬ Complete (ms ++ batch)) { g with sock := items } := by
  have hsame : ({ g with sock := [] } : PendingIrcConnection) = g := by rw [← h.sock]
  rw [Registration.readSock, wp_bind, wp_get, wp_bind, wp_set]
  dsimp only
  rw [hsame, readAll]
  refine wp_forM_prefix (fun done q => ∃ batch : List ClientMessage,
    done = batch.map Readable.message ∧ Learned addr (ms ++ batch) q ∧
      Queues (batch.map replyCount).sum g q) ?_ ⟨[], rfl, by rwa [List.append_nil], queues_of_eq rfl⟩
  rintro done x rest hitems q ⟨batch, rfl, hlearned, hqueues⟩
  have hother : (∀ m, x ≠ .message m) → ∀ whole : List ClientMessage,
      items = whole.map .message → ¬ Complete (ms ++ whole) := by
    intro hx whole hwhole
    have hmem : x ∈ whole.map Readable.message := by
      rw [← hwhole, hitems]
      exact List.mem_append_right _ List.mem_cons_self
    obtain ⟨m, -, rfl⟩ := List.mem_map.mp hmem
    exact absurd rfl (hx m)
  cases x with
  | message m =>
      refine wp_mono (wp_and (hlearned.serve m) (wp_serve_queues m q)) ?_ ?_
      · rintro _ r ⟨hr, hmore⟩
        refine ⟨batch ++ [m], by rw [List.map_append]; rfl, by rwa [← List.append_assoc], ?_⟩
        rw [List.map_append, List.sum_append, List.map_singleton, List.sum_singleton]
        exact hqueues.trans hmore
      · rintro e r ⟨⟨hquit, -⟩, -⟩ whole hwhole hcomplete
        have hmem : Readable.message m ∈ whole.map Readable.message := by
          rw [← hwhole, hitems]
          exact List.mem_append_right _ List.mem_cons_self
        obtain ⟨m', hm', heq⟩ := List.mem_map.mp hmem
        cases heq
        exact hcomplete.stays m (List.mem_append_right _ hm') hquit
  | disconnected => exact hother (by rintro _ ⟨⟩)
  | failed err => exact hother (by rintro _ ⟨⟩)

end Replies

section Wrappers

variable [Crates]

/-- `PendingIrcConnectionWrapper::poll`, with the connection that is handed over. -/
def wrapperPoll (store : Store) (now : NaiveDateTime) (w : Wire) :
    PendingM (Option IrcConnection) := do
  if ← Registration.poll w then
    let p ← get
    let reginfo ← unwrap .registrationField (registrationInformation p)
    pure (some (fromPending p reginfo store now))
  else pure none

theorem exec_pollPending (w : Wire) (p : PendingIrcConnection) (s : IrcServer) :
    exec (pollPending w p) s =
      match exec (wrapperPoll s.store s.now w) p with
      | (.ok none, p') => (.ok (some p'), s)
      | (.ok (some c), _) => (.ok none, { s with connections := s.connections ++ [c] })
      | (.error (.panic site), _) => (.error (.panic site), s)
      | (.error _, _) => (.ok none, s) := by
  rw [pollPending, wrapperPoll, exec_bind]
  rcases exec (Registration.poll w) p with ⟨e | b, p'⟩
  · cases e <;> rfl
  · cases b with
    | true =>
        dsimp only
        rw [if_pos rfl, exec_bind, exec_bind, exec_get]
        dsimp only
        rw [exec_bind]
        cases registrationInformation p' <;> rfl
    | false => rfl

/-- A poll of a pending connection: what is readable, how the socket takes what is written,
and the database and the time. -/
structure Polled where
  items : List Readable
  wire : Wire
  store : Store
  now : NaiveDateTime

/-- A wrapper, and what it has become ready with. -/
structure Wrapper where
  inner : PendingIrcConnection
  outcome : Option (Except Failure IrcConnection)

def step (s : Wrapper) (e : Polled) : Wrapper :=
  match exec (wrapperPoll e.store e.now e.wire) { s.inner with sock := e.items } with
  | (.ok none, q) => ⟨q, none⟩
  | (.ok (some c), q) => ⟨q, some (.ok c)⟩
  | (.error err, q) => ⟨q, some (.error err)⟩

def next (s : Wrapper) (e : Polled) : Option Wrapper :=
  match s.outcome with
  | none => some (step s e)
  | some _ => none

def incoming (addr : SocketAddr) : Wrapper := ⟨fromIncoming [] addr, none⟩

/-- Every reply that has been queued is accepted, or is in the outbox that is handed over. -/
def Delivered (s : Wrapper) : Prop :=
  ∀ c, s.outcome = some (.ok c) → ∀ x ∈ s.inner.outbox.pushed,
    x ∈ s.inner.outbox.accepted ∨ x ∈ c.outbox.outbox

/-- How many messages a poll offers to the sink. -/
def offered (p : PendingIrcConnection) (batch : List ClientMessage) : Nat :=
  p.outbox.outbox.length + (if p.new then 1 else 0) + (batch.map replyCount).sum

/-- The messages that are read complete the registration, and the socket does not fail. -/
structure HandsOver (p : PendingIrcConnection) (e : Polled) (batch : List ClientMessage) :
    Prop where
  read : e.items = batch.map .message
  complete : Complete (p.handled ++ batch)
  works : Works e.wire.startSend (offered p batch)
  written : e.wire.complete = .ok ()
  flushed : e.wire.flushed = .ok true

/-- The sink gives no message back in a poll that hands the connection over. -/
def TakesAll (s : Wrapper) (e : Polled) : Prop :=
  ∀ batch, HandsOver s.inner e batch → ∀ i < offered s.inner batch,
    e.wire.startSend i ≠ .notReady

theorem wp_wrapperPoll {addr : SocketAddr} {p : PendingIrcConnection} (h : Waiting addr p)
    (e : Polled) :
    wp (wrapperPoll e.store e.now e.wire)
      (fun r q => match r with
        | none => Waiting addr q ∧ ∀ batch, ¬ HandsOver p e batch
        | some c => ∃ batch out, HandsOver p e batch ∧ Kept out ∧
            out.outbox.length = offered p batch ∧
              q.outbox = Outbox.polled e.wire.startSend out ∧ c.outbox = .new)
      (fun _ _ => ∀ batch, ¬ HandsOver p e batch) { p with sock := e.items } := by
  rw [wrapperPoll, wp_bind, Registration.poll, wp_bind]
  refine wp_mono (wp_greet e.items p) ?_ fun _ _ hno => hno.elim
  rintro _ _ rfl
  rw [wp_bind]
  refine wp_mono (wp_readSock h.learned e.items) ?_ fun _ _ hno batch hover =>
    hno batch hover.read hover.complete
  rintro _ q ⟨batch, hitems, hlearned, hqueues⟩
  have hall := (queues_greeted p).trans hqueues
  have hkept : Kept q.outbox := hall.1 h.kept
  have hoffered : q.outbox.outbox.length = offered p batch := by
    rw [hall.2, offered, Nat.add_assoc]
  have hsame : ∀ batch', HandsOver p e batch' → batch' = batch := fun batch' hover =>
    List.map_injective_iff.mpr (fun _ _ heq => Readable.message.inj heq)
      (hover.read.symm.trans hitems)
  rw [wp_bind]
  refine wp_sinkInto (wp_mono (wp_sinkOutbox_works _ _ _) ?_ ?_)
  · rintro _ _ ⟨hworks, hwritten, rfl⟩
    have hlearned' := learned_outbox hlearned (Outbox.polled e.wire.startSend q.outbox)
    have hcomplete := hlearned'.complete_iff
    have hwaiting := waiting_of_learned hlearned' (kept_polled hkept hworks)
    rw [isDone, wp_bind, wp_get]
    cases hdone : PendingIrcConnection.complete
        { q with outbox := Outbox.polled e.wire.startSend q.outbox } with
    | false =>
        refine ⟨hwaiting, fun batch' hover => ?_⟩
        obtain rfl := hsame batch' hover
        rw [hcomplete.mpr hover.complete] at hdone
        cases hdone
    | true =>
        rw [if_pos rfl]
        cases hflushed : e.wire.flushed with
        | error err =>
            intro batch' hover
            rw [hover.flushed] at hflushed
            cases hflushed
        | ok ready =>
            cases ready with
            | false =>
                refine ⟨hwaiting, fun batch' hover => ?_⟩
                rw [hover.flushed] at hflushed
                cases hflushed
            | true =>
                obtain ⟨info, hinfo⟩ := exists_registrationInformation hdone
                dsimp only
                rw [wp_pure, if_pos rfl, wp_bind, wp_get, hinfo, wp_bind, wp_unwrap_some]
                refine ⟨batch, q.outbox, ⟨hitems, hcomplete.mp hdone, ?_, hwritten, hflushed⟩,
                  hkept, hoffered, rfl, rfl⟩
                rwa [← hoffered]
  · intro err out hfails batch' hover
    obtain rfl := hsame batch' hover
    exact hfails (hoffered.symm ▸ hover.works) hover.written

theorem step_delivered {addr : SocketAddr} {s : Wrapper} (h : Waiting addr s.inner)
    (e : Polled) :
    ((step s e).outcome = none → Waiting addr (step s e).inner) ∧
      (Delivered (step s e) ↔ TakesAll s e) := by
  have hpoll := wp_wrapperPoll h e
  unfold wp at hpoll
  rcases hrun : exec (wrapperPoll e.store e.now e.wire) { s.inner with sock := e.items } with
    ⟨err | r, q⟩
  · rw [hrun] at hpoll
    have hstep : step s e = ⟨q, some (.error err)⟩ := by rw [step, hrun]
    rw [hstep]
    exact ⟨nofun, iff_of_true nofun fun batch hover => absurd hover (hpoll batch)⟩
  · rw [hrun] at hpoll
    cases r with
    | none =>
        have hstep : step s e = ⟨q, none⟩ := by rw [step, hrun]
        rw [hstep]
        exact ⟨fun _ => hpoll.1, iff_of_true nofun fun batch hover => absurd hover (hpoll.2 batch)⟩
    | some c =>
        obtain ⟨batch, out, hover, hkept, hlen, hout, hnew⟩ := hpoll
        have hstep : step s e = ⟨q, some (.ok c)⟩ := by rw [step, hrun]
        have hkept' : Kept q.outbox := hout ▸ kept_polled hkept (hlen.symm ▸ hover.works)
        have hempty : q.outbox.outbox = [] ↔ ∀ i < offered s.inner batch,
            e.wire.startSend i ≠ .notReady := by
          rw [hout, outbox_polled_eq_nil_iff, hlen]
        rw [hstep]
        refine ⟨nofun, ?_⟩
        constructor
        · intro hdelivered batch' hover'
          obtain rfl : batch' = batch := List.map_injective_iff.mpr
            (fun _ _ heq => Readable.message.inj heq) (hover'.read.symm.trans hover.read)
          rw [← hempty, List.eq_nil_iff_forall_not_mem]
          intro x hx
          rcases hdelivered c rfl x (hkept'.outbox_subset x hx) with hacc | hin
          · exact notMem_accepted hkept' hx hacc
          · rw [hnew] at hin
            cases hin
        · intro htakes c' hc' x hx
          have hnil := hempty.mpr (htakes batch hover)
          have hmem := hkept'.perm.symm.subset hx
          rw [hnil, List.append_nil] at hmem
          exact .inl hmem

/-- No reply is lost in exactly those runs in which the sink gives no message back in the poll
that hands the connection over. -/
theorem delivered_iff {addr : SocketAddr} {es : List Polled} {t : Wrapper}
    (hrun : run next (incoming addr) es = some t) :
    (∀ k u, run next (incoming addr) (es.take k) = some u → Delivered u) ↔
      AllSteps next TakesAll (incoming addr) es := by
  have hstart : (incoming addr).outcome = none → Waiting addr (incoming addr).inner :=
    fun _ => waiting_incoming addr
  have hopen : ∀ s e t, next s e = some t → s.outcome = none ∧ t = step s e := by
    intro s e t ht
    unfold next at ht
    split at ht
    · rename_i hnone
      exact ⟨hnone, (Option.some.inj ht).symm⟩
    · cases ht
  have hsteps : ∀ s e t, (s.outcome = none → Waiting addr s.inner) → next s e = some t →
      (t.outcome = none → Waiting addr t.inner) := by
    intro s e t h ht
    obtain ⟨hnone, rfl⟩ := hopen s e t ht
    exact (step_delivered (h hnone) e).1
  rw [← forall_take_iff_allSteps
    (P := fun s => (s.outcome = none → Waiting addr s.inner) ∧ Delivered s) ?_
    ⟨hstart, nofun⟩ hrun]
  · refine forall_congr' fun k => forall_congr' fun u => imp_congr_right fun hu => ?_
    rw [and_iff_right (invariant hsteps hstart hu)]
  · rintro s e t ⟨h, -⟩ ht
    obtain ⟨hnone, rfl⟩ := hopen s e t ht
    rw [and_iff_right (step_delivered (h hnone) e).1, (step_delivered (h hnone) e).2]

end Wrappers

section Samples

attribute [local instance] Sample.crates

def clientAddr : SocketAddr := ⟨("192.0.2.1" : Str), 40000⟩

/-- A client registers at once. -/
def registering (w : Wire) : Polled where
  items := [.message ⟨.nick ['n'], ("NICK n" : Str)⟩,
    .message ⟨.user ['u'] ['0'] ['r'], ("USER u 0 * :r" : Str)⟩]
  wire := w
  store := Sample.store
  now := 0

/-- The sink gives the greeting back, and is flushed then. -/
def busy : Wire := ⟨refuseFirst, .ok (), .ok true⟩

theorem delivered_writable :
    AllSteps next TakesAll (incoming clientAddr) [registering .writable] ∧ ∀ k u,
      run next (incoming clientAddr) ([registering .writable].take k) = some u → Delivered u := by
  have hrun : run next (incoming clientAddr) [registering .writable] =
      some (step (incoming clientAddr) (registering .writable)) := rfl
  have htakes : AllSteps next TakesAll (incoming clientAddr) [registering .writable] :=
    allSteps_cons (fun batch hover i hi => nofun) rfl trivial
  exact ⟨htakes, (delivered_iff hrun).mpr htakes⟩

/-- The greeting is neither sent nor kept. -/
theorem loses_greeting : ∃ s,
    run next (incoming clientAddr) [registering busy] = some s ∧ ¬ Delivered s := by
  refine ⟨_, rfl, fun h => ?_⟩
  have hsteps : TakesAll (incoming clientAddr) (registering busy) :=
    (step_delivered (waiting_incoming clientAddr) _).2.mp h
  refine hsteps [⟨.nick ['n'], ("NICK n" : Str)⟩,
    ⟨.user ['u'] ['0'] ['r'], ("USER u 0 * :r" : Str)⟩] ⟨rfl, ?_, ?_, rfl, rfl⟩ 0 (by decide) rfl
  · refine ⟨?_, ⟨_, List.mem_cons_self, _, rfl⟩,
      ⟨_, List.mem_cons_of_mem _ List.mem_cons_self, rfl⟩, rfl⟩
    rintro m hm ⟨reason, hreason⟩
    rcases List.mem_cons.mp hm with rfl | hm
    · cases hreason
    · obtain rfl := List.mem_singleton.mp hm
      cases hreason
  · intro i _ err
    change refuseFirst i ≠ _
    unfold refuseFirst
    split <;> simp

end Samples

end SmsIrc.Handover
