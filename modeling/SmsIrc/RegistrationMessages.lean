import SmsIrc.IrcFrames

/-!
What the messages of an IRC client make of its pending connection, and which of them completes
the registration.
-/

namespace SmsIrc.RegistrationMessages

open SmsIrc.IrcFrames SmsIrc.Outbox SmsIrc.Program SmsIrc.Registration SmsIrc.Text SmsIrc.Util

def Quits (m : ClientMessage) : Prop := ∃ reason, m.command = .quit reason

def Names (m : ClientMessage) : Prop := ∃ name, m.command = .nick name

/-- The user and the real name that a message gives. -/
def told (m : ClientMessage) : Option (Str × Str) :=
  match m.command with
  | .user user _ realname => some (user, realname)
  | .raw cmd args trailing => rawUser cmd args trailing
  | _ => none

/-- Whether no negotiation of capabilities is open after a message. -/
def capsAfter (closed : Bool) (m : ClientMessage) : Bool :=
  match m.command with
  | .cap _ .ls _ _ => false
  | .cap _ .capEnd _ _ => true
  | _ => closed

/-- Messages that make a registration: the client has not quit, has given its nick and its
user, and negotiates no capabilities. -/
structure Complete (ms : List ClientMessage) : Prop where
  stays : ∀ m ∈ ms, ¬ Quits m
  named : ∃ m ∈ ms, Names m
  introduced : ∃ m ∈ ms, (told m).isSome
  negotiated : ms.foldl capsAfter true = true

/-- The messages up to the one that completes the registration. -/
structure Completing (ms before : List ClientMessage) : Prop where
  isPrefix : before <+: ms
  complete : Complete before
  first : ∀ earlier, earlier <+: before → Complete earlier → earlier = before

theorem Completing.unique {ms b b' : List ClientMessage} (h : Completing ms b)
    (h' : Completing ms b') : b = b' := by
  rcases List.prefix_or_prefix_of_prefix h.isPrefix h'.isPrefix with hb | hb
  · exact h'.first b hb h.complete
  · exact (h.first b' hb h'.complete).symm

theorem exists_completing {ms whole : List ClientMessage} (hwhole : whole <+: ms)
    (h : Complete whole) : ∃ before, Completing ms before ∧ before <+: whole := by
  induction hn : whole.length using Nat.strong_induction_on generalizing whole with
  | _ n ih =>
      by_cases hfirst : ∀ earlier, earlier <+: whole → Complete earlier → earlier = whole
      · exact ⟨whole, ⟨hwhole, h, hfirst⟩, List.prefix_rfl⟩
      · push Not at hfirst
        obtain ⟨earlier, hearlier, hcomplete, hne⟩ := hfirst
        have hlt : earlier.length < whole.length :=
          lt_of_le_of_ne hearlier.length_le fun heq => hne (hearlier.eq_of_length heq)
        obtain ⟨before, hbefore, hpre⟩ :=
          ih earlier.length (by omega) (hearlier.trans hwhole) hcomplete rfl
        exact ⟨before, hbefore, hpre.trans hearlier⟩

/-- The message that completes the registration, if one does, is the last of a batch. -/
def EndsBatch (ms : List ClientMessage) (d : List (List ClientMessage)) : Prop :=
  ∀ before, Completing ms before → ∃ k, (d.take k).flatten = before

theorem isPrefix_flatten_take (d : List (List ClientMessage)) (k : Nat) :
    (d.take k).flatten <+: d.flatten :=
  ⟨(d.drop k).flatten, by rw [← List.flatten_append, List.take_append_drop]⟩

/-- The first batches that make a registration end with the message that completes it. -/
theorem take_eq_before {d : List (List ClientMessage)} {k : Nat} {before : List ClientMessage}
    (hbefore : Completing d.flatten before) (hcomplete : Complete (d.take k).flatten)
    (hfirst : ∀ j < k, ¬ Complete (d.take j).flatten) (hends : ∃ j, (d.take j).flatten = before) :
    (d.take k).flatten = before := by
  obtain ⟨j, hj⟩ := hends
  obtain ⟨first, hfirst', hpre⟩ := exists_completing (isPrefix_flatten_take d k) hcomplete
  rw [hfirst'.unique hbefore] at hpre
  have hle : k ≤ j := not_lt.mp fun hlt => hfirst j hlt (hj ▸ hbefore.complete)
  have hpre' : (d.take k).flatten <+: before := by
    have htake : (d.take j).take k = d.take k := by rw [List.take_take, min_eq_left hle]
    rw [← hj, ← htake]
    exact isPrefix_flatten_take _ _
  exact (hpre.eq_of_length_le hpre'.length_le).symm

theorem not_complete_nil : ¬ Complete [] := fun h => by
  obtain ⟨m, hm, -⟩ := h.named
  cases hm

/-- However many of the batches have been read, they do not make a registration. -/
def Unregistered (d : List (List ClientMessage)) : Prop := ∀ k, ¬ Complete (d.take k).flatten

theorem Unregistered.concat {d : List (List ClientMessage)} {batch : List ClientMessage}
    (hd : Unregistered d) (hbatch : ¬ Complete (d.flatten ++ batch)) :
    Unregistered (d ++ [batch]) := by
  intro k
  by_cases hk : k ≤ d.length
  · rw [List.take_append_of_le_length hk]
    exact hd k
  · rw [List.take_of_length_le (by simp; omega), List.flatten_append, List.flatten_singleton]
    exact hbatch

section Pending

/-- What the messages so far have made of a pending connection. -/
structure Learned (addr : SocketAddr) (ms : List ClientMessage) (p : PendingIrcConnection) :
    Prop where
  sock : p.sock = []
  addr : p.addr = addr
  new : p.new = false
  handled : p.handled = ms
  stays : ∀ m ∈ ms, ¬ Quits m
  nick : p.nick.isSome ↔ ∃ m ∈ ms, Names m
  user : p.user.isSome ↔ ∃ m ∈ ms, (told m).isSome
  realname : p.realname.isSome ↔ ∃ m ∈ ms, (told m).isSome
  capEnded : p.capEnded = ms.foldl capsAfter true

theorem Learned.complete_iff {addr : SocketAddr} {ms : List ClientMessage}
    {p : PendingIrcConnection} (h : Learned addr ms p) : p.complete = true ↔ Complete ms := by
  unfold PendingIrcConnection.complete
  rw [Bool.and_eq_true, Bool.and_eq_true, Bool.and_eq_true, h.nick, h.user, h.realname, h.capEnded]
  exact ⟨fun ⟨⟨⟨hcap, hnick⟩, huser⟩, _⟩ => ⟨h.stays, hnick, huser, hcap⟩,
    fun hc => ⟨⟨⟨hc.negotiated, hc.named⟩, hc.introduced⟩, hc.introduced⟩⟩

theorem exists_registrationInformation {p : PendingIrcConnection} (h : p.complete = true) :
    ∃ info, registrationInformation p = some info := by
  unfold PendingIrcConnection.complete at h
  rw [Bool.and_eq_true, Bool.and_eq_true, Bool.and_eq_true] at h
  obtain ⟨⟨⟨-, hnick⟩, huser⟩, hrealname⟩ := h
  obtain ⟨nick, hnick⟩ := Option.isSome_iff_exists.mp hnick
  obtain ⟨user, huser⟩ := Option.isSome_iff_exists.mp huser
  obtain ⟨realname, hrealname⟩ := Option.isSome_iff_exists.mp hrealname
  exact ⟨_, by rw [registrationInformation, hnick, huser, hrealname]⟩

/-- What handling a message may do besides. -/
def Outward (p q : PendingIrcConnection) : Prop := ∃ o cs, q = { p with outbox := o, caps := cs }

instance : IsPreorder PendingIrcConnection Outward where
  refl p := ⟨p.outbox, p.caps, rfl⟩
  trans := by
    rintro p _ _ ⟨o, cs, rfl⟩ ⟨o', cs', rfl⟩
    exact ⟨o', cs', rfl⟩

theorem outward_reply (cmd : String) (args : List Str) (suffix : Option Str) :
    Steps Outward (fun _ => False) (reply cmd args suffix) :=
  steps_modify fun p => ⟨_, p.caps, rfl⟩

theorem outward_requestCap (cap : Str) : Steps Outward (fun _ => False) (requestCap cap) := by
  unfold requestCap
  cases IrcCap.fromCapName cap with
  | some c =>
      exact Steps.bind (steps_modify fun p => ⟨p.outbox, _, rfl⟩) fun _ => outward_reply _ _ _
  | none => exact outward_reply _ _ _

/-- What a message says is learned, and QUIT is the only one that ends the connection. -/
theorem wp_handleRemoteMessage (m : ClientMessage) (p : PendingIrcConnection) :
    wp (Registration.handleRemoteMessage m)
      (fun _ q => ¬ Quits m ∧ Outward { p with
        nick := match m.command with | .nick name => some name | _ => p.nick
        user := match told m with | some u => some u.1 | none => p.user
        realname := match told m with | some u => some u.2 | none => p.realname
        capEnded := capsAfter p.capEnded m } q)
      (fun e _ => Quits m ∧ ∃ text, e = .error text) p := by
  obtain ⟨command, line⟩ := m
  have hstay : ∀ {r : PendingM Unit} {q q' : PendingIrcConnection},
      (∀ reason, command ≠ .quit reason) → q' = q → Steps Outward (fun _ => False) r →
      wp r (fun _ u => ¬ Quits ⟨command, line⟩ ∧ Outward q u)
        (fun e _ => Quits ⟨command, line⟩ ∧ ∃ text, e = .error text) q' := by
    rintro r q _ hquit rfl hr
    exact wp_mono (hr _) (fun _ _ hu => ⟨fun ⟨reason, h⟩ => hquit reason h, hu⟩)
      fun _ _ he => he.2.elim
  cases command with
  | nick name => exact ⟨fun ⟨_, h⟩ => (by cases h), p.outbox, p.caps, rfl⟩
  | user user mode realname => exact ⟨fun ⟨_, h⟩ => (by cases h), p.outbox, p.caps, rfl⟩
  | quit reason => exact ⟨⟨reason, rfl⟩, _, rfl⟩
  | pass password => exact hstay (by simp) rfl (steps_pure _)
  | raw cmd args trailing =>
      unfold Registration.handleRemoteMessage told
      dsimp only
      cases rawUser cmd args trailing with
      | some u => exact ⟨fun ⟨_, h⟩ => (by cases h), p.outbox, p.caps, rfl⟩
      | none => exact hstay (by simp) rfl (outward_reply _ _ _)
  | cap target sub code params =>
      have hcaps : ∀ caps, Steps Outward (fun _ => False) (forM (splitOn ' ' caps) requestCap) :=
        fun caps => Steps.forM fun cap _ => outward_requestCap cap
      cases sub with
      | ls =>
          change wp (do
            modify fun p => { p with capEnded := false }
            reply "CAP" [("LS" : Str)] (some supportedCaps)) _ _ p
          rw [wp_bind, wp_modify]
          exact hstay (by simp) rfl (outward_reply _ _ _)
      | capEnd => exact ⟨fun ⟨_, h⟩ => (by cases h), p.outbox, p.caps, rfl⟩
      | list => exact hstay (by simp) rfl (Steps.bind steps_get fun _ => outward_reply _ _ _)
      | req =>
          cases code with
          | none =>
              cases params with
              | none => exact hstay (by simp) rfl (outward_reply _ _ _)
              | some caps => exact hstay (by simp) rfl (hcaps caps)
          | some caps =>
              cases params with
              | none => exact hstay (by simp) rfl (hcaps caps)
              | some more => exact hstay (by simp) rfl (outward_reply _ _ _)
      | other => exact hstay (by simp) rfl (outward_reply _ _ _)
  | _ => exact hstay (by simp) rfl (outward_reply _ _ _)

theorem Learned.serve {addr : SocketAddr} {ms : List ClientMessage} {p : PendingIrcConnection}
    (h : Learned addr ms p) (m : ClientMessage) :
    wp (Registration.serve m) (fun _ q => Learned addr (ms ++ [m]) q)
      (fun e _ => Quits m ∧ ∃ text, e = .error text) p := by
  rw [Registration.serve, wp_bind, wp_modify]
  refine wp_mono (wp_handleRemoteMessage m _) ?_ fun _ _ he => he
  rintro _ _ ⟨hquit, o, cs, rfl⟩
  have hone : ∀ P : ClientMessage → Prop, (∃ x ∈ ms ++ [m], P x) ↔ (∃ x ∈ ms, P x) ∨ P m := by
    intro P
    simp only [List.mem_append, List.mem_singleton, or_and_right, exists_or, exists_eq_left]
  refine ⟨h.sock, h.addr, h.new, by rw [h.handled], fun x hx => ?_, ?_, ?_, ?_, ?_⟩
  · rcases List.mem_append.mp hx with hx | hx
    · exact h.stays x hx
    · rwa [List.mem_singleton.mp hx]
  · rw [hone, ← h.nick]
    unfold Names
    dsimp only
    split
    · rename_i name hname
      exact iff_of_true rfl (.inr ⟨name, hname⟩)
    · rename_i hno
      exact ⟨.inl, fun hor => hor.resolve_right (not_exists.mpr hno)⟩
  · rw [hone, ← h.user]
    dsimp only
    cases told m with
    | some u => exact iff_of_true rfl (.inr rfl)
    | none => exact ⟨.inl, fun hor => hor.resolve_right (by simp)⟩
  · rw [hone, ← h.realname]
    dsimp only
    cases told m with
    | some u => exact iff_of_true rfl (.inr rfl)
    | none => exact ⟨.inl, fun hor => hor.resolve_right (by simp)⟩
  · rw [List.foldl_append, h.capEnded]
    rfl

theorem Learned.serveAll {addr : SocketAddr} {ms : List ClientMessage} {p : PendingIrcConnection}
    (h : Learned addr ms p) (batch : List ClientMessage) :
    wp (forM batch Registration.serve) (fun _ q => Learned addr (ms ++ batch) q)
      (fun e _ => (∃ m ∈ batch, Quits m) ∧ ∃ text, e = .error text) p := by
  refine wp_forM_prefix (fun done q => Learned addr (ms ++ done) q) ?_ (by rwa [List.append_nil])
  intro done m rest hbatch q hq
  apply wp_mono (hq.serve m) (fun _ u hu => by rwa [← List.append_assoc])
  rintro e u ⟨hquit, text, rfl⟩
  exact ⟨⟨m, by simp [hbatch], hquit⟩, text, rfl⟩

/-- A pending connection when it has been greeted and its messages have been handled. -/
def pendingRun (addr : SocketAddr) (ms : List ClientMessage) :
    Except Failure Unit × PendingIrcConnection :=
  exec (do
    greet
    forM ms Registration.serve) (fromIncoming [] addr)

theorem wp_pendingRun (addr : SocketAddr) (ms : List ClientMessage) :
    wp (do
        greet
        forM ms Registration.serve)
      (fun _ p => Learned addr ms p)
      (fun e _ => (∃ m ∈ ms, Quits m) ∧ ∃ text, e = .error text) (fromIncoming [] addr) := by
  have hgreeted : wp greet (fun _ p => Learned addr [] p) (fun _ _ => False)
      (fromIncoming [] addr) := by
    rw [greet, wp_bind, wp_get]
    constructor <;> simp [fromIncoming]
  rw [wp_bind]
  exact wp_mono hgreeted (fun _ _ hp => hp.serveAll ms) fun _ _ he => he.elim

/-- A pending connection that has handled some messages, whatever has been written to its
socket. -/
structure Waits (addr : SocketAddr) (ms : List ClientMessage) (p : PendingIrcConnection) :
    Prop where
  sock : p.sock = []
  serves : ∀ batch : List ClientMessage, exec (do
    greet
    forM batch Registration.serve) (heldPending p) = pendingRun addr (ms ++ batch)
  addr : p.addr = addr

theorem waits_fromIncoming (addr : SocketAddr) : Waits addr [] (fromIncoming [] addr) :=
  ⟨rfl, fun _ => rfl, rfl⟩

theorem Learned.waits {addr : SocketAddr} {ms : List ClientMessage} {p : PendingIrcConnection}
    (h : Learned addr ms (heldPending p)) (hrun : pendingRun addr ms = (.ok (), heldPending p)) :
    Waits addr ms p := by
  refine ⟨h.sock, fun batch => ?_, h.addr⟩
  have hgreet : exec greet (heldPending p) = (.ok (), heldPending p) := by
    rw [greet, exec_bind, exec_get]
    simp only [h.new, Program.when, Bool.false_eq_true, if_false, exec_pure]
  rw [exec_bind_ok hgreet]
  unfold pendingRun at hrun ⊢
  rw [List.forM_append, ← bind_assoc, exec_bind_ok hrun]

theorem exec_greet (p : PendingIrcConnection) : ∃ g, exec greet p = (.ok (), g) := by
  rw [greet, exec_bind, exec_get]
  dsimp only
  unfold Program.when
  split
  · exact ⟨_, rfl⟩
  · exact ⟨_, rfl⟩

theorem Waits.poll {addr : SocketAddr} {ms : List ClientMessage} {p : PendingIrcConnection}
    (h : Waits addr ms p) (batch : List ClientMessage) :
    ∃ q, heldPending q = (pendingRun addr (ms ++ batch)).2 ∧
      exec (Registration.poll .writable) { p with sock := batch.map .message } =
        (match (pendingRun addr (ms ++ batch)).1 with
          | .ok _ => .ok q.complete
          | .error e => .error e, q) := by
  rw [← h.serves batch]
  have hserves : Ignores heldPending (do
      greet
      forM batch Registration.serve) :=
    Ignores.bind pendingBlind_held.greet fun _ => Ignores.forM fun m _ => pendingBlind_held.serve m
  have hgreet := (pendingBlind_sock (batch.map .message)).greet p
  have hsock := (pendingBlind_sock []).greet p
  have hsame : ({ p with sock := [] } : PendingIrcConnection) = p := by rw [← h.sock]
  rw [hsame] at hsock
  rw [hserves p, Registration.poll, exec_bind, exec_bind, hgreet]
  obtain ⟨g, hgreeted⟩ := exec_greet p
  rw [hgreeted] at hsock ⊢
  have hg : { g with sock := [] } = g := (Prod.mk.inj hsock).2.symm
  have hread : exec Registration.readSock { g with sock := batch.map .message } =
      exec (forM batch Registration.serve) g := by
    rw [Registration.readSock, exec_bind, exec_get]
    dsimp only
    rw [exec_bind, exec_set, readAll_messages, hg]
  dsimp only
  rw [exec_bind, hread]
  rcases exec (forM batch Registration.serve) g with ⟨e | _, q⟩
  · exact ⟨q, rfl, rfl⟩
  · obtain ⟨out, hout, hpushed⟩ := exec_sinkOutbox_writable q.outbox
    refine ⟨{ q with outbox := out }, ?_, ?_⟩
    · unfold heldPending unwritten
      rw [hpushed]
    · dsimp only
      rw [exec_bind, exec_sinkInto, hout]
      dsimp only
      rw [isDone, exec_bind, exec_get]
      dsimp only
      cases PendingIrcConnection.complete { q with outbox := out } with
      | true => rfl
      | false => rfl

end Pending

end SmsIrc.RegistrationMessages
