import SmsIrc.LinkEffects

/-!
What an event does to the ghosts of a link: a change of its own, and then any
number of the changes that handlers are made of.
-/

namespace SmsIrc.LinkEvents

open SmsIrc.Admin SmsIrc.Comm SmsIrc.ContactCommon SmsIrc.Database SmsIrc.External
open SmsIrc.HashMaps SmsIrc.InspUsers SmsIrc.Link SmsIrc.LinkEffects SmsIrc.LinkGhosts
open SmsIrc.LinkRuns SmsIrc.LinkSteady SmsIrc.Models SmsIrc.Program SmsIrc.SenderCommon
open SmsIrc.SerialTable SmsIrc.Text SmsIrc.Transition SmsIrc.Util

section Events

variable [Crates]

/-- The control user may speak: it answers the admin, reports to it, or the other side
ends its burst. -/
def Voices (l : InspLink) : Event → Prop
  | .remote ⟨some source, .privmsg target msg⟩ =>
      adminUuid l = some source ∧ target = l.controlUuid ∧ Answered msg
  | .remote ⟨some source, .raw cmd _ _⟩ => cmd = ("ENDBURST" : Str) ∧ l.remoteSid = source
  | .cb (.commandResponse _) => True
  | _ => False

/-- The admin has a line sent as it is. -/
def Raws (l : InspLink) : Event → Prop
  | .remote ⟨some source, .privmsg target msg⟩ =>
      adminUuid l = some source ∧ target = l.controlUuid ∧ AsksRaw msg
  | _ => False

def burstLines (l : InspLink) : List IrcMessage :=
  let control := newForControlbot l.now l.cfg.controlNick l.cfg.serverName
  [.new (some l.cfg.sid) ("BURST" : Str) [decimalInt (timestamp l.now)] none,
    uidLine l.cfg.sid l.controlUuid control, .new (some l.cfg.sid) ("ENDBURST" : Str) [] none]

/-- The burst, once the other side has shown its password. -/
def burst (l : InspLink) (sid : Str) : InspLink :=
  { l with
    remoteSid := sid
    users := l.users.insert l.controlUuid
      (newForControlbot l.now l.cfg.controlNick l.cfg.serverName)
    outbox := l.outbox ++ burstLines l
    state := .burstSent }

/-- What an event does first. -/
inductive Opening (c r : Prop) : Event → InspLink → InspLink → Prop
  | nothing {e : Event} {s : InspLink}
      (he : ∀ source uuid reason, e ≠ .remote ⟨some source, .kill uuid reason⟩) :
      Opening c r e s s
  | connected {s t : InspLink} (h : Effects c r s t) :
      Opening c r .connect s { t with state := .serverSent }
  | burst {s : InspLink} {args : List Str} {suffix : Option Str} {sid : Str} :
      Opening c r (.remote ⟨none, .raw ("SERVER" : Str) args suffix⟩) s (burst s sid)
  | user {s : InspLink} {source : Str} {args : List Str} {suffix : Option Str} {uuid : Str}
      {user : InspUser} (h : newFromUidLine args suffix = .ok (uuid, user)) :
      Opening c r (.remote ⟨some source, .raw ("UID" : Str) args suffix⟩) s
        { s with users := s.users.insert uuid user }
  | nick {s : InspLink} {source nick : Str} {args : List Str} {suffix : Option Str}
      {user : InspUser} (h : s.users.lookup source = some user) :
      Opening c r (.remote ⟨some source, .raw ("NICK" : Str) (nick :: args) suffix⟩) s
        { s with users := s.users.insert source { user with nick := nick } }
  | host {s : InspLink} {source host : Str} {args : List Str} {suffix : Option Str}
      {user : InspUser} (h : s.users.lookup source = some user) :
      Opening c r (.remote ⟨some source, .raw ("FHOST" : Str) (host :: args) suffix⟩) s
        { s with users := s.users.insert source { user with displayedHostname := host } }
  | linked {s t : InspLink} {args : List Str} {suffix : Option Str} (h : Effects c r s t) :
      Opening c r (.remote ⟨some s.remoteSid, .raw ("ENDBURST" : Str) args suffix⟩) s
        { t with state := .linked }
  | killed {s : InspLink} {source uuid reason : Str} :
      Opening c r (.remote ⟨some source, .kill uuid reason⟩) s (withoutUser s uuid)
  | quit {s : InspLink} {source : Str} {reason : Option Str} :
      Opening c r (.remote ⟨some source, .quit reason⟩) s (withoutUser s source)
  | squit {s : InspLink} {source server reason : Str} :
      Opening c r (.remote ⟨some source, .squit server reason⟩) s
        { s with users := retain (fun k _ => !startsWith k server) s.users }
  | stored {s : InspLink} {op : StoreOp} :
      Opening c r (.storeOp op) s { s with store := (exec op.run s.store).2 }
  | clock {s : InspLink} {now dbNow : NaiveDateTime} :
      Opening c r (.clock now dbNow) s { s with now := now, store := { s.store with now := dbNow } }

/-- An event has happened. -/
def Happened (c r : Prop) (e : Event) (s t : InspLink) : Prop :=
  ∃ u, Opening c r e s u ∧ Effects c r u t

variable {c r : Prop}

theorem happened_of_effects {e : Event} {s t : InspLink}
    (he : ∀ source uuid reason, e ≠ .remote ⟨some source, .kill uuid reason⟩)
    (h : Effects c r s t) : Happened c r e s t := ⟨s, .nothing he, h⟩

theorem wp_happened {e : Event} {s : InspLink} {p : LinkM Unit}
    (he : ∀ source uuid reason, e ≠ .remote ⟨some source, .kill uuid reason⟩)
    (h : wp p (fun _ t => Effects c r s t) (fun _ t => Effects c r s t ∧ True) s) :
    wp p (fun _ t => Happened c r e s t) (fun _ t => Happened c r e s t ∧ True) s :=
  wp_mono h (fun _ _ ht => happened_of_effects he ht)
    fun _ _ ht => ⟨happened_of_effects he ht.1, trivial⟩

theorem wp_doBurst (l : InspLink) {E : Failure → InspLink → Prop} :
    wp doBurst (fun _ t => t = { l with
      users := l.users.insert l.controlUuid
        (newForControlbot l.now l.cfg.controlNick l.cfg.serverName)
      outbox := l.outbox ++ burstLines l }) E l := by
  rw [doBurst, wp_bind, wp_get, wp_bind, sendSidLine, wp_bind, wp_get, push, wp_modify, wp_bind,
    insertUser, wp_modify, wp_bind, makeUidLine, wp_bind, wp_get]
  dsimp only
  rw [AList.lookup_insert]
  dsimp only
  rw [wp_pure, wp_bind, send, wp_modify, sendSidLine, wp_bind, wp_get, push, wp_modify]
  simp only [burstLines, List.append_assoc]
  rfl

theorem wp_handleServer (args : List Str) (suffix : Option Str) (l : InspLink) :
    wp (handleServer args suffix)
      (fun _ t => Happened c r (.remote ⟨none, .raw ("SERVER" : Str) args suffix⟩) l t)
      (fun _ t => Happened c r (.remote ⟨none, .raw ("SERVER" : Str) args suffix⟩) l t ∧ True)
      l := by
  have hnone : Happened c r (.remote ⟨none, .raw ("SERVER" : Str) args suffix⟩) l l :=
    happened_of_effects (by simp) .refl
  rw [handleServer, wp_bind, wp_get]
  split
  · split
    · exact ⟨hnone, trivial⟩
    · split
      · exact ⟨hnone, trivial⟩
      · rw [wp_bind]
        refine wp_logVerified (fun _ _ => ⟨hnone, trivial⟩) ?_
        rw [wp_bind, wp_modify, wp_bind]
        refine wp_mono (wp_doBurst _) ?_ fun _ _ he => he
        rintro _ _ rfl
        exact ⟨_, .burst, .refl⟩
  · exact ⟨hnone, trivial⟩

theorem wp_removeUser_opened {e : Event} {s : InspLink} {uuid : Str}
    (hopen : Opening c r e s (withoutUser s uuid)) :
    wp (removeUser uuid true) (fun _ t => Happened c r e s t)
      (fun _ t => Happened c r e s t ∧ True) s := by
  rw [removeUser, wp_bind, wp_get]
  dsimp only
  rw [wp_bind, wp_set]
  change wp _ _ _ (withoutUser s uuid)
  cases s.contactsUuidPdua.lookup uuid with
  | none => exact ⟨_, hopen, .refl⟩
  | some a =>
      exact wp_mono (effects_setupContact (c := c) (r := r) a (withoutUser s uuid))
        (fun _ _ h => ⟨_, hopen, h⟩) fun _ _ h => ⟨⟨_, hopen, h.1⟩, trivial⟩

theorem wp_handleUid {source : Str} {args : List Str} {suffix : Option Str} (s : InspLink) :
    wp (handleUid args suffix)
      (fun _ t => Happened c r (.remote ⟨some source, .raw ("UID" : Str) args suffix⟩) s t)
      (fun _ t => Happened c r (.remote ⟨some source, .raw ("UID" : Str) args suffix⟩) s t ∧ True)
      s := by
  unfold handleUid
  cases huid : newFromUidLine args suffix with
  | error e => exact ⟨happened_of_effects (by simp) .refl, trivial⟩
  | ok new =>
      obtain ⟨uuid, user⟩ := new
      have hrest : Moves (Effects c r) (do
          let l ← get
          when (user.nick = l.cfg.adminNick) processMessages) :=
        Steps.bind steps_get fun _ => Steps.when effects_processMessages
      dsimp only
      rw [wp_bind, insertUser, wp_modify]
      exact wp_mono (hrest _) (fun _ _ h => ⟨_, .user huid, h⟩)
        fun _ _ h => ⟨⟨_, .user huid, h.1⟩, trivial⟩

theorem wp_handleEndburst {source : Str} {args : List Str} {suffix : Option Str} {s : InspLink}
    (hc : s.remoteSid = source → c) :
    wp (handleEndburst source)
      (fun _ t => Happened c r (.remote ⟨some source, .raw ("ENDBURST" : Str) args suffix⟩) s t)
      (fun _ t => Happened c r (.remote ⟨some source, .raw ("ENDBURST" : Str) args suffix⟩) s t ∧
        True) s := by
  rw [handleEndburst, wp_bind, wp_get, wp_when]
  split
  · rename_i hsource
    subst hsource
    rw [wp_bind]
    refine wp_mono (effects_doQuasiburst (c := c) (r := r) s) ?_
      fun _ _ h => ⟨happened_of_effects (by simp) h.1, trivial⟩
    intro _ t ht
    rw [wp_bind, wp_modify]
    exact wp_mono (effects_onLinked (hc rfl) _) (fun _ _ h => ⟨_, .linked ht, h⟩)
      fun _ _ h => ⟨⟨_, .linked ht, h.1⟩, trivial⟩
  · exact happened_of_effects (by simp) .refl

theorem wp_updateUser {e : Event} {source : Str} {f : InspUser → InspUser} {s : InspLink}
    (he : ∀ source uuid reason, e ≠ .remote ⟨some source, .kill uuid reason⟩)
    (hopen : ∀ user, s.users.lookup source = some user →
      Opening c r e s { s with users := s.users.insert source (f user) }) :
    wp (updateUser source f) (fun _ t => Happened c r e s t)
      (fun _ t => Happened c r e s t ∧ True) s := by
  rw [updateUser, wp_modify]
  cases huser : s.users.lookup source with
  | none => exact happened_of_effects he .refl
  | some user => exact ⟨_, hopen user huser, .refl⟩

theorem wp_handleRaw {source cmd : Str} {args : List Str} {suffix : Option Str} {s : InspLink}
    (hc : cmd = ("ENDBURST" : Str) → s.remoteSid = source → c) :
    wp (handleRaw source cmd args suffix)
      (fun _ t => Happened c r (.remote ⟨some source, .raw cmd args suffix⟩) s t)
      (fun _ t => Happened c r (.remote ⟨some source, .raw cmd args suffix⟩) s t ∧ True) s := by
  have hnone : Happened c r (.remote ⟨some source, .raw cmd args suffix⟩) s s :=
    happened_of_effects (by simp) .refl
  unfold handleRaw
  split
  · rename_i hcmd
    subst hcmd
    exact wp_handleUid s
  split
  · rename_i hcmd
    subst hcmd
    cases args with
    | nil => exact hnone
    | cons nick rest => exact wp_updateUser (by simp) fun user huser => .nick huser
  split
  · split
    · exact happened_of_effects (by simp) (effects_of_apart
        ⟨rfl, rfl, rfl, rfl, rfl, rfl, rfl, rfl, rfl, rfl, rfl, rfl, rfl, rfl⟩)
    · exact hnone
  split
  · rename_i hcmd
    subst hcmd
    cases args with
    | nil => exact hnone
    | cons host rest => exact wp_updateUser (by simp) fun user huser => .host huser
  split
  · rename_i hcmd
    subst hcmd
    exact wp_handleEndburst (hc rfl)
  · exact hnone

theorem wp_handleRemoteMessage_happened {m : IrcMessage} {s : InspLink}
    (hc : Voices s (.remote m) → c) (hr : Raws s (.remote m) → r) :
    wp (handleRemoteMessage m) (fun _ t => Happened c r (.remote m) s t)
      (fun _ t => Happened c r (.remote m) s t ∧ True) s := by
  obtain ⟨prefixStr, command⟩ := m
  cases prefixStr with
  | none =>
      have hnone : Happened c r (.remote ⟨none, command⟩) s s :=
        happened_of_effects (by simp) .refl
      cases command with
      | error details => exact ⟨hnone, trivial⟩
      | raw cmd args suffix =>
          change wp (when (cmd = ("SERVER" : Str)) (handleServer args suffix)) _ _ s
          rw [wp_when]
          split
          · rename_i hcmd
            subst hcmd
            exact wp_handleServer args suffix s
          · exact hnone
      | _ => exact hnone
  | some source =>
      cases command with
      | privmsg target msg =>
          exact wp_happened (by simp) (effects_handlePrivmsg (fun ha ht hm => hc ⟨ha, ht, hm⟩)
            fun ha ht hm => hr ⟨ha, ht, hm⟩)
      | error details => exact ⟨happened_of_effects (by simp) .refl, trivial⟩
      | kill uuid reason => exact wp_removeUser_opened .killed
      | quit reason => exact wp_removeUser_opened .quit
      | ping data dest =>
          cases dest with
          | none => exact wp_happened (by simp) (effects_sendSidLine (by decide) _ _ s)
          | some dest => exact wp_happened (by simp) (effects_sendSidLine (by decide) _ _ s)
      | squit server reason => exact ⟨_, .squit, .refl⟩
      | raw cmd args suffix => exact wp_handleRaw fun hcmd hsource => hc ⟨hcmd, hsource⟩
      | other params => exact happened_of_effects (by simp) .refl

/-- The state in which an event can happen. -/
def Enabled (l : InspLink) : Event → Prop
  | .connect => l.state = .tcpConnected
  | .remote _ => l.state ≠ .tcpConnected
  | .cb _ => l.state = .linked
  | .cf _ => l.state = .linked
  | _ => True

theorem happened_perform {e : Event} {s : Session} {p : LinkM Unit}
    (h : wp p (fun _ t => Happened c r e s.link t) (fun _ t => Happened c r e s.link t ∧ True)
      s.link) : Happened c r e s.link (perform s p).link :=
  (wp_perform (I := fun t => Happened c r e s.link t) (P := fun _ => True) h).1

theorem happened_of_next {s t : Session} {e : Event} (hc : Voices s.link e → c)
    (hr : Raws s.link e → r) (h : next s e = some t) :
    Enabled s.link e ∧ Happened c r e s.link t.link := by
  unfold next at h
  split at h
  swap
  · cases h
  cases e with
  | connect =>
      simp only [step] at h
      split at h
      · rename_i hstate
        cases h
        refine ⟨hstate, happened_perform ?_⟩
        rw [connect, wp_bind]
        refine wp_mono (effects_doCapabAndServer (c := c) (r := r) s.link) ?_
          fun _ _ ht => ⟨happened_of_effects (by simp) ht.1, trivial⟩
        intro _ t ht
        exact ⟨_, .connected ht, .refl⟩
      · cases h
  | remote m =>
      simp only [step] at h
      split at h
      · cases h
      · rename_i hstate
        cases h
        exact ⟨hstate, happened_perform (wp_handleRemoteMessage_happened hc hr)⟩
  | cb cmd =>
      simp only [step] at h
      split at h
      · rename_i hstate
        cases h
        refine ⟨hstate, happened_perform (wp_happened (by simp) (effects_handleCbCommand ?_ _))⟩
        rintro resp rfl
        exact hc trivial
      · cases h
  | cf cmd =>
      simp only [step] at h
      split at h
      · rename_i hstate
        cases h
        exact ⟨hstate, happened_perform (wp_happened (by simp) (effects_handleCfCommand cmd _))⟩
      · cases h
  | storeOp op =>
      cases h
      exact ⟨trivial, _, .stored, .refl⟩
  | clock now dbNow =>
      cases h
      exact ⟨trivial, _, .clock, .refl⟩

end Events

end SmsIrc.LinkEvents
