import SmsIrc.LinkHistory
import SmsIrc.LinkRouting

/-!
The admin comes online: what the link does with the stored messages then.
-/

namespace SmsIrc.LinkArrivals

open SmsIrc.ContactCommon SmsIrc.Database SmsIrc.External SmsIrc.HashMaps SmsIrc.InspUsers
open SmsIrc.Link SmsIrc.LinkDeeds SmsIrc.LinkEffects SmsIrc.LinkEvents SmsIrc.LinkGhosts
open SmsIrc.LinkHistory SmsIrc.LinkRouting SmsIrc.LinkRuns SmsIrc.LinkSteady SmsIrc.Models
open SmsIrc.Program SmsIrc.SenderCommon SmsIrc.SenderRuns SmsIrc.Text SmsIrc.Transition
open SmsIrc.Util

section Arrivals

variable [Crates]

/-- No user has the nick of the admin. -/
def Absent (l : InspLink) : Prop := ∀ u, ¬ IsAdmin l u

theorem absent_iff {l : InspLink} : Absent l ↔ adminUuid l = none := by
  constructor
  · intro h
    rw [Option.eq_none_iff_forall_ne_some]
    exact fun u hu => h u (isAdmin_of_adminUuid hu)
  · intro h u hu
    obtain ⟨v, hv⟩ := adminUuid_of_isAdmin hu
    rw [h] at hv
    cases hv

theorem absent_of_users {s t : InspLink} (h : Absent s) (hcfg : t.cfg = s.cfg)
    (husers : ∀ u user, t.users.lookup u = some user → user.nick ≠ s.cfg.adminNick ∨
      ∃ old, s.users.lookup u = some old ∧ old.nick = user.nick) : Absent t := by
  rintro u ⟨user, huser, hnick⟩
  rw [hcfg] at hnick
  rcases husers u user huser with hne | ⟨old, hold, heq⟩
  · exact hne hnick
  · exact h u ⟨old, hold, heq.trans hnick⟩

theorem absent_insertUser {s t : InspLink} (h : Absent s) (hcfg : t.cfg = s.cfg) {u : Str}
    {user : InspUser} (husers : t.users = s.users.insert u user)
    (hnick : user.nick ≠ s.cfg.adminNick ∨
      ∃ old, s.users.lookup u = some old ∧ old.nick = user.nick) : Absent t := by
  refine absent_of_users h hcfg fun v user' huser' => ?_
  rw [husers, lookup_insert] at huser'
  split at huser'
  · rename_i hv
    cases huser'
    rw [hv]
    exact hnick
  · exact .inr ⟨user', huser', rfl⟩

theorem absent_effect {c r : Prop} {s t : InspLink} (h : Absent s) (heff : Effect c r s t) :
    Absent t := by
  have hsame : ∀ {t : InspLink}, t.cfg = s.cfg →
      (∀ u user, t.users.lookup u = some user → s.users.lookup u = some user) → Absent t :=
    fun hcfg husers => absent_of_users h hcfg fun u user hu => .inr ⟨user, husers u user hu, rfl⟩
  cases heff with
  | apart ha =>
      refine hsame ha.cfg fun u user hu => ?_
      rwa [ha.users] at hu
  | said hm => exact h
  | collided ha => exact h
  | introduced ha hid hfree hrow =>
      exact absent_insertUser h rfl rfl (.inl (ne_admin_of_free hfree))
  | regrouped hct hr hgrps => exact h
  | @moded a ct wa hct =>
      cases huser : s.users.lookup ct.uuid with
      | none =>
          refine hsame rfl fun u user hu => ?_
          simpa only [moded, huser] using hu
      | some user =>
          have husers : (moded s a ct wa).users = s.users.insert ct.uuid
              { user with displayedHostname := hostForWa s wa } := by simp only [moded, huser]
          exact absent_insertUser h rfl husers (.inr ⟨user, huser, rfl⟩)
  | marked hct hdown => exact h
  | renamed hct huser hfree =>
      exact absent_insertUser h rfl rfl (.inl (ne_admin_of_free hfree))
  | announced hct huser hfree hdown =>
      exact absent_insertUser h rfl rfl (.inl (ne_admin_of_free hfree))
  | @dropped a =>
      exact hsame (LinkLedger.quitted_eq s a).1 fun _ _ hu => quitted_users hu

theorem absent_effects {c r : Prop} {s t : InspLink} (h : Absent s) (heff : Effects c r s t) :
    Absent t := heff.invariant (fun _ _ hs he => absent_effect hs he) h

/-- The lines that introduce a user or rename one. -/
inductive Brings : IrcMessage → Prop
  | uid {source : Str} {args : List Str} {suffix : Option Str} :
      Brings ⟨some source, .raw ("UID" : Str) args suffix⟩
  | nick {source : Str} {args : List Str} {suffix : Option Str} :
      Brings ⟨some source, .raw ("NICK" : Str) args suffix⟩
  | server {args : List Str} {suffix : Option Str} :
      Brings ⟨none, .raw ("SERVER" : Str) args suffix⟩

theorem absent_opening {c r : Prop} {m : IrcMessage} {s t : InspLink} (h : Absent s)
    (hm : ¬ Brings m) (hopen : Opening c r (.remote m) s t) : Absent t := by
  have hless : ∀ {t : InspLink}, t.cfg = s.cfg →
      (∀ u user, t.users.lookup u = some user → s.users.lookup u = some user) → Absent t :=
    fun hcfg husers => absent_of_users h hcfg fun u user hu => .inr ⟨user, husers u user hu, rfl⟩
  cases hopen with
  | nothing hno => exact h
  | burst => exact absurd .server hm
  | user huid => exact absurd .uid hm
  | nick huser => exact absurd .nick hm
  | host huser => exact absent_insertUser h rfl rfl (.inr ⟨_, huser, rfl⟩)
  | linked heff =>
      have hlinked := absent_effects h heff
      exact hlinked
  | killed => exact hless rfl fun _ _ hu => lookup_of_erase hu
  | quit => exact hless rfl fun _ _ hu => lookup_of_erase hu
  | squit => exact hless rfl fun _ _ hu => (lookup_retain_eq_some.mp hu).1

theorem brings_of_arrival {l : InspLink} {m : IrcMessage} (h : adminUuid l = none)
    (hafter : adminUuid (exec (handleRemoteMessage m) l).2 ≠ none) : Brings m := by
  by_contra hm
  refine hafter (absent_iff.mp ?_)
  obtain ⟨u, hopen, heff⟩ : Happened True True (.remote m) l (exec (handleRemoteMessage m) l).2 :=
    wp_exec_snd (wp_mono (wp_handleRemoteMessage_happened (fun _ => trivial) fun _ => trivial)
      (fun _ _ ht => ht) fun _ _ ht => ht.1)
  exact absent_effects (absent_opening (absent_iff.mpr h) hm hopen) heff

/-- Queries are counted, and stay counted. -/
def Asked (st st' : Store) : Prop := st.queries ≤ st'.queries

instance : IsPreorder Store Asked where
  refl st := Nat.le_refl st.queries
  trans _ _ _ hst htu := Nat.le_trans hst htu

theorem asked_tick (st : Store) : Asked st st.tick := Nat.le_succ st.queries

def AskedLink (s t : InspLink) : Prop := Asked s.store t.store

instance : IsPreorder InspLink AskedLink where
  refl l := refl l.store
  trans _ _ _ hst htu := Nat.le_trans hst htu

theorem asked_store {α : Type} {p : StoreM α} (h : Moves Asked p) :
    Moves AskedLink (store p : LinkM α) := h.zoom fun _ _ hst => hst

theorem asked_query {α : Type} (f : Store → α) :
    Moves AskedLink (store (query f) : LinkM α) := asked_store (moves_query asked_tick f)

theorem asked_updateRecipient (addr : PduAddress) (f : Recipient → Recipient)
    (hf : ∀ r, (f r).id = r.id) : Moves AskedLink (store (updateRecipient addr f hf)) :=
  asked_store (moves_execute asked_tick fun st => Nat.le_refl st.queries)

theorem asked_modify {f : InspLink → InspLink} (hf : ∀ l, (f l).store = l.store) :
    Moves AskedLink (modify f : LinkM PUnit) := by
  refine steps_modify fun l => ?_
  rw [AskedLink, hf]
  exact refl l.store

theorem asked_push (u : Str) (cmd : String) (args : List Str) (suffix : Option Str) :
    Moves AskedLink (push u cmd args suffix) := asked_modify fun _ => rfl

theorem asked_processGroupsForRecipient (a : PduAddress) :
    Moves AskedLink (processGroupsForRecipient a) := by
  refine Steps.bind steps_get fun l => Steps.bind (moves_unwrap _ _) fun ct => ?_
  refine Steps.bind (asked_store ?_) fun grps => ?_
  · refine Steps.bind (moves_query asked_tick _) fun r => ?_
    cases r with
    | some r => exact moves_query asked_tick _
    | none => exact steps_throw trivial
  refine Steps.bind (Steps.forM fun grp _ => Steps.bind (asked_push _ _ _ _) fun _ =>
    asked_modify fun _ => rfl) fun _ => ?_
  refine Steps.bind (Steps.when (asked_push _ _ _ _)) fun _ => ?_
  refine Steps.bind (Steps.forM fun ch _ => Steps.when (asked_push _ _ _ _)) fun _ => ?_
  exact asked_modify fun _ => rfl

theorem asked_setupContactFor (recip : Recipient) (a : PduAddress) :
    Moves AskedLink (setupContactFor recip a) := by
  refine Steps.bind ?_ fun nick => Steps.bind steps_get fun l => Steps.bind ?_ fun uuid => ?_
  · refine Steps.bind steps_get fun l => ?_
    cases checkNickForCollisions l recip.nick with
    | some n => exact Steps.bind (asked_updateRecipient _ _ _) fun _ => steps_pure _
    | none => exact steps_pure _
  · refine Steps.bind ?_ fun uuid => Steps.bind (asked_modify fun _ => rfl) fun _ => ?_
    · refine steps_get_bind fun l => ?_
      split
      · exact ⟨refl l, trivial⟩
      · exact Nat.le_refl l.store.queries
    · refine Steps.bind (Steps.bind steps_get fun l => ?_) fun _ =>
        Steps.bind (asked_modify fun _ => rfl) fun _ => steps_pure _
      cases l.users.lookup uuid with
      | some user => exact steps_pure _
      | none => exact steps_throw trivial
  · exact Steps.bind (asked_modify fun _ => rfl) fun _ =>
      Steps.when (asked_processGroupsForRecipient a)

theorem asked_requestContact (a : PduAddress) (src : Nat) :
    Moves AskedLink (requestContact a src : LinkM Bool) := by
  refine Steps.bind (asked_query _) fun r => ?_
  cases r with
  | some recip =>
      refine Steps.bind (Steps.bind ?_ fun num => ?_) fun _ => steps_pure _
      · exact steps_getAddr (fun _ => trivial) _
      · refine Steps.bind (Steps.bind steps_get fun _ => steps_pure _) fun present => ?_
        exact Steps.when (asked_setupContactFor recip num)
  | none =>
      refine Steps.bind ?_ fun _ => steps_pure _
      unfold requestCreation
      split
      · exact asked_modify fun _ => rfl
      · split
        · exact asked_modify fun _ => rfl
        · exact steps_pure _

theorem asked_setWaState (a : PduAddress) (wa : Bool) : Moves AskedLink (setWaState a wa) := by
  refine Steps.bind steps_get fun l => Steps.bind (moves_unwrap _ _) fun ct => ?_
  refine Steps.bind (asked_modify fun _ => rfl) fun _ => ?_
  refine Steps.bind (asked_updateRecipient _ _ _) fun _ => ?_
  refine Steps.bind (asked_push _ _ _ _) fun _ => asked_modify fun l => ?_
  split <;> rfl

theorem asked_contactMessage (u : Str) (kind : String) (target message : Str) :
    Moves AskedLink (contactMessage u kind target message) := by
  refine Steps.bind steps_get fun l => ?_
  split
  · exact steps_throw trivial
  · split
    · exact steps_throw trivial
    · exact asked_push _ _ _ _

theorem asked_sender : SenderSteps InspLink AskedLink fun _ => True where
  record _ := asked_modify fun _ => rfl
  getGroupById g := by
    refine asked_store (Steps.bind (moves_query asked_tick _) fun grp => ?_)
    cases grp with
    | some grp => exact steps_pure grp
    | none => exact steps_throw trivial
  privateTarget := Steps.bind steps_get fun _ => steps_pure _
  sendIrcMessage _ _ _ := asked_contactMessage _ _ _ _
  ensureJoined ch := by
    refine Steps.bind steps_get fun l => ?_
    split
    · cases adminUuid l with
      | some admu => exact Steps.bind steps_get fun _ => asked_push _ _ _ _
      | none => exact steps_pure _
    · exact steps_pure _
  getAllConcatenated _ _ := asked_query _
  deleteMessage _ := asked_store (moves_checked asked_tick fun st => Nat.le_refl st.queries)
  reportError _ _ := Steps.bind steps_get fun _ => asked_contactMessage _ _ _ _
  utcNow := Steps.bind steps_get fun _ => steps_pure _
  error _ := trivial
  messageText := trivial
  concatenatedPdu := trivial
  concatenatedHeader := trivial

theorem asked_switchMode (a : PduAddress) (auid : Str) (ct : InspContact) (wa : Bool) :
    Moves AskedLink (switchMode a auid ct wa) :=
  Steps.when (Steps.bind (asked_setWaState a wa) fun _ => asked_contactMessage _ _ _ _)

theorem asked_processMessage (auid : Str) (msg : Message) :
    Moves AskedLink (processMessage auid msg) := by
  refine Steps.bind ?_ fun a => Steps.bind ?_ fun ready => Steps.when ?_
  · exact steps_getAddr (fun _ => trivial) _
  · refine Steps.bind (Steps.bind steps_get fun _ => steps_pure _) fun present => ?_
    split
    · exact steps_pure _
    · exact asked_requestContact a _
  · refine Steps.bind steps_get fun l => Steps.bind (moves_unwrap _ _) fun ct => ?_
    have hsender := asked_sender.senderStepsAs ct.uuid
    cases msg.pdu with
    | some raw =>
        dsimp only
        cases Crates.deliverPduTryFrom raw with
        | error e => exact steps_throw trivial
        | ok pdu =>
            exact Steps.bind (asked_switchMode _ _ _ _) fun _ => hsender.processMsgPdu msg pdu
    | none => exact Steps.bind (asked_switchMode _ _ _ _) fun _ => hsender.processMsgPlain msg

theorem queries_lt_of_online {l : InspLink} (h : adminUuid l ≠ none) :
    l.store.queries < (exec processMessages l).2.store.queries := by
  obtain ⟨auid, hauid⟩ := Option.ne_none_iff_exists'.mp h
  apply wp_exec_snd (P := fun t : InspLink => l.store.queries < t.store.queries)
  rw [processMessages, wp_bind, wp_get, hauid]
  dsimp only
  rw [wp_bind, wp_store]
  have htick : l.store.queries < l.store.tick.queries := Nat.lt_succ_self _
  apply wp_query_of htick
  have hloop : Moves AskedLink (forM (l.store.tick.messages.rows.insertionSort sentBefore)
      (processMessage auid)) := Steps.forM fun msg _ => asked_processMessage auid msg
  refine wp_mono (hloop _) (fun _ t ht => ?_) fun _ t ht => ?_
  · exact Nat.lt_of_lt_of_le htick ht
  · exact Nat.lt_of_lt_of_le htick ht.1

def IsUid (m : IrcMessage) : Prop :=
  ∃ source args suffix, m = ⟨some source, .raw ("UID" : Str) args suffix⟩

/-- The handler changes the user map, and then processes the stored messages. -/
def Processes (m : IrcMessage) (l : InspLink) : Prop :=
  ∃ users, adminUuid { l with users := users } ≠ none ∧
    exec (handleRemoteMessage m) l = exec processMessages { l with users := users }

theorem wp_handleServer_store (args : List Str) (suffix : Option Str) (l : InspLink) :
    wp (handleServer args suffix) (fun _ t => t.store = l.store) (fun _ t => t.store = l.store)
      l := by
  rw [handleServer, wp_bind, wp_get]
  split
  · split
    · rfl
    · split
      · rfl
      · rw [wp_bind]
        refine wp_logVerified (fun _ _ => rfl) ?_
        rw [wp_bind, wp_modify, wp_bind]
        refine wp_mono (wp_doBurst _) ?_ fun _ _ he => he
        rintro _ _ rfl
        rfl
  · rfl

theorem store_of_brings {m : IrcMessage} (h : Brings m) (huid : ¬ IsUid m) (l : InspLink) :
    (exec (handleRemoteMessage m) l).2.store = l.store := by
  cases h with
  | uid => exact absurd ⟨_, _, _, rfl⟩ huid
  | @nick source args suffix =>
      cases args with
      | nil => rfl
      | cons nick rest =>
          change (exec (updateUser source _) l).2.store = _
          rw [updateUser, exec_modify]
          dsimp only
          split
          · rfl
          · rfl
  | @server args suffix =>
      change (exec (handleServer args suffix) l).2.store = _
      exact wp_exec_snd (P := fun t : InspLink => t.store = l.store)
        (wp_handleServer_store args suffix l)

theorem not_processes_of_store {m : IrcMessage} {l : InspLink}
    (h : (exec (handleRemoteMessage m) l).2.store = l.store) : ¬ Processes m l := by
  rintro ⟨users, honline, hexec⟩
  have hlt := queries_lt_of_online honline
  rw [← hexec, h] at hlt
  exact Nat.lt_irrefl _ hlt

theorem processes_uid {l : InspLink} {source : Str} {args : List Str} {suffix : Option Str}
    (hnone : adminUuid l = none) (hafter : adminUuid
      (exec (handleRemoteMessage ⟨some source, .raw ("UID" : Str) args suffix⟩) l).2 ≠ none) :
    Processes ⟨some source, .raw ("UID" : Str) args suffix⟩ l := by
  have hhandle : exec (handleRemoteMessage ⟨some source, .raw ("UID" : Str) args suffix⟩) l =
      exec (handleUid args suffix) l := rfl
  rw [hhandle] at hafter
  unfold handleUid at hhandle hafter
  cases huid : newFromUidLine args suffix with
  | error e =>
      rw [huid] at hafter
      exact absurd hnone hafter
  | ok new =>
      obtain ⟨uuid, user⟩ := new
      rw [huid] at hhandle hafter
      dsimp only at hhandle hafter
      have hinsert : exec (insertUser uuid user) l =
          (.ok (), { l with users := l.users.insert uuid user }) := rfl
      rw [exec_bind_ok hinsert, exec_bind_ok (exec_get _)] at hhandle hafter
      by_cases hnick : user.nick = l.cfg.adminNick
      · rw [when, if_pos hnick] at hhandle
        refine ⟨l.users.insert uuid user, ?_, hhandle⟩
        obtain ⟨v, hv⟩ := adminUuid_of_isAdmin
          (l := { l with users := l.users.insert uuid user }) (u := uuid)
          ⟨user, AList.lookup_insert _, hnick⟩
        rw [hv]
        exact Option.some_ne_none v
      · rw [when, if_neg hnick] at hafter
        refine absurd (absent_iff.mp ?_) hafter
        exact absent_insertUser (absent_iff.mpr hnone) rfl rfl (.inl hnick)

/-- The stored messages are processed when the admin comes exactly if a UID line brings
the admin. -/
theorem processes_iff {l : InspLink} {m : IrcMessage} (hnone : adminUuid l = none)
    (hafter : adminUuid (exec (handleRemoteMessage m) l).2 ≠ none) :
    Processes m l ↔ IsUid m := by
  constructor
  · intro h
    by_contra huid
    exact not_processes_of_store (store_of_brings (brings_of_arrival hnone hafter) huid l) h
  · rintro ⟨source, args, suffix, rfl⟩
    exact processes_uid hnone hafter

end Arrivals

section Samples

attribute [local instance] Sample.crates

def uidOf (uuid nick : Str) : IrcMessage :=
  ⟨some ("00B" : Str), .raw ("UID" : Str)
    [uuid, ['1'], nick, ['h'], ['h'], ['i'], ['0'], ['1'], ("+i" : Str)] (some [])⟩

/-- The link is established, and a user is online who is not the admin. -/
def lurking : List Event :=
  [.connect,
    .remote ⟨none, .raw ("SERVER" : Str)
      [("irc.example" : Str), ("receive" : Str), ("0" : Str), ("00B" : Str)] (some [])⟩,
    .remote (uidOf ("00BAAAAAB" : Str) ("joe" : Str)),
    .remote ⟨some ("00B" : Str), .raw ("ENDBURST" : Str) [] none⟩]

def lurked : Session := (run next sampleStart lurking).get (by decide +kernel)

theorem absent_lurked : adminUuid lurked.link = none := by decide +kernel

theorem processes_lurked : Processes (uidOf ("00BAAAAAA" : Str) ("admin" : Str)) lurked.link ↔
    IsUid (uidOf ("00BAAAAAA" : Str) ("admin" : Str)) :=
  processes_iff absent_lurked (by decide +kernel)

/-- A user who takes the nick of the admin gets no stored messages. -/
theorem nick_unprocessed : ¬ ∀ (l : InspLink) (m : IrcMessage), l.state = .linked →
    adminUuid l = none → adminUuid (exec (handleRemoteMessage m) l).2 ≠ none →
      Processes m l := by
  intro h
  have hnick := h lurked.link
    ⟨some ("00BAAAAAB" : Str), .raw ("NICK" : Str) [("admin" : Str), ['1']] none⟩
    (by decide +kernel) absent_lurked (by decide +kernel)
  refine not_processes_of_store (store_of_brings .nick ?_ _) hnick
  rintro ⟨source, args, suffix, heq⟩
  have hcmd : ("NICK" : Str) = ("UID" : Str) := congrArg (fun m => LinkEffects.wordOf m) heq
  exact absurd hcmd (by decide)

end Samples

end SmsIrc.LinkArrivals
