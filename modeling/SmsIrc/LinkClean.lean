import SmsIrc.CleanTexts
import SmsIrc.CtcpActions
import SmsIrc.LinkArrivals
import SmsIrc.LinkNames
import SmsIrc.MessageTexts

/-!
Whether a text from outside can end a line that the link sends: what of each text reaches
the arguments of its messages.
-/

namespace SmsIrc.LinkClean

open SmsIrc.CleanTexts SmsIrc.Comm SmsIrc.ContactCommon SmsIrc.ControlCommands SmsIrc.CtcpActions
open SmsIrc.Database SmsIrc.External SmsIrc.HashMaps SmsIrc.InspUsers SmsIrc.Link
open SmsIrc.LinkArrivals SmsIrc.LinkNames SmsIrc.LinkNicks SmsIrc.LinkRuns SmsIrc.MessageTexts
open SmsIrc.Models SmsIrc.Program SmsIrc.SenderCommon SmsIrc.Text SmsIrc.Transition SmsIrc.Util
open SmsIrc.LinkGhosts (withoutUser withoutUser_contact wp_store)
open SmsIrc.LinkRouting (lookup_of_erase ne_admin_of_free)
open SmsIrc.SafeNames (IsNick isNick_stringToIrcNick)

section Links

variable [Crates]

/-- What the texts of other crates are like: one line each, if what they are made of is. -/
structure CleanCrates : Prop where
  displayAddress : ∀ a : PduAddress, Clean (Crates.displayAddress a)
  localDate : ∀ t, Clean (Crates.localDate t)
  localTime : ∀ t, Clean (Crates.localTime t)
  parsed : ∀ s m, Clean s → Crates.parseMessage s = .ok m → ∀ p ∈ m.command.params, Clean p
  unparsed : ∀ s e, Clean s → Crates.parseMessage s = .error e → Clean e
  undecoded : ∀ raw (pdu : DeliverPdu) e, Crates.deliverPduTryFrom raw = .ok pdu →
    pdu.decodeMessage = .error e → Clean e

/-- All parameters of a message are clean. -/
def CleanLine (m : IrcMessage) : Prop := ∀ p ∈ m.command.params, Clean p

structure CleanConfig (cfg : InspConfig) : Prop where
  sid : Clean cfg.sid
  controlNick : Clean cfg.controlNick
  adminNick : Clean cfg.adminNick
  sendpass : Clean cfg.sendpass
  serverDesc : Clean cfg.serverDesc
  serverName : Clean cfg.serverName
  logChan : Clean cfg.logChan

structure CleanUser (user : InspUser) : Prop where
  nick : Clean user.nick
  hostname : Clean user.hostname
  displayedHostname : Clean user.displayedHostname
  ident : Clean user.ident
  ip : Clean user.ip
  modes : Clean user.modes
  gecos : Clean user.gecos

structure CleanStore (st : Store) : Prop where
  nicks : ∀ r ∈ st.recipients.rows, Clean r.nick
  channels : ∀ grp ∈ st.groups.rows, Clean grp.channel

/-- What the link sends, and what it makes its messages of, is clean. -/
structure Tidy (l : InspLink) : Prop where
  cfg : CleanConfig l.cfg
  control : Clean l.controlUuid
  lines : ∀ m ∈ l.outbox, CleanLine m
  users : ∀ uuid user, l.users.lookup uuid = some user → Clean uuid ∧ CleanUser user
  contacts : ∀ a ct, l.contacts.lookup a = some ct → Clean ct.uuid ∧ ∀ ch ∈ ct.channels, Clean ch
  store : CleanStore l.store

/-- The topic that a channel is known to have. -/
def topicOf (l : InspLink) (ch : Str) : Str := (l.channelTopics.lookup ch).getD []

/-- A tidy state that a handler has reached, which was started in `l₀`. -/
structure Clear (l₀ l : InspLink) : Prop where
  tidy : Tidy l
  cfg : l.cfg = l₀.cfg
  messages : l.store.messages.rows.Sublist l₀.store.messages.rows
  groups : l.store.groups = l₀.store.groups
  absent : Absent l₀ → Absent l
  topics : l₀.cfg.clobberTopics = false → ∀ ch, topicOf l ch = [] → topicOf l₀ ch = []

variable {l₀ : InspLink}

/-- A handler that stays clear. -/
abbrev Stays (l₀ : InspLink) {α : Type} (p : LinkM α) : Prop :=
  Preserves (Clear l₀) (fun _ => True) p

/-- Two states that differ in nothing that matters here. -/
structure Alike (s t : InspLink) : Prop where
  cfg : t.cfg = s.cfg
  control : t.controlUuid = s.controlUuid
  outbox : t.outbox = s.outbox
  users : t.users = s.users
  contacts : t.contacts = s.contacts
  topics : t.channelTopics = s.channelTopics
  recipients : t.store.recipients = s.store.recipients
  messages : t.store.messages.rows.Sublist s.store.messages.rows
  groups : t.store.groups = s.store.groups

theorem alike_of_rest {s t : InspLink} (h : (t.cfg, t.controlUuid, t.outbox, t.users, t.contacts,
    t.channelTopics, t.store) = (s.cfg, s.controlUuid, s.outbox, s.users, s.contacts,
      s.channelTopics, s.store)) : Alike s t := by
  simp only [Prod.mk.injEq] at h
  obtain ⟨hcfg, hcontrol, hout, husers, hcontacts, htopics, hstore⟩ := h
  exact ⟨hcfg, hcontrol, hout, husers, hcontacts, htopics, by rw [hstore],
    hstore ▸ List.Sublist.refl _, by rw [hstore]⟩

theorem CleanStore.congr {st st' : Store} (h : CleanStore st)
    (hrec : st'.recipients = st.recipients) (hgroups : st'.groups = st.groups) : CleanStore st' :=
  ⟨by rw [hrec]; exact h.nicks, by rw [hgroups]; exact h.channels⟩

theorem Alike.tidy {s t : InspLink} (h : Alike s t) (hs : Tidy s) : Tidy t :=
  ⟨by rw [h.cfg]; exact hs.cfg, by rw [h.control]; exact hs.control,
    by rw [h.outbox]; exact hs.lines, by rw [h.users]; exact hs.users,
    by rw [h.contacts]; exact hs.contacts, hs.store.congr h.recipients h.groups⟩

theorem Clear.alike {s t : InspLink} (hs : Clear l₀ s) (h : Alike s t) : Clear l₀ t :=
  ⟨h.tidy hs.tidy, h.cfg.trans hs.cfg, h.messages.trans hs.messages, h.groups.trans hs.groups,
    fun hno => absent_of_users (hs.absent hno) h.cfg fun _ user hu =>
      .inr ⟨user, h.users ▸ hu, rfl⟩,
    fun hc ch hch => hs.topics hc ch (by rw [topicOf, ← h.topics]; exact hch)⟩

theorem alike_store (l : InspLink) {st : Store} (hrec : st.recipients = l.store.recipients)
    (hmessages : st.messages.rows.Sublist l.store.messages.rows)
    (hgroups : st.groups = l.store.groups) : Alike l { l with store := st } :=
  ⟨rfl, rfl, rfl, rfl, rfl, rfl, hrec, hmessages, hgroups⟩

theorem alike_tick (l : InspLink) : Alike l { l with store := l.store.tick } :=
  alike_store l rfl (List.Sublist.refl _) rfl

theorem stays_modify {f : InspLink → InspLink} (h : ∀ l, Alike l (f l)) :
    Stays l₀ (modify f : LinkM PUnit) := preserves_modify fun l hl => hl.alike (h l)

theorem stays_get {α : Type} {f : InspLink → LinkM α}
    (h : ∀ l, Clear l₀ l → Stays l₀ (f l)) : Stays l₀ (get >>= f) := fun l hl => h l hl l hl

theorem stays_unwrap {α β : Type} {site : PanicSite} {o : Option α} {f : α → LinkM β}
    (h : ∀ a, o = some a → Stays l₀ (f a)) : Stays l₀ (unwrap site o >>= f) := by
  cases o with
  | some a => exact h a rfl
  | none => exact fun l hl => ⟨hl, trivial⟩

theorem stays_liftResult {α β : Type} {r : Except Failure α} {f : α → LinkM β}
    (h : ∀ a, r = .ok a → Stays l₀ (f a)) : Stays l₀ (liftResult r >>= f) := by
  cases r with
  | ok a => exact h a rfl
  | error e => exact fun l hl => ⟨hl, trivial⟩

theorem stays_query {α β : Type} {f : Store → α} {Q : α → Prop} {g : α → LinkM β}
    (hf : ∀ l, Clear l₀ l → Q (f l.store.tick)) (hg : ∀ a, Q a → Stays l₀ (g a)) :
    Stays l₀ (store (query f) >>= g) := by
  intro l hl
  have htick := hl.alike (alike_tick l)
  rw [wp_bind, wp_store]
  exact wp_query_of ⟨htick, trivial⟩ (hg _ (hf l hl) _ htick)

theorem stays_execute {f : Store → Store}
    (h : ∀ l, Clear l₀ l → Clear l₀ { l with store := f l.store.tick }) :
    Stays l₀ (store (execute f)) := by
  intro l hl
  rw [wp_store]
  exact wp_execute_of ⟨hl.alike (alike_tick l), trivial⟩ (h l hl)

omit [Crates] in
theorem cleanLine_new {source : Option Str} {cmd : Str} {args : List Str} {suffix : Option Str}
    (hargs : ∀ p ∈ args, Clean p) (hsuffix : ∀ p ∈ suffix, Clean p) :
    CleanLine (.new source cmd args suffix) := by
  intro p hp
  rcases List.mem_append.mp hp with hp | hp
  · exact hargs p hp
  · exact hsuffix p (Option.mem_toList.mp hp)

theorem Tidy.said {l : InspLink} (h : Tidy l) {ms : List IrcMessage}
    (hms : ∀ m ∈ ms, CleanLine m) : Tidy { l with outbox := l.outbox ++ ms } := by
  refine ⟨h.cfg, h.control, fun m hm => ?_, h.users, h.contacts, h.store⟩
  rcases List.mem_append.mp hm with hm | hm
  · exact h.lines m hm
  · exact hms m hm

theorem Clear.said {l : InspLink} (h : Clear l₀ l) {ms : List IrcMessage}
    (hms : ∀ m ∈ ms, CleanLine m) : Clear l₀ { l with outbox := l.outbox ++ ms } :=
  ⟨h.tidy.said hms, h.cfg, h.messages, h.groups, h.absent, h.topics⟩

theorem stays_send {m : IrcMessage} (h : CleanLine m) : Stays l₀ (send m) :=
  preserves_modify fun _ hl => hl.said fun _ hm => List.mem_singleton.mp hm ▸ h

theorem stays_push (u : Str) (cmd : String) {args : List Str} {suffix : Option Str}
    (hargs : ∀ p ∈ args, Clean p) (hsuffix : ∀ p ∈ suffix, Clean p) :
    Stays l₀ (push u cmd args suffix) :=
  preserves_modify fun _ hl => hl.said fun _ hm =>
    List.mem_singleton.mp hm ▸ cleanLine_new hargs hsuffix

theorem stays_sendSidLine (cmd : String) {args : List Str} {suffix : Option Str}
    (hargs : ∀ p ∈ args, Clean p) (hsuffix : ∀ p ∈ suffix, Clean p) :
    Stays l₀ (sendSidLine cmd args suffix) := stays_get fun _ _ => stays_push _ _ hargs hsuffix

omit [Crates] in
theorem clean_one {a : Str} (h : Clean a) : ∀ p ∈ [a], Clean p :=
  fun _ hp => List.mem_singleton.mp hp ▸ h

omit [Crates] in
theorem clean_two {a b : Str} (ha : Clean a) (hb : Clean b) : ∀ p ∈ [a, b], Clean p :=
  List.forall_mem_cons.mpr ⟨ha, clean_one hb⟩

omit [Crates] in
theorem clean_some {a : Str} (h : Clean a) : ∀ p ∈ some a, Clean p :=
  fun _ hp => Option.some.inj hp ▸ h

theorem Tidy.insertUser {l : InspLink} (h : Tidy l) {uuid : Str} {user : InspUser}
    (huuid : Clean uuid) (huser : CleanUser user) :
    Tidy { l with users := l.users.insert uuid user } := by
  refine ⟨h.cfg, h.control, h.lines, fun u w hw => ?_, h.contacts, h.store⟩
  change (l.users.insert uuid user).lookup u = some w at hw
  rw [lookup_insert] at hw
  split at hw
  · rename_i heq
    cases hw
    exact ⟨heq ▸ huuid, huser⟩
  · exact h.users u w hw

theorem Clear.insertUser {l : InspLink} (h : Clear l₀ l) {uuid : Str} {user : InspUser}
    (huuid : Clean uuid) (huser : CleanUser user) (hnick : user.nick ≠ l₀.cfg.adminNick ∨
      ∃ old, l.users.lookup uuid = some old ∧ old.nick = user.nick) :
    Clear l₀ { l with users := l.users.insert uuid user } :=
  ⟨h.tidy.insertUser huuid huser, h.cfg, h.messages, h.groups,
    fun hno => absent_insertUser (h.absent hno) rfl rfl (h.cfg ▸ hnick), h.topics⟩

theorem Clear.insertContact {l : InspLink} (h : Clear l₀ l) {a : PduAddress} {ct : InspContact}
    (huuid : Clean ct.uuid) (hchannels : ∀ ch ∈ ct.channels, Clean ch) :
    Clear l₀ { l with contacts := l.contacts.insert a ct } := by
  refine ⟨⟨h.tidy.cfg, h.tidy.control, h.tidy.lines, h.tidy.users, fun b w hw => ?_,
    h.tidy.store⟩, h.cfg, h.messages, h.groups, h.absent, h.topics⟩
  change (l.contacts.insert a ct).lookup b = some w at hw
  rw [lookup_insert] at hw
  split at hw
  · cases hw
    exact ⟨huuid, hchannels⟩
  · exact h.tidy.contacts b w hw

omit [Crates] in
theorem clean_of_isNick {n : Str} (h : IsNick n) : Clean n := by
  constructor
  · exact fun hmem => absurd (h.chars _ hmem) (by decide)
  · exact fun hmem => absurd (h.chars _ hmem) (by decide)

theorem clean_stringToIrcNick (s : Str) : Clean (stringToIrcNick s) :=
  clean_of_isNick (isNick_stringToIrcNick s)

theorem clean_givenNick (l : InspLink) {nick : Str} (h : Clean nick) :
    Clean (givenNick l nick) := by
  obtain ⟨k, hk, -⟩ := firstFree_givenNick l nick
  rw [hk]
  cases k with
  | zero => exact h
  | succ k => exact h.append (clean_decimal k)

omit [Crates] in
theorem clean_uuidOf {sid : Str} (h : Clean sid) (n : Nat) : Clean (uuidOf sid n) :=
  h.append (Clean.cons (by decide) (clean_zeroPadded 5 n))

theorem clean_hostForWa {l : InspLink} (h : Tidy l) (wa : Bool) : Clean (hostForWa l wa) := by
  have hname := h.cfg.serverName
  unfold hostForWa
  split
  · exact Clean.append (by decide) hname
  · exact Clean.append (by decide) hname

theorem cleanUser_newFromRecipient (hcrates : CleanCrates) (now : NaiveDateTime) (a : PduAddress)
    {nick host : Str} (hnick : Clean nick) (hhost : Clean host) :
    CleanUser (newFromRecipient now a nick host) := by
  have hip : Clean ("0.0.0.0" : Str) := by decide
  have hmodes : Clean ("+i" : Str) := by decide
  exact ⟨hnick, hhost, hhost, clean_stringToIrcNick _, hip, hmodes, hcrates.displayAddress a⟩

omit [Crates] in
theorem cleanLine_uidLine {sid uid : Str} {user : InspUser} (huid : Clean uid)
    (huser : CleanUser user) : CleanLine (uidLine sid uid user) := by
  refine cleanLine_new ?_ (clean_some huser.gecos)
  refine List.forall_mem_cons.mpr ⟨huid, List.forall_mem_cons.mpr ⟨clean_decimalInt _, ?_⟩⟩
  refine List.forall_mem_cons.mpr ⟨huser.nick, List.forall_mem_cons.mpr ⟨huser.hostname, ?_⟩⟩
  refine List.forall_mem_cons.mpr ⟨huser.displayedHostname, ?_⟩
  refine List.forall_mem_cons.mpr ⟨huser.ident, List.forall_mem_cons.mpr ⟨huser.ip, ?_⟩⟩
  exact clean_two (clean_decimalInt _) huser.modes

theorem Clear.usersClean {l : InspLink} (h : Clear l₀ l) {uuid : Str} {user : InspUser}
    (hu : l.users.lookup uuid = some user) : Clean uuid ∧ CleanUser user :=
  h.tidy.users uuid user hu

theorem clean_adminUuid {l : InspLink} (h : Clear l₀ l) {uuid : Str}
    (hu : adminUuid l = some uuid) : Clean uuid := by
  obtain ⟨⟨u, user⟩, hfind, rfl⟩ := Option.map_eq_some_iff.mp hu
  have hmem := Crates.hashOrder.mem_run.mp (List.mem_of_find?_eq_some hfind)
  exact (h.usersClean (mem_pairs.mp hmem)).1

theorem Clear.setRecipients {l : InspLink} (h : Clear l₀ l) {st : Store}
    (hnicks : ∀ r ∈ st.recipients.rows, Clean r.nick)
    (hmessages : st.messages.rows.Sublist l.store.messages.rows)
    (hgroups : st.groups = l.store.groups) : Clear l₀ { l with store := st } :=
  ⟨⟨h.tidy.cfg, h.tidy.control, h.tidy.lines, h.tidy.users, h.tidy.contacts, hnicks,
    fun grp hgrp => h.tidy.store.channels grp (hgroups ▸ hgrp)⟩, h.cfg,
    hmessages.trans h.messages, hgroups.trans h.groups, h.absent, h.topics⟩

theorem stays_updateRecipient (addr : PduAddress) (f : Recipient → Recipient)
    (hf : ∀ r, (f r).id = r.id) (hnick : ∀ r, Clean r.nick → Clean (f r).nick) :
    Stays l₀ (store (updateRecipient addr f hf)) := by
  refine stays_execute fun l hl => hl.setRecipients (fun r hr => ?_) (List.Sublist.refl _) rfl
  obtain ⟨q, hq, rfl⟩ := List.mem_map.mp hr
  have hclean : Clean q.nick := hl.tidy.store.nicks q hq
  split
  · exact hnick q hclean
  · exact hclean

theorem stays_getGroupsForRecipient {β : Type} (a : PduAddress) {f : List Group → LinkM β}
    (hf : ∀ grps : List Group, (∀ grp ∈ grps, Clean grp.channel) → Stays l₀ (f grps)) :
    Stays l₀ (store (getGroupsForRecipient a) >>= f) := by
  intro l hl
  have htick := hl.alike (alike_tick l)
  have htick' := htick.alike (alike_tick _)
  rw [wp_bind, wp_store, getGroupsForRecipient, wp_bind]
  apply wp_query_of ⟨htick, trivial⟩
  cases l.store.tick.recipients.rows.find? fun r => r.phoneNumber = normalizeAddress a with
  | none => exact ⟨htick, trivial⟩
  | some r =>
      refine wp_query_of ⟨htick', trivial⟩ (hf _ (fun grp hgrp => ?_) _ htick')
      have hmem := (List.mem_filter.mp (Crates.scanOrder.mem_run.mp hgrp)).1
      exact hl.tidy.store.channels grp hmem

theorem stays_processGroupsForRecipient (a : PduAddress) :
    Stays l₀ (processGroupsForRecipient a) := by
  refine stays_get fun l hl => stays_unwrap fun ct hct => ?_
  obtain ⟨huuid, hchannels⟩ := hl.tidy.contacts a ct hct
  have hlog : Clean l.cfg.logChan := hl.tidy.cfg.logChan
  refine stays_getGroupsForRecipient a fun grps hgrps => ?_
  have hin : ∀ ch ∈ grps.map fun grp => grp.channel, Clean ch := by
    intro ch hch
    obtain ⟨grp, hgrp, rfl⟩ := List.mem_map.mp hch
    exact hgrps grp hgrp
  refine Preserves.bind (Preserves.forM fun grp hgrp => ?_) fun _ => ?_
  · exact Preserves.bind (stays_push _ _ (clean_one (hgrps grp hgrp)) nofun) fun _ =>
      stays_modify fun _ => alike_of_rest rfl
  refine Preserves.bind (Preserves.when (stays_push _ _ (clean_one hlog) nofun)) fun _ => ?_
  refine Preserves.bind (Preserves.forM fun ch hch => Preserves.when ?_) fun _ => ?_
  · exact stays_push _ _ (clean_one (hchannels ch hch)) (clean_some (by decide))
  · refine preserves_modify fun t ht => ht.insertContact huuid fun ch hch => ?_
    dsimp only at hch
    split at hch
    · exact hin ch hch
    · rcases List.mem_append.mp hch with hch | hch
      · exact hin ch hch
      · exact List.mem_singleton.mp hch ▸ hlog

theorem wp_newUser_clean {l : InspLink} (h : Clear l₀ l) {user : InspUser}
    (huser : CleanUser user) (hnick : user.nick ≠ l₀.cfg.adminNick) :
    wp (newUser user) (fun uuid t => Clean uuid ∧ Clear l₀ t) (fun _ t => Clear l₀ t ∧ True)
      l := by
  rw [newUser, wp_bind, getUuid, wp_bind, wp_get]
  dsimp only
  split
  · exact ⟨h, trivial⟩
  · have huuid := clean_uuidOf h.tidy.cfg.sid l.nextUserId
    have hissued : Clear l₀ { l with
        nextUserId := l.nextUserId + 1
        issued := l.issued ++ [uuidOf l.cfg.sid l.nextUserId] } :=
      h.alike (alike_of_rest rfl)
    rw [wp_bind, wp_set, wp_pure, wp_bind, insertUser, wp_modify, wp_bind, makeUidLine, wp_bind,
      wp_get]
    dsimp only
    rw [AList.lookup_insert]
    dsimp only
    rw [wp_pure, wp_bind, send, wp_modify, wp_pure]
    refine ⟨huuid, (hissued.insertUser huuid huser (.inl hnick)).said fun m hm => ?_⟩
    exact List.mem_singleton.mp hm ▸ cleanLine_uidLine huuid huser

theorem givenNick_ne_admin {l : InspLink} (h : Clear l₀ l) (nick : Str) :
    givenNick l nick ≠ l₀.cfg.adminNick := by
  obtain ⟨-, -, hfree, -⟩ := firstFree_givenNick l nick
  rw [← h.cfg]
  exact ne_admin_of_free hfree

theorem wp_nickFor_clean {l : InspLink} (h : Clear l₀ l) {recip : Recipient}
    (hnick : Clean recip.nick) (a : PduAddress) :
    wp (nickFor recip a)
      (fun nick t => Clean nick ∧ nick ≠ l₀.cfg.adminNick ∧ Clear l₀ t)
      (fun _ t => Clear l₀ t ∧ True) l := by
  have hgiven := clean_givenNick l hnick
  have hne := givenNick_ne_admin h recip.nick
  rw [givenNick] at hgiven hne
  rw [nickFor, wp_bind, wp_get]
  cases hc : checkNickForCollisions l recip.nick with
  | none =>
      rw [hc, Option.getD_none] at hne
      exact ⟨hnick, hne, h⟩
  | some n =>
      rw [hc, Option.getD_some] at hgiven hne
      dsimp only
      rw [wp_bind]
      have hstored : Stays l₀ (store (updateRecipientNick a n nicksrcCollision)) :=
        stays_updateRecipient a _ _ fun _ _ => hgiven
      exact wp_mono (hstored l h) (fun _ _ ht => ⟨hgiven, hne, ht⟩) fun _ _ ht => ht

theorem stays_setupContactFor (hcrates : CleanCrates) {recip : Recipient}
    (h : Clean recip.nick) (a : PduAddress) : Stays l₀ (setupContactFor recip a) := by
  intro l hl
  rw [setupContactFor, wp_bind]
  refine wp_mono (wp_nickFor_clean hl h a) ?_ fun _ _ ht => ht
  rintro nick t ⟨hnick, hne, ht⟩
  have huser := cleanUser_newFromRecipient hcrates t.now a hnick
    (clean_hostForWa ht.tidy recip.whatsapp)
  rw [wp_bind, wp_get, wp_bind]
  refine wp_mono (wp_newUser_clean ht huser hne) ?_ fun _ _ hu => hu
  rintro uuid u ⟨huuid, hu⟩
  rw [wp_bind, addContact, wp_modify]
  have hadded : Clear l₀ { u with
      contacts :=
        u.contacts.insert a { uuid := uuid, channels := [], waMode := recip.whatsapp } } :=
    hu.insertContact huuid (by simp)
  have hboth : Clear l₀ { u with
      contacts := u.contacts.insert a { uuid := uuid, channels := [], waMode := recip.whatsapp }
      contactsUuidPdua := u.contactsUuidPdua.insert uuid a } :=
    hadded.alike (alike_of_rest rfl)
  exact Preserves.when (stays_processGroupsForRecipient a) _ hboth

theorem stays_setupRecipient (hcrates : CleanCrates) {recip : Recipient} (h : Clean recip.nick) :
    Stays l₀ (setupRecipient recip : LinkM Unit) := by
  refine Preserves.bind ?_ fun num => ?_
  · exact preserves_getAddr (fun _ => trivial) _
  · refine Preserves.bind (Preserves.bind preserves_get fun _ => preserves_pure _) fun present => ?_
    exact Preserves.when (stays_setupContactFor hcrates h num)

theorem stays_foundRecipient (a : PduAddress) {α : Type} {f : Recipient → LinkM α} {g : LinkM α}
    (hf : ∀ recip, Clean recip.nick → Stays l₀ (f recip)) (hg : Stays l₀ g) :
    Stays l₀ (do
      match ← store (getRecipientByAddrOpt a) with
      | some recip => f recip
      | none => g) := by
  refine stays_query (Q := fun row => ∀ recip ∈ row, Clean recip.nick) ?_ fun row hrow => ?_
  · exact fun l hl recip hrecip => hl.tidy.store.nicks recip (List.mem_of_find?_eq_some hrecip)
  · cases row with
    | some recip => exact hf recip (hrow recip rfl)
    | none => exact hg

theorem stays_setupContact (hcrates : CleanCrates) (a : PduAddress) :
    Stays l₀ (setupContact a : LinkM Unit) :=
  stays_foundRecipient a (fun _ h => stays_setupRecipient hcrates h) (preserves_pure _)

theorem stays_requestContact (hcrates : CleanCrates) (a : PduAddress) (src : Nat) :
    Stays l₀ (requestContact a src : LinkM Bool) := by
  refine stays_foundRecipient a
    (fun _ h => Preserves.bind (stays_setupRecipient hcrates h) fun _ => preserves_pure _)
    (Preserves.bind ?_ fun _ => preserves_pure _)
  unfold requestCreation
  split
  · exact stays_modify fun _ => alike_of_rest rfl
  · split
    · exact stays_modify fun _ => alike_of_rest rfl
    · exact preserves_pure _

theorem stays_queryContact (hcrates : CleanCrates) (a : PduAddress) (src : Nat) :
    Stays l₀ (queryContact a src : LinkM Unit) := by
  have hsend : ∀ cmd, Stays l₀ (ContactSetup.cbSend cmd : LinkM Unit) :=
    fun _ => stays_modify fun _ => alike_of_rest rfl
  refine stays_foundRecipient a
    (fun _ h => Preserves.bind (hsend _) fun _ => stays_setupRecipient hcrates h) ?_
  exact Preserves.bind (hsend _) fun _ =>
    Preserves.bind (stays_requestContact hcrates a src) fun _ => preserves_pure _

theorem stays_doQuasiburst (hcrates : CleanCrates) : Stays l₀ doQuasiburst := by
  refine stays_query (Q := fun rows => ∀ recip ∈ rows, Clean recip.nick) ?_ fun rows hrows => ?_
  · exact fun l hl recip hrecip => hl.tidy.store.nicks recip (Crates.scanOrder.mem_run.mp hrecip)
  · exact Preserves.forM fun recip hrecip => stays_setupRecipient hcrates (hrows recip hrecip)

theorem Clear.withoutUser {l : InspLink} (h : Clear l₀ l) (uuid : Str) :
    Clear l₀ (withoutUser l uuid) :=
  ⟨⟨h.tidy.cfg, h.tidy.control, h.tidy.lines,
    fun u user hu => h.tidy.users u user (lookup_of_erase hu),
    fun a ct hct => h.tidy.contacts a ct (withoutUser_contact hct).1, h.tidy.store⟩,
    h.cfg, h.messages, h.groups,
    fun hno => absent_of_users (h.absent hno) rfl fun _ user hu =>
      .inr ⟨user, lookup_of_erase hu, rfl⟩, h.topics⟩

theorem stays_removeUser (hcrates : CleanCrates) (uuid : Str) (recreate : Bool) :
    Stays l₀ (removeUser uuid recreate) := by
  intro l hl
  have hgone := hl.withoutUser uuid
  rw [removeUser, wp_bind, wp_get]
  dsimp only
  rw [wp_bind, wp_set]
  change wp _ _ _ (withoutUser l uuid)
  cases l.contactsUuidPdua.lookup uuid with
  | none => exact hgone
  | some a => exact Preserves.when (stays_setupContact hcrates a) _ hgone

theorem stays_removeContactFor (hcrates : CleanCrates) (a : PduAddress) :
    Stays l₀ (removeContactFor a) := by
  refine stays_get fun l hl => Preserves.bind ?_ fun _ => preserves_modify fun t ht => ?_
  · cases hct : l.contacts.lookup a with
    | some ct =>
        exact Preserves.bind (stays_push _ _ nofun (clean_some (by decide)))
          fun _ => stays_removeUser hcrates _ _
    | none => exact preserves_pure _
  · refine ⟨⟨ht.tidy.cfg, ht.tidy.control, ht.tidy.lines, ht.tidy.users, fun b ct hct => ?_,
      ht.tidy.store⟩, ht.cfg, ht.messages, ht.groups, ht.absent, ht.topics⟩
    rw [lookup_erase] at hct
    split at hct
    · cases hct
    · exact ht.tidy.contacts b ct hct

theorem stays_dropContact (hcrates : CleanCrates) (a : PduAddress) :
    Stays l₀ (dropContact a : LinkM Unit) := by
  refine Preserves.bind (fun l hl => ?_) fun _ => stays_removeContactFor hcrates a
  have htick := hl.alike (alike_tick l)
  rw [wp_store, deleteRecipientWithAddr, wp_bind]
  apply wp_query_of ⟨htick, trivial⟩
  split
  · refine htick.setRecipients (fun r hr => ?_) (List.Sublist.refl _) rfl
    exact hl.tidy.store.nicks r (List.mem_filter.mp hr).1
  · exact ⟨htick, trivial⟩

theorem stays_setWaState (a : PduAddress) (wa : Bool) : Stays l₀ (setWaState a wa) := by
  refine stays_get fun l hl => stays_unwrap fun ct hct => ?_
  obtain ⟨huuid, hchannels⟩ := hl.tidy.contacts a ct hct
  have hhost := clean_hostForWa hl.tidy wa
  refine Preserves.bind (preserves_modify fun t ht => ht.insertContact huuid hchannels) fun _ => ?_
  refine Preserves.bind (stays_updateRecipient a _ _ fun _ h => h) fun _ => ?_
  refine Preserves.bind (stays_push _ _ (clean_one hhost) nofun) fun _ =>
    preserves_modify fun t ht => ?_
  cases huser : t.users.lookup ct.uuid with
  | none => exact ht
  | some user =>
      obtain ⟨-, hclean⟩ := ht.usersClean huser
      exact ht.insertUser huuid ⟨hclean.nick, hclean.hostname, hhost, hclean.ident, hclean.ip,
        hclean.modes, hclean.gecos⟩ (.inr ⟨user, huser, rfl⟩)

theorem stays_changeNick (a : PduAddress) {ct : InspContact} (huuid : Clean ct.uuid) {st : Str}
    (h : Clean st) (src : Int) : Stays l₀ (changeNick a ct st src) := by
  have hrest : ∀ {user : InspUser} {nick : Str} (src ts : Int), CleanUser user → Clean nick →
      nick ≠ l₀.cfg.adminNick → Stays l₀ (do
        insertUser ct.uuid { user with nick := nick }
        push ct.uuid "NICK" [nick, decimalInt ts] none
        store (updateRecipientNick a nick src)) := by
    intro user nick src ts huser hnick hne
    refine Preserves.bind (preserves_modify fun t ht => ?_) fun _ => ?_
    · exact ht.insertUser huuid ⟨hnick, huser.hostname, huser.displayedHostname, huser.ident,
        huser.ip, huser.modes, huser.gecos⟩ (.inl hne)
    · have hargs := clean_two hnick (clean_decimalInt ts)
      refine Preserves.bind (stays_push _ _ hargs nofun) fun _ => ?_
      exact stays_updateRecipient a _ _ fun _ _ => hnick
  refine stays_get fun l hl => stays_unwrap fun u hu => ?_
  obtain ⟨-, huser⟩ := hl.usersClean hu
  split
  · exact preserves_pure _
  · have hgiven := clean_givenNick l h
    have hne := givenNick_ne_admin hl st
    rw [givenNick] at hgiven hne
    cases hc : checkNickForCollisions l st with
    | some n =>
        rw [hc] at hgiven hne
        exact hrest _ _ huser hgiven hne
    | none =>
        rw [hc] at hne
        exact hrest _ _ huser h hne

/-- The texts that a command brings. -/
def given : ContactManagerCommand → List Str
  | .updateAway text => text.toList
  | .changeNick nick _ => [nick]
  | _ => []

theorem stays_forwardCmd (a : PduAddress) {cmd : ContactManagerCommand}
    (h : (l₀.contacts.lookup a).isSome → ∀ text ∈ given cmd, Clean text)
    (l : InspLink) (hl : Clear l₀ l) (hsame : l.contacts = l₀.contacts) :
    wp (forwardCmd a cmd) (fun _ t => Clear l₀ t) (fun _ t => Clear l₀ t ∧ True) l := by
  rw [← hsame] at h
  rw [forwardCmd, wp_bind, wp_get]
  cases hct : l.contacts.lookup a with
  | none => exact hl
  | some ct =>
      rw [hct] at h
      have hgiven := h rfl
      obtain ⟨huuid, hchannels⟩ := hl.tidy.contacts a ct hct
      rw [Option.isSome_some, if_pos rfl]
      cases cmd with
      | processMessages => exact hl
      | processGroups => exact hl
      | updateAway text =>
          rw [wp_bind, wp_unwrap_some]
          refine stays_push _ _ (List.forall_mem_nil _) (fun p hp => hgiven p ?_) l hl
          exact Option.mem_toList.mpr hp
      | changeNick st osrc =>
          rw [wp_bind, wp_unwrap_some]
          exact stays_changeNick a huuid (hgiven st List.mem_cons_self) osrc l hl
      | setWhatsapp wam =>
          rw [wp_bind, wp_unwrap_some]
          refine Preserves.bind (preserves_modify fun t ht => ?_)
            (fun _ => stays_setWaState a wam) l hl
          exact ht.insertContact huuid hchannels

theorem stays_byNick (nick : Str) {f : PduAddress → LinkM Unit}
    (hf : ∀ a l, Clear l₀ l → l.contacts = l₀.contacts →
      wp (f a) (fun _ t => Clear l₀ t) (fun _ t => Clear l₀ t ∧ True) l)
    (h : Clear l₀ l₀) :
    wp (do
      match ← resolveNick nick with
      | some a => f a
      | none => pure () : LinkM Unit)
      (fun _ t => Clear l₀ t) (fun _ t => Clear l₀ t ∧ True) l₀ := by
  rw [wp_bind, resolveNick, wp_bind, wp_get, wp_pure]
  split
  · exact hf _ l₀ h rfl
  · exact h

theorem stays_contactMessage (u : Str) (kind : String) {target message : Str}
    (htarget : Clean target) (hmessage : Clean message) :
    Stays l₀ (contactMessage u kind target message) := by
  refine stays_get fun l hl => ?_
  split
  · exact preserves_throw trivial
  · split
    · exact preserves_throw trivial
    · exact stays_push _ _ (clean_one htarget) (clean_some hmessage)

theorem stays_destination (gt : Option Nat) {f : Str → LinkM Unit}
    (hf : ∀ dest, Clean dest → Stays l₀ (f dest)) :
    Stays l₀ (destination gt >>= f) := by
  cases gt with
  | none =>
      refine fun l hl => hf _ ?_ l hl
      cases hadmin : adminUuid l with
      | some admu => exact clean_adminUuid hl hadmin
      | none => exact hl.tidy.cfg.logChan
  | some g =>
      intro l hl
      have htick := hl.alike (alike_tick l)
      rw [destination, wp_bind, wp_bind, wp_store, getGroupById, wp_bind]
      apply wp_query_of ⟨htick, trivial⟩
      cases hgrp : l.store.tick.groups.rows.find? fun grp => grp.id = g with
      | none => exact ⟨htick, trivial⟩
      | some grp =>
          have hchan : Clean grp.channel :=
            hl.tidy.store.channels grp (List.mem_of_find?_eq_some hgrp)
          have hjoined : Stays l₀ (Sender.ensureJoined grp.channel : LinkM Unit) := by
            refine stays_get fun l hl => ?_
            split
            · cases hadmin : adminUuid l with
              | some admu =>
                  exact stays_sendSidLine _ (clean_two (clean_adminUuid hl hadmin) hchan)
                      (by simp)
              | none => exact preserves_pure _
            · exact preserves_pure _
          dsimp only
          rw [wp_pure, wp_bind]
          exact wp_mono (hjoined _ htick) (fun _ t ht => hf _ hchan t ht) fun _ _ he => he

theorem stays_sendRawMessage (u : Str) {msg : Str} (h : strayCr msg = false) (gt : Option Nat) :
    Stays l₀ (sendRawMessage u msg gt) := by
  refine Preserves.bind (stays_modify fun _ => alike_of_rest rfl) fun _ => ?_
  refine stays_destination gt fun dest hdest => ?_
  refine Preserves.forM fun line hline => Preserves.forM fun chunk hchunk => ?_
  unfold sendFragment
  split
  · rename_i hlen
    have hclean := clean_of_mem_fragments (clean_of_mem_lines h hline) hchunk hlen
    exact Preserves.bind (stays_modify fun _ => alike_of_rest rfl) fun _ =>
      stays_contactMessage _ _ hdest hclean
  · exact preserves_pure _

theorem stays_removeMessage (id : Nat) : Stays l₀ (removeMessage id : LinkM Unit) := by
  refine Preserves.bind (stays_modify fun _ => alike_of_rest rfl) fun _ l hl => ?_
  have htick := hl.alike (alike_tick l)
  rw [wp_store, deleteMessage, wp_bind]
  apply wp_query_of ⟨htick, trivial⟩
  split
  · exact htick.alike (alike_store _ rfl List.filter_sublist rfl)
  · exact ⟨htick, trivial⟩

/-- In the texts that stored messages make, carriage returns end lines. -/
structure Speakable (st : Store) : Prop where
  plain : ∀ m ∈ st.messages.rows, m.pdu = none → ∀ text ∈ m.text, strayCr text = false
  single : ∀ m ∈ st.messages.rows, ∀ d, Carries m d → concatenation d = none →
    strayCr d.text = false
  series : ∀ m ∈ st.messages.rows, ∀ d cd, Carries m d → concatenation d = some cd →
    ∀ parts : List Message, parts.Subperm (concatenatedRows st m.phoneNumber cd.reference.toNat) →
      parts.length = cd.parts.toNat → ∀ text, joinParts parts = .ok text → strayCr text = false

theorem clean_stamp (hcrates : CleanCrates) (now ts : NaiveDateTime) : Clean (stamp now ts) := by
  have hopen : Clean ("\x0315\x02[\x02" : Str) := by decide
  have hclose : Clean ("\x02]\x02\x0f " : Str) := by decide
  have hblank : Clean (" " : Str) := by decide
  unfold stamp
  split
  · refine ((hopen.append ?_).append (hcrates.localTime ts)).append hclose
    split
    · exact (hcrates.localDate ts).append hblank
    · exact clean_nil
  · exact clean_nil

theorem strayCr_renderPlain (hcrates : CleanCrates) (now ts : NaiveDateTime) {text : Str}
    (h : strayCr text = false) : strayCr (renderPlain now ts text) = false := by
  have hword : '\r' ∉ ("\x01ACTION " : Str) := by decide
  have hstamp := (clean_stamp hcrates now ts).1
  rw [renderPlain_eq]
  split
  · rw [List.append_assoc, strayCr_append hword, strayCr_append hstamp]
    exact strayCr_drop h 8
  · rw [strayCr_append hstamp]
    exact h

theorem stays_processMsgPlain (hcrates : CleanCrates) (u : Str) {msg : Message}
    (h : ∀ text ∈ msg.text, strayCr text = false) :
    Stays l₀ (processMsgPlain u msg : LinkM Unit) := by
  refine stays_unwrap fun text htext => ?_
  refine Preserves.bind (Preserves.bind preserves_get fun _ => preserves_pure _) fun now => ?_
  exact Preserves.bind (stays_sendRawMessage u (strayCr_renderPlain hcrates now msg.ts
    (h text htext)) _) fun _ => stays_removeMessage _

theorem stays_processMsgPdu (hcrates : CleanCrates) (hspeak : Speakable l₀.store) (u : Str)
    {msg : Message} (hmsg : msg ∈ l₀.store.messages.rows) {raw : List UInt8} {pdu : DeliverPdu}
    (hraw : msg.pdu = some raw) (hpdu : Crates.deliverPduTryFrom raw = .ok pdu) :
    Stays l₀ (processMsgPdu u msg pdu : LinkM Unit) := by
  unfold processMsgPdu
  cases hd : pdu.decodeMessage with
  | error e =>
      have herr : Clean (("indecipherable message: " : Str) ++ e) :=
        Clean.append (by decide) (hcrates.undecoded raw pdu e hpdu hd)
      refine Preserves.bind (stays_modify fun _ => alike_of_rest rfl) fun _ => ?_
      exact stays_get fun l hl => stays_contactMessage _ _ hl.tidy.cfg.adminNick herr
  | ok d =>
      have hdecodes : Carries msg d := ⟨raw, hraw, pdu, hpdu, hd⟩
      dsimp only
      cases hcd : concatenation d with
      | none =>
          exact Preserves.bind (stays_sendRawMessage u (hspeak.single msg hmsg d hdecodes hcd) _)
            fun _ => stays_removeMessage _
      | some cd =>
          refine stays_query (Q := fun parts : List Message =>
            parts.Subperm (concatenatedRows l₀.store msg.phoneNumber cd.reference.toNat)) ?_ ?_
          · intro l hl
            apply (Crates.scanOrder.perm _).subperm.trans
            exact (hl.messages.filter _).subperm
          · intro parts hparts
            split
            · exact preserves_pure _
            · rename_i hlen
              refine stays_liftResult fun text hjoin => ?_
              have hstray := hspeak.series msg hmsg d cd hdecodes hcd parts hparts
                (not_not.mp hlen) text hjoin
              exact Preserves.bind (stays_sendRawMessage u hstray _) fun _ =>
                Preserves.forM fun _ _ => stays_removeMessage _

theorem stays_switchMode (a : PduAddress) {auid : Str} (h : Clean auid) (ct : InspContact)
    (wa : Bool) : Stays l₀ (switchMode a auid ct wa) := by
  refine Preserves.when (Preserves.bind (stays_setWaState a wa) fun _ =>
    stays_contactMessage _ _ h ?_)
  cases wa with
  | true => exact (by decide : Clean ("Notice: WhatsApp mode automatically enabled." : Str))
  | false => exact (by decide : Clean ("Notice: SMS mode automatically enabled." : Str))

theorem stays_processMessage (hcrates : CleanCrates) (hspeak : Speakable l₀.store) {auid : Str}
    (hauid : Clean auid) {msg : Message} (hmsg : msg ∈ l₀.store.messages.rows) :
    Stays l₀ (processMessage auid msg) := by
  refine Preserves.bind ?_ fun a => Preserves.bind ?_ fun ready => Preserves.when ?_
  · exact preserves_getAddr (fun _ => trivial) _
  · refine Preserves.bind (Preserves.bind preserves_get fun _ => preserves_pure _) fun present => ?_
    split
    · exact preserves_pure _
    · exact stays_requestContact hcrates a _
  · refine stays_get fun l hl => stays_unwrap fun ct _ => ?_
    cases hraw : msg.pdu with
    | some raw =>
        dsimp only
        cases hpdu : Crates.deliverPduTryFrom raw with
        | error e => exact preserves_throw trivial
        | ok pdu =>
            exact Preserves.bind (stays_switchMode a hauid ct false) fun _ =>
              stays_processMsgPdu hcrates hspeak _ hmsg hraw hpdu
    | none =>
        exact Preserves.bind (stays_switchMode a hauid ct true) fun _ =>
          stays_processMsgPlain hcrates _ (hspeak.plain msg hmsg hraw)

theorem stays_processMessages (hcrates : CleanCrates)
    (hspeak : ¬ Absent l₀ → Speakable l₀.store) : Stays l₀ processMessages := by
  refine stays_get fun l hl => ?_
  cases hadmin : adminUuid l with
  | none => exact preserves_pure _
  | some auid =>
      have hpresent : ¬ Absent l₀ := fun hno => by
        have hnone := absent_iff.mp (hl.absent hno)
        rw [hadmin] at hnone
        cases hnone
      refine stays_query (Q := fun msgs => ∀ msg ∈ msgs, msg ∈ l₀.store.messages.rows)
        (fun l hl msg hmsg => ?_) fun msgs hmsgs => Preserves.forM fun msg hmsg => ?_
      · exact hl.messages.subset ((List.perm_insertionSort _ _).mem_iff.mp hmsg)
      · exact stays_processMessage hcrates (hspeak hpresent) (clean_adminUuid hl hadmin)
          (hmsgs msg hmsg)

theorem stays_processParticipant {grp : Group} (h : Clean grp.channel) (part : Nat) :
    Stays l₀ (processParticipant grp part) := by
  refine stays_query (Q := fun _ => True) (fun _ _ => trivial) fun row _ => ?_
  cases row with
  | none => exact preserves_pure _
  | some recip =>
      refine Preserves.bind ?_ fun num => stays_get fun l hl => ?_
      · exact preserves_getAddr (fun _ => trivial) _
      · cases hct : l.contacts.lookup num with
        | none => exact preserves_pure _
        | some ct =>
            have huuid := (hl.tidy.contacts num ct hct).1
            refine stays_push _ _ (List.forall_mem_cons.mpr ⟨h, clean_two ?_ huuid⟩) nofun
            split
            · exact (by decide : Clean ("+o" : Str))
            · exact (by decide : Clean ("-o" : Str))

/-- The topics that groups would give to their channels are clean. -/
def Topical (l : InspLink) : Prop :=
  l.cfg.setTopics = true → ∀ grp ∈ l.store.groups.rows,
    l.cfg.clobberTopics = true ∨ topicOf l grp.channel = [] → Clean grp.topic

theorem Clear.setTopic {l : InspLink} (hl : Clear l₀ l) {ch topic : Str}
    (h : l₀.cfg.clobberTopics = false → topic = [] → topicOf l₀ ch = []) :
    Clear l₀ { l with channelTopics := l.channelTopics.insert ch topic } := by
  refine ⟨⟨hl.tidy.cfg, hl.tidy.control, hl.tidy.lines, hl.tidy.users, hl.tidy.contacts,
    hl.tidy.store⟩, hl.cfg, hl.messages, hl.groups, hl.absent, fun hc d hd => ?_⟩
  unfold topicOf at hd
  dsimp only at hd
  rw [lookup_insert] at hd
  split at hd
  · rename_i heq
    rw [heq]
    exact h hc hd
  · exact hl.topics hc d hd

theorem stays_processTopic (htopical : Topical l₀) (hset : l₀.cfg.setTopics = true) {grp : Group}
    (hgrp : grp ∈ l₀.store.groups.rows) : Stays l₀ (processTopic grp) := by
  refine stays_get fun l hl => ?_
  have hchan : Clean grp.channel := hl.tidy.store.channels grp (hl.groups ▸ hgrp)
  have hempty : l₀.cfg.clobberTopics = false → topicOf l grp.channel = [] →
      topicOf l₀ grp.channel = [] := fun hc => hl.topics hc grp.channel
  dsimp only
  split
  · rename_i hsend
    have htopic : Clean grp.topic := by
      apply htopical hset grp hgrp
      cases hc : l₀.cfg.clobberTopics with
      | true => exact .inl rfl
      | false =>
          refine .inr (hempty hc (hsend.resolve_right fun h => ?_))
          rw [hl.cfg, hc] at h
          cases h.1
    refine Preserves.bind (stays_push _ _ (clean_one hchan) (clean_some htopic)) fun _ => ?_
    refine preserves_modify fun t ht => ht.setTopic fun hc _ => hempty hc ?_
    refine hsend.resolve_right fun h => ?_
    rw [hl.cfg, hc] at h
    cases h.1
  · exact preserves_modify fun t ht => ht.setTopic hempty

theorem stays_processGroup (htopical : Topical l₀) {grp : Group}
    (hgrp : grp ∈ l₀.store.groups.rows) : Stays l₀ (processGroup grp) := by
  refine fun l hl => Preserves.bind (Preserves.forM fun part _ => ?_) (fun _ => ?_) l hl
  · exact stays_processParticipant (hl.tidy.store.channels grp (hl.groups ▸ hgrp)) part
  · refine stays_get fun l hl => ?_
    unfold Program.when
    split
    · rename_i hset
      exact stays_processTopic htopical (hl.cfg ▸ hset) hgrp
    · exact preserves_pure _

theorem stays_processGroups (htopical : Topical l₀) : Stays l₀ processGroups := by
  refine Preserves.bind (stays_modify fun _ => alike_of_rest rfl) fun _ => ?_
  refine Preserves.bind preserves_get fun l => ?_
  refine Preserves.bind (Preserves.forM fun a _ => stays_processGroupsForRecipient a) fun _ => ?_
  refine stays_query (Q := fun grps => ∀ grp ∈ grps, grp ∈ l₀.store.groups.rows)
    (fun l hl grp hgrp => ?_) fun grps hgrps => Preserves.forM fun grp hgrp => ?_
  · exact hl.groups ▸ Crates.scanOrder.mem_run.mp hgrp
  · exact stays_processGroup htopical (hgrps grp hgrp)

theorem stays_onLinked (hcrates : CleanCrates) (hspeak : ¬ Absent l₀ → Speakable l₀.store)
    (htopical : Topical l₀) : Stays l₀ onLinked := by
  refine stays_get fun l hl => Preserves.bind ?_ fun _ => ?_
  · exact stays_push _ _ (clean_one hl.tidy.cfg.logChan) nofun
  · exact Preserves.bind (stays_processGroups htopical) fun _ =>
      stays_processMessages hcrates hspeak

theorem stays_controlResponse {msg : Str} (h : Clean msg) : Stays l₀ (controlResponse msg) := by
  refine stays_get fun l hl => ?_
  cases hadmin : adminUuid l with
  | some admu => exact stays_push _ _ (clean_one (clean_adminUuid hl hadmin)) (clean_some h)
  | none => exact preserves_pure _

theorem words_of_inspParse {rest : List Str} {line : Str}
    (h : Admin.InspCommand.parse rest = .ok (some (.raw line))) :
    ∃ args, args ⊆ rest ∧ line = join (" " : Str) args := by
  unfold Admin.InspCommand.parse at h
  split at h
  · cases h
  · split at h
    · split at h
      · cases h
      · cases h
        exact ⟨_, List.Subset.trans (List.subset_cons_self _ _) (List.subset_cons_self _ _), rfl⟩
    · split at h
      · split at h
        · cases h
        · split at h <;> cases h
      · cases h

theorem inspParse_of_adminParse {cmd : Str} {rest : List Str} {ic : Admin.InspCommand}
    (h : Admin.AdminCommand.parse (cmd :: rest) = .ok (some (.insp ic))) :
    Admin.InspCommand.parse rest = .ok (some ic) := by
  unfold Admin.AdminCommand.parse at h
  dsimp only at h
  repeat' split at h
  all_goals simp at h
  cases hparse : Admin.InspCommand.parse rest with
  | error e =>
      rw [hparse] at h
      cases h
  | ok found =>
      rw [hparse] at h
      cases found with
      | none => cases h
      | some ic' =>
          cases h
          rfl

theorem clean_rawLine {msg line : Str} (h : Clean msg)
    (hparse : Admin.AdminCommand.parse (splitOn ' ' msg) = .ok (some (.insp (.raw line)))) :
    Clean line := by
  have hwords : ∀ word ∈ splitOn ' ' msg, Clean word :=
    fun word hword => h.of_subset (mem_of_mem_splitOn hword)
  cases hsplit : splitOn ' ' msg with
  | nil =>
      rw [hsplit] at hparse
      cases hparse
  | cons cmd rest =>
      rw [hsplit] at hparse hwords
      obtain ⟨args, hargs, rfl⟩ := words_of_inspParse (inspParse_of_adminParse hparse)
      exact clean_join (by decide) fun word hword =>
        hwords word (List.mem_cons_of_mem cmd (hargs hword))

theorem notMem_debugPretty (user : Option InspUser) : '\r' ∉ debugPretty user := by
  cases user with
  | none => exact (by decide : '\r' ∉ ("None" : Str))
  | some u =>
      have hshown : ∀ s, '\r' ∉ debugStr Crates.printed s := fun s => (clean_debugStr _ s).1
      unfold debugPretty
      -- what is shown of a string is not split any further
      generalize debugStr Crates.printed = shown at hshown ⊢
      repeat' refine List.not_mem_append ?_ ?_
      any_goals exact hshown _
      any_goals decide
      any_goals exact (clean_decimalInt _).1
      split <;> decide

theorem stays_processInsp (hcrates : CleanCrates) {ic : Admin.InspCommand}
    (h : ∀ line, ic = .raw line → Clean line) : Stays l₀ (processInsp ic) := by
  cases ic with
  | raw line =>
      have hline := h line rfl
      refine Preserves.bind ?_ fun _ => preserves_pure _
      unfold sendRaw
      cases hparse : Crates.parseMessage line with
      | ok m => exact stays_send (hcrates.parsed line m hline hparse)
      | error e =>
          have herror := hcrates.unparsed line e hline hparse
          exact stays_controlResponse (Clean.append (by decide) herror)
  | queryUuid uu =>
      refine stays_get fun l hl => Preserves.bind (Preserves.forM fun line hline => ?_)
        fun _ => preserves_pure _
      exact stays_controlResponse (clean_of_lines_of_clean (notMem_debugPretty _) hline)
  | queryNickUuid qnu =>
      refine stays_get fun l hl => Preserves.bind ?_ fun _ => preserves_pure _
      refine stays_controlResponse (Clean.append (by decide) ?_)
      unfold debugOption
      split
      · decide
      · rename_i uuid hfound
        obtain ⟨⟨u, user⟩, hlast, rfl⟩ := Option.map_eq_some_iff.mp hfound
        exact Clean.append (Clean.append (by decide) (clean_debugStr _ _)) (by decide)

set_option maxRecDepth 20000 in
theorem notMem_helpPage {query : Option Str} {page : String}
    (h : Admin.helpPage query = some page) : '\r' ∉ page.toList := by
  unfold Admin.helpPage at h
  repeat' split at h
  all_goals cases h
  all_goals exact notMem_of_chars _ rfl (by decide +kernel)

theorem stays_processAdminCommand (hcrates : CleanCrates) {msg : Str} (h : Clean msg) :
    Stays l₀ (processAdminCommand msg : LinkM Unit) := by
  have haside : ∀ {f : InspLink → InspLink}, (∀ l, Alike l (f l)) →
      Stays l₀ (modify f : LinkM PUnit) := stays_modify
  unfold processAdminCommand
  split
  · exact preserves_pure _
  split
  · exact preserves_throw trivial
  · exact stays_controlResponse (by decide)
  · rename_i ac hparse
    cases ac with
    | ghost nick gc =>
        exact Preserves.bind (haside fun _ => alike_of_rest rfl) fun _ =>
          stays_controlResponse (by decide)
    | modem mc => exact haside fun _ => alike_of_rest rfl
    | whatsapp wac => exact haside fun _ => alike_of_rest rfl
    | group gc => exact haside fun _ => alike_of_rest rfl
    | contact cc => exact haside fun _ => alike_of_rest rfl
    | insp ic =>
        refine Preserves.bind (stays_processInsp hcrates fun line hline => ?_) fun _ =>
          Preserves.when (stays_controlResponse (by decide))
        exact clean_rawLine h (hline ▸ hparse)
    | help qry =>
        rw [executeAdminCommand]
        cases hpage : Admin.helpPage qry with
        | some hp =>
            exact Preserves.forM fun line hline =>
              stays_controlResponse (clean_of_lines_of_clean (notMem_helpPage hpage) hline)
        | none => exact stays_controlResponse (by decide)

theorem stays_handlePrivmsg (hcrates : CleanCrates) (source target : Str) {msg : Str}
    (h : Clean msg) : Stays l₀ (handlePrivmsg source target msg) := by
  have hwa : ∀ c, Stays l₀ (Link.waSend c) := fun _ => stays_modify fun _ => alike_of_rest rfl
  refine stays_get fun l _ => ?_
  split
  · exact preserves_pure _
  split
  · exact stays_processAdminCommand hcrates h
  split
  · exact hwa _
  split
  · exact preserves_pure _
  split
  · exact preserves_pure _
  split
  · exact hwa _
  · exact stays_modify fun _ => alike_of_rest rfl

theorem Tidy.clear {l : InspLink} (h : Tidy l) : Clear l l :=
  ⟨h, rfl, List.Sublist.refl _, rfl, id, fun _ _ => id⟩

end Links

end SmsIrc.LinkClean
