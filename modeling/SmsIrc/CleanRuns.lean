import SmsIrc.LinkClean
import SmsIrc.Logging

/-!
Runs of a link in which no text from outside ends a line that it sends.
-/

namespace SmsIrc.CleanRuns

open SmsIrc.CleanTexts SmsIrc.Comm SmsIrc.ContactCommon SmsIrc.Database SmsIrc.External
open SmsIrc.HashMaps SmsIrc.InspUsers SmsIrc.Link SmsIrc.LinkArrivals SmsIrc.LinkClean
open SmsIrc.LinkRuns SmsIrc.Logging SmsIrc.MessageTexts SmsIrc.Models SmsIrc.Program
open SmsIrc.SenderCommon SmsIrc.Text SmsIrc.Transition SmsIrc.Util

section Runs

variable [Crates]

/-- A handler leaves a state tidy. -/
def Tidies {α : Type} (l : InspLink) (p : LinkM α) : Prop :=
  wp p (fun _ t => Tidy t) (fun _ t => Tidy t) l

theorem tidies_of_stays {α : Type} {l : InspLink} {p : LinkM α} (hl : Tidy l)
    (h : Stays l p) : Tidies l p :=
  wp_mono (h l hl.clear) (fun _ _ ht => ht.tidy) fun _ _ ht => ht.1.tidy

omit [Crates] in
theorem cleanUser_newForControlbot {cfg : InspConfig} (h : CleanConfig cfg) (now : NaiveDateTime) :
    CleanUser (newForControlbot now cfg.controlNick cfg.serverName) := by
  have hident : Clean ("~control" : Str) := by decide
  have hip : Clean ("0.0.0.0" : Str) := by decide
  have hmodes : Clean ("+i" : Str) := by decide
  have hgecos : Clean ("sms-irc control bot" : Str) := by decide
  exact ⟨h.controlNick, h.serverName, h.serverName, hident, hip, hmodes, hgecos⟩

theorem tidies_doBurst {l : InspLink} (hl : Tidy l) : Tidies l doBurst := by
  refine wp_mono (LinkEvents.wp_doBurst l (E := fun _ t => Tidy t)) ?_ fun _ _ ht => ht
  rintro _ _ rfl
  have huser := cleanUser_newForControlbot hl.cfg l.now
  refine (hl.insertUser hl.control huser).said fun m hm => ?_
  rcases List.mem_cons.mp hm with rfl | hm
  · exact cleanLine_new (clean_one (clean_decimalInt _)) nofun
  · rcases List.mem_cons.mp hm with rfl | hm
    · exact cleanLine_uidLine hl.control huser
    · exact List.mem_singleton.mp hm ▸ cleanLine_new (List.forall_mem_nil _) nofun

theorem tidies_handleServer {l : InspLink} (hl : Tidy l) (args : List Str) (suffix : Option Str) :
    Tidies l (handleServer args suffix) := by
  unfold Tidies
  rw [handleServer, wp_bind, wp_get]
  split
  · split
    · exact hl
    split
    · exact hl
    · rw [wp_bind]
      refine wp_logVerified (fun _ _ => hl) ?_
      rw [wp_bind, wp_modify, wp_bind]
      rename_i sid _ _
      have hsid : Tidy { l with remoteSid := sid } :=
        ⟨hl.cfg, hl.control, hl.lines, hl.users, hl.contacts, hl.store⟩
      refine wp_mono (tidies_doBurst hsid) (fun _ t ht => ?_) fun _ _ ht => ht
      exact ⟨ht.cfg, ht.control, ht.lines, ht.users, ht.contacts, ht.store⟩
  · exact hl

omit [Crates] in
theorem clean_modes {mode : Str} {modes : List Str} (h : ∀ p ∈ mode :: modes, Clean p) :
    Clean (join (" " : Str) (mode :: modes)) := clean_join (by decide) h

theorem cleanUser_newFromUidLine {args : List Str} {suffix : Option Str} {uuid : Str}
    {user : InspUser} (hargs : ∀ p ∈ args, Clean p) (hsuffix : ∀ p ∈ suffix, Clean p)
    (h : newFromUidLine args suffix = .ok (uuid, user)) : Clean uuid ∧ CleanUser user := by
  unfold newFromUidLine at h
  split at h
  · split at h
    · cases h
    · rename_i gecos
      split at h
      · cases h
      · cases h
      · cases h
        simp only [List.forall_mem_cons] at hargs
        obtain ⟨huuid, -, hnick, hhost, hdisplayed, hident, hip, -, hmode, hmodes⟩ := hargs
        exact ⟨huuid, hnick, hhost, hdisplayed, hident, hip,
          clean_modes (List.forall_mem_cons.mpr ⟨hmode, hmodes⟩), hsuffix gecos rfl⟩
  · cases h

theorem tidies_updateUser {l : InspLink} (hl : Tidy l) (uuid : Str) {f : InspUser → InspUser}
    (hf : ∀ user, CleanUser user → CleanUser (f user)) : Tidies l (updateUser uuid f) := by
  unfold Tidies
  rw [updateUser, wp_modify]
  cases hu : l.users.lookup uuid with
  | none => exact hl
  | some user =>
      obtain ⟨huuid, huser⟩ := hl.users uuid user hu
      exact hl.insertUser huuid (hf user huser)

/-- An event has the stored messages sent. -/
def SendsMessages (l : InspLink) : Event → Prop
  | .cf .processMessages => ¬ Absent l
  | .remote ⟨some source, .raw cmd args suffix⟩ =>
      cmd = ("UID" : Str) ∧ (∃ uuid user, newFromUidLine args suffix = .ok (uuid, user) ∧
        user.nick = l.cfg.adminNick) ∨
      cmd = ("ENDBURST" : Str) ∧ l.remoteSid = source ∧ ¬ Absent l
  | _ => False

/-- An event has the topics of groups set. -/
def SetsTopics (l : InspLink) : Event → Prop
  | .cf .processGroups => True
  | .cb .processGroups => True
  | .remote ⟨some source, .raw cmd _ _⟩ => cmd = ("ENDBURST" : Str) ∧ l.remoteSid = source
  | _ => False

/-- The texts that an event brings, as far as they are sent on or kept. -/
def carried (l : InspLink) : Event → List Str
  | .remote m => m.command.params
  | .cb (.log line) => [line]
  | .cb (.reportFailure fail) => if (adminUuid l).isSome then [fail] else []
  | .cb (.commandResponse resp) => if (adminUuid l).isSome then [resp] else []
  | .cf (.forwardCommand a cmd) => if (l.contacts.lookup a).isSome then given cmd else []
  | .cf (.forwardCommandByNick _ cmd) => given cmd
  | .storeOp (.recipient _ nick) => [nick]
  | .storeOp (.waRecipient _ nick _ _) => [nick]
  | .storeOp (.group _ chan _ _ _) => [chan]
  | _ => []

/-- The texts that an event brings are clean, and those that it has made of stored ones. -/
structure Harmless (s : Session) (e : Event) : Prop where
  texts : ∀ text ∈ carried s.link e, Clean text
  messages : SendsMessages s.link e → Speakable s.link.store
  topics : SetsTopics s.link e → Topical s.link

theorem tidies_handleUid (hcrates : CleanCrates) {l : InspLink} (hl : Tidy l) {args : List Str}
    {suffix : Option Str} (hargs : ∀ p ∈ args, Clean p) (hsuffix : ∀ p ∈ suffix, Clean p)
    (hspeak : (∃ uuid user, newFromUidLine args suffix = .ok (uuid, user) ∧
      user.nick = l.cfg.adminNick) → Speakable l.store) :
    Tidies l (handleUid args suffix) := by
  unfold Tidies handleUid
  cases huid : newFromUidLine args suffix with
  | error e => exact hl
  | ok new =>
      obtain ⟨uuid, user⟩ := new
      obtain ⟨huuid, huser⟩ := cleanUser_newFromUidLine hargs hsuffix huid
      have hinserted := hl.insertUser huuid huser
      dsimp only
      rw [wp_bind, insertUser, wp_modify, wp_bind, wp_get]
      unfold Program.when
      split
      · rename_i hnick
        exact tidies_of_stays hinserted (stays_processMessages hcrates fun _ =>
          hspeak ⟨uuid, user, huid, hnick⟩)
      · exact hinserted

theorem tidies_handleEndburst (hcrates : CleanCrates) {l : InspLink} (hl : Tidy l) {source : Str}
    (hspeak : l.remoteSid = source → ¬ Absent l → Speakable l.store)
    (htopical : l.remoteSid = source → Topical l) : Tidies l (handleEndburst source) := by
  unfold Tidies
  rw [handleEndburst, wp_bind, wp_get]
  unfold Program.when
  split
  · rename_i hsource
    refine tidies_of_stays hl (Preserves.bind (stays_doQuasiburst hcrates) fun _ => ?_)
    exact Preserves.bind (stays_modify fun _ => alike_of_rest rfl) fun _ =>
      stays_onLinked hcrates (hspeak hsource) (htopical hsource)
  · exact hl

theorem tidies_handleRaw (hcrates : CleanCrates) {s : Session} {source cmd : Str} {args : List Str}
    {suffix : Option Str} (hs : Tidy s.link)
    (h : Harmless s (.remote ⟨some source, .raw cmd args suffix⟩)) :
    Tidies s.link (handleRaw source cmd args suffix) := by
  have hargs : ∀ p ∈ args, Clean p := fun p hp => h.texts p (List.mem_append_left _ hp)
  have hsuffix : ∀ p ∈ suffix, Clean p := fun p hp =>
    h.texts p (List.mem_append_right _ (Option.mem_toList.mpr hp))
  unfold handleRaw
  split
  · rename_i hcmd
    exact tidies_handleUid hcrates hs hargs hsuffix fun hadmin => h.messages (.inl ⟨hcmd, hadmin⟩)
  split
  · cases args with
    | nil => exact hs
    | cons nick rest =>
        refine tidies_updateUser hs source fun user huser => ?_
        exact ⟨hargs nick List.mem_cons_self, huser.hostname, huser.displayedHostname, huser.ident,
          huser.ip, huser.modes, huser.gecos⟩
  split
  · split
    · exact ⟨hs.cfg, hs.control, hs.lines, hs.users, hs.contacts, hs.store⟩
    · exact hs
  split
  · cases args with
    | nil => exact hs
    | cons host rest =>
        refine tidies_updateUser hs source fun user huser => ?_
        exact ⟨huser.nick, huser.hostname, hargs host List.mem_cons_self, huser.ident, huser.ip,
          huser.modes, huser.gecos⟩
  split
  · rename_i hcmd
    exact tidies_handleEndburst hcrates hs
      (fun hsource hpresent => h.messages (.inr ⟨hcmd, hsource, hpresent⟩))
      fun hsource => h.topics ⟨hcmd, hsource⟩
  · exact hs

theorem tidies_handleRemoteMessage (hcrates : CleanCrates) {s : Session} {m : IrcMessage}
    (hs : Tidy s.link) (h : Harmless s (.remote m)) : Tidies s.link (handleRemoteMessage m) := by
  obtain ⟨prefixStr, command⟩ := m
  have htexts : ∀ p ∈ command.params, Clean p := h.texts
  cases prefixStr with
  | none =>
      cases command with
      | raw cmd args suffix =>
          change Tidies s.link (Program.when _ _)
          unfold Program.when
          split
          · exact tidies_handleServer hs args suffix
          · exact hs
      | _ => exact hs
  | some source =>
      cases command with
      | privmsg target msg =>
          exact tidies_of_stays hs (stays_handlePrivmsg hcrates source target
            (htexts msg (List.mem_cons_of_mem _ List.mem_cons_self)))
      | error details => exact hs
      | kill uuid reason => exact tidies_of_stays hs (stays_removeUser hcrates uuid true)
      | quit reason => exact tidies_of_stays hs (stays_removeUser hcrates source true)
      | ping data dest =>
          have hdata : Clean data := htexts data List.mem_cons_self
          cases dest with
          | none => exact tidies_of_stays hs (stays_sendSidLine _ (clean_one hdata) nofun)
          | some dest =>
              have hdest : Clean dest :=
                htexts dest (List.mem_cons_of_mem _ List.mem_cons_self)
              exact tidies_of_stays hs (stays_sendSidLine _ (clean_two hdest hdata) nofun)
      | squit server reason =>
          exact ⟨hs.cfg, hs.control, hs.lines, fun u user hu =>
            hs.users u user (lookup_retain_eq_some.mp hu).1, hs.contacts, hs.store⟩
      | raw cmd args suffix => exact tidies_handleRaw hcrates hs h
      | other params => exact hs

theorem tidies_forwardCmdByNick {l : InspLink} (hl : Tidy l) (nick : Str)
    {cmd : ContactManagerCommand} (h : ∀ text ∈ given cmd, Clean text) :
    Tidies l (forwardCmdByNick nick cmd) := by
  refine wp_mono (stays_byNick nick (fun a t ht hsame => ?_) hl.clear) (fun _ _ ht => ht.tidy)
    fun _ _ ht => ht.1.tidy
  exact stays_forwardCmd a (fun _ => h) t ht hsame

theorem tidies_handleCfCommand (hcrates : CleanCrates) {s : Session} {c : ContactFactoryCommand}
    (hs : Tidy s.link) (h : Harmless s (.cf c)) : Tidies s.link (handleCfCommand c) := by
  cases c with
  | processMessages => exact tidies_of_stays hs (stays_processMessages hcrates h.messages)
  | processGroups => exact tidies_of_stays hs (stays_processGroups (h.topics trivial))
  | processAvatars => exact hs
  | setupContact a => exact tidies_of_stays hs (stays_setupContact hcrates a)
  | dropContact a => exact tidies_of_stays hs (stays_dropContact hcrates a)
  | queryContact a src => exact tidies_of_stays hs (stays_queryContact hcrates a src)
  | dropContactByNick nick =>
      exact wp_mono (stays_byNick nick (fun a t ht _ => stays_dropContact hcrates a t ht) hs.clear)
        (fun _ _ ht => ht.tidy) fun _ _ ht => ht.1.tidy
  | loadRecipients => exact hs
  | forwardCommand a cmd =>
      refine wp_mono
        (stays_forwardCmd a (fun hct text htext => h.texts text ?_) s.link hs.clear rfl)
        (fun _ _ ht => ht.tidy) fun _ _ ht => ht.1.tidy
      rw [carried, if_pos hct]
      exact htext
  | forwardCommandByNick nick cmd => exact tidies_forwardCmdByNick hs nick h.texts
  | subscribePresenceByNick nick =>
      exact wp_mono (stays_byNick nick (fun a t ht _ => ht.alike (alike_of_rest rfl)) hs.clear)
        (fun _ _ ht => ht.tidy) fun _ _ ht => ht.1.tidy

theorem tidies_handleCbCommand {s : Session} {c : ControlBotCommand} (hs : Tidy s.link)
    (h : Harmless s (.cb c)) : Tidies s.link (handleCbCommand c) := by
  cases c with
  | log line =>
      have hline : Clean line := h.texts line List.mem_cons_self
      exact tidies_of_stays hs (stays_get fun l hl =>
        stays_push _ _ (clean_one hl.tidy.cfg.logChan) (clean_some hline))
  | reportFailure fail =>
      have htext := h.texts fail
      unfold Tidies handleCbCommand
      rw [wp_bind, wp_get]
      cases hadmin : adminUuid s.link with
      | none => exact hs
      | some admu =>
          rw [carried, hadmin] at htext
          have hfail : Clean fail := htext List.mem_cons_self
          have hnick : Clean s.link.cfg.adminNick := hs.cfg.adminNick
          refine tidies_of_stays hs (stays_push _ _ (clean_one (clean_adminUuid hs.clear hadmin))
            (clean_some ?_))
          exact ((hnick.append (by decide)).append hfail).append (by decide)
  | commandResponse resp =>
      have htext := h.texts resp
      change wp (controlResponse resp) _ _ _
      rw [controlResponse, wp_bind, wp_get]
      cases hadmin : adminUuid s.link with
      | none => exact hs
      | some admu =>
          rw [carried, hadmin] at htext
          have hresp : Clean resp := htext List.mem_cons_self
          exact tidies_of_stays hs (stays_push _ _ (clean_one (clean_adminUuid hs.clear hadmin))
            (clean_some hresp))
  | processGroups => exact tidies_of_stays hs (stays_processGroups (h.topics trivial))

/-- If the rows are clean, they still are. -/
def CleanStays (st st' : Store) : Prop := CleanStore st → CleanStore st'

instance : IsPreorder Store CleanStays where
  refl _ := id
  trans _ _ _ hst htu := htu ∘ hst

theorem cleanStays_of_same {st st' : Store}
    (hrec : ∀ r ∈ st'.recipients.rows, ∃ q ∈ st.recipients.rows, q.nick = r.nick)
    (hgroups : ∀ grp ∈ st'.groups.rows, ∃ old ∈ st.groups.rows, old.channel = grp.channel) :
    CleanStays st st' := by
  refine fun h => ⟨fun r hr => ?_, fun grp hgrp => ?_⟩
  · obtain ⟨q, hq, heq⟩ := hrec r hr
    exact heq ▸ h.nicks q hq
  · obtain ⟨old, hold, heq⟩ := hgroups grp hgrp
    exact heq ▸ h.channels old hold

theorem cleanStays_tick (st : Store) : CleanStays st st.tick := fun h => ⟨h.nicks, h.channels⟩

theorem cleanStays_insert {addr : PduAddress} {row : Nat → Recipient}
    {hrow : ∀ n, (row n).id = n} (h : ∀ n, Clean (row n).nick) :
    Moves CleanStays (insertRecipient addr row hrow) := by
  refine moves_insertRecipient cleanStays_tick fun st hst => ⟨fun r hr => ?_, hst.channels⟩
  rcases List.mem_append.mp hr with hr | hr
  · exact hst.nicks r hr
  · rw [List.mem_singleton.mp hr]
    exact h _

theorem cleanStays_storeOp {l : InspLink} {op : StoreOp}
    (h : ∀ text ∈ carried l (.storeOp op), Clean text) : Moves CleanStays op.run := by
  have hsame : ∀ {st st' : Store}, st'.recipients = st.recipients → st'.groups = st.groups →
      CleanStays st st' := fun hrec hgroups hst => hst.congr hrec hgroups
  cases op with
  | smsMessage addr pdu csmsData => exact moves_execute cleanStays_tick fun _ => hsame rfl rfl
  | waMessage addr text groupTarget ts =>
      exact moves_checked cleanStays_tick fun _ => hsame rfl rfl
  | recipient addr nick =>
      have hnick : Clean nick := h nick List.mem_cons_self
      exact Steps.bind (cleanStays_insert fun _ => hnick) fun _ => steps_pure _
  | waRecipient addr nick ntf nicksrc =>
      have hnick : Clean nick := h nick List.mem_cons_self
      exact Steps.bind (cleanStays_insert fun _ => hnick) fun _ => steps_pure _
  | notify addr n =>
      refine moves_execute cleanStays_tick fun st => cleanStays_of_same (fun r hr => ?_)
        fun grp hgrp => ⟨grp, hgrp, rfl⟩
      obtain ⟨q, hq, rfl⟩ := List.mem_map.mp hr
      refine ⟨q, hq, ?_⟩
      split <;> rfl
  | group jid chan parts adms topic =>
      have hchan : Clean chan := h chan List.mem_cons_self
      refine Steps.bind (Steps.bind (moves_query cleanStays_tick _) fun taken => ?_)
        fun _ => steps_pure _
      split
      · exact steps_throw trivial
      · refine steps_get_bind fun st hst => ⟨hst.nicks, fun grp hgrp => ?_⟩
        rcases List.mem_append.mp hgrp with hgrp | hgrp
        · exact hst.channels grp hgrp
        · exact List.mem_singleton.mp hgrp ▸ hchan
  | updateGroup jid parts adms topic =>
      refine Steps.bind (Steps.bind (moves_execute cleanStays_tick fun st => ?_) fun _ =>
        Steps.bind steps_get fun st => ?_) fun _ => steps_pure _
      · refine cleanStays_of_same (fun r hr => ⟨r, hr, rfl⟩) fun grp hgrp => ?_
        obtain ⟨old, hold, rfl⟩ := List.mem_map.mp hgrp
        refine ⟨old, hold, ?_⟩
        split <;> rfl
      · split
        · exact steps_pure _
        · exact steps_throw trivial
  | deleteGroup id =>
      refine moves_checked cleanStays_tick fun st => cleanStays_of_same
        (fun r hr => ⟨r, hr, rfl⟩) fun grp hgrp => ?_
      exact ⟨grp, (List.mem_filter.mp hgrp).1, rfl⟩
  | waMsgid id => exact moves_execute cleanStays_tick fun _ => hsame rfl rfl
  | waPersistence p => exact moves_execute cleanStays_tick fun _ => hsame rfl rfl

theorem tidies_connect {l : InspLink} (hl : Tidy l) : Tidies l connect := by
  refine tidies_of_stays hl (Preserves.bind ?_ fun _ => stays_modify fun _ => alike_of_rest rfl)
  refine Preserves.bind (stays_sendSidLine _ (clean_two (by decide) (by decide)) nofun) fun _ => ?_
  refine Preserves.bind (Preserves.forM fun capab hcapab => ?_) fun _ => ?_
  · have hclean : ∀ c ∈ ["PROTOCOL=1202", "NICKMAX=100", "CHANMAX=100", "MAXMODES=100",
        "IDENTMAX=100", "MAXQUIT=100", "MAXTOPIC=100", "MAXKICK=100", "MAXGECOS=100",
        "MAXAWAY=100"], Clean c.toList := by decide
    exact stays_sendSidLine _ (clean_one (by decide)) (clean_some (hclean capab hcapab))
  refine Preserves.bind (stays_sendSidLine _ (clean_one (by decide)) nofun) fun _ => ?_
  refine stays_get fun l hl => ?_
  have hcfg := hl.tidy.cfg
  refine stays_push _ _ (List.forall_mem_cons.mpr ⟨hcfg.serverName, ?_⟩)
    (clean_some hcfg.serverDesc)
  exact List.forall_mem_cons.mpr ⟨hcfg.sendpass, clean_two (by decide) hcfg.sid⟩

theorem tidy_next (hcrates : CleanCrates) {s t : Session} {e : Event} (he : Harmless s e)
    (hs : Tidy s.link) (ht : next s e = some t) : Tidy t.link := by
  have hperform : ∀ {p : LinkM Unit}, Tidies s.link p → Tidy (perform s p).link :=
    fun hp => wp_exec_snd hp
  unfold next at ht
  split at ht
  swap
  · cases ht
  cases e with
  | connect =>
      simp only [step] at ht
      split at ht
      · cases ht
        exact hperform (tidies_connect hs)
      · cases ht
  | remote m =>
      simp only [step] at ht
      split at ht
      · cases ht
      · cases ht
        exact hperform (tidies_handleRemoteMessage hcrates hs he)
  | cb c =>
      simp only [step] at ht
      split at ht
      · cases ht
        exact hperform (tidies_handleCbCommand hs he)
      · cases ht
  | cf c =>
      simp only [step] at ht
      split at ht
      · cases ht
        exact hperform (tidies_handleCfCommand hcrates hs he)
      · cases ht
  | storeOp op =>
      cases ht
      exact ⟨hs.cfg, hs.control, hs.lines, hs.users, hs.contacts,
        (cleanStays_storeOp he.texts).exec s.link.store hs.store⟩
  | clock now dbNow =>
      cases ht
      exact ⟨hs.cfg, hs.control, hs.lines, hs.users, hs.contacts, hs.store.congr rfl rfl⟩

theorem tidy_initial {cfg : InspConfig} {st : Store} (hcfg : CleanConfig cfg) (hst : CleanStore st)
    (now : NaiveDateTime) : Tidy (initial cfg st now).link :=
  ⟨hcfg, hcfg.sid.append (by decide), nofun, nofun, nofun, hst⟩

/-- A database of plain messages, each of lines that end as they should. -/
def PlainRows (st : Store) : Prop :=
  ∀ m ∈ st.messages.rows, m.pdu = none ∧ (m.text.all fun text => !strayCr text) = true

instance (st : Store) : Decidable (PlainRows st) := inferInstanceAs (Decidable (∀ m ∈ _, _))

theorem PlainRows.speakable {st : Store} (h : PlainRows st) : Speakable st := by
  have hnone : ∀ m ∈ st.messages.rows, ∀ d, ¬ Carries m d := by
    rintro m hm d ⟨raw, hraw, -⟩
    rw [(h m hm).1] at hraw
    cases hraw
  refine ⟨fun m hm _ text htext => ?_, fun m hm d hd => absurd hd (hnone m hm d),
    fun m hm d _ hd => absurd hd (hnone m hm d)⟩
  have hall := (h m hm).2
  rw [Option.mem_def.mp htext] at hall
  simpa using hall

/-- As long as each text that is handed to the link is clean, and what it makes of the stored
messages and topics, nothing that it sends has the end of a line in it. -/
theorem clean_of_run (hcrates : CleanCrates) {cfg : InspConfig} (hcfg : CleanConfig cfg)
    {st : Store} (hst : CleanStore st) (now : NaiveDateTime) {es : List Event} {t : Session}
    (hes : AllSteps next Harmless (initial cfg st now) es)
    (hrun : run next (initial cfg st now) es = some t) :
    ∀ m ∈ t.link.outbox, ∀ p ∈ m.command.params, '\r' ∉ p ∧ '\n' ∉ p :=
  (invariant_of_allSteps (I := fun s => Tidy s.link)
    (fun _ _ _ he hs ht => tidy_next hcrates he hs ht) hes (tidy_initial hcfg hst now) hrun).lines

end Runs

section Samples

attribute [local instance] Sample.crates

theorem cleanCrates_sample : CleanCrates where
  displayAddress a := by
    have hlow : ∀ n < 16, Clean [Nat.digitChar n] := by decide
    have hdigit : ∀ n, Clean [Nat.digitChar n] := by
      intro n
      rcases Nat.lt_or_ge n 16 with hn | hn
      · exact hlow n hn
      · have hstar : Nat.digitChar n = '*' := by
          unfold Nat.digitChar
          repeat rw [if_neg (by omega)]
        rw [hstar]
        decide
    refine Clean.append ?_ ⟨fun h => ?_, fun h => ?_⟩
    · split <;> decide
    · obtain ⟨b, -, hb⟩ := List.mem_map.mp h
      exact (hdigit b.toNat).1 (hb ▸ List.mem_singleton_self _)
    · obtain ⟨b, -, hb⟩ := List.mem_map.mp h
      exact (hdigit b.toNat).2 (hb ▸ List.mem_singleton_self _)
  localDate t := clean_decimalInt _
  localTime t := clean_decimalInt t
  parsed s m _ h := by cases h
  unparsed s e _ h := by
    cases h
    decide
  undecoded raw pdu e hpdu he := by
    change Sample.deliverPduTryFrom raw = .ok pdu at hpdu
    unfold Sample.deliverPduTryFrom at hpdu
    split at hpdu
    · dsimp only at hpdu
      split at hpdu
      · split at hpdu
        · cases hpdu
        · cases hpdu
          dsimp only at he
          unfold Sample.decodeUserData at he
          repeat' split at he
          all_goals cases he
          all_goals decide
      · cases hpdu
    · cases hpdu

theorem cleanConfig_sample : CleanConfig sampleConfig :=
  ⟨by decide, by decide, by decide, by decide, by decide, by decide, by decide⟩

/-- A contact says something, and then changes its profile status. -/
def telling (text status : Str) : List Event :=
  .storeOp (.recipient Sample.alice ("al" : Str)) :: linking ++
    [.storeOp (.waMessage Sample.alice text none 0), .cf .processMessages,
      .cb (.log (logLine ("sms_irc::whatsapp" : Str) .info
        (("al changed their status to: " : Str) ++ status)))]

/-- What is asked of each step where all messages are plain. -/
abbrev HarmlessText (s : Session) (e : Event) : Prop :=
  (∀ text ∈ carried s.link e, Clean text) ∧ PlainRows s.link.store ∧ s.link.cfg.setTopics = false

theorem harmless_of_text {s : Session} {e : Event} (h : HarmlessText s e) : Harmless s e :=
  ⟨h.1, fun _ => h.2.1.speakable, fun _ hset => absurd hset (by rw [h.2.2]; decide)⟩

def told : Session := (run next sampleStart (telling ("hi\r\nyou" : Str) ("away" : Str))).get
  (by decide +kernel)

theorem clean_told :
    (∃ m ∈ told.link.outbox, ("you" : Str) ∈ m.command.params) ∧
      ∀ m ∈ told.link.outbox, ∀ p ∈ m.command.params, '\r' ∉ p ∧ '\n' ∉ p := by
  have htext : AllSteps next HarmlessText sampleStart
      (telling ("hi\r\nyou" : Str) ("away" : Str)) := by decide +kernel
  have hrun : run next sampleStart (telling ("hi\r\nyou" : Str) ("away" : Str)) = some told :=
    (Option.some_get _).symm
  have hstore : CleanStore Sample.store := ⟨List.forall_mem_nil _, List.forall_mem_nil _⟩
  constructor
  · decide +kernel
  · refine clean_of_run cleanCrates_sample cleanConfig_sample hstore 0 ?_ hrun
    exact AllSteps.imp (I := fun _ => True) (fun _ _ _ _ _ _ => trivial)
      (fun _ _ h _ => harmless_of_text h) htext trivial

def broken : Session := (run next sampleStart (telling ("hi\rQUIT" : Str) ("x\nQUIT" : Str))).get
  (by decide +kernel)

/-- A carriage return in a message is sent as it is, and so is a line feed in a status. -/
theorem peers_end_lines :
    (¬ ∀ (es : List Event) (t : Session), run next sampleStart es = some t →
      ∀ m ∈ t.link.outbox, ∀ p ∈ m.command.params, '\r' ∉ p) ∧
    ¬ ∀ (es : List Event) (t : Session), run next sampleStart es = some t →
      ∀ m ∈ t.link.outbox, ∀ p ∈ m.command.params, '\n' ∉ p := by
  have hreturn : ∃ m ∈ broken.link.outbox, ∃ p ∈ m.command.params, '\r' ∈ p := by decide +kernel
  have hfeed : ∃ m ∈ broken.link.outbox, ∃ p ∈ m.command.params, '\n' ∈ p := by decide +kernel
  have hrun : run next sampleStart (telling ("hi\rQUIT" : Str) ("x\nQUIT" : Str)) = some broken :=
    (Option.some_get _).symm
  constructor
  · intro h
    obtain ⟨m, hm, p, hp, hmem⟩ := hreturn
    exact h _ broken hrun m hm p hp hmem
  · intro h
    obtain ⟨m, hm, p, hp, hmem⟩ := hfeed
    exact h _ broken hrun m hm p hp hmem

end Samples

end SmsIrc.CleanRuns
