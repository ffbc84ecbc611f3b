import Mathlib.Logic.Relation
import SmsIrc.LinkSteady

/-!
What the handlers of a link may do to its ghosts and send for them, as a short
list of changes that every handler is made of.
-/

namespace SmsIrc.LinkEffects

open SmsIrc.Admin SmsIrc.Comm SmsIrc.ContactCommon SmsIrc.ControlCommands SmsIrc.Database
open SmsIrc.External SmsIrc.HashMaps SmsIrc.InspUsers SmsIrc.Link SmsIrc.LinkGhosts
open SmsIrc.LinkSteady SmsIrc.Models SmsIrc.Program SmsIrc.SenderCommon SmsIrc.SenderRuns
open SmsIrc.Text SmsIrc.Util

/-- The words of lines that neither introduce nor change a user. -/
def Plain (cmd : String) : Prop :=
  cmd ∉ ["UID", "NICK", "FHOST", "JOIN", "PART", "QUIT"]

instance (cmd : String) : Decidable (Plain cmd) := inferInstanceAs (Decidable (¬ _))

/-- The word of a line. -/
def wordOf (m : IrcMessage) : Str :=
  match m.command with
  | .raw cmd _ _ => cmd
  | _ => []

def argsOf (m : IrcMessage) : List Str :=
  match m.command with
  | .raw _ args _ => args
  | _ => []

theorem Plain.ne {cmd : String} (h : Plain cmd) (word : String)
    (hword : word ∈ ["UID", "NICK", "FHOST", "JOIN", "PART", "QUIT"]) :
    cmd.toList ≠ word.toList := by
  intro heq
  rw [String.toList_inj] at heq
  exact h (heq ▸ hword)

section Effects

variable [Crates]

/-- A number is that of one recipient, and what the database makes of its address. -/
structure Keyed (st : Store) : Prop where
  nodup : (st.recipients.rows.map Recipient.phoneNumber).Nodup
  normal : ∀ r ∈ st.recipients.rows, ∀ a, unNormalizeAddress r.phoneNumber = some a →
    r.phoneNumber = normalizeAddress a

theorem Keyed.eq_of_number {st : Store} (hk : Keyed st) {r q : Recipient}
    (hr : r ∈ st.recipients.rows) (hq : q ∈ st.recipients.rows)
    (hnum : r.phoneNumber = q.phoneNumber) : r = q :=
  List.inj_on_of_nodup_map hk.nodup hr hq hnum

theorem Keyed.find_row {st : Store} (hk : Keyed st) {a : PduAddress} {r : Recipient}
    (hr : r ∈ st.recipients.rows) (hnum : r.phoneNumber = normalizeAddress a) :
    st.recipients.rows.find? (fun q => q.phoneNumber = normalizeAddress a) = some r := by
  cases hfind : st.recipients.rows.find? fun q => q.phoneNumber = normalizeAddress a with
  | none =>
      have hno := List.find?_eq_none.mp hfind r hr
      exact absurd (decide_eq_true hnum) hno
  | some q =>
      have hq := List.find?_some hfind
      rw [decide_eq_true_eq] at hq
      rw [hk.eq_of_number (List.mem_of_find?_eq_some hfind) hr (hq.trans hnum.symm)]

/-- The recipient of an address that reads back. -/
structure RowOf (st : Store) (a : PduAddress) (r : Recipient) : Prop where
  stored : r ∈ st.recipients.rows
  number : r.phoneNumber = normalizeAddress a
  readsBack : ReadsBack a

/-- The lines of the server and of the ghosts that there are; those of the control user
where `control` holds, and those that are sent as they are where `raw` does. -/
inductive Line (control raw : Prop) (l : InspLink) : IrcMessage → Prop
  | server {cmd : String} {args : List Str} {suffix : Option Str} (hcmd : Plain cmd) :
      Line control raw l (.new (some l.cfg.sid) cmd.toList args suffix)
  | ghost {a : PduAddress} {ct : InspContact} {cmd : String} {args : List Str}
      {suffix : Option Str} (hct : l.contacts.lookup a = some ct) (hcmd : Plain cmd) :
      Line control raw l (.new (some ct.uuid) cmd.toList args suffix)
  | control {cmd : String} {args : List Str} {suffix : Option Str} (hc : control)
      (hcmd : Plain cmd ∨ cmd = "JOIN") :
      Line control raw l (.new (some l.controlUuid) cmd.toList args suffix)
  | raw {m : IrcMessage} (hr : raw) : Line control raw l m

/-- A step that does not change anything about the ghosts, or the lines sent. -/
structure Apart (s t : InspLink) : Prop where
  cfg : t.cfg = s.cfg
  controlUuid : t.controlUuid = s.controlUuid
  nextUserId : t.nextUserId = s.nextUserId
  remoteSid : t.remoteSid = s.remoteSid
  users : t.users = s.users
  contacts : t.contacts = s.contacts
  ghosts : t.contactsUuidPdua = s.contactsUuidPdua
  recipients : t.store.recipients = s.store.recipients
  groups : t.store.groups = s.store.groups
  dbDown : t.store.dbDown = s.store.dbDown
  outbox : t.outbox = s.outbox
  state : t.state = s.state
  now : t.now = s.now
  issued : t.issued = s.issued

/-- The database with another row for an address. -/
def rowChanged (st : Store) (a : PduAddress) (f : Recipient → Recipient)
    (hf : ∀ r, (f r).id = r.id) : Store :=
  { st with
    recipients := st.recipients.update
      (fun r => if r.phoneNumber = normalizeAddress a then f r else r) (updatedRow_id a f hf) }

def nickChanged (st : Store) (a : PduAddress) (nick : Str) (src : Int) : Store :=
  rowChanged st a (fun r => { r with nick := nick, nicksrc := src }) (renamedRow_id nick src)

def said (l : InspLink) (m : IrcMessage) : InspLink := { l with outbox := l.outbox ++ [m] }

/-- A ghost is introduced, with the next UUID. -/
def introduced (l : InspLink) (a : PduAddress) (nick : Str) (wa : Bool) : InspLink :=
  let uuid := uuidOf l.cfg.sid l.nextUserId
  let user := newFromRecipient l.now a nick (hostForWa l wa)
  { l with
    nextUserId := l.nextUserId + 1
    issued := l.issued ++ [uuid]
    users := l.users.insert uuid user
    outbox := l.outbox ++ [uidLine l.cfg.sid uuid user]
    contacts := l.contacts.insert a ⟨uuid, [], wa⟩
    contactsUuidPdua := l.contactsUuidPdua.insert uuid a }

/-- The channels of a ghost with some group channels. -/
def withLog (logChan : Str) (chans : List Str) : List Str :=
  if logChan ∈ chans then chans else chans ++ [logChan]

def joinLines (uuid : Str) (chans : List Str) : List IrcMessage :=
  chans.map fun ch => .new (some uuid) ("JOIN" : Str) [ch] none

def partLines (uuid : Str) (chans : List Str) : List IrcMessage :=
  chans.map fun ch => .new (some uuid) ("PART" : Str) [ch] (some ("Left group" : Str))

/-- A ghost joins its channels, and leaves the others. -/
def regrouped (l : InspLink) (a : PduAddress) (ct : InspContact) (chans : List Str) :
    InspLink :=
  { l with
    outbox := l.outbox ++ joinLines ct.uuid (withLog l.cfg.logChan chans) ++
      partLines ct.uuid (ct.channels.filter fun ch => ch ∉ withLog l.cfg.logChan chans)
    contacts := l.contacts.insert a { ct with channels := withLog l.cfg.logChan chans } }

/-- The record of a contact has another mode. -/
def marked (l : InspLink) (a : PduAddress) (ct : InspContact) (wa : Bool) : InspLink :=
  { l with contacts := l.contacts.insert a { ct with waMode := wa } }

/-- A ghost has another mode. -/
def moded (l : InspLink) (a : PduAddress) (ct : InspContact) (wa : Bool) : InspLink :=
  { l with
    contacts := l.contacts.insert a { ct with waMode := wa }
    store := rowChanged l.store a (fun r => { r with whatsapp := wa }) (modedRow_id wa)
    outbox := l.outbox ++ [.new (some ct.uuid) ("FHOST" : Str) [hostForWa l wa] none]
    users := match l.users.lookup ct.uuid with
      | some user =>
          l.users.insert ct.uuid { user with displayedHostname := hostForWa l wa }
      | none => l.users }

/-- The user of a ghost has another nick. -/
def renamed (l : InspLink) (ct : InspContact) (user : InspUser) (nick : Str) : InspLink :=
  { l with
    users := l.users.insert ct.uuid { user with nick := nick }
    outbox := l.outbox ++
      [.new (some ct.uuid) ("NICK" : Str) [nick, decimalInt (timestamp l.now)] none] }

def quitLine (uuid : Str) : IrcMessage :=
  .new (some uuid) ("QUIT" : Str) [] (some ("Contact removed" : Str))

/-- The ghost of an address quits, if there is one. -/
def quitted (l : InspLink) (a : PduAddress) : InspLink :=
  match l.contacts.lookup a with
  | some ct => withoutUser (said l (quitLine ct.uuid)) ct.uuid
  | none => l

/-- A contact is dropped, with its recipient. -/
def dropped (l : InspLink) (a : PduAddress) : InspLink :=
  withoutContact (quitted l a)
    { l.store with
      recipients := l.store.recipients.keep fun r => r.phoneNumber ≠ normalizeAddress a } a

/-- The changes that handlers are made of. Where the database fails in between, a
contact or a user has changed without its row. -/
inductive Effect (control raw : Prop) : InspLink → InspLink → Prop
  | apart {s t : InspLink} (h : Apart s t) : Effect control raw s t
  | said {s : InspLink} {m : IrcMessage} (h : Line control raw s m) :
      Effect control raw s (said s m)
  | collided {s : InspLink} {a : PduAddress} {nick : Str}
      (ha : s.contacts.lookup a = none) :
      Effect control raw s { s with store := nickChanged s.store a nick nicksrcCollision }
  | introduced {s : InspLink} {a : PduAddress} {nick : Str} {wa : Bool}
      (ha : s.contacts.lookup a = none) (hid : s.nextUserId ≤ 99999)
      (hfree : nickExists s nick = false)
      (hrow : Keyed s.store → ∃ r, RowOf s.store a r ∧ r.nick = nick ∧ r.whatsapp = wa) :
      Effect control raw s (introduced s a nick wa)
  | regrouped {s : InspLink} {a : PduAddress} {ct : InspContact} {r : Recipient}
      {grps : List Group} (hct : s.contacts.lookup a = some ct)
      (hr : s.store.recipients.rows.find? (fun r => r.phoneNumber = normalizeAddress a) = some r)
      (hgrps : grps.Perm (s.store.groups.rows.filter fun grp => grp.participants.contains r.id)) :
      Effect control raw s (regrouped s a ct (grps.map Group.channel))
  | moded {s : InspLink} {a : PduAddress} {ct : InspContact} {wa : Bool}
      (hct : s.contacts.lookup a = some ct) : Effect control raw s (moded s a ct wa)
  | marked {s : InspLink} {a : PduAddress} {ct : InspContact} {wa : Bool}
      (hct : s.contacts.lookup a = some ct) (hdown : ¬ Up s.store) :
      Effect control raw s (marked s a ct wa)
  | renamed {s : InspLink} {a : PduAddress} {ct : InspContact} {user : InspUser} {nick : Str}
      {src : Int} (hct : s.contacts.lookup a = some ct)
      (huser : s.users.lookup ct.uuid = some user) (hfree : nickExists s nick = false) :
      Effect control raw s
        { renamed s ct user nick with store := nickChanged s.store a nick src }
  | announced {s : InspLink} {a : PduAddress} {ct : InspContact} {user : InspUser}
      {nick : Str} (hct : s.contacts.lookup a = some ct)
      (huser : s.users.lookup ct.uuid = some user) (hfree : nickExists s nick = false)
      (hdown : ¬ Up s.store) : Effect control raw s (renamed s ct user nick)
  | dropped {s : InspLink} {a : PduAddress} : Effect control raw s (dropped s a)

/-- Any number of changes. -/
abbrev Effects (control raw : Prop) : InspLink → InspLink → Prop :=
  Relation.ReflTransGen (Effect control raw)

variable {c r : Prop}

theorem Effects.invariant {I : InspLink → Prop}
    (hstep : ∀ s t, I s → Effect c r s t → I t) {s t : InspLink} (h : Effects c r s t)
    (hs : I s) : I t := by
  induction h with
  | refl => exact hs
  | tail _ hlast ih => exact hstep _ _ ih hlast

theorem effects_of_apart {s t : InspLink} (h : Apart s t) : Effects c r s t :=
  .single (.apart h)

theorem effects_modify {f : InspLink → InspLink} (h : ∀ l, Apart l (f l)) :
    Moves (Effects c r) (modify f : LinkM PUnit) :=
  steps_modify fun l => effects_of_apart (h l)

theorem apart_store {l : InspLink} {st : Store}
    (hrec : st.recipients = l.store.recipients) (hgroups : st.groups = l.store.groups)
    (hdown : st.dbDown = l.store.dbDown) : Apart l { l with store := st } :=
  ⟨rfl, rfl, rfl, rfl, rfl, rfl, rfl, hrec, hgroups, hdown, rfl, rfl, rfl, rfl⟩

theorem apart_tick (l : InspLink) : Apart l { l with store := l.store.tick } :=
  apart_store rfl rfl rfl

theorem effects_query {α : Type} (f : Store → α) :
    Moves (Effects c r) (store (query f) : LinkM α) := by
  intro l
  rw [wp_store]
  exact wp_query_of ⟨effects_of_apart (apart_tick l), trivial⟩ (effects_of_apart (apart_tick l))

theorem wp_said {cmd : String} {u : Str} {args : List Str} {suffix : Option Str}
    {l : InspLink} {E : Failure → InspLink → Prop}
    (h : Line c r l (.new (some u) cmd.toList args suffix)) :
    wp (push u cmd args suffix) (fun _ t => Effects c r l t) E l := .single (.said h)

theorem effects_sendSidLine {cmd : String} (hcmd : Plain cmd) (args : List Str)
    (suffix : Option Str) : Moves (Effects c r) (sendSidLine cmd args suffix) :=
  steps_get_bind fun _ => wp_said (.server hcmd)

theorem effects_waSend (cmd : Comm.WhatsappCommand) : Moves (Effects c r) (waSend cmd) :=
  effects_modify fun _ => ⟨rfl, rfl, rfl, rfl, rfl, rfl, rfl, rfl, rfl, rfl, rfl, rfl, rfl, rfl⟩

theorem effects_mSend (cmd : Comm.ModemCommand) : Moves (Effects c r) (mSend cmd) :=
  effects_modify fun _ => ⟨rfl, rfl, rfl, rfl, rfl, rfl, rfl, rfl, rfl, rfl, rfl, rfl, rfl, rfl⟩

theorem effects_cfSend (cmd : ContactFactoryCommand) : Moves (Effects c r) (cfSend cmd) :=
  effects_modify fun _ => ⟨rfl, rfl, rfl, rfl, rfl, rfl, rfl, rfl, rfl, rfl, rfl, rfl, rfl, rfl⟩

theorem effects_cbSend (cmd : ControlBotCommand) : Moves (Effects c r) (cbSend cmd) :=
  effects_modify fun _ => ⟨rfl, rfl, rfl, rfl, rfl, rfl, rfl, rfl, rfl, rfl, rfl, rfl, rfl, rfl⟩

theorem effects_controlResponse (hc : c) (msg : Str) :
    Moves (Effects c r) (controlResponse msg) := by
  refine steps_get_bind fun l => ?_
  cases adminUuid l with
  | some admu => exact wp_said (.control hc (.inl (by decide)))
  | none => exact Relation.ReflTransGen.refl

/-- More lines have been sent. -/
def sent (l : InspLink) (ms : List IrcMessage) : InspLink := { l with outbox := l.outbox ++ ms }

theorem sent_nil (l : InspLink) : sent l [] = l := by rw [sent, List.append_nil]

theorem sent_append (l : InspLink) (ms ns : List IrcMessage) :
    sent (sent l ms) ns = sent l (ms ++ ns) := by
  simp only [sent, List.append_assoc]

theorem wp_joins (u : Str) (grps : List Group) (l : InspLink)
    {E : Failure → InspLink → Prop} :
    wp (forM grps fun grp => do
        push u "JOIN" [grp.channel] none
        joinChannel grp.channel)
      (fun _ t => ∃ chs, t = sent { l with channels := chs } (joinLines u (grps.map Group.channel)))
      E l := by
  induction grps generalizing l with
  | nil => exact ⟨l.channels, (sent_nil _).symm⟩
  | cons grp grps ih =>
      rw [List.forM_cons, wp_bind, wp_bind, push, wp_modify, joinChannel, wp_modify]
      refine wp_mono (ih _) ?_ fun _ _ he => he
      rintro _ _ ⟨chs, rfl⟩
      exact ⟨chs, sent_append { l with channels := chs } [_] _⟩

theorem wp_parts (u : Str) (chans joined : List Str) (l : InspLink)
    {E : Failure → InspLink → Prop} :
    wp (forM chans fun ch => when (ch ∉ joined) (push u "PART" [ch] (some ("Left group" : Str))))
      (fun _ t => t = sent l (partLines u (chans.filter fun ch => ch ∉ joined))) E l := by
  induction chans generalizing l with
  | nil => exact (sent_nil l).symm
  | cons ch chans ih =>
      rw [List.forM_cons, wp_bind, wp_when]
      split
      · rename_i hch
        rw [push, wp_modify, List.filter_cons_of_pos (by simpa using hch)]
        refine wp_mono (ih _) ?_ fun _ _ he => he
        rintro _ _ rfl
        exact sent_append l [_] _
      · rename_i hch
        rw [List.filter_cons_of_neg (by simpa using hch)]
        exact ih l

omit [Crates] in
theorem joinLines_withLog (u logChan : Str) (chans : List Str) :
    joinLines u (withLog logChan chans) =
      joinLines u chans ++ if logChan ∈ chans then [] else joinLines u [logChan] := by
  unfold withLog
  split
  · rw [List.append_nil]
  · rw [joinLines, List.map_append]
    rfl

theorem wp_joinLog (u logChan : Str) (chans : List Str) (l : InspLink)
    {E : Failure → InspLink → Prop} :
    wp (when (logChan ∉ chans) (push u "JOIN" [logChan] none))
      (fun _ t => t = sent l (if logChan ∈ chans then [] else joinLines u [logChan])) E l := by
  rw [wp_when]
  by_cases hch : logChan ∈ chans
  · rw [if_neg (not_not.mpr hch), if_pos hch, sent_nil]
  · rw [if_pos hch, if_neg hch]
    rfl

theorem wp_processGroupsForRecipient (a : PduAddress) (l : InspLink) :
    wp (processGroupsForRecipient a)
      (fun _ t => Effects c r l t ∧ t.store.recipients = l.store.recipients)
      (fun _ t => Effects c r l t) l := by
  rw [processGroupsForRecipient, wp_bind, wp_get]
  cases hct : l.contacts.lookup a with
  | none => exact .refl
  | some ct =>
      have htick : Effects c r l { l with store := l.store.tick } :=
        effects_of_apart (apart_tick l)
      dsimp only
      rw [wp_bind, wp_unwrap_some, wp_bind, wp_store, getGroupsForRecipient, wp_bind]
      apply wp_query_of htick
      cases hrow : l.store.tick.recipients.rows.find? fun r =>
          r.phoneNumber = normalizeAddress a with
      | none => exact htick
      | some row =>
          refine wp_query_of (htick.tail (.apart (apart_store rfl rfl rfl))) ?_
          rw [wp_bind]
          refine wp_mono (wp_joins _ _ _) ?_ fun _ _ he => he
          rintro _ _ ⟨chs, rfl⟩
          rw [wp_bind]
          refine wp_mono (wp_joinLog _ _ _ _) ?_ fun _ _ he => he
          rintro _ _ rfl
          rw [wp_bind]
          refine wp_mono (wp_parts _ _ _ _) ?_ fun _ _ he => he
          rintro _ _ rfl
          have hset : Effects c r l { l with store := l.store.tick.tick, channels := chs } :=
            effects_of_apart
              ⟨rfl, rfl, rfl, rfl, rfl, rfl, rfl, rfl, rfl, rfl, rfl, rfl, rfl, rfl⟩
          have hall := hset.tail (.regrouped hct hrow (Crates.scanOrder.perm _))
          unfold regrouped at hall
          rw [joinLines_withLog, ← List.append_assoc] at hall
          exact ⟨hall, rfl⟩

theorem effects_processGroupsForRecipient (a : PduAddress) :
    Moves (Effects c r) (processGroupsForRecipient a) := fun l =>
  wp_mono (wp_processGroupsForRecipient a l) (fun _ _ h => h.1) fun _ _ h => ⟨h, trivial⟩

/-- The rows of other addresses stay, and so do all numbers. -/
structure Touched (a : PduAddress) (st st' : Store) : Prop where
  numbers : st'.recipients.rows.map Recipient.phoneNumber =
    st.recipients.rows.map Recipient.phoneNumber
  others : ∀ r ∈ st.recipients.rows, r.phoneNumber ≠ normalizeAddress a →
    r ∈ st'.recipients.rows

theorem touched_of_eq {a : PduAddress} {st st' : Store} (h : st'.recipients = st.recipients) :
    Touched a st st' := by
  refine ⟨by rw [h], fun r hr _ => ?_⟩
  rwa [h]

theorem touched_trans {a : PduAddress} {s t u : Store} (hst : Touched a s t)
    (htu : Touched a t u) : Touched a s u :=
  ⟨htu.numbers.trans hst.numbers, fun r hr hne => htu.others r (hst.others r hr hne) hne⟩

theorem touched_rowChanged (st : Store) (a : PduAddress) (f : Recipient → Recipient)
    (hf : ∀ r, (f r).id = r.id) (hnum : ∀ r, (f r).phoneNumber = r.phoneNumber) :
    Touched a st (rowChanged st a f hf) := by
  constructor
  · change (st.recipients.rows.map _).map _ = _
    rw [List.map_map]
    refine List.map_congr_left fun r _ => ?_
    rw [Function.comp_apply]
    split
    · exact hnum r
    · rfl
  · intro r hr hne
    refine List.mem_map.mpr ⟨r, hr, ?_⟩
    rw [if_neg hne]

theorem keyed_of_numbers {st st' : Store} (h : Keyed st)
    (hnum : st'.recipients.rows.map Recipient.phoneNumber =
      st.recipients.rows.map Recipient.phoneNumber) : Keyed st' := by
  refine ⟨by rw [hnum]; exact h.nodup, fun r hr a ha => ?_⟩
  have hmem : r.phoneNumber ∈ st.recipients.rows.map Recipient.phoneNumber := by
    rw [← hnum]
    exact List.mem_map_of_mem hr
  obtain ⟨q, hq, heq⟩ := List.mem_map.mp hmem
  rw [← heq]
  exact h.normal q hq a (heq ▸ ha)

theorem Touched.keyed_iff {a : PduAddress} {st st' : Store} (h : Touched a st st') :
    Keyed st' ↔ Keyed st :=
  ⟨fun hk => keyed_of_numbers hk h.numbers.symm, fun hk => keyed_of_numbers hk h.numbers⟩

theorem RowOf.changed {st : Store} {a : PduAddress} {row : Recipient} (h : RowOf st a row)
    {f : Recipient → Recipient} (hf : ∀ r, (f r).id = r.id)
    (hnum : ∀ r, (f r).phoneNumber = r.phoneNumber) : RowOf (rowChanged st a f hf) a (f row) := by
  refine ⟨List.mem_map.mpr ⟨row, h.stored, ?_⟩, (hnum row).trans h.number, h.readsBack⟩
  rw [if_pos h.number]

theorem nickExists_of_checkNick {l : InspLink} {nick n : Str}
    (h : checkNickForCollisions l nick = some n) : nickExists l n = false := by
  unfold checkNickForCollisions at h
  split at h
  · cases h
    exact nickExists_freeNick l nick
  · cases h

theorem nickExists_of_checkNick_none {l : InspLink} {nick : Str}
    (h : checkNickForCollisions l nick = none) : nickExists l nick = false := by
  unfold checkNickForCollisions at h
  split at h
  · cases h
  · rename_i hnick
    exact Bool.eq_false_iff.mpr hnick

theorem wp_nickFor_effects {l : InspLink} {recip : Recipient} {a : PduAddress}
    (ha : l.contacts.lookup a = none) (hrow : Keyed l.store → RowOf l.store a recip) :
    wp (nickFor recip a)
      (fun nick t => Effects c r l t ∧ Touched a l.store t.store ∧ t.contacts = l.contacts ∧
        nickExists t nick = false ∧ (Keyed t.store → ∃ row, RowOf t.store a row ∧
          row.nick = nick ∧ row.whatsapp = recip.whatsapp))
      (fun _ t => Effects c r l t) l := by
  rw [nickFor, wp_bind, wp_get]
  cases hc : checkNickForCollisions l recip.nick with
  | none =>
      exact ⟨.refl, touched_of_eq rfl, rfl, nickExists_of_checkNick_none hc,
        fun hk => ⟨recip, hrow hk, rfl, rfl⟩⟩
  | some n =>
      have htick : Effects c r l { l with store := l.store.tick } :=
        effects_of_apart (apart_tick l)
      have hticked : Touched a l.store l.store.tick := touched_of_eq rfl
      dsimp only
      rw [wp_bind, wp_store]
      apply wp_execute_of htick
      have hnick : Touched a l.store (nickChanged l.store.tick a n nicksrcCollision) :=
        touched_trans hticked (touched_rowChanged _ _ _ _ fun _ => rfl)
      refine ⟨htick.tail (.collided ha), hnick, rfl, nickExists_of_checkNick hc, fun hk => ?_⟩
      have hold := hrow (hnick.keyed_iff.mp hk)
      have htickRow : RowOf l.store.tick a recip := ⟨hold.stored, hold.number, hold.readsBack⟩
      have hchanged : RowOf (nickChanged l.store.tick a n nicksrcCollision) a
          { recip with nick := n, nicksrc := nicksrcCollision } :=
        htickRow.changed (f := fun r => { r with nick := n, nicksrc := nicksrcCollision })
          (fun _ => rfl) fun _ => rfl
      exact ⟨_, hchanged, rfl, rfl⟩

theorem wp_setupContactFor_effects {l : InspLink} {recip : Recipient} {a : PduAddress}
    (ha : l.contacts.lookup a = none) (hrow : Keyed l.store → RowOf l.store a recip) :
    wp (setupContactFor recip a)
      (fun _ t => Effects c r l t ∧ Touched a l.store t.store)
      (fun _ t => Effects c r l t) l := by
  rw [setupContactFor, wp_bind]
  refine wp_mono (wp_nickFor_effects ha hrow) ?_ fun _ _ he => he
  rintro nick t ⟨ht, htouched, hcontacts, hfree, hnick⟩
  rw [wp_bind, wp_get, wp_bind, newUser, wp_bind, getUuid, wp_bind, wp_get]
  split
  · exact ht
  · rename_i hid
    rw [wp_bind, wp_set, wp_pure, wp_bind, insertUser, wp_modify, wp_bind, makeUidLine, wp_bind,
      wp_get]
    dsimp only
    rw [AList.lookup_insert]
    dsimp only
    rw [wp_pure, wp_bind, send, wp_modify, wp_pure, wp_bind, addContact, wp_modify, wp_when]
    have hnew : Effects c r l (introduced t a nick recip.whatsapp) :=
      ht.tail (.introduced (by rw [hcontacts]; exact ha) (Nat.not_lt.mp hid) hfree hnick)
    split
    · refine wp_mono (wp_processGroupsForRecipient a _) ?_ fun _ u hu => hnew.trans hu
      rintro _ u ⟨hu, hrec⟩
      exact ⟨hnew.trans hu, touched_trans htouched (touched_of_eq hrec)⟩
    · exact ⟨hnew, htouched⟩

theorem wp_setupRecipient_effects {l : InspLink} {recip : Recipient}
    (hrow : Keyed l.store → recip ∈ l.store.recipients.rows) :
    wp (setupRecipient recip)
      (fun _ t => Effects c r l t ∧ ∃ a, unNormalizeAddress recip.phoneNumber = some a ∧
        Touched a l.store t.store)
      (fun _ t => Effects c r l t) l := by
  rw [setupRecipient, wp_bind, Recipient.getAddr, Models.getAddr]
  cases hnum : unNormalizeAddress recip.phoneNumber with
  | none => exact .refl
  | some a =>
      rw [wp_pure, wp_bind]
      change wp (hasContact a) _ _ _
      rw [hasContact, wp_bind, wp_get, wp_pure, wp_when]
      cases ha : l.contacts.lookup a with
      | some ct => exact ⟨.refl, a, rfl, touched_of_eq rfl⟩
      | none =>
          refine wp_mono (wp_setupContactFor_effects ha fun hk => ?_)
            (fun _ _ h => ⟨h.1, a, rfl, h.2⟩) fun _ _ h => h
          have hnormal := hk.normal recip (hrow hk) a hnum
          refine ⟨hrow hk, hnormal, ?_⟩
          rw [ReadsBack, ← hnormal]
          exact hnum

theorem effects_foundRecipient (a : PduAddress) {α : Type} {f : Recipient → LinkM α}
    {g : LinkM α} (hf : ∀ recip l, (Keyed l.store → recip ∈ l.store.recipients.rows) →
      wp (f recip) (fun _ t => Effects c r l t) (fun _ t => Effects c r l t ∧ True) l)
    (hg : Moves (Effects c r) g) :
    Moves (Effects c r) (do
      match ← store (getRecipientByAddrOpt a) with
      | some recip => f recip
      | none => g) := by
  intro l
  have htick : Effects c r l { l with store := l.store.tick } :=
    effects_of_apart (apart_tick l)
  rw [wp_bind, wp_store]
  apply wp_query_of ⟨htick, trivial⟩
  cases hfind : l.store.tick.recipients.rows.find? fun r =>
      r.phoneNumber = normalizeAddress a with
  | some recip =>
      refine wp_mono (hf recip _ fun _ => List.mem_of_find?_eq_some hfind)
        (fun _ _ h => htick.trans h) fun _ _ h => ⟨htick.trans h.1, trivial⟩
  | none => exact hg.after htick

theorem effects_setupRow {recip : Recipient} {l : InspLink}
    (hrow : Keyed l.store → recip ∈ l.store.recipients.rows) :
    wp (setupRecipient recip) (fun _ t => Effects c r l t)
      (fun _ t => Effects c r l t ∧ True) l :=
  wp_mono (wp_setupRecipient_effects hrow) (fun _ _ h => h.1) fun _ _ h => ⟨h, trivial⟩

theorem effects_setupContact (a : PduAddress) :
    Moves (Effects c r) (setupContact a : LinkM Unit) :=
  effects_foundRecipient a (fun _ _ hrow => effects_setupRow hrow) (steps_pure _)

theorem effects_requestContact (a : PduAddress) (src : Nat) :
    Moves (Effects c r) (requestContact a src : LinkM Bool) := by
  refine effects_foundRecipient a (fun recip l hrow => ?_) (Steps.bind ?_ fun _ => steps_pure _)
  · rw [wp_bind]
    exact effects_setupRow hrow
  · unfold requestCreation
    split
    · exact effects_mSend _
    · split
      · exact effects_waSend _
      · exact steps_pure _

theorem effects_queryContact (a : PduAddress) (src : Nat) :
    Moves (Effects c r) (queryContact a src : LinkM Unit) := by
  refine effects_foundRecipient a (fun recip l hrow => ?_) ?_
  · have hsend : ∀ resp, Effects c r l { l with cbTx := l.cbTx ++ [resp] } :=
      fun resp => (effects_cbSend resp).exec l
    rw [wp_bind]
    change wp (cbSend _) _ _ l
    rw [cbSend, wp_modify]
    exact wp_mono (effects_setupRow hrow) (fun _ _ h => (hsend _).trans h)
      fun _ _ h => ⟨(hsend _).trans h.1, trivial⟩
  · refine Steps.bind (effects_cbSend _) fun _ => ?_
    exact Steps.bind (effects_requestContact a src) fun _ => steps_pure _

/-- All recipients are set up, in whatever order they are read. -/
theorem effects_doQuasiburst : Moves (Effects c r) doQuasiburst := by
  intro l
  have htick : Effects c r l { l with store := l.store.tick } :=
    effects_of_apart (apart_tick l)
  rw [doQuasiburst, wp_bind, wp_store]
  apply wp_query_of ⟨htick, trivial⟩
  have hnodup : (Crates.scanOrder.run l.store.recipients.rows).Nodup :=
    (Crates.scanOrder.perm _).nodup_iff.mpr l.store.recipients.rows_nodup
  have hloop : wp (forM (Crates.scanOrder.run l.store.recipients.rows)
        (setupRecipient : Recipient → LinkM Unit))
      (fun _ t => Effects c r l t ∧
        t.store.recipients.rows.map Recipient.phoneNumber =
          l.store.recipients.rows.map Recipient.phoneNumber ∧
        (Keyed l.store → ∀ row ∈ l.store.recipients.rows,
          row ∉ Crates.scanOrder.run l.store.recipients.rows →
            row ∈ t.store.recipients.rows))
      (fun _ t => Effects c r l t ∧ True) { l with store := l.store.tick } := by
    refine wp_forM_prefix (fun done t => Effects c r l t ∧
      t.store.recipients.rows.map Recipient.phoneNumber =
        l.store.recipients.rows.map Recipient.phoneNumber ∧
      (Keyed l.store → ∀ row ∈ l.store.recipients.rows, row ∉ done →
        row ∈ t.store.recipients.rows)) ?_ ⟨htick, rfl, fun _ _ h _ => h⟩
    rintro done recip rest hsplit t ⟨ht, hnum, hleft⟩
    have hmem : recip ∈ l.store.recipients.rows := by
      rw [← Crates.scanOrder.mem_run, hsplit]
      simp
    have hnew : recip ∉ done := by
      rw [hsplit, List.nodup_append] at hnodup
      exact fun h => hnodup.2.2 recip h recip (by simp) rfl
    have hkeyed : Keyed t.store ↔ Keyed l.store :=
      ⟨fun hk => keyed_of_numbers hk hnum.symm, fun hk => keyed_of_numbers hk hnum⟩
    refine wp_mono (wp_setupRecipient_effects fun hk => hleft (hkeyed.mp hk) recip hmem hnew) ?_
      fun _ u hu => ⟨ht.trans hu, trivial⟩
    rintro _ u ⟨hu, a, ha, htouched⟩
    refine ⟨ht.trans hu, htouched.numbers.trans hnum, fun hk row hrow hnot => ?_⟩
    rw [List.mem_append, List.mem_singleton, not_or] at hnot
    refine htouched.others row (hleft hk row hrow hnot.1) fun heq => hnot.2 ?_
    rw [← hk.normal recip hmem a ha] at heq
    exact hk.eq_of_number hrow hmem heq
  exact wp_mono hloop (fun _ _ h => h.1) fun _ _ h => h

/-- There is a ghost with a UUID. -/
def Speaks (l : InspLink) (u : Str) : Prop :=
  ∃ a ct, l.contacts.lookup a = some ct ∧ ct.uuid = u

theorem speaks_insert {l : InspLink} {a : PduAddress} {ct ct' : InspContact} {u : Str}
    (hct : l.contacts.lookup a = some ct) (huuid : ct'.uuid = ct.uuid) (h : Speaks l u) :
    ∃ b ct'', (l.contacts.insert a ct').lookup b = some ct'' ∧ ct''.uuid = u := by
  obtain ⟨b, ctb, hb, rfl⟩ := h
  by_cases hba : b = a
  · subst hba
    rw [hct] at hb
    cases hb
    exact ⟨b, ct', AList.lookup_insert _, huuid⟩
  · exact ⟨b, ctb, by rw [lookup_insert, if_neg hba, hb], rfl⟩

theorem wp_setWaState_effects {l : InspLink} {a : PduAddress} {ct : InspContact}
    (hct : l.contacts.lookup a = some ct) (wa : Bool) :
    wp (setWaState a wa) (fun _ t => t = moded { l with store := l.store.tick } a ct wa)
      (fun _ t => ¬ Up l.store ∧ t = marked { l with store := l.store.tick } a ct wa) l := by
  rw [setWaState, wp_bind, wp_get]
  dsimp only
  rw [hct, wp_bind, wp_unwrap_some, wp_bind, wp_modify, wp_bind, wp_store, updateRecipientWa,
    updateRecipient, wp_execute]
  split
  · rename_i hdown
    refine ⟨fun hup => ?_, rfl⟩
    rw [hup] at hdown
    cases hdown
  · dsimp only
    rw [wp_bind, push, wp_modify, wp_modify]
    unfold moded
    dsimp only
    cases l.users.lookup ct.uuid <;> rfl

theorem effects_setWaState (a : PduAddress) (wa : Bool) :
    Moves (fun s t => Effects c r s t ∧ ∀ u, Speaks s u → Speaks t u) (setWaState a wa) := by
  intro l
  cases hct : l.contacts.lookup a with
  | none =>
      rw [setWaState, wp_bind, wp_get]
      dsimp only
      rw [hct]
      exact ⟨⟨.refl, fun _ h => h⟩, trivial⟩
  | some ct =>
      have htick : Effects c r l { l with store := l.store.tick } :=
        effects_of_apart (apart_tick l)
      refine wp_mono (wp_setWaState_effects hct wa) ?_ ?_
      · rintro _ _ rfl
        exact ⟨htick.tail (.moded hct), fun u hu => speaks_insert hct rfl hu⟩
      · rintro _ _ ⟨hdown, rfl⟩
        exact ⟨⟨htick.tail (.marked hct hdown), fun u hu => speaks_insert hct rfl hu⟩, trivial⟩

theorem effects_changeNick {l : InspLink} {a : PduAddress} {ct : InspContact}
    (hct : l.contacts.lookup a = some ct) (st : Str) (osrc : Int) :
    wp (changeNick a ct st osrc) (fun _ t => Effects c r l t)
      (fun _ t => Effects c r l t ∧ True) l := by
  rw [changeNick, wp_bind, wp_get]
  dsimp only
  cases huser : l.users.lookup ct.uuid with
  | none => exact ⟨.refl, trivial⟩
  | some user =>
      rw [wp_bind, wp_unwrap_some]
      split
      · exact .refl
      · have htick : Effects c r l { l with store := l.store.tick } :=
          effects_of_apart (apart_tick l)
        have hrename : ∀ nick src, nickExists l nick = false →
            wp (do
              insertUser ct.uuid { user with nick := nick }
              push ct.uuid "NICK" [nick, decimalInt (timestamp l.now)] none
              store (updateRecipientNick a nick src))
            (fun _ t => Effects c r l t) (fun _ t => Effects c r l t ∧ True) l := by
          intro nick src hfree
          rw [wp_bind, insertUser, wp_modify, wp_bind, push, wp_modify, wp_store,
            updateRecipientNick, updateRecipient, wp_execute]
          split
          · rename_i hdown
            refine ⟨htick.tail (.announced hct huser hfree fun hup => ?_), trivial⟩
            have hnot := hup l.store.queries
            rw [Store.tick_dbDown] at hnot
            rw [hnot] at hdown
            cases hdown
          · exact htick.tail (.renamed hct huser hfree)
        cases hc : checkNickForCollisions l st with
        | some n => exact hrename n _ (nickExists_of_checkNick hc)
        | none => exact hrename st _ (nickExists_of_checkNick_none hc)

theorem effects_forwardCmd (a : PduAddress) (cmd : ContactManagerCommand) :
    Moves (Effects c r) (forwardCmd a cmd) := by
  refine steps_get_bind fun l => ?_
  cases hct : l.contacts.lookup a with
  | none => exact .refl
  | some ct =>
      rw [Option.isSome_some, if_pos rfl]
      cases cmd with
      | processMessages => exact .refl
      | processGroups => exact .refl
      | updateAway text =>
          rw [wp_bind, wp_unwrap_some]
          exact wp_said (.ghost hct (by decide))
      | changeNick st osrc =>
          rw [wp_bind, wp_unwrap_some]
          exact effects_changeNick hct st osrc
      | setWhatsapp wam =>
          have htick : Effects c r l { l with store := l.store.tick } :=
            effects_of_apart (apart_tick l)
          rw [wp_bind, wp_unwrap_some, wp_bind, wp_modify]
          refine wp_mono (wp_setWaState_effects (AList.lookup_insert _) wam) ?_ ?_
          · rintro _ _ rfl
            have hmoded : Effects c r l (moded { l with store := l.store.tick } a ct wam) :=
              htick.tail (.moded hct)
            unfold moded at hmoded ⊢
            rw [AList.insert_insert]
            exact hmoded
          · rintro _ _ ⟨hdown, rfl⟩
            have hmarked : Effects c r l (marked { l with store := l.store.tick } a ct wam) :=
              htick.tail (.marked hct hdown)
            unfold marked at hmarked ⊢
            rw [AList.insert_insert]
            exact ⟨hmarked, trivial⟩

theorem wp_removeContactFor_effects {l : InspLink} {st : Store} (a : PduAddress)
    {E : Failure → InspLink → Prop} :
    wp (removeContactFor a) (fun _ t => t = withoutContact (quitted l a) st a) E
      { l with store := st } := by
  rw [removeContactFor, wp_bind, wp_get, wp_bind]
  unfold quitted
  cases hct : l.contacts.lookup a with
  | none =>
      dsimp only
      rw [quitGhost, wp_pure, wp_modify]
      rfl
  | some ct =>
      dsimp only
      rw [quitGhost, wp_bind, push, wp_modify, removeUser, wp_bind, wp_get]
      dsimp only
      rw [wp_bind, wp_set]
      cases hu : l.contactsUuidPdua.lookup ct.uuid with
      | none =>
          rw [wp_pure, wp_modify]
          simp only [withoutContact, withoutUser, said, quitLine, hu]
      | some b =>
          rw [wp_when, if_neg (by simp), wp_modify]
          simp only [withoutContact, withoutUser, said, quitLine, hu]

theorem wp_dropContact_dropped (l : InspLink) (a : PduAddress) :
    wp (dropContact a) (fun _ t => t = dropped { l with store := l.store.tick } a)
      (fun _ t => t = { l with store := l.store.tick }) l := by
  rw [dropContact, wp_bind, wp_store, deleteRecipientWithAddr, wp_bind]
  apply wp_query_of rfl
  split
  · rw [wp_modify]
    exact wp_removeContactFor_effects (l := { l with store := l.store.tick }) a
  · exact rfl

theorem effects_dropContact (a : PduAddress) :
    Moves (Effects c r) (dropContact a : LinkM Unit) := by
  intro l
  have htick : Effects c r l { l with store := l.store.tick } :=
    effects_of_apart (apart_tick l)
  refine wp_mono (wp_dropContact_dropped l a) ?_ ?_
  · rintro _ _ rfl
    exact htick.tail .dropped
  · rintro _ _ rfl
    exact ⟨htick, trivial⟩

theorem effects_byNick (nick : Str) {f : PduAddress → LinkM Unit}
    (hf : ∀ a, Moves (Effects c r) (f a)) : Moves (Effects c r) (do
      match ← resolveNick nick with
      | some a => f a
      | none => pure ()) := by
  refine Steps.bind (Steps.bind steps_get fun _ => steps_pure _) fun a => ?_
  cases a with
  | some a => exact hf a
  | none => exact steps_pure _

/-- What is done while there is a ghost with a UUID, which it does not remove. -/
def Voiced (c r : Prop) (u : Str) (s t : InspLink) : Prop :=
  Speaks s u → Effects c r s t ∧ Speaks t u

instance (u : Str) : IsPreorder InspLink (Voiced c r u) where
  refl _ := fun h => ⟨.refl, h⟩
  trans _ _ _ hst htu := fun h => by
    obtain ⟨hst', ht⟩ := hst h
    obtain ⟨htu', hu⟩ := htu ht
    exact ⟨hst'.trans htu', hu⟩

theorem voiced_of_effects {u : Str} {s t : InspLink} (h : Effects c r s t)
    (hcontacts : t.contacts = s.contacts) : Voiced c r u s t := by
  rintro ⟨a, ct, hct, huuid⟩
  exact ⟨h, a, ct, by rwa [hcontacts], huuid⟩

/-- A use of the database that the ghosts do not depend on. -/
structure Kept (st st' : Store) : Prop where
  recipients : st'.recipients = st.recipients
  groups : st'.groups = st.groups
  dbDown : st'.dbDown = st.dbDown

instance : IsPreorder Store Kept where
  refl _ := ⟨rfl, rfl, rfl⟩
  trans _ _ _ hst htu := ⟨htu.recipients.trans hst.recipients, htu.groups.trans hst.groups,
    htu.dbDown.trans hst.dbDown⟩

theorem kept_tick (st : Store) : Kept st st.tick := ⟨rfl, rfl, rfl⟩

theorem voiced_store {α : Type} {u : Str} {p : StoreM α} (h : Moves Kept p) :
    Moves (Voiced c r u) (store p : LinkM α) :=
  h.zoom fun _ _ hst => voiced_of_effects
    (effects_of_apart (apart_store hst.recipients hst.groups hst.dbDown)) rfl

theorem voiced_contactMessage {kind : String} (hkind : Plain kind) (u target message : Str) :
    Moves (Voiced c r u) (contactMessage u kind target message) := by
  refine steps_get_bind fun l => ?_
  split
  · exact ⟨fun h => ⟨.refl, h⟩, trivial⟩
  · split
    · exact ⟨fun h => ⟨.refl, h⟩, trivial⟩
    · rintro ⟨a, ct, hct, rfl⟩
      exact ⟨.single (.said (.ghost hct hkind)), a, ct, hct, rfl⟩

theorem senderSteps_voiced (u : Str) :
    SenderStepsAs InspLink (Voiced c r u) (fun _ => True) u where
  record _ := steps_modify fun _ => voiced_of_effects (effects_of_apart
    ⟨rfl, rfl, rfl, rfl, rfl, rfl, rfl, rfl, rfl, rfl, rfl, rfl, rfl, rfl⟩) rfl
  getGroupById g := by
    refine voiced_store (Steps.bind (moves_query kept_tick _) fun grp => ?_)
    cases grp with
    | some grp => exact steps_pure grp
    | none => exact steps_throw trivial
  privateTarget := Steps.bind steps_get fun _ => steps_pure _
  sendIrcMessage _ _ := voiced_contactMessage (by decide) _ _ _
  ensureJoined ch := by
    refine steps_get_bind fun l => ?_
    split
    · cases adminUuid l with
      | some admu => exact voiced_of_effects (.single (.said (.server (by decide)))) rfl
      | none => exact fun h => ⟨.refl, h⟩
    · exact fun h => ⟨.refl, h⟩
  getAllConcatenated _ _ := voiced_store (moves_query kept_tick _)
  deleteMessage _ :=
    voiced_store (moves_checked kept_tick fun _ => ⟨rfl, rfl, rfl⟩)
  reportError _ := Steps.bind steps_get fun _ => voiced_contactMessage (by decide) _ _ _
  utcNow := Steps.bind steps_get fun _ => steps_pure _
  error _ := trivial
  messageText := trivial
  concatenatedPdu := trivial
  concatenatedHeader := trivial

theorem voiced_switchMode {u : Str} (a : PduAddress) (auid : Str) {ct : InspContact}
    (hct : ct.uuid = u) (wa : Bool) : Moves (Voiced c r u) (switchMode a auid ct wa) := by
  refine Steps.when (Steps.bind ?_ fun _ => ?_)
  · exact (effects_setWaState a wa).mono fun _ _ h hu => ⟨h.1, h.2 u hu⟩
  · rw [hct]
    exact voiced_contactMessage (by decide) _ _ _

theorem effects_contactReady (a : PduAddress) (src : Nat) :
    Moves (Effects c r) (contactReady a src) := by
  refine Steps.bind (Steps.bind steps_get fun _ => steps_pure _) fun present => ?_
  split
  · exact steps_pure _
  · exact effects_requestContact a src

theorem effects_processMessage (auid : Str) (msg : Message) :
    Moves (Effects c r) (processMessage auid msg) := by
  refine Steps.bind ?_ fun a => Steps.bind (effects_contactReady a msg.source) fun ready => ?_
  · exact steps_getAddr (fun _ => trivial) _
  · refine Steps.when (steps_get_bind fun l => ?_)
    cases hct : l.contacts.lookup a with
    | none => exact ⟨.refl, trivial⟩
    | some ct =>
        have hvoice : ∀ {p : LinkM Unit}, Moves (Voiced c r ct.uuid) p →
            wp p (fun _ t => Effects c r l t) (fun _ t => Effects c r l t ∧ True) l :=
          fun h => wp_mono (h l) (fun _ _ ht => (ht ⟨a, ct, hct, rfl⟩).1)
            fun _ _ ht => ⟨(ht.1 ⟨a, ct, hct, rfl⟩).1, trivial⟩
        rw [wp_bind, wp_unwrap_some]
        apply hvoice
        cases msg.pdu with
        | some raw =>
            dsimp only
            cases Crates.deliverPduTryFrom raw with
            | error e => exact steps_throw trivial
            | ok pdu =>
                exact Steps.bind (voiced_switchMode a auid rfl false) fun _ =>
                  (senderSteps_voiced ct.uuid).processMsgPdu msg pdu
        | none =>
            exact Steps.bind (voiced_switchMode a auid rfl true) fun _ =>
              (senderSteps_voiced ct.uuid).processMsgPlain msg

theorem effects_processMessages : Moves (Effects c r) processMessages := by
  refine Steps.bind steps_get fun l => ?_
  cases adminUuid l with
  | none => exact steps_pure _
  | some auid =>
      exact Steps.bind (effects_query _) fun msgs =>
        Steps.forM fun msg _ => effects_processMessage auid msg

theorem effects_processParticipant (grp : Group) (part : Nat) :
    Moves (Effects c r) (processParticipant grp part) := by
  refine Steps.bind (effects_query _) fun row => ?_
  cases row with
  | none => exact steps_pure _
  | some recip =>
      refine Steps.bind ?_ fun num => steps_get_bind fun l => ?_
      · exact steps_getAddr (fun _ => trivial) _
      · cases l.contacts.lookup num with
        | none => exact .refl
        | some ct => exact wp_said (.server (by decide))

theorem effects_processTopic (grp : Group) : Moves (Effects c r) (processTopic grp) := by
  have htopic : ∀ topic, Moves (Effects c r)
      (modify fun l : InspLink =>
        { l with channelTopics := l.channelTopics.insert grp.channel topic }) :=
    fun _ => effects_modify fun _ =>
      ⟨rfl, rfl, rfl, rfl, rfl, rfl, rfl, rfl, rfl, rfl, rfl, rfl, rfl, rfl⟩
  refine steps_get_bind fun l => ?_
  dsimp only
  split
  · rw [wp_bind]
    refine wp_mono (wp_said (c := c) (r := r) (.server (by decide))) (fun _ t ht => ?_)
      fun _ _ he => he
    exact (htopic _).after ht
  · exact htopic _ l

theorem effects_processGroups : Moves (Effects c r) processGroups := by
  refine Steps.bind (effects_modify fun _ =>
    ⟨rfl, rfl, rfl, rfl, rfl, rfl, rfl, rfl, rfl, rfl, rfl, rfl, rfl, rfl⟩) fun _ => ?_
  refine Steps.bind steps_get fun l => ?_
  refine Steps.bind (Steps.forM fun a _ => effects_processGroupsForRecipient a) fun _ => ?_
  refine Steps.bind (effects_query _) fun grps => Steps.forM fun grp _ => ?_
  refine Steps.bind (Steps.forM fun part _ => effects_processParticipant grp part) fun _ => ?_
  exact Steps.bind steps_get fun l => Steps.when (effects_processTopic grp)

theorem effects_doCapabAndServer : Moves (Effects c r) doCapabAndServer := by
  refine Steps.bind (effects_sendSidLine (by decide) _ _) fun _ => ?_
  refine Steps.bind (Steps.forM fun _ _ => effects_sendSidLine (by decide) _ _) fun _ => ?_
  refine Steps.bind (effects_sendSidLine (by decide) _ _) fun _ => ?_
  exact steps_get_bind fun _ => wp_said (.server (by decide))

theorem effects_onLinked (hc : c) : Moves (Effects c r) onLinked := by
  refine steps_get_bind fun l => ?_
  rw [wp_bind]
  refine wp_mono (wp_said (c := c) (r := r) (.control hc (.inr rfl))) (fun _ t ht => ?_)
    fun _ _ he => he
  exact (Steps.bind effects_processGroups fun _ => effects_processMessages).after ht

/-- The commands that the control user answers. -/
def answered : Option AdminCommand → Bool
  | none => true
  | some (.ghost _ _) => true
  | some (.insp _) => true
  | some (.help _) => true
  | _ => false

/-- A message of the admin that the control user answers. -/
def Answered (msg : Str) : Prop :=
  msg ≠ [] ∧ ∃ ac, AdminCommand.parse (splitOn ' ' msg) = .ok ac ∧ answered ac = true

/-- A message of the admin that is an `INSP RAW` command. -/
def AsksRaw (msg : Str) : Prop :=
  ∃ line, AdminCommand.parse (splitOn ' ' msg) = .ok (some (.insp (.raw line)))

theorem effects_processInsp (hc : c) {ic : InspCommand} (hr : ∀ line, ic = .raw line → r) :
    Moves (Effects c r) (processInsp ic) := by
  cases ic with
  | raw line =>
      refine Steps.bind ?_ fun _ => steps_pure _
      unfold sendRaw
      split
      · exact fun l => .single (.said (.raw (hr line rfl)))
      · exact effects_controlResponse hc _
  | queryUuid uu =>
      refine Steps.bind steps_get fun l => ?_
      exact Steps.bind (Steps.forM fun _ _ => effects_controlResponse hc _)
        fun _ => steps_pure _
  | queryNickUuid qnu =>
      refine Steps.bind steps_get fun l => ?_
      exact Steps.bind (effects_controlResponse hc _) fun _ => steps_pure _

theorem effects_processAdminCommand {msg : Str} (hc : Answered msg → c)
    (hr : AsksRaw msg → r) : Moves (Effects c r) (processAdminCommand msg : LinkM Unit) := by
  unfold processAdminCommand
  split
  · exact steps_pure _
  · rename_i hmsg
    split
    · exact steps_throw trivial
    · rename_i hparse
      exact effects_controlResponse (hc ⟨hmsg, none, hparse, rfl⟩) _
    · rename_i ac hparse
      have hanswer : answered (some ac) = true → c := fun h => hc ⟨hmsg, _, hparse, h⟩
      cases ac with
      | ghost nick gc =>
          exact Steps.bind (effects_cfSend _) fun _ => effects_controlResponse (hanswer rfl) _
      | contact cc => exact effects_cfSend _
      | whatsapp wac => exact effects_waSend _
      | modem mc => exact effects_mSend _
      | group gc => exact effects_waSend _
      | insp ic =>
          refine Steps.bind (effects_processInsp (hanswer rfl) fun line hline => ?_) fun _ =>
            Steps.when (effects_controlResponse (hanswer rfl) _)
          exact hr ⟨line, by rw [hparse, hline]⟩
      | help qry =>
          rw [executeAdminCommand]
          cases helpPage qry with
          | some hp => exact Steps.forM fun _ _ => effects_controlResponse (hanswer rfl) _
          | none => exact effects_controlResponse (hanswer rfl) _

/-- A message of a user of the network; only those of the admin to the control user make
the latter speak. -/
theorem effects_handlePrivmsg {source target msg : Str} {l : InspLink}
    (hc : adminUuid l = some source → target = l.controlUuid → Answered msg → c)
    (hr : adminUuid l = some source → target = l.controlUuid → AsksRaw msg → r) :
    wp (handlePrivmsg source target msg) (fun _ t => Effects c r l t)
      (fun _ t => Effects c r l t ∧ True) l := by
  rw [handlePrivmsg, wp_bind, wp_get]
  split
  · exact .refl
  · rename_i hadmin
    have hsource : adminUuid l = some source := (not_not.mp hadmin).symm
    split
    · rename_i htarget
      exact effects_processAdminCommand (hc hsource htarget) (hr hsource htarget) l
    · split
      · exact effects_waSend _ l
      · split
        · exact .refl
        · split
          · exact .refl
          · split
            · exact effects_waSend _ l
            · exact effects_mSend _ l

theorem effects_handleCfCommand (cmd : ContactFactoryCommand) :
    Moves (Effects c r) (handleCfCommand cmd) := by
  cases cmd with
  | processMessages => exact effects_processMessages
  | processGroups => exact effects_processGroups
  | processAvatars => exact steps_pure _
  | setupContact a => exact effects_setupContact a
  | dropContact a => exact effects_dropContact a
  | queryContact a src => exact effects_queryContact a src
  | dropContactByNick nick => exact effects_byNick nick effects_dropContact
  | loadRecipients => exact steps_pure _
  | forwardCommand a cmd => exact effects_forwardCmd a cmd
  | forwardCommandByNick nick cmd => exact effects_byNick nick fun a => effects_forwardCmd a cmd
  | subscribePresenceByNick nick => exact effects_byNick nick fun a => effects_waSend _

theorem effects_handleCbCommand {cmd : ControlBotCommand}
    (hc : ∀ resp, cmd = .commandResponse resp → c) :
    Moves (Effects c r) (handleCbCommand cmd) := by
  cases cmd with
  | log line => exact steps_get_bind fun l => wp_said (.server (by decide))
  | reportFailure fail =>
      refine steps_get_bind fun l => ?_
      cases adminUuid l with
      | some admu => exact wp_said (.server (by decide))
      | none => exact .refl
  | commandResponse resp => exact effects_controlResponse (hc resp rfl) resp
  | processGroups => exact effects_processGroups

end Effects

end SmsIrc.LinkEffects
