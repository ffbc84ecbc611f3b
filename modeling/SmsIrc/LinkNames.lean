import SmsIrc.LinkNicks
import SmsIrc.SafeNames

/-!
The nicks that a link introduces its ghosts with, as words of the IRC protocol.
-/

namespace SmsIrc.LinkNames

open SmsIrc.Comm SmsIrc.ContactCommon SmsIrc.ControlCommands SmsIrc.Database SmsIrc.External
open SmsIrc.HashMaps SmsIrc.InspUsers SmsIrc.Link SmsIrc.LinkAgreement SmsIrc.LinkEffects
open SmsIrc.LinkEvents SmsIrc.LinkGhosts SmsIrc.LinkLedger SmsIrc.LinkNicks SmsIrc.LinkRuns
open SmsIrc.Models SmsIrc.Program SmsIrc.SafeNames SmsIrc.SenderCommon SmsIrc.SenderRuns
open SmsIrc.SerialTable SmsIrc.Text SmsIrc.Transition SmsIrc.Util

theorem isNick_append_decimal {n : Str} (h : IsNick n) (k : Nat) : IsNick (n ++ decimal k) := by
  obtain ⟨⟨c, hc, halpha⟩, hchars⟩ := h
  refine ⟨⟨c, ?_, halpha⟩, fun d hd => ?_⟩
  · obtain ⟨rest, rfl⟩ := List.head?_eq_some_iff.mp hc
    rfl
  · rcases List.mem_append.mp hd with hd | hd
    · exact hchars d hd
    · have hdigit := Nat.isDigit_of_mem_toDigits (by decide) (by decide) hd
      exact .inl (by simp [isAsciiAlphanumeric, hdigit])

section Names

variable [Crates]

theorem isNick_givenNick {l : InspLink} {nick : Str} (h : IsNick nick) :
    IsNick (givenNick l nick) := by
  obtain ⟨k, hk, -⟩ := firstFree_givenNick l nick
  rw [hk]
  cases k with
  | zero => exact h
  | succ k => exact isNick_append_decimal h k

/-- A line gives valid nicks to ghosts. -/
def Names (control : Str) (m : IrcMessage) : Prop :=
  ∀ u n, nickSaid u m = some n → u = control ∨ IsNick n

/-- All nicks are valid: those that are stored, and those that have been given to ghosts. -/
structure Proper (l : InspLink) : Prop where
  rows : ∀ r ∈ l.store.recipients.rows, IsNick r.nick
  lines : ∀ m ∈ l.outbox, Names l.controlUuid m

def Keeps (s t : InspLink) : Prop := Proper s → Proper t

instance : IsPreorder InspLink Keeps where
  refl _ := id
  trans _ _ _ hst htu := htu ∘ hst

theorem keeps_of_sent {s t : InspLink} (hcontrol : t.controlUuid = s.controlUuid)
    (hrows : ∀ r ∈ t.store.recipients.rows, ∃ q ∈ s.store.recipients.rows, q.nick = r.nick)
    (hout : ∃ ms, t.outbox = s.outbox ++ ms ∧ ∀ m ∈ ms, Names s.controlUuid m) : Keeps s t := by
  rintro ⟨hrowsS, hlines⟩
  obtain ⟨ms, hms, hnames⟩ := hout
  refine ⟨fun r hr => ?_, fun m hm => ?_⟩
  · obtain ⟨q, hq, heq⟩ := hrows r hr
    rw [← heq]
    exact hrowsS q hq
  · rw [hcontrol]
    rw [hms] at hm
    rcases List.mem_append.mp hm with hm | hm
    · exact hlines m hm
    · exact hnames m hm

theorem keeps_of_eq {s t : InspLink} (hcontrol : t.controlUuid = s.controlUuid)
    (hrec : t.store.recipients = s.store.recipients) (hout : t.outbox = s.outbox) : Keeps s t := by
  refine keeps_of_sent hcontrol (fun r hr => ⟨r, hrec ▸ hr, rfl⟩) ⟨[], ?_, fun m hm => ?_⟩
  · rw [hout, List.append_nil]
  · cases hm

theorem keeps_of_wp {α : Type} {p : LinkM α}
    (h : ∀ l, Proper l → wp p (fun _ t => Proper t) (fun _ t => Proper t) l) :
    Moves Keeps p := by
  intro l
  by_cases hl : Proper l
  · exact wp_mono (h l hl) (fun _ _ ht _ => ht) fun _ _ ht => ⟨fun _ => ht, trivial⟩
  · exact wp_mono (wp_exec p l) (fun _ _ _ h => absurd h hl)
      fun _ _ _ => ⟨fun h => absurd h hl, trivial⟩

theorem Moves.proper {α : Type} {p : LinkM α} (h : Moves Keeps p) {l : InspLink}
    (hl : Proper l) : wp p (fun _ t => Proper t) (fun _ t => Proper t) l :=
  wp_mono (h l) (fun _ _ ht => ht hl) fun _ _ ht => ht.1 hl

theorem keeps_modify {f : InspLink → InspLink} (hcontrol : ∀ l, (f l).controlUuid = l.controlUuid)
    (hstore : ∀ l, (f l).store = l.store) (hout : ∀ l, (f l).outbox = l.outbox) :
    Moves Keeps (modify f : LinkM PUnit) :=
  steps_modify fun l => keeps_of_eq (hcontrol l) (by rw [hstore]) (hout l)

omit [Crates] in
theorem names_of_word {source : Option Str} (control : Str) (cmd : String) {args : List Str}
    {suffix : Option Str} (h : cmd ∉ ["UID", "NICK"]) :
    Names control (.new source cmd.toList args suffix) := by
  have hne : ∀ word ∈ ["UID", "NICK"], cmd.toList ≠ word.toList := by
    intro word hword heq
    rw [String.toList_inj] at heq
    exact h (heq ▸ hword)
  intro u n hsaid
  rw [nickSaid, if_neg fun heq => hne "UID" (by simp) heq.1,
    if_neg fun heq => hne "NICK" (by simp) heq.1] at hsaid
  cases hsaid

theorem keeps_push (u : Str) {cmd : String} (h : cmd ∉ ["UID", "NICK"]) (args : List Str)
    (suffix : Option Str) : Moves Keeps (push u cmd args suffix) := by
  refine steps_modify fun l => keeps_of_sent rfl (fun r hr => ⟨r, hr, rfl⟩) ⟨_, rfl, fun m hm => ?_⟩
  rw [List.mem_singleton.mp hm]
  exact names_of_word _ cmd h

theorem keeps_sendSidLine {cmd : String} (h : cmd ∉ ["UID", "NICK"]) (args : List Str)
    (suffix : Option Str) : Moves Keeps (sendSidLine cmd args suffix) :=
  Steps.bind steps_get fun _ => keeps_push _ h _ _

/-- A use of the database that brings no other nicks. -/
def NoNicks (st st' : Store) : Prop :=
  ∀ r ∈ st'.recipients.rows, ∃ q ∈ st.recipients.rows, q.nick = r.nick

instance : IsPreorder Store NoNicks where
  refl _ := fun r hr => ⟨r, hr, rfl⟩
  trans _ _ _ hst htu := fun r hr => by
    obtain ⟨q, hq, hqr⟩ := htu r hr
    obtain ⟨p, hp, hpq⟩ := hst q hq
    exact ⟨p, hp, hpq.trans hqr⟩

theorem noNicks_of_eq {st st' : Store} (h : st'.recipients = st.recipients) : NoNicks st st' :=
  fun r hr => ⟨r, h ▸ hr, rfl⟩

theorem keeps_store {α : Type} {p : StoreM α} (h : Moves NoNicks p) :
    Moves Keeps (store p : LinkM α) := h.zoom fun _ _ hst => keeps_of_sent rfl hst
  ⟨[], (List.append_nil _).symm, fun m hm => by cases hm⟩

theorem keeps_query {α : Type} (f : Store → α) : Moves Keeps (store (query f) : LinkM α) :=
  keeps_store (moves_query (fun _ => noNicks_of_eq rfl) f)

theorem keeps_updateRecipient (addr : PduAddress) (f : Recipient → Recipient)
    (hf : ∀ r, (f r).id = r.id) (hnick : ∀ r, (f r).nick = r.nick) :
    Moves Keeps (store (updateRecipient addr f hf)) := by
  refine keeps_store (moves_execute (S := NoNicks) (fun _ => noNicks_of_eq rfl) fun st r hr => ?_)
  obtain ⟨q, hq, rfl⟩ := List.mem_map.mp hr
  refine ⟨q, hq, ?_⟩
  split
  · exact (hnick q).symm
  · rfl

theorem keeps_updateRecipientNick (addr : PduAddress) {n : Str} (hn : IsNick n) (src : Int) :
    Moves Keeps (store (updateRecipientNick addr n src)) := by
  refine keeps_of_wp fun l hl => ?_
  rw [wp_store]
  refine wp_execute_of ⟨hl.rows, hl.lines⟩ ⟨fun r hr => ?_, hl.lines⟩
  obtain ⟨q, hq, rfl⟩ := List.mem_map.mp hr
  split
  · exact hn
  · exact hl.rows q hq

theorem keeps_processGroupsForRecipient (a : PduAddress) :
    Moves Keeps (processGroupsForRecipient a) := by
  refine Steps.bind steps_get fun l => Steps.bind (moves_unwrap _ _) fun ct => ?_
  refine Steps.bind (keeps_store ?_) fun grps => ?_
  · refine Steps.bind (moves_query (fun _ => noNicks_of_eq rfl) _) fun r => ?_
    cases r with
    | some r => exact moves_query (fun _ => noNicks_of_eq rfl) _
    | none => exact steps_throw trivial
  refine Steps.bind (Steps.forM fun grp _ => ?_) fun _ => ?_
  · exact Steps.bind (keeps_push _ (by decide) _ _) fun _ =>
      keeps_modify (fun _ => rfl) (fun _ => rfl) fun _ => rfl
  refine Steps.bind (Steps.when (keeps_push _ (by decide) _ _)) fun _ => ?_
  refine Steps.bind (Steps.forM fun ch _ => Steps.when (keeps_push _ (by decide) _ _)) fun _ => ?_
  exact keeps_modify (fun _ => rfl) (fun _ => rfl) fun _ => rfl

omit [Crates] in
theorem names_uidLine {control sid uid : Str} {user : InspUser}
    (h : uid = control ∨ IsNick user.nick) : Names control (uidLine sid uid user) := by
  intro u n hsaid
  by_cases hu : u = uid
  · subst hu
    rw [(uidLine_said sid u user).1] at hsaid
    cases hsaid
    exact h
  · rw [(uidLine_none (Ne.symm hu)).1] at hsaid
    cases hsaid

theorem keeps_newUser {user : InspUser} (h : IsNick user.nick) : Moves Keeps (newUser user) := by
  refine Steps.bind ?_ fun uuid => ?_
  · refine steps_get_bind fun l => ?_
    split
    · exact ⟨refl l, trivial⟩
    · exact keeps_of_eq rfl rfl rfl
  · intro l
    rw [wp_bind, insertUser, wp_modify, wp_bind, makeUidLine, wp_bind, wp_get]
    dsimp only
    rw [AList.lookup_insert]
    dsimp only
    rw [wp_pure, wp_bind, send, wp_modify, wp_pure]
    refine keeps_of_sent rfl (fun r hr => ⟨r, hr, rfl⟩) ⟨_, rfl, fun m hm => ?_⟩
    rw [List.mem_singleton.mp hm]
    exact names_uidLine (.inr h)

theorem wp_nickFor_valid {recip : Recipient} (h : IsNick recip.nick) (a : PduAddress)
    (l : InspLink) :
    wp (nickFor recip a) (fun nick t => IsNick nick ∧ Keeps l t)
      (fun _ t => Keeps l t ∧ True) l := by
  have hgiven := isNick_givenNick (l := l) h
  rw [givenNick] at hgiven
  rw [nickFor, wp_bind, wp_get]
  cases hc : checkNickForCollisions l recip.nick with
  | none => exact ⟨h, refl l⟩
  | some n =>
      rw [hc, Option.getD_some] at hgiven
      dsimp only
      rw [wp_bind]
      exact wp_mono (keeps_updateRecipientNick a hgiven _ l) (fun _ _ ht => ⟨hgiven, ht⟩)
        fun _ _ ht => ht

theorem keeps_setupContactFor {recip : Recipient} (h : IsNick recip.nick) (a : PduAddress) :
    Moves Keeps (setupContactFor recip a) := by
  intro l
  rw [setupContactFor, wp_bind]
  refine wp_mono (wp_nickFor_valid h a l) ?_ fun _ _ ht => ht
  rintro nick t ⟨hnick, ht⟩
  have hrest : Moves Keeps (do
      let l ← get
      let uuid ← newUser (newFromRecipient l.now a nick (hostForWa l recip.whatsapp))
      addContact a { uuid := uuid, channels := [], waMode := recip.whatsapp }
      when (l.state = .linked) (processGroupsForRecipient a)) := by
    refine Steps.bind steps_get fun l => Steps.bind (keeps_newUser hnick) fun uuid => ?_
    exact Steps.bind (keeps_modify (fun _ => rfl) (fun _ => rfl) fun _ => rfl)
      fun _ => Steps.when (keeps_processGroupsForRecipient a)
  exact hrest.after ht

theorem keeps_setupRecipient {recip : Recipient} (h : IsNick recip.nick) :
    Moves Keeps (setupRecipient recip : LinkM Unit) := by
  refine Steps.bind ?_ fun num => ?_
  · exact steps_getAddr (fun _ => trivial) _
  · refine Steps.bind (Steps.bind steps_get fun _ => steps_pure _) fun present => ?_
    exact Steps.when (keeps_setupContactFor h num)

theorem keeps_foundRecipient (a : PduAddress) {α : Type} {f : Recipient → LinkM α}
    {g : LinkM α} (hf : ∀ recip, IsNick recip.nick → Moves Keeps (f recip))
    (hg : Moves Keeps g) :
    Moves Keeps (do
      match ← store (getRecipientByAddrOpt a) with
      | some recip => f recip
      | none => g) := by
  refine keeps_of_wp fun l hl => ?_
  have htick : Proper { l with store := l.store.tick } := ⟨hl.rows, hl.lines⟩
  rw [wp_bind, wp_store]
  apply wp_query_of htick
  cases hfind : l.store.tick.recipients.rows.find? fun r =>
      r.phoneNumber = normalizeAddress a with
  | some recip =>
      exact Moves.proper (hf recip (hl.rows recip (List.mem_of_find?_eq_some hfind))) htick
  | none => exact Moves.proper hg htick

theorem keeps_setupContact (a : PduAddress) : Moves Keeps (setupContact a : LinkM Unit) :=
  keeps_foundRecipient a (fun _ h => keeps_setupRecipient h) (steps_pure _)

theorem keeps_requestContact (a : PduAddress) (src : Nat) :
    Moves Keeps (requestContact a src : LinkM Bool) := by
  refine keeps_foundRecipient a
    (fun _ h => Steps.bind (keeps_setupRecipient h) fun _ => steps_pure _)
    (Steps.bind ?_ fun _ => steps_pure _)
  unfold requestCreation
  split
  · exact keeps_modify (fun _ => rfl) (fun _ => rfl) fun _ => rfl
  · split
    · exact keeps_modify (fun _ => rfl) (fun _ => rfl) fun _ => rfl
    · exact steps_pure _

theorem keeps_queryContact (a : PduAddress) (src : Nat) :
    Moves Keeps (queryContact a src : LinkM Unit) := by
  have hsend : ∀ cmd, Moves Keeps (ContactSetup.cbSend cmd : LinkM Unit) :=
    fun _ => keeps_modify (fun _ => rfl) (fun _ => rfl) fun _ => rfl
  refine keeps_foundRecipient a
    (fun _ h => Steps.bind (hsend _) fun _ => keeps_setupRecipient h) ?_
  exact Steps.bind (hsend _) fun _ => Steps.bind (keeps_requestContact a src) fun _ => steps_pure _

theorem keeps_doQuasiburst : Moves Keeps doQuasiburst := by
  refine keeps_of_wp fun l hl => ?_
  have htick : Proper { l with store := l.store.tick } := ⟨hl.rows, hl.lines⟩
  rw [doQuasiburst, wp_bind, wp_store]
  apply wp_query_of htick
  refine Moves.proper (Steps.forM fun recip hrecip => keeps_setupRecipient (hl.rows recip ?_)) htick
  exact Crates.scanOrder.mem_run.mp hrecip

theorem keeps_removeUser (uuid : Str) (recreate : Bool) :
    Moves Keeps (removeUser uuid recreate) := by
  refine steps_get_bind fun l => ?_
  rw [wp_bind, wp_set]
  have hset : ∀ l', l'.controlUuid = l.controlUuid → l'.store = l.store →
      l'.outbox = l.outbox → Keeps l l' := fun _ hc hs ho => keeps_of_eq hc (by rw [hs]) ho
  split
  · exact (Steps.when (keeps_setupContact _)).after (hset _ rfl rfl rfl)
  · exact hset _ rfl rfl rfl

theorem keeps_removeContactFor (a : PduAddress) : Moves Keeps (removeContactFor a) := by
  refine Steps.bind steps_get fun l => Steps.bind ?_ fun _ =>
    keeps_modify (fun _ => rfl) (fun _ => rfl) fun _ => rfl
  cases l.contacts.lookup a with
  | some ct => exact Steps.bind (keeps_push _ (by decide) _ _) fun _ => keeps_removeUser _ _
  | none => exact steps_pure _

theorem keeps_dropContact (a : PduAddress) : Moves Keeps (dropContact a : LinkM Unit) := by
  refine Steps.bind (keeps_store ?_) fun _ => keeps_removeContactFor a
  exact moves_checked (S := NoNicks) (fun _ => noNicks_of_eq rfl) fun st r hr =>
    ⟨r, (List.mem_filter.mp hr).1, rfl⟩

theorem keeps_setWaState (a : PduAddress) (wa : Bool) : Moves Keeps (setWaState a wa) := by
  refine Steps.bind steps_get fun l => Steps.bind (moves_unwrap _ _) fun ct => ?_
  refine Steps.bind (keeps_modify (fun _ => rfl) (fun _ => rfl) fun _ => rfl) fun _ => ?_
  refine Steps.bind (keeps_updateRecipient _ _ _ fun _ => rfl) fun _ => ?_
  refine Steps.bind (keeps_push _ (by decide) _ _) fun _ => steps_modify fun l => ?_
  split
  · exact keeps_of_eq rfl rfl rfl
  · exact refl l

omit [Crates] in
theorem names_nickLine (control u : Str) {nick : Str} (h : IsNick nick) (args : List Str) :
    Names control (.new (some u) ("NICK" : Str) (nick :: args) none) := by
  intro v n hsaid
  have huid : ("NICK" : Str) ≠ ("UID" : Str) := by decide
  rw [nickSaid, if_neg fun heq => huid heq.1] at hsaid
  split at hsaid
  · cases hsaid
    exact .inr h
  · cases hsaid

theorem keeps_changeNick (a : PduAddress) (ct : InspContact) {st : Str} (h : IsNick st)
    (src : Int) : Moves Keeps (changeNick a ct st src) := by
  have hrest : ∀ user nick src (args : List Str), IsNick nick → Moves Keeps (do
      insertUser ct.uuid user
      push ct.uuid "NICK" (nick :: args) none
      store (updateRecipientNick a nick src)) := by
    intro user nick src args hnick
    refine Steps.bind (keeps_modify (fun _ => rfl) (fun _ => rfl) fun _ => rfl) fun _ => ?_
    refine Steps.bind (steps_modify fun l => ?_) fun _ => keeps_updateRecipientNick a hnick src
    refine keeps_of_sent rfl (fun r hr => ⟨r, hr, rfl⟩) ⟨_, rfl, fun m hm => ?_⟩
    rw [List.mem_singleton.mp hm]
    exact names_nickLine _ _ hnick _
  refine Steps.bind steps_get fun l => Steps.bind (moves_unwrap _ _) fun u => ?_
  split
  · exact steps_pure _
  · have hgiven := isNick_givenNick (l := l) h
    rw [givenNick] at hgiven
    cases hc : checkNickForCollisions l st with
    | some n =>
        rw [hc] at hgiven
        exact hrest _ _ _ _ hgiven
    | none => exact hrest _ _ _ _ h

/-- A command gives a valid nick, if any. -/
def Sanitised : ContactManagerCommand → Prop
  | .changeNick nick _ => IsNick nick
  | _ => True

theorem keeps_forwardCmd (a : PduAddress) {cmd : ContactManagerCommand} (h : Sanitised cmd) :
    Moves Keeps (forwardCmd a cmd) := by
  refine Steps.bind steps_get fun l => ?_
  split
  · cases cmd with
    | processMessages => exact steps_pure _
    | processGroups => exact steps_pure _
    | updateAway text =>
        exact Steps.bind (moves_unwrap _ _) fun ct => keeps_push _ (by decide) _ _
    | changeNick st osrc =>
        exact Steps.bind (moves_unwrap _ _) fun ct => keeps_changeNick a ct h osrc
    | setWhatsapp wam =>
        refine Steps.bind (moves_unwrap _ _) fun ct => ?_
        exact Steps.bind (keeps_modify (fun _ => rfl) (fun _ => rfl) fun _ => rfl)
          fun _ => keeps_setWaState a wam
  · exact steps_pure _

theorem keeps_byNick {f : PduAddress → LinkM Unit} (nick : Str) (hf : ∀ a, Moves Keeps (f a)) :
    Moves Keeps (do
      match ← resolveNick nick with
      | some a => f a
      | none => pure ()) := by
  refine Steps.bind (Steps.bind steps_get fun _ => steps_pure _) fun a => ?_
  cases a with
  | some a => exact hf a
  | none => exact steps_pure _

theorem keeps_contactMessage (u : Str) {kind : String} (h : kind ∉ ["UID", "NICK"])
    (target message : Str) : Moves Keeps (contactMessage u kind target message) := by
  refine Steps.bind steps_get fun l => ?_
  split
  · exact steps_throw trivial
  · split
    · exact steps_throw trivial
    · exact keeps_push _ h _ _

theorem keeps_sender : SenderSteps InspLink Keeps fun _ => True where
  record _ := keeps_modify (fun _ => rfl) (fun _ => rfl) fun _ => rfl
  getGroupById g := by
    refine keeps_store (Steps.bind (moves_query (fun _ => noNicks_of_eq rfl) _) fun grp => ?_)
    cases grp with
    | some grp => exact steps_pure grp
    | none => exact steps_throw trivial
  privateTarget := Steps.bind steps_get fun _ => steps_pure _
  sendIrcMessage _ _ _ := keeps_contactMessage _ (by decide) _ _
  ensureJoined ch := by
    refine Steps.bind steps_get fun l => ?_
    split
    · cases adminUuid l with
      | some admu => exact keeps_sendSidLine (by decide) _ _
      | none => exact steps_pure _
    · exact steps_pure _
  getAllConcatenated _ _ := keeps_query _
  deleteMessage _ := keeps_store (moves_checked (S := NoNicks) (fun _ => noNicks_of_eq rfl)
    fun _ => noNicks_of_eq rfl)
  reportError _ _ := Steps.bind steps_get fun _ => keeps_contactMessage _ (by decide) _ _
  utcNow := Steps.bind steps_get fun _ => steps_pure _
  error _ := trivial
  messageText := trivial
  concatenatedPdu := trivial
  concatenatedHeader := trivial

theorem keeps_switchMode (a : PduAddress) (auid : Str) (ct : InspContact) (wa : Bool) :
    Moves Keeps (switchMode a auid ct wa) :=
  Steps.when (Steps.bind (keeps_setWaState a wa) fun _ => keeps_contactMessage _ (by decide) _ _)

theorem keeps_processMessage (auid : Str) (msg : Message) :
    Moves Keeps (processMessage auid msg) := by
  refine Steps.bind ?_ fun a => Steps.bind ?_ fun ready => Steps.when ?_
  · exact steps_getAddr (fun _ => trivial) _
  · refine Steps.bind (Steps.bind steps_get fun _ => steps_pure _) fun present => ?_
    split
    · exact steps_pure _
    · exact keeps_requestContact a _
  · refine Steps.bind steps_get fun l => Steps.bind (moves_unwrap _ _) fun ct => ?_
    have hsender := keeps_sender.senderStepsAs ct.uuid
    cases msg.pdu with
    | some raw =>
        dsimp only
        cases Crates.deliverPduTryFrom raw with
        | error e => exact steps_throw trivial
        | ok pdu =>
            exact Steps.bind (keeps_switchMode _ _ _ _) fun _ => hsender.processMsgPdu msg pdu
    | none => exact Steps.bind (keeps_switchMode _ _ _ _) fun _ => hsender.processMsgPlain msg

theorem keeps_processMessages : Moves Keeps processMessages := by
  refine Steps.bind steps_get fun l => ?_
  cases adminUuid l with
  | none => exact steps_pure _
  | some auid =>
      exact Steps.bind (keeps_query _) fun msgs => Steps.forM fun msg _ =>
        keeps_processMessage auid msg

theorem keeps_processGroup (grp : Group) : Moves Keeps (processGroup grp) := by
  refine Steps.bind (Steps.forM fun part _ => Steps.bind (keeps_query _) fun row => ?_) fun _ => ?_
  · cases row with
    | none => exact steps_pure _
    | some recip =>
        refine Steps.bind ?_ fun num => Steps.bind steps_get fun l => ?_
        · exact steps_getAddr (fun _ => trivial) _
        · cases l.contacts.lookup num with
          | none => exact steps_pure _
          | some ct => exact keeps_push _ (by decide) _ _
  · refine Steps.bind steps_get fun l => Steps.when (Steps.bind steps_get fun l' => ?_)
    dsimp only
    split
    · exact Steps.bind (keeps_push _ (by decide) _ _) fun _ =>
        keeps_modify (fun _ => rfl) (fun _ => rfl) fun _ => rfl
    · exact keeps_modify (fun _ => rfl) (fun _ => rfl) fun _ => rfl

theorem keeps_processGroups : Moves Keeps processGroups := by
  refine Steps.bind (keeps_modify (fun _ => rfl) (fun _ => rfl) fun _ => rfl) fun _ => ?_
  refine Steps.bind steps_get fun l => ?_
  refine Steps.bind (Steps.forM fun a _ => keeps_processGroupsForRecipient a) fun _ => ?_
  exact Steps.bind (keeps_query _) fun grps => Steps.forM fun grp _ => keeps_processGroup grp

theorem keeps_onLinked : Moves Keeps onLinked := by
  refine Steps.bind steps_get fun l => Steps.bind (keeps_push _ (by decide) _ _) fun _ => ?_
  exact Steps.bind keeps_processGroups fun _ => keeps_processMessages

theorem keeps_doBurst : Moves Keeps doBurst := by
  intro l
  refine wp_mono (wp_doBurst l) ?_ fun _ _ ht => ht
  rintro _ _ rfl
  refine keeps_of_sent rfl (fun r hr => ⟨r, hr, rfl⟩) ⟨_, rfl, fun m hm => ?_⟩
  rcases List.mem_cons.mp hm with rfl | hm
  · exact names_of_word _ "BURST" (by decide)
  · rcases List.mem_cons.mp hm with rfl | hm
    · exact names_uidLine (.inl rfl)
    · rw [List.mem_singleton.mp hm]
      exact names_of_word _ "ENDBURST" (by decide)

theorem keeps_controlResponse (msg : Str) : Moves Keeps (controlResponse msg) := by
  refine Steps.bind steps_get fun l => ?_
  cases adminUuid l with
  | some admu => exact keeps_push _ (by decide) _ _
  | none => exact steps_pure _

theorem keeps_processInsp {ic : Admin.InspCommand} (h : ∀ line, ic ≠ .raw line) :
    Moves Keeps (processInsp ic) := by
  cases ic with
  | raw line => exact absurd rfl (h line)
  | queryUuid uu =>
      refine Steps.bind steps_get fun l => ?_
      exact Steps.bind (Steps.forM fun _ _ => keeps_controlResponse _) fun _ => steps_pure _
  | queryNickUuid qnu =>
      refine Steps.bind steps_get fun l => ?_
      exact Steps.bind (keeps_controlResponse _) fun _ => steps_pure _

theorem keeps_processAdminCommand {msg : Str} (h : ¬ AsksRaw msg) :
    Moves Keeps (processAdminCommand msg : LinkM Unit) := by
  refine moves_processAdminCommand (fun _ => ?_) (fun _ => ?_) (fun _ => ?_) (fun _ => ?_)
    keeps_controlResponse fun ic hparse => ?_
  · exact keeps_modify (fun _ => rfl) (fun _ => rfl) fun _ => rfl
  · exact keeps_modify (fun _ => rfl) (fun _ => rfl) fun _ => rfl
  · exact keeps_modify (fun _ => rfl) (fun _ => rfl) fun _ => rfl
  · exact keeps_modify (fun _ => rfl) (fun _ => rfl) fun _ => rfl
  · refine keeps_processInsp fun line hline => h ⟨line, ?_⟩
    rw [hparse, hline]

theorem keeps_handlePrivmsg {source target msg : Str} {l : InspLink}
    (h : ¬ (adminUuid l = some source ∧ target = l.controlUuid ∧ AsksRaw msg)) :
    wp (handlePrivmsg source target msg) (fun _ t => Keeps l t) (fun _ t => Keeps l t ∧ True)
      l := by
  rw [handlePrivmsg, wp_bind, wp_get]
  split
  · exact keeps_of_eq rfl rfl rfl
  · rename_i hadmin
    split
    · rename_i htarget
      exact keeps_processAdminCommand (fun hraw => h ⟨(not_not.mp hadmin).symm, htarget, hraw⟩) l
    · split
      · exact keeps_of_eq rfl rfl rfl
      · split
        · exact keeps_of_eq rfl rfl rfl
        · split
          · exact keeps_of_eq rfl rfl rfl
          · split
            · exact keeps_of_eq rfl rfl rfl
            · exact keeps_of_eq rfl rfl rfl

theorem keeps_handleServer (args : List Str) (suffix : Option Str) :
    Moves Keeps (handleServer args suffix) := by
  refine Steps.bind steps_get fun l => ?_
  split
  · split
    · exact steps_throw trivial
    · split
      · exact steps_throw trivial
      · refine Steps.bind (steps_logVerified trivial _) fun _ => ?_
        refine Steps.bind (keeps_modify (fun _ => rfl) (fun _ => rfl) fun _ => rfl) fun _ => ?_
        exact Steps.bind keeps_doBurst fun _ =>
          keeps_modify (fun _ => rfl) (fun _ => rfl) fun _ => rfl
  · exact steps_throw trivial

theorem keeps_updateUser (uuid : Str) (f : InspUser → InspUser) :
    Moves Keeps (updateUser uuid f) := by
  refine steps_modify fun l => ?_
  split
  · exact keeps_of_eq rfl rfl rfl
  · exact refl l

theorem keeps_handleUid (args : List Str) (suffix : Option Str) :
    Moves Keeps (handleUid args suffix) := by
  unfold handleUid
  cases newFromUidLine args suffix with
  | error e => exact steps_throw trivial
  | ok new =>
      refine Steps.bind (keeps_modify (fun _ => rfl) (fun _ => rfl) fun _ => rfl) fun _ => ?_
      exact Steps.bind steps_get fun l => Steps.when keeps_processMessages

theorem keeps_handleEndburst (source : Str) : Moves Keeps (handleEndburst source) := by
  refine Steps.bind steps_get fun l => Steps.when (Steps.bind keeps_doQuasiburst fun _ => ?_)
  exact Steps.bind (keeps_modify (fun _ => rfl) (fun _ => rfl) fun _ => rfl)
    fun _ => keeps_onLinked

theorem keeps_handleRaw (source cmd : Str) (args : List Str) (suffix : Option Str) :
    Moves Keeps (handleRaw source cmd args suffix) := by
  unfold handleRaw
  split
  · exact keeps_handleUid args suffix
  split
  · cases args with
    | nil => exact steps_pure _
    | cons nick rest => exact keeps_updateUser _ _
  split
  · split
    · exact keeps_modify (fun _ => rfl) (fun _ => rfl) fun _ => rfl
    · exact steps_pure _
  split
  · cases args with
    | nil => exact steps_pure _
    | cons host rest => exact keeps_updateUser _ _
  split
  · exact keeps_handleEndburst source
  · exact steps_pure _

theorem keeps_handleRemoteMessage {m : IrcMessage} {l : InspLink} (h : ¬ Raws l (.remote m)) :
    wp (handleRemoteMessage m) (fun _ t => Keeps l t) (fun _ t => Keeps l t ∧ True) l := by
  obtain ⟨prefixStr, command⟩ := m
  cases prefixStr with
  | none =>
      cases command with
      | error details => exact ⟨keeps_of_eq rfl rfl rfl, trivial⟩
      | raw cmd args suffix => exact Steps.when (keeps_handleServer args suffix) l
      | _ => exact keeps_of_eq rfl rfl rfl
  | some source =>
      cases command with
      | privmsg target msg => exact keeps_handlePrivmsg h
      | error details => exact ⟨keeps_of_eq rfl rfl rfl, trivial⟩
      | kill uuid reason => exact keeps_removeUser _ _ l
      | quit reason => exact keeps_removeUser _ _ l
      | ping data dest =>
          cases dest with
          | none => exact keeps_sendSidLine (by decide) _ _ l
          | some dest => exact keeps_sendSidLine (by decide) _ _ l
      | squit server reason => exact keeps_of_eq rfl rfl rfl
      | raw cmd args suffix => exact keeps_handleRaw _ _ _ _ l
      | other params => exact keeps_of_eq rfl rfl rfl

/-- A command of another part gives a valid nick, if any. -/
def CfSanitised : ContactFactoryCommand → Prop
  | .forwardCommand _ cmd => Sanitised cmd
  | .forwardCommandByNick _ cmd => Sanitised cmd
  | _ => True

theorem keeps_handleCfCommand {c : ContactFactoryCommand} (h : CfSanitised c) :
    Moves Keeps (handleCfCommand c) := by
  cases c with
  | processMessages => exact keeps_processMessages
  | processGroups => exact keeps_processGroups
  | processAvatars => exact steps_pure _
  | setupContact a => exact keeps_setupContact a
  | dropContact a => exact keeps_dropContact a
  | queryContact a src => exact keeps_queryContact a src
  | dropContactByNick nick => exact keeps_byNick nick keeps_dropContact
  | loadRecipients => exact steps_pure _
  | forwardCommand a cmd => exact keeps_forwardCmd a h
  | forwardCommandByNick nick cmd => exact keeps_byNick nick fun a => keeps_forwardCmd a h
  | subscribePresenceByNick nick =>
      exact keeps_byNick nick fun a => keeps_modify (fun _ => rfl) (fun _ => rfl) fun _ => rfl

theorem keeps_handleCbCommand (c : ControlBotCommand) : Moves Keeps (handleCbCommand c) := by
  cases c with
  | log line => exact Steps.bind steps_get fun l => keeps_push _ (by decide) _ _
  | reportFailure fail =>
      refine Steps.bind steps_get fun l => ?_
      cases adminUuid l with
      | some admu => exact keeps_push _ (by decide) _ _
      | none => exact steps_pure _
  | commandResponse resp => exact keeps_controlResponse resp
  | processGroups => exact keeps_processGroups

/-- The nicks that the other parts of the program make: of addresses and names. -/
def Made : Event → Prop
  | .storeOp (.recipient addr nick) => nick = makeNickForAddress addr
  | .storeOp (.waRecipient _ nick _ _) => FromName nick
  | .cf (.forwardCommand _ (.changeNick nick _)) => FromName nick
  | _ => True

/-- A nick that the admin gives to a ghost is valid. -/
def WellNamed : Event → Prop
  | .cf (.forwardCommandByNick _ (.changeNick nick _)) => IsNick nick
  | _ => True

/-- If the stored nicks are valid, they still are. -/
def ValidStays (st st' : Store) : Prop :=
  (∀ r ∈ st.recipients.rows, IsNick r.nick) → ∀ r ∈ st'.recipients.rows, IsNick r.nick

instance : IsPreorder Store ValidStays where
  refl _ := id
  trans _ _ _ hst htu := htu ∘ hst

theorem validStays_of_noNicks {st st' : Store} (h : NoNicks st st') : ValidStays st st' := by
  intro hvalid r hr
  obtain ⟨q, hq, heq⟩ := h r hr
  rw [← heq]
  exact hvalid q hq

theorem validStays_tick (st : Store) : ValidStays st st.tick := id

theorem validStays_insert {addr : PduAddress} {row : Nat → Recipient}
    {hrow : ∀ n, (row n).id = n} (h : ∀ n, IsNick (row n).nick) :
    Moves ValidStays (insertRecipient addr row hrow) := by
  refine moves_insertRecipient validStays_tick fun st hvalid r hr => ?_
  rcases List.mem_append.mp hr with hr | hr
  · exact hvalid r hr
  · rw [List.mem_singleton.mp hr]
    exact h _

theorem validStays_storeOp {op : StoreOp} (h : Made (.storeOp op)) : Moves ValidStays op.run := by
  have hsame : ∀ {st st' : Store}, st'.recipients = st.recipients → ValidStays st st' :=
    fun h => validStays_of_noNicks (noNicks_of_eq h)
  cases op with
  | smsMessage addr pdu csmsData => exact moves_execute validStays_tick fun _ => hsame rfl
  | waMessage addr text groupTarget ts => exact moves_checked validStays_tick fun _ => hsame rfl
  | recipient addr nick =>
      cases h
      exact Steps.bind (validStays_insert fun _ => isNick_stringToIrcNick _)
        fun _ => steps_pure _
  | waRecipient addr nick ntf nicksrc =>
      exact Steps.bind (validStays_insert fun _ => h.isNick) fun _ => steps_pure _
  | notify addr n =>
      refine moves_execute validStays_tick fun st => validStays_of_noNicks fun r hr => ?_
      obtain ⟨q, hq, rfl⟩ := List.mem_map.mp hr
      refine ⟨q, hq, ?_⟩
      split
      · rfl
      · rfl
  | group jid chan parts adms topic =>
      exact Steps.bind (moves_storeGroup validStays_tick fun _ _ _ _ => hsame rfl)
        fun _ => steps_pure _
  | updateGroup jid parts adms topic =>
      exact Steps.bind (moves_updateGroup validStays_tick fun _ _ _ _ => hsame rfl)
        fun _ => steps_pure _
  | deleteGroup id => exact moves_checked validStays_tick fun _ => hsame rfl
  | waMsgid id => exact moves_execute validStays_tick fun _ => hsame rfl
  | waPersistence p => exact moves_execute validStays_tick fun _ => hsame rfl

theorem keeps_connect : Moves Keeps connect := by
  refine Steps.bind ?_ fun _ => keeps_modify (fun _ => rfl) (fun _ => rfl) fun _ => rfl
  refine Steps.bind (keeps_sendSidLine (by decide) _ _) fun _ => ?_
  refine Steps.bind (Steps.forM fun _ _ => keeps_sendSidLine (by decide) _ _) fun _ => ?_
  refine Steps.bind (keeps_sendSidLine (by decide) _ _) fun _ => ?_
  exact Steps.bind steps_get fun _ => keeps_push _ (by decide) _ _

theorem cfSanitised {c : ContactFactoryCommand} (hmade : Made (.cf c))
    (hnamed : WellNamed (.cf c)) : CfSanitised c := by
  cases c with
  | forwardCommand a cmd =>
      cases cmd with
      | changeNick nick src => exact hmade.isNick
      | _ => trivial
  | forwardCommandByNick nick cmd =>
      cases cmd with
      | changeNick nick src => exact hnamed
      | _ => trivial
  | _ => trivial

theorem proper_next {s t : Session} {e : Event} (hraw : ¬ Raws s.link e) (hmade : Made e)
    (hnamed : WellNamed e) (hs : Proper s.link) (ht : next s e = some t) : Proper t.link := by
  unfold next at ht
  split at ht
  swap
  · cases ht
  cases e with
  | connect =>
      simp only [step] at ht
      split at ht
      · cases ht
        exact keeps_connect.exec s.link hs
      · cases ht
  | remote m =>
      simp only [step] at ht
      split at ht
      · cases ht
      · cases ht
        exact wp_exec_snd (P := fun t => Keeps s.link t) (wp_mono
          (keeps_handleRemoteMessage hraw) (fun _ _ ht => ht) fun _ _ ht => ht.1) hs
  | cb c =>
      simp only [step] at ht
      split at ht
      · cases ht
        exact (keeps_handleCbCommand c).exec s.link hs
      · cases ht
  | cf c =>
      simp only [step] at ht
      split at ht
      · cases ht
        exact (keeps_handleCfCommand (cfSanitised hmade hnamed)).exec s.link hs
      · cases ht
  | storeOp op =>
      cases ht
      exact ⟨(validStays_storeOp hmade).exec s.link.store hs.rows, hs.lines⟩
  | clock now dbNow =>
      cases ht
      exact ⟨hs.rows, hs.lines⟩

/-- As long as the admin gives only valid nicks to ghosts, all nicks that ghosts are
introduced with or change to are valid. -/
theorem validNicks_of_run {cfg : InspConfig} {st : Store} {now : NaiveDateTime} {es : List Event}
    {t : Session} (hst : ∀ r ∈ st.recipients.rows, IsNick r.nick)
    (hes : AllSteps next (fun s e => ¬ Raws s.link e ∧ Made e ∧ WellNamed e)
      (initial cfg st now) es) (hrun : run next (initial cfg st now) es = some t) :
    ∀ m ∈ t.link.outbox, ∀ u ∈ t.link.issued, ∀ n, nickSaid u m = some n → IsNick n := by
  have hstart : Proper (initial cfg st now).link := ⟨hst, fun m hm => by cases hm⟩
  have ht := invariant_of_allSteps (I := fun s => Proper s.link)
    (fun _ _ _ he hs ht => proper_next he.1 he.2.1 he.2.2 hs ht) hes hstart hrun
  have hledger : Ledger t.link := invariant (I := fun s => Ledger s.link)
    (fun _ _ _ hs ht => ledger_next hs ht) (ledger_initial cfg st now) hrun
  intro m hm u hu n hsaid
  apply (ht.lines m hm u n hsaid).resolve_left
  rintro rfl
  exact hledger.control_notMem hu

end Names

section Samples

attribute [local instance] Sample.crates

/-- A ghost gets a nick of its address, and then one of the admin's. -/
def naming (nick : Str) : List Event :=
  .storeOp (.recipient Sample.alice ("I44123" : Str)) :: linking ++
    [.cf (.forwardCommandByNick ("I44123" : Str) (.changeNick nick nicksrcUser))]

theorem made_naming {nick : Str} : ∀ e ∈ naming nick, ∀ s : Session, ¬ Raws s.link e ∧ Made e := by
  intro e he s
  simp only [naming, linking, List.cons_append, List.nil_append, List.mem_cons,
    List.not_mem_nil, or_false] at he
  rcases he with rfl | rfl | rfl | rfl | rfl | rfl
  · exact ⟨id, show ("I44123" : Str) = makeNickForAddress Sample.alice from by decide⟩
  all_goals exact ⟨id, trivial⟩

theorem wellNamed_naming {nick : Str} (h : IsNick nick) : ∀ e ∈ naming nick, WellNamed e := by
  intro e he
  simp only [naming, linking, List.cons_append, List.nil_append, List.mem_cons,
    List.not_mem_nil, or_false] at he
  rcases he with rfl | rfl | rfl | rfl | rfl | rfl
  iterate 5 exact trivial
  exact h

theorem isNick_bob : IsNick ("bob" : Str) :=
  ⟨⟨'b', rfl, by decide⟩, forall_mem_of_all (by decide)⟩

def named : Session := (run next sampleStart (naming ("bob" : Str))).get (by decide +kernel)

theorem validNicks_named :
    (∃ m ∈ named.link.outbox, ∃ u ∈ named.link.issued, nickSaid u m = some ("bob" : Str)) ∧
      ∀ m ∈ named.link.outbox, ∀ u ∈ named.link.issued, ∀ n,
        nickSaid u m = some n → IsNick n := by
  constructor
  · decide +kernel
  · refine validNicks_of_run (fun r hr => by cases hr) ?_ (Option.some_get _).symm
    refine allSteps_of_forall_mem (fun e he s => ?_) _
    exact ⟨(made_naming e he s).1, (made_naming e he s).2, wellNamed_naming isNick_bob e he⟩

/-- A nick of the admin's that starts with a digit is sent as it is. -/
theorem digit_first : ¬ ∀ (cfg : InspConfig) (st : Store) (now : NaiveDateTime) (es : List Event)
    (t : Session), (∀ r ∈ st.recipients.rows, IsNick r.nick) →
      AllSteps next (fun s e => ¬ Raws s.link e ∧ Made e) (initial cfg st now) es →
        run next (initial cfg st now) es = some t →
          ∀ m ∈ t.link.outbox, ∀ u ∈ t.link.issued, ∀ n, nickSaid u m = some n →
            IsNick n := by
  intro h
  have hsaid : (run next sampleStart (naming ("1bob" : Str))).map (fun t =>
      decide (("00AZ00001" : Str) ∈ t.link.issued ∧ ∃ m ∈ t.link.outbox,
        nickSaid ("00AZ00001" : Str) m = some ("1bob" : Str))) = some true := by decide +kernel
  obtain ⟨t, ht, hsay⟩ := Option.map_eq_some_iff.mp hsaid
  obtain ⟨hissued, m, hm, hnick⟩ := of_decide_eq_true hsay
  obtain ⟨⟨c, heq, halpha⟩, -⟩ := h _ _ _ _ t (fun r hr => by cases hr)
    (allSteps_of_forall_mem (fun e he s => made_naming e he s) _) ht m hm _ hissued _ hnick
  cases heq
  exact absurd halpha (by decide)

end Samples

end SmsIrc.LinkNames
