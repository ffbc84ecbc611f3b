import SmsIrc.LinkAgreement
import SmsIrc.LinkPoison

/-!
The panics of a link: which events lead to one, in any state that a run can reach.
-/

namespace SmsIrc.LinkPanics

open SmsIrc.Admin SmsIrc.Comm SmsIrc.ContactCommon SmsIrc.ControlCommands SmsIrc.Database
open SmsIrc.External SmsIrc.HashMaps SmsIrc.InspUsers SmsIrc.Link SmsIrc.LinkAgreement
open SmsIrc.LinkDeeds SmsIrc.LinkEffects SmsIrc.LinkEvents SmsIrc.LinkFailures
open SmsIrc.LinkGhosts SmsIrc.LinkHistory SmsIrc.LinkLedger SmsIrc.LinkPoison
open SmsIrc.Logging (enabled)
open SmsIrc.LinkRuns SmsIrc.LinkSteady SmsIrc.Models SmsIrc.Program SmsIrc.Reassembly
open SmsIrc.SenderCommon SmsIrc.SenderRuns
open SmsIrc.Text SmsIrc.Transition SmsIrc.Util

section Panics

/-- An `Err`, not a panic. -/
def Calm (e : Failure) : Prop := ∀ site, e ≠ .panic site

theorem calm_db : Calm .db := fun _ h => by cases h

theorem calm_error (msg : Str) : Calm (.error msg) := fun _ h => by cases h

theorem calm_missingRecipient : Calm .missingRecipient := fun _ h => by cases h

variable [Crates]

/-- Any two states. -/
def Anyhow (_ _ : InspLink) : Prop := True

instance : IsPreorder InspLink Anyhow where
  refl _ := trivial
  trans _ _ _ _ _ := trivial

/-- A computation that cannot panic. -/
abbrev Easy {α : Type} (p : LinkM α) : Prop := Steps Anyhow Calm p

theorem Easy.wp {α : Type} {p : LinkM α} (h : Easy p) (l : InspLink) :
    wp p (fun _ _ => True) (fun e _ => Calm e) l :=
  wp_mono (h l) (fun _ _ _ => trivial) fun _ _ he => he.2

theorem easy_of_wp {α : Type} {p : LinkM α}
    (h : ∀ l, Program.wp p (fun _ _ => True) (fun e _ => Calm e) l) : Easy p :=
  fun l => wp_mono (h l) (fun _ _ _ => trivial) fun _ _ he => ⟨trivial, he⟩

theorem easy_modify (f : InspLink → InspLink) : Easy (modify f : LinkM PUnit) :=
  steps_modify fun _ => trivial

theorem easy_query {α : Type} (f : Store → α) : Easy (store (query f) : LinkM α) := by
  intro l
  rw [wp_store]
  exact wp_query_of ⟨trivial, calm_db⟩ trivial

theorem easy_execute (f : Store → Store) : Easy (store (execute f) : LinkM Unit) := by
  intro l
  rw [wp_store]
  exact wp_execute_of ⟨trivial, calm_db⟩ trivial

theorem easy_push (u : Str) (cmd : String) (args : List Str) (suffix : Option Str) :
    Easy (push u cmd args suffix) := easy_modify _

theorem easy_sendSidLine (cmd : String) (args : List Str) (suffix : Option Str) :
    Easy (sendSidLine cmd args suffix) := Steps.bind steps_get fun _ => easy_push _ _ _ _

theorem easy_getAddr (num : Str) : Easy (getAddr num : LinkM PduAddress) :=
  steps_getAddr (fun _ => calm_error _) num

theorem easy_makeUidLine (u : Str) : Easy (makeUidLine u) := by
  refine Steps.bind steps_get fun l => ?_
  cases l.users.lookup u with
  | some user => exact steps_pure _
  | none => exact steps_throw (calm_error _)

theorem easy_newUser (user : InspUser) : Easy (newUser user) := by
  refine Steps.bind (Steps.bind steps_get fun l => ?_) fun uuid => ?_
  · split
    · exact steps_throw (calm_error _)
    · exact Steps.bind (fun _ => trivial) fun _ => steps_pure _
  · refine Steps.bind (easy_modify _) fun _ => Steps.bind (easy_makeUidLine _) fun line => ?_
    exact Steps.bind (easy_modify _) fun _ => steps_pure _

theorem easy_nickFor (recip : Recipient) (a : PduAddress) : Easy (nickFor recip a) := by
  refine Steps.bind steps_get fun l => ?_
  cases checkNickForCollisions l recip.nick with
  | none => exact steps_pure _
  | some n => exact Steps.bind (easy_execute _) fun _ => steps_pure _

theorem easy_getGroupsForRecipient (a : PduAddress) :
    Easy (store (getGroupsForRecipient a) : LinkM (List Group)) := by
  intro l
  rw [wp_store, getGroupsForRecipient, wp_bind]
  apply wp_query_of ⟨trivial, calm_db⟩
  split
  · exact wp_query_of ⟨trivial, calm_db⟩ trivial
  · exact ⟨trivial, calm_missingRecipient⟩

/-- A contact that is there has its channels brought up to date, and no contact goes. -/
theorem calm_processGroupsForRecipient {l : InspLink} {a : PduAddress}
    (ha : (l.contacts.lookup a).isSome) :
    wp (processGroupsForRecipient a)
      (fun _ t => ∀ b, (l.contacts.lookup b).isSome → (t.contacts.lookup b).isSome)
      (fun e _ => Calm e) l := by
  obtain ⟨ct, hct⟩ := Option.isSome_iff_exists.mp ha
  have hcalm : wp (processGroupsForRecipient a) (fun _ _ => True) (fun e _ => Calm e) l := by
    rw [processGroupsForRecipient, wp_bind, wp_get]
    dsimp only
    rw [hct, wp_bind, wp_unwrap_some]
    refine Easy.wp (Steps.bind (easy_getGroupsForRecipient a) fun grps => ?_) l
    refine Steps.bind (Steps.forM fun grp _ =>
      Steps.bind (easy_push _ _ _ _) fun _ => easy_modify _) fun _ => ?_
    refine Steps.bind (Steps.when (easy_push _ _ _ _)) fun _ => ?_
    exact Steps.bind (Steps.forM fun ch _ => Steps.when (easy_push _ _ _ _))
      fun _ => easy_modify _
  refine wp_mono (wp_both hcalm (idle_processGroupsForRecipient a l)) ?_ fun _ _ he => he
  rintro _ t ⟨-, ht⟩ b hb
  obtain ⟨ctb, hctb⟩ := Option.isSome_iff_exists.mp hb
  obtain ⟨ct', hct', -⟩ := ht.contacts b ctb hctb
  rw [hct']
  rfl

theorem calm_setupContactFor (recip : Recipient) (a : PduAddress) (l : InspLink) :
    wp (setupContactFor recip a) (fun _ t => (t.contacts.lookup a).isSome)
      (fun e _ => Calm e) l := by
  rw [setupContactFor, wp_bind]
  refine wp_mono ((easy_nickFor recip a).wp l) (fun nick t _ => ?_) fun _ _ he => he
  rw [wp_bind, wp_get, wp_bind]
  refine wp_mono ((easy_newUser _).wp t) (fun uuid u _ => ?_) fun _ _ he => he
  rw [wp_bind, addContact, wp_modify, wp_when]
  have hpresent : ((u.contacts.insert a ⟨uuid, [], recip.whatsapp⟩).lookup a).isSome := by
    rw [AList.lookup_insert]
    rfl
  split
  · exact wp_mono (calm_processGroupsForRecipient (l := { u with
      contacts := u.contacts.insert a ⟨uuid, [], recip.whatsapp⟩
      contactsUuidPdua := u.contactsUuidPdua.insert uuid a }) hpresent)
      (fun _ _ h => h a hpresent) fun _ _ he => he
  · exact hpresent

theorem calm_setupRecipient (recip : Recipient) (l : InspLink) :
    wp (setupRecipient recip)
      (fun _ t => ∀ a, unNormalizeAddress recip.phoneNumber = some a →
        (t.contacts.lookup a).isSome) (fun e _ => Calm e) l := by
  rw [setupRecipient, wp_bind, Recipient.getAddr, Models.getAddr]
  cases hnum : unNormalizeAddress recip.phoneNumber with
  | none => exact calm_error _
  | some a =>
      rw [wp_pure, wp_bind]
      change wp (hasContact a) _ _ _
      rw [hasContact, wp_bind, wp_get, wp_pure, wp_when]
      split
      · refine wp_mono (calm_setupContactFor recip a l) ?_ fun _ _ he => he
        rintro _ t ht b ⟨⟩
        exact ht
      · rename_i hpresent
        rintro b ⟨⟩
        simpa [Option.isSome_iff_ne_none] using hpresent

theorem easy_setupRecipient (recip : Recipient) : Easy (setupRecipient recip : LinkM Unit) :=
  easy_of_wp fun l => wp_mono (calm_setupRecipient recip l) (fun _ _ _ => trivial)
    fun _ _ he => he

theorem easy_requestCreation (a : PduAddress) (src : Nat) :
    Easy (requestCreation a src : LinkM Unit) := by
  unfold requestCreation
  split
  · exact easy_modify _
  · split
    · exact easy_modify _
    · exact steps_pure _

theorem easy_setupContact (a : PduAddress) : Easy (setupContact a : LinkM Unit) := by
  refine Steps.bind (easy_query _) fun r => ?_
  cases r with
  | some recip => exact easy_setupRecipient recip
  | none => exact steps_pure _

theorem easy_requestContact (a : PduAddress) (src : Nat) :
    Easy (requestContact a src : LinkM Bool) := by
  refine Steps.bind (easy_query _) fun r => ?_
  cases r with
  | some recip => exact Steps.bind (easy_setupRecipient recip) fun _ => steps_pure _
  | none => exact Steps.bind (easy_requestCreation a src) fun _ => steps_pure _

theorem easy_queryContact (a : PduAddress) (src : Nat) :
    Easy (queryContact a src : LinkM Unit) := by
  refine Steps.bind (easy_query _) fun r => ?_
  cases r with
  | some recip => exact Steps.bind (easy_modify _) fun _ => easy_setupRecipient recip
  | none =>
      exact Steps.bind (easy_modify _) fun _ =>
        Steps.bind (easy_requestContact a src) fun _ => steps_pure _

theorem easy_removeUser (u : Str) (recreate : Bool) : Easy (removeUser u recreate) := by
  refine Steps.bind steps_get fun l => Steps.bind (fun _ => trivial) fun _ => ?_
  split
  · exact Steps.when (easy_setupContact _)
  · exact steps_pure _

theorem easy_dropContact (a : PduAddress) : Easy (dropContact a : LinkM Unit) := by
  refine Steps.bind (fun l => ?_) fun _ => ?_
  · rw [wp_store, deleteRecipientWithAddr, wp_bind]
    apply wp_query_of ⟨trivial, calm_db⟩
    split
    · trivial
    · exact ⟨trivial, calm_error _⟩
  · change Easy (removeContactFor a)
    refine Steps.bind steps_get fun l => Steps.bind ?_ fun _ => easy_modify _
    cases l.contacts.lookup a with
    | some ct => exact Steps.bind (easy_push _ _ _ _) fun _ => easy_removeUser _ _
    | none => exact steps_pure _

theorem easy_updateUser (u : Str) (f : InspUser → InspUser) : Easy (updateUser u f) :=
  easy_modify _

theorem calm_setWaState {l : InspLink} {a : PduAddress} (ha : (l.contacts.lookup a).isSome)
    (wa : Bool) : wp (setWaState a wa) (fun _ _ => True) (fun e _ => Calm e) l := by
  obtain ⟨ct, hct⟩ := Option.isSome_iff_exists.mp ha
  rw [setWaState, wp_bind, wp_get]
  dsimp only
  rw [hct, wp_bind, wp_unwrap_some]
  refine Easy.wp (Steps.bind (easy_modify _) fun _ => ?_) l
  refine Steps.bind (easy_execute _) fun _ => ?_
  exact Steps.bind (easy_push _ _ _ _) fun _ => easy_modify _

theorem easy_contactMessage (u : Str) (kind : String) (target message : Str) :
    Easy (contactMessage u kind target message) := by
  refine Steps.bind steps_get fun l => ?_
  split
  · exact steps_throw (calm_error _)
  · split
    · exact steps_throw (calm_error _)
    · exact easy_push _ _ _ _

theorem easy_controlResponse (msg : Str) : Easy (controlResponse msg) := by
  refine Steps.bind steps_get fun l => ?_
  cases adminUuid l with
  | some admu => exact easy_push _ _ _ _
  | none => exact steps_pure _

theorem easy_getGroupById (g : Nat) : Easy (store (getGroupById g) : LinkM Group) := by
  intro l
  rw [wp_store, getGroupById, wp_bind]
  apply wp_query_of ⟨trivial, calm_db⟩
  split
  · trivial
  · exact ⟨trivial, calm_db⟩

theorem sendSteps_easy : SendSteps InspLink Anyhow Calm where
  record _ := easy_modify _
  getGroupById := easy_getGroupById
  privateTarget := Steps.bind steps_get fun _ => steps_pure _
  sendIrcMessage _ _ _ := easy_contactMessage _ _ _ _
  ensureJoined ch := by
    refine Steps.bind steps_get fun l => ?_
    split
    · cases adminUuid l with
      | some admu => exact easy_sendSidLine _ _ _
      | none => exact steps_pure _
    · exact steps_pure _

theorem easy_removeMessage (id : Nat) : Easy (removeMessage id : LinkM Unit) := by
  refine Steps.bind (easy_modify _) fun _ l => ?_
  rw [wp_store, deleteMessage, wp_bind]
  apply wp_query_of ⟨trivial, calm_db⟩
  split
  · trivial
  · exact ⟨trivial, calm_error _⟩

theorem easy_processMsgPlain (nick : Str) {msg : Message} {body : Str}
    (htext : msg.text = some body) : Easy (processMsgPlain nick msg : LinkM Unit) := by
  rw [processMsgPlain, htext]
  refine Steps.bind (steps_pure body) fun text => ?_
  refine Steps.bind (Steps.bind steps_get fun _ => steps_pure _) fun now => ?_
  exact Steps.bind (sendSteps_easy.sendRawMessage _ _ _) fun _ => easy_removeMessage _

theorem calm_processMsgPdu {l : InspLink} (hrows : ∀ m ∈ l.store.messages.rows, Deliverable m)
    (nick : Str) (msg : Message) (pdu : DeliverPdu) :
    wp (processMsgPdu nick msg pdu) (fun _ _ => True) (fun e _ => Calm e) l := by
  have hsend : ∀ text (rows : List Message), Easy (do
      sendRawMessage nick text msg.groupTarget
      forM rows fun m => removeMessage m.id : LinkM Unit) := fun text rows =>
    Steps.bind (sendSteps_easy.sendRawMessage _ _ _) fun _ =>
      Steps.forM fun m _ => easy_removeMessage m.id
  unfold processMsgPdu
  cases pdu.decodeMessage with
  | error e =>
      exact Easy.wp (Steps.bind (easy_modify _) fun _ =>
        Steps.bind steps_get fun _ => easy_contactMessage _ _ _ _) l
  | ok d =>
      dsimp only
      cases concatenation d with
      | none =>
          exact Easy.wp (Steps.bind (sendSteps_easy.sendRawMessage _ _ _)
            fun _ => easy_removeMessage _) l
      | some cd =>
          dsimp only
          rw [wp_bind, wp_store]
          apply wp_query_of calm_db
          split
          · trivial
          obtain ⟨text, htext⟩ := joinParts_of_parts (Crates.scanOrder.run
              (concatenatedRows l.store.tick msg.phoneNumber cd.reference.toNat)) fun m hm => by
            obtain ⟨hrow, hfiled⟩ := List.mem_filter.mp (Crates.scanOrder.mem_run.mp hm)
            rw [Bool.and_eq_true, decide_eq_true_iff] at hfiled
            exact (hrows m hrow).part hfiled.1
          rw [htext, wp_bind, liftResult, wp_pure]
          exact (hsend text _).wp _

theorem calm_contactReady {num : Str} {a : PduAddress} (hnum : unNormalizeAddress num = some a)
    (hkey : num = normalizeAddress a) (src : Nat) (l : InspLink) :
    wp (contactReady a src) (fun ready t => ready = true → (t.contacts.lookup a).isSome)
      (fun e _ => Calm e) l := by
  rw [contactReady, wp_bind, hasContact, wp_bind, wp_get, wp_pure]
  split
  · rename_i hpresent
    exact fun _ => hpresent
  · rw [requestContact, wp_bind, wp_store]
    apply wp_query_of calm_db
    cases hr : l.store.tick.recipients.rows.find? fun r => r.phoneNumber = normalizeAddress a with
    | none =>
        dsimp only
        rw [wp_bind]
        refine wp_mono ((easy_requestCreation a src).wp _) ?_ fun _ _ he => he
        exact fun _ _ _ h => by cases h
    | some recip =>
        have hphone : recip.phoneNumber = normalizeAddress a := by
          simpa using List.find?_some hr
        dsimp only
        rw [wp_bind]
        refine wp_mono (calm_setupRecipient recip _) ?_ fun _ _ he => he
        exact fun _ t ht _ => ht a (by rw [hphone, ← hkey, hnum])

theorem calm_switchMode {l : InspLink} {a : PduAddress} (ha : (l.contacts.lookup a).isSome)
    (auid : Str) (ct : InspContact) (wa : Bool) :
    wp (switchMode a auid ct wa) (fun _ _ => True) (fun e _ => Calm e) l := by
  rw [switchMode, wp_when]
  split
  · rw [wp_bind]
    refine wp_mono (calm_setWaState ha wa) ?_ fun _ _ he => he
    exact fun _ t _ => (easy_contactMessage _ _ _ _).wp t
  · trivial

theorem calm_processMessage {l : InspLink} (hrows : ∀ m ∈ l.store.messages.rows, Deliverable m)
    (auid : Str) {msg : Message} (hmsg : Deliverable msg)
    (hkey : ∀ a, unNormalizeAddress msg.phoneNumber = some a →
      msg.phoneNumber = normalizeAddress a) :
    wp (processMessage auid msg) (fun _ _ => True) (fun e _ => Calm e) l := by
  rw [processMessage, Message.getAddr, Models.getAddr, wp_bind]
  cases hnum : unNormalizeAddress msg.phoneNumber with
  | none => exact calm_error _
  | some a =>
      rw [wp_pure, wp_bind]
      refine wp_mono (wp_both (calm_contactReady hnum (hkey a hnum) msg.source l)
        (wp_contactReady_idle a msg.source l)) ?_ fun _ _ he => he
      rintro ready t ⟨hready, hidle, -⟩
      rw [wp_when]
      split
      swap
      · trivial
      rename_i hr
      obtain ⟨ct, hct⟩ := Option.isSome_iff_exists.mp (hready hr)
      rw [wp_bind, wp_get, wp_bind, hct, wp_unwrap_some]
      have hswitch : ∀ wa, wp (switchMode a auid ct wa)
          (fun _ u => ∀ m ∈ u.store.messages.rows, Deliverable m) (fun e _ => Calm e) t := by
        intro wa
        refine wp_mono (wp_both (calm_switchMode (hready hr) auid ct wa)
          (idle_switchMode a auid ct wa t)) ?_ fun _ _ he => he
        rintro _ u ⟨-, hu⟩
        rw [hu.messages, hidle.messages]
        exact hrows
      rcases hmsg with ⟨hraw, -, body, htext⟩ | ⟨addr, raw, hraw, pdu, hpdu, -⟩
      · rw [hraw]
        dsimp only
        rw [wp_bind]
        exact wp_mono (hswitch true) (fun _ u _ => (easy_processMsgPlain _ htext).wp u)
          fun _ _ he => he
      · rw [hraw]
        dsimp only
        rw [hpdu]
        dsimp only
        rw [wp_bind]
        exact wp_mono (hswitch false) (fun _ u hu => calm_processMsgPdu hu _ _ _)
          fun _ _ he => he

/-- The rows are as they were stored, under the keys of addresses. -/
def Processable (l : InspLink) : Prop :=
  ∀ m ∈ l.store.messages.rows, Deliverable m ∧ ∃ a : PduAddress, m.phoneNumber = normalizeAddress a

theorem processable_of_filed {l : InspLink} (h : Filed l.store) : Processable l :=
  fun m hm => ⟨h.deliverable m hm, h.keyed m hm⟩

theorem calm_processMessages (hkeys : KeysRead) {l : InspLink} (hl : Processable l) :
    wp processMessages (fun _ _ => True) (fun e _ => Calm e) l := by
  rw [processMessages, wp_bind, wp_get]
  cases adminUuid l with
  | none => trivial
  | some auid =>
      dsimp only
      rw [wp_bind, wp_store]
      apply wp_query_of calm_db
      refine wp_mono (wp_forM (I := fun t : InspLink =>
        ∀ m ∈ t.store.messages.rows, Deliverable m) (E := fun e _ => Calm e)
        (fun msg hmsg t ht => ?_) fun m hm => (hl m hm).1) (fun _ _ _ => trivial)
        fun _ _ he => he
      have hrow : msg ∈ l.store.messages.rows :=
        (List.perm_insertionSort sentBefore _).mem_iff.mp hmsg
      refine wp_mono (wp_both (calm_processMessage ht auid (hl msg hrow).1 fun a ha => ?_)
        (shrinks_processMessage auid msg t)) (fun _ u hu m hm => ht m (hu.2 m hm))
        fun _ _ he => he
      obtain ⟨b, hb⟩ := (hl msg hrow).2
      rw [hb] at ha ⊢
      rw [hkeys b a ha]

theorem calm_processGroups (l : InspLink) :
    wp processGroups (fun _ _ => True) (fun e _ => Calm e) l := by
  have hparticipant : ∀ grp part, Easy (processParticipant grp part) := by
    intro grp part
    refine Steps.bind (easy_query _) fun r => ?_
    cases r with
    | none => exact steps_pure _
    | some recip =>
        refine Steps.bind (easy_getAddr _) fun num => Steps.bind steps_get fun l => ?_
        cases l.contacts.lookup num with
        | none => exact steps_pure _
        | some ct => exact easy_push _ _ _ _
  have htopic : ∀ grp, Easy (processTopic grp) := by
    refine fun grp => Steps.bind steps_get fun l => ?_
    dsimp only
    split
    · exact Steps.bind (easy_push _ _ _ _) fun _ => easy_modify _
    · exact easy_modify _
  have hrest : Easy (do
      let grps ← store getAllGroups
      forM grps processGroup) := by
    refine Steps.bind (easy_query _) fun grps => Steps.forM fun grp _ => ?_
    refine Steps.bind (Steps.forM fun part _ => hparticipant grp part) fun _ => ?_
    exact Steps.bind steps_get fun _ => Steps.when (htopic grp)
  rw [processGroups, wp_bind, wp_modify, wp_bind, wp_get, wp_bind]
  refine wp_mono (wp_forM (I := fun t : InspLink =>
    ∀ b, (l.contacts.lookup b).isSome → (t.contacts.lookup b).isSome)
    (E := fun e _ => Calm e) (fun a ha t ht => ?_) fun _ h => h)
    (fun _ t _ => hrest.wp t) fun _ _ he => he
  have hpresent : (l.contacts.lookup a).isSome :=
    AList.lookup_isSome.mpr (AList.mem_keys.mpr (Crates.hashOrder.mem_run.mp ha))
  exact wp_mono (calm_processGroupsForRecipient (ht a hpresent))
    (fun _ _ hu b hb => hu b (ht b hb)) fun _ _ he => he

theorem calm_then {α : Type} {p : LinkM α} {f : α → LinkM Unit} {l : InspLink}
    (hl : Processable l) (hp : wp p (fun _ _ => True) (fun e _ => Calm e) l)
    (hsame : Moves SameRows p)
    (hf : ∀ a t, Processable t → wp (f a) (fun _ _ => True) (fun e _ => Calm e) t) :
    wp (p >>= f) (fun _ _ => True) (fun e _ => Calm e) l := by
  rw [wp_bind]
  refine wp_mono (wp_both hp (hsame l)) (fun a t ht => hf a t ?_) fun _ _ he => he
  rw [Processable, ht.2.messages]
  exact hl

theorem easy_doCapabAndServer : Easy doCapabAndServer := by
  refine Steps.bind (easy_sendSidLine _ _ _) fun _ => ?_
  refine Steps.bind (Steps.forM fun _ _ => easy_sendSidLine _ _ _) fun _ => ?_
  refine Steps.bind (easy_sendSidLine _ _ _) fun _ => ?_
  exact Steps.bind steps_get fun _ => easy_push _ _ _ _

theorem easy_doBurst : Easy doBurst := by
  refine Steps.bind steps_get fun l => ?_
  refine Steps.bind (easy_sendSidLine _ _ _) fun _ => ?_
  refine Steps.bind (easy_modify _) fun _ => ?_
  refine Steps.bind (easy_makeUidLine _) fun line => ?_
  exact Steps.bind (easy_modify _) fun _ => easy_sendSidLine _ _ _

/-- A `SERVER` line that is accepted and logged although it has no description. -/
def BareServer (l : InspLink) (args : List Str) (suffix : Option Str) : Prop :=
  suffix = none ∧ enabled l.cfg.maxLevel .info = true ∧
    ∃ name sid, args = [name, l.cfg.recvpass, ("0" : Str), sid]

theorem calm_handleServer {l : InspLink} {args : List Str} {suffix : Option Str}
    (h : ¬ BareServer l args suffix) :
    wp (handleServer args suffix) (fun _ _ => True) (fun e _ => Calm e) l := by
  rw [handleServer, wp_bind, wp_get]
  split
  · rename_i name pass hops sid
    split
    · exact calm_error _
    · rename_i hpass
      split
      · exact calm_error _
      · rename_i hhops
        rw [not_not] at hpass hhops
        rw [wp_bind]
        refine wp_logVerified (fun hnone hinfo => ?_) ?_
        · exact absurd ⟨hnone, hinfo, name, sid, by rw [hpass, hhops]⟩ h
        · exact Easy.wp (Steps.bind (easy_modify _) fun _ =>
            Steps.bind easy_doBurst fun _ => easy_modify _) l
  · exact calm_error _

theorem panics_handleServer {l : InspLink} {args : List Str} {suffix : Option Str}
    (h : BareServer l args suffix) :
    wp (handleServer args suffix) (fun _ _ => False) (fun e _ => ¬ Calm e) l := by
  obtain ⟨rfl, hinfo, name, sid, rfl⟩ := h
  rw [handleServer, wp_bind, wp_get]
  dsimp only
  rw [if_neg (not_not.mpr rfl), if_neg (not_not.mpr rfl), wp_bind, logVerified, wp_bind, wp_get,
    wp_when, if_pos hinfo, wp_bind, wp_unwrap_none]
  exact fun h => h _ rfl

/-- `INSP RAW` without a line. -/
def BareRaw (msg : Str) : Prop :=
  ∃ cmd raw, splitOn ' ' msg = [cmd, raw] ∧ isWord cmd "insp" = true ∧ isWord raw "raw" = true

theorem isWord_ne {cmd : Str} {v w : String} (h : isWord cmd w = true) (hne : v ≠ w) :
    isWord cmd v = false := by
  unfold isWord at h ⊢
  rw [decide_eq_true_iff] at h
  rw [decide_eq_false_iff_not, h]
  exact fun heq => hne (String.toList_inj.mp heq).symm

theorem inspParse_error_iff {rest : List Str} {e : Failure} :
    InspCommand.parse rest = .error e ↔
      e = .panic .inspRawArgs ∧ ∃ raw, rest = [raw] ∧ isWord raw "raw" = true := by
  constructor
  · intro h
    refine ⟨inspParse_error h, ?_⟩
    unfold InspCommand.parse at h
    split at h
    · cases h
    · rename_i cmd rest
      split at h
      · rename_i hraw
        split at h
        · exact ⟨cmd, rfl, hraw⟩
        · cases h
      · split at h
        · split at h
          · cases h
          · split at h <;> cases h
        · cases h
  · rintro ⟨rfl, raw, rfl, hraw⟩
    unfold InspCommand.parse
    dsimp only
    rw [if_pos hraw]

/-- The parser of admin commands fails on `INSP RAW` without a line, and on nothing else. -/
theorem adminParse_error_iff {msg : Str} :
    (∃ e, AdminCommand.parse (splitOn ' ' msg) = .error e) ↔ BareRaw msg := by
  unfold BareRaw
  cases hsplit : splitOn ' ' msg with
  | nil =>
      refine ⟨fun ⟨e, h⟩ => ?_, fun ⟨cmd, raw, h, _⟩ => ?_⟩
      · cases h
      · cases h
  | cons cmd rest =>
      by_cases hinsp : isWord cmd "insp" = true
      · have hparse : AdminCommand.parse (cmd :: rest) = (do
            let ic ← InspCommand.parse rest
            pure (ic.map .insp)) := by
          unfold AdminCommand.parse
          dsimp only
          rw [isWord_ne hinsp (by decide), isWord_ne hinsp (by decide),
            isWord_ne hinsp (by decide), isWord_ne hinsp (by decide), hinsp]
          simp only [Bool.false_eq_true, if_false, if_true]
        rw [hparse]
        cases hic : InspCommand.parse rest with
        | error e =>
            obtain ⟨rfl, raw, rfl, hraw⟩ := inspParse_error_iff.mp hic
            exact iff_of_true ⟨_, rfl⟩ ⟨cmd, raw, rfl, hinsp, hraw⟩
        | ok ic =>
            apply iff_of_false (fun ⟨e, h⟩ => by cases h)
            rintro ⟨_, raw, hrest, _, hraw⟩
            have herror := inspParse_error_iff.mpr ⟨rfl, raw, rfl, hraw⟩
            rw [← (List.cons.inj hrest).2, hic] at herror
            cases herror
      · refine iff_of_false ?_ ?_
        · rintro ⟨e, h⟩
          unfold AdminCommand.parse at h
          dsimp only at h
          rw [if_neg hinsp] at h
          repeat' split at h
          all_goals cases h
        · rintro ⟨cmd', raw, hcmd, hword, _⟩
          cases hcmd
          exact hinsp hword

theorem easy_processInsp (ic : InspCommand) : Easy (processInsp ic) := by
  cases ic with
  | raw line =>
      refine Steps.bind ?_ fun _ => steps_pure _
      unfold sendRaw
      split
      · exact easy_modify _
      · exact easy_controlResponse _
  | queryUuid uu =>
      refine Steps.bind steps_get fun l => ?_
      exact Steps.bind (Steps.forM fun _ _ => easy_controlResponse _) fun _ => steps_pure _
  | queryNickUuid qnu =>
      refine Steps.bind steps_get fun l => ?_
      exact Steps.bind (easy_controlResponse _) fun _ => steps_pure _

theorem easy_executeAdminCommand (ac : AdminCommand) :
    Easy (executeAdminCommand ac : LinkM Unit) := by
  cases ac with
  | ghost nick gc => exact Steps.bind (easy_modify _) fun _ => easy_controlResponse _
  | contact cc => exact easy_modify _
  | whatsapp wac => exact easy_modify _
  | modem mc => exact easy_modify _
  | group gc => exact easy_modify _
  | insp ic =>
      exact Steps.bind (easy_processInsp ic) fun _ => Steps.when (easy_controlResponse _)
  | help qry =>
      rw [executeAdminCommand]
      cases helpPage qry with
      | some hp => exact Steps.forM fun _ _ => easy_controlResponse _
      | none => exact easy_controlResponse _

theorem easy_processAdminCommand {msg : Str} (h : ¬ BareRaw msg) :
    Easy (processAdminCommand msg : LinkM Unit) := by
  unfold processAdminCommand
  split
  · exact steps_pure _
  · split
    · rename_i e he
      exact absurd (adminParse_error_iff.mp ⟨e, he⟩) h
    · exact easy_controlResponse _
    · exact easy_executeAdminCommand _

theorem panics_processAdminCommand {msg : Str} (h : BareRaw msg) (l : InspLink) :
    wp (processAdminCommand msg : LinkM Unit) (fun _ _ => False) (fun e _ => ¬ Calm e) l := by
  obtain ⟨e, he⟩ := adminParse_error_iff.mpr h
  obtain ⟨cmd, raw, hsplit, -⟩ := h
  have hne : msg ≠ [] := by
    rintro rfl
    simp [splitOn] at hsplit
  unfold processAdminCommand
  rw [if_neg hne, he]
  dsimp only
  rw [wp_throw, adminParse_error he]
  exact fun h => h _ rfl

theorem newFromUidLine_calm {args : List Str} {suffix : Option Str} {e : Failure}
    (h : newFromUidLine args suffix = .error e) : Calm e := by
  obtain ⟨msg, rfl⟩ := newFromUidLine_error h
  exact calm_error msg

/-- The handlers that reach an `unwrap` of nothing or an index out of bounds. -/
def Stumbles (l : InspLink) : Event → Prop
  | .remote ⟨none, .raw cmd args suffix⟩ => cmd = ("SERVER" : Str) ∧ BareServer l args suffix
  | .remote ⟨some source, .privmsg target msg⟩ =>
      adminUuid l = some source ∧ target = l.controlUuid ∧ BareRaw msg
  | .cf (.forwardCommand a (.changeNick _ _)) =>
      ∃ ct, l.contacts.lookup a = some ct ∧ l.users.lookup ct.uuid = none
  | _ => False

theorem easy_handlePrivmsg {l : InspLink} {source target msg : Str}
    (h : ¬ (adminUuid l = some source ∧ target = l.controlUuid ∧ BareRaw msg)) :
    wp (handlePrivmsg source target msg) (fun _ _ => True) (fun e _ => Calm e) l := by
  rw [handlePrivmsg, wp_bind, wp_get]
  split
  · trivial
  · rename_i hadmin
    rw [not_not] at hadmin
    split
    · rename_i htarget
      exact (easy_processAdminCommand fun hraw => h ⟨hadmin.symm, htarget, hraw⟩).wp l
    · split
      · exact (easy_modify _).wp l
      · split
        · trivial
        · split
          · trivial
          · split
            · exact (easy_modify _).wp l
            · exact (easy_modify _).wp l

theorem panics_handlePrivmsg {l : InspLink} {source msg : Str}
    (hadmin : adminUuid l = some source) (hraw : BareRaw msg) :
    wp (handlePrivmsg source l.controlUuid msg) (fun _ _ => False) (fun e _ => ¬ Calm e) l := by
  rw [handlePrivmsg, wp_bind, wp_get, if_neg (not_not.mpr hadmin.symm), if_pos rfl]
  exact panics_processAdminCommand hraw l

theorem calm_handleUid (hkeys : KeysRead) {l : InspLink} (hl : Processable l)
    (args : List Str) (suffix : Option Str) :
    wp (handleUid args suffix) (fun _ _ => True) (fun e _ => Calm e) l := by
  unfold handleUid
  split
  · rename_i e he
    exact newFromUidLine_calm he
  · refine calm_then hl trivial (sameRows_insertUser _ _) fun _ t ht => ?_
    rw [wp_bind, wp_get, wp_when]
    split
    · exact calm_processMessages hkeys ht
    · trivial

theorem easy_doQuasiburst : Easy doQuasiburst :=
  Steps.bind (easy_query _) fun _ => Steps.forM fun recip _ => easy_setupRecipient recip

theorem calm_handleEndburst (hkeys : KeysRead) {l : InspLink} (hl : Processable l)
    (source : Str) : wp (handleEndburst source) (fun _ _ => True) (fun e _ => Calm e) l := by
  rw [handleEndburst, wp_bind, wp_get, wp_when]
  split
  · refine calm_then hl (easy_doQuasiburst.wp l) sameRows_doQuasiburst fun _ t ht => ?_
    rw [wp_bind, wp_modify, onLinked, wp_bind, wp_get, wp_bind, push, wp_modify]
    exact calm_then ht (calm_processGroups _) sameRows_processGroups
      fun _ _ hu => calm_processMessages hkeys hu
  · trivial

theorem calm_handleRaw (hkeys : KeysRead) {l : InspLink} (hl : Processable l)
    (source cmd : Str) (args : List Str) (suffix : Option Str) :
    wp (handleRaw source cmd args suffix) (fun _ _ => True) (fun e _ => Calm e) l := by
  unfold handleRaw
  split
  · exact calm_handleUid hkeys hl args suffix
  split
  · cases args with
    | nil => trivial
    | cons nick rest => exact (easy_updateUser _ _).wp l
  split
  · split
    · exact (easy_modify _).wp l
    · trivial
  split
  · cases args with
    | nil => trivial
    | cons host rest => exact (easy_updateUser _ _).wp l
  split
  · exact calm_handleEndburst hkeys hl source
  · trivial

theorem calm_handleRemoteMessage (hkeys : KeysRead) {l : InspLink} (hl : Processable l)
    {m : IrcMessage} (h : ¬ Stumbles l (.remote m)) :
    wp (handleRemoteMessage m) (fun _ _ => True) (fun e _ => Calm e) l := by
  obtain ⟨prefixStr, command⟩ := m
  cases prefixStr with
  | none =>
      cases command with
      | error details => exact calm_error _
      | raw cmd args suffix =>
          change wp (when (cmd = ("SERVER" : Str)) (handleServer args suffix)) _ _ l
          rw [wp_when]
          split
          · rename_i hcmd
            exact calm_handleServer fun hbare => h ⟨hcmd, hbare⟩
          · trivial
      | _ => trivial
  | some source =>
      cases command with
      | privmsg target msg => exact easy_handlePrivmsg h
      | error details => exact calm_error _
      | kill uuid reason => exact (easy_removeUser _ _).wp l
      | quit reason => exact (easy_removeUser _ _).wp l
      | ping data dest =>
          cases dest with
          | none => exact (easy_sendSidLine _ _ _).wp l
          | some dest => exact (easy_sendSidLine _ _ _).wp l
      | squit server reason => exact (easy_modify _).wp l
      | raw cmd args suffix => exact calm_handleRaw hkeys hl source cmd args suffix
      | other params => trivial

theorem panics_handleRemoteMessage {l : InspLink} {m : IrcMessage} (h : Stumbles l (.remote m)) :
    wp (handleRemoteMessage m) (fun _ _ => False) (fun e _ => ¬ Calm e) l := by
  obtain ⟨prefixStr, command⟩ := m
  cases prefixStr with
  | none =>
      cases command with
      | raw cmd args suffix =>
          obtain ⟨rfl, hbare⟩ := h
          exact panics_handleServer hbare
      | _ => exact h.elim
  | some source =>
      cases command with
      | privmsg target msg =>
          obtain ⟨hadmin, rfl, hraw⟩ := h
          exact panics_handlePrivmsg hadmin hraw
      | _ => exact h.elim

theorem calm_changeNick {l : InspLink} {a : PduAddress} {ct : InspContact}
    (huser : (l.users.lookup ct.uuid).isSome) (st : Str) (osrc : Int) :
    wp (changeNick a ct st osrc) (fun _ _ => True) (fun e _ => Calm e) l := by
  obtain ⟨u, hu⟩ := Option.isSome_iff_exists.mp huser
  rw [changeNick, wp_bind, wp_get]
  dsimp only
  rw [hu, wp_bind, wp_unwrap_some]
  split
  · trivial
  · refine Easy.wp (Steps.bind (easy_modify _) fun _ => ?_) l
    exact Steps.bind (easy_push _ _ _ _) fun _ => easy_execute _

theorem calm_forwardCmd {l : InspLink} {a : PduAddress} {cmd : ContactManagerCommand}
    (h : ¬ Stumbles l (.cf (.forwardCommand a cmd))) :
    wp (forwardCmd a cmd) (fun _ _ => True) (fun e _ => Calm e) l := by
  rw [forwardCmd, wp_bind, wp_get]
  cases hct : l.contacts.lookup a with
  | none => trivial
  | some ct =>
      rw [Option.isSome_some, if_pos rfl]
      cases cmd with
      | updateAway text =>
          dsimp only
          rw [wp_bind, wp_unwrap_some]
          exact (easy_push _ _ _ _).wp l
      | changeNick st osrc =>
          dsimp only
          rw [wp_bind, wp_unwrap_some]
          refine calm_changeNick ?_ st osrc
          rw [Option.isSome_iff_ne_none]
          exact fun hnone => h ⟨ct, hct, hnone⟩
      | setWhatsapp wam =>
          dsimp only
          rw [wp_bind, wp_unwrap_some, wp_bind, wp_modify]
          refine calm_setWaState ?_ wam
          rw [AList.lookup_insert]
          rfl
      | _ => trivial

theorem wp_resolveNick {l : InspLink} (hl : Ledger l) (nick : Str)
    {E : Failure → InspLink → Prop} :
    wp (resolveNick nick) (fun o t => t = l ∧ ∀ a, o = some a → ∀ ct,
      l.contacts.lookup a = some ct → l.users.lookup ct.uuid ≠ none) E l := by
  rw [resolveNick, wp_bind, wp_get, wp_pure]
  refine ⟨rfl, fun a ha ct hct hnone => ?_⟩
  obtain ⟨u, hu, hfound⟩ := List.exists_of_findSome?_eq_some ha
  split at hfound
  · obtain ⟨ct', hct', huuid⟩ := hl.contact_of_uuid u.1 a hfound
    rw [hct] at hct'
    cases hct'
    have hlookup : l.users.lookup u.1 = some u.2 :=
      mem_pairs.mp (Crates.hashOrder.mem_run.mp hu)
    rw [huuid, hlookup] at hnone
    cases hnone
  · cases hfound

theorem calm_byNick {l : InspLink} (hl : Ledger l) (nick : Str) {f : PduAddress → LinkM Unit}
    (hf : ∀ a, (∀ ct, l.contacts.lookup a = some ct → l.users.lookup ct.uuid ≠ none) →
      wp (f a) (fun _ _ => True) (fun e _ => Calm e) l) :
    wp (do
      match ← resolveNick nick with
      | some a => f a
      | none => pure ()) (fun _ _ => True) (fun e _ => Calm e) l := by
  rw [wp_bind]
  refine wp_mono (wp_resolveNick hl nick) ?_ fun _ _ he => he
  rintro o _ ⟨rfl, ho⟩
  cases o with
  | some a => exact hf a (ho a rfl)
  | none => trivial

theorem calm_handleCfCommand (hkeys : KeysRead) {l : InspLink} (hledger : Ledger l)
    (hl : Processable l) {c : ContactFactoryCommand} (h : ¬ Stumbles l (.cf c)) :
    wp (handleCfCommand c) (fun _ _ => True) (fun e _ => Calm e) l := by
  cases c with
  | processMessages => exact calm_processMessages hkeys hl
  | processGroups => exact calm_processGroups l
  | setupContact a => exact (easy_setupContact a).wp l
  | queryContact a src => exact (easy_queryContact a src).wp l
  | dropContact a => exact (easy_dropContact a).wp l
  | dropContactByNick nick => exact calm_byNick hledger nick fun a _ => (easy_dropContact a).wp l
  | loadRecipients => trivial
  | forwardCommand a cmd => exact calm_forwardCmd h
  | forwardCommandByNick nick cmd =>
      refine calm_byNick hledger nick fun a ha => calm_forwardCmd ?_
      cases cmd with
      | changeNick st osrc => exact fun ⟨ct, hct, hnone⟩ => ha ct hct hnone
      | _ => exact id
  | subscribePresenceByNick nick =>
      exact calm_byNick hledger nick fun a _ => (easy_modify _).wp l
  | processAvatars => trivial

theorem panics_handleCfCommand {l : InspLink} {c : ContactFactoryCommand}
    (h : Stumbles l (.cf c)) :
    wp (handleCfCommand c) (fun _ _ => False) (fun e _ => ¬ Calm e) l := by
  cases c with
  | forwardCommand a cmd =>
      cases cmd with
      | changeNick st osrc =>
          obtain ⟨ct, hct, hnone⟩ := h
          change wp (forwardCmd a (.changeNick st osrc)) _ _ l
          rw [forwardCmd, wp_bind, wp_get, hct]
          dsimp only
          rw [Option.isSome_some, if_pos rfl, wp_bind, wp_unwrap_some, changeNick, wp_bind, wp_get]
          dsimp only
          rw [hnone, wp_bind, wp_unwrap_none]
          exact fun h => h _ rfl
      | _ => exact h.elim
  | _ => exact h.elim

theorem calm_handleCbCommand (c : ControlBotCommand) (l : InspLink) :
    wp (handleCbCommand c) (fun _ _ => True) (fun e _ => Calm e) l := by
  cases c with
  | log line => exact Easy.wp (Steps.bind steps_get fun _ => easy_push _ _ _ _) l
  | reportFailure fail =>
      refine Easy.wp (Steps.bind steps_get fun l => ?_) l
      cases adminUuid l with
      | some admu => exact easy_push _ _ _ _
      | none => exact steps_pure _
  | commandResponse resp => exact (easy_controlResponse resp).wp l
  | processGroups => exact calm_processGroups l

/-- Nothing has panicked. -/
def Unpanicked (s : Session) : Prop := ∀ site, s.outcome ≠ some (.panic site)

theorem unpanicked_perform {s : Session} {p : LinkM Unit}
    (h : wp p (fun _ _ => True) (fun e _ => Calm e) s.link) : Unpanicked (perform s p) := by
  have hout := (wp_perform (I := fun _ => True) (P := Calm) (s := s)
    (wp_mono h (fun _ _ _ => trivial) fun _ _ he => ⟨trivial, he⟩)).2
  exact fun site hsite => hout _ hsite site rfl

theorem panicked_perform {s : Session} {p : LinkM Unit}
    (h : wp p (fun _ _ => False) (fun e _ => ¬ Calm e) s.link) : ¬ Unpanicked (perform s p) := by
  unfold wp at h
  unfold Unpanicked perform
  rcases hp : exec p s.link with ⟨e | _, l⟩
  · rw [hp] at h
    intro hout
    exact h fun site heq => hout site (by rw [heq])
  · rw [hp] at h
    exact h.elim

/-- A step panics exactly if the event stumbles. -/
theorem unpanicked_next (hkeys : KeysRead) {s t : Session} {e : Event}
    (hledger : Ledger s.link) (hl : Processable s.link) (h : next s e = some t) :
    Unpanicked t ↔ ¬ Stumbles s.link e := by
  have hout : s.outcome = none := outcome_of_next h
  have hquiet : ∀ {u : Session}, u.outcome = s.outcome → (Unpanicked u ↔ ¬ False) := by
    intro u hu
    refine iff_of_true (fun site hsite => ?_) not_false
    rw [hu, hout] at hsite
    cases hsite
  have hhandled : ∀ {p : LinkM Unit} {P : Prop},
      (¬ P → wp p (fun _ _ => True) (fun e _ => Calm e) s.link) →
      (P → wp p (fun _ _ => False) (fun e _ => ¬ Calm e) s.link) →
      (Unpanicked (perform s p) ↔ ¬ P) := by
    intro p P hcalm hpanics
    exact ⟨fun hun hp => panicked_perform (hpanics hp) hun,
      fun hp => unpanicked_perform (hcalm hp)⟩
  simp only [next, hout] at h
  cases e with
  | connect =>
      simp only [step] at h
      split at h
      · cases h
        refine hhandled (fun _ => Easy.wp ?_ s.link) False.elim
        exact Steps.bind easy_doCapabAndServer fun _ => easy_modify _
      · cases h
  | remote m =>
      simp only [step] at h
      split at h
      · cases h
      · cases h
        exact hhandled (calm_handleRemoteMessage hkeys hl) panics_handleRemoteMessage
  | cb c =>
      simp only [step] at h
      split at h
      · cases h
        exact hhandled (fun _ => calm_handleCbCommand c s.link) False.elim
      · cases h
  | cf c =>
      simp only [step] at h
      split at h
      · cases h
        exact hhandled (calm_handleCfCommand hkeys hledger hl) panics_handleCfCommand
      · cases h
  | storeOp op =>
      cases h
      exact hquiet rfl
  | clock now dbNow =>
      cases h
      exact hquiet rfl

/-- A run ends without a panic exactly if none of its events stumbles. -/
theorem unpanicked_iff (hcodes : CodesRead) {cfg : InspConfig} {st : Store}
    {now : NaiveDateTime} {es : List Event} {t : Session} (hst : Filed st)
    (hes : ∀ e ∈ es, FromModem e) (hrun : run next (initial cfg st now) es = some t) :
    Unpanicked t ↔ AllSteps next (fun s e => ¬ Stumbles s.link e) (initial cfg st now) es := by
  have hstart : Unpanicked (initial cfg st now) := fun site h => by cases h
  have hiff := iff_allSteps (C := fun s e => ¬ Stumbles s.link e) (D := fun _ e => FromModem e)
    (I := fun s => Ledger s.link ∧ Filed s.link.store) (P := Unpanicked) ?_
    (allSteps_of_forall_mem (fun e he _ => hes e he) _) ⟨ledger_initial cfg st now, hst⟩ hrun
  · exact hiff.trans (and_iff_right hstart)
  · rintro s e u he ⟨hledger, hfiled⟩ hnext
    refine ⟨⟨ledger_next hledger hnext, filed_next he hfiled hnext⟩, ?_⟩
    rw [unpanicked_next hcodes.keysRead hledger (processable_of_filed hfiled) hnext, iff_and_self]
    intro _ site hsite
    rw [outcome_of_next hnext] at hsite
    cases hsite

end Panics

section Samples

attribute [local instance] Sample.crates

theorem stumbles_linking : ∀ e ∈ linking, ∀ l, ¬ Stumbles l e := by
  simp [linking, Stumbles, BareServer]

theorem unpanicked_receiving : Unpanicked receivingSession := by
  have hrun : run next sampleStart receiving = some receivingSession := (Option.some_get _).symm
  refine (unpanicked_iff codesRead filed_sampleStore (fun e he => ?_) hrun).mpr
    (allSteps_of_forall_mem (fun e he s => ?_) _)
  · exact fromModem_of_wholesome (wholesome_receiving e he receivingSession)
  · rcases List.mem_append.mp he with he | he
    · exact stumbles_linking e he s.link
    · simp only [List.mem_cons, List.not_mem_nil, or_false] at he
      rcases he with rfl | rfl
      all_goals exact id

/-- The first lines of a link on which the other server does not describe itself. -/
def undescribed : List Event :=
  [.connect, .remote ⟨none, .raw ("SERVER" : Str)
    [("irc.example" : Str), ("receive" : Str), ("0" : Str), ("00B" : Str)] none⟩]

/-- A `SERVER` line without a description makes the link panic. -/
theorem undescribed_panics : ¬ ∀ (es : List Event) (t : Session), (∀ e ∈ es, FromModem e) →
    run next sampleStart es = some t → Unpanicked t := by
  intro h
  have hfrom : ∀ e ∈ undescribed, FromModem e := by simp [undescribed, FromModem]
  have hout : ((run next sampleStart undescribed).bind Session.outcome) =
      some (.panic .serverSuffix) := by decide +kernel
  cases hrun : run next sampleStart undescribed with
  | none =>
      rw [hrun] at hout
      cases hout
  | some t =>
      rw [hrun] at hout
      exact h undescribed t hfrom hrun _ hout

end Samples

end SmsIrc.LinkPanics
