import SmsIrc.LinkRuns
import SmsIrc.SenderRuns

/-!
The bookkeeping of ghosts: the two contact maps, the user map and the table of
recipients agree in every state of a run.
-/

namespace SmsIrc.LinkGhosts

open SmsIrc.Comm SmsIrc.ContactCommon SmsIrc.ControlCommands SmsIrc.Database
open SmsIrc.External SmsIrc.HashMaps SmsIrc.InspUsers SmsIrc.Link SmsIrc.LinkRuns
open SmsIrc.Models SmsIrc.Program SmsIrc.SenderCommon SmsIrc.SenderRuns
open SmsIrc.SerialTable SmsIrc.Text SmsIrc.Transition SmsIrc.Util

theorem uuidOf_injective {sid : Str} {m n : Nat} (h : uuidOf sid m = uuidOf sid n) :
    m = n :=
  zeroPadded_injective (List.cons_inj_right _ |>.mp (List.append_cancel_left h))

section Ghosts

variable [Crates]

/-- A key of the database that was made from an address that reads back. -/
def Readable (phoneNumber : Str) : Prop :=
  ∃ a : PduAddress, ReadsBack a ∧ phoneNumber = normalizeAddress a

/-- All addresses in the database read back. -/
structure Known (st : Store) : Prop where
  recipients : ∀ r ∈ st.recipients.rows, Readable r.phoneNumber
  messages : ∀ m ∈ st.messages.rows, Readable m.phoneNumber

/-- An address has a row in `recipients`. -/
def HasRecipient (st : Store) (a : PduAddress) : Prop :=
  ∃ r ∈ st.recipients.rows, r.phoneNumber = normalizeAddress a

/-- What holds of the ghosts in every reachable state. -/
structure GhostInv (l : InspLink) : Prop where
  uuidOf_contact : ∀ a ct, l.contacts.lookup a = some ct →
    l.contactsUuidPdua.lookup ct.uuid = some a
  contact_of_uuid : ∀ u a, l.contactsUuidPdua.lookup u = some a →
    ∃ ct, l.contacts.lookup a = some ct ∧ ct.uuid = u
  user_of_uuid : ∀ u a, l.contactsUuidPdua.lookup u = some a → u ∈ l.users
  recipient : ∀ a ct, l.contacts.lookup a = some ct → HasRecipient l.store a
  readsBack : ∀ a ct, l.contacts.lookup a = some ct → ReadsBack a
  issued_of_uuid : ∀ u a, l.contactsUuidPdua.lookup u = some a → u ∈ l.issued
  issued : l.issued = (List.range' 1 (l.nextUserId - 1)).map (uuidOf l.cfg.sid)
  next : 1 ≤ l.nextUserId
  control : l.controlUuid = l.cfg.sid ++ ("A00000" : Str)
  known : Known l.store

/-- The failures that the bookkeeping does not rule out. -/
def Ordinary : Failure → Prop
  | .missingRecipient => False
  | .panic .forwardCmdContact => False
  | .panic .forwardCmdUser => False
  | .panic .setWaStateContact => False
  | .panic .processGroupsContact => False
  | .panic .processMessagesContact => False
  | _ => True

/-- A use of the database that the bookkeeping does not notice. -/
structure StoreQuiet (st st' : Store) : Prop where
  recipients : ∀ a, HasRecipient st a → HasRecipient st' a
  known : Known st → Known st'

/-- A step that the bookkeeping does not notice. -/
structure Quiet (s t : InspLink) : Prop where
  cfg : t.cfg = s.cfg
  controlUuid : t.controlUuid = s.controlUuid
  nextUserId : t.nextUserId = s.nextUserId
  issued : t.issued = s.issued
  contacts : ∀ a, (t.contacts.lookup a).map InspContact.uuid =
    (s.contacts.lookup a).map InspContact.uuid
  ghosts : t.contactsUuidPdua = s.contactsUuidPdua
  users : ∀ u ∈ s.users, u ∈ t.users
  store : StoreQuiet s.store t.store

theorem storeQuiet_refl (st : Store) : StoreQuiet st st := ⟨fun _ h => h, fun h => h⟩

theorem storeQuiet_trans (s t u : Store) (hst : StoreQuiet s t) (htu : StoreQuiet t u) :
    StoreQuiet s u :=
  ⟨fun a h => htu.recipients a (hst.recipients a h), fun h => htu.known (hst.known h)⟩

theorem quiet_refl (l : InspLink) : Quiet l l :=
  ⟨rfl, rfl, rfl, rfl, fun _ => rfl, rfl, fun _ h => h, storeQuiet_refl _⟩

theorem quiet_trans (s t u : InspLink) (hst : Quiet s t) (htu : Quiet t u) : Quiet s u where
  cfg := htu.cfg.trans hst.cfg
  controlUuid := htu.controlUuid.trans hst.controlUuid
  nextUserId := htu.nextUserId.trans hst.nextUserId
  issued := htu.issued.trans hst.issued
  contacts a := (htu.contacts a).trans (hst.contacts a)
  ghosts := htu.ghosts.trans hst.ghosts
  users v hv := htu.users v (hst.users v hv)
  store := storeQuiet_trans _ _ _ hst.store htu.store

theorem Quiet.contact {s t : InspLink} (h : Quiet s t) {a : PduAddress} {ct : InspContact}
    (hct : t.contacts.lookup a = some ct) :
    ∃ ct', s.contacts.lookup a = some ct' ∧ ct'.uuid = ct.uuid := by
  have heq := h.contacts a
  rw [hct] at heq
  exact Option.map_eq_some_iff.mp heq.symm

theorem Quiet.contact_isSome {s t : InspLink} (h : Quiet s t) (a : PduAddress) :
    (t.contacts.lookup a).isSome = (s.contacts.lookup a).isSome := by
  have heq := congrArg Option.isSome (h.contacts a)
  simpa using heq

theorem ghostInv_of_quiet (s t : InspLink) (h : GhostInv s) (hq : Quiet s t) : GhostInv t where
  uuidOf_contact a ct hct := by
    obtain ⟨ct', hct', huuid⟩ := hq.contact hct
    rw [hq.ghosts, ← huuid]
    exact h.uuidOf_contact a ct' hct'
  contact_of_uuid u a hu := by
    rw [hq.ghosts] at hu
    obtain ⟨ct, hct, huuid⟩ := h.contact_of_uuid u a hu
    have heq := hq.contacts a
    rw [hct] at heq
    obtain ⟨ct', hct', huuid'⟩ := Option.map_eq_some_iff.mp heq
    exact ⟨ct', hct', huuid'.trans huuid⟩
  user_of_uuid u a hu := by
    rw [hq.ghosts] at hu
    exact hq.users u (h.user_of_uuid u a hu)
  recipient a ct hct := by
    obtain ⟨ct', hct', _⟩ := hq.contact hct
    exact hq.store.recipients a (h.recipient a ct' hct')
  readsBack a ct hct := by
    obtain ⟨ct', hct', _⟩ := hq.contact hct
    exact h.readsBack a ct' hct'
  issued_of_uuid u a hu := by
    rw [hq.ghosts] at hu
    rw [hq.issued]
    exact h.issued_of_uuid u a hu
  issued := by
    rw [hq.issued, hq.nextUserId, hq.cfg]
    exact h.issued
  next := by
    rw [hq.nextUserId]
    exact h.next
  control := by
    rw [hq.controlUuid, hq.cfg]
    exact h.control
  known := hq.store.known h.known

instance : IsPreorder Store StoreQuiet where
  refl := storeQuiet_refl
  trans := storeQuiet_trans

instance : IsPreorder InspLink Quiet where
  refl := quiet_refl
  trans := quiet_trans

/-- A use of the database that leaves `recipients` alone and adds no message. -/
theorem storeQuiet_of_rows {st st' : Store} (hr : st'.recipients.rows = st.recipients.rows)
    (hm : ∀ m ∈ st'.messages.rows, m ∈ st.messages.rows) : StoreQuiet st st' := by
  refine ⟨?_, fun h => ⟨?_, fun m hm' => h.messages m (hm m hm')⟩⟩
  · rintro a ⟨r, hrow, hnum⟩
    exact ⟨r, by rwa [hr], hnum⟩
  · rw [hr]
    exact h.recipients

theorem quiet_query {α : Type} (f : Store → α) : Steps StoreQuiet Ordinary (query f) := by
  intro st
  exact wp_query_of ⟨storeQuiet_of_rows rfl fun _ h => h, trivial⟩
    (storeQuiet_of_rows rfl fun _ h => h)

theorem quiet_updateRecipient (addr : PduAddress) (f : Recipient → Recipient)
    (hf : ∀ r, (f r).id = r.id) (hnum : ∀ r, (f r).phoneNumber = r.phoneNumber) :
    Steps StoreQuiet Ordinary (updateRecipient addr f hf) := by
  intro st
  apply wp_execute_of ⟨storeQuiet_of_rows rfl fun _ h => h, trivial⟩
  have hsame : ∀ r : Recipient,
      (if r.phoneNumber = normalizeAddress addr then f r else r).phoneNumber =
        r.phoneNumber := by
    intro r
    split
    · exact hnum r
    · rfl
  refine ⟨?_, fun h => ⟨?_, h.messages⟩⟩
  · rintro a ⟨r, hr, ha⟩
    exact ⟨_, List.mem_map_of_mem hr, (hsame r).trans ha⟩
  · intro r hr
    obtain ⟨r', hr', rfl⟩ := List.mem_map.mp hr
    rw [hsame]
    exact h.recipients r' hr'

theorem quiet_deleteMessage (id : Nat) : Steps StoreQuiet Ordinary (deleteMessage id) := by
  refine Steps.bind (quiet_query _) fun present => ?_
  split
  · exact steps_modify fun st => storeQuiet_of_rows rfl fun m hm => List.mem_of_mem_filter hm
  · exact steps_throw trivial

theorem quiet_getGroupById (g : Nat) : Steps StoreQuiet Ordinary (getGroupById g) := by
  refine Steps.bind (quiet_query _) fun grp => ?_
  cases grp with
  | some grp => exact steps_pure grp
  | none => exact steps_throw trivial

theorem quiet_store {α : Type} {p : StoreM α} (h : Steps StoreQuiet Ordinary p) :
    Steps Quiet Ordinary (store p : LinkM α) :=
  h.zoom fun _ _ hst => ⟨rfl, rfl, rfl, rfl, fun _ => rfl, rfl, fun _ hu => hu, hst⟩

theorem quiet_of_eq {s t : InspLink} (hcfg : t.cfg = s.cfg)
    (hcontrol : t.controlUuid = s.controlUuid) (hnext : t.nextUserId = s.nextUserId)
    (hissued : t.issued = s.issued) (hcontacts : t.contacts = s.contacts)
    (hghosts : t.contactsUuidPdua = s.contactsUuidPdua) (husers : t.users = s.users)
    (hstore : t.store = s.store) : Quiet s t where
  cfg := hcfg
  controlUuid := hcontrol
  nextUserId := hnext
  issued := hissued
  contacts _ := by rw [hcontacts]
  ghosts := hghosts
  users _ hu := by rwa [husers]
  store := hstore ▸ storeQuiet_refl _

theorem quiet_send (m : IrcMessage) : Steps Quiet Ordinary (send m) :=
  steps_modify fun _ => quiet_of_eq rfl rfl rfl rfl rfl rfl rfl rfl

theorem quiet_push (prefixStr : Str) (cmd : String) (args : List Str) (suffix : Option Str) :
    Steps Quiet Ordinary (push prefixStr cmd args suffix) :=
  steps_modify fun _ => quiet_of_eq rfl rfl rfl rfl rfl rfl rfl rfl

theorem quiet_sendSidLine (cmd : String) (args : List Str) (suffix : Option Str) :
    Steps Quiet Ordinary (sendSidLine cmd args suffix) :=
  Steps.bind steps_get fun _ => quiet_push _ _ _ _

theorem quiet_waSend (c : WhatsappCommand) : Steps Quiet Ordinary (waSend c) :=
  steps_modify fun _ => quiet_of_eq rfl rfl rfl rfl rfl rfl rfl rfl

theorem quiet_mSend (c : ModemCommand) : Steps Quiet Ordinary (mSend c) :=
  steps_modify fun _ => quiet_of_eq rfl rfl rfl rfl rfl rfl rfl rfl

theorem quiet_cfSend (c : ContactFactoryCommand) : Steps Quiet Ordinary (cfSend c) :=
  steps_modify fun _ => quiet_of_eq rfl rfl rfl rfl rfl rfl rfl rfl

theorem quiet_cbSend (c : ControlBotCommand) : Steps Quiet Ordinary (cbSend c) :=
  steps_modify fun _ => quiet_of_eq rfl rfl rfl rfl rfl rfl rfl rfl

theorem quiet_joinChannel (ch : Str) : Steps Quiet Ordinary (joinChannel ch) :=
  steps_modify fun _ => quiet_of_eq rfl rfl rfl rfl rfl rfl rfl rfl

theorem quiet_insertUser (uuid : Str) (user : InspUser) :
    Steps Quiet Ordinary (insertUser uuid user) := by
  refine steps_modify fun l => ⟨rfl, rfl, rfl, rfl, fun _ => rfl, rfl, ?_, storeQuiet_refl _⟩
  intro u hu
  exact AList.mem_insert _ |>.mpr (.inr hu)

theorem quiet_updateUser (uuid : Str) (f : InspUser → InspUser) :
    Steps Quiet Ordinary (updateUser uuid f) := by
  refine steps_modify fun l => ?_
  cases l.users.lookup uuid with
  | none => exact quiet_refl l
  | some user =>
      refine ⟨rfl, rfl, rfl, rfl, fun _ => rfl, rfl, ?_, storeQuiet_refl _⟩
      intro u hu
      exact AList.mem_insert _ |>.mpr (.inr hu)

theorem quiet_insertContact {l : InspLink} {a : PduAddress} {ct ct' : InspContact}
    (hct : l.contacts.lookup a = some ct) (huuid : ct'.uuid = ct.uuid) :
    Quiet l { l with contacts := l.contacts.insert a ct' } := by
  refine ⟨rfl, rfl, rfl, rfl, ?_, rfl, fun _ hu => hu, storeQuiet_refl _⟩
  intro b
  change ((l.contacts.insert a ct').lookup b).map _ = _
  rw [lookup_insert]
  split
  · rename_i h
    subst h
    rw [hct, Option.map_some, Option.map_some, huuid]
  · rfl

theorem quiet_contactMessage (uid : Str) (kind : String) (target message : Str) :
    Steps Quiet Ordinary (contactMessage uid kind target message) := by
  refine Steps.bind steps_get fun l => ?_
  split
  · exact steps_throw trivial
  · split
    · exact steps_throw trivial
    · exact quiet_push _ _ _ _

theorem quiet_controlResponse (msg : Str) : Steps Quiet Ordinary (controlResponse msg) := by
  refine Steps.bind steps_get fun l => ?_
  cases adminUuid l with
  | some admu => exact quiet_push _ _ _ _
  | none => exact steps_pure _

theorem senderSteps_quiet : SenderSteps InspLink Quiet Ordinary where
  record _ := steps_modify fun _ => quiet_of_eq rfl rfl rfl rfl rfl rfl rfl rfl
  getGroupById g := quiet_store (quiet_getGroupById g)
  getAllConcatenated _ _ := quiet_store (quiet_query _)
  deleteMessage id := quiet_store (quiet_deleteMessage id)
  reportError _ _ := Steps.bind steps_get fun _ => quiet_contactMessage _ _ _ _
  privateTarget := Steps.bind steps_get fun _ => steps_pure _
  sendIrcMessage _ _ _ := quiet_contactMessage _ _ _ _
  ensureJoined ch := by
    refine Steps.bind steps_get fun l => ?_
    split
    · cases adminUuid l with
      | some admu => exact quiet_sendSidLine _ _ _
      | none => exact steps_pure _
    · exact steps_pure _
  utcNow := Steps.bind steps_get fun _ => steps_pure _
  error _ := trivial
  messageText := trivial
  concatenatedPdu := trivial
  concatenatedHeader := trivial

theorem wp_store {α : Type} {p : StoreM α} {Q : α → InspLink → Prop}
    {E : Failure → InspLink → Prop} {l : InspLink} :
    wp (store p) Q E l ↔
      wp p (fun a st => Q a { l with store := st }) (fun e st => E e { l with store := st })
        l.store := wp_zoom p

theorem find?_recipient {st : Store} {a : PduAddress} (h : HasRecipient st a) :
    ∃ r, st.recipients.rows.find? (fun r => r.phoneNumber = normalizeAddress a) = some r := by
  obtain ⟨r, hr, hnum⟩ := h
  rw [← Option.isSome_iff_exists, List.find?_isSome]
  exact ⟨r, hr, by simpa using hnum⟩

theorem wp_getGroupsForRecipient {st : Store} {a : PduAddress} (h : HasRecipient st a) :
    wp (getGroupsForRecipient a) (fun _ st' => StoreQuiet st st')
      (fun e st' => StoreQuiet st st' ∧ Ordinary e) st := by
  rw [getGroupsForRecipient, wp_bind]
  apply wp_query_of ⟨storeQuiet_of_rows rfl fun _ h => h, trivial⟩
  obtain ⟨r, hr⟩ := find?_recipient h
  rw [Store.tick_recipients, hr]
  exact (quiet_query _).after (storeQuiet_of_rows rfl fun _ h => h)

/-- Joining and leaving channels is quiet, for an address that has a contact. -/
theorem quiet_processGroupsForRecipient {l : InspLink} {a : PduAddress} (hinv : GhostInv l)
    (ha : (l.contacts.lookup a).isSome) :
    wp (processGroupsForRecipient a) (fun _ t => Quiet l t)
      (fun e t => Quiet l t ∧ Ordinary e) l := by
  obtain ⟨ct, hct⟩ := Option.isSome_iff_exists.mp ha
  rw [processGroupsForRecipient, wp_bind, wp_get]
  dsimp only
  rw [hct, wp_bind, wp_unwrap_some, wp_bind, wp_store]
  have hgroups := wp_getGroupsForRecipient (hinv.recipient a ct hct)
  have hstore : ∀ st, StoreQuiet l.store st → Quiet l { l with store := st } :=
    fun st hst => ⟨rfl, rfl, rfl, rfl, fun _ => rfl, rfl, fun _ hu => hu, hst⟩
  refine wp_mono hgroups ?_ fun e st he => ⟨hstore st he.1, he.2⟩
  intro grps st hst
  rw [wp_bind]
  have hjoins : Steps Quiet Ordinary (forM grps fun grp => do
      push ct.uuid "JOIN" [grp.channel] none
      joinChannel grp.channel) :=
    Steps.forM fun grp _ => Steps.bind (quiet_push _ _ _ _) fun _ => quiet_joinChannel _
  refine wp_mono (hjoins.after (hstore st hst)) ?_ fun _ _ he => he
  intro _ u hu
  rw [wp_bind]
  refine wp_mono ((Steps.when (quiet_push _ _ _ _)).after hu) ?_ fun _ _ he => he
  intro _ v hv
  rw [wp_bind]
  refine wp_mono ((Steps.forM fun ch _ => Steps.when (quiet_push _ _ _ _)).after hv) ?_
    fun _ _ he => he
  intro _ w hw
  have hcontact := hw.contacts a
  rw [hct] at hcontact
  obtain ⟨ct', hct', huuid⟩ := Option.map_eq_some_iff.mp hcontact
  exact quiet_trans _ _ _ hw (quiet_insertContact hct' huuid.symm)

theorem quiet_setWaState {l : InspLink} {a : PduAddress} {wa : Bool}
    (ha : (l.contacts.lookup a).isSome) :
    wp (setWaState a wa) (fun _ t => Quiet l t) (fun e t => Quiet l t ∧ Ordinary e) l := by
  obtain ⟨ct, hct⟩ := Option.isSome_iff_exists.mp ha
  rw [setWaState, wp_bind, wp_get]
  dsimp only
  rw [hct, wp_bind, wp_unwrap_some, wp_bind, wp_modify]
  have hmode : Quiet l { l with contacts := l.contacts.insert a { ct with waMode := wa } } :=
    quiet_insertContact hct rfl
  have hrest : Steps Quiet Ordinary (do
      store (updateRecipientWa a wa)
      push ct.uuid "FHOST" [hostForWa l wa] none
      updateUser ct.uuid fun user => { user with displayedHostname := hostForWa l wa }) := by
    refine Steps.bind (quiet_store (quiet_updateRecipient _ _ _ fun _ => rfl)) fun _ => ?_
    exact Steps.bind (quiet_push _ _ _ _) fun _ => quiet_updateUser _ _
  exact hrest.after hmode

theorem quiet_changeNick {l : InspLink} {a : PduAddress} {ct : InspContact} {st : Str}
    {src : Int} (huser : ct.uuid ∈ l.users) :
    wp (changeNick a ct st src) (fun _ t => Quiet l t)
      (fun e t => Quiet l t ∧ Ordinary e) l := by
  obtain ⟨u, hu⟩ := mem_iff_lookup.mp huser
  rw [changeNick, wp_bind, wp_get]
  dsimp only
  rw [hu, wp_bind, wp_unwrap_some]
  split
  · exact quiet_refl l
  · have hrest : ∀ nick src, Steps Quiet Ordinary (do
        insertUser ct.uuid { u with nick := nick }
        push ct.uuid "NICK" [nick, decimalInt (timestamp l.now)] none
        store (updateRecipientNick a nick src)) := by
      intro nick src
      refine Steps.bind (quiet_insertUser _ _) fun _ => ?_
      refine Steps.bind (quiet_push _ _ _ _) fun _ => ?_
      exact quiet_store (quiet_updateRecipient _ _ _ fun _ => rfl)
    exact hrest _ _ l

theorem preserves_forwardCmd (a : PduAddress) (cmd : ContactManagerCommand) :
    Preserves GhostInv Ordinary (forwardCmd a cmd) := by
  intro l hinv
  have hkeep : ∀ {p : LinkM Unit},
      wp p (fun _ t => Quiet l t) (fun e t => Quiet l t ∧ Ordinary e) l →
      wp p (fun _ t => GhostInv t) (fun e t => GhostInv t ∧ Ordinary e) l :=
    fun h => wp_mono h (fun _ t ht => ghostInv_of_quiet l t hinv ht)
      fun _ t ht => ⟨ghostInv_of_quiet l t hinv ht.1, ht.2⟩
  apply hkeep
  rw [forwardCmd, wp_bind, wp_get]
  split
  · rename_i ha
    obtain ⟨ct, hct⟩ := Option.isSome_iff_exists.mp ha
    cases cmd with
    | processMessages => exact quiet_refl l
    | processGroups => exact quiet_refl l
    | updateAway text =>
        simp only [hct, wp_bind, wp_unwrap_some]
        exact quiet_push _ _ _ _ l
    | changeNick st osrc =>
        simp only [hct, wp_bind, wp_unwrap_some]
        exact quiet_changeNick (hinv.user_of_uuid _ _ (hinv.uuidOf_contact a ct hct))
    | setWhatsapp wam =>
        simp only [hct, wp_bind, wp_unwrap_some, wp_modify]
        have hmode : Quiet l
            { l with contacts := l.contacts.insert a { ct with waMode := wam } } :=
          quiet_insertContact hct rfl
        refine wp_mono (quiet_setWaState ?_) (fun _ t ht => quiet_trans _ _ _ hmode ht)
          fun _ t ht => ⟨quiet_trans _ _ _ hmode ht.1, ht.2⟩
        rw [hmode.contact_isSome]
        exact ha
  · exact quiet_refl l

theorem wp_getUuid {l : InspLink} (hinv : GhostInv l) :
    wp getUuid
      (fun uuid t => GhostInv t ∧ uuid ∈ t.issued ∧ t.contactsUuidPdua.lookup uuid = none ∧
        t.contacts = l.contacts ∧ t.store = l.store)
      (fun e t => GhostInv t ∧ Ordinary e) l := by
  rw [getUuid, wp_bind, wp_get]
  split
  · exact ⟨hinv, trivial⟩
  · have hnext := hinv.next
    have hissued : l.issued ++ [uuidOf l.cfg.sid l.nextUserId] =
        (List.range' 1 (l.nextUserId + 1 - 1)).map (uuidOf l.cfg.sid) := by
      have hlen : l.nextUserId + 1 - 1 = l.nextUserId - 1 + 1 := by omega
      have hlast : 1 + (l.nextUserId - 1) = l.nextUserId := by omega
      rw [hinv.issued, hlen, List.range'_1_concat, List.map_append, hlast]
      rfl
    refine ⟨?_, by simp, ?_, rfl, rfl⟩
    · exact
        { uuidOf_contact := hinv.uuidOf_contact
          contact_of_uuid := hinv.contact_of_uuid
          user_of_uuid := hinv.user_of_uuid
          recipient := hinv.recipient
          readsBack := hinv.readsBack
          issued_of_uuid := fun u a hu => List.mem_append_left _ (hinv.issued_of_uuid u a hu)
          issued := hissued
          next := by
            change 1 ≤ l.nextUserId + 1
            omega
          control := hinv.control
          known := hinv.known }
    · change l.contactsUuidPdua.lookup _ = none
      rw [Option.eq_none_iff_forall_ne_some]
      intro a ha
      have hold := hinv.issued_of_uuid _ a ha
      rw [hinv.issued, List.mem_map] at hold
      obtain ⟨n, hn, heq⟩ := hold
      have := uuidOf_injective heq
      rw [List.mem_range'_1] at hn
      omega

theorem wp_newUser {l : InspLink} (hinv : GhostInv l) (user : InspUser) :
    wp (newUser user)
      (fun uuid t => GhostInv t ∧ uuid ∈ t.issued ∧ t.contactsUuidPdua.lookup uuid = none ∧
        uuid ∈ t.users ∧ t.contacts = l.contacts ∧ t.store = l.store)
      (fun e t => GhostInv t ∧ Ordinary e) l := by
  rw [newUser, wp_bind]
  refine wp_mono (wp_getUuid hinv) ?_ fun _ _ he => he
  rintro uuid t ⟨ht, hissued, hfresh, hcontacts, hstore⟩
  rw [wp_bind, insertUser, wp_modify, wp_bind, makeUidLine, wp_bind, wp_get]
  have huser : (t.users.insert uuid user).lookup uuid = some user := AList.lookup_insert _
  dsimp only
  rw [huser]
  refine ⟨?_, hissued, hfresh, ?_, hcontacts, hstore⟩
  · exact ghostInv_of_quiet _ _ (ghostInv_of_quiet _ _ ht ((quiet_insertUser uuid user).exec t))
      ((quiet_send _).exec _)
  · exact AList.mem_insert _ |>.mpr (.inl rfl)

theorem ghostInv_addContact {l : InspLink} (hinv : GhostInv l) {a : PduAddress}
    (ct : InspContact) (hcontact : l.contacts.lookup a = none)
    (huuid : l.contactsUuidPdua.lookup ct.uuid = none) (huser : ct.uuid ∈ l.users)
    (hissued : ct.uuid ∈ l.issued) (hrec : HasRecipient l.store a) (hread : ReadsBack a) :
    GhostInv { l with
      contacts := l.contacts.insert a ct
      contactsUuidPdua := l.contactsUuidPdua.insert ct.uuid a } where
  uuidOf_contact b ct' hb := by
    change (l.contacts.insert a ct).lookup b = _ at hb
    change (l.contactsUuidPdua.insert ct.uuid a).lookup ct'.uuid = _
    rw [lookup_insert] at hb ⊢
    split at hb
    · cases hb
      rename_i h
      rw [if_pos rfl, h]
    · rename_i h
      have hold := hinv.uuidOf_contact b ct' hb
      have hne : ct'.uuid ≠ ct.uuid := by
        intro he
        rw [he, huuid] at hold
        cases hold
      rw [if_neg hne]
      exact hold
  contact_of_uuid u b hu := by
    change (l.contactsUuidPdua.insert ct.uuid a).lookup u = _ at hu
    change ∃ ct', (l.contacts.insert a ct).lookup b = some ct' ∧ _
    rw [lookup_insert] at hu ⊢
    split at hu
    · cases hu
      rename_i h
      exact ⟨ct, if_pos rfl, h.symm⟩
    · obtain ⟨ct', hct', he⟩ := hinv.contact_of_uuid u b hu
      have hne : b ≠ a := by
        rintro rfl
        rw [hcontact] at hct'
        cases hct'
      exact ⟨ct', by rw [if_neg hne, hct'], he⟩
  user_of_uuid u b hu := by
    change (l.contactsUuidPdua.insert ct.uuid a).lookup u = _ at hu
    rw [lookup_insert] at hu
    split at hu
    · rename_i h
      exact h ▸ huser
    · exact hinv.user_of_uuid u b hu
  recipient b ct' hb := by
    change (l.contacts.insert a ct).lookup b = _ at hb
    rw [lookup_insert] at hb
    split at hb
    · rename_i h
      exact h ▸ hrec
    · exact hinv.recipient b ct' hb
  readsBack b ct' hb := by
    change (l.contacts.insert a ct).lookup b = _ at hb
    rw [lookup_insert] at hb
    split at hb
    · rename_i h
      exact h ▸ hread
    · exact hinv.readsBack b ct' hb
  issued_of_uuid u b hu := by
    change (l.contactsUuidPdua.insert ct.uuid a).lookup u = _ at hu
    rw [lookup_insert] at hu
    split at hu
    · rename_i h
      exact h ▸ hissued
    · exact hinv.issued_of_uuid u b hu
  issued := hinv.issued
  next := hinv.next
  control := hinv.control
  known := hinv.known

theorem quiet_nickFor (recip : Recipient) (addr : PduAddress) :
    Steps Quiet Ordinary (nickFor recip addr) := by
  refine Steps.bind steps_get fun l => ?_
  cases checkNickForCollisions l recip.nick with
  | none => exact steps_pure _
  | some n =>
      exact Steps.bind (quiet_store (quiet_updateRecipient _ _ _ fun _ => rfl))
        fun _ => steps_pure _

theorem wp_setupContactFor {l : InspLink} (hinv : GhostInv l) {recip : Recipient}
    {a : PduAddress} (hcontact : l.contacts.lookup a = none)
    (hrec : HasRecipient l.store a) (hread : ReadsBack a) :
    wp (setupContactFor recip a)
      (fun _ t => GhostInv t ∧ (t.contacts.lookup a).isSome ∧ StoreQuiet l.store t.store)
      (fun e t => GhostInv t ∧ Ordinary e) l := by
  rw [setupContactFor, wp_bind]
  refine wp_mono (quiet_nickFor recip a l) ?_
    fun _ t ht => ⟨ghostInv_of_quiet l t hinv ht.1, ht.2⟩
  intro nick t ht
  have hinvt := ghostInv_of_quiet l t hinv ht
  rw [wp_bind, wp_get, wp_bind]
  refine wp_mono (wp_newUser hinvt _) ?_ fun _ _ he => he
  rintro uuid u ⟨hu, hissued, hfresh, huser, hcontacts, hstore⟩
  have habsent : u.contacts.lookup a = none := by
    have h := ht.contact_isSome a
    rw [hcontact] at h
    rw [hcontacts]
    exact Option.not_isSome_iff_eq_none.mp (by simp [h])
  have hquiet : StoreQuiet l.store u.store := hstore ▸ ht.store
  have hrecu : HasRecipient u.store a := hquiet.recipients a hrec
  rw [wp_bind, addContact, wp_modify]
  have hadd := ghostInv_addContact hu ⟨uuid, [], recip.whatsapp⟩ habsent hfresh huser
    hissued hrecu hread
  have hpresent : ((u.contacts.insert a ⟨uuid, [], recip.whatsapp⟩).lookup a).isSome := by
    rw [AList.lookup_insert]
    rfl
  rw [wp_when]
  split
  · refine wp_mono (quiet_processGroupsForRecipient hadd hpresent) ?_
      fun _ v hv => ⟨ghostInv_of_quiet _ v hadd hv.1, hv.2⟩
    intro _ v hv
    refine ⟨ghostInv_of_quiet _ v hadd hv, ?_, storeQuiet_trans _ _ _ hquiet hv.store⟩
    rw [hv.contact_isSome]
    exact hpresent
  · exact ⟨hadd, hpresent, hquiet⟩

theorem getAddr_ok {σ : Type} {phone : Str} {a : PduAddress} (hread : ReadsBack a)
    (hphone : phone = normalizeAddress a) :
    (Models.getAddr phone : Prog Failure σ PduAddress) = pure a := by
  rw [Models.getAddr, hphone, hread]

theorem wp_setupRecipient {l : InspLink} (hinv : GhostInv l) {recip : Recipient}
    {a : PduAddress} (hread : ReadsBack a) (hphone : recip.phoneNumber = normalizeAddress a)
    (hrec : HasRecipient l.store a) :
    wp (setupRecipient recip)
      (fun _ t => GhostInv t ∧ (t.contacts.lookup a).isSome ∧ StoreQuiet l.store t.store)
      (fun e t => GhostInv t ∧ Ordinary e) l := by
  rw [setupRecipient, Recipient.getAddr, getAddr_ok hread hphone, wp_bind, wp_pure, wp_bind]
  change wp (hasContact a) _ _ _
  rw [hasContact, wp_bind, wp_get, wp_pure, wp_when]
  cases hcontact : l.contacts.lookup a with
  | none => exact wp_setupContactFor hinv hcontact hrec hread
  | some ct => exact ⟨hinv, rfl, storeQuiet_refl _⟩

theorem wp_getRecipientByAddr {l : InspLink} (hinv : GhostInv l) (a : PduAddress) :
    wp (store (getRecipientByAddrOpt a) : LinkM (Option Recipient))
      (fun r t => GhostInv t ∧ ∀ recip ∈ r,
        recip.phoneNumber = normalizeAddress a ∧ HasRecipient t.store a)
      (fun e t => GhostInv t ∧ Ordinary e) l := by
  have htick : GhostInv { l with store := l.store.tick } :=
    ghostInv_of_quiet l _ hinv
      ⟨rfl, rfl, rfl, rfl, fun _ => rfl, rfl, fun _ hu => hu, storeQuiet_of_rows rfl fun _ h => h⟩
  rw [wp_store]
  refine wp_query_of ⟨htick, trivial⟩ ⟨htick, ?_⟩
  intro recip hr
  have hnum : recip.phoneNumber = normalizeAddress a := by
    simpa using List.find?_some hr
  exact ⟨hnum, recip, List.mem_of_find?_eq_some hr, hnum⟩

theorem preserves_setupContact {a : PduAddress} (hread : ReadsBack a) :
    Preserves GhostInv Ordinary (setupContact a : LinkM Unit) := by
  intro l hinv
  rw [setupContact, wp_bind]
  refine wp_mono (wp_getRecipientByAddr hinv a) ?_ fun _ _ he => he
  rintro r t ⟨ht, hr⟩
  cases r with
  | none => exact ht
  | some recip =>
      obtain ⟨hphone, hrec⟩ := hr recip rfl
      exact wp_mono (wp_setupRecipient ht hread hphone hrec) (fun _ _ h => h.1) fun _ _ he => he

theorem quiet_requestCreation (a : PduAddress) (src : Nat) :
    Steps Quiet Ordinary (requestCreation a src : LinkM Unit) := by
  unfold requestCreation
  split
  · exact quiet_mSend _
  · split
    · exact quiet_waSend _
    · exact steps_pure _

theorem wp_requestContact {l : InspLink} (hinv : GhostInv l) {a : PduAddress}
    (hread : ReadsBack a) (src : Nat) :
    wp (requestContact a src : LinkM Bool)
      (fun ready t => GhostInv t ∧ (ready = true → (t.contacts.lookup a).isSome))
      (fun e t => GhostInv t ∧ Ordinary e) l := by
  rw [requestContact, wp_bind]
  refine wp_mono (wp_getRecipientByAddr hinv a) ?_ fun _ _ he => he
  rintro r t ⟨ht, hr⟩
  cases r with
  | none =>
      dsimp only
      rw [wp_bind]
      refine wp_mono (quiet_requestCreation a src t) ?_
        fun _ u hu => ⟨ghostInv_of_quiet t u ht hu.1, hu.2⟩
      exact fun _ u hu => ⟨ghostInv_of_quiet t u ht hu, by simp⟩
  | some recip =>
      obtain ⟨hphone, hrec⟩ := hr recip rfl
      dsimp only
      rw [wp_bind]
      exact wp_mono (wp_setupRecipient ht hread hphone hrec)
        (fun _ _ h => ⟨h.1, fun _ => h.2.1⟩) fun _ _ he => he

theorem preserves_queryContact {a : PduAddress} (hread : ReadsBack a) (src : Nat) :
    Preserves GhostInv Ordinary (queryContact a src : LinkM Unit) := by
  intro l hinv
  rw [queryContact, wp_bind]
  refine wp_mono (wp_getRecipientByAddr hinv a) ?_ fun _ _ he => he
  rintro r t ⟨ht, hr⟩
  have hsend : ∀ c u, GhostInv u → GhostInv (exec (cbSend c) u).2 :=
    fun c u hu => ghostInv_of_quiet u _ hu ((quiet_cbSend c).exec u)
  cases r with
  | none =>
      dsimp only
      rw [wp_bind]
      change wp (cbSend _) _ _ _
      rw [cbSend, wp_modify, wp_bind]
      exact wp_mono (wp_requestContact (hsend _ t ht) hread src) (fun _ _ h => h.1)
        fun _ _ he => he
  | some recip =>
      obtain ⟨hphone, hrec⟩ := hr recip rfl
      dsimp only
      rw [wp_bind]
      change wp (cbSend _) _ _ _
      rw [cbSend, wp_modify]
      exact wp_mono (wp_setupRecipient (hsend _ t ht) hread hphone hrec) (fun _ _ h => h.1)
        fun _ _ he => he

/-- The state of a link without one of its users. -/
def withoutUser (l : InspLink) (uuid : Str) : InspLink :=
  { l with
    contacts := match l.contactsUuidPdua.lookup uuid with
      | some pdua => l.contacts.erase pdua
      | none => l.contacts
    contactsUuidPdua := l.contactsUuidPdua.erase uuid
    users := l.users.erase uuid }

theorem withoutUser_contact {l : InspLink} {uuid : Str} {b : PduAddress} {ct : InspContact}
    (h : (withoutUser l uuid).contacts.lookup b = some ct) :
    l.contacts.lookup b = some ct ∧ l.contactsUuidPdua.lookup uuid ≠ some b := by
  unfold withoutUser at h
  cases ha : l.contactsUuidPdua.lookup uuid with
  | none => exact ⟨by simpa [ha] using h, by simp⟩
  | some a =>
      simp only [ha] at h
      rw [lookup_erase] at h
      split at h
      · cases h
      · rename_i hne
        exact ⟨h, fun he => hne (Option.some.inj he).symm⟩

theorem ghostInv_withoutUser {l : InspLink} (hinv : GhostInv l) (uuid : Str) :
    GhostInv (withoutUser l uuid) where
  uuidOf_contact b ct hb := by
    obtain ⟨hct, hne⟩ := withoutUser_contact hb
    have hold := hinv.uuidOf_contact b ct hct
    change (l.contactsUuidPdua.erase uuid).lookup ct.uuid = _
    rw [lookup_erase, if_neg ?_]
    · exact hold
    · intro he
      exact hne (he ▸ hold)
  contact_of_uuid u b hu := by
    change (l.contactsUuidPdua.erase uuid).lookup u = _ at hu
    rw [lookup_erase] at hu
    split at hu
    · cases hu
    · rename_i hne
      obtain ⟨ct, hct, he⟩ := hinv.contact_of_uuid u b hu
      refine ⟨ct, ?_, he⟩
      cases ha : l.contactsUuidPdua.lookup uuid with
      | none => simpa [withoutUser, ha] using hct
      | some a =>
          simp only [withoutUser, ha]
          rw [lookup_erase, if_neg ?_]
          · exact hct
          · rintro rfl
            obtain ⟨ct', hct', he'⟩ := hinv.contact_of_uuid uuid b ha
            rw [hct] at hct'
            cases hct'
            exact hne (he.symm.trans he')
  user_of_uuid u b hu := by
    change (l.contactsUuidPdua.erase uuid).lookup u = _ at hu
    rw [lookup_erase] at hu
    split at hu
    · cases hu
    · rename_i hne
      exact AList.mem_erase.mpr ⟨hne, hinv.user_of_uuid u b hu⟩
  recipient b ct hb := hinv.recipient b ct (withoutUser_contact hb).1
  readsBack b ct hb := hinv.readsBack b ct (withoutUser_contact hb).1
  issued_of_uuid u b hu := by
    change (l.contactsUuidPdua.erase uuid).lookup u = _ at hu
    rw [lookup_erase] at hu
    split at hu
    · cases hu
    · exact hinv.issued_of_uuid u b hu
  issued := hinv.issued
  next := hinv.next
  control := hinv.control
  known := hinv.known

theorem preserves_removeUser (uuid : Str) (recreate : Bool) :
    Preserves GhostInv Ordinary (removeUser uuid recreate) := by
  intro l hinv
  rw [removeUser, wp_bind, wp_get]
  dsimp only
  rw [wp_bind, wp_set]
  change wp _ _ _ (withoutUser l uuid)
  have hwithout := ghostInv_withoutUser hinv uuid
  cases ha : l.contactsUuidPdua.lookup uuid with
  | none => exact hwithout
  | some a =>
      obtain ⟨ct, hct, _⟩ := hinv.contact_of_uuid uuid a ha
      exact Preserves.when (preserves_setupContact (hinv.readsBack a ct hct)) _ hwithout

/-- The state of a link that has dropped a contact. -/
def withoutContact (l : InspLink) (st : Store) (a : PduAddress) : InspLink :=
  { l with
    store := st
    contacts := l.contacts.erase a
    contactsUuidPdua := retain (fun _ v => decide (v ≠ a)) l.contactsUuidPdua }

theorem ghostInv_withoutContact {l : InspLink} (hinv : GhostInv l) {st : Store}
    {a : PduAddress} (users : HashMap Str InspUser)
    (hst : ∀ b, b ≠ a → ReadsBack b → HasRecipient l.store b → HasRecipient st b)
    (hknown : Known st)
    (husers : ∀ u b, l.contactsUuidPdua.lookup u = some b → b ≠ a → u ∈ users) :
    GhostInv { withoutContact l st a with users := users } where
  uuidOf_contact b ct hb := by
    change (l.contacts.erase a).lookup b = _ at hb
    change (retain _ l.contactsUuidPdua).lookup ct.uuid = _
    rw [lookup_erase] at hb
    split at hb
    · cases hb
    · rename_i hne
      rw [lookup_retain_eq_some]
      exact ⟨hinv.uuidOf_contact b ct hb, by simpa using hne⟩
  contact_of_uuid u b hu := by
    change (retain _ l.contactsUuidPdua).lookup u = _ at hu
    rw [lookup_retain_eq_some] at hu
    obtain ⟨ct, hct, he⟩ := hinv.contact_of_uuid u b hu.1
    refine ⟨ct, ?_, he⟩
    change (l.contacts.erase a).lookup b = _
    rw [lookup_erase, if_neg (by simpa using hu.2)]
    exact hct
  user_of_uuid u b hu := by
    change (retain _ l.contactsUuidPdua).lookup u = _ at hu
    rw [lookup_retain_eq_some] at hu
    exact husers u b hu.1 (by simpa using hu.2)
  recipient b ct hb := by
    change (l.contacts.erase a).lookup b = _ at hb
    rw [lookup_erase] at hb
    split at hb
    · cases hb
    · rename_i hne
      exact hst b hne (hinv.readsBack b ct hb) (hinv.recipient b ct hb)
  readsBack b ct hb := by
    change (l.contacts.erase a).lookup b = _ at hb
    rw [lookup_erase] at hb
    split at hb
    · cases hb
    · exact hinv.readsBack b ct hb
  issued_of_uuid u b hu := by
    change (retain _ l.contactsUuidPdua).lookup u = _ at hu
    rw [lookup_retain_eq_some] at hu
    exact hinv.issued_of_uuid u b hu.1
  issued := hinv.issued
  next := hinv.next
  control := hinv.control
  known := hknown

theorem wp_removeContactFor {l : InspLink} (hinv : GhostInv l) {st : Store} {a : PduAddress}
    (hst : ∀ b, b ≠ a → ReadsBack b → HasRecipient l.store b → HasRecipient st b)
    (hknown : Known st) {E : Failure → InspLink → Prop} :
    wp (removeContactFor a) (fun _ t => GhostInv t) E { l with store := st } := by
  rw [removeContactFor, wp_bind, wp_get, wp_bind]
  cases hct : l.contacts.lookup a with
  | none =>
      rw [quitGhost, wp_pure, wp_modify]
      exact ghostInv_withoutContact hinv l.users hst hknown
        fun u b hu _ => hinv.user_of_uuid u b hu
  | some ct =>
      have huuid := hinv.uuidOf_contact a ct hct
      rw [quitGhost, wp_bind, push, wp_modify, removeUser, wp_bind, wp_get]
      dsimp only
      rw [wp_bind, wp_set, huuid]
      dsimp only
      rw [wp_when, if_neg (by simp), wp_modify]
      have hgone := ghostInv_withoutContact hinv (l.users.erase ct.uuid) hst hknown
        (by
          intro u b hu hne
          refine AList.mem_erase.mpr ⟨?_, hinv.user_of_uuid u b hu⟩
          rintro rfl
          rw [huuid] at hu
          exact hne (Option.some.inj hu).symm)
      have hcontacts : ∀ b, ((l.contacts.erase a).erase a).lookup b =
          (l.contacts.erase a).lookup b := by
        intro b
        rw [lookup_erase, lookup_erase]
        split <;> rfl
      have hghosts : ∀ u b,
          (retain (fun _ v => decide (v ≠ a)) (l.contactsUuidPdua.erase ct.uuid)).lookup u =
            some b ↔ (retain (fun _ v => decide (v ≠ a)) l.contactsUuidPdua).lookup u =
              some b := by
        intro u b
        rw [lookup_retain_eq_some, lookup_retain_eq_some, lookup_erase]
        split
        · rename_i hu
          subst hu
          rw [huuid]
          constructor
          · rintro ⟨h, _⟩
            cases h
          · rintro ⟨h, hne⟩
            cases h
            simp at hne
        · rfl
      exact
        { uuidOf_contact := fun b ct' hb => (hghosts _ _).mpr
            (hgone.uuidOf_contact b ct' ((hcontacts b).symm.trans hb))
          contact_of_uuid := fun u b hu => by
            obtain ⟨ct', hct', he⟩ := hgone.contact_of_uuid u b ((hghosts _ _).mp hu)
            exact ⟨ct', (hcontacts b).trans hct', he⟩
          user_of_uuid := fun u b hu => hgone.user_of_uuid u b ((hghosts _ _).mp hu)
          recipient := fun b ct' hb => hgone.recipient b ct' ((hcontacts b).symm.trans hb)
          readsBack := fun b ct' hb => hgone.readsBack b ct' ((hcontacts b).symm.trans hb)
          issued_of_uuid := fun u b hu => hgone.issued_of_uuid u b ((hghosts _ _).mp hu)
          issued := hgone.issued
          next := hgone.next
          control := hgone.control
          known := hgone.known }

theorem normalizeAddress_inj {a b : PduAddress} (ha : ReadsBack a) (hb : ReadsBack b)
    (h : normalizeAddress a = normalizeAddress b) : a = b := by
  have hsame : unNormalizeAddress (normalizeAddress a) = some b := h ▸ hb
  exact Option.some.inj (ha.symm.trans hsame)

theorem preserves_dropContact {a : PduAddress} (hread : ReadsBack a) :
    Preserves GhostInv Ordinary (dropContact a : LinkM Unit) := by
  intro l hinv
  have htick : GhostInv { l with store := l.store.tick } :=
    ghostInv_of_quiet l _ hinv
      ⟨rfl, rfl, rfl, rfl, fun _ => rfl, rfl, fun _ hu => hu, storeQuiet_of_rows rfl fun _ h => h⟩
  rw [dropContact, wp_bind, wp_store, deleteRecipientWithAddr, wp_bind]
  apply wp_query_of ⟨htick, trivial⟩
  split
  · rw [wp_modify]
    refine wp_removeContactFor hinv ?_ ?_
    · rintro b hne hb ⟨r, hr, hnum⟩
      refine ⟨r, List.mem_filter.mpr ⟨hr, ?_⟩, hnum⟩
      have : r.phoneNumber ≠ normalizeAddress a := by
        rw [hnum]
        exact fun h => hne (normalizeAddress_inj hb hread h)
      simpa using this
    · exact ⟨fun r hr => hinv.known.recipients r (List.mem_of_mem_filter hr),
        hinv.known.messages⟩
  · exact ⟨htick, trivial⟩

theorem wp_contactReady {l : InspLink} (hinv : GhostInv l) {a : PduAddress}
    (hread : ReadsBack a) (src : Nat) :
    wp (contactReady a src)
      (fun ready t => GhostInv t ∧ (ready = true → (t.contacts.lookup a).isSome))
      (fun e t => GhostInv t ∧ Ordinary e) l := by
  rw [contactReady, wp_bind, hasContact, wp_bind, wp_get, wp_pure]
  split
  · rename_i hpresent
    exact ⟨hinv, fun _ => hpresent⟩
  · exact wp_requestContact hinv hread src

theorem quiet_switchMode {l : InspLink} {a : PduAddress} {auid : Str} {ct : InspContact}
    {wa : Bool} (ha : (l.contacts.lookup a).isSome) :
    wp (switchMode a auid ct wa) (fun _ t => Quiet l t)
      (fun e t => Quiet l t ∧ Ordinary e) l := by
  rw [switchMode, wp_when]
  split
  · rw [wp_bind]
    refine wp_mono (quiet_setWaState ha) ?_ fun _ _ he => he
    exact fun _ t ht => (quiet_contactMessage _ _ _ _).after ht
  · exact quiet_refl l

theorem wp_processMessage {l : InspLink} (hinv : GhostInv l) (auid : Str) {msg : Message}
    (hmsg : Readable msg.phoneNumber) :
    wp (processMessage auid msg) (fun _ t => GhostInv t)
      (fun e t => GhostInv t ∧ Ordinary e) l := by
  obtain ⟨a, hread, hphone⟩ := hmsg
  rw [processMessage, Message.getAddr, getAddr_ok hread hphone, wp_bind, wp_pure, wp_bind]
  refine wp_mono (wp_contactReady hinv hread msg.source) ?_ fun _ _ he => he
  rintro ready t ⟨ht, hready⟩
  rw [wp_when]
  split
  swap
  · exact ht
  rename_i hr
  obtain ⟨ct, hct⟩ := Option.isSome_iff_exists.mp (hready hr)
  rw [wp_bind, wp_get, wp_bind, hct, wp_unwrap_some]
  have hkeep : ∀ {p : LinkM Unit},
      wp p (fun _ u => Quiet t u) (fun e u => Quiet t u ∧ Ordinary e) t →
      wp p (fun _ u => GhostInv u) (fun e u => GhostInv u ∧ Ordinary e) t :=
    fun h => wp_mono h (fun _ u hu => ghostInv_of_quiet t u ht hu)
      fun _ u hu => ⟨ghostInv_of_quiet t u ht hu.1, hu.2⟩
  cases msg.pdu with
  | some raw =>
      dsimp only
      cases Crates.deliverPduTryFrom raw with
      | error e => exact ⟨ht, trivial⟩
      | ok pdu =>
          apply hkeep
          rw [wp_bind]
          refine wp_mono (quiet_switchMode (hready hr)) ?_ fun _ _ he => he
          exact fun _ u hu => (senderSteps_quiet.processMsgPdu _ _ _).after hu
  | none =>
      apply hkeep
      rw [wp_bind]
      refine wp_mono (quiet_switchMode (hready hr)) ?_ fun _ _ he => he
      exact fun _ u hu => (senderSteps_quiet.processMsgPlain _ _).after hu

theorem preserves_processMessages : Preserves GhostInv Ordinary processMessages := by
  intro l hinv
  have htick : GhostInv { l with store := l.store.tick } :=
    ghostInv_of_quiet l _ hinv
      ⟨rfl, rfl, rfl, rfl, fun _ => rfl, rfl, fun _ hu => hu, storeQuiet_of_rows rfl fun _ h => h⟩
  rw [processMessages, wp_bind, wp_get]
  cases adminUuid l with
  | none => exact hinv
  | some auid =>
      dsimp only
      rw [wp_bind, wp_store]
      apply wp_query_of ⟨htick, trivial⟩
      refine Preserves.forM (fun msg hmsg => ?_) _ htick
      have hrow : msg ∈ l.store.messages.rows :=
        (List.perm_insertionSort sentBefore _).mem_iff.mp hmsg
      exact fun t ht => wp_processMessage ht auid (hinv.known.messages msg hrow)

theorem quiet_processParticipant (grp : Group) (part : Nat) {l : InspLink}
    (hknown : Known l.store) :
    wp (processParticipant grp part) (fun _ t => Quiet l t)
      (fun e t => Quiet l t ∧ Ordinary e) l := by
  have htick : Quiet l { l with store := l.store.tick } :=
    ⟨rfl, rfl, rfl, rfl, fun _ => rfl, rfl, fun _ hu => hu, storeQuiet_of_rows rfl fun _ h => h⟩
  rw [processParticipant, wp_bind, wp_store]
  apply wp_query_of ⟨htick, trivial⟩
  cases hr : l.store.tick.recipients.rows.find? fun r => r.id = part with
  | none => exact htick
  | some recip =>
      obtain ⟨a, hread, hphone⟩ := hknown.recipients recip (List.mem_of_find?_eq_some hr)
      dsimp only
      rw [Recipient.getAddr, getAddr_ok hread hphone, wp_bind, wp_pure, wp_bind, wp_get]
      cases l.contacts.lookup a with
      | none => exact htick
      | some ct => exact (quiet_push _ _ _ _).after htick

theorem quiet_processTopic (grp : Group) : Steps Quiet Ordinary (processTopic grp) := by
  have htopic : ∀ topic, Steps Quiet Ordinary
      (modify fun l : InspLink =>
        { l with channelTopics := l.channelTopics.insert grp.channel topic }) :=
    fun _ => steps_modify fun _ => quiet_of_eq rfl rfl rfl rfl rfl rfl rfl rfl
  refine Steps.bind steps_get fun l => ?_
  dsimp only
  split
  · exact Steps.bind (quiet_push _ _ _ _) fun _ => htopic _
  · exact htopic _

theorem preserves_processGroup (grp : Group) :
    Preserves GhostInv Ordinary (processGroup grp) := by
  refine Preserves.bind (Preserves.forM fun part _ l hinv => ?_) fun _ => ?_
  · exact wp_mono (quiet_processParticipant grp part hinv.known)
      (fun _ t ht => ghostInv_of_quiet l t hinv ht)
      fun _ t ht => ⟨ghostInv_of_quiet l t hinv ht.1, ht.2⟩
  · refine Preserves.bind preserves_get fun l => Preserves.when ?_
    exact (quiet_processTopic grp).preserves ghostInv_of_quiet

theorem preserves_processGroups : Preserves GhostInv Ordinary processGroups := by
  intro l hinv
  rw [processGroups, wp_bind, wp_modify, wp_bind, wp_get, wp_bind]
  have hfirst : Quiet l { l with channels := [] } := quiet_of_eq rfl rfl rfl rfl rfl rfl rfl rfl
  have hcontacts : wp (forM (Crates.hashOrder.run l.contacts.keys) processGroupsForRecipient)
      (fun _ t => Quiet l t) (fun e t => Quiet l t ∧ Ordinary e) { l with channels := [] } := by
    refine wp_forM (I := Quiet l) (fun a ha t ht => ?_) hfirst
    have hpresent : (t.contacts.lookup a).isSome := by
      rw [ht.contact_isSome, AList.lookup_isSome]
      exact AList.mem_keys.mpr (Crates.hashOrder.mem_run.mp ha)
    exact wp_mono
      (quiet_processGroupsForRecipient (ghostInv_of_quiet l t hinv ht) hpresent)
      (fun _ u hu => quiet_trans _ _ _ ht hu) fun _ u hu => ⟨quiet_trans _ _ _ ht hu.1, hu.2⟩
  refine wp_mono hcontacts ?_ fun _ t ht => ⟨ghostInv_of_quiet l t hinv ht.1, ht.2⟩
  intro _ t ht
  have hrest : Preserves GhostInv Ordinary (do
      let grps ← store getAllGroups
      forM grps processGroup) :=
    Preserves.bind ((quiet_store (quiet_query _)).preserves ghostInv_of_quiet)
      fun grps => Preserves.forM fun grp _ => preserves_processGroup grp
  exact hrest t (ghostInv_of_quiet l t hinv ht)

theorem preserves_of_quiet {α : Type} {p : LinkM α} (h : Steps Quiet Ordinary p) :
    Preserves GhostInv Ordinary p := h.preserves ghostInv_of_quiet

theorem quiet_doCapabAndServer : Steps Quiet Ordinary doCapabAndServer := by
  refine Steps.bind (quiet_sendSidLine _ _ _) fun _ => ?_
  refine Steps.bind (Steps.forM fun _ _ => quiet_sendSidLine _ _ _) fun _ => ?_
  refine Steps.bind (quiet_sendSidLine _ _ _) fun _ => ?_
  exact Steps.bind steps_get fun _ => quiet_push _ _ _ _

theorem quiet_setState (st : LinkState) :
    Steps Quiet Ordinary (modify fun l : InspLink => { l with state := st }) :=
  steps_modify fun _ => quiet_of_eq rfl rfl rfl rfl rfl rfl rfl rfl

theorem quiet_doBurst : Steps Quiet Ordinary doBurst := by
  refine Steps.bind steps_get fun l => ?_
  refine Steps.bind (quiet_sendSidLine _ _ _) fun _ => ?_
  refine Steps.bind (quiet_insertUser _ _) fun _ => ?_
  refine Steps.bind ?_ fun _ => Steps.bind (quiet_send _) fun _ => quiet_sendSidLine _ _ _
  refine Steps.bind steps_get fun l' => ?_
  cases l'.users.lookup l.controlUuid with
  | some user => exact steps_pure _
  | none => exact steps_throw trivial

theorem quiet_handleServer (args : List Str) (suffix : Option Str) :
    Steps Quiet Ordinary (handleServer args suffix) := by
  refine Steps.bind steps_get fun l => ?_
  split
  · split
    · exact steps_throw trivial
    · split
      · exact steps_throw trivial
      · refine Steps.bind (steps_logVerified trivial _) fun _ => ?_
        refine Steps.bind
          (steps_modify fun _ => quiet_of_eq rfl rfl rfl rfl rfl rfl rfl rfl) fun _ => ?_
        exact Steps.bind quiet_doBurst fun _ => quiet_setState _
  · exact steps_throw trivial

theorem quiet_sendRaw (line : Str) : Steps Quiet Ordinary (sendRaw line) := by
  unfold sendRaw
  split
  · exact quiet_send _
  · exact quiet_controlResponse _

theorem quiet_processInsp (ic : Admin.InspCommand) :
    Steps Quiet Ordinary (processInsp ic) := by
  cases ic with
  | raw line => exact Steps.bind (quiet_sendRaw line) fun _ => steps_pure _
  | queryUuid uu =>
      refine Steps.bind steps_get fun l => ?_
      exact Steps.bind (Steps.forM fun _ _ => quiet_controlResponse _) fun _ => steps_pure _
  | queryNickUuid qnu =>
      refine Steps.bind steps_get fun l => ?_
      exact Steps.bind (quiet_controlResponse _) fun _ => steps_pure _

theorem quiet_executeAdminCommand (ac : Admin.AdminCommand) :
    Steps Quiet Ordinary (executeAdminCommand ac : LinkM Unit) := by
  cases ac with
  | ghost nick gc => exact Steps.bind (quiet_cfSend _) fun _ => quiet_controlResponse _
  | contact cc => exact quiet_cfSend _
  | whatsapp wac => exact quiet_waSend _
  | modem mc => exact quiet_mSend _
  | group gc => exact quiet_waSend _
  | insp ic =>
      exact Steps.bind (quiet_processInsp ic) fun _ => Steps.when (quiet_controlResponse _)
  | help qry =>
      rw [executeAdminCommand]
      cases Admin.helpPage qry with
      | some hp => exact Steps.forM fun _ _ => quiet_controlResponse _
      | none => exact quiet_controlResponse _

theorem inspParse_error {rest : List Str} {e : Failure}
    (h : Admin.InspCommand.parse rest = .error e) : e = .panic .inspRawArgs := by
  unfold Admin.InspCommand.parse at h
  split at h
  · cases h
  · split at h
    · split at h
      · cases h
        rfl
      · cases h
    · split at h
      · split at h
        · cases h
        · split at h <;> cases h
      · cases h

theorem adminParse_error {msg : List Str} {e : Failure}
    (h : Admin.AdminCommand.parse msg = .error e) : e = .panic .inspRawArgs := by
  unfold Admin.AdminCommand.parse at h
  split at h
  · cases h
  · rename_i cmd rest
    cases hparse : Admin.InspCommand.parse rest with
    | ok ic =>
        rw [hparse] at h
        repeat' split at h
        all_goals cases h
    | error e' =>
        rw [hparse] at h
        repeat' split at h
        all_goals cases h
        exact inspParse_error hparse

theorem quiet_processAdminCommand (msg : Str) :
    Steps Quiet Ordinary (processAdminCommand msg : LinkM Unit) := by
  unfold processAdminCommand
  split
  · exact steps_pure _
  · split
    · rename_i e he
      rw [adminParse_error he]
      exact steps_throw trivial
    · exact quiet_controlResponse _
    · exact quiet_executeAdminCommand _

theorem quiet_handlePrivmsg (source target msg : Str) :
    Steps Quiet Ordinary (handlePrivmsg source target msg) := by
  refine Steps.bind steps_get fun l => ?_
  split
  · exact steps_pure _
  · split
    · exact quiet_processAdminCommand _
    · split
      · exact quiet_waSend _
      · split
        · exact steps_pure _
        · split
          · exact steps_pure _
          · split
            · exact quiet_waSend _
            · exact quiet_mSend _

theorem newFromUidLine_error {args : List Str} {suffix : Option Str} {e : Failure}
    (h : newFromUidLine args suffix = .error e) : ∃ msg, e = .error msg := by
  unfold newFromUidLine at h
  split at h
  · split at h
    · exact ⟨_, by cases h; rfl⟩
    · split at h
      · exact ⟨_, by cases h; rfl⟩
      · exact ⟨_, by cases h; rfl⟩
      · cases h
  · exact ⟨_, by cases h; rfl⟩

theorem preserves_handleUid (args : List Str) (suffix : Option Str) :
    Preserves GhostInv Ordinary (handleUid args suffix) := by
  unfold handleUid
  split
  · rename_i e he
    obtain ⟨msg, rfl⟩ := newFromUidLine_error he
    exact preserves_throw trivial
  · refine Preserves.bind (preserves_of_quiet (quiet_insertUser _ _)) fun _ => ?_
    exact Preserves.bind preserves_get fun _ => Preserves.when preserves_processMessages

theorem preserves_doQuasiburst : Preserves GhostInv Ordinary doQuasiburst := by
  intro l hinv
  have htick : Quiet l { l with store := l.store.tick } :=
    ⟨rfl, rfl, rfl, rfl, fun _ => rfl, rfl, fun _ hu => hu, storeQuiet_of_rows rfl fun _ h => h⟩
  have hinvt := ghostInv_of_quiet _ _ hinv htick
  rw [doQuasiburst, wp_bind, wp_store]
  apply wp_query_of ⟨hinvt, trivial⟩
  have hloop : wp (forM (Crates.scanOrder.run l.store.recipients.rows)
        (setupRecipient : Recipient → LinkM Unit))
      (fun _ t => GhostInv t ∧ StoreQuiet l.store t.store)
      (fun e t => GhostInv t ∧ Ordinary e) { l with store := l.store.tick } := by
    refine wp_forM (I := fun t => GhostInv t ∧ StoreQuiet l.store t.store) ?_
      ⟨hinvt, htick.store⟩
    rintro recip hrecip t ⟨ht, hq⟩
    have hrow := Crates.scanOrder.mem_run.mp hrecip
    obtain ⟨a, hread, hphone⟩ := hinv.known.recipients recip hrow
    have hrec : HasRecipient t.store a := hq.recipients a ⟨recip, hrow, hphone⟩
    exact wp_mono (wp_setupRecipient ht hread hphone hrec)
      (fun _ _ h => ⟨h.1, storeQuiet_trans _ _ _ hq h.2.2⟩) fun _ _ he => he
  exact wp_mono hloop (fun _ _ h => h.1) fun _ _ he => he

theorem preserves_onLinked : Preserves GhostInv Ordinary onLinked := by
  refine Preserves.bind preserves_get fun l => ?_
  refine Preserves.bind (preserves_of_quiet (quiet_push _ _ _ _)) fun _ => ?_
  exact Preserves.bind preserves_processGroups fun _ => preserves_processMessages

theorem preserves_handleEndburst (source : Str) :
    Preserves GhostInv Ordinary (handleEndburst source) := by
  refine Preserves.bind preserves_get fun l => Preserves.when ?_
  refine Preserves.bind preserves_doQuasiburst fun _ => ?_
  exact Preserves.bind (preserves_of_quiet (quiet_setState _)) fun _ => preserves_onLinked

theorem preserves_handleRaw (source cmd : Str) (args : List Str) (suffix : Option Str) :
    Preserves GhostInv Ordinary (handleRaw source cmd args suffix) := by
  have hupdate : ∀ f, Preserves GhostInv Ordinary (updateUser source f) :=
    fun f => preserves_of_quiet (quiet_updateUser source f)
  unfold handleRaw
  split
  · exact preserves_handleUid args suffix
  · split
    · split
      · exact preserves_pure _
      · exact hupdate _
    · split
      · split
        · exact preserves_of_quiet
            (steps_modify fun _ => quiet_of_eq rfl rfl rfl rfl rfl rfl rfl rfl)
        · exact preserves_pure _
      · split
        · split
          · exact preserves_pure _
          · exact hupdate _
        · split
          · exact preserves_handleEndburst source
          · exact preserves_pure _

/-- The UUIDs of the control user and of all ghosts there have been. -/
def IsOurs (l : InspLink) (uuid : Str) : Prop := uuid = l.controlUuid ∨ uuid ∈ l.issued

theorem wp_handleSquit {l : InspLink} (hinv : GhostInv l) {server : Str}
    (hserver : ∀ u a, l.contactsUuidPdua.lookup u = some a → ¬ server <+: u) :
    wp (handleSquit server) (fun _ t => GhostInv t)
      (fun e t => GhostInv t ∧ Ordinary e) l := by
  rw [handleSquit, wp_modify]
  exact
    { uuidOf_contact := hinv.uuidOf_contact
      contact_of_uuid := hinv.contact_of_uuid
      user_of_uuid := by
        intro u a hu
        obtain ⟨user, huser⟩ := mem_iff_lookup.mp (hinv.user_of_uuid u a hu)
        refine mem_retain.mpr ⟨user, huser, ?_⟩
        have hno := hserver u a hu
        rw [← List.isPrefixOf_iff_prefix, Bool.not_eq_true] at hno
        simp [startsWith, hno]
      recipient := hinv.recipient
      readsBack := hinv.readsBack
      issued_of_uuid := hinv.issued_of_uuid
      issued := hinv.issued
      next := hinv.next
      control := hinv.control
      known := hinv.known }

/-- The message does not name a server whose id begins a UUID of ours. -/
def NoSquitOfOurs (l : InspLink) (m : IrcMessage) : Prop :=
  match m.prefixStr, m.command with
  | some _, .squit server _ => ∀ uuid, IsOurs l uuid → ¬ server <+: uuid
  | _, _ => True

theorem wp_handleRemoteMessage {l : InspLink} (hinv : GhostInv l) {m : IrcMessage}
    (hm : NoSquitOfOurs l m) :
    wp (handleRemoteMessage m) (fun _ t => GhostInv t)
      (fun e t => GhostInv t ∧ Ordinary e) l := by
  obtain ⟨prefixStr, command⟩ := m
  cases prefixStr with
  | none =>
      cases command with
      | error details => exact ⟨hinv, trivial⟩
      | raw cmd args suffix =>
          exact preserves_of_quiet (Steps.when (quiet_handleServer args suffix)) l hinv
      | _ => exact hinv
  | some source =>
      cases command with
      | privmsg target msg =>
          exact preserves_of_quiet (quiet_handlePrivmsg source target msg) l hinv
      | error details => exact ⟨hinv, trivial⟩
      | kill uuid reason => exact preserves_removeUser uuid true l hinv
      | quit reason => exact preserves_removeUser source true l hinv
      | ping data dest =>
          cases dest with
          | none => exact preserves_of_quiet (quiet_sendSidLine _ _ _) l hinv
          | some dest => exact preserves_of_quiet (quiet_sendSidLine _ _ _) l hinv
      | squit server reason =>
          exact wp_handleSquit hinv fun u a hu => hm u (.inr (hinv.issued_of_uuid u a hu))
      | raw cmd args suffix => exact preserves_handleRaw source cmd args suffix l hinv
      | other params => exact hinv

theorem wp_resolveNick {l : InspLink} (hinv : GhostInv l) (nick : Str)
    {E : Failure → InspLink → Prop} :
    wp (resolveNick nick) (fun a t => t = l ∧ ∀ addr ∈ a, ReadsBack addr) E l := by
  rw [resolveNick, wp_bind, wp_get, wp_pure]
  refine ⟨rfl, ?_⟩
  intro addr haddr
  obtain ⟨u, _, hu⟩ := List.exists_of_findSome?_eq_some haddr
  split at hu
  · obtain ⟨ct, hct, _⟩ := hinv.contact_of_uuid u.1 addr hu
    exact hinv.readsBack addr ct hct
  · cases hu

theorem preserves_byNick (nick : Str) {f : PduAddress → LinkM Unit}
    (hf : ∀ a, ReadsBack a → Preserves GhostInv Ordinary (f a)) :
    Preserves GhostInv Ordinary (do
      match ← resolveNick nick with
      | some a => f a
      | none => pure ()) := by
  intro l hinv
  rw [wp_bind]
  refine wp_mono (wp_resolveNick hinv nick) ?_ fun _ _ he => he
  rintro a _ ⟨rfl, ha⟩
  cases a with
  | none => exact hinv
  | some a => exact hf a (ha a rfl) _ hinv

/-- The addresses that a command names. -/
def addressesOf : ContactFactoryCommand → List PduAddress
  | .setupContact a => [a]
  | .dropContact a => [a]
  | .queryContact a _ => [a]
  | .forwardCommand a _ => [a]
  | _ => []

theorem preserves_handleCfCommand {c : ContactFactoryCommand}
    (hc : ∀ a ∈ addressesOf c, ReadsBack a) :
    Preserves GhostInv Ordinary (handleCfCommand c) := by
  cases c with
  | processMessages => exact preserves_processMessages
  | processGroups => exact preserves_processGroups
  | processAvatars => exact preserves_pure _
  | setupContact a => exact preserves_setupContact (hc a (by simp [addressesOf]))
  | dropContact a => exact preserves_dropContact (hc a (by simp [addressesOf]))
  | queryContact a src => exact preserves_queryContact (hc a (by simp [addressesOf])) src
  | dropContactByNick nick => exact preserves_byNick nick fun a ha => preserves_dropContact ha
  | loadRecipients => exact preserves_pure _
  | forwardCommand a cmd => exact preserves_forwardCmd a cmd
  | forwardCommandByNick nick cmd =>
      exact preserves_byNick nick fun a _ => preserves_forwardCmd a cmd
  | subscribePresenceByNick nick =>
      exact preserves_byNick nick fun a _ => preserves_of_quiet (quiet_waSend _)

theorem preserves_handleCbCommand (c : ControlBotCommand) :
    Preserves GhostInv Ordinary (handleCbCommand c) := by
  cases c with
  | log line =>
      exact preserves_of_quiet (Steps.bind steps_get fun _ => quiet_push _ _ _ _)
  | reportFailure fail =>
      refine preserves_of_quiet (Steps.bind steps_get fun l => ?_)
      cases adminUuid l with
      | some admu => exact quiet_push _ _ _ _
      | none => exact steps_pure _
  | commandResponse resp => exact preserves_of_quiet (quiet_controlResponse resp)
  | processGroups => exact preserves_processGroups

theorem storeQuiet_insertMessage {st : Store} {mk : Nat → Message}
    (hmk : ∀ n, (mk n).id = n) {a : PduAddress} (ha : ReadsBack a)
    (hnum : ∀ n, (mk n).phoneNumber = normalizeAddress a) :
    StoreQuiet st { st with messages := st.messages.insert mk hmk } := by
  refine ⟨fun _ h => h, fun h => ⟨h.recipients, fun m hm => ?_⟩⟩
  rcases List.mem_append.mp hm with hm | hm
  · exact h.messages m hm
  · rw [List.mem_singleton.mp hm]
    exact ⟨a, ha, hnum _⟩

theorem quiet_insertRecipient {a : PduAddress} (ha : ReadsBack a) {row : Nat → Recipient}
    {hrow : ∀ n, (row n).id = n} (hnum : ∀ n, (row n).phoneNumber = normalizeAddress a) :
    Steps StoreQuiet Ordinary (insertRecipient a row hrow) := by
  refine Steps.bind (quiet_query _) fun taken => ?_
  split
  · exact steps_throw trivial
  · refine steps_get_bind fun st => ?_
    refine ⟨?_, fun h => ⟨fun r hr => ?_, h.messages⟩⟩
    · rintro b ⟨r, hr, hb⟩
      exact ⟨r, List.mem_append_left _ hr, hb⟩
    · rcases List.mem_append.mp hr with hr | hr
      · exact h.recipients r hr
      · rw [List.mem_singleton.mp hr]
        exact ⟨a, ha, hnum _⟩

/-- The addresses that a use of the database names. -/
def storeAddresses : StoreOp → List PduAddress
  | .smsMessage a _ _ => [a]
  | .waMessage a _ _ _ => [a]
  | .recipient a _ => [a]
  | .waRecipient a _ _ _ => [a]
  | .notify a _ => [a]
  | _ => []

theorem quiet_execute {f : Store → Store} (hf : ∀ st : Store, StoreQuiet st.tick (f st.tick)) :
    Steps StoreQuiet Ordinary (execute f) := by
  intro st
  have htick : StoreQuiet st st.tick := storeQuiet_of_rows rfl fun _ h => h
  exact wp_execute_of ⟨htick, trivial⟩ (storeQuiet_trans _ _ _ htick (hf st))

theorem quiet_storeOp {op : StoreOp} (hop : ∀ a ∈ storeAddresses op, ReadsBack a) :
    Steps StoreQuiet Ordinary op.run := by
  cases op with
  | smsMessage a pdu csms =>
      exact quiet_execute fun st =>
        storeQuiet_insertMessage (fun _ => rfl) (hop a (by simp [storeAddresses])) fun _ => rfl
  | waMessage a text gt ts =>
      refine Steps.bind (quiet_query _) fun valid => ?_
      split
      · exact steps_modify fun st =>
          storeQuiet_insertMessage (fun _ => rfl) (hop a (by simp [storeAddresses])) fun _ => rfl
      · exact steps_throw trivial
  | recipient a nick =>
      exact Steps.bind
        (quiet_insertRecipient (hop a (by simp [storeAddresses])) fun _ => rfl)
        fun _ => steps_pure _
  | waRecipient a nick notify nicksrc =>
      exact Steps.bind
        (quiet_insertRecipient (hop a (by simp [storeAddresses])) fun _ => rfl)
        fun _ => steps_pure _
  | notify a n =>
      exact quiet_updateRecipient a (fun r => { r with notify := n }) (fun _ => rfl)
        fun _ => rfl
  | group jid chan parts adms topic =>
      refine Steps.bind (Steps.bind (quiet_query _) fun taken => ?_) fun _ => steps_pure _
      split
      · exact steps_throw trivial
      · exact steps_get_bind fun st => storeQuiet_of_rows rfl fun _ h => h
  | updateGroup jid parts adms topic =>
      refine Steps.bind (Steps.bind ?_ fun _ => ?_) fun _ => steps_pure _
      · exact quiet_execute fun st => storeQuiet_of_rows rfl fun _ h => h
      · refine Steps.bind steps_get fun st => ?_
        split
        · exact steps_pure _
        · exact steps_throw trivial
  | deleteGroup id =>
      refine Steps.bind (quiet_query _) fun present => ?_
      split
      · exact steps_modify fun st =>
          storeQuiet_of_rows rfl fun m hm => List.mem_of_mem_filter hm
      · exact steps_throw trivial
  | waMsgid id => exact quiet_execute fun st => storeQuiet_of_rows rfl fun _ h => h
  | waPersistence p => exact quiet_execute fun st => storeQuiet_of_rows rfl fun _ h => h

/-- No SQUIT names a server whose id begins a UUID of ours, and all addresses
read back. -/
def Tame (s : Session) : Event → Prop
  | .remote m => NoSquitOfOurs s.link m
  | .cf c => ∀ a ∈ addressesOf c, ReadsBack a
  | .storeOp op => ∀ a ∈ storeAddresses op, ReadsBack a
  | _ => True

/-- The bookkeeping holds, and if the link has ended, then not by one of the
failures that it rules out. -/
def Sound (s : Session) : Prop := GhostInv s.link ∧ ∀ e, s.outcome = some e → Ordinary e

theorem sound_next {s t : Session} {e : Event} (he : Tame s e) (hs : Sound s)
    (hnext : next s e = some t) : Sound t := by
  obtain ⟨hinv, hout⟩ := hs
  have hkeep : ∀ {p : LinkM Unit}, wp p (fun _ l => GhostInv l)
      (fun e l => GhostInv l ∧ Ordinary e) s.link → Sound (perform s p) :=
    fun h => wp_perform h
  unfold next at hnext
  split at hnext
  swap
  · cases hnext
  cases e with
  | connect =>
      simp only [step] at hnext
      split at hnext
      · cases hnext
        exact hkeep (preserves_of_quiet
          (Steps.bind quiet_doCapabAndServer fun _ => quiet_setState _) _ hinv)
      · cases hnext
  | remote m =>
      simp only [step] at hnext
      split at hnext
      · cases hnext
      · cases hnext
        exact hkeep (wp_handleRemoteMessage hinv he)
  | cb c =>
      simp only [step] at hnext
      split at hnext
      · cases hnext
        exact hkeep (preserves_handleCbCommand c _ hinv)
      · cases hnext
  | cf c =>
      simp only [step] at hnext
      split at hnext
      · cases hnext
        exact hkeep (preserves_handleCfCommand he _ hinv)
      · cases hnext
  | storeOp op =>
      cases hnext
      refine ⟨ghostInv_of_quiet _ _ hinv ?_, hout⟩
      exact ⟨rfl, rfl, rfl, rfl, fun _ => rfl, rfl, fun _ hu => hu,
        (quiet_storeOp he).exec s.link.store⟩
  | clock now dbNow =>
      cases hnext
      refine ⟨ghostInv_of_quiet _ _ hinv ?_, hout⟩
      exact ⟨rfl, rfl, rfl, rfl, fun _ => rfl, rfl, fun _ hu => hu,
        storeQuiet_of_rows rfl fun _ h => h⟩

theorem ghostInv_initial (cfg : InspConfig) {st : Store} (hst : Known st)
    (now : NaiveDateTime) : GhostInv (InspLink.new cfg st now) where
  uuidOf_contact _ _ h := by cases h
  contact_of_uuid _ _ h := by cases h
  user_of_uuid _ _ h := by cases h
  recipient _ _ h := by cases h
  readsBack _ _ h := by cases h
  issued_of_uuid _ _ h := by cases h
  issued := rfl
  next := le_rfl
  control := rfl
  known := hst

theorem sound_of_run {cfg : InspConfig} {st : Store} {now : NaiveDateTime}
    {es : List Event} {t : Session} (hst : Known st)
    (hes : AllSteps next Tame (initial cfg st now) es)
    (hrun : run next (initial cfg st now) es = some t) : Sound t :=
  invariant_of_allSteps (fun _ _ _ he hs hnext => sound_next he hs hnext) hes
    ⟨ghostInv_initial cfg hst now, by simp [initial]⟩ hrun

/-- The two contact maps are inverse to each other, their UUIDs are users and
their addresses recipients, and no UUID was issued twice or is the control
user's. -/
structure GhostsAgree (l : InspLink) : Prop where
  maps : ∀ a uuid, (∃ ct, l.contacts.lookup a = some ct ∧ ct.uuid = uuid) ↔
    l.contactsUuidPdua.lookup uuid = some a
  users : ∀ a ct, l.contacts.lookup a = some ct → ct.uuid ∈ l.users
  recipients : ∀ a ct, l.contacts.lookup a = some ct → HasRecipient l.store a
  issued_nodup : l.issued.Nodup
  control_notMem : l.controlUuid ∉ l.issued

theorem GhostInv.agree {l : InspLink} (h : GhostInv l) : GhostsAgree l where
  maps a uuid := by
    constructor
    · rintro ⟨ct, hct, rfl⟩
      exact h.uuidOf_contact a ct hct
    · exact h.contact_of_uuid uuid a
  users a ct hct := h.user_of_uuid _ _ (h.uuidOf_contact a ct hct)
  recipients := h.recipient
  issued_nodup := by
    rw [h.issued]
    exact List.Nodup.map (fun _ _ => uuidOf_injective) (List.nodup_range' 1)
  control_notMem := by
    rw [h.issued, h.control]
    intro hmem
    obtain ⟨n, _, hn⟩ := List.mem_map.mp hmem
    exact absurd (List.cons.inj (List.append_cancel_left hn)).1 (by decide)

/-- In every state of a tame run the records of ghosts agree, and no handler has
failed for want of a contact, of its user or of its recipient. -/
theorem ghostsAgree_of_run {cfg : InspConfig} {st : Store} {now : NaiveDateTime}
    {es : List Event} {t : Session} (hst : Known st)
    (hes : AllSteps next Tame (initial cfg st now) es)
    (hrun : run next (initial cfg st now) es = some t) :
    GhostsAgree t.link ∧ ∀ e, t.outcome = some e → Ordinary e := by
  obtain ⟨hinv, hout⟩ := sound_of_run hst hes hrun
  exact ⟨hinv.agree, hout⟩

end Ghosts

section Samples

attribute [local instance] Sample.crates

theorem known_sampleStore : Known Sample.store :=
  ⟨fun _ h => absurd h List.not_mem_nil, fun _ h => absurd h List.not_mem_nil⟩

theorem tame_linking : ∀ e ∈ linking, ∀ s, Tame s e := by
  simp [linking, Tame, NoSquitOfOurs]

/-- A ghost is introduced while the link is established. -/
theorem ghostsAgree_linking : ∃ t,
    run next sampleStart (.storeOp (.recipient Sample.alice ['a']) :: linking) = some t ∧
      GhostsAgree t.link ∧ ∀ e, t.outcome = some e → Ordinary e := by
  have hrun : (run next sampleStart
      (.storeOp (.recipient Sample.alice ['a']) :: linking)).isSome = true := by
    decide +kernel
  obtain ⟨t, ht⟩ := Option.isSome_iff_exists.mp hrun
  have htame : ∀ e ∈ (.storeOp (.recipient Sample.alice ['a']) :: linking : List Event),
      ∀ s, Tame s e := by
    refine List.forall_mem_cons.mpr ⟨fun s a ha => ?_, tame_linking⟩
    rw [List.mem_singleton.mp ha]
    exact Sample.readsBack_alice
  exact ⟨t, ht, ghostsAgree_of_run known_sampleStore (allSteps_of_forall_mem htame _) ht⟩

end Samples

end SmsIrc.LinkGhosts
