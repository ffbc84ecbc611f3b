import SmsIrc.LinkEvents
import SmsIrc.LinkFailures

/-!
Stored messages that no run of `process_messages` can get past.
-/

namespace SmsIrc.LinkPoison

open SmsIrc.Comm SmsIrc.ContactCommon SmsIrc.Database SmsIrc.External SmsIrc.HashMaps
open SmsIrc.Link SmsIrc.LinkDeeds SmsIrc.LinkEffects SmsIrc.LinkEvents SmsIrc.LinkFailures
open SmsIrc.LinkGhosts SmsIrc.LinkHistory SmsIrc.LinkRuns SmsIrc.LinkSteady SmsIrc.Models
open SmsIrc.Program SmsIrc.Reassembly SmsIrc.SenderCommon SmsIrc.SenderRuns
open SmsIrc.SerialTable SmsIrc.Text SmsIrc.Transition SmsIrc.Util

section Poison

variable [Crates]

/-- The message does not take away the user of a ghost with all users of a server. -/
def SparesGhosts (l : InspLink) (m : IrcMessage) : Prop :=
  match m.prefixStr, m.command with
  | some _, .squit server _ => ∀ u a, l.contactsUuidPdua.lookup u = some a → ¬ server <+: u
  | _, _ => True

/-- The addresses that a use of the database makes keys of. -/
def keysOf : StoreOp → List PduAddress
  | .smsMessage a _ _ => [a]
  | .waMessage a _ _ _ => [a]
  | .recipient a _ => [a]
  | .waRecipient a _ _ _ => [a]
  | _ => []

/-- The addresses that are put into the database read back, SMS are stored as they were
received, and no SQUIT takes away the users of ghosts. A command may name an address that
does not read back if its key is not that of another one. -/
def Wholesome (s : Session) : Event → Prop
  | .remote m => SparesGhosts s.link m
  | .cf c => ∀ a ∈ addressesOf c, Readable (normalizeAddress a) → ReadsBack a
  | .storeOp op => (∀ a ∈ keysOf op, ReadsBack a) ∧ FromModem (.storeOp op)
  | _ => True

theorem find?_of_unreadable {st : Store} (hst : Known st) {a : PduAddress}
    (ha : ¬ Readable (normalizeAddress a)) :
    st.recipients.rows.find? (fun r => r.phoneNumber = normalizeAddress a) = none := by
  rw [List.find?_eq_none]
  intro r hr hnum
  rw [decide_eq_true_iff] at hnum
  exact ha (hnum ▸ hst.recipients r hr)

theorem quiet_tick (l : InspLink) : Quiet l { l with store := l.store.tick } :=
  ⟨rfl, rfl, rfl, rfl, fun _ => rfl, rfl, fun _ hu => hu, storeQuiet_of_rows rfl fun _ h => h⟩

theorem quiet_foundRecipient {l : InspLink} (hinv : GhostInv l) {a : PduAddress}
    (ha : ¬ Readable (normalizeAddress a)) {α : Type} {f : Recipient → LinkM α} {g : LinkM α}
    (hg : Steps Quiet Ordinary g) :
    wp (do
        match ← store (getRecipientByAddrOpt a) with
        | some recip => f recip
        | none => g)
      (fun _ t => Quiet l t) (fun e t => Quiet l t ∧ Ordinary e) l := by
  rw [wp_bind, wp_store]
  apply wp_query_of ⟨quiet_tick l, trivial⟩
  rw [Store.tick_recipients, find?_of_unreadable hinv.known ha]
  exact hg.after (quiet_tick l)

theorem preserves_unreadable {c : ContactFactoryCommand} {a : PduAddress}
    (hc : addressesOf c = [a]) (ha : ¬ Readable (normalizeAddress a)) :
    Preserves GhostInv Ordinary (handleCfCommand c) := by
  intro l hinv
  have hkeep : ∀ {p : LinkM Unit},
      wp p (fun _ t => Quiet l t) (fun e t => Quiet l t ∧ Ordinary e) l →
      wp p (fun _ t => GhostInv t) (fun e t => GhostInv t ∧ Ordinary e) l :=
    fun h => wp_mono h (fun _ t ht => ghostInv_of_quiet l t hinv ht)
      fun _ t ht => ⟨ghostInv_of_quiet l t hinv ht.1, ht.2⟩
  have hrequest : ∀ src, Steps Quiet Ordinary (do
      requestCreation a src
      pure false : LinkM Bool) := fun src =>
    Steps.bind (quiet_requestCreation a src) fun _ => steps_pure _
  cases c with
  | setupContact b =>
      cases hc
      exact hkeep (quiet_foundRecipient hinv ha (steps_pure _))
  | dropContact b =>
      cases hc
      apply hkeep
      change wp (dropContact a : LinkM Unit) _ _ l
      rw [dropContact, wp_bind, wp_store, deleteRecipientWithAddr, wp_bind]
      apply wp_query_of ⟨quiet_tick l, trivial⟩
      split
      · rename_i hany
        obtain ⟨r, hr, hnum⟩ := List.any_eq_true.mp hany
        rw [decide_eq_true_iff] at hnum
        exact absurd (hnum ▸ hinv.known.recipients r hr) ha
      · exact ⟨quiet_tick l, trivial⟩
  | queryContact b src =>
      cases hc
      apply hkeep
      change wp (queryContact a src : LinkM Unit) _ _ l
      rw [queryContact, wp_bind, wp_store]
      apply wp_query_of ⟨quiet_tick l, trivial⟩
      rw [Store.tick_recipients, find?_of_unreadable hinv.known ha]
      dsimp only
      rw [wp_bind]
      refine wp_mono ((quiet_cbSend _).after (quiet_tick l)) ?_ fun _ _ he => he
      intro _ t ht
      rw [wp_bind]
      have hfound := quiet_foundRecipient (f := fun recip => do
        setupRecipient recip
        pure true) (ghostInv_of_quiet l t hinv ht) ha (hrequest src)
      exact wp_mono hfound (fun _ _ hu => quiet_trans _ _ _ ht hu)
        fun _ _ hu => ⟨quiet_trans _ _ _ ht hu.1, hu.2⟩
  | forwardCommand b cmd => exact preserves_forwardCmd b cmd l hinv
  | _ => cases hc

theorem preserves_wholesome {c : ContactFactoryCommand}
    (hc : ∀ a ∈ addressesOf c, Readable (normalizeAddress a) → ReadsBack a) :
    Preserves GhostInv Ordinary (handleCfCommand c) := by
  have hone : addressesOf c = [] ∨ ∃ a, addressesOf c = [a] := by
    cases c with
    | setupContact a => exact .inr ⟨a, rfl⟩
    | dropContact a => exact .inr ⟨a, rfl⟩
    | queryContact a src => exact .inr ⟨a, rfl⟩
    | forwardCommand a cmd => exact .inr ⟨a, rfl⟩
    | _ => exact .inl rfl
  rcases hone with hnone | ⟨a, ha⟩
  · exact preserves_handleCfCommand (by rw [hnone]; simp)
  · by_cases hread : Readable (normalizeAddress a)
    · refine preserves_handleCfCommand fun b hb => ?_
      exact hc b hb (by rw [ha, List.mem_singleton] at hb; rwa [hb])
    · exact preserves_unreadable ha hread

theorem sound_wholesome {s t : Session} {e : Event} (he : Wholesome s e) (hs : Sound s)
    (hnext : next s e = some t) : Sound t := by
  obtain ⟨hinv, hout⟩ := hs
  have hkeep : ∀ {p : LinkM Unit}, wp p (fun _ l => GhostInv l)
      (fun e l => GhostInv l ∧ Ordinary e) s.link → Sound (perform s p) :=
    fun h => wp_perform h
  have hold : Tame s e → Sound t := fun h => sound_next h ⟨hinv, hout⟩ hnext
  cases e with
  | connect => exact hold trivial
  | cb c => exact hold trivial
  | clock now dbNow => exact hold trivial
  | cf c =>
      unfold next at hnext
      split at hnext
      · simp only [step] at hnext
        split at hnext
        · cases hnext
          exact hkeep (preserves_wholesome he _ hinv)
        · cases hnext
      · cases hnext
  | storeOp op =>
      cases op with
      | notify a n =>
          obtain rfl := storeOp_calls hnext
          refine ⟨ghostInv_of_quiet _ _ hinv ?_, hout⟩
          exact ⟨rfl, rfl, rfl, rfl, fun _ => rfl, rfl, fun _ hu => hu,
            (quiet_updateRecipient a (fun r => { r with notify := n }) (fun _ => rfl)
              fun _ => rfl).exec s.link.store⟩
      | _ => exact hold he.1
  | remote m =>
      obtain ⟨prefixStr, command⟩ := m
      cases prefixStr with
      | none => exact hold trivial
      | some source =>
          cases command with
          | squit server reason =>
              unfold next at hnext
              split at hnext
              · simp only [step] at hnext
                split at hnext
                · cases hnext
                · cases hnext
                  exact hkeep (wp_handleSquit hinv he)
              · cases hnext
          | _ => exact hold trivial

/-- No message is stored. -/
def Shrinks (s t : InspLink) : Prop :=
  ∀ m ∈ t.store.messages.rows, m ∈ s.store.messages.rows

instance : IsPreorder InspLink Shrinks where
  refl _ := fun _ h => h
  trans _ _ _ hst htu := fun m h => hst m (htu m h)

theorem shrinks_of_idle {α : Type} {p : LinkM α} (h : Moves Idle p) : Moves Shrinks p :=
  h.mono fun _ _ hst _ hm => hst.messages ▸ hm

theorem shrinks_query {α : Type} (f : Store → α) : Moves Shrinks (store (query f) : LinkM α) :=
  shrinks_of_idle (idle_query trivial f)

theorem senderSteps_shrinks : SenderSteps InspLink Shrinks fun _ => True where
  record _ := steps_modify fun _ _ h => h
  getGroupById g := by
    intro l
    rw [wp_store, getGroupById, wp_bind]
    apply wp_query_of ⟨fun _ h => h, trivial⟩
    split
    · exact fun _ h => h
    · exact ⟨fun _ h => h, trivial⟩
  privateTarget := shrinks_of_idle idle_privateTarget
  sendIrcMessage _ _ _ := shrinks_of_idle (idle_contactMessage _ _ _ _)
  ensureJoined ch := shrinks_of_idle (idle_ensureJoined ch)
  getAllConcatenated _ _ := shrinks_query _
  deleteMessage id := by
    intro l
    rw [wp_store, deleteMessage, wp_bind]
    apply wp_query_of ⟨fun _ h => h, trivial⟩
    split
    · exact fun m hm => List.mem_of_mem_filter hm
    · exact ⟨fun _ h => h, trivial⟩
  reportError _ _ := shrinks_of_idle (Steps.bind steps_get fun _ => idle_contactMessage _ _ _ _)
  utcNow := Steps.bind steps_get fun _ => steps_pure _
  error _ := trivial
  messageText := trivial
  concatenatedPdu := trivial
  concatenatedHeader := trivial

theorem shrinks_processMessage (auid : Str) (msg : Message) :
    Moves Shrinks (processMessage auid msg) := by
  refine Steps.bind ?_ fun a => Steps.bind ?_ fun ready => ?_
  · exact steps_getAddr (fun _ => trivial) _
  · refine shrinks_of_idle fun l => ?_
    exact wp_mono (wp_contactReady_idle a msg.source l) (fun _ _ h => h.1)
      fun _ _ h => ⟨h, trivial⟩
  · refine Steps.when (Steps.bind steps_get fun l => Steps.bind ?_ fun ct => ?_)
    · cases l.contacts.lookup a with
      | some ct => exact steps_pure ct
      | none => exact steps_throw trivial
    · split
      · split
        · exact steps_throw trivial
        · exact Steps.bind (shrinks_of_idle (idle_switchMode a auid ct false)) fun _ =>
            senderSteps_shrinks.processMsgPdu _ _ _
      · exact Steps.bind (shrinks_of_idle (idle_switchMode a auid ct true)) fun _ =>
          senderSteps_shrinks.processMsgPlain _ _

theorem shrinks_processMessages : Moves Shrinks processMessages := by
  refine Steps.bind steps_get fun l => ?_
  cases adminUuid l with
  | none => exact steps_pure _
  | some auid =>
      exact Steps.bind (shrinks_query _) fun msgs =>
        Steps.forM fun msg _ => shrinks_processMessage auid msg

theorem filed_of_subset {st st' : Store} (h : Filed st)
    (hm : ∀ m ∈ st'.messages.rows, m ∈ st.messages.rows)
    (hg : ∀ grp ∈ st.groups.rows, ∃ grp' ∈ st'.groups.rows, grp'.id = grp.id) : Filed st' where
  deliverable m h' := h.deliverable m (hm m h')
  placed m h' g hgt := by
    obtain ⟨grp, hgrp, rfl⟩ := h.placed m (hm m h') g hgt
    exact hg grp hgrp
  keyed m h' := h.keyed m (hm m h')

def Files (st st' : Store) : Prop := Filed st → Filed st'

instance : IsPreorder Store Files where
  refl _ := fun h => h
  trans _ _ _ hst htu := fun h => htu (hst h)

theorem files_of_eq {st st' : Store} (hm : st'.messages = st.messages)
    (hg : st'.groups = st.groups) : Files st st' :=
  fun h => filed_of_subset h (fun _ hmem => hm ▸ hmem) fun grp hgrp => ⟨grp, hg ▸ hgrp, rfl⟩

theorem files_tick (st : Store) : Files st st.tick := files_of_eq rfl rfl

theorem files_insert (st : Store) {mk : Nat → Message} (hmk : ∀ n, (mk n).id = n)
    (hrow : ∀ n, Deliverable (mk n)) (hplaced : ∀ n, Placed st (mk n).groupTarget)
    {a : PduAddress} (hkey : ∀ n, (mk n).phoneNumber = normalizeAddress a) :
    Files st { st with messages := st.messages.insert mk hmk } := by
  refine fun h => ⟨fun m hm => ?_, fun m hm => ?_, fun m hm => ?_⟩
  · rcases List.mem_append.mp hm with hm | hm
    · exact h.deliverable m hm
    · rw [List.mem_singleton.mp hm]
      exact hrow _
  · rcases List.mem_append.mp hm with hm | hm
    · exact h.placed m hm
    · rw [List.mem_singleton.mp hm]
      exact hplaced _
  · rcases List.mem_append.mp hm with hm | hm
    · exact h.keyed m hm
    · rw [List.mem_singleton.mp hm]
      exact ⟨a, hkey _⟩

theorem files_storeOp {op : StoreOp} (hop : FromModem (.storeOp op)) : Moves Files op.run := by
  cases op with
  | smsMessage addr raw csms =>
      refine moves_execute files_tick fun st =>
        files_insert _ (a := addr) (fun _ => rfl) (fun n => ?_) ?_ fun _ => rfl
      · exact .inr ⟨addr, raw, rfl, hop⟩
      · exact fun n g hg => by cases hg
  | waMessage addr text gt ts =>
      intro st
      rw [StoreOp.run, storeWaMessage, wp_bind]
      apply wp_query_of ⟨files_tick st, trivial⟩
      split
      · rename_i hvalid
        refine fun h => files_insert st.tick (a := addr) (fun _ => rfl)
          (fun n => .inl ⟨rfl, rfl, text, rfl⟩) (fun n g hg => ?_) (fun _ => rfl)
          (files_tick st h)
        change gt = some g at hg
        rw [hg] at hvalid
        obtain ⟨grp, hgrp, hid⟩ := List.any_eq_true.mp hvalid
        exact ⟨grp, hgrp, by simpa using hid⟩
      · exact ⟨files_tick st, trivial⟩
  | recipient addr nick =>
      exact Steps.bind (moves_insertRecipient files_tick fun _ => files_of_eq rfl rfl)
        fun _ => steps_pure _
  | waRecipient addr nick ntf nicksrc =>
      exact Steps.bind (moves_insertRecipient files_tick fun _ => files_of_eq rfl rfl)
        fun _ => steps_pure _
  | notify addr n => exact moves_execute files_tick fun _ => files_of_eq rfl rfl
  | group jid chan parts adms topic =>
      refine Steps.bind (moves_storeGroup files_tick fun st row hrow _ h => ?_)
        fun _ => steps_pure _
      exact filed_of_subset h (fun _ hm => hm) fun grp hgrp =>
        ⟨grp, List.mem_append_left _ hgrp, rfl⟩
  | updateGroup jid parts adms topic =>
      refine Steps.bind (moves_updateGroup files_tick fun st change hid _ h => ?_)
        fun _ => steps_pure _
      exact filed_of_subset h (fun _ hm => hm) fun grp hgrp =>
        ⟨change grp, List.mem_map_of_mem hgrp, hid grp⟩
  | deleteGroup id =>
      refine moves_checked files_tick fun st h => ⟨fun m hm => ?_, fun m hm g hg => ?_,
        fun m hm => h.keyed m (List.mem_of_mem_filter hm)⟩
      · exact h.deliverable m (List.mem_of_mem_filter hm)
      · obtain ⟨hrow, hkept⟩ := List.mem_filter.mp hm
        obtain ⟨grp, hgrp, rfl⟩ := h.placed m hrow g hg
        refine ⟨grp, List.mem_filter.mpr ⟨hgrp, ?_⟩, rfl⟩
        rw [decide_eq_true_iff] at hkept ⊢
        exact fun heq => hkept (hg.trans (congrArg some heq))
  | waMsgid id => exact moves_execute files_tick fun _ => files_of_eq rfl rfl
  | waPersistence p => exact moves_execute files_tick fun _ => files_of_eq rfl rfl

theorem groups_of_effects {c r : Prop} {s t : InspLink} (h : Effects c r s t) :
    t.store.groups = s.store.groups := by
  refine h.invariant (I := fun t => t.store.groups = s.store.groups) ?_ rfl
  intro t u ht hu
  refine Eq.trans ?_ ht
  cases hu with
  | apart h => exact h.groups
  | _ => rfl

theorem filed_next {s t : Session} {e : Event} (he : FromModem e)
    (hs : Filed s.link.store) (hnext : next s e = some t) : Filed t.link.store := by
  by_cases hop : ∃ op, e = .storeOp op
  · obtain ⟨op, rfl⟩ := hop
    obtain rfl := storeOp_calls hnext
    exact (files_storeOp he).exec _ hs
  · have hne : ∀ op, e ≠ .storeOp op := fun op h => hop ⟨op, h⟩
    refine filed_of_subset hs ?_ ?_
    · rcases via_of_next hne hnext with hsame | ⟨u, hu, hrun⟩
      · exact fun m hm => hsame.messages ▸ hm
      · have hshrinks := shrinks_processMessages.exec u
        rw [hrun] at hshrinks
        exact fun m hm => hu.messages ▸ hshrinks m hm
    · have hgroups : t.link.store.groups = s.link.store.groups := by
        obtain ⟨-, u, hopen, heffects⟩ :=
          LinkEvents.happened_of_next (c := True) (r := True) (fun _ => trivial)
            (fun _ => trivial) hnext
        apply (groups_of_effects heffects).trans
        cases hopen with
        | connected h => exact (groups_of_effects h :)
        | linked h => exact (groups_of_effects h :)
        | stored => exact absurd rfl (hne _)
        | _ => rfl
      exact fun grp hgrp => ⟨grp, hgroups ▸ hgrp, rfl⟩

theorem fromModem_of_wholesome {s : Session} {e : Event} (he : Wholesome s e) : FromModem e := by
  cases e with
  | storeOp op => exact he.2
  | _ => trivial

/-- In a wholesome run the bookkeeping holds, and all rows are as they were stored. -/
theorem kept_of_run {cfg : InspConfig} {st : Store} {now : NaiveDateTime} {es : List Event}
    {t : Session} (hst : Known st) (hfiled : Filed st)
    (hes : AllSteps next Wholesome (initial cfg st now) es)
    (hrun : run next (initial cfg st now) es = some t) : Sound t ∧ Filed t.link.store :=
  invariant_of_allSteps (I := fun t => Sound t ∧ Filed t.link.store)
    (fun _ _ _ he hs hnext =>
      ⟨sound_wholesome he hs.1 hnext, filed_next (fromModem_of_wholesome he) hs.2 hnext⟩) hes
    ⟨⟨ghostInv_initial cfg hst now, by simp [initial]⟩, hfiled⟩ hrun

/-- In a wholesome run `process_messages` succeeds in every state in which the database
is up and there are UUIDs for the new contacts, and the database stays fit for the next run. -/
theorem processed_of_run {cfg : InspConfig} {st : Store} {now : NaiveDateTime}
    {es : List Event} {t : Session} (hst : Known st) (hfiled : Filed st)
    (hes : AllSteps next Wholesome (initial cfg st now) es)
    (hrun : run next (initial cfg st now) es = some t) :
    (Known t.link.store ∧ Filed t.link.store) ∧
      (Up t.link.store → Enough t.link.store.messages.rows t.link →
        (exec processMessages t.link).1 = .ok ()) := by
  obtain ⟨⟨hinv, -⟩, hfiled'⟩ := kept_of_run hst hfiled hes hrun
  refine ⟨⟨hinv.known, hfiled'⟩, fun hup henough => ?_⟩
  have hfails := fails_processMessages (F := fun _ => False) hinv hfiled'
    (fun n hn => by rw [hup n] at hn; cases hn) fun hnot => hnot henough
  unfold wp at hfails
  rcases hexec : exec processMessages t.link with ⟨e | _, u⟩
  · rw [hexec] at hfails
    exact hfails.elim
  · rfl

end Poison

section Samples

attribute [local instance] Sample.crates

/-- An SMS from `alice`, who has a recipient but no ghost, comes in on a link. -/
def receiving : List Event :=
  linking ++ [.storeOp (.recipient Sample.alice ['a']),
    .storeOp (.smsMessage Sample.alice (Sample.pdu none ['h', 'i']) none)]

def receivingSession : Session := (run next sampleStart receiving).get (by decide +kernel)

def receivingLink : InspLink := receivingSession.link

theorem wholesome_linking : ∀ e ∈ linking, ∀ s, Wholesome s e := by
  simp [linking, Wholesome, SparesGhosts]

theorem wholesome_receiving : ∀ e ∈ receiving, ∀ s, Wholesome s e := by
  have halice : ∀ b ∈ [Sample.alice], ReadsBack b :=
    fun b hb => List.mem_singleton.mp hb ▸ Sample.readsBack_alice
  intro e he
  rcases List.mem_append.mp he with he | he
  · exact wholesome_linking e he
  · simp only [List.mem_cons, List.not_mem_nil, or_false] at he
    rcases he with rfl | rfl
    · exact fun _ => ⟨halice, trivial⟩
    · exact fun _ => ⟨halice, _, rfl, rfl, rfl⟩

theorem filed_sampleStore : Filed Sample.store :=
  ⟨fun _ h => absurd h List.not_mem_nil, fun _ h => absurd h List.not_mem_nil,
    fun _ h => absurd h List.not_mem_nil⟩

theorem enough_of_alice {l : InspLink}
    (hnumbers : l.store.messages.rows.map Message.phoneNumber = [normalizeAddress Sample.alice])
    (hnext : l.nextUserId ≤ 2) : Enough l.store.messages.rows l := by
  intro nums hnodup hnew
  have hsub : nums ⊆ [normalizeAddress Sample.alice] := by
    intro num hnum
    obtain ⟨⟨m, hm, rfl⟩, -⟩ := hnew num hnum
    rw [← hnumbers]
    exact List.mem_map_of_mem hm
  have hle := (List.subperm_of_subset hnodup hsub).length_le
  rw [List.length_singleton] at hle
  omega

theorem processed_receiving : (exec processMessages receivingLink).1 = .ok () := by
  have hrun : run next sampleStart receiving = some receivingSession := (Option.some_get _).symm
  have hnumbers : receivingLink.store.messages.rows.map Message.phoneNumber =
      [normalizeAddress Sample.alice] := by decide +kernel
  have hnext : receivingLink.nextUserId = 1 := by decide +kernel
  have hup : Up receivingLink.store := fun n => by
    have hdown : receivingLink.store.dbDown = fun _ => false := by rfl
    rw [hdown]
  refine (processed_of_run known_sampleStore filed_sampleStore
    (allSteps_of_forall_mem wholesome_receiving _) hrun).2 hup ?_
  exact enough_of_alice hnumbers (Nat.le_trans (Nat.le_of_eq hnext) (by decide))

/-- The server says that the bridge has split off; then an SMS of a ghost comes in. -/
def splitting : List Event :=
  .storeOp (.recipient Sample.alice ['a']) :: linking ++
    [.remote ⟨some ("00B" : Str), .squit ("00A" : Str) ("bye" : Str)⟩,
      .storeOp (.smsMessage Sample.alice (Sample.pdu none ['h', 'i']) none)]

def splitSession : Session := (run next sampleStart splitting).get (by decide +kernel)

/-- What is put into the database is what the modem and WhatsApp deliver. -/
def Genuine : Event → Prop
  | .storeOp op => (∀ a ∈ keysOf op, ReadsBack a) ∧ FromModem (.storeOp op)
  | _ => True

theorem genuine_splitting : ∀ e ∈ splitting, Genuine e := by
  have halice : ∀ b ∈ [Sample.alice], ReadsBack b :=
    fun b hb => List.mem_singleton.mp hb ▸ Sample.readsBack_alice
  intro e he
  rcases List.mem_cons.mp he with rfl | he
  · exact ⟨halice, trivial⟩
  · rcases List.mem_append.mp he with he | he
    · simp only [linking, List.mem_cons, List.not_mem_nil, or_false] at he
      rcases he with rfl | rfl | rfl | rfl
      all_goals trivial
    · simp only [List.mem_cons, List.not_mem_nil, or_false] at he
      rcases he with rfl | rfl
      · trivial
      · exact ⟨halice, _, rfl, rfl, rfl⟩

/-- The rows of a ghost that has lost its user make `process_messages` fail. -/
theorem split_fails : ¬ ∀ (es : List Event) (t : Session), (∀ e ∈ es, Genuine e) →
    run next sampleStart es = some t → Up t.link.store →
      Enough t.link.store.messages.rows t.link → (exec processMessages t.link).1 = .ok () := by
  intro h
  have hrun : run next sampleStart splitting = some splitSession := (Option.some_get _).symm
  have hup : Up splitSession.link.store := fun n => by
    have hdown : splitSession.link.store.dbDown = fun _ => false := by rfl
    rw [hdown]
  have hnumbers : splitSession.link.store.messages.rows.map Message.phoneNumber =
      [normalizeAddress Sample.alice] := by decide +kernel
  have hnext : splitSession.link.nextUserId = 2 := by decide +kernel
  have hfails : (exec processMessages splitSession.link).1.isOk = false := by decide +kernel
  have hok : (exec processMessages splitSession.link).1 = .ok () :=
    h splitting splitSession genuine_splitting hrun hup
      (enough_of_alice hnumbers (Nat.le_of_eq hnext))
  rw [hok] at hfails
  cases hfails

end Samples

end SmsIrc.LinkPoison
