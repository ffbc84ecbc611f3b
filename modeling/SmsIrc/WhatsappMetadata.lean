import SmsIrc.WhatsappFrame

/-!
When the metadata of a group can be handled: the group must have a row, or must be
bridged automatically.
-/

namespace SmsIrc.WhatsappMetadata

open SmsIrc.Comm SmsIrc.Database SmsIrc.External SmsIrc.HashMaps SmsIrc.Models SmsIrc.Program
open SmsIrc.SenderCommon SmsIrc.SerialTable SmsIrc.Text SmsIrc.Util SmsIrc.Whatsapp
open SmsIrc.WhatsappFrame SmsIrc.WhatsappRuns

section Metadata

variable [Crates]

/-- A JID is that of a phone number. -/
def Translates (jid : Jid) : Prop :=
  ∃ pn a, Crates.phonenumber jid = some pn ∧ Crates.parseAddress pn = some a ∧
    0 < a.number.length

/-- A group has a row. -/
def HasRow (st : Store) (jid : Jid) : Prop :=
  ∃ g ∈ st.groups.rows, g.jid = Crates.displayJid jid

/-- Nothing prevents that a group is bridged to a channel. -/
structure Bridgeable (m : WhatsappManager) (jid : Jid) (chan : Str) : Prop where
  unused : ∀ g ∈ m.msgproc.store.groups.rows, g.channel ≠ chan
  online : online m = true
  isGroup : jid.isGroup = true

/-- Nor that it is bridged automatically. -/
def Creatable (m : WhatsappManager) (grp : GroupMetadata) : Prop :=
  ∃ pre, m.autocreate = some pre ∧
    Bridgeable m grp.id (pre ++ ['-'] ++ stringToIrcChan grp.subject)

theorem creatable_congr {m m' : WhatsappManager} {grp : GroupMetadata}
    (hauto : m'.autocreate = m.autocreate)
    (hgroups : m'.msgproc.store.groups = m.msgproc.store.groups) (honline : online m' = online m) :
    Creatable m' grp ↔ Creatable m grp := by
  have hiff : ∀ chan, Bridgeable m' grp.id chan ↔ Bridgeable m grp.id chan := by
    intro chan
    constructor
    · intro h
      exact ⟨hgroups ▸ h.unused, honline ▸ h.online, h.isGroup⟩
    · intro h
      exact ⟨hgroups ▸ h.unused, honline.trans h.online, h.isGroup⟩
  simp only [Creatable, hauto, hiff]

/-- Neither the groups nor the failures of the database change. -/
structure SameGroups (st st' : Store) : Prop where
  groups : st'.groups = st.groups
  dbDown : st'.dbDown = st.dbDown

instance : IsPreorder Store SameGroups where
  refl _ := ⟨rfl, rfl⟩
  trans _ _ _ h h' := ⟨h'.groups.trans h.groups, h'.dbDown.trans h.dbDown⟩

theorem SameGroups.up {st st' : Store} (h : SameGroups st st') (hup : Up st) : Up st' := by
  intro n
  rw [h.dbDown]
  exact hup n

theorem SameGroups.hasRow_iff {st st' : Store} (h : SameGroups st st') (jid : Jid) :
    HasRow st' jid ↔ HasRow st jid := by
  rw [HasRow, HasRow, h.groups]

theorem sameGroups_query {α : Type} (f : Store → α) : Moves SameGroups (query f) :=
  fun _ => wp_query_of ⟨⟨rfl, rfl⟩, trivial⟩ ⟨rfl, rfl⟩

/-- The same of the database of a manager. -/
def Settled (m m' : WhatsappManager) : Prop := SameGroups m.msgproc.store m'.msgproc.store

instance : IsPreorder WhatsappManager Settled where
  refl m := Std.Refl.refl (r := SameGroups) m.msgproc.store
  trans _ _ _ h h' := IsTrans.trans (r := SameGroups) _ _ _ h h'

theorem lookups_settled : Lookups Settled where
  query f := moves_store (sameGroups_query f) fun _ _ h => h
  newRecipient _ _ _ _ _ := by
    refine moves_store (Steps.bind (sameGroups_query _) fun taken => ?_) fun _ _ h => h
    split
    · exact steps_throw trivial
    · exact steps_get_bind fun _ => ⟨rfl, rfl⟩
  cf _ _ := steps_modify fun _ => ⟨rfl, rfl⟩

theorem Translates.wp_jidToAddress {jid : Jid} (hjid : Translates jid)
    {Q : Option PduAddress → WhatsappManager → Prop} {E : Failure → WhatsappManager → Prop}
    {m : WhatsappManager} (hQ : ∀ a, Q (some a) m) :
    wp (jidToAddress jid : WaM (Option PduAddress)) Q E m := by
  obtain ⟨pn, a, hpn, ha, hlen⟩ := hjid
  have haddr : HasAddress jid a := ⟨pn, hpn, ha, List.ne_nil_of_length_pos hlen⟩
  refine wp_mono (WhatsappFrame.wp_jidToAddress jid m) ?_ ?_
  · rintro (_ | a') _ ⟨rfl, -, hnone⟩
    · rw [haddr.not_addressless] at hnone
      exact absurd (hnone rfl) Bool.false_ne_true
    · exact hQ a'
  · rintro _ _ ⟨-, pn', hpn', ha'⟩
    rw [hpn] at hpn'
    cases hpn'
    rw [ha] at ha'
    cases ha'

theorem wp_getNickForJid {jid : Jid} (hjid : Translates jid) (m : WhatsappManager) :
    wp (getNickForJid jid) (fun _ t => t = m) (fun _ _ => False) m := by
  rw [getNickForJid, wp_bind, wp_get]
  dsimp only
  split
  · rfl
  · rfl
  · rw [wp_bind]
    exact hjid.wp_jidToAddress fun a => rfl

theorem wp_insertRecipient {st : Store} (hup : Up st) {a : PduAddress}
    (hfree : st.recipients.rows.find? (fun r => r.phoneNumber = normalizeAddress a) = none)
    (row : Nat → Recipient) (hrow : ∀ n, (row n).id = n) :
    wp (insertRecipient a row hrow) (fun _ _ => True) (fun _ _ => False) st := by
  rw [insertRecipient, wp_bind, hup.wp_query]
  have htaken : (st.tick.recipients.rows.any fun r => r.phoneNumber = normalizeAddress a) =
      false := by
    simpa using hfree
  rw [htaken]
  trivial

theorem wp_recipientFor {jid : Jid} (hjid : Translates jid) (a : PduAddress)
    {m : WhatsappManager} (hup : Up m.msgproc.store) :
    wp (recipientFor jid a) (fun _ _ => True) (fun _ _ => False) m := by
  rw [recipientFor, wp_bind, WhatsappFrame.wp_store, getRecipientByAddrOpt, hup.wp_query]
  cases hfind : m.msgproc.store.tick.recipients.rows.find? fun r =>
      r.phoneNumber = normalizeAddress a with
  | some r => trivial
  | none =>
      dsimp only
      rw [wp_bind]
      refine wp_mono (wp_getNickForJid hjid _) ?_ fun _ _ h => h
      rintro ⟨nick, src⟩ _ rfl
      rw [wp_bind, wp_get, wp_bind, WhatsappFrame.wp_store]
      have hup' : Up m.msgproc.store.tick := hup
      exact wp_mono (wp_insertRecipient hup' hfind _ fun _ => rfl) (fun _ _ _ => trivial)
        fun _ _ h => h

theorem wp_getWaRecipient {jid : Jid} (hjid : Translates jid) {m : WhatsappManager}
    (hup : Up m.msgproc.store) :
    wp (getWaRecipient jid) (fun _ t => Settled m t) (fun _ _ => False) m := by
  have hok : wp (getWaRecipient jid) (fun _ _ => True) (fun _ _ => False) m := by
    rw [getWaRecipient, wp_bind]
    exact hjid.wp_jidToAddress fun a => wp_recipientFor hjid a hup
  exact wp_mono (wp_and (lookups_settled.getWaRecipient jid m) hok) (fun _ _ h => h.1)
    fun _ _ h => h.2

theorem wp_participants {ps : List (Jid × Bool)} (hps : ∀ p ∈ ps, Translates p.1)
    {m : WhatsappManager} (hup : Up m.msgproc.store) :
    wp (ps.mapM participantOf) (fun _ t => Settled m t) (fun _ _ => False) m := by
  induction ps generalizing m with
  | nil => exact Std.Refl.refl (r := Settled) m
  | cons p ps ih =>
      rw [List.mapM_cons, wp_bind, participantOf, wp_bind]
      refine wp_mono (wp_getWaRecipient (hps p (by simp)) hup) ?_ fun _ _ h => h
      intro recip t ht
      rw [wp_pure, wp_bind]
      refine wp_mono (ih (fun q hq => hps q (by simp [hq])) (ht.up hup)) ?_ fun _ _ h => h
      intro _ u hu
      exact IsTrans.trans (r := Settled) _ _ _ ht hu

/-- The row of a group is updated if there is one, and the update of no row is an
error. -/
theorem wp_updateGroup {st : Store} (hup : Up st) (jid : Jid) (parts adms : List Nat)
    (topic : Str) :
    wp (updateGroup jid parts adms topic) (fun _ st' => HasRow st jid ∧ Up st' ∧ HasRow st' jid)
      (fun _ _ => ¬ HasRow st jid) st := by
  unfold updateGroup
  dsimp only
  rw [wp_bind, execute, wp_bind, hup.wp_query, wp_modify, wp_bind, wp_get]
  split
  · rename_i g hg
    have hmem := List.mem_of_find?_eq_some hg
    have hjid := List.find?_some hg
    obtain ⟨g', hg', rfl⟩ := List.mem_map.mp hmem
    have hbridged : HasRow st jid := by
      refine ⟨g', hg', ?_⟩
      by_contra hne
      simp [hne] at hjid
    exact ⟨hbridged, hup, _, hmem, by simpa using hjid⟩
  · rename_i hnone
    rintro ⟨g, hg, hjid⟩
    have hno := List.find?_eq_none.mp hnone _ (List.mem_map_of_mem hg)
    simp [hjid] at hno

theorem wp_updateFromMetadata {grp : GroupMetadata} (hps : ∀ p ∈ grp.participants, Translates p.1)
    {m : WhatsappManager} (hup : Up m.msgproc.store) :
    wp (updateFromMetadata grp)
      (fun _ t => HasRow m.msgproc.store grp.id ∧ Up t.msgproc.store ∧
        HasRow t.msgproc.store grp.id)
      (fun _ _ => ¬ HasRow m.msgproc.store grp.id) m := by
  rw [updateFromMetadata, wp_bind]
  refine wp_mono (wp_participants hps hup) ?_ fun _ _ h => h.elim
  intro recips t ht
  rw [wp_bind, WhatsappFrame.wp_store]
  have hiff := ht.hasRow_iff grp.id
  refine wp_mono (wp_updateGroup (ht.up hup) grp.id _ _ _) ?_ fun _ _ h => mt hiff.mpr h
  rintro _ st ⟨hbridged, hup', hbridged'⟩
  exact ⟨hiff.mp hbridged, hup', hbridged'⟩

theorem hasRow_iff_find? {st : Store} {jid : Jid} :
    st.groups.rows.find? (fun g => g.jid = Crates.displayJid jid) = none ↔ ¬ HasRow st jid := by
  rw [List.find?_eq_none, HasRow]
  simp

/-- A row is inserted for a group that has none, and a channel that is not used. -/
theorem wp_storeGroup {st : Store} (hup : Up st) {jid : Jid} {chan : Str}
    (hjid : ¬ HasRow st jid) (hchan : ∀ g ∈ st.groups.rows, g.channel ≠ chan)
    (parts adms : List Nat) (topic : Str) :
    wp (storeGroup jid chan parts adms topic) (fun _ st' => Up st' ∧ HasRow st' jid)
      (fun _ _ => False) st := by
  unfold storeGroup
  dsimp only
  rw [wp_bind, hup.wp_query]
  have htaken : (st.tick.groups.rows.any fun g =>
      decide (g.jid = Crates.displayJid jid) || decide (g.channel = chan)) = false := by
    rw [List.any_eq_false]
    intro g hg
    have hne : g.jid ≠ Crates.displayJid jid := fun h => hjid ⟨g, hg, h⟩
    simp [hne, hchan g hg]
  rw [htaken]
  exact ⟨hup, _, List.mem_append_right _ (List.mem_singleton_self _), rfl⟩

/-- A group is bridged exactly if nothing prevents it. -/
theorem wp_groupAssociate {m : WhatsappManager} (hup : Up m.msgproc.store) {jid : Jid}
    (hnone : ¬ HasRow m.msgproc.store jid) (chan : Str) :
    wp (groupAssociate jid chan false)
      (fun _ t => Bridgeable m jid chan ∧ Up t.msgproc.store ∧ HasRow t.msgproc.store jid)
      (fun e t => ¬ Bridgeable m jid chan ∧ Settled m t ∧ ∀ site, e ≠ .panic site) m := by
  have hfind := hasRow_iff_find?.mpr hnone
  rw [groupAssociate, wp_bind, checkUnbridged, wp_bind, WhatsappFrame.wp_store,
    getGroupByJidOpt, hup.wp_query, Store.tick_groups, hfind]
  dsimp only
  rw [wp_pure, wp_bind, checkUnused, wp_bind, WhatsappFrame.wp_store, getGroupByChanOpt]
  have hup' : Up (setStore m m.msgproc.store.tick).msgproc.store := hup
  rw [hup'.wp_query]
  split
  · rename_i g hg
    refine ⟨fun h => ?_, ⟨rfl, rfl⟩, by simp⟩
    exact h.unused g (List.mem_of_find?_eq_some hg) (by simpa using List.find?_some hg)
  rename_i hunused
  have hchan : ∀ g ∈ m.msgproc.store.groups.rows, g.channel ≠ chan := by
    intro g hg
    simpa using List.find?_eq_none.mp hunused g hg
  rw [wp_pure, wp_bind, checkOnline, wp_bind, wp_get]
  split
  · rename_i hoff
    refine ⟨fun h => ?_, ⟨rfl, rfl⟩, by simp⟩
    change (!online m) = true at hoff
    rw [h.online] at hoff
    cases hoff
  rename_i hon
  change ¬ (!online m) = true at hon
  split
  · rename_i hgroup
    refine ⟨fun h => ?_, ⟨rfl, rfl⟩, by simp⟩
    rw [h.isGroup] at hgroup
    cases hgroup
  rename_i hgroup
  have hbridgeable : Bridgeable m jid chan := ⟨hchan, by simpa using hon, by simpa using hgroup⟩
  have hup'' : Up m.msgproc.store.tick.tick := hup
  rw [wp_pure, wp_bind, WhatsappFrame.wp_store]
  refine wp_mono (wp_storeGroup hup'' hnone hchan _ _ _) ?_ fun _ _ h => h.elim
  rintro grp st ⟨hst, hbridged⟩
  exact ⟨hbridgeable, hst, hbridged⟩

theorem wp_onGotGroupMetadata_bridged (depth : Nat) {grp : GroupMetadata}
    (hps : ∀ p ∈ grp.participants, Translates p.1) {m : WhatsappManager}
    (hup : Up m.msgproc.store) (hbridged : HasRow m.msgproc.store grp.id) :
    wp (onGotGroupMetadata (depth + 1) grp)
      (fun _ t => Up t.msgproc.store ∧ HasRow t.msgproc.store grp.id) (fun _ _ => False) m := by
  rw [onGotGroupMetadata, wp_bind, bridgeFromMetadata, wp_bind, WhatsappFrame.wp_store,
    getGroupByJidOpt, hup.wp_query]
  split
  · rw [logRecord, wp_modify]
    exact wp_mono (wp_updateFromMetadata hps hup) (fun _ _ h => h.2) fun _ _ h => h hbridged
  · rename_i hnone
    exact absurd hbridged (hasRow_iff_find?.mp hnone)

/-- A group without a row is bridged automatically exactly if it can be. -/
theorem wp_groupAutocreate (depth : Nat) {grp : GroupMetadata}
    (hps : ∀ p ∈ grp.participants, Translates p.1) {m : WhatsappManager}
    (hup : Up m.msgproc.store) (hnone : ¬ HasRow m.msgproc.store grp.id)
    (hauto : m.autocreate.isSome) :
    wp (groupAutocreate (onGotGroupMetadata (depth + 1)) grp)
      (fun _ t => Creatable m grp ∧ Up t.msgproc.store ∧ HasRow t.msgproc.store grp.id)
      (fun e t => ¬ Creatable m grp ∧ Settled m t ∧ ∀ site, e ≠ .panic site) m := by
  obtain ⟨pre, hpre⟩ := Option.isSome_iff_exists.mp hauto
  have hiff : Creatable m grp ↔
      Bridgeable m grp.id (pre ++ ['-'] ++ stringToIrcChan grp.subject) := by
    simp [Creatable, hpre]
  rw [groupAutocreate, wp_bind, autocreateChan, wp_bind, wp_get, hpre, wp_bind, wp_unwrap_some,
    wp_pure, wp_bind, hiff]
  refine wp_mono (wp_groupAssociate hup hnone _) ?_ fun _ _ h => h
  rintro id t ⟨hcan, hup', hbridged⟩
  rw [wp_bind]
  refine wp_mono (wp_onGotGroupMetadata_bridged depth hps hup' hbridged) ?_ fun _ _ h => h.elim
  intro _ u hu
  exact ⟨hcan, hu⟩

theorem wp_bridgeFromMetadata (depth : Nat) {grp : GroupMetadata}
    (hps : ∀ p ∈ grp.participants, Translates p.1) {m : WhatsappManager}
    (hup : Up m.msgproc.store) (hnone : ¬ HasRow m.msgproc.store grp.id) :
    wp (bridgeFromMetadata (onGotGroupMetadata (depth + 1)) grp)
      (fun _ t => Up t.msgproc.store ∧ (HasRow t.msgproc.store grp.id ↔ Creatable m grp))
      (fun _ _ => False) m := by
  rw [bridgeFromMetadata, wp_bind, WhatsappFrame.wp_store, getGroupByJidOpt, hup.wp_query,
    Store.tick_groups, hasRow_iff_find?.mpr hnone]
  dsimp only
  rw [wp_bind, logRecord, wp_modify, wp_bind, wp_get, wp_when]
  split
  · rename_i hauto
    rw [wp_bind]
    have hrun := wp_groupAutocreate depth hps (m := { setStore m m.msgproc.store.tick with
      cbTx := _ }) hup hnone hauto
    refine wp_attempt (wp_mono hrun ?_ ?_) (wp_mono hrun (fun _ _ _ => trivial) ?_)
    · rintro r t ⟨hcan, hup', hbridged⟩
      exact ⟨hup', fun _ => (creatable_congr (by rfl) (by rfl) (by rfl)).mp hcan, fun _ => hbridged⟩
    · rintro e t ⟨hno, ht, -⟩ -
      have hno' : ¬ HasRow t.msgproc.store grp.id := fun h => hnone ((ht.hasRow_iff grp.id).mp h)
      exact ⟨ht.up hup, fun h => (hno' h).elim,
        fun h => (hno ((creatable_congr (by rfl) (by rfl) (by rfl)).mpr h)).elim⟩
    · rintro e t ⟨-, -, hpanic⟩ site rfl
      exact absurd rfl (hpanic site)
  · rename_i hauto
    refine ⟨hup, fun h => absurd h hnone, ?_⟩
    rintro ⟨pre, hpre, -⟩
    have hpre' : m.autocreate.isSome = true := by rw [hpre]; rfl
    exact absurd hpre' hauto

theorem wp_onGotGroupMetadata {grp : GroupMetadata}
    (hps : ∀ p ∈ grp.participants, Translates p.1) {m : WhatsappManager}
    (hup : Up m.msgproc.store) :
    wp (onGotGroupMetadata metadataDepth grp)
      (fun _ _ => HasRow m.msgproc.store grp.id ∨ Creatable m grp)
      (fun _ _ => ¬ (HasRow m.msgproc.store grp.id ∨ Creatable m grp)) m := by
  by_cases hbridged : HasRow m.msgproc.store grp.id
  · exact wp_mono (wp_onGotGroupMetadata_bridged 1 hps hup hbridged)
      (fun _ _ _ => .inl hbridged) fun _ _ h => h.elim
  · rw [metadataDepth, onGotGroupMetadata, wp_bind]
    refine wp_mono (wp_bridgeFromMetadata 0 hps hup hbridged) ?_ fun _ _ h => h.elim
    rintro _ t ⟨hup', hiff⟩
    refine wp_mono (wp_updateFromMetadata hps hup') ?_ ?_
    · intro _ _ h
      exact .inr (hiff.mp h.1)
    · rintro _ _ hno (h | h)
      · exact hbridged h
      · exact hno (hiff.mpr h)

/-- Metadata of a group whose participants all translate to addresses are handled
without an error exactly if the group has a row or can be bridged automatically. -/
theorem onGotGroupMetadata_isOk_iff {grp : GroupMetadata}
    (hps : ∀ p ∈ grp.participants, Translates p.1) {m : WhatsappManager}
    (hup : Up m.msgproc.store) :
    (exec (onGotGroupMetadata metadataDepth grp) m).1.isOk = true ↔
      HasRow m.msgproc.store grp.id ∨ Creatable m grp := by
  have h := wp_onGotGroupMetadata hps hup
  unfold wp at h
  rcases hp : exec (onGotGroupMetadata metadataDepth grp) m with ⟨_ | _, t⟩
  · rw [hp] at h
    exact iff_of_false (by simp [Except.isOk, Except.toBool]) h
  · rw [hp] at h
    exact iff_of_true rfl h

end Metadata

section Samples

attribute [local instance] Sample.crates

theorem up_sampleManager : Up sampleManager.msgproc.store := fun _ => rfl

/-- A group that was unbridged after its metadata had been requested. -/
def unbridged : GroupMetadata :=
  ⟨⟨("1" : Str), true⟩, ("s" : Str), [(⟨("44123" : Str), false⟩, true)]⟩

theorem translates_unbridged : ∀ p ∈ unbridged.participants, Translates p.1 := by
  intro p hp
  rw [List.mem_singleton.mp hp]
  exact ⟨("+44123" : Str), Sample.alice, by decide, by decide, by decide⟩

theorem onGotGroupMetadata_isOk_iff_unbridged :
    (exec (onGotGroupMetadata metadataDepth unbridged) sampleManager).1.isOk = true ↔
      HasRow sampleManager.msgproc.store unbridged.id ∨ Creatable sampleManager unbridged :=
  onGotGroupMetadata_isOk_iff translates_unbridged up_sampleManager

theorem unbridged_fails : ¬ ∀ (m : WhatsappManager) (grp : GroupMetadata),
    Up m.msgproc.store → (∀ p ∈ grp.participants, Translates p.1) →
      (exec (onGotGroupMetadata metadataDepth grp) m).1.isOk = true := by
  intro h
  exact absurd (h sampleManager unbridged up_sampleManager translates_unbridged) (by decide +kernel)

end Samples

end SmsIrc.WhatsappMetadata
