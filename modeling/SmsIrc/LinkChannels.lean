import SmsIrc.LinkEffects

/-!
The channels that a link takes messages of the admin for.
-/

namespace SmsIrc.LinkChannels

open SmsIrc.Comm SmsIrc.Database SmsIrc.External SmsIrc.HashMaps SmsIrc.Link SmsIrc.LinkEffects
open SmsIrc.LinkGhosts SmsIrc.LinkRuns SmsIrc.Models SmsIrc.Program SmsIrc.SenderCommon
open SmsIrc.SerialTable SmsIrc.Text SmsIrc.Transition SmsIrc.Util

section Channels

variable [Crates]

/-- A channel is that of a group in the database. -/
def Bridged (st : Store) (ch : Str) : Prop := ∃ grp ∈ st.groups.rows, grp.channel = ch

/-- It is that of a group which the recipient of an address takes part in. -/
def BridgedFor (st : Store) (a : PduAddress) (ch : Str) : Prop :=
  ∃ r grp, st.recipients.rows.find? (fun r => r.phoneNumber = normalizeAddress a) = some r ∧
    grp ∈ st.groups.rows ∧ grp.participants.contains r.id = true ∧ grp.channel = ch

/-- What the admin writes to the channels of groups, and only that, is for the groups. -/
structure AllWritable (l : InspLink) : Prop where
  channels : ∀ ch, ch ∈ l.channels ↔ Bridged l.store ch
  passed : ∀ source ch msg, Bridged l.store ch → adminUuid l = some source →
    ch ≠ l.controlUuid → exec (handleRemoteMessage ⟨some source, .privmsg ch msg⟩) l =
      (.ok (), { l with waTx := l.waTx ++ [.sendGroupMessage ch msg] })

theorem exec_privmsg_group {l : InspLink} {source ch msg : Str}
    (hadmin : adminUuid l = some source) (hcontrol : ch ≠ l.controlUuid) (hch : ch ∈ l.channels) :
    exec (handleRemoteMessage ⟨some source, .privmsg ch msg⟩) l =
      (.ok (), { l with waTx := l.waTx ++ [.sendGroupMessage ch msg] }) := by
  change exec (handlePrivmsg source ch msg) l = _
  rw [handlePrivmsg, exec_bind_ok (exec_get l), if_neg (by rw [hadmin]; exact fun h => h rfl),
    if_neg hcontrol, if_pos hch]
  rfl

theorem allWritable_of_channels {l : InspLink} (h : ∀ ch, ch ∈ l.channels ↔ Bridged l.store ch) :
    AllWritable l :=
  ⟨h, fun _ ch _ hch hadmin hcontrol => exec_privmsg_group hadmin hcontrol ((h ch).mpr hch)⟩

/-- A step that leaves the two tables alone, after which the link has the channels `P` too. -/
structure Gains (P : Str → Prop) (s t : InspLink) : Prop where
  recipients : t.store.recipients = s.store.recipients
  groups : t.store.groups = s.store.groups
  channels : ∀ ch, ch ∈ t.channels ↔ ch ∈ s.channels ∨ P ch

/-- A step that leaves the channels alone too. -/
abbrev GainsNone : InspLink → InspLink → Prop := Gains fun _ => False

theorem gains_none {s t : InspLink} (hrec : t.store.recipients = s.store.recipients)
    (hgroups : t.store.groups = s.store.groups) (hchannels : t.channels = s.channels) :
    GainsNone s t := by
  refine ⟨hrec, hgroups, fun ch => ?_⟩
  rw [hchannels, or_false]

theorem Gains.trans {P Q : Str → Prop} {s t u : InspLink} (hst : Gains P s t)
    (htu : Gains Q t u) : Gains (fun ch => P ch ∨ Q ch) s u := by
  refine ⟨htu.recipients.trans hst.recipients, htu.groups.trans hst.groups, fun ch => ?_⟩
  rw [htu.channels, hst.channels, or_assoc]

theorem Gains.congr {P Q : Str → Prop} {s t : InspLink} (h : Gains P s t)
    (hPQ : ∀ ch, P ch ↔ Q ch) : Gains Q s t := by
  refine ⟨h.recipients, h.groups, fun ch => ?_⟩
  rw [h.channels, hPQ]

theorem Gains.after {P : Str → Prop} {s t u : InspLink} (hst : GainsNone s t)
    (htu : Gains P t u) : Gains P s u := (hst.trans htu).congr fun _ => by rw [false_or]

theorem Gains.before {P : Str → Prop} {s t u : InspLink} (hst : Gains P s t)
    (htu : GainsNone t u) : Gains P s u := (hst.trans htu).congr fun _ => by rw [or_false]

instance : IsPreorder InspLink GainsNone where
  refl _ := gains_none rfl rfl rfl
  trans _ _ _ hst htu := hst.before htu

theorem gains_push (u : Str) (cmd : String) (args : List Str) (suffix : Option Str) :
    Moves GainsNone (push u cmd args suffix) :=
  steps_modify fun _ => gains_none rfl rfl rfl

theorem wp_joinChannel (ch : Str) (l : InspLink) :
    wp (joinChannel ch) (fun _ t => Gains (fun ch' => ch' = ch) l t) (fun _ _ => True) l := by
  rw [joinChannel, wp_modify]
  refine ⟨rfl, rfl, fun ch' => ?_⟩
  dsimp only
  split
  · rename_i hch
    exact ⟨.inl, fun h => h.elim id fun heq => heq ▸ hch⟩
  · rw [List.mem_append, List.mem_singleton]

theorem wp_joinGroups (u : Str) (grps : List Group) (l : InspLink) :
    wp (forM grps fun grp => do
        push u "JOIN" [grp.channel] none
        joinChannel grp.channel)
      (fun _ t => Gains (fun ch => ∃ grp ∈ grps, grp.channel = ch) l t) (fun _ _ => True) l := by
  refine wp_forM_prefix
    (fun (done : List Group) t => Gains (fun ch => ∃ grp ∈ done, grp.channel = ch) l t) ?_ ?_
  · intro done grp rest _ t ht
    rw [wp_bind]
    refine wp_mono (gains_push u "JOIN" [grp.channel] none t) ?_ fun _ _ _ => trivial
    intro _ v hpushed
    refine wp_mono (wp_joinChannel grp.channel v) ?_ fun _ _ _ => trivial
    intro _ w hw
    refine (ht.trans (hpushed.after hw)).congr fun ch => ?_
    simp only [List.mem_append, List.mem_singleton, or_and_right, exists_or, exists_eq_left]
    exact or_congr_right eq_comm
  · exact ⟨rfl, rfl, fun ch => by simp⟩

theorem wp_processGroupsForRecipient_gains (a : PduAddress) (l : InspLink) :
    wp (processGroupsForRecipient a) (fun _ t => Gains (BridgedFor l.store a) l t)
      (fun _ _ => True) l := by
  rw [processGroupsForRecipient, wp_bind, wp_get]
  cases hct : l.contacts.lookup a with
  | none => trivial
  | some ct =>
      dsimp only
      rw [wp_bind, wp_unwrap_some, wp_bind, wp_store, getGroupsForRecipient, wp_bind]
      apply wp_query_of trivial
      cases hrow : l.store.tick.recipients.rows.find? fun r =>
          r.phoneNumber = normalizeAddress a with
      | none => trivial
      | some row =>
          apply wp_query_of trivial
          have hrest : ∀ (u : Str) (chans joined : List Str),
              Moves GainsNone (do
                when (l.cfg.logChan ∉ joined) (push u "JOIN" [l.cfg.logChan] none)
                forM ct.channels fun ch =>
                  when (ch ∉ chans) (push u "PART" [ch] (some ("Left group" : Str)))
                modify fun l : InspLink =>
                  { l with contacts := l.contacts.insert a { ct with channels := chans } }) := by
            intro u chans joined
            refine Steps.bind (Steps.when (gains_push _ _ _ _)) fun _ => ?_
            refine Steps.bind (Steps.forM fun _ _ => Steps.when (gains_push _ _ _ _)) fun _ => ?_
            exact steps_modify fun _ => gains_none rfl rfl rfl
          rw [wp_bind]
          refine wp_mono (wp_joinGroups _ _ _) ?_ fun _ _ _ => trivial
          intro _ t ht
          have hticked : GainsNone l { l with store := l.store.tick.tick } :=
            gains_none rfl rfl rfl
          have hjoined := hticked.after ht
          refine wp_mono (hrest ct.uuid _ _ t) (fun _ u hu => (hjoined.before hu).congr fun ch => ?_)
            fun _ _ _ => trivial
          simp only [Crates.scanOrder.mem_run, List.mem_filter]
          constructor
          · rintro ⟨grp, ⟨hgrp, hpart⟩, hch⟩
            exact ⟨row, grp, hrow, hgrp, hpart, hch⟩
          · rintro ⟨r, grp, hr, hgrp, hpart, hch⟩
            cases hr.symm.trans hrow
            exact ⟨grp, ⟨hgrp, hpart⟩, hch⟩

theorem gains_query {α : Type} (f : Store → α) : Moves GainsNone (store (query f) : LinkM α) := by
  intro l
  rw [wp_store]
  exact wp_query_of ⟨gains_none rfl rfl rfl, trivial⟩ (gains_none rfl rfl rfl)

theorem gains_processGroup (grp : Group) : Moves GainsNone (processGroup grp) := by
  refine Steps.bind (Steps.forM fun part _ => Steps.bind (gains_query _) fun row => ?_) fun _ => ?_
  · cases row with
    | none => exact steps_pure _
    | some recip =>
        refine Steps.bind ?_ fun num => steps_get_bind fun l => ?_
        · exact steps_getAddr (fun _ => trivial) _
        · cases l.contacts.lookup num with
          | none => exact refl l
          | some ct => exact gains_push _ _ _ _ l
  · refine Steps.bind steps_get fun l => Steps.when (Steps.bind steps_get fun l' => ?_)
    dsimp only
    split
    · exact Steps.bind (gains_push _ _ _ _) fun _ => steps_modify fun _ => gains_none rfl rfl rfl
    · exact steps_modify fun _ => gains_none rfl rfl rfl

/-- A group whose channel is that of one with a contact among its participants. -/
def Attended (l : InspLink) (ch : Str) : Prop :=
  ∃ a ct, l.contacts.lookup a = some ct ∧ BridgedFor l.store a ch

theorem mem_keys_iff {l : InspLink} {a : PduAddress} :
    a ∈ Crates.hashOrder.run l.contacts.keys ↔ ∃ ct, l.contacts.lookup a = some ct := by
  rw [Crates.hashOrder.mem_run, ← AList.mem_keys, mem_iff_lookup]

theorem wp_processGroups_channels (l : InspLink) :
    wp processGroups (fun _ t => t.store.groups = l.store.groups ∧
      ∀ ch, ch ∈ t.channels ↔ Attended l ch) (fun _ _ => True) l := by
  rw [processGroups, wp_bind, wp_modify, wp_bind, wp_get, wp_bind]
  have hloop : wp (forM (Crates.hashOrder.run l.contacts.keys) processGroupsForRecipient)
      (fun _ t => Gains (fun ch => ∃ a ∈ Crates.hashOrder.run l.contacts.keys,
        BridgedFor l.store a ch) { l with channels := [] } t)
      (fun _ _ => True) { l with channels := [] } := by
    refine wp_forM_prefix (fun done t => Gains (fun ch => ∃ a ∈ done, BridgedFor l.store a ch)
      { l with channels := [] } t) ?_ ?_
    · intro done a rest _ t ht
      refine wp_mono (wp_processGroupsForRecipient_gains a t) ?_ fun _ _ _ => trivial
      intro _ u hu
      have hsame : ∀ ch, BridgedFor t.store a ch ↔ BridgedFor l.store a ch := by
        intro ch
        rw [BridgedFor, ht.recipients, ht.groups]
        rfl
      refine (ht.trans (hu.congr hsame)).congr fun ch => ?_
      simp only [List.mem_append, List.mem_singleton, or_and_right, exists_or, exists_eq_left]
    · exact ⟨rfl, rfl, fun ch => by simp⟩
  refine wp_mono hloop ?_ fun _ _ _ => trivial
  intro _ t ht
  have hrest : Moves GainsNone (do
      let grps ← store getAllGroups
      forM grps processGroup : LinkM Unit) :=
    Steps.bind (gains_query _) fun grps => Steps.forM fun grp _ => gains_processGroup grp
  refine wp_mono (hrest t) (fun _ u hu => ?_) fun _ _ _ => trivial
  have hall := ht.before hu
  refine ⟨hall.groups, fun ch => ?_⟩
  rw [hall.channels]
  constructor
  · rintro (h | ⟨a, ha, hch⟩)
    · cases h
    · obtain ⟨ct, hct⟩ := mem_keys_iff.mp ha
      exact ⟨a, ct, hct, hch⟩
  · rintro ⟨a, ct, hct, hch⟩
    exact .inr ⟨a, mem_keys_iff.mpr ⟨ct, hct⟩, hch⟩

/-- The admin can write to all groups exactly if each of them has a participant who is a
contact of the link. -/
theorem allWritable_iff {l t : InspLink} (h : exec processGroups l = (.ok (), t)) :
    AllWritable t ↔ ∀ grp ∈ l.store.groups.rows, Attended l grp.channel := by
  obtain ⟨hgroups, hchannels⟩ := wp_of_ok h (wp_processGroups_channels l)
  have hbridged : ∀ ch, Bridged t.store ch ↔ Bridged l.store ch := by
    intro ch
    rw [Bridged, hgroups]
    rfl
  constructor
  · intro hall grp hgrp
    rw [← hchannels, hall.channels, hbridged]
    exact ⟨grp, hgrp, rfl⟩
  · intro hall
    refine allWritable_of_channels fun ch => ?_
    rw [hchannels, hbridged]
    constructor
    · rintro ⟨a, ct, -, r, grp, -, hgrp, -, hch⟩
      exact ⟨grp, hgrp, hch⟩
    · rintro ⟨grp, hgrp, rfl⟩
      exact hall grp hgrp

end Channels

section Samples

attribute [local instance] Sample.crates

/-- The link is established, and a group is bridged whose participants are not known yet. -/
def bridging : List Event :=
  linking ++ [.storeOp (.group ⟨['g'], true⟩ ("#wa" : Str) [] [] ("topic" : Str))]

def newlyBridged : Session := (run next sampleStart bridging).get (by decide +kernel)

def regroupedLink : InspLink := (exec processGroups newlyBridged.link).2

theorem exec_newlyBridged : exec processGroups newlyBridged.link = (.ok (), regroupedLink) :=
  exec_eq_of_isOk (by decide +kernel)

theorem allWritable_newlyBridged : AllWritable regroupedLink ↔
    ∀ grp ∈ newlyBridged.link.store.groups.rows, Attended newlyBridged.link grp.channel :=
  allWritable_iff exec_newlyBridged

/-- The link takes no messages for the new channel. -/
theorem newlyBridged_unwritable : ¬ ∀ l t : InspLink, exec processGroups l = (.ok (), t) →
    AllWritable t := by
  intro h
  have hbridged : Bridged regroupedLink.store ("#wa" : Str) := by
    have hchannels : ("#wa" : Str) ∈ regroupedLink.store.groups.rows.map Group.channel := by
      decide +kernel
    exact List.mem_map.mp hchannels
  have hmem := ((h _ _ exec_newlyBridged).channels ("#wa" : Str)).mpr hbridged
  have hnone : regroupedLink.channels = [] := by decide +kernel
  rw [hnone] at hmem
  cases hmem

end Samples

end SmsIrc.LinkChannels
