import SmsIrc.LinkSettled
import SmsIrc.MainViews

/-!
The channels of ghosts and the groups of the database: the link falls behind what the
WhatsApp manager writes only while it has a command to catch up.
-/

namespace SmsIrc.Settling

open SmsIrc.Admin SmsIrc.Comm SmsIrc.Database SmsIrc.External SmsIrc.Link SmsIrc.LinkAgreement
open SmsIrc.LinkChannels SmsIrc.LinkEffects SmsIrc.LinkEvents SmsIrc.LinkGhosts
open SmsIrc.LinkLedger SmsIrc.LinkMembership SmsIrc.LinkReturns SmsIrc.LinkSettled
open SmsIrc.Main SmsIrc.MainViews SmsIrc.Models SmsIrc.Modem SmsIrc.PartFrames SmsIrc.Program
open SmsIrc.SenderCommon SmsIrc.Simulation SmsIrc.Text SmsIrc.Transition SmsIrc.Util
open SmsIrc.Whatsapp SmsIrc.WhatsappFrame SmsIrc.WhatsappMsg

section Groups

variable [Crates]

theorem sameMembers_tick (st : Store) : SameMembers st st.tick := sameMembers_of_eq rfl

theorem sameMembers_insert (st : Store) {row : Nat → Group} (hrow : ∀ n, (row n).id = n)
    (hparts : ∀ n, (row n).participants = []) :
    SameMembers st { st with groups := st.groups.insert row hrow } := by
  intro part ch
  constructor
  · rintro ⟨grp, hgrp, hpart, hch⟩
    rcases List.mem_append.mp hgrp with hold | hnew
    · exact ⟨grp, hold, hpart, hch⟩
    · rw [List.mem_singleton.mp hnew, hparts] at hpart
      cases hpart
  · rintro ⟨grp, hgrp, hpart, hch⟩
    exact ⟨grp, List.mem_append_left _ hgrp, hpart, hch⟩

theorem sameMembers_storeGroup (jid : Jid) (chan topic : Str) :
    Moves SameMembers (storeGroup jid chan [] [] topic) :=
  moves_storeGroup sameMembers_tick fun st _ hrow hparts =>
    sameMembers_insert st hrow fun n => (hparts n).1

theorem sameMembers_insertRecipient {addr : PduAddress} {row : Nat → Recipient}
    {hrow : ∀ n, (row n).id = n} : Moves SameMembers (insertRecipient addr row hrow) :=
  moves_insertRecipient sameMembers_tick fun _ => sameMembers_of_eq rfl

theorem modemUses_sameMembers : ModemUses SameMembers where
  tick := sameMembers_tick
  recipient _ := sameMembers_insertRecipient
  sms _ _ _ := moves_execute sameMembers_tick fun _ => sameMembers_of_eq rfl

theorem wp_updateGroup (jid : Jid) (parts adms : List Nat) (topic : Str) (st : Store) :
    wp (updateGroup jid parts adms topic) (fun _ _ => True) (fun _ st' => SameMembers st st')
      st := by
  rw [updateGroup, wp_bind, execute, wp_bind]
  refine wp_query_of (sameMembers_tick st) ?_
  rw [wp_modify, wp_bind, wp_get]
  dsimp only
  split
  · trivial
  · rename_i hnone
    rw [wp_throw]
    have habsent : ∀ grp ∈ st.groups.rows, grp.jid ≠ Crates.displayJid jid := by
      intro grp hgrp heq
      have hchanged := List.find?_eq_none.mp hnone _ (List.mem_map_of_mem hgrp)
      rw [if_pos heq] at hchanged
      exact hchanged (decide_eq_true heq)
    have hrows : (st.groups.rows.map fun grp =>
        if grp.jid = Crates.displayJid jid then
          { grp with participants := parts, admins := adms, topic := topic }
        else grp) = st.groups.rows :=
      (List.map_congr_left fun grp hgrp => if_neg (habsent grp hgrp)).trans (List.map_id _)
    intro part ch
    rw [Member, Member]
    change (∃ grp ∈ st.groups.rows.map _, _) ↔ _
    rw [hrows]

/-- A step of the WhatsApp manager. Where someone's groups change, it has the link told. -/
structure Regroups (s t : WhatsappManager) : Prop where
  told : ∃ cs bs, t.cfTx = s.cfTx ++ cs ∧ t.cbTx = s.cbTx ++ bs ∧
    (SameMembers (waStore s) (waStore t) ∨ .processGroups ∈ cs ∧ .processGroups ∈ bs)

instance isPreorder_regroups : IsPreorder WhatsappManager Regroups where
  refl _ := ⟨[], [], by simp, by simp, .inl (refl _)⟩
  trans _ _ _ hst htu := by
    obtain ⟨cs, bs, hcf, hcb, hsame⟩ := hst.told
    obtain ⟨cs', bs', hcf', hcb', hsame'⟩ := htu.told
    refine ⟨cs ++ cs', bs ++ bs', by rw [hcf', hcf, List.append_assoc],
      by rw [hcb', hcb, List.append_assoc], ?_⟩
    rcases hsame with hsame | ⟨hc, hb⟩
    · rcases hsame' with hsame' | ⟨hc, hb⟩
      · exact .inl (IsTrans.trans _ _ _ hsame hsame')
      · exact .inr ⟨List.mem_append_right _ hc, List.mem_append_right _ hb⟩
    · exact .inr ⟨List.mem_append_left _ hc, List.mem_append_left _ hb⟩

theorem regroups_of_eq {s t : WhatsappManager} (hcf : t.cfTx = s.cfTx) (hcb : t.cbTx = s.cbTx)
    (hst : SameMembers (waStore s) (waStore t)) : Regroups s t :=
  ⟨[], [], by rw [hcf, List.append_nil], by rw [hcb, List.append_nil], .inl hst⟩

theorem regroups_store {α : Type} {p : StoreM α} (hp : Moves SameMembers p) :
    Moves Regroups (store p : WaM α) :=
  Steps.zoom hp fun _ _ hst => regroups_of_eq rfl rfl hst

theorem regroups_modify {f : WhatsappManager → WhatsappManager}
    (hf : ∀ m, (f m).cfTx = m.cfTx ∧ (f m).cbTx = m.cbTx ∧ waStore (f m) = waStore m) :
    Moves Regroups (modify f : WaM PUnit) := by
  refine steps_modify fun m => ?_
  obtain ⟨hcf, hcb, hst⟩ := hf m
  exact regroups_of_eq hcf hcb (hst ▸ refl _)

theorem regroups_cfSend (c : ContactFactoryCommand) : Moves Regroups (Whatsapp.cfSend c) :=
  steps_modify fun _ => ⟨[c], [], rfl, by simp, .inl (refl _)⟩

theorem regroups_cb (cs : List ControlBotCommand) (m : WhatsappManager) :
    Regroups m { m with cbTx := m.cbTx ++ cs } := ⟨[], cs, by simp, rfl, .inl (refl _)⟩

theorem moves_regrouped {α : Type} {p : StoreM α}
    (hp : ∀ st, wp p (fun _ _ => True) (fun _ st' => SameMembers st st') st) :
    Moves Regroups (store p >>= fun _ => onGroupsChanged : WaM Unit) := by
  intro m
  rw [wp_bind, WhatsappFrame.wp_store]
  refine wp_mono (hp m.msgproc.store) (fun _ st _ => ?_) fun _ st hst => ?_
  · rw [onGroupsChanged, wp_bind, Whatsapp.cfSend, wp_modify, Whatsapp.cbSend, wp_modify]
    exact ⟨[.processGroups], [.processGroups], rfl, rfl, .inr ⟨by simp, by simp⟩⟩
  · exact ⟨regroups_of_eq rfl rfl hst, trivial⟩

theorem wp_deleteGroupWithId (id : Nat) (st : Store) :
    wp (deleteGroupWithId id) (fun _ _ => True) (fun _ st' => SameMembers st st') st := by
  rw [deleteGroupWithId, wp_bind]
  refine wp_query_of (sameMembers_tick st) ?_
  split
  · trivial
  · exact sameMembers_tick st

theorem bridging_regroups : Bridging Regroups where
  query _ := regroups_store (moves_query sameMembers_tick _)
  newRecipient _ _ _ _ _ := regroups_store sameMembers_insertRecipient
  cf c _ := regroups_cfSend c
  newGroup _ _ _ := regroups_store (sameMembers_storeGroup _ _ _)
  cb cs m := regroups_cb cs m
  metadata _ := regroups_modify fun _ => ⟨rfl, rfl, rfl⟩

theorem regroups_groupRemove (chan : Str) : Moves Regroups (groupRemove chan) := by
  refine Steps.bind (bridging_regroups.query _) fun grp => ?_
  cases grp with
  | none => exact bridging_regroups.cbRespond _
  | some g =>
      have hchanged : Moves Regroups (store (deleteGroupWithId g.id) >>= fun _ =>
          onGroupsChanged : WaM Unit) := moves_regrouped (wp_deleteGroupWithId g.id)
      have hall := Steps.bind hchanged fun _ => bridging_regroups.cbRespond
        (("Group with jid " : Str) ++ g.jid ++ (" deleted." : Str))
      rwa [bind_assoc] at hall

theorem regroups_process (inc : IncomingMessage) :
    Moves Regroups (withMsgproc (processWaIncoming inc)) := by
  have hprocess : Processing (InvImage SameMembers WaMessageProcessor.store) :=
    { query := fun f => Steps.zoom (moves_query sameMembers_tick f) fun _ _ hst => hst
      contactFiles := fun _ _ => refl _
      downloads := fun _ _ => refl _ }
  exact Steps.zoom (hprocess.processWaIncoming inc) fun _ _ hst => regroups_of_eq rfl rfl hst

theorem whole_regroups : Whole Regroups where
  toBridging := bridging_regroups
  insert _ _ _ _ := regroups_store (moves_checked sameMembers_tick fun _ => sameMembers_of_eq rfl)
  updated grp := by
    refine Steps.bind (Steps.mapM fun p => bridging_regroups.participantOf p) fun _ => ?_
    exact moves_regrouped (wp_updateGroup _ _ _ _)
  subscribe _ := regroups_modify fun _ => ⟨rfl, rfl, rfl⟩
  chats _ _ := regroups_of_eq rfl rfl (refl _)
  conn _ _ := regroups_of_eq rfl rfl (refl _)
  session _ _ _ := regroups_of_eq rfl rfl (refl _)
  generate _ := regroups_of_eq rfl rfl (refl _)
  ackp _ _ := regroups_of_eq rfl rfl (refl _)
  accept _ _ := regroups_of_eq rfl rfl (refl _)
  presence _ _ := regroups_of_eq rfl rfl (refl _)
  send _ := regroups_modify fun _ => ⟨rfl, rfl, rfl⟩
  msgid _ := regroups_store (moves_execute sameMembers_tick fun _ => sameMembers_of_eq rfl)
  expire _ _ := regroups_of_eq rfl rfl (refl _)
  persistence _ := regroups_store (moves_execute sameMembers_tick fun _ => sameMembers_of_eq rfl)
  established _ _ := regroups_of_eq rfl rfl (refl _)
  contacts _ _ := regroups_of_eq rfl rfl (refl _)
  ntf _ _ := regroups_store (moves_execute sameMembers_tick fun _ => sameMembers_of_eq rfl)
  rename _ _ _ _ := regroups_cfSend _
  read _ _ := regroups_modify fun _ => ⟨rfl, rfl, rfl⟩
  process := regroups_process
  removed := regroups_groupRemove
  outbox _ _ _ := regroups_of_eq rfl rfl (refl _)

theorem regroups_next {s t : WhatsappRuns.Session} {e : WhatsappRuns.Event}
    (hown : ownWhatsapp e = true) (h : WhatsappRuns.next s e = some t) :
    Regroups s.manager t.manager := by
  refine whole_regroups.of_step h (fun rx m => regroups_of_eq rfl rfl (refl _))
    (fun i mi result _ => regroups_of_eq rfl rfl (refl _)) (fun op he => ?_)
    fun now dbNow instant he => ?_
  all_goals
    rw [he] at hown
    cases hown

end Groups

section Program

variable [Crates]

/-- Nothing tells the link to go through the groups by one of its channels. -/
def Quiet (s : Parts) : Prop := .processGroups ∉ s.cfRx ∨ .processGroups ∉ s.cbRx

/-- What holds of the program: the link is behind only if both its channels tell it. -/
structure Settled (s : Parts) : Prop where
  kept : Kept s.link.link (Quiet s)
  joined : Joined s.link.link

theorem Kept.imp {l : InspLink} {c d : Prop} (h : Kept l c) (hdc : d → c) : Kept l d :=
  ⟨h.backed, fun hd => h.current (hdc hd)⟩

theorem rowsKept_of_linkOther (hkeys : KeysRead) {st st' : Store} (h : LinkOther st st') :
    RowsKept st st' ∧ IdsKept st st' := by
  obtain ⟨ops, rfl⟩ := h
  induction ops generalizing st with
  | nil => exact ⟨refl _, refl _⟩
  | cons op ops ih =>
      obtain ⟨hrows, hids⟩ := @ih (exec op.run st).2
      exact ⟨IsTrans.trans _ _ _ ((rowsKept_storeOp hkeys op).exec st) hrows,
        IsTrans.trans _ _ _ ((idsKept_storeOp op).exec st) hids⟩

theorem settled_now (hkeys : KeysRead) {s t : Parts} {st : Store} (h : Settled s)
    (hlink : t.link = linkNow s.link st) (hst : LinkOther s.link.link.store st)
    (hmembers : Quiet t → SameMembers s.link.link.store st) (hquiet : Quiet t → Quiet s) :
    Settled t := by
  obtain ⟨hrows, hids⟩ := rowsKept_of_linkOther hkeys hst
  refine ⟨?_, ?_⟩
  · rw [hlink]
    exact kept_stored h.kept hrows hids hmembers hquiet
  · rw [hlink]
    exact joined_stored h.joined st

theorem current_of_processGroups {s t : LinkRuns.Session} {e : LinkRuns.Event}
    (he : e = .cf .processGroups ∨ e = .cb .processGroups) (ht : LinkRuns.next s e = some t)
    (hout : t.outcome = none) : Current t.link := by
  obtain rfl : t = LinkRuns.perform s processGroups := by
    rw [LinkRuns.next, LinkRuns.outcome_of_next ht] at ht
    rcases he with rfl | rfl
    all_goals
      simp only [LinkRuns.step] at ht
      split at ht
      · exact (Option.some.inj ht).symm
      · cases ht
  intro a ct hct
  exact .inr (wp_of_ok (LinkRuns.exec_of_perform hout) (wp_processGroups_upToDate s.link) a ct hct)

theorem settled_stepped (hkeys : KeysRead) {s t : Parts} {e : Event} (hs : Shared s)
    (hrun : running s = true) (h : Settled s) (hstep : Stepped s e t) (ht : running t = true) :
    Settled t := by
  have hsout : s.link.outcome = none := by
    simp only [running, Bool.and_eq_true, Option.isNone_iff_eq_none] at hrun
    exact hrun.2
  have hout : t.link.outcome = none := by
    simp only [running, Bool.and_eq_true, Option.isNone_iff_eq_none] at ht
    exact ht.2
  have hlink : ∀ {u : LinkRuns.Session} {e : LinkRuns.Event}, t.link = u →
      LinkRuns.next s.link e = some u → (∀ op, e ≠ .storeOp op) →
        (Quiet t → Quiet s ∨ Current u.link) → Settled t := by
    rintro u e rfl hu hstore hquiet
    refine ⟨⟨(kept_next hkeys h.kept hstore hu).backed, fun hq => ?_⟩, joined_next h.joined hu hout⟩
    rcases hquiet hq with hq | hcurrent
    · exact (kept_next hkeys h.kept hstore hu).current hq
    · exact hcurrent
  have hlonger : ∀ {cs : List ContactFactoryCommand} {bs : List ControlBotCommand},
      .processGroups ∉ s.cfRx ++ cs ∨ .processGroups ∉ s.cbRx ++ bs → Quiet s :=
    fun hq => hq.imp (fun hn hmem => hn (List.mem_append_left _ hmem))
      fun hn hmem => hn (List.mem_append_left _ hmem)
  cases hstep with
  | modem hown hu =>
      have hst := modem_of_uses modem_linkOther hown hu
      have hmembers := modem_of_uses modemUses_sameMembers hown hu
      rw [hs.modem] at hst hmembers
      exact settled_now hkeys h rfl hst (fun _ => hmembers) hlonger
  | whatsapp hown hu =>
      rename_i w u
      have hst := whatsapp_of_uses whatsapp_linkOther hown hu
      rw [hs.wa] at hst
      obtain ⟨cs, bs, hcf, hcb, hsame⟩ := (regroups_next hown hu).told
      have hrx : (afterWhatsapp s u).cfRx = s.cfRx ++ cs ∧
          (afterWhatsapp s u).cbRx = s.cbRx ++ bs := by
        rw [afterWhatsapp, hcf, hcb, since_append, since_append]
        exact ⟨rfl, rfl⟩
      refine settled_now hkeys h rfl hst (fun hq => ?_) fun hq => ?_
      · rw [Quiet, hrx.1, hrx.2] at hq
        rcases hsame with hsame | ⟨hc, hb⟩
        · rwa [waStore, hs.wa] at hsame
        · exact (hq.elim (fun hn => hn (List.mem_append_right _ hc))
            fun hn => hn (List.mem_append_right _ hb)).elim
      · rw [Quiet, hrx.1, hrx.2] at hq
        exact hlonger hq
  | connect hu => exact hlink rfl hu (by simp) fun hq => .inl (hlonger hq)
  | remote hu => exact hlink rfl hu (by simp) fun hq => .inl (hlonger hq)
  | cf hrx hu =>
      rename_i c rest u
      refine hlink rfl hu (by simp) fun hq => ?_
      by_cases hc : c = .processGroups
      · exact .inr (current_of_processGroups (.inl (hc ▸ rfl)) hu hout)
      · refine .inl (hq.imp (fun hn hmem => hn (List.mem_append_left _ ?_))
          fun hn hmem => hn (List.mem_append_left _ hmem))
        rw [hrx] at hmem
        exact (List.mem_cons.mp hmem).resolve_left fun heq => hc heq.symm
  | cb hrx hu =>
      rename_i c rest u
      refine hlink rfl hu (by simp) fun hq => ?_
      by_cases hc : c = .processGroups
      · exact .inr (current_of_processGroups (.inr (hc ▸ rfl)) hu hout)
      · refine .inl (hq.imp (fun hn hmem => hn (List.mem_append_left _ hmem))
          fun hn hmem => hn (List.mem_append_left _ ?_))
        rw [hrx] at hmem
        exact (List.mem_cons.mp hmem).resolve_left fun heq => hc heq.symm
  | log =>
      refine ⟨Kept.imp h.kept fun hq => ?_, h.joined⟩
      exact hq.imp id fun hn hmem => hn (List.mem_append_left _ hmem)
  | clock =>
      rename_i now dbNow instant
      refine hlink rfl (e := .clock now dbNow) ?_ (by simp) fun hq => .inl hq
      simp only [LinkRuns.next, hsout, LinkRuns.step, storeAt]

theorem settled_start (hkeys : KeysRead) (cfg : Config) {w : World} (hup : Up w.store)
    (hst : Written w.store) : Settled (start cfg w) := by
  refine ⟨⟨⟨ledger_initial cfg.inspS2s w.store w.now, hup, hst.keyed hkeys, fun a ct hct => ?_⟩,
    fun _ a ct hct => ?_⟩, fun _ a ct hct => ?_⟩
  all_goals cases hct

theorem settled_of_run (hkeys : KeysRead) {cfg : Config} {w : World} {es : List Event}
    {s : Parts} (hup : Up w.store) (hst : Written w.store)
    (hrun : run next (start cfg w) es = some s) (hs : running s = true) : Settled s := by
  have h := invariant_of_allSteps (C := fun _ _ => True)
    (I := fun s => Shared s ∧ (running s = true → Settled s)) ?_
    (allSteps_of_forall_mem (fun _ _ _ => trivial) _)
    ⟨shared_start cfg w, fun _ => settled_start hkeys cfg hup hst⟩ hrun
  · exact h.2 hs
  · rintro s e t - ⟨hshared, hsettled⟩ hnext
    have hstep := stepped_of_next hnext
    exact ⟨shared_stepped hshared hstep,
      settled_stepped hkeys hshared (running_of_next hnext).1 (hsettled (running_of_next hnext).1)
        hstep⟩

/-- The events of the program in which no line of the admin is sent as it is. -/
def RawFree (s : Parts) (e : Event) : Prop :=
  ∀ m, e = .remote m → ¬ Raws s.link.link (.remote m)

theorem attending_of_run {cfg : Config} {w : World} {es : List Event} {s : Parts}
    (hes : AllSteps next RawFree (start cfg w) es)
    (hrun : run next (start cfg w) es = some s) : Attending s.link.link := by
  have hasked : RunOf next (Asked (fun s e => ¬ Raws s.link e) (fun _ _ => True) fun _ _ => True)
      (start cfg w) s := by
    refine ⟨es, hes.imp (I := fun _ => True) (fun _ _ _ _ _ _ => trivial) ?_ trivial, hrun⟩
    exact fun s e he _ => ⟨he, fun _ _ => trivial, fun _ _ => trivial⟩
  have hraw : ∀ (s : LinkRuns.Session) (e : LinkRuns.Event), (∀ m, e ≠ .remote m) →
      ¬ Raws s.link e := by
    intro s e he
    cases e with
    | remote m => exact absurd rfl (he m)
    | _ => exact id
  obtain ⟨ops, hops, hlink⟩ := link_of_run hraw hasked
  have hstart : Attending (LinkRuns.initial cfg.inspS2s w.store w.now).link :=
    ⟨ledger_initial cfg.inspS2s w.store w.now, fun m hm => (by cases hm),
      fun a ct hct => (by cases hct)⟩
  exact invariant_of_allSteps (I := fun s => Attending s.link)
    (fun _ _ _ he hs ht => attending_next hs he ht) hops hstart hlink

/-- In every run of the program without errors of the database and without lines sent as
they are, once the link is established and is not told on one of its channels to go through
the groups, everyone on the network sees every ghost in the log channel and the channels of
its groups, and in no others. -/
theorem channels_settle (hcodes : CodesRead) {cfg : Config} {w : World} {es : List Event}
    {s : Parts} (hup : Up w.store) (hst : Written w.store)
    (hes : AllSteps next RawFree (start cfg w) es)
    (hrun : run next (start cfg w) es = some s) (hs : running s = true)
    (hlinked : s.link.link.state = .linked) (hq : Quiet s) {a : PduAddress} {ct : InspContact}
    (hct : s.link.link.contacts.lookup a = some ct) (ch : Str) :
    ch ∈ placesOf ct.uuid s.link.link.outbox ↔
      ch = s.link.link.cfg.logChan ∨ BridgedFor s.link.link.store a ch := by
  have hsettled := settled_of_run hcodes.keysRead hup hst hrun hs
  have hplaces := (attending_of_run hes hrun).places a ct hct
  rcases hsettled.kept.current hq a ct hct with hnil | hup
  · exact absurd hnil (hsettled.joined hlinked a ct hct)
  · exact (hplaces ch).trans (hup ch)

end Program

section Samples

attribute [local instance] Sample.crates

theorem rawFree_asking {line : Str} {c : AdminCommand}
    (hc : AdminCommand.parse (splitOn ' ' line) = .ok (some c)) (hraw : ∀ r, c ≠ .insp (.raw r))
    (s : Parts) : RawFree s (asking line) := by
  rintro m ⟨rfl⟩ ⟨-, -, r, hr⟩
  rw [hc] at hr
  exact hraw r (Option.some.inj (Except.ok.inj hr))

theorem rawFree_grouping : AllSteps next RawFree (start sampleConfig sampleWorld) grouping := by
  have hsetup : ∀ s, RawFree s (asking ("WHATSAPP SETUP" : Str)) :=
    rawFree_asking (c := .whatsapp .setup) (by decide) fun _ => by simp
  have hbridge : ∀ s, RawFree s (asking ("GROUP BRIDGE 2@g.us #g" : Str)) :=
    rawFree_asking (c := .group (.bridgeWhatsapp ⟨("2" : Str), true⟩ ("#g" : Str))) (by decide)
      fun _ => by simp
  have hraw : ∀ e ∈ grouping, ∀ s, RawFree s e := by
    intro e he s
    simp only [grouping, linking, List.cons_append, List.nil_append, List.mem_cons,
      List.not_mem_nil, or_false] at he
    rcases he with rfl | rfl | rfl | rfl | rfl | rfl | rfl | rfl | rfl | rfl | rfl | rfl | rfl |
      rfl | rfl
    case inr.inr.inr.inr.inl => exact hsetup s
    case inr.inr.inr.inr.inr.inr.inr.inr.inr.inl => exact hbridge s
    all_goals
      rintro m hm
      cases hm
    all_goals exact id
  exact allSteps_of_forall_mem hraw _

theorem channels_settle_bridged : ∃ ct, grouped.link.link.contacts.lookup Sample.alice = some ct ∧
    (("#g" : Str) ∈ placesOf ct.uuid grouped.link.link.outbox ↔
      ("#g" : Str) = grouped.link.link.cfg.logChan ∨
        BridgedFor grouped.link.link.store Sample.alice ("#g" : Str)) := by
  have hrun : run next (start sampleConfig sampleWorld) grouping = some grouped :=
    (Option.some_get _).symm
  have hwritten : Written sampleWorld.store := ⟨List.nodup_nil, fun r hr => by cases hr⟩
  have hsome : (grouped.link.link.contacts.lookup Sample.alice).isSome = true := by decide +kernel
  refine ⟨_, (Option.some_get hsome).symm, ?_⟩
  exact channels_settle codesRead (fun _ => rfl) hwritten rawFree_grouping hrun
    (by decide +kernel) (by decide +kernel) (.inl (by decide +kernel)) (Option.some_get hsome).symm _

end Samples

end SmsIrc.Settling
