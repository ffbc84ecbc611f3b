import SmsIrc.SmsAccounts

/-!
Every message that is stored, be it an SMS or from WhatsApp, is sent once, or is still
stored, or has gone with its group.
-/

namespace SmsIrc.StoredMessages

open SmsIrc.Comm SmsIrc.Database SmsIrc.External SmsIrc.Link SmsIrc.LinkDeeds SmsIrc.Main
open SmsIrc.LinkTold SmsIrc.MainViews SmsIrc.Models SmsIrc.PartFrames SmsIrc.Program
open SmsIrc.SenderCommon SmsIrc.SerialTable SmsIrc.SmsAccounts SmsIrc.TableHistory SmsIrc.Text
open SmsIrc.Transition SmsIrc.Util

section Stores

variable [Crates]

/-- The group of a message has been unbridged: there was one, and there is none now. -/
def Unbridged (st : Store) (m : Message) : Prop :=
  ∃ g, m.groupTarget = some g ∧ g < st.groups.next ∧ ∀ grp ∈ st.groups.rows, grp.id ≠ g

/-- Groups that have gone do not come back. -/
def NoneBack (st st' : Store) : Prop := ∀ m, Unbridged st m → Unbridged st' m

theorem noneBack_of_eq {st st' : Store} (h : st'.groups = st.groups) : NoneBack st st' := by
  rintro m ⟨g, hg, hnext, hnone⟩
  exact ⟨g, hg, by rwa [h], by rwa [h]⟩

theorem noneBack_trans {st st' st'' : Store} (h : NoneBack st st') (h' : NoneBack st' st'') :
    NoneBack st st'' := fun m hm => h' m (h m hm)

theorem noneBack_update (st : Store) {f : Group → Group} (hf : ∀ grp, (f grp).id = grp.id) :
    NoneBack st { st with groups := st.groups.update f hf } := by
  rintro m ⟨g, hg, hnext, hnone⟩
  refine ⟨g, hg, hnext, fun grp hgrp => ?_⟩
  obtain ⟨old, hold, rfl⟩ := List.mem_map.mp hgrp
  rw [hf]
  exact hnone old hold

theorem noneBack_insert (st : Store) {row : Nat → Group} (hrow : ∀ n, (row n).id = n) :
    NoneBack st { st with groups := st.groups.insert row hrow } := by
  rintro m ⟨g, hg, hnext, hnone⟩
  refine ⟨g, hg, Nat.lt_succ_of_lt hnext, fun grp hgrp => ?_⟩
  rcases List.mem_append.mp hgrp with hgrp | hgrp
  · exact hnone grp hgrp
  · rw [List.mem_singleton.mp hgrp, hrow]
    omega

/-- Rows are only lost with their groups. -/
structure Kept (st st' : Store) : Prop where
  passage : ∃ new lost, Passage st.messages st'.messages new [] lost ∧
    ∀ m ∈ lost, Unbridged st' m
  noneBack : NoneBack st st'

instance isPreorder_kept : IsPreorder Store Kept where
  refl st := ⟨⟨[], [], passage_refl _, by simp⟩, fun _ h => h⟩
  trans _ _ _ h h' := by
    obtain ⟨new, lost, hpass, hlost⟩ := h.passage
    obtain ⟨new', lost', hpass', hlost'⟩ := h'.passage
    refine ⟨⟨_, _, hpass.trans hpass', fun m hm => ?_⟩, noneBack_trans h.noneBack h'.noneBack⟩
    rcases List.mem_append.mp hm with hm | hm
    · exact h'.noneBack m (hlost m hm)
    · exact hlost' m hm

theorem kept_of_eq {st st' : Store} (hmessages : st'.messages = st.messages)
    (hgroups : NoneBack st st') : Kept st st' :=
  ⟨⟨[], [], passage_of_eq hmessages, by simp⟩, hgroups⟩

theorem kept_same {st st' : Store} (hmessages : st'.messages = st.messages)
    (hgroups : st'.groups = st.groups) : Kept st st' :=
  kept_of_eq hmessages (noneBack_of_eq hgroups)

theorem kept_tick (st : Store) : Kept st st.tick := kept_same rfl rfl

theorem kept_message (st : Store) {row : Nat → Message} (hrow : ∀ n, (row n).id = n) :
    Kept st { st with messages := st.messages.insert row hrow } :=
  ⟨⟨_, _, passage_insert _ _ hrow, by simp⟩, noneBack_of_eq rfl⟩

theorem kept_recipient {addr : PduAddress} {row : Nat → Recipient}
    {hrow : ∀ n, (row n).id = n} : Moves Kept (insertRecipient addr row hrow) :=
  moves_insertRecipient kept_tick fun _ => kept_same rfl rfl

theorem kept_execute {f : Store → Store} (hmessages : ∀ st, (f st).messages = st.messages)
    (hgroups : ∀ st, (f st).groups = st.groups) : Moves Kept (Database.execute f) :=
  moves_execute kept_tick fun st => kept_same (hmessages st) (hgroups st)

theorem kept_deleteGroup (id : Nat) : Moves Kept (deleteGroupWithId id) := by
  intro st
  rw [deleteGroupWithId, wp_bind]
  refine wp_query_of ⟨kept_tick st, trivial⟩ ?_
  split
  · rename_i hpresent
    obtain ⟨grp, hgrp, hid⟩ := List.any_eq_true.mp hpresent
    have hlt : id < st.groups.next := (of_decide_eq_true hid) ▸ st.groups.lt_next grp hgrp
    refine ⟨⟨_, _, passage_keep _ _, fun m hm => ?_⟩, ?_⟩
    · have htarget := (List.mem_filter.mp hm).2
      simp only [ne_eq, decide_not, Bool.not_not, decide_eq_true_eq] at htarget
      refine ⟨id, htarget, hlt, fun grp' hgrp' => ?_⟩
      exact of_decide_eq_true (List.mem_filter.mp hgrp').2
    · rintro m ⟨g, hg, hnext, hnone⟩
      exact ⟨g, hg, hnext, fun grp' hgrp' => hnone grp' (List.mem_of_mem_filter hgrp')⟩
  · exact ⟨kept_tick st, trivial⟩

theorem modemUses_kept : ModemUses Kept where
  tick := kept_tick
  recipient _ := kept_recipient
  sms _ _ _ := moves_execute kept_tick fun st => kept_message st _

theorem whatsappUses_kept : WhatsappUses Kept where
  tick := kept_tick
  recipient _ _ _ _ _ := kept_recipient
  group _ _ _ := moves_storeGroup kept_tick fun st _ hrow _ =>
    kept_of_eq rfl (noneBack_insert st hrow)
  update _ _ _ _ := moves_updateGroup kept_tick fun st _ hf _ =>
    kept_of_eq rfl (noneBack_update st hf)
  message a text group ts := by
    refine Steps.bind (moves_query kept_tick _) fun valid => ?_
    split
    · exact steps_modify fun st => kept_message st _
    · exact steps_throw trivial
  ntf _ _ := kept_execute (fun _ => rfl) fun _ => rfl
  msgid _ := kept_execute (fun _ => rfl) fun _ => rfl
  persistence _ := kept_execute (fun _ => rfl) fun _ => rfl
  deleteGroup := kept_deleteGroup

/-- The link neither adds messages nor changes groups. -/
def SameGroups (st st' : Store) : Prop :=
  st'.messages.next = st.messages.next ∧ st'.groups = st.groups

instance isPreorder_sameGroups : IsPreorder Store SameGroups where
  refl _ := ⟨rfl, rfl⟩
  trans _ _ _ h h' := ⟨h'.1.trans h.1, h'.2.trans h.2⟩

theorem linkUses_sameGroups : LinkUses SameGroups where
  tick _ := ⟨rfl, rfl⟩
  nick _ _ _ := moves_execute (fun _ => ⟨rfl, rfl⟩) fun _ => ⟨rfl, rfl⟩
  mode _ _ := moves_execute (fun _ => ⟨rfl, rfl⟩) fun _ => ⟨rfl, rfl⟩
  dropRecipient _ := moves_checked (fun _ => ⟨rfl, rfl⟩) fun _ => ⟨rfl, rfl⟩
  deleteMessage _ := moves_checked (fun _ => ⟨rfl, rfl⟩) fun _ => ⟨rfl, rfl⟩

end Stores

section Program

variable [Crates]

/-- What becomes of the stored messages from one state of the program to a later one: they
are the rows of deeds, or are lost. -/
structure Fates (s t : Parts) (new : List Message) (ds : List Deed) (lost : List Message) :
    Prop where
  passage : Passage s.link.link.store.messages t.link.link.store.messages new
    (ds.flatMap Deed.rows) lost
  calls : t.link.link.calls = s.link.link.calls ++ ds.flatMap Deed.calls
  lines : ∃ ls, t.link.link.outbox = s.link.link.outbox ++ ls ∧ (ds.flatMap linesOf).Sublist ls
  unbridged : ∀ m ∈ lost, Unbridged t.link.link.store m
  noneBack : NoneBack s.link.link.store t.link.link.store

theorem fates_refl (s : Parts) : Fates s s [] [] [] :=
  ⟨passage_refl _, by simp, ⟨[], by simp, List.Sublist.slnil⟩, by simp, fun _ h => h⟩

theorem Fates.trans {s t u : Parts} {new new' lost lost' : List Message} {ds ds' : List Deed}
    (h : Fates s t new ds lost) (h' : Fates t u new' ds' lost') :
    Fates s u (new ++ new') (ds ++ ds') (lost ++ lost') := by
  refine ⟨?_, ?_, ?_, fun m hm => ?_, noneBack_trans h.noneBack h'.noneBack⟩
  · rw [List.flatMap_append]
    exact h.passage.trans h'.passage
  · rw [h'.calls, h.calls, List.flatMap_append, List.append_assoc]
  · obtain ⟨ls, hout, hsub⟩ := h.lines
    obtain ⟨ls', hout', hsub'⟩ := h'.lines
    refine ⟨ls ++ ls', by rw [hout', hout, List.append_assoc], ?_⟩
    rw [List.flatMap_append]
    exact hsub.append hsub'
  · rcases List.mem_append.mp hm with hm | hm
    · exact h'.noneBack m (h.unbridged m hm)
    · exact h'.unbridged m hm

theorem fates_of_kept {s t : Parts} (hcalls : t.link.link.calls = s.link.link.calls)
    (hout : t.link.link.outbox = s.link.link.outbox)
    (h : Kept s.link.link.store t.link.link.store) : ∃ new lost, Fates s t new [] lost := by
  obtain ⟨new, lost, hpass, hlost⟩ := h.passage
  exact ⟨new, lost, hpass, by simp [hcalls], ⟨[], by simp [hout], List.Sublist.slnil⟩, hlost,
    h.noneBack⟩

theorem fates_of_link {s t : Parts} {e : LinkRuns.Event}
    (hnext : LinkRuns.next s.link e = some t.link) (hstore : ∀ op, e ≠ .storeOp op)
    (hclock : ∀ now dbNow, e ≠ .clock now dbNow) (hout : t.link.outcome = none) :
    ∃ ds : List Deed, Fates s t [] ds [] ∧
      (∀ m ∈ ds.flatMap Deed.rows, m ∈ s.link.link.store.messages.rows) ∧
      ∀ d ∈ ds, Told s.link.link t.link.link d := by
  obtain ⟨ds, hsends⟩ := sends_of_next hnext hstore hout
  obtain ⟨ls, hls, hsub, -⟩ := lines_of_next (r := True) hnext hstore hclock
    (fun _ => trivial) (fun _ _ => trivial) hout hsends
  obtain ⟨hlast, hgroups⟩ := link_of_uses linkUses_sameGroups hnext hstore hclock
  refine ⟨ds, ⟨?_, hsends.calls, ⟨ls, hls, hsub⟩, by simp, noneBack_of_eq hgroups⟩,
    hsends.stored, hsends.told⟩
  exact passage_take hlast hsends.left hsends.nodup hsends.stored

theorem fates_stepped {s t : Parts} {e : Main.Event} (hs : Shared s) (h : Stepped s e t)
    (hout : t.link.outcome = none) : ∃ new ds lost, Fates s t new ds lost ∧
      (∀ m ∈ ds.flatMap Deed.rows, m ∈ s.link.link.store.messages.rows) ∧
      ∀ d ∈ ds, Told s.link.link t.link.link d := by
  have hapart : t.link.link.calls = s.link.link.calls →
      t.link.link.outbox = s.link.link.outbox → Kept s.link.link.store t.link.link.store →
      ∃ new ds lost, Fates s t new ds lost ∧
        (∀ m ∈ ds.flatMap Deed.rows, m ∈ s.link.link.store.messages.rows) ∧
        ∀ d ∈ ds, Told s.link.link t.link.link d := by
    intro hcalls hlines hkept
    obtain ⟨new, lost, hfates⟩ := fates_of_kept hcalls hlines hkept
    exact ⟨new, [], lost, hfates, by simp, by simp⟩
  have hlink : ∀ {f : LinkRuns.Event}, LinkRuns.next s.link f = some t.link →
      (∀ op, f ≠ .storeOp op) → (∀ now dbNow, f ≠ .clock now dbNow) →
      ∃ new ds lost, Fates s t new ds lost ∧
        (∀ m ∈ ds.flatMap Deed.rows, m ∈ s.link.link.store.messages.rows) ∧
        ∀ d ∈ ds, Told s.link.link t.link.link d := by
    intro f hnext hstore hclock
    obtain ⟨ds, hfates⟩ := fates_of_link hnext hstore hclock hout
    exact ⟨[], ds, [], hfates⟩
  cases h with
  | modem hown h =>
      have hkept := modem_of_uses modemUses_kept hown h
      rw [hs.modem] at hkept
      exact hapart rfl rfl hkept
  | whatsapp hown h =>
      have hkept := whatsapp_of_uses whatsappUses_kept hown h
      rw [hs.wa] at hkept
      exact hapart rfl rfl hkept
  | log => exact hapart rfl rfl (Std.Refl.refl (r := Kept) _)
  | clock => exact hapart rfl rfl (kept_same rfl rfl)
  | connect h => exact hlink h (by simp) (by simp)
  | remote h => exact hlink h (by simp) (by simp)
  | cf hrx h => exact hlink h (by simp) (by simp)
  | cb hrx h => exact hlink h (by simp) (by simp)

/-- A row is stored in some state of a run. -/
def StoredIn (s : Parts) (es : List Main.Event) (m : Message) : Prop :=
  ∃ k u, run Main.next s (es.take k) = some u ∧ m ∈ u.link.link.store.messages.rows

theorem storedIn_cons {s u : Parts} {e : Main.Event} {es : List Main.Event} {m : Message}
    (hu : Main.next s e = some u) :
    StoredIn s (e :: es) m ↔ m ∈ s.link.link.store.messages.rows ∨ StoredIn u es m := by
  constructor
  · rintro ⟨k, v, hv, hm⟩
    cases k with
    | zero =>
        cases hv
        exact .inl hm
    | succ k =>
        rw [List.take_succ_cons, run_cons, hu] at hv
        exact .inr ⟨k, v, hv, hm⟩
  · rintro (hm | ⟨k, v, hv, hm⟩)
    · exact ⟨0, s, rfl, hm⟩
    · refine ⟨k + 1, v, ?_, hm⟩
      rw [List.take_succ_cons, run_cons, hu]
      exact hv

theorem fates_of_run {s t : Parts} {es : List Main.Event} (hs : Shared s)
    (hrun : run Main.next s es = some t) (ht : running t = true) :
    ∃ new ds lost, Fates s t new ds lost ∧
      (∀ m, StoredIn s es m → m ∈ s.link.link.store.messages.rows ++ new) ∧
      (∀ m ∈ ds.flatMap Deed.rows, StoredIn s es m) ∧ ∀ d ∈ ds, ToldIn s es d := by
  induction es generalizing s with
  | nil =>
      cases hrun
      refine ⟨[], [], [], fates_refl _, ?_, by simp, by simp⟩
      rintro m ⟨k, u, hu, hm⟩
      rw [List.take_nil] at hu
      cases hu
      rwa [List.append_nil]
  | cons e es ih =>
      rw [run_cons, Option.bind_eq_some_iff] at hrun
      obtain ⟨u, hu, hrest⟩ := hrun
      have hstep := stepped_of_next hu
      have hrunning := running_of_run hrest ht
      simp only [running, Bool.and_eq_true, Option.isNone_iff_eq_none] at hrunning
      obtain ⟨new, ds, lost, hfirst, hrows, htold⟩ := fates_stepped hs hstep hrunning.2
      obtain ⟨new', ds', lost', hlater, hstored, hrows', htold'⟩ :=
        ih (shared_stepped hs hstep) hrest
      refine ⟨_, _, _, hfirst.trans hlater, fun m hm => ?_, fun m hm => ?_, fun d hd => ?_⟩
      · rcases (storedIn_cons hu).mp hm with hm | hm
        · exact List.mem_append_left _ hm
        · rw [← List.append_assoc]
          rcases List.mem_append.mp (hstored m hm) with hm | hm
          · exact List.mem_append_left _ (hfirst.passage.mem_of_now hm)
          · exact List.mem_append_right _ hm
      · rw [List.flatMap_append] at hm
        rcases List.mem_append.mp hm with hm | hm
        · exact (storedIn_cons hu).mpr (.inl (hrows m hm))
        · exact (storedIn_cons hu).mpr (.inr (hrows' m hm))
      · exact toldIn_cons hu ((List.mem_append.mp hd).imp (htold d) (htold' d))

/-- Each message that is ever stored is still stored, or has been told by a ghost, in lines
that are on the wire, or has gone with its group, and only one of these; none is told twice. -/
theorem messages_once {cfg : Config} {w : World} {s : Parts} {es : List Main.Event}
    (hrun : run Main.next (start cfg w) es = some s) (hs : running s = true) :
    ∃ (rows lost : List Message) (ds : List Deed),
      (∀ m, StoredIn (start cfg w) es m → m ∈ rows) ∧ (rows.map Message.id).Nodup ∧
      rows.Perm (s.link.link.store.messages.rows ++ ds.flatMap Deed.rows ++ lost) ∧
      (∀ m ∈ lost, Unbridged s.link.link.store m) ∧
      (∀ m ∈ ds.flatMap Deed.rows, StoredIn (start cfg w) es m) ∧
      (∀ d ∈ ds, ToldIn (start cfg w) es d) ∧
      (ds.flatMap linesOf).Sublist s.link.link.outbox ∧
      s.link.link.calls = ds.flatMap Deed.calls := by
  obtain ⟨new, ds, lost, hfates, hstored, hrows, htold⟩ :=
    fates_of_run (shared_start cfg w) hrun hs
  obtain ⟨ls, hout, hsub⟩ := hfates.lines
  refine ⟨_, lost, ds, hstored, hfates.passage.nodup_keys, hfates.passage.conserved,
    hfates.unbridged, hrows, htold, ?_, hfates.calls⟩
  rw [hout]
  exact hsub

end Program

section Samples

attribute [local instance] Sample.crates

theorem messages_once_delivering :
    ∃ (rows lost : List Message) (ds : List Deed),
      (∀ m, StoredIn (start sampleConfig sampleWorld) (linking ++ receiving ++ delivering) m →
        m ∈ rows) ∧ (rows.map Message.id).Nodup ∧
      rows.Perm (delivered.link.link.store.messages.rows ++ ds.flatMap Deed.rows ++ lost) ∧
      (∀ m ∈ lost, Unbridged delivered.link.link.store m) ∧
      (∀ m ∈ ds.flatMap Deed.rows,
        StoredIn (start sampleConfig sampleWorld) (linking ++ receiving ++ delivering) m) ∧
      (∀ d ∈ ds, ToldIn (start sampleConfig sampleWorld) (linking ++ receiving ++ delivering) d) ∧
      (ds.flatMap linesOf).Sublist delivered.link.link.outbox ∧
      delivered.link.link.calls = ds.flatMap Deed.calls :=
  messages_once run_delivered running_delivered

end Samples

end SmsIrc.StoredMessages
