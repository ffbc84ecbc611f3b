import SmsIrc.LinkDeeds

/-!
One run of `process_messages` that succeeds: every stored row is either left
alone or sent once and deleted.
-/

namespace SmsIrc.LinkDelivery

open SmsIrc.Database SmsIrc.External SmsIrc.Link SmsIrc.LinkDeeds SmsIrc.LinkGhosts
open SmsIrc.LinkRuns SmsIrc.LinkSteady SmsIrc.MessageTexts SmsIrc.Models SmsIrc.Program
open SmsIrc.SenderCommon SmsIrc.SerialTable SmsIrc.Text SmsIrc.Transition SmsIrc.Util

section Delivery

/-- The ids among the calls of `delete_message`. -/
def deletedIds (cs : List SenderCall) : List Nat :=
  cs.filterMap fun
    | .deleteMessage id => some id
    | _ => none

/-- How often the text of a row has been sent. -/
def timesSent (ds : List Deed) (m : Message) : Nat := (ds.flatMap Deed.rows).count m

/-- The row of a deed, if it is sent by itself. -/
def aloneRows : Deed → List Message
  | .alone _ _ _ row => [row]
  | _ => []

theorem deletedIds_sendCalls (nick text : Str) (target : Option Nat) (dest : Str)
    (rows : List Message) :
    deletedIds (sendCalls nick text target dest ++ deletions rows) = rows.map Message.id := by
  have hsent : ∀ chunks : List Str,
      deletedIds (chunks.map (.sendIrcMessage nick dest)) = [] := by
    intro chunks
    induction chunks with
    | nil => rfl
    | cons c chunks ih => exact ih
  have hdeleted : deletedIds (deletions rows) = rows.map Message.id := by
    induction rows with
    | nil => rfl
    | cons m rows ih => exact congrArg (m.id :: ·) ih
  rw [deletedIds, List.filterMap_append]
  change deletedIds (sendCalls nick text target dest) ++ deletedIds (deletions rows) = _
  rw [hdeleted]
  change deletedIds (_ :: _) ++ _ = _
  exact congrArg (· ++ _) (hsent _)

theorem deletedIds_deed (d : Deed) : deletedIds d.calls = d.rows.map Message.id := by
  cases d with
  | alone nick text dest row => exact deletedIds_sendCalls _ _ _ _ _
  | joined nick text dest target parts => exact deletedIds_sendCalls _ _ _ _ _
  | reported nick err => rfl

theorem deletedIds_deeds (ds : List Deed) :
    deletedIds (ds.flatMap Deed.calls) = (ds.flatMap Deed.rows).map Message.id := by
  induction ds with
  | nil => rfl
  | cons d ds ih =>
      rw [List.flatMap_cons, List.flatMap_cons, List.map_append, ← ih, ← deletedIds_deed]
      exact List.filterMap_append

instance : IsTrans Message sentBefore where
  trans a b c := by
    rintro (hab | ⟨hab, hid⟩) (hbc | ⟨hbc, hid'⟩)
    · exact .inl (Int.lt_trans hab hbc)
    · exact .inl (hbc ▸ hab)
    · exact .inl (hab ▸ hbc)
    · exact .inr ⟨hab.trans hbc, Nat.le_trans hid hid'⟩

instance : Std.Total sentBefore where
  total a b := by
    rcases Int.lt_trichotomy a.ts b.ts with h | h | h
    · exact .inl (.inl h)
    · rcases Nat.le_total a.id b.id with hid | hid
      · exact .inl (.inr ⟨h, hid⟩)
      · exact .inr (.inr ⟨h.symm, hid⟩)
    · exact .inr (.inl h)

variable [Crates]

/-- The channel of a row's group, or else a user that has the nick of the admin. -/
def Reaches (l : InspLink) : Option Nat → Str → Prop
  | some g, dest => ∃ grp ∈ l.store.groups.rows, grp.id = g ∧ grp.channel = dest
  | none, dest => IsAdmin l dest

/-- Where a text is sent. -/
def SentTo : Deed → Str → Prop
  | .alone _ _ dest _, ch => dest = ch
  | .joined _ _ dest _ _, ch => dest = ch
  | .reported _ _, _ => False

/-- The text of a deed is what its row says, or what the parts of its message say together. -/
def HasText (now : NaiveDateTime) : Deed → Prop
  | .alone _ text _ row => OwnText now row text
  | .joined _ text _ _ parts => (∃ msg, AllParts msg parts) ∧ Joined parts text
  | .reported _ _ => True

/-- The calls of a run are those of some deeds, and these agree with what has
become of the stored rows. -/
structure Delivered (l t : InspLink) (ds : List Deed) : Prop where
  calls : t.calls = l.calls ++ ds.flatMap Deed.calls
  rows : ∀ m ∈ l.store.messages.rows,
    (m ∈ t.store.messages.rows ∧ timesSent ds m = 0) ∨
      (m ∉ t.store.messages.rows ∧ timesSent ds m = 1)
  text : ∀ d ∈ ds, HasText l.now d
  ghost : ∀ d ∈ ds, ∀ m ∈ d.rows, FromGhost t m d.nick
  dest : ∀ d ∈ ds, ∀ m ∈ d.rows, ∃ ch, SentTo d ch ∧ Reaches l m.groupTarget ch
  order : (ds.flatMap aloneRows).Pairwise sentBefore
  deletedOnce : (deletedIds (ds.flatMap Deed.calls)).Nodup
  deletedStored : ∀ id ∈ deletedIds (ds.flatMap Deed.calls),
    ∃ m ∈ l.store.messages.rows, m.id = id

/-- The parts that a message would be joined of have its target. -/
def SameTargets (st : Store) : Prop :=
  ∀ msg ∈ st.messages.rows, ∀ d cd, decodePart msg = .ok d → concatenation d = some cd →
    ∀ m ∈ concatenatedRows st msg.phoneNumber cd.reference.toNat,
      m.groupTarget = msg.groupTarget

theorem deed_of_processed {msgs : List Message} {s t : InspLink} {ds : List Deed}
    (h : Processed msgs s t ds) : ∀ d ∈ ds, ∃ msg ∈ msgs, ∃ u, Steady s u ∧ Steady u t ∧
      (∀ m ∈ u.store.messages.rows, m ∈ s.store.messages.rows) ∧ Meant u msg d ∧
      FromGhost t msg d.nick ∧ SentIn s t d := by
  induction h with
  | nil l => simp
  | @cons msg msgs s t u ds es hrow hrest ih =>
      intro d hd
      rcases List.mem_append.mp hd with hd | hd
      · rcases hrow.2 with ⟨d', rfl, hmeant, hghost, hto⟩ | ⟨rfl, _⟩
        · rw [List.mem_singleton.mp hd]
          exact ⟨msg, by simp, s, steady_refl s, steady_trans hrow.1.steady hrest.did.steady,
            fun _ h => h, hmeant,
            fromGhost_of_steady hrest.did.steady hghost,
            hto.mono (steady_refl s) hrest.did.steady⟩
        · simp at hd
      · obtain ⟨m, hm, v, hv, hvu, hrows, hmeant, hghost, hto⟩ := ih d hd
        refine ⟨m, by simp [hm], v, steady_trans hrow.1.steady hv, hvu, fun q hq => ?_, hmeant,
          hghost, hto.mono hrow.1.steady (steady_refl u)⟩
        have hq' := hrows q hq
        rw [hrow.1.left] at hq'
        exact List.mem_of_mem_filter hq'

theorem aloneRows_sublist {msgs : List Message} {s t : InspLink} {ds : List Deed}
    (h : Processed msgs s t ds) : (ds.flatMap aloneRows).Sublist msgs := by
  induction h with
  | nil l => exact List.Sublist.slnil
  | @cons msg msgs s t u ds es hrow hrest ih =>
      rw [List.flatMap_append]
      change List.Sublist _ ([msg] ++ msgs)
      refine List.Sublist.append ?_ ih
      rcases hrow.2 with ⟨d, rfl, hmeant, _⟩ | ⟨rfl, _⟩
      · cases d with
        | alone nick text dest row =>
            rw [← hmeant.1]
            exact List.Sublist.refl _
        | joined nick text dest target parts => exact List.nil_sublist _
        | reported nick err => exact List.nil_sublist _
      · exact List.nil_sublist _

theorem reaches_of_goesTo {l w : InspLink} (honline : AdminOnline l) (hw : Steady l w)
    {gt : Option Nat} {dest : Str} (h : GoesTo w gt dest) : Reaches l gt dest := by
  cases gt with
  | none =>
      rcases h with hadmin | ⟨-, hnone⟩
      · exact hw.admin dest hadmin
      · obtain ⟨u, hu, -⟩ := hw.online honline
        exact absurd hu (hnone u)
  | some g =>
      obtain ⟨grp, hgrp, hrest⟩ := h
      exact ⟨grp, hw.groups ▸ hgrp, hrest⟩

theorem allParts_of_meant {l : InspLink} {msg : Message} {nick text dest : Str}
    {target : Option Nat} {parts : List Message}
    (h : Meant l msg (.joined nick text dest target parts)) : AllParts msg parts := by
  obtain ⟨-, d, cd, hok, hcd, hperm, hlen, -⟩ := h
  refine ⟨cd, partOf_of_decodePart hok hcd, hlen, fun m hm => ?_⟩
  have hrow := (List.mem_filter.mp (hperm.subset hm)).2
  simp only [Bool.and_eq_true, decide_eq_true_eq] at hrow
  exact ⟨hrow.2, hrow.1⟩

theorem hasText_of_meant {l : InspLink} {msg : Message} {d : Deed} (h : Meant l msg d) :
    HasText l.now d := by
  cases d with
  | alone nick text dest row =>
      rw [HasText, h.1]
      exact h.2
  | joined nick text dest target parts =>
      refine ⟨⟨msg, allParts_of_meant h⟩, ?_⟩
      obtain ⟨-, d, cd, -, -, -, -, hjoin⟩ := h
      exact joined_of_joinParts hjoin
  | reported nick err => trivial

/-- For every state of the link, a run of `process_messages` that succeeds while
the admin is online delivers what it deletes and deletes what it delivers. -/
theorem processMessages_delivers {l t : InspLink} (honline : AdminOnline l)
    (htargets : SameTargets l.store) (hrun : exec processMessages l = (.ok (), t)) :
    ∃ ds, Delivered l t ds := by
  rcases wp_of_ok hrun (wp_processMessages_deeds l) with ⟨hnone, _⟩ | ⟨_, ds, hds⟩
  · obtain ⟨_, hadmin, _⟩ := honline
    obtain ⟨u, hu⟩ := adminUuid_of_isAdmin hadmin
    rw [hu] at hnone
    cases hnone
  have hdid := hds.did
  have hdeed := deed_of_processed hds
  have hleft : ∀ m, m ∈ t.store.messages.rows ↔
      m ∈ l.store.messages.rows ∧ m ∉ ds.flatMap Deed.rows := by
    intro m
    rw [hdid.left, List.mem_filter, decide_eq_true_iff]
    rfl
  have htick : Idle l { l with store := l.store.tick } := idle_store rfl rfl fun _ h => h
  -- the rows of a deed are the row that it was done for, or parts of its message
  have hrows : ∀ d ∈ ds, ∀ m ∈ d.rows, FromGhost t m d.nick ∧
      ∃ ch, SentTo d ch ∧ Reaches l m.groupTarget ch := by
    intro d hd m hm
    obtain ⟨msg, hmsg, u, hu, -, hsub, hmeant, hghost, w, hw, -, hto⟩ := hdeed d hd
    replace hw : Steady l w := steady_trans htick.toSteady hw
    cases d with
    | alone nick text dest row =>
        obtain ⟨rfl, _⟩ := hmeant
        rw [List.mem_singleton.mp hm]
        exact ⟨hghost, dest, rfl, reaches_of_goesTo honline hw hto⟩
    | joined nick text dest target parts =>
        obtain ⟨rfl, d, cd, hok, hcd, hperm, _⟩ := hmeant
        obtain ⟨hrow, hpart⟩ := List.mem_filter.mp (hperm.subset hm)
        rw [Bool.and_eq_true, decide_eq_true_iff, decide_eq_true_iff] at hpart
        have htarget := htargets msg (mem_snapshot.mp hmsg) d cd hok hcd m
          (List.mem_filter.mpr ⟨hsub m hrow, by simp [hpart]⟩)
        refine ⟨?_, dest, rfl, ?_⟩
        · rw [FromGhost, hpart.2]
          exact hghost
        · rw [htarget]
          exact reaches_of_goesTo honline hw hto
    | reported nick err => simp [Deed.rows] at hm
  exact ⟨ds,
    { calls := hdid.calls
      rows := by
        intro m hm
        by_cases hsent : m ∈ ds.flatMap Deed.rows
        · exact .inr ⟨fun h => ((hleft m).mp h).2 hsent, List.count_eq_one_of_mem hdid.nodup hsent⟩
        · exact .inl ⟨(hleft m).mpr ⟨hm, hsent⟩, List.count_eq_zero_of_not_mem hsent⟩
      text := by
        intro d hd
        obtain ⟨msg, _, u, hu, _, _, hmeant, _⟩ := hdeed d hd
        have htext := hasText_of_meant hmeant
        rw [hu.now] at htext
        exact htext
      ghost := fun d hd m hm => (hrows d hd m hm).1
      dest := fun d hd m hm => (hrows d hd m hm).2
      order := (List.pairwise_insertionSort sentBefore _).sublist (aloneRows_sublist hds)
      deletedOnce := by
        rw [deletedIds_deeds]
        refine List.Nodup.map_on (fun a ha b hb hab => ?_) hdid.nodup
        exact l.store.messages.eq_of_key_eq (hdid.stored a ha) (hdid.stored b hb) hab
      deletedStored := by
        rw [deletedIds_deeds]
        intro id hid
        obtain ⟨m, hm, rfl⟩ := List.mem_map.mp hid
        exact ⟨m, hdid.stored m hm, rfl⟩ }⟩

theorem sameTargets_of_none {st : Store} (h : ∀ m ∈ st.messages.rows, m.groupTarget = none) :
    SameTargets st := by
  intro msg hmsg _ _ _ _ m hm
  rw [h m (List.mem_of_mem_filter hm), h msg hmsg]

end Delivery

section Samples

attribute [local instance] Sample.crates

/-- The row of a part of a message from `alice`. -/
def partRow (seq : UInt8) (text : Str) (target : Option Nat) (n : Nat) : Message where
  id := n
  phoneNumber := normalizeAddress Sample.alice
  pdu := some (Sample.pdu (some (7, 2, seq)) text)
  csmsData := some 7
  groupTarget := target
  text := none
  source := sourceSms
  ts := 0

/-- A database with a group and with both parts of a message, the second of which
may have the group as its target. -/
def partsStore (target : Option Nat) : Store :=
  { Sample.store with
    groups := Table.empty.insert (fun n =>
      { id := n, jid := "1@g.us", channel := "#g", participants := [], admins := [],
        topic := [] }) fun _ => rfl
    messages := (Table.empty.insert (partRow 1 ['h'] none) fun _ => rfl).insert
      (partRow 2 ['i'] target) fun _ => rfl }

/-- The recipient of the parts only comes to be after they have been skipped. -/
def skipping : List Event := linking ++ [.storeOp (.recipient Sample.alice ['a'])]

/-- The calls that deliver the message. -/
def partsCalls : List SenderCall :=
  [.sendRawMessage ("00AZ00001" : Str) ['h', 'i'] none,
    .sendIrcMessage ("00AZ00001" : Str) ("00BAAAAAA" : Str) ['h', 'i'],
    .deleteMessage 1, .deleteMessage 2]

theorem skipping_run (target : Option Nat) (htarget : target = none ∨ target = some 1) :
    ∃ s t, run next (initial sampleConfig (partsStore target) 0) skipping = some s ∧
      s.link.state = .linked ∧ adminUuid s.link = some ("00BAAAAAA" : Str) ∧
      s.link.cfg.sid = ("00A" : Str) ∧
      s.link.store.groups.rows = (partsStore target).groups.rows ∧
      s.link.store.messages.rows = (partsStore target).messages.rows ∧ s.link.calls = [] ∧
      exec processMessages s.link = (.ok (), t) ∧ t.store.messages.rows = [] ∧
      t.calls = partsCalls := by
  have hstart : (run next (initial sampleConfig (partsStore target) 0) skipping).map (fun s =>
      (s.link.state, adminUuid s.link, s.link.cfg.sid, s.link.store.groups.rows)) =
      some (.linked, some ("00BAAAAAA" : Str), ("00A" : Str),
        (partsStore target).groups.rows) := by
    rcases htarget with rfl | rfl <;> decide +kernel
  have hrows : (run next (initial sampleConfig (partsStore target) 0) skipping).map (fun s =>
      (s.link.store.messages.rows, s.link.calls)) =
      some ((partsStore target).messages.rows, []) := by
    rcases htarget with rfl | rfl <;> decide +kernel
  have hend : (run next (initial sampleConfig (partsStore target) 0) skipping).map (fun s =>
      ((exec processMessages s.link).1.isOk, (exec processMessages s.link).2.store.messages.rows,
        (exec processMessages s.link).2.calls)) = some (true, [], partsCalls) := by
    rcases htarget with rfl | rfl <;> decide +kernel
  obtain ⟨s, hs, hstart⟩ := Option.map_eq_some_iff.mp hstart
  rw [hs, Option.map_some, Option.some.injEq, Prod.mk.injEq] at hrows hend
  simp only [Prod.mk.injEq] at hstart hend
  obtain ⟨hstate, hadmin, hsid, hgroups⟩ := hstart
  exact ⟨s, _, hs, hstate, hadmin, hsid, hgroups, hrows.1, hrows.2, exec_eq_of_isOk hend.1,
    hend.2.1, hend.2.2⟩

theorem adminOnline_of_eval {l : InspLink} (hadmin : adminUuid l = some ("00BAAAAAA" : Str))
    (hsid : l.cfg.sid = ("00A" : Str)) : AdminOnline l := by
  refine ⟨_, isAdmin_of_adminUuid hadmin, fun n _ he => ?_⟩
  rw [hsid] at he
  simp [uuidOf] at he

theorem processMessages_delivers_parts : ∃ s t,
    run next (initial sampleConfig (partsStore none) 0) skipping = some s ∧
      exec processMessages s.link = (.ok (), t) ∧ ∃ ds, Delivered s.link t ds := by
  obtain ⟨s, t, hs, _, hadmin, hsid, _, hrows, _, hrun, _⟩ := skipping_run none (.inl rfl)
  refine ⟨s, t, hs, hrun,
    processMessages_delivers (adminOnline_of_eval hadmin hsid) (sameTargets_of_none ?_) hrun⟩
  rw [hrows]
  decide +kernel

/-- Every address reads back, and every PDU parses. -/
def WellFormed (st : Store) : Prop :=
  Known st ∧ ∀ m ∈ st.messages.rows, ∀ raw ∈ m.pdu,
    (Crates.deliverPduTryFrom raw).isOk = true

theorem tame_skipping : ∀ e ∈ skipping, ∀ s, Tame s e := by
  intro e he s
  rcases List.mem_append.mp he with he | he
  · exact tame_linking e he s
  · rw [List.mem_singleton.mp he]
    intro a ha
    rw [List.mem_singleton.mp ha]
    exact Sample.readsBack_alice

theorem mem_calls_of_mem {d : Deed} {ds : List Deed} (hd : d ∈ ds) {c : SenderCall}
    (hc : c ∈ d.calls) : c ∈ ds.flatMap Deed.calls := List.mem_flatMap.mpr ⟨d, hd, hc⟩

/-- A part whose target is a group is sent to the admin, if the part processed
first has none. -/
theorem part_sent_to_other_target :
    ¬ ∀ (st : Store) (es : List Event) (s : Session) (t : InspLink),
      run next (initial sampleConfig st 0) es = some s → WellFormed s.link.store →
      s.link.state = .linked → AdminOnline s.link →
      exec processMessages s.link = (.ok (), t) → ∃ ds, Delivered s.link t ds := by
  intro h
  obtain ⟨s, t, hs, hstate, hadmin, hsid, hgroups, hrows, hcalls, hrun, hleft, hmade⟩ :=
    skipping_run (some 1) (.inr rfl)
  have hwell : WellFormed s.link.store := by
    refine ⟨(sound_of_run ?_ (allSteps_of_forall_mem tame_skipping _) hs).1.known, ?_⟩
    · refine ⟨fun _ h => absurd h List.not_mem_nil, fun m hm => ?_⟩
      rcases List.mem_append.mp hm with hm | hm
      · rw [List.mem_singleton.mp hm]
        exact ⟨Sample.alice, Sample.readsBack_alice, rfl⟩
      · rw [List.mem_singleton.mp hm]
        exact ⟨Sample.alice, Sample.readsBack_alice, rfl⟩
    · rw [hrows]
      decide +kernel
  obtain ⟨ds, hds⟩ := h _ _ s t hs hwell hstate (adminOnline_of_eval hadmin hsid) hrun
  have hdeeds : ds.flatMap Deed.calls = partsCalls := by
    have hall := hds.calls
    rw [hcalls, List.nil_append] at hall
    rw [← hall, hmade]
  have hrow : partRow 2 ['i'] (some 1) 2 ∈ s.link.store.messages.rows := by
    rw [hrows]
    decide +kernel
  obtain ⟨d, hd, hmem⟩ : ∃ d ∈ ds, partRow 2 ['i'] (some 1) 2 ∈ d.rows := by
    rcases hds.rows _ hrow with ⟨hstill, _⟩ | ⟨_, hsent⟩
    · rw [hleft] at hstill
      cases hstill
    · refine List.mem_flatMap.mp (List.count_pos_iff.mp ?_)
      change 0 < timesSent ds _
      rw [hsent]
      exact Nat.one_pos
  obtain ⟨ch, hto, grp, hgrp, _, hch⟩ := hds.dest d hd _ hmem
  have hchannel : ch = ("#g" : Str) := by
    rw [hgroups] at hgrp
    rw [← hch, List.mem_singleton.mp hgrp]
  -- whatever deed it is, it sends its text there, but no call does
  have hsend : ∃ nick text target rest,
      d.calls = sendCalls nick text target ("#g" : Str) ++ rest := by
    cases d with
    | alone nick text dest row =>
        exact ⟨nick, text, _, _, by rw [Deed.calls, show dest = _ from hto.trans hchannel]⟩
    | joined nick text dest target parts =>
        exact ⟨nick, text, _, _, by rw [Deed.calls, show dest = _ from hto.trans hchannel]⟩
    | reported nick err => exact hto.elim
  obtain ⟨nick, text, target, rest, hsend⟩ := hsend
  have hall : ∀ c ∈ sendCalls nick text target ("#g" : Str), c ∈ partsCalls := by
    intro c hc
    rw [← hdeeds]
    exact mem_calls_of_mem hd (by rw [hsend]; exact List.mem_append_left _ hc)
  have htext : text = ['h', 'i'] := by
    have := hall (.sendRawMessage nick text target) (by simp [sendCalls])
    simp [partsCalls] at this
    exact this.2.1
  have hpieces : pieces ['h', 'i'] = [['h', 'i']] := by decide +kernel
  have hirc := hall (.sendIrcMessage nick ("#g" : Str) ['h', 'i'])
    (by simp [sendCalls, htext, hpieces])
  simp [partsCalls] at hirc

end Samples

end SmsIrc.LinkDelivery
