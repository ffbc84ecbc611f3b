import SmsIrc.Attendance
import SmsIrc.Composition
import SmsIrc.FrontEnds
import SmsIrc.LinkChannels

/-!
The channels that the control bot takes messages of the admin for, and those it is in.
-/

namespace SmsIrc.BotChannels

open SmsIrc.Attendance SmsIrc.Comm SmsIrc.Composition SmsIrc.ControlBot SmsIrc.ControlCommands
open SmsIrc.Database
open SmsIrc.External SmsIrc.FrontEnds SmsIrc.LinkChannels SmsIrc.Models SmsIrc.Program
open SmsIrc.SenderCommon SmsIrc.Text SmsIrc.Transition SmsIrc.Util

/-- Where a call makes the bot go. -/
def moveOf : ClientCall → Option (Move Str)
  | .join ch => some (.join ch)
  | .part ch => some (.part ch)
  | _ => none

section Bots

variable [Crates]

/-- The channels that the bot is in, if it was in its own when it connected. -/
def places (b : Bot) : List Str := replay [b.chan] (b.sent.filterMap moveOf)

/-- A bot that has been made, or has failed. -/
structure Session where
  bot : Bot
  outcome : Option Failure

inductive Event where
  | identify
  /-- The client's own future has a result. -/
  | drive (driver : Except Str Unit)
  | item (i : StreamItem)
  | command (c : ControlBotCommand)
  | storeOp (op : LinkRuns.StoreOp)

def perform (s : Session) (p : BotM Unit) : Session where
  bot := (exec p s.bot).2
  outcome := match (exec p s.bot).1 with
    | .ok _ => none
    | .error e => some e

def step (s : Session) : Event → Session
  | .identify => perform s identify
  | .drive driver => perform s (drive driver)
  | .item i => perform s (readItem i)
  | .command c => perform s (handleIntRx c)
  | .storeOp op => { s with bot := { s.bot with store := (exec op.run s.bot.store).2 } }

def next (s : Session) (e : Event) : Option Session :=
  match s.outcome with
  | none => some (step s e)
  | some _ => none

/-- The events at which the bot goes through the groups. -/
def Regroups (e : Event) : Prop :=
  e = .command .processGroups ∨ ∃ source, e = .item (.message ⟨source, .endOfMotd⟩)

/-- If the bot's own channel was that of a group, it still is when the bot goes through
the groups. -/
def Retains (s : Session) (e : Event) : Prop :=
  Regroups e → s.bot.chan ∈ s.bot.channels → Bridged s.bot.store s.bot.chan

/-- Nothing about the channels changes. -/
structure Still (s t : Bot) : Prop where
  chan : t.chan = s.chan
  channels : t.channels = s.channels
  groups : t.store.groups = s.store.groups
  moves : t.sent.filterMap moveOf = s.sent.filterMap moveOf

instance : IsPreorder Bot Still where
  refl _ := ⟨rfl, rfl, rfl, rfl⟩
  trans _ _ _ hst htu := ⟨htu.chan.trans hst.chan, htu.channels.trans hst.channels,
    htu.groups.trans hst.groups, htu.moves.trans hst.moves⟩

/-- What has been sent since, and where it has made the bot go. -/
def Went (ms : List (Move Str)) (s t : Bot) : Prop :=
  t.chan = s.chan ∧ t.channels = s.channels ∧ t.store = s.store ∧
    t.sent.filterMap moveOf = s.sent.filterMap moveOf ++ ms

theorem wp_call (c : ClientCall) (b : Bot) :
    wp (call c) (fun _ t => Went (moveOf c).toList b t) (fun _ t => Went [] b t) b := by
  rw [call, wp_bind, wp_get, wp_bind, wp_set]
  cases b.refuses b.calls with
  | some e => exact ⟨rfl, rfl, rfl, (List.append_nil _).symm⟩
  | none =>
      refine ⟨rfl, rfl, rfl, ?_⟩
      change (b.sent ++ [c]).filterMap moveOf = _
      rw [List.filterMap_append]
      cases hc : moveOf c with
      | none => simp [hc]
      | some m => simp [hc]

theorem still_of_went {s t : Bot} (h : Went [] s t) : Still s t :=
  ⟨h.1, h.2.1, by rw [h.2.2.1], h.2.2.2.trans (List.append_nil _)⟩

theorem still_call {c : ClientCall} (hc : moveOf c = none) : Moves Still (call c) := by
  intro b
  refine wp_mono (wp_call c b) (fun _ t ht => ?_) fun _ t ht => ⟨still_of_went ht, trivial⟩
  rw [hc] at ht
  exact still_of_went ht

theorem still_controlResponse (msg : Str) : Moves Still (ControlBot.controlResponse msg) :=
  Steps.bind steps_get fun _ => still_call rfl

theorem still_identify : Moves Still identify := by
  refine Steps.bind steps_get fun b => Steps.when (Steps.bind ?_ fun _ => ?_)
  · cases b.webircPassword with
    | some pw => exact still_call rfl
    | none => exact steps_pure _
  · exact Steps.bind (still_call rfl) fun _ => steps_modify fun _ => ⟨rfl, rfl, rfl, rfl⟩

theorem still_clearLogBacklog : Moves Still clearLogBacklog := by
  refine steps_get_bind fun b => ?_
  rw [wp_bind, wp_set]
  have hempty : Still b { b with logBacklog := [] } := ⟨rfl, rfl, rfl, rfl⟩
  exact (Steps.forM fun _ _ => still_call rfl).after hempty

theorem still_handlePrivmsg (nick target mesg : Str) :
    Moves Still (ControlBot.handlePrivmsg nick target mesg) := by
  have hmodify : ∀ f : Bot → Bot, (∀ b, Still b (f b)) → Moves Still (modify f : BotM PUnit) :=
    fun _ h => steps_modify h
  refine Steps.bind steps_get fun b => ?_
  split
  · exact steps_pure _
  · split
    · refine moves_processAdminCommand (fun _ => ?_) (fun _ => ?_) (fun _ => ?_) (fun _ => ?_)
        still_controlResponse (fun _ _ => steps_pure _)
      · exact hmodify _ fun _ => ⟨rfl, rfl, rfl, rfl⟩
      · exact hmodify _ fun _ => ⟨rfl, rfl, rfl, rfl⟩
      · exact hmodify _ fun _ => ⟨rfl, rfl, rfl, rfl⟩
      · exact hmodify _ fun _ => ⟨rfl, rfl, rfl, rfl⟩
    · split
      · exact hmodify _ fun _ => ⟨rfl, rfl, rfl, rfl⟩
      · exact steps_pure _

/-- The channels of the groups in the order in which they are read. -/
def groupChannels (st : Store) : List Str :=
  (Crates.scanOrder.run st.groups.rows).map fun grp => grp.channel

theorem mem_groupChannels {st : Store} {ch : Str} : ch ∈ groupChannels st ↔ Bridged st ch := by
  simp only [groupChannels, List.mem_map, Crates.scanOrder.mem_run, Bridged]

/-- A list of calls takes the bot where they say, as far as they are not refused. -/
theorem wp_calls (cs : List ClientCall) (b : Bot) :
    wp (forM cs call) (fun _ t => Went (cs.filterMap moveOf) b t)
      (fun _ t => ∃ ms, Went ms b t ∧ ms ⊆ cs.filterMap moveOf) b := by
  induction cs generalizing b with
  | nil => exact ⟨rfl, rfl, rfl, (List.append_nil _).symm⟩
  | cons c cs ih =>
      have hcons : (c :: cs).filterMap moveOf = (moveOf c).toList ++ cs.filterMap moveOf := by
        cases hc : moveOf c with
        | none => simp [hc]
        | some m => simp [hc]
      rw [List.forM_cons, wp_bind, hcons]
      refine wp_mono (wp_call c b) ?_ fun _ t ht => ⟨[], ht, List.nil_subset _⟩
      rintro _ t ⟨hchan, hchannels, hstore, hmoves⟩
      have hafter : ∀ {ms u}, Went ms t u → Went ((moveOf c).toList ++ ms) b u := by
        rintro ms u ⟨hchan', hchannels', hstore', hmoves'⟩
        refine ⟨hchan'.trans hchan, hchannels'.trans hchannels, hstore'.trans hstore, ?_⟩
        rw [hmoves', hmoves, List.append_assoc]
      apply wp_mono (ih t) (fun _ u hu => hafter hu)
      rintro _ u ⟨ms, hms, hsub⟩
      exact ⟨_, hafter hms, List.append_subset.mpr
        ⟨List.subset_append_left _ _, fun m hm => List.mem_append_right _ (hsub hm)⟩⟩

omit [Crates] in
theorem filterMap_joins (chs : List Str) :
    (chs.map ClientCall.join).filterMap moveOf = chs.map Move.join := by
  apply filterMap_moves
  exact fun _ => rfl

omit [Crates] in
theorem filterMap_parts (chs : List Str) :
    (chs.map ClientCall.part).filterMap moveOf = chs.map Move.part := by
  apply filterMap_moves
  exact fun _ => rfl

/-- What the bot does once it has read the groups. -/
def passThrough (chans : List Str) : BotM Unit := do
  forM chans fun ch => call (.join ch)
  let b ← get
  set { b with channels := chans }
  forM b.channels fun ch => when (ch ∉ chans) (call (.part ch))

theorem wp_passThrough (chans : List Str) (b : Bot) :
    wp (passThrough chans)
      (fun _ t => t.chan = b.chan ∧ t.store = b.store ∧ t.channels = chans ∧
        t.sent.filterMap moveOf = b.sent.filterMap moveOf ++
          (chans.map .join ++ (b.channels.filter fun ch => ch ∉ chans).map .part))
      (fun _ t => t.chan = b.chan ∧
        ∃ ms, ms ⊆ chans.map .join ++ (b.channels.filter fun ch => ch ∉ chans).map .part ∧
          t.sent.filterMap moveOf = b.sent.filterMap moveOf ++ ms) b := by
  have hjoins := wp_calls (chans.map .join) b
  rw [filterMap_joins, List.forM_map] at hjoins
  rw [passThrough, wp_bind]
  refine wp_mono hjoins ?_ ?_
  · rintro _ t ⟨hchan, hchannels, hstore, hmoves⟩
    rw [wp_bind, wp_get, wp_bind, wp_set, forM_when, hchannels]
    have hparts := wp_calls ((b.channels.filter fun ch => ch ∉ chans).map .part)
      { t with channels := chans }
    rw [filterMap_parts, List.forM_map] at hparts
    refine wp_mono hparts ?_ ?_
    · rintro _ u ⟨hchan', hchannels', hstore', hmoves'⟩
      refine ⟨hchan'.trans hchan, hstore'.trans hstore, hchannels', ?_⟩
      rw [hmoves', ← List.append_assoc, ← hmoves]
    · rintro _ u ⟨ms, ⟨hchan', -, -, hmoves'⟩, hsub⟩
      refine ⟨hchan'.trans hchan, chans.map .join ++ ms, ?_, ?_⟩
      · exact List.append_subset.mpr
          ⟨List.subset_append_left _ _, fun m hm => List.mem_append_right _ (hsub hm)⟩
      · rw [hmoves', ← List.append_assoc, ← hmoves]
  · rintro _ t ⟨ms, ⟨hchan, -, -, hmoves⟩, hsub⟩
    exact ⟨hchan, ms, fun m hm => List.mem_append_left _ (hsub hm), hmoves⟩

/-- Where going through the groups takes the bot. -/
def exchange (b : Bot) : List (Move Str) :=
  (groupChannels b.store).map .join ++
    (b.channels.filter fun ch => ch ∉ groupChannels b.store).map .part

theorem wp_processGroups (b : Bot) :
    wp ControlBot.processGroups
      (fun _ t => t.chan = b.chan ∧ t.store.groups = b.store.groups ∧
        t.channels = groupChannels b.store ∧
        t.sent.filterMap moveOf = b.sent.filterMap moveOf ++ exchange b)
      (fun _ t => t.chan = b.chan ∧ ∃ ms, ms ⊆ exchange b ∧
        t.sent.filterMap moveOf = b.sent.filterMap moveOf ++ ms) b := by
  rw [ControlBot.processGroups, wp_bind]
  change wp (zoom _ _ _) _ _ _
  rw [wp_zoom, getAllGroups]
  apply wp_query_of ⟨rfl, [], List.nil_subset _, (List.append_nil _).symm⟩
  change wp (passThrough (groupChannels b.store)) _ _ { b with store := b.store.tick }
  refine wp_mono (wp_passThrough _ _) ?_ fun _ _ h => h
  rintro _ t ⟨hchan, hstore, hchannels, hmoves⟩
  exact ⟨hchan, by rw [hstore]; rfl, hchannels, hmoves⟩

theorem still_handleIrcMessage {m : BotMessage} (h : m.command ≠ .endOfMotd) :
    Moves Still (handleIrcMessage m) := by
  unfold handleIrcMessage
  cases hm : m.command with
  | endOfMotd => exact absurd hm h
  | privmsg target mesg =>
      cases m.prefixStr with
      | some source => exact still_handlePrivmsg _ _ _
      | none => exact steps_pure _
  | error msg => exact steps_throw trivial
  | other => exact steps_pure _

theorem still_handleIntRx {c : ControlBotCommand} (h : c ≠ .processGroups) :
    Moves Still (handleIntRx c) := by
  cases c with
  | log log =>
      refine steps_get_bind fun b => ?_
      split
      · exact still_call rfl b
      · exact ⟨rfl, rfl, rfl, rfl⟩
  | reportFailure err => exact Steps.bind steps_get fun _ => still_call rfl
  | commandResponse resp => exact still_controlResponse resp
  | processGroups => exact absurd rfl h

/-- What holds of a bot that has never left its own channel. -/
structure AtHome (home : Str) (s : Session) : Prop where
  chan : s.bot.chan = home
  stays : home ∈ places s.bot
  places : s.outcome = none → ∀ ch, ch ∈ places s.bot ↔ ch = home ∨ ch ∈ s.bot.channels

theorem atHome_of_still {home : Str} {s : Session} {b : Bot} {o : Option Failure}
    (h : AtHome home s) (hs : s.outcome = none) (hstill : Still s.bot b) :
    AtHome home ⟨b, o⟩ := by
  have hplaces : places b = places s.bot := by rw [places, hstill.chan, hstill.moves, places]
  refine ⟨hstill.chan.trans h.chan, ?_, fun _ ch => ?_⟩
  · rw [hplaces]
    exact h.stays
  · rw [hplaces, hstill.channels]
    exact h.places hs ch

theorem atHome_perform {home : Str} {s : Session} {p : BotM Unit} (h : AtHome home s)
    (hs : s.outcome = none) (hp : Moves Still p) : AtHome home (perform s p) :=
  atHome_of_still h hs (hp.exec s.bot)

/-- The bot is in its own channel and in those of the groups that there are. -/
def Exact (b : Bot) : Prop := ∀ ch, ch ∈ places b ↔ ch = b.chan ∨ Bridged b.store ch

theorem atHome_regrouped {home : Str} {s : Session} (h : AtHome home s) (hs : s.outcome = none)
    (hretains : home ∈ s.bot.channels → Bridged s.bot.store home) :
    wp ControlBot.processGroups (fun _ t => AtHome home ⟨t, none⟩ ∧ Exact t)
      (fun e t => AtHome home ⟨t, some e⟩) s.bot := by
  have hleaves : ∀ m ∈ exchange s.bot, m ≠ .part home ∧ m ≠ .quit := by
    intro m hm
    rcases List.mem_append.mp hm with hm | hm
    · obtain ⟨ch, -, rfl⟩ := List.mem_map.mp hm
      exact ⟨by simp, by simp⟩
    · obtain ⟨ch, hch, rfl⟩ := List.mem_map.mp hm
      refine ⟨fun heq => ?_, by simp⟩
      cases heq
      rw [List.mem_filter, decide_eq_true_eq, mem_groupChannels] at hch
      exact hch.2 (hretains hch.1)
  refine wp_mono (wp_processGroups s.bot) ?_ ?_
  · rintro _ t ⟨hchan, hgroups, hchannels, hmoves⟩
    have hbridged : ∀ ch, ch ∈ t.channels ↔ Bridged t.store ch := by
      intro ch
      rw [hchannels, mem_groupChannels, Bridged, Bridged, hgroups]
    have hplaces : ∀ ch, ch ∈ places t ↔ ch = home ∨ ch ∈ t.channels := by
      intro ch
      rw [places, hmoves, replay_append, hchan, exchange,
        mem_replay_exchange decide_eq_true_iff, ← hchannels]
      change ch ∈ t.channels ∨ ch ∈ places s.bot ∧ ch ∉ s.bot.channels ↔ _
      rw [h.places hs, hbridged]
      constructor
      · rintro (hch | ⟨hch | hch, hnot⟩)
        · exact .inr hch
        · exact .inl hch
        · exact absurd hch hnot
      · rintro (rfl | hch)
        · by_cases hmem : ch ∈ s.bot.channels
          · refine .inl ?_
            rw [Bridged, hgroups]
            exact hretains hmem
          · exact .inr ⟨.inl rfl, hmem⟩
        · exact .inl hch
    refine ⟨⟨hchan.trans h.chan, (hplaces home).mpr (.inl rfl), fun _ => hplaces⟩, fun ch => ?_⟩
    rw [hplaces, hbridged, hchan, h.chan]
  · rintro e t ⟨hchan, ms, hsub, hmoves⟩
    refine ⟨hchan.trans h.chan, ?_, fun hnone => by cases hnone⟩
    rw [places, hmoves, replay_append, hchan]
    exact mem_replay_of_stays h.stays fun m hm => hleaves m (hsub hm)

theorem atHome_endOfMotd {home : Str} {s : Session} {m : BotMessage} (h : AtHome home s)
    (hs : s.outcome = none) (hretains : home ∈ s.bot.channels → Bridged s.bot.store home)
    (hm : m.command = .endOfMotd) :
    wp (handleIrcMessage m) (fun _ t => AtHome home ⟨t, none⟩ ∧ Exact t)
      (fun e t => AtHome home ⟨t, some e⟩) s.bot := by
  have hquiet : Moves Still (do
      modify fun b : Bot => { b with connected := true }
      clearLogBacklog) :=
    Steps.bind (steps_modify fun _ => ⟨rfl, rfl, rfl, rfl⟩) fun _ => still_clearLogBacklog
  unfold handleIrcMessage
  rw [hm]
  change wp (do
    modify fun b : Bot => { b with connected := true }
    clearLogBacklog
    ControlBot.processGroups) _ _ _
  rw [← bind_assoc, wp_bind]
  refine wp_mono (hquiet s.bot) (fun _ t ht => ?_) fun e t ht => atHome_of_still h hs ht.1
  refine atHome_regrouped (s := ⟨t, none⟩) (atHome_of_still h hs ht) rfl fun hmem => ?_
  rw [Bridged, ht.groups]
  exact hretains (ht.channels ▸ hmem)

theorem atHome_of_wp {home : Str} {s : Session} {p : BotM Unit}
    (h : wp p (fun _ t => AtHome home ⟨t, none⟩ ∧ Exact t)
      (fun e t => AtHome home ⟨t, some e⟩) s.bot) :
    AtHome home (perform s p) ∧ ((perform s p).outcome = none → Exact (perform s p).bot) := by
  unfold wp at h
  unfold perform
  rcases hp : exec p s.bot with ⟨e | _, t⟩
  · rw [hp] at h
    exact ⟨h, fun hnone => by cases hnone⟩
  · rw [hp] at h
    exact ⟨h.1, fun _ => h.2⟩

/-- What a step keeps, and what it restores if the bot goes through the groups. -/
theorem atHome_step {home : Str} {s : Session} {e : Event} (h : AtHome home s)
    (hs : s.outcome = none) (hretains : Retains s e) :
    AtHome home (step s e) ∧ (Regroups e → (step s e).outcome = none → Exact (step s e).bot) := by
  have hreason : Regroups e → home ∈ s.bot.channels → Bridged s.bot.store home := by
    intro he
    rw [← h.chan]
    exact hretains he
  by_cases he : Regroups e
  · rcases he with rfl | ⟨source, rfl⟩
    · have hstep := atHome_of_wp (atHome_regrouped h hs (hreason (.inl rfl)))
      exact ⟨hstep.1, fun _ => hstep.2⟩
    · have hstep := atHome_of_wp (atHome_endOfMotd (m := ⟨source, .endOfMotd⟩) h hs
        (hreason (.inr ⟨source, rfl⟩)) rfl)
      exact ⟨hstep.1, fun _ => hstep.2⟩
  · refine ⟨?_, fun h => absurd h he⟩
    cases e with
    | identify => exact atHome_perform h hs still_identify
    | drive driver =>
        apply atHome_perform h hs
        cases driver with
        | ok _ => exact steps_pure _
        | error e => exact steps_throw trivial
    | item i =>
        apply atHome_perform h hs
        cases i with
        | message m =>
            refine still_handleIrcMessage fun hm => he (.inr ⟨m.prefixStr, ?_⟩)
            rw [← hm]
        | stopped => exact steps_throw trivial
        | failed e => exact steps_throw trivial
    | command c =>
        refine atHome_perform h hs (still_handleIntRx fun hc => he (.inl ?_))
        rw [hc]
    | storeOp op =>
        exact ⟨h.chan, h.stays, fun _ => h.places hs⟩

/-- As long as its own channel is no group's, or does not cease to be one's between two
times that the bot goes through the groups, the bot stays in it, and each time it is
in the channels of the groups and in no others. -/
theorem atHome_of_run {b : Bot} (hsent : b.sent = []) (hchannels : b.channels = [])
    {es : List Event} {t : Session} (hes : AllSteps next Retains ⟨b, none⟩ es)
    (hrun : run next ⟨b, none⟩ es = some t) :
    b.chan ∈ places t.bot ∧ ∀ before e, es = before ++ [e] → Regroups e → t.outcome = none →
      Exact t.bot := by
  have hstep : ∀ s e u, Retains s e → AtHome b.chan s → next s e = some u → AtHome b.chan u ∧
      (Regroups e → u.outcome = none → Exact u.bot) := by
    intro s e u hretains hs hu
    unfold next at hu
    split at hu
    · rename_i hnone
      cases hu
      exact atHome_step hs hnone hretains
    · cases hu
  have hstart : AtHome b.chan ⟨b, none⟩ := by
    have hplaces : places b = [b.chan] := by rw [places, hsent]; rfl
    refine ⟨rfl, by rw [hplaces]; exact List.mem_cons_self, fun _ ch => ?_⟩
    rw [hplaces, hchannels, List.mem_singleton]
    exact (or_iff_left List.not_mem_nil).symm
  have hinv : ∀ {es u}, AllSteps next Retains ⟨b, none⟩ es → run next ⟨b, none⟩ es = some u →
      AtHome b.chan u := fun hes hu =>
    invariant_of_allSteps (fun s e u hC hs hu => (hstep s e u hC hs hu).1) hes hstart hu
  refine ⟨(hinv hes hrun).stays, ?_⟩
  rintro before e rfl he ht
  rw [run_append, Option.bind_eq_some_iff] at hrun
  obtain ⟨u, hu, hlast⟩ := hrun
  obtain ⟨hbefore, hretains, -⟩ := hes.append hu
  rw [run_cons, Option.bind_eq_some_iff] at hlast
  obtain ⟨v, hv, hend⟩ := hlast
  cases hend
  exact (hstep u e _ hretains (hinv hbefore hu) hv).2 he ht

theorem exec_privmsg_group {b : Bot} {source ch msg : Str}
    (hadmin : (splitOn '!' source).headD [] = b.admin) (hch : ch ∈ b.channels)
    (hchan : ch ≠ b.chan) :
    exec (handleIrcMessage ⟨some source, .privmsg ch msg⟩) b =
      (.ok (), { b with waTx := b.waTx ++ [.sendGroupMessage ch msg] }) := by
  change exec (ControlBot.handlePrivmsg _ ch msg) b = _
  rw [ControlBot.handlePrivmsg, exec_bind_ok (exec_get b), if_neg (not_not.mpr hadmin),
    if_neg hchan, if_pos hch]
  rfl

/-- The bot passes on what the admin writes to the channel of any group, whoever takes
part in it. -/
theorem groups_writable {b c : Bot} (h : exec ControlBot.processGroups b = (.ok (), c)) :
    (∀ ch, ch ∈ c.channels ↔ Bridged c.store ch) ∧
      ∀ source ch msg, Bridged c.store ch → (splitOn '!' source).headD [] = c.admin →
        ch ≠ c.chan → exec (handleIrcMessage ⟨some source, .privmsg ch msg⟩) c =
          (.ok (), { c with waTx := c.waTx ++ [.sendGroupMessage ch msg] }) := by
  obtain ⟨-, hgroups, hchannels, -⟩ := wp_of_ok h (wp_processGroups b)
  have hbridged : ∀ ch, ch ∈ c.channels ↔ Bridged c.store ch := by
    intro ch
    rw [hchannels, mem_groupChannels, Bridged, Bridged, hgroups]
  exact ⟨hbridged, fun _ ch _ hch hadmin hchan =>
    exec_privmsg_group hadmin ((hbridged ch).mpr hch) hchan⟩

end Bots

section Samples

attribute [local instance] Sample.crates

def sampleBot : Bot where
  sent := []
  refuses _ := none
  calls := 0
  stream := []
  chan := "#sms"
  admin := "admin"
  channels := []
  logBacklog := []
  store := Sample.store
  id := false
  connected := false
  webircPassword := none
  rx := []
  cfTx := []
  waTx := []
  mTx := []

/-- A group is bridged to a channel, and is not any more. -/
def visiting (ch : Str) : List Event :=
  [.storeOp (.group ⟨['g'], true⟩ ch [] [] ("topic" : Str)),
    .command .processGroups,
    .storeOp (.deleteGroup 1),
    .command .processGroups]

def visited : Session := (run next ⟨sampleBot, none⟩ (visiting ("#wa" : Str))).get
  (by decide +kernel)

theorem atHome_visited : sampleBot.chan ∈ places visited.bot ∧
    ∀ before e, visiting ("#wa" : Str) = before ++ [e] → Regroups e → visited.outcome = none →
      Exact visited.bot := by
  have hnever : AllSteps next (fun s _ => s.bot.chan ∉ s.bot.channels) ⟨sampleBot, none⟩
      (visiting ("#wa" : Str)) := by decide +kernel
  refine atHome_of_run rfl rfl ?_ (Option.some_get _).symm
  exact AllSteps.imp (I := fun _ => True) (fun _ _ _ _ _ _ => trivial)
    (fun s e hmem _ _ h => absurd h hmem) hnever trivial

/-- The same with its own channel, which the bot leaves with the group. -/
theorem leaves_home : ¬ ∀ (b : Bot) (es : List Event) (t : Session), b.sent = [] →
    b.channels = [] → run next ⟨b, none⟩ es = some t → b.chan ∈ places t.bot := by
  intro h
  have hleft : (run next ⟨sampleBot, none⟩ (visiting ("#sms" : Str))).map
      (fun t => decide (sampleBot.chan ∈ places t.bot)) = some false := by decide +kernel
  obtain ⟨t, ht, hfalse⟩ := Option.map_eq_some_iff.mp hleft
  exact of_decide_eq_false hfalse (h sampleBot _ t rfl rfl ht)

end Samples

end SmsIrc.BotChannels
