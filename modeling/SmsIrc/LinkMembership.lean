import SmsIrc.Attendance
import SmsIrc.LinkReturns

/-!
The channels that ghosts are in, for those who see the lines that are sent for them.
-/

namespace SmsIrc.LinkMembership

open SmsIrc.Attendance SmsIrc.Comm SmsIrc.Database SmsIrc.External SmsIrc.HashMaps
open SmsIrc.InspUsers SmsIrc.Link SmsIrc.LinkAgreement SmsIrc.LinkChannels
open SmsIrc.LinkEffects SmsIrc.LinkEvents
open SmsIrc.LinkGhosts SmsIrc.LinkLedger SmsIrc.LinkReturns SmsIrc.LinkRuns SmsIrc.Models
open SmsIrc.Program SmsIrc.SenderCommon SmsIrc.Text SmsIrc.Transition SmsIrc.Util

/-- Where a line makes a user go. -/
def moveOf (u : Str) (m : IrcMessage) : Option (Move Str) :=
  if m.prefixStr ≠ some u then none
  else if wordOf m = ("JOIN" : Str) then (argsOf m).head?.map .join
  else if wordOf m = ("PART" : Str) then (argsOf m).head?.map .part
  else if wordOf m = ("QUIT" : Str) then some .quit
  else none

/-- The channels that a user is in after some lines. -/
def placesOf (u : Str) (out : List IrcMessage) : List Str := replay [] (out.filterMap (moveOf u))

theorem moveOf_source {u : Str} {m : IrcMessage} {mv : Move Str} (h : moveOf u m = some mv) :
    m.prefixStr = some u := by
  unfold moveOf at h
  split at h
  · cases h
  · rename_i hu
    exact not_not.mp hu

theorem moveOf_of_source_ne {u : Str} {m : IrcMessage} (h : m.prefixStr ≠ some u) :
    moveOf u m = none := if_pos h

theorem moveOf_of_word {u : Str} {m : IrcMessage}
    (h : ∀ word ∈ ["JOIN", "PART", "QUIT"], wordOf m ≠ word.toList) : moveOf u m = none := by
  unfold moveOf
  rw [if_neg (h "JOIN" (by simp)), if_neg (h "PART" (by simp)), if_neg (h "QUIT" (by simp)),
    ite_self]

theorem placesOf_append {u : Str} {l ms : List IrcMessage} (h : ∀ m ∈ ms, moveOf u m = none) :
    placesOf u (l ++ ms) = placesOf u l := by
  have hnone : ms.filterMap (moveOf u) = [] := List.filterMap_eq_nil_iff.mpr h
  rw [placesOf, List.filterMap_append, hnone, List.append_nil, placesOf]

theorem moves_joinLines (u : Str) (chans : List Str) :
    (joinLines u chans).filterMap (moveOf u) = chans.map .join := by
  have hjoin : moveOf u ∘ (fun ch => IrcMessage.new (some u) ("JOIN" : Str) [ch] none) =
      some ∘ Move.join := by
    funext ch
    exact if_neg (not_not.mpr rfl)
  rw [joinLines, List.filterMap_map, hjoin, List.filterMap_eq_map]

theorem moves_partLines (u : Str) (chans : List Str) :
    (partLines u chans).filterMap (moveOf u) = chans.map .part := by
  have hpart : moveOf u ∘ (fun ch => IrcMessage.new (some u) ("PART" : Str) [ch]
      (some ("Left group" : Str))) = some ∘ Move.part := by
    funext ch
    exact (if_neg (not_not.mpr rfl)).trans (if_neg (by decide : ("PART" : Str) ≠ ("JOIN" : Str)))
  rw [partLines, List.filterMap_map, hpart, List.filterMap_eq_map]

section Membership

variable [Crates]

/-- What holds of a link that sends no lines as they are. -/
structure Attending (l : InspLink) : Prop where
  ledger : Ledger l
  sources : ∀ m ∈ l.outbox, ∀ u mv, moveOf u m = some mv → IsOurs l u
  places : ∀ a ct, l.contacts.lookup a = some ct →
    ∀ ch, ch ∈ placesOf ct.uuid l.outbox ↔ ch ∈ ct.channels

/-- A step in which those who move are ours, and every contact is as it was or has moved. -/
theorem Attending.trans {s t : InspLink} (h : Attending s) (ht : Ledger t)
    (hours : ∀ u, IsOurs s u → IsOurs t u) {ms : List IrcMessage}
    (hout : t.outbox = s.outbox ++ ms)
    (hsources : ∀ m ∈ ms, ∀ u mv, moveOf u m = some mv → IsOurs t u)
    (hcontacts : ∀ a ct, t.contacts.lookup a = some ct →
      (∃ ct', s.contacts.lookup a = some ct' ∧ ct.uuid = ct'.uuid ∧ ct.channels = ct'.channels ∧
        ∀ m ∈ ms, moveOf ct.uuid m = none) ∨
      ∀ ch, ch ∈ placesOf ct.uuid t.outbox ↔ ch ∈ ct.channels) : Attending t := by
  refine ⟨ht, fun m hm u mv hmove => ?_, fun a ct hct => ?_⟩
  · rw [hout] at hm
    rcases List.mem_append.mp hm with hm | hm
    · exact hours u (h.sources m hm u mv hmove)
    · exact hsources m hm u mv hmove
  · rcases hcontacts a ct hct with ⟨ct', hct', huuid, hchans, hnone⟩ | hnew
    · intro ch
      rw [hout, placesOf_append hnone, huuid, hchans]
      exact h.places a ct' hct' ch
    · exact hnew

/-- A step without such lines that leaves the contacts and their channels alone. -/
theorem attending_of_same {s t : InspLink} (h : Attending s) (ht : Ledger t)
    (hcontrol : t.controlUuid = s.controlUuid) (hissued : t.issued = s.issued)
    {ms : List IrcMessage} (hout : t.outbox = s.outbox ++ ms)
    (hmoves : ∀ m ∈ ms, ∀ u, u ≠ s.controlUuid → moveOf u m = none)
    (hcontacts : ∀ a ct, t.contacts.lookup a = some ct →
      ∃ ct', s.contacts.lookup a = some ct' ∧ ct.uuid = ct'.uuid ∧ ct.channels = ct'.channels) :
    Attending t := by
  refine h.trans ht (fun u hu => by rwa [IsOurs, hcontrol, hissued]) hout ?_ fun a ct hct => ?_
  · intro m hm u mv hmove
    refine .inl (not_not.mp fun hu => ?_)
    rw [hmoves m hm u (hcontrol ▸ hu)] at hmove
    cases hmove
  · obtain ⟨ct', hct', huuid, hchans⟩ := hcontacts a ct hct
    refine .inl ⟨ct', hct', huuid, hchans, fun m hm => hmoves m hm _ ?_⟩
    rw [huuid]
    exact h.ledger.contact_ne_control hct'

theorem line_moves {c : Prop} {l : InspLink} {m : IrcMessage} (h : Line c False l m) {u : Str}
    (hu : u ≠ l.controlUuid) : moveOf u m = none := by
  have hplain : ∀ {cmd : String}, Plain cmd → wordOf m = cmd.toList → moveOf u m = none := by
    intro cmd hcmd hword
    refine moveOf_of_word fun word hmem => ?_
    rw [hword]
    apply hcmd.ne word
    simp only [List.mem_cons, List.not_mem_nil, or_false] at hmem
    rcases hmem with rfl | rfl | rfl <;> simp
  cases h with
  | server hcmd => exact hplain hcmd rfl
  | ghost hct hcmd => exact hplain hcmd rfl
  | control hc hcmd => exact moveOf_of_source_ne fun heq => hu (Option.some.inj heq).symm
  | raw hr => exact hr.elim

theorem attending_introduced {s : InspLink} (h : Attending s) {a : PduAddress} {nick : Str}
    {wa : Bool} (ha : s.contacts.lookup a = none) : Attending (introduced s a nick wa) := by
  have hword : ∀ u, moveOf u (uidLine s.cfg.sid (uuidOf s.cfg.sid s.nextUserId)
      (newFromRecipient s.now a nick (hostForWa s wa))) = none := by
    refine fun u => moveOf_of_word ?_
    change ∀ word ∈ ["JOIN", "PART", "QUIT"], ("UID" : Str) ≠ word.toList
    decide
  refine h.trans (ledger_introduced h.ledger nick wa ha) ?_ rfl ?_ fun b ct hct => ?_
  · exact fun u hu => hu.imp_right (List.mem_append_left _)
  · intro m hm u mv hmove
    rw [List.mem_singleton.mp hm, hword] at hmove
    cases hmove
  · change (s.contacts.insert a _).lookup b = _ at hct
    rw [lookup_insert] at hct
    split at hct
    · cases hct
      refine .inr fun ch => ?_
      -- nobody has been anywhere under a UUID that has not been issued
      have hnew : ∀ m ∈ s.outbox, moveOf (uuidOf s.cfg.sid s.nextUserId) m = none := by
        intro m hm
        refine Option.eq_none_iff_forall_ne_some.mpr fun mv hmove => ?_
        rcases h.sources m hm _ mv hmove with hcontrol | hissued
        · exact h.ledger.control_ne_uuidOf _ hcontrol
        · exact h.ledger.unissued le_rfl hissued
      have hplaces : placesOf (uuidOf s.cfg.sid s.nextUserId)
          (introduced s a nick wa).outbox = [] := by
        apply (placesOf_append fun m hm => List.mem_singleton.mp hm ▸ hword _).trans
        exact placesOf_append (l := []) hnew
      rw [hplaces]
    · exact .inl ⟨ct, hct, rfl, rfl, fun m hm => List.mem_singleton.mp hm ▸ hword _⟩

theorem places_regrouped {s : InspLink} (h : Attending s) {a : PduAddress} {ct : InspContact}
    (chans : List Str) (hct : s.contacts.lookup a = some ct) (ch : Str) :
    ch ∈ placesOf ct.uuid (regrouped s a ct chans).outbox ↔ ch ∈ withLog s.cfg.logChan chans := by
  have hmoves : (regrouped s a ct chans).outbox.filterMap (moveOf ct.uuid) =
      s.outbox.filterMap (moveOf ct.uuid) ++ ((withLog s.cfg.logChan chans).map .join ++
        (ct.channels.filter fun ch => ch ∉ withLog s.cfg.logChan chans).map .part) := by
    rw [regrouped, List.filterMap_append, List.filterMap_append, moves_joinLines,
      moves_partLines, List.append_assoc]
  rw [placesOf, hmoves, replay_append, mem_replay_exchange decide_eq_true_iff]
  refine or_iff_left fun hch => hch.2 ?_
  exact (h.places a ct hct ch).mp hch.1

theorem attending_regrouped {s : InspLink} (h : Attending s) {a : PduAddress} {ct : InspContact}
    (chans : List Str) (hct : s.contacts.lookup a = some ct) :
    Attending (regrouped s a ct chans) := by
  have hledger : Ledger (regrouped s a ct chans) :=
    ledger_of_eq h.ledger rfl rfl rfl rfl (lookup_uuid_insert hct rfl) fun _ => rfl
  have hsource : ∀ m ∈ joinLines ct.uuid (withLog s.cfg.logChan chans) ++
      partLines ct.uuid (ct.channels.filter fun ch => ch ∉ withLog s.cfg.logChan chans),
        m.prefixStr = some ct.uuid := by
    intro m hm
    rcases List.mem_append.mp hm with hm | hm <;> obtain ⟨ch, -, rfl⟩ := List.mem_map.mp hm <;>
      rfl
  refine h.trans hledger (fun u hu => hu) (List.append_assoc ..) ?_ fun b ct' hct' => ?_
  · intro m hm u mv hmove
    have heq := (moveOf_source hmove).symm.trans (hsource m hm)
    cases heq
    exact h.ledger.isOurs_of_contact hct
  · change (s.contacts.insert a _).lookup b = _ at hct'
    rw [lookup_insert] at hct'
    split at hct'
    · cases hct'
      exact .inr (places_regrouped h chans hct)
    · rename_i hb
      refine .inl ⟨ct', hct', rfl, rfl, fun m hm => moveOf_of_source_ne fun heq => hb ?_⟩
      rw [hsource m hm] at heq
      exact h.ledger.uuid_injective hct' hct (Option.some.inj heq).symm

theorem attending_dropped {s : InspLink} (h : Attending s) (a : PduAddress) :
    Attending (dropped s a) := by
  obtain ⟨-, hcontrol, hissued⟩ := quitted_eq s a
  obtain ⟨ms, hms, hquit⟩ := quitted_outbox s a
  have hours : ∀ u, IsOurs s u → IsOurs (dropped s a) u := by
    intro u hu
    change u = (quitted s a).controlUuid ∨ u ∈ (quitted s a).issued
    rwa [hcontrol, hissued]
  refine h.trans (ledger_dropped h.ledger a) hours hms ?_ fun b ct hct => .inl ?_
  · intro m hm u mv hmove
    obtain ⟨ct, hct, rfl⟩ := hquit m hm
    cases moveOf_source hmove
    exact hours _ (h.ledger.isOurs_of_contact hct)
  · obtain ⟨hold, hb⟩ := h.ledger.dropped_contact.mp hct
    refine ⟨ct, hold, rfl, rfl, fun m hm => moveOf_of_source_ne fun heq => hb ?_⟩
    obtain ⟨ct', hct', rfl⟩ := hquit m hm
    exact h.ledger.uuid_injective hold hct' (Option.some.inj heq).symm

theorem attending_ghostLine {s t : InspLink} (h : Attending s) (ht : Ledger t)
    (hcontrol : t.controlUuid = s.controlUuid) (hissued : t.issued = s.issued) {u : Str}
    (cmd : String) {args : List Str}
    (hcmd : ∀ word ∈ ["JOIN", "PART", "QUIT"], cmd.toList ≠ word.toList)
    (hout : t.outbox = s.outbox ++ [.new (some u) cmd.toList args none])
    (hcontacts : ∀ a ct, t.contacts.lookup a = some ct →
      ∃ ct', s.contacts.lookup a = some ct' ∧ ct.uuid = ct'.uuid ∧ ct.channels = ct'.channels) :
    Attending t := by
  refine attending_of_same h ht hcontrol hissued hout (fun m hm v _ => ?_) hcontacts
  rw [List.mem_singleton.mp hm]
  exact moveOf_of_word hcmd

theorem contact_of_mode {s : InspLink} {a b : PduAddress} {ct ct' : InspContact} {wa : Bool}
    (hct : s.contacts.lookup a = some ct)
    (h : (s.contacts.insert a { ct with waMode := wa }).lookup b = some ct') :
    ∃ ct'', s.contacts.lookup b = some ct'' ∧ ct'.uuid = ct''.uuid ∧
      ct'.channels = ct''.channels := by
  rw [lookup_insert] at h
  split at h
  · rename_i hb
    cases h
    exact ⟨ct, hb ▸ hct, rfl, rfl⟩
  · exact ⟨ct', h, rfl, rfl⟩

theorem attending_effect {c : Prop} {s t : InspLink} (h : Attending s)
    (heff : Effect c False s t) : Attending t := by
  have ht := ledger_effect h.ledger heff
  have hsame : ∀ a ct, s.contacts.lookup a = some ct →
      ∃ ct', s.contacts.lookup a = some ct' ∧ ct.uuid = ct'.uuid ∧ ct.channels = ct'.channels :=
    fun a ct hct => ⟨ct, hct, rfl, rfl⟩
  cases heff with
  | apart ha =>
      have hout : t.outbox = s.outbox ++ [] := by rw [ha.outbox, List.append_nil]
      refine attending_of_same h ht ha.controlUuid ha.issued hout (fun m hm => by cases hm)
        fun a ct hct => ?_
      rw [ha.contacts] at hct
      exact hsame a ct hct
  | said hm =>
      refine attending_of_same h ht rfl rfl rfl (fun m hmem u hu => ?_) hsame
      rw [List.mem_singleton.mp hmem]
      exact line_moves hm hu
  | collided ha =>
      exact attending_of_same h ht rfl rfl (List.append_nil _).symm (fun m hm => by cases hm) hsame
  | introduced ha hid hfree hrow => exact attending_introduced h ha
  | regrouped hct hr hgrps => exact attending_regrouped h _ hct
  | moded hct =>
      exact attending_ghostLine h ht rfl rfl "FHOST" (by decide) rfl fun b ct' hct' =>
        contact_of_mode hct hct'
  | marked hct hdown =>
      exact attending_of_same h ht rfl rfl (List.append_nil _).symm (fun m hm => by cases hm)
        fun b ct' hct' => contact_of_mode hct hct'
  | renamed hct huser hfree =>
      exact attending_ghostLine h ht rfl rfl "NICK" (by decide) rfl hsame
  | announced hct huser hfree hdown =>
      exact attending_ghostLine h ht rfl rfl "NICK" (by decide) rfl hsame
  | dropped => exact attending_dropped h _

theorem attending_effects {c : Prop} {s t : InspLink} (h : Attending s)
    (heff : Effects c False s t) : Attending t :=
  heff.invariant (fun _ _ hs he => attending_effect hs he) h

theorem attending_withoutUser {s : InspLink} (h : Attending s) (uuid : Str) :
    Attending (withoutUser s uuid) :=
  attending_of_same h (ledger_withoutUser h.ledger uuid) rfl rfl (List.append_nil _).symm
    (fun m hm => by cases hm)
    fun _ ct hct => ⟨ct, (h.ledger.withoutUser_contact.mp hct).1, rfl, rfl⟩

theorem attending_opening {c : Prop} {e : Event} {s t : InspLink} (h : Attending s)
    (hopen : Opening c False e s t) : Attending t := by
  have ht := ledger_opening h.ledger hopen
  have hsame : ∀ {u : InspLink}, Attending u → t.controlUuid = u.controlUuid →
      t.issued = u.issued → t.outbox = u.outbox → t.contacts = u.contacts → Attending t := by
    intro u hu hcontrol hissued hout hcontacts
    have hsent : t.outbox = u.outbox ++ [] := by rw [hout, List.append_nil]
    refine attending_of_same hu ht hcontrol hissued hsent (fun m hm => by cases hm)
      fun a ct hct => ?_
    exact ⟨ct, hcontacts ▸ hct, rfl, rfl⟩
  cases hopen with
  | nothing hno => exact h
  | connected heff => exact hsame (attending_effects h heff) rfl rfl rfl rfl
  | linked heff => exact hsame (attending_effects h heff) rfl rfl rfl rfl
  | killed => exact attending_withoutUser h _
  | quit => exact attending_withoutUser h _
  | burst =>
      refine attending_of_same h ht rfl rfl rfl (fun m hm u _ => moveOf_of_word ?_)
        fun a ct hct => ⟨ct, hct, rfl, rfl⟩
      simp only [burstLines, List.mem_cons, List.not_mem_nil, or_false] at hm
      rcases hm with rfl | rfl | rfl
      · exact (by decide : ∀ word ∈ ["JOIN", "PART", "QUIT"], ("BURST" : Str) ≠ word.toList)
      · exact (by decide : ∀ word ∈ ["JOIN", "PART", "QUIT"], ("UID" : Str) ≠ word.toList)
      · exact (by decide : ∀ word ∈ ["JOIN", "PART", "QUIT"], ("ENDBURST" : Str) ≠ word.toList)
  | _ => exact hsame h rfl rfl rfl rfl

theorem attending_happened {c : Prop} {e : Event} {s t : InspLink} (h : Attending s)
    (ht : Happened c False e s t) : Attending t := by
  obtain ⟨u, hopen, heff⟩ := ht
  exact attending_effects (attending_opening h hopen) heff

theorem attending_next {s t : Session} {e : Event} (h : Attending s.link) (he : ¬ Raws s.link e)
    (ht : next s e = some t) : Attending t.link :=
  attending_happened h
    (happened_of_next (c := True) (r := False) (fun _ => trivial) he ht).2

/-- A ghost is in the channels that its contact has down. -/
def Recorded (l : InspLink) (ct : InspContact) : Prop :=
  ∀ ch, ch ∈ placesOf ct.uuid l.outbox ↔ ch ∈ ct.channels

/-- These are those of the groups of its recipient, and the log channel. -/
def UpToDate (l : InspLink) (a : PduAddress) (ct : InspContact) : Prop :=
  ∀ ch, ch ∈ ct.channels ↔ ch = l.cfg.logChan ∨ BridgedFor l.store a ch

theorem upToDate_of_processed {l t : InspLink} (h : Attending l) {a : PduAddress}
    (ht : exec (processGroupsForRecipient a) l = (.ok (), t)) :
    ∃ ct, t.contacts.lookup a = some ct ∧ Recorded t ct ∧ UpToDate t a ct := by
  have hspec := wp_processGroupsForRecipient_regrouped a l
  rw [wp, ht] at hspec
  obtain ⟨ct, row, hct, hfind, chs, grps, hgrps, rfl⟩ := hspec
  have hregrouped := attending_regrouped h (grps.map Group.channel) hct
  have hnew : (regrouped l a ct (grps.map Group.channel)).contacts.lookup a =
      some { ct with channels := withLog l.cfg.logChan (grps.map Group.channel) } :=
    AList.lookup_insert _
  refine ⟨_, hnew, hregrouped.places a _ hnew, fun ch => ?_⟩
  exact mem_withLog.trans (or_congr_right (bridgedFor_iff hfind hgrps))

/-- A step in which nobody's groups or channels change. -/
structure Unmoved (s t : InspLink) : Prop where
  contacts : t.contacts = s.contacts
  cfg : t.cfg = s.cfg
  recipients : t.store.recipients = s.store.recipients
  groups : t.store.groups = s.store.groups

instance : IsPreorder InspLink Unmoved where
  refl _ := ⟨rfl, rfl, rfl, rfl⟩
  trans _ _ _ hst htu := ⟨htu.contacts.trans hst.contacts, htu.cfg.trans hst.cfg,
    htu.recipients.trans hst.recipients, htu.groups.trans hst.groups⟩

theorem unmoved_query {α : Type} (f : Store → α) : Moves Unmoved (store (query f) : LinkM α) := by
  intro l
  rw [wp_store]
  exact wp_query_of ⟨⟨rfl, rfl, rfl, rfl⟩, trivial⟩ ⟨rfl, rfl, rfl, rfl⟩

theorem unmoved_push (u : Str) (cmd : String) (args : List Str) (suffix : Option Str) :
    Moves Unmoved (push u cmd args suffix) := steps_modify fun _ => ⟨rfl, rfl, rfl, rfl⟩

theorem unmoved_processGroup (grp : Group) : Moves Unmoved (processGroup grp) := by
  refine Steps.bind (Steps.forM fun part _ => Steps.bind (unmoved_query _) fun row => ?_)
    fun _ => ?_
  · cases row with
    | none => exact steps_pure _
    | some recip =>
        refine Steps.bind ?_ fun num => steps_get_bind fun l => ?_
        · exact steps_getAddr (fun _ => trivial) _
        · cases l.contacts.lookup num with
          | none => exact refl l
          | some ct => exact unmoved_push _ _ _ _ l
  · refine Steps.bind steps_get fun l => Steps.when (Steps.bind steps_get fun l' => ?_)
    dsimp only
    split
    · exact Steps.bind (unmoved_push _ _ _ _) fun _ => steps_modify fun _ => ⟨rfl, rfl, rfl, rfl⟩
    · exact steps_modify fun _ => ⟨rfl, rfl, rfl, rfl⟩

theorem upToDate_congr {s t : InspLink} (hcfg : t.cfg = s.cfg)
    (hrec : t.store.recipients = s.store.recipients) (hgroups : t.store.groups = s.store.groups)
    (a : PduAddress) (ct : InspContact) : UpToDate t a ct ↔ UpToDate s a ct := by
  unfold UpToDate BridgedFor
  rw [hcfg, hrec, hgroups]

/-- The channels of a contact are brought up to date, and those of others stay so. -/
theorem wp_processGroupsForRecipient_upToDate (a : PduAddress) {done : List PduAddress}
    {l : InspLink}
    (hdone : ∀ b ∈ done, ∀ ct, l.contacts.lookup b = some ct → UpToDate l b ct) :
    wp (processGroupsForRecipient a)
      (fun _ t => (∀ b, (t.contacts.lookup b).isSome = (l.contacts.lookup b).isSome) ∧
        ∀ b ∈ done ++ [a], ∀ ct, t.contacts.lookup b = some ct → UpToDate t b ct)
      (fun _ _ => True) l := by
  refine wp_mono (wp_processGroupsForRecipient_regrouped a l) ?_ fun _ _ _ => trivial
  rintro _ _ ⟨ct, row, hct, hfind, chs, grps, hgrps, rfl⟩
  have hcontacts : ∀ b, (regrouped l a ct (grps.map Group.channel)).contacts.lookup b =
      if b = a then some { ct with channels := withLog l.cfg.logChan (grps.map Group.channel) }
      else l.contacts.lookup b := fun b => lookup_insert l.contacts a b _
  refine ⟨fun b => ?_, fun b hb ct' hct' => ?_⟩
  · rw [hcontacts]
    split
    · rename_i hb
      rw [hb, hct]
      rfl
    · rfl
  · rw [hcontacts] at hct'
    split at hct'
    · rename_i heq
      subst heq
      cases hct'
      exact fun ch => mem_withLog.trans (or_congr_right (bridgedFor_iff hfind hgrps))
    · rename_i hne
      have hmem := (List.mem_append.mp hb).resolve_right fun h => hne (List.mem_singleton.mp h)
      exact hdone b hmem ct' hct'

theorem wp_processGroups_upToDate (l : InspLink) :
    wp processGroups (fun _ t => ∀ a ct, t.contacts.lookup a = some ct → UpToDate t a ct)
      (fun _ _ => True) l := by
  rw [processGroups, wp_bind, wp_modify, wp_bind, wp_get, wp_bind]
  have hloop : wp (forM (Crates.hashOrder.run l.contacts.keys) processGroupsForRecipient)
      (fun _ t => (∀ b, (t.contacts.lookup b).isSome = (l.contacts.lookup b).isSome) ∧
        ∀ b ∈ Crates.hashOrder.run l.contacts.keys, ∀ ct, t.contacts.lookup b = some ct →
          UpToDate t b ct) (fun _ _ => True) { l with channels := [] } := by
    refine wp_forM_prefix
      (fun done t => (∀ b, (t.contacts.lookup b).isSome = (l.contacts.lookup b).isSome) ∧
        ∀ b ∈ done, ∀ ct, t.contacts.lookup b = some ct → UpToDate t b ct) ?_ ?_
    · rintro done a rest - t ⟨hsame, hdone⟩
      refine wp_mono (wp_processGroupsForRecipient_upToDate a hdone) ?_ fun _ _ he => he
      exact fun _ u hu => ⟨fun b => (hu.1 b).trans (hsame b), hu.2⟩
    · exact ⟨fun _ => rfl, fun b hb => by cases hb⟩
  refine wp_mono hloop ?_ fun _ _ he => he
  rintro _ t ⟨hsame, hdone⟩
  have hrest : Moves Unmoved (do
      let grps ← store getAllGroups
      forM grps processGroup : LinkM Unit) :=
    Steps.bind (unmoved_query _) fun grps => Steps.forM fun grp _ => unmoved_processGroup grp
  refine wp_mono (hrest t) (fun _ u hu a ct hct => ?_) fun _ _ _ => trivial
  rw [hu.contacts] at hct
  refine (upToDate_congr hu.cfg hu.recipients hu.groups a ct).mpr (hdone a ?_ ct hct)
  refine mem_keys_iff.mpr (Option.isSome_iff_exists.mp ?_)
  rw [← hsame, hct]
  rfl

/-- In every run without lines that are sent as they are, ghosts are in the channels that
their contacts have down. Whenever an event has the channels of one brought up to date,
these are those of its groups and the log channel, and all are after a command to do so. -/
theorem members_of_run {cfg : InspConfig} {st : Store} {now : NaiveDateTime} {es : List Event}
    {s : Session} (hes : AllSteps next (fun s e => ¬ Raws s.link e) (initial cfg st now) es)
    (hrun : run next (initial cfg st now) es = some s) :
    (∀ a ct, s.link.contacts.lookup a = some ct → Recorded s.link ct) ∧
      (∀ e l, ¬ Raws s.link e → Happened True False e s.link l → ∀ a t,
        exec (processGroupsForRecipient a) l = (.ok (), t) →
          ∃ ct, t.contacts.lookup a = some ct ∧ Recorded t ct ∧ UpToDate t a ct) ∧
      ∀ e t, e = .cf .processGroups ∨ e = .cb .processGroups → next s e = some t →
        t.outcome = none → ∀ a ct, t.link.contacts.lookup a = some ct →
          Recorded t.link ct ∧ UpToDate t.link a ct := by
  have hstart : Attending (initial cfg st now).link :=
    ⟨ledger_initial cfg st now, fun m hm => (by cases hm), fun a ct hct => (by cases hct)⟩
  have h := invariant_of_allSteps (I := fun s => Attending s.link)
    (fun _ _ _ he hs ht => attending_next hs he ht) hes hstart hrun
  refine ⟨h.places, fun e l he hl a t ht => ?_, fun e t he ht hout a ct hct => ⟨?_, ?_⟩⟩
  · exact upToDate_of_processed (attending_happened h hl) ht
  · refine (attending_next h ?_ ht).places a ct hct
    rcases he with rfl | rfl <;> exact id
  · obtain rfl : t = perform s processGroups := by
      unfold next at ht
      split at ht
      swap
      · cases ht
      rcases he with rfl | rfl
      all_goals
        simp only [step] at ht
        split at ht
        · exact (Option.some.inj ht).symm
        · cases ht
    exact wp_of_ok (exec_of_perform hout) (wp_processGroups_upToDate s.link) a ct hct

end Membership

section Samples

attribute [local instance] Sample.crates

/-- A ghost is put into a group, which is bridged to another channel then. -/
def rebridging : List Event :=
  befriending ++ [.storeOp (.group ⟨['g'], true⟩ ("#a" : Str) [1] [] []), .cf .processGroups,
    .storeOp (.deleteGroup 1), .storeOp (.group ⟨['g'], true⟩ ("#b" : Str) [1] [] [])]

def rebridged : Session := (run next sampleStart rebridging).get (by decide +kernel)

def regroupedSession : Session :=
  (next rebridged (.cf .processGroups)).get (by decide +kernel)

example : placesOf ("00AZ00001" : Str) regroupedSession.link.outbox =
    [("#sms" : Str), ("#b" : Str)] := by decide +kernel

theorem members_rebridged : (regroupedSession.link.contacts.lookup Sample.alice).isSome = true ∧
    ∀ a ct, regroupedSession.link.contacts.lookup a = some ct →
      Recorded regroupedSession.link ct ∧ UpToDate regroupedSession.link a ct := by
  have hrun : run next sampleStart rebridging = some rebridged := (Option.some_get _).symm
  have hraw : ∀ e ∈ rebridging, ∀ s : Session, ¬ Raws s.link e := by
    intro e he s
    simp only [rebridging, befriending, linking, List.cons_append, List.nil_append,
      List.mem_cons, List.not_mem_nil, or_false] at he
    rcases he with rfl | rfl | rfl | rfl | rfl | rfl | rfl | rfl | rfl <;> exact id
  obtain ⟨-, -, hgroups⟩ := members_of_run (allSteps_of_forall_mem hraw _) hrun
  exact ⟨by decide +kernel, hgroups _ _ (.inl rfl) (Option.some_get _).symm (by decide +kernel)⟩

end Samples

end SmsIrc.LinkMembership
