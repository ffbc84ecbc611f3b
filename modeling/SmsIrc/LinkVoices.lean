import Mathlib.Tactic.IntervalCases
import SmsIrc.LinkLedger

/-!
For which users a link speaks, along the lines it sends and the KILLs it processes.
-/

namespace SmsIrc.LinkVoices

open SmsIrc.Comm SmsIrc.Database SmsIrc.External SmsIrc.HashMaps SmsIrc.InspUsers
open SmsIrc.Link SmsIrc.LinkEffects SmsIrc.LinkEvents SmsIrc.LinkGhosts SmsIrc.LinkLedger
open SmsIrc.LinkRuns SmsIrc.Models SmsIrc.Program SmsIrc.Text SmsIrc.Transition SmsIrc.Util

/-- What a link does that matters for who is there: it sends a line, or processes a KILL. -/
inductive Item where
  | said (m : IrcMessage)
  | killed (uuid : Str)
deriving DecidableEq

/-- The line introduces a user. -/
def introduces (u : Str) (m : IrcMessage) : Prop :=
  wordOf m = ("UID" : Str) ∧ (argsOf m).head? = some u

/-- A user has been introduced. -/
def Introduced (u : Str) (tr : List Item) : Prop := ∃ m, .said m ∈ tr ∧ introduces u m

/-- A user has been killed, or has quit by a line of its own. -/
def Ended (u : Str) (tr : List Item) : Prop :=
  .killed u ∈ tr ∨ ∃ m, .said m ∈ tr ∧ wordOf m = ("QUIT" : Str) ∧ m.prefixStr = some u

/-- Every line of some users comes after the one that introduced its user, and after
nothing that ended it. -/
def LiveVoices (ours : Str → Prop) (tr : List Item) : Prop :=
  ∀ before m after u, tr = before ++ .said m :: after → m.prefixStr = some u → ours u →
    Introduced u before ∧ ¬ Ended u before

theorem Introduced.append {u : Str} {tr : List Item} (h : Introduced u tr) (rest : List Item) :
    Introduced u (tr ++ rest) := by
  obtain ⟨m, hm, hu⟩ := h
  exact ⟨m, List.mem_append_left _ hm, hu⟩

theorem ended_append {u : Str} {tr rest : List Item} :
    Ended u (tr ++ rest) ↔ Ended u tr ∨ Ended u rest := by
  constructor
  · rintro (h | ⟨m, hm, hquit⟩)
    · rcases List.mem_append.mp h with h | h
      · exact .inl (.inl h)
      · exact .inr (.inl h)
    · rcases List.mem_append.mp hm with hm | hm
      · exact .inl (.inr ⟨m, hm, hquit⟩)
      · exact .inr (.inr ⟨m, hm, hquit⟩)
  · rintro ((h | ⟨m, hm, hquit⟩) | (h | ⟨m, hm, hquit⟩))
    · exact .inl (List.mem_append_left _ h)
    · exact .inr ⟨m, List.mem_append_left _ hm, hquit⟩
    · exact .inl (List.mem_append_right _ h)
    · exact .inr ⟨m, List.mem_append_right _ hm, hquit⟩

theorem ended_said {u : Str} (ms : List IrcMessage) :
    Ended u (ms.map .said) ↔ ∃ m ∈ ms, wordOf m = ("QUIT" : Str) ∧ m.prefixStr = some u := by
  constructor
  · rintro (h | ⟨m, hm, hquit⟩)
    · obtain ⟨_, _, heq⟩ := List.mem_map.mp h
      cases heq
    · obtain ⟨m', hm', heq⟩ := List.mem_map.mp hm
      cases heq
      exact ⟨m, hm', hquit⟩
  · rintro ⟨m, hm, hquit⟩
    exact .inr ⟨m, List.mem_map_of_mem hm, hquit⟩

theorem split_concat {α : Type} {xs before after : List α} {x y : α}
    (h : xs ++ [x] = before ++ y :: after) :
    xs = before ∧ x = y ∨ ∃ rest, xs = before ++ y :: rest := by
  rcases List.eq_nil_or_concat after with rfl | ⟨rest, z, rfl⟩
  · obtain ⟨hxs, hx⟩ := List.append_inj' h rfl
    exact .inl ⟨hxs, List.head_eq_of_cons_eq hx⟩
  · rw [List.concat_eq_append, ← List.cons_append, ← List.append_assoc] at h
    exact .inr ⟨rest, (List.append_inj' h rfl).1⟩

theorem liveVoices_said {ours : Str → Prop} {tr : List Item} {m : IrcMessage}
    (h : LiveVoices ours tr)
    (hm : ∀ u, m.prefixStr = some u → ours u → Introduced u tr ∧ ¬ Ended u tr) :
    LiveVoices ours (tr ++ [.said m]) := by
  intro before m' after u heq hu hours
  rcases split_concat heq with ⟨rfl, hx⟩ | ⟨rest, htr⟩
  · cases hx
    exact hm u hu hours
  · exact h before m' rest u htr hu hours

theorem liveVoices_killed {ours : Str → Prop} {tr : List Item} (h : LiveVoices ours tr)
    (uuid : Str) : LiveVoices ours (tr ++ [.killed uuid]) := by
  intro before m' after u heq hu hours
  rcases split_concat heq with ⟨rfl, hx⟩ | ⟨rest, htr⟩
  · cases hx
  · exact h before m' rest u htr hu hours

theorem liveVoices_lines {ours : Str → Prop} {tr : List Item} {ms : List IrcMessage}
    (h : LiveVoices ours tr) (hquit : ∀ m ∈ ms, wordOf m ≠ ("QUIT" : Str))
    (hms : ∀ m ∈ ms, ∀ u, m.prefixStr = some u → ours u → Introduced u tr ∧ ¬ Ended u tr) :
    LiveVoices ours (tr ++ ms.map .said) := by
  induction ms using List.reverseRecOn with
  | nil => simpa using h
  | append_singleton ms m ih =>
      rw [List.map_append, ← List.append_assoc]
      have hbefore := ih (fun q hq => hquit q (by simp [hq])) fun q hq => hms q (by simp [hq])
      refine liveVoices_said hbefore fun u hu hours => ?_
      obtain ⟨hin, hout⟩ := hms m (by simp) u hu hours
      refine ⟨hin.append _, fun hend => ?_⟩
      rcases ended_append.mp hend with hend | hend
      · exact hout hend
      · obtain ⟨q, hq, hword, _⟩ := (ended_said _).mp hend
        exact hquit q (by simp [hq]) hword

section Voices

variable [Crates]

/-- What holds of a link and its past: its users have been introduced and have not ended,
and neither has a UUID that is still to be issued. -/
structure Alive (c : Prop) (tr : List Item) (l : InspLink) : Prop where
  ledger : Ledger l
  voices : LiveVoices (fun u => u ≠ l.cfg.sid) tr
  contacts : ∀ a ct, l.contacts.lookup a = some ct → Introduced ct.uuid tr ∧ ¬ Ended ct.uuid tr
  control : c → Introduced l.controlUuid tr
  state : l.state = .burstSent ∨ l.state = .linked → Introduced l.controlUuid tr
  controlStays : ¬ Ended l.controlUuid tr
  unissued : ∀ n, l.nextUserId ≤ n → n ≤ 99999 → ¬ Ended (uuidOf l.cfg.sid n) tr

theorem alive_lines {c : Prop} {tr : List Item} {s t : InspLink} (h : Alive c tr s)
    (ht : Ledger t) (ms : List IrcMessage) (hcfg : t.cfg = s.cfg)
    (hnext : s.nextUserId ≤ t.nextUserId)
    (hcontacts : ∀ a ct, t.contacts.lookup a = some ct →
      ∃ ct', s.contacts.lookup a = some ct' ∧ ct'.uuid = ct.uuid)
    (hstate : t.state = .burstSent ∨ t.state = .linked →
      Introduced s.controlUuid (tr ++ ms.map .said))
    (hquit : ∀ m ∈ ms, wordOf m ≠ ("QUIT" : Str))
    (hms : ∀ m ∈ ms, ∀ u, m.prefixStr = some u → u ≠ s.cfg.sid →
      Introduced u tr ∧ ¬ Ended u tr) : Alive c (tr ++ ms.map .said) t := by
  have hcontrol : t.controlUuid = s.controlUuid := by
    rw [ht.control, h.ledger.control, hcfg]
  have hends : ∀ u, ¬ Ended u tr → ¬ Ended u (tr ++ ms.map .said) := by
    intro u hu hend
    rcases ended_append.mp hend with hend | hend
    · exact hu hend
    · obtain ⟨q, hq, hword, _⟩ := (ended_said _).mp hend
      exact hquit q hq hword
  constructor
  · exact ht
  · rw [hcfg]
    exact liveVoices_lines h.voices hquit hms
  · intro a ct hct
    obtain ⟨ct', hct', huuid⟩ := hcontacts a ct hct
    obtain ⟨hin, hout⟩ := h.contacts a ct' hct'
    rw [← huuid]
    exact ⟨hin.append _, hends _ hout⟩
  · intro hc
    rw [hcontrol]
    exact (h.control hc).append _
  · rw [hcontrol]
    exact hstate
  · rw [hcontrol]
    exact hends _ h.controlStays
  · intro n hn hle
    rw [hcfg]
    exact hends _ (h.unissued n (hnext.trans hn) hle)

/-- The lines that a step sends leave everyone alive who speaks later. -/
def Goes (c : Prop) (tr : List Item) (s t : InspLink) : Prop :=
  ∃ ms, t.outbox = s.outbox ++ ms ∧ Alive c (tr ++ ms.map .said) t

theorem goes_silent {c : Prop} {tr : List Item} {s t : InspLink} (h : Alive c tr s)
    (ht : Ledger t) (hout : t.outbox = s.outbox) (hcfg : t.cfg = s.cfg)
    (hnext : t.nextUserId = s.nextUserId)
    (hcontacts : ∀ a ct, t.contacts.lookup a = some ct →
      ∃ ct', s.contacts.lookup a = some ct' ∧ ct'.uuid = ct.uuid)
    (hstate : t.state = .burstSent ∨ t.state = .linked → Introduced s.controlUuid tr) :
    Goes c tr s t := by
  refine ⟨[], by rw [hout, List.append_nil], ?_⟩
  exact alive_lines h ht [] hcfg hnext.ge hcontacts (fun hst => (hstate hst).append _) (by simp)
    (by simp)

theorem contact_of_insert {l : InspLink} {a : PduAddress} {ct ct' : InspContact}
    (hct : l.contacts.lookup a = some ct) (huuid : ct'.uuid = ct.uuid) (b : PduAddress)
    (ctb : InspContact) (hb : (l.contacts.insert a ct').lookup b = some ctb) :
    ∃ old, l.contacts.lookup b = some old ∧ old.uuid = ctb.uuid := by
  have heq := lookup_uuid_insert hct huuid b
  rw [hb] at heq
  exact Option.map_eq_some_iff.mp heq.symm

theorem alive_ghost {c : Prop} {tr : List Item} {s t : InspLink} (h : Alive c tr s)
    {a : PduAddress} {ct : InspContact} (hct : s.contacts.lookup a = some ct) (ht : Ledger t)
    (ms : List IrcMessage) (hcfg : t.cfg = s.cfg) (hnext : t.nextUserId = s.nextUserId)
    (hcontacts : ∀ a ct, t.contacts.lookup a = some ct →
      ∃ ct', s.contacts.lookup a = some ct' ∧ ct'.uuid = ct.uuid)
    (hstate : t.state = s.state)
    (hms : ∀ m ∈ ms, wordOf m ≠ ("QUIT" : Str) ∧ m.prefixStr = some ct.uuid) :
    Alive c (tr ++ ms.map .said) t := by
  refine alive_lines h ht ms hcfg hnext.ge hcontacts (fun hst => ?_) (fun m hm => (hms m hm).1) ?_
  · rw [hstate] at hst
    exact (h.state hst).append _
  · intro m hm u hu _
    rw [(hms m hm).2] at hu
    cases hu
    exact h.contacts a ct hct

theorem goes_said {c : Prop} {tr : List Item} {s : InspLink} (h : Alive c tr s)
    {m : IrcMessage} (hm : Line c False s m) : Goes c tr s (said s m) := by
  have ht : Ledger (said s m) :=
    ledger_of_eq h.ledger rfl rfl rfl rfl (fun _ => rfl) fun _ => rfl
  have hsame : ∀ a ct, (said s m).contacts.lookup a = some ct →
      ∃ ct', s.contacts.lookup a = some ct' ∧ ct'.uuid = ct.uuid :=
    fun a ct hct => ⟨ct, hct, rfl⟩
  refine ⟨[m], rfl, ?_⟩
  cases hm with
  | server hcmd =>
      refine alive_lines h ht [_] rfl le_rfl hsame (fun hst => (h.state hst).append _) ?_ ?_
      · intro m hm
        rw [List.mem_singleton.mp hm]
        exact hcmd.ne _ (by simp)
      · intro m hm u hu hne
        rw [List.mem_singleton.mp hm] at hu
        cases hu
        exact absurd rfl hne
  | ghost hct hcmd =>
      refine alive_ghost h hct ht [_] rfl rfl hsame rfl fun m hm => ?_
      rw [List.mem_singleton.mp hm]
      exact ⟨hcmd.ne _ (by simp), rfl⟩
  | control hc hcmd =>
      refine alive_lines h ht [_] rfl le_rfl hsame (fun hst => (h.state hst).append _) ?_ ?_
      · intro m hm
        rw [List.mem_singleton.mp hm]
        rcases hcmd with hcmd | rfl
        · exact hcmd.ne _ (by simp)
        · change ("JOIN" : Str) ≠ ("QUIT" : Str)
          decide
      · intro m hm u hu _
        rw [List.mem_singleton.mp hm] at hu
        cases hu
        exact ⟨h.control hc, h.controlStays⟩
  | raw hr => exact hr.elim

theorem goes_introduced {c : Prop} {tr : List Item} {s : InspLink} (h : Alive c tr s)
    {a : PduAddress} (nick : Str) (wa : Bool) (ha : s.contacts.lookup a = none)
    (hid : s.nextUserId ≤ 99999) : Goes c tr s (introduced s a nick wa) := by
  have hends : ∀ u m, ¬ Ended u tr → wordOf m = ("UID" : Str) → ¬ Ended u (tr ++ [.said m]) := by
    intro u m hu hword hend
    rcases ended_append.mp hend with hend | hend
    · exact hu hend
    · obtain ⟨q, hq, hquit, _⟩ := (ended_said [m]).mp hend
      rw [List.mem_singleton.mp hq, hword] at hquit
      exact absurd hquit (by decide)
  refine ⟨_, rfl, ledger_introduced h.ledger nick wa ha, ?_, ?_, ?_, ?_, ?_, ?_⟩
  · refine liveVoices_said h.voices fun u hu hne => ?_
    cases hu
    exact absurd rfl hne
  · intro b ct hct
    change (s.contacts.insert a _).lookup b = some ct at hct
    rw [lookup_insert] at hct
    split at hct
    · cases hct
      exact ⟨⟨_, List.mem_append_right _ (List.mem_singleton.mpr rfl), rfl, rfl⟩,
        hends _ _ (h.unissued _ le_rfl hid) rfl⟩
    · obtain ⟨hin, hout⟩ := h.contacts b ct hct
      exact ⟨hin.append _, hends _ _ hout rfl⟩
  · exact fun hc => (h.control hc).append _
  · exact fun hst => (h.state hst).append _
  · exact hends _ _ h.controlStays rfl
  · exact fun n hn hle => hends _ _ (h.unissued n (Nat.le_of_succ_le hn) hle) rfl

theorem goes_dropped {c : Prop} {tr : List Item} {s : InspLink} (h : Alive c tr s)
    (a : PduAddress) : Goes c tr s (dropped s a) := by
  have ht := ledger_dropped h.ledger a
  cases ha : s.contacts.lookup a with
  | none =>
      have hsame : quitted s a = s := by rw [quitted, ha]
      obtain ⟨st, hdropped⟩ : ∃ st, dropped s a = withoutContact s st a :=
        ⟨_, by rw [dropped, hsame]⟩
      rw [hdropped] at ht ⊢
      refine goes_silent h ht rfl rfl rfl (fun b ct hct => ?_) h.state
      rw [← hdropped] at hct
      exact ⟨ct, (h.ledger.dropped_contact.mp hct).1, rfl⟩
  | some ct =>
      have hquit : quitted s a = withoutUser (said s (quitLine ct.uuid)) ct.uuid := by
        rw [quitted, ha]
      obtain ⟨st, hdropped⟩ : ∃ st, dropped s a =
          withoutContact (withoutUser (said s (quitLine ct.uuid)) ct.uuid) st a :=
        ⟨_, by rw [dropped, hquit]⟩
      have hends : ∀ u, u ≠ ct.uuid → ¬ Ended u tr →
          ¬ Ended u (tr ++ [.said (quitLine ct.uuid)]) := by
        intro u hne hu hend
        rcases ended_append.mp hend with hend | hend
        · exact hu hend
        · obtain ⟨q, hq, _, hprefix⟩ := (ended_said [quitLine ct.uuid]).mp hend
          rw [List.mem_singleton.mp hq] at hprefix
          exact hne (Option.some.inj hprefix).symm
      refine ⟨[quitLine ct.uuid], by rw [hdropped]; rfl, ht, ?_, ?_, ?_, ?_, ?_, ?_⟩
      · rw [hdropped]
        refine liveVoices_said h.voices fun u hu hne => ?_
        cases hu
        exact h.contacts a ct ha
      · intro b ctb hb
        obtain ⟨hctb, hne⟩ := h.ledger.dropped_contact.mp hb
        obtain ⟨hin, hout⟩ := h.contacts b ctb hctb
        exact ⟨hin.append _, hends _
          (fun huuid => hne (h.ledger.uuid_injective hctb ha huuid)) hout⟩
      · rw [hdropped]
        exact fun hc => (h.control hc).append _
      · rw [hdropped]
        exact fun hst => (h.state hst).append _
      · rw [hdropped]
        exact hends _ (h.ledger.contact_ne_control ha).symm h.controlStays
      · rw [hdropped]
        intro n hn hle
        refine hends _ (fun heq => ?_) (h.unissued n hn hle)
        exact h.ledger.unissued hn (heq ▸ h.ledger.issued_of_contact a ct ha)

theorem goes_effect {c : Prop} {tr : List Item} {s t : InspLink} (h : Alive c tr s)
    (heff : Effect c False s t) : Goes c tr s t := by
  have ht := ledger_effect h.ledger heff
  cases heff with
  | apart ha =>
      refine goes_silent h ht ha.outbox ha.cfg ha.nextUserId (fun b ct hct => ⟨ct, ?_, rfl⟩)
        fun hst => ?_
      · rwa [ha.contacts] at hct
      · rw [ha.state] at hst
        exact h.state hst
  | said hm => exact goes_said h hm
  | collided ha =>
      exact goes_silent h ht rfl rfl rfl (fun _ ct hct => ⟨ct, hct, rfl⟩) h.state
  | introduced ha hid hfree hrow => exact goes_introduced h _ _ ha hid
  | regrouped hct hr hgrps =>
      refine ⟨_, List.append_assoc _ _ _, alive_ghost h hct ht _ rfl rfl
        (contact_of_insert hct rfl) rfl fun m hm => ?_⟩
      rcases List.mem_append.mp hm with hm | hm
      · obtain ⟨ch, _, rfl⟩ := List.mem_map.mp hm
        exact ⟨(by decide : ("JOIN" : Str) ≠ ("QUIT" : Str)), rfl⟩
      · obtain ⟨ch, _, rfl⟩ := List.mem_map.mp hm
        exact ⟨(by decide : ("PART" : Str) ≠ ("QUIT" : Str)), rfl⟩
  | moded hct =>
      refine ⟨_, rfl, alive_ghost h hct ht _ rfl rfl (contact_of_insert hct rfl) rfl
        fun m hm => ?_⟩
      rw [List.mem_singleton.mp hm]
      exact ⟨(by decide : ("FHOST" : Str) ≠ ("QUIT" : Str)), rfl⟩
  | marked hct hdown =>
      exact goes_silent h ht rfl rfl rfl (contact_of_insert hct rfl) h.state
  | renamed hct huser hfree =>
      refine ⟨_, rfl, alive_ghost h hct ht _ rfl rfl (fun _ ct hct => ⟨ct, hct, rfl⟩) rfl
        fun m hm => ?_⟩
      rw [List.mem_singleton.mp hm]
      exact ⟨(by decide : ("NICK" : Str) ≠ ("QUIT" : Str)), rfl⟩
  | announced hct huser hfree hdown =>
      refine ⟨_, rfl, alive_ghost h hct ht _ rfl rfl (fun _ ct hct => ⟨ct, hct, rfl⟩) rfl
        fun m hm => ?_⟩
      rw [List.mem_singleton.mp hm]
      exact ⟨(by decide : ("NICK" : Str) ≠ ("QUIT" : Str)), rfl⟩
  | dropped => exact goes_dropped h _

theorem goes_effects {c : Prop} {tr : List Item} {s t : InspLink} (h : Alive c tr s)
    (heff : Effects c False s t) : Goes c tr s t := by
  induction heff with
  | refl => exact ⟨[], by simp, by simpa using h⟩
  | tail _ hlast ih =>
      obtain ⟨ms, hout, halive⟩ := ih
      obtain ⟨ns, hout', halive'⟩ := goes_effect halive hlast
      exact ⟨ms ++ ns, by rw [hout', hout, List.append_assoc], by
        rwa [List.map_append, ← List.append_assoc]⟩

theorem Goes.trans {c : Prop} {tr : List Item} {s t u : InspLink} (hst : Goes c tr s t)
    (htu : ∀ tr', Alive c tr' t → Goes c tr' t u) : Goes c tr s u := by
  obtain ⟨ms, hout, halive⟩ := hst
  obtain ⟨ns, hout', halive'⟩ := htu _ halive
  refine ⟨ms ++ ns, by rw [hout', hout, List.append_assoc], ?_⟩
  rwa [List.map_append, ← List.append_assoc]

/-- The KILL lines among the events. -/
def kills : Event → List Item
  | .remote ⟨some _, .kill uuid _⟩ => [.killed uuid]
  | _ => []

theorem kills_eq_nil {e : Event}
    (he : ∀ source uuid reason, e ≠ .remote ⟨some source, .kill uuid reason⟩) : kills e = [] := by
  unfold kills
  split
  · exact absurd rfl (he _ _ _)
  · rfl

/-- What a run says and who is killed in it, in order. -/
def trace : Session → List Event → List Item
  | _, [] => []
  | s, e :: es =>
      match next s e with
      | none => []
      | some t =>
          kills e ++ (t.link.outbox.drop s.link.outbox.length).map .said ++ trace t es

/-- Neither the control user nor a UUID that is still to be issued is killed, and before
the burst nothing makes the control user speak. -/
def Considerate (l : InspLink) : Event → Prop
  | .remote ⟨some _, .kill uuid _⟩ => uuid ≠ l.controlUuid ∧
      ∀ n, l.nextUserId ≤ n → n ≤ 99999 → uuid ≠ uuidOf l.cfg.sid n
  | e => l.state = .serverSent → ¬ Voices l e

theorem alive_killed {c : Prop} {tr : List Item} {s : InspLink} (h : Alive c tr s) {uuid : Str}
    (hcontrol : uuid ≠ s.controlUuid)
    (hnext : ∀ n, s.nextUserId ≤ n → n ≤ 99999 → uuid ≠ uuidOf s.cfg.sid n) :
    Alive c (tr ++ [.killed uuid]) (withoutUser s uuid) := by
  have hends : ∀ u, uuid ≠ u → ¬ Ended u tr → ¬ Ended u (tr ++ [.killed uuid]) := by
    intro u hne hu hend
    rcases ended_append.mp hend with hend | (hend | ⟨q, hq, _⟩)
    · exact hu hend
    · cases List.mem_singleton.mp hend
      exact hne rfl
    · cases List.mem_singleton.mp hq
  refine ⟨ledger_withoutUser h.ledger uuid, liveVoices_killed h.voices uuid, ?_, ?_, ?_, ?_, ?_⟩
  · intro b ct hct
    obtain ⟨hct, hne⟩ := h.ledger.withoutUser_contact.mp hct
    obtain ⟨hin, hout⟩ := h.contacts b ct hct
    exact ⟨hin.append _, hends _ (Ne.symm hne) hout⟩
  · exact fun hc => (h.control hc).append _
  · exact fun hst => (h.state hst).append _
  · exact hends _ hcontrol h.controlStays
  · exact fun n hn hle => hends _ (hnext n hn hle) (h.unissued n hn hle)

theorem goes_burst {c : Prop} {tr : List Item} {s : InspLink} (h : Alive c tr s) (sid : Str) :
    Goes c tr s (burst s sid) := by
  refine ⟨burstLines s, rfl, alive_lines h ?_ _ rfl le_rfl (fun _ ct hct => ⟨ct, hct, rfl⟩)
    (fun _ => ?_) ?_ ?_⟩
  · exact ledger_of_eq h.ledger rfl rfl rfl rfl (fun _ => rfl) fun _ => rfl
  · exact ⟨_, List.mem_append_right _ (List.mem_map_of_mem (List.mem_cons_of_mem _
      List.mem_cons_self)), rfl, rfl⟩
  · intro m hm
    simp only [burstLines, List.mem_cons, List.not_mem_nil, or_false] at hm
    rcases hm with rfl | rfl | rfl
    · exact (by decide : ("BURST" : Str) ≠ ("QUIT" : Str))
    · exact (by decide : ("UID" : Str) ≠ ("QUIT" : Str))
    · exact (by decide : ("ENDBURST" : Str) ≠ ("QUIT" : Str))
  · intro m hm u hu hne
    simp only [burstLines, List.mem_cons, List.not_mem_nil, or_false] at hm
    rcases hm with rfl | rfl | rfl <;>
      exact absurd (Option.some.inj hu).symm hne

theorem goes_opening {c : Prop} {tr : List Item} {e : Event} {s t : InspLink}
    (h : Alive c tr s) (hc : Voices s e → c) (he : Considerate s e)
    (hopen : Opening c False e s t) : Goes c (tr ++ kills e) s t := by
  have ht := ledger_opening h.ledger hopen
  have hsame : ∀ {t : InspLink}, t.contacts = s.contacts → ∀ a ct, t.contacts.lookup a = some ct →
      ∃ ct', s.contacts.lookup a = some ct' ∧ ct'.uuid = ct.uuid :=
    fun heq a ct hct => ⟨ct, heq ▸ hct, rfl⟩
  cases hopen with
  | nothing hno =>
      rw [kills_eq_nil hno, List.append_nil]
      exact ⟨[], by simp, by simpa using h⟩
  | connected heff =>
      rw [show kills .connect = [] from rfl, List.append_nil]
      refine (goes_effects h heff).trans fun tr' h' => goes_silent h' ht rfl rfl rfl
        (fun _ ct hct => ⟨ct, hct, rfl⟩) fun hst => ?_
      rcases hst with hst | hst <;> cases hst
  | linked heff =>
      rw [kills_eq_nil (by simp), List.append_nil]
      refine (goes_effects h heff).trans fun tr' h' => goes_silent h' ht rfl rfl rfl
        (fun _ ct hct => ⟨ct, hct, rfl⟩) fun _ => h'.control (hc ⟨rfl, rfl⟩)
  | killed =>
      exact ⟨[], by simp [withoutUser], by simpa [kills] using alive_killed h he.1 he.2⟩
  | quit =>
      rw [kills_eq_nil (by simp), List.append_nil]
      exact goes_silent h ht rfl rfl rfl
        (fun b ct hct => ⟨ct, (h.ledger.withoutUser_contact.mp hct).1, rfl⟩) h.state
  | burst =>
      rw [kills_eq_nil (by simp), List.append_nil]
      exact goes_burst h _
  | user huid =>
      rw [kills_eq_nil (by simp), List.append_nil]
      exact goes_silent h ht rfl rfl rfl (hsame rfl) h.state
  | nick huser =>
      rw [kills_eq_nil (by simp), List.append_nil]
      exact goes_silent h ht rfl rfl rfl (hsame rfl) h.state
  | host huser =>
      rw [kills_eq_nil (by simp), List.append_nil]
      exact goes_silent h ht rfl rfl rfl (hsame rfl) h.state
  | squit =>
      rw [kills_eq_nil (by simp), List.append_nil]
      exact goes_silent h ht rfl rfl rfl (hsame rfl) h.state
  | stored =>
      rw [kills_eq_nil (by simp), List.append_nil]
      exact goes_silent h ht rfl rfl rfl (hsame rfl) h.state
  | clock =>
      rw [kills_eq_nil (by simp), List.append_nil]
      exact goes_silent h ht rfl rfl rfl (hsame rfl) h.state

/-- The burst has been sent. -/
def Sent (l : InspLink) : Prop := l.state = .burstSent ∨ l.state = .linked

theorem sent_of_voices {l : InspLink} {e : Event} (henabled : Enabled l e)
    (he : Considerate l e) (hv : Voices l e) : Sent l := by
  cases hstate : l.state with
  | burstSent => exact .inl hstate
  | linked => exact .inr hstate
  | tcpConnected =>
      cases e with
      | remote m => exact absurd hstate henabled
      | cb cmd =>
          have hlinked : l.state = .linked := henabled
          rw [hstate] at hlinked
          cases hlinked
      | _ => exact hv.elim
  | serverSent =>
      unfold Considerate at he
      split at he
      · exact hv.elim
      · exact absurd hv (he hstate)

theorem goes_next {tr : List Item} {e : Event} {s t : Session}
    (h : Alive (Sent s.link) tr s.link) (hraw : ¬ Raws s.link e) (he : Considerate s.link e)
    (ht : next s e = some t) : Goes (Sent s.link) (tr ++ kills e) s.link t.link := by
  have henabled := (happened_of_next (c := True) (r := True) (fun _ => trivial)
    (fun _ => trivial) ht).1
  obtain ⟨-, u, hopen, heff⟩ :=
    happened_of_next (r := False) (sent_of_voices henabled he) hraw ht
  exact (goes_opening h (sent_of_voices henabled he) he hopen).trans
    fun tr' h' => goes_effects h' heff

theorem alive_run {tr : List Item} {s t : Session} {es : List Event}
    (h : Alive (Sent s.link) tr s.link)
    (hes : AllSteps next (fun s e => ¬ Raws s.link e ∧ Considerate s.link e) s es)
    (hrun : run next s es = some t) : Alive (Sent t.link) (tr ++ trace s es) t.link := by
  induction es generalizing s tr with
  | nil =>
      cases hrun
      simpa [trace] using h
  | cons e es ih =>
      rw [run_cons, Option.bind_eq_some_iff] at hrun
      obtain ⟨u, hu, hrest⟩ := hrun
      obtain ⟨⟨hraw, he⟩, htail⟩ := hes
      obtain ⟨ms, hout, halive⟩ := goes_next h hraw he hu
      have hnew : u.link.outbox.drop s.link.outbox.length = ms := by
        rw [hout, List.drop_left]
      have hlater : Alive (Sent u.link) (tr ++ kills e ++ ms.map .said) u.link :=
        { halive with control := halive.state }
      have hall := ih hlater (htail u hu) hrest
      rw [trace, hu]
      dsimp only
      rw [hnew]
      simpa only [List.append_assoc] using hall

theorem alive_initial (cfg : InspConfig) (st : Store) (now : NaiveDateTime) :
    Alive (Sent (initial cfg st now).link) [] (initial cfg st now).link := by
  have hnone : ∀ u, ¬ Ended u [] := by
    rintro u (h | ⟨m, hm, _⟩)
    · cases h
    · cases hm
  have hsent : ¬ Sent (initial cfg st now).link := by
    rintro (h | h) <;> cases h
  refine ⟨ledger_initial cfg st now, ?_, ?_, fun h => absurd h hsent, fun h => absurd h hsent,
    hnone _, fun n _ _ => hnone _⟩
  · intro before m after u heq
    exact absurd heq (by simp)
  · intro a ct hct
    cases hct

/-- In every run without `INSP RAW` in which neither the control user nor a UUID that is
still to be issued is killed, and nothing makes the control user speak before the burst,
every line of a user of ours comes after its introduction and before its end. -/
theorem liveVoices_of_run {cfg : InspConfig} {st : Store} {now : NaiveDateTime}
    {es : List Event} {t : Session}
    (hes : AllSteps next (fun s e => ¬ Raws s.link e ∧ Considerate s.link e)
      (initial cfg st now) es) (hrun : run next (initial cfg st now) es = some t) :
    LiveVoices (IsOurs t.link) (trace (initial cfg st now) es) := by
  have h := alive_run (alive_initial cfg st now) hes hrun
  rw [List.nil_append] at h
  intro before m after u heq hu hours
  exact h.voices before m after u heq hu (h.ledger.sid_ne hours)

end Voices

section Samples

attribute [local instance] Sample.crates

/-- A ghost is killed by the other side, which has it come back; then its contact is
dropped. -/
def visiting : List Event :=
  .storeOp (.recipient Sample.alice ['a']) :: linking ++
    [.remote ⟨some ("00B" : Str), .kill ("00AZ00001" : Str) ("bye" : Str)⟩,
      .cf (.dropContact Sample.alice)]

theorem considerate_visiting :
    AllSteps next (fun s e => ¬ Raws s.link e ∧ Considerate s.link e) sampleStart visiting := by
  refine allSteps_of_take fun k e t he ht => ?_
  have hk : k < 7 := by
    obtain ⟨hk, -⟩ := List.getElem?_eq_some_iff.mp he
    exact hk
  have hfour : (run next sampleStart (visiting.take 4)).map (fun s => s.link.state) =
      some .burstSent := by decide +kernel
  have hfive : (run next sampleStart (visiting.take 5)).map (fun s =>
      (s.link.controlUuid, s.link.cfg.sid, s.link.nextUserId)) =
        some (("00AA00000" : Str), ("00A" : Str), 2) := by decide +kernel
  interval_cases k
  all_goals cases he
  · exact ⟨id, fun _ hv => hv⟩
  · exact ⟨id, fun _ hv => hv⟩
  · exact ⟨id, fun _ hv => hv⟩
  · exact ⟨id, fun _ hv => absurd hv.1 (by decide)⟩
  · rw [ht] at hfour
    have hsent : t.link.state = .burstSent := Option.some.inj hfour
    refine ⟨id, fun hserver => ?_⟩
    rw [hsent] at hserver
    cases hserver
  · -- the UUID that is killed is that of the first id
    have hone : ("00AZ00001" : Str) = uuidOf ("00A" : Str) 1 := by decide +kernel
    rw [ht] at hfive
    obtain ⟨hcontrol, hids⟩ := Prod.mk.inj (Option.some.inj hfive)
    obtain ⟨hsid, hnext⟩ := Prod.mk.inj hids
    refine ⟨id, ?_, fun n hn _ heq => ?_⟩
    · rw [hcontrol]
      decide
    · rw [hsid, hone] at heq
      rw [hnext, ← uuidOf_injective heq] at hn
      exact absurd hn (by decide)
  · exact ⟨id, fun _ hv => hv⟩

def visited : Session := (run next sampleStart visiting).get (by decide +kernel)

/-- How the ghost leaves in its second life. -/
def leaving : IrcMessage :=
  .new (some ("00AZ00002" : Str)) ("QUIT" : Str) [] (some ("Contact removed" : Str))

theorem liveVoices_visited : LiveVoices (IsOurs visited.link) (trace sampleStart visiting) ∧
    Ended ("00AZ00001" : Str) (trace sampleStart visiting) ∧
      Ended ("00AZ00002" : Str) (trace sampleStart visiting) := by
  have hkilled : .killed ("00AZ00001" : Str) ∈ trace sampleStart visiting := by decide +kernel
  have hsaid : .said leaving ∈ trace sampleStart visiting := by decide +kernel
  exact ⟨liveVoices_of_run considerate_visiting (Option.some_get _).symm, .inl hkilled,
    .inr ⟨leaving, hsaid, rfl, rfl⟩⟩

/-- The admin says something to the control user, which has been killed. -/
def haunting : List Event :=
  linking ++ [.remote ⟨some ("00B" : Str), .kill ("00AA00000" : Str) ("bye" : Str)⟩,
    .remote ⟨some ("00BAAAAAA" : Str), .privmsg ("00AA00000" : Str) ("hello" : Str)⟩]

def haunted : Session := (run next sampleStart haunting).get (by decide +kernel)

def lastWords : IrcMessage :=
  .new (some ("00AA00000" : Str)) ("NOTICE" : Str) [("00BAAAAAA" : Str)]
    (some ("Invalid command. Try \x02HELP\x0f for a command listing." : Str))

theorem killed_speaks : ¬ ∀ (cfg : InspConfig) (st : Database.Store) (now : NaiveDateTime)
    (es : List Event) (t : Session),
    AllSteps next (fun s e => ¬ Raws s.link e) (initial cfg st now) es →
      run next (initial cfg st now) es = some t →
        LiveVoices (IsOurs t.link) (trace (initial cfg st now) es) := by
  intro h
  have hraw : AllSteps next (fun s e => ¬ Raws s.link e) sampleStart haunting := by
    refine allSteps_of_forall_mem (fun e he s => ?_) _
    rw [haunting, linking] at he
    simp only [List.cons_append, List.nil_append, List.mem_cons, List.not_mem_nil, or_false] at he
    rcases he with rfl | rfl | rfl | rfl | rfl | rfl
    all_goals first | exact id | skip
    rintro ⟨_, _, line, hline⟩
    have hparse : Admin.AdminCommand.parse (splitOn ' ' ("hello" : Str)) = .ok none := by
      decide +kernel
    rw [hparse] at hline
    cases hline
  have hlive := h sampleConfig Sample.store 0 haunting haunted hraw (Option.some_get _).symm
  have hsplit : trace sampleStart haunting =
      (trace sampleStart haunting).take 18 ++ .said lastWords :: [] := by decide +kernel
  refine (hlive _ lastWords [] ("00AA00000" : Str) hsplit rfl (.inl ?_)).2 (.inl ?_)
  · decide +kernel
  · decide +kernel

end Samples

end SmsIrc.LinkVoices
