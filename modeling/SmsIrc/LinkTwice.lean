import SmsIrc.LinkAgreement
import SmsIrc.LinkDelivery

/-!
Two runs of `process_messages`: what the second one sends for rows that the first one
has delivered or reported.
-/

namespace SmsIrc.LinkTwice

open SmsIrc.Database SmsIrc.External SmsIrc.HashMaps SmsIrc.Link SmsIrc.LinkAgreement
open SmsIrc.LinkDeeds SmsIrc.LinkDelivery SmsIrc.LinkEffects SmsIrc.LinkGhosts
open SmsIrc.LinkRuns SmsIrc.LinkSteady SmsIrc.MessageTexts SmsIrc.Models SmsIrc.Program
open SmsIrc.SenderCommon SmsIrc.SenderRuns SmsIrc.SerialTable SmsIrc.Text SmsIrc.Transition
open SmsIrc.Util

section Twice

variable [Crates]

/-- The turn of a row, with the rows that are stored when it comes and the calls that are
made in it. -/
structure Turn where
  row : Message
  stored : List Message
  calls : List SenderCall
deriving DecidableEq

def turnsOf (auid : Str) : List Message → InspLink → List Turn
  | [], _ => []
  | msg :: msgs, l =>
      ⟨msg, l.store.messages.rows,
        (exec (processMessage auid msg) l).2.calls.drop l.calls.length⟩ ::
          turnsOf auid msgs (exec (processMessage auid msg) l).2

/-- The turns of a run of `process_messages`. -/
def turns (l : InspLink) : List Turn :=
  match adminUuid l with
  | none => []
  | some auid => turnsOf auid (snapshot l) { l with store := l.store.tick }

/-- The turn of a part is for those parts of its message that are stored, that of another
row is for it. -/
inductive Turn.For (e : Turn) (m : Message) : Prop
  | alone (hrow : m = e.row) (h : ∀ cd, ¬ PartOf e.row cd)
  | joined {cd : ConcatenatedSmsData} (h : PartOf e.row cd) (hstored : m ∈ e.stored)
      (hnumber : m.phoneNumber = e.row.phoneNumber)
      (hreference : m.csmsData = some cd.reference.toNat)

/-- The calls that send a chunk of a message or an error notice. -/
def sends : SenderCall → Bool
  | .sendIrcMessage _ _ _ => true
  | .reportError _ _ => true
  | _ => false

/-- The calls that deliver a text, be it an empty one, or report an error. -/
def announces : SenderCall → Bool
  | .sendRawMessage _ _ _ => true
  | c => sends c

def Reports (cs : List SenderCall) : Prop := ∃ nick err, .reportError nick err ∈ cs

/-- A row has been delivered or reported. -/
def Announced (ts : List Turn) (m : Message) : Prop :=
  ∃ e ∈ ts, e.For m ∧ ∃ c ∈ e.calls, announces c = true

/-- Something is sent for a row. -/
def SentFor (ts : List Turn) (m : Message) : Prop :=
  ∃ e ∈ ts, e.For m ∧ ∃ c ∈ e.calls, sends c = true

/-- A row has a PDU whose text cannot be decoded. -/
def Undecodable (m : Message) : Prop :=
  ∃ raw pdu e, m.pdu = some raw ∧ Crates.deliverPduTryFrom raw = .ok pdu ∧
    pdu.decodeMessage = .error e

/-- An address has a contact, or a recipient that it can be set up for. -/
def Met (l : InspLink) (a : PduAddress) : Prop :=
  (∃ ct, l.contacts.lookup a = some ct) ∨ HasRecipient l.store a

/-- The sender of a row has one. -/
def Addressed (l : InspLink) (m : Message) : Prop :=
  ∃ a, unNormalizeAddress m.phoneNumber = some a ∧ Met l a

/-- What happens between two runs: no row is stored or deleted, and no contact lost. -/
structure Between (s t : InspLink) : Prop where
  rows : t.store.messages.rows = s.store.messages.rows
  contacts : ∀ a ct, s.contacts.lookup a = some ct → ∃ ct', t.contacts.lookup a = some ct'
  online : AdminOnline t

/-- What a part of a run of `process_messages` keeps. -/
structure Later (s t : InspLink) : Prop where
  steady : Steady s t
  rows : ∀ m ∈ t.store.messages.rows, m ∈ s.store.messages.rows
  effects : Effects False False s t

theorem later_refl (l : InspLink) : Later l l := ⟨steady_refl l, fun _ h => h, .refl⟩

theorem Later.trans {s t u : InspLink} (hst : Later s t) (htu : Later t u) : Later s u :=
  ⟨steady_trans hst.steady htu.steady, fun m h => hst.rows m (htu.rows m h),
    hst.effects.trans htu.effects⟩

theorem later_tick (l : InspLink) : Later l { l with store := l.store.tick } := by
  have hidle : Idle l { l with store := l.store.tick } := idle_store rfl rfl fun _ h => h
  exact ⟨hidle.toSteady, fun _ h => h, effects_of_apart (apart_tick l)⟩

theorem turnsOf_of_ok {auid : Str} {msgs : List Message} {l t : InspLink}
    (hmsgs : ∀ m ∈ msgs, ∀ r ∈ l.store.messages.rows, r.id = m.id → r = m)
    (hrun : exec (forM msgs (processMessage auid)) l = (.ok (), t)) :
    Later l t ∧ (turnsOf auid msgs l).map Turn.row = msgs ∧
      ∀ e ∈ turnsOf auid msgs l, ∃ s u ds, Later l s ∧ Later u t ∧
        exec (processMessage auid e.row) s = (.ok (), u) ∧ Handled e.row s u ds ∧
          e.calls = ds.flatMap Deed.calls ∧ e.stored = s.store.messages.rows := by
  induction msgs generalizing l with
  | nil =>
      cases hrun
      exact ⟨later_refl _, rfl, by simp [turnsOf]⟩
  | cons msg msgs ih =>
      rw [List.forM_cons] at hrun
      obtain ⟨_, u, hmsg, hrest⟩ := exec_bind_eq_ok hrun
      obtain ⟨ds, hds⟩ := wp_of_ok hmsg (wp_processMessage_deed (hmsgs msg (by simp)))
      have hsub : ∀ m ∈ u.store.messages.rows, m ∈ l.store.messages.rows := by
        intro m hm
        rw [hds.1.left] at hm
        exact List.mem_of_mem_filter hm
      have hlater : Later l u := by
        refine ⟨hds.1.steady, hsub, ?_⟩
        have heffects := (effects_processMessage (c := False) (r := False) auid msg).exec l
        rwa [hmsg] at heffects
      obtain ⟨ht, hfst, hturns⟩ := ih (fun m hm r hr => hmsgs m (by simp [hm]) r (hsub r hr)) hrest
      have hstate : (exec (processMessage auid msg) l).2 = u := by rw [hmsg]
      refine ⟨hlater.trans ht, ?_, ?_⟩
      · rw [turnsOf, hstate, List.map_cons, hfst]
      · intro e he
        rw [turnsOf, hstate] at he
        rcases List.mem_cons.mp he with rfl | he
        · refine ⟨l, u, ds, later_refl l, ht, hmsg, hds, ?_, rfl⟩
          rw [hds.1.calls, List.drop_left]
        · obtain ⟨s, v, ds', hs, hv, hrest⟩ := hturns e he
          exact ⟨s, v, ds', hlater.trans hs, hv, hrest⟩

theorem wp_processMessages_rows {l : InspLink} {auid : Str} (hadmin : adminUuid l = some auid) :
    wp processMessages (fun _ t => exec (forM (snapshot l) (processMessage auid))
      { l with store := l.store.tick } = (.ok (), t)) (fun _ _ => True) l := by
  rw [processMessages, wp_bind, wp_get, hadmin]
  dsimp only
  rw [wp_bind, wp_store]
  apply wp_query_of trivial
  exact wp_mono (wp_exec _ _) (fun _ _ h => h) fun _ _ _ => trivial

theorem turns_of_ok {l t : InspLink} (honline : AdminOnline l)
    (hrun : exec processMessages l = (.ok (), t)) :
    Later l t ∧ (turns l).map Turn.row = snapshot l ∧
      ∀ e ∈ turns l, ∃ auid s u ds, Later l s ∧ Later u t ∧
        exec (processMessage auid e.row) s = (.ok (), u) ∧ Handled e.row s u ds ∧
          e.calls = ds.flatMap Deed.calls ∧ e.stored = s.store.messages.rows := by
  obtain ⟨v, hv, -⟩ := honline
  obtain ⟨auid, hauid⟩ := adminUuid_of_isAdmin hv
  have hrows := wp_of_ok hrun (wp_processMessages_rows hauid)
  obtain ⟨hlater, hfst, hturns⟩ := turnsOf_of_ok (l := { l with store := l.store.tick })
    (fun m hm r hr hid => l.store.messages.eq_of_key_eq hr (mem_snapshot.mp hm) hid) hrows
  have htick := later_tick l
  refine ⟨htick.trans hlater, ?_, ?_⟩
  · rw [turns, hauid]
    exact hfst
  · intro e he
    rw [turns, hauid] at he
    obtain ⟨s, u, ds, hs, hrest⟩ := hturns e he
    exact ⟨auid, s, u, ds, htick.trans hs, hrest⟩

theorem Undecodable.decodePart {m : Message} (h : Undecodable m) :
    ∃ e, decodePart m = .error e := by
  obtain ⟨raw, pdu, e, hraw, hpdu, hdec⟩ := h
  exact ⟨.error e, by simp only [SenderCommon.decodePart, hraw, hpdu, hdec]⟩

theorem decodePart_of_joinParts {parts : List Message} {text : Str}
    (h : joinParts parts = .ok text) : ∀ m ∈ parts, ∃ d, decodePart m = .ok d := by
  unfold joinParts at h
  cases hpdus : parts.mapM decodePart with
  | ok pdus => exact mapM_eq_ok hpdus
  | error e =>
      rw [hpdus] at h
      cases h

theorem Undecodable.not_partOf {m : Message} (h : Undecodable m) (cd : ConcatenatedSmsData) :
    ¬ PartOf m cd := by
  rintro ⟨d, hcarries, -⟩
  obtain ⟨e, herror⟩ := h.decodePart
  rw [decodePart_eq_ok.mpr hcarries] at herror
  cases herror

theorem Undecodable.notMem_rows {l : InspLink} {msg m : Message} {d : Deed} (hm : Undecodable m)
    (hd : Meant l msg d) : m ∉ d.rows := by
  obtain ⟨e, herror⟩ := hm.decodePart
  obtain ⟨raw, -, -, hraw, -⟩ := hm
  intro hmem
  cases d with
  | alone nick text dest row =>
      obtain ⟨rfl, htext⟩ := hd
      rw [List.mem_singleton.mp hmem] at herror hraw
      cases htext with
      | plain hnone _ _ =>
          rw [hnone] at hraw
          cases hraw
      | sms hcarries _ =>
          rw [decodePart_eq_ok.mpr hcarries] at herror
          cases herror
  | joined nick text dest target parts =>
      obtain ⟨-, -, -, -, -, -, -, hjoin⟩ := hd
      obtain ⟨d, hok⟩ := decodePart_of_joinParts hjoin m hmem
      rw [hok] at herror
      cases herror
  | reported nick err => exact List.not_mem_nil hmem

theorem Undecodable.reported {s t : InspLink} {m : Message} {ds : List Deed} (hm : Undecodable m)
    (hs : Addressed s m) (h : Handled m s t ds) :
    Reports (ds.flatMap Deed.calls) ∧ ∃ a ct, unNormalizeAddress m.phoneNumber = some a ∧
      t.contacts.lookup a = some ct := by
  obtain ⟨e, herror⟩ := hm.decodePart
  rcases h.2 with ⟨d, rfl, hmeant, ⟨a, ct, ha, hct, -⟩, -⟩ | ⟨rfl, hskip⟩
  · refine ⟨?_, a, ct, ha, hct⟩
    cases d with
    | alone nick text dest row =>
        have hnot := hm.notMem_rows hmeant
        rw [hmeant.1] at hnot
        exact absurd List.mem_cons_self hnot
    | joined nick text dest target parts =>
        obtain ⟨-, d, -, hok, -⟩ := hmeant
        rw [hok] at herror
        cases herror
    | reported nick err => exact ⟨nick, err, by simp [Deed.calls]⟩
  · rcases hskip with ⟨a, ha, hnone, hrec⟩ | ⟨d, -, hok, -⟩
    · obtain ⟨b, hb, hmet⟩ := hs
      rw [ha, Option.some.injEq] at hb
      subst hb
      rcases hmet with ⟨ct, hct⟩ | hmet
      · rw [hnone] at hct
        cases hct
      · exact absurd hmet hrec
    · rw [hok] at herror
      cases herror

/-- Calls have been added, none of which reports an error. -/
def Unreported (s t : InspLink) : Prop := ∃ cs, t.calls = s.calls ++ cs ∧ ¬ Reports cs

theorem unreported_of_idle {s t u : InspLink} (hst : Idle s t) (h : Unreported t u) :
    Unreported s u := by
  obtain ⟨cs, hcs, hnot⟩ := h
  exact ⟨cs, by rw [hcs, hst.calls], hnot⟩

omit [Crates] in
theorem not_reports_sendCalls (nick text : Str) (gt : Option Nat) (dest : Str) (id : Nat) :
    ¬ Reports (sendCalls nick text gt dest ++ [.deleteMessage id]) := by
  rintro ⟨nick', err, hmem⟩
  simp [sendCalls] at hmem

theorem wp_removeMessage_calls (id : Nat) (l : InspLink) :
    wp (removeMessage id) (fun _ t => t.calls = l.calls ++ [.deleteMessage id])
      (fun _ _ => True) l := by
  rw [removeMessage, wp_bind]
  have hstore : Moves (fun s t : InspLink => t.calls = s.calls)
      (store (deleteMessage id) : LinkM Unit) := moves_zoom _ fun _ _ => rfl
  change wp (store (deleteMessage id) : LinkM Unit) _ _
    { l with calls := l.calls ++ [.deleteMessage id] }
  exact wp_mono (hstore _) (fun _ _ h => h) fun _ _ _ => trivial

theorem wp_processMsgPlain_calls (nick : Str) (msg : Message) (l : InspLink) :
    wp (processMsgPlain nick msg) (fun _ t => Unreported l t) (fun _ _ => True) l := by
  rw [processMsgPlain, wp_bind]
  cases msg.text with
  | none => trivial
  | some body =>
      rw [wp_unwrap_some, wp_bind]
      change wp (do
        sendRawMessage nick (renderPlain l.now msg.ts body) msg.groupTarget
        removeMessage msg.id) _ _ l
      rw [wp_bind]
      refine wp_mono (wp_sendText _ _ _ l) ?_ fun _ _ _ => trivial
      rintro _ t ⟨-, dest, -, ht⟩
      refine wp_mono (wp_removeMessage_calls msg.id t) (fun _ u hu => ?_) fun _ _ h => h
      exact ⟨_, by rw [hu, ht, List.append_assoc], not_reports_sendCalls _ _ _ _ _⟩

theorem wp_processMessage_plain {auid : Str} {msg : Message} (hpdu : msg.pdu = none)
    (l : InspLink) :
    wp (processMessage auid msg) (fun _ t => Unreported l t) (fun _ _ => True) l := by
  have hidle : ∀ {t}, Idle l t → Unreported l t := fun ht =>
    ⟨[], by rw [ht.calls, List.append_nil], by simp [Reports]⟩
  rw [processMessage, Message.getAddr, Models.getAddr, wp_bind]
  cases unNormalizeAddress msg.phoneNumber with
  | none => trivial
  | some a =>
      rw [wp_pure, wp_bind]
      refine wp_mono (wp_contactReady_idle a msg.source l) ?_ fun _ _ _ => trivial
      rintro ready t ⟨ht, -⟩
      rw [wp_when]
      split
      · rw [wp_bind, wp_get, wp_bind]
        cases t.contacts.lookup a with
        | none => trivial
        | some ct =>
            rw [wp_unwrap_some, hpdu]
            dsimp only
            rw [wp_bind]
            refine wp_mono (idle_switchMode a auid ct true t) ?_ fun _ _ _ => trivial
            intro _ u hu
            exact wp_mono (wp_processMsgPlain_calls ct.uuid msg u)
              (fun _ _ h => unreported_of_idle (idle_trans ht hu) h) fun _ _ h => h
      · exact hidle ht

theorem undecodable_of_reports {auid : Str} {m : Message} {s u : InspLink} {ds : List Deed}
    {cs : List SenderCall} (hpdus : ∀ raw ∈ m.pdu, (Crates.deliverPduTryFrom raw).isOk = true)
    (hrun : exec (processMessage auid m) s = (.ok (), u)) (h : Handled m s u ds)
    (hcs : cs = ds.flatMap Deed.calls) (hreports : Reports cs) :
    Undecodable m ∧ ∃ a ct, unNormalizeAddress m.phoneNumber = some a ∧
      u.contacts.lookup a = some ct := by
  have hsome : ∃ raw, m.pdu = some raw := by
    cases hpdu : m.pdu with
    | some raw => exact ⟨raw, rfl⟩
    | none =>
        obtain ⟨cs', hcs', hnot⟩ := wp_of_ok hrun (wp_processMessage_plain hpdu s)
        rw [h.1.calls, ← hcs, List.append_cancel_left_eq] at hcs'
        exact absurd (hcs' ▸ hreports) hnot
  obtain ⟨raw, hraw⟩ := hsome
  obtain ⟨nick, err, hmem⟩ := hreports
  rcases h.2 with ⟨d, rfl, hmeant, ⟨a, ct, ha, hct, -⟩, -⟩ | ⟨rfl, -⟩
  · refine ⟨?_, a, ct, ha, hct⟩
    rw [hcs] at hmem
    cases d with
    | alone nick' text dest row => simp [Deed.calls, sendCalls, deletions] at hmem
    | joined nick' text dest target parts => simp [Deed.calls, sendCalls, deletions] at hmem
    | reported nick' err' =>
        obtain ⟨e, herror⟩ := hmeant
        cases hpdu : Crates.deliverPduTryFrom raw with
        | error e' =>
            have := hpdus raw hraw
            rw [hpdu] at this
            cases this
        | ok pdu =>
            cases hdec : pdu.decodeMessage with
            | error e' => exact ⟨raw, pdu, e', hraw, hpdu, hdec⟩
            | ok d =>
                simp only [SenderCommon.decodePart, hraw, hpdu, hdec] at herror
                cases herror
  · rw [hcs] at hmem
    cases hmem

theorem met_of_subset {s t : InspLink}
    (hnum : t.store.recipients.rows.map Recipient.phoneNumber ⊆
      s.store.recipients.rows.map Recipient.phoneNumber)
    (hcontacts : ∀ a ct, t.contacts.lookup a = some ct → Met s a) : ∀ a, Met t a → Met s a := by
  rintro a (⟨ct, hct⟩ | ⟨r, hr, hnumber⟩)
  · exact hcontacts a ct hct
  · obtain ⟨r', hr', heq⟩ := List.mem_map.mp (hnum (List.mem_map_of_mem hr))
    exact .inr ⟨r', hr', heq.trans hnumber⟩

theorem met_of_insert {s : InspLink} {a : PduAddress} {ct' : InspContact} (ha : Met s a) :
    ∀ b ct, (s.contacts.insert a ct').lookup b = some ct → Met s b := by
  intro b ct hct
  rw [lookup_insert] at hct
  split at hct
  · rename_i h
    exact h ▸ ha
  · exact .inl ⟨ct, hct⟩

theorem met_of_effect {c r : Prop} {s t : InspLink} (hs : Keyed s.store) (h : Effect c r s t) :
    Keyed t.store ∧ ∀ a, Met t a → Met s a := by
  have hold : ∀ a ct, s.contacts.lookup a = some ct → Met s a := fun _ ct hct => .inl ⟨ct, hct⟩
  have hrow : ∀ (t : InspLink) (a : PduAddress) (f : Recipient → Recipient)
      (hf : ∀ r, (f r).id = r.id), (∀ r, (f r).phoneNumber = r.phoneNumber) →
        t.store = rowChanged s.store a f hf →
        (∀ a ct, t.contacts.lookup a = some ct → Met s a) →
          Keyed t.store ∧ ∀ a, Met t a → Met s a := by
    intro t a f hf hsame hstore hcontacts
    rw [hstore]
    refine ⟨keyed_rowChanged hs a f hf hsame, met_of_subset ?_ hcontacts⟩
    rw [hstore, (touched_rowChanged s.store a f hf hsame).numbers]
    exact List.Subset.refl _
  cases h with
  | apart h =>
      refine ⟨keyed_of_numbers hs (by rw [h.recipients]), met_of_subset ?_ ?_⟩
      · rw [h.recipients]
        exact List.Subset.refl _
      · rw [h.contacts]
        exact hold
  | said hm => exact ⟨hs, fun _ h => h⟩
  | @collided a nick ha =>
      exact hrow _ a (fun r => { r with nick := nick, nicksrc := nicksrcCollision })
        (fun _ => rfl) (fun _ => rfl) rfl hold
  | introduced ha hid hfree hstored =>
      obtain ⟨r, hr, -⟩ := hstored hs
      refine ⟨hs, met_of_subset (List.Subset.refl _) ?_⟩
      exact met_of_insert (.inr ⟨r, hr.stored, hr.number⟩)
  | regrouped hct hr hgrps =>
      exact ⟨hs, met_of_subset (List.Subset.refl _) (met_of_insert (hold _ _ hct))⟩
  | @moded a ct wa hct =>
      exact hrow _ a (fun r => { r with whatsapp := wa }) (fun _ => rfl) (fun _ => rfl) rfl
        (met_of_insert (hold _ _ hct))
  | marked hct hdown =>
      exact ⟨hs, met_of_subset (List.Subset.refl _) (met_of_insert (hold _ _ hct))⟩
  | @renamed a ct user nick src hct huser hfree =>
      exact hrow _ a (fun r => { r with nick := nick, nicksrc := src }) (fun _ => rfl)
        (fun _ => rfl) rfl hold
  | announced hct huser hfree hdown => exact ⟨hs, fun _ h => h⟩
  | @dropped a =>
      refine ⟨keyed_dropped hs a, met_of_subset ?_ fun b ct hct => ?_⟩
      · exact (List.filter_sublist.map _).subset
      · have hquit : (quitted s a).contacts.lookup b = some ct := by
          change ((quitted s a).contacts.erase a).lookup b = some ct at hct
          rw [lookup_erase] at hct
          split at hct
          · cases hct
          · exact hct
        unfold quitted at hquit
        split at hquit
        · exact .inl ⟨ct, (withoutUser_contact hquit).1⟩
        · exact .inl ⟨ct, hquit⟩

theorem met_of_effects {c r : Prop} {s t : InspLink} (hs : Keyed s.store)
    (h : Effects c r s t) : Keyed t.store ∧ ∀ a, Met t a → Met s a := by
  refine h.invariant (I := fun t => Keyed t.store ∧ ∀ a, Met t a → Met s a) ?_
    ⟨hs, fun _ h => h⟩
  rintro t u ⟨ht, hmet⟩ hu
  obtain ⟨hkeyed, hback⟩ := met_of_effect ht hu
  exact ⟨hkeyed, fun a ha => hmet a (hback a ha)⟩

theorem met_of_steady {s t : InspLink} (h : Steady s t) {a : PduAddress} (ha : Met s a) :
    Met t a := by
  rcases ha with ⟨ct, hct⟩ | ha
  · obtain ⟨ct', hct', -⟩ := h.contacts a ct hct
    exact .inl ⟨ct', hct'⟩
  · exact .inr (h.recipients a ha)

/-- A row for which a turn does something is one of those that are sent in it, unless it is
reported. -/
theorem Turn.For.mem_rows {e : Turn} {m : Message} {l : InspLink} {d : Deed} (h : e.For m)
    (hstored : e.stored = l.store.messages.rows) (hmeant : Meant l e.row d) :
    m ∈ d.rows ∨ m = e.row ∧ ∃ nick err, d = .reported nick err := by
  cases d with
  | alone nick text dest row =>
      obtain ⟨rfl, htext⟩ := hmeant
      refine .inl (List.mem_singleton.mpr ?_)
      cases h with
      | alone hrow _ => exact hrow
      | joined hpart _ _ _ =>
          obtain ⟨d, hcarries, hcd⟩ := hpart
          cases htext with
          | plain hnone _ _ =>
              obtain ⟨raw, hraw, -⟩ := hcarries
              rw [hnone] at hraw
              cases hraw
          | sms hcarries' hone =>
              obtain rfl := carries_unique hcarries hcarries'
              exact absurd hcd (hone _)
  | joined nick text dest target parts =>
      obtain ⟨-, d, cd, hok, hcd, hperm, -⟩ := hmeant
      have hpart := partOf_of_decodePart hok hcd
      cases h with
      | alone _ hnone => exact absurd hpart (hnone cd)
      | @joined cd' hpart' hm hnumber hreference =>
          obtain ⟨d', hok', hcd'⟩ := hpart'.decodePart
          rw [hok, Except.ok.injEq] at hok'
          rw [← hok', hcd, Option.some.injEq] at hcd'
          refine .inl (hperm.mem_iff.mpr (List.mem_filter.mpr ⟨hstored ▸ hm, ?_⟩))
          rw [hcd']
          simp [hnumber, hreference]
  | reported nick err =>
      cases h with
      | alone hrow _ => exact .inr ⟨hrow, nick, err, rfl⟩
      | joined hpart _ _ _ =>
          obtain ⟨d, hok, -⟩ := hpart.decodePart
          obtain ⟨e, herror⟩ := hmeant
          rw [hok] at herror
          cases herror

theorem gone_of_sent {msg m : Message} {s u t : InspLink} {ds : List Deed}
    (h : Handled msg s u ds) (hu : Later u t) (hm : m ∈ ds.flatMap Deed.rows) :
    m ∉ t.store.messages.rows := by
  intro hleft
  have hin := hu.rows m hleft
  rw [h.1.left] at hin
  simpa [hm] using (List.mem_filter.mp hin).2

theorem Undecodable.stays {l t : InspLink} {m : Message} (hm : Undecodable m)
    (hrow : m ∈ l.store.messages.rows) (honline : AdminOnline l)
    (hrun : exec processMessages l = (.ok (), t)) : m ∈ t.store.messages.rows := by
  rcases wp_of_ok hrun (wp_processMessages_deeds l) with ⟨hnone, rfl⟩ | ⟨-, ds, hds⟩
  · exact hrow
  · have hleft := hds.did.left
    rw [hleft, List.mem_filter, decide_eq_true_iff]
    refine ⟨hrow, fun hmem => ?_⟩
    obtain ⟨d, hd, hmem⟩ := List.mem_flatMap.mp hmem
    obtain ⟨msg, -, u, -, -, -, hmeant, -⟩ := deed_of_processed hds d hd
    exact hm.notMem_rows hmeant hmem

theorem exists_turn {l : InspLink} {m : Message} (hm : m ∈ l.store.messages.rows)
    (hrows : (turns l).map Turn.row = snapshot l) : ∃ e ∈ turns l, e.row = m := by
  have hmem : m ∈ (turns l).map Turn.row := by
    rw [hrows]
    exact mem_snapshot.mpr hm
  exact List.mem_map.mp hmem

theorem unaddressed_of_silent {l t t' u : InspLink} (honline : AdminOnline l)
    (hfirst : exec processMessages l = (.ok (), t)) (hbetween : Between t t')
    (hsecond : exec processMessages t' = (.ok (), u)) {m : Message}
    (hm : m ∈ l.store.messages.rows) (hundec : Undecodable m)
    (h : Announced (turns l) m → ¬ SentFor (turns t') m) : ¬ Addressed l m := by
  rintro ⟨a, ha, hmet⟩
  obtain ⟨-, hrows, hturns⟩ := turns_of_ok honline hfirst
  obtain ⟨-, hrows', hturns'⟩ := turns_of_ok hbetween.online hsecond
  obtain ⟨e, he, rfl⟩ := exists_turn hm hrows
  obtain ⟨_, s, v, ds, hs, hv, -, hhandled, hcalls, -⟩ := hturns e he
  obtain ⟨⟨nick, err, hmem⟩, b, ct, hb, hct⟩ :=
    hundec.reported ⟨a, ha, met_of_steady hs.steady hmet⟩ hhandled
  apply h ⟨e, he, .alone rfl hundec.not_partOf, _, hcalls ▸ hmem, rfl⟩
  -- its contact is still there when it is its turn again
  obtain ⟨ct', hct', -⟩ := hv.steady.contacts b ct hct
  obtain ⟨ct'', hct''⟩ := hbetween.contacts b ct' hct'
  have hstays : e.row ∈ t'.store.messages.rows := by
    rw [hbetween.rows]
    exact hundec.stays hm honline hfirst
  obtain ⟨e', he', heq⟩ := exists_turn hstays hrows'
  obtain ⟨_, s', v', ds', hs', -, -, hhandled', hcalls', -⟩ := hturns' e' he'
  rw [heq] at hhandled'
  obtain ⟨⟨nick', err', hmem'⟩, -⟩ :=
    hundec.reported ⟨b, hb, met_of_steady hs'.steady (.inl ⟨ct'', hct''⟩)⟩ hhandled'
  refine ⟨e', he', .alone heq.symm ?_, _, hcalls' ▸ hmem', rfl⟩
  rw [heq]
  exact hundec.not_partOf

theorem not_sentFor_of_gone {t' u : InspLink} (honline : AdminOnline t')
    (hsecond : exec processMessages t' = (.ok (), u)) {m : Message}
    (hgone : m ∉ t'.store.messages.rows) : ¬ SentFor (turns t') m := by
  rintro ⟨e, he, hfor, -⟩
  obtain ⟨-, hrows, hturns⟩ := turns_of_ok honline hsecond
  obtain ⟨_, s, -, -, hs, -, -, -, -, hstored⟩ := hturns e he
  cases hfor with
  | alone hrow _ =>
      have hsnap : m ∈ snapshot t' := by
        rw [hrow, ← hrows]
        exact List.mem_map_of_mem he
      exact hgone (mem_snapshot.mp hsnap)
  | joined _ hin _ _ =>
      rw [hstored] at hin
      exact hgone (hs.rows m hin)

/-- What the second of two runs that succeed sends for the rows that the first one has
announced: nothing, exactly if no row of a sender that is there is undecodable. -/
theorem silent_iff {l t t' u : InspLink} (hkeyed : Keyed l.store)
    (hpdus : ∀ m ∈ l.store.messages.rows, ∀ raw ∈ m.pdu,
      (Crates.deliverPduTryFrom raw).isOk = true)
    (honline : AdminOnline l) (hfirst : exec processMessages l = (.ok (), t))
    (hbetween : Between t t') (hsecond : exec processMessages t' = (.ok (), u)) :
    (∀ m ∈ l.store.messages.rows, Announced (turns l) m → ¬ SentFor (turns t') m) ↔
      ∀ m ∈ l.store.messages.rows, Undecodable m → ¬ Addressed l m := by
  constructor
  · intro h m hm hundec
    exact unaddressed_of_silent honline hfirst hbetween hsecond hm hundec (h m hm)
  · rintro h m hm ⟨e, he, hfor, c, hc, -⟩
    obtain ⟨hlater, -, hturns⟩ := turns_of_ok honline hfirst
    obtain ⟨_, s, v, ds, hs, hv, hrun, hhandled, hcalls, hstored⟩ := hturns e he
    obtain ⟨d, rfl, hmeant, ⟨a, ct, ha, hct, -⟩, -⟩ | ⟨rfl, -⟩ := hhandled.2
    swap
    · rw [hcalls] at hc
      cases hc
    rcases hfor.mem_rows hstored hmeant with hmem | ⟨rfl, nick, err, rfl⟩
    · have hgone := gone_of_sent hhandled hv (by simpa using hmem)
      rw [← hbetween.rows] at hgone
      exact not_sentFor_of_gone hbetween.online hsecond hgone
    · have hreports : Reports e.calls := by
        rw [hcalls]
        exact ⟨nick, err, by simp [Deed.calls]⟩
      obtain ⟨hundec, -⟩ :=
        undecodable_of_reports (hpdus e.row hm) hrun hhandled hcalls hreports
      obtain ⟨ct', hct', -⟩ := hv.steady.contacts a ct hct
      exact absurd ⟨a, ha, (met_of_effects hkeyed hlater.effects).2 a (.inl ⟨ct', hct'⟩)⟩
        (h e.row hm hundec)

end Twice

section Samples

attribute [local instance] Sample.crates

/-- A PDU from `alice` with data that is no text. -/
def garbled : List UInt8 :=
  [0, 4, 5, Sample.international, 0x44, 0x21, 0xF3, 0, 4, 0x02, 0x11, 0x81, 0x51, 0x74, 0x90,
    0x40, 1, 0xFF]

def garbledRow (n : Nat) : Message where
  id := n
  phoneNumber := normalizeAddress Sample.alice
  pdu := some garbled
  csmsData := none
  groupTarget := none
  text := none
  source := sourceSms
  ts := 0

def garbledStore : Store :=
  { Sample.store with messages := Table.empty.insert garbledRow fun _ => rfl }

def garbledSession : Session :=
  (run next (initial sampleConfig garbledStore 0) skipping).get (by decide +kernel)

def garbledLink : InspLink := garbledSession.link

def firstLink : InspLink := (exec processMessages garbledLink).2

def secondLink : InspLink := (exec processMessages firstLink).2

theorem exec_garbledLink : exec processMessages garbledLink = (.ok (), firstLink) :=
  exec_eq_of_isOk (by decide +kernel)

theorem exec_firstLink : exec processMessages firstLink = (.ok (), secondLink) :=
  exec_eq_of_isOk (by decide +kernel)

theorem rows_garbledLink : garbledLink.store.messages.rows = [garbledRow 1] := by
  decide +kernel

theorem numbers_garbledLink : garbledLink.store.recipients.rows.map Recipient.phoneNumber =
    [normalizeAddress Sample.alice] := by decide +kernel

theorem adminOnline_garbledLink : AdminOnline garbledLink :=
  adminOnline_of_eval (by decide +kernel) (by decide +kernel)

theorem between_firstLink : Between firstLink firstLink :=
  ⟨rfl, fun _ ct h => ⟨ct, h⟩, adminOnline_of_eval (by decide +kernel) (by decide +kernel)⟩

theorem parses_garbledLink : ∀ m ∈ garbledLink.store.messages.rows, ∀ raw ∈ m.pdu,
    (Crates.deliverPduTryFrom raw).isOk = true := by
  rw [rows_garbledLink]
  decide +kernel

theorem number_garbledLink {r : Recipient} (hr : r ∈ garbledLink.store.recipients.rows) :
    r.phoneNumber = normalizeAddress Sample.alice := by
  apply List.mem_singleton.mp
  rw [← numbers_garbledLink]
  exact List.mem_map_of_mem hr

theorem keyed_garbledLink : Keyed garbledLink.store := by
  refine ⟨by rw [numbers_garbledLink]; exact List.nodup_singleton _, fun r hr a ha => ?_⟩
  have hnum := number_garbledLink hr
  rw [hnum, Sample.readsBack_alice, Option.some.injEq] at ha
  rw [hnum, ha]

theorem silent_iff_garbledLink : (∀ m ∈ garbledLink.store.messages.rows,
    Announced (turns garbledLink) m → ¬ SentFor (turns firstLink) m) ↔
      ∀ m ∈ garbledLink.store.messages.rows, Undecodable m → ¬ Addressed garbledLink m :=
  silent_iff keyed_garbledLink parses_garbledLink adminOnline_garbledLink exec_garbledLink
    between_firstLink exec_firstLink

/-- What is made of the row, both times. -/
def garbledTurn : Turn where
  row := garbledRow 1
  stored := [garbledRow 1]
  calls := [.reportError ("00AZ00001" : Str)
    ("indecipherable message: unsupported encoding" : Str)]

theorem undecodable_garbled : Undecodable (garbledRow 1) := ⟨garbled, _, _, rfl, rfl, rfl⟩

/-- The row is reported twice. -/
theorem reported_twice : ¬ ∀ (st : Store) (es : List Event) (s : Session) (t u : InspLink),
    run next (initial sampleConfig st 0) es = some s → s.link.state = .linked →
    WellFormed s.link.store → AdminOnline s.link →
    exec processMessages s.link = (.ok (), t) → exec processMessages t = (.ok (), u) →
      ∀ m ∈ s.link.store.messages.rows, Announced (turns s.link) m → ¬ SentFor (turns t) m := by
  intro h
  have hwell : WellFormed garbledLink.store := by
    refine ⟨⟨fun r hr => ?_, fun m hm => ?_⟩, parses_garbledLink⟩
    · exact ⟨Sample.alice, Sample.readsBack_alice, number_garbledLink hr⟩
    · rw [rows_garbledLink, List.mem_singleton] at hm
      rw [hm]
      exact ⟨Sample.alice, Sample.readsBack_alice, rfl⟩
  have hfirst : turns garbledLink = [garbledTurn] := by decide +kernel
  have hsecond : turns firstLink = [garbledTurn] := by decide +kernel
  have hsilent : Announced (turns garbledLink) (garbledRow 1) →
      ¬ SentFor (turns firstLink) (garbledRow 1) :=
    h garbledStore skipping garbledSession firstLink secondLink (Option.some_get _).symm
      (by decide +kernel) hwell adminOnline_garbledLink exec_garbledLink exec_firstLink
      (garbledRow 1) (by change _ ∈ garbledLink.store.messages.rows; rw [rows_garbledLink]; simp)
  rw [hfirst, hsecond] at hsilent
  have hfor : garbledTurn.For (garbledRow 1) := .alone rfl undecodable_garbled.not_partOf
  exact hsilent
    ⟨garbledTurn, List.mem_singleton.mpr rfl, hfor, _, List.mem_singleton.mpr rfl, rfl⟩
    ⟨garbledTurn, List.mem_singleton.mpr rfl, hfor, _, List.mem_singleton.mpr rfl, rfl⟩

end Samples

end SmsIrc.LinkTwice
