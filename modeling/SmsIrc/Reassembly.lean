import SmsIrc.LinkHistory
import SmsIrc.Modem

/-!
The parts that are joined into one text, over histories of received messages.
-/

namespace SmsIrc.Reassembly

open SmsIrc.Comm SmsIrc.Database SmsIrc.External SmsIrc.Link SmsIrc.LinkDeeds
open SmsIrc.LinkHistory SmsIrc.LinkRuns SmsIrc.MessageTexts SmsIrc.Modem SmsIrc.Models
open SmsIrc.Program SmsIrc.SenderCommon SmsIrc.SerialTable SmsIrc.Text SmsIrc.Transition
open SmsIrc.Util

section Parts

variable [Crates]

/-- A PDU carries a part, with a header. -/
def PduPart (raw : List UInt8) (cd : ConcatenatedSmsData) : Prop :=
  ∃ d, Decodes raw d ∧ concatenation d = some cd

/-- The row of a part, with its header. -/
def IsPart (m : Message) (cd : ConcatenatedSmsData) : Prop := ∃ raw ∈ m.pdu, PduPart raw cd

theorem isPart_of_decodePart {m : Message} {d : DecodedMessage} {cd : ConcatenatedSmsData}
    (hd : decodePart m = .ok d) (hcd : concatenation d = some cd) : IsPart m cd := by
  obtain ⟨raw, hraw, hdec⟩ := decodePart_eq_ok.mp hd
  exact ⟨raw, hraw, d, hdec, hcd⟩

theorem isPart_unique {m : Message} {cd cd' : ConcatenatedSmsData} (h : IsPart m cd)
    (h' : IsPart m cd') : cd' = cd := by
  obtain ⟨raw, hraw, d, hd, hcd⟩ := h
  obtain ⟨raw', hraw', d', hd', hcd'⟩ := h'
  have heq := decodePart_eq_ok.mpr ⟨raw, hraw, hd⟩
  rw [decodePart_eq_ok.mpr ⟨raw', hraw', hd'⟩] at heq
  cases heq
  exact Option.some.inj (hcd'.symm.trans hcd)

/-- The sequence number in the header of a row. -/
def sequenceNumber (m : Message) : Nat :=
  match decodePart m with
  | .ok d => sequenceOf d
  | .error _ => 0

theorem sequenceNumber_of_isPart {m : Message} {cd : ConcatenatedSmsData} (h : IsPart m cd) :
    sequenceNumber m = cd.sequence.toNat := by
  obtain ⟨raw, hraw, d, hdec, hcd⟩ := h
  rw [sequenceNumber, decodePart_eq_ok.mpr ⟨raw, hraw, hdec⟩]
  simp [sequenceOf, hcd]

/-- All rows declare the same number of parts, and they have each sequence number
once. -/
def Whole (rows : List Message) : Prop :=
  ∃ n, (∀ m ∈ rows, ∃ cd, IsPart m cd ∧ cd.parts.toNat = n) ∧
    (rows.map sequenceNumber).Perm (List.range' 1 n)

def JoinsWhole : Deed → Prop
  | .joined _ _ _ _ parts => Whole parts
  | _ => True

/-- What `store_sms_message` is called with for a message that the modem lists. -/
def Received (addr : PduAddress) (raw : List UInt8) (csms : Option Nat) : Prop :=
  ∃ pdu, Crates.deliverPduTryFrom raw = .ok pdu ∧ addr = pdu.originatingAddress ∧
    csms = csmsDataOf pdu

theorem storeListed_received {msg : SmsMessage} {mgr : ModemManager}
    (hstatus : msg.status = .receivedUnread)
    (hraw : Crates.deliverPduTryFrom msg.rawPdu = .ok msg.pdu) :
    ∃ addr csms, Received addr msg.rawPdu csms ∧
      (exec (storeListed msg) mgr).2.store =
        (exec (StoreOp.smsMessage addr msg.rawPdu csms).run mgr.store).2 := by
  refine ⟨_, _, ⟨msg.pdu, hraw, rfl, rfl⟩, ?_⟩
  have hstore : exec (store (storeSmsMessage msg.pdu.originatingAddress msg.rawPdu
      (csmsDataOf msg.pdu)) : ModemM Unit) mgr =
      ((exec (storeSmsMessage msg.pdu.originatingAddress msg.rawPdu
        (csmsDataOf msg.pdu)) mgr.store).1, { mgr with
          store := (exec (storeSmsMessage msg.pdu.originatingAddress msg.rawPdu
            (csmsDataOf msg.pdu)) mgr.store).2 }) := rfl
  unfold storeListed
  rw [if_neg (not_not.mpr hstatus), exec_bind, hstore, StoreOp.run]
  rcases (exec (storeSmsMessage msg.pdu.originatingAddress msg.rawPdu
    (csmsDataOf msg.pdu)) mgr.store).1 with _ | _ <;> rfl

theorem csmsDataOf_eq {raw : List UInt8} {pdu : DeliverPdu} {d : DecodedMessage}
    (hpdu : Crates.deliverPduTryFrom raw = .ok pdu) (hd : Decodes raw d) :
    csmsDataOf pdu = (concatenation d).map fun cd => cd.reference.toNat := by
  obtain ⟨pdu', hpdu', hdec⟩ := hd
  rw [hpdu] at hpdu'
  cases hpdu'
  simp only [csmsDataOf, hdec]

/-- The parts in the database do not contradict each other. -/
structure Consistent (rows : List Message) : Prop where
  filed : ∀ m ∈ rows, ∀ d, decodePart m = .ok d →
    m.csmsData = (concatenation d).map fun cd => cd.reference.toNat
  inRange : ∀ m ∈ rows, ∀ cd, IsPart m cd →
    1 ≤ cd.sequence.toNat ∧ cd.sequence.toNat ≤ cd.parts.toNat
  agree : ∀ m ∈ rows, ∀ m' ∈ rows, ∀ cd cd', IsPart m cd → IsPart m' cd' →
    m'.phoneNumber = m.phoneNumber → cd'.reference = cd.reference →
    cd'.parts = cd.parts ∧ (cd'.sequence = cd.sequence → m' = m)

theorem Consistent.subset {rows rows' : List Message} (h : Consistent rows)
    (hsub : ∀ m ∈ rows', m ∈ rows) : Consistent rows' where
  filed m hm := h.filed m (hsub m hm)
  inRange m hm := h.inRange m (hsub m hm)
  agree m hm m' hm' := h.agree m (hsub m hm) m' (hsub m' hm')

/-- The rows of a message that is joined while the parts are consistent are whole. -/
theorem joinsWhole_of_meantFrom {l : InspLink} (hl : Consistent l.store.messages.rows) {d : Deed}
    (h : MeantFrom l d) : JoinsWhole d := by
  obtain ⟨msg, hmsg, u, hu, hmeant⟩ := h
  cases d with
  | alone nick text dest row => trivial
  | reported nick err => trivial
  | joined nick text dest target parts =>
      obtain ⟨_, d, cd, hd, hcd, hperm, hlen, hjoin⟩ := hmeant
      have hpart := isPart_of_decodePart hd hcd
      have hdec : ∀ m ∈ parts, ∃ d, decodePart m = .ok d := by
        unfold joinParts at hjoin
        cases hpdus : parts.mapM decodePart with
        | ok pdus => exact mapM_eq_ok hpdus
        | error e =>
            rw [hpdus] at hjoin
            cases hjoin
      -- each of them is a part of the same message
      have heach : ∀ m ∈ parts, m ∈ l.store.messages.rows ∧ m.phoneNumber = msg.phoneNumber ∧
          ∃ cd', IsPart m cd' ∧ cd'.reference = cd.reference := by
        intro m hm
        obtain ⟨hrow, hfiled⟩ := List.mem_filter.mp (hperm.subset hm)
        rw [Bool.and_eq_true, decide_eq_true_iff, decide_eq_true_iff] at hfiled
        obtain ⟨d', hd'⟩ := hdec m hm
        have hcsms := hl.filed m (hu m hrow) d' hd'
        rw [hfiled.1] at hcsms
        obtain ⟨cd', hcd', href⟩ := Option.map_eq_some_iff.mp hcsms.symm
        exact ⟨hu m hrow, hfiled.2, cd', isPart_of_decodePart hd' hcd',
          UInt16.toNat_inj.mp href⟩
      refine ⟨cd.parts.toNat, ?_, ?_⟩
      · intro m hm
        obtain ⟨hrow, hnum, cd', hcd', href⟩ := heach m hm
        exact ⟨cd', hcd', by rw [(hl.agree msg hmsg m hrow cd cd' hpart hcd' hnum href).1]⟩
      · have hnodup : parts.Nodup := hperm.nodup_iff.mpr (u.store.messages.rows_nodup.filter _)
        have hseq : (parts.map sequenceNumber).Nodup := by
          refine hnodup.map_on fun a ha b hb hab => ?_
          obtain ⟨hrowa, hnuma, cda, hcda, hrefa⟩ := heach a ha
          obtain ⟨hrowb, hnumb, cdb, hcdb, hrefb⟩ := heach b hb
          rw [sequenceNumber_of_isPart hcda, sequenceNumber_of_isPart hcdb] at hab
          exact (hl.agree b hrowb a hrowa cdb cda hcdb hcda (hnuma.trans hnumb.symm)
            (hrefa.trans hrefb.symm)).2 (UInt8.toNat_inj.mp hab)
        refine (List.subperm_of_subset hseq fun k hk => ?_).perm_of_length_le ?_
        · obtain ⟨m, hm, rfl⟩ := List.mem_map.mp hk
          obtain ⟨hrow, hnum, cd', hcd', href⟩ := heach m hm
          have hparts := (hl.agree msg hmsg m hrow cd cd' hpart hcd' hnum href).1
          have hrange := hl.inRange m hrow cd' hcd'
          rw [sequenceNumber_of_isPart hcd', List.mem_range'_1]
          rw [hparts] at hrange
          omega
        · rw [List.length_range', List.length_map, hlen]

/-- A received part agrees with the parts of the same sender and reference that
are still stored, and is none of them. -/
def Distinct (s : Session) : Event → Prop
  | .storeOp (.smsMessage addr raw csms) => Received addr raw csms ∧
      ∀ cd, PduPart raw cd → 1 ≤ cd.sequence.toNat ∧ cd.sequence.toNat ≤ cd.parts.toNat ∧
        ∀ m ∈ s.link.store.messages.rows, ∀ cd', IsPart m cd' →
          m.phoneNumber = normalizeAddress addr → cd'.reference = cd.reference →
          cd'.parts = cd.parts ∧ cd'.sequence ≠ cd.sequence
  | _ => True

theorem Consistent.insert {rows : List Message} (h : Consistent rows) {m : Message}
    (hfiled : ∀ d, decodePart m = .ok d →
      m.csmsData = (concatenation d).map fun cd => cd.reference.toNat)
    (hnew : ∀ cd, IsPart m cd → 1 ≤ cd.sequence.toNat ∧ cd.sequence.toNat ≤ cd.parts.toNat ∧
      ∀ m' ∈ rows, ∀ cd', IsPart m' cd' → m'.phoneNumber = m.phoneNumber →
        cd'.reference = cd.reference → cd'.parts = cd.parts ∧ cd'.sequence ≠ cd.sequence) :
    Consistent (rows ++ [m]) where
  filed q hq := by
    rcases List.mem_append.mp hq with hq | hq
    · exact h.filed q hq
    · rw [List.mem_singleton.mp hq]
      exact hfiled
  inRange q hq cd hcd := by
    rcases List.mem_append.mp hq with hq | hq
    · exact h.inRange q hq cd hcd
    · rw [List.mem_singleton.mp hq] at hcd
      exact ⟨(hnew cd hcd).1, (hnew cd hcd).2.1⟩
  agree q hq q' hq' cd cd' hcd hcd' hnum href := by
    rcases List.mem_append.mp hq with hold | hq
    · rcases List.mem_append.mp hq' with hold' | hq'
      · exact h.agree q hold q' hold' cd cd' hcd hcd' hnum href
      · obtain rfl := List.mem_singleton.mp hq'
        have := (hnew cd' hcd').2.2 q hold cd hcd hnum.symm href.symm
        exact ⟨this.1.symm, fun hs => absurd hs.symm this.2⟩
    · obtain rfl := List.mem_singleton.mp hq
      rcases List.mem_append.mp hq' with hold' | hq'
      · have := (hnew cd hcd).2.2 q' hold' cd' hcd' hnum href
        exact ⟨this.1, fun hs => absurd hs this.2⟩
      · obtain rfl := List.mem_singleton.mp hq'
        rw [isPart_unique hcd hcd']
        exact ⟨rfl, fun _ => rfl⟩

theorem consistent_storeOp {s : Session} {op : StoreOp} (hop : Distinct s (.storeOp op))
    (hs : Consistent s.link.store.messages.rows) :
    Consistent (exec op.run s.link.store).2.messages.rows := by
  obtain ⟨keep, new, _, hlen, hnew, hrows⟩ := (rowsChange_storeOp op).exec s.link.store
  have hkept : Consistent (s.link.store.messages.rows.filter keep) :=
    hs.subset fun m hm => List.mem_of_mem_filter hm
  rw [hrows]
  match new, hlen with
  | [], _ => rwa [List.append_nil]
  | [m], _ =>
      have hm := hnew m (by simp)
      cases op with
      | smsMessage addr raw csms =>
          obtain ⟨hnum, hpdu, hcsms, _⟩ := hm
          obtain ⟨⟨pdu, htry, _, hfiled⟩, hdistinct⟩ := hop
          refine hkept.insert (fun d hd => ?_) fun cd hcd => ?_
          · obtain ⟨raw', hraw', hdec⟩ := decodePart_eq_ok.mp hd
            rw [hpdu] at hraw'
            cases hraw'
            rw [hcsms, hfiled, csmsDataOf_eq htry hdec]
          · obtain ⟨raw', hraw', hpart⟩ := hcd
            rw [hpdu] at hraw'
            cases hraw'
            obtain ⟨hlow, hhigh, hother⟩ := hdistinct cd hpart
            refine ⟨hlow, hhigh, fun m' hm' cd' hcd' hnum' href => ?_⟩
            exact hother m' (List.mem_of_mem_filter hm') cd' hcd' (hnum'.trans hnum) href
      | waMessage addr text gt ts =>
          obtain ⟨hpdu, _⟩ := hm
          refine hkept.insert (fun d hd => ?_) fun cd hcd => ?_
          · obtain ⟨raw, hraw, _⟩ := decodePart_eq_ok.mp hd
            rw [hpdu] at hraw
            cases hraw
          · obtain ⟨raw, hraw, _⟩ := hcd
            rw [hpdu] at hraw
            cases hraw
      | _ => exact hm.elim

theorem joinsWhole_next {s t : Session} {e : Event}
    (hs : Consistent s.link.store.messages.rows) (hnext : next s e = some t) :
    ∃ ds, Happened s t ds ∧ ∀ d ∈ ds, JoinsWhole d := by
  by_cases hop : ∃ op, e = .storeOp op
  · obtain ⟨op, rfl⟩ := hop
    obtain rfl := storeOp_calls hnext
    exact ⟨[], ⟨fun _ => by simp, ⟨[], List.nil_prefix, by simp⟩, by simp⟩, by simp⟩
  · rcases happened_of_next (fun op h => hop ⟨op, h⟩) hnext with
      ⟨_, hhap⟩ | ⟨u, w, ds, es, hsame, hpass, _, hhap⟩
    · exact ⟨[], hhap, by simp⟩
    · have hu : Consistent u.store.messages.rows := by rwa [hsame.messages]
      exact ⟨ds ++ es, hhap, fun d hd => joinsWhole_of_meantFrom hu (hpass.meantFrom d hd)⟩

theorem consistent_next {s t : Session} {e : Event} (he : Distinct s e)
    (hs : Consistent s.link.store.messages.rows) (hnext : next s e = some t)
    (hout : t.outcome = none) : Consistent t.link.store.messages.rows := by
  by_cases hop : ∃ op, e = .storeOp op
  · obtain ⟨op, rfl⟩ := hop
    obtain rfl := storeOp_calls hnext
    exact consistent_storeOp he hs
  · rcases happened_of_next (fun op h => hop ⟨op, h⟩) hnext with
      ⟨hsame, _⟩ | ⟨u, w, ds, es, hsame, hpass, hend, _⟩
    · rwa [hsame.messages]
    · refine hs.subset fun m hm => ?_
      rw [← (hend hout).1, hpass.did.left, hsame.messages] at hm
      exact List.mem_of_mem_filter hm

/-- In a run whose received parts are all distinct, every event joins whole
messages only. -/
theorem joinsWhole_of_run {s t u : Session} {es : List Event} {e : Event}
    (hs : Consistent s.link.store.messages.rows) (hes : AllSteps next Distinct s es)
    (hrun : run next s es = some t) (hnext : next t e = some u) :
    ∃ ds, Happened t u ds ∧ ∀ d ∈ ds, JoinsWhole d := by
  refine joinsWhole_next (invariant_of_allSteps
    (I := fun s => s.outcome = none → Consistent s.link.store.messages.rows) ?_ hes
    (fun _ => hs) hrun (outcome_of_next hnext)) hnext
  intro s e t he hs hstep
  exact consistent_next he (hs (outcome_of_next hstep)) hstep

/-- The only SMS in a history are those that the modem has received. -/
def FromModem : Event → Prop
  | .storeOp (.smsMessage addr raw csms) => Received addr raw csms
  | _ => True

end Parts

section Deeds

theorem exists_call_of_deed (d : Deed) : ∃ c ∈ d.calls, ∀ id, c ≠ .deleteMessage id := by
  cases d with
  | alone nick text dest row =>
      exact ⟨.sendRawMessage nick text row.groupTarget, by simp [Deed.calls, sendCalls], by simp⟩
  | joined nick text dest target parts =>
      exact ⟨.sendRawMessage nick text target, by simp [Deed.calls, sendCalls], by simp⟩
  | reported nick err => exact ⟨.reportError nick err, by simp [Deed.calls], by simp⟩

/-- If a single text is sent and then some rows are deleted, they are the rows of
a single deed. -/
theorem rows_of_single_text {ds : List Deed} {nick text dest : Str} {target : Option Nat}
    {ids : List Nat} (h : ds.flatMap Deed.calls =
      sendCalls nick text target dest ++ ids.map .deleteMessage) :
    ∃ d, ds = [d] ∧ d.rows.map Message.id = ids := by
  cases ds with
  | nil => simp [sendCalls] at h
  | cons d ds =>
      rw [List.flatMap_cons] at h
      have hrest : ∀ nick' text' target' dest' rows,
          d.calls = sendCalls nick' text' target' dest' ++ deletions rows →
          ds = [] ∧ rows.map Message.id = ids := by
        intro nick' text' target' dest' rows hd
        rw [hd] at h
        simp only [sendCalls, List.cons_append, List.cons.injEq, SenderCall.sendRawMessage.injEq,
          List.append_assoc] at h
        obtain ⟨⟨rfl, rfl, rfl⟩, h⟩ := h
        obtain ⟨hsent, htail⟩ := List.append_inj h (by simp)
        have hnil : ds = [] := by
          cases ds with
          | nil => rfl
          | cons d' ds =>
              obtain ⟨c, hc, hno⟩ := exists_call_of_deed d'
              have hmem : c ∈ ids.map SenderCall.deleteMessage := by
                rw [← htail]
                simp [hc]
              obtain ⟨id, _, rfl⟩ := List.mem_map.mp hmem
              exact absurd rfl (hno id)
        refine ⟨hnil, ?_⟩
        rw [hnil, List.flatMap_nil, List.append_nil] at htail
        have hinj : Function.Injective SenderCall.deleteMessage :=
          fun _ _ he => SenderCall.deleteMessage.inj he
        apply hinj.list_map
        rw [← htail, deletions, List.map_map]
        rfl
      cases d with
      | alone nick' text' dest' row =>
          obtain ⟨rfl, hids⟩ := hrest _ _ _ _ _ rfl
          exact ⟨_, rfl, hids⟩
      | joined nick' text' dest' target' parts =>
          obtain ⟨rfl, hids⟩ := hrest _ _ _ _ _ rfl
          exact ⟨_, rfl, hids⟩
      | reported nick' err =>
          simp [Deed.calls, sendCalls] at h

end Deeds

section Samples

attribute [local instance] Sample.crates

/-- A part of a message of two parts is received from `alice`. -/
def receivePart (seq : UInt8) (text : Str) : Event :=
  .storeOp (.smsMessage Sample.alice (Sample.pdu (some (7, 2, seq)) text) (some 7))

/-- The first part is received twice. -/
def repeating : List Event :=
  .storeOp (.recipient Sample.alice ['a']) :: linking ++
    [receivePart 1 ['h'], receivePart 1 ['h']]

theorem received_part {seq : UInt8} {text : Str}
    (h : Sample.deliverPduTryFrom (Sample.pdu (some (7, 2, seq)) text) =
      .ok ⟨Sample.alice, .ok ⟨text, some ⟨some ⟨7, 2, seq⟩⟩⟩⟩) :
    Received Sample.alice (Sample.pdu (some (7, 2, seq)) text) (some 7) := ⟨_, h, rfl, rfl⟩

theorem repeating_fromModem : ∀ e ∈ repeating, FromModem e := by
  have hpart : FromModem (receivePart 1 ['h']) := received_part rfl
  simp only [repeating, linking, List.cons_append, List.nil_append, List.mem_cons,
    List.not_mem_nil, or_false]
  rintro e (rfl | rfl | rfl | rfl | rfl | rfl | rfl)
  all_goals first | exact hpart | trivial

/-- A part that is received twice is joined with itself. -/
theorem part_joined_with_itself :
    ¬ ∀ (es : List Event) (e : Event) (t u : Session), (∀ e ∈ es, FromModem e) →
      run next sampleStart es = some t → next t e = some u →
      ∃ ds, Happened t u ds ∧ ∀ d ∈ ds, JoinsWhole d := by
  intro h
  have hstart : ((run next sampleStart repeating).map fun t =>
      (t.link.calls, t.link.store.messages.rows.map fun m => (m.id, m.pdu))) =
      some ([], [(1, some (Sample.pdu (some (7, 2, 1)) ['h'])),
        (2, some (Sample.pdu (some (7, 2, 1)) ['h']))]) := by decide +kernel
  have hend : ((run next sampleStart repeating).bind fun t =>
      (next t (.cf .processMessages)).map fun u => (u.outcome, u.link.calls)) =
      some (none, sendCalls ("00AZ00001" : Str) ['h', 'h'] none ("00BAAAAAA" : Str) ++
        [1, 2].map .deleteMessage) := by decide +kernel
  obtain ⟨t, ht, hcalls⟩ := Option.map_eq_some_iff.mp hstart
  rw [ht, Option.bind_some] at hend
  obtain ⟨u, hu, hmade⟩ := Option.map_eq_some_iff.mp hend
  obtain ⟨ds, hhap, hwhole⟩ := h repeating _ t u repeating_fromModem ht hu
  simp only [Prod.mk.injEq] at hcalls hmade
  have hdeeds := hhap.calls hmade.1
  rw [hmade.2, hcalls.1, List.nil_append] at hdeeds
  obtain ⟨d, rfl, hids⟩ := rows_of_single_text hdeeds.symm
  have hseq : ∀ m ∈ d.rows, sequenceNumber m = 1 := by
    intro m hm
    have hrow := List.mem_map_of_mem (f := fun m : Message => (m.id, m.pdu))
      (hhap.stored d (by simp) m hm)
    rw [hcalls.2] at hrow
    have hpdu : m.pdu = some (Sample.pdu (some (7, 2, 1)) ['h']) := by
      simp only [List.mem_cons, Prod.mk.injEq, List.not_mem_nil, or_false] at hrow
      rcases hrow with h | h <;> exact h.2
    have hpart : IsPart m ⟨7, 2, 1⟩ := ⟨_, hpdu, _, ⟨_, rfl, rfl⟩, rfl⟩
    exact sequenceNumber_of_isPart hpart
  have hlen : d.rows.length = 2 := by
    rw [← List.length_map (f := Message.id), hids]
    rfl
  cases d with
  | alone nick text dest row => simp [Deed.rows] at hlen
  | reported nick err => simp [Deed.rows] at hlen
  | joined nick text dest target parts =>
      obtain ⟨n, _, hperm⟩ := hwhole _ (List.mem_singleton.mpr rfl)
      have hones : parts.map sequenceNumber = [1, 1] := by
        have hall : ∀ m ∈ parts, sequenceNumber m = 1 := hseq
        change parts.length = 2 at hlen
        rw [List.map_congr_left hall, List.map_const', hlen]
        rfl
      rw [hones] at hperm
      exact absurd (hperm.nodup_iff.mpr (List.nodup_range' 1)) (by decide)

/-- Both parts are received, and then the link is being established. -/
def completing : List Event :=
  [receivePart 2 ['i'], receivePart 1 ['h'], .storeOp (.recipient Sample.alice ['a'])] ++
    linking.dropLast

theorem pduPart_unique {raw : List UInt8} {cd cd' : ConcatenatedSmsData} (h : PduPart raw cd)
    (h' : PduPart raw cd') : cd' = cd := by
  obtain ⟨d, ⟨pdu, hpdu, hd⟩, hcd⟩ := h
  obtain ⟨d', ⟨pdu', hpdu', hd'⟩, hcd'⟩ := h'
  rw [hpdu] at hpdu'
  cases hpdu'
  rw [hd] at hd'
  cases hd'
  exact Option.some.inj (hcd'.symm.trans hcd)

theorem distinct_completing : AllSteps next Distinct sampleStart completing := by
  have hfirst : PduPart (Sample.pdu (some (7, 2, 2)) ['i']) ⟨7, 2, 2⟩ := ⟨_, ⟨_, rfl, rfl⟩, rfl⟩
  have hsecond : PduPart (Sample.pdu (some (7, 2, 1)) ['h']) ⟨7, 2, 1⟩ := ⟨_, ⟨_, rfl, rfl⟩, rfl⟩
  refine allSteps_cons ⟨received_part rfl, fun cd hcd => ?_⟩ rfl ?_
  · rw [pduPart_unique hfirst hcd]
    exact ⟨by decide, by decide, fun m hm => absurd hm List.not_mem_nil⟩
  refine allSteps_cons ⟨received_part rfl, fun cd hcd => ?_⟩ rfl ?_
  · rw [pduPart_unique hsecond hcd]
    refine ⟨by decide, by decide, fun m hm cd' hcd' _ _ => ?_⟩
    rw [List.mem_singleton.mp hm] at hcd'
    rw [isPart_unique ⟨_, rfl, hfirst⟩ hcd']
    decide
  have hrest : ∀ e ∈ Event.storeOp (.recipient Sample.alice ['a']) :: linking.dropLast,
      ∀ s, Distinct s e := by
    simp [linking, Distinct]
  exact allSteps_of_forall_mem hrest _

theorem joinsWhole_completing : ∃ t u, run next sampleStart completing = some t ∧
    next t (.remote ⟨some ("00B" : Str), .raw ("ENDBURST" : Str) [] none⟩) = some u ∧
    ∃ ds, Happened t u ds ∧ ∀ d ∈ ds, JoinsWhole d := by
  have hrun : ((run next sampleStart completing).bind fun t =>
      next t (.remote ⟨some ("00B" : Str), .raw ("ENDBURST" : Str) [] none⟩)).isSome = true := by
    decide +kernel
  obtain ⟨u, hu⟩ := Option.isSome_iff_exists.mp hrun
  obtain ⟨t, ht, hnext⟩ := Option.bind_eq_some_iff.mp hu
  have hempty : Consistent sampleStart.link.store.messages.rows :=
    ⟨fun _ h => absurd h List.not_mem_nil, fun _ h => absurd h List.not_mem_nil,
      fun _ h => absurd h List.not_mem_nil⟩
  exact ⟨t, u, ht, hnext, joinsWhole_of_run hempty distinct_completing ht hnext⟩

end Samples

end SmsIrc.Reassembly
