import SmsIrc.Reassembly

/-!
A message in parts: it is sent once, whole and in order, when its last part has
been stored.
-/

namespace SmsIrc.SeriesArrival

open SmsIrc.Comm SmsIrc.Database SmsIrc.External SmsIrc.Link SmsIrc.LinkDeeds
open SmsIrc.LinkGhosts SmsIrc.LinkHistory SmsIrc.LinkRuns SmsIrc.LinkSteady
open SmsIrc.MessageTexts SmsIrc.Models SmsIrc.Program SmsIrc.Reassembly SmsIrc.SenderCommon
open SmsIrc.SerialTable SmsIrc.Text SmsIrc.Transition SmsIrc.Util

theorem insertionSort_eq_of_perm {α : Type} (key : α → Nat) {xs ys : List α}
    (hperm : xs.Perm ys) (hys : ys.Pairwise fun a b => key a < key b) :
    xs.insertionSort (fun a b => key a ≤ key b) = ys := by
  have : IsTrans α fun a b => key a ≤ key b := ⟨fun _ _ _ => le_trans⟩
  have : Std.Total fun a b : α => key a ≤ key b := ⟨fun _ _ => le_total _ _⟩
  have hkeys : (ys.map key).Nodup := List.pairwise_map.mpr (hys.imp fun h => Nat.ne_of_lt h)
  have hsorted := (List.perm_insertionSort (fun a b => key a ≤ key b) xs).trans hperm
  refine hsorted.eq_of_pairwise ?_ (List.pairwise_insertionSort _ xs) (hys.imp Nat.le_of_lt)
  intro a b ha hb hab hba
  exact List.inj_on_of_nodup_map hkeys (hsorted.subset ha) hb (le_antisymm hab hba)

theorem eq_singleton_of_mem {α : Type} {xs : List α} {x : α} (h : xs.length ≤ 1)
    (hx : x ∈ xs) : xs = [x] := by
  match xs, h with
  | [y], _ => rw [List.mem_singleton.mp hx]

theorem nodup_of_length_le_one {α : Type} {xs : List α} (h : xs.length ≤ 1) : xs.Nodup := by
  match xs, h with
  | [], _ => exact List.nodup_nil
  | [x], _ => exact List.nodup_singleton x

section Series

variable [Crates]

/-- The parts of one message, in the order of their sequence numbers, with what
their PDUs decode to. -/
structure Series where
  sender : Str
  reference : Nat
  parts : List (List UInt8 × DecodedMessage)
  nonempty : parts ≠ []
  header : ∀ i (hi : i < parts.length), Decodes parts[i].1 parts[i].2 ∧
    ∃ cd, concatenation parts[i].2 = some cd ∧ cd.reference.toNat = reference ∧
      cd.parts.toNat = parts.length ∧ cd.sequence.toNat = i + 1

/-- The rows are filed by their headers. -/
def Filed (l : InspLink) : Prop :=
  ∀ m ∈ l.store.messages.rows, ∀ d, decodePart m = .ok d →
    m.csmsData = (concatenation d).map fun cd => cd.reference.toNat

namespace Series

/-- The text of the whole message. -/
def text (S : Series) : Str := S.parts.flatMap fun p => p.2.text

/-- A row has the sender and the reference of the message. -/
def Has (S : Series) (m : Message) : Prop :=
  m.csmsData = some S.reference ∧ m.phoneNumber = S.sender

/-- The rows that do. -/
def family (S : Series) (l : InspLink) : List Message :=
  concatenatedRows l.store S.sender S.reference

/-- A row that may be stored: it is filed by its header, and it is a part of the
message if it has its sender and its reference. -/
structure RowFits (S : Series) (m : Message) : Prop where
  filed : ∀ d, decodePart m = .ok d →
    m.csmsData = (concatenation d).map fun cd => cd.reference.toNat
  part : S.Has m → ∃ p ∈ S.parts, m.pdu = some p.1 ∧ m.groupTarget = none

/-- All rows may be stored, and no part is there twice. -/
structure Fits (S : Series) (l : InspLink) : Prop where
  rows : ∀ m ∈ l.store.messages.rows, S.RowFits m
  once : ((S.family l).map Message.pdu).Nodup

variable {S : Series}

theorem mem_family {l : InspLink} {m : Message} :
    m ∈ S.family l ↔ m ∈ l.store.messages.rows ∧ S.Has m := by
  simp only [family, concatenatedRows, List.mem_filter, Bool.and_eq_true, decide_eq_true_iff, Has]

theorem length_pos : 0 < S.parts.length := List.length_pos_of_ne_nil S.nonempty

theorem header_of_mem {p : List UInt8 × DecodedMessage} (hp : p ∈ S.parts) :
    Decodes p.1 p.2 ∧ ∃ cd, concatenation p.2 = some cd ∧ cd.reference.toNat = S.reference ∧
      cd.parts.toNat = S.parts.length := by
  obtain ⟨i, hi, rfl⟩ := List.mem_iff_getElem.mp hp
  obtain ⟨hdec, cd, hcd, href, hparts, _⟩ := S.header i hi
  exact ⟨hdec, cd, hcd, href, hparts⟩

theorem sequence_pairwise :
    (S.parts.map Prod.snd).Pairwise fun a b => sequenceOf a < sequenceOf b := by
  rw [List.pairwise_map, List.pairwise_iff_getElem]
  intro i j hi hj hij
  obtain ⟨_, cdi, hcdi, _, _, hseqi⟩ := S.header i hi
  obtain ⟨_, cdj, hcdj, _, _, hseqj⟩ := S.header j hj
  rw [sequenceOf, sequenceOf, hcdi, hcdj]
  change cdi.sequence.toNat < cdj.sequence.toNat
  omega

theorem decodePart_of_has {m : Message} (hm : S.RowFits m) (hhas : S.Has m) :
    ∃ p ∈ S.parts, m.pdu = some p.1 ∧ decodePart m = .ok p.2 := by
  obtain ⟨p, hp, hpdu, _⟩ := hm.part hhas
  exact ⟨p, hp, hpdu, decodePart_eq_ok.mpr ⟨p.1, hpdu, (header_of_mem hp).1⟩⟩

theorem family_pdus {l : InspLink} (hl : S.Fits l) :
    (S.family l).map Message.pdu ⊆ S.parts.map fun p => some p.1 := by
  intro o ho
  obtain ⟨m, hm, rfl⟩ := List.mem_map.mp ho
  obtain ⟨hrow, hhas⟩ := mem_family.mp hm
  obtain ⟨p, hp, hpdu, _⟩ := (hl.rows m hrow).part hhas
  exact List.mem_map.mpr ⟨p, hp, hpdu.symm⟩

/-- The text that a PDU decodes to, or else an empty one. -/
def decodedPdu : Option (List UInt8) → DecodedMessage
  | none => ⟨[], none⟩
  | some raw =>
      match Crates.deliverPduTryFrom raw with
      | .error _ => ⟨[], none⟩
      | .ok pdu =>
          match pdu.decodeMessage with
          | .error _ => ⟨[], none⟩
          | .ok d => d

theorem decodedPdu_of_decodes {raw : List UInt8} {d : DecodedMessage} (h : Decodes raw d) :
    decodedPdu (some raw) = d := by
  obtain ⟨pdu, hpdu, hd⟩ := h
  simp only [decodedPdu, hpdu, hd]

/-- All parts, in whatever order, are joined into the text of the message. -/
theorem joinParts_family {l : InspLink} (hl : S.Fits l) {rows : List Message}
    (hrows : rows.Perm (S.family l)) (hlen : rows.length = S.parts.length) :
    joinParts rows = .ok S.text := by
  have hpdus : (rows.map Message.pdu).Perm (S.parts.map fun p => some p.1) := by
    apply (hrows.map _).trans
    apply (List.subperm_of_subset hl.once (family_pdus hl)).perm_of_length_le
    rw [List.length_map, List.length_map, ← hlen, hrows.length_eq]
  have hdec : rows.mapM decodePart = .ok (rows.map fun m => decodedPdu m.pdu) := by
    refine mapM_of_forall_ok fun m hm => ?_
    obtain ⟨hrow, hhas⟩ := mem_family.mp (hrows.subset hm)
    obtain ⟨p, hp, hpdu, hok⟩ := decodePart_of_has (hl.rows m hrow) hhas
    rw [hok, hpdu, decodedPdu_of_decodes (header_of_mem hp).1]
  have hperm : (rows.map fun m => decodedPdu m.pdu).Perm (S.parts.map Prod.snd) := by
    have h := hpdus.map decodedPdu
    rw [List.map_map, List.map_map] at h
    refine h.trans (List.Perm.of_eq (List.map_congr_left fun p hp => ?_))
    exact decodedPdu_of_decodes (header_of_mem hp).1
  have hheader : ∀ d ∈ rows.map (fun m => decodedPdu m.pdu), (concatenation d).isSome := by
    intro d hd
    obtain ⟨p, hp, rfl⟩ := List.mem_map.mp (hperm.subset hd)
    obtain ⟨_, cd, hcd, _⟩ := header_of_mem hp
    rw [hcd]
    rfl
  rw [joinParts, hdec]
  change sortParts _ >>= _ = _
  rw [sortParts, if_pos (by rw [Bool.or_eq_true, List.all_eq_true]; exact .inr hheader),
    insertionSort_eq_of_perm sequenceOf hperm sequence_pairwise]
  change Except.ok _ = _
  rw [List.flatMap_map]
  rfl

/-- No deed concerns a part of the message. -/
def Untouched (S : Series) (ds : List Deed) : Prop := ∀ d ∈ ds, ∀ m ∈ d.rows, ¬ S.Has m

/-- The deed sends the whole message, made of some rows. -/
def Arrived (S : Series) (rows : List Message) (d : Deed) : Prop :=
  ∃ nick dest parts, d = .joined nick S.text dest none parts ∧ parts.Perm rows

/-- One deed sends the whole message, and no other concerns a part of it. -/
def ArrivesOnce (S : Series) (rows : List Message) (ds : List Deed) : Prop :=
  ∃ before d after, ds = before ++ d :: after ∧ S.Untouched before ∧ S.Arrived rows d ∧
    S.Untouched after

theorem Untouched.append {ds es : List Deed} (hd : S.Untouched ds) (he : S.Untouched es) :
    S.Untouched (ds ++ es) := by
  intro d hmem
  rcases List.mem_append.mp hmem with h | h
  · exact hd d h
  · exact he d h

theorem ArrivesOnce.append {rows : List Message} {ds es : List Deed}
    (hd : S.ArrivesOnce rows ds) (he : S.Untouched es) : S.ArrivesOnce rows (ds ++ es) := by
  obtain ⟨before, d, after, rfl, hbefore, harrived, hafter⟩ := hd
  exact ⟨before, d, after ++ es, by simp, hbefore, harrived, hafter.append he⟩

theorem Untouched.arrives {rows : List Message} {ds es : List Deed}
    (hd : S.Untouched ds) (he : S.ArrivesOnce rows es) : S.ArrivesOnce rows (ds ++ es) := by
  obtain ⟨before, d, after, rfl, hbefore, harrived, hafter⟩ := he
  exact ⟨ds ++ before, d, after, by simp, hd.append hbefore, harrived, hafter⟩

/-- A deed that concerns a part sends the whole message, whose parts are all there. -/
theorem arrived_of_touch {l : InspLink} {msg : Message} {d : Deed} (hmsg : S.RowFits msg)
    (hl : S.Fits l) (hmeant : Meant l msg d) {m : Message} (hm : m ∈ d.rows)
    (hhas : S.Has m) : S.Arrived (S.family l) d ∧ (S.family l).length = S.parts.length := by
  cases d with
  | reported nick err => simp [Deed.rows] at hm
  | alone nick text dest row =>
      obtain ⟨rfl, htext⟩ := hmeant
      rw [List.mem_singleton.mp hm] at hhas
      obtain ⟨p, hp, hpdu, hok⟩ := decodePart_of_has hmsg hhas
      obtain ⟨_, cd, hcd, _⟩ := header_of_mem hp
      cases htext with
      | plain hnone _ _ =>
          rw [hpdu] at hnone
          cases hnone
      | sms hcarries hone =>
          rw [decodePart_eq_ok.mpr hcarries] at hok
          cases hok
          exact absurd (numbered_iff.mpr hcd) (hone cd)
  | joined nick text dest target parts =>
      obtain ⟨rfl, d, cd, hd, hcd, hperm, hlen, hjoin⟩ := hmeant
      obtain ⟨hrow, hfiled⟩ := List.mem_filter.mp (hperm.subset hm)
      rw [Bool.and_eq_true, decide_eq_true_iff, decide_eq_true_iff, hhas.1, hhas.2,
        Option.some.injEq] at hfiled
      have hpart : S.Has msg := by
        refine ⟨?_, hfiled.2.symm⟩
        rw [hmsg.filed d hd, hcd, Option.map_some, hfiled.1]
      obtain ⟨p, hp, hpdu, htarget⟩ := hmsg.part hpart
      obtain ⟨hdec, cd', hcd', _, hparts⟩ := header_of_mem hp
      rw [decodePart_eq_ok.mpr ⟨p.1, hpdu, hdec⟩] at hd
      cases hd
      rw [hcd'] at hcd
      cases hcd
      rw [← hfiled.1, ← hfiled.2] at hperm
      have hall : (S.family l).length = S.parts.length := by
        rw [← hparts, ← hlen, hperm.length_eq]
        rfl
      have htext := joinParts_family hl hperm (hlen.trans hparts)
      rw [hjoin] at htext
      cases htext
      exact ⟨⟨nick, dest, parts, by rw [htarget], hperm⟩, hall⟩

/-- What some deeds mean for the message: nothing, or its arrival. -/
def Outcome (S : Series) (s t : InspLink) (ds : List Deed) : Prop :=
  (S.Untouched ds ∧ S.family t = S.family s) ∨
    (S.ArrivesOnce (S.family s) ds ∧ (S.family s).length = S.parts.length ∧ S.family t = [])

theorem Outcome.append {s t u : InspLink} {ds es : List Deed} (hd : S.Outcome s t ds)
    (he : S.Outcome t u es) : S.Outcome s u (ds ++ es) := by
  rcases hd with ⟨hd, hsame⟩ | ⟨hd, hlen, hgone⟩
  · rcases he with ⟨he, hsame'⟩ | ⟨he, hlen', hgone'⟩
    · exact .inl ⟨hd.append he, hsame'.trans hsame⟩
    · rw [hsame] at he hlen'
      exact .inr ⟨hd.arrives he, hlen', hgone'⟩
  · rcases he with ⟨he, hsame'⟩ | ⟨_, hlen', _⟩
    · exact .inr ⟨hd.append he, hlen, hsame'.trans hgone⟩
    · rw [hgone, List.length_nil] at hlen'
      exact absurd hlen' length_pos.ne

theorem Fits.of_did {s t : InspLink} {ds : List Deed} (hs : S.Fits s) (h : Did ds s t) :
    S.Fits t where
  rows m hm := by
    rw [h.left] at hm
    exact hs.rows m (List.mem_of_mem_filter hm)
  once := by
    refine hs.once.sublist (List.Sublist.map _ ?_)
    rw [family, concatenatedRows, h.left]
    exact List.filter_sublist.filter _

theorem outcome_of_row {msg : Message} {s t : InspLink} {ds : List Deed} (hmsg : S.RowFits msg)
    (hs : S.Fits s) (h : Handled msg s t ds) : S.Outcome s t ds := by
  have hleft : S.family t = (S.family s).filter fun m => m ∉ ds.flatMap Deed.rows := by
    rw [family, concatenatedRows, h.1.left, List.filter_filter]
    rw [family, concatenatedRows, List.filter_filter]
    exact List.filter_congr fun m _ => Bool.and_comm _ _
  have huntouched : S.Untouched ds → S.Outcome s t ds := by
    refine fun hd => .inl ⟨hd, ?_⟩
    rw [hleft, List.filter_eq_self]
    intro m hm
    rw [decide_eq_true_iff, List.mem_flatMap]
    rintro ⟨d, hmem, hrow⟩
    exact hd d hmem m hrow (mem_family.mp hm).2
  rcases h.2 with ⟨d, rfl, hmeant, _⟩ | ⟨rfl, _⟩
  · by_cases htouch : ∃ m ∈ d.rows, S.Has m
    · obtain ⟨m, hm, hhas⟩ := htouch
      obtain ⟨harrived, hlen⟩ := arrived_of_touch hmsg hs hmeant hm hhas
      refine .inr ⟨⟨[], d, [], rfl, by simp [Untouched], harrived, by simp [Untouched]⟩, hlen, ?_⟩
      obtain ⟨nick, dest, parts, rfl, hperm⟩ := harrived
      rw [hleft, List.filter_eq_nil_iff]
      intro q hq
      have hmem : q ∈ parts := hperm.mem_iff.mpr hq
      simp [Deed.rows, hmem]
    · refine huntouched fun d' hd' m hm hhas => htouch ⟨m, ?_, hhas⟩
      rwa [List.mem_singleton.mp hd'] at hm
  · exact huntouched (by simp [Untouched])

theorem outcome_of_processed {msgs : List Message} {s t : InspLink} {ds : List Deed}
    (h : Processed msgs s t ds) (hmsgs : ∀ m ∈ msgs, S.RowFits m) (hs : S.Fits s) :
    S.Outcome s t ds := by
  induction h with
  | nil l => exact .inl ⟨by simp [Untouched], rfl⟩
  | @cons msg msgs s t u ds es hrow hrest ih =>
      exact (outcome_of_row (hmsgs msg (by simp)) hs hrow).append
        (ih (fun m hm => hmsgs m (by simp [hm])) (hs.of_did hrow.1))

theorem Fits.of_idle {s t : InspLink} (hs : S.Fits s) (h : Idle s t) : S.Fits t :=
  hs.of_did (did_of_idle h)

theorem family_of_messages {s t : InspLink} (h : t.store.messages = s.store.messages) :
    S.family t = S.family s := by
  rw [family, family, concatenatedRows, concatenatedRows, h]

/-- A run of `process_messages`, up to the deed that may have been interrupted. -/
theorem outcome_of_pass {u w v : InspLink} {ds es : List Deed} (h : PassTo u w v ds es)
    (hu : S.Fits u) :
    (S.Untouched (ds ++ es) ∧ S.family w = S.family u) ∨
      (S.ArrivesOnce (S.family u) (ds ++ es) ∧ (S.family u).length = S.parts.length ∧
        (es = [] → S.family w = [])) := by
  have hdid := h.did
  obtain ⟨msgs, hmsgs, u', hidle, hpass⟩ := h.pass
  have hfamily : S.family u' = S.family u := family_of_messages hidle.messages
  have hout : S.Outcome u w ds := by
    have hout := outcome_of_processed hpass (fun m hm => hu.rows m (hmsgs m hm))
      (hu.of_idle hidle)
    rwa [Outcome, hfamily] at hout
  have hw : S.Fits w := hu.of_did hdid
  by_cases htouch : ∃ d ∈ es, ∃ m ∈ d.rows, S.Has m
  · obtain ⟨d, hd, m, hm, hhas⟩ := htouch
    obtain ⟨msg, hmsg, hmeant⟩ := h.last.2 d hd
    obtain ⟨harrived, hlen⟩ := arrived_of_touch (hu.rows msg hmsg) hw hmeant hm hhas
    have hes : es = [d] := eq_singleton_of_mem h.last.1 hd
    rcases hout with ⟨hunt, hsame⟩ | ⟨_, _, hgone⟩
    · rw [hsame] at harrived hlen
      exact .inr ⟨hunt.arrives ⟨[], d, [], hes, by simp [Untouched], harrived,
        by simp [Untouched]⟩, hlen, by simp [hes]⟩
    · rw [hgone, List.length_nil] at hlen
      exact absurd hlen length_pos.ne
  · have hes : S.Untouched es := fun d hd m hm hhas => htouch ⟨d, hd, m, hm, hhas⟩
    rcases hout with ⟨hunt, hsame⟩ | ⟨harr, hlen, hgone⟩
    · exact .inl ⟨hunt.append hes, hsame⟩
    · exact .inr ⟨harr.append hes, hlen, fun _ => hgone⟩

/-- What a received SMS may be, if it has the sender and the reference of the
message: one of its parts that is not stored already. -/
def Admits (S : Series) (s : Session) : Event → Prop
  | .storeOp (.smsMessage addr raw csms) => Received addr raw csms ∧
      (csms = some S.reference → normalizeAddress addr = S.sender →
        (∃ p ∈ S.parts, raw = p.1) ∧ some raw ∉ (S.family s.link).map Message.pdu)
  | _ => True

/-- Something happens before the last part is stored. -/
def Collecting (S : Series) (s : Session) (e : Event) : Prop :=
  (S.family s.link).length < S.parts.length ∧ S.Admits s e

/-- Something happens that is not the receipt of a part. -/
def Elsewhere (S : Series) (_ : Session) : Event → Prop
  | .storeOp (.smsMessage addr raw csms) => Received addr raw csms ∧
      ¬ (csms = some S.reference ∧ normalizeAddress addr = S.sender)
  | _ => True

theorem admits_of_elsewhere {s : Session} {e : Event} (h : S.Elsewhere s e) : S.Admits s e := by
  unfold Elsewhere at h
  unfold Admits
  split
  · exact ⟨h.1, fun hcsms haddr => absurd ⟨hcsms, haddr⟩ h.2⟩
  · trivial

theorem rowFits_of_stored {s : Session} {op : StoreOp} (hop : S.Admits s (.storeOp op))
    {m : Message} (hm : StoredBy op m) :
    S.RowFits m ∧ (S.Has m → m.pdu ∉ (S.family s.link).map Message.pdu) := by
  cases op with
  | smsMessage addr raw csms =>
      obtain ⟨hnum, hpdu, hcsms, htarget⟩ := hm
      obtain ⟨⟨pdu, htry, _, hfiled⟩, hnew⟩ := hop
      refine ⟨⟨fun d hd => ?_, fun hhas => ?_⟩, fun hhas => ?_⟩
      · obtain ⟨raw', hraw', hdec⟩ := decodePart_eq_ok.mp hd
        rw [hpdu] at hraw'
        cases hraw'
        rw [hcsms, hfiled, csmsDataOf_eq htry hdec]
      · obtain ⟨⟨p, hp, rfl⟩, _⟩ := hnew (hcsms ▸ hhas.1) (hnum ▸ hhas.2)
        exact ⟨p, hp, hpdu, htarget⟩
      · rw [hpdu]
        exact (hnew (hcsms ▸ hhas.1) (hnum ▸ hhas.2)).2
  | waMessage addr text gt ts =>
      obtain ⟨hpdu, hcsms⟩ := hm
      refine ⟨⟨fun d hd => ?_, fun hhas => ?_⟩, fun hhas => ?_⟩
      · obtain ⟨raw, hraw, _⟩ := decodePart_eq_ok.mp hd
        rw [hpdu] at hraw
        cases hraw
      · rw [Has, hcsms] at hhas
        cases hhas.1
      · rw [Has, hcsms] at hhas
        cases hhas.1
  | _ => exact hm.elim

/-- A use of the database leaves the parts alone, but for a part that it stores. -/
theorem family_of_storeOp {s t : Session} {op : StoreOp} (hs : S.Fits s.link)
    (hop : S.Admits s (.storeOp op)) (hnext : next s (.storeOp op) = some t) :
    S.Fits t.link ∧
      ((∀ m, StoredBy op m → ¬ S.Has m) → S.family t.link = S.family s.link) := by
  obtain rfl := storeOp_calls hnext
  obtain ⟨keep, new, hkeep, hlen, hnew, hrows⟩ := (rowsChange_storeOp op).exec s.link.store
  have hkept : (s.link.store.messages.rows.filter keep).filter
      (fun m => m.csmsData = some S.reference && m.phoneNumber = S.sender) =
        S.family s.link := by
    rw [family, concatenatedRows, List.filter_filter]
    refine List.filter_congr fun m hm => ?_
    by_cases hhas : S.Has m
    · obtain ⟨_, _, _, htarget⟩ := (hs.rows m hm).part hhas
      simp [hkeep m htarget]
    · rw [Has, ← decide_eq_true_iff (p := _ ∧ _), Bool.decide_and, Bool.not_eq_true] at hhas
      rw [hhas, Bool.false_and]
  have hfamily : S.family { s.link with store := (exec op.run s.link.store).2 } =
      S.family s.link ++ new.filter
        (fun m => m.csmsData = some S.reference && m.phoneNumber = S.sender) := by
    rw [← hkept, ← List.filter_append, ← hrows]
    rfl
  have hmem : ∀ m ∈ new.filter
      (fun m => m.csmsData = some S.reference && m.phoneNumber = S.sender), m ∈ new ∧ S.Has m := by
    intro m hm
    simpa [Has] using hm
  refine ⟨⟨fun m hm => ?_, ?_⟩, fun hno => ?_⟩
  · have hm' : m ∈ s.link.store.messages.rows.filter keep ++ new := hrows ▸ hm
    rcases List.mem_append.mp hm' with hm' | hm'
    · exact hs.rows m (List.mem_of_mem_filter hm')
    · exact (rowFits_of_stored hop (hnew m hm')).1
  · rw [hfamily, List.map_append, List.nodup_append]
    refine ⟨hs.once, ?_, ?_⟩
    · have hshort : (new.filter
          (fun m => m.csmsData = some S.reference && m.phoneNumber = S.sender)).length ≤ 1 :=
        (List.length_filter_le _ _).trans hlen
      exact nodup_of_length_le_one (by rwa [List.length_map])
    · rintro o ho _ ho' rfl
      obtain ⟨m, hm, rfl⟩ := List.mem_map.mp ho'
      obtain ⟨hmnew, hhas⟩ := hmem m hm
      exact (rowFits_of_stored hop (hnew m hmnew)).2 hhas ho
  · rw [hfamily]
    have hnone : new.filter
        (fun m => m.csmsData = some S.reference && m.phoneNumber = S.sender) = [] :=
      List.filter_eq_nil_iff.mpr fun m hm hhas =>
        hno m (hnew m hm) (by simpa [Has] using hhas)
    rw [hnone, List.append_nil]

theorem outcome_of_next {s t : Session} {e : Event} (hs : S.Fits s.link)
    (he : S.Admits s e) (hnext : next s e = some t) : ∃ ds, Happened s t ds ∧
      (t.outcome = none → S.Fits t.link) ∧
      ((S.Untouched ds ∧
          (t.outcome = none → S.Elsewhere s e → S.family t.link = S.family s.link)) ∨
        (S.ArrivesOnce (S.family s.link) ds ∧ (S.family s.link).length = S.parts.length ∧
          (t.outcome = none → S.family t.link = []))) := by
  by_cases hop : ∃ op, e = .storeOp op
  · obtain ⟨op, rfl⟩ := hop
    obtain ⟨hfits, hfamily⟩ := family_of_storeOp hs he hnext
    refine ⟨[], ?_, fun _ => hfits, .inl ⟨by simp [Untouched], fun _ hels => hfamily ?_⟩⟩
    · obtain rfl := storeOp_calls hnext
      exact ⟨fun _ => by simp, ⟨[], List.nil_prefix, by simp⟩, by simp⟩
    · intro m hm hhas
      cases op with
      | smsMessage addr raw csms =>
          obtain ⟨hnum, _, hcsms, _⟩ := hm
          exact hels.2 ⟨hcsms ▸ hhas.1, hnum ▸ hhas.2⟩
      | waMessage addr text gt ts =>
          rw [Has, hm.2] at hhas
          cases hhas.1
      | _ => exact hm.elim
  · rcases happened_of_next (fun op h => hop ⟨op, h⟩) hnext with
      ⟨hsame, hhap⟩ | ⟨u, w, ds, es, hsame, hpass, hend, hhap⟩
    · refine ⟨[], hhap, fun _ => ?_, .inl ⟨by simp [Untouched], fun _ _ => ?_⟩⟩
      · exact ⟨by rw [hsame.messages]; exact hs.rows,
          by rw [family_of_messages hsame.messages]; exact hs.once⟩
      · exact family_of_messages hsame.messages
    · have hfamily : S.family u = S.family s.link := family_of_messages hsame.messages
      have hu : S.Fits u :=
        ⟨by rw [hsame.messages]; exact hs.rows, by rw [hfamily]; exact hs.once⟩
      have hout := outcome_of_pass hpass hu
      rw [hfamily] at hout
      refine ⟨ds ++ es, hhap, fun hnone => ?_, ?_⟩
      · rw [← (hend hnone).1]
        exact hu.of_did hpass.did
      · rcases hout with ⟨hunt, hsame'⟩ | ⟨harr, hlen, hgone⟩
        · exact .inl ⟨hunt, fun hnone _ => by rw [← (hend hnone).1, hsame']⟩
        · exact .inr ⟨harr, hlen, fun hnone => by
            rw [← (hend hnone).1, hgone (hend hnone).2]⟩

theorem untouched_of_collecting {s t : Session} {es : List Event}
    (hs : s.outcome = none → S.Fits s.link) (hes : AllSteps next S.Collecting s es)
    (hrun : run next s es = some t) : ∃ ds, Trace s es t ds ∧ S.Untouched ds ∧
      (t.outcome = none → S.Fits t.link) := by
  induction es generalizing s with
  | nil =>
      cases hrun
      exact ⟨[], .nil _, by simp [Untouched], hs⟩
  | cons e es ih =>
      rw [run_cons, Option.bind_eq_some_iff] at hrun
      obtain ⟨u, hu, hrest⟩ := hrun
      obtain ⟨⟨hlt, hadmits⟩, hes⟩ := hes
      obtain ⟨ds, hhap, hfits, hout⟩ := outcome_of_next (hs (LinkRuns.outcome_of_next hu)) hadmits hu
      obtain ⟨ds', htrace, hunt', hfits'⟩ := ih hfits (hes u hu) hrest
      rcases hout with ⟨hunt, _⟩ | ⟨_, hlen, _⟩
      · exact ⟨ds ++ ds', .cons hu hhap htrace, hunt.append hunt', hfits'⟩
      · omega

theorem outcome_of_elsewhere {s t : Session} {es : List Event}
    (hs : s.outcome = none → S.Fits s.link) (hes : AllSteps next S.Elsewhere s es)
    (hrun : run next s es = some t) : ∃ ds, Trace s es t ds ∧
      (t.outcome = none → S.Fits t.link) ∧
      ((S.Untouched ds ∧ (t.outcome = none → S.family t.link = S.family s.link)) ∨
        (S.ArrivesOnce (S.family s.link) ds ∧ (S.family s.link).length = S.parts.length ∧
          (t.outcome = none → S.family t.link = []))) := by
  induction es generalizing s with
  | nil =>
      cases hrun
      exact ⟨[], .nil _, hs, .inl ⟨by simp [Untouched], fun _ => rfl⟩⟩
  | cons e es ih =>
      rw [run_cons, Option.bind_eq_some_iff] at hrun
      obtain ⟨u, hu, hrest⟩ := hrun
      obtain ⟨hels, hes⟩ := hes
      obtain ⟨ds, hhap, hfits, hout⟩ :=
        outcome_of_next (hs (LinkRuns.outcome_of_next hu)) (admits_of_elsewhere hels) hu
      obtain ⟨ds', htrace, hfits', hout'⟩ := ih hfits (hes u hu) hrest
      refine ⟨ds ++ ds', .cons hu hhap htrace, hfits', ?_⟩
      by_cases halive : u.outcome = none
      · rcases hout with ⟨hunt, hsame⟩ | ⟨harr, hlen, hgone⟩
        · rw [hsame halive hels] at hout'
          rcases hout' with ⟨hunt', hsame'⟩ | ⟨harr', hlen', hgone'⟩
          · exact .inl ⟨hunt.append hunt', hsame'⟩
          · exact .inr ⟨hunt.arrives harr', hlen', hgone'⟩
        · rw [hgone halive] at hout'
          rcases hout' with ⟨hunt', hsame'⟩ | ⟨_, hlen', _⟩
          · exact .inr ⟨harr.append hunt', hlen, hsame'⟩
          · exact absurd hlen' length_pos.ne
      · cases htrace with
        | nil =>
            rw [List.append_nil]
            exact hout.imp (fun h => ⟨h.1, fun hnone => absurd hnone halive⟩)
              fun h => ⟨h.1, h.2.1, h.2.2⟩
        | cons hnext => exact absurd (LinkRuns.outcome_of_next hnext) halive

/-- Once all parts are stored, dealing with the row of one sends the message. -/
theorem untouched_not_has {msg : Message} {s t : InspLink} {ds : List Deed}
    (hmsg : S.RowFits msg) (h : Handled msg s t ds)
    (hall : (S.family s).length = S.parts.length)
    (hrec : ∀ a, unNormalizeAddress S.sender = some a → HasRecipient s.store a)
    (hds : S.Untouched ds) : ¬ S.Has msg := by
  intro hhas
  obtain ⟨p, hp, hpdu, hok⟩ := decodePart_of_has hmsg hhas
  obtain ⟨_, cd, hcd, href, hparts⟩ := header_of_mem hp
  have hfamily : concatenatedRows s.store msg.phoneNumber cd.reference.toNat = S.family s := by
    rw [hhas.2, href, family]
  rcases h.2 with ⟨d, rfl, hmeant, _⟩ | ⟨rfl, ⟨a, ha, _, hno⟩ | ⟨d, cd', hok', hcd', hlen⟩⟩
  · cases d with
    | reported nick err =>
        obtain ⟨e, he⟩ := hmeant
        rw [hok] at he
        cases he
    | alone nick text dest row =>
        refine hds _ (List.mem_singleton.mpr rfl) msg ?_ hhas
        rw [Deed.rows, hmeant.1]
        exact List.mem_singleton.mpr rfl
    | joined nick text dest target parts =>
        obtain ⟨_, d, cd', hok', hcd', hperm, _⟩ := hmeant
        rw [hok] at hok'
        cases hok'
        rw [hcd] at hcd'
        cases hcd'
        rw [hfamily] at hperm
        have hpos : 0 < parts.length := by
          rw [hperm.length_eq, hall]
          exact length_pos
        obtain ⟨m, hm⟩ := List.exists_mem_of_length_pos hpos
        exact hds _ (List.mem_singleton.mpr rfl) m hm (mem_family.mp (hperm.subset hm)).2
  · exact hno (hrec a (hhas.2 ▸ ha))
  · rw [hok] at hok'
    cases hok'
    rw [hcd] at hcd'
    cases hcd'
    rw [hfamily, hall, hparts] at hlen
    exact hlen rfl

/-- Once all parts are stored, a pass that meets one of them sends the message. -/
theorem arrives_of_processed {msgs : List Message} {s t : InspLink} {ds : List Deed}
    (h : Processed msgs s t ds) (hmsgs : ∀ m ∈ msgs, S.RowFits m) (hs : S.Fits s)
    (hall : (S.family s).length = S.parts.length)
    (hrec : ∀ a, unNormalizeAddress S.sender = some a → HasRecipient s.store a)
    (hmet : ∃ m ∈ msgs, S.Has m) : S.ArrivesOnce (S.family s) ds ∧ S.family t = [] := by
  induction h with
  | nil l =>
      obtain ⟨m, hm, _⟩ := hmet
      cases hm
  | @cons msg msgs s t u ds es hrow hrest ih =>
      have ht : S.Fits t := hs.of_did hrow.1
      have hmsgs' : ∀ m ∈ msgs, S.RowFits m := fun m hm => hmsgs m (by simp [hm])
      rcases outcome_of_row (hmsgs msg (by simp)) hs hrow with ⟨hunt, hsame⟩ | ⟨harr, _, hgone⟩
      · have hmet' : ∃ m ∈ msgs, S.Has m := by
          obtain ⟨m, hm, hhas⟩ := hmet
          rcases List.mem_cons.mp hm with rfl | hm
          · exact absurd hhas (untouched_not_has (hmsgs m (by simp)) hrow hall hrec hunt)
          · exact ⟨m, hm, hhas⟩
        obtain ⟨harr, hgone⟩ := ih hmsgs' ht (by rw [hsame, hall])
          (fun a ha => hrow.1.steady.recipients a (hrec a ha)) hmet'
        rw [hsame] at harr
        exact ⟨hunt.arrives harr, hgone⟩
      · rcases outcome_of_processed hrest hmsgs' ht with ⟨hunt, hsame⟩ | ⟨_, hlen, _⟩
        · exact ⟨harr.append hunt, hsame.trans hgone⟩
        · rw [hgone, List.length_nil] at hlen
          exact absurd hlen length_pos.ne

/-- A run of `process_messages` that succeeds, when all parts are stored and both
the admin and the recipient are there, sends the message. -/
theorem arrives_of_run {v w : InspLink} {x : Str} (hv : S.Fits v)
    (hall : (S.family v).length = S.parts.length) (hadmin : IsAdmin v x)
    (hrec : ∀ a, unNormalizeAddress S.sender = some a → HasRecipient v.store a)
    (hrun : exec processMessages v = (.ok (), w)) :
    ∃ ds, Did ds v w ∧ S.ArrivesOnce (S.family v) ds ∧ S.family w = [] := by
  have htick : Idle v { v with store := v.store.tick } := idle_store rfl rfl fun _ h => h
  rcases wp_of_ok hrun (wp_processMessages_deeds v) with ⟨hnone, _⟩ | ⟨_, ds, hds⟩
  · obtain ⟨u, hu⟩ := adminUuid_of_isAdmin hadmin
    rw [hu] at hnone
    cases hnone
  obtain ⟨m, hm⟩ := List.exists_mem_of_length_pos (hall ▸ length_pos)
  obtain ⟨hrow, hhas⟩ := mem_family.mp hm
  have harr := arrives_of_processed hds (fun m hm => hv.rows m (mem_snapshot.mp hm))
    (hv.of_idle htick) hall (fun a ha => htick.recipients a (hrec a ha))
    ⟨m, mem_snapshot.mpr hrow, hhas⟩
  exact ⟨ds, (did_of_idle htick).append hds.did, harr⟩

/-- What the message is owed in a state in which all its parts are stored: as long
as no more of them are received, it is sent at most once, and it has been sent when
`process_messages` has ended as it should with the admin and the recipient there. -/
def Owed (S : Series) (Ends : Except Failure Unit → Prop) (t : Session) : Prop :=
  ∀ (fs : List Event) (u : Session), AllSteps next S.Elsewhere t fs → run next t fs = some u →
    ∃ after, Trace t fs u after ∧
      (S.Untouched after ∨ S.ArrivesOnce (S.family t.link) after) ∧
      (u.outcome = none → ∀ (v w : InspLink) (x : Str) (r : Except Failure Unit),
        v.store.messages = u.link.store.messages → IsAdmin v x →
        (∀ a, unNormalizeAddress S.sender = some a → HasRecipient v.store a) →
        exec processMessages v = (r, w) → Ends r →
        ∃ ds, w.calls = v.calls ++ ds.flatMap Deed.calls ∧
          S.ArrivesOnce (S.family t.link) (after ++ ds) ∧ S.family w = [])

theorem owed_of_fits {t : Session} (ht : t.outcome = none → S.Fits t.link)
    (hall : (S.family t.link).length = S.parts.length) : S.Owed (· = .ok ()) t := by
  intro fs u hfs hrun
  obtain ⟨after, htrace, hu, hout⟩ := outcome_of_elsewhere ht hfs hrun
  refine ⟨after, htrace, hout.imp And.left And.left, ?_⟩
  rintro halive v w x _ hsame hadmin hrec hexec rfl
  have hfamily : S.family v = S.family u.link := family_of_messages hsame
  have hv : S.Fits v :=
    ⟨by rw [hsame]; exact (hu halive).rows, by rw [hfamily]; exact (hu halive).once⟩
  rcases hout with ⟨hunt, hkept⟩ | ⟨harr, _, hgone⟩
  · rw [hkept halive] at hfamily
    obtain ⟨ds, hdid, harr, hgone⟩ :=
      arrives_of_run hv (by rw [hfamily, hall]) hadmin hrec hexec
    rw [hfamily] at harr
    exact ⟨ds, hdid.calls, hunt.arrives harr, hgone⟩
  · rw [hgone halive] at hfamily
    rcases wp_of_ok hexec (wp_processMessages_deeds v) with ⟨_, rfl⟩ | ⟨_, ds, hds⟩
    · exact ⟨[], by simp, by rwa [List.append_nil], hfamily⟩
    · have htick : Idle v { v with store := v.store.tick } := idle_store rfl rfl fun _ h => h
      rcases outcome_of_processed hds (fun m hm => hv.rows m (mem_snapshot.mp hm))
        (hv.of_idle htick) with ⟨hunt, hsame'⟩ | ⟨_, hlen, _⟩
      · exact ⟨ds, ((did_of_idle htick).append hds.did).calls, harr.append hunt,
          hsame'.trans hfamily⟩
      · change (S.family v).length = _ at hlen
        rw [hfamily, List.length_nil] at hlen
        exact absurd hlen length_pos.ne

theorem fits_of_filed {l : InspLink} (hl : Filed l) (hnone : S.family l = []) : S.Fits l where
  rows m hm := ⟨hl m hm, fun hhas => by
    have hmem := mem_family.mpr ⟨hm, hhas⟩
    rw [hnone] at hmem
    cases hmem⟩
  once := by rw [hnone]; exact List.nodup_nil

/-- While the parts are collected in any order nothing is sent, and once they are
there the message arrives once, whole and in order. -/
theorem arrives_of_collecting {s t : Session} {es : List Event} (hs : Filed s.link)
    (hnone : S.family s.link = []) (hes : AllSteps next S.Collecting s es)
    (hrun : run next s es = some t) : ∃ before, Trace s es t before ∧ S.Untouched before ∧
      ((S.family t.link).length = S.parts.length → S.Owed (· = .ok ()) t) := by
  obtain ⟨before, htrace, hunt, ht⟩ :=
    untouched_of_collecting (fun _ => fits_of_filed hs hnone) hes hrun
  exact ⟨before, htrace, hunt, owed_of_fits ht⟩

end Series

end Series

section Samples

attribute [local instance] Sample.crates

/-- A message from `alice` in two parts. -/
def twoParts : Series where
  sender := normalizeAddress Sample.alice
  reference := 7
  parts := [(Sample.pdu (some (7, 2, 1)) ['h'], ⟨['h'], some ⟨some ⟨7, 2, 1⟩⟩⟩),
    (Sample.pdu (some (7, 2, 2)) ['i'], ⟨['i'], some ⟨some ⟨7, 2, 2⟩⟩⟩)]
  nonempty := by simp
  header i hi := by
    match i, hi with
    | 0, _ => exact ⟨⟨_, rfl, rfl⟩, _, rfl, rfl, rfl, rfl⟩
    | 1, _ => exact ⟨⟨_, rfl, rfl⟩, _, rfl, rfl, rfl, rfl⟩

/-- The parts are received, the last one first. -/
def collecting : List Event :=
  .storeOp (.recipient Sample.alice ['a']) :: linking ++
    [receivePart 2 ['i'], receivePart 1 ['h']]

/-- A start with a database that fails at some of its queries. -/
def startOf (down : Nat → Bool) : Session :=
  initial sampleConfig { Sample.store with dbDown := down } 0

/-- The PDU of an event is not stored. -/
def newTo (pdus : List (Option (List UInt8))) : Option Event → Bool
  | some (.storeOp (.smsMessage _ raw _)) => some raw ∉ pdus
  | _ => true

/-- Before each event a part is missing that the event does not receive again. -/
def collects (down : Nat → Bool) (es : List Event) : Bool :=
  (List.range es.length).all fun k =>
    ((run next (startOf down) (es.take k)).map fun t =>
      (twoParts.family t.link).map Message.pdu).all fun pdus => pdus.length < 2 && newTo pdus es[k]?

theorem received_collecting {addr : PduAddress} {raw : List UInt8} {csms : Option Nat}
    (h : Event.storeOp (.smsMessage addr raw csms) ∈ collecting) :
    Received addr raw csms ∧ (csms = some twoParts.reference →
      normalizeAddress addr = twoParts.sender → ∃ p ∈ twoParts.parts, raw = p.1) := by
  simp only [collecting, List.mem_append, linking, List.mem_cons, List.not_mem_nil, or_false,
    receivePart, Event.storeOp.injEq, StoreOp.smsMessage.injEq, reduceCtorEq, false_or] at h
  rcases h with ⟨rfl, rfl, rfl⟩ | ⟨rfl, rfl, rfl⟩
  · exact ⟨received_part rfl, fun _ _ => ⟨twoParts.parts[1], List.getElem_mem _, rfl⟩⟩
  · exact ⟨received_part rfl, fun _ _ => ⟨twoParts.parts[0], List.getElem_mem _, rfl⟩⟩

theorem collecting_steps {down : Nat → Bool} (hcollects : collects down collecting = true) :
    AllSteps next twoParts.Collecting (startOf down) collecting := by
  refine allSteps_of_take fun k e t hk ht => ?_
  obtain ⟨hlen, _⟩ := List.getElem?_eq_some_iff.mp hk
  have hbefore := List.all_eq_true.mp hcollects k (List.mem_range.mpr hlen)
  rw [ht, Option.map_some, Option.all_some, Bool.and_eq_true, decide_eq_true_iff,
    List.length_map, hk] at hbefore
  refine ⟨hbefore.1, ?_⟩
  unfold Series.Admits
  split
  · obtain ⟨hrec, hpart⟩ := received_collecting (List.mem_of_getElem? hk)
    exact ⟨hrec, fun hcsms haddr => ⟨hpart hcsms haddr, by simpa [newTo] using hbefore.2⟩⟩
  · trivial

theorem filed_startOf (down : Nat → Bool) : Filed (startOf down).link :=
  fun _ h => absurd h List.not_mem_nil

theorem arrives_of_collecting_twoParts : ∃ t before,
    run next (startOf fun _ => false) collecting = some t ∧
      Trace (startOf fun _ => false) collecting t before ∧ twoParts.Untouched before ∧
      twoParts.Owed (· = .ok ()) t := by
  have hall : (run next (startOf fun _ => false) collecting).map
      (fun t => (twoParts.family t.link).length) = some 2 := by decide +kernel
  obtain ⟨t, ht, hlen⟩ := Option.map_eq_some_iff.mp hall
  obtain ⟨before, htrace, hunt, howed⟩ := Series.arrives_of_collecting (filed_startOf _) rfl
    (collecting_steps (by decide +kernel)) ht
  exact ⟨t, before, ht, htrace, hunt, howed hlen⟩

/-- The query that asks for all rows, when the parts have been received. -/
def snapshotFails (n : Nat) : Bool := n = 9

/-- A run that cannot ask for the rows comes to none of the parts. -/
theorem parts_kept_by_database :
    ¬ ∀ (S : Series) (s t : Session) (es : List Event), Filed s.link → S.family s.link = [] →
      AllSteps next S.Collecting s es → run next s es = some t →
      ∃ before, Trace s es t before ∧ S.Untouched before ∧
        ((S.family t.link).length = S.parts.length → S.Owed (fun _ => True) t) := by
  intro h
  have hstart : (run next (startOf snapshotFails) collecting).map (fun t =>
      ((twoParts.family t.link).length, t.outcome, t.link.calls)) = some (2, none, []) := by
    decide +kernel
  have hthere : (run next (startOf snapshotFails) collecting).map (fun t =>
      (adminUuid t.link, t.link.store.recipients.rows.map Recipient.phoneNumber)) =
      some (some ("00BAAAAAA" : Str), [normalizeAddress Sample.alice]) := by decide +kernel
  have hend : (run next (startOf snapshotFails) collecting).map (fun t =>
      (exec processMessages t.link).2.calls) = some [] := by decide +kernel
  obtain ⟨t, ht, hstart⟩ := Option.map_eq_some_iff.mp hstart
  rw [ht, Option.map_some, Option.some.injEq, Prod.mk.injEq] at hthere
  rw [ht, Option.map_some, Option.some.injEq] at hend
  simp only [Prod.mk.injEq] at hstart
  obtain ⟨hlen, halive, hcalls⟩ := hstart
  obtain ⟨_, _, _, howed⟩ := h twoParts (startOf snapshotFails) t _ (filed_startOf _) rfl
    (collecting_steps (by decide +kernel)) ht
  obtain ⟨after, htrace, _, hrun⟩ := howed hlen [] t trivial rfl
  cases htrace
  have hrec : ∀ a, unNormalizeAddress twoParts.sender = some a →
      HasRecipient t.link.store a := by
    intro a ha
    have halice : a = Sample.alice :=
      Option.some.inj (ha.symm.trans Sample.readsBack_alice)
    have hmem : normalizeAddress Sample.alice ∈
        t.link.store.recipients.rows.map Recipient.phoneNumber := by
      rw [hthere.2]
      exact List.mem_singleton.mpr rfl
    obtain ⟨r, hr, hnum⟩ := List.mem_map.mp hmem
    exact ⟨r, hr, halice ▸ hnum⟩
  obtain ⟨ds, hmade, ⟨_, d, _, hds, _, ⟨nick, dest, parts, rfl, _⟩, _⟩, _⟩ :=
    hrun halive t.link (exec processMessages t.link).2 _ _ rfl
      (isAdmin_of_adminUuid hthere.1) hrec rfl trivial
  rw [hend, hcalls, List.nil_append] at hmade
  rw [List.nil_append] at hds
  have hcall : SenderCall.sendRawMessage nick twoParts.text none ∈ ds.flatMap Deed.calls :=
    List.mem_flatMap.mpr ⟨.joined nick twoParts.text dest none parts, by rw [hds]; simp,
      by simp [Deed.calls, sendCalls]⟩
  rw [← hmade] at hcall
  cases hcall

end Samples

end SmsIrc.SeriesArrival
