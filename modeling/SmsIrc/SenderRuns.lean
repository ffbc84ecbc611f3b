import SmsIrc.Fragments
import SmsIrc.Sample

/-!
What a sender does with a text, whatever the sender: its calls in order.
-/

namespace SmsIrc.SenderRuns

open SmsIrc.Database SmsIrc.External SmsIrc.Fragments SmsIrc.Models SmsIrc.Program
open SmsIrc.SenderCommon SmsIrc.Text SmsIrc.Util

/-- The chunks among the calls. -/
def handedOn (cs : List SenderCall) : List Str :=
  cs.filterMap fun
    | .sendIrcMessage _ _ msg => some msg
    | _ => none

theorem handedOn_map (nick dest : Str) (msgs : List Str) :
    handedOn (msgs.map (.sendIrcMessage nick dest)) = msgs := by
  induction msgs with
  | nil => rfl
  | cons m msgs ih =>
      rw [List.map_cons, handedOn, List.filterMap_cons]
      exact congrArg _ ih

/-- Any sender, together with a record of its calls. -/
structure Recorded (σ : Type) where
  inner : σ
  calls : List SenderCall

/-- What the sender itself does leaves the record alone. -/
def Recorded.within {σ α : Type} (p : Prog Failure σ α) : Prog Failure (Recorded σ) α :=
  zoom Recorded.inner (fun s t => { s with inner := t }) p

theorem Recorded.moves_within {σ α : Type} (p : Prog Failure σ α) :
    Moves (fun s t => t.calls = s.calls) (Recorded.within p) :=
  moves_zoom p fun _ _ => rfl

section Senders

variable [Crates]

/-- States of senders that keep their calls on record, in order. -/
class HasCalls (σ : Type) where
  calls : σ → List SenderCall

/-- The step makes no call. -/
def SameCalls {σ : Type} [HasCalls σ] (s t : σ) : Prop :=
  HasCalls.calls t = HasCalls.calls s

instance {σ : Type} [HasCalls σ] : IsPreorder σ SameCalls where
  refl _ := rfl
  trans _ _ _ hst htu := htu.trans hst

/-- Senders whose methods make no call but by `record`. -/
class Observed (σ : Type) [HasStore σ] [Sender σ] extends HasCalls σ where
  setStore_calls : ∀ (s : σ) st, SameCalls s (HasStore.setStore s st)
  record_calls : ∀ c (s : σ), ∃ t, exec (Sender.record c) s = (.ok (), t) ∧
    calls t = calls s ++ [c]
  reportError_calls : ∀ u e, Moves (SameCalls (σ := σ)) (Sender.reportError u e)
  privateTarget_calls : Moves (SameCalls (σ := σ)) Sender.privateTarget
  sendIrcMessage_calls : ∀ u d m, Moves (SameCalls (σ := σ)) (Sender.sendIrcMessage u d m)
  ensureJoined_calls : ∀ ch, Moves (SameCalls (σ := σ)) (Sender.ensureJoined ch)
  utcNow_calls : Moves (SameCalls (σ := σ)) Sender.utcNow

section Recorded

variable {σ : Type}

instance [HasStore σ] : HasStore (Recorded σ) where
  getStore s := HasStore.getStore s.inner
  setStore s st := { s with inner := HasStore.setStore s.inner st }

instance [HasStore σ] [Sender σ] : Sender (Recorded σ) where
  reportError u e := Recorded.within (Sender.reportError u e)
  privateTarget := Recorded.within Sender.privateTarget
  sendIrcMessage u d m := Recorded.within (Sender.sendIrcMessage u d m)
  ensureJoined ch := Recorded.within (Sender.ensureJoined ch)
  utcNow := Recorded.within Sender.utcNow
  record c := modify fun s => { s with calls := s.calls ++ [c] }

instance : HasCalls (Recorded σ) := ⟨Recorded.calls⟩

instance [HasStore σ] [Sender σ] : Observed (Recorded σ) where
  setStore_calls _ _ := rfl
  record_calls _ _ := ⟨_, rfl, rfl⟩
  reportError_calls _ _ := Recorded.moves_within _
  privateTarget_calls := Recorded.moves_within _
  sendIrcMessage_calls _ _ _ := Recorded.moves_within _
  ensureJoined_calls _ := Recorded.moves_within _
  utcNow_calls := Recorded.moves_within _

end Recorded

section Sending

variable {σ : Type} [HasStore σ] [Sender σ] [Observed σ]

open HasCalls Observed

theorem sameCalls_store {α : Type} (p : StoreM α) : Moves SameCalls (store p : Prog Failure σ α) :=
  moves_zoom p setStore_calls

theorem sameCalls_destination (gt : Option Nat) :
    Moves (SameCalls (σ := σ)) (destination gt) := by
  cases gt with
  | none => exact privateTarget_calls
  | some g =>
      refine Steps.bind (sameCalls_store _) fun grp => ?_
      exact Steps.bind (ensureJoined_calls _) fun _ => steps_pure _

theorem wp_record {c : SenderCall} {E : Failure → σ → Prop} (s : σ) :
    wp (Sender.record c) (fun _ t => calls t = calls s ++ [c]) E s := by
  obtain ⟨t, ht, hcalls⟩ := record_calls c s
  rw [wp, ht]
  exact hcalls

theorem wp_sendFragment (nick dest chunk : Str) (s : σ) :
    wp (sendFragment nick dest chunk)
      (fun _ t => calls t = calls s ++
        ([chunk].filter fun p => byteLen p > 0).map (.sendIrcMessage nick dest))
      (fun _ t => calls t = calls s ++
        ([chunk].filter fun p => byteLen p > 0).map (.sendIrcMessage nick dest)) s := by
  unfold sendFragment
  split
  · rename_i hlen
    rw [List.filter_cons_of_pos (by simpa using hlen), wp_bind]
    refine wp_mono (wp_record s) (fun _ t ht => ?_) fun _ _ he => he
    refine wp_mono (sendIrcMessage_calls nick dest chunk t) (fun _ u hu => ?_)
      fun _ u hu => ?_
    · exact Eq.trans hu ht
    · exact Eq.trans hu.1 ht
  · rename_i hlen
    rw [List.filter_cons_of_neg (by simpa using hlen)]
    simp

/-- Handing on fragments makes one call for each that is not empty, up to the
first call that fails. -/
theorem wp_sendFragments (nick dest : Str) (frs : List Str) (s : σ) :
    wp (forM frs (sendFragment nick dest))
      (fun _ t => calls t = calls s ++
        (frs.filter fun p => byteLen p > 0).map (.sendIrcMessage nick dest))
      (fun _ t => ∃ sent, sent <+: (frs.filter fun p => byteLen p > 0) ∧
        calls t = calls s ++ sent.map (.sendIrcMessage nick dest)) s := by
  refine wp_forM_prefix (fun done (t : σ) => calls t = calls s ++
    (done.filter fun p => byteLen p > 0).map (.sendIrcMessage nick dest)) ?_ ?_
  swap
  · simp
  intro done x rest hxs t ht
  refine wp_mono (wp_sendFragment nick dest x t) ?_ ?_
  · intro _ u hu
    rw [hu, ht, List.filter_append, List.map_append, List.append_assoc]
  · intro _ u hu
    refine ⟨(done ++ [x]).filter fun p => byteLen p > 0, ?_, ?_⟩
    · rw [hxs, List.append_cons done x rest, List.filter_append _ rest]
      exact List.prefix_append _ _
    · rw [hu, ht, List.filter_append, List.map_append, List.append_assoc]

theorem wp_sendRawMessage_to {D : Str → Prop} (nick msg : Str) {gt : Option Nat} {s : σ}
    (hD : wp (destination gt) (fun dest _ => D dest) (fun _ _ => True)
      (exec (Sender.record (.sendRawMessage nick msg gt)) s).2) :
    wp (sendRawMessage nick msg gt)
      (fun _ t => ∃ dest, D dest ∧ calls t = calls s ++ .sendRawMessage nick msg gt ::
        ((lines msg).flatMap chunks).map (.sendIrcMessage nick dest))
      (fun _ t => ∃ dest sent, sent <+: (lines msg).flatMap chunks ∧
        calls t = calls s ++ .sendRawMessage nick msg gt ::
          sent.map (.sendIrcMessage nick dest)) s := by
  obtain ⟨t, ht, hcalls⟩ := record_calls (.sendRawMessage nick msg gt) s
  rw [ht] at hD
  rw [sendRawMessage, wp_bind, wp, ht]
  dsimp only
  rw [wp_bind]
  refine wp_mono (wp_and hD (sameCalls_destination gt t)) ?_ ?_
  · rintro dest u ⟨hdest, hu⟩
    rw [forM_flatMap]
    refine wp_mono (wp_sendFragments nick dest _ u) ?_ ?_
    · intro _ v hv
      refine ⟨dest, hdest, ?_⟩
      rw [hv, hu, hcalls, filter_flatMap_fragments]
      simp
    · rintro _ v ⟨sent, hsent, hv⟩
      rw [filter_flatMap_fragments] at hsent
      refine ⟨dest, sent, hsent, ?_⟩
      rw [hv, hu, hcalls]
      simp
  · rintro _ u ⟨_, hu, _⟩
    refine ⟨[], [], List.nil_prefix, ?_⟩
    rw [hu, hcalls]
    simp

end Sending

/-- For every sender, a text that is sent is handed on without a loss exactly
when none of its lines has a tail that the fragments drop. -/
theorem sendRawMessage_partitions_iff {σ : Type} [HasStore σ] [Sender σ]
    (fromNick msg : Str) (groupTarget : Option Nat) (s t : Recorded σ)
    (hrun : exec (sendRawMessage fromNick msg groupTarget) s = (.ok (), t)) :
    ∃ made, t.calls = s.calls ++ made ∧
      (Partitions (handedOn made) (lines msg) ↔
        ∀ line ∈ lines msg, ¬ LosesTail line) := by
  have hdest : ∀ u : Recorded σ,
      wp (destination groupTarget) (fun _ _ => True) (fun _ _ => True) u := by
    intro u
    exact wp_mono (sameCalls_destination groupTarget u) (fun _ _ _ => trivial)
      fun _ _ _ => trivial
  obtain ⟨dest, _, hcalls⟩ := wp_of_ok hrun (wp_sendRawMessage_to _ _ (hdest _))
  refine ⟨_, hcalls, ?_⟩
  have hchunks : handedOn (.sendRawMessage fromNick msg groupTarget ::
      ((lines msg).flatMap chunks).map (.sendIrcMessage fromNick dest)) =
        (lines msg).flatMap chunks := handedOn_map fromNick dest _
  rw [hchunks]
  exact partitions_iff _

section Steps

variable {σ : Type} [HasStore σ] [Sender σ] {R : σ → σ → Prop} {P : Failure → Prop}

theorem decodePart_error {m : Message} {e : Failure} (h : decodePart m = .error e) :
    e = .panic .concatenatedPdu ∨ ∃ msg, e = .error msg := by
  unfold decodePart at h
  split at h
  · exact .inl (by cases h; rfl)
  · split at h
    · exact .inr ⟨_, by cases h; rfl⟩
    · split at h
      · exact .inr ⟨_, by cases h; rfl⟩
      · cases h

theorem joinParts_error {msgs : List Message} {e : Failure} (h : joinParts msgs = .error e) :
    e = .panic .concatenatedPdu ∨ e = .panic .concatenatedHeader ∨ ∃ msg, e = .error msg := by
  unfold joinParts at h
  cases hpdus : msgs.mapM decodePart with
  | error e' =>
      rw [hpdus] at h
      cases h
      obtain ⟨m, _, hm⟩ := mapM_eq_error hpdus
      rcases decodePart_error hm with he | he
      · exact .inl he
      · exact .inr (.inr he)
  | ok pdus =>
      rw [hpdus] at h
      change sortParts pdus >>= _ = _ at h
      unfold sortParts at h
      split at h
      · cases h
      · cases h
        exact .inr (.inl rfl)

/-- What a property of steps must hold of, for it to hold of the sending of a text. -/
structure SendSteps (σ : Type) [HasStore σ] [Sender σ] (R : σ → σ → Prop)
    (P : Failure → Prop) : Prop where
  record : ∀ c, Steps R P (Sender.record c)
  getGroupById : ∀ g, Steps R P (store (getGroupById g))
  privateTarget : Steps R P Sender.privateTarget
  sendIrcMessage : ∀ u d m, Steps R P (Sender.sendIrcMessage u d m)
  ensureJoined : ∀ ch, Steps R P (Sender.ensureJoined ch)

/-- The same for the processing of messages. -/
structure SenderSteps (σ : Type) [HasStore σ] [Sender σ] (R : σ → σ → Prop)
    (P : Failure → Prop) : Prop extends SendSteps σ R P where
  getAllConcatenated : ∀ num rf, Steps R P (store (getAllConcatenated num rf))
  deleteMessage : ∀ id, Steps R P (store (deleteMessage id))
  reportError : ∀ u e, Steps R P (Sender.reportError u e)
  utcNow : Steps R P Sender.utcNow
  error : ∀ msg, P (.error msg)
  messageText : P (.panic .messageText)
  concatenatedPdu : P (.panic .concatenatedPdu)
  concatenatedHeader : P (.panic .concatenatedHeader)

/-- What it must hold of, if only one nick is used. -/
structure SendStepsAs (σ : Type) [HasStore σ] [Sender σ] (R : σ → σ → Prop)
    (P : Failure → Prop) (nick : Str) : Prop where
  record : ∀ c, Steps R P (Sender.record c)
  getGroupById : ∀ g, Steps R P (store (getGroupById g))
  privateTarget : Steps R P Sender.privateTarget
  sendIrcMessage : ∀ d m, Steps R P (Sender.sendIrcMessage nick d m)
  ensureJoined : ∀ ch, Steps R P (Sender.ensureJoined ch)

structure SenderStepsAs (σ : Type) [HasStore σ] [Sender σ] (R : σ → σ → Prop)
    (P : Failure → Prop) (nick : Str) : Prop extends SendStepsAs σ R P nick where
  getAllConcatenated : ∀ num rf, Steps R P (store (getAllConcatenated num rf))
  deleteMessage : ∀ id, Steps R P (store (deleteMessage id))
  reportError : ∀ e, Steps R P (Sender.reportError nick e)
  utcNow : Steps R P Sender.utcNow
  error : ∀ msg, P (.error msg)
  messageText : P (.panic .messageText)
  concatenatedPdu : P (.panic .concatenatedPdu)
  concatenatedHeader : P (.panic .concatenatedHeader)

theorem SendSteps.sendStepsAs (h : SendSteps σ R P) (nick : Str) :
    SendStepsAs σ R P nick :=
  ⟨h.record, h.getGroupById, h.privateTarget, h.sendIrcMessage nick, h.ensureJoined⟩

theorem SenderSteps.senderStepsAs (h : SenderSteps σ R P) (nick : Str) :
    SenderStepsAs σ R P nick where
  toSendStepsAs := h.sendStepsAs nick
  getAllConcatenated := h.getAllConcatenated
  deleteMessage := h.deleteMessage
  reportError := h.reportError nick
  utcNow := h.utcNow
  error := h.error
  messageText := h.messageText
  concatenatedPdu := h.concatenatedPdu
  concatenatedHeader := h.concatenatedHeader

variable [IsPreorder σ R] {nick : Str}

theorem SendStepsAs.sendRawMessage (h : SendStepsAs σ R P nick) (msg : Str)
    (gt : Option Nat) : Steps R P (sendRawMessage nick msg gt) := by
  refine Steps.bind (h.record _) fun _ => Steps.bind ?_ fun dest => ?_
  · cases gt with
    | none => exact h.privateTarget
    | some g =>
        refine Steps.bind (h.getGroupById g) fun grp => ?_
        exact Steps.bind (h.ensureJoined _) fun _ => steps_pure _
  · refine Steps.forM fun line _ => Steps.forM fun chunk _ => ?_
    unfold sendFragment
    split
    · exact Steps.bind (h.record _) fun _ => h.sendIrcMessage _ _
    · exact steps_pure _

theorem SenderStepsAs.removeMessage (h : SenderStepsAs σ R P nick) (id : Nat) :
    Steps R P (removeMessage id) :=
  Steps.bind (h.record _) fun _ => h.deleteMessage id

theorem SenderStepsAs.processMsgPlain (h : SenderStepsAs σ R P nick) (msg : Message) :
    Steps R P (processMsgPlain nick msg) := by
  refine Steps.bind ?_ fun text => Steps.bind h.utcNow fun now => ?_
  · cases msg.text with
    | none => exact steps_throw h.messageText
    | some text => exact steps_pure text
  · exact Steps.bind (h.sendRawMessage _ _) fun _ => h.removeMessage _

theorem SenderStepsAs.processMsgPdu (h : SenderStepsAs σ R P nick) (msg : Message)
    (pdu : DeliverPdu) : Steps R P (processMsgPdu nick msg pdu) := by
  unfold SenderCommon.processMsgPdu
  split
  · split
    · refine Steps.bind (h.getAllConcatenated _ _) fun msgs => ?_
      split
      · exact steps_pure _
      · refine Steps.bind ?_ fun concatenated => ?_
        · cases hjoin : joinParts msgs with
          | ok text => exact steps_pure text
          | error e =>
              apply steps_throw
              rcases joinParts_error hjoin with rfl | rfl | ⟨msg, rfl⟩
              · exact h.concatenatedPdu
              · exact h.concatenatedHeader
              · exact h.error msg
        · exact Steps.bind (h.sendRawMessage _ _) fun _ =>
            Steps.forM fun m _ => h.removeMessage m.id
    · exact Steps.bind (h.sendRawMessage _ _) fun _ => h.removeMessage _
  · exact Steps.bind (h.record _) fun _ => h.reportError _

theorem SendSteps.sendRawMessage (h : SendSteps σ R P) (nick msg : Str)
    (gt : Option Nat) : Steps R P (sendRawMessage nick msg gt) :=
  (h.sendStepsAs nick).sendRawMessage msg gt

theorem SenderSteps.processMsgPlain (h : SenderSteps σ R P) (nick : Str) (msg : Message) :
    Steps R P (processMsgPlain nick msg) := (h.senderStepsAs nick).processMsgPlain msg

theorem SenderSteps.processMsgPdu (h : SenderSteps σ R P) (nick : Str) (msg : Message)
    (pdu : DeliverPdu) : Steps R P (processMsgPdu nick msg pdu) :=
  (h.senderStepsAs nick).processMsgPdu msg pdu

end Steps

end Senders

section Samples

attribute [local instance] Sample.crates Sample.hasStore Sample.sender

/-- A text of two lines, of which the first does not fit in one message. -/
def longText : Str := List.replicate 400 'a' ++ ['\n', 'b']

/-- What has been sent of it. -/
def longCalls : List SenderCall :=
  [.sendRawMessage ['u'] longText none,
    .sendIrcMessage ['u'] ("admin" : Str) (List.replicate 350 'a'),
    .sendIrcMessage ['u'] ("admin" : Str) (List.replicate 50 'a'),
    .sendIrcMessage ['u'] ("admin" : Str) ['b']]

theorem exec_longText : ∃ t : Recorded Database.Store,
    exec (sendRawMessage ['u'] longText none) ⟨Sample.store, []⟩ = (.ok (), t) ∧
      t.calls = longCalls := by
  have hok : (exec (sendRawMessage ['u'] longText none)
      (⟨Sample.store, []⟩ : Recorded Database.Store)).1.isOk = true := by decide +kernel
  have hcalls : (exec (sendRawMessage ['u'] longText none)
      (⟨Sample.store, []⟩ : Recorded Database.Store)).2.calls = longCalls := by decide +kernel
  rcases hexec : exec (sendRawMessage ['u'] longText none)
    (⟨Sample.store, []⟩ : Recorded Database.Store) with ⟨e | u, t⟩
  · rw [hexec] at hok
    cases hok
  · rw [hexec] at hcalls
    exact ⟨t, rfl, hcalls⟩

theorem sendRawMessage_partitions_long : ∃ made, longCalls = [] ++ made ∧
    Partitions (handedOn made) (lines longText) ∧ ∀ line ∈ lines longText, ¬ LosesTail line := by
  obtain ⟨t, hrun, hcalls⟩ := exec_longText
  obtain ⟨made, hmade, hiff⟩ := sendRawMessage_partitions_iff ['u'] longText none _ t hrun
  rw [hcalls] at hmade
  have hhanded : handedOn longCalls =
      [List.replicate 350 'a', List.replicate 50 'a', ['b']] := by decide +kernel
  have hparts : Partitions (handedOn made) (lines longText) := by
    rw [← List.nil_append made, ← hmade, hhanded]
    exact ⟨[[List.replicate 350 'a', List.replicate 50 'a'], [['b']]], rfl, by decide +kernel⟩
  exact ⟨made, hmade, hparts, hiff.mp hparts⟩

/-- A line of one character more than fits in a message loses that character. -/
theorem sendRawMessage_loses_last_character :
    ¬ ∀ (fromNick msg : Str) (groupTarget : Option Nat) (s t : Recorded Database.Store),
      exec (sendRawMessage fromNick msg groupTarget) s = (.ok (), t) →
      ∃ made, t.calls = s.calls ++ made ∧ Partitions (handedOn made) (lines msg) := by
  intro h
  obtain ⟨msg, hmsg⟩ : ∃ msg : Str, msg = List.replicate 351 'a' := ⟨_, rfl⟩
  obtain ⟨sent, hsent⟩ : ∃ sent : Str, sent = List.replicate 350 'a' := ⟨_, rfl⟩
  have hok : (exec (sendRawMessage ['u'] msg none)
      (⟨Sample.store, []⟩ : Recorded Database.Store)).1.isOk = true := by
    rw [hmsg]
    decide +kernel
  have hcalls : (exec (sendRawMessage ['u'] msg none)
      (⟨Sample.store, []⟩ : Recorded Database.Store)).2.calls =
        [.sendRawMessage ['u'] msg none,
          .sendIrcMessage ['u'] ("admin" : Str) sent] := by
    rw [hmsg, hsent]
    decide +kernel
  have htext : lines msg = [msg] := by
    rw [hmsg]
    decide +kernel
  obtain ⟨made, hmade, groups, hchunks, hlines⟩ :=
    h ['u'] msg none _ _ (exec_eq_of_isOk hok)
  rw [hcalls, List.nil_append] at hmade
  rw [← hmade] at hchunks
  have hlost : sent = msg := by
    have htexts : groups.flatten.flatten = (lines msg).flatten := by
      rw [List.flatten_flatten, hlines]
    rw [hchunks, htext] at htexts
    simpa [handedOn] using htexts
  have hlen := congrArg List.length hlost
  rw [hmsg, hsent, List.length_replicate, List.length_replicate] at hlen
  omega

end Samples

end SmsIrc.SenderRuns
