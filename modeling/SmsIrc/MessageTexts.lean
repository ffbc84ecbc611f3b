import Mathlib.Data.List.Perm.Basic
import SmsIrc.SenderCommon

/-!
What is to be read of a stored message: a text from WhatsApp, an SMS, or an SMS
in several parts.
-/

namespace SmsIrc.MessageTexts

open SmsIrc.External SmsIrc.Models SmsIrc.SenderCommon SmsIrc.Text SmsIrc.Util

section Texts

variable [Crates]

/-- The time of a text that is more than five seconds old, with its date if that
is another one. -/
def stamp (now ts : NaiveDateTime) : Str :=
  if secondsBetween now ts > 5 then
    ("\x0315\x02[\x02" : Str) ++
      (if date now ≠ date ts then Crates.localDate ts ++ (" " : Str) else []) ++
      Crates.localTime ts ++ ("\x02]\x02\x0f " : Str)
  else []

/-- A text is shown behind its time; an action stays one. -/
inductive Shown (now ts : NaiveDateTime) : Str → Str → Prop
  | action (body : Str) : Shown now ts (("\x01ACTION " : Str) ++ body)
      (("\x01ACTION " : Str) ++ stamp now ts ++ body)
  | speech {text : Str} (h : ¬ ("\x01ACTION " : Str) <+: text) :
      Shown now ts text (stamp now ts ++ text)

/-- A PDU decodes to a message. -/
def Decodes (raw : List UInt8) (d : DecodedMessage) : Prop :=
  ∃ pdu, Crates.deliverPduTryFrom raw = .ok pdu ∧ pdu.decodeMessage = .ok d

/-- A row has the PDU of a message. -/
def Carries (m : Message) (d : DecodedMessage) : Prop := ∃ raw, m.pdu = some raw ∧ Decodes raw d

/-- A message says of itself that it is one of several parts. -/
def Numbered (d : DecodedMessage) (cd : ConcatenatedSmsData) : Prop :=
  ∃ udh, d.udh = some udh ∧ udh.getConcatenatedSmsData = some cd

/-- What a row says that is not one of several parts. -/
inductive OwnText (now : NaiveDateTime) (m : Message) : Str → Prop
  | plain {body text : Str} (hpdu : m.pdu = none) (hbody : m.text = some body)
      (h : Shown now m.ts body text) : OwnText now m text
  | sms {d : DecodedMessage} (h : Carries m d) (hone : ∀ cd, ¬ Numbered d cd) :
      OwnText now m d.text

/-- What rows say together: what each of them decodes to, in the order of their numbers. -/
def Joined (parts : List Message) (text : Str) : Prop :=
  ∃ (rows : List Message) (ds : List DecodedMessage), rows.Perm parts ∧
    List.Forall₂ Carries rows ds ∧
    ds.Pairwise (fun a b => ∃ ca cb, Numbered a ca ∧ Numbered b cb ∧ ca.sequence ≤ cb.sequence) ∧
    text = ds.flatMap DecodedMessage.text

/-- A row says that it is one of the parts of a message. -/
def PartOf (m : Message) (cd : ConcatenatedSmsData) : Prop := ∃ d, Carries m d ∧ Numbered d cd

/-- Rows are all the parts of the message that a row says it is one of. -/
def AllParts (msg : Message) (parts : List Message) : Prop :=
  ∃ cd, PartOf msg cd ∧ parts.length = cd.parts.toNat ∧
    ∀ m ∈ parts, m.phoneNumber = msg.phoneNumber ∧ m.csmsData = some cd.reference.toNat

theorem renderPlain_eq (now ts : NaiveDateTime) (text : Str) :
    renderPlain now ts text = if startsWith text ("\x01ACTION " : Str) then
      ("\x01ACTION " : Str) ++ stamp now ts ++ text.drop 8 else stamp now ts ++ text := by
  unfold renderPlain stamp
  dsimp only
  split <;> rfl

theorem shown_renderPlain (now ts : NaiveDateTime) (text : Str) :
    Shown now ts text (renderPlain now ts text) := by
  rw [renderPlain_eq]
  split
  · rename_i haction
    obtain ⟨body, rfl⟩ := List.isPrefixOf_iff_prefix.mp haction
    exact .action body
  · rename_i hspeech
    exact .speech fun h => hspeech (List.isPrefixOf_iff_prefix.mpr h)

omit [Crates] in
theorem numbered_iff {d : DecodedMessage} {cd : ConcatenatedSmsData} :
    Numbered d cd ↔ concatenation d = some cd := Option.bind_eq_some_iff.symm

theorem decodePart_eq_ok {m : Message} {d : DecodedMessage} :
    decodePart m = .ok d ↔ Carries m d := by
  constructor
  · intro h
    unfold decodePart at h
    split at h
    · cases h
    · rename_i raw hraw
      split at h
      · cases h
      · rename_i pdu hpdu
        split at h
        · cases h
        · rename_i d' hd'
          cases h
          exact ⟨raw, hraw, pdu, hpdu, hd'⟩
  · rintro ⟨raw, hraw, pdu, hpdu, hd⟩
    simp only [decodePart, hraw, hpdu, hd]

theorem carries_unique {m : Message} {d d' : DecodedMessage} (h : Carries m d)
    (h' : Carries m d') : d = d' := by
  have hok := decodePart_eq_ok.mpr h
  rw [decodePart_eq_ok.mpr h', Except.ok.injEq] at hok
  exact hok.symm

theorem partOf_of_decodePart {m : Message} {d : DecodedMessage} {cd : ConcatenatedSmsData}
    (hok : decodePart m = .ok d) (hcd : concatenation d = some cd) : PartOf m cd :=
  ⟨d, decodePart_eq_ok.mp hok, numbered_iff.mpr hcd⟩

theorem PartOf.decodePart {m : Message} {cd : ConcatenatedSmsData} (h : PartOf m cd) :
    ∃ d, decodePart m = .ok d ∧ concatenation d = some cd := by
  obtain ⟨d, hcarries, hcd⟩ := h
  exact ⟨d, decodePart_eq_ok.mpr hcarries, numbered_iff.mp hcd⟩

theorem forall₂_of_mapM {parts : List Message} {ds : List DecodedMessage}
    (h : parts.mapM decodePart = .ok ds) :
    List.Forall₂ Carries parts ds := by
  induction parts generalizing ds with
  | nil =>
      cases h
      exact .nil
  | cons m parts ih =>
      rw [List.mapM_cons] at h
      cases hd : decodePart m with
      | error e =>
          rw [hd] at h
          cases h
      | ok d =>
          rw [hd] at h
          cases hrest : parts.mapM decodePart with
          | error e =>
              rw [hrest] at h
              cases h
          | ok rest =>
              rw [hrest] at h
              cases h
              exact .cons (decodePart_eq_ok.mp hd) (ih hrest)

omit [Crates] in
theorem pairwise_sortParts {ds sorted : List DecodedMessage} (h : sortParts ds = .ok sorted) :
    sorted.Perm ds ∧ sorted.Pairwise fun a b =>
      ∃ ca cb, Numbered a ca ∧ Numbered b cb ∧ ca.sequence ≤ cb.sequence := by
  have : IsTrans DecodedMessage fun a b => sequenceOf a ≤ sequenceOf b := ⟨fun _ _ _ => le_trans⟩
  have : Std.Total fun a b : DecodedMessage => sequenceOf a ≤ sequenceOf b :=
    ⟨fun _ _ => le_total _ _⟩
  unfold sortParts at h
  split at h
  swap
  · cases h
  rename_i hheaders
  cases h
  have hperm := List.perm_insertionSort (fun a b => sequenceOf a ≤ sequenceOf b) ds
  refine ⟨hperm, ?_⟩
  rw [Bool.or_eq_true, decide_eq_true_iff, List.all_eq_true] at hheaders
  rcases hheaders with hshort | hall
  · rw [← hperm.length_eq] at hshort
    match ds.insertionSort fun a b => sequenceOf a ≤ sequenceOf b, hshort with
    | [], _ => exact List.Pairwise.nil
    | [d], _ => exact List.pairwise_singleton _ _
  · refine (List.pairwise_insertionSort _ ds).imp_of_mem fun {a b} ha hb hab => ?_
    obtain ⟨ca, hca⟩ := Option.isSome_iff_exists.mp (hall a (hperm.subset ha))
    obtain ⟨cb, hcb⟩ := Option.isSome_iff_exists.mp (hall b (hperm.subset hb))
    refine ⟨ca, cb, numbered_iff.mpr hca, numbered_iff.mpr hcb, ?_⟩
    simp only [sequenceOf, hca, hcb, Option.map_some, Option.getD_some] at hab
    exact hab

theorem joined_of_joinParts {parts : List Message} {text : Str}
    (h : joinParts parts = .ok text) : Joined parts text := by
  unfold joinParts at h
  cases hds : parts.mapM decodePart with
  | error e =>
      rw [hds] at h
      cases h
  | ok ds =>
      rw [hds] at h
      cases hsorted : sortParts ds with
      | error e =>
          change (sortParts ds >>= _) = _ at h
          rw [hsorted] at h
          cases h
      | ok sorted =>
          change (sortParts ds >>= _) = _ at h
          rw [hsorted] at h
          cases h
          obtain ⟨hperm, hpairwise⟩ := pairwise_sortParts hsorted
          have hcomp : Relation.Comp (List.Forall₂ fun d m => Carries m d) List.Perm sorted parts :=
            List.perm_comp_forall₂ hperm (forall₂_of_mapM hds).flip
          obtain ⟨rows, hrows, hparts⟩ := hcomp
          exact ⟨rows, sorted, hparts, hrows.flip, hpairwise, rfl⟩

end Texts

end SmsIrc.MessageTexts
