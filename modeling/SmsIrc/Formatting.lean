import SmsIrc.Replacement
import SmsIrc.SafeNames
import SmsIrc.WhatsappMsg

/-!
What `process_wa_text_message` makes of a text: only the delimiters of bold and of italic
parts change, into the codes of IRC.
-/

namespace SmsIrc.Formatting

open SmsIrc.External SmsIrc.Program SmsIrc.Replacement SmsIrc.SafeNames SmsIrc.Text
open SmsIrc.Util SmsIrc.WhatsappMsg

/-- What has been read, and what is left of the text: it is replaced as the pattern says. -/
theorem replaced_from (delim mark : Char) (text : Str) :
    Replaced (Delimited delim mark) text (replaceDelimited delim mark none text) ∧
      ∀ body : Str, delim ∉ body →
        Replaced (Delimited delim mark) (delim :: (body ++ text))
          (replaceDelimited delim mark (some body) text) := by
  induction text with
  | nil =>
      refine ⟨.nil, fun body hbody => ?_⟩
      rw [List.append_nil]
      apply Replaced.skip
      · intro m r rest heq
        exact not_delimited_cons heq fun _ => hbody
      · have h : Replaced (Delimited delim mark) (body ++ []) (body ++ []) :=
          Replaced.append_of_notMem hbody .nil
        rwa [List.append_nil] at h
  | cons c text ih =>
      obtain ⟨hnone, hsome⟩ := ih
      constructor
      · rw [replaceDelimited]
        split
        · rename_i hc
          rw [hc]
          exact hsome [] List.not_mem_nil
        · rename_i hc
          apply Replaced.skip
          · intro m r rest heq
            exact not_delimited_cons heq fun hd => absurd hd hc
          · exact hnone
      · intro body hbody
        rw [replaceDelimited]
        split
        · rename_i hc
          rw [hc]
          split
          · rename_i hempty
            rw [hempty]
            apply Replaced.skip
            · intro m r rest heq
              exact not_delimited_cons_cons heq
            · exact hsome [] List.not_mem_nil
          · rename_i hne
            have hm : Delimited delim mark (delim :: (body ++ [delim]))
                (mark :: (body ++ [mark])) := ⟨body, hne, hbody, rfl, rfl⟩
            have h := Replaced.hit hm hnone
            rwa [List.cons_append, List.cons_append, List.append_assoc, List.append_assoc] at h
        · rename_i hc
          have h := hsome (body ++ [c]) (by simp [hbody, Ne.symm hc])
          rwa [List.append_assoc] at h

/-- Bold and italic texts change, and nothing else. -/
def Formats (a b : Char) : Prop := b = a ∨ a = '*' ∧ b = '\x02' ∨ a = '_' ∧ b = '\x1d'

/-- Both passes over a text, the second one over what the first one left. -/
structure Formatted (msg out : Str) : Prop where
  places : List.Forall₂ Formats msg out
  bold : PairsUp '*' msg (changedAt '*' msg out)
  italic : PairsUp '_' msg (changedAt '_' msg out)

theorem formatted (msg : Str) :
    Formatted msg (replaceDelimited '_' '\x1d' none (replaceDelimited '*' '\x02' none msg)) := by
  have hbold := (replaced_from '*' '\x02' msg).1
  generalize replaceDelimited '*' '\x02' none msg = emboldened at hbold ⊢
  have hitalic := (replaced_from '_' '\x1d' emboldened).1
  generalize replaceDelimited '_' '\x1d' none emboldened = italicised at hitalic ⊢
  have hfirst := hbold.forall₂ (fun a => .inl rfl) fun _ _ => forall₂_delimited
  have hsecond := hitalic.forall₂ (fun a => .inl rfl) fun _ _ => forall₂_delimited
  have hstays : ∀ i : Nat, msg[i]? = some '_' ↔ emboldened[i]? = some '_' := by
    apply getElem?_iff_of_forall₂ hfirst
    rintro a b (rfl | ⟨rfl, rfl⟩)
    · exact Iff.rfl
    · decide
  have hkept : ∀ i : Nat, emboldened[i]? = some '*' ↔ italicised[i]? = some '*' := by
    apply getElem?_iff_of_forall₂ hsecond
    rintro a b (rfl | ⟨rfl, rfl⟩)
    · exact Iff.rfl
    · decide
  constructor
  · apply forall₂_trans ?_ hfirst hsecond
    rintro a b c (rfl | ⟨rfl, rfl⟩) (rfl | ⟨hb, rfl⟩)
    · exact .inl rfl
    · exact .inr (.inr ⟨hb, rfl⟩)
    · exact .inr (.inl ⟨rfl, rfl⟩)
    · exact absurd hb (by decide)
  · rw [changedAt_congr rfl (fun _ => Iff.rfl) fun i => (hkept i).symm]
    exact hbold.pairsUp (by decide)
  · rw [changedAt_congr hfirst.length_eq hstays fun _ => Iff.rfl]
    exact (hitalic.pairsUp (by decide)).congr fun i => (hstays i).symm

section Mentions

variable [Crates]

/-- Somewhere in the text a digit follows an `@`. -/
def HasMention (text : Str) : Prop :=
  ∃ (i : Nat) (d : Char), text[i]? = some '@' ∧ text[i + 1]? = some d ∧ Crates.regexDigit d = true

theorem HasMention.cons {text : Str} (c : Char) (h : HasMention text) : HasMention (c :: text) := by
  obtain ⟨i, d, hat, hd, hdigit⟩ := h
  exact ⟨i + 1, d, hat, hd, hdigit⟩

/-- A text without mentions is all characters, and so is what is left after an `@`. -/
theorem mentionPieces_plain (text : Str) :
    (¬ HasMention text → mentionPieces none text = text.map .plain) ∧
      (¬ HasMention ('@' :: text) → mentionPieces (some []) text = ('@' :: text).map .plain) := by
  induction text with
  | nil => exact ⟨fun _ => rfl, fun _ => rfl⟩
  | cons c text ih =>
      obtain ⟨hnone, hsome⟩ := ih
      have hstart : ¬ HasMention (c :: text) →
          (if c = '@' then mentionPieces (some []) text else .plain c :: mentionPieces none text) =
            (c :: text).map .plain := by
        intro hno
        split
        · rename_i hc
          rw [hc] at hno ⊢
          exact hsome hno
        · rw [hnone fun h => hno (h.cons c)]
          rfl
      constructor
      · intro hno
        rw [mentionPieces]
        exact hstart hno
      · intro hno
        have hdigit : ¬ Crates.regexDigit c = true := fun hd => hno ⟨0, c, rfl, rfl, hd⟩
        rw [mentionPieces, if_neg hdigit, if_pos rfl, hstart fun h => hno (h.cons '@')]
        rfl

theorem HasMention.of_formatted (hdigits : AsciiDigits) {msg out : Str} (h : Formatted msg out)
    (hout : HasMention out) : HasMention msg := by
  obtain ⟨i, d, hat, hd, hdigit⟩ := hout
  have hcodes : Crates.regexDigit '\x02' = false ∧ Crates.regexDigit '\x1d' = false := by
    constructor
    · rw [hdigits _ (by decide)]
      rfl
    · rw [hdigits _ (by decide)]
      rfl
  obtain ⟨a, ha, hab⟩ := getElem?_of_forall₂ h.places hat
  obtain ⟨e, he, hed⟩ := getElem?_of_forall₂ h.places hd
  refine ⟨i, e, ?_, he, ?_⟩
  · rcases hab with hab | ⟨-, hab⟩ | ⟨-, hab⟩
    · rw [ha, hab]
    · exact absurd hab (by decide)
    · exact absurd hab (by decide)
  · rcases hed with rfl | ⟨-, rfl⟩ | ⟨-, rfl⟩
    · exact hdigit
    · rw [hcodes.1] at hdigit
      cases hdigit
    · rw [hcodes.2] at hdigit
      cases hdigit

theorem exec_mapM_plain (text : Str) (p : WaMessageProcessor) :
    exec ((text.map Piece.plain).mapM replacePiece) p = (.ok (text.map fun c => [c]), p) := by
  induction text with
  | nil => rfl
  | cons c text ih =>
      have hone : exec (replacePiece (.plain c)) p = (.ok [c], p) := rfl
      rw [List.map_cons, List.mapM_cons, exec_bind_ok hone, exec_bind_ok ih]
      rfl

/-- A text without mentions keeps its characters; only the delimiters of what is between two
become codes. -/
theorem text_kept (hdigits : AsciiDigits) {msg : Str} (hmsg : ¬ HasMention msg)
    (p : WaMessageProcessor) : ∃ out, exec (processWaTextMessage msg) p = (.ok out, p) ∧
      out.length = msg.length ∧ List.Forall₂ Formats msg out ∧
        PairsUp '*' msg (changedAt '*' msg out) ∧ PairsUp '_' msg (changedAt '_' msg out) := by
  have hout := formatted msg
  generalize hital : replaceDelimited '_' '\x1d' none
    (replaceDelimited '*' '\x02' none msg) = out at hout
  refine ⟨out, ?_, hout.places.length_eq.symm, hout.places, hout.bold, hout.italic⟩
  have hno : ¬ HasMention out := fun h => hmsg (h.of_formatted hdigits hout)
  have hflat : (out.map fun c => [c]).flatten = out := by
    rw [← List.flatMap_def]
    exact List.flatMap_singleton' out
  show exec ((mentionPieces none (replaceDelimited '_' '\x1d' none
    (replaceDelimited '*' '\x02' none msg))).mapM replacePiece >>= fun pieces =>
      pure pieces.flatten) p = _
  rw [hital, (mentionPieces_plain out).1 hno, exec_bind_ok (exec_mapM_plain out p), hflat]
  rfl

end Mentions

section Samples

attribute [local instance] Sample.crates

def processor : WaMessageProcessor := ⟨Sample.store, [], fun _ => .error [], 0, []⟩

/-- Overlapping pairs, an empty one and a delimiter without another. -/
theorem text_kept_sample : ∃ out,
    exec (processWaTextMessage ("*a_b*_ ** c" : Str)) processor = (.ok out, processor) ∧
      out = ("\x02a\x1db\x02\x1d ** c" : Str) ∧
        PairsUp '*' ("*a_b*_ ** c" : Str) (changedAt '*' ("*a_b*_ ** c" : Str) out) := by
  have hno : ¬ HasMention ("*a_b*_ ** c" : Str) := by
    rintro ⟨i, d, hat, -⟩
    exact absurd (List.mem_of_getElem? hat) (by decide)
  obtain ⟨out, hrun, -, -, hbold, -⟩ := text_kept (fun _ _ => rfl) hno processor
  refine ⟨out, hrun, ?_, hbold⟩
  have heval : (exec (processWaTextMessage ("*a_b*_ ** c" : Str)) processor).1 =
      .ok ("\x02a\x1db\x02\x1d ** c" : Str) := by decide +kernel
  rw [hrun] at heval
  exact Except.ok.inj heval

end Samples

end SmsIrc.Formatting
