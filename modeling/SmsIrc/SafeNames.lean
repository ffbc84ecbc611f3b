import SmsIrc.Sample

/-!
The names that are made of arbitrary text: nicks and channels of IRC.
-/

namespace SmsIrc.SafeNames

open SmsIrc.External SmsIrc.Text SmsIrc.Util

def IsAscii (s : Str) : Prop := ∀ c ∈ s, c.toNat < 128

/-- The characters of nicks. -/
def NickChar (c : Char) : Prop :=
  isAsciiAlphanumeric c = true ∨
    c ∈ ['_', '-', '\\', '[', ']', '\x7b', '\x7d', '^', '\x60', '|']

instance (c : Char) : Decidable (NickChar c) := inferInstanceAs (Decidable (_ ∨ _))

/-- The characters of channels. -/
def ChanChar (c : Char) : Prop :=
  c.isLower = true ∨ c.isDigit = true ∨ c ∈ ['_', '-', '#']

instance (c : Char) : Decidable (ChanChar c) := inferInstanceAs (Decidable (_ ∨ _))

/-- A nick begins with a letter. -/
structure IsNick (s : Str) : Prop where
  head : ∃ c ∈ s.head?, c.isAlpha = true
  chars : ∀ c ∈ s, NickChar c

theorem forall_ascii {P : Char → Prop} (h : ∀ n < 128, P (Char.ofNat n)) {c : Char}
    (hc : c.toNat < 128) : P c := by
  have hn := h c.toNat hc
  rwa [Char.ofNat_toNat] at hn

theorem forall_mem_of_all {P : Char → Prop} [DecidablePred P] {s : Str}
    (h : s.all (fun c => P c) = true) : ∀ c ∈ s, P c :=
  fun c hc => of_decide_eq_true (List.all_eq_true.mp h c hc)

theorem isAscii_of_alphanumeric {c : Char} (h : isAsciiAlphanumeric c = true) : c.toNat < 128 := by
  have hranges : (decide (65 ≤ c.val ∧ c.val ≤ 90) ||
      (decide (97 ≤ c.val) && decide (c.val ≤ 122)) ||
      (decide (48 ≤ c.val) && decide (c.val ≤ 57))) = true := h
  have hval : c.toNat = c.val.toNat := rfl
  simp [UInt32.le_iff_toNat_le] at hranges
  omega

theorem NickChar.isAscii {c : Char} (h : NickChar c) : c.toNat < 128 := by
  rcases h with h | h
  · exact isAscii_of_alphanumeric h
  · exact forall_mem_of_all (P := fun c => c.toNat < 128) (by decide) c h

theorem ChanChar.isAscii {c : Char} (h : ChanChar c) : c.toNat < 128 := by
  rcases h with h | h | h
  · have halpha : c.isAlpha = true := Bool.or_eq_true_iff.mpr (.inr h)
    exact isAscii_of_alphanumeric (by simp [isAsciiAlphanumeric, halpha])
  · exact isAscii_of_alphanumeric (by simp [isAsciiAlphanumeric, h])
  · exact forall_mem_of_all (P := fun c => c.toNat < 128) (by decide) c h

theorem nickChar_ircNickChar (c : Char) : NickChar (ircNickChar c) := by
  unfold ircNickChar
  split
  · decide
  · split
    · rename_i h
      exact .inr h
    · split
      · rename_i h
        exact .inl h
      · decide

theorem ircNickChar_of_nickChar {c : Char} (h : NickChar c) : ircNickChar c = c := by
  unfold ircNickChar
  split
  · rename_i hplus
    rw [hplus] at h
    exact absurd h (by decide)
  · split
    · rfl
    · rename_i hno
      rw [if_pos (h.resolve_right hno)]

theorem chanChar_ircChanChar (c : Char) : ∀ d ∈ ircChanChar c, ChanChar d := by
  unfold ircChanChar
  split
  · exact forall_mem_of_all (by decide)
  · split
    · exact forall_mem_of_all (by decide)
    · split
      · exact forall_mem_of_all (by decide)
      · split
        · exact forall_mem_of_all (by decide)
        · split
          · rename_i h
            intro d hd
            rw [List.mem_singleton.mp hd]
            exact forall_ascii (P := fun c => isAsciiAlphanumeric c = true → ChanChar c.toLower)
              (by decide) (isAscii_of_alphanumeric h) h
          · nofun

theorem ircChanChar_of_chanChar {c : Char} (h : ChanChar c) : ircChanChar c = [c] :=
  forall_ascii (P := fun c => ChanChar c → ircChanChar c = [c]) (by decide) h.isAscii h

section Names

variable [Crates]

/-- A nick that has been made of a name. -/
def FromName (nick : Str) : Prop := ∃ name, nick = stringToIrcNick name

theorem isNick_stringToIrcNick (s : Str) : IsNick (stringToIrcNick s) := by
  have hchars : ∀ c ∈ (Crates.unidecode s).map ircNickChar, NickChar c := by
    intro c hc
    obtain ⟨d, -, rfl⟩ := List.mem_map.mp hc
    exact nickChar_ircNickChar d
  unfold stringToIrcNick
  cases hret : (Crates.unidecode s).map ircNickChar with
  | nil => exact ⟨⟨'S', rfl, rfl⟩, forall_mem_of_all (by decide)⟩
  | cons c rest =>
      rw [hret] at hchars
      dsimp only [List.head?_cons]
      split
      · rename_i hletter
        exact ⟨⟨c, rfl, hletter⟩, hchars⟩
      · refine ⟨⟨'S', rfl, rfl⟩, fun d hd => ?_⟩
        rcases List.mem_cons.mp hd with rfl | hd
        · decide
        · exact hchars d hd

theorem FromName.isNick {nick : Str} (h : FromName nick) : IsNick nick := by
  obtain ⟨name, rfl⟩ := h
  exact isNick_stringToIrcNick name

theorem stringToIrcNick_of_isNick (hsame : ∀ s, IsAscii s → Crates.unidecode s = s) {s : Str}
    (h : IsNick s) : stringToIrcNick s = s := by
  have hmap : (Crates.unidecode s).map ircNickChar = s := by
    rw [hsame s fun c hc => (h.chars c hc).isAscii]
    exact (List.map_congr_left fun c hc => ircNickChar_of_nickChar (h.chars c hc)).trans
      (List.map_id s)
  obtain ⟨c, hc, hletter⟩ := h.head
  unfold stringToIrcNick
  rw [hmap]
  dsimp only
  rw [Option.mem_def.mp hc]
  exact if_pos hletter

theorem chanChar_stringToIrcChan (s : Str) : ∀ c ∈ stringToIrcChan s, ChanChar c := by
  intro c hc
  obtain ⟨d, -, hd⟩ := List.mem_flatMap.mp hc
  exact chanChar_ircChanChar d c hd

theorem stringToIrcChan_of_chanChars (hsame : ∀ s, IsAscii s → Crates.unidecode s = s) {s : Str}
    (h : ∀ c ∈ s, ChanChar c) : stringToIrcChan s = s := by
  rw [stringToIrcChan, hsame s fun c hc => (h c hc).isAscii]
  induction s with
  | nil => rfl
  | cons c s ih =>
      rw [List.flatMap_cons, ircChanChar_of_chanChar (h c List.mem_cons_self),
        ih fun d hd => h d (List.mem_cons_of_mem c hd), List.singleton_append]

/-- The class `\d` has no other characters of ASCII than the ten digits. -/
def AsciiDigits : Prop := ∀ c : Char, c.toNat < 128 → Crates.regexDigit c = c.isDigit

/-- Whatever text a name is made of, it is legal, and is the name that is made of it again. -/
theorem names_legal (hsame : ∀ s, IsAscii s → Crates.unidecode s = s) (s : Str) :
    (IsNick (stringToIrcNick s) ∧ stringToIrcNick (stringToIrcNick s) = stringToIrcNick s) ∧
      (∀ c ∈ stringToIrcChan s, ChanChar c) ∧
        stringToIrcChan (stringToIrcChan s) = stringToIrcChan s :=
  ⟨⟨isNick_stringToIrcNick s, stringToIrcNick_of_isNick hsame (isNick_stringToIrcNick s)⟩,
    chanChar_stringToIrcChan s,
    stringToIrcChan_of_chanChars hsame (chanChar_stringToIrcChan s)⟩

end Names

section Samples

/-- Two letters that are not of ASCII lose their marks; other characters that are not of
ASCII are dropped. -/
def transliterate (c : Char) : Str :=
  if c.toNat < 128 then [c] else if c = 'Ä' then ['A'] else if c = 'é' then ['e'] else []

@[reducible] def asciiCrates : Crates :=
  { Sample.crates with unidecode := fun s => s.flatMap transliterate }

attribute [local instance] asciiCrates

theorem unidecode_ascii (s : Str) (h : IsAscii s) : Crates.unidecode s = s := by
  change s.flatMap transliterate = s
  induction s with
  | nil => rfl
  | cons c s ih =>
      rw [List.flatMap_cons, ih fun d hd => h d (List.mem_cons_of_mem c hd), transliterate,
        if_pos (h c List.mem_cons_self), List.singleton_append]

/-- The names of a text of digits, blanks and letters. -/
theorem names_legal_sample : stringToIrcNick ("+44 Ä a" : Str) = ("I44_A_a" : Str) ∧
    (IsNick ("I44_A_a" : Str) ∧ stringToIrcNick ("I44_A_a" : Str) = ("I44_A_a" : Str)) ∧
      stringToIrcChan ("#A bé" : Str) = ("#a-be" : Str) ∧
        stringToIrcChan ("#a-be" : Str) = ("#a-be" : Str) := by
  have hnick : stringToIrcNick ("+44 Ä a" : Str) = ("I44_A_a" : Str) := by decide
  have hchan : stringToIrcChan ("#A bé" : Str) = ("#a-be" : Str) := by decide
  have hlegal := (names_legal unidecode_ascii ("+44 Ä a" : Str)).1
  rw [hnick] at hlegal
  have hsame := (names_legal unidecode_ascii ("#A bé" : Str)).2.2
  rw [hchan] at hsame
  exact ⟨hnick, hlegal, hchan, hsame⟩

end Samples

end SmsIrc.SafeNames
