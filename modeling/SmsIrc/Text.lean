import Mathlib.Algebra.BigOperators.Group.List.Basic
import Mathlib.Algebra.GroupWithZero.Nat
import Mathlib.Data.List.Infix

/-!
Strings as sequences of Unicode scalar values, with the operations of the
standard library that the bridge applies to them. Byte offsets and lengths are
those of the UTF-8 encoding.
-/

namespace SmsIrc.Text

abbrev Str := List Char

instance : Coe String Str := ⟨String.toList⟩

instance : LawfulBEq Str := inferInstance

/-- `str::len`. -/
def byteLen (s : Str) : Nat := (s.map Char.utf8Size).sum

def charIndicesFrom : Nat → Str → List (Nat × Char)
  | _, [] => []
  | i, c :: cs => (i, c) :: charIndicesFrom (i + c.utf8Size) cs

/-- `str::char_indices`: every character with its byte offset. -/
def charIndices (s : Str) : List (Nat × Char) := charIndicesFrom 0 s

/-- `&s[a..b]`, for offsets at character boundaries. -/
def slice (s : Str) (a b : Nat) : Str :=
  ((charIndices s).filter fun ic => a ≤ ic.1 && ic.1 < b).map Prod.snd

/-- The text of a line that was terminated by a line feed. -/
def stripCr (line : Str) : Str :=
  if line.getLast? = some '\r' then line.dropLast else line

def linesFrom (line : Str) : Str → List Str
  | [] => if line = [] then [] else [line]
  | c :: cs =>
      if c = '\n' then stripCr line :: linesFrom [] cs
      else linesFrom (line ++ [c]) cs

/-- `str::lines`: lines end in a line feed, or in a carriage return and a line
feed; the last one may lack its terminator, and then keeps a bare carriage
return. -/
def lines (s : Str) : List Str := linesFrom [] s

/-- `str::starts_with`. -/
def startsWith (s prefixStr : Str) : Bool := prefixStr.isPrefixOf s

/-- `char::is_whitespace`, the Unicode property `White_Space`. -/
def isWhitespace (c : Char) : Bool :=
  let n := c.toNat
  (9 ≤ n && n ≤ 13) || n = 32 || n = 0x85 || n = 0xA0 || n = 0x1680 ||
    (0x2000 ≤ n && n ≤ 0x200A) || n = 0x2028 || n = 0x2029 || n = 0x202F ||
    n = 0x205F || n = 0x3000

/-- `char::is_ascii_alphanumeric`. -/
def isAsciiAlphanumeric (c : Char) : Bool := c.isAlpha || c.isDigit

/-- `str::split` at a character. -/
def splitOn (sep : Char) : Str → List Str
  | [] => [[]]
  | c :: cs =>
      if c = sep then [] :: splitOn sep cs
      else
        match splitOn sep cs with
        | [] => [[c]]
        | piece :: pieces => (c :: piece) :: pieces

/-- `[T]::join`. -/
def join (sep : Str) : List Str → Str
  | [] => []
  | [piece] => piece
  | piece :: pieces => piece ++ sep ++ join sep pieces

/-- The decimal digits of an unsigned number. -/
def decimal (n : Nat) : Str := Nat.toDigits 10 n

/-- The decimal digits of a signed number. -/
def decimalInt : Int → Str
  | .ofNat n => decimal n
  | .negSucc n => '-' :: decimal (n + 1)

/-- `{:0w$}`. -/
def zeroPadded (width n : Nat) : Str :=
  List.replicate (width - (decimal n).length) '0' ++ decimal n

/-- `{:02X}`. -/
def hexByte (b : UInt8) : Str :=
  [Nat.digitChar (b.toNat / 16), Nat.digitChar (b.toNat % 16)].map Char.toUpper

/-- The digits of a number, from the most significant one, as long as it is in range. -/
def parseDigits (limit : Nat) (overflow : Str) : Nat → Str → Except Str Nat
  | n, [] => .ok n
  | n, c :: cs =>
      if c.isDigit then
        let m := 10 * n + (c.toNat - 48)
        if m ≤ limit then parseDigits limit overflow m cs else .error overflow
      else .error ("invalid digit found in string" : Str)

/-- `str::parse::<i64>`, with the texts of its errors. -/
def parseI64 (s : Str) : Except Str Int :=
  let (negative, digits) := match s with
    | '-' :: rest => (true, rest)
    | '+' :: rest => (false, rest)
    | _ => (false, s)
  if s = [] then .error ("cannot parse integer from empty string" : Str)
  else if digits = [] then .error ("invalid digit found in string" : Str)
  else if negative then
    match parseDigits (2 ^ 63) ("number too small to fit in target type" : Str) 0 digits with
    | .ok n => .ok (-n)
    | .error e => .error e
  else
    match parseDigits (2 ^ 63 - 1) ("number too large to fit in target type" : Str) 0 digits with
    | .ok n => .ok n
    | .error e => .error e

/-- `{:x}`. -/
def hex (n : Nat) : Str := Nat.toDigits 16 n

section Debug

variable (printed : Char → Bool)

/-- `char::escape_debug` in a string; of the characters beyond ASCII, those that
are `printed` stand for themselves. -/
def escapeDebug (c : Char) : Str :=
  if c = '\x00' then ("\\0" : Str)
  else if c = '\t' then ("\\t" : Str)
  else if c = '\r' then ("\\r" : Str)
  else if c = '\n' then ("\\n" : Str)
  else if c = '\\' ∨ c = '"' then ['\\', c]
  else if c.toNat < 127 ∧ 32 ≤ c.toNat ∨ 127 < c.toNat ∧ printed c then [c]
  else ("\\u\x7b" : Str) ++ hex c.toNat ++ ("\x7d" : Str)

/-- `{:?}` of a string. -/
def debugStr (s : Str) : Str := '"' :: s.flatMap (escapeDebug printed) ++ ['"']

end Debug

@[simp] theorem byteLen_nil : byteLen [] = 0 := rfl

@[simp] theorem byteLen_cons (c : Char) (s : Str) :
    byteLen (c :: s) = c.utf8Size + byteLen s := by
  simp [byteLen]

@[simp] theorem byteLen_append (s t : Str) :
    byteLen (s ++ t) = byteLen s + byteLen t := by
  simp [byteLen]

theorem byteLen_pos {s : Str} (h : s ≠ []) : 0 < byteLen s := by
  cases s with
  | nil => exact absurd rfl h
  | cons c s =>
      have := c.utf8Size_pos
      rw [byteLen_cons]
      omega

theorem charIndicesFrom_append (i : Nat) (s t : Str) :
    charIndicesFrom i (s ++ t) =
      charIndicesFrom i s ++ charIndicesFrom (i + byteLen s) t := by
  induction s generalizing i with
  | nil => simp [charIndicesFrom]
  | cons c s ih => simp [charIndicesFrom, ih, Nat.add_assoc]

theorem le_of_mem_charIndicesFrom {i : Nat} {s : Str} {ic : Nat × Char}
    (h : ic ∈ charIndicesFrom i s) : i ≤ ic.1 ∧ ic.1 < i + byteLen s := by
  induction s generalizing i with
  | nil => simp [charIndicesFrom] at h
  | cons c s ih =>
      have hpos := c.utf8Size_pos
      rw [byteLen_cons]
      rcases List.mem_cons.mp h with rfl | h
      · constructor <;> simp only <;> omega
      · have := ih h
        omega

theorem map_snd_charIndicesFrom (i : Nat) (s : Str) :
    (charIndicesFrom i s).map Prod.snd = s := by
  induction s generalizing i with
  | nil => rfl
  | cons c s ih => simp [charIndicesFrom, ih]

theorem slice_append (s t u : Str) :
    slice (s ++ t ++ u) (byteLen s) (byteLen s + byteLen t) = t := by
  have hs : (charIndicesFrom 0 s).filter
      (fun ic => byteLen s ≤ ic.1 && ic.1 < byteLen s + byteLen t) = [] := by
    rw [List.filter_eq_nil_iff]
    intro ic hic
    have := le_of_mem_charIndicesFrom hic
    simp only [Bool.and_eq_true, decide_eq_true_eq]
    omega
  have ht : (charIndicesFrom (byteLen s) t).filter
      (fun ic => byteLen s ≤ ic.1 && ic.1 < byteLen s + byteLen t) =
        charIndicesFrom (byteLen s) t := by
    rw [List.filter_eq_self]
    intro ic hic
    have := le_of_mem_charIndicesFrom hic
    simp only [Bool.and_eq_true, decide_eq_true_eq]
    omega
  have hu : (charIndicesFrom (byteLen s + byteLen t) u).filter
      (fun ic => byteLen s ≤ ic.1 && ic.1 < byteLen s + byteLen t) = [] := by
    rw [List.filter_eq_nil_iff]
    intro ic hic
    have := le_of_mem_charIndicesFrom hic
    simp only [Bool.and_eq_true, decide_eq_true_eq]
    omega
  simp only [slice, charIndices, charIndicesFrom_append, List.filter_append,
    Nat.zero_add, byteLen_append, hs, ht, hu, List.nil_append, List.append_nil]
  exact map_snd_charIndicesFrom _ t

theorem decimal_injective {m n : Nat} (h : decimal m = decimal n) : m = n := by
  have hm : Nat.ofDigitChars 10 (decimal m) 0 = m := Nat.ofDigitChars_ten_toDigits
  rw [h] at hm
  exact hm.symm.trans Nat.ofDigitChars_ten_toDigits

theorem zeroPadded_injective {width m n : Nat}
    (h : zeroPadded width m = zeroPadded width n) : m = n := by
  have hvalue : ∀ k, Nat.ofDigitChars 10 (zeroPadded width k) 0 = k := by
    intro k
    have hzeros : ∀ j, Nat.ofDigitChars 10 (List.replicate j '0' ++ decimal k) 0 = k := by
      intro j
      induction j with
      | zero => exact Nat.ofDigitChars_ten_toDigits
      | succ j ih => simpa [List.replicate_succ, Nat.ofDigitChars] using ih
    exact hzeros _
  rw [← hvalue m, h, hvalue n]

/-- No line contains a line feed, and a line's carriage returns are the text's. -/
theorem mem_linesFrom {line s : Str} {l : Str} (h : l ∈ linesFrom line s)
    {c : Char} (hc : c ∈ l) : c ∈ line ∨ c ∈ s := by
  induction s generalizing line with
  | nil =>
      by_cases hline : line = []
      · simp [linesFrom, hline] at h
      · simp only [linesFrom, hline, if_false, List.mem_singleton] at h
        exact .inl (h ▸ hc)
  | cons d s ih =>
      by_cases hd : d = '\n'
      · simp only [linesFrom, hd, if_true] at h
        rcases List.mem_cons.mp h with rfl | h
        · refine .inl ?_
          by_cases hcr : line.getLast? = some '\r'
          · rw [stripCr, if_pos hcr] at hc
            exact List.mem_of_mem_dropLast hc
          · rwa [stripCr, if_neg hcr] at hc
        · rcases ih h with h | h
          · simp at h
          · exact .inr (List.mem_cons_of_mem _ h)
      · simp only [linesFrom, hd, if_false] at h
        rcases ih h with h | h
        · rcases List.mem_append.mp h with h | h
          · exact .inl h
          · exact .inr (by simp [List.mem_singleton.mp h])
        · exact .inr (List.mem_cons_of_mem _ h)

theorem newline_notMem_linesFrom {line s : Str} (hline : '\n' ∉ line) {l : Str}
    (h : l ∈ linesFrom line s) : '\n' ∉ l := by
  induction s generalizing line with
  | nil =>
      by_cases hempty : line = []
      · simp [linesFrom, hempty] at h
      · simp only [linesFrom, hempty, if_false, List.mem_singleton] at h
        exact h ▸ hline
  | cons d s ih =>
      by_cases hd : d = '\n'
      · simp only [linesFrom, hd, if_true] at h
        rcases List.mem_cons.mp h with rfl | h
        · intro hmem
          by_cases hcr : line.getLast? = some '\r'
          · rw [stripCr, if_pos hcr] at hmem
            exact hline (List.mem_of_mem_dropLast hmem)
          · rw [stripCr, if_neg hcr] at hmem
            exact hline hmem
        · exact ih (by simp) h
      · simp only [linesFrom, hd, if_false] at h
        refine ih ?_ h
        simp only [List.mem_append, List.mem_singleton, not_or]
        exact ⟨hline, fun he => hd he.symm⟩

theorem newline_notMem_lines {s l : Str} (h : l ∈ lines s) : '\n' ∉ l :=
  newline_notMem_linesFrom (by simp) h

theorem mem_of_mem_lines {s l : Str} (h : l ∈ lines s) {c : Char} (hc : c ∈ l) :
    c ∈ s := by
  rcases mem_linesFrom h hc with h | h
  · simp at h
  · exact h

end SmsIrc.Text
