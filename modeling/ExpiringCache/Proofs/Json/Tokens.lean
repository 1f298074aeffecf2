import ExpiringCache.Json.Parser
import ExpiringCache.Json.Printer
import ExpiringCache.Proofs.Utf8

/-!
# Tokens read back

Each token that the writer of JSON puts down is taken back by its reader, whatever text follows:
words (`word_encode`), strings (`string_quote`) and integers (`number_toString`). A number has no
end of its own, so of the text that follows one it is asked that it cannot go on with the number
(`Token.Parted`).
-/

namespace ExpiringCache.Json.Token

open Utf8 (encode)

/-! ### Bytes of ASCII characters -/

theorem utf8EncodeChar_ascii {c : Char} (h : c.toNat < 0x80) :
    String.utf8EncodeChar c = [byte c] := by
  have hc : c.val.toNat = c.toNat := rfl
  rw [String.utf8EncodeChar]
  simp only [hc]
  rw [if_pos (by omega)]
  rfl

/-- A character outside ASCII has no byte of ASCII. -/
theorem le_of_mem_utf8EncodeChar {c : Char} (h : 0x80 ≤ c.toNat) {b : UInt8}
    (hb : b ∈ String.utf8EncodeChar c) : 0x80 ≤ b.toNat := by
  have hc : c.val.toNat = c.toNat := rfl
  have hbyte : ∀ n, 0x80 ≤ n → n < 0x100 → b = UInt8.ofNat n → 0x80 ≤ b.toNat := by
    rintro n hlow hhigh rfl
    rw [UInt8.toNat_ofNat']
    omega
  rw [String.utf8EncodeChar] at hb
  simp only [hc] at hb
  split at hb
  · omega
  · split at hb
    · rcases List.mem_cons.1 hb with hb | hb
      · exact hbyte _ (by omega) (by omega) hb
      · exact hbyte _ (by omega) (by omega) (List.mem_singleton.1 hb)
    · split at hb
      · simp only [List.mem_cons, List.not_mem_nil, or_false] at hb
        rcases hb with hb | hb | hb
        · exact hbyte _ (by omega) (by omega) hb
        · exact hbyte _ (by omega) (by omega) hb
        · exact hbyte _ (by omega) (by omega) hb
      · simp only [List.mem_cons, List.not_mem_nil, or_false] at hb
        rcases hb with hb | hb | hb | hb
        · exact hbyte _ (by omega) (by omega) hb
        · exact hbyte _ (by omega) (by omega) hb
        · exact hbyte _ (by omega) (by omega) hb
        · exact hbyte _ (by omega) (by omega) hb

theorem toNat_byte {c : Char} (h : c.toNat < 0x100) : (byte c).toNat = c.toNat := by
  rw [byte, UInt8.toNat_ofNat']
  omega

/-! ### Words and marks -/

theorem after?_append (word rest : Bytes) : after? word (word ++ rest) = some rest := by
  induction word with
  | nil => rfl
  | cons b word ih => simp [after?, ih]

/-- A word is read back as the value it stands for. -/
theorem word_encode (text : String) (value : Json) (rest : Bytes) :
    word text value (encode text ++ rest) = .ok (value, rest) := by
  rw [word, after?_append]

theorem skipBlanks_cons {b : UInt8} {rest : Bytes} (h : isBlank b = false) :
    skipBlanks (b :: rest) = b :: rest := by
  rw [skipBlanks, List.dropWhile_cons, h]
  rfl

theorem mark_cons {c : Char} {rest : Bytes} (h : isBlank (byte c) = false) :
    mark c (byte c :: rest) = .ok rest := by
  rw [mark, skipBlanks_cons h]
  simp

theorem mark?_cons {c : Char} {rest : Bytes} (h : isBlank (byte c) = false) :
    mark? c (byte c :: rest) = some rest := by
  rw [mark?, skipBlanks_cons h]
  simp

theorem mark?_cons_ne {c : Char} {b : UInt8} {rest : Bytes} (hblank : isBlank b = false)
    (hne : b ≠ byte c) : mark? c (b :: rest) = none := by
  rw [mark?, skipBlanks_cons hblank]
  simp [hne]

/-! ### Strings -/

/-- The bytes of a string between its quotes. -/
def inside (text : String) : Bytes :=
  text.toList.flatMap fun c => (escape c).flatMap String.utf8EncodeChar

theorem encode_quote (text : String) :
    encode (quote text) = byte '"' :: (inside text ++ [byte '"']) := by
  have hquote : encode "\"" = [byte '"'] := rfl
  rw [quote, Utf8.encode_append, Utf8.encode_append, hquote, encode, inside, String.toList_ofList,
    List.flatMap_assoc]
  rfl

theorem stringFrom_quote (read rest : Bytes) :
    stringFrom read (byte '"' :: rest) = .ok (read.reverse, rest) := by
  rw [stringFrom.eq_def]
  exact if_pos rfl

/-- A backslash and a letter stand for one byte. -/
theorem stringFrom_letter {e x : UInt8} (hu : e ≠ byte 'u') (he : escaped? e = some x)
    (read rest : Bytes) :
    stringFrom read (byte '\\' :: e :: rest) = stringFrom (x :: read) rest := by
  rw [stringFrom.eq_def]
  dsimp only
  rw [if_neg (by decide), if_pos rfl, if_neg hu, he]

/-- Bytes that are neither quotes nor backslashes nor control characters stand for themselves. -/
theorem stringFrom_raw {bytes : Bytes}
    (h : ∀ b ∈ bytes, b ≠ byte '"' ∧ b ≠ byte '\\' ∧ 0x20 ≤ b.toNat) :
    ∀ (read rest : Bytes), stringFrom read (bytes ++ rest) = stringFrom (bytes.reverse ++ read) rest := by
  induction bytes with
  | nil => intro read rest; rfl
  | cons b bytes ih =>
    intro read rest
    obtain ⟨hquote, hslash, hcontrol⟩ := h b List.mem_cons_self
    have hlt : ¬ b < 0x20 := by rw [UInt8.lt_iff_toNat_lt]; simpa using hcontrol
    have hstep : stringFrom read (b :: (bytes ++ rest)) = stringFrom (b :: read) (bytes ++ rest) := by
      rw [stringFrom.eq_def]
      dsimp only
      rw [if_neg hquote, if_neg hslash, if_neg hlt]
    rw [List.cons_append, hstep, ih fun x hx => h x (List.mem_cons_of_mem _ hx)]
    simp

/-- The four hexadecimal digits of a control character stand for it. -/
theorem unit?_hexPair : ∀ n < 32, unit? (byte '0') (byte '0') (byte (Nat.digitChar (n / 16)))
    (byte (Nat.digitChar (n % 16))) = some n := by
  decide

theorem flatMap_hexPair : ∀ n < 32, (hexPair n).flatMap String.utf8EncodeChar =
    [byte (Nat.digitChar (n / 16)), byte (Nat.digitChar (n % 16))] := by
  decide

/-- A control character is written by number and read back. -/
theorem stringFrom_control {n : Nat} (hn : n < 32) (read rest : Bytes) :
    stringFrom read (byte '\\' :: byte 'u' :: byte '0' :: byte '0' ::
        byte (Nat.digitChar (n / 16)) :: byte (Nat.digitChar (n % 16)) :: rest) =
      stringFrom ((String.utf8EncodeChar (Char.ofNat n)).reverse ++ read) rest := by
  have htrailing : isTrailing n = false := by simp [isTrailing]; omega
  have hleading : isLeading n = false := by simp [isLeading]; omega
  rw [stringFrom.eq_def]
  dsimp only
  rw [if_neg (by decide), if_pos rfl, if_pos rfl, unit?_hexPair n hn]
  simp only [htrailing, hleading, Bool.false_eq_true, if_false]
  rfl

/-- A character is read back from how it is written inside a string. -/
theorem stringFrom_escape (c : Char) (read rest : Bytes) :
    stringFrom read ((escape c).flatMap String.utf8EncodeChar ++ rest) =
      stringFrom ((String.utf8EncodeChar c).reverse ++ read) rest := by
  -- Seven characters have a letter of their own, other control characters are written by their
  -- number, and all others stand for themselves.
  by_cases h1 : c = '"'
  · subst h1; exact stringFrom_letter (e := byte '"') (by decide) rfl read rest
  by_cases h2 : c = '\\'
  · subst h2; exact stringFrom_letter (e := byte '\\') (by decide) rfl read rest
  by_cases h3 : c = '\n'
  · subst h3; exact stringFrom_letter (e := byte 'n') (by decide) rfl read rest
  by_cases h4 : c = '\r'
  · subst h4; exact stringFrom_letter (e := byte 'r') (by decide) rfl read rest
  by_cases h5 : c = '\t'
  · subst h5; exact stringFrom_letter (e := byte 't') (by decide) rfl read rest
  by_cases h6 : c = '\x08'
  · subst h6; exact stringFrom_letter (e := byte 'b') (by decide) rfl read rest
  by_cases h7 : c = '\x0C'
  · subst h7; exact stringFrom_letter (e := byte 'f') (by decide) rfl read rest
  by_cases h8 : c.toNat < 0x20
  · have hcontrol := stringFrom_control h8 read rest
    rw [Char.ofNat_toNat] at hcontrol
    rw [← hcontrol, escape, if_neg h1, if_neg h2, if_neg h3, if_neg h4, if_neg h5, if_neg h6,
      if_neg h7, if_pos h8, List.flatMap_append, flatMap_hexPair _ h8]
    rfl
  · rw [escape, if_neg h1, if_neg h2, if_neg h3, if_neg h4, if_neg h5, if_neg h6, if_neg h7,
      if_neg h8, List.flatMap_singleton]
    -- No byte of such a character is a quote, a backslash or a control byte.
    refine stringFrom_raw (fun b hb => ?_) read rest
    by_cases hascii : c.toNat < 0x80
    · rw [utf8EncodeChar_ascii hascii, List.mem_singleton] at hb
      have hbyte : ∀ d : Char, d.toNat < 0x80 → c ≠ d → b ≠ byte d := by
        rintro d hd hne heq
        have hnat := congrArg UInt8.toNat (hb.symm.trans heq)
        rw [toNat_byte (by omega), toNat_byte (by omega)] at hnat
        exact hne (Char.toNat_inj.1 hnat)
      refine ⟨hbyte _ (by decide) h1, hbyte _ (by decide) h2, ?_⟩
      rw [hb, toNat_byte (by omega)]
      omega
    · have hhigh := le_of_mem_utf8EncodeChar (by omega) hb
      refine ⟨?_, ?_, by omega⟩
      · rintro rfl; exact absurd hhigh (by decide)
      · rintro rfl; exact absurd hhigh (by decide)

theorem stringFrom_inside (cs : List Char) : ∀ (read rest : Bytes),
    stringFrom read ((cs.flatMap fun c => (escape c).flatMap String.utf8EncodeChar) ++
        byte '"' :: rest) =
      .ok (read.reverse ++ cs.flatMap String.utf8EncodeChar, rest) := by
  induction cs with
  | nil => intro read rest; simpa using stringFrom_quote read rest
  | cons c cs ih =>
    intro read rest
    rw [List.flatMap_cons, List.append_assoc, stringFrom_escape, ih]
    simp

/-- A string is read back, its opening quote having been read. -/
theorem string_inside (text : String) (rest : Bytes) :
    string (inside text ++ byte '"' :: rest) = .ok (text, rest) := by
  have hbytes : [].reverse ++ text.toList.flatMap String.utf8EncodeChar = encode text := rfl
  simp only [string, inside, stringFrom_inside, hbytes, Utf8.decode?_encode]

/-! ### Integers -/

/-- The text cannot go on with a number: it begins neither with a digit nor with what a fraction or
an exponent begins with. -/
def Parted (rest : Bytes) : Prop :=
  ∀ b ∈ rest.head?, isDigit b = false ∧ b ≠ byte '.' ∧ b ≠ byte 'e' ∧ b ≠ byte 'E'

@[simp] theorem parted_nil : Parted [] := by simp [Parted]

theorem parted_cons {b : UInt8} {rest : Bytes}
    (h : isDigit b = false ∧ b ≠ byte '.' ∧ b ≠ byte 'e' ∧ b ≠ byte 'E') : Parted (b :: rest) := by
  intro x hx
  obtain rfl : b = x := by simpa using hx
  exact h

/-- The bytes of a natural number. -/
def digitBytes (n : Nat) : Bytes := (Nat.toDigits 10 n).map byte

theorem toNat_of_mem_toDigits {n : Nat} {c : Char} (h : c ∈ Nat.toDigits 10 n) :
    48 ≤ c.toNat ∧ c.toNat ≤ 57 := by
  have hdigit := Nat.isDigit_of_mem_toDigits (by decide) (by decide) h
  simp only [Char.isDigit, Bool.and_eq_true, decide_eq_true_eq] at hdigit
  exact ⟨hdigit.1, hdigit.2⟩

/-- The bytes of ASCII characters, one each. -/
theorem flatMap_ascii {cs : List Char} (h : ∀ c ∈ cs, c.toNat < 0x80) :
    cs.flatMap String.utf8EncodeChar = cs.map byte := by
  induction cs with
  | nil => rfl
  | cons c cs ih =>
    rw [List.flatMap_cons, utf8EncodeChar_ascii (h c List.mem_cons_self),
      ih fun d hd => h d (List.mem_cons_of_mem _ hd)]
    rfl

theorem encode_repr (n : Nat) : encode n.repr = digitBytes n := by
  rw [encode, digitBytes, Nat.toList_repr]
  refine flatMap_ascii fun c hc => ?_
  have := toNat_of_mem_toDigits hc
  omega

theorem isDigit_of_mem_digitBytes {n : Nat} {b : UInt8} (h : b ∈ digitBytes n) :
    isDigit b = true := by
  obtain ⟨c, hc, rfl⟩ := List.mem_map.1 h
  obtain ⟨hlow, hhigh⟩ := toNat_of_mem_toDigits hc
  simp only [isDigit, Bool.and_eq_true, decide_eq_true_eq, UInt8.le_iff_toNat_le,
    toNat_byte (show c.toNat < 0x100 by omega)]
  exact ⟨hlow, hhigh⟩

/-- The digits of a number are taken up to where they end. -/
theorem digits_digitBytes (n : Nat) {rest : Bytes} (h : Parted rest) :
    digits (digitBytes n ++ rest) = (Nat.toDigits 10 n).map (fun c => c.toNat - 48) := by
  have hrest : rest.takeWhile isDigit = [] := by
    cases rest with
    | nil => rfl
    | cons b rest => rw [List.takeWhile_cons, (h b (by simp)).1]; rfl
  rw [digits, List.takeWhile_append_of_pos fun b hb => isDigit_of_mem_digitBytes hb, hrest,
    List.append_nil, digitBytes, List.map_map]
  refine List.map_congr_left fun c hc => ?_
  have := toNat_of_mem_toDigits hc
  simp [toNat_byte (show c.toNat < 0x100 by omega)]

theorem afterDigits_digitBytes (n : Nat) {rest : Bytes} (h : Parted rest) :
    afterDigits (digitBytes n ++ rest) = rest := by
  rw [afterDigits, List.dropWhile_append_of_pos fun b hb => isDigit_of_mem_digitBytes hb]
  cases rest with
  | nil => rfl
  | cons b rest => rw [List.dropWhile_cons, (h b (by simp)).1]; rfl

/-- The digits of a number stand for the number. -/
theorem ofDigits_toDigits (n : Nat) :
    Numeral.ofDigits ((Nat.toDigits 10 n).map (fun c => c.toNat - 48)) = n := by
  conv => rhs; rw [← Nat.ofDigitChars_ten_toDigits (n := n)]
  rw [Numeral.ofDigits, Nat.ofDigitChars_eq_foldl, List.foldl_map]
  congr 1
  funext m c
  rw [Nat.mul_comm]
  rfl

/-- A number is written without a leading zero, unless it is zero. -/
theorem toDigits_head (n : Nat) : ∃ c cs, Nat.toDigits 10 n = c :: cs ∧ (cs = [] ∨ c ≠ '0') := by
  induction n using Nat.strongRecOn with
  | _ n ih =>
    by_cases hn : n < 10
    · exact ⟨n.digitChar, [], Nat.toDigits_of_lt_base hn, .inl rfl⟩
    · obtain ⟨c, cs, hcs, hc⟩ := ih (n / 10) (by omega)
      refine ⟨c, cs ++ [(n % 10).digitChar], ?_, .inr ?_⟩
      · rw [Nat.toDigits_of_base_le (by decide) (by omega), hcs]
        rfl
      · rcases hc with rfl | hc
        · -- a single digit before the last is the quotient itself, which is not zero
          rintro rfl
          have hzero := Nat.ofDigitChars_ten_toDigits (n := n / 10)
          rw [hcs] at hzero
          simp [Nat.ofDigitChars_cons] at hzero
          omega
        · exact hc

theorem isWhole_toDigits (n : Nat) :
    isWhole ((Nat.toDigits 10 n).map (fun c => c.toNat - 48)) = true := by
  obtain ⟨c, cs, hcs, hc⟩ := toDigits_head n
  rw [hcs]
  cases cs with
  | nil => rfl
  | cons d ds =>
    have hne : c ≠ '0' := hc.resolve_left (by simp)
    have hlow := (toNat_of_mem_toDigits (c := c) (n := n) (by simp [hcs])).1
    have hzero : c.toNat ≠ 48 := fun h => hne (Char.toNat_inj.1 h)
    simp only [List.map_cons, isWhole, bne_iff_ne, ne_eq]
    omega

theorem fraction_parted {rest : Bytes} (h : Parted rest) : fraction rest = .ok (none, rest) := by
  cases rest with
  | nil => rfl
  | cons b rest => rw [fraction.eq_def]; dsimp only; rw [if_neg (h b (by simp)).2.1]

theorem exponent_parted {rest : Bytes} (h : Parted rest) : exponent rest = .ok (none, rest) := by
  cases rest with
  | nil => rfl
  | cons b rest =>
    obtain ⟨-, -, he, hE⟩ := h b (by simp)
    rw [exponent.eq_def]
    dsimp only
    rw [if_neg (by simp [he, hE])]

/-- The numeral of an integer. -/
def integer (negative : Bool) (n : Nat) : Numeral :=
  ⟨negative, (Nat.toDigits 10 n).map (fun c => c.toNat - 48), none, none⟩

theorem number_digits {s rest : Bytes} (negative : Bool) (n : Nat) (h : Parted rest)
    (hsign : (s.head? == some (byte '-')) = negative)
    (hs : (if negative then s.tail else s) = digitBytes n ++ rest) :
    number s = .ok (integer negative n, rest) := by
  simp only [number, hsign, hs, digits_digitBytes n h, afterDigits_digitBytes n h,
    isWhole_toDigits, fraction_parted h, exponent_parted h, if_true]
  rfl

/-- The first byte of a number is a digit. -/
theorem digitBytes_cons (n : Nat) : ∃ b bs, digitBytes n = b :: bs ∧ isDigit b = true := by
  obtain ⟨c, cs, hcs, -⟩ := toDigits_head n
  refine ⟨byte c, cs.map byte, by rw [digitBytes, hcs]; rfl, ?_⟩
  exact isDigit_of_mem_digitBytes (n := n) (by simp [digitBytes, hcs])

theorem ofDigits_integer (negative : Bool) (n : Nat) :
    Numeral.ofDigits (integer negative n).whole = n :=
  ofDigits_toDigits n

theorem integer?_of_lt {n : Nat} (h : n < UInt64.size) :
    (integer false n).integer? = some (n : Int) := by
  show (if Numeral.ofDigits _ < UInt64.size then some _ else none) = _
  rw [ofDigits_integer, if_pos h]

theorem integer?_neg {n : Nat} (hpos : 0 < n) (h : n ≤ 0x8000_0000_0000_0000) :
    (integer true n).integer? = some (-(n : Int)) := by
  show (if 0 < Numeral.ofDigits _ ∧ Numeral.ofDigits _ ≤ 0x8000_0000_0000_0000 then some _
    else none) = _
  rw [ofDigits_integer, if_pos ⟨hpos, h⟩]

/-- An integer that fits is read back from its text. -/
theorem number_toString {n : Int} (h : isIntegral n = true) {rest : Bytes} (hrest : Parted rest) :
    ∃ b bs numeral, encode (toString n) = b :: bs ∧ beginsNumber b = true ∧
      number (b :: (bs ++ rest)) = .ok (numeral, rest) ∧ numberValue numeral = some (.int n) := by
  simp only [isIntegral, Bool.and_eq_true, decide_eq_true_eq] at h
  cases n with
  | ofNat m =>
    obtain ⟨b, bs, hbytes, hb⟩ := digitBytes_cons m
    have hminus : b ≠ byte '-' := by rintro rfl; exact absurd hb (by decide)
    have htext : encode (toString (Int.ofNat m)) = digitBytes m := encode_repr m
    refine ⟨b, bs, integer false m, htext.trans hbytes, by simp [beginsNumber, hb], ?_, ?_⟩
    · refine number_digits false m hrest (by simp [hminus]) ?_
      rw [hbytes]
      rfl
    · rw [numberValue, integer?_of_lt (by have := h.2; simp only [Int.ofNat_eq_natCast] at this; omega)]
      rfl
  | negSucc m =>
    have htext : encode (toString (Int.negSucc m)) = byte '-' :: digitBytes (m + 1) := by
      have hrepr : toString (Int.negSucc m) = "-" ++ (m + 1).repr := rfl
      rw [hrepr, Utf8.encode_append, encode_repr]
      rfl
    refine ⟨byte '-', digitBytes (m + 1), integer true (m + 1), htext, by decide, ?_, ?_⟩
    · exact number_digits true (m + 1) hrest (by simp) (by simp)
    · rw [numberValue, integer?_neg (by omega) (by have := h.1; omega)]
      rfl

end ExpiringCache.Json.Token
