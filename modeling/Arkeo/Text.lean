import Mathlib

/-! # Text

The pieces of a string library that request headers are taken apart with:
splitting at a separator, reading decimal numbers of 64 bits, and hexadecimal
bytes.  A number that cannot be read still has a value, the one a caller that
drops the error goes on with: zero when a character is wrong, the nearest bound
when the number is too large.
-/
namespace Text

/-! ## Characters -/

/-- What holds of the characters of a text is decided at these, and not at all that there are. -/
instance decidableForallMem (cs : List Char) (p : Char → Prop) [DecidablePred p] :
    Decidable (∀ c ∈ cs, p c) :=
  List.decidableBAll p cs

instance decidableExistsMem (cs : List Char) (p : Char → Prop) [DecidablePred p] :
    Decidable (∃ c ∈ cs, p c) :=
  List.decidableBEx p cs

/-! ## Splitting -/

/-- Splits at the first `n` separators; `field` is the field being read, in
reverse. -/
def splitAux (sep : Char) : ℕ → List Char → List Char → List (List Char)
  | _, field, [] => [field.reverse]
  | 0, field, cs => [field.reverse ++ cs]
  | n + 1, field, c :: cs =>
      if c = sep then field.reverse :: splitAux sep n [] cs
      else splitAux sep (n + 1) (c :: field) cs

/-- `strings.SplitN(s, sep, n)` for a positive `n`: at most `n` fields, the last one
unsplit. -/
def splitN (s : String) (sep : Char) (n : ℕ) : List String :=
  (splitAux sep (n - 1) [] s.toList).map String.ofList

/-- `strings.Split`. -/
def split (s : String) (sep : Char) : List String := splitN s sep (s.length + 1)

/-- `before, _, _ = strings.Cut(s, sep)`: all of `s` when there is no separator. -/
def before (s : String) (sep : Char) : String := (splitN s sep 2).headD ""

/-! ## Decimal numbers -/

def digit? (c : Char) : Option ℕ :=
  if '0' ≤ c ∧ c ≤ '9' then some (c.toNat - '0'.toNat) else none

/-- The digits from left to right; a number past the bound stops the reading. -/
def parseDigits : List Char → ℕ → ℕ × Bool
  | [], n => (n, true)
  | c :: cs, n =>
      match digit? c with
      | none => (0, false)
      | some d => if 2 ^ 64 ≤ 10 * n + d then (2 ^ 64 - 1, false) else parseDigits cs (10 * n + d)

/-- `strconv.ParseUint(s, 10, 64)`: the value, and whether there was no error. -/
def parseUint (s : String) : ℕ × Bool :=
  match s.toList with
  | [] => (0, false)
  | cs => parseDigits cs 0

/-- A number without its sign, as a 64-bit integer. -/
def signed (neg : Bool) : ℕ × Bool → Int64 × Bool
  | (n, ok) =>
      -- of the errors of the digits only that of the range has a value
      if !ok && n = 0 then (0, false)
      else if !neg && 2 ^ 63 ≤ n then (Int64.maxValue, false)
      else if neg && 2 ^ 63 < n then (Int64.minValue, false)
      else (Int64.ofInt (if neg then -n else n), true)

/-- `strconv.ParseInt(s, 10, 64)`. -/
def parseInt (s : String) : Int64 × Bool :=
  match s.toList with
  | [] => (0, false)
  | '+' :: cs => signed false (parseUint (String.ofList cs))
  | '-' :: cs => signed true (parseUint (String.ofList cs))
  | cs => signed false (parseUint (String.ofList cs))

/-- The value of a number, or nothing when it cannot be read. -/
def read {α : Type} : α × Bool → Option α
  | (a, true) => some a
  | (_, false) => none

/-! ## Hexadecimal bytes -/

def hexDigit (n : ℕ) : Char :=
  if n < 10 then Char.ofNat (48 + n) else Char.ofNat (87 + n)

def hexValue? (c : Char) : Option ℕ :=
  if '0' ≤ c ∧ c ≤ '9' then some (c.toNat - 48)
  else if 'a' ≤ c ∧ c ≤ 'f' then some (c.toNat - 87)
  else if 'A' ≤ c ∧ c ≤ 'F' then some (c.toNat - 55)
  else none

/-- `hex.EncodeToString`. -/
def hexEncode (bs : List UInt8) : String :=
  String.ofList (bs.flatMap fun b => [hexDigit (b.toNat / 16), hexDigit (b.toNat % 16)])

def hexBytes : List Char → Option (List UInt8)
  | [] => some []
  | [_] => none
  | hi :: lo :: cs =>
      (hexValue? hi).bind fun h => (hexValue? lo).bind fun l =>
        (hexBytes cs).map fun bs => UInt8.ofNat (16 * h + l) :: bs

/-- `hex.DecodeString`. -/
def hexDecode (s : String) : Option (List UInt8) := hexBytes s.toList

theorem hexValue_hexDigit {n : ℕ} (h : n < 16) : hexValue? (hexDigit n) = some n := by
  have hall : ∀ m : Fin 16, hexValue? (hexDigit m) = some m.val := by decide
  exact hall ⟨n, h⟩

theorem hexBytes_flatMap (bs : List UInt8) :
    hexBytes (bs.flatMap fun b => [hexDigit (b.toNat / 16), hexDigit (b.toNat % 16)]) =
      some bs := by
  induction bs with
  | nil => rfl
  | cons b bs ih =>
    have hb := b.toNat_lt
    have hbyte : UInt8.ofNat (16 * (b.toNat / 16) + b.toNat % 16) = b := by
      rw [Nat.div_add_mod, UInt8.ofNat_toNat]
    rw [List.flatMap_cons, List.cons_append, List.cons_append, List.nil_append, hexBytes,
      hexValue_hexDigit (by omega), hexValue_hexDigit (by omega), ih]
    exact congrArg some (congrArg (· :: bs) hbyte)

/-- **What is written in hexadecimal is read back.** -/
theorem hexDecode_hexEncode (bs : List UInt8) : hexDecode (hexEncode bs) = some bs := by
  rw [hexDecode, hexEncode, String.toList_ofList]
  exact hexBytes_flatMap bs

/-! ## Bytes -/

theorem toUTF8_eq_flatMap (s : String) :
    s.toUTF8.data.toList = s.toList.flatMap String.utf8EncodeChar := by
  rw [show s.toUTF8 = s.toByteArray from rfl, ← String.utf8Encode_toList, List.utf8Encode,
    List.toList_data_toByteArray]

/-! ## Fields of a text

A text of fields is read back when the separator is in none of the fields before
the last. -/

theorem field_inj {α : Type} {sep : α} {xs ys rest rest' : List α} (hx : sep ∉ xs) (hy : sep ∉ ys)
    (h : xs ++ sep :: rest = ys ++ sep :: rest') : xs = ys ∧ rest = rest' := by
  induction xs generalizing ys with
  | nil =>
    cases ys with
    | nil => exact ⟨rfl, (List.cons.inj h).2⟩
    | cons y ys =>
      obtain ⟨rfl, -⟩ := List.cons.inj h
      exact absurd List.mem_cons_self hy
  | cons x xs ih =>
    cases ys with
    | nil =>
      obtain ⟨rfl, -⟩ := List.cons.inj h
      exact absurd List.mem_cons_self hx
    | cons y ys =>
      obtain ⟨rfl, htail⟩ := List.cons.inj h
      obtain ⟨rfl, hrest⟩ := ih (fun hm => hx (List.mem_cons_of_mem _ hm))
        (fun hm => hy (List.mem_cons_of_mem _ hm)) htail
      exact ⟨rfl, hrest⟩

/-- A field that does not contain the separator is split off. -/
theorem splitAux_field {sep : Char} {xs : List Char} (hx : sep ∉ xs) (n : ℕ)
    (field rest : List Char) :
    splitAux sep (n + 1) field (xs ++ sep :: rest) =
      (field.reverse ++ xs) :: splitAux sep n [] rest := by
  induction xs generalizing field with
  | nil => rw [List.nil_append, splitAux, if_pos rfl, List.append_nil]
  | cons x xs ih =>
    obtain ⟨hne, hxs⟩ := not_or.mp (mt List.mem_cons.mpr hx)
    rw [List.cons_append, splitAux, if_neg (Ne.symm hne), ih hxs, List.reverse_cons,
      List.append_assoc, List.singleton_append]

theorem splitAux_last (sep : Char) (rest : List Char) : splitAux sep 0 [] rest = [rest] := by
  cases rest <;> rfl

theorem toList_natRepr (n : ℕ) : n.repr.toList = Nat.toDigits 10 n := by
  rw [Nat.repr_eq_ofList_toDigits, String.toList_ofList]

theorem natRepr_inj {m n : ℕ} (h : m.repr = n.repr) : m = n := by
  have hd : Nat.toDigits 10 m = Nat.toDigits 10 n := by
    rw [← toList_natRepr, ← toList_natRepr, h]
  rw [← Nat.ofDigitChars_ten_toDigits (n := m), hd, Nat.ofDigitChars_ten_toDigits]

theorem notMem_natRepr {c : Char} (hc : c.isDigit = false) (n : ℕ) : c ∉ n.repr.toList := by
  intro hm
  rw [toList_natRepr] at hm
  rw [Nat.isDigit_of_mem_toDigits (by decide) (by decide) hm] at hc
  cases hc

theorem notMem_intRepr {c : Char} (hc : c.isDigit = false) (hm : c ≠ '-') (i : ℤ) :
    c ∉ i.repr.toList := by
  rw [Int.repr_eq_if]
  split
  · exact notMem_natRepr hc _
  · rw [String.toList_append]
    intro h
    rcases List.mem_append.mp h with h | h
    · exact hm (List.mem_singleton.mp h)
    · exact notMem_natRepr hc _ h

/-- The digits of a number do not begin with a sign. -/
theorem natRepr_ne_neg (m n : ℕ) : m.repr ≠ "-" ++ n.repr := by
  intro h
  have hmem : '-' ∈ m.repr.toList := by
    rw [h, String.toList_append]
    exact List.mem_append_left _ (List.mem_singleton.mpr rfl)
  exact notMem_natRepr rfl m hmem

theorem intRepr_inj {i j : ℤ} (h : i.repr = j.repr) : i = j := by
  rw [Int.repr_eq_if, Int.repr_eq_if] at h
  split at h
  · split at h
    · have := natRepr_inj h
      omega
    · exact absurd h (natRepr_ne_neg _ _)
  · split at h
    · exact absurd h.symm (natRepr_ne_neg _ _)
    · have := natRepr_inj ((String.append_right_inj _).mp h)
      omega

/-! ## Numbers are read back -/

theorem digit?_of_isDigit {c : Char} (h : c.isDigit = true) :
    digit? c = some (c.toNat - '0'.toNat) := by
  refine if_pos ?_
  obtain ⟨hlo, hhi⟩ := Char.isDigit_iff_toNat.mp h
  exact ⟨hlo, hhi⟩

theorem le_ofDigitChars (cs : List Char) (n : ℕ) : n ≤ Nat.ofDigitChars 10 cs n := by
  induction cs generalizing n with
  | nil => exact Nat.le_of_eq Nat.ofDigitChars_nil.symm
  | cons c cs ih =>
    have := ih (10 * n + (c.toNat - '0'.toNat))
    rw [Nat.ofDigitChars_cons]
    omega

theorem parseDigits_of_isDigit {cs : List Char} {n : ℕ} (hd : ∀ c ∈ cs, c.isDigit = true)
    (hlt : Nat.ofDigitChars 10 cs n < 2 ^ 64) :
    parseDigits cs n = (Nat.ofDigitChars 10 cs n, true) := by
  induction cs generalizing n with
  | nil => rw [Nat.ofDigitChars_nil]; rfl
  | cons c cs ih =>
    obtain ⟨hc, hcs⟩ := List.forall_mem_cons.mp hd
    rw [Nat.ofDigitChars_cons] at hlt ⊢
    have hle := le_ofDigitChars cs (10 * n + (c.toNat - '0'.toNat))
    simp only [parseDigits, digit?_of_isDigit hc]
    rw [if_neg (by omega)]
    exact ih hcs hlt

/-- **What is written in decimal is read back**, unsigned and signed. -/
theorem parseUint_natRepr {n : ℕ} (h : n < 2 ^ 64) : parseUint n.repr = (n, true) := by
  unfold parseUint
  rw [toList_natRepr]
  split
  · rename_i hnil
    exact absurd hnil Nat.toDigits_ne_nil
  · have hval : Nat.ofDigitChars 10 (Nat.toDigits 10 n) 0 = n := Nat.ofDigitChars_ten_toDigits
    rw [parseDigits_of_isDigit (fun c hc => Nat.isDigit_of_mem_toDigits (by decide) (by decide) hc)
      (by rw [hval]; exact h), hval]

/-- Digits that are read without an error are read as their number. -/
theorem read_parseDigits {cs : List Char} {n m : ℕ} (hd : ∀ c ∈ cs, c.isDigit = true)
    (h : read (parseDigits cs n) = some m) : m = Nat.ofDigitChars 10 cs n := by
  induction cs generalizing n with
  | nil =>
    rw [Nat.ofDigitChars_nil]
    exact (Option.some.inj h).symm
  | cons c cs ih =>
    obtain ⟨hc, hcs⟩ := List.forall_mem_cons.mp hd
    simp only [parseDigits, digit?_of_isDigit hc] at h
    split at h
    · cases h
    · rw [Nat.ofDigitChars_cons]
      exact ih hcs h

theorem read_parseUint_natRepr {n m : ℕ} (h : read (parseUint n.repr) = some m) : m = n := by
  unfold parseUint at h
  rw [toList_natRepr] at h
  split at h
  · cases h
  · have hval : Nat.ofDigitChars 10 (Nat.toDigits 10 n) 0 = n := Nat.ofDigitChars_ten_toDigits
    have hdigits : ∀ c ∈ Nat.toDigits 10 n, c.isDigit = true :=
      fun c hc => Nat.isDigit_of_mem_toDigits (by decide) (by decide) hc
    exact (read_parseDigits hdigits h).trans hval

/-- The digits of a number begin with none of the signs. -/
theorem natRepr_cases (n : ℕ) : ∃ c cs, n.repr.toList = c :: cs ∧ c ≠ '+' ∧ c ≠ '-' := by
  obtain ⟨c, cs, hl⟩ := List.exists_cons_of_ne_nil (Nat.toDigits_ne_nil (n := n) (b := 10))
  rw [← toList_natRepr] at hl
  have hmem : c ∈ n.repr.toList := by rw [hl]; exact List.mem_cons_self
  refine ⟨c, cs, hl, ?_, ?_⟩
  · rintro rfl
    exact notMem_natRepr rfl n hmem
  · rintro rfl
    exact notMem_natRepr rfl n hmem

theorem parseInt_intRepr (i : Int64) : parseInt i.toInt.repr = (i, true) := by
  have hlo := Int64.le_toInt i
  have hhi := Int64.toInt_lt i
  by_cases h0 : 0 ≤ i.toInt
  · have hsigned : signed false (i.toInt.toNat, true) = (i, true) := by
      have hof : Int64.ofInt (i.toInt.toNat : ℤ) = i := by
        rw [Int.toNat_of_nonneg h0, Int64.ofInt_toInt]
      simp only [signed, Bool.not_true, Bool.false_and, Bool.false_eq_true, if_false, Bool.not_false,
        Bool.true_and, decide_eq_true_eq, hof]
      rw [if_neg (by omega)]
    obtain ⟨c, cs, hl, hplus, hminus⟩ := natRepr_cases i.toInt.toNat
    have hparse : parseInt i.toInt.toNat.repr =
        signed false (parseUint (String.ofList i.toInt.toNat.repr.toList)) := by
      unfold parseInt
      rw [hl]
      split
      · rename_i h
        cases h
      · rename_i h
        exact absurd (List.cons.inj h).1 hplus
      · rename_i h
        exact absurd (List.cons.inj h).1 hminus
      · rfl
    rw [Int.repr_eq_if, if_pos h0, hparse, String.ofList_toList, parseUint_natRepr (by omega), hsigned]
  · have hsigned : signed true ((-i.toInt).toNat, true) = (i, true) := by
      have hof : Int64.ofInt (-((-i.toInt).toNat : ℤ)) = i := by
        rw [Int.toNat_of_nonneg (by omega), Int.neg_neg, Int64.ofInt_toInt]
      simp only [signed, Bool.not_true, Bool.false_and, Bool.false_eq_true, if_false, Bool.true_and,
        decide_eq_true_eq, if_true, hof]
      rw [if_neg (by omega)]
    have hparse : parseInt ("-" ++ (-i.toInt).toNat.repr) =
        signed true (parseUint (-i.toInt).toNat.repr) := by
      unfold parseInt
      rw [String.toList_append, show ("-" : String).toList = ['-'] from rfl, List.singleton_append]
      simp only [String.ofList_toList]
    rw [Int.repr_eq_if, if_neg h0, hparse, parseUint_natRepr (by omega), hsigned]

end Text
