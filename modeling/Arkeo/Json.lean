import Arkeo.Text

/-! # JSON

The JSON that messages are made of: whole numbers, strings, arrays and objects, with the
writing of `encoding/json` (`marshal`) and its reading (`unmarshal`).  A string is written
with the characters escaped that JSON has to escape, that mean something in HTML, or that
end a line in JavaScript.  What is written is read back (`unmarshal_marshal`).
-/

inductive Json where
  | num (i : ℤ)
  | str (s : String)
  | arr (vs : List Json)
  | obj (ms : List (String × Json))

namespace Json

/-! ## Strings -/

/-- `htmlSafeSet`, and above it all but the two line separators: the characters that are
written as they are. -/
def isSafe (c : Char) : Bool :=
  decide (0x20 ≤ c.toNat) && !(['"', '\\', '<', '>', '&'].contains c) &&
    decide (c.toNat ≠ 0x2028) && decide (c.toNat ≠ 0x2029)

/-- The four hexadecimal digits of a character, which the line separators have and no
other character that is escaped has more of. -/
def hex4 (n : ℕ) : List Char :=
  [Text.hexDigit (n / 4096 % 16), Text.hexDigit (n / 256 % 16), Text.hexDigit (n / 16 % 16),
    Text.hexDigit (n % 16)]

/-- What a character is written as in a string. -/
def escape (c : Char) : List Char :=
  if isSafe c then [c]
  else if c = '"' then ['\\', '"']
  else if c = '\\' then ['\\', '\\']
  else if c = '\x08' then ['\\', 'b']
  else if c = '\x0c' then ['\\', 'f']
  else if c = '\n' then ['\\', 'n']
  else if c = '\r' then ['\\', 'r']
  else if c = '\t' then ['\\', 't']
  else '\\' :: 'u' :: hex4 c.toNat

/-- The characters of a string with the quote that ends it. -/
def escapeAll (cs : List Char) : List Char := cs.flatMap escape

/-- `json.Marshal` of a string. -/
def quote (s : String) : List Char := '"' :: (escapeAll s.toList ++ ['"'])

/-- The character after a backslash, but for `u`. -/
def unescape : Char → Option Char
  | '"' => some '"'
  | '\\' => some '\\'
  | '/' => some '/'
  | 'b' => some '\x08'
  | 'f' => some '\x0c'
  | 'n' => some '\n'
  | 'r' => some '\r'
  | 't' => some '\t'
  | _ => none

/-- The character with four hexadecimal digits.  Halves of surrogate pairs, which are
written for no character, are not read. -/
def unhex (a b c d : Char) : Option Char := do
  let a ← Text.hexValue? a
  let b ← Text.hexValue? b
  let c ← Text.hexValue? c
  let d ← Text.hexValue? d
  let n := a * 4096 + b * 256 + c * 16 + d
  if n.isValidChar then some (Char.ofNat n) else none

/-- The string up to the next quote, and what follows it. -/
def readString : List Char → Option (List Char × List Char)
  | [] => none
  | '"' :: cs => some ([], cs)
  | '\\' :: 'u' :: a :: b :: c :: d :: cs =>
      (unhex a b c d).bind fun e => (readString cs).map fun r => (e :: r.1, r.2)
  | '\\' :: c :: cs => (unescape c).bind fun e => (readString cs).map fun r => (e :: r.1, r.2)
  | c :: cs => if c.toNat < 0x20 then none else (readString cs).map fun r => (c :: r.1, r.2)

/-! ## Numbers -/

def readNat (cs : List Char) : Option (ℕ × List Char) :=
  match cs.takeWhile Char.isDigit with
  | [] => none
  | d :: ds => some (Nat.ofDigitChars 10 (d :: ds) 0, cs.dropWhile Char.isDigit)

def readInt : List Char → Option (ℤ × List Char)
  | '-' :: cs => (readNat cs).map fun r => (-r.1, r.2)
  | cs => (readNat cs).map fun r => (r.1, r.2)

/-! ## Values -/

mutual

/-- `json.Marshal`. -/
def marshal : Json → List Char
  | .num i => i.repr.toList
  | .str s => quote s
  | .arr [] => ['[', ']']
  | .arr (v :: vs) => '[' :: (marshal v ++ marshalValues vs)
  | .obj [] => ['{', '}']
  | .obj ((k, v) :: ms) => '{' :: (quote k ++ ':' :: (marshal v ++ marshalMembers ms))

/-- The values after the first one. -/
def marshalValues : List Json → List Char
  | [] => [']']
  | v :: vs => ',' :: (marshal v ++ marshalValues vs)

/-- The members after the first one. -/
def marshalMembers : List (String × Json) → List Char
  | [] => ['}']
  | (k, v) :: ms => ',' :: (quote k ++ ':' :: (marshal v ++ marshalMembers ms))

end

def skipSpace (cs : List Char) : List Char := cs.dropWhile fun c => [' ', '\t', '\n', '\r'].contains c

/-- A key and the colon after it. -/
def readKey (cs : List Char) : Option (String × List Char) :=
  match skipSpace cs with
  | '"' :: cs => (readString cs).bind fun r =>
      match skipSpace r.2 with
      | ':' :: cs => some (String.ofList r.1, cs)
      | _ => none
  | _ => none

mutual

/-- A value and what follows it; the number bounds the depth and the length. -/
def readValue : ℕ → List Char → Option (Json × List Char)
  | 0, _ => none
  | n + 1, cs =>
      match skipSpace cs with
      | '"' :: cs => (readString cs).map fun r => (.str (String.ofList r.1), r.2)
      | '[' :: cs =>
          match skipSpace cs with
          | ']' :: cs => some (.arr [], cs)
          | cs => (readValue n cs).bind fun r =>
              (readValues n r.2).map fun r' => (.arr (r.1 :: r'.1), r'.2)
      | '{' :: cs =>
          match skipSpace cs with
          | '}' :: cs => some (.obj [], cs)
          | cs => (readKey cs).bind fun k => (readValue n k.2).bind fun r =>
              (readMembers n r.2).map fun r' => (.obj ((k.1, r.1) :: r'.1), r'.2)
      | cs => (readInt cs).map fun r => (.num r.1, r.2)

def readValues : ℕ → List Char → Option (List Json × List Char)
  | 0, _ => none
  | n + 1, cs =>
      match skipSpace cs with
      | ']' :: cs => some ([], cs)
      | ',' :: cs => (readValue n cs).bind fun r =>
          (readValues n r.2).map fun r' => (r.1 :: r'.1, r'.2)
      | _ => none

def readMembers : ℕ → List Char → Option (List (String × Json) × List Char)
  | 0, _ => none
  | n + 1, cs =>
      match skipSpace cs with
      | '}' :: cs => some ([], cs)
      | ',' :: cs => (readKey cs).bind fun k => (readValue n k.2).bind fun r =>
          (readMembers n r.2).map fun r' => ((k.1, r.1) :: r'.1, r'.2)
      | _ => none

end

/-- `json.Unmarshal`: one value, and nothing but white space after it. -/
def unmarshal (cs : List Char) : Option Json :=
  (readValue cs.length cs).bind fun r => if skipSpace r.2 = [] then some r.1 else none

/-! ## Members -/

/-- `result[key] = v`. -/
def put (ms : List (String × Json)) (key : String) (v : Json) : List (String × Json) :=
  ms.filter (fun m => m.1 ≠ key) ++ [(key, v)]

/-- The member with a key, the last one if there are several. -/
def get? (key : String) : List (String × Json) → Option Json
  | [] => none
  | (k, v) :: ms => (get? key ms).or (if k = key then some v else none)

theorem mem_put {ms : List (String × Json)} {key k : String} {v w : Json} :
    (k, w) ∈ put ms key v ↔ k = key ∧ w = v ∨ k ≠ key ∧ (k, w) ∈ ms := by
  rw [put, List.mem_append, List.mem_filter, List.mem_singleton, Prod.mk.injEq, decide_eq_true_eq,
    or_comm, and_comm (a := (k, w) ∈ ms)]

theorem nodup_put {ms : List (String × Json)} (h : (ms.map Prod.fst).Nodup) (key : String)
    (v : Json) : ((put ms key v).map Prod.fst).Nodup := by
  rw [put, List.map_append, List.nodup_append]
  refine ⟨h.sublist (List.filter_sublist.map _), List.nodup_cons.mpr ⟨nofun, List.nodup_nil⟩, ?_⟩
  intro k hk k' hk'
  obtain ⟨m, hm, rfl⟩ := List.mem_map.mp hk
  obtain rfl := List.mem_singleton.mp hk'
  exact of_decide_eq_true (List.mem_filter.mp hm).2

theorem get?_eq_none {key : String} {ms : List (String × Json)} (h : key ∉ ms.map Prod.fst) :
    get? key ms = none := by
  induction ms with
  | nil => rfl
  | cons m ms ih =>
    obtain ⟨hne, hms⟩ := not_or.mp (mt List.mem_cons.mpr h)
    rw [get?, ih hms, if_neg (Ne.symm hne)]
    rfl

/-- Where no key occurs twice, the members are what is found. -/
theorem get?_eq_some {ms : List (String × Json)} (hn : (ms.map Prod.fst).Nodup) {key : String}
    {v : Json} : get? key ms = some v ↔ (key, v) ∈ ms := by
  induction ms with
  | nil => exact ⟨nofun, nofun⟩
  | cons m ms ih =>
    obtain ⟨k, w⟩ := m
    obtain ⟨hk, hms⟩ := List.nodup_cons.mp hn
    rw [get?, List.mem_cons]
    by_cases hkey : k = key
    · subst hkey
      rw [get?_eq_none hk, if_pos rfl, Option.none_or, Option.some.injEq, Prod.mk.injEq]
      constructor
      · rintro rfl
        exact .inl ⟨rfl, rfl⟩
      · rintro (⟨-, rfl⟩ | hm)
        · rfl
        · exact absurd (List.mem_map_of_mem hm) hk
    · rw [if_neg hkey, Option.or_none, ih hms, Prod.mk.injEq]
      constructor
      · exact .inr
      · rintro (⟨rfl, -⟩ | hm)
        · exact absurd rfl hkey
        · exact hm

/-! ## What is written is read back -/

theorem toNat_lt_of_not_isSafe {c : Char} (h : isSafe c = false) : c.toNat < 65536 := by
  by_contra hge
  have hmem : ['"', '\\', '<', '>', '&'].contains c = false := by
    rw [List.contains_eq_mem, decide_eq_false_iff_not]
    intro hm
    have hall : ∀ d ∈ ['"', '\\', '<', '>', '&'], d.toNat < 65536 := by decide
    exact hge (hall c hm)
  rw [isSafe, hmem, decide_eq_true (by omega), decide_eq_true (by omega),
    decide_eq_true (by omega)] at h
  cases h

theorem ne_of_isSafe {c d : Char} (h : isSafe c = true) (hd : isSafe d = false) : c ≠ d := by
  rintro rfl
  rw [h] at hd
  cases hd

theorem unhex_hex4 (c : Char) (h : c.toNat < 65536) : ∃ x y z w, hex4 c.toNat = [x, y, z, w] ∧
    unhex x y z w = some c := by
  refine ⟨_, _, _, _, rfl, ?_⟩
  have hsum : c.toNat / 4096 % 16 * 4096 + c.toNat / 256 % 16 * 256 + c.toNat / 16 % 16 * 16 +
      c.toNat % 16 = c.toNat := by omega
  simp only [unhex, Text.hexValue_hexDigit (Nat.mod_lt _ (by decide : 0 < 16)), Option.bind_eq_bind,
    Option.bind_some, hsum]
  have hvalid : c.toNat.isValidChar := c.valid
  rw [if_pos hvalid, Char.ofNat_toNat]

theorem readString_cons {c : Char} (hc : isSafe c = true) (cs : List Char) :
    readString (c :: cs) = (readString cs).map fun r => (c :: r.1, r.2) := by
  have hlo : ¬c.toNat < 0x20 := by
    simp only [isSafe, Bool.and_eq_true, decide_eq_true_eq] at hc
    omega
  have hquote := ne_of_isSafe hc (d := '"') rfl
  have hslash := ne_of_isSafe hc (d := '\\') rfl
  rw [readString.eq_def]
  split
  · rename_i h
    cases h
  · rename_i h
    exact absurd (List.cons.inj h).1 hquote
  · rename_i h
    exact absurd (List.cons.inj h).1 hslash
  · rename_i h
    exact absurd (List.cons.inj h).1 hslash
  · rename_i h
    obtain ⟨rfl, rfl⟩ := List.cons.inj h
    rw [if_neg hlo]

theorem readString_escape (c : Char) (cs : List Char) :
    readString (escape c ++ cs) = (readString cs).map fun r => (c :: r.1, r.2) := by
  unfold escape
  split
  · rename_i hc
    exact readString_cons hc cs
  rename_i hc
  split
  · rename_i h; subst h; rfl
  split
  · rename_i h; subst h; rfl
  split
  · rename_i h; subst h; rfl
  split
  · rename_i h; subst h; rfl
  split
  · rename_i h; subst h; rfl
  split
  · rename_i h; subst h; rfl
  split
  · rename_i h; subst h; rfl
  obtain ⟨x, y, z, w, hx, hread⟩ :=
    unhex_hex4 c (toNat_lt_of_not_isSafe (Bool.eq_false_iff.mpr hc))
  rw [hx, List.cons_append, List.cons_append, List.cons_append, List.cons_append, List.cons_append,
    List.cons_append, List.nil_append, readString, hread, Option.bind_some]

theorem readString_escapeAll (cs rest : List Char) :
    readString (escapeAll cs ++ '"' :: rest) = some (cs, rest) := by
  induction cs with
  | nil => rfl
  | cons c cs ih =>
    rw [escapeAll, List.flatMap_cons, List.append_assoc, readString_escape]
    rw [escapeAll] at ih
    rw [ih, Option.map_some]

/-- What follows a value that was read does not go on with its digits. -/
def Ended (rest : List Char) : Prop := ∀ c cs, rest = c :: cs → c.isDigit = false

theorem ended_cons {c : Char} (h : c.isDigit = false) (cs : List Char) : Ended (c :: cs) := by
  intro d ds heq
  obtain ⟨rfl, -⟩ := List.cons.inj heq
  exact h

theorem takeWhile_digits {ds rest : List Char} (hd : ∀ c ∈ ds, c.isDigit = true) (hr : Ended rest) :
    (ds ++ rest).takeWhile Char.isDigit = ds ∧ (ds ++ rest).dropWhile Char.isDigit = rest := by
  rw [List.takeWhile_append_of_pos hd, List.dropWhile_append_of_pos hd]
  cases rest with
  | nil => exact ⟨List.append_nil ds, rfl⟩
  | cons c cs =>
    have hc := hr c cs rfl
    rw [List.takeWhile_cons_of_neg (by rw [hc]; decide), List.dropWhile_cons_of_neg (by rw [hc]; decide)]
    exact ⟨List.append_nil ds, rfl⟩

theorem readNat_repr (n : ℕ) {rest : List Char} (hr : Ended rest) :
    readNat (n.repr.toList ++ rest) = some (n, rest) := by
  rw [Text.toList_natRepr]
  obtain ⟨htake, hdrop⟩ := takeWhile_digits
    (fun c hc => Nat.isDigit_of_mem_toDigits (n := n) (b := 10) (by decide) (by decide) hc) hr
  rw [readNat, htake, hdrop]
  split
  · rename_i h
    exact absurd h Nat.toDigits_ne_nil
  · rename_i h
    rw [← h, Nat.ofDigitChars_ten_toDigits]

theorem readInt_repr (i : ℤ) {rest : List Char} (hr : Ended rest) :
    readInt (i.repr.toList ++ rest) = some (i, rest) := by
  rw [Int.repr_eq_if]
  split
  · rename_i h0
    obtain ⟨c, cs, hl, -, hminus⟩ := Text.natRepr_cases i.toNat
    have hread := readNat_repr i.toNat hr
    rw [hl, List.cons_append] at hread ⊢
    rw [readInt]
    · rw [hread, Option.map_some, Int.toNat_of_nonneg h0]
    · rintro ds heq
      exact hminus (List.cons.inj heq).1
  · rename_i h0
    rw [String.toList_append, show ("-" : String).toList = ['-'] from rfl, List.singleton_append,
      List.cons_append, readInt, readNat_repr _ hr, Option.map_some,
      Int.toNat_of_nonneg (by omega), Int.neg_neg]

/-- The first character of what is written for a value is no white space and ends nothing. -/
def isFirst (c : Char) : Bool := c.isDigit || ['-', '"', '[', '{'].contains c

theorem marshal_cases (v : Json) : ∃ c cs, marshal v = c :: cs ∧ isFirst c = true := by
  cases v with
  | num i =>
    rw [marshal, Int.repr_eq_if]
    split
    · obtain ⟨c, cs, hl⟩ := List.exists_cons_of_ne_nil (Nat.toDigits_ne_nil (n := i.toNat) (b := 10))
      have hc := Nat.isDigit_of_mem_toDigits (by decide) (by decide) (hl ▸ List.mem_cons_self)
      rw [Text.toList_natRepr, hl]
      exact ⟨c, cs, rfl, by rw [isFirst, hc, Bool.true_or]⟩
    · exact ⟨'-', _, String.toList_append, rfl⟩
  | str s => exact ⟨'"', _, rfl, rfl⟩
  | arr vs => cases vs with
    | nil => exact ⟨'[', _, rfl, rfl⟩
    | cons v vs => exact ⟨'[', _, by rw [marshal], rfl⟩
  | obj ms => cases ms with
    | nil => exact ⟨'{', _, rfl, rfl⟩
    | cons m ms => exact ⟨'{', _, by rw [marshal], rfl⟩

theorem skipSpace_cons {c : Char} (h : [' ', '\t', '\n', '\r'].contains c = false)
    (cs : List Char) : skipSpace (c :: cs) = c :: cs :=
  List.dropWhile_cons_of_neg (by rw [h]; decide)

theorem ne_of_isFirst {c d : Char} (h : isFirst c = true) (hd : isFirst d = false) : c ≠ d := by
  rintro rfl
  rw [h] at hd
  cases hd

theorem skipSpace_first {c : Char} (h : isFirst c = true) (cs : List Char) :
    skipSpace (c :: cs) = c :: cs := by
  refine skipSpace_cons ?_ cs
  rw [List.contains_eq_mem, decide_eq_false_iff_not]
  intro hm
  have hall : ∀ d ∈ [' ', '\t', '\n', '\r'], isFirst d = false := by decide
  exact ne_of_isFirst h (hall c hm) rfl

theorem skipSpace_marshal (v : Json) (rest : List Char) :
    skipSpace (marshal v ++ rest) = marshal v ++ rest := by
  obtain ⟨c, cs, hv, hc⟩ := marshal_cases v
  rw [hv, List.cons_append, skipSpace_first hc]

/-- Behind an opening bracket a value is read, and then the others. -/
theorem readValue_arr (n : ℕ) (v : Json) (rest : List Char) :
    readValue (n + 1) ('[' :: (marshal v ++ rest)) =
      (readValue n (marshal v ++ rest)).bind fun r =>
        (readValues n r.2).map fun r' => (.arr (r.1 :: r'.1), r'.2) := by
  obtain ⟨c, cs, hv, hc⟩ := marshal_cases v
  rw [hv, List.cons_append, readValue, skipSpace_cons rfl]
  simp only [skipSpace_first hc]
  split
  · rename_i h
    exact absurd (List.cons.inj h).1 (ne_of_isFirst hc rfl)
  · rfl

theorem readKey_quote (k : String) (rest : List Char) :
    readKey (quote k ++ ':' :: rest) = some (k, rest) := by
  rw [readKey, quote, List.cons_append, skipSpace_cons rfl]
  simp only [List.append_assoc, List.singleton_append]
  rw [readString_escapeAll, Option.bind_some, skipSpace_cons rfl, String.ofList_toList]
  rfl

/-- Behind an opening brace a member is read, and then the others. -/
theorem readValue_obj (n : ℕ) (k : String) (rest : List Char) :
    readValue (n + 1) ('{' :: (quote k ++ ':' :: rest)) = (readValue n rest).bind fun r =>
      (readMembers n r.2).map fun r' => (.obj ((k, r.1) :: r'.1), r'.2) := by
  have hkey := readKey_quote k rest
  rw [readValue, skipSpace_cons rfl]
  rw [quote, List.cons_append] at hkey ⊢
  simp only [skipSpace_cons (c := '"') rfl]
  split
  · rename_i h
    cases (List.cons.inj h).1
  · rw [hkey, Option.bind_some]

theorem readValue_num (n : ℕ) (i : ℤ) {rest : List Char} (hr : Ended rest) :
    readValue (n + 1) (i.repr.toList ++ rest) = some (.num i, rest) := by
  have hskip := skipSpace_marshal (.num i) rest
  have hread := readInt_repr i hr
  rw [marshal] at hskip
  rw [readValue, hskip]
  split
  · rename_i h
    rw [h] at hread
    cases hread
  · rename_i h
    rw [h] at hread
    cases hread
  · rename_i h
    rw [h] at hread
    cases hread
  · rw [hread, Option.map_some]

theorem ended_marshalValues (vs : List Json) (rest : List Char) :
    Ended (marshalValues vs ++ rest) := by
  cases vs with
  | nil => exact ended_cons rfl _
  | cons v vs =>
    rw [marshalValues]
    exact ended_cons rfl _

theorem ended_marshalMembers (ms : List (String × Json)) (rest : List Char) :
    Ended (marshalMembers ms ++ rest) := by
  cases ms with
  | nil => exact ended_cons rfl _
  | cons m ms =>
    rw [marshalMembers]
    exact ended_cons rfl _

mutual

/-- A value is read back, whatever follows it; by recursion on the value. -/
theorem readValue_marshal : ∀ (v : Json) (n : ℕ) (rest : List Char), (marshal v).length ≤ n →
    Ended rest → readValue n (marshal v ++ rest) = some (v, rest)
  | v, 0, rest, hn, _ => by
    obtain ⟨c, cs, hv, -⟩ := marshal_cases v
    rw [hv, List.length_cons] at hn
    omega
  | .num i, n + 1, rest, _, hr => by
    rw [marshal]
    exact readValue_num n i hr
  | .str s, n + 1, rest, _, _ => by
    rw [marshal, readValue, quote, List.cons_append, skipSpace_cons rfl]
    simp only [List.append_assoc, List.singleton_append]
    rw [readString_escapeAll, Option.map_some, String.ofList_toList]
  | .arr [], n + 1, rest, _, _ => by
    rw [marshal, readValue, List.cons_append, skipSpace_cons rfl]
    rfl
  | .arr (v :: vs), n + 1, rest, hn, _ => by
    rw [marshal] at hn ⊢
    rw [List.length_cons, List.length_append] at hn
    rw [List.cons_append, List.append_assoc, readValue_arr,
      readValue_marshal v n _ (by omega) (ended_marshalValues vs rest), Option.bind_some,
      readValues_marshal vs n rest (by omega), Option.map_some]
  | .obj [], n + 1, rest, _, _ => by
    rw [marshal, readValue, List.cons_append, skipSpace_cons rfl]
    rfl
  | .obj ((k, v) :: ms), n + 1, rest, hn, _ => by
    rw [marshal] at hn ⊢
    rw [List.length_cons, List.length_append, List.length_cons, List.length_append] at hn
    rw [List.cons_append, List.append_assoc, List.cons_append, List.append_assoc, readValue_obj,
      readValue_marshal v n _ (by omega) (ended_marshalMembers ms rest), Option.bind_some,
      readMembers_marshal ms n rest (by omega), Option.map_some]

theorem readValues_marshal : ∀ (vs : List Json) (n : ℕ) (rest : List Char),
    (marshalValues vs).length ≤ n → readValues n (marshalValues vs ++ rest) = some (vs, rest)
  | [], 0, _, hn => absurd hn (by rw [marshalValues]; decide)
  | v :: vs, 0, _, hn => by
    rw [marshalValues, List.length_cons] at hn
    omega
  | [], n + 1, rest, _ => by
    rw [marshalValues, readValues, List.cons_append, skipSpace_cons rfl]
    rfl
  | v :: vs, n + 1, rest, hn => by
    rw [marshalValues] at hn ⊢
    rw [List.length_cons, List.length_append] at hn
    rw [List.cons_append, List.append_assoc, readValues, skipSpace_cons rfl]
    simp only
    rw [readValue_marshal v n _ (by omega) (ended_marshalValues vs rest), Option.bind_some,
      readValues_marshal vs n rest (by omega), Option.map_some]

theorem readMembers_marshal : ∀ (ms : List (String × Json)) (n : ℕ) (rest : List Char),
    (marshalMembers ms).length ≤ n → readMembers n (marshalMembers ms ++ rest) = some (ms, rest)
  | [], 0, _, hn => absurd hn (by rw [marshalMembers]; decide)
  | (k, v) :: ms, 0, _, hn => by
    rw [marshalMembers, List.length_cons] at hn
    omega
  | [], n + 1, rest, _ => by
    rw [marshalMembers, readMembers, List.cons_append, skipSpace_cons rfl]
    rfl
  | (k, v) :: ms, n + 1, rest, hn => by
    rw [marshalMembers] at hn ⊢
    rw [List.length_cons, List.length_append, List.length_cons, List.length_append] at hn
    rw [List.cons_append, List.append_assoc, List.cons_append, List.append_assoc, readMembers,
      skipSpace_cons rfl]
    simp only
    rw [readKey_quote, Option.bind_some, readValue_marshal v n _ (by omega)
      (ended_marshalMembers ms rest), Option.bind_some, readMembers_marshal ms n rest (by omega),
      Option.map_some]

end

/-- **What is written is read back.** -/
theorem unmarshal_marshal (v : Json) : unmarshal (marshal v) = some v := by
  have hread := readValue_marshal v (marshal v).length [] (Nat.le_refl _) nofun
  rw [List.append_nil] at hread
  rw [unmarshal, hread, Option.bind_some]
  exact if_pos rfl

end Json
