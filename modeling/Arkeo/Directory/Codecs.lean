import Arkeo.Directory.Decoder
import Arkeo.Types

/-! # The fields of the events

The codecs of the fields that the events have: strings, keys, addresses, the integers of 64
bits and those of `math.Int`, the enumerations, and coins.  A number is written in decimal
and in quotes, and an enumeration by its name; a number that has no name is written as it
is, and then the decoder takes the number for a name.  A value comes back when the codec
reads what it writes, as long as that has nothing to escape (`survives_plain`).
-/
namespace Arkeo.Directory

/-! ## Plain text -/

/-- The characters that numbers, bech32 strings and names are made of. -/
def isPlain (c : Char) : Bool := c.isAlphanum || c = '-' || c = '_'

def Plain (s : String) : Prop := ∀ c ∈ s.toList, isPlain c = true

instance (s : String) : Decidable (Plain s) := by
  unfold Plain
  infer_instance

theorem toNat_of_isAlphanum {c : Char} (h : c.isAlphanum = true) :
    48 ≤ c.toNat ∧ c.toNat ≤ 122 := by
  simp only [Char.isAlphanum, Char.isAlpha, Char.isUpper, Char.isLower, Char.isDigit,
    Bool.or_eq_true, Bool.and_eq_true, decide_eq_true_eq, ge_iff_le, UInt32.le_iff_toNat_le] at h
  change ((65 ≤ c.toNat ∧ c.toNat ≤ 90) ∨ (97 ≤ c.toNat ∧ c.toNat ≤ 122)) ∨
    (48 ≤ c.toNat ∧ c.toNat ≤ 57) at h
  omega

theorem isSafe_of_isPlain {c : Char} (h : isPlain c = true) : Json.isSafe c = true := by
  have hrange : 0x20 ≤ c.toNat ∧ c.toNat ≤ 122 := by
    simp only [isPlain, Bool.or_eq_true, decide_eq_true_eq] at h
    rcases h with (h | rfl) | rfl
    · have := toNat_of_isAlphanum h
      omega
    · decide
    · decide
  have hmem : ['"', '\\', '<', '>', '&'].contains c = false := by
    rw [List.contains_eq_mem, decide_eq_false_iff_not]
    intro hm
    have hall : ∀ d ∈ ['"', '\\', '<', '>', '&'], isPlain d = false := by decide
    rw [hall c hm] at h
    cases h
  rw [Json.isSafe, hmem, decide_eq_true hrange.1, decide_eq_true (by omega : c.toNat ≠ 0x2028),
    decide_eq_true (by omega : c.toNat ≠ 0x2029)]
  rfl

theorem Plain.passes {s : String} (h : Plain s) : Passes s := by
  refine .inr ⟨?_, fun c hc => isSafe_of_isPlain (h c hc)⟩
  intro hhead
  obtain ⟨cs, hcs⟩ := List.head?_eq_some_iff.mp hhead
  exact absurd (h '[' (by rw [hcs]; exact List.mem_cons_self)) (by decide)

/-- Plain text is received as it is. -/
theorem received_plain {s : String} (h : Plain s) :
    received (Json.quote s) = some (if s = "" then none else some (.str s)) := by
  have hnil : s.toList = [] ↔ s = "" := String.toList_eq_nil_iff
  have htrim := trimQuotes_quote_eq.mpr fun c hc => isSafe_of_isPlain (h c hc)
  rw [received_quote]
  split
  · rename_i hs
    rw [if_pos (hnil.mp hs)]
  · rename_i hs
    exact absurd (h '{' (by rw [hs]; exact List.mem_cons_self)) (by decide)
  · rename_i hs
    exact absurd (h '[' (by rw [hs]; exact List.mem_cons_self)) (by decide)
  · rename_i hs _ _
    rw [if_neg (mt hnil.mpr hs), htrim, String.ofList_toList]

/-- What comes back of a field that is written in plain text. -/
theorem returns_plain {α : Type} {c : Codec α} {x y : α} {s : String} (henc : c.encode x = .str s)
    (h : Plain s) : c.Returns x y ↔ c.read (if s = "" then none else some (.str s)) = some y := by
  unfold Codec.Returns
  rw [henc, Json.marshal, received_plain h]
  constructor
  · rintro ⟨o, ho, hr⟩
    rw [Option.some.inj ho]
    exact hr
  · exact fun hr => ⟨_, rfl, hr⟩

/-- **A field that is written in plain text comes back when its codec reads the text.** -/
theorem survives_plain {α : Type} {c : Codec α} {x : α} {s : String} (henc : c.encode x = .str s)
    (h : Plain s) : c.Survives x ↔ c.read (if s = "" then none else some (.str s)) = some x :=
  returns_plain henc h

theorem plain_natRepr (n : ℕ) : Plain n.repr := by
  intro c hc
  by_contra hp
  have hdigit : c.isDigit = false := by
    by_contra hd
    rw [Bool.not_eq_false] at hd
    exact hp (by rw [isPlain, Char.isAlphanum, hd, Bool.or_true]; rfl)
  exact Text.notMem_natRepr hdigit n hc

theorem plain_intRepr (i : ℤ) : Plain i.repr := by
  intro c hc
  by_contra hp
  have hdigit : c.isDigit = false := by
    by_contra hd
    rw [Bool.not_eq_false] at hd
    exact hp (by rw [isPlain, Char.isAlphanum, hd, Bool.or_true]; rfl)
  have hminus : c ≠ '-' := by
    rintro rfl
    exact hp rfl
  exact Text.notMem_intRepr hdigit hminus i hc

theorem natRepr_ne_empty (n : ℕ) : n.repr ≠ "" := by
  intro h
  obtain ⟨c, cs, hl, -⟩ := Text.natRepr_cases n
  rw [h] at hl
  cases hl

theorem intRepr_ne_empty (i : ℤ) : i.repr ≠ "" := by
  rw [Int.repr_eq_if]
  split
  · exact natRepr_ne_empty _
  · intro h
    have hl := congrArg String.toList h
    rw [String.toList_append] at hl
    cases hl

/-! ## Lists and objects -/

theorem marshalMembers_concat (ms : List (String × Json)) :
    ∃ cs, Json.marshalMembers ms = cs ++ ['}'] := by
  induction ms with
  | nil => exact ⟨[], rfl⟩
  | cons m ms ih =>
    obtain ⟨k, v⟩ := m
    obtain ⟨cs, hcs⟩ := ih
    refine ⟨',' :: (Json.quote k ++ ':' :: (Json.marshal v ++ cs)), ?_⟩
    rw [Json.marshalMembers, hcs]
    simp only [List.cons_append, List.append_assoc]

theorem marshalValues_concat (vs : List Json) : ∃ cs, Json.marshalValues vs = cs ++ [']'] := by
  induction vs with
  | nil => exact ⟨[], rfl⟩
  | cons v vs ih =>
    obtain ⟨cs, hcs⟩ := ih
    refine ⟨',' :: (Json.marshal v ++ cs), ?_⟩
    rw [Json.marshalValues, hcs]
    simp only [List.cons_append, List.append_assoc]

/-- A text in brackets has no quotes to take off. -/
theorem trimQuotes_bracketed {a b : Char} (ha : isQuote a = false) (hb : isQuote b = false)
    (cs : List Char) : trimQuotes (a :: (cs ++ [b])) = a :: (cs ++ [b]) := by
  rw [trimQuotes, List.dropWhile_cons_of_neg (by rw [ha]; decide), ← List.cons_append]
  exact List.rdropWhile_concat_neg _ _ _ (by rw [hb]; decide)

theorem received_obj (ms : List (String × Json)) :
    received (Json.marshal (.obj ms)) = some (some (.obj ms)) := by
  have hread := Json.unmarshal_marshal (.obj ms)
  have hform : ∃ cs, Json.marshal (.obj ms) = '{' :: (cs ++ ['}']) := by
    cases ms with
    | nil => exact ⟨[], rfl⟩
    | cons m ms =>
      obtain ⟨k, v⟩ := m
      obtain ⟨cs, hcs⟩ := marshalMembers_concat ms
      refine ⟨Json.quote k ++ ':' :: (Json.marshal v ++ cs), ?_⟩
      rw [Json.marshal, hcs]
      simp only [List.cons_append, List.append_assoc]
  obtain ⟨cs, hcs⟩ := hform
  rw [hcs] at hread ⊢
  rw [received, trimQuotes_bracketed rfl rfl, if_neg (List.cons_ne_nil _ _), nested, hread]
  rfl

theorem received_arr (vs : List Json) :
    received (Json.marshal (.arr vs)) = some (some (.arr vs)) := by
  have hread := Json.unmarshal_marshal (.arr vs)
  have hform : ∃ cs, Json.marshal (.arr vs) = '[' :: (cs ++ [']']) := by
    cases vs with
    | nil => exact ⟨[], rfl⟩
    | cons v vs =>
      obtain ⟨cs, hcs⟩ := marshalValues_concat vs
      refine ⟨Json.marshal v ++ cs, ?_⟩
      rw [Json.marshal, hcs]
      simp only [List.append_assoc]
  obtain ⟨cs, hcs⟩ := hform
  rw [hcs] at hread ⊢
  rw [received, trimQuotes_bracketed rfl rfl, if_neg (List.cons_ne_nil _ _), nested, hread]
  rfl

/-- A number without quotes is received as a string. -/
theorem received_num (i : ℤ) : received (Json.marshal (.num i)) = some (some (.str i.repr)) := by
  have hplain := plain_intRepr i
  have hnone : ∀ c ∈ i.repr.toList, isQuote c = false := by
    intro c hc
    exact isQuote_of_isSafe (isSafe_of_isPlain (hplain c hc))
  have hne : i.repr.toList ≠ [] := fun h => intRepr_ne_empty i (String.toList_eq_nil_iff.mp h)
  have htrim : trimQuotes i.repr.toList = i.repr.toList := by
    obtain ⟨c, cs, hcs⟩ := List.exists_cons_of_ne_nil hne
    have hdrop : i.repr.toList.dropWhile isQuote = i.repr.toList := by
      rw [hcs]
      exact List.dropWhile_cons_of_neg (by rw [hnone c (hcs ▸ List.mem_cons_self)]; decide)
    rw [trimQuotes, hdrop, List.rdropWhile_eq_self_iff]
    intro h
    rw [hnone _ (List.getLast_mem h)]
    decide
  rw [Json.marshal, received, htrim, if_neg hne]
  unfold nested
  split
  · rename_i h
    exact absurd (hplain '{' (by rw [h]; exact List.mem_cons_self)) (by decide)
  · rename_i h
    exact absurd (hplain '[' (by rw [h]; exact List.mem_cons_self)) (by decide)
  · rw [String.ofList_toList]
    rfl

/-! ## Numbers -/

namespace Codec

/-- `int64`: a decimal number, with quotes or without. -/
def int64 : Codec Int64 where
  encode i := .str i.toInt.repr
  decode
    | .str s => Text.read (Text.parseInt s)
    | .num i => if -2 ^ 63 ≤ i ∧ i < 2 ^ 63 then some (Int64.ofInt i) else none
    | _ => none
  zero := 0

/-- `uint64`. -/
def uint64 : Codec ℕ where
  encode n := .str n.repr
  decode
    | .str s => Text.read (Text.parseUint s)
    | .num i => if 0 ≤ i ∧ i < 2 ^ 64 then some i.toNat else none
    | _ => none
  zero := 0

/-- `math.Int`, which is written in decimal and holds 256 bits. -/
def int : Codec ℤ where
  encode i := .str i.repr
  decode
    | .str s =>
        match Json.readInt s.toList with
        | some (i, []) => if i.natAbs < 2 ^ 256 then some i else none
        | _ => none
    | _ => none
  zero := 0

end Codec

theorem survives_int64 (i : Int64) : Codec.int64.Survives i := by
  refine (survives_plain (s := i.toInt.repr) rfl (plain_intRepr _)).mpr ?_
  rw [if_neg (intRepr_ne_empty _)]
  show Text.read (Text.parseInt i.toInt.repr) = some i
  rw [Text.parseInt_intRepr]
  rfl

theorem survives_uint64 {n : ℕ} (h : n < 2 ^ 64) : Codec.uint64.Survives n := by
  refine (survives_plain (s := n.repr) rfl (plain_natRepr _)).mpr ?_
  rw [if_neg (natRepr_ne_empty _)]
  show Text.read (Text.parseUint n.repr) = some n
  rw [Text.parseUint_natRepr h]
  rfl

/-- An id of more bits is not read. -/
theorem steady_uint64 (n : ℕ) : Codec.uint64.Steady n := by
  intro m h
  have hread := (returns_plain (s := n.repr) rfl (plain_natRepr _)).mp h
  rw [if_neg (natRepr_ne_empty _)] at hread
  exact Text.read_parseUint_natRepr hread

theorem decode_int {i : ℤ} (h : i.natAbs < 2 ^ 256) : Codec.int.decode (.str i.repr) = some i := by
  have hread : Json.readInt (i.repr.toList ++ []) = some (i, []) := Json.readInt_repr i nofun
  rw [List.append_nil] at hread
  simp only [Codec.int, hread]
  exact if_pos h

theorem survives_int {i : ℤ} (h : i.natAbs < 2 ^ 256) : Codec.int.Survives i := by
  refine (survives_plain (s := i.repr) rfl (plain_intRepr _)).mpr ?_
  rw [if_neg (intRepr_ne_empty _)]
  exact decode_int h

theorem decode_int_eq {i j : ℤ} (h : Codec.int.decode (.str i.repr) = some j) : j = i := by
  have hread : Json.readInt (i.repr.toList ++ []) = some (i, []) := Json.readInt_repr i nofun
  rw [List.append_nil] at hread
  simp only [Codec.int, hread] at h
  exact (Option.some.inj (Option.ite_none_right_eq_some.mp h).2).symm

theorem steady_int (i : ℤ) : Codec.int.Steady i := by
  intro j h
  have hread := (returns_plain (s := i.repr) rfl (plain_intRepr _)).mp h
  rw [if_neg (intRepr_ne_empty _)] at hread
  exact decode_int_eq hread

/-! ## Enumerations -/

/-- An enumeration: the names of its numbers from `0` on, none of which is itself a number,
and its values, each of which has a number. -/
structure Enumeration (α : Type) where
  names : List String
  number : α → ℤ
  ofNumber : ℤ → α
  plain : ∀ name ∈ names, Plain name ∧ ∃ c ∈ name.toList, c.isDigit = false ∧ c ≠ '-'
  nodup : names.Nodup

namespace Enumeration
variable {α : Type} (E : Enumeration α)

/-- The name of a number, if it has one. -/
def name? (i : ℤ) : Option String := if 0 ≤ i then E.names[i.toNat]? else none

/-- A value is written by its name, or as its number if that has none. -/
def codec : Codec α where
  encode a :=
    match E.name? (E.number a) with
    | some name => .str name
    | none => .num (E.number a)
  decode
    | .str s => (E.names.idxOf? s).map fun n : ℕ => E.ofNumber n
    | .num i => if -2 ^ 31 ≤ i ∧ i < 2 ^ 31 then some (E.ofNumber i) else none
    | _ => none
  zero := E.ofNumber 0

variable {E}

theorem idxOf?_intRepr (i : ℤ) : E.names.idxOf? i.repr = none := by
  rw [List.idxOf?_eq_none_iff]
  intro hm
  obtain ⟨-, c, hc, hdigit, hminus⟩ := E.plain _ hm
  exact Text.notMem_intRepr hdigit hminus i hc

/-- **A value comes back exactly when its number has a name.** -/
theorem survives_iff {a : α} : E.codec.Survives a ↔
    (E.name? (E.number a)).isSome = true ∧ E.ofNumber (E.number a) = a := by
  cases hname : E.name? (E.number a) with
  | none =>
    refine ⟨?_, fun h => by cases h.1⟩
    rintro ⟨o, ho, hr⟩
    have henc : E.codec.encode a = .num (E.number a) := by simp only [codec, hname]
    rw [henc, received_num] at ho
    obtain rfl := Option.some.inj ho
    have hdecode : E.codec.read (some (.str (E.number a).repr)) = none := by
      simp only [Codec.read, codec, idxOf?_intRepr, Option.map_none]
    rw [hdecode] at hr
    cases hr
  | some name =>
    have henc : E.codec.encode a = .str name := by simp only [codec, hname]
    have hget : 0 ≤ E.number a ∧ E.names[(E.number a).toNat]? = some name := by
      unfold name? at hname
      split at hname
      · exact ⟨‹_›, hname⟩
      · cases hname
    obtain ⟨h0, hget⟩ := hget
    obtain ⟨hlt, helem⟩ := List.getElem?_eq_some_iff.mp hget
    obtain ⟨hplain, c, hc, -⟩ := E.plain name (helem ▸ List.getElem_mem hlt)
    have hne : name ≠ "" := by
      rintro rfl
      cases hc
    have hidx : E.names.idxOf? name = some (E.number a).toNat := by
      rw [List.idxOf?_eq_some_iff]
      refine ⟨hlt, helem, ?_⟩
      intro j hj heq
      have hjn := E.nodup.getElem_inj_iff.mp (heq.trans helem.symm)
      omega
    rw [survives_plain henc hplain, if_neg hne]
    have hdecode : E.codec.read (some (.str name)) = some (E.ofNumber (E.number a)) := by
      simp only [Codec.read, codec, hidx, Option.map_some, Int.toNat_of_nonneg h0]
    rw [hdecode, Option.some.injEq]
    exact ⟨fun h => ⟨rfl, h⟩, And.right⟩

/-- With two names, the two values that they name come back, and no other. -/
theorem survives_iff_of_two {a x y : α} (hlen : E.names.length = 2) (hx : E.ofNumber 0 = x)
    (hy : E.ofNumber 1 = y) (hx' : E.number x = 0) (hy' : E.number y = 1) :
    E.codec.Survives a ↔ a = x ∨ a = y := by
  have hname : ∀ i, (E.name? i).isSome = true ↔ i = 0 ∨ i = 1 := by
    intro i
    unfold name?
    split
    · rw [isSome_getElem?, hlen]
      omega
    · exact ⟨nofun, fun h => by omega⟩
  rw [survives_iff, hname]
  constructor
  · rintro ⟨h | h, ha⟩
    · exact .inl (by rw [← ha, h, hx])
    · exact .inr (by rw [← ha, h, hy])
  · rintro (rfl | rfl)
    · exact ⟨.inl hx', by rw [hx', hx]⟩
    · exact ⟨.inr hy', by rw [hy', hy]⟩

end Enumeration

/-! ## Messages in messages -/

theorem survives_of_decode {α : Type} {c : Codec α} {x : α} {v : Json}
    (hrec : received (Json.marshal (c.encode x)) = some (some v)) (h : c.decode v = some x) :
    c.Survives x :=
  ⟨some v, hrec, h⟩

theorem steady_of_decode {α : Type} {c : Codec α} {x : α} {v : Json}
    (hrec : received (Json.marshal (c.encode x)) = some (some v))
    (h : ∀ y, c.decode v = some y → y = x) : c.Steady x := by
  rintro y ⟨o, ho, hy⟩
  obtain rfl := Option.some.inj (hrec.symm.trans ho)
  exact h y hy

/-- A message as a field of another one. -/
def Message.codec {α : Type} (M : Message α) (zero : α) : Codec α where
  encode e := .obj (M.members e)
  decode := M.unmarshal
  zero := zero

/-- What is written for a message is read as the message when that holds of its fields. -/
theorem Message.unmarshal_members {α : Type} {M : Message α} {e e' : α} :
    M.unmarshal (.obj (M.members e)) = some e' ↔
      ∀ f ∈ M.fields, f.codec.decode (f.codec.encode (f.get e)) = some (f.get e') := by
  have hkeys : (M.members e).map Prod.fst = M.fields.map Field.name := by
    rw [members, List.map_map]
    rfl
  have hnodup : ((M.members e).map Prod.fst).Nodup := by
    rw [hkeys]
    exact M.nodup
  have hnames : ∀ m ∈ M.members e, m.1 ∈ M.fields.map Field.name := by
    intro m hm
    rw [← hkeys]
    exact List.mem_map_of_mem hm
  rw [unmarshal, if_pos hnames, M.build_iff, List.forall_iff_forall_mem]
  refine forall₂_congr ?_
  intro f hf
  have hget : Json.get? f.name (M.members e) = some (f.codec.encode (f.get e)) :=
    (Json.get?_eq_some hnodup).mpr (List.mem_map.mpr ⟨f, hf, rfl⟩)
  rw [hget]
  rfl

/-- A repeated field. -/
def Codec.list {α : Type} (c : Codec α) : Codec (List α) where
  encode xs := .arr (xs.map c.encode)
  decode
    | .arr vs => vs.mapM c.decode
    | _ => none
  zero := []

theorem mapM_decode {α : Type} {c : Codec α} {xs : List α}
    (h : ∀ x ∈ xs, c.decode (c.encode x) = some x) :
    (xs.map c.encode).mapM c.decode = some xs := by
  induction xs with
  | nil => rfl
  | cons x xs ih =>
    obtain ⟨hx, hxs⟩ := List.forall_mem_cons.mp h
    rw [List.map_cons, List.mapM_cons, hx, ih hxs]
    rfl

/-- A list is read as it was when none of its members is read as another one. -/
theorem mapM_decode_eq {α : Type} {c : Codec α} {xs ys : List α}
    (h : ∀ x ∈ xs, ∀ y, c.decode (c.encode x) = some y → y = x)
    (hys : (xs.map c.encode).mapM c.decode = some ys) : ys = xs := by
  induction xs generalizing ys with
  | nil => exact (Option.some.inj hys).symm
  | cons x xs ih =>
    obtain ⟨hx, hxs⟩ := List.forall_mem_cons.mp h
    rw [List.map_cons, List.mapM_cons] at hys
    obtain ⟨y, hy, hrest⟩ := Option.bind_eq_some_iff.mp hys
    obtain ⟨zs, hzs, hcons⟩ := Option.bind_eq_some_iff.mp hrest
    rw [← Option.some.inj hcons, hx y hy, ih hxs hzs]

theorem survives_list {α : Type} {c : Codec α} {xs : List α}
    (h : ∀ x ∈ xs, c.decode (c.encode x) = some x) : c.list.Survives xs :=
  survives_of_decode (received_arr _) (mapM_decode h)

/-- The reading of a field that is there. -/
theorem bind_of_some {α β : Type} {x : Option β} {b : β} (h : x = some b) (f : β → Option α) :
    x.bind f = f b := by
  rw [h, Option.bind_some]

/-- `sdk.Coin`. -/
def coinMessage : Message Coin where
  fields := [⟨"denom", .string, Coin.denom⟩, ⟨"amount", .int, Coin.amount⟩]
  build get := do
    let denom ← Codec.string.read (get "denom")
    let amount ← Codec.int.read (get "amount")
    pure { denom, amount }
  build_iff get e := by
    constructor
    · intro h
      obtain ⟨_, h₁, h⟩ := Option.bind_eq_some_iff.mp h
      obtain ⟨_, h₂, h⟩ := Option.bind_eq_some_iff.mp h
      obtain rfl := Option.some.inj h
      exact ⟨h₁, h₂⟩
    · rintro ⟨h₁, h₂⟩
      exact (bind_of_some h₁ _).trans (bind_of_some h₂ _)
  names := by decide

def Codec.coin : Codec Coin := coinMessage.codec ⟨"", 0⟩

theorem decode_coin {c : Coin} (h : c.amount.natAbs < 2 ^ 256) :
    Codec.coin.decode (Codec.coin.encode c) = some c := by
  refine (Message.unmarshal_members (M := coinMessage)).mpr (List.forall_iff_forall_mem.mp ?_)
  exact ⟨rfl, decode_int h⟩

theorem decode_coin_eq {c d : Coin} (h : Codec.coin.decode (Codec.coin.encode c) = some d) :
    d = c := by
  have hall := (Message.unmarshal_members (M := coinMessage)).mp h
  obtain ⟨hdenom, hamount⟩ := List.forall_iff_forall_mem.mpr hall
  have hd : d.denom = c.denom := (Option.some.inj hdenom).symm
  have ha : d.amount = c.amount := decode_int_eq hamount
  cases c
  cases d
  exact congr (congrArg Coin.mk hd) ha

theorem survives_coin {c : Coin} (h : c.amount.natAbs < 2 ^ 256) : Codec.coin.Survives c :=
  survives_of_decode (received_obj _) (decode_coin h)

theorem steady_coin (c : Coin) : Codec.coin.Steady c :=
  steady_of_decode (received_obj _) fun _ h => decode_coin_eq h

theorem steady_coins (cs : List Coin) : Codec.coin.list.Steady cs :=
  steady_of_decode (received_arr _) fun _ h => mapM_decode_eq (fun _ _ _ h => decode_coin_eq h) h

theorem survives_coins {cs : List Coin} (h : ∀ c ∈ cs, c.amount.natAbs < 2 ^ 256) :
    Codec.coin.list.Survives cs :=
  survives_list fun c hc => decode_coin (h c hc)

end Arkeo.Directory
