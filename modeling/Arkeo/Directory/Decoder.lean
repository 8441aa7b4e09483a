import Arkeo.Json
import Mathlib.Data.List.DropRight
import Mathlib.Data.List.Nodup

/-! # The decoder of typed events

An event reaches the indexer as a list of attributes, one for each field of its message,
with the JSON of the field as the value.  The indexer takes the quotes off each value,
looks at the first character, collects what it makes of the values in a map, and reads
the JSON of the map as a message.  What it makes of a value depends on the value alone
(`received`), so a message comes back when each of its fields does
(`parseEventToConcreteType_iff`), and a string comes back when nothing in it is escaped
(`received_quote`).
-/
namespace Arkeo.Directory

/-- An attribute of an event. -/
structure Attribute where
  key : String
  value : String

/-! ## The map -/

def isQuote (c : Char) : Bool := c = '"'

/-- `strings.Trim(s, "\"")`. -/
def trimQuotes (cs : List Char) : List Char := (cs.dropWhile isQuote).rdropWhile isQuote

/-- What is put into the map for the value `attrValue`, which is `value` without its
quotes; `none` is the error of a value that cannot be read. -/
def nested (value attrValue : List Char) : Option Json :=
  match attrValue with
  | '{' :: _ => Json.unmarshal value
  | '[' :: _ =>
      match Json.unmarshal value with
      | some (.arr nest) => some (.arr nest)
      | _ => none
  | _ => some (.str (String.ofList attrValue))

/-- The entry an attribute makes: `some none` for one that is passed over. -/
def convertAttribute (attr : Attribute) : Option (Option Json) :=
  let attrValue := trimQuotes attr.value.toList
  if attrValue = [] then some none
  else if attr.key = "msg_index" then some none
  else if attr.key = "mode" then some none
  else (nested attr.value.toList attrValue).map some

/-- `convertEventToMap`, from the entries made so far. -/
def convertInto (result : List (String × Json)) : List Attribute → Option (List (String × Json))
  | [] => some result
  | attr :: attrs =>
      match convertAttribute attr with
      | none => none
      | some none => convertInto result attrs
      | some (some v) => convertInto (Json.put result attr.key v) attrs

def convertEventToMap (attributes : List Attribute) : Option (List (String × Json)) :=
  convertInto [] attributes

/-! ## Messages

A message is written and read field by field, as `jsonpb` does it: an absent field has its
zero value, and a field that the message does not have is an error. -/

/-- How the values of a type are written as JSON and read. -/
structure Codec (α : Type) where
  encode : α → Json
  decode : Json → Option α
  zero : α

/-- The value of a field that may be absent. -/
def Codec.read {α : Type} (c : Codec α) : Option Json → Option α
  | none => some c.zero
  | some v => c.decode v

/-- A field of a message. -/
structure Field (α : Type) where
  {β : Type}
  name : String
  codec : Codec β
  get : α → β

/-- A type of messages with its fields, which have names of their own; `build` is told the
JSON of each field by name. -/
structure Message (α : Type) where
  fields : List (Field α)
  build : (String → Option Json) → Option α
  build_iff : ∀ get e, build get = some e ↔
    fields.Forall fun f => f.codec.read (get f.name) = some (f.get e)
  names : ("msg_index" :: "mode" :: fields.map Field.name).Nodup

namespace Message

variable {α : Type} (M : Message α)

theorem nodup : (M.fields.map Field.name).Nodup :=
  (List.nodup_cons.mp (List.nodup_cons.mp M.names).2).2

theorem unreserved {f : Field α} (hf : f ∈ M.fields) : f.name ≠ "msg_index" ∧ f.name ≠ "mode" := by
  obtain ⟨hindex, hrest⟩ := List.nodup_cons.mp M.names
  obtain ⟨hmode, -⟩ := List.nodup_cons.mp hrest
  have hmem := List.mem_map_of_mem (f := Field.name) hf
  exact ⟨fun h => hindex (List.mem_cons_of_mem _ (h ▸ hmem)), fun h => hmode (h ▸ hmem)⟩

/-- The members that the marshaler of `jsonpb` writes, the default values included. -/
def members (e : α) : List (String × Json) := M.fields.map fun f => (f.name, f.codec.encode (f.get e))

/-- `jsonpb.Unmarshal`. -/
def unmarshal : Json → Option α
  | .obj ms =>
      if ∀ m ∈ ms, m.1 ∈ M.fields.map Field.name then M.build fun key => Json.get? key ms else none
  | _ => none

/-- `sdk.TypedEventToEvent`: an attribute for each field, with its JSON. -/
def typedEvent (e : α) : List Attribute :=
  (M.members e).map fun m => ⟨m.1, String.ofList (Json.marshal m.2)⟩

end Message

def parseEventToConcreteType {α : Type} (M : Message α) (attributes : List Attribute) : Option α :=
  (convertEventToMap attributes).bind fun result =>
    (Json.unmarshal (Json.marshal (.obj result))).bind M.unmarshal

/-! ## What comes back -/

/-- What the decoder makes of a value. -/
def received (value : List Char) : Option (Option Json) :=
  if trimQuotes value = [] then some none else (nested value (trimQuotes value)).map some

/-- What the decoder makes of `x` is `y`. -/
def Codec.Returns {α : Type} (c : Codec α) (x y : α) : Prop :=
  ∃ o, received (Json.marshal (c.encode x)) = some o ∧ c.read o = some y

/-- A value that the decoder gives back. -/
def Codec.Survives {α : Type} (c : Codec α) (x : α) : Prop :=
  ∃ o, received (Json.marshal (c.encode x)) = some o ∧ c.read o = some x

/-- A value that the decoder gives back or fails on. -/
def Codec.Steady {α : Type} (c : Codec α) (x : α) : Prop := ∀ y, c.Returns x y → y = x

theorem Codec.Survives.steady {α : Type} {c : Codec α} {x : α} (h : c.Survives x) :
    c.Steady x := by
  rintro y ⟨o, ho, hy⟩
  obtain ⟨o', ho', hx⟩ := h
  obtain rfl : o' = o := Option.some.inj (ho'.symm.trans ho)
  exact Option.some.inj (hy.symm.trans hx)

theorem convertAttribute_eq {attr : Attribute} (h : attr.key ≠ "msg_index" ∧ attr.key ≠ "mode") :
    convertAttribute attr = received attr.value.toList := by
  unfold convertAttribute received
  simp only [if_neg h.1, if_neg h.2]

/-- The attributes that the SDK adds are passed over. -/
theorem convertAttribute_reserved {attr : Attribute}
    (h : attr.key = "msg_index" ∨ attr.key = "mode") : convertAttribute attr = some none := by
  unfold convertAttribute
  rcases h with h | h
  · simp only [if_pos h, ite_self]
  · simp only [if_pos h, ite_self]

/-- An attribute makes the entry. -/
def Makes (attrs : List Attribute) (key : String) (v : Json) : Prop :=
  ∃ attr ∈ attrs, attr.key = key ∧ convertAttribute attr = some (some v)

theorem convertInto_isSome {attrs : List Attribute} {result : List (String × Json)} :
    (convertInto result attrs).isSome = true ↔ ∀ attr ∈ attrs, convertAttribute attr ≠ none := by
  induction attrs generalizing result with
  | nil => exact ⟨fun _ => nofun, fun _ => rfl⟩
  | cons attr attrs ih =>
    rw [List.forall_mem_cons, convertInto]
    split
    · rename_i h
      exact ⟨nofun, fun hall => absurd h hall.1⟩
    · rename_i h
      rw [ih, h]
      exact ⟨fun hall => ⟨nofun, hall⟩, And.right⟩
    · rename_i v h
      rw [ih, h]
      exact ⟨fun hall => ⟨nofun, hall⟩, And.right⟩

/-- The entries are those that the attributes make, and those that were there before under
other keys.  No key occurs twice. -/
theorem convertInto_spec {attrs : List Attribute} {result m : List (String × Json)}
    (h : convertInto result attrs = some m) (hn : (result.map Prod.fst).Nodup)
    (hfun : ∀ key v v', Makes attrs key v → Makes attrs key v' → v = v') :
    (m.map Prod.fst).Nodup ∧ ∀ key v, (key, v) ∈ m ↔
      Makes attrs key v ∨ (∀ v', ¬Makes attrs key v') ∧ (key, v) ∈ result := by
  induction attrs generalizing result with
  | nil =>
    obtain rfl := Option.some.inj h
    have hnone : ∀ key v, ¬Makes [] key v := by
      rintro key v ⟨_, hm, -⟩
      cases hm
    refine ⟨hn, fun key v => ⟨fun hm => .inr ⟨hnone key, hm⟩, ?_⟩⟩
    rintro (hm | ⟨-, hm⟩)
    · exact absurd hm (hnone key v)
    · exact hm
  | cons attr attrs ih =>
    have hmakes : ∀ key v, Makes (attr :: attrs) key v ↔
        (attr.key = key ∧ convertAttribute attr = some (some v)) ∨ Makes attrs key v := by
      intro key v
      unfold Makes
      rw [List.exists_mem_cons_iff]
    have hfun' : ∀ key v v', Makes attrs key v → Makes attrs key v' → v = v' :=
      fun key v v' hv hv' => hfun key v v' ((hmakes key v).mpr (.inr hv)) ((hmakes key v').mpr (.inr hv'))
    rw [convertInto] at h
    split at h
    · cases h
    · rename_i ha
      obtain ⟨hnodup, hmem⟩ := ih h hn hfun'
      have hsame : ∀ key v, Makes (attr :: attrs) key v ↔ Makes attrs key v := by
        intro key v
        rw [hmakes, ha]
        exact ⟨fun hor => hor.resolve_left (fun hx => by cases hx.2), .inr⟩
      refine ⟨hnodup, fun key v => ?_⟩
      simp only [hsame]
      exact hmem key v
    · rename_i w ha
      obtain ⟨hnodup, hmem⟩ := ih h (Json.nodup_put hn attr.key w) hfun'
      refine ⟨hnodup, fun key v => ?_⟩
      rw [hmem, Json.mem_put]
      have hown : ∀ v, Makes (attr :: attrs) attr.key v ↔ v = w := by
        intro v
        have hw : Makes (attr :: attrs) attr.key w := (hmakes _ _).mpr (.inl ⟨rfl, ha⟩)
        exact ⟨fun hv => hfun _ _ _ hv hw, fun hv => hv ▸ hw⟩
      by_cases hkey : key = attr.key
      · subst hkey
        rw [hown]
        constructor
        · rintro (hm | ⟨-, ⟨-, hv⟩ | ⟨hne, -⟩⟩)
          · exact .inl ((hown v).mp ((hmakes _ v).mpr (.inr hm)))
          · exact .inl hv
          · exact absurd rfl hne
        · rintro (rfl | ⟨hnone, -⟩)
          · by_cases hm : Makes attrs attr.key v
            · exact .inl hm
            · refine .inr ⟨fun v' hv' => ?_, .inl ⟨rfl, rfl⟩⟩
              obtain rfl := (hown v').mp ((hmakes _ v').mpr (.inr hv'))
              exact hm hv'
          · exact absurd ((hown w).mpr rfl) (hnone w)
      · have hsame : ∀ v, Makes (attr :: attrs) key v ↔ Makes attrs key v := by
          intro v
          rw [hmakes]
          exact ⟨fun hor => hor.resolve_left fun hx => hkey hx.1.symm, .inr⟩
        simp only [hsame, hkey, false_and, false_or, ne_eq, not_false_eq_true, true_and]

section Parse
variable {α : Type} (M : Message α) {attrs extra : List Attribute} {e : α}

/-- The attributes of an event and those that the SDK adds, in any order. -/
structure Emitted (e : α) (attrs extra : List Attribute) : Prop where
  perm : attrs.Perm (M.typedEvent e ++ extra)
  reserved : ∀ attr ∈ extra, attr.key = "msg_index" ∨ attr.key = "mode"

variable {M}

theorem Emitted.mem (h : Emitted M e attrs extra) {attr : Attribute} : attr ∈ attrs ↔
    (∃ f ∈ M.fields, attr = ⟨f.name, String.ofList (Json.marshal (f.codec.encode (f.get e)))⟩) ∨
      attr ∈ extra := by
  rw [h.perm.mem_iff, List.mem_append, Message.typedEvent, Message.members, List.map_map,
    List.mem_map]
  refine or_congr_left (exists_congr fun f => and_congr_right fun _ => ?_)
  exact eq_comm

theorem convertAttribute_field {f : Field α} (hf : f ∈ M.fields) (e : α) :
    convertAttribute ⟨f.name, String.ofList (Json.marshal (f.codec.encode (f.get e)))⟩ =
      received (Json.marshal (f.codec.encode (f.get e))) := by
  rw [convertAttribute_eq (M.unreserved hf), String.toList_ofList]

theorem Emitted.makes (h : Emitted M e attrs extra) {key : String} {v : Json} :
    Makes attrs key v ↔ ∃ f ∈ M.fields, f.name = key ∧
      received (Json.marshal (f.codec.encode (f.get e))) = some (some v) := by
  constructor
  · rintro ⟨attr, hm, hkey, hv⟩
    rcases h.mem.mp hm with ⟨f, hf, rfl⟩ | hm
    · exact ⟨f, hf, hkey, (convertAttribute_field hf e).symm.trans hv⟩
    · rw [convertAttribute_reserved (h.reserved attr hm)] at hv
      cases hv
  · rintro ⟨f, hf, hkey, hv⟩
    exact ⟨_, h.mem.mpr (.inl ⟨f, hf, rfl⟩), hkey, (convertAttribute_field hf e).trans hv⟩

/-- A field is known by its name. -/
theorem Message.eq_of_name {f g : Field α} (hf : f ∈ M.fields) (hg : g ∈ M.fields)
    (h : f.name = g.name) : f = g :=
  List.inj_on_of_nodup_map M.nodup hf hg h

theorem Emitted.makes_unique (h : Emitted M e attrs extra) (key : String) (v v' : Json)
    (hv : Makes attrs key v) (hv' : Makes attrs key v') : v = v' := by
  obtain ⟨f, hf, rfl, hr⟩ := h.makes.mp hv
  obtain ⟨g, hg, hname, hr'⟩ := h.makes.mp hv'
  obtain rfl := Message.eq_of_name hg hf hname
  rw [hr] at hr'
  exact Option.some.inj (Option.some.inj hr')

/-- The map can be made exactly when every field's value can be read, and the entry under
a field's name is what was made of the value. -/
theorem Emitted.convertEventToMap (h : Emitted M e attrs extra) :
    ((convertEventToMap attrs).isSome = true ↔
      ∀ f ∈ M.fields, received (Json.marshal (f.codec.encode (f.get e))) ≠ none) ∧
    ∀ m, convertEventToMap attrs = some m →
      (∀ x ∈ m, x.1 ∈ M.fields.map Field.name) ∧
      ∀ f ∈ M.fields, received (Json.marshal (f.codec.encode (f.get e))) =
        some (Json.get? f.name m) := by
  have hsome : (Directory.convertEventToMap attrs).isSome = true ↔
      ∀ f ∈ M.fields, received (Json.marshal (f.codec.encode (f.get e))) ≠ none := by
    rw [Directory.convertEventToMap, convertInto_isSome]
    constructor
    · intro hall f hf
      rw [← convertAttribute_field hf e]
      exact hall _ (h.mem.mpr (.inl ⟨f, hf, rfl⟩))
    · intro hall attr hm
      rcases h.mem.mp hm with ⟨f, hf, rfl⟩ | hm
      · rw [convertAttribute_field hf e]
        exact hall f hf
      · rw [convertAttribute_reserved (h.reserved attr hm)]
        exact Option.some_ne_none _
  refine ⟨hsome, fun m hm => ?_⟩
  obtain ⟨hnodup, hmem⟩ := convertInto_spec hm List.nodup_nil h.makes_unique
  have hentry : ∀ key v, (key, v) ∈ m ↔ Makes attrs key v := by
    intro key v
    rw [hmem]
    exact or_iff_left fun hx => by cases hx.2
  refine ⟨?_, ?_⟩
  · rintro ⟨key, v⟩ hx
    obtain ⟨f, hf, hname, -⟩ := h.makes.mp ((hentry key v).mp hx)
    exact List.mem_map.mpr ⟨f, hf, hname⟩
  · intro f hf
    obtain ⟨o, ho⟩ := Option.ne_none_iff_exists'.mp (hsome.mp (by rw [hm]; rfl) f hf)
    rw [ho]
    refine congrArg some (Option.ext fun v => ?_)
    rw [Json.get?_eq_some hnodup, hentry, h.makes]
    constructor
    · rintro rfl
      exact ⟨f, hf, rfl, ho⟩
    · rintro ⟨g, hg, hname, hv⟩
      obtain rfl := Message.eq_of_name hg hf hname
      rw [ho] at hv
      exact Option.some.inj hv

/-- **What comes back of a message** is what comes back of each of its fields. -/
theorem parseEventToConcreteType_eq (h : Emitted M e attrs extra) {e' : α} :
    parseEventToConcreteType M attrs = some e' ↔
      ∀ f ∈ M.fields, f.codec.Returns (f.get e) (f.get e') := by
  obtain ⟨hsome, hread⟩ := h.convertEventToMap
  rw [parseEventToConcreteType]
  cases hm : Directory.convertEventToMap attrs with
  | none =>
    refine ⟨nofun, fun hall => ?_⟩
    rw [hm] at hsome
    refine absurd (hsome.mpr fun f hf => ?_) Bool.false_ne_true
    obtain ⟨o, ho, -⟩ := hall f hf
    rw [ho]
    exact Option.some_ne_none _
  | some m =>
    obtain ⟨hnames, hget⟩ := hread m hm
    rw [Option.bind_some, Json.unmarshal_marshal, Option.bind_some, Message.unmarshal, if_pos hnames,
      M.build_iff, List.forall_iff_forall_mem]
    refine forall₂_congr fun f hf => ?_
    unfold Codec.Returns
    rw [hget f hf]
    constructor
    · exact fun hr => ⟨_, rfl, hr⟩
    · rintro ⟨o, ho, hr⟩
      rw [Option.some.inj ho]
      exact hr

/-- **A message comes back exactly when each of its fields does.** -/
theorem parseEventToConcreteType_iff (h : Emitted M e attrs extra) :
    parseEventToConcreteType M attrs = some e ↔ ∀ f ∈ M.fields, f.codec.Survives (f.get e) :=
  parseEventToConcreteType_eq h

/-- The attributes as the SDK makes them. -/
theorem Emitted.typedEvent (M : Message α) (e : α) : Emitted M e (M.typedEvent e) [] := by
  refine ⟨by rw [List.append_nil], ?_⟩
  intro attr hattr
  cases hattr

/-- **The order of the attributes is free**, and those that the SDK adds do not matter. -/
theorem Emitted.parse_eq (h : Emitted M e attrs extra) :
    parseEventToConcreteType M attrs = parseEventToConcreteType M (M.typedEvent e) := by
  refine Option.ext ?_
  intro e'
  rw [parseEventToConcreteType_eq h, parseEventToConcreteType_eq (Emitted.typedEvent M e)]

end Parse

/-! ## Strings -/

/-- An escaped character is a backslash and more, and ends with a quote only if it is the
quote. -/
theorem escape_unsafe {c : Char} (h : Json.isSafe c = false) : ∃ xs x,
    Json.escape c = '\\' :: (xs ++ [x]) ∧ (x = '"' → c = '"' ∧ xs = []) := by
  unfold Json.escape
  rw [if_neg (by rw [h]; decide)]
  split
  · rename_i hc
    exact ⟨[], '"', rfl, fun _ => ⟨hc, rfl⟩⟩
  split
  · exact ⟨[], '\\', rfl, nofun⟩
  split
  · exact ⟨[], 'b', rfl, nofun⟩
  split
  · exact ⟨[], 'f', rfl, nofun⟩
  split
  · exact ⟨[], 'n', rfl, nofun⟩
  split
  · exact ⟨[], 'r', rfl, nofun⟩
  split
  · exact ⟨[], 't', rfl, nofun⟩
  · have hdigit : ∀ n : Fin 16, Text.hexDigit n ≠ '"' := by decide
    refine ⟨'u' :: [_, _, _], _, rfl, fun hx => ?_⟩
    exact absurd hx (hdigit ⟨c.toNat % 16, Nat.mod_lt _ (by decide)⟩)

theorem escape_safe {c : Char} (h : Json.isSafe c = true) : Json.escape c = [c] := if_pos h

theorem isQuote_of_isSafe {c : Char} (h : Json.isSafe c = true) : isQuote c = false :=
  decide_eq_false (Json.ne_of_isSafe h rfl)

theorem escapeAll_safe {cs : List Char} (h : ∀ c ∈ cs, Json.isSafe c = true) :
    Json.escapeAll cs = cs := by
  induction cs with
  | nil => rfl
  | cons c cs ih =>
    obtain ⟨hc, hcs⟩ := List.forall_mem_cons.mp h
    rw [Json.escapeAll, List.flatMap_cons, escape_safe hc]
    exact congrArg (c :: ·) (ih hcs)

/-- Escaping makes a text longer if there is anything to escape. -/
theorem length_escapeAll (cs : List Char) : cs.length ≤ (Json.escapeAll cs).length ∧
    ((∃ c ∈ cs, Json.isSafe c = false) → cs.length < (Json.escapeAll cs).length) := by
  induction cs with
  | nil => exact ⟨le_refl _, by rintro ⟨c, hc, -⟩; cases hc⟩
  | cons c cs ih =>
    rw [Json.escapeAll, List.flatMap_cons, List.length_append, List.length_cons, List.exists_mem_cons_iff]
    obtain ⟨hle, hlt⟩ := ih
    rw [Json.escapeAll] at hle hlt
    cases hc : Json.isSafe c with
    | true =>
      rw [escape_safe hc, List.length_singleton]
      refine ⟨by omega, ?_⟩
      rintro (hx | hx)
      · cases hx
      · have := hlt hx
        omega
    | false =>
      obtain ⟨xs, x, hx, -⟩ := escape_unsafe hc
      rw [hx, List.length_cons, List.length_append, List.length_singleton]
      exact ⟨by omega, fun _ => by omega⟩

/-- A string without its quotes: what is written between them, less the quote that an
escaped one at the end leaves. -/
theorem trimQuotes_quote (s : String) :
    trimQuotes (Json.quote s) = (Json.escapeAll s.toList).rdropWhile isQuote := by
  have hhead : (Json.escapeAll s.toList ++ ['"']).dropWhile isQuote =
      (Json.escapeAll s.toList ++ ['"']) ∨ s.toList = [] := by
    cases s.toList with
    | nil => exact .inr rfl
    | cons c cs =>
      refine .inl ?_
      rw [Json.escapeAll, List.flatMap_cons, List.append_assoc]
      cases hc : Json.isSafe c with
      | true =>
        rw [escape_safe hc, List.singleton_append]
        exact List.dropWhile_cons_of_neg (by rw [isQuote_of_isSafe hc]; decide)
      | false =>
        obtain ⟨xs, x, hx, -⟩ := escape_unsafe hc
        rw [hx, List.cons_append]
        exact List.dropWhile_cons_of_neg (by decide)
  rw [trimQuotes, Json.quote, List.dropWhile_cons_of_pos rfl]
  rcases hhead with h | h
  · rw [h, List.rdropWhile_concat_pos _ _ _ rfl]
  · rw [h]
    rfl

/-- Only a quote at the end is lost. -/
theorem rdropWhile_escapeAll (cs : List Char) :
    (Json.escapeAll cs).rdropWhile isQuote = Json.escapeAll cs ∨
      ∃ ds, cs = ds ++ ['"'] ∧ (Json.escapeAll cs).rdropWhile isQuote = Json.escapeAll ds ++ ['\\'] := by
  rcases List.eq_nil_or_concat cs with rfl | ⟨ds, c, rfl⟩
  · exact .inl rfl
  rw [List.concat_eq_append, Json.escapeAll, List.flatMap_append, List.flatMap_singleton]
  cases hc : Json.isSafe c with
  | true =>
    left
    rw [escape_safe hc]
    exact List.rdropWhile_concat_neg _ _ _ (by rw [isQuote_of_isSafe hc]; decide)
  | false =>
    obtain ⟨xs, x, hx, hquote⟩ := escape_unsafe hc
    rw [hx, ← List.cons_append, ← List.append_assoc]
    by_cases hq : x = '"'
    · obtain ⟨rfl, rfl⟩ := hquote hq
      subst hq
      right
      refine ⟨ds, rfl, ?_⟩
      rw [List.rdropWhile_concat_pos _ _ _ rfl]
      exact List.rdropWhile_concat_neg _ _ _ (by decide)
    · left
      exact List.rdropWhile_concat_neg _ _ _ (by rw [isQuote, decide_eq_true_eq]; exact hq)

/-- What is received begins as what is written, with a backslash for what is escaped. -/
theorem trimQuotes_cons {s : String} {c : Char} {cs : List Char} (hs : s.toList = c :: cs) :
    ∃ ds, trimQuotes (Json.quote s) = (if Json.isSafe c then c else '\\') :: ds := by
  have hall : ∀ d ds, ∃ es, Json.escapeAll (d :: ds) = (if Json.isSafe d then d else '\\') :: es := by
    intro d ds
    rw [Json.escapeAll, List.flatMap_cons]
    cases hd : Json.isSafe d with
    | true =>
      rw [escape_safe hd]
      exact ⟨_, rfl⟩
    | false =>
      obtain ⟨xs, x, hx, -⟩ := escape_unsafe hd
      rw [hx]
      exact ⟨_, rfl⟩
  rw [trimQuotes_quote, hs]
  rcases rdropWhile_escapeAll (c :: cs) with h | ⟨ds, hds, h⟩
  · rw [h]
    exact hall c cs
  · rw [h]
    cases ds with
    | nil =>
      obtain ⟨rfl, -⟩ := List.cons.inj hds
      exact ⟨[], rfl⟩
    | cons d ds =>
      obtain ⟨rfl, -⟩ := List.cons.inj hds
      obtain ⟨es, hes⟩ := hall c ds
      rw [hes]
      exact ⟨_, rfl⟩

/-- A string is received as it is written only if nothing in it is escaped. -/
theorem trimQuotes_quote_eq {s : String} : trimQuotes (Json.quote s) = s.toList ↔
    ∀ c ∈ s.toList, Json.isSafe c = true := by
  rw [trimQuotes_quote]
  constructor
  · intro h c hc
    by_contra hsafe
    rcases rdropWhile_escapeAll s.toList with he | ⟨ds, hds, he⟩
    · have hlt := (length_escapeAll s.toList).2 ⟨c, hc, Bool.eq_false_iff.mpr hsafe⟩
      rw [← he, h] at hlt
      omega
    · rw [he, hds] at h
      exact absurd (List.append_inj_right' h rfl) (by decide)
  · intro h
    rw [escapeAll_safe h, List.rdropWhile_eq_self_iff]
    intro hne
    rw [isQuote_of_isSafe (h _ (List.getLast_mem hne))]
    decide

/-- The strings that the decoder gives back: the ones with nothing to escape, unless they look
like an array, and the ones that look like an object, which are read as JSON. -/
def Passes (s : String) : Prop :=
  s.toList.head? = some '{' ∨ s.toList.head? ≠ some '[' ∧ ∀ c ∈ s.toList, Json.isSafe c = true

instance (s : String) : Decidable (Passes s) := by
  unfold Passes
  infer_instance

/-- The codec of a string field. -/
def Codec.string : Codec String where
  encode := .str
  decode
    | .str s => some s
    | _ => none
  zero := ""

/-- What a field with the JSON of a string is received as. -/
theorem received_quote (s : String) : received (Json.quote s) =
    match s.toList with
    | [] => some none
    | '{' :: _ => some (some (.str s))
    | '[' :: _ => none
    | _ => some (some (.str (String.ofList (trimQuotes (Json.quote s))))) := by
  have hread : Json.unmarshal (Json.quote s) = some (.str s) := by
    have h := Json.unmarshal_marshal (.str s)
    rw [Json.marshal] at h
    exact h
  cases hs : s.toList with
  | nil =>
    rw [received, trimQuotes_quote, hs]
    rfl
  | cons c cs =>
    obtain ⟨ds, hds⟩ := trimQuotes_cons hs
    rw [received, if_neg (by rw [hds]; exact List.cons_ne_nil _ _)]
    have hlit : c ≠ '{' → c ≠ '[' → nested (Json.quote s) (trimQuotes (Json.quote s)) =
        some (.str (String.ofList (trimQuotes (Json.quote s)))) := by
      intro hbrace hbracket
      rw [hds]
      unfold nested
      split
      · rename_i h
        have hc := (List.cons.inj h).1
        split at hc
        · exact absurd hc hbrace
        · cases hc
      · rename_i h
        have hc := (List.cons.inj h).1
        split at hc
        · exact absurd hc hbracket
        · cases hc
      · rfl
    split
    · rename_i h
      cases h
    · rename_i h
      obtain ⟨rfl, -⟩ := List.cons.inj h
      have hfirst : trimQuotes (Json.quote s) = '{' :: ds := hds
      rw [hfirst, nested, hread]
      rfl
    · rename_i h
      obtain ⟨rfl, -⟩ := List.cons.inj h
      have hfirst : trimQuotes (Json.quote s) = '[' :: ds := hds
      rw [hfirst, nested, hread]
      rfl
    · rename_i h₁ h₂ h₃
      rw [hlit (fun hc => h₂ cs (by rw [hc])) (fun hc => h₃ cs (by rw [hc]))]
      rfl

/-- Something comes back of every string but those that look like an array. -/
theorem returns_string {s : String} (h : s.toList.head? ≠ some '[') :
    ∃ t, Codec.string.Returns s t := by
  have hread : ∃ o t, received (Json.quote s) = some o ∧ Codec.string.read o = some t := by
    rw [received_quote]
    split
    · exact ⟨none, "", rfl, rfl⟩
    · exact ⟨_, s, rfl, rfl⟩
    · rename_i hs
      rw [hs] at h
      exact absurd rfl h
    · exact ⟨_, _, rfl, rfl⟩
  obtain ⟨o, t, ho, ht⟩ := hread
  refine ⟨t, o, ?_, ht⟩
  simp only [Codec.string, Json.marshal]
  exact ho

/-- **A string comes back exactly when it passes.** -/
theorem survives_string {s : String} : Codec.string.Survives s ↔ Passes s := by
  have hrec : Codec.string.Survives s ↔
      ∃ o, received (Json.quote s) = some o ∧ Codec.string.read o = some s := by
    unfold Codec.Survives
    simp only [Codec.string, Json.marshal]
  rw [hrec, received_quote, Passes]
  have hlit : Codec.string.read (some (.str (String.ofList (trimQuotes (Json.quote s))))) = some s ↔
      trimQuotes (Json.quote s) = s.toList := by
    simp only [Codec.read, Codec.string, Option.some.injEq]
    constructor
    · intro h
      rw [← String.toList_ofList (l := trimQuotes (Json.quote s)), h]
    · intro h
      rw [h, String.ofList_toList]
  rw [trimQuotes_quote_eq] at hlit
  split
  · rename_i hs
    rw [hs]
    refine ⟨fun _ => .inr ⟨nofun, nofun⟩, fun _ => ⟨none, rfl, ?_⟩⟩
    exact congrArg some (String.toList_inj.mp hs.symm)
  · rename_i hs
    rw [hs]
    exact ⟨fun _ => .inl rfl, fun _ => ⟨_, rfl, rfl⟩⟩
  · rename_i hs
    rw [hs]
    refine ⟨fun h => ?_, ?_⟩
    · obtain ⟨o, ho, -⟩ := h
      cases ho
    · rintro (h | ⟨h, -⟩)
      · cases h
      · exact absurd rfl h
  · rename_i h₁ h₂ h₃
    have hbrace : s.toList.head? ≠ some '{' := by
      intro h
      obtain ⟨cs, hcs⟩ := List.head?_eq_some_iff.mp h
      exact h₂ cs hcs
    have hbracket : s.toList.head? ≠ some '[' := by
      intro h
      obtain ⟨cs, hcs⟩ := List.head?_eq_some_iff.mp h
      exact h₃ cs hcs
    constructor
    · rintro ⟨o, ho, hr⟩
      obtain rfl := Option.some.inj ho
      exact .inr ⟨hbracket, hlit.mp hr⟩
    · rintro (h | ⟨-, h⟩)
      · exact absurd h hbrace
      · exact ⟨_, rfl, hlit.mpr h⟩

end Arkeo.Directory
