import Arkeo.Text
import Arkeo.Types

/-! # Service names

The static table of `common/service.go`: its two maps, `ServiceLookup` and
`ServiceReverseLookup`, are inverse to each other and number the names from `0`
in the order in which they are listed.
-/
namespace Arkeo

/-- The names of `ServiceLookup`, by their ids. -/
def serviceNames : List String :=
  ["unknown", "mock", "arkeo-mainnet-fullnode", "avax-mainnet-fullnode",
   "avax-mainnet-archivenode", "bch-mainnet-fullnode", "bch-mainnet-lightnode",
   "bnb-mainnet-fullnode", "bsc-mainnet-fullnode", "bsc-mainnet-archivenode",
   "btc-mainnet-fullnode", "btc-mainnet-lightnode", "cardano-mainnet-relaynode",
   "gaia-mainnet-rpc", "doge-mainnet-fullnode", "doge-mainnet-lightnode",
   "etc-mainnet-archivenode", "etc-mainnet-fullnode", "etc-mainnet-lightnode",
   "eth-mainnet-archivenode", "eth-mainnet-fullnode", "eth-mainnet-lightnode",
   "ltc-mainnet-fullnode", "ltc-mainnet-lightnode", "optimism-mainnet-fullnode",
   "osmosis-mainnet-fullnode", "polkadot-mainnet-fullnode", "polkadot-mainnet-lightnode",
   "polkadot-mainnet-archivenode", "polygon-mainnet-fullnode", "polygon-mainnet-archivenode",
   "sol-mainnet-fullnode", "thorchain-mainnet-fullnode", "bch-mainnet-unchained",
   "btc-mainnet-unchained", "bnb-mainnet-unchained", "bsc-mainnet-unchained", "unknown-2",
   "gaia-mainnet-unchained", "doge-mainnet-unchained", "eth-mainnet-unchained",
   "avax-mainnet-unchained", "ltc-mainnet-unchained", "osmosis-mainnet-unchained",
   "thorchain-mainnet-unchained", "optimism-mainnet-unchained", "gaia-mainnet-grpc",
   "btc-mainnet-blockbook", "ltc-mainnet-blockbook", "bch-mainnet-blockbook",
   "doge-mainnet-blockbook", "agoric-mainnet-archivenode", "agoric-mainnet-fullnode",
   "agoric-testnet-archivenode", "agoric-testnet-fullnode", "akash-mainnet-archivenode",
   "akash-mainnet-fullnode", "akash-testnet-archivenode", "akash-testnet-fullnode",
   "allora-mainnet-archivenode", "allora-mainnet-fullnode", "allora-testnet-archivenode",
   "allora-testnet-fullnode", "aptos-mainnet-fullnode", "aptos-testnet-fullnode",
   "arbitrum-mainnet-archivenode", "arbitrum-mainnet-fullnode", "arbitrum-mainnet-unchained",
   "arbitrum-testnet-archivenode", "arbitrum-testnet-fullnode", "arch-mainnet-archivenode",
   "arch-mainnet-fullnode", "arch-testnet-archivenode", "arch-testnet-fullnode",
   "arkeo-mainnet-archivenode", "arkeo-mainnet-unchained", "arkeo-testnet-archivenode",
   "arkeo-testnet-fullnode", "arkeo-testnet-unchained", "aur-mainnet-fullnode",
   "avax-fuji-testnet-fullnode", "avax-fuji-testnet-unchained", "azero-mainnet-archivenode",
   "azero-mainnet-fullnode", "azero-testnet-archivenode", "azero-testnet-fullnode",
   "babylon-mainnet-fullnode", "babylon-testnet-fullnode", "base-mainnet-archivenode",
   "base-mainnet-fullnode", "base-mainnet-unchained", "base-testnet-archivenode",
   "base-testnet-fullnode", "bch-testnet-blockbook", "bch-testnet-fullnode",
   "bch-testnet-lightnode", "bch-testnet-unchained", "bera-mainnet-archivenode",
   "bera-mainnet-fullnode", "bera-mainnet-unchained", "bera-testnet-archivenode",
   "bera-testnet-fullnode", "blast-mainnet-archivenode", "blast-mainnet-fullnode",
   "blast-mainnet-unchained", "blast-testnet-archivenode", "blast-testnet-fullnode",
   "bsc-testnet-archivenode", "bsc-testnet-fullnode", "btc-testnet-blockbook",
   "btc-testnet-fullnode", "btc-testnet-lightnode", "btc-testnet-unchained",
   "btg-mainnet-fullnode", "ccd-mainnet-fullnode", "celo-mainnet-archivenode",
   "celo-mainnet-fullnode", "celo-mainnet-unchained", "celo-testnet-archivenode",
   "celo-testnet-fullnode", "cere-mainnet-fullnode", "cfg-mainnet-archivenode",
   "cfg-mainnet-fullnode", "cheqd-mainnet-archivenode", "cheqd-mainnet-fullnode",
   "cro-mainnet-archivenode", "cro-mainnet-fullnode", "cro-testnet-archivenode",
   "cro-testnet-fullnode", "d-mainnet-fullnode", "dash-mainnet-blockbook",
   "dash-mainnet-fullnode", "dcr-mainnet-fullnode", "dfk-mainnet-archivenode",
   "dfk-mainnet-fullnode", "dfk-testnet-archivenode", "dfk-testnet-fullnode",
   "dgb-mainnet-fullnode", "dvpn-mainnet-archivenode", "dvpn-mainnet-fullnode",
   "dym-mainnet-archivenode", "dym-mainnet-fullnode", "dym-mainnet-unchained",
   "dym-testnet-archivenode", "dym-testnet-fullnode", "erowan-mainnet-archivenode",
   "erowan-mainnet-fullnode", "etc-mainnet-blockbook", "etc-mainnet-unchained",
   "eth-holesky-testnet-blockbook", "eth-holesky-testnet-fullnode",
   "eth-holesky-testnet-unchained", "eth-mainnet-blockbook", "eth-sepolia-testnet-blockbook",
   "eth-sepolia-testnet-fullnode", "eth-sepolia-testnet-unchained", "evmos-mainnet-archivenode",
   "evmos-mainnet-fullnode", "evmos-testnet-archivenode", "evmos-testnet-fullnode",
   "fil-mainnet-fullnode", "fil-mainnet-unchained", "fil-testnet-fullnode",
   "flare-mainnet-archivenode", "flare-mainnet-fullnode", "flare-mainnet-unchained",
   "flare-testnet-archivenode", "flare-testnet-fullnode", "flo-mainnet-fullnode",
   "flow-mainnet-fullnode", "flow-mainnet-unchained", "flow-testnet-fullnode",
   "frx-mainnet-archivenode", "frx-mainnet-fullnode", "frx-mainnet-unchained",
   "frx-testnet-archivenode", "frx-testnet-fullnode", "ftc-mainnet-fullnode",
   "ftm-mainnet-archivenode", "ftm-mainnet-fullnode", "ftm-mainnet-unchained",
   "ftm-testnet-archivenode", "ftm-testnet-fullnode", "fuse-mainnet-archivenode",
   "fuse-mainnet-fullnode", "fuse-testnet-archivenode", "fuse-testnet-fullnode",
   "gaia-mainnet-archivenode", "gaia-mainnet-fullnode", "gaia-mainnet-fullnode-grpc",
   "gaia-testnet-archivenode", "gaia-testnet-fullnode", "glmr-mainnet-archivenode",
   "glmr-mainnet-fullnode", "glmr-mainnet-unchained", "glmr-testnet-archivenode",
   "glmr-testnet-fullnode", "grs-mainnet-fullnode", "hbar-mainnet-fullnode",
   "hbar-mainnet-unchained", "hbar-testnet-fullnode", "hopr-mainnet-fullnode",
   "hopr-testnet-fullnode", "imx-mainnet-archivenode", "imx-mainnet-fullnode",
   "imx-mainnet-unchained", "imx-testnet-archivenode", "imx-testnet-fullnode",
   "initia-mainnet-archivenode", "initia-mainnet-fullnode", "inj-mainnet-archivenode",
   "inj-mainnet-fullnode", "inj-mainnet-unchained", "inj-testnet-archivenode",
   "inj-testnet-fullnode", "iota-mainnet-fullnode", "iotx-mainnet-fullnode",
   "ixo-mainnet-archivenode", "ixo-mainnet-fullnode", "jackal-mainnet-archivenode",
   "jackal-mainnet-fullnode", "juno-mainnet-archivenode", "juno-mainnet-fullnode",
   "juno-mainnet-unchained", "juno-testnet-archivenode", "juno-testnet-fullnode",
   "kava-mainnet-archivenode", "kava-mainnet-fullnode", "kava-testnet-archivenode",
   "kava-testnet-fullnode", "klay-mainnet-archivenode", "klay-mainnet-fullnode",
   "klay-mainnet-unchained", "klay-testnet-archivenode", "klay-testnet-fullnode",
   "koii-mainnet-fullnode", "lbtc-mainnet-fullnode", "linea-mainnet-archivenode",
   "linea-mainnet-fullnode", "linea-mainnet-unchained", "linea-testnet-archivenode",
   "linea-testnet-fullnode", "ln-mainnet-fullnode", "manta-mainnet-fullnode",
   "manta-mainnet-unchained", "mantle-mainnet-archivenode", "mantle-mainnet-fullnode",
   "mantle-mainnet-unchained", "mantra-mainnet-archivenode", "mantra-mainnet-fullnode",
   "maya-mainnet-archivenode", "maya-mainnet-fullnode", "mina-mainnet-fullnode",
   "mina-mainnet-unchained", "mona-mainnet-fullnode", "movr-mainnet-archivenode",
   "movr-mainnet-fullnode", "movr-testnet-archivenode", "movr-testnet-fullnode",
   "namada-mainnet-archivenode", "namada-mainnet-fullnode", "near-mainnet-fullnode",
   "near-mainnet-unchained", "near-testnet-fullnode", "neutron-mainnet-archivenode",
   "neutron-mainnet-fullnode", "neutron-mainnet-unchained", "ngm-mainnet-archivenode",
   "ngm-mainnet-fullnode", "ngm-testnet-archivenode", "ngm-testnet-fullnode",
   "nibiru-mainnet-archivenode", "nibiru-mainnet-fullnode", "nlg-mainnet-fullnode",
   "nmc-mainnet-fullnode", "nomic-mainnet-archivenode", "nomic-mainnet-fullnode",
   "one-mainnet-fullnode", "one-testnet-fullnode", "optimism-mainnet-archivenode",
   "osmosis-mainnet-archivenode", "paloma-mainnet-archivenode", "paloma-mainnet-fullnode",
   "part-mainnet-fullnode", "penumbra-mainnet-archivenode", "penumbra-mainnet-fullnode",
   "polkadot-testnet-archivenode", "polkadot-testnet-fullnode", "polkadot-testnet-lightnode",
   "polygon-Mumbai-testnet-fullnode", "polygon-Mumbai-testnet-unchained",
   "polygon-mainnet-unchained", "ppc-mainnet-fullnode", "pyth-mainnet-fullnode",
   "pyth-testnet-fullnode", "qtum-mainnet-blockbook", "qtum-mainnet-fullnode",
   "rdd-mainnet-fullnode", "router-mainnet-archivenode", "router-mainnet-fullnode",
   "rvn-mainnet-blockbook", "rvn-mainnet-fullnode", "scroll-mainnet-archivenode",
   "scroll-mainnet-fullnode", "scroll-mainnet-unchained", "scroll-testnet-archivenode",
   "scroll-testnet-fullnode", "scrt-mainnet-archivenode", "scrt-mainnet-fullnode",
   "seda-mainnet-fullnode", "sei-mainnet-archivenode", "sei-mainnet-fullnode",
   "sei-mainnet-unchained", "sei-testnet-archivenode", "sei-testnet-fullnode",
   "selfchain-mainnet-archivenode", "selfchain-mainnet-fullnode", "shardeum-mainnet-archivenode",
   "shardeum-mainnet-fullnode", "shardeum-mainnet-unchained", "shardeum-testnet-archivenode",
   "shardeum-testnet-fullnode", "smart-mainnet-fullnode", "sol-mainnet-unchained",
   "sol-testnet-fullnode", "somnia-mainnet-archivenode", "somnia-mainnet-fullnode",
   "starknet-mainnet-archivenode", "starknet-mainnet-fullnode", "starknet-testnet-archivenode",
   "starknet-testnet-fullnode", "stride-mainnet-archivenode", "stride-mainnet-fullnode",
   "sui-mainnet-fullnode", "sui-testnet-fullnode", "supra-mainnet-archivenode",
   "supra-mainnet-fullnode", "sys-mainnet-fullnode", "taiko-mainnet-archivenode",
   "taiko-mainnet-fullnode", "taiko-mainnet-unchained", "taiko-testnet-archivenode",
   "taiko-testnet-fullnode", "thorchain-mainnet-archivenode", "tia-mainnet-archivenode",
   "tia-mainnet-fullnode", "tia-mainnet-unchained", "tia-testnet-archivenode",
   "tia-testnet-fullnode", "ton-mainnet-fullnode", "ton-testnet-fullnode",
   "trx-mainnet-archivenode", "trx-mainnet-fullnode", "trx-mainnet-unchained",
   "trx-testnet-archivenode", "trx-testnet-fullnode", "union-mainnet-archivenode",
   "union-mainnet-fullnode", "via-mainnet-fullnode", "vtc-mainnet-fullnode",
   "xdai-mainnet-archivenode", "xdai-mainnet-fullnode", "xdai-mainnet-unchained",
   "xdai-testnet-archivenode", "xdai-testnet-fullnode", "xec-mainnet-fullnode",
   "xlm-mainnet-fullnode", "xlm-testnet-fullnode", "xprt-mainnet-archivenode",
   "xprt-mainnet-fullnode", "zec-mainnet-blockbook", "zec-mainnet-fullnode",
   "zircuit-mainnet-archivenode", "zircuit-mainnet-fullnode", "zircuit-mainnet-unchained",
   "zircuit-testnet-archivenode", "zircuit-testnet-fullnode", "zkfair-mainnet-archivenode",
   "zkfair-mainnet-fullnode", "zkfair-mainnet-unchained", "zkfair-testnet-archivenode",
   "zkfair-testnet-fullnode", "zksync-mainnet-archivenode", "zksync-mainnet-fullnode",
   "zksync-mainnet-unchained", "zksync-testnet-archivenode", "zksync-testnet-fullnode",
   "tao-mainnet-archivenode", "tao-mainnet-fullnode", "tao-mainnet-lightnode",
   "tao-testnet-fullnode", "tao-testnet-archivenode", "tao-indexer-subsquid",
   "tao-indexer-subquery", "arkeo-mainnet-rest"]

/-- `Service.String`: the name in the table, or a numbered name for an id the
table does not have. -/
def serviceString (service : ℕ) : String :=
  match serviceNames[service]? with
  | some name => name
  | none => "service-" ++ toString service

/-- `Service.Equals`: the names are the same up to the case of their letters. -/
def serviceEquals (service service' : ℕ) : Bool :=
  LetterCase.equalFold (serviceString service) (serviceString service')

/-- `ServiceLookup[name]`, with the zero value for a missing name. -/
def serviceLookup (name : String) : ℕ :=
  (serviceNames.findIdx? fun n => n = name).getD 0

theorem serviceEquals_self (n : ℕ) : serviceEquals n n = true := decide_eq_true rfl

/-! ## Parts of names

A name is made of parts with dashes between them.  What the table is asked for is asked once
for each of its 395 names (`serviceNames_shape`). -/

/-- The bytes of a name. -/
def nameBytes (name : String) : List UInt8 := name.toUTF8.data.toList

/-- What is before the first dash. -/
def firstPart (bytes : List UInt8) : List UInt8 := bytes.takeWhile (· ≠ 45)

/-- What is between each dash and the next. -/
def laterParts : List UInt8 → List (List UInt8)
  | [] => []
  | b :: bytes => if b = 45 then firstPart bytes :: laterParts bytes else laterParts bytes

/-- The parts with which a name of the table goes on. -/
def innerParts : List (List UInt8) :=
  ["mainnet", "testnet", "fullnode", "archivenode", "unchained", "lightnode", "blockbook",
   "relaynode", "rpc", "grpc", "2", "fuji", "holesky", "sepolia", "Mumbai", "indexer", "subsquid",
   "subquery", "rest"].map nameBytes

def isNumber (bytes : List UInt8) : Bool := bytes.all fun b => 48 ≤ b && b ≤ 57

/-- The bytes of ASCII but those of the capitals. -/
def isLowerByte (b : UInt8) : Bool := b < 65 || (90 < b && b < 128)

/-- The two names of the table that have a capital letter. -/
def capitalised : List String :=
  ["polygon-Mumbai-testnet-fullnode", "polygon-Mumbai-testnet-unchained"]

/-- What a name of the table looks like: it does not begin as another one goes on, nor as a
numbered one begins, and it is in lower case or capitalised. -/
structure NameShape (name : String) : Prop where
  first : firstPart (nameBytes name) ∉ nameBytes "service" :: innerParts
  notNumber : isNumber (firstPart (nameBytes name)) = false
  later : ∀ part ∈ laterParts (nameBytes name), part ∈ innerParts
  lower : (nameBytes name).all isLowerByte = true ∨ name ∈ capitalised
  unlowered : nameBytes name ∉ (capitalised.map toLower).map nameBytes

instance (name : String) : Decidable (NameShape name) :=
  decidable_of_iff
    (firstPart (nameBytes name) ∉ nameBytes "service" :: innerParts ∧
      isNumber (firstPart (nameBytes name)) = false ∧
      (∀ part ∈ laterParts (nameBytes name), part ∈ innerParts) ∧
      ((nameBytes name).all isLowerByte = true ∨ name ∈ capitalised) ∧
      nameBytes name ∉ (capitalised.map toLower).map nameBytes)
    ⟨fun ⟨h₁, h₂, h₃, h₄, h₅⟩ => ⟨h₁, h₂, h₃, h₄, h₅⟩, fun h => ⟨h.1, h.2, h.3, h.4, h.5⟩⟩

/-- How a numbered name begins. -/
structure NumberedBytes : Prop where
  dash : nameBytes "-" = [45]
  first : nameBytes "service" = [115, 101, 114, 118, 105, 99, 101]
  dashed : nameBytes "service-" = [115, 101, 114, 118, 105, 99, 101, 45]
  notInner : nameBytes "service" ∉ innerParts
  notNumber : isNumber (nameBytes "service") = false

theorem numberedBytes : NumberedBytes := by
  have hall : nameBytes "-" = [45] ∧ nameBytes "service" = [115, 101, 114, 118, 105, 99, 101] ∧
      nameBytes "service-" = [115, 101, 114, 118, 105, 99, 101, 45] ∧
      nameBytes "service" ∉ innerParts ∧ isNumber (nameBytes "service") = false := by
    decide +kernel
  obtain ⟨hdash, hfirst, hdashed, hinner, hnumber⟩ := hall
  exact ⟨hdash, hfirst, hdashed, hinner, hnumber⟩

theorem serviceNames_shape : ∀ name ∈ serviceNames, NameShape name := by
  decide +kernel

theorem firstPart_mem_laterParts (before bytes : List UInt8) :
    firstPart bytes ∈ laterParts (before ++ 45 :: bytes) := by
  induction before with
  | nil => exact List.mem_cons_self
  | cons b before ih =>
    rw [List.cons_append, laterParts]
    split
    · exact List.mem_cons_of_mem _ ih
    · exact ih

theorem nameBytes_append (a b : String) : nameBytes (a ++ b) = nameBytes a ++ nameBytes b := by
  unfold nameBytes
  rw [← ByteArray.toList_data_append]
  exact congrArg (fun b => b.data.toList) (String.toByteArray_append ..)

theorem nameBytes_injective : Function.Injective nameBytes := by
  intro a b h
  exact String.toByteArray_inj.mp (ByteArray.ext (Array.ext' h))

theorem isNumber_nameBytes (n : ℕ) : isNumber (nameBytes (toString n)) = true := by
  rw [isNumber, List.all_eq_true, nameBytes, Text.toUTF8_eq_flatMap]
  intro b hb
  obtain ⟨c, hc, hb⟩ := List.mem_flatMap.mp hb
  have hdigit : c.isDigit = true := by
    by_contra h
    exact Text.notMem_natRepr (by simpa using h) n hc
  -- a digit is encoded as itself
  rw [Char.isDigit, Bool.and_eq_true, decide_eq_true_eq, decide_eq_true_eq, ge_iff_le,
    UInt32.le_iff_toNat_le, UInt32.le_iff_toNat_le] at hdigit
  have hrange : 48 ≤ c.val.toNat ∧ c.val.toNat ≤ 57 := hdigit
  rw [String.utf8EncodeChar_eq_singleton, List.mem_singleton] at hb
  · subst hb
    rw [Bool.and_eq_true, decide_eq_true_eq, decide_eq_true_eq, UInt8.le_iff_toNat_le,
      UInt8.le_iff_toNat_le, UInt32.toNat_toUInt8]
    simp only [UInt8.reduceToNat]
    omega
  · refine if_pos ?_
    show c.val.toNat ≤ 127
    omega

theorem numbered_parts (n : ℕ) :
    firstPart (nameBytes ("service-" ++ toString n)) = nameBytes "service" ∧
      laterParts (nameBytes ("service-" ++ toString n)) = [nameBytes (toString n)] := by
  have hdash : ∀ bytes : List UInt8, isNumber bytes = true →
      firstPart bytes = bytes ∧ laterParts bytes = [] := by
    intro bytes hnum
    induction bytes with
    | nil => exact ⟨rfl, rfl⟩
    | cons b bytes ih =>
      rw [isNumber, List.all_cons, Bool.and_eq_true] at hnum
      obtain ⟨hfirst, hlater⟩ := ih hnum.2
      have hne : b ≠ 45 := by
        rintro rfl
        exact absurd hnum.1 (by decide)
      have hcons : firstPart (b :: bytes) = b :: firstPart bytes :=
        List.takeWhile_cons_of_pos (by simpa using hne)
      rw [hcons, hfirst, laterParts, if_neg hne, hlater]
      exact ⟨rfl, rfl⟩
  obtain ⟨hfirst, hlater⟩ := hdash _ (isNumber_nameBytes n)
  rw [nameBytes_append, numberedBytes.dashed, numberedBytes.first]
  refine ⟨rfl, ?_⟩
  change firstPart (nameBytes (toString n)) :: laterParts (nameBytes (toString n)) = _
  rw [hfirst, hlater]

/-! ## There and back

The table has 395 names, too many to compare each with each.  A name is coded as a
number, and the codes are told apart by their residues modulo a number that does
it. -/

/-- The bytes of a name as the digits of a number. -/
def nameCode (name : String) : ℕ :=
  name.toUTF8.data.toList.foldl (fun n b => 256 * n + b.toNat) 0

/-- None of the numbers comes twice; the bits of `seen` are those that have come. -/
def distinct (seen : ℕ) : List ℕ → Bool
  | [] => true
  | r :: rs => !seen.testBit r && distinct (seen ||| 2 ^ r) rs

theorem nodup_of_distinct {rs : List ℕ} {seen : ℕ} (h : distinct seen rs = true) :
    rs.Nodup ∧ ∀ r ∈ rs, seen.testBit r = false := by
  induction rs generalizing seen with
  | nil => exact ⟨List.nodup_nil, nofun⟩
  | cons r rs ih =>
    rw [distinct, Bool.and_eq_true, Bool.not_eq_true'] at h
    obtain ⟨hnodup, hunseen⟩ := ih h.2
    have hsplit : ∀ q ∈ rs, seen.testBit q = false ∧ r ≠ q := by
      intro q hq
      have hbit := hunseen q hq
      rw [Nat.testBit_or, Nat.testBit_two_pow, Bool.or_eq_false_iff] at hbit
      exact ⟨hbit.1, of_decide_eq_false hbit.2⟩
    refine ⟨List.nodup_cons.mpr ⟨?_, hnodup⟩, List.forall_mem_cons.mpr ⟨h.1, ?_⟩⟩
    · intro hmem
      exact (hsplit r hmem).2 rfl
    · intro q hq
      exact (hsplit q hq).1

theorem serviceNames_nodup : serviceNames.Nodup :=
  List.Nodup.of_map (fun name => nameCode name % 10663)
    (nodup_of_distinct (show distinct 0 _ = true by decide +kernel)).1

theorem serviceString_of_lt {n : ℕ} (h : n < serviceNames.length) :
    serviceString n = serviceNames[n] := by
  rw [serviceString, List.getElem?_eq_getElem h]

theorem serviceString_of_le {n : ℕ} (h : serviceNames.length ≤ n) :
    serviceString n = "service-" ++ toString n := by
  rw [serviceString, List.getElem?_eq_none h]

/-- No name of the table is a numbered one. -/
theorem numbered_not_mem (n : ℕ) : "service-" ++ toString n ∉ serviceNames := by
  intro hmem
  refine (serviceNames_shape _ hmem).first ?_
  rw [(numbered_parts n).1]
  exact List.mem_cons_self

/-- Different ids have different names. -/
theorem serviceString_injective : Function.Injective serviceString := by
  intro n m h
  rcases Nat.lt_or_ge n serviceNames.length with hn | hn
  · rw [serviceString_of_lt hn] at h
    rcases Nat.lt_or_ge m serviceNames.length with hm | hm
    · rw [serviceString_of_lt hm] at h
      exact serviceNames_nodup.getElem_inj_iff.mp h
    · rw [serviceString_of_le hm] at h
      exact absurd (h ▸ List.getElem_mem hn) (numbered_not_mem m)
  · rw [serviceString_of_le hn] at h
    rcases Nat.lt_or_ge m serviceNames.length with hm | hm
    · rw [serviceString_of_lt hm] at h
      exact absurd (h ▸ List.getElem_mem hm) (numbered_not_mem n)
    · rw [serviceString_of_le hm, String.append_right_inj] at h
      exact Text.natRepr_inj h

/-! ## A name after a text

No name begins as another one goes on after a dash, so a name is told from what stands
before it and a dash. -/

/-- How the name of an id goes on. -/
theorem serviceString_laterParts (n : ℕ) :
    ∀ part ∈ laterParts (nameBytes (serviceString n)), part ∈ innerParts ∨ isNumber part = true := by
  intro part hpart
  rcases Nat.lt_or_ge n serviceNames.length with hn | hn
  · rw [serviceString_of_lt hn] at hpart
    exact .inl ((serviceNames_shape _ (List.getElem_mem hn)).later part hpart)
  · rw [serviceString_of_le hn, (numbered_parts n).2, List.mem_singleton] at hpart
    subst hpart
    exact .inr (isNumber_nameBytes n)

/-- How it begins. -/
theorem serviceString_firstPart (n : ℕ) :
    firstPart (nameBytes (serviceString n)) ∉ innerParts ∧
      isNumber (firstPart (nameBytes (serviceString n))) = false := by
  rcases Nat.lt_or_ge n serviceNames.length with hn | hn
  · rw [serviceString_of_lt hn]
    have hshape := serviceNames_shape _ (List.getElem_mem hn)
    exact ⟨fun hmem => hshape.first (List.mem_cons_of_mem _ hmem), hshape.notNumber⟩
  · rw [serviceString_of_le hn, (numbered_parts n).1]
    exact ⟨numberedBytes.notInner, numberedBytes.notNumber⟩

/-- **A text, a dash and the name of an id** say what the text and the id are. -/
theorem dash_serviceString_inj {a b : String} {n m : ℕ}
    (h : a ++ "-" ++ serviceString n = b ++ "-" ++ serviceString m) : a = b ∧ n = m := by
  have hnone : ∀ n m x, nameBytes (serviceString n) ≠ x ++ 45 :: nameBytes (serviceString m) := by
    intro n m x heq
    have hpart := serviceString_laterParts n (firstPart (nameBytes (serviceString m)))
      (heq ▸ firstPart_mem_laterParts x _)
    obtain ⟨hinner, hnumber⟩ := serviceString_firstPart m
    rcases hpart with hmem | hnum
    · exact hinner hmem
    · rw [hnumber] at hnum
      cases hnum
  have hbytes : nameBytes a ++ (45 :: nameBytes (serviceString n)) =
      nameBytes b ++ (45 :: nameBytes (serviceString m)) := by
    have h := congrArg nameBytes h
    rw [nameBytes_append, nameBytes_append, nameBytes_append, nameBytes_append,
      numberedBytes.dash,
      List.append_assoc, List.append_assoc] at h
    exact h
  rcases List.append_eq_append_iff.mp hbytes with ⟨x, hb, hrest⟩ | ⟨x, ha, hrest⟩
  · cases x with
    | nil =>
      rw [List.append_nil] at hb
      refine ⟨(nameBytes_injective hb).symm, ?_⟩
      exact serviceString_injective (nameBytes_injective (List.cons.inj hrest).2)
    | cons c x => exact absurd (List.cons.inj hrest).2 (hnone n m x)
  · cases x with
    | nil =>
      rw [List.append_nil] at ha
      refine ⟨nameBytes_injective ha, ?_⟩
      exact serviceString_injective (nameBytes_injective (List.cons.inj hrest).2).symm
    | cons c x => exact absurd (List.cons.inj hrest).2 (hnone m n x)

/-! ## Letter case -/

/-- A text whose bytes are of ASCII consists of the characters with these codes. -/
theorem ascii_of_bytes {text : String} (h : (nameBytes text).all (· < 128) = true) :
    ∀ c ∈ text.toList, ∃ b ∈ nameBytes text, c = Char.ofNat b.toNat := by
  have hone : ∀ b : Fin 256, UInt8.ofNat b < 128 →
      String.utf8EncodeChar (Char.ofNat b) = [UInt8.ofNat b] := by
    decide +kernel
  have hbyte : ∀ b ∈ nameBytes text, String.utf8EncodeChar (Char.ofNat b.toNat) = [b] := by
    intro b hb
    have hcode := hone ⟨b.toNat, b.toNat_lt⟩
    rw [UInt8.ofNat_toNat] at hcode
    exact hcode (of_decide_eq_true (List.all_eq_true.mp h b hb))
  have htext : text = String.ofList ((nameBytes text).map fun b => Char.ofNat b.toNat) := by
    refine nameBytes_injective ?_
    rw [nameBytes, nameBytes, Text.toUTF8_eq_flatMap (String.ofList _), String.toList_ofList,
      List.flatMap_map]
    refine (List.flatMap_singleton' _).symm.trans ?_
    exact List.flatMap_congr fun b hb => (hbyte b hb).symm
  intro c hc
  rw [htext, String.toList_ofList] at hc
  obtain ⟨b, hb, rfl⟩ := List.mem_map.mp hc
  exact ⟨b, hb, rfl⟩

/-- What follows from the bytes of a text in ASCII for its characters. -/
theorem chars_of_bytes {text : String} {p : UInt8 → Bool} {P : Char → Prop}
    (h : (nameBytes text).all p = true)
    (hp : ∀ b : Fin 256, p (UInt8.ofNat b) = true → UInt8.ofNat b < 128 ∧ P (Char.ofNat b)) :
    ∀ c ∈ text.toList, P c := by
  have hbyte : ∀ b ∈ nameBytes text, b < 128 ∧ P (Char.ofNat b.toNat) := by
    intro b hb
    have hcode := hp ⟨b.toNat, b.toNat_lt⟩
    rw [UInt8.ofNat_toNat] at hcode
    exact hcode (List.all_eq_true.mp h b hb)
  have hascii : (nameBytes text).all (· < 128) = true :=
    List.all_eq_true.mpr fun b hb => decide_eq_true (hbyte b hb).1
  intro c hc
  obtain ⟨b, hb, rfl⟩ := ascii_of_bytes hascii c hc
  exact (hbyte b hb).2

/-- A text in ASCII none of whose bytes is a capital letter is in lower case. -/
theorem toLower_of_bytes {text : String} (h : (nameBytes text).all isLowerByte = true) :
    toLower text = text := by
  have hchar : ∀ c ∈ text.toList, LetterCase.toLower c = c :=
    chars_of_bytes h (by decide +kernel)
  unfold toLower
  rw [List.map_congr_left hchar, List.map_id', String.ofList_toList]

theorem serviceNames_lower (n : String) (hn : n ∈ serviceNames) :
    (nameBytes n).all isLowerByte = true ∨ n ∈ capitalised :=
  (serviceNames_shape n hn).lower

theorem capitalised_unlisted (n : String) (hn : n ∈ capitalised) : toLower n ∉ serviceNames := by
  intro hmem
  refine (serviceNames_shape _ hmem).unlowered ?_
  exact List.mem_map_of_mem (List.mem_map_of_mem hn)

/-- No two names of the table differ only in their letter case. -/
theorem serviceNames_lower_nodup : (serviceNames.map toLower).Nodup := by
  refine serviceNames_nodup.map_on ?_
  intro n hn m hm h
  rcases serviceNames_lower n hn with hl | hc
  · rcases serviceNames_lower m hm with hl' | hc'
    · rw [toLower_of_bytes hl, toLower_of_bytes hl'] at h
      exact h
    · rw [toLower_of_bytes hl] at h
      exact absurd (h ▸ hn) (capitalised_unlisted m hc')
  · rcases serviceNames_lower m hm with hl' | hc'
    · rw [toLower_of_bytes hl'] at h
      exact absurd (h ▸ hm) (capitalised_unlisted n hc)
    · have hall : ∀ a ∈ capitalised, ∀ b ∈ capitalised, toLower a = toLower b → a = b := by
        decide +kernel
      exact hall n hc m hc' h

/-- A numbered name is in lower case. -/
theorem numbered_lower (n : ℕ) : (nameBytes ("service-" ++ toString n)).all isLowerByte = true := by
  rw [nameBytes_append, numberedBytes.dashed, List.all_append, Bool.and_eq_true]
  refine ⟨by decide, ?_⟩
  have hnum := isNumber_nameBytes n
  rw [isNumber, List.all_eq_true] at hnum
  rw [List.all_eq_true]
  intro b hb
  have hle := hnum b hb
  simp only [Bool.and_eq_true, decide_eq_true_eq, UInt8.le_iff_toNat_le] at hle
  have h57 : b.toNat ≤ 57 := hle.2
  have h65 : (65 : UInt8).toNat = 65 := rfl
  have hlt : b < 65 := UInt8.lt_iff_toNat_lt.mpr (by omega)
  rw [isLowerByte, decide_eq_true hlt, Bool.true_or]

/-- The name of an id is in ASCII. -/
theorem serviceString_ascii (n : ℕ) : ∀ c ∈ (serviceString n).toList, c.toNat < 128 := by
  have hlow : ∀ b : Fin 256, isLowerByte (UInt8.ofNat b) = true →
      UInt8.ofNat b < 128 ∧ (Char.ofNat b).toNat < 128 := by
    decide +kernel
  rcases Nat.lt_or_ge n serviceNames.length with hn | hn
  · rw [serviceString_of_lt hn]
    rcases serviceNames_lower _ (List.getElem_mem hn) with hl | hc
    · exact chars_of_bytes hl hlow
    · have hall : ∀ name ∈ capitalised, ∀ c ∈ name.toList, c.toNat < 128 := by
        decide +kernel
      exact hall _ hc
  · rw [serviceString_of_le hn]
    exact chars_of_bytes (numbered_lower n) hlow

/-- A key that is neither in the table nor that of a name with capitals is new. -/
theorem notMem_serviceNames_lower {key : String} (h : key ∉ serviceNames)
    (hc : key ∉ capitalised.map toLower) : key ∉ serviceNames.map toLower := by
  intro hmem
  obtain ⟨n, hn, rfl⟩ := List.mem_map.mp hmem
  rcases serviceNames_lower n hn with hl | hcap
  · rw [toLower_of_bytes hl] at h
    exact h hn
  · exact hc (List.mem_map_of_mem hcap)

/-! ## Names of ids -/

/-- **An id survives being written as a name exactly when the table has it.** -/
theorem serviceLookup_serviceString (n : ℕ) :
    serviceLookup (serviceString n) = n ↔ n < serviceNames.length := by
  constructor
  · intro h
    by_contra hge
    rw [Nat.not_lt] at hge
    -- a numbered name is not found, and `0` is in the table
    have hnone : serviceNames.findIdx? (fun name => name = serviceString n) = none := by
      rw [List.findIdx?_eq_none_iff, serviceString_of_le hge]
      intro name hname
      exact decide_eq_false fun heq => numbered_not_mem n (heq ▸ hname)
    rw [serviceLookup, hnone, Option.getD_none] at h
    rw [← h] at hge
    exact absurd (List.length_eq_zero_iff.mp (Nat.le_zero.mp hge)) (List.cons_ne_nil _ _)
  · intro h
    have hfind : serviceNames.findIdx? (fun name => name = serviceString n) = some n := by
      rw [List.findIdx?_eq_some_iff_getElem]
      refine ⟨h, ?_, ?_⟩
      · exact decide_eq_true (serviceString_of_lt h).symm
      · intro j hj heq
        rw [decide_eq_true_eq, serviceString_of_lt h] at heq
        exact absurd (serviceNames_nodup.getElem_inj_iff.mp heq) (by omega)
    rw [serviceLookup, hfind, Option.getD_some]

end Arkeo
